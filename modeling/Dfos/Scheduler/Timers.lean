import Dfos.Scheduler.Effects

/-!
# How long a task sleeps

A task that sleeps, or waits and is not woken, is moved by the timer expiry of
the tick at which the clock first reaches its deadline, and nothing else moves it
or its deadline.  The deadline and the clock are both taken modulo 2^32 and
compared as they stand, and a deadline of zero means that there is none.  So a
sleep lasts as long as asked where deadline and clock wrap together, or neither
does.
-/

namespace Dfos.Scheduler

open Dfos.Lib

/-- Asleep or blocked. -/
def Task.Resting (t : Task) : Prop :=
  t.state = .sleeping ∨ t.state = .blocked

/-- The clock stands still and, if `t` rests, it rests on with its deadline. -/
structure RestsOn (t : TaskId) (s s' : State) : Prop where
  clock : s'.systemTicks = s.systemTicks
  rests : (s.tasks t).Resting →
    (s'.tasks t).state = (s.tasks t).state ∧ (s'.tasks t).wakeupTick = (s.tasks t).wakeupTick

section

variable {s m s' : State} {t u : TaskId} {contents : ListRef → List TaskId} {held : Finset TaskId}

theorem RestsOn.of_same (clock : s'.systemTicks = s.systemTicks)
    (same : s'.tasks t = s.tasks t) : RestsOn t s s' :=
  ⟨clock, fun _ => by rw [same]; exact ⟨rfl, rfl⟩⟩

theorem RestsOn.refl (s : State) : RestsOn t s s := .of_same rfl rfl

theorem RestsOn.trans (first : RestsOn t s m) (second : RestsOn t m s') : RestsOn t s s' := by
  refine ⟨second.clock.trans first.clock, fun resting => ?_⟩
  obtain ⟨state, wakeup⟩ := first.rests resting
  have still : (m.tasks t).Resting := by
    unfold Task.Resting at resting ⊢
    rwa [state]
  obtain ⟨state', wakeup'⟩ := second.rests still
  exact ⟨state'.trans state, wakeup'.trans wakeup⟩

theorem RestsOn.setTask {f : Task → Task} (state : (f (s.tasks u)).state = (s.tasks u).state)
    (wakeup : (f (s.tasks u)).wakeupTick = (s.tasks u).wakeupTick) :
    RestsOn t s (s.setTask u f) := by
  refine ⟨rfl, fun _ => ?_⟩
  rcases eq_or_ne t u with rfl | other
  · rw [State.setTask_same]
    exact ⟨state, wakeup⟩
  · rw [State.setTask_other s f other]
    exact ⟨rfl, rfl⟩

/-- Writing to a task that does not rest. -/
theorem RestsOn.of_awake (clock : s'.systemTicks = s.systemTicks)
    (others : ∀ v, v ≠ u → s'.tasks v = s.tasks v) (awake : ¬ (s.tasks u).Resting) :
    RestsOn t s s' := by
  refine ⟨clock, fun resting => ?_⟩
  have other : t ≠ u := by
    rintro rfl
    exact awake resting
  rw [others t other]
  exact ⟨rfl, rfl⟩

theorem Moves.restsOn (moves : Moves (· = u) s s') (awake : ¬ (s.tasks u).Resting) :
    RestsOn t s s' :=
  .of_awake moves.machine.systemTicks moves.untouched awake

theorem OnlySlot.restsOn (slot : OnlySlot u s s') (awake : ¬ (s.tasks u).Resting) :
    RestsOn t s s' :=
  .of_awake slot.machine.systemTicks slot.others awake

/-- A task in any other state does not rest. -/
theorem Task.not_resting {task : Task} {state : TaskState} (now : task.state = state)
    (other : state ≠ .sleeping ∧ state ≠ .blocked) : ¬ task.Resting := by
  rintro (resting | resting)
  · exact other.1 (now.symm.trans resting)
  · exact other.2 (now.symm.trans resting)

/-! ## A switch -/

theorem saveFrame_restsOn (s : State) (cpu : Nat) (frame : Option Nat) :
    RestsOn t s (saveFrame s cpu frame) := by
  unfold saveFrame
  split
  · exact .setTask rfl rfl
  · exact .refl _

theorem requeueCurrent_restsOn (s : State) (executing cpu : Nat) :
    RestsOn t s (requeueCurrent s executing cpu) := by
  unfold requeueCurrent
  split
  · split
    · next running =>
        exact (schedulerCpuEnqueueRunnable_moves executing cpu .reschedule
          (by simp [running])).restsOn (Task.not_resting running (by decide))
    · exact .refl _
  · exact .refl _

theorem schedulerSwitchToTask_restsOn {executing cpu : Nat} {next : Option TaskId}
    {frame : Option Nat} {r : State × Option Nat}
    (awake : ∀ u, next = some u → ¬ (s.tasks u).Resting)
    (switched : schedulerSwitchToTask s executing cpu next frame = .ok r) : RestsOn t s r.1 := by
  unfold schedulerSwitchToTask at switched
  split at switched
  · split at switched
    · cases switched
    · split at switched
      · cases switched
        exact .of_same rfl rfl
      · cases switched
  · next u =>
      cases switched
      exact .of_awake rfl (fun v other => makeCurrent_other s cpu other) (awake u rfl)

section

variable (core : Core s contents held)
include core

theorem schedulerScheduleCpu_restsOn {executing cpu : Nat} {frame : Option Nat}
    {r : State × Option Nat} (reserved : Reserved s held)
    (online : (s.cpus cpu).online)
    (scheduled : schedulerScheduleCpu s executing cpu frame true = .ok r) : RestsOn t s r.1 := by
  have saved := saveFrame_core core cpu frame
  have kept := saveFrame_reserved reserved cpu frame
  have onlineSaved : ((saveFrame s cpu frame).cpus cpu).online := by
    rw [saveFrame_cpus]
    exact online
  obtain ⟨⟨queues, requeued⟩, -, -⟩ := requeueCurrent_core saved kept onlineSaved executing
  have before : RestsOn t s (requeueCurrent (saveFrame s cpu frame) executing cpu) :=
    (saveFrame_restsOn s cpu frame).trans (requeueCurrent_restsOn _ executing cpu)
  rw [schedulerScheduleCpu_forced] at scheduled
  unfold reschedule at scheduled
  generalize requeueCurrent (saveFrame s cpu frame) executing cpu = m
    at requeued before scheduled
  rcases schedulerCpuDequeueNextRunnable_core requeued cpu with
    ⟨n, next, rest, taken, -, -, moves, state, -, same⟩ | empty
  · rw [taken] at scheduled
    have awake : ¬ (n.tasks next).Resting :=
      Task.not_resting (show _ = TaskState.runnable by rw [same, ← state]) (by decide)
    refine before.trans ((moves.restsOn (Task.not_resting state (by decide))).trans
      (schedulerSwitchToTask_restsOn (fun u here => ?_) scheduled))
    rw [← Option.some.inj here]
    exact awake
  · rw [empty] at scheduled
    exact before.trans
      (schedulerSwitchToTask_restsOn (fun u here => absurd here (by simp)) scheduled)

theorem tickCurrent_restsOn {cpu : Nat} {frame : Option Nat} {r : State × Option Nat}
    (reserved : Reserved s held) (online : (s.cpus cpu).online)
    (ticked : tickCurrent s cpu frame = .ok r) : RestsOn t s r.1 := by
  have here : schedulerCurrentCpuState s cpu = cpu := core.topology.currentCpu_eq online
  rcases tickCurrent_cases s cpu frame with scheduled | ⟨u, -, -, charged⟩
  · rw [scheduled, here] at ticked
    exact schedulerScheduleCpu_restsOn core reserved online ticked
  · obtain ⟨coreC, stirs⟩ := charge_core core u
    have first : RestsOn t s (charge s u) := .setTask rfl rfl
    rcases charged with scheduled | stays
    · rw [scheduled, here] at ticked
      have onlineC : ((charge s u).cpus cpu).online := online
      exact first.trans
        (schedulerScheduleCpu_restsOn coreC (stirs.reserved reserved) onlineC ticked)
    · rw [stays] at ticked
      cases ticked
      exact first.trans (saveFrame_restsOn _ _ frame)

/-! ## Timer expiry -/

/-- **Timer expiry moves every task whose deadline has come** to a run queue. -/
theorem schedulerAdvanceTimers_wakes (reserved : Reserved s held)
    (due : Due s t) (executing : Nat) :
    ∃ s', schedulerAdvanceTimers s executing = some s' ∧ (s'.tasks t).state = .runnable ∧
      (s'.tasks t).listKind = .runnable := by
  have off : t ∉ held := by
    intro inHand
    have unused := reserved t inHand
    rcases due.2 with state | ⟨state, -⟩ <;> cases unused.symm.trans state
  have picked : ∀ {r}, (s.tasks t).home = some r → t ∈ (contents r).filter (Due s) := by
    intro r home
    exact List.mem_filter.mpr ⟨core.placed.mem_of_home off home, by simpa using due⟩
  obtain ⟨m, s', contents₁, contents₂, advanced, first, second⟩ :=
    schedulerAdvanceTimers_woken core executing
  refine ⟨s', advanced, ?_⟩
  rcases due.2 with sleeping | ⟨blocked, -⟩
  · have home : (s.tasks t).home = some .sleeping := by rw [Task.home, sleeping]
    have woken := first.tasks t (picked home)
    have stays : t ∉ (contents .blocked).filter (Due s) := by
      intro again
      have there := core.placed.home (List.mem_of_mem_filter again)
      cases home.symm.trans there
    rw [second.moves.untouched t stays]
    exact ⟨woken.state, woken.kind⟩
  · have home : (s.tasks t).home = some .blocked := by rw [Task.home, blocked]
    have woken := second.tasks t (picked home)
    exact ⟨woken.state, woken.kind⟩

/-! ## Priorities and wakes -/

theorem schedulerSetTaskPriority_restsOn (reserved : Reserved s held)
    (executing taskId priority : Nat) :
    RestsOn t s (schedulerSetTaskPriority s executing taskId priority).1 := by
  unfold schedulerSetTaskPriority
  cases found : schedulerFindTaskById s taskId with
  | none => exact .refl _
  | some u =>
      dsimp only
      split
      · exact .refl _
      · next changes =>
        by_cases state : (s.tasks u).state = .runnable
        · have off : u ∉ held := fun inHand =>
            schedulerFindTaskById_live found (reserved u inHand)
          obtain ⟨-, moves⟩ := changePriority_queued core off state
            (schedulerPrioritySanitize_lt priority) changes executing
          exact moves.restsOn (Task.not_resting state (by decide))
        · have first : RestsOn t s (s.setTask u
              fun v => { v with priority := schedulerPrioritySanitize priority }) :=
            .setTask rfl rfl
          have stays : unqueue s u = s := if_neg fun here => state here.1
          unfold changePriority
          rw [stays]
          dsimp only
          generalize changed : (s.setTask u
            fun v => { v with priority := schedulerPrioritySanitize priority }) = m at first
          have same : (m.tasks u).state = (s.tasks u).state := by
            rw [← changed, State.setTask_same]
          have kept : requeue m executing u = m := if_neg (by rwa [same])
          rw [kept]
          unfold renewSlice
          split
          · exact first.trans (.setTask rfl rfl)
          · exact first

/-- A task that a wake leaves in its state was passed by. -/
theorem schedulerWakeChannel_restsOn
    {executing channel maxCount : Nat} {w : State × Nat}
    (woke : schedulerWakeChannel s executing (some channel) maxCount = some w)
    (spared : (w.1.tasks t).state = (s.tasks t).state) : RestsOn t s w.1 := by
  obtain ⟨s', contents', again, woken⟩ := schedulerWakeChannel_woken core executing channel maxCount
  cases woke.symm.trans again
  refine ⟨woken.moves.machine.systemTicks, fun resting => ?_⟩
  have passed : t ∉ (s.waitersOn channel (contents .blocked)).take
      (if maxCount = 0 then 0xFFFFFFFF else maxCount) := by
    intro picked
    exact Task.not_resting (spared.symm.trans (woken.tasks t picked).state) (by decide) resting
  rw [woken.moves.untouched t passed]
  exact ⟨rfl, rfl⟩

end

end

/-! ## Steps -/

/-- A timer tick. -/
def Action.isTick : Action → Bool
  | .timerTick _ _ => true
  | _ => false

def ReadStep.isTick : ReadStep Action → Bool
  | .act action => action.isTick
  | _ => false

/-- The step is no wake of `t`. -/
def World.Spares (w : World) (t : TaskId) (action : Action) : Prop :=
  ∀ cpu channel maxCount w', action = .wakeChannel cpu channel maxCount →
    w.step action = some w' → (w'.state.tasks t).state = (w.state.tasks t).state

section

variable {w w' : World} {t : TaskId} {contents : ListRef → List TaskId} {held : Finset TaskId}

/-- **A step that is neither a tick that reaches the deadline of `t` nor a wake
leaves `t` at rest.** -/
theorem World.Sound.restsOn {action : Action} (sound : w.Sound contents held)
    (calm : w.Calm action) (spares : w.Spares t action) (stepped : w.step action = some w')
    (early : action.isTick = true → ¬ Due w.state.countTick t) :
    RestsOn t (if action.isTick then w.state.countTick else w.state) w'.state := by
  have stands : ∀ {action : Action}, action.isTick = false →
      RestsOn t w.state w'.state →
      RestsOn t (if action.isTick then w.state.countTick else w.state) w'.state := by
    intro action quiet rests
    rwa [quiet, if_neg Bool.false_ne_true]
  cases sound.outcome calm stepped with
  | boots boots booted starts clock =>
      refine stands (by cases action <;> first | rfl | cases boots) ?_
      exact .of_awake clock booted.others (Task.not_resting booted.fresh (by decide))
  | creates slot starts => exact slot.restsOn (Task.not_resting starts.fresh (by decide))
  | slot slot only before after =>
      refine stands (by rcases slot with ⟨_, _, rfl⟩ | rfl <;> rfl) ?_
      exact only.restsOn (Task.not_resting before (by decide))
  | @ticks cpu frame m queues resumed timers core stirs clock online ticked =>
      have second : RestsOn t m w'.state :=
        tickCurrent_restsOn core (stirs.reserved sound.reserved) online ticked
      refine RestsOn.trans ⟨clock, fun resting => ?_⟩ second
      have off : ¬ TickMoves w.state t := by
        rintro (due | queued)
        · exact early rfl due
        · exact Task.not_resting queued (by decide) resting
      rw [stirs.untouched t off]
      exact ⟨rfl, rfl⟩
  | yields online scheduled =>
      exact schedulerScheduleCpu_restsOn sound.core sound.reserved online scheduled
  | @stops _ cpu u r f kind stops current running id rests moved =>
      refine stands (by cases action <;> first | rfl | cases stops) ?_
      rw [moved]
      refine .of_awake rfl (fun v other => ?_) (Task.not_resting running (by decide))
      rw [taskListPushBack_other _ r kind other, State.setTask_other _ f other]
  | wakes woke moves =>
      exact schedulerWakeChannel_restsOn sound.core woke (spares _ _ _ w' rfl stepped)
  | changes changed =>
      refine stands rfl ?_
      rw [changed]
      exact schedulerSetTaskPriority_restsOn sound.core sound.reserved _ _ _
  | reaps hands asked detached reaped =>
      refine stands (by cases action <;> first | rfl | cases hands) ?_
      exact reaped.slot.restsOn (Task.not_resting reaped.zombie (by decide))
  | looks looks hands same =>
      refine stands (by rcases looks with ⟨_, rfl⟩ | rfl <;> rfl) ?_
      rw [same]
      exact .refl _

/-- The clock and a task that rests, before and after steps with `k` ticks. -/
structure Ticked (t : TaskId) (k : Nat) (s s' : State) : Prop where
  clock : s'.systemTicks = u32Add s.systemTicks k
  state : (s'.tasks t).state = (s.tasks t).state
  wakeup : (s'.tasks t).wakeupTick = (s.tasks t).wakeupTick

/-- One step of a run, while the clock stays behind the deadline. -/
theorem World.Sound.ticked {action : Action} (sound : w.Sound contents held)
    (calm : w.Calm action) (spares : w.Spares t action) (stepped : w.step action = some w')
    (resting : (w.state.tasks t).Resting) (small : w.state.systemTicks < 2 ^ 32)
    (behind : action.isTick = true → u32Add w.state.systemTicks 1 < (w.state.tasks t).wakeupTick) :
    Ticked t (if action.isTick then 1 else 0) w.state w'.state := by
  have step := sound.restsOn calm spares stepped fun ticks due =>
    absurd due.1 (Nat.not_le.mpr (behind ticks))
  have same : (w'.state.tasks t).state = (w.state.tasks t).state ∧
      (w'.state.tasks t).wakeupTick = (w.state.tasks t).wakeupTick := by
    have rests := step.rests
    split at rests <;> exact rests resting
  refine ⟨step.clock.trans ?_, same.1, same.2⟩
  cases action.isTick with
  | true => rfl
  | false => exact (u32Add_eq (b := 0) small).symm

/-- **A task rests on while the clock stays behind its deadline.** -/
theorem World.Sound.restsAlong : ∀ (steps : List (ReadStep Action)) {w w' : Reading World}
    {contents : ListRef → List TaskId} {held : Finset TaskId}, w.inner.Sound contents held →
    w.Honest → worldCallers.Along World.Calm w steps →
    worldCallers.Along (fun w action => w.Spares t action) w steps →
    worldCallers.readRun w steps = some w' →
    (w.inner.state.tasks t).Resting → w.inner.state.systemTicks < 2 ^ 32 →
    (∀ j, 1 ≤ j → j ≤ steps.countP ReadStep.isTick →
      u32Add w.inner.state.systemTicks j < (w.inner.state.tasks t).wakeupTick) →
    (∃ contents' held', w'.inner.Sound contents' held') ∧
      Ticked t (steps.countP ReadStep.isTick) w.inner.state w'.inner.state := by
  intro steps
  induction steps with
  | nil =>
      intro w w' contents held sound _ _ _ ran _ small _
      obtain rfl := Option.some.inj ran
      exact ⟨⟨contents, held, sound⟩, (u32Add_eq (b := 0) small).symm, rfl, rfl⟩
  | cons step steps ih =>
      intro w w' contents held sound honest calm spares ran resting small behind
      obtain ⟨m, stepped, rest⟩ := Option.bind_eq_some_iff.mp ran
      obtain ⟨honestM, does⟩ := calm.1.does honest stepped
      have first : (∃ contents' held', m.inner.Sound contents' held') ∧
          Ticked t (if step.isTick then 1 else 0) w.inner.state m.inner.state := by
        cases step with
        | act action =>
            refine ⟨sound.step calm.1 does, sound.ticked calm.1 spares.1 does resting small
              fun ticks => behind 1 le_rfl ?_⟩
            rw [List.countP_cons, if_pos (show ReadStep.isTick (.act action) = true from ticks)]
            omega
        | find cpu | load cpu =>
            rw [show m.inner = w.inner from does]
            exact ⟨⟨contents, held, sound⟩, (u32Add_eq (b := 0) small).symm, rfl, rfl⟩
      obtain ⟨⟨contents', held', soundM⟩, ticked⟩ := first
      have counts (j : Nat) : u32Add m.inner.state.systemTicks j =
          u32Add w.inner.state.systemTicks (j + if step.isTick then 1 else 0) := by
        rw [ticked.clock]
        unfold u32Add
        omega
      have restingM : (m.inner.state.tasks t).Resting := by
        unfold Task.Resting at resting ⊢
        rwa [ticked.state]
      obtain ⟨after, later⟩ := ih soundM honestM (calm.2 m stepped) (spares.2 m stepped) rest
        restingM (by rw [ticked.clock]; exact u32Add_lt _ _) (fun j positive within => by
          rw [counts, ticked.wakeup]
          apply behind
          · omega
          · rw [List.countP_cons]
            omega)
      refine ⟨after, ?_, later.state.trans ticked.state, later.wakeup.trans ticked.wakeup⟩
      rw [later.clock, counts, List.countP_cons]

/-- Where the clock stands at a call that asks for `n` ticks: the deadline does
not wrap, or the clock wraps with it at once. -/
def World.OnTime (w : World) : Action → Prop
  | .sleep _ n => w.state.systemTicks + n < 2 ^ 32 ∨ w.state.systemTicks + 1 = 2 ^ 32
  | .waitChannel _ _ n =>
      w.state.systemTicks + n < 2 ^ 32 ∨ w.state.systemTicks + 1 = 2 ^ 32 ∧ n ≠ 1
  | _ => True

/-- The current task of `cpu` asks to rest for `n` ticks. -/
def Action.Asks (cpu n : Nat) (action : Action) : Prop :=
  action = .sleep cpu n ∨ ∃ channel, action = .waitChannel cpu channel n

/-- A call leaves the caller at rest, with a deadline that is `n` ticks ahead and
not the one that means none. -/
theorem World.asks_rests {call : Action} {cpu n : Nat} (asks : call.Asks cpu n)
    (range : 1 ≤ n ∧ n < 0xFFFFFFFF) (caller : schedulerCurrentTask w.state cpu = some t)
    (onTime : w.OnTime call) (called : w.step call = some w') :
    w'.state.systemTicks = w.state.systemTicks ∧
      (w'.state.tasks t).wakeupTick = u32Add w.state.systemTicks n ∧
      ((w'.state.tasks t).state = .sleeping ∨
        (w'.state.tasks t).state = .blocked ∧ (w'.state.tasks t).wakeupTick ≠ 0) := by
  have asked : ¬ n = 0 := by omega
  rcases asks with rfl | ⟨channel, rfl⟩
  · rw [World.step, if_neg asked] at called
    obtain ⟨u, current, -, rfl⟩ := World.call_ok called
    obtain rfl := Option.some.inj (caller.symm.trans current)
    have caused := taskListPushBack_same (w.state.setTask t fun u => { u with
      wakeupTick := u32Add w.state.systemTicks n
      state := .sleeping }) .sleeping t .sleeping
    rw [State.setTask_same] at caused
    unfold sleepLocked
    dsimp only
    rw [caused]
    exact ⟨rfl, rfl, Or.inl rfl⟩
  · rw [World.step, if_neg asked] at called
    obtain ⟨u, current, -, rfl⟩ := World.call_ok called
    obtain rfl := Option.some.inj (caller.symm.trans current)
    have bounded : ¬ n = schedulerWaitForever := by
      unfold schedulerWaitForever
      omega
    have timed : u32Add w.state.systemTicks n ≠ 0 := by
      unfold World.OnTime at onTime
      unfold u32Add
      omega
    have caused := taskListPushBack_same (w.state.setTask t fun u => { u with
      waitChannel := some channel
      waitResult := false
      wakeupTick := if n = schedulerWaitForever then 0 else u32Add w.state.systemTicks n
      state := .blocked }) .blocked t .blocked
    rw [State.setTask_same, if_neg bounded] at caused
    unfold waitLocked
    dsimp only
    rw [if_neg bounded, caused]
    exact ⟨rfl, rfl, Or.inr ⟨rfl, timed⟩⟩

/-- **A sleep lasts as long as asked.**  A task that asks for `n` ticks, on time,
rests until `n` ticks have come, and timer expiry of that tick puts it on a run
queue. -/
theorem sleep_lasts_as_asked {spaces : Paging.AddressSpaces} {smpAvailable : Bool}
    {config : TopologyConfig} {start : World} {w w₁ w₂ : Reading World}
    {before after : List (ReadStep Action)} {call : Action}
    {cpu n : Nat} {t : TaskId} (started : World.start spaces smpAvailable config = some start)
    (calm : worldCallers.Along World.Calm (.start start) (before ++ .act call :: after))
    (ran : worldCallers.readRun (.start start) before = some w)
    (asks : call.Asks cpu n) (range : 1 ≤ n ∧ n < 0xFFFFFFFF)
    (caller : schedulerCurrentTask w.inner.state cpu = some t) (onTime : w.inner.OnTime call)
    (called : worldCallers.readStep w (.act call) = some w₁)
    (unwoken : worldCallers.Along (fun w action => w.Spares t action) w₁ after)
    (went : worldCallers.readRun w₁ after = some w₂) (early : after.countP ReadStep.isTick < n) :
    (w₂.inner.state.tasks t).Resting ∧
      (after.countP ReadStep.isTick + 1 = n → ∀ executing, ∃ s',
        schedulerAdvanceTimers w₂.inner.state.countTick executing = some s' ∧
          (s'.tasks t).state = .runnable ∧ (s'.tasks t).listKind = .runnable) := by
  obtain ⟨contents, sound⟩ := World.start_sound started
  obtain ⟨calmBefore, calmRest⟩ := Callers.along_append_iff.mp calm
  have calmCall := calmRest w ran
  have honest := Callers.honest_run (Callers.honest_start start) calmBefore ran
  obtain ⟨contents', held, soundW⟩ := sound.readRun calmBefore ran
  obtain ⟨honest₁, does⟩ := calmCall.1.does honest called
  obtain ⟨queues, held', sound₁⟩ := soundW.step calmCall.1 does
  obtain ⟨clock, deadline, rests⟩ :=
    World.asks_rests asks range caller onTime does
  have resting : (w₁.inner.state.tasks t).Resting := rests.imp_right And.left
  have near : w.inner.state.systemTicks + n < 2 ^ 32 ∨ w.inner.state.systemTicks + 1 = 2 ^ 32 := by
    rcases asks with rfl | ⟨channel, rfl⟩
    · exact onTime
    · exact onTime.imp_right And.left
  obtain ⟨⟨queues', held₂, sound₂⟩, ticked⟩ :=
    World.Sound.restsAlong after sound₁ honest₁ (calmCall.2 w₁ called) unwoken went resting
      (by omega) (fun j positive within => by
        rw [clock, deadline]
        unfold u32Add
        omega)
  have resting₂ : (w₂.inner.state.tasks t).Resting := by
    unfold Task.Resting at resting ⊢
    rwa [ticked.state]
  refine ⟨resting₂, fun last executing => ?_⟩
  have due : Due w₂.inner.state.countTick t := by
    refine ⟨?_, ?_⟩
    · change (w₂.inner.state.tasks t).wakeupTick ≤ u32Add w₂.inner.state.systemTicks 1
      rw [ticked.wakeup, deadline, ticked.clock, clock]
      unfold u32Add
      omega
    · change (w₂.inner.state.tasks t).state = .sleeping ∨
        (w₂.inner.state.tasks t).state = .blocked ∧ (w₂.inner.state.tasks t).wakeupTick ≠ 0
      rwa [ticked.state, ticked.wakeup]
  have counted : Core w₂.inner.state.countTick queues' held₂ :=
    sound₂.core.transport rfl rfl rfl rfl rfl rfl
  exact schedulerAdvanceTimers_wakes counted sound₂.reserved due executing

/-- The task of CPU 1 sleeps for two ticks, of which the first has come. -/
theorem sleep_lasts_as_asked_twoTicks :
    ∃ start w w₁ w₂, World.start kernelOnly true twoCpus = some start ∧
      worldCallers.readRun (.start start) (worldCallers.whole bringUp ++ [.find 1, .load 1]) =
        some w ∧
      worldCallers.readStep w (.act (.sleep 1 2)) = some w₁ ∧
      worldCallers.readRun w₁ [.act (.yield 1 0x103000), .act (.timerTick 0 0x8F00)] = some w₂ ∧
      (w₂.inner.state.tasks 2).Resting ∧
      ∃ s', schedulerAdvanceTimers w₂.inner.state.countTick 0 = some s' ∧
        (s'.tasks 2).state = .runnable ∧ (s'.tasks 2).listKind = .runnable := by
  have whole : ((World.start kernelOnly true twoCpus).bind fun start =>
      (worldCallers.readRun (.start start)
        (worldCallers.whole bringUp ++ [.find 1, .load 1])).bind fun w =>
      (worldCallers.readStep w (.act (.sleep 1 2))).bind fun w₁ =>
      (worldCallers.readStep w₁ (.act (.yield 1 0x103000))).bind fun m =>
      (worldCallers.readStep m (.act (.timerTick 0 0x8F00))).map fun _ =>
        (schedulerCurrentTask w.inner.state 1, w.inner.state.systemTicks)) =
          some (some 2, 0) := by
    decide +kernel
  have unbalanced : ((World.start kernelOnly true twoCpus).bind fun start =>
      (worldCallers.readRun (.start start)
        (worldCallers.whole (bringUp ++ [.sleep 1 2, .yield 1 0x103000]))).map fun m =>
          (schedulerShouldBalanceNow m.inner.state.countTick).2) = some false := by
    decide +kernel
  obtain ⟨start, started, rest⟩ := Option.bind_eq_some_iff.mp whole
  obtain ⟨w, ran, rest⟩ := Option.bind_eq_some_iff.mp rest
  obtain ⟨w₁, slept, rest⟩ := Option.bind_eq_some_iff.mp rest
  obtain ⟨m, switched, rest⟩ := Option.bind_eq_some_iff.mp rest
  obtain ⟨w₂, ticked, facts⟩ := Option.map_eq_some_iff.mp rest
  simp only [Prod.mk.injEq] at facts
  obtain ⟨caller, clock⟩ := facts
  have went : worldCallers.readRun w₁
      [.act (.yield 1 0x103000), .act (.timerTick 0 0x8F00)] = some w₂ := by
    rw [Callers.readRun, switched, Option.bind_some, Callers.readRun, ticked]
    rfl
  have calm : worldCallers.Along World.Calm (.start start)
      ((worldCallers.whole bringUp ++ [.find 1, .load 1]) ++ .act (.sleep 1 2) ::
        [.act (.yield 1 0x103000), .act (.timerTick 0 0x8F00)]) := by
    change worldCallers.Along World.Calm (.start start)
      (worldCallers.whole (bringUp ++ [.sleep 1 2, .yield 1 0x103000]) ++
        [.act (.timerTick 0 0x8F00)])
    refine Callers.along_append_iff.mpr ⟨Callers.along_whole
      (by simp [bringUp, create, World.Calm]) _, fun m ran => ⟨fun balances => ?_, fun _ _ => trivial⟩⟩
    rw [started, Option.bind_some, ran] at unbalanced
    cases balances.2.symm.trans (Option.some.inj unbalanced)
  have unwoken : worldCallers.Along (fun w action => w.Spares 2 action) w₁
      [.act (.yield 1 0x103000), .act (.timerTick 0 0x8F00)] :=
    ⟨fun _ _ _ _ bad => (by cases bad), fun _ _ =>
      ⟨fun _ _ _ _ bad => (by cases bad), fun _ _ => trivial⟩⟩
  have onTime : w.inner.OnTime (.sleep 1 2) := by
    refine Or.inl ?_
    rw [clock]
    decide
  obtain ⟨resting, wakes⟩ := sleep_lasts_as_asked started calm ran (Or.inl rfl) (by decide)
    caller onTime slept unwoken went (by decide)
  exact ⟨start, w, w₁, w₂, started, ran, slept, went, resting, wakes rfl 0⟩

/-- Five ticks after the start the task of CPU 1 sleeps for 2^32 - 2 ticks. -/
def longSleep : List Action :=
  bringUp ++ List.replicate 5 (.timerTick 0 0x8F00) ++ [.sleep 1 0xFFFFFFFE, .yield 1 0x103000]

/-- The first tick ends the sleep. -/
theorem sleep_ends_at_first_tick :
    ∃ start w₁ w₂, World.start kernelOnly true twoCpus = some start ∧
      start.run longSleep = some w₁ ∧ (w₁.state.tasks 2).state = .sleeping ∧
      w₁.step (.timerTick 0 0x8F00) = some w₂ ∧ (w₂.state.tasks 2).state = .runnable := by
  have whole : ((World.start kernelOnly true twoCpus).bind fun start =>
      (start.run longSleep).bind fun w₁ => (w₁.step (.timerTick 0 0x8F00)).map fun w₂ =>
        ((w₁.state.tasks 2).state, (w₂.state.tasks 2).state)) = some (.sleeping, .runnable) := by
    decide +kernel
  obtain ⟨start, started, rest⟩ := Option.bind_eq_some_iff.mp whole
  obtain ⟨w₁, ran, rest⟩ := Option.bind_eq_some_iff.mp rest
  obtain ⟨w₂, stepped, states⟩ := Option.map_eq_some_iff.mp rest
  simp only [Prod.mk.injEq] at states
  exact ⟨start, w₁, w₂, started, ran, states.1, stepped, states.2⟩

end

end Dfos.Scheduler
