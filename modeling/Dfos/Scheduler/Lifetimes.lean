import Dfos.Scheduler.Outcome

/-!
# Exited tasks are released once

Joins and reapers race for the zombies.  Each critical section of theirs that
detaches one releases its slot there and then, and hands its stack and its space
to `scheduler_cleanup_reaped_resources`.  A `TaskLog` counts the ids given out,
and records the exits and the handovers beside the interleaving.

A task that blocks or exits does so together with its switch.  Between such
steps every current task runs, so no tick finds a current task to migrate, and
the lists stay as `World.Sound` has them on every run.
-/

namespace Dfos.Scheduler

open Dfos.Lib

/-- What was handed to `scheduler_cleanup_reaped_resources`, and from which task. -/
structure Handover where
  slot : TaskId
  id : Nat
  resources : ReapResources
  /-- The id that a join asked for, and `none` for `scheduler_reap_zombies`. -/
  target : Option Nat
  deriving DecidableEq, Repr

/-- The handover of the slot that was released between two states. -/
def handover (before after : State) (target : Option Nat) (resources : ReapResources) :
    Option Handover :=
  ((List.finRange 32).find? fun t =>
    (before.tasks t).state = .zombie && (after.tasks t).state = .unused).map
      fun t => ⟨t, (before.tasks t).id, resources, target⟩

def Action.hands (before after : State) (action : Action) : Option Handover :=
  (action.cleanup before).bind (handover before after action.target)

/-- The task that exits. -/
def Action.exiting (s : State) : Action → Option TaskId
  | .exitCurrent cpu => schedulerCurrentTask s cpu
  | _ => none

structure TaskLog where
  world : World
  created : Nat
  /-- The ids of the tasks that have exited. -/
  exited : List Nat
  handovers : List Handover

def TaskLog.step (w : TaskLog) (action : Action) : Option TaskLog :=
  (w.world.step action).map fun after =>
    { world := after
      created := w.created + action.isCreation.toNat
      exited := ((action.exiting w.world.state).map fun t => (w.world.state.tasks t).id).toList ++
        w.exited
      handovers := (action.hands w.world.state after.state).toList ++ w.handovers }

/-- One step, where a call that blocks or exits includes its `int 48`, which
pushes `frame`. -/
def TaskLog.turn (w : TaskLog) (action : Action) (frame : Nat) : Option TaskLog :=
  match action with
  | .sleep cpu _ | .waitChannel cpu _ _ => (w.step action).bind (·.step (.yield cpu frame))
  | .exitCurrent cpu =>
      (w.step action).bind fun w =>
        (w.step (.wakeChannel cpu schedulerJoinWaitChannelToken 0)).bind
          (·.step (.yield cpu frame))
  | _ => w.step action

def TaskLog.run (w : TaskLog) : List (Action × Nat) → Option TaskLog
  | [] => some w
  | (action, frame) :: rest => (w.turn action frame).bind (·.run rest)

def TaskLog.start (spaces : Paging.AddressSpaces) (smpAvailable : Bool)
    (config : TopologyConfig) : Option TaskLog :=
  (World.start spaces smpAvailable config).map fun world => ⟨world, 0, [], []⟩

/-! ## What a step does to the ids -/

/-- No id is given out or taken back, and a new zombie has just exited. -/
structure Keeps (exiting : TaskId → Prop) (s s' : State) : Prop where
  nextTaskId : s'.nextTaskId = s.nextTaskId
  unused : ∀ t, (s'.tasks t).state = .unused ↔ (s.tasks t).state = .unused
  id : ∀ t, (s.tasks t).state ≠ .unused → (s'.tasks t).id = (s.tasks t).id
  zombie : ∀ t, (s'.tasks t).state = .zombie → (s.tasks t).state = .zombie ∨ exiting t

section

variable {s m s' : State} {t : TaskId} {contents : ListRef → List TaskId} {held : Finset TaskId}
  {exiting : TaskId → Prop}

theorem Keeps.refl (s : State) : Keeps exiting s s :=
  ⟨rfl, fun _ => Iff.rfl, fun _ _ => rfl, fun _ => Or.inl⟩

/-- A drift in which no slot comes to life. -/
theorem Drift.keeps {switching : Nat → Prop} (drift : Drift switching s s')
    (unused : ∀ t, (s'.tasks t).state = .unused ↔ (s.tasks t).state = .unused) :
    Keeps exiting s s' := by
  refine ⟨drift.nextTaskId, unused, fun t _ => (drift.tasks t).id, fun t zombie => Or.inl ?_⟩
  rcases (drift.tasks t).state with ⟨same, -⟩ | runnable | running
  · exact same.symm.trans zombie
  · cases runnable.symm.trans zombie
  · cases running.symm.trans zombie

/-- A free slot that stays free. -/
theorem OnlySlot.keeps (slot : OnlySlot t s s') (nextTaskId : s'.nextTaskId = s.nextTaskId)
    (before : (s.tasks t).state = .unused) (after : (s'.tasks t).state = .unused) :
    Keeps exiting s s' := by
  refine ⟨nextTaskId, fun u => ?_, fun u live => ?_, fun u zombie => Or.inl ?_⟩ <;>
    rcases eq_or_ne u t with rfl | other
  · rw [before, after]
  · rw [slot.others u other]
  · exact absurd before live
  · rw [slot.others u other]
  · cases after.symm.trans zombie
  · rwa [← slot.others u other]

/-- The locked part of a call that stops its task. -/
theorem stop_keeps {r : ListRef} {f : Task → Task} (kind : ListKind)
    (live : (s.tasks t).state ≠ .unused) (id : (f (s.tasks t)).id = (s.tasks t).id)
    (still : (f (s.tasks t)).state ≠ .unused)
    (exits : (f (s.tasks t)).state = .zombie → exiting t) :
    Keeps exiting s (taskListPushBack (s.setTask t f) r t kind) := by
  have here : ((taskListPushBack (s.setTask t f) r t kind).tasks t) =
      { f (s.tasks t) with listKind := kind } := by
    rw [taskListPushBack_same, State.setTask_same]
  have others : ∀ u, u ≠ t → (taskListPushBack (s.setTask t f) r t kind).tasks u = s.tasks u := by
    intro u other
    rw [taskListPushBack_other _ r kind other, State.setTask_other s f other]
  refine ⟨rfl, fun u => ?_, fun u live => ?_, fun u zombie => ?_⟩ <;>
    rcases eq_or_ne u t with rfl | other
  · rw [here]
    exact iff_of_false still live
  · rw [others u other]
  · rw [here]
    exact id
  · rw [others u other]
  · rw [here] at zombie
    exact Or.inr (exits zombie)
  · rw [others u other] at zombie
    exact Or.inl zombie

/-! ### Detaching -/

/-- The slot that was released is the one detached. -/
theorem Reaped.handover (reaped : Reaped s s' t) (target : Option Nat)
    (resources : ReapResources) :
    handover s s' target resources = some ⟨t, (s.tasks t).id, resources, target⟩ := by
  unfold Scheduler.handover
  cases found : (List.finRange 32).find? fun u =>
      (s.tasks u).state = .zombie && (s'.tasks u).state = .unused with
  | none =>
      have passed := List.find?_eq_none.mp found t (List.mem_finRange t)
      simp [reaped.zombie, reaped.unused] at passed
  | some u =>
      have released := List.find?_some found
      simp only [Bool.and_eq_true, decide_eq_true_eq] at released
      rcases eq_or_ne u t with rfl | other
      · rfl
      · rw [reaped.slot.others u other, released.1] at released
        cases released.2

end

/-! ## Steps -/

section

variable {w w' : World} {contents : ListRef → List TaskId} {held : Finset TaskId}

/-- A step that neither gives out an id nor detaches a zombie. -/
theorem World.Sound.keeps {action : Action} (sound : w.Sound contents held)
    (calm : w.Calm action) (stepped : w.step action = some w')
    (quiet : action.isCreation = false) (hands : action.cleanup w.state = none) :
    Keeps (fun t => action.exiting w.state = some t) w.state w'.state := by
  cases sound.outcome calm stepped with
  | boots boots => cases action <;> cases boots <;> cases quiet
  | creates => cases quiet
  | slot slot only before after nextTaskId => exact only.keeps nextTaskId before after
  | @ticks cpu frame m queues resumed timers core stirs clock online ticked =>
      have here : schedulerCurrentCpuState m cpu = cpu := core.topology.currentCpu_eq online
      have turned := tickCurrent_turned core (stirs.reserved sound.reserved) online ticked
      have first : Drift (· = cpu) w.state m := tickTimers_drift timers
      have second : Drift (· = cpu) m w'.state := tickCurrent_drift here ticked
      exact (first.trans second).keeps fun t => (turned.unused t).trans (stirs.unused t)
  | @yields cpu frame resumed online scheduled =>
      have drift : Drift (cpu = ·) w.state w'.state := schedulerScheduleCpu_drift rfl scheduled
      exact drift.keeps (schedule_turned sound.core sound.reserved online scheduled).unused
  | @stops _ cpu t r f kind stops current running id rests moved =>
      rw [moved]
      refine stop_keeps kind (by simp [running]) id ?_ fun zombie => ?_
      · rcases rests with state | state | ⟨state, -⟩ <;> simp [state]
      · rcases rests with state | state | ⟨-, rfl⟩
        · cases zombie.symm.trans state
        · cases zombie.symm.trans state
        · exact current
  | wakes woke moves =>
      have drift : Drift (fun _ => False) w.state w'.state := schedulerWakeChannel_drift woke
      exact drift.keeps moves.unused
  | @changes cpu taskId priority changed =>
      obtain ⟨-, stirs, -⟩ :=
        schedulerSetTaskPriority_core sound.core sound.reserved cpu taskId priority
      have drift : Drift (fun _ => False) w.state _ :=
        schedulerSetTaskPriority_drift w.state cpu taskId priority
      rw [changed]
      exact drift.keeps stirs.unused
  | reaps reaped => cases hands.symm.trans reaped
  | looks looks hands same =>
      rw [same]
      exact .refl _

/-! ### Who runs -/

theorem World.Sound.yield_busy {cpu frame : Nat} (sound : w.Sound contents held)
    (others : RunningBut w.state cpu) (stepped : w.step (.yield cpu frame) = some w') :
    Busy w'.state := by
  rw [World.step] at stepped
  split at stepped
  · next online =>
      obtain ⟨resumed, yielded, -⟩ := World.interrupt_ok stepped
      unfold schedulerOnYield at yielded
      rw [sound.core.topology.currentCpu_eq online] at yielded
      exact (schedule_turned sound.core sound.reserved online yielded).busy others
  · cases stepped

/-- The other CPUs run on while a task stops. -/
theorem World.Sound.stop_runningBut {action : Action} {cpu : Nat} (sound : w.Sound contents held)
    (busy : Busy w.state) (online : (w'.state.cpus cpu).online)
    (stops : action.stopsOn = some cpu) (calm : w.Calm action)
    (stepped : w.step action = some w') : RunningBut w'.state cpu := by
  cases sound.outcome calm stepped with
  | @stops _ d t r f kind here current running id rests moved =>
      obtain rfl := Option.some.inj (here.symm.trans stops)
      rw [moved] at online ⊢
      have seat : (w.state.cpus d).current = some t := by
        unfold schedulerCurrentTask at current
        rwa [sound.core.topology.currentCpu_eq online] at current
      intro c u away now
      have other : u ≠ t := by
        rintro rfl
        exact away (((sound.core.allowed u).current c now).2.symm.trans
          ((sound.core.allowed u).current d seat).2)
      rw [taskListPushBack_other _ r kind other, State.setTask_other _ f other]
      exact busy c u now
  | boots boots => cases action <;> cases boots <;> cases stops
  | slot slot => rcases slot with ⟨_, _, rfl⟩ | rfl <;> cases stops
  | reaps hands => cases action <;> cases stops <;> cases hands
  | looks looks => rcases looks with ⟨_, rfl⟩ | rfl <;> cases stops
  | _ => cases stops

theorem World.yield_online {cpu frame : Nat} (stepped : w.step (.yield cpu frame) = some w') :
    (w.state.cpus cpu).online := by
  rw [World.step] at stepped
  split at stepped
  · assumption
  · cases stepped

theorem World.Sound.wake_online {cpu channel maxCount c : Nat} (sound : w.Sound contents held)
    (stepped : w.step (.wakeChannel cpu channel maxCount) = some w') :
    (w'.state.cpus c).online = (w.state.cpus c).online := by
  rw [World.step] at stepped
  obtain ⟨r, woke, -, moves⟩ := schedulerWakeChannel_core sound.core cpu (some channel) maxCount
  rw [woke] at stepped
  cases stepped
  exact moves.machine.online c

theorem World.Sound.wake_runningBut {cpu channel maxCount but : Nat}
    (sound : w.Sound contents held) (others : RunningBut w.state but)
    (stepped : w.step (.wakeChannel cpu channel maxCount) = some w') :
    RunningBut w'.state but := by
  rw [World.step] at stepped
  obtain ⟨r, woke, -, moves⟩ := schedulerWakeChannel_core sound.core cpu (some channel) maxCount
  rw [woke] at stepped
  cases stepped
  intro c t away now
  rw [moves.machine.current] at now
  have runs := others c t away now
  rw [moves.untouched t]
  · exact runs
  · intro waiting
    rw [Waiting, runs] at waiting
    cases waiting

/-- Other steps leave every CPU running its current task. -/
theorem World.Sound.busy {action : Action} (sound : w.Sound contents held) (busy : Busy w.state)
    (goesOn : action.stopsOn = none) (calm : w.Calm action) (stepped : w.step action = some w') :
    Busy w'.state := by
  cases sound.outcome calm stepped with
  | boots boots booted => exact booted.busy sound.core busy
  | creates slot starts => exact slot.busy busy (sound.core.unused_idle starts.fresh)
  | slot slot only before => exact only.busy busy (sound.core.unused_idle before)
  | ticks timers core stirs clock online ticked =>
      have busyM : Busy _ := stirs.busy busy fun t => not_tickMoves
      exact (tickCurrent_turned core (stirs.reserved sound.reserved) online ticked).busy
        (busyM.runningBut _)
  | yields online scheduled =>
      exact (schedule_turned sound.core sound.reserved online scheduled).busy (busy.runningBut _)
  | stops stops => cases stops.symm.trans goesOn
  | wakes =>
      intro c t now
      exact sound.wake_runningBut (busy.runningBut (c + 1)) stepped c t (by omega) now
  | @changes cpu taskId priority changed =>
      obtain ⟨-, stirs, runs⟩ :=
        schedulerSetTaskPriority_core sound.core sound.reserved cpu taskId priority
      rw [changed]
      intro c t current
      rw [stirs.current] at current
      exact runs t (busy c t current)
  | reaps hands asked detached reaped => exact reaped.slot.busy busy reaped.idle
  | looks looks hands same =>
      rw [same]
      exact busy

end

/-! ## Runs -/

/-- The ids in use, those that are gone, and the log agree. -/
structure TaskLog.Inv (w : TaskLog) : Prop where
  nextTaskId : w.world.state.nextTaskId = u32Add w.created 1
  known : ∀ t, (w.world.state.tasks t).state ≠ .unused →
    1 ≤ (w.world.state.tasks t).id ∧ (w.world.state.tasks t).id ≤ w.created
  distinct : ∀ t u, (w.world.state.tasks t).state ≠ .unused →
    (w.world.state.tasks u).state ≠ .unused →
    (w.world.state.tasks t).id = (w.world.state.tasks u).id → t = u
  fresh : ∀ t, (w.world.state.tasks t).state ≠ .unused →
    ∀ h ∈ w.handovers, h.id ≠ (w.world.state.tasks t).id
  past : ∀ h ∈ w.handovers, h.id ≤ w.created ∧ h.id ∈ w.exited ∧
    ∀ taskId, h.target = some taskId → h.id = taskId
  once : (w.handovers.map Handover.id).Nodup
  zombies : ∀ t, (w.world.state.tasks t).state = .zombie →
    (w.world.state.tasks t).id ∈ w.exited

section

variable {w w' : TaskLog} {contents : ListRef → List TaskId} {held : Finset TaskId}

theorem TaskLog.Inv.keeps {after : World} {exits : Option TaskId} (inv : w.Inv)
    (keeps : Keeps (fun t => exits = some t) w.world.state after.state) :
    TaskLog.Inv ⟨after, w.created,
      (exits.map fun t => (w.world.state.tasks t).id).toList ++ w.exited, w.handovers⟩ := by
  have live : ∀ {t}, (after.state.tasks t).state ≠ .unused →
      (w.world.state.tasks t).state ≠ .unused := fun {t} now before =>
    now ((keeps.unused t).mpr before)
  refine ⟨keeps.nextTaskId.trans inv.nextTaskId, fun t now => ?_, fun t u now too same => ?_,
    fun t now => ?_, fun h gone => ?_, inv.once, fun t zombie => ?_⟩
  · rw [keeps.id t (live now)]
    exact inv.known t (live now)
  · rw [keeps.id t (live now), keeps.id u (live too)] at same
    exact inv.distinct t u (live now) (live too) same
  · rw [keeps.id t (live now)]
    exact inv.fresh t (live now)
  · obtain ⟨known, exited, asked⟩ := inv.past h gone
    exact ⟨known, List.mem_append_right _ exited, asked⟩
  · have now : (after.state.tasks t).state ≠ .unused := by
      rw [zombie]
      nofun
    dsimp only
    rw [keeps.id t (live now)]
    rcases keeps.zombie t zombie with before | exits
    · exact List.mem_append_right _ (inv.zombies t before)
    · rw [exits]
      exact List.mem_append_left _ (List.mem_singleton.mpr rfl)

theorem TaskLog.Inv.starts {after : World} {t : TaskId} (inv : w.Inv)
    (few : w.created + 1 < 2 ^ 32) (starts : Starts w.world.state after.state t) :
    TaskLog.Inv ⟨after, w.created + 1, w.exited, w.handovers⟩ := by
  have id : (after.state.tasks t).id = w.created + 1 := by
    rw [starts.id, inv.nextTaskId, u32Add_eq few]
  have notZombie : (after.state.tasks t).state ≠ .zombie := by
    rcases starts.ready with state | state <;> simp [state]
  refine ⟨?_, fun u now => ?_, fun u v now too same => ?_, fun u now h gone => ?_,
    fun h gone => ?_, inv.once, fun u zombie => ?_⟩
  · rw [starts.nextTaskId, inv.nextTaskId, u32Add_eq few]
  · rcases eq_or_ne u t with rfl | other
    · dsimp only
      omega
    · dsimp only at now ⊢
      rw [starts.others u other] at now ⊢
      have := inv.known u now
      omega
  · dsimp only at now too same
    rcases eq_or_ne u t with rfl | first <;> rcases eq_or_ne v u with rfl | second
    · rfl
    · rw [starts.others v second] at too same
      have := inv.known v too
      omega
    · rfl
    · rcases eq_or_ne v t with rfl | third
      · rw [starts.others u first] at now same
        have := inv.known u now
        omega
      · rw [starts.others u first] at now same
        rw [starts.others v third] at too same
        exact inv.distinct u v now too same
  · have := (inv.past h gone).1
    rcases eq_or_ne u t with rfl | other
    · dsimp only
      omega
    · dsimp only at now ⊢
      rw [starts.others u other] at now ⊢
      exact inv.fresh u now h gone
  · obtain ⟨known, rest⟩ := inv.past h gone
    exact ⟨by dsimp only; omega, rest⟩
  · dsimp only at zombie ⊢
    rcases eq_or_ne u t with rfl | other
    · exact absurd zombie notZombie
    · rw [starts.others u other] at zombie ⊢
      exact inv.zombies u zombie

theorem TaskLog.Inv.detaches {after : World} {t : TaskId} {resources : ReapResources}
    {target : Option Nat} (inv : w.Inv) (reaped : Reaped w.world.state after.state t)
    (nextTaskId : after.state.nextTaskId = w.world.state.nextTaskId)
    (asked : ∀ taskId, target = some taskId → (w.world.state.tasks t).id = taskId) :
    TaskLog.Inv ⟨after, w.created, w.exited,
      ⟨t, (w.world.state.tasks t).id, resources, target⟩ :: w.handovers⟩ := by
  have was : (w.world.state.tasks t).state ≠ .unused := by
    rw [reaped.zombie]
    nofun
  have other : ∀ {u}, (after.state.tasks u).state ≠ .unused → u ≠ t := by
    intro u now same
    rw [same] at now
    exact now reaped.unused
  have same : ∀ {u}, (after.state.tasks u).state ≠ .unused →
      after.state.tasks u = w.world.state.tasks u := fun now => reaped.slot.others _ (other now)
  refine ⟨nextTaskId.trans inv.nextTaskId, fun u now => ?_, fun u v now too ids => ?_,
    fun u now h gone => ?_, fun h gone => ?_, ?_, fun u zombie => ?_⟩
  · have alike := same now
    dsimp only at now ⊢
    rw [alike] at now ⊢
    exact inv.known u now
  · have alike := same now
    have alike' := same too
    dsimp only at now too ids
    rw [alike] at now ids
    rw [alike'] at too ids
    exact inv.distinct u v now too ids
  · have alike := same now
    have away := other now
    dsimp only at now ⊢
    rw [alike] at now ⊢
    rcases List.mem_cons.mp gone with rfl | gone
    · exact fun ids => away (inv.distinct t u was now ids).symm
    · exact inv.fresh u now h gone
  · rcases List.mem_cons.mp gone with rfl | gone
    · exact ⟨(inv.known t was).2, inv.zombies t reaped.zombie, asked⟩
    · exact inv.past h gone
  · refine List.nodup_cons.mpr ⟨fun again => ?_, inv.once⟩
    obtain ⟨h, gone, ids⟩ := List.mem_map.mp again
    exact inv.fresh t was h gone ids
  · have alike := same (u := u) (by
      rw [zombie]
      nofun)
    dsimp only at zombie ⊢
    rw [alike] at zombie ⊢
    exact inv.zombies u zombie

/-- What a step does to the log: nothing, a new task, or a handover. -/
theorem TaskLog.step_cases {action : Action} (sound : w.world.Sound contents held)
    (calm : w.world.Calm action) (stepped : w.step action = some w') :
    (action.cleanup w.world.state = none ∧ action.isCreation = false ∧
      Keeps (fun t => action.exiting w.world.state = some t) w.world.state w'.world.state ∧
      w' = ⟨w'.world, w.created, ((action.exiting w.world.state).map
        fun t => (w.world.state.tasks t).id).toList ++ w.exited, w.handovers⟩) ∨
    (∃ t, action.cleanup w.world.state = none ∧ Starts w.world.state w'.world.state t ∧
      w' = ⟨w'.world, w.created + 1, w.exited, w.handovers⟩) ∨
    ∃ t resources, action.cleanup w.world.state = some resources ∧
      (∀ taskId, action.target = some taskId → (w.world.state.tasks t).id = taskId) ∧
      schedulerDetachZombieTaskLocked w.world.state t = some (w'.world.state, resources) ∧
      w' = ⟨w'.world, w.created, w.exited,
        ⟨t, (w.world.state.tasks t).id, resources, action.target⟩ :: w.handovers⟩ := by
  obtain ⟨after, moved, rfl⟩ := Option.map_eq_some_iff.mp stepped
  cases hands : action.cleanup w.world.state with
  | none =>
      cases created : action.isCreation with
      | false =>
          refine Or.inl ⟨rfl, rfl, sound.keeps calm moved created hands, ?_⟩
          rw [Action.hands, hands]
          rfl
      | true =>
          refine Or.inr (Or.inl ?_)
          have nobody : action.exiting w.world.state = none := by
            cases action <;> first | rfl | cases created
          have starts : ∃ t, Starts w.world.state after.state t := by
            cases sound.outcome calm moved with
            | boots boots booted starts | creates slot starts => exact ⟨_, starts⟩
            | slot slot => rcases slot with ⟨_, _, rfl⟩ | rfl <;> cases created
            | stops stops => cases action <;> cases stops <;> cases created
            | reaps given => cases hands.symm.trans given
            | looks looks => rcases looks with ⟨_, rfl⟩ | rfl <;> cases created
            | _ => cases created
          obtain ⟨t, starts⟩ := starts
          refine ⟨t, rfl, starts, ?_⟩
          rw [Action.hands, hands, nobody]
          rfl
  | some resources =>
      have quiet : action.isCreation = false := by
        cases action <;> first | rfl | cases hands
      have nobody : action.exiting w.world.state = none := by
        cases action <;> first | rfl | cases hands
      cases sound.outcome calm moved with
      | @reaps _ t given again asked detached reaped =>
          obtain rfl := Option.some.inj (hands.symm.trans again)
          refine Or.inr (Or.inr ⟨t, resources, rfl, asked, detached, ?_⟩)
          rw [Action.hands, hands, Option.bind_some, reaped.handover, quiet, nobody]
          rfl
      | boots boots => cases action <;> cases boots <;> cases hands
      | slot slot => rcases slot with ⟨_, _, rfl⟩ | rfl <;> cases hands
      | stops stops => cases action <;> cases stops <;> cases hands
      | looks looks none => cases none.symm.trans hands
      | _ => cases hands

/-- **One step keeps the log.** -/
theorem TaskLog.Inv.step {action : Action} (inv : w.Inv) (sound : w.world.Sound contents held)
    (calm : w.world.Calm action) (few : w'.created < 2 ^ 32) (stepped : w.step action = some w') :
    w'.Inv := by
  rcases TaskLog.step_cases sound calm stepped with
    ⟨-, -, keeps, same⟩ | ⟨t, -, starts, same⟩ | ⟨t, resources, -, asked, detached, same⟩
  · rw [same]
    exact inv.keeps keeps
  · rw [same] at few ⊢
    exact inv.starts few starts
  · obtain ⟨reaped, -, next, -⟩ :=
      schedulerDetachZombieTaskLocked_reaped sound.core detached
    rw [same]
    exact inv.detaches reaped next asked

theorem TaskLog.step_created_le {action : Action} (stepped : w.step action = some w') :
    w.created ≤ w'.created := by
  obtain ⟨after, -, rfl⟩ := Option.map_eq_some_iff.mp stepped
  exact Nat.le_add_right ..

theorem TaskLog.step_world {action : Action} (stepped : w.step action = some w') :
    w.world.step action = some w'.world := by
  obtain ⟨after, moved, rfl⟩ := Option.map_eq_some_iff.mp stepped
  exact moved

/-- The log is right, and the lists are. -/
def TaskLog.Recorded (w : TaskLog) : Prop :=
  w.Inv ∧ ∃ contents held, w.world.Sound contents held

/-- A step that is calm where it is taken. -/
theorem TaskLog.Recorded.step {action : Action} (recorded : w.Recorded)
    (calm : w.world.Calm action) (few : w'.created < 2 ^ 32) (stepped : w.step action = some w') :
    w'.Recorded := by
  obtain ⟨inv, contents, held, sound⟩ := recorded
  exact ⟨inv.step sound calm few stepped, sound.step calm (TaskLog.step_world stepped)⟩

/-- The switch that ends a call. -/
theorem TaskLog.Recorded.yield {cpu frame : Nat} (recorded : w.Recorded)
    (others : RunningBut w.world.state cpu) (few : w'.created < 2 ^ 32)
    (switched : w.step (.yield cpu frame) = some w') :
    w'.Recorded ∧ Busy w'.world.state := by
  obtain ⟨contents, held, sound⟩ := recorded.2
  have calm : w.world.Calm (.yield cpu frame) := trivial
  exact ⟨recorded.step calm few switched,
    sound.yield_busy others (TaskLog.step_world switched)⟩

/-- A call that stops its task, with its switch. -/
theorem TaskLog.Recorded.stop_yield {m : TaskLog} {action : Action} {cpu frame : Nat}
    (recorded : w.Recorded) (busy : Busy w.world.state)
    (stops : action.stopsOn = some cpu)
    (few : w'.created < 2 ^ 32) (stopped : w.step action = some m)
    (switched : m.step (.yield cpu frame) = some w') :
    w'.Recorded ∧ Busy w'.world.state := by
  obtain ⟨contents, held, sound⟩ := recorded.2
  have calm : w.world.Calm action := by
    cases action <;> trivial
  have grows := TaskLog.step_created_le switched
  have recordedM := recorded.step calm (by omega) stopped
  have online := World.yield_online (TaskLog.step_world switched)
  exact recordedM.yield
    (sound.stop_runningBut busy online stops calm (TaskLog.step_world stopped)) few switched

/-- **A complete step keeps the log**, and every CPU runs its current task. -/
theorem TaskLog.Recorded.turn {action : Action} {frame : Nat} (recorded : w.Recorded)
    (busy : Busy w.world.state) (few : w'.created < 2 ^ 32)
    (turned : w.turn action frame = some w') : w'.Recorded ∧ Busy w'.world.state := by
  obtain ⟨contents, held, sound⟩ := recorded.2
  have plain : action.stopsOn = none → w.step action = some w' →
      w'.Recorded ∧ Busy w'.world.state := by
    intro goesOn stepped
    have calm : w.world.Calm action := by
      unfold World.Calm
      split
      · exact fun _ c t current => not_tickMoves (busy c t current)
      · trivial
    exact ⟨recorded.step calm few stepped,
      sound.busy busy goesOn calm (TaskLog.step_world stepped)⟩
  cases action with
  | sleep cpu ticks | waitChannel cpu channel ticks =>
      obtain ⟨m, stopped, switched⟩ := Option.bind_eq_some_iff.mp turned
      exact recorded.stop_yield busy rfl few stopped switched
  | exitCurrent cpu =>
      obtain ⟨m, stopped, rest⟩ := Option.bind_eq_some_iff.mp turned
      obtain ⟨n, woke, switched⟩ := Option.bind_eq_some_iff.mp rest
      have grows := TaskLog.step_created_le switched
      have before := TaskLog.step_created_le woke
      have exits : w.world.Calm (.exitCurrent cpu) := trivial
      have wakes : m.world.Calm (.wakeChannel cpu schedulerJoinWaitChannelToken 0) := trivial
      have recordedM := recorded.step exits (by omega) stopped
      obtain ⟨queues, heldM, soundM⟩ := recordedM.2
      have online := World.yield_online (TaskLog.step_world switched)
      rw [soundM.wake_online (TaskLog.step_world woke)] at online
      have others := sound.stop_runningBut busy online rfl exits (TaskLog.step_world stopped)
      exact (recordedM.step wakes (by omega) woke).yield
        (soundM.wake_runningBut others (TaskLog.step_world woke)) few switched
  | _ => exact plain rfl turned

theorem TaskLog.turn_created_le {action : Action} {frame : Nat}
    (turned : w.turn action frame = some w') : w.created ≤ w'.created := by
  cases action with
  | sleep | waitChannel =>
      obtain ⟨m, stopped, switched⟩ := Option.bind_eq_some_iff.mp turned
      exact (TaskLog.step_created_le stopped).trans (TaskLog.step_created_le switched)
  | exitCurrent =>
      obtain ⟨m, stopped, rest⟩ := Option.bind_eq_some_iff.mp turned
      obtain ⟨n, woke, switched⟩ := Option.bind_eq_some_iff.mp rest
      exact ((TaskLog.step_created_le stopped).trans (TaskLog.step_created_le woke)).trans
        (TaskLog.step_created_le switched)
  | _ => exact TaskLog.step_created_le turned

theorem TaskLog.run_created_le : ∀ {steps : List (Action × Nat)} {w : TaskLog},
    w.run steps = some w' → w.created ≤ w'.created := by
  intro steps
  induction steps with
  | nil =>
      intro w ran
      obtain rfl := Option.some.inj ran
      exact le_rfl
  | cons step steps ih =>
      intro w ran
      obtain ⟨m, turned, rest⟩ := Option.bind_eq_some_iff.mp ran
      exact (TaskLog.turn_created_le turned).trans (ih rest)

/-- **A run keeps the log.** -/
theorem TaskLog.Recorded.run : ∀ {steps : List (Action × Nat)} {w : TaskLog}, w.Recorded →
    Busy w.world.state → w.run steps = some w' → w'.created < 2 ^ 32 →
    w'.Recorded ∧ Busy w'.world.state := by
  intro steps
  induction steps with
  | nil =>
      intro w recorded busy ran _
      obtain rfl := Option.some.inj ran
      exact ⟨recorded, busy⟩
  | cons step steps ih =>
      intro w recorded busy ran few
      obtain ⟨m, turned, rest⟩ := Option.bind_eq_some_iff.mp ran
      have grows := TaskLog.run_created_le rest
      obtain ⟨recordedM, busyM⟩ := recorded.turn busy (by omega) turned
      exact ih recordedM busyM rest few

theorem schedulerConfigureTopology_nextTaskId (s : State) (config : TopologyConfig) (pmm : Bool) :
    (schedulerConfigureTopology s config pmm).1.nextTaskId = s.nextTaskId := by
  rcases schedulerConfigureTopology_cases s config pmm with refused | ⟨-, -, installed⟩
  · rw [refused]
  · rw [installed]
    rfl

theorem releaseSlots_nextTaskId : ∀ (slots : List TaskId) (s : State),
    (slots.foldl schedulerReleaseTaskSlot s).nextTaskId = s.nextTaskId := by
  intro slots
  induction slots with
  | nil => exact fun _ => rfl
  | cons t slots ih => exact fun s => ih (schedulerReleaseTaskSlot s t)

theorem schedulerInit_nextTaskId {spaces : Paging.AddressSpaces} {smpAvailable pmm : Bool}
    {s : State} (up : schedulerInit spaces smpAvailable pmm = .ok s) : s.nextTaskId = 1 := by
  have kept := schedulerConfigureTopology_nextTaskId
    (initTasks (State.zero spaces smpAvailable)) schedulerTopologyDefault pmm
  rw [initTasks, releaseSlots_nextTaskId] at kept
  unfold schedulerInit initTasks at up
  dsimp only at up
  split at up
  · next installed =>
      rw [installed] at kept
      cases up
      exact kept
  · cases up

theorem TaskLog.start_recorded {spaces : Paging.AddressSpaces} {smpAvailable : Bool}
    {config : TopologyConfig} (started : TaskLog.start spaces smpAvailable config = some w) :
    w.Recorded ∧ Busy w.world.state := by
  obtain ⟨world, up, rfl⟩ := Option.map_eq_some_iff.mp started
  obtain ⟨contents, sound⟩ := World.start_sound up
  have free := World.start_unused up
  unfold World.start at up
  rcases schedulerInit_consistent spaces smpAvailable true with ⟨s, ready, consistent, -⟩ | panics
  · rw [ready] at up
    obtain rfl := Option.some.inj up
    refine ⟨⟨⟨?_, fun t live => absurd (free t) live, fun t _ live => absurd (free t) live,
      fun t live => absurd (free t) live, nofun, List.nodup_nil, fun t zombie => ?_⟩,
      contents, ∅, sound⟩, (schedulerConfigureTopology_consistent consistent config true).2⟩
    · dsimp only
      rw [schedulerConfigureTopology_nextTaskId, schedulerInit_nextTaskId ready]
      rfl
    · cases (free t).symm.trans zombie
  · rw [panics] at up
    cases up

/-! ## Handovers -/

/-- The moment of a handover: the task is a zombie and current on no online CPU,
and its slot goes to the free list. -/
structure Released (s s' : State) (h : Handover) : Prop where
  zombie : (s.tasks h.slot).state = .zombie
  id : h.id = (s.tasks h.slot).id
  resources : h.resources = ⟨(s.tasks h.slot).stackBase, (s.tasks h.slot).space⟩
  idle : ∀ c, (s.cpus c).online = true → (s.cpus c).current ≠ some h.slot
  freed : (s'.tasks h.slot).state = .unused ∧ (s'.tasks h.slot).listKind = .free

/-- A step hands over what its critical section left, if anything. -/
theorem TaskLog.Recorded.step_hands {action : Action} (recorded : w.Recorded)
    (calm : w.world.Calm action) (stepped : w.step action = some w') :
    (action.cleanup w.world.state = none ∧ w'.handovers = w.handovers) ∨
      ∃ h, action.cleanup w.world.state = some h.resources ∧ h.target = action.target ∧
        w'.handovers = h :: w.handovers ∧ Released w.world.state w'.world.state h := by
  obtain ⟨contents, held, sound⟩ := recorded.2
  rcases TaskLog.step_cases sound calm stepped with
    ⟨none, -, -, same⟩ | ⟨t, none, -, same⟩ | ⟨t, resources, hands, -, detached, same⟩
  · exact Or.inl ⟨none, by rw [same]⟩
  · exact Or.inl ⟨none, by rw [same]⟩
  · obtain ⟨reaped, kind, -, read⟩ := schedulerDetachZombieTaskLocked_reaped sound.core detached
    exact Or.inr ⟨⟨t, (w.world.state.tasks t).id, resources, action.target⟩, hands, rfl,
      by rw [same], reaped.zombie, rfl, read, fun c _ => reaped.idle c, reaped.unused, kind⟩

theorem TaskLog.step_silent {action : Action} (silent : ∀ s, action.cleanup s = none)
    (stepped : w.step action = some w') : w'.handovers = w.handovers := by
  obtain ⟨after, -, rfl⟩ := Option.map_eq_some_iff.mp stepped
  dsimp only
  rw [Action.hands, silent]
  rfl

theorem TaskLog.Recorded.turn_hands {action : Action} {frame : Nat} (recorded : w.Recorded)
    (busy : Busy w.world.state) (turned : w.turn action frame = some w') :
    (action.cleanup w.world.state = none ∧ w'.handovers = w.handovers) ∨
      ∃ h, action.cleanup w.world.state = some h.resources ∧ h.target = action.target ∧
        w'.handovers = h :: w.handovers ∧ Released w.world.state w'.world.state h := by
  cases action with
  | sleep | waitChannel =>
      obtain ⟨m, stopped, switched⟩ := Option.bind_eq_some_iff.mp turned
      exact Or.inl ⟨rfl, (TaskLog.step_silent (fun _ => rfl) switched).trans
        (TaskLog.step_silent (fun _ => rfl) stopped)⟩
  | exitCurrent =>
      obtain ⟨m, stopped, rest⟩ := Option.bind_eq_some_iff.mp turned
      obtain ⟨n, woke, switched⟩ := Option.bind_eq_some_iff.mp rest
      exact Or.inl ⟨rfl, ((TaskLog.step_silent (fun _ => rfl) switched).trans
        (TaskLog.step_silent (fun _ => rfl) woke)).trans
        (TaskLog.step_silent (fun _ => rfl) stopped)⟩
  | timerTick cpu pushed =>
      have calm : w.world.Calm (.timerTick cpu pushed) :=
        fun _ c t current => not_tickMoves (busy c t current)
      exact recorded.step_hands calm turned
  | _ => exact recorded.step_hands (by trivial) turned

end

/-- **Task resources are released once.**  Along every run with fewer than 2^32
creations, what each critical section leaves for cleanup is the stack and the
space of a zombie that no online CPU runs, whose slot goes to the free list with
it; no id is handed over twice, each has exited, and a join gets only the task
it asked for, so that at most one join on an id returns true. -/
theorem task_resources_released_once {spaces : Paging.AddressSpaces} {smpAvailable : Bool}
    {config : TopologyConfig} {start w : TaskLog} {steps : List (Action × Nat)}
    (started : TaskLog.start spaces smpAvailable config = some start)
    (ran : start.run steps = some w) (few : w.created < 2 ^ 32) :
    (w.handovers.map Handover.id).Nodup ∧
      (∀ h ∈ w.handovers, h.id ∈ w.exited ∧ ∀ taskId, h.target = some taskId → h.id = taskId) ∧
      (∀ taskId, (w.handovers.filter fun h => h.target = some taskId).length ≤ 1) ∧
      ∀ action frame w', w.turn action frame = some w' →
        (action.cleanup w.world.state = none ∧ w'.handovers = w.handovers) ∨
          ∃ h, action.cleanup w.world.state = some h.resources ∧ h.target = action.target ∧
            w'.handovers = h :: w.handovers ∧ Released w.world.state w'.world.state h := by
  obtain ⟨recorded, busy⟩ := TaskLog.start_recorded started
  obtain ⟨after, busyW⟩ := recorded.run busy ran few
  refine ⟨after.1.once, fun h gone => (after.1.past h gone).2, fun taskId => ?_,
    fun action frame w' turned => after.turn_hands busyW turned⟩
  have once : ((w.handovers.filter fun h => h.target = some taskId).map Handover.id).Nodup :=
    after.1.once.sublist (List.filter_sublist.map Handover.id)
  have alike : ∀ i ∈ (w.handovers.filter fun h => h.target = some taskId).map Handover.id,
      i = taskId := by
    intro i member
    obtain ⟨h, kept, rfl⟩ := List.mem_map.mp member
    obtain ⟨gone, asked⟩ := List.mem_filter.mp kept
    exact (after.1.past h gone).2.2 taskId (of_decide_eq_true asked)
  rw [List.eq_replicate_of_mem alike, List.nodup_replicate, List.length_map] at once
  exact once

/-- The task of CPU 1 exits, and is joined twice. -/
def joinedTwice : List (Action × Nat) :=
  (bringUp.map fun action => (action, 0)) ++
    [(.exitCurrent 1, 0x103000), (.joinTask 3, 0), (.joinTask 3, 0)]

theorem task_resources_released_once_joinedTwice :
    ∃ start w, TaskLog.start kernelOnly true twoCpus = some start ∧
      start.run joinedTwice = some w ∧ w.created = 3 ∧
      w.handovers = [⟨2, 3, ⟨some 0x100000, some 0⟩, some 3⟩] ∧
      (w.handovers.map Handover.id).Nodup ∧
      ∀ h ∈ w.handovers, h.id ∈ w.exited ∧ ∀ taskId, h.target = some taskId → h.id = taskId := by
  have whole : ((TaskLog.start kernelOnly true twoCpus).bind fun start =>
      start.run joinedTwice).map (fun w => (w.created, w.handovers)) =
        some (3, [⟨2, 3, ⟨some 0x100000, some 0⟩, some 3⟩]) := by
    decide +kernel
  obtain ⟨w, ran, ends⟩ := Option.map_eq_some_iff.mp whole
  obtain ⟨start, started, ran⟩ := Option.bind_eq_some_iff.mp ran
  obtain ⟨created, handed⟩ := Prod.mk.inj ends
  obtain ⟨once, past, -⟩ := task_resources_released_once started ran (by omega)
  exact ⟨start, w, started, ran, created, handed, once, past⟩

end Dfos.Scheduler
