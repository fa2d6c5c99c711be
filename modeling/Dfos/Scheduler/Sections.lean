import Dfos.Scheduler.Boot
import Dfos.Scheduler.Sweeps

/-!
# Critical sections

Every critical section of the scheduler keeps the invariant, whatever slots
other CPUs have in creation.  `Stirs` is what one leaves alone when it neither
makes a task nor switches to one.
-/

namespace Dfos.Scheduler

open Dfos.Lib

/-- Only tasks of `touched` change, and neither the topology nor a current
task, a frame or a mask does. -/
structure Stirs (touched : TaskId → Prop) (s s' : State) : Prop where
  topology : SameTopology s s'
  current : ∀ c, (s'.cpus c).current = (s.cpus c).current
  untouched : ∀ t, ¬ touched t → s'.tasks t = s.tasks t
  unused : ∀ t, (s'.tasks t).state = .unused ↔ (s.tasks t).state = .unused
  frame : ∀ t, (s'.tasks t).frame = (s.tasks t).frame
  affinity : ∀ t, (s'.tasks t).cpuAffinityMask = (s.tasks t).cpuAffinityMask

theorem Moves.stirs {touched : TaskId → Prop} {s s' : State} (moves : Moves touched s s') :
    Stirs touched s s' :=
  ⟨moves.machine.topology, moves.machine.current, moves.untouched, moves.unused, moves.frame,
    moves.affinity⟩

theorem Stirs.trans {touched : TaskId → Prop} {s m s' : State} (first : Stirs touched s m)
    (second : Stirs touched m s') : Stirs touched s s' where
  topology := first.topology.trans second.topology
  current c := (second.current c).trans (first.current c)
  untouched t off := (second.untouched t off).trans (first.untouched t off)
  unused t := (second.unused t).trans (first.unused t)
  frame t := (second.frame t).trans (first.frame t)
  affinity t := (second.affinity t).trans (first.affinity t)

theorem Stirs.mono {touched touched' : TaskId → Prop} {s s' : State} (stirs : Stirs touched s s')
    (weaker : ∀ t, touched t → touched' t) : Stirs touched' s s' :=
  { stirs with untouched := fun t off => stirs.untouched t fun here => off (weaker t here) }

theorem Stirs.reserved {touched : TaskId → Prop} {s s' : State} {held : Finset TaskId}
    (stirs : Stirs touched s s') (reserved : Reserved s held) : Reserved s' held :=
  fun t inHand => (stirs.unused t).mpr (reserved t inHand)

section

variable {s : State} {contents : ListRef → List TaskId} {held : Finset TaskId}

/-! ## The first half of a tick -/

/-- The tick runs the load balancer. -/
def Balances (s : State) (executing : Nat) : Prop :=
  schedulerCurrentCpuState s executing = s.bootCpuId ∧
    (schedulerShouldBalanceNow s.countTick).2 = true

/-- The tasks a tick may move: those whose deadline it reaches, and those that
are queued. -/
def TickMoves (s : State) (t : TaskId) : Prop :=
  Due s.countTick t ∨ Queued s t

theorem schedulerShouldBalanceNow_congr {m : State} (same : SameMachine s m) :
    (schedulerShouldBalanceNow m).2 = (schedulerShouldBalanceNow s).2 := by
  unfold schedulerShouldBalanceNow
  rw [same.bootstrapped, same.configuredCpuCount, same.smpAvailable, same.systemTicks,
    same.lastBalanceTick]
  split
  · rfl
  · split <;> rfl

theorem schedulerShouldBalanceNow_clock (s : State) :
    (schedulerShouldBalanceNow s).1.systemTicks = s.systemTicks := by
  unfold schedulerShouldBalanceNow
  split
  · rfl
  · split <;> rfl

theorem schedulerShouldBalanceNow_core (core : Core s contents held) :
    Core (schedulerShouldBalanceNow s).1 contents held ∧
      Stirs (fun _ => False) s (schedulerShouldBalanceNow s).1 := by
  unfold schedulerShouldBalanceNow
  split
  · exact ⟨core, (Moves.refl _ s).stirs⟩
  · split
    · exact ⟨core, (Moves.refl _ s).stirs⟩
    · exact ⟨core.transport rfl rfl rfl rfl rfl rfl, ⟨fun _ => rfl, fun _ => rfl, rfl, rfl⟩,
        fun _ => rfl, fun _ _ => rfl, fun _ => Iff.rfl, fun _ => rfl, fun _ => rfl⟩

theorem schedulerCurrentCpuState_congr {m : State} (same : SameTopology s m) (executing : Nat) :
    schedulerCurrentCpuState m executing = schedulerCurrentCpuState s executing := by
  unfold schedulerCurrentCpuState
  rw [same.configuredCpuCount, same.online, same.bootCpuId]

/-- Where a tick runs the balancer, that finds no current task on a run queue. -/
theorem settled_of_calm {executing : Nat} {m n : State} (core : Core m contents held)
    (calm : Balances s executing → ∀ c t, (s.cpus c).current = some t → ¬ TickMoves s t)
    (moves : Moves (Due s.countTick) s.countTick m)
    (boot : (m.cpus (schedulerCurrentCpuState m executing)).id = m.bootCpuId)
    (decided : schedulerShouldBalanceNow m = (n, true)) : Settled n := by
  have topology : SameTopology s m :=
    ⟨moves.machine.id, moves.machine.online, moves.machine.configuredCpuCount,
      moves.machine.bootCpuId⟩
  rw [core.topology.id_currentCpu, schedulerCurrentCpuState_congr topology,
    topology.bootCpuId] at boot
  have decision := schedulerShouldBalanceNow_congr moves.machine
  obtain ⟨-, stirs⟩ := schedulerShouldBalanceNow_core core
  rw [decided] at decision stirs
  intro c t current queued
  rw [stirs.current, moves.machine.current] at current
  rw [stirs.untouched t id] at queued
  refine calm ⟨boot, decision.symm⟩ c t current ?_
  by_contra off
  rw [moves.untouched t fun due => off (Or.inl due)] at queued
  exact off (Or.inr queued)

/-- Timer expiry and balancing keep the invariant and the time, provided the
balancer finds no current task on a run queue. -/
theorem tickTimers_timed {executing : Nat} (core : Core s contents held)
    (calm : Balances s executing → ∀ c t, (s.cpus c).current = some t → ¬ TickMoves s t) :
    ∃ s', tickTimers s executing = .ok s' ∧ (∃ contents', Core s' contents' held) ∧
      Stirs (TickMoves s) s s' ∧ s'.systemTicks = s.countTick.systemTicks := by
  have counted : Core s.countTick contents held := core.transport rfl rfl rfl rfl rfl rfl
  have ticked : Stirs (TickMoves s) s s.countTick :=
    ⟨⟨fun _ => rfl, fun _ => rfl, rfl, rfl⟩, fun _ => rfl, fun _ _ => rfl, fun _ => Iff.rfl,
      fun _ => rfl, fun _ => rfl⟩
  obtain ⟨m, expired, ⟨queues, coreM⟩, moves⟩ := schedulerAdvanceTimers_core counted executing
  have woken : Stirs (TickMoves s) s m :=
    ticked.trans (moves.stirs.mono fun t due => Or.inl due)
  have queuedM : ∀ t, Queued m t → TickMoves s t := by
    intro t queued
    by_contra off
    rw [Queued, woken.untouched t off] at queued
    exact off (Or.inr queued)
  have timeM : m.systemTicks = s.countTick.systemTicks := moves.machine.systemTicks
  unfold tickTimers
  rw [expired]
  dsimp only [walked, bind, Except.bind]
  split
  · next boot =>
      obtain ⟨coreN, stirs⟩ := schedulerShouldBalanceNow_core coreM
      have timeN := schedulerShouldBalanceNow_clock m
      cases decided : schedulerShouldBalanceNow m with
      | mk n balances =>
          rw [decided] at coreN stirs timeN
          have noted : Stirs (TickMoves s) s n := woken.trans (stirs.mono fun _ bad => bad.elim)
          cases balances with
          | false => exact ⟨n, rfl, ⟨queues, coreN⟩, noted, timeN.trans timeM⟩
          | true =>
              obtain ⟨s', balanced, after, moved⟩ := schedulerBalancePeriodic_core coreN
                (settled_of_calm coreM calm moves boot decided) executing
              dsimp only
              rw [balanced]
              refine ⟨s', rfl, after, noted.trans (moved.stirs.mono fun t queued => ?_),
                moved.machine.systemTicks.trans (timeN.trans timeM)⟩
              rw [Queued, stirs.untouched t id] at queued
              exact queuedM t queued
  · exact ⟨m, rfl, ⟨queues, coreM⟩, woken, timeM⟩

theorem tickTimers_core {executing : Nat} (core : Core s contents held)
    (calm : Balances s executing → ∀ c t, (s.cpus c).current = some t → ¬ TickMoves s t) :
    ∃ s', tickTimers s executing = .ok s' ∧ (∃ contents', Core s' contents' held) ∧
      Stirs (TickMoves s) s s' := by
  obtain ⟨s', ticked, after, stirs, -⟩ := tickTimers_timed core calm
  exact ⟨s', ticked, after, stirs⟩

/-! ## The second half of a tick -/

/-- The current task is charged a tick. -/
def charge (s : State) (t : TaskId) : State :=
  s.setTask t fun u => { u with ticksInSlice := u32Add u.ticksInSlice 1 }

theorem charge_core (core : Core s contents held) (t : TaskId) :
    Core (charge s t) contents held ∧ Stirs (· = t) s (charge s t) :=
  ⟨core.setDetails rfl rfl rfl rfl rfl, (Moves.setTask Iff.rfl rfl rfl).stirs⟩

/-- A tick schedules the CPU, possibly after it has charged the current task,
or it lets the current task go on. -/
theorem tickCurrent_cases (s : State) (executing : Nat) (frame : Option Nat) :
    tickCurrent s executing frame =
        schedulerScheduleCpu s executing (schedulerCurrentCpuState s executing) frame true ∨
      ∃ t, (s.cpus (schedulerCurrentCpuState s executing)).current = some t ∧
        (s.tasks t).state = .running ∧
        (tickCurrent s executing frame =
            schedulerScheduleCpu (charge s t) executing (schedulerCurrentCpuState s executing)
              frame true ∨
          tickCurrent s executing frame =
            .ok (saveFrame (charge s t) (schedulerCurrentCpuState s executing) frame, frame)) := by
  unfold tickCurrent
  dsimp only
  cases current : (s.cpus (schedulerCurrentCpuState s executing)).current with
  | none => exact Or.inl rfl
  | some t =>
      dsimp only
      split
      · exact Or.inl rfl
      · next running =>
          rw [not_not] at running
          refine Or.inr ⟨t, rfl, running, ?_⟩
          split
          · exact Or.inl rfl
          · right
            have here : ((charge s t).cpus (schedulerCurrentCpuState s executing)).current =
                some t := current
            unfold saveFrame
            rw [here]
            rfl

/-! ## Going off the CPU -/

section

variable (core : Core s contents held)
include core

/-- A running task puts itself on a list: the locked parts of
`scheduler_sleep`, `scheduler_wait_channel` and `scheduler_exit_current`. -/
theorem stop_core {t : TaskId} {r : ListRef} {f : Task → Task}
    (off : t ∉ held) (running : (s.tasks t).state = .running) (noQueue : ∀ c p, r ≠ .runnable c p)
    (live : r.state ≠ .unused) (home : (f (s.tasks t)).home = some r)
    (priority : (f (s.tasks t)).priority = (s.tasks t).priority)
    (assigned : (f (s.tasks t)).assignedCpu = (s.tasks t).assignedCpu)
    (affinity : (f (s.tasks t)).cpuAffinityMask = (s.tasks t).cpuAffinityMask)
    (kind : (f (s.tasks t)).listKind = (s.tasks t).listKind)
    (frame : (f (s.tasks t)).frame = (s.tasks t).frame) :
    Core (taskListPushBack (s.setTask t f) r t (kindOn (some r)))
        (Function.update contents r (contents r ++ [t])) held ∧
      Moves (· = t) s (taskListPushBack (s.setTask t f) r t (kindOn (some r))) := by
  have inHand : t ∈ insert t held := Finset.mem_insert_self ..
  have taken := core.hold running
  have state : (f (s.tasks t)).state = r.state := Task.home_state home
  have before := core.allowed t
  have alive : (s.tasks t).state ≠ .unused := by simp [running]
  have stopped : (f (s.tasks t)).state ≠ .running := by
    intro still
    rw [Task.home, still] at home
    cases home
  have stood := taken.setHeld inHand (kind.trans (taken.placed.held_kind inHand))
    ⟨fun _ => ⟨by rw [assigned]; exact (before.seated alive).online,
        by rw [assigned, affinity]; exact (before.seated alive).affinity,
        by rw [priority]; exact (before.seated alive).priority⟩,
      fun still => absurd still stopped,
      fun c here => ⟨by rw [state]; exact live, by rw [assigned]; exact (before.current c here).2⟩⟩
  have listed := stood.put inHand (by rw [State.setTask_same]; exact home) noQueue
  rw [Finset.erase_insert off] at listed
  have rewritten : Moves (· = t) s (s.setTask t f) :=
    .setTask (iff_of_false (by rw [state]; exact live) alive) frame affinity
  exact ⟨listed, rewritten.trans (taskListPushBack_moves ..)⟩

theorem sleepLocked_listed {t : TaskId} (off : t ∉ held)
    (running : (s.tasks t).state = .running) (ticks : Nat) :
    Core (sleepLocked s t ticks)
        (Function.update contents .sleeping (contents .sleeping ++ [t])) held ∧
      Moves (· = t) s (sleepLocked s t ticks) :=
  stop_core core off running nofun nofun rfl rfl rfl rfl rfl rfl

theorem waitLocked_listed {t : TaskId} (off : t ∉ held)
    (running : (s.tasks t).state = .running) (channel timeoutTicks : Nat) :
    Core (waitLocked s t channel timeoutTicks)
        (Function.update contents .blocked (contents .blocked ++ [t])) held ∧
      Moves (· = t) s (waitLocked s t channel timeoutTicks) :=
  stop_core core off running nofun nofun rfl rfl rfl rfl rfl rfl

theorem exitLocked_listed {t : TaskId} (off : t ∉ held)
    (running : (s.tasks t).state = .running) :
    Core (exitLocked s t) (Function.update contents .zombie (contents .zombie ++ [t])) held ∧
      Moves (· = t) s (exitLocked s t) :=
  stop_core core off running nofun nofun rfl rfl rfl rfl rfl rfl

/-! ## Priorities -/

/-- A queued task changes queues. -/
theorem changePriority_queued {t : TaskId} {priority : Nat}
    (off : t ∉ held) (state : (s.tasks t).state = .runnable)
    (inRange : priority < schedulerPriorityCount) (changes : (s.tasks t).priority ≠ priority)
    (executing : Nat) :
    Core (changePriority s executing t priority)
        (relist contents (s.queueOf t) (.runnable (s.tasks t).assignedCpu priority) t) held ∧
      Moves (· = t) s (changePriority s executing t priority) := by
  have live : (s.tasks t).state ≠ .unused := by simp [state]
  obtain ⟨online, mask, before⟩ := (core.allowed t).seated live
  have home : (s.tasks t).home = some (.runnable (s.tasks t).assignedCpu (s.tasks t).priority) := by
    rw [Task.home, state]
  have kind : (s.tasks t).listKind = .runnable := by
    rw [core.placed.kind, State.whereabouts_home off, home]
    rfl
  have removed : unqueue s t =
      dropRunnable s (s.tasks t).assignedCpu (s.tasks t).priority t := by
    unfold unqueue schedulerRemoveRunnable
    rw [if_pos ⟨state, kind⟩, if_neg (by simp [kind, state]), core.topology.cpuById online,
      schedulerPrioritySanitize_of_lt before]
  have dropped := core.drop (core.placed.mem_of_home off home)
  have same : (dropRunnable s (s.tasks t).assignedCpu (s.tasks t).priority t).tasks t =
      { s.tasks t with listKind := .none } := taskListRemove_same ..
  have moves := dropRunnable_moves s (s.tasks t).assignedCpu (s.tasks t).priority t
  unfold changePriority
  rw [removed]
  generalize dropRunnable s (s.tasks t).assignedCpu (s.tasks t).priority t = m
    at dropped same moves ⊢
  have stateM : (m.tasks t).state = .runnable := by rw [same, ← state]
  have allowedM := dropped.allowed t
  have seatM := allowedM.seated (by simp [stateM])
  have rewritten := dropped.setHeld (Finset.mem_insert_self t held)
    (f := fun u => { u with priority := priority })
    (dropped.placed.held_kind (Finset.mem_insert_self ..))
    ⟨fun _ => ⟨seatM.online, seatM.affinity, inRange⟩, allowedM.running, allowedM.current⟩
  have moved : Moves (· = t) s (m.setTask t fun u => { u with priority := priority }) :=
    moves.trans (.setTask Iff.rfl rfl rfl)
  have stateN : ((m.setTask t fun u => { u with priority := priority }).tasks t).state =
      .runnable := by rw [State.setTask_same, ← stateM]
  have queueN : (m.setTask t fun u => { u with priority := priority }).queueOf t =
      .runnable (s.tasks t).assignedCpu priority := by
    rw [State.queueOf, State.setTask_same, same]
  generalize (m.setTask t fun u => { u with priority := priority }) = n
    at rewritten moved stateN queueN ⊢
  have liveN : (n.tasks t).state ≠ .unused := by simp [stateN]
  have queued := schedulerEnqueueRunnable_core rewritten (Finset.mem_insert_self ..) liveN
    executing .reschedule
  have apart : ListRef.runnable (s.tasks t).assignedCpu priority ≠
      .runnable (s.tasks t).assignedCpu (s.tasks t).priority := by
    intro equal
    exact changes (ListRef.runnable.inj equal).2.symm
  rw [Finset.erase_insert off, queueN, Function.update_of_ne apart] at queued
  have waiting : ((schedulerEnqueueRunnable n executing t .reschedule).tasks t).state =
      .runnable := schedulerCpuEnqueueRunnable_state ..
  have settled : renewSlice (requeue n executing t) t =
      schedulerEnqueueRunnable n executing t .reschedule := by
    unfold renewSlice requeue
    rw [if_pos stateN, if_neg (by simp [waiting])]
  dsimp only
  rw [settled]
  exact ⟨queued, moved.trans (schedulerEnqueueRunnable_moves executing _ liveN)⟩

/-- Any other task stays where it is. -/
theorem changePriority_unqueued {t : TaskId} {priority : Nat}
    (state : (s.tasks t).state ≠ .runnable) (inRange : priority < schedulerPriorityCount)
    (executing : Nat) :
    Core (changePriority s executing t priority) contents held ∧
      Moves (· = t) s (changePriority s executing t priority) ∧
      ((changePriority s executing t priority).tasks t).state = (s.tasks t).state := by
  have before := core.allowed t
  have home : ({ s.tasks t with priority := priority } : Task).home = (s.tasks t).home := by
    unfold Task.home
    cases kind : (s.tasks t).state with
    | runnable => exact absurd kind state
    | unused => rfl
    | running => rfl
    | sleeping => rfl
    | blocked => rfl
    | zombie => rfl
  have rewritten := core.setTask (f := fun u => { u with priority := priority }) home rfl
    ⟨fun live => ⟨(before.seated live).online, (before.seated live).affinity, inRange⟩,
      before.running, before.current⟩
  have moved : Moves (· = t) s (s.setTask t fun u => { u with priority := priority }) :=
    .setTask Iff.rfl rfl rfl
  have same : ((s.setTask t fun u => { u with priority := priority }).tasks t).state =
      (s.tasks t).state := by rw [State.setTask_same]
  have stays : unqueue s t = s := if_neg fun here => state here.1
  unfold changePriority
  rw [stays]
  generalize (s.setTask t fun u => { u with priority := priority }) = m
    at rewritten moved same ⊢
  have kept : requeue m executing t = m := if_neg (by rwa [same])
  dsimp only
  rw [kept]
  unfold renewSlice
  split
  · refine ⟨rewritten.setDetails rfl rfl rfl rfl rfl, moved.trans (.setTask Iff.rfl rfl rfl), ?_⟩
    rw [State.setTask_same, ← same]
  · exact ⟨rewritten, moved, same⟩

end

theorem schedulerFindTaskById_id {taskId : Nat} {t : TaskId}
    (found : schedulerFindTaskById s taskId = some t) : (s.tasks t).id = taskId := by
  have passed := List.find?_some found
  simp only [Bool.and_eq_true, decide_eq_true_eq] at passed
  exact passed.2

theorem schedulerFindTaskById_live {taskId : Nat} {t : TaskId}
    (found : schedulerFindTaskById s taskId = some t) : (s.tasks t).state ≠ .unused := by
  have passed := List.find?_some found
  simp only [ne_eq, decide_not, Bool.and_eq_true, Bool.not_eq_true', decide_eq_false_iff_not]
    at passed
  exact passed.1

/-- `scheduler_set_task_priority` moves one task at most, and none that runs
stops running. -/
theorem schedulerSetTaskPriority_core (core : Core s contents held) (reserved : Reserved s held)
    (executing taskId priority : Nat) :
    (∃ contents',
      Core (schedulerSetTaskPriority s executing taskId priority).1 contents' held) ∧
      Stirs (fun _ => True) s (schedulerSetTaskPriority s executing taskId priority).1 ∧
      ∀ t, (s.tasks t).state = .running →
        ((schedulerSetTaskPriority s executing taskId priority).1.tasks t).state = .running := by
  have stay : (∃ contents', Core s contents' held) ∧ Stirs (fun _ => True) s s ∧
      ∀ t, (s.tasks t).state = .running → (s.tasks t).state = .running :=
    ⟨⟨contents, core⟩, (Moves.refl _ s).stirs, fun _ running => running⟩
  have inRange := schedulerPrioritySanitize_lt priority
  unfold schedulerSetTaskPriority
  cases found : schedulerFindTaskById s taskId with
  | none => exact stay
  | some t =>
      dsimp only
      split
      · exact stay
      · next changes =>
        by_cases state : (s.tasks t).state = .runnable
        · have off : t ∉ held := fun inHand =>
            schedulerFindTaskById_live found (reserved t inHand)
          obtain ⟨after, moves⟩ := changePriority_queued core off state inRange changes executing
          refine ⟨⟨_, after⟩, moves.stirs.mono fun _ _ => trivial, fun u running => ?_⟩
          rw [moves.untouched u]
          · exact running
          · rintro rfl
            rw [state] at running
            cases running
        · obtain ⟨after, moves, same⟩ := changePriority_unqueued core state inRange executing
          refine ⟨⟨contents, after⟩, moves.stirs.mono fun _ _ => trivial, fun u running => ?_⟩
          by_cases here : u = t
          · rw [here, same, ← here]
            exact running
          · rw [moves.untouched u here]
            exact running

end

end Dfos.Scheduler
