import Dfos.Scheduler.RunQueue

/-!
# Dispatch

`scheduler_schedule_cpu` takes the next task off the run queues of a CPU and
makes it current there.  `Dispatched` says what that changes: nothing about the
tasks of other CPUs.
-/

namespace Dfos.Scheduler

open Dfos.Lib

section

variable {s : State} {contents : ListRef → List TaskId} {held : Finset TaskId}

/-- What a switch of `cpu` to `next` changes, up to the fields of queueing. -/
structure Dispatched (s s' : State) (cpu : Nat) (next : TaskId) : Prop where
  topology : SameTopology s s'
  current : ∀ c, (s'.cpus c).current = if c = cpu then some next else (s.cpus c).current
  running : (s'.tasks next).state = .running
  live : (s.tasks next).state ≠ .unused
  assigned : (s.tasks next).assignedCpu = cpu
  untouched : ∀ t, (s.tasks t).assignedCpu ≠ cpu → s'.tasks t = s.tasks t
  unused : ∀ t, (s'.tasks t).state = .unused ↔ (s.tasks t).state = .unused
  frame : ∀ t, (s'.tasks t).frame = (s.tasks t).frame
  affinity : ∀ t, (s'.tasks t).cpuAffinityMask = (s.tasks t).cpuAffinityMask

/-! ## Taking the next task -/

/-- The front of the first run queue that is not empty, of those looked at. -/
theorem dequeueFrom_cases (s : State) (cpu : Nat) :
    ∀ left priority, (∃ p t, dequeueFrom s cpu left priority = (dropRunnable s cpu p t, some t) ∧
        (s.lists (.runnable cpu p)).head = some t ∧
        ∀ q, priority ≤ q → q < p → (s.lists (.runnable cpu q)).head = none) ∨
      dequeueFrom s cpu left priority = (s, none) := by
  intro left
  induction left with
  | zero => exact fun _ => Or.inr rfl
  | succ left ih =>
      intro priority
      unfold dequeueFrom
      cases head : (s.lists (.runnable cpu priority)).head with
      | some t => exact Or.inl ⟨priority, t, rfl, head, fun q from' below => by omega⟩
      | none =>
          rcases ih (priority + 1) with ⟨p, t, taken, front, higher⟩ | none
          · refine Or.inl ⟨p, t, taken, front, fun q from' below => ?_⟩
            rcases Nat.eq_or_lt_of_le from' with rfl | later
            · exact head
            · exact higher q later below
          · exact Or.inr none

/-- The next task of a CPU comes off the front of a run queue, and the queues of
higher priority are empty. -/
theorem schedulerCpuDequeueNextRunnable_front (core : Core s contents held) (cpu : Nat) :
    (∃ t rest, schedulerCpuDequeueNextRunnable s cpu =
          (dropRunnable s cpu (s.tasks t).priority t, some t) ∧
        contents (.runnable cpu (s.tasks t).priority) = t :: rest ∧
        (s.tasks t).home = some (.runnable cpu (s.tasks t).priority) ∧
        ∀ q < (s.tasks t).priority, contents (.runnable cpu q) = []) ∨
      schedulerCpuDequeueNextRunnable s cpu = (s, none) := by
  rcases dequeueFrom_cases s cpu schedulerPriorityCount 0 with ⟨p, t, taken, head, higher⟩ | none
  · left
    rw [(core.placed.holds.list (.runnable cpu p)).head] at head
    obtain ⟨rest, front⟩ := List.head?_eq_some_iff.mp head
    have home := core.placed.home (List.mem_of_mem_head? head)
    obtain ⟨-, -, rfl⟩ := Task.home_runnable home
    refine ⟨t, rest, taken, front, home, fun q below => ?_⟩
    have empty := higher q (Nat.zero_le q) below
    rw [(core.placed.holds.list (.runnable cpu q)).head] at empty
    exact List.head?_eq_none_iff.mp empty
  · exact Or.inr none

/-- The next task of a CPU comes off one of its run queues. -/
theorem schedulerCpuDequeueNextRunnable_core (core : Core s contents held) (cpu : Nat) :
    (∃ m t contents', schedulerCpuDequeueNextRunnable s cpu = (m, some t) ∧
        Core m contents' (insert t held) ∧ t ∉ held ∧ Moves (· = t) s m ∧
        (s.tasks t).state = .runnable ∧ (s.tasks t).assignedCpu = cpu ∧
        m.tasks t = { s.tasks t with listKind := .none }) ∨
      schedulerCpuDequeueNextRunnable s cpu = (s, none) := by
  rcases schedulerCpuDequeueNextRunnable_front core cpu with ⟨t, rest, taken, front, home, -⟩ | none
  · left
    have member : t ∈ contents (.runnable cpu (s.tasks t).priority) := by simp [front]
    obtain ⟨state, assigned, -⟩ := Task.home_runnable home
    exact ⟨_, t, _, taken, core.drop member, core.placed.notHeld member,
      dropRunnable_moves .., state, assigned, taskListRemove_same ..⟩
  · exact Or.inr none

/-! ## Making it current -/

theorem makeCurrent_current (s : State) (cpu : Nat) (next : TaskId) (c : Nat) :
    ((makeCurrent s cpu next).cpus c).current =
      if c = cpu then some next else (s.cpus c).current := by
  unfold makeCurrent
  split
  · next here =>
      rw [here, State.setCpu_same]
  · next other =>
      rw [State.setCpu_other _ _ other]
      rfl

theorem makeCurrent_cpu (s : State) (cpu : Nat) (next : TaskId) (c : Nat) :
    ((makeCurrent s cpu next).cpus c).id = (s.cpus c).id ∧
      ((makeCurrent s cpu next).cpus c).online = (s.cpus c).online ∧
      ((makeCurrent s cpu next).cpus c).runnableCount = (s.cpus c).runnableCount := by
  unfold makeCurrent
  by_cases here : c = cpu
  · rw [here, State.setCpu_same]
    exact ⟨rfl, rfl, rfl⟩
  · rw [State.setCpu_other _ _ here]
    exact ⟨rfl, rfl, rfl⟩

theorem makeCurrent_same (s : State) (cpu : Nat) (next : TaskId) :
    (makeCurrent s cpu next).tasks next =
      { s.tasks next with state := .running, ticksInSlice := 0 } := by
  simp [makeCurrent, State.setTask, State.setCpu]

theorem makeCurrent_other {next t : TaskId} (s : State) (cpu : Nat) (other : t ≠ next) :
    (makeCurrent s cpu next).tasks t = s.tasks t := by
  simp [makeCurrent, State.setTask, State.setCpu, other]

theorem makeCurrent_topology (s : State) (cpu : Nat) (next : TaskId) :
    SameTopology s (makeCurrent s cpu next) :=
  ⟨fun c => (makeCurrent_cpu s cpu next c).1, fun c => (makeCurrent_cpu s cpu next c).2.1,
    rfl, rfl⟩

/-- A task in hand becomes current on its CPU, where nothing runs. -/
theorem makeCurrent_core {cpu : Nat} {next : TaskId} (core : Core s contents held)
    (inHand : next ∈ held) (live : (s.tasks next).state ≠ .unused)
    (assigned : (s.tasks next).assignedCpu = cpu)
    (stopped : ∀ t, (s.cpus cpu).current = some t → (s.tasks t).state ≠ .running) :
    Core (makeCurrent s cpu next) contents (held.erase next) := by
  have same := makeCurrent_topology s cpu next
  have current := makeCurrent_current s cpu next
  have running : ((makeCurrent s cpu next).tasks next).state = .running := by
    rw [makeCurrent_same]
  have placed : Placed (makeCurrent s cpu next) contents held :=
    (core.placed.setHeld inHand (f := fun t => { t with state := .running, ticksInSlice := 0 })
      (core.placed.held_kind inHand)).congr rfl rfl fun _ => ⟨rfl, rfl⟩
  have whole : Core (makeCurrent s cpu next) contents held := by
    refine ⟨placed, core.topology.congr same, fun t => ?_, fun c => ?_⟩
    · by_cases here : t = next
      · subst here
        obtain ⟨online, affinity, priority⟩ := (core.allowed t).seated live
        rw [makeCurrent_same]
        refine ⟨fun _ => ⟨by rwa [same.online], affinity, priority⟩, fun _ => ?_,
          fun c here => ⟨nofun, ?_⟩⟩
        · rw [current, if_pos assigned]
        · rw [current] at here
          split at here
          · next at_ => exact assigned.trans at_.symm
          · exact ((core.allowed t).current c here).2
      · rw [makeCurrent_other s cpu here]
        have before := core.allowed t
        refine ⟨fun alive => ?_, fun state => ?_, fun c now => ?_⟩
        · obtain ⟨online, affinity, priority⟩ := before.seated alive
          exact ⟨by rwa [same.online], affinity, priority⟩
        · have was := before.running state
          rw [current, if_neg]
          · exact was
          · intro atCpu
            rw [atCpu] at was
            exact stopped t was state
        · rw [current] at now
          split at now
          · exact absurd (Option.some.inj now).symm here
          · exact before.current c now
    · rw [(makeCurrent_cpu s cpu next c).2.2]
      exact core.counted c
  exact whole.letGo running

theorem makeCurrent_dispatched {cpu : Nat} {next : TaskId}
    (live : (s.tasks next).state ≠ .unused) (assigned : (s.tasks next).assignedCpu = cpu)
    (spaces : Paging.AddressSpaces) :
    Dispatched s { makeCurrent s cpu next with spaces := spaces } cpu next := by
  have same := makeCurrent_same s cpu next
  have others : ∀ {t}, t ≠ next → (makeCurrent s cpu next).tasks t = s.tasks t :=
    makeCurrent_other s cpu
  have topology := makeCurrent_topology s cpu next
  refine ⟨⟨topology.id, topology.online, rfl, rfl⟩, makeCurrent_current s cpu next, ?_, live,
    assigned, fun t away => others fun here => away (here ▸ assigned), fun t => ?_, fun t => ?_,
    fun t => ?_⟩
  · change ((makeCurrent s cpu next).tasks next).state = _
    rw [same]
  · change ((makeCurrent s cpu next).tasks t).state = _ ↔ _
    by_cases here : t = next
    · rw [here, same]
      exact iff_of_false nofun live
    · rw [others here]
  · change ((makeCurrent s cpu next).tasks t).frame = _
    by_cases here : t = next
    · rw [here, same]
    · rw [others here]
  · change ((makeCurrent s cpu next).tasks t).cpuAffinityMask = _
    by_cases here : t = next
    · rw [here, same]
    · rw [others here]

/-- Moves among the tasks of a CPU can precede its switch. -/
theorem Dispatched.after_moves {m s' : State} {cpu : Nat} {next : TaskId}
    {touched : TaskId → Prop} (switched : Dispatched m s' cpu next) (moves : Moves touched s m)
    (own : ∀ t, touched t → (s.tasks t).assignedCpu = cpu) : Dispatched s s' cpu next := by
  have same : ∀ t, (s.tasks t).assignedCpu ≠ cpu → m.tasks t = s.tasks t :=
    fun t away => moves.untouched t fun here => away (own t here)
  refine ⟨moves.machine.topology.trans switched.topology, fun c => ?_, switched.running,
    fun dead => switched.live ((moves.unused next).mpr dead), ?_, fun t away => ?_,
    fun t => (switched.unused t).trans (moves.unused t),
    fun t => (switched.frame t).trans (moves.frame t),
    fun t => (switched.affinity t).trans (moves.affinity t)⟩
  · rw [switched.current, moves.machine.current]
  · by_contra away
    have seat := switched.assigned
    rw [same next away] at seat
    exact away seat
  · rw [switched.untouched t (by rw [same t away]; exact away), same t away]

/-! ## Scheduling a CPU -/

/-- The tasks in hand between critical sections are slots in creation. -/
def Reserved (s : State) (held : Finset TaskId) : Prop :=
  ∀ t ∈ held, (s.tasks t).state = .unused

theorem Core.current_notHeld {cpu : Nat} {t : TaskId} (core : Core s contents held)
    (reserved : Reserved s held) (current : (s.cpus cpu).current = some t) : t ∉ held :=
  fun inHand => ((core.allowed t).current cpu current).1 (reserved t inHand)

/-- After the current task has made way, nothing runs on the CPU. -/
theorem requeueCurrent_core {cpu : Nat} (core : Core s contents held)
    (reserved : Reserved s held) (online : (s.cpus cpu).online) (executing : Nat) :
    (∃ contents', Core (requeueCurrent s executing cpu) contents' held) ∧
      Moves (fun t => (s.cpus cpu).current = some t) s (requeueCurrent s executing cpu) ∧
      ∀ t, (s.cpus cpu).current = some t →
        ((requeueCurrent s executing cpu).tasks t).state ≠ .running := by
  unfold requeueCurrent
  cases current : (s.cpus cpu).current with
  | none => exact ⟨⟨contents, core⟩, .refl _ s, nofun⟩
  | some t =>
      dsimp only
      split
      · next running =>
          have live : (s.tasks t).state ≠ .unused := by simp [running]
          have seat := ((core.allowed t).current cpu current).2
          have affinity := ((core.allowed t).seated live).affinity
          have queued := schedulerCpuEnqueueRunnable_core (core.hold running)
            (Finset.mem_insert_self ..) online (seat ▸ affinity)
            (fun c here => ((core.allowed t).current c here).2.symm.trans seat) executing
            .reschedule
          rw [Finset.erase_insert (core.current_notHeld reserved current)] at queued
          refine ⟨⟨_, queued⟩,
            (schedulerCpuEnqueueRunnable_moves executing cpu .reschedule live).mono
              fun u here => congrArg some here.symm, fun u here => ?_⟩
          obtain rfl := Option.some.inj here
          rw [schedulerCpuEnqueueRunnable_state]
          nofun
      · next stopped =>
          refine ⟨⟨contents, core⟩, .refl _ s, fun u here => ?_⟩
          obtain rfl := Option.some.inj here
          exact stopped

/-- The CPU panics for want of a task, or switches to one of its own. -/
theorem reschedule_core {cpu : Nat} (core : Core s contents held) (reserved : Reserved s held)
    (online : (s.cpus cpu).online) (executing : Nat) (frame : Option Nat) :
    (∃ id, reschedule s executing cpu frame = .error (.panic (.noRunnableTasks id))) ∨
      ∃ s' next contents', reschedule s executing cpu frame = .ok (s', (s'.tasks next).frame) ∧
        Core s' contents' held ∧ Dispatched s s' cpu next := by
  obtain ⟨⟨queues, requeued⟩, moved, stopped⟩ :=
    requeueCurrent_core core reserved online executing
  unfold reschedule
  generalize requeueCurrent s executing cpu = m at requeued moved stopped ⊢
  have stoppedM : ∀ t, (m.cpus cpu).current = some t → (m.tasks t).state ≠ .running := by
    intro t here
    rw [moved.machine.current] at here
    exact stopped t here
  rcases schedulerCpuDequeueNextRunnable_core requeued cpu with
    ⟨n, next, rest, taken, dequeued, off, moves, state, seat, same⟩ | empty
  · right
    rw [taken]
    have stateN : (n.tasks next).state = .runnable := by rw [same, ← state]
    have seatN : (n.tasks next).assignedCpu = cpu := by rw [same, ← seat]
    have liveN : (n.tasks next).state ≠ .unused := by simp [stateN]
    have stoppedN : ∀ t, (n.cpus cpu).current = some t → (n.tasks t).state ≠ .running := by
      intro t here
      rw [moves.machine.current] at here
      by_cases isNext : t = next
      · rw [isNext, stateN]
        nofun
      · rw [moves.untouched t isNext]
        exact stoppedM t here
    have switched := makeCurrent_core dequeued (Finset.mem_insert_self ..) liveN seatN stoppedN
    rw [Finset.erase_insert off] at switched
    refine ⟨_, next, rest, rfl, switched.transport rfl rfl rfl rfl rfl rfl, ?_⟩
    refine ((makeCurrent_dispatched liveN seatN _).after_moves moves ?_).after_moves moved ?_
    · rintro t rfl
      exact seat
    · exact fun t here => ((core.allowed t).current cpu here).2
  · left
    rw [empty]
    dsimp only
    unfold schedulerSwitchToTask
    dsimp only
    cases current : (m.cpus cpu).current with
    | none => exact ⟨_, rfl⟩
    | some t =>
        dsimp only
        rw [if_neg (stoppedM t current)]
        exact ⟨_, rfl⟩

theorem saveFrame_core (core : Core s contents held) (cpu : Nat) (frame : Option Nat) :
    Core (saveFrame s cpu frame) contents held := by
  unfold saveFrame
  cases (s.cpus cpu).current with
  | none => exact core
  | some t => exact core.setDetails rfl rfl rfl rfl rfl

theorem saveFrame_state (s : State) (cpu : Nat) (frame : Option Nat) (t : TaskId) :
    ((saveFrame s cpu frame).tasks t).state = (s.tasks t).state := by
  unfold saveFrame
  cases (s.cpus cpu).current with
  | none => rfl
  | some u =>
      by_cases here : t = u
      · subst here
        rw [State.setTask_same]
      · rw [State.setTask_other s _ here]

theorem saveFrame_reserved (reserved : Reserved s held) (cpu : Nat) (frame : Option Nat) :
    Reserved (saveFrame s cpu frame) held := by
  intro t inHand
  rw [saveFrame_state]
  exact reserved t inHand

theorem saveFrame_cpus (s : State) (cpu : Nat) (frame : Option Nat) :
    (saveFrame s cpu frame).cpus = s.cpus := by
  unfold saveFrame
  cases (s.cpus cpu).current <;> rfl

/-- `scheduler_schedule_cpu` with `force_switch`. -/
theorem schedulerScheduleCpu_forced (s : State) (executing cpu : Nat) (frame : Option Nat) :
    schedulerScheduleCpu s executing cpu frame true =
      reschedule (saveFrame s cpu frame) executing cpu frame := by
  unfold schedulerScheduleCpu
  dsimp only
  cases ((saveFrame s cpu frame).cpus cpu).current with
  | none => rfl
  | some t => exact if_neg (by simp)

theorem schedulerScheduleCpu_core {cpu : Nat} (core : Core s contents held)
    (reserved : Reserved s held) (online : (s.cpus cpu).online) (executing : Nat)
    (frame : Option Nat) :
    (∃ id, schedulerScheduleCpu s executing cpu frame true =
        .error (.panic (.noRunnableTasks id))) ∨
      ∃ s' next contents',
        schedulerScheduleCpu s executing cpu frame true = .ok (s', (s'.tasks next).frame) ∧
        Core s' contents' held ∧ Dispatched (saveFrame s cpu frame) s' cpu next := by
  have saved := saveFrame_core core cpu frame
  have kept := saveFrame_reserved reserved cpu frame
  have onlineSaved : ((saveFrame s cpu frame).cpus cpu).online := by rwa [saveFrame_cpus]
  rw [schedulerScheduleCpu_forced]
  exact reschedule_core saved kept onlineSaved executing frame

end

end Dfos.Scheduler
