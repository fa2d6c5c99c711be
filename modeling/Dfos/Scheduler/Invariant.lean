import Dfos.Scheduler.Placement
import Mathlib.Algebra.BigOperators.Group.Finset.Basic
import Mathlib.Tactic.IntervalCases

/-!
# The scheduler invariant

`Core` joins the placement of the tasks with the counters of the CPUs and with
what ties tasks to CPUs: a live task is assigned to an online CPU its affinity
mask allows, a running task is current on that CPU, and the current task of a
CPU is assigned to it.  It holds inside critical sections too, with the tasks
in hand named, and does not say that current tasks run: between the locked part
of `scheduler_sleep` and its `int 48` they do not.

`Moves` is the frame condition of the operations that only move tasks between
lists.
-/

namespace Dfos.Scheduler

open Dfos.Lib

/-- The task sits on an online CPU of its affinity mask. -/
structure Seated (s : State) (t : Task) : Prop where
  online : (s.cpus t.assignedCpu).online
  affinity : t.cpuAffinityMask.testBit t.assignedCpu
  priority : t.priority < schedulerPriorityCount

/-- The CPUs of the topology. -/
structure Topology (s : State) : Prop where
  id : ∀ c, (s.cpus c).online → (s.cpus c).id = c
  online : ∀ c, (s.cpus c).online → c < s.configuredCpuCount
  count : s.configuredCpuCount ≤ schedulerMaxCpus
  boot : (s.cpus s.bootCpuId).online

/-- How the task `t` may stand, given what is current. -/
structure Allowed (s : State) (t : TaskId) (task : Task) : Prop where
  seated : task.state ≠ .unused → Seated s task
  running : task.state = .running → (s.cpus task.assignedCpu).current = some t
  current : ∀ c, (s.cpus c).current = some t → task.state ≠ .unused ∧ task.assignedCpu = c

/-- The lengths of the run queues of a CPU together. -/
def queued (contents : ListRef → List TaskId) (cpu : Nat) : Nat :=
  ∑ priority ∈ Finset.range schedulerPriorityCount, (contents (.runnable cpu priority)).length

/-- The invariant of the scheduler while the tasks of `held` are in hand. -/
structure Core (s : State) (contents : ListRef → List TaskId) (held : Finset TaskId) :
    Prop where
  placed : Placed s contents held
  topology : Topology s
  allowed : ∀ t, Allowed s t (s.tasks t)
  counted : ∀ c, (s.cpus c).runnableCount = queued contents c

/-- What `Core` says of the queues, without what ties tasks to the CPUs they are
current on. -/
structure RunQueues (s : State) (contents : ListRef → List TaskId) (held : Finset TaskId) :
    Prop where
  placed : Placed s contents held
  topology : Topology s
  seated : ∀ t, (s.tasks t).state ≠ .unused → Seated s (s.tasks t)
  counted : ∀ c, (s.cpus c).runnableCount = queued contents c

theorem Core.runQueues {s : State} {contents : ListRef → List TaskId} {held : Finset TaskId}
    (core : Core s contents held) : RunQueues s contents held :=
  ⟨core.placed, core.topology, fun t => (core.allowed t).seated, core.counted⟩

theorem queued_update (contents : ListRef → List TaskId) (cpu : Nat) {priority : Nat}
    (inRange : priority < schedulerPriorityCount) (tasks : List TaskId) :
    queued (Function.update contents (.runnable cpu priority) tasks) cpu +
        (contents (.runnable cpu priority)).length =
      queued contents cpu + tasks.length := by
  unfold schedulerPriorityCount at inRange
  interval_cases priority <;>
    simp [queued, schedulerPriorityCount, Finset.sum_range_succ, Function.update_apply] <;>
    omega

theorem queued_update_other {contents : ListRef → List TaskId} {cpu : Nat} {r : ListRef}
    (other : ∀ priority, r ≠ .runnable cpu priority) (tasks : List TaskId) :
    queued (Function.update contents r tasks) cpu = queued contents cpu := by
  unfold queued
  refine Finset.sum_congr rfl fun priority _ => ?_
  rw [Function.update_of_ne (other priority).symm]

/-! ## Operations that move tasks -/

/-- The topology is the same. -/
structure SameTopology (s s' : State) : Prop where
  id : ∀ c, (s'.cpus c).id = (s.cpus c).id
  online : ∀ c, (s'.cpus c).online = (s.cpus c).online
  configuredCpuCount : s'.configuredCpuCount = s.configuredCpuCount
  bootCpuId : s'.bootCpuId = s.bootCpuId

/-- The topology, the current tasks and the clock are the same. -/
structure SameMachine (s s' : State) : Prop where
  id : ∀ c, (s'.cpus c).id = (s.cpus c).id
  online : ∀ c, (s'.cpus c).online = (s.cpus c).online
  current : ∀ c, (s'.cpus c).current = (s.cpus c).current
  configuredCpuCount : s'.configuredCpuCount = s.configuredCpuCount
  bootCpuId : s'.bootCpuId = s.bootCpuId
  systemTicks : s'.systemTicks = s.systemTicks
  lastBalanceTick : s'.lastBalanceTick = s.lastBalanceTick
  bootstrapped : s'.bootstrapped = s.bootstrapped
  smpAvailable : s'.smpAvailable = s.smpAvailable

/-- Only tasks of `touched` change, none comes to life or dies, and their
frames and masks stay. -/
structure Moves (touched : TaskId → Prop) (s s' : State) : Prop where
  machine : SameMachine s s'
  untouched : ∀ t, ¬ touched t → s'.tasks t = s.tasks t
  unused : ∀ t, (s'.tasks t).state = .unused ↔ (s.tasks t).state = .unused
  frame : ∀ t, (s'.tasks t).frame = (s.tasks t).frame
  affinity : ∀ t, (s'.tasks t).cpuAffinityMask = (s.tasks t).cpuAffinityMask

theorem SameTopology.trans {s m s' : State} (first : SameTopology s m)
    (second : SameTopology m s') : SameTopology s s' where
  id c := (second.id c).trans (first.id c)
  online c := (second.online c).trans (first.online c)
  configuredCpuCount := second.configuredCpuCount.trans first.configuredCpuCount
  bootCpuId := second.bootCpuId.trans first.bootCpuId

theorem SameMachine.topology {s s' : State} (same : SameMachine s s') : SameTopology s s' :=
  ⟨same.id, same.online, same.configuredCpuCount, same.bootCpuId⟩

theorem SameMachine.refl (s : State) : SameMachine s s :=
  ⟨fun _ => rfl, fun _ => rfl, fun _ => rfl, rfl, rfl, rfl, rfl, rfl, rfl⟩

theorem SameMachine.trans {s m s' : State} (first : SameMachine s m) (second : SameMachine m s') :
    SameMachine s s' where
  id c := (second.id c).trans (first.id c)
  online c := (second.online c).trans (first.online c)
  current c := (second.current c).trans (first.current c)
  configuredCpuCount := second.configuredCpuCount.trans first.configuredCpuCount
  bootCpuId := second.bootCpuId.trans first.bootCpuId
  systemTicks := second.systemTicks.trans first.systemTicks
  lastBalanceTick := second.lastBalanceTick.trans first.lastBalanceTick
  bootstrapped := second.bootstrapped.trans first.bootstrapped
  smpAvailable := second.smpAvailable.trans first.smpAvailable

theorem Moves.refl (touched : TaskId → Prop) (s : State) : Moves touched s s :=
  ⟨.refl s, fun _ _ => rfl, fun _ => Iff.rfl, fun _ => rfl, fun _ => rfl⟩

theorem Moves.trans {touched : TaskId → Prop} {s m s' : State} (first : Moves touched s m)
    (second : Moves touched m s') : Moves touched s s' where
  machine := first.machine.trans second.machine
  untouched t off := (second.untouched t off).trans (first.untouched t off)
  unused t := (second.unused t).trans (first.unused t)
  frame t := (second.frame t).trans (first.frame t)
  affinity t := (second.affinity t).trans (first.affinity t)

theorem Moves.mono {touched touched' : TaskId → Prop} {s s' : State} (moves : Moves touched s s')
    (weaker : ∀ t, touched t → touched' t) : Moves touched' s s' :=
  { moves with untouched := fun t off => moves.untouched t fun here => off (weaker t here) }

/-- One task is rewritten, with the fields that stay. -/
theorem Moves.setTask {s : State} {t : TaskId} {f : Task → Task}
    (unused : (f (s.tasks t)).state = .unused ↔ (s.tasks t).state = .unused)
    (frame : (f (s.tasks t)).frame = (s.tasks t).frame)
    (affinity : (f (s.tasks t)).cpuAffinityMask = (s.tasks t).cpuAffinityMask) :
    Moves (· = t) s (s.setTask t f) := by
  have same := State.setTask_same s t f
  have others : ∀ u, u ≠ t → (s.setTask t f).tasks u = s.tasks u :=
    fun u other => State.setTask_other s f other
  refine ⟨⟨fun _ => rfl, fun _ => rfl, fun _ => rfl, rfl, rfl, rfl, rfl, rfl, rfl⟩, others,
    fun u => ?_, fun u => ?_, fun u => ?_⟩ <;>
  · by_cases here : u = t
    · subst here
      rw [same]
      assumption
    · rw [others u here]

theorem taskListPushBack_moves (s : State) (r : ListRef) (t : TaskId) (kind : ListKind) :
    Moves (· = t) s (taskListPushBack s r t kind) := by
  have rewritten : Moves (· = t) s (s.setTask t fun u => { u with listKind := kind }) :=
    .setTask Iff.rfl rfl rfl
  exact ⟨⟨fun _ => rfl, fun _ => rfl, fun _ => rfl, rfl, rfl, rfl, rfl, rfl, rfl⟩,
    rewritten.untouched, rewritten.unused, rewritten.frame, rewritten.affinity⟩

theorem taskListRemove_moves (s : State) (r : ListRef) (t : TaskId) :
    Moves (· = t) s (taskListRemove s r t) := by
  have rewritten : Moves (· = t) s (s.setTask t fun u => { u with listKind := .none }) :=
    .setTask Iff.rfl rfl rfl
  exact ⟨⟨fun _ => rfl, fun _ => rfl, fun _ => rfl, rfl, rfl, rfl, rfl, rfl, rfl⟩,
    rewritten.untouched, rewritten.unused, rewritten.frame, rewritten.affinity⟩

theorem State.setCpu_same (s : State) (c : Nat) (f : Cpu → Cpu) :
    (s.setCpu c f).cpus c = f (s.cpus c) :=
  Function.update_self ..

theorem State.setCpu_other {c d : Nat} (s : State) (f : Cpu → Cpu) (other : d ≠ c) :
    (s.setCpu c f).cpus d = s.cpus d :=
  Function.update_of_ne other ..

/-- Writing `runnable_count` moves nothing. -/
theorem setRunnableCount_moves (touched : TaskId → Prop) (s : State) (c : Nat) (f : Cpu → Nat) :
    Moves touched s (s.setCpu c fun cpu => { cpu with runnableCount := f cpu }) := by
  have cpus : ∀ d, ((s.setCpu c fun cpu => { cpu with runnableCount := f cpu }).cpus d) =
      if d = c then { s.cpus c with runnableCount := f (s.cpus c) } else s.cpus d :=
    fun d => Function.update_apply ..
  refine ⟨⟨fun d => ?_, fun d => ?_, fun d => ?_, rfl, rfl, rfl, rfl, rfl, rfl⟩,
    fun _ _ => rfl, fun _ => Iff.rfl, fun _ => rfl, fun _ => rfl⟩ <;>
  · rw [cpus d]
    split
    · next same => rw [same]
    · rfl

theorem addRunnable_moves (s : State) (cpu priority : Nat) (t : TaskId) :
    Moves (· = t) s (addRunnable s cpu priority t) :=
  (taskListPushBack_moves s (.runnable cpu priority) t .runnable).trans
    (setRunnableCount_moves _ _ cpu fun c => c.runnableCount + 1)

theorem dropRunnable_moves (s : State) (cpu priority : Nat) (t : TaskId) :
    Moves (· = t) s (dropRunnable s cpu priority t) :=
  (taskListRemove_moves s (.runnable cpu priority) t).trans
    (setRunnableCount_moves _ _ cpu fun c => c.runnableCount - 1)

theorem schedulerNotifyRemoteRunnable_moves (touched : TaskId → Prop) (s : State)
    (executing cpu : Nat) (reason : EnqueueReason) :
    Moves touched s (schedulerNotifyRemoteRunnable s executing cpu reason) := by
  unfold schedulerNotifyRemoteRunnable
  split_ifs
  · exact .refl touched s
  · exact .refl touched s
  · exact ⟨⟨fun _ => rfl, fun _ => rfl, fun _ => rfl, rfl, rfl, rfl, rfl, rfl, rfl⟩,
      fun _ _ => rfl, fun _ => Iff.rfl, fun _ => rfl, fun _ => rfl⟩

theorem Topology.congr {s s' : State} (topology : Topology s) (same : SameTopology s s') :
    Topology s' where
  id c online := by
    rw [same.online] at online
    rw [same.id, topology.id c online]
  online c online := by
    rw [same.online] at online
    rw [same.configuredCpuCount]
    exact topology.online c online
  count := same.configuredCpuCount ▸ topology.count
  boot := by
    rw [same.online, same.bootCpuId]
    exact topology.boot

theorem Allowed.congr {s s' : State} {t : TaskId} {task : Task} (allowed : Allowed s t task)
    (online : ∀ c, (s'.cpus c).online = (s.cpus c).online)
    (current : ∀ c, (s'.cpus c).current = (s.cpus c).current) : Allowed s' t task where
  seated live := by
    obtain ⟨up, affinity, priority⟩ := allowed.seated live
    exact ⟨by rwa [online], affinity, priority⟩
  running state := by rw [current, allowed.running state]
  current c here := by
    rw [current] at here
    exact allowed.current c here

/-- `list_kind` is not part of how a task stands. -/
theorem Allowed.relist {s : State} {t : TaskId} {task : Task} (allowed : Allowed s t task)
    (kind : ListKind) : Allowed s t { task with listKind := kind } :=
  ⟨fun live => ⟨(allowed.seated live).online, (allowed.seated live).affinity,
    (allowed.seated live).priority⟩, allowed.running, allowed.current⟩

theorem Task.home_runnable {task : Task} {cpu priority : Nat}
    (home : task.home = some (.runnable cpu priority)) :
    task.state = .runnable ∧ task.assignedCpu = cpu ∧ task.priority = priority := by
  unfold Task.home at home
  split at home <;> cases home
  exact ⟨‹_›, rfl, rfl⟩

theorem schedulerPrioritySanitize_lt (priority : Nat) :
    schedulerPrioritySanitize priority < schedulerPriorityCount := by
  unfold schedulerPrioritySanitize schedulerPriorityCount schedulerPriorityNormal
  split_ifs <;> omega

theorem schedulerPrioritySanitize_of_lt {priority : Nat}
    (inRange : priority < schedulerPriorityCount) :
    schedulerPrioritySanitize priority = priority :=
  if_neg (Nat.not_le.mpr inRange)

/-! ## Run queues and the list operations -/

namespace RunQueues

variable {s s' : State} {contents contents' : ListRef → List TaskId}
  {held held' : Finset TaskId} {t : TaskId}

section

variable (queues : RunQueues s contents held)
include queues

/-- The topology stays, and every live task sits where it may. -/
theorem change (same : SameTopology s s')
    (placed : Placed s' contents' held')
    (seated : ∀ u, (s'.tasks u).state ≠ .unused → Seated s (s'.tasks u))
    (counted : ∀ c, (s'.cpus c).runnableCount = queued contents' c) :
    RunQueues s' contents' held' := by
  refine ⟨placed, queues.topology.congr same, fun u live => ?_, counted⟩
  obtain ⟨online, affinity, priority⟩ := seated u live
  exact ⟨by rwa [same.online], affinity, priority⟩

theorem seated_of_moves (moves : Moves (· = t) s s')
    (new : (s'.tasks t).state ≠ .unused → Seated s (s'.tasks t)) (u : TaskId)
    (live : (s'.tasks u).state ≠ .unused) : Seated s (s'.tasks u) := by
  by_cases here : u = t
  · subst here
    exact new live
  · rw [moves.untouched u here] at live ⊢
    exact queues.seated u live

/-- The counter of one CPU follows its run queues. -/
theorem recount {cpu priority : Nat} {f : Nat → Nat} {tasks : List TaskId} (same : s'.cpus = s.cpus)
    (count : f (queued contents cpu) =
      queued (Function.update contents (.runnable cpu priority) tasks) cpu) (c : Nat) :
    ((s'.setCpu cpu fun u => { u with runnableCount := f u.runnableCount }).cpus c).runnableCount =
      queued (Function.update contents (.runnable cpu priority) tasks) c := by
  by_cases here : c = cpu
  · subst here
    rw [State.setCpu_same, ← count, ← queues.counted c, same]
  · rw [State.setCpu_other _ _ here, same, queues.counted c, queued_update_other]
    intro p runnable
    injection runnable with sameCpu
    exact here sameCpu.symm

/-- Onto a run queue. -/
theorem add (inHand : t ∈ held) {cpu priority : Nat}
    (home : (s.tasks t).home = some (.runnable cpu priority)) :
    RunQueues (addRunnable s cpu priority t)
      (Function.update contents (.runnable cpu priority)
        (contents (.runnable cpu priority) ++ [t])) (held.erase t) := by
  obtain ⟨state, -, rfl⟩ := Task.home_runnable home
  have seated := queues.seated t (by simp [state])
  have moves := addRunnable_moves s cpu (s.tasks t).priority t
  refine queues.change moves.machine.topology ?_ (queues.seated_of_moves moves fun _ => ?_)
    (queues.recount (f := (· + 1)) rfl ?_)
  · exact (queues.placed.push inHand home).congr rfl rfl fun _ => ⟨rfl, rfl⟩
  · change Seated s ((taskListPushBack s _ t _).tasks t)
    rw [taskListPushBack_same]
    exact ⟨seated.online, seated.affinity, seated.priority⟩
  · have total := queued_update contents cpu seated.priority
      (contents (.runnable cpu (s.tasks t).priority) ++ [t])
    rw [List.length_append, List.length_singleton] at total
    omega

/-- Off a run queue. -/
theorem drop {cpu priority : Nat}
    (member : t ∈ contents (.runnable cpu priority)) :
    RunQueues (dropRunnable s cpu priority t)
      (Function.update contents (.runnable cpu priority)
        ((contents (.runnable cpu priority)).erase t)) (insert t held) := by
  obtain ⟨state, -, rfl⟩ := Task.home_runnable (queues.placed.home member)
  have seated := queues.seated t (by simp [state])
  have moves := dropRunnable_moves s cpu (s.tasks t).priority t
  refine queues.change moves.machine.topology ?_ (queues.seated_of_moves moves fun _ => ?_)
    (queues.recount (f := (· - 1)) rfl ?_)
  · exact (queues.placed.remove member).congr rfl rfl fun _ => ⟨rfl, rfl⟩
  · change Seated s ((taskListRemove s _ t).tasks t)
    rw [taskListRemove_same]
    exact ⟨seated.online, seated.affinity, seated.priority⟩
  · have total := queued_update contents cpu seated.priority
      ((contents (.runnable cpu (s.tasks t).priority)).erase t)
    rw [List.length_erase_of_mem member] at total
    have occupied := List.length_pos_of_mem member
    omega

end

end RunQueues

/-! ## The invariant and the list operations -/

namespace Core

variable {s s' : State} {contents contents' : ListRef → List TaskId}
  {held held' : Finset TaskId} {t : TaskId}

section

variable (core : Core s contents held)
include core

/-- The machine stays, and every task may stand as it now does. -/
theorem change (same : SameTopology s s')
    (current : ∀ c, (s'.cpus c).current = (s.cpus c).current)
    (placed : Placed s' contents' held') (allowed : ∀ u, Allowed s u (s'.tasks u))
    (counted : ∀ c, (s'.cpus c).runnableCount = queued contents' c) :
    Core s' contents' held' :=
  ⟨placed, core.topology.congr same, fun u => (allowed u).congr same.online current, counted⟩

/-- The invariant does not read the clock, the address spaces and the like. -/
theorem transport (tasks : s'.tasks = s.tasks)
    (links : s'.links = s.links) (lists : s'.lists = s.lists) (cpus : s'.cpus = s.cpus)
    (count : s'.configuredCpuCount = s.configuredCpuCount) (boot : s'.bootCpuId = s.bootCpuId) :
    Core s' contents held := by
  refine core.change ⟨fun _ => by rw [cpus], fun _ => by rw [cpus], count, boot⟩
    (fun _ => by rw [cpus]) (core.placed.congr links lists fun t => ?_) (fun t => ?_) fun c => ?_
  · exact ⟨State.whereabouts_congr Iff.rfl (by rw [tasks]), by rw [tasks]⟩
  · rw [tasks]
    exact core.allowed t
  · rw [cpus]
    exact core.counted c

theorem allowed_of_moves (moves : Moves (· = t) s s')
    (new : Allowed s t (s'.tasks t)) (u : TaskId) : Allowed s u (s'.tasks u) := by
  by_cases here : u = t
  · subst here
    exact new
  · rw [moves.untouched u here]
    exact core.allowed u

/-- A running task is on no list, so it can be taken in hand and let go. -/
theorem rehold {held' : Finset TaskId} (running : (s.tasks t).state = .running)
    (others : ∀ u, u ≠ t → (u ∈ held' ↔ u ∈ held)) : Core s contents held' := by
  refine core.change (SameMachine.refl s).topology (fun _ => rfl)
    (core.placed.congr rfl rfl fun u => ⟨?_, rfl⟩) core.allowed core.counted
  by_cases here : u = t
  · subst here
    have nowhere : (s.tasks u).home = none := by rw [Task.home, running]
    rw [State.whereabouts, State.whereabouts, nowhere, ite_self, ite_self]
  · exact State.whereabouts_congr (others u here) rfl

theorem hold (running : (s.tasks t).state = .running) : Core s contents (insert t held) :=
  core.rehold running fun u other => by rw [Finset.mem_insert, or_iff_right other]

theorem letGo (running : (s.tasks t).state = .running) : Core s contents (held.erase t) :=
  core.rehold running fun u other => by rw [Finset.mem_erase, and_iff_right other]

/-- A task in hand can be rewritten, as long as it may stand so. -/
theorem setHeld (inHand : t ∈ held) {f : Task → Task}
    (kind : (f (s.tasks t)).listKind = .none) (allowed : Allowed s t (f (s.tasks t))) :
    Core (s.setTask t f) contents held := by
  refine core.change ⟨fun _ => rfl, fun _ => rfl, rfl, rfl⟩ (fun _ => rfl)
    (core.placed.setHeld inHand kind) (fun u => ?_) core.counted
  by_cases here : u = t
  · subst here
    rwa [State.setTask_same]
  · rw [State.setTask_other s f here]
    exact core.allowed u

/-- A task that stays where it is can be rewritten. -/
theorem setTask {f : Task → Task}
    (home : (f (s.tasks t)).home = (s.tasks t).home)
    (kind : (f (s.tasks t)).listKind = (s.tasks t).listKind)
    (allowed : Allowed s t (f (s.tasks t))) : Core (s.setTask t f) contents held := by
  refine core.change ⟨fun _ => rfl, fun _ => rfl, rfl, rfl⟩ (fun _ => rfl)
    (core.placed.congr rfl rfl fun u => ?_) (fun u => ?_) core.counted
  · by_cases here : u = t
    · subst here
      rw [State.setTask_same]
      exact ⟨State.whereabouts_congr Iff.rfl (by rw [State.setTask_same, home]), kind⟩
    · rw [State.setTask_other s f here]
      exact ⟨State.whereabouts_congr Iff.rfl (by rw [State.setTask_other s f here]), rfl⟩
  · by_cases here : u = t
    · subst here
      rwa [State.setTask_same]
    · rw [State.setTask_other s f here]
      exact core.allowed u

/-- Fields that say nothing about where a task is can be rewritten. -/
theorem setDetails {f : Task → Task}
    (state : (f (s.tasks t)).state = (s.tasks t).state)
    (priority : (f (s.tasks t)).priority = (s.tasks t).priority)
    (assigned : (f (s.tasks t)).assignedCpu = (s.tasks t).assignedCpu)
    (affinity : (f (s.tasks t)).cpuAffinityMask = (s.tasks t).cpuAffinityMask)
    (kind : (f (s.tasks t)).listKind = (s.tasks t).listKind) :
    Core (s.setTask t f) contents held := by
  have before := core.allowed t
  refine core.setTask ?_ kind ⟨fun live => ?_, fun running => ?_, fun c current => ?_⟩
  · unfold Task.home
    rw [state, priority, assigned]
  · obtain ⟨online, mask, inRange⟩ := before.seated (state ▸ live)
    exact ⟨by rwa [assigned], by rwa [assigned, affinity], by rwa [priority]⟩
  · rw [assigned]
    exact before.running (state ▸ running)
  · rw [state, assigned]
    exact before.current c current

/-- Off a list that is no run queue. -/
theorem take {r : ListRef} (member : t ∈ contents r)
    (noQueue : ∀ c p, r ≠ .runnable c p) :
    Core (taskListRemove s r t) (Function.update contents r ((contents r).erase t))
      (insert t held) := by
  have moves := taskListRemove_moves s r t
  refine core.change moves.machine.topology moves.machine.current (core.placed.remove member)
    (core.allowed_of_moves moves ?_) fun c => ?_
  · rw [taskListRemove_same]
    exact (core.allowed t).relist .none
  · rw [queued_update_other (noQueue c)]
    exact core.counted c

/-- Onto a list that is no run queue. -/
theorem put (inHand : t ∈ held) {r : ListRef}
    (home : (s.tasks t).home = some r) (noQueue : ∀ c p, r ≠ .runnable c p) :
    Core (taskListPushBack s r t (kindOn (some r)))
      (Function.update contents r (contents r ++ [t])) (held.erase t) := by
  have moves := taskListPushBack_moves s r t (kindOn (some r))
  refine core.change moves.machine.topology moves.machine.current (core.placed.push inHand home)
    (core.allowed_of_moves moves ?_) fun c => ?_
  · rw [taskListPushBack_same]
    exact (core.allowed t).relist _
  · rw [queued_update_other (noQueue c)]
    exact core.counted c

/-- Onto a run queue. -/
theorem add (inHand : t ∈ held) {cpu priority : Nat}
    (home : (s.tasks t).home = some (.runnable cpu priority)) :
    Core (addRunnable s cpu priority t)
      (Function.update contents (.runnable cpu priority)
        (contents (.runnable cpu priority) ++ [t])) (held.erase t) := by
  have queues := core.runQueues.add inHand home
  have moves := addRunnable_moves s cpu priority t
  refine core.change moves.machine.topology moves.machine.current queues.placed
    (core.allowed_of_moves moves ?_) queues.counted
  change Allowed s t ((taskListPushBack s _ t _).tasks t)
  rw [taskListPushBack_same]
  exact (core.allowed t).relist .runnable

/-- Off a run queue. -/
theorem drop {cpu priority : Nat}
    (member : t ∈ contents (.runnable cpu priority)) :
    Core (dropRunnable s cpu priority t)
      (Function.update contents (.runnable cpu priority)
        ((contents (.runnable cpu priority)).erase t)) (insert t held) := by
  have queues := core.runQueues.drop member
  have moves := dropRunnable_moves s cpu priority t
  refine core.change moves.machine.topology moves.machine.current queues.placed
    (core.allowed_of_moves moves ?_) queues.counted
  change Allowed s t ((taskListRemove s _ t).tasks t)
  rw [taskListRemove_same]
  exact (core.allowed t).relist .none

end

end Core

end Dfos.Scheduler
