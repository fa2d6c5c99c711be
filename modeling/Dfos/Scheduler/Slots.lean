import Dfos.Scheduler.Dispatch
import Dfos.Scheduler.Select

/-!
# Task slots

Taking a slot from `free_list`, filling it in, and giving it back.
-/

namespace Dfos.Scheduler

open Dfos.Lib

/-- Only one slot is written, and the machine stays. -/
structure OnlySlot (t : TaskId) (s s' : State) : Prop where
  machine : SameMachine s s'
  others : ∀ u, u ≠ t → s'.tasks u = s.tasks u

theorem OnlySlot.trans {t : TaskId} {s m s' : State} (first : OnlySlot t s m)
    (second : OnlySlot t m s') : OnlySlot t s s' :=
  ⟨first.machine.trans second.machine,
    fun u other => (second.others u other).trans (first.others u other)⟩

theorem Moves.onlySlot {t : TaskId} {s s' : State} (moves : Moves (· = t) s s') :
    OnlySlot t s s' :=
  ⟨moves.machine, moves.untouched⟩

section

variable {s : State} {contents : ListRef → List TaskId} {held : Finset TaskId} {t : TaskId}

theorem Core.unused_idle (core : Core s contents held) (unused : (s.tasks t).state = .unused)
    (c : Nat) : (s.cpus c).current ≠ some t :=
  fun here => ((core.allowed t).current c here).1 unused

/-! ## Resetting a slot -/

theorem taskReset_task (s : State) (t : TaskId) :
    (taskReset s t).tasks t = Task.reset s.bootCpuId := by
  simp [taskReset, State.setTask]

theorem taskReset_onlySlot (s : State) (t : TaskId) : OnlySlot t s (taskReset s t) :=
  ⟨⟨fun _ => rfl, fun _ => rfl, fun _ => rfl, rfl, rfl, rfl, rfl, rfl, rfl⟩,
    fun u other => by simp [taskReset, State.setTask, other]⟩

/-- The links of a task in hand are on no list. -/
theorem taskReset_placed (placed : Placed s contents held) (inHand : t ∈ held) :
    Placed (taskReset s t) contents held := by
  have rewritten := placed.setHeld inHand (f := fun _ => Task.reset s.bootCpuId) rfl
  refine ⟨⟨fun r => (placed.holds.list r).congr fun u member => ?_, placed.holds.apart⟩,
    rewritten.member, rewritten.kind⟩
  have other : u ≠ t := by
    rintro rfl
    exact placed.held_off inHand r member
  exact ⟨if_neg other, if_neg other⟩

theorem taskReset_core (core : Core s contents held) (inHand : t ∈ held)
    (idle : ∀ c, (s.cpus c).current ≠ some t) : Core (taskReset s t) contents held := by
  have slot := taskReset_onlySlot s t
  refine core.change slot.machine.topology slot.machine.current
    (taskReset_placed core.placed inHand) (fun u => ?_) core.counted
  by_cases here : u = t
  · subst here
    rw [taskReset_task]
    exact ⟨fun live => absurd rfl live, nofun, fun c current => absurd current (idle c)⟩
  · rw [slot.others u here]
    exact core.allowed u

/-- A slot goes back to the free list. -/
theorem schedulerReleaseTaskSlot_core (core : Core s contents held) (inHand : t ∈ held)
    (idle : ∀ c, (s.cpus c).current ≠ some t) :
    Core (schedulerReleaseTaskSlot s t) (Function.update contents .free (contents .free ++ [t]))
      (held.erase t) := by
  have home : ((taskReset s t).tasks t).home = some .free := by
    rw [taskReset_task]
    rfl
  exact (taskReset_core core inHand idle).put inHand home nofun

theorem schedulerReleaseTaskSlot_onlySlot (s : State) (t : TaskId) :
    OnlySlot t s (schedulerReleaseTaskSlot s t) :=
  (taskReset_onlySlot s t).trans (taskListPushBack_moves ..).onlySlot

theorem schedulerReleaseTaskSlot_unused (s : State) (t : TaskId) :
    ((schedulerReleaseTaskSlot s t).tasks t).state = .unused := by
  unfold schedulerReleaseTaskSlot
  rw [taskListPushBack_same, taskReset_task]
  rfl

/-- A slot comes off the free list, or there is none. -/
theorem schedulerAllocateTaskSlot_core (core : Core s contents held) :
    (∃ s' t, schedulerAllocateTaskSlot s = (s', some t) ∧
        Core s' (Function.update contents .free ((contents .free).erase t)) (insert t held) ∧
        t ∉ held ∧ OnlySlot t s s' ∧
        (s.tasks t).state = .unused ∧ s'.tasks t = Task.reset s.bootCpuId) ∨
      schedulerAllocateTaskSlot s = (s, none) := by
  unfold schedulerAllocateTaskSlot taskListPopFront
  have head := (core.placed.holds.list .free).head
  cases first : (s.lists .free).head with
  | none => exact Or.inr rfl
  | some t =>
      left
      rw [first] at head
      have member : t ∈ contents .free := List.mem_of_mem_head? head.symm
      have unused : (s.tasks t).state = .unused := by
        have home := core.placed.home member
        unfold Task.home at home
        split at home <;> first | assumption | cases home
      have moves := taskListRemove_moves s .free t
      have taken := core.take member nofun
      have idle : ∀ c, ((taskListRemove s .free t).cpus c).current ≠ some t := core.unused_idle unused
      exact ⟨_, t, rfl, taskReset_core taken (Finset.mem_insert_self ..) idle,
        core.placed.notHeld member, moves.onlySlot.trans (taskReset_onlySlot ..), unused,
        taskReset_task ..⟩

/-! ## Filling a slot -/

theorem fillSlot_task (s : State) (t : TaskId) (f : Task → Task) :
    (s.fillSlot t f).tasks t = f (s.tasks t) :=
  State.setTask_same s t f

theorem fillSlot_onlySlot (s : State) (t : TaskId) (f : Task → Task) :
    OnlySlot t s (s.fillSlot t f) :=
  ⟨⟨fun _ => rfl, fun _ => rfl, fun _ => rfl, rfl, rfl, rfl, rfl, rfl, rfl⟩,
    fun _ other => State.setTask_other s f other⟩

theorem fillSlot_core (core : Core s contents held) (inHand : t ∈ held) {f : Task → Task}
    (kind : (f (s.tasks t)).listKind = .none) (allowed : Allowed s t (f (s.tasks t))) :
    Core (s.fillSlot t f) contents held :=
  (core.setHeld inHand kind allowed).transport rfl rfl rfl rfl rfl rfl

/-! ## Creating a task -/

/-- The checked configuration of a task. -/
structure Effective (s : State) (config : TaskConfig) : Prop where
  fitting : Fitting s config.cpuAffinityMask
  priority : config.priority < schedulerPriorityCount

theorem Effective.congr {s' : State} {config : TaskConfig} (effective : Effective s config)
    (same : SameTopology s s') : Effective s' config :=
  ⟨⟨effective.fitting.some, fun i bit => by rw [same.online]; exact effective.fitting.online i bit⟩,
    effective.priority⟩

/-- A slot is reserved for the task, with its configuration checked. -/
theorem createReserve_core (core : Core s contents held) (executing : Nat) (config : TaskConfig) :
    createReserve s executing config = (s, none) ∨
      ∃ s' t effective node,
        createReserve s executing config = (s', some (t, effective, node)) ∧
        Core s' (Function.update contents .free ((contents .free).erase t)) (insert t held) ∧ t ∉ held ∧ OnlySlot t s s' ∧
        (s.tasks t).state = .unused ∧ (s'.tasks t).state = .unused ∧ Effective s' effective := by
  have configured := core.topology.online _ core.topology.boot
  have effective : Effective s (effectiveConfig s config) :=
    ⟨fitting_normalizeAffinityMask core.topology _, schedulerPrioritySanitize_lt _⟩
  unfold createReserve
  rw [if_neg (by omega)]
  dsimp only
  rcases schedulerAllocateTaskSlot_core core with
    ⟨s', t, taken, core', off, slot, unused, reset⟩ | empty
  · right
    rw [taken]
    exact ⟨s', t, _, _, rfl, core', off, slot, unused, by rw [reset]; rfl,
      effective.congr slot.machine.topology⟩
  · left
    rw [empty]

theorem createEnqueue_core {effective : TaskConfig} (core : Core s contents held)
    (inHand : t ∈ held) (unused : (s.tasks t).state = .unused)
    (checked : Effective s effective) (executing : Nat)
    (request : TaskRequest) (space stack : Nat) :
    (∃ q, Core (createEnqueue s executing request effective t space stack).1
      (Function.update contents q (contents q ++ [t])) (held.erase t)) ∧
    OnlySlot t s (createEnqueue s executing request effective t space stack).1 ∧
    ((createEnqueue s executing request effective t space stack).1.tasks t).state = .runnable ∧
    ((createEnqueue s executing request effective t space stack).1.tasks t).frame =
      some (stack + taskStackSize - interruptFrameSize) := by
  have configured := core.topology.online _ core.topology.boot
  have bit := schedulerSelectTargetCpu_testBit core.topology checked.fitting executing
    effective.preferredNumaNode
  have idle := core.unused_idle unused
  unfold createEnqueue
  rw [if_neg (by omega)]
  dsimp only
  generalize schedulerSelectTargetCpu s executing effective.cpuAffinityMask
    effective.preferredNumaNode = cpu at bit ⊢
  have online := checked.fitting.online cpu bit
  rw [core.topology.cpuById online]
  have id := core.topology.id cpu online
  have kind := core.placed.held_kind inHand
  have filled := fillSlot_core core inHand
    (f := createdTask s request effective cpu space stack) kind
    ⟨fun _ => ⟨by rwa [createdTask, id], by rwa [createdTask, id], checked.priority⟩, nofun,
      fun c current => absurd current (idle c)⟩
  have created := fillSlot_task s t (createdTask s request effective cpu space stack)
  have slot := fillSlot_onlySlot s t (createdTask s request effective cpu space stack)
  generalize s.fillSlot t (createdTask s request effective cpu space stack) = m
    at filled created slot ⊢
  have live : (m.tasks t).state ≠ .unused := by
    rw [created]
    nofun
  have onlineM : (m.cpus cpu).online := by rwa [slot.machine.online]
  have bitM : (m.tasks t).cpuAffinityMask.testBit cpu := by
    rw [created]
    exact bit
  have queued := schedulerCpuEnqueueRunnable_core filled inHand onlineM bitM
    (fun c current => absurd (slot.machine.current c ▸ current) (idle c)) executing .reschedule
  have moves := schedulerCpuEnqueueRunnable_moves executing cpu .reschedule live
  refine ⟨⟨_, queued⟩, slot.trans moves.onlySlot,
    schedulerCpuEnqueueRunnable_state .., ?_⟩
  rw [moves.frame, created]
  rfl

/-! ## Reaping a zombie -/

/-- What a reaped slot leaves behind. -/
structure Reaped (s s' : State) (t : TaskId) : Prop where
  slot : OnlySlot t s s'
  zombie : (s.tasks t).state = .zombie
  idle : ∀ c, (s.cpus c).current ≠ some t
  unused : (s'.tasks t).state = .unused

section

variable (core : Core s contents held)
include core

theorem Core.idle_of_not_current
    (nowhere : schedulerTaskIsCurrentOnAnyCpuLocked s t = false) (c : Nat) :
    (s.cpus c).current ≠ some t := by
  intro here
  obtain ⟨live, assigned⟩ := (core.allowed t).current c here
  have online := ((core.allowed t).seated live).online
  rw [assigned] at online
  unfold schedulerTaskIsCurrentOnAnyCpuLocked at nowhere
  rw [List.any_eq_false] at nowhere
  exact nowhere c (List.mem_range.mpr (core.topology.online c online)) (by simp [online, here])

/-- A zombie that is current nowhere gives its slot back. -/
theorem schedulerDetachZombieTaskLocked_core (t : TaskId) :
    schedulerDetachZombieTaskLocked s t = none ∨
      ∃ s' resources, schedulerDetachZombieTaskLocked s t = some (s', resources) ∧
        Core s' (relist contents .zombie .free t) held ∧ Reaped s s' t := by
  unfold schedulerDetachZombieTaskLocked
  split
  · exact Or.inl rfl
  · next dead =>
      rw [not_or, not_not, not_not] at dead
      split
      · exact Or.inl rfl
      · next current =>
          right
          have idle := core.idle_of_not_current (Bool.not_eq_true _ ▸ current)
          have off : t ∉ held := by
            intro inHand
            have kind := core.placed.held_kind inHand
            rw [dead.2] at kind
            cases kind
          have member : t ∈ contents .zombie :=
            core.placed.mem_of_home off (by rw [Task.home, dead.1])
          have moves := taskListRemove_moves s .zombie t
          have released := schedulerReleaseTaskSlot_core (core.take member (by simp))
            (Finset.mem_insert_self ..) idle
          rw [Finset.erase_insert off, Function.update_of_ne (by decide)] at released
          exact ⟨_, _, rfl, released,
            moves.onlySlot.trans (schedulerReleaseTaskSlot_onlySlot ..), dead.1, idle,
            schedulerReleaseTaskSlot_unused ..⟩

theorem joinLocked_core (taskId : Nat) :
    (joinLocked s taskId).1 = s ∨
      ∃ t, Core (joinLocked s taskId).1 (relist contents .zombie .free t) held ∧
        Reaped s (joinLocked s taskId).1 t := by
  unfold joinLocked
  cases schedulerFindTaskById s taskId with
  | none => exact Or.inl rfl
  | some t =>
      rcases schedulerDetachZombieTaskLocked_core core t with kept | ⟨s', _, gone, rest⟩
      · left
        dsimp only
        rw [kept]
      · right
        dsimp only
        rw [gone]
        exact ⟨t, rest⟩

/-- The sweep over the zombies ends, at the first of them that can be detached. -/
theorem reapLocked_detached :
    ∃ r, reapLocked s = some r ∧ (r = (s, none) ∨
      ∃ t s' resources, r = (s', some resources) ∧
        schedulerDetachZombieTaskLocked s t = some (s', resources)) := by
  have list := core.placed.holds.list .zombie
  unfold reapLocked
  rw [list.head]
  refine walk_rule
    (I := fun rest (r : State × Option ReapResources) => r = (s, none) ∧ rest <:+ contents .zombie)
    ?_ ?_ ?_ ?_ ⟨rfl, List.suffix_rfl⟩ (core.placed.length_le _)
  · rintro t rest _ ⟨rfl, ahead⟩
    exact list.next_of_suffix ahead
  · rintro t rest _ ⟨rfl, ahead⟩ more
    refine ⟨?_, (List.suffix_cons t rest).trans ahead⟩
    unfold reapTask at more ⊢
    dsimp only at more ⊢
    cases detached : schedulerDetachZombieTaskLocked s t with
    | none => rfl
    | some _ =>
        rw [detached] at more
        cases more
  · rintro t rest _ ⟨rfl, -⟩ -
    unfold reapTask
    dsimp only
    cases detached : schedulerDetachZombieTaskLocked s t with
    | none => exact Or.inl rfl
    | some gone => exact Or.inr ⟨t, gone.1, gone.2, rfl, detached⟩
  · rintro _ ⟨rfl, -⟩
    exact Or.inl rfl

/-- At most one zombie is reaped. -/
theorem reapLocked_core :
    ∃ r, reapLocked s = some r ∧
      (r.1 = s ∨ ∃ t, Core r.1 (relist contents .zombie .free t) held ∧ Reaped s r.1 t) := by
  obtain ⟨r, swept, rfl | ⟨t, s', resources, rfl, detached⟩⟩ := reapLocked_detached core
  · exact ⟨_, swept, Or.inl rfl⟩
  · rcases schedulerDetachZombieTaskLocked_core core t with kept | ⟨_, _, gone, rest⟩
    · cases kept.symm.trans detached
    · cases gone.symm.trans detached
      exact ⟨_, swept, Or.inr ⟨t, rest⟩⟩

end

end

end Dfos.Scheduler
