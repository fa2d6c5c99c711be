import Dfos.Scheduler.Slots

/-!
# Bringing the scheduler up

`scheduler_init`, `scheduler_configure_topology` and the bootstrap of the task
that runs on a CPU already.
-/

namespace Dfos.Scheduler

open Dfos.Lib

section

variable {s : State} {contents : ListRef → List TaskId} {held : Finset TaskId}

/-! ## The free list -/

theorem Placed.release {t : TaskId} (placed : Placed s contents held) (inHand : t ∈ held) :
    ∃ contents', Placed (schedulerReleaseTaskSlot s t) contents' (held.erase t) := by
  have home : ((taskReset s t).tasks t).home = some .free := by
    rw [taskReset_task]
    rfl
  exact ⟨_, (taskReset_placed placed inHand).push inHand home⟩

theorem releaseSlots_placed : ∀ (slots : List TaskId) {s : State}
    {contents : ListRef → List TaskId} {held : Finset TaskId},
    Placed s contents held → slots.Nodup → (∀ t ∈ slots, t ∈ held) →
    ∃ contents', Placed (slots.foldl schedulerReleaseTaskSlot s) contents'
      (held \ slots.toFinset) := by
  intro slots
  induction slots with
  | nil =>
      intro s contents held placed _ _
      exact ⟨contents, by simpa using placed⟩
  | cons t slots ih =>
      intro s contents held placed distinct inHand
      obtain ⟨fresh, distinct⟩ := List.nodup_cons.mp distinct
      obtain ⟨contents', released⟩ := placed.release (inHand t List.mem_cons_self)
      have rest : held \ (t :: slots).toFinset = held.erase t \ slots.toFinset := by
        ext u
        simp only [Finset.mem_sdiff, List.mem_toFinset, List.mem_cons, Finset.mem_erase]
        tauto
      rw [List.foldl_cons, rest]
      refine ih released distinct fun u member => ?_
      refine Finset.mem_erase.mpr ⟨?_, inHand u (List.mem_cons_of_mem t member)⟩
      rintro rfl
      exact fresh member

theorem releaseSlots_unused : ∀ (slots : List TaskId) {s : State},
    (∀ t, (s.tasks t).state = .unused) →
    (∀ t, ((slots.foldl schedulerReleaseTaskSlot s).tasks t).state = .unused) ∧
      SameMachine s (slots.foldl schedulerReleaseTaskSlot s) ∧
      ∀ c, ((slots.foldl schedulerReleaseTaskSlot s).cpus c).runnableCount =
        (s.cpus c).runnableCount := by
  intro slots
  induction slots with
  | nil => exact fun unused => ⟨unused, .refl _, fun _ => rfl⟩
  | cons t slots ih =>
      intro s unused
      have slot := schedulerReleaseTaskSlot_onlySlot s t
      obtain ⟨unused', same, counts⟩ := ih (s := schedulerReleaseTaskSlot s t) fun u => by
        by_cases here : u = t
        · rw [here, schedulerReleaseTaskSlot_unused]
        · rw [slot.others u here, unused]
      exact ⟨unused', slot.machine.trans same, counts⟩

theorem zero_placed (spaces : Paging.AddressSpaces) (smpAvailable : Bool) :
    Placed (State.zero spaces smpAvailable) (fun _ => []) Finset.univ where
  holds := ⟨fun _ => IsList.empty _, nofun⟩
  member t r := by
    rw [State.whereabouts_held (Finset.mem_univ t)]
    exact iff_of_false List.not_mem_nil nofun
  kind t := by
    rw [State.whereabouts_held (Finset.mem_univ t)]
    rfl

/-! ## Topology -/

/-- The CPU states above `SCHEDULER_MAX_CPUS`, which the source does not have,
are never used. -/
def NoCpusBeyond (s : State) : Prop :=
  ∀ c, schedulerMaxCpus ≤ c →
    (s.cpus c).online = false ∧ (s.cpus c).current = none ∧ (s.cpus c).runnableCount = 0

theorem installCpus_idle {config : TopologyConfig} (beyond : NoCpusBeyond s) (c : Nat) :
    ((installCpus s config).cpus c).current = none := by
  unfold installCpus
  dsimp only
  split
  · rfl
  · next above => exact (beyond c (not_lt.mp above)).2.1

/-- Before the first task, every topology that is accepted gives a state that
keeps the invariant. -/
theorem installCpus_core {config : TopologyConfig} (placed : Placed s contents ∅)
    (unused : ∀ t, (s.tasks t).state = .unused) (beyond : NoCpusBeyond s)
    (accepted : config.accepted) :
    Core (installCpus s config) contents ∅ := by
  simp only [TopologyConfig.accepted, Bool.and_eq_true, decide_eq_true_eq, not_or, not_lt,
    not_le] at accepted
  obtain ⟨⟨⟨⟨⟨⟨-, few⟩, -⟩, bootBelow⟩, -⟩, -⟩, bootOnline⟩ := accepted
  have queuesEmpty : ∀ c p, contents (.runnable c p) = [] := by
    intro c p
    rw [List.eq_nil_iff_forall_not_mem]
    intro t member
    have state := (Task.home_runnable (placed.home member)).1
    rw [unused t] at state
    cases state
  have noneQueued : ∀ c, queued contents c = 0 := by
    intro c
    unfold queued
    simp only [queuesEmpty, List.length_nil, Finset.sum_const_zero]
  have below : ∀ c, ((installCpus s config).cpus c).online →
      c < schedulerMaxCpus ∧ c < config.cpuCount := by
    intro c online
    unfold installCpus at online
    dsimp only at online
    split at online
    · next inRange =>
        dsimp only at online
        split at online
        · next configured => exact ⟨inRange, configured⟩
        · cases online
    · next above =>
        rw [(beyond c (not_lt.mp above)).1] at online
        cases online
  refine ⟨⟨⟨fun r => ?_, placed.holds.apart⟩, placed.member, placed.kind⟩,
    ⟨fun c online => ?_, fun c online => (below c online).2, few, ?_⟩, fun t => ?_, fun c => ?_⟩
  · have list := placed.holds.list r
    cases r with
    | runnable cpu priority =>
        rw [queuesEmpty] at list ⊢
        unfold installCpus
        dsimp only
        split
        · exact IsList.empty _
        · exact list
    | free => exact list
    | sleeping => exact list
    | blocked => exact list
    | zombie => exact list
  · unfold installCpus
    dsimp only
    rw [if_pos (below c online).1]
  · unfold installCpus
    dsimp only
    rw [if_pos (lt_of_lt_of_le bootBelow few)]
    dsimp only
    rw [if_pos bootBelow]
    exact bootOnline
  · refine ⟨fun live => absurd (unused t) live, fun running => ?_, fun c current => ?_⟩
    · have state := (unused t).symm.trans running
      cases state
    · rw [installCpus_idle beyond c] at current
      cases current
  · rw [noneQueued]
    unfold installCpus
    dsimp only
    split
    · rfl
    · next above => exact (beyond c (not_lt.mp above)).2.2

/-- The invariant between complete operations. -/
def Consistent (s : State) : Prop :=
  (∃ contents, Core s contents ∅) ∧
    ∀ c t, (s.cpus c).current = some t → (s.tasks t).state = .running

theorem Core.noCpusBeyond (core : Core s contents held)
    (unused : ∀ t, (s.tasks t).state = .unused) : NoCpusBeyond s := by
  intro c above
  have offline : (s.cpus c).online = false := by
    cases online : (s.cpus c).online with
    | false => rfl
    | true =>
        have inRange := core.topology.online c online
        have few := core.topology.count
        omega
  refine ⟨offline, ?_, ?_⟩
  · cases current : (s.cpus c).current with
    | none => rfl
    | some t => exact absurd (unused t) ((core.allowed t).current c current).1
  · rw [core.counted c]
    unfold queued
    refine Finset.sum_eq_zero fun p _ => List.length_eq_zero_iff.mpr ?_
    rw [List.eq_nil_iff_forall_not_mem]
    intro t member
    have state := (Task.home_runnable (core.placed.home member)).1
    rw [unused t] at state
    cases state

/-- A topology is only installed while every slot is free. -/
theorem schedulerConfigureTopology_cases (s : State) (config : TopologyConfig) (pmm : Bool) :
    schedulerConfigureTopology s config pmm = (s, false) ∨
      (∀ t, (s.tasks t).state = .unused) ∧ config.accepted ∧
        schedulerConfigureTopology s config pmm = (installCpus s config, pmm) := by
  unfold schedulerConfigureTopology
  split
  · exact Or.inl rfl
  · next fresh =>
      split
      · exact Or.inl rfl
      · next accepted =>
          right
          rw [not_or, Bool.not_eq_true, Bool.not_eq_true] at fresh
          refine ⟨fun t => ?_, not_not.mp accepted, rfl⟩
          have dead := fresh.2
          unfold schedulerHasLiveTasks at dead
          rw [List.any_eq_false] at dead
          simpa using dead t (List.mem_finRange t)

/-! ## Starting up -/

/-- After `scheduler_init` every slot is free. -/
theorem schedulerInit_consistent (spaces : Paging.AddressSpaces) (smpAvailable pmm : Bool) :
    (∃ s, schedulerInit spaces smpAvailable pmm = .ok s ∧ Consistent s ∧
        ∀ t, (s.tasks t).state = .unused) ∨
      schedulerInit spaces smpAvailable pmm = .error (.panic .failedDefaultTopology) := by
  obtain ⟨contents, placed⟩ := releaseSlots_placed (List.finRange 32)
    (zero_placed spaces smpAvailable) (List.nodup_finRange 32) fun t _ => Finset.mem_univ t
  obtain ⟨unused, same, counts⟩ := releaseSlots_unused (List.finRange 32)
    (s := State.zero spaces smpAvailable) fun _ => rfl
  have all : Finset.univ \ (List.finRange 32).toFinset = (∅ : Finset TaskId) := by
    ext t
    simp
  rw [all] at placed
  have beyond : NoCpusBeyond (initTasks (State.zero spaces smpAvailable)) :=
    fun c _ => ⟨same.online c, same.current c, counts c⟩
  have accepted : schedulerTopologyDefault.accepted := by decide
  unfold schedulerInit
  dsimp only
  change Placed (initTasks _) contents ∅ at placed
  change ∀ t, ((initTasks _).tasks t).state = .unused at unused
  generalize initTasks (State.zero spaces smpAvailable) = m at placed unused beyond ⊢
  rcases schedulerConfigureTopology_cases m schedulerTopologyDefault pmm with
    refused | ⟨-, -, installed⟩
  · right
    rw [refused]
  · rw [installed]
    cases pmm with
    | false => exact Or.inr rfl
    | true =>
        refine Or.inl ⟨_, rfl, ⟨⟨contents, installCpus_core placed unused beyond accepted⟩,
          fun c t current => ?_⟩, unused⟩
        rw [installCpus_idle beyond c] at current
        cases current

theorem schedulerConfigureTopology_tasks (s : State) (config : TopologyConfig) (pmm : Bool) :
    (schedulerConfigureTopology s config pmm).1.tasks = s.tasks := by
  rcases schedulerConfigureTopology_cases s config pmm with refused | ⟨-, -, installed⟩
  · rw [refused]
  · rw [installed]
    rfl

theorem schedulerConfigureTopology_consistent (consistent : Consistent s)
    (config : TopologyConfig) (pmm : Bool) :
    Consistent (schedulerConfigureTopology s config pmm).1 := by
  rcases schedulerConfigureTopology_cases s config pmm with refused | ⟨unused, accepted, installed⟩
  · rw [refused]
    exact consistent
  · rw [installed]
    obtain ⟨contents, core⟩ := consistent.1
    have beyond := core.noCpusBeyond unused
    refine ⟨⟨contents, installCpus_core core.placed unused beyond accepted⟩, fun c t current => ?_⟩
    rw [installCpus_idle beyond c] at current
    cases current

/-! ## The task that runs already -/

/-- What the bootstrap of `cpu` changes. -/
structure Booted (s s' : State) (cpu : Nat) (t : TaskId) : Prop where
  topology : SameTopology s s'
  current : ∀ c, (s'.cpus c).current = if c = cpu then some t else (s.cpus c).current
  free : (s.cpus cpu).current = none
  fresh : (s.tasks t).state = .unused
  running : (s'.tasks t).state = .running
  others : ∀ u, u ≠ t → s'.tasks u = s.tasks u

/-- The bootstrap task as it would stand on a run queue. -/
def queuedBootstrap (s : State) (cpu kernelStackTop : Nat) (name : Option String) (t : Task) :
    Task :=
  { bootstrapTask s cpu kernelStackTop name t with state := .runnable }

/-- A bootstrapped task is one that was filled in and then made current. -/
theorem bootstrap_makeCurrent (s : State) (cpu kernelStackTop : Nat) (name : Option String)
    (t : TaskId) :
    (s.fillSlot t (bootstrapTask s cpu kernelStackTop name)).setCpu cpu
        (fun c => { c with current := some t }) =
      makeCurrent (s.fillSlot t (queuedBootstrap s cpu kernelStackTop name)) cpu t := by
  simp [makeCurrent, State.fillSlot, State.setTask, State.setCpu, bootstrapTask, queuedBootstrap]

theorem queuedBootstrap_seated (topology : Topology s) {cpu : Nat} (online : (s.cpus cpu).online)
    (kernelStackTop : Nat) (name : Option String) (t : Task) :
    Seated s (queuedBootstrap s cpu kernelStackTop name t) where
  online := by
    change (s.cpus (s.cpus cpu).id).online
    rwa [topology.id cpu online]
  affinity := by
    change (schedulerOnlineCpuMask s).testBit (s.cpus cpu).id
    rw [topology.id cpu online, testBit_onlineCpuMask topology, online]
  priority := (by decide : schedulerPriorityNormal < schedulerPriorityCount)

/-- A slot in hand becomes the current task of a CPU that has none. -/
theorem bootstrapSlot_core {cpu : Nat} {t : TaskId} (core : Core s contents held)
    (inHand : t ∈ held) (unused : (s.tasks t).state = .unused) (online : (s.cpus cpu).online)
    (free : (s.cpus cpu).current = none) (kernelStackTop : Nat) (name : Option String) :
    Core (makeCurrent (s.fillSlot t (queuedBootstrap s cpu kernelStackTop name)) cpu t) contents
      (held.erase t) := by
  have filled := fillSlot_core core inHand (f := queuedBootstrap s cpu kernelStackTop name)
    (core.placed.held_kind inHand)
    ⟨fun _ => queuedBootstrap_seated core.topology online .., nofun,
      fun c current => absurd current (core.unused_idle unused c)⟩
  have task := fillSlot_task s t (queuedBootstrap s cpu kernelStackTop name)
  refine makeCurrent_core filled inHand ?_ ?_ fun u here => ?_
  · rw [task]
    nofun
  · rw [task]
    exact core.topology.id cpu online
  · rw [(fillSlot_onlySlot s t _).machine.current, free] at here
    cases here

theorem schedulerBootstrapCpuTask_core (core : Core s contents held) (cpu kernelStackTop : Nat)
    (name : Option String) :
    schedulerBootstrapCpuTask s cpu kernelStackTop name = (s, none) ∨
      ∃ s' t, schedulerBootstrapCpuTask s cpu kernelStackTop name = (s', some t) ∧
        Core s' (Function.update contents .free ((contents .free).erase t)) held ∧
        Booted s s' cpu t ∧ t ∉ held := by
  unfold schedulerBootstrapCpuTask
  split
  · exact Or.inl rfl
  · next configured =>
      rw [not_or, not_or, not_not] at configured
      obtain ⟨-, -, online⟩ := configured
      split
      · exact Or.inl rfl
      · next free =>
          rw [not_not] at free
          rcases schedulerAllocateTaskSlot_core core with
            ⟨m, t, taken, coreM, off, slot, unused, reset⟩ | empty
          · right
            rw [taken]
            dsimp only
            rw [bootstrap_makeCurrent]
            have booted := bootstrapSlot_core coreM (Finset.mem_insert_self ..)
              (by rw [reset]; rfl) (by rwa [slot.machine.online])
              (by rwa [slot.machine.current]) kernelStackTop name
            rw [Finset.erase_insert off] at booted
            have filled := slot.trans
              (fillSlot_onlySlot m t (queuedBootstrap m cpu kernelStackTop name))
            refine ⟨_, t, rfl, booted, ⟨?_, fun c => ?_, free, unused, ?_,
              fun u other => ?_⟩, off⟩
            · exact filled.machine.topology.trans (makeCurrent_topology ..)
            · rw [makeCurrent_current, filled.machine.current]
            · rw [makeCurrent_same]
            · rw [makeCurrent_other _ cpu other, filled.others u other]
          · left
            rw [empty]

/-- The bootstrap of the boot CPU panics or attaches a task there. -/
theorem schedulerBootstrapCurrent_core (core : Core s contents held) (stackTop : Nat)
    (name : Option String) :
    (∃ reason, schedulerBootstrapCurrent s stackTop name = .error (.panic reason)) ∨
      ∃ s' t, schedulerBootstrapCurrent s stackTop name = .ok s' ∧
        Core s' (Function.update contents .free ((contents .free).erase t)) held ∧
        Booted s s' s.bootCpuId t ∧ t ∉ held := by
  unfold schedulerBootstrapCurrent
  split
  · exact Or.inl ⟨_, rfl⟩
  split
  · exact Or.inl ⟨_, rfl⟩
  rcases schedulerBootstrapCpuTask_core core s.bootCpuId stackTop
      (some (name.getD "bootstrap")) with
    refused | ⟨m, t, started, coreM, booted, off⟩
  · rw [refused]
    exact Or.inl ⟨_, rfl⟩
  · right
    rw [started]
    have moved := coreM.setDetails (t := t)
      (f := fun u => { u with space := m.spaces.currentSpace }) rfl rfl rfl rfl rfl
    have task := State.setTask_same m t fun u => { u with space := m.spaces.currentSpace }
    have others : ∀ {u}, u ≠ t → (m.setTask t fun u =>
        { u with space := m.spaces.currentSpace }).tasks u = m.tasks u :=
      State.setTask_other m _
    refine ⟨_, t, rfl, moved.transport rfl rfl rfl rfl rfl rfl, ?_, off⟩
    refine ⟨booted.topology.trans ⟨fun _ => rfl, fun _ => rfl, rfl, rfl⟩, booted.current,
      booted.free, booted.fresh, ?_, fun u other => (others other).trans (booted.others u other)⟩
    exact (congrArg Task.state task).trans booted.running

theorem schedulerBootstrapSecondaryCurrent_core (core : Core s contents held)
    (cpuId kernelStackTop : Nat) (name : Option String) :
    schedulerBootstrapSecondaryCurrent s cpuId kernelStackTop name = (s, false) ∨
      ∃ s' t, schedulerBootstrapSecondaryCurrent s cpuId kernelStackTop name = (s', true) ∧
        Core s' (Function.update contents .free ((contents .free).erase t)) held ∧
        Booted s s' cpuId t ∧ t ∉ held := by
  unfold schedulerBootstrapSecondaryCurrent
  split
  · exact Or.inl rfl
  split
  · exact Or.inl rfl
  split
  · exact Or.inl rfl
  rcases schedulerBootstrapCpuTask_core core cpuId kernelStackTop name with
    refused | ⟨s', t, started, rest⟩
  · rw [refused]
    exact Or.inl rfl
  · rw [started]
    exact Or.inr ⟨s', t, rfl, rest⟩

end

end Dfos.Scheduler
