import Dfos.Pmm.Frames
import Dfos.Scheduler.State
import Mathlib.Data.List.Dedup

/-!
# Logical CPUs

`cpu_build_topology_from_apic_ids` and `cpu_smp_prepare_topology` of
`kernel/arch/i386/cpu.c`: which logical CPU stands for which local APIC.
-/

namespace Dfos.Cpu

open Dfos.Scheduler

/-- `CPU_ID_INVALID`. -/
def cpuIdInvalid : Nat := 0xFF

/-- `smp_cpu_state_t`, without the stack that a start of the CPU fills in. -/
structure SmpCpu where
  apicId : UInt8
  present : Bool
  started : Bool
  deriving DecidableEq, Repr

/-- `smp_cpus`, `apic_to_cpu`, `smp_cpu_count` and `smp_boot_cpu`. -/
structure SmpTopology where
  smpCpus : Nat → SmpCpu
  apicToCpu : UInt8 → Nat
  smpCpuCount : Nat
  smpBootCpu : Nat

/-- `cpu_reset_topology`. -/
def cpuResetTopology : SmpTopology where
  smpCpus _ := ⟨0, false, false⟩
  apicToCpu _ := cpuIdInvalid
  smpCpuCount := 1
  smpBootCpu := 0

/-- The assignments that make `apicId` the CPU `logical`. -/
def SmpTopology.place (t : SmpTopology) (logical : Nat) (apicId : UInt8) (started : Bool) :
    SmpTopology :=
  { t with
    smpCpus := Function.update t.smpCpus logical ⟨apicId, true, started⟩
    apicToCpu := Function.update t.apicToCpu apicId (logical % 256) }

/-- `cpu_set_single_cpu_fallback`; `bootstrapId` is what CPUID says. -/
def cpuSetSingleCpuFallback (bootstrapId : UInt8) : SmpTopology :=
  cpuResetTopology.place 0 bootstrapId true

/-- The loop that looks for the bootstrap processor in the list. -/
def bootLoop (bspApicId : UInt8) (t : SmpTopology) (logicalCount : Nat) :
    List UInt8 → SmpTopology × Nat
  | [] => (t, logicalCount)
  | apicId :: apicIds =>
      if logicalCount < schedulerMaxCpus then
        if apicId ≠ bspApicId then bootLoop bspApicId t logicalCount apicIds
        else
          ({ t.place logicalCount apicId true with smpBootCpu := logicalCount % 256 },
            logicalCount + 1)
      else (t, logicalCount)

/-- The loop that adds the other processors. -/
def otherLoop (bspApicId : UInt8) (t : SmpTopology) (logicalCount : Nat) :
    List UInt8 → SmpTopology × Nat
  | [] => (t, logicalCount)
  | apicId :: apicIds =>
      if logicalCount < schedulerMaxCpus then
        if apicId = bspApicId then otherLoop bspApicId t logicalCount apicIds
        else if t.apicToCpu apicId ≠ cpuIdInvalid then otherLoop bspApicId t logicalCount apicIds
        else otherLoop bspApicId (t.place logicalCount apicId false) (logicalCount + 1) apicIds
      else (t, logicalCount)

/-- The part of `cpu_build_topology_from_apic_ids` before the other processors,
with `logical_count`. -/
def placeBootCpu (apicIds : List UInt8) (bspApicId : UInt8) : SmpTopology × Nat :=
  let bspPresent := apicIds.any (· = bspApicId)
  let (t, logicalCount) :=
    if !bspPresent ∧ apicIds.length < schedulerMaxCpus then
      (cpuResetTopology.place 0 bspApicId true, 1)
    else (cpuResetTopology, 0)
  let (t, logicalCount) := bootLoop bspApicId t logicalCount apicIds
  if logicalCount = 0 then (t.place 0 bspApicId true, 1) else (t, logicalCount)

/-- `cpu_build_topology_from_apic_ids`. -/
def cpuBuildTopologyFromApicIds (apicIds : List UInt8) (bspApicId : UInt8) : SmpTopology :=
  let (t, logicalCount) := placeBootCpu apicIds bspApicId
  let (t, logicalCount) := otherLoop bspApicId t logicalCount apicIds
  { t with smpCpuCount := logicalCount % 256 }

/-- The configuration that `cpu_smp_prepare_topology` fills in. -/
def SmpTopology.config (t : SmpTopology) : TopologyConfig where
  cpuCount := t.smpCpuCount
  bootCpuId := t.smpBootCpu
  nodeCount := 1
  cpuToNode _ := 0
  cpuOnline i := i < t.smpCpuCount && (t.smpCpus i).present

/-- `cpu_smp_prepare_topology`: whether CPUID reports a local APIC, what
`mp_collect_cpu_ids` gives, and whether the local APIC can be enabled. -/
def cpuSmpPrepareTopology (bootstrapId : UInt8) (hasLocalApic : Bool)
    (collected : Option (List UInt8 × UInt8)) (lapicEnabled : Bool) :
    SmpTopology × TopologyConfig :=
  let t := cpuSetSingleCpuFallback bootstrapId
  let t :=
    if hasLocalApic then
      match collected with
      | some (apicIds, bspApicId) => cpuBuildTopologyFromApicIds apicIds bspApicId
      | none => t
    else t
  let t := if lapicEnabled then t else cpuSetSingleCpuFallback bootstrapId
  (t, t.config)

/-! ## The CPUs in order -/

/-- The logical CPUs are the ids of `order`, the first of which is the boot CPU. -/
structure SmpTopology.Lists (t : SmpTopology) (order : List UInt8) : Prop where
  few : order.length ≤ schedulerMaxCpus
  nonempty : 0 < order.length
  distinct : order.Nodup
  cpu : ∀ i id, order[i]? = some id → t.smpCpus i = ⟨id, true, i = 0⟩ ∧ t.apicToCpu id = i
  absent : ∀ i, order.length ≤ i → t.smpCpus i = ⟨0, false, false⟩
  invalid : ∀ id ∉ order, t.apicToCpu id = cpuIdInvalid
  boot : t.smpBootCpu = 0

section Order

variable {t : SmpTopology} {order apicIds : List UInt8} {bspApicId : UInt8}

theorem SmpTopology.Lists.boot_placed (bspApicId : UInt8) :
    (cpuResetTopology.place 0 bspApicId true).Lists [bspApicId] where
  few := by change 1 ≤ schedulerMaxCpus; decide
  nonempty := Nat.zero_lt_one
  distinct := List.nodup_singleton _
  cpu i id found := by
    obtain ⟨inside, rfl⟩ := List.getElem?_eq_some_iff.mp found
    obtain rfl : i = 0 := by simpa using inside
    exact ⟨by simp [SmpTopology.place], by simp [SmpTopology.place]⟩
  absent i beyond := by
    rw [List.length_singleton] at beyond
    exact Function.update_of_ne (by omega) _ _
  invalid id other := Function.update_of_ne (by simpa using other) _ _
  boot := rfl

/-- A further processor gets the next number. -/
theorem SmpTopology.Lists.place {id : UInt8} (lists : t.Lists order)
    (room : order.length < schedulerMaxCpus) (new : id ∉ order) :
    (t.place order.length id false).Lists (order ++ [id]) := by
  have small : order.length % 256 = order.length := by
    unfold schedulerMaxCpus at room
    omega
  refine ⟨?_, ?_, ?_, ?_, ?_, ?_, lists.boot⟩
  · rw [List.length_append, List.length_singleton]
    exact room
  · rw [List.length_append, List.length_singleton]
    exact Nat.succ_pos _
  · exact List.nodup_append.mpr ⟨lists.distinct, List.nodup_singleton _, fun a old b last same =>
      new (List.mem_singleton.mp last ▸ same ▸ old)⟩
  · intro i other found
    rcases Nat.lt_or_ge i order.length with old | last
    · rw [List.getElem?_append_left old] at found
      obtain ⟨cpu, mapped⟩ := lists.cpu i other found
      have apart : other ≠ id := fun same => new (same ▸ List.mem_of_getElem? found)
      exact ⟨(Function.update_of_ne (by omega) _ _).trans cpu,
        (Function.update_of_ne apart _ _).trans mapped⟩
    · have inside := (List.getElem?_eq_some_iff.mp found).1
      rw [List.length_append, List.length_singleton] at inside
      obtain rfl : i = order.length := by omega
      rw [List.getElem?_concat_length] at found
      cases found
      have later : order.length ≠ 0 := lists.nonempty.ne'
      refine ⟨(Function.update_self _ _ _).trans ?_, (Function.update_self _ _ _).trans small⟩
      rw [decide_eq_false later]
  · intro i beyond
    rw [List.length_append, List.length_singleton] at beyond
    exact (Function.update_of_ne (by omega) _ _).trans (lists.absent i (by omega))
  · intro other missing
    rw [List.mem_append, List.mem_singleton, not_or] at missing
    exact (Function.update_of_ne missing.2 _ _).trans (lists.invalid other missing.1)

/-- **The boot CPU comes first**, whether the list has it, has room for it, or is
full without it. -/
theorem placeBootCpu_eq (apicIds : List UInt8) (bspApicId : UInt8) :
    placeBootCpu apicIds bspApicId = (cpuResetTopology.place 0 bspApicId true, 1) := by
  have found (ids : List UInt8) (mem : bspApicId ∈ ids) :
      bootLoop bspApicId cpuResetTopology 0 ids =
        (cpuResetTopology.place 0 bspApicId true, 1) := by
    induction ids with
    | nil => exact absurd mem List.not_mem_nil
    | cons id ids ih =>
      rw [bootLoop, if_pos (by decide)]
      by_cases other : id ≠ bspApicId
      · rw [if_pos other]
        exact ih ((List.mem_cons.mp mem).resolve_left (Ne.symm other))
      · rw [if_neg other, not_not.mp other]
        rfl
  have missing (t : SmpTopology) (n : Nat) (ids : List UInt8) (absent : bspApicId ∉ ids) :
      bootLoop bspApicId t n ids = (t, n) := by
    induction ids with
    | nil => rfl
    | cons id ids ih =>
      rw [List.mem_cons, not_or] at absent
      rw [bootLoop]
      split
      · rw [if_pos (Ne.symm absent.1)]
        exact ih absent.2
      · rfl
  unfold placeBootCpu
  by_cases mem : bspApicId ∈ apicIds
  · have present : apicIds.any (· = bspApicId) = true := by simpa using mem
    simp [present, found apicIds mem]
  · have present : apicIds.any (· = bspApicId) = false := by
      rw [List.any_eq_false]
      intro id found same
      exact mem (of_decide_eq_true same ▸ found)
    by_cases room : apicIds.length < schedulerMaxCpus
    · simp [present, room, missing _ _ apicIds mem]
    · simp [present, room, missing _ _ apicIds mem]

/-- The loop over the others appends those that are new, as far as there is
room. -/
theorem otherLoop_lists (lists : t.Lists order) (boot : bspApicId ∈ order)
    (distinct : apicIds.Nodup) (apart : ∀ id ∈ apicIds, id ≠ bspApicId → id ∉ order) :
    ∃ t', otherLoop bspApicId t order.length apicIds =
        (t', ((order ++ apicIds.filter (· ≠ bspApicId)).take schedulerMaxCpus).length) ∧
      t'.Lists ((order ++ apicIds.filter (· ≠ bspApicId)).take schedulerMaxCpus) := by
  induction apicIds generalizing t order with
  | nil =>
    refine ⟨t, ?_, ?_⟩
    · rw [otherLoop, List.filter_nil, List.append_nil, List.take_of_length_le lists.few]
    · rw [List.filter_nil, List.append_nil, List.take_of_length_le lists.few]
      exact lists
  | cons id ids ih =>
    rw [List.nodup_cons] at distinct
    have later : ∀ other ∈ ids, other ≠ bspApicId → other ∉ order := fun other mem =>
      apart other (List.mem_cons_of_mem _ mem)
    rw [otherLoop]
    by_cases room : order.length < schedulerMaxCpus
    · rw [if_pos room]
      by_cases same : id = bspApicId
      · rw [if_pos same, List.filter_cons_of_neg (by simpa using same)]
        exact ih lists boot distinct.2 later
      · have new := apart id List.mem_cons_self same
        rw [if_neg same, if_neg (not_not.mpr (lists.invalid id new)),
          List.filter_cons_of_pos (by simpa using same), List.append_cons]
        have next := ih (lists.place room new) (List.mem_append_left _ boot) distinct.2
          fun other mem differs => by
            rw [List.mem_append, List.mem_singleton, not_or]
            exact ⟨later other mem differs, fun equal => distinct.1 (equal ▸ mem)⟩
        rwa [List.length_append, List.length_singleton] at next
    · have full : order.length = schedulerMaxCpus := le_antisymm lists.few (not_lt.mp room)
      rw [if_neg room, List.take_append_of_le_length full.ge, ← full, List.take_length]
      exact ⟨t, rfl, lists⟩

/-- The logical CPUs in order. -/
def cpuOrder (apicIds : List UInt8) (bspApicId : UInt8) : List UInt8 :=
  (bspApicId :: apicIds.filter (· ≠ bspApicId)).take schedulerMaxCpus

theorem cpuBuildTopology_lists (bspApicId : UInt8) (distinct : apicIds.Nodup) :
    (cpuBuildTopologyFromApicIds apicIds bspApicId).Lists (cpuOrder apicIds bspApicId) ∧
      (cpuBuildTopologyFromApicIds apicIds bspApicId).smpCpuCount =
        (cpuOrder apicIds bspApicId).length := by
  obtain ⟨t, done, lists⟩ := otherLoop_lists (SmpTopology.Lists.boot_placed bspApicId)
    List.mem_cons_self distinct fun id _ other => by simpa using other
  rw [List.singleton_append, ← cpuOrder, List.length_singleton] at done
  rw [List.singleton_append, ← cpuOrder] at lists
  unfold cpuBuildTopologyFromApicIds
  rw [placeBootCpu_eq]
  dsimp only
  rw [done]
  have few := lists.few
  unfold schedulerMaxCpus at few
  exact ⟨⟨lists.few, lists.nonempty, lists.distinct, lists.cpu, lists.absent, lists.invalid,
    lists.boot⟩, Nat.mod_eq_of_lt (by omega)⟩

/-- As many CPUs as there are processors, but at most eight. -/
theorem length_cpuOrder (distinct : apicIds.Nodup) :
    (cpuOrder apicIds bspApicId).length = min 8 (bspApicId :: apicIds).dedup.length := by
  have nodup : (bspApicId :: apicIds.filter (· ≠ bspApicId)).Nodup :=
    List.nodup_cons.mpr ⟨by simp, distinct.filter _⟩
  have same : (bspApicId :: apicIds.filter (· ≠ bspApicId)).Perm
      (bspApicId :: apicIds).dedup :=
    (List.perm_ext_iff_of_nodup nodup (List.nodup_dedup _)).mpr fun id => by
      rw [List.mem_dedup, List.mem_cons, List.mem_cons, List.mem_filter]
      by_cases here : id = bspApicId
      · simp [here]
      · simp [here]
  rw [cpuOrder, List.length_take, same.length_eq]
  rfl

/-- What stands at a number below the count. -/
theorem SmpTopology.Lists.at_lt (lists : t.Lists order) {i : Nat} (inside : i < order.length) :
    t.smpCpus i = ⟨order[i], true, i = 0⟩ ∧ t.apicToCpu order[i] = i :=
  lists.cpu i _ (List.getElem?_eq_getElem inside)

/-- Any topology of at least one CPU is accepted. -/
theorem SmpTopology.Lists.accepted (lists : t.Lists order) (count : t.smpCpuCount = order.length)
    {s : State} (before : s.bootstrapped = false) (none : schedulerHasLiveTasks s = false)
    (pmm : Pmm.PmmState) :
    (schedulerConfigureTopology s t.config
      (Pmm.pmmConfigureNumaTopology pmm t.config.nodeCount).2).2 = true := by
  have few := lists.few
  have nonempty := lists.nonempty
  have online : t.config.cpuOnline 0 = true := by
    change (decide (0 < t.smpCpuCount) && (t.smpCpus 0).present) = true
    rw [(lists.at_lt nonempty).1, count, decide_eq_true nonempty]
    rfl
  have some : (List.range order.length).any t.config.cpuOnline = true :=
    List.any_eq_true.mpr ⟨0, List.mem_range.mpr nonempty, online⟩
  have nodes : (List.range order.length).all
      (fun i => t.config.cpuToNode i < t.config.nodeCount) = true :=
    List.all_eq_true.mpr fun _ _ => rfl
  have first : t.config.bootCpuId = 0 := lists.boot
  have cpus : t.config.cpuCount = order.length := count
  have accepted : t.config.accepted = true := by
    unfold TopologyConfig.accepted
    rw [first, cpus, online, some, nodes]
    unfold schedulerMaxCpus at few ⊢
    simp only [Bool.and_true, Bool.and_eq_true, decide_eq_true_eq]
    exact ⟨⟨by omega, by change ¬ (1 = 0 ∨ schedulerMaxNumaNodes < 1); decide⟩, by omega⟩
  have pmmAccepts : (Pmm.pmmConfigureNumaTopology pmm 1).2 = true := by
    unfold Pmm.pmmConfigureNumaTopology
    rw [if_neg (by decide)]
    dsimp only
    split <;> rfl
  unfold schedulerConfigureTopology
  rw [if_neg (by simp [before, none]), if_neg (not_not.mpr accepted)]
  exact pmmAccepts

end Order

/-- The logical CPUs `0 .. n - 1` have different APIC ids, the map back agrees
with them and is invalid elsewhere, and CPU 0 is the bootstrap processor and
alone is started. -/
structure SmpTopology.RootedAt (t : SmpTopology) (bspApicId : UInt8) (n : Nat) : Prop where
  count : t.smpCpuCount = n
  distinct : ∀ i < n, ∀ j < n, (t.smpCpus i).apicId = (t.smpCpus j).apicId → i = j
  back : ∀ i < n, t.apicToCpu (t.smpCpus i).apicId = i
  invalid : ∀ id, (∀ i < n, (t.smpCpus i).apicId ≠ id) → t.apicToCpu id = cpuIdInvalid
  boot : t.smpBootCpu = 0
  bootId : (t.smpCpus 0).apicId = bspApicId
  started : ∀ i, (t.smpCpus i).started = true ↔ i = 0

/-- **The topology is a bijection rooted at the boot processor.**  And whatever
becomes of the local APIC, the scheduler accepts the configuration as long as it
has started nothing. -/
theorem topology_rooted_bijection (apicIds : List UInt8) (bspApicId : UInt8)
    (distinct : apicIds.Nodup) :
    (cpuBuildTopologyFromApicIds apicIds bspApicId).RootedAt bspApicId
        (min 8 (bspApicId :: apicIds).dedup.length) ∧
      ∀ (bootstrapId : UInt8) (lapicEnabled : Bool) (pmm : Pmm.PmmState) (s : State),
        s.bootstrapped = false → schedulerHasLiveTasks s = false →
        ∀ config, config = (cpuSmpPrepareTopology bootstrapId true (some (apicIds, bspApicId))
            lapicEnabled).2 →
          (schedulerConfigureTopology s config
            (Pmm.pmmConfigureNumaTopology pmm config.nodeCount).2).2 = true := by
  have built := cpuBuildTopology_lists bspApicId distinct
  obtain ⟨lists, count⟩ := built
  rw [← length_cpuOrder distinct]
  have back : ∀ i < (cpuOrder apicIds bspApicId).length,
      (cpuBuildTopologyFromApicIds apicIds bspApicId).apicToCpu
        ((cpuBuildTopologyFromApicIds apicIds bspApicId).smpCpus i).apicId = i := by
    intro i inside
    obtain ⟨cpu, mapped⟩ := lists.at_lt inside
    rw [cpu]
    exact mapped
  refine ⟨⟨count, ?_, back, ?_, lists.boot, ?_, ?_⟩, ?_⟩
  · intro i low j low' same
    rw [← back i low, same, back j low']
  · intro id missing
    refine lists.invalid id fun mem => ?_
    obtain ⟨i, inside, here⟩ := List.mem_iff_getElem.mp mem
    refine missing i inside ?_
    rw [(lists.at_lt inside).1]
    exact here
  · rw [(lists.at_lt lists.nonempty).1]
    rfl
  · intro i
    rcases Nat.lt_or_ge i (cpuOrder apicIds bspApicId).length with inside | beyond
    · rw [(lists.at_lt inside).1]
      exact decide_eq_true_iff
    · have later : i ≠ 0 := Nat.ne_of_gt (lists.nonempty.trans_le beyond)
      rw [lists.absent i beyond]
      simp [later]
  · rintro bootstrapId lapicEnabled pmm s before none _ rfl
    cases lapicEnabled with
    | true => exact lists.accepted count before none pmm
    | false =>
      exact (SmpTopology.Lists.boot_placed bootstrapId).accepted rfl before none pmm

/-- Eight other processors, and a bootstrap processor that is not among them. -/
theorem topology_rooted_bijection_nine :
    (cpuBuildTopologyFromApicIds [1, 2, 3, 4, 5, 6, 7, 8] 9).smpCpuCount = 8 ∧
      (cpuBuildTopologyFromApicIds [1, 2, 3, 4, 5, 6, 7, 8] 9).smpBootCpu = 0 := by
  have rooted := (topology_rooted_bijection [1, 2, 3, 4, 5, 6, 7, 8] 9 (by decide)).1
  exact ⟨rooted.count.trans (by decide), rooted.boot⟩

end Dfos.Cpu
