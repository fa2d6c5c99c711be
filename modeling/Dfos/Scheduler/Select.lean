import Dfos.Scheduler.Invariant
import Mathlib.Data.List.MinMax
import Mathlib.Data.Prod.Lex

/-!
# Choosing a CPU

The selection loop keeps the candidate of least `CpuView.rank`, so that a pass
is an arg-min over its candidates (`selectPass_argmin`).  From it:

* `scheduler_select_target_cpu` answers with an online CPU, and with one of the
  affinity mask when the mask has any (`schedulerSelectTargetCpu_testBit`);
* `scheduler_select_best_cpu_from_view` answers with a CPU of minimal load among
  the CPUs it may choose, `local_cpu` first and then the lowest
  (`CpuView.Best`).
-/

namespace Dfos.Scheduler

open Dfos.Lib

/-- A mask of online CPUs that is not empty. -/
structure Fitting (s : State) (mask : Nat) : Prop where
  some : mask ≠ 0
  online : ∀ i, mask.testBit i → (s.cpus i).online

section

variable {s : State}

theorem testBit_onlineCpuMask (topology : Topology s) (i : Nat) :
    (schedulerOnlineCpuMask s).testBit i = (s.cpus i).online := by
  unfold schedulerOnlineCpuMask
  rw [testBit_rangeMask (fun i => (s.cpus i).online)]
  cases online : (s.cpus i).online with
  | false => simp
  | true => simp [topology.online i online]

theorem fitting_onlineCpuMask (topology : Topology s) : Fitting s (schedulerOnlineCpuMask s) where
  some := by
    intro empty
    have bit := testBit_onlineCpuMask topology s.bootCpuId
    rw [empty, Nat.zero_testBit, topology.boot] at bit
    cases bit
  online i bit := by rwa [testBit_onlineCpuMask topology] at bit

theorem fitting_normalizeAffinityMask (topology : Topology s) (mask : Nat) :
    Fitting s (schedulerNormalizeAffinityMask s mask) := by
  unfold schedulerNormalizeAffinityMask
  dsimp only
  split
  · exact fitting_onlineCpuMask topology
  · next overlap =>
      refine ⟨overlap, fun i bit => ?_⟩
      rw [Nat.testBit_and, Bool.and_eq_true, testBit_onlineCpuMask topology] at bit
      exact bit.2

/-- A fitting mask is its own normal form. -/
theorem normalizeAffinityMask_of_fitting (topology : Topology s) {mask : Nat}
    (fitting : Fitting s mask) : schedulerNormalizeAffinityMask s mask = mask := by
  have within : mask &&& schedulerOnlineCpuMask s = mask := by
    apply Nat.eq_of_testBit_eq
    intro i
    rw [Nat.testBit_and, testBit_onlineCpuMask topology]
    cases bit : mask.testBit i with
    | false => rfl
    | true => rw [fitting.online i bit, Bool.and_true]
  unfold schedulerNormalizeAffinityMask
  dsimp only
  rw [within, if_neg fitting.some]

/-! ## The selection loop -/

/-- What the loop minimises: the load, then being another CPU than `local_cpu`,
then the number. -/
def CpuView.rank (view : CpuView) (localCpu cpu : Nat) : ℕ ×ₗ ℕ ×ₗ ℕ :=
  toLex (view.cpuLoad cpu, toLex (if cpu = localCpu then 0 else 1, cpu))

/-- `(best_cpu, best_load)` when the loop has settled on `best`. -/
def CpuView.best (view : CpuView) : Option Nat → Nat × Nat
  | none => (schedulerInvalidCpuId, 0xFFFFFFFF)
  | some cpu => (cpu, view.cpuLoad cpu)

theorem CpuView.rank_lt (view : CpuView) (localCpu first second : Nat) :
    view.rank localCpu first < view.rank localCpu second ↔
      view.cpuLoad first < view.cpuLoad second ∨ view.cpuLoad first = view.cpuLoad second ∧
        (first = localCpu ∧ second ≠ localCpu ∨ second ≠ localCpu ∧ first < second) := by
  unfold CpuView.rank
  simp only [Prod.Lex.toLex_lt_toLex]
  refine or_congr_right (and_congr_right fun _ => ?_)
  split_ifs <;> grind

/-- One candidate replaces the best so far iff it ranks below it. -/
theorem selectStep_best (view : CpuView) (affinity : Nat) (preferred : Option Nat)
    (localCpu : Nat) {best : Option Nat} (valid : best ≠ some schedulerInvalidCpuId) (cpu : Nat) :
    selectStep view affinity preferred localCpu (view.best best) cpu =
      view.best (if view.candidate affinity preferred cpu then
        List.argAux (fun b c => view.rank localCpu b < view.rank localCpu c) best cpu
      else best) := by
  unfold selectStep
  by_cases candidate : view.candidate affinity preferred cpu = true
  · rw [if_neg (not_not.mpr candidate), if_pos candidate]
    cases best with
    | none => exact if_pos (Or.inl rfl)
    | some held =>
        have real : held ≠ schedulerInvalidCpuId := fun same => valid (congrArg some same)
        have order := view.rank_lt localCpu cpu held
        change (if held = schedulerInvalidCpuId ∨ view.cpuLoad cpu < view.cpuLoad held then
            (cpu, view.cpuLoad cpu)
          else if view.cpuLoad cpu = view.cpuLoad held then
            if cpu = localCpu ∧ held ≠ localCpu then (cpu, view.cpuLoad held)
            else if held ≠ localCpu ∧ cpu < held then (cpu, view.cpuLoad held)
            else (held, view.cpuLoad held)
          else (held, view.cpuLoad held)) =
          view.best (if view.rank localCpu cpu < view.rank localCpu held then some cpu
            else some held)
        by_cases less : view.cpuLoad cpu < view.cpuLoad held
        · rw [if_pos (Or.inr less), if_pos (order.mpr (Or.inl less))]
          rfl
        · rw [if_neg (not_or.mpr ⟨real, less⟩)]
          rw [or_iff_right less] at order
          by_cases same : view.cpuLoad cpu = view.cpuLoad held
          · rw [and_iff_right same] at order
            rw [if_pos same]
            by_cases home : cpu = localCpu ∧ held ≠ localCpu
            · rw [if_pos home, if_pos (order.mpr (Or.inl home)), ← same]
              rfl
            · rw [if_neg home]
              rw [or_iff_right home] at order
              by_cases below : held ≠ localCpu ∧ cpu < held
              · rw [if_pos below, if_pos (order.mpr below), ← same]
                rfl
              · rw [if_neg below, if_neg (below ∘ order.mp)]
                rfl
          · rw [if_neg same, if_neg fun lower => same (order.mp lower).1]
            rfl
  · rw [if_pos candidate, if_neg candidate]

theorem selectLoop_best (view : CpuView) (affinity : Nat) (preferred : Option Nat)
    (localCpu : Nat) :
    ∀ (cpus : List Nat) (best : Option Nat), (∀ cpu ∈ cpus, cpu ≠ schedulerInvalidCpuId) →
      best ≠ some schedulerInvalidCpuId →
      cpus.foldl (selectStep view affinity preferred localCpu) (view.best best) =
        view.best ((cpus.filter (view.candidate affinity preferred)).foldl
          (List.argAux fun b c => view.rank localCpu b < view.rank localCpu c) best) := by
  intro cpus
  induction cpus with
  | nil => exact fun _ _ _ => rfl
  | cons cpu cpus ih =>
      intro best valid real
      have here := valid cpu List.mem_cons_self
      have later := fun other member => valid other (List.mem_cons_of_mem cpu member)
      rw [List.foldl_cons, selectStep_best view affinity preferred localCpu real, List.filter_cons]
      split
      · rw [List.foldl_cons]
        refine ih _ later ?_
        cases best with
        | none => exact fun same => here (Option.some.inj same)
        | some held =>
            unfold List.argAux
            dsimp only
            split
            · exact fun same => here (Option.some.inj same)
            · exact real
      · exact ih best later real

/-- The candidates of a pass. -/
def CpuView.candidates (view : CpuView) (affinity : Nat) (preferred : Option Nat) : List Nat :=
  (List.range view.cpuCount).filter (view.candidate affinity preferred)

/-- A pass answers with the candidate that ranks lowest. -/
theorem selectPass_argmin (view : CpuView) (few : view.cpuCount ≤ schedulerMaxCpus)
    (affinity : Nat) (preferred : Option Nat) (localCpu : Nat) :
    selectPass view affinity preferred localCpu =
      ((view.candidates affinity preferred).argmin (view.rank localCpu)).getD
        schedulerInvalidCpuId := by
  have valid : ∀ cpu ∈ List.range view.cpuCount, cpu ≠ schedulerInvalidCpuId := by
    intro cpu member
    rw [List.mem_range] at member
    unfold schedulerMaxCpus at few
    unfold schedulerInvalidCpuId
    omega
  unfold selectPass
  rw [show (schedulerInvalidCpuId, 0xFFFFFFFF) = view.best none from rfl,
    selectLoop_best view affinity preferred localCpu _ none valid nofun]
  unfold List.argmin CpuView.candidates
  cases List.foldl _ _ _ <;> rfl

/-- A pass answers with a candidate if there is one. -/
theorem selectPass_candidate (view : CpuView) (few : view.cpuCount ≤ schedulerMaxCpus)
    (affinity : Nat) (preferred : Option Nat) (localCpu : Nat) :
    (selectPass view affinity preferred localCpu ≠ schedulerInvalidCpuId →
      view.candidate affinity preferred (selectPass view affinity preferred localCpu)) ∧
    ((∃ cpu < view.cpuCount, view.candidate affinity preferred cpu) →
      selectPass view affinity preferred localCpu ≠ schedulerInvalidCpuId) := by
  rw [selectPass_argmin view few]
  cases lowest : (view.candidates affinity preferred).argmin (view.rank localCpu) with
  | none =>
      refine ⟨fun real => absurd rfl real, ?_⟩
      rintro ⟨cpu, below, candidate⟩
      have member := List.mem_filter.mpr ⟨List.mem_range.mpr below, candidate⟩
      rw [List.argmin_eq_none] at lowest
      unfold CpuView.candidates at lowest
      rw [lowest] at member
      cases member
  | some cpu =>
      obtain ⟨below, candidate⟩ := List.mem_filter.mp (List.argmin_mem lowest)
      rw [List.mem_range] at below
      unfold schedulerMaxCpus at few
      refine ⟨fun _ => candidate, fun _ => ?_⟩
      unfold schedulerInvalidCpuId
      rw [Option.getD_some]
      omega

theorem candidate_testBit {view : CpuView} {affinity cpu : Nat} {preferred : Option Nat}
    (candidate : view.candidate affinity preferred cpu) : affinity.testBit cpu := by
  unfold CpuView.candidate at candidate
  rw [Bool.and_eq_true, decide_eq_true_eq] at candidate
  exact (and_bit_ne_zero affinity cpu).mp candidate.1

/-- The CPU selected for a fitting mask is in the mask. -/
theorem schedulerSelectTargetCpu_testBit (topology : Topology s) {mask : Nat}
    (fitting : Fitting s mask) (executing preferred : Nat) :
    mask.testBit (schedulerSelectTargetCpu s executing mask preferred) := by
  have normal : s.view.normalizedAffinity mask = mask :=
    normalizeAffinityMask_of_fitting topology fitting
  have configured := topology.online _ topology.boot
  have anyOnline : s.view.onlineMask ≠ 0 := (fitting_onlineCpuMask topology).some
  obtain ⟨cpu, bit⟩ := Nat.exists_testBit_of_ne_zero fitting.some
  have below : cpu < s.view.cpuCount := topology.online cpu (fitting.online cpu bit)
  unfold schedulerSelectTargetCpu
  generalize (if s.bootstrapped then schedulerCurrentCpu s executing else s.bootCpuId) = localCpu
  have first := selectPass_candidate s.view topology.count mask
    (if preferred ≠ schedulerNumaNodeAny then some preferred else none) localCpu
  have second := selectPass_candidate s.view topology.count mask none localCpu
  have found : selectPass s.view mask none localCpu ≠ schedulerInvalidCpuId := by
    refine second.2 ⟨cpu, below, ?_⟩
    unfold CpuView.candidate
    rw [Bool.and_true, decide_eq_true_eq]
    exact (and_bit_ne_zero mask cpu).mpr bit
  have selected : mask.testBit (schedulerSelectBestCpuFromView s.view mask preferred localCpu) ∧
      schedulerSelectBestCpuFromView s.view mask preferred localCpu ≠ schedulerInvalidCpuId := by
    unfold schedulerSelectBestCpuFromView
    rw [if_neg (by omega), if_neg anyOnline, normal]
    dsimp only
    generalize (if preferred ≠ schedulerNumaNodeAny then some preferred else none) = node at first ⊢
    split
    · next real => exact ⟨candidate_testBit (first.1 real), real⟩
    · exact ⟨candidate_testBit (second.1 found), found⟩
  dsimp only
  rw [if_neg selected.2]
  exact selected.1

end

/-! ## The best CPU -/

/-- The online CPUs of the affinity mask, or all online CPUs when it has none. -/
def CpuView.Eligible (view : CpuView) (affinityMask cpu : Nat) : Prop :=
  cpu < view.cpuCount ∧ view.cpuOnline cpu ∧
    (affinityMask.testBit cpu ∨
      ∀ other < view.cpuCount, view.cpuOnline other → ¬ affinityMask.testBit other)

/-- The eligible CPUs, narrowed to the preferred node when one is given and an
eligible CPU is on it. -/
def CpuView.Narrowed (view : CpuView) (affinityMask preferredNumaNode cpu : Nat) : Prop :=
  view.Eligible affinityMask cpu ∧
    (preferredNumaNode ≠ schedulerNumaNodeAny →
      (∃ other, view.Eligible affinityMask other ∧ view.cpuToNode other = preferredNumaNode) →
        view.cpuToNode cpu = preferredNumaNode)

/-- A narrowed CPU of minimal load. -/
def CpuView.Minimal (view : CpuView) (affinityMask preferredNumaNode cpu : Nat) : Prop :=
  view.Narrowed affinityMask preferredNumaNode cpu ∧
    ∀ other, view.Narrowed affinityMask preferredNumaNode other →
      view.cpuLoad cpu ≤ view.cpuLoad other

/-- `selected` is what `scheduler_select_best_cpu_from_view` is for. -/
structure CpuView.Best (view : CpuView) (affinityMask preferredNumaNode localCpu selected : Nat) :
    Prop where
  invalid : selected = schedulerInvalidCpuId ↔ ∀ cpu < view.cpuCount, view.cpuOnline cpu = false
  minimal : (∃ cpu < view.cpuCount, view.cpuOnline cpu) →
    view.Minimal affinityMask preferredNumaNode selected
  here : view.Minimal affinityMask preferredNumaNode localCpu → selected = localCpu
  lowest : ¬ view.Minimal affinityMask preferredNumaNode localCpu →
    ∀ other, view.Minimal affinityMask preferredNumaNode other → selected ≤ other

section

variable {view : CpuView} {affinityMask preferredNumaNode localCpu : Nat}

theorem CpuView.testBit_onlineMask (view : CpuView) (cpu : Nat) :
    view.onlineMask.testBit cpu = (decide (cpu < view.cpuCount) && view.cpuOnline cpu) := by
  unfold CpuView.onlineMask
  rw [testBit_rangeMask]

theorem CpuView.onlineMask_eq_zero :
    view.onlineMask = 0 ↔ ∀ cpu < view.cpuCount, view.cpuOnline cpu = false := by
  constructor
  · intro none cpu below
    have bit := view.testBit_onlineMask cpu
    rw [none, Nat.zero_testBit, decide_eq_true below, Bool.true_and] at bit
    exact bit.symm
  · intro none
    apply Nat.eq_of_testBit_eq
    intro cpu
    rw [view.testBit_onlineMask, Nat.zero_testBit, Bool.and_eq_false_imp, decide_eq_true_eq]
    exact none cpu

/-- The normalised mask has the bits of the eligible CPUs. -/
theorem CpuView.testBit_normalizedAffinity (cpu : Nat) :
    (view.normalizedAffinity affinityMask).testBit cpu ↔ view.Eligible affinityMask cpu := by
  have online : view.onlineMask.testBit cpu ↔ cpu < view.cpuCount ∧ view.cpuOnline cpu := by
    rw [view.testBit_onlineMask, Bool.and_eq_true, decide_eq_true_eq]
  unfold CpuView.normalizedAffinity CpuView.Eligible
  dsimp only
  by_cases none : affinityMask &&& view.onlineMask = 0
  · have apart : ∀ other < view.cpuCount, view.cpuOnline other → ¬ affinityMask.testBit other := by
      intro other below on bit
      have both := congrArg (Nat.testBit · other) none
      simp only [Nat.testBit_and, bit, view.testBit_onlineMask, below, on, decide_true,
        Bool.and_true, Nat.zero_testBit] at both
      cases both
    rw [if_pos none, online]
    exact ⟨fun ⟨below, on⟩ => ⟨below, on, Or.inr apart⟩, fun ⟨below, on, _⟩ => ⟨below, on⟩⟩
  · obtain ⟨other, both⟩ := Nat.exists_testBit_of_ne_zero none
    rw [Nat.testBit_and, Bool.and_eq_true, view.testBit_onlineMask, Bool.and_eq_true,
      decide_eq_true_eq] at both
    rw [if_neg none, Nat.testBit_and, Bool.and_eq_true, online]
    constructor
    · exact fun ⟨bit, below, on⟩ => ⟨below, on, Or.inl bit⟩
    · rintro ⟨below, on, bit | apart⟩
      · exact ⟨bit, below, on⟩
      · exact absurd both.1 (apart other both.2.1 both.2.2)

theorem CpuView.mem_candidates {preferred : Option Nat} {cpu : Nat} :
    cpu ∈ view.candidates (view.normalizedAffinity affinityMask) preferred ↔
      view.Eligible affinityMask cpu ∧ ∀ node ∈ preferred, view.cpuToNode cpu = node := by
  unfold CpuView.candidates CpuView.candidate
  rw [List.mem_filter, List.mem_range, Bool.and_eq_true, decide_eq_true_eq, ne_eq,
    ← ne_eq, and_bit_ne_zero, CpuView.testBit_normalizedAffinity]
  have bound : view.Eligible affinityMask cpu → cpu < view.cpuCount := fun eligible => eligible.1
  cases preferred with
  | none => simpa using bound
  | some node => simpa using fun eligible _ => bound eligible

/-- The lowest rank is a minimal load, and settles ties. -/
theorem CpuView.best_of_argmin {cpus : List Nat} {selected : Nat}
    (members : ∀ cpu, cpu ∈ cpus ↔ view.Narrowed affinityMask preferredNumaNode cpu)
    (lowest : cpus.argmin (view.rank localCpu) = some selected) :
    view.Minimal affinityMask preferredNumaNode selected ∧
      (view.Minimal affinityMask preferredNumaNode localCpu → selected = localCpu) ∧
      (¬ view.Minimal affinityMask preferredNumaNode localCpu →
        ∀ other, view.Minimal affinityMask preferredNumaNode other → selected ≤ other) := by
  have below : ∀ other, view.Narrowed affinityMask preferredNumaNode other →
      ¬ view.rank localCpu other < view.rank localCpu selected := fun other narrowed =>
    List.not_lt_of_mem_argmin ((members other).mpr narrowed) lowest
  simp only [view.rank_lt, not_or, not_and, not_lt] at below
  have minimal : view.Minimal affinityMask preferredNumaNode selected :=
    ⟨(members selected).mp (List.argmin_mem lowest), fun other narrowed => (below other narrowed).1⟩
  have tie : ∀ other, view.Minimal affinityMask preferredNumaNode other →
      view.cpuLoad other = view.cpuLoad selected := fun other least =>
    Nat.le_antisymm (least.2 selected minimal.1) (minimal.2 other least.1)
  refine ⟨minimal, fun least => ?_, fun elsewhere other least => ?_⟩
  · have settled := ((below localCpu least.1).2 (tie localCpu least)).1 rfl
    exact not_not.mp settled
  · refine ((below other least.1).2 (tie other least)).2 fun same => elsewhere ?_
    exact same ▸ minimal

theorem CpuView.exists_eligible (online : view.onlineMask ≠ 0) (affinityMask : Nat) :
    ∃ cpu, view.Eligible affinityMask cpu := by
  have some : view.normalizedAffinity affinityMask ≠ 0 := by
    unfold CpuView.normalizedAffinity
    dsimp only
    split
    · exact online
    · next overlap => exact overlap
  obtain ⟨cpu, bit⟩ := Nat.exists_testBit_of_ne_zero some
  exact ⟨cpu, CpuView.testBit_normalizedAffinity cpu |>.mp bit⟩

/-- A pass that has candidates answers with the one that ranks lowest. -/
theorem selectPass_lowest (few : view.cpuCount ≤ schedulerMaxCpus) {affinity : Nat}
    {preferred : Option Nat} (some : view.candidates affinity preferred ≠ []) (localCpu : Nat) :
    selectPass view affinity preferred localCpu ≠ schedulerInvalidCpuId ∧
      (view.candidates affinity preferred).argmin (view.rank localCpu) =
        Option.some (selectPass view affinity preferred localCpu) := by
  obtain ⟨lowest, found⟩ := Option.ne_none_iff_exists'.mp
    (mt List.argmin_eq_none.mp some : List.argmin (view.rank localCpu) _ ≠ none)
  rw [selectPass_argmin view few, found, Option.getD_some]
  obtain ⟨below, -⟩ := List.mem_filter.mp (List.argmin_mem found)
  rw [List.mem_range] at below
  unfold schedulerMaxCpus at few
  unfold schedulerInvalidCpuId
  exact ⟨by omega, rfl⟩

/-- With a CPU online, the answer ranks lowest among the narrowed CPUs. -/
theorem schedulerSelectBestCpuFromView_lowest (few : view.cpuCount ≤ schedulerMaxCpus)
    (online : view.onlineMask ≠ 0) (affinityMask preferredNumaNode localCpu : Nat) :
    ∃ cpus : List Nat, (∀ cpu, cpu ∈ cpus ↔ view.Narrowed affinityMask preferredNumaNode cpu) ∧
      cpus.argmin (view.rank localCpu) = some
        (schedulerSelectBestCpuFromView view affinityMask preferredNumaNode localCpu) := by
  have counted : view.cpuCount ≠ 0 := by
    intro zero
    exact online (CpuView.onlineMask_eq_zero.mpr fun cpu below => by omega)
  unfold schedulerSelectBestCpuFromView
  rw [if_neg counted, if_neg online]
  dsimp only
  generalize asked : (if preferredNumaNode ≠ schedulerNumaNodeAny then some preferredNumaNode
    else none) = preferred
  have asks : ∀ node, node ∈ preferred ↔
      preferredNumaNode ≠ schedulerNumaNodeAny ∧ node = preferredNumaNode := by
    intro node
    subst asked
    split
    · next given => simp [given, eq_comm]
    · next given => simp [given]
  have narrowed : ∀ cpu, cpu ∈ view.candidates (view.normalizedAffinity affinityMask) preferred ↔
      view.Eligible affinityMask cpu ∧
        (preferredNumaNode ≠ schedulerNumaNodeAny → view.cpuToNode cpu = preferredNumaNode) := by
    intro cpu
    rw [CpuView.mem_candidates]
    simp only [asks]
    refine and_congr_right fun _ => ⟨fun on given => on _ ⟨given, rfl⟩, ?_⟩
    rintro on _ ⟨given, rfl⟩
    exact on given
  by_cases none : view.candidates (view.normalizedAffinity affinityMask) preferred = []
  · -- no eligible CPU is on the preferred node: the second pass takes them all
    have apart : ∀ cpu, view.Eligible affinityMask cpu →
        ¬ (preferredNumaNode ≠ schedulerNumaNodeAny → view.cpuToNode cpu = preferredNumaNode) := by
      intro cpu eligible onNode
      have member := (narrowed cpu).mpr ⟨eligible, onNode⟩
      rw [none] at member
      cases member
    have members : ∀ cpu,
        cpu ∈ view.candidates (view.normalizedAffinity affinityMask) Option.none ↔
          view.Narrowed affinityMask preferredNumaNode cpu := by
      intro cpu
      rw [CpuView.mem_candidates]
      unfold CpuView.Narrowed
      refine and_congr_right fun _ => iff_of_true nofun ?_
      rintro - ⟨other, eligible, onNode⟩
      exact absurd (fun _ => onNode) (apart other eligible)
    obtain ⟨cpu, eligible⟩ := CpuView.exists_eligible online affinityMask
    have some : view.candidates (view.normalizedAffinity affinityMask) Option.none ≠ [] :=
      List.ne_nil_of_mem (CpuView.mem_candidates.mpr ⟨eligible, nofun⟩)
    have first : selectPass view (view.normalizedAffinity affinityMask) preferred localCpu =
        schedulerInvalidCpuId := by
      rw [selectPass_argmin view few, none]
      rfl
    rw [if_neg (not_not.mpr first)]
    exact ⟨_, members, (selectPass_lowest few some localCpu).2⟩
  · obtain ⟨real, lowest⟩ := selectPass_lowest few none localCpu
    obtain ⟨onNode, found⟩ := List.exists_mem_of_ne_nil _ none
    rw [if_pos real]
    refine ⟨_, fun cpu => ?_, lowest⟩
    rw [narrowed] at found ⊢
    unfold CpuView.Narrowed
    refine and_congr_right fun _ => forall_congr' fun given => ?_
    exact ⟨fun here _ => here, fun here => here ⟨onNode, found.1, found.2 given⟩⟩

end

/-- `scheduler_select_best_cpu_from_view` is an exact arg-min. -/
theorem scheduler_select_best_cpu_exact (view : CpuView) (few : view.cpuCount ≤ schedulerMaxCpus)
    (affinityMask preferredNumaNode localCpu : Nat) :
    view.Best affinityMask preferredNumaNode localCpu
      (schedulerSelectBestCpuFromView view affinityMask preferredNumaNode localCpu) := by
  by_cases offline : view.onlineMask = 0
  · have none := CpuView.onlineMask_eq_zero.mp offline
    have answer : schedulerSelectBestCpuFromView view affinityMask preferredNumaNode localCpu =
        schedulerInvalidCpuId := by
      unfold schedulerSelectBestCpuFromView
      rw [if_pos offline, ite_self]
    have nowhere : ∀ cpu, ¬ view.Minimal affinityMask preferredNumaNode cpu := by
      intro cpu minimal
      have on := minimal.1.1.2.1
      rw [none cpu minimal.1.1.1] at on
      cases on
    refine ⟨iff_of_true answer none, ?_, fun least => absurd least (nowhere _),
      fun _ other least => absurd least (nowhere other)⟩
    rintro ⟨cpu, below, on⟩
    rw [none cpu below] at on
    cases on
  · obtain ⟨cpus, members, lowest⟩ := schedulerSelectBestCpuFromView_lowest few offline
      affinityMask preferredNumaNode localCpu
    obtain ⟨minimal, here, first⟩ := CpuView.best_of_argmin members lowest
    refine ⟨iff_of_false (fun invalid => ?_) (mt CpuView.onlineMask_eq_zero.mpr offline),
      fun _ => minimal, here, first⟩
    have below := minimal.1.1.1
    rw [invalid] at below
    unfold schedulerMaxCpus at few
    unfold schedulerInvalidCpuId at below
    omega

/-- Eight CPUs, every one as loaded as a 32-bit word can say. -/
theorem scheduler_select_best_cpu_exact_fullLoad :
    (CpuView.mk 8 (fun _ => true) (fun cpu => cpu % 2) fun _ => 0xFFFFFFFF).Best 0xFC 1 5 5 := by
  have best := scheduler_select_best_cpu_exact
    (CpuView.mk 8 (fun _ => true) (fun cpu => cpu % 2) fun _ => 0xFFFFFFFF) (by decide) 0xFC 1 5
  rwa [show schedulerSelectBestCpuFromView
    (CpuView.mk 8 (fun _ => true) (fun cpu => cpu % 2) fun _ => 0xFFFFFFFF) 0xFC 1 5 = 5 from by
      decide] at best

end Dfos.Scheduler
