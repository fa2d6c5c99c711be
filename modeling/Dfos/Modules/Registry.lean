import Mathlib.Data.List.Induction
import Mathlib.Data.List.Sort

/-!
# The module registry

`kernel/kernel/module.c`.  The three arrays of the registry are one list of slots.
Whether a probe or an activation succeeds is fixed for each module; beside their
results the calls return the slots whose modules they tried, in order.
-/

namespace Dfos.Modules

/-- `MODULE_REGISTRY_CAPACITY`. -/
def moduleRegistryCapacity : Nat := 32

/-- `module_kind_t`. -/
inductive ModuleKind where
  | console
  | input
  | irqController
  | timer
  | storageController
  deriving DecidableEq, Repr

/-- `module_descriptor_t`; `none` is a function pointer that is `NULL`. -/
structure ModuleDescriptor where
  kind : ModuleKind
  priority : UInt32
  probe : Option Bool
  activate : Option Bool
  deriving DecidableEq, Repr

/-- An entry of `registered_modules`, `active_modules` and `attempted_modules`. -/
structure Slot where
  module : ModuleDescriptor
  active : Bool
  attempted : Bool
  deriving DecidableEq, Repr

abbrev Registry := List Slot

/-- `module_is_supported`. -/
def moduleIsSupported (module : ModuleDescriptor) : Bool := module.probe.getD true

/-- `module_matches_kind`. -/
def moduleMatchesKind (module : ModuleDescriptor) (kind : ModuleKind) : Bool := module.kind = kind

/-- `module->activate != NULL && module->activate()`. -/
def Slot.activates (slot : Slot) : Bool := slot.module.activate.getD false

/-- What the scan does not skip. -/
def Slot.candidate (kind : ModuleKind) (slot : Slot) : Bool :=
  !(slot.active || slot.attempted || !moduleMatchesKind slot.module kind ||
    !moduleIsSupported slot.module)

/-- The loop of `module_find_best_candidate` over the first slots, with
`best_index` and `best_priority` once one is found. -/
def scanCandidates (kind : ModuleKind) (registry : Registry) : Nat → Option (Nat × UInt32)
  | 0 => none
  | i + 1 =>
      let best := scanCandidates kind registry i
      match registry[i]? with
      | none => best
      | some slot =>
          if !slot.candidate kind then best
          else
            match best with
            | none => some (i, slot.module.priority)
            | some (_, bestPriority) =>
                if slot.module.priority > bestPriority then some (i, slot.module.priority)
                else best

/-- `module_find_best_candidate`. -/
def moduleFindBestCandidate (kind : ModuleKind) (registry : Registry) : Option Nat :=
  (scanCandidates kind registry registry.length).map (·.1)

/-- `module_register`. -/
def moduleRegister (registry : Registry) (module : Option ModuleDescriptor) : Registry :=
  match module with
  | none => registry
  | some module =>
      if registry.length ≥ moduleRegistryCapacity then registry
      else registry ++ [{ module := module, active := false, attempted := false }]

def Registry.markAttempted (registry : Registry) (index : Nat) : Registry :=
  registry.modify index fun slot => { slot with attempted := true }

def Registry.markActive (registry : Registry) (index : Nat) : Registry :=
  registry.modify index fun slot => { slot with active := true }

def Registry.activates (registry : Registry) (index : Nat) : Bool :=
  (registry[index]?).elim false Slot.activates

/-- The loop of `module_activate_best`, in at most `rounds` rounds. -/
def activateBestLoop (kind : ModuleKind) : Nat → Registry → Option (Registry × Bool × List Nat)
  | 0, _ => none
  | rounds + 1, registry =>
      match moduleFindBestCandidate kind registry with
      | none => some (registry, false, [])
      | some index =>
          let activates := registry.activates index
          let registry := registry.markAttempted index
          if activates then some (registry.markActive index, true, [index])
          else do
            let (registry, result, tried) ← activateBestLoop kind rounds registry
            return (registry, result, index :: tried)

/-- `module_activate_best`. -/
def moduleActivateBest (kind : ModuleKind) (registry : Registry) :
    Option (Registry × Bool × List Nat) :=
  activateBestLoop kind (registry.length + 1) registry

/-- The loop of `module_activate_all`, with `activated` so far. -/
def activateAllLoop (kind : ModuleKind) :
    Nat → Nat → Registry → Option (Registry × Nat × List Nat)
  | 0, _, _ => none
  | rounds + 1, activated, registry =>
      match moduleFindBestCandidate kind registry with
      | none => some (registry, activated, [])
      | some index => do
          let activates := registry.activates index
          let registry := registry.markAttempted index
          let (registry, result, tried) ←
            if activates then activateAllLoop kind rounds (activated + 1) (registry.markActive index)
            else activateAllLoop kind rounds activated registry
          return (registry, result, index :: tried)

/-- `module_activate_all`. -/
def moduleActivateAll (kind : ModuleKind) (registry : Registry) :
    Option (Registry × Nat × List Nat) :=
  activateAllLoop kind (registry.length + 1) 0 registry

/-- `module_active_count`. -/
def moduleActiveCount (kind : ModuleKind) (registry : Registry) : Nat :=
  registry.countP fun slot => slot.active && moduleMatchesKind slot.module kind

/-! ## Runs -/

inductive RegistryOp where
  | register (module : Option ModuleDescriptor)
  | activateBest (kind : ModuleKind)
  | activateAll (kind : ModuleKind)

/-- A call, with the slots it tried. -/
def RegistryOp.exec (registry : Registry) : RegistryOp → Option (Registry × List Nat)
  | .register module => some (moduleRegister registry module, [])
  | .activateBest kind => (moduleActivateBest kind registry).map fun (registry, _, tried) =>
      (registry, tried)
  | .activateAll kind => (moduleActivateAll kind registry).map fun (registry, _, tried) =>
      (registry, tried)

/-- A sequence of calls, with all slots tried so far. -/
def runRegistry (registry : Registry) (trace : List Nat) :
    List RegistryOp → Option (Registry × List Nat)
  | [] => some (registry, trace)
  | op :: ops => do
      let (registry, tried) ← op.exec registry
      runRegistry registry (trace ++ tried) ops

/-! ## The order of the candidates -/

def Registry.priority (registry : Registry) (i : Nat) : Nat :=
  (registry[i]?).elim 0 fun slot => slot.module.priority.toNat

/-- Slot `i` comes before slot `j`: it has the higher priority, or the same and was
registered earlier. -/
def Registry.Precedes (registry : Registry) (i j : Nat) : Prop :=
  registry.priority j < registry.priority i ∨
    registry.priority j = registry.priority i ∧ i ≤ j

instance (registry : Registry) : DecidableRel registry.Precedes :=
  fun _ _ => inferInstanceAs (Decidable (_ ∨ _))

instance (registry : Registry) : Std.Total registry.Precedes where
  total i j := by
    unfold Registry.Precedes
    omega

instance (registry : Registry) : IsTrans Nat registry.Precedes where
  trans i j k := by
    unfold Registry.Precedes
    omega

/-- The supported modules of a kind that have never been attempted. -/
def Registry.eligible (registry : Registry) (kind : ModuleKind) (i : Nat) : Bool :=
  (registry[i]?).elim false (Slot.candidate kind)

/-- The eligible slots in the order in which they are to be tried. -/
def Registry.ranked (registry : Registry) (kind : ModuleKind) : List Nat :=
  ((List.range registry.length).filter (registry.eligible kind)).insertionSort registry.Precedes

/-- What is tried until one activates. -/
def triedUntil (activates : Nat → Bool) : List Nat → List Nat
  | [] => []
  | i :: order => if activates i then [i] else i :: triedUntil activates order

/-- The eligible slots, each once and in order. -/
structure Registry.Ranked (registry : Registry) (kind : ModuleKind) (order : List Nat) : Prop where
  sorted : order.Pairwise registry.Precedes
  distinct : order.Nodup
  mem : ∀ i, i ∈ order ↔ registry.eligible kind i = true

section Order

variable {registry : Registry} {kind : ModuleKind} {order : List Nat} {i : Nat}

theorem Registry.eligible_lt (eligible : registry.eligible kind i = true) :
    i < registry.length := by
  by_contra beyond
  rw [Registry.eligible, List.getElem?_eq_none (by omega)] at eligible
  cases eligible

theorem Registry.ranked_ranked (registry : Registry) (kind : ModuleKind) :
    registry.Ranked kind (registry.ranked kind) where
  sorted := List.pairwise_insertionSort _ _
  distinct := (List.perm_insertionSort _ _).nodup_iff.mpr (List.nodup_range.filter _)
  mem i := by
    rw [Registry.ranked, List.mem_insertionSort, List.mem_filter, List.mem_range]
    exact ⟨And.right, fun eligible => ⟨Registry.eligible_lt eligible, eligible⟩⟩

/-- What the scan of the first `n` slots has found: nothing if none is eligible,
and else the first of the eligible ones. -/
def Registry.Leads (registry : Registry) (kind : ModuleKind) (n : Nat) :
    Option (Nat × UInt32) → Prop
  | none => ∀ j < n, registry.eligible kind j = false
  | some (i, p) => registry.eligible kind i = true ∧ p.toNat = registry.priority i ∧ i < n ∧
      ∀ j < n, registry.eligible kind j = true → registry.Precedes i j

theorem Registry.Leads.skip {n : Nat} {best : Option (Nat × UInt32)}
    (leads : registry.Leads kind n best) (skipped : registry.eligible kind n = false) :
    registry.Leads kind (n + 1) best := by
  cases best with
  | none =>
    intro j hj
    rcases Nat.lt_succ_iff_lt_or_eq.mp hj with old | rfl
    · exact leads j old
    · exact skipped
  | some best =>
    obtain ⟨eligible, priority, low, first⟩ := leads
    refine ⟨eligible, priority, by omega, fun j hj candidate => ?_⟩
    rcases Nat.lt_succ_iff_lt_or_eq.mp hj with old | rfl
    · exact first j old candidate
    · rw [skipped] at candidate
      cases candidate

/-- The slot that the scan has come to leads if those before it do not precede
it. -/
theorem Registry.leads_here {n : Nat} {p : UInt32} (here : registry.eligible kind n = true)
    (value : p.toNat = registry.priority n)
    (first : ∀ j < n, registry.eligible kind j = true → registry.Precedes n j) :
    registry.Leads kind (n + 1) (some (n, p)) := by
  refine ⟨here, value, Nat.lt_succ_self n, fun j hj candidate => ?_⟩
  rcases Nat.lt_succ_iff_lt_or_eq.mp hj with old | rfl
  · exact first j old candidate
  · exact .inr ⟨rfl, le_refl _⟩

theorem scanCandidates_leads (registry : Registry) (kind : ModuleKind) (n : Nat) :
    registry.Leads kind n (scanCandidates kind registry n) := by
  induction n with
  | zero => exact fun j hj => absurd hj (Nat.not_lt_zero j)
  | succ n ih =>
    rw [scanCandidates]
    cases found : registry[n]? with
    | none => exact ih.skip (by rw [Registry.eligible, found]; rfl)
    | some slot =>
      have here : registry.eligible kind n = slot.candidate kind := by
        rw [Registry.eligible, found]
        rfl
      have value : slot.module.priority.toNat = registry.priority n := by
        rw [Registry.priority, found]
        rfl
      dsimp only
      cases candidate : slot.candidate kind with
      | false => exact ih.skip (here.trans candidate)
      | true =>
        rw [candidate] at here
        rw [if_neg (by decide)]
        cases best : scanCandidates kind registry n with
        | none =>
          rw [best] at ih
          refine Registry.leads_here here value fun j old eligible => ?_
          rw [ih j old] at eligible
          cases eligible
        | some best' =>
          rw [best] at ih
          obtain ⟨eligible, priority, low, first⟩ := ih
          dsimp only
          split
          · next higher =>
            have higher : best'.2.toNat < slot.module.priority.toNat := higher
            refine Registry.leads_here here value fun j old eligible' => ?_
            have := first j old eligible'
            unfold Registry.Precedes at this ⊢
            omega
          · next lower =>
            have lower : slot.module.priority.toNat ≤ best'.2.toNat := UInt32.not_lt.mp lower
            refine ⟨eligible, priority, by omega, fun j hj eligible' => ?_⟩
            rcases Nat.lt_succ_iff_lt_or_eq.mp hj with old | rfl
            · exact first j old eligible'
            · unfold Registry.Precedes
              omega

/-- **The scan finds the first of the order.** -/
theorem Registry.Ranked.find (ranked : registry.Ranked kind order) :
    moduleFindBestCandidate kind registry = order.head? := by
  have leads := scanCandidates_leads registry kind registry.length
  unfold moduleFindBestCandidate
  cases found : scanCandidates kind registry registry.length with
  | none =>
    rw [found] at leads
    cases order with
    | nil => rfl
    | cons i order =>
      have eligible := (ranked.mem i).mp List.mem_cons_self
      rw [leads i (Registry.eligible_lt eligible)] at eligible
      cases eligible
  | some best =>
    obtain ⟨i, p⟩ := best
    rw [found] at leads
    obtain ⟨eligible, -, -, first⟩ := leads
    cases order with
    | nil => exact absurd ((ranked.mem i).mpr eligible) List.not_mem_nil
    | cons head order =>
      have headEligible := (ranked.mem head).mp List.mem_cons_self
      have before := first head (Registry.eligible_lt headEligible) headEligible
      rcases List.mem_cons.mp ((ranked.mem i).mpr eligible) with same | later
      · rw [same]
        rfl
      · -- both would come before the other
        have after := (List.pairwise_cons.mp ranked.sorted).1 i later
        have same : i = head := by
          unfold Registry.Precedes at before after
          omega
        rw [same]
        rfl

/-! ## What a try changes -/

/-- A slot after its module has been tried. -/
def Slot.tried (slot : Slot) : Slot :=
  { slot with attempted := true, active := slot.active || slot.activates }

/-- Exactly the slots of `tried` have been tried since. -/
def Registry.TriedSince (registry registry' : Registry) (tried : List Nat) : Prop :=
  ∀ j, registry'[j]? = (registry[j]?).map fun slot => if j ∈ tried then slot.tried else slot

/-- The registry after one round. -/
def Registry.tryModule (registry : Registry) (i : Nat) : Registry :=
  if registry.activates i then (registry.markAttempted i).markActive i
  else registry.markAttempted i

theorem Registry.getElem?_tryModule (registry : Registry) (i j : Nat) :
    (registry.tryModule i)[j]? =
      (registry[j]?).map fun slot => if j = i then slot.tried else slot := by
  unfold Registry.tryModule Registry.markActive Registry.markAttempted Registry.activates
  by_cases here : j = i
  · subst here
    cases found : registry[j]? with
    | none => split <;> simp [found]
    | some slot => cases activates : slot.activates <;> simp [found, Slot.tried, activates]
  · cases found : registry[j]? <;> split <;> simp [Ne.symm here, found]

theorem Registry.activates_tryModule (registry : Registry) (i j : Nat) :
    (registry.tryModule i).activates j = registry.activates j := by
  rw [Registry.activates, Registry.getElem?_tryModule, Registry.activates]
  cases registry[j]? with
  | none => rfl
  | some slot =>
    change Slot.activates (if j = i then slot.tried else slot) = _
    split <;> rfl

theorem Registry.Ranked.rest (ranked : registry.Ranked kind (i :: order)) :
    (registry.tryModule i).Ranked kind order := by
  have priority (j : Nat) : (registry.tryModule i).priority j = registry.priority j := by
    rw [Registry.priority, Registry.getElem?_tryModule, Registry.priority]
    cases registry[j]? with
    | none => rfl
    | some slot =>
      change UInt32.toNat (Slot.module (if j = i then slot.tried else slot)).priority = _
      split <;> rfl
  have eligible (j : Nat) : (registry.tryModule i).eligible kind j =
      (!decide (j = i) && registry.eligible kind j) := by
    rw [Registry.eligible, Registry.getElem?_tryModule, Registry.eligible]
    cases registry[j]? with
    | none => simp
    | some slot =>
      by_cases here : j = i <;> simp [here, Slot.candidate, Slot.tried]
  obtain ⟨sorted, distinct, mem⟩ := ranked
  rw [List.nodup_cons] at distinct
  refine ⟨(List.pairwise_cons.mp sorted).2.imp ?_, distinct.2, ?_⟩
  · intro j k before
    unfold Registry.Precedes at before ⊢
    rwa [priority, priority]
  · intro j
    have := mem j
    rw [List.mem_cons] at this
    rw [eligible, Bool.and_eq_true, ← this]
    constructor
    · intro later
      exact ⟨by simpa using fun same : j = i => distinct.1 (same ▸ later), .inr later⟩
    · rintro ⟨other, same | later⟩
      · simp [same] at other
      · exact later

theorem Registry.TriedSince.cons {registry' : Registry} {tried : List Nat}
    (later : (registry.tryModule i).TriedSince registry' tried) (new : i ∉ tried) :
    registry.TriedSince registry' (i :: tried) := by
  intro j
  rw [later j, Registry.getElem?_tryModule, Option.map_map]
  congr 1
  funext slot
  by_cases here : j = i
  · subst here
    simp [new]
  · simp [here]

theorem mem_triedUntil {activates : Nat → Bool} {j : Nat} (tried : j ∈ triedUntil activates order) :
    j ∈ order := by
  induction order with
  | nil => exact tried
  | cons i order ih =>
    rw [triedUntil] at tried
    split at tried
    · rw [List.mem_singleton.mp tried]
      exact List.mem_cons_self
    · rcases List.mem_cons.mp tried with same | later
      · rw [same]
        exact List.mem_cons_self
      · exact List.mem_cons_of_mem _ (ih later)

theorem nodup_triedUntil {activates : Nat → Bool} (distinct : order.Nodup) :
    (triedUntil activates order).Nodup := by
  induction order with
  | nil => exact List.nodup_nil
  | cons i order ih =>
    rw [List.nodup_cons] at distinct
    rw [triedUntil]
    split
    · exact List.nodup_singleton i
    · exact List.nodup_cons.mpr ⟨fun later => distinct.1 (mem_triedUntil later), ih distinct.2⟩

/-- **`module_activate_best`** follows the order up to the first success. -/
theorem Registry.Ranked.activateBest {rounds : Nat} (ranked : registry.Ranked kind order)
    (enough : order.length < rounds) :
    ∃ registry', activateBestLoop kind rounds registry =
        some (registry', order.any registry.activates, triedUntil registry.activates order) ∧
      registry.TriedSince registry' (triedUntil registry.activates order) := by
  induction order generalizing registry rounds with
  | nil =>
    obtain ⟨rounds, rfl⟩ := Nat.exists_eq_succ_of_ne_zero (Nat.ne_of_gt enough)
    refine ⟨registry, ?_, fun j => by simp [triedUntil]⟩
    rw [activateBestLoop, ranked.find]
    rfl
  | cons i order ih =>
    obtain ⟨rounds, rfl⟩ := Nat.exists_eq_succ_of_ne_zero (Nat.ne_of_gt (Nat.zero_lt_of_lt enough))
    have same : (registry.tryModule i).activates = registry.activates :=
      funext (registry.activates_tryModule i)
    have new := (List.nodup_cons.mp ranked.distinct).1
    rw [activateBestLoop, ranked.find, triedUntil, List.any_cons]
    dsimp only [List.head?_cons]
    cases activates : registry.activates i with
    | true =>
      refine ⟨registry.tryModule i, ?_, ?_⟩
      · rw [Registry.tryModule, if_pos activates]
        rfl
      · intro j
        rw [registry.getElem?_tryModule]
        simp
    | false =>
      obtain ⟨registry', done, since⟩ := ih ranked.rest (Nat.lt_of_succ_lt_succ enough)
      rw [same] at done since
      have marked : registry.markAttempted i = registry.tryModule i := by
        rw [Registry.tryModule, if_neg (by rw [activates]; exact Bool.false_ne_true)]
      refine ⟨registry', ?_, since.cons fun later => new (mem_triedUntil later)⟩
      rw [marked, if_neg Bool.false_ne_true, done]
      rfl

/-- **`module_activate_all`** follows the whole order. -/
theorem Registry.Ranked.activateAll {rounds : Nat} (ranked : registry.Ranked kind order)
    (enough : order.length < rounds) (activated : Nat) :
    ∃ registry', activateAllLoop kind rounds activated registry =
        some (registry', activated + order.countP registry.activates, order) ∧
      registry.TriedSince registry' order := by
  induction order generalizing registry rounds activated with
  | nil =>
    obtain ⟨rounds, rfl⟩ := Nat.exists_eq_succ_of_ne_zero (Nat.ne_of_gt enough)
    refine ⟨registry, ?_, fun j => by simp⟩
    rw [activateAllLoop, ranked.find]
    rfl
  | cons i order ih =>
    obtain ⟨rounds, rfl⟩ := Nat.exists_eq_succ_of_ne_zero (Nat.ne_of_gt (Nat.zero_lt_of_lt enough))
    have same : (registry.tryModule i).activates = registry.activates :=
      funext (registry.activates_tryModule i)
    have new := (List.nodup_cons.mp ranked.distinct).1
    rw [activateAllLoop, ranked.find]
    dsimp only [List.head?_cons]
    obtain ⟨registry', done, since⟩ := ih ranked.rest (Nat.lt_of_succ_lt_succ enough)
      (activated + if registry.activates i then 1 else 0)
    rw [same] at done
    refine ⟨registry', ?_, since.cons new⟩
    rw [List.countP_cons, Nat.add_comm (order.countP _), ← Nat.add_assoc]
    unfold Registry.tryModule at done
    cases activates : registry.activates i with
    | true =>
      rw [activates, if_pos rfl, if_pos rfl] at done
      rw [if_pos rfl, done, if_pos rfl]
      rfl
    | false =>
      rw [activates, if_neg Bool.false_ne_true, if_neg Bool.false_ne_true] at done
      rw [if_neg Bool.false_ne_true, Nat.add_zero] at *
      rw [done]
      rfl

end Order

/-! ## Over whole runs -/

/-- The slots tried so far: each once, and they are those that are marked; active
are those of them that activated. -/
structure Registry.Inv (registry : Registry) (trace : List Nat) : Prop where
  distinct : trace.Nodup
  inside : ∀ i ∈ trace, i < registry.length
  attempted : ∀ i slot, registry[i]? = some slot → (slot.attempted = true ↔ i ∈ trace)
  active : ∀ i slot, registry[i]? = some slot →
    (slot.active = true ↔ i ∈ trace ∧ slot.activates = true)

section Runs

variable {registry : Registry} {trace : List Nat}

theorem Registry.TriedSince.length {registry' : Registry} {tried : List Nat}
    (since : registry.TriedSince registry' tried) : registry'.length = registry.length := by
  have same (n : Nat) : registry'.length ≤ n ↔ registry.length ≤ n := by
    rw [← List.getElem?_eq_none_iff, ← List.getElem?_eq_none_iff, since n, Option.map_eq_none_iff]
  have := same registry.length
  have := same registry'.length
  omega

/-- A call tries slots that were not tried before. -/
theorem Registry.Inv.tried {registry' : Registry} {tried : List Nat} {kind : ModuleKind}
    (inv : registry.Inv trace) (since : registry.TriedSince registry' tried)
    (distinct : tried.Nodup) (eligible : ∀ i ∈ tried, registry.eligible kind i = true) :
    registry'.Inv (trace ++ tried) := by
  have new (i : Nat) (mem : i ∈ tried) : i ∉ trace := by
    intro old
    have eligible := eligible i mem
    have found := List.getElem?_eq_getElem (inv.inside i old)
    rw [Registry.eligible, found] at eligible
    have marked := (inv.attempted i _ found).mpr old
    simp [Slot.candidate, marked] at eligible
  -- a slot now, and what it was before the call
  have before (i : Nat) (slot : Slot) (found : registry'[i]? = some slot) :
      ∃ old, registry[i]? = some old ∧ (if i ∈ tried then old.tried else old) = slot := by
    rw [since i] at found
    exact Option.map_eq_some_iff.mp found
  refine ⟨List.nodup_append.mpr ⟨inv.distinct, distinct, ?_⟩, ?_, ?_, ?_⟩
  · rintro i old j mem rfl
    exact new i mem old
  · intro i mem
    rw [since.length]
    rcases List.mem_append.mp mem with old | mem
    · exact inv.inside i old
    · exact Registry.eligible_lt (eligible i mem)
  · intro i slot found
    obtain ⟨old, was, rfl⟩ := before i slot found
    have attempted := inv.attempted i old was
    rw [List.mem_append, ← attempted]
    by_cases mem : i ∈ tried
    · simp [mem, Slot.tried]
    · simp [mem]
  · intro i slot found
    obtain ⟨old, was, rfl⟩ := before i slot found
    have active := inv.active i old was
    rw [List.mem_append]
    by_cases mem : i ∈ tried
    · have quiet : ¬ old.active = true := fun on => new i mem (active.mp on).1
      rw [if_pos mem]
      simp [mem, quiet, Slot.tried, Slot.activates]
    · rw [if_neg mem, active]
      simp [mem]

theorem Registry.Inv.register (inv : registry.Inv trace) (module : Option ModuleDescriptor) :
    Registry.Inv (moduleRegister registry module) trace := by
  unfold moduleRegister
  split
  · exact inv
  split
  · exact inv
  next module _ =>
  have cases (i : Nat) (slot : Slot)
      (found : (registry ++ [⟨module, false, false⟩])[i]? = some slot) :
      registry[i]? = some slot ∨ i = registry.length ∧ slot = ⟨module, false, false⟩ := by
    rcases Nat.lt_or_ge i registry.length with old | new
    · rw [List.getElem?_append_left old] at found
      exact .inl found
    · have last := (List.getElem?_eq_some_iff.mp found).1
      rw [List.length_append, List.length_singleton] at last
      have here : i = registry.length := by omega
      subst here
      rw [List.getElem?_concat_length] at found
      exact .inr ⟨rfl, (Option.some.inj found).symm⟩
  have fresh : registry.length ∉ trace := fun mem => Nat.lt_irrefl _ (inv.inside _ mem)
  refine ⟨inv.distinct, ?_, ?_, ?_⟩
  · intro i mem
    rw [List.length_append, List.length_singleton]
    exact Nat.lt_succ_of_lt (inv.inside i mem)
  · intro i slot found
    rcases cases i slot found with old | ⟨rfl, rfl⟩
    · exact inv.attempted i slot old
    · simp [fresh]
  · intro i slot found
    rcases cases i slot found with old | ⟨rfl, rfl⟩
    · exact inv.active i slot old
    · simp [fresh]

/-- What the two loops do from the whole order, with as many rounds as they have. -/
theorem Registry.length_ranked_lt (registry : Registry) (kind : ModuleKind) :
    (registry.ranked kind).length < registry.length + 1 := by
  rw [Registry.ranked, List.length_insertionSort]
  exact Nat.lt_succ_of_le ((List.length_filter_le _ _).trans (List.length_range).le)

theorem Registry.Inv.exec (inv : registry.Inv trace) (op : RegistryOp) :
    ∃ registry' tried, op.exec registry = some (registry', tried) ∧
      registry'.Inv (trace ++ tried) := by
  cases op with
  | register module =>
    refine ⟨_, [], rfl, ?_⟩
    rw [List.append_nil]
    exact inv.register module
  | activateBest kind =>
    have ranked := registry.ranked_ranked kind
    obtain ⟨registry', done, since⟩ := ranked.activateBest (registry.length_ranked_lt kind)
    refine ⟨registry', _, ?_, inv.tried since (nodup_triedUntil ranked.distinct) fun i mem =>
      (ranked.mem i).mp (mem_triedUntil mem)⟩
    rw [RegistryOp.exec, moduleActivateBest, done]
    rfl
  | activateAll kind =>
    have ranked := registry.ranked_ranked kind
    obtain ⟨registry', done, since⟩ := ranked.activateAll (registry.length_ranked_lt kind) 0
    refine ⟨registry', _, ?_, inv.tried since ranked.distinct fun i mem => (ranked.mem i).mp mem⟩
    rw [RegistryOp.exec, moduleActivateAll, done]
    rfl

theorem Registry.Inv.run (inv : registry.Inv trace) (ops : List RegistryOp) :
    ∃ registry' trace', runRegistry registry trace ops = some (registry', trace') ∧
      registry'.Inv trace' := by
  induction ops generalizing registry trace with
  | nil => exact ⟨registry, trace, rfl, inv⟩
  | cons op ops ih =>
    obtain ⟨registry', tried, done, inv'⟩ := inv.exec op
    obtain ⟨registry'', trace'', ran, inv''⟩ := ih inv'
    refine ⟨registry'', trace'', ?_, inv''⟩
    rw [runRegistry, done]
    exact ran

/-- Counting the entries of a list through their indices. -/
theorem countP_eq_length_filter_range (registry : Registry) (p : Slot → Bool) :
    registry.countP p =
      ((List.range registry.length).filter fun i => (registry[i]?).elim false p).length := by
  induction registry using List.reverseRecOn with
  | nil => rfl
  | append_singleton registry slot ih =>
    rw [List.countP_append, List.length_append, List.length_singleton, List.range_succ,
      List.filter_append, List.length_append, ih]
    congr 1
    · congr 1
      refine List.filter_congr fun i mem => ?_
      rw [List.getElem?_append_left (List.mem_range.mp mem)]
    · cases found : p slot <;> simp [found]

/-- A slot whose module is of the kind and activates. -/
def Registry.succeeds (registry : Registry) (kind : ModuleKind) (i : Nat) : Bool :=
  (registry[i]?).elim false fun slot => slot.activates && moduleMatchesKind slot.module kind

theorem Registry.Inv.activeCount (inv : registry.Inv trace) (kind : ModuleKind) :
    moduleActiveCount kind registry = trace.countP (registry.succeeds kind) := by
  rw [moduleActiveCount, countP_eq_length_filter_range, List.countP_eq_length_filter]
  refine List.Perm.length_eq ((List.perm_ext_iff_of_nodup (List.nodup_range.filter _)
    (inv.distinct.filter _)).mpr fun i => ?_)
  rw [List.mem_filter, List.mem_filter, List.mem_range]
  constructor
  · rintro ⟨inside, on⟩
    rw [List.getElem?_eq_getElem inside, Option.elim_some, Bool.and_eq_true] at on
    have active := (inv.active i _ (List.getElem?_eq_getElem inside)).mp on.1
    refine ⟨active.1, ?_⟩
    rw [Registry.succeeds, List.getElem?_eq_getElem inside, Option.elim_some, active.2, on.2]
    rfl
  · rintro ⟨mem, succeeds⟩
    have inside := inv.inside i mem
    rw [Registry.succeeds, List.getElem?_eq_getElem inside, Option.elim_some,
      Bool.and_eq_true] at succeeds
    refine ⟨inside, ?_⟩
    rw [List.getElem?_eq_getElem inside, Option.elim_some, succeeds.2,
      (inv.active i _ (List.getElem?_eq_getElem inside)).mpr ⟨mem, succeeds.1⟩]
    rfl

end Runs

/-- **Modules are tried once, by priority.**  After any calls: no slot has been
tried twice, those tried are the ones marked, and the active modules of a kind are
those that were tried and activated.  A call that follows tries the eligible slots
of its kind in the order of `Registry.ranked`: `module_activate_best` up to the
first that activates, if there is one, and `module_activate_all` all of them; the
other slots are left as they are. -/
theorem modules_tried_by_priority (ops : List RegistryOp) :
    ∃ registry trace, runRegistry [] [] ops = some (registry, trace) ∧
      trace.Nodup ∧
      (∀ i slot, registry[i]? = some slot → (slot.attempted = true ↔ i ∈ trace)) ∧
      (∀ kind, moduleActiveCount kind registry = trace.countP (registry.succeeds kind)) ∧
      ∀ kind,
        (∃ registry', moduleActivateBest kind registry =
            some (registry', (registry.ranked kind).any registry.activates,
              triedUntil registry.activates (registry.ranked kind)) ∧
          ∀ j ∉ triedUntil registry.activates (registry.ranked kind),
            registry'[j]? = registry[j]?) ∧
        ∃ registry', moduleActivateAll kind registry =
            some (registry', (registry.ranked kind).countP registry.activates,
              registry.ranked kind) ∧
          ∀ j ∉ registry.ranked kind, registry'[j]? = registry[j]? := by
  have start : Registry.Inv [] [] :=
    ⟨List.nodup_nil, nofun, fun i slot found => by simp at found,
      fun i slot found => by simp at found⟩
  obtain ⟨registry, trace, ran, inv⟩ := start.run ops
  refine ⟨registry, trace, ran, inv.distinct, inv.attempted, inv.activeCount, fun kind => ?_⟩
  have ranked := registry.ranked_ranked kind
  have enough := registry.length_ranked_lt kind
  have untouched {registry' : Registry} {tried : List Nat}
      (since : registry.TriedSince registry' tried) (j : Nat) (not : j ∉ tried) :
      registry'[j]? = registry[j]? := by
    rw [since j]
    simp [not]
  obtain ⟨best, bestDone, bestSince⟩ := ranked.activateBest enough
  obtain ⟨all, allDone, allSince⟩ := ranked.activateAll enough 0
  rw [Nat.zero_add] at allDone
  exact ⟨⟨best, bestDone, untouched bestSince⟩, ⟨all, allDone, untouched allSince⟩⟩

end Dfos.Modules
