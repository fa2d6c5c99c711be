import Mathlib
import Dfos.Vma.Invariant

/-!
# A VMA tree is a set of disjoint intervals

`stored v id` is the set of intervals a tree holds.  The theorems of this
module give each call of the interface as an operation on that set; only the
state of the node pool shows through, in the condition under which an insertion
is accepted.
-/

namespace Dfos.Vma

open Dfos.Lib

/-- The intervals tree `id` holds. -/
def Vmas.stored (v : Vmas) (id : Nat) : Set Interval :=
  { i | i ∈ intervals (v.trees id).root }

/-- The addresses of an interval. -/
def Interval.addresses (i : Interval) : Set Nat := Set.Ico i.start i.stop

theorem Interval.disjoint_iff {i j : Interval} (hi : i.start < i.stop) (hj : j.start < j.stop) :
    Disjoint i.addresses j.addresses ↔ i.stop ≤ j.start ∨ j.stop ≤ i.start := by
  rw [Interval.addresses, Interval.addresses, Set.Ico_disjoint_Ico]
  omega

/-- Two different stored intervals share no address. -/
theorem Ordered.disjoint {l : List Interval} (ordered : Ordered l) {i j : Interval}
    (hi : i ∈ l) (hj : j ∈ l) (distinct : i ≠ j) : Disjoint i.addresses j.addresses := by
  rw [Interval.disjoint_iff (ordered.valid i hi) (ordered.valid j hj)]
  have sym : Std.Symm fun i j : Interval => i.stop ≤ j.start ∨ j.stop ≤ i.start :=
    ⟨fun _ _ => Or.symm⟩
  have apart : l.Pairwise fun i j => i.stop ≤ j.start ∨ j.stop ≤ i.start :=
    ordered.apart.imp Or.inl
  exact apart.forall hi hj distinct

section Calls

variable {tree : VmaTree} {pool : Pool} {start stop flags : Nat}

/-- `vma_tree_insert` accepts an interval that meets no stored one, as long as
the pool has a node. -/
theorem vmaTreeInsert_accepts (wf : tree.WellFormed) :
    (vmaTreeInsert tree pool start stop flags).2.2 = true ↔
      start < stop ∧ pool.available ≠ [] ∧
        ∀ i ∈ intervals tree.root,
          Disjoint (Interval.mk start stop flags).addresses i.addresses := by
  constructor
  · intro accepted
    have valid : start < stop := by
      by_contra invalid
      rw [vmaTreeInsert, if_pos (by omega)] at accepted
      cases accepted
    cases room : pool.available with
    | nil =>
      rw [vmaTreeInsert_empty room] at accepted
      cases accepted
    | cons slot rest =>
      refine ⟨valid, List.cons_ne_nil _ _, fun i hi => ?_⟩
      rw [vmaTreeInsert_alloc valid room] at accepted
      dsimp only at accepted
      split at accepted
      · rename_i inserted
        obtain ⟨before, after, split, -, lower, upper⟩ :=
          nodeInsert_inserted wf.ordered inserted
        rw [Interval.disjoint_iff valid (wf.ordered.valid i hi)]
        obtain ⟨a, ha, rfl⟩ := List.mem_map.mp hi
        rw [split] at ha
        rcases List.mem_append.mp ha with ha | ha
        · exact Or.inr (lower a ha)
        · exact Or.inl (upper a ha)
      · cases accepted
  · rintro ⟨valid, room, apart⟩
    obtain ⟨slot, rest, room⟩ := List.exists_cons_of_ne_nil room
    rw [vmaTreeInsert_alloc valid room]
    dsimp only
    split
    · rfl
    · rename_i rejected
      obtain ⟨i, hi, low, high⟩ := nodeInsert_rejected (by simpa using rejected)
      have := (Interval.disjoint_iff valid (wf.ordered.valid i hi)).mp (apart i hi)
      dsimp only at low high this
      omega

/-- An accepted interval is added, a refused one changes nothing. -/
theorem mem_intervals_insert (wf : tree.WellFormed) (i : Interval) :
    i ∈ intervals (vmaTreeInsert tree pool start stop flags).1.root ↔
      i ∈ intervals tree.root ∨
        (vmaTreeInsert tree pool start stop flags).2.2 = true ∧ i = ⟨start, stop, flags⟩ := by
  by_cases valid : start < stop
  · cases room : pool.available with
    | nil =>
      rw [vmaTreeInsert_empty room]
      simp
    | cons slot rest =>
      rw [vmaTreeInsert_alloc valid room]
      dsimp only
      split
      · rename_i inserted
        obtain ⟨before, after, split, result, -, -⟩ :=
          nodeInsert_inserted wf.ordered inserted
        simp only [intervals, result, split, List.map_append, List.map_cons, List.mem_append,
          List.mem_cons, true_and]
        tauto
      · simp
  · rw [vmaTreeInsert, if_pos (by omega)]
    simp

/-- `vma_tree_remove` succeeds exactly on a stored interval. -/
theorem vmaTreeRemove_accepts (wf : tree.WellFormed)
    (few : tree.root.size ≤ vmaMaxNodes) :
    (vmaTreeRemove tree pool start stop).2.2 = true ↔
      ∃ i ∈ intervals tree.root, i.start = start ∧ i.stop = stop := by
  constructor
  · intro removed
    by_contra stored
    rw [vmaTreeRemove_missing wf few fun i hi same => stored ⟨i, hi, same⟩] at removed
    cases removed
  · intro stored
    exact (nodeRemove_removed wf.ordered stored pool).removed

/-- A removal takes out the interval with these bounds and no other. -/
theorem mem_intervals_remove (wf : tree.WellFormed) (few : tree.root.size ≤ vmaMaxNodes)
    (i : Interval) :
    i ∈ intervals (vmaTreeRemove tree pool start stop).1.root ↔
      i ∈ intervals tree.root ∧ ¬ (i.start = start ∧ i.stop = stop) := by
  by_cases stored : ∃ i ∈ intervals tree.root, i.start = start ∧ i.stop = stop
  · obtain ⟨-, ⟨before, j, after, split, js, je, rest⟩, -⟩ :=
      nodeRemove_removed wf.ordered stored pool
    have ordered := wf.ordered
    simp only [vmaTreeRemove, rest, split, List.mem_append, List.mem_cons]
    rw [split] at ordered
    constructor
    · intro hi
      refine ⟨by tauto, fun same => ?_⟩
      -- another interval with this start would be the removed one itself
      obtain ⟨-, -, valid, lower, upper⟩ := ordered_append_cons.mp ordered
      rcases hi with hi | hi
      · have := lower i hi
        have := ordered.valid i (by simp [hi])
        omega
      · have := upper i hi
        omega
    · rintro ⟨hi | rfl | hi, other⟩
      · exact Or.inl hi
      · exact absurd ⟨js, je⟩ other
      · exact Or.inr hi
  · rw [vmaTreeRemove_missing wf few fun i hi same => stored ⟨i, hi, same⟩]
    exact ⟨fun hi => ⟨hi, fun same => stored ⟨i, hi, same⟩⟩, fun hi => hi.1⟩

/-- `vma_tree_first` reports the interval with the least start. -/
theorem vmaTreeFirst_eq_some (wf : tree.WellFormed) {i : Interval} :
    vmaTreeFirst tree = some i ↔
      i ∈ intervals tree.root ∧ ∀ j ∈ intervals tree.root, i.start ≤ j.start := by
  have head : vmaTreeFirst tree = (intervals tree.root).head? := by
    rw [vmaTreeFirst, nodeLeftmost_eq_head, intervals, List.head?_map]
  rw [head]
  cases all : intervals tree.root with
  | nil => simp
  | cons first rest =>
    have ordered := wf.ordered
    rw [all] at ordered
    have least : ∀ j ∈ first :: rest, first.start ≤ j.start := by
      intro j hj
      rcases List.mem_cons.mp hj with rfl | hj
      · exact Nat.le_refl _
      · have := (List.pairwise_cons.mp ordered.apart).1 j hj
        have := ordered.valid first (by simp)
        omega
    rw [List.head?_cons, Option.some_inj]
    constructor
    · rintro rfl
      exact ⟨by simp, least⟩
    · rintro ⟨hi, lowest⟩
      refine ordered.eq_of_start_eq (by simp) hi ?_
      have := least i hi
      have := lowest first (by simp)
      omega

end Calls

/-! ## The interface over reachable states -/

theorem Vmas.exec_insert_stored (v : Vmas) (id start stop flags : Nat) :
    (v.exec (.insert id start stop flags)).1.stored id =
      { i | i ∈ intervals (vmaTreeInsert (v.trees id) v.pool start stop flags).1.root } := by
  simp only [Vmas.stored, Vmas.exec, Vmas.setTree, if_true]

theorem Vmas.exec_remove_stored (v : Vmas) (id start stop : Nat) :
    (v.exec (.remove id start stop)).1.stored id =
      { i | i ∈ intervals (vmaTreeRemove (v.trees id) v.pool start stop).1.root } := by
  simp only [Vmas.stored, Vmas.exec, Vmas.setTree, if_true]

theorem Vmas.mem_stored_insert {v : Vmas} (inv : v.Inv) (id start stop flags : Nat)
    (i : Interval) :
    i ∈ (v.exec (.insert id start stop flags)).1.stored id ↔
      i ∈ v.stored id ∨
        (v.exec (.insert id start stop flags)).2 = true ∧ i = ⟨start, stop, flags⟩ := by
  rw [Vmas.exec_insert_stored]
  exact mem_intervals_insert (inv.wellFormed id) i

theorem Vmas.mem_stored_remove {v : Vmas} (inv : v.Inv) (id start stop : Nat) (i : Interval) :
    i ∈ (v.exec (.remove id start stop)).1.stored id ↔
      i ∈ v.stored id ∧ ¬ (i.start = start ∧ i.stop = stop) := by
  rw [Vmas.exec_remove_stored]
  exact mem_intervals_remove (inv.wellFormed id) (inv.size_le id) i

/-- **The VMA tree implements a set of disjoint intervals.**  In every state
that calls reach, insertion, removal, lookup and first act on the stored set as
they should, and a refused call leaves it alone. -/
theorem vma_tree_is_interval_set (ops : List VmaOp) (id : Nat) :
    let v := Vmas.init.run ops
    let S := v.stored id
    (∀ i ∈ S, ∀ j ∈ S, i ≠ j → Disjoint i.addresses j.addresses) ∧
    (∀ start stop flags,
      let call := v.exec (.insert id start stop flags)
      (call.2 = true ↔ start < stop ∧ v.pool.available ≠ [] ∧
        ∀ i ∈ S, Disjoint (Interval.mk start stop flags).addresses i.addresses) ∧
      (call.2 = true → call.1.stored id = insert ⟨start, stop, flags⟩ S) ∧
      (call.2 = false → call.1.stored id = S)) ∧
    (∀ start stop,
      let call := v.exec (.remove id start stop)
      (call.2 = true ↔ ∃ i ∈ S, i.start = start ∧ i.stop = stop) ∧
      (call.2 = true → call.1.stored id = S \ { i | i.start = start ∧ i.stop = stop }) ∧
      (call.2 = false → call.1.stored id = S)) ∧
    (∀ address i, vmaTreeFind (v.trees id) address = some i ↔
      i ∈ S ∧ address ∈ i.addresses) ∧
    (∀ address, (vmaTreeFind (v.trees id) address).isSome ↔
      ∃ i ∈ S, address ∈ i.addresses) ∧
    (∀ i, vmaTreeFirst (v.trees id) = some i ↔ i ∈ S ∧ ∀ j ∈ S, i.start ≤ j.start) ∧
    ((vmaTreeFirst (v.trees id)).isSome ↔ S.Nonempty) := by
  intro v S
  have inv : v.Inv := Vmas.init_inv.run ops
  have wf := inv.wellFormed id
  have few := inv.size_le id
  have find (address : Nat) (i : Interval) :
      vmaTreeFind (v.trees id) address = some i ↔ i ∈ S ∧ address ∈ i.addresses :=
    nodeFind_eq_some wf.ordered
  refine ⟨fun i hi j hj => wf.ordered.disjoint hi hj, ?_, ?_, find, ?_, ?_, ?_⟩
  · intro start stop flags call
    have member (i : Interval) :
        i ∈ intervals (vmaTreeInsert (v.trees id) v.pool start stop flags).1.root ↔
          i ∈ intervals (v.trees id).root ∨
            (vmaTreeInsert (v.trees id) v.pool start stop flags).2.2 = true ∧
              i = ⟨start, stop, flags⟩ :=
      mem_intervals_insert wf i
    refine ⟨vmaTreeInsert_accepts wf, fun accepted => ?_, fun refused => ?_⟩
    · rw [Vmas.exec_insert_stored]
      ext i
      rw [Set.mem_ofPred_eq, member, Set.mem_insert_iff]
      have accepted' : (vmaTreeInsert (v.trees id) v.pool start stop flags).2.2 = true :=
        accepted
      simp only [accepted', true_and]
      exact or_comm
    · rw [Vmas.exec_insert_stored]
      ext i
      have refused' : (vmaTreeInsert (v.trees id) v.pool start stop flags).2.2 = false :=
        refused
      rw [Set.mem_ofPred_eq, member, refused']
      simp only [Bool.false_eq_true, false_and, or_false]
      rfl
  · intro start stop call
    have member (i : Interval) :
        i ∈ intervals (vmaTreeRemove (v.trees id) v.pool start stop).1.root ↔
          i ∈ intervals (v.trees id).root ∧ ¬ (i.start = start ∧ i.stop = stop) :=
      mem_intervals_remove wf few i
    have accepts : call.2 = true ↔
        ∃ i ∈ intervals (v.trees id).root, i.start = start ∧ i.stop = stop :=
      vmaTreeRemove_accepts wf few
    refine ⟨accepts, fun _ => ?_, fun refused => ?_⟩
    · rw [Vmas.exec_remove_stored]
      ext i
      rw [Set.mem_ofPred_eq, member]
      rfl
    · have none : ¬ ∃ i ∈ intervals (v.trees id).root, i.start = start ∧ i.stop = stop := by
        intro stored
        have := accepts.mpr stored
        exact Bool.false_ne_true (refused.symm.trans this)
      rw [Vmas.exec_remove_stored]
      ext i
      rw [Set.mem_ofPred_eq, member]
      exact ⟨fun h => h.1, fun hi => ⟨hi, fun same => none ⟨i, hi, same⟩⟩⟩
  · intro address
    rw [Option.isSome_iff_exists]
    exact exists_congr fun i => find address i
  · intro i
    exact vmaTreeFirst_eq_some wf
  · have head : vmaTreeFirst (v.trees id) = (intervals (v.trees id).root).head? := by
      rw [vmaTreeFirst, nodeLeftmost_eq_head, intervals, List.head?_map]
    rw [head, List.isSome_head?]
    exact ⟨List.exists_mem_of_ne_nil _, fun found => found.elim fun _ hi => List.ne_nil_of_mem hi⟩

end Dfos.Vma
