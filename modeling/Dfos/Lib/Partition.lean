import Mathlib.Algebra.BigOperators.Group.Finset.Basic
import Mathlib.Data.List.Nodup
import Mathlib.Data.List.Perm.Basic

/-!
# Slots shared out between a free list and owners

`Partition p free held` says that the slots satisfying `p` are exactly those on
the free list and those some owner holds, each of them once.
`Partition.transfer` is the rule for an operation that moves slots between the
free list and one owner.
-/

namespace Dfos.Lib

/-- Every slot of `p` is either free or held by one owner, and occurs once. -/
structure Partition {ι α : Type} (p : α → Prop) (free : List α) (held : ι → List α) : Prop where
  distinct : ∀ i, (free ++ held i).Nodup
  apart : ∀ i j, i ≠ j → ∀ k ∈ held i, k ∉ held j
  cover : ∀ k, p k ↔ k ∈ free ∨ ∃ i, k ∈ held i

namespace Partition

variable {ι α : Type} {p : α → Prop} {free : List α} {held : ι → List α}

/-- Nothing is held, and the free list has every slot once. -/
theorem of_free (distinct : free.Nodup) (cover : ∀ k, p k ↔ k ∈ free) :
    Partition p free (fun _ : ι => []) where
  distinct _ := by simpa using distinct
  apart _ _ _ _ hk := by cases hk
  cover k := by simpa using cover k

section

variable (part : Partition p free held)
include part

theorem held_nodup (i : ι) : (held i).Nodup :=
  (part.distinct i).of_append_right

theorem mem_of_held {i : ι} {k : α} (hk : k ∈ held i) : p k :=
  (part.cover k).mpr (Or.inr ⟨i, hk⟩)

theorem not_held_of_free {i : ι} {k : α} (hk : k ∈ free) :
    k ∉ held i :=
  fun hi => (List.nodup_append.mp (part.distinct i)).2.2 k hk k hi rfl

/-- The order of the free list does not matter. -/
theorem reorder {free' : List α} (perm : free'.Perm free) :
    Partition p free' held :=
  ⟨fun i => (perm.append_right _).nodup_iff.mpr (part.distinct i), part.apart,
    fun k => (part.cover k).trans (or_congr_left perm.mem_iff.symm)⟩

/-- **Moving slots between the free list and one owner.**  The two together
keep the same slots, so the whole is still a partition. -/
theorem transfer [DecidableEq ι] {i : ι} {free' held' : List α}
    (perm : (free' ++ held').Perm (free ++ held i)) :
    Partition p free' (fun j => if j = i then held' else held j) := by
  have mem (k : α) : k ∈ free' ∨ k ∈ held' ↔ k ∈ free ∨ k ∈ held i := by
    rw [← List.mem_append, perm.mem_iff, List.mem_append]
  have nodup : (free' ++ held').Nodup := perm.nodup_iff.mpr (part.distinct i)
  have other {j : ι} (hj : j ≠ i) {k : α} (hk : k ∈ held j) : k ∉ free' ∧ k ∉ held' := by
    constructor <;> intro hk'
    · rcases (mem k).mp (Or.inl hk') with inFree | inHeld
      · exact part.not_held_of_free inFree hk
      · exact part.apart j i hj k hk inHeld
    · rcases (mem k).mp (Or.inr hk') with inFree | inHeld
      · exact part.not_held_of_free inFree hk
      · exact part.apart j i hj k hk inHeld
  refine ⟨?_, ?_, ?_⟩
  · intro j
    by_cases hj : j = i
    · simpa only [hj, if_true] using nodup
    · simp only [hj, if_false]
      refine List.nodup_append.mpr ⟨nodup.of_append_left, part.held_nodup j, ?_⟩
      intro k hk k' hk' same
      subst same
      exact (other hj hk').1 hk
  · intro j j' distinct k hk hk'
    by_cases hj : j = i <;> by_cases hj' : j' = i <;> simp only [hj, hj', if_true, if_false] at hk hk'
    · exact distinct (hj.trans hj'.symm)
    · exact (other hj' hk').2 hk
    · exact (other hj hk).2 hk'
    · exact part.apart j j' distinct k hk hk'
  · intro k
    rw [part.cover k]
    constructor
    · rintro (inFree | ⟨j, hk⟩)
      · rcases (mem k).mpr (Or.inl inFree) with inFree' | inHeld'
        · exact Or.inl inFree'
        · exact Or.inr ⟨i, by simpa using inHeld'⟩
      · by_cases hj : j = i
        · subst hj
          rcases (mem k).mpr (Or.inr hk) with inFree' | inHeld'
          · exact Or.inl inFree'
          · exact Or.inr ⟨j, by simpa using inHeld'⟩
        · exact Or.inr ⟨j, by simpa only [hj, if_false] using hk⟩
    · rintro (inFree' | ⟨j, hk⟩)
      · exact ((mem k).mp (Or.inl inFree')).imp id fun h => ⟨i, h⟩
      · by_cases hj : j = i
        · simp only [hj, if_true] at hk
          exact ((mem k).mp (Or.inr hk)).imp id fun h => ⟨i, h⟩
        · simp only [hj, if_false] at hk
          exact Or.inr ⟨j, hk⟩

end

end Partition

end Dfos.Lib
