import Mathlib.Data.Finset.Basic

/-!
# Ledgers of exclusive grants

A ledger records which items each grant still holds and which are reserved.
`Books taken` says that it accounts for exactly the taken items, with no item
under two heads.
-/

namespace Dfos.Lib

/-- The items of each grant that were not given back, newest grant first, and
the reserved items. -/
structure Ledger (α : Type) where
  live : List (Finset α)
  reserved : Finset α

namespace Ledger

variable {α : Type}

def grant (l : Ledger α) (items : Finset α) : Ledger α := { l with live := items :: l.live }

def reserve [DecidableEq α] (l : Ledger α) (items : Finset α) : Ledger α :=
  { l with reserved := l.reserved ∪ items }

/-- Given back items leave every grant and the reserve. -/
def release [DecidableEq α] (l : Ledger α) (items : Finset α) : Ledger α where
  live := l.live.map (· \ items)
  reserved := l.reserved \ items

/-- The ledger accounts for the taken items, each under one head. -/
structure Books (l : Ledger α) (taken : α → Prop) : Prop where
  disjoint : l.live.Pairwise Disjoint
  unreserved : ∀ held ∈ l.live, Disjoint held l.reserved
  accounts : ∀ a, taken a ↔ a ∈ l.reserved ∨ ∃ held ∈ l.live, a ∈ held

variable {l : Ledger α} {taken taken' : α → Prop} {items : Finset α}

section

variable (books : Books l taken)
include books

theorem Books.taken_of_held {held : Finset α} (live : held ∈ l.live)
    {a : α} (member : a ∈ held) : taken a :=
  (books.accounts a).mpr (Or.inr ⟨held, live, member⟩)

theorem Books.taken_of_reserved {a : α} (member : a ∈ l.reserved) :
    taken a :=
  (books.accounts a).mpr (Or.inl member)

theorem Books.congr (same : ∀ a, taken' a ↔ taken a) :
    Books l taken' where
  disjoint := books.disjoint
  unreserved := books.unreserved
  accounts a := (same a).trans (books.accounts a)

theorem Books.grant (fresh : ∀ a ∈ items, ¬ taken a)
    (after : ∀ a, taken' a ↔ taken a ∨ a ∈ items) : Books (l.grant items) taken' where
  disjoint := by
    apply List.Pairwise.cons _ books.disjoint
    intro held live
    rw [Finset.disjoint_left]
    intro a granted member
    exact fresh a granted (books.taken_of_held live member)
  unreserved := by
    intro held live
    rcases List.mem_cons.mp live with new | old
    · rw [new, Finset.disjoint_left]
      intro a granted member
      exact fresh a granted (books.taken_of_reserved member)
    · exact books.unreserved held old
  accounts a := by
    rw [after, books.accounts a, Ledger.grant]
    simp only [List.mem_cons, exists_eq_or_imp]
    exact or_assoc.trans (or_congr_right or_comm)

theorem Books.reserve [DecidableEq α] (fresh : ∀ a ∈ items, ¬ taken a)
    (after : ∀ a, taken' a ↔ taken a ∨ a ∈ items) : Books (l.reserve items) taken' where
  disjoint := books.disjoint
  unreserved := by
    intro held live
    refine Finset.disjoint_union_right.mpr ⟨books.unreserved held live, ?_⟩
    rw [Finset.disjoint_left]
    intro a member new
    exact fresh a new (books.taken_of_held live member)
  accounts a := by
    rw [after, books.accounts a, Ledger.reserve]
    simp only [Finset.mem_union]
    exact or_right_comm

theorem Books.release [DecidableEq α] (items : Finset α)
    (after : ∀ a, taken' a ↔ taken a ∧ a ∉ items) : Books (l.release items) taken' where
  disjoint := by
    apply List.pairwise_map.mpr
    apply books.disjoint.imp
    intro left right apart
    exact apart.mono Finset.sdiff_subset Finset.sdiff_subset
  unreserved := by
    intro held live
    obtain ⟨before, member, rfl⟩ := List.mem_map.mp live
    exact (books.unreserved before member).mono Finset.sdiff_subset Finset.sdiff_subset
  accounts a := by
    rw [after, books.accounts a, Ledger.release]
    simp only [List.mem_map, exists_exists_and_eq_and, Finset.mem_sdiff]
    constructor
    · rintro ⟨reserved | ⟨held, live, member⟩, kept⟩
      · exact Or.inl ⟨reserved, kept⟩
      · exact Or.inr ⟨held, live, member, kept⟩
    · rintro (⟨reserved, kept⟩ | ⟨held, live, member, kept⟩)
      · exact ⟨Or.inl reserved, kept⟩
      · exact ⟨Or.inr ⟨held, live, member⟩, kept⟩

end

end Ledger

end Dfos.Lib
