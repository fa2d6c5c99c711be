import Mathlib.Data.Nat.Fib.Basic
import Mathlib.Order.Lattice
import Mathlib.Tactic.Common

/-!
# Binary trees with a stored height

A node carries one item and a stored height.  `Avl` says that every stored
height is one more than the larger child's and that sibling heights differ by
at most one; `toList` is the in-order sequence of items.

* `Avl.fib_le`: an AVL tree of stored height `h` holds at least
  `fib (h + 2) - 1` items.
* `Avl.height_le_of_size`: hence a bound on the number of items bounds every
  stored height.
-/

namespace Dfos.Lib

/-- A binary tree whose nodes carry a stored height and one item. -/
inductive AvlTree (β : Type) where
  | nil
  | node (height : Int) (item : β) (left right : AvlTree β)
  deriving DecidableEq, Repr

namespace AvlTree

variable {β : Type}

/-- The height a node stores; an absent subtree counts as zero. -/
def storedHeight : AvlTree β → Int
  | nil => 0
  | node h _ _ _ => h

/-- The items in order. -/
def toList : AvlTree β → List β
  | nil => []
  | node _ a l r => l.toList ++ a :: r.toList

/-- The number of nodes. -/
def size : AvlTree β → Nat
  | nil => 0
  | node _ _ l r => l.size + r.size + 1

/-- The number of nodes on the longest path down. -/
def depth : AvlTree β → Nat
  | nil => 0
  | node _ _ l r => 1 + max l.depth r.depth

/-- Every stored height is one more than the larger child's, and the two
children's stored heights differ by at most one. -/
def Avl : AvlTree β → Prop
  | nil => True
  | node h _ l r =>
      h = 1 + max l.storedHeight r.storedHeight ∧
        l.storedHeight - r.storedHeight ≤ 1 ∧
        r.storedHeight - l.storedHeight ≤ 1 ∧ l.Avl ∧ r.Avl

@[simp] theorem storedHeight_nil : (nil : AvlTree β).storedHeight = 0 := rfl

@[simp] theorem storedHeight_node {h : Int} {a : β} {l r : AvlTree β} :
    (node h a l r).storedHeight = h := rfl

@[simp] theorem toList_nil : (nil : AvlTree β).toList = [] := rfl

@[simp] theorem toList_node {h : Int} {a : β} {l r : AvlTree β} :
    (node h a l r).toList = l.toList ++ a :: r.toList := rfl

@[simp] theorem avl_nil : (nil : AvlTree β).Avl := trivial

theorem length_toList (t : AvlTree β) : t.toList.length = t.size := by
  induction t with
  | nil => rfl
  | node h a l r ihl ihr =>
    simp only [toList_node, List.length_append, List.length_cons, ihl, ihr, size]
    omega

theorem Avl.height_nonneg {t : AvlTree β} (avl : t.Avl) : 0 ≤ t.storedHeight := by
  induction t with
  | nil => exact le_refl _
  | node h a l r ihl ihr =>
    obtain ⟨exact, _, _, left, _⟩ := avl
    have := ihl left
    rw [storedHeight_node, exact]
    omega

/-- The stored height is the depth. -/
theorem Avl.depth_eq {t : AvlTree β} (avl : t.Avl) : t.depth = t.storedHeight := by
  induction t with
  | nil => rfl
  | node h a l r ihl ihr =>
    obtain ⟨exact, _, _, left, right⟩ := avl
    rw [storedHeight_node, exact, ← ihl left, ← ihr right, depth]
    omega

/-- A balanced tree of height `h` has at least as many items as the sparsest
one, whose sizes follow the Fibonacci recurrence. -/
theorem Avl.fib_le {t : AvlTree β} (avl : t.Avl) :
    Nat.fib (t.storedHeight.toNat + 2) ≤ t.size + 1 := by
  induction t with
  | nil => simp [size]
  | node h a l r ihl ihr =>
    obtain ⟨exact, leftHigh, rightHigh, left, right⟩ := avl
    have leftNonneg := left.height_nonneg
    have rightNonneg := right.height_nonneg
    have leftBound := ihl left
    have rightBound := ihr right
    obtain ⟨m, hm⟩ := Int.eq_ofNat_of_zero_le leftNonneg
    obtain ⟨n, hn⟩ := Int.eq_ofNat_of_zero_le rightNonneg
    simp only [hm, hn, Int.toNat_natCast, storedHeight_node, size] at *
    -- the larger child contributes `fib (h + 1)`, the other at least `fib h`
    rcases Nat.le_total m n with small | small
    · have height : h.toNat + 2 = n + 3 := by omega
      rw [height, Nat.fib_add_two]
      have low : Nat.fib (n + 1) ≤ Nat.fib (m + 2) := Nat.fib_mono (by omega)
      have high : Nat.fib (n + 1 + 1) ≤ r.size + 1 := rightBound
      omega
    · have height : h.toNat + 2 = m + 3 := by omega
      rw [height, Nat.fib_add_two]
      have low : Nat.fib (m + 1) ≤ Nat.fib (n + 2) := Nat.fib_mono (by omega)
      have high : Nat.fib (m + 1 + 1) ≤ l.size + 1 := leftBound
      omega

/-- Fewer items than the sparsest tree of height `k + 1` means height at most
`k`. -/
theorem Avl.height_le_of_size {t : AvlTree β} (avl : t.Avl) {k : Nat}
    (few : t.size + 1 < Nat.fib (k + 3)) : t.storedHeight ≤ k := by
  by_contra high
  have nonneg := avl.height_nonneg
  have low : Nat.fib (k + 3) ≤ Nat.fib (t.storedHeight.toNat + 2) :=
    Nat.fib_mono (by omega)
  have := avl.fib_le
  omega

end AvlTree

end Dfos.Lib
