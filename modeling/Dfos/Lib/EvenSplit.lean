import Mathlib.Order.Interval.Finset.Nat
import Mathlib.Tactic.Common

/-!
# Splitting a range into nearly equal parts

`evenStart n k i` is where part `i` starts when `[0, n)` is cut into `k`
consecutive parts whose lengths differ by at most one, the longer ones first.
-/

namespace Dfos.Lib

/-- The start of part `i` of `k` when `n` items are shared out. -/
def evenStart (n k i : Nat) : Nat := i * (n / k) + min i (n % k)

variable {n k i j f : Nat}

theorem evenStart_zero (n k : Nat) : evenStart n k 0 = 0 := by
  simp [evenStart]

/-- The first `n % k` parts have one item more than the others. -/
theorem evenStart_succ (n k i : Nat) :
    evenStart n k (i + 1) = evenStart n k i + (n / k + if i < n % k then 1 else 0) := by
  unfold evenStart
  rw [Nat.add_mul, Nat.one_mul]
  split <;> omega

theorem evenStart_end (positive : 0 < k) : evenStart n k k = n := by
  unfold evenStart
  have short : n % k < k := Nat.mod_lt n positive
  rw [Nat.min_eq_right short.le]
  exact Nat.div_add_mod n k

theorem evenStart_mono (le : i ≤ j) : evenStart n k i ≤ evenStart n k j := by
  induction j, le using Nat.le_induction with
  | base => exact le_refl _
  | succ j _ ih =>
    rw [evenStart_succ]
    exact ih.trans (Nat.le_add_right _ _)

theorem exists_part (bound : f < evenStart n k j) :
    ∃ i < j, evenStart n k i ≤ f ∧ f < evenStart n k (i + 1) := by
  induction j with
  | zero => rw [evenStart_zero] at bound; omega
  | succ j ih =>
    by_cases below : f < evenStart n k j
    · obtain ⟨i, hi, part⟩ := ih below
      exact ⟨i, by omega, part⟩
    · exact ⟨j, by omega, by omega, bound⟩

theorem part_unique (first : evenStart n k i ≤ f ∧ f < evenStart n k (i + 1))
    (second : evenStart n k j ≤ f ∧ f < evenStart n k (j + 1)) : i = j := by
  rcases Nat.lt_trichotomy i j with less | same | more
  · have := evenStart_mono (n := n) (k := k) (show i + 1 ≤ j from less)
    omega
  · exact same
  · have := evenStart_mono (n := n) (k := k) (show j + 1 ≤ i from more)
    omega

end Dfos.Lib
