import Mathlib.Data.Nat.Bitwise
import Mathlib.Tactic.Common

/-!
# Machine words as naturals

Fixed-width unsigned arithmetic on `Nat` with an explicit reduction, and the
two's-complement narrowing of an `Int` to eight bits.  The lemmas state when
the reduction does nothing, and read masks bit by bit.
-/

namespace Dfos.Lib

/-- Addition of 32-bit words. -/
def u32Add (a b : Nat) : Nat := (a + b) % 2 ^ 32

/-- Subtraction of 32-bit words. -/
def u32Sub (a b : Nat) : Nat := (a + (2 ^ 32 - b % 2 ^ 32)) % 2 ^ 32

/-- Narrowing to a signed byte. -/
def toInt8 (x : Int) : Int := x.bmod (2 ^ 8)

theorem u32Add_lt (a b : Nat) : u32Add a b < 2 ^ 32 :=
  Nat.mod_lt _ (by decide)

theorem u32Add_eq {a b : Nat} (fits : a + b < 2 ^ 32) : u32Add a b = a + b :=
  Nat.mod_eq_of_lt fits

/-- A sum that is not below its first term did not wrap. -/
theorem u32Add_eq_of_le {a b : Nat} (first : a < 2 ^ 32) (second : b < 2 ^ 32)
    (le : a ≤ u32Add a b) : u32Add a b = a + b := by
  unfold u32Add at *
  omega

theorem u32Sub_eq {a b : Nat} (le : b ≤ a) (fits : a < 2 ^ 32) : u32Sub a b = a - b := by
  unfold u32Sub
  omega

/-- Masking the `b` bits above the low `a` ones. -/
theorem land_mask (x a b : Nat) : x &&& ((2 ^ b - 1) * 2 ^ a) = x / 2 ^ a % 2 ^ b * 2 ^ a := by
  apply Nat.eq_of_testBit_eq
  intro i
  simp only [Nat.testBit_and, Nat.testBit_mul_two_pow, Nat.testBit_two_pow_sub_one,
    Nat.testBit_mod_two_pow, Nat.testBit_div_two_pow]
  by_cases low : a ≤ i
  · simp [low, Bool.and_comm]
  · simp [low]

/-- The mask of the indices below `n` that satisfy `p`, built bit by bit. -/
theorem testBit_rangeMask (p : Nat → Bool) (n i : Nat) :
    ((List.range n).foldl (fun mask j => if p j then mask ||| (1 <<< j) else mask) 0).testBit i =
      (decide (i < n) && p i) := by
  induction n with
  | zero => simp
  | succ n ih =>
      rw [List.range_succ, List.foldl_append, List.foldl_cons, List.foldl_nil]
      generalize (List.range n).foldl _ 0 = mask at ih ⊢
      have last : i < n + 1 ↔ i < n ∨ i = n := by omega
      by_cases here : i = n
      · subst here
        cases set : p i <;> simp [ih, set, Nat.one_shiftLeft]
      · cases p n <;> simp [ih, last, here, Nat.one_shiftLeft, Ne.symm here]

/-- A single-bit test by mask. -/
theorem and_bit_ne_zero (mask i : Nat) : mask &&& (1 <<< i) ≠ 0 ↔ mask.testBit i := by
  rw [Nat.one_shiftLeft, Nat.and_two_pow]
  cases mask.testBit i <;> simp

theorem toInt8_eq {x : Int} (low : -128 ≤ x) (high : x ≤ 127) : toInt8 x = x := by
  unfold toInt8
  exact Int.bmod_eq_of_le (by omega) (by omega)

end Dfos.Lib
