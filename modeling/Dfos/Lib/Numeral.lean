import Mathlib.Data.Nat.Digits.Lemmas

/-!
# Numerals

`numeral digit base n` is the text of `n` in a base, the most significant digit
first and no leading zeros.  `readNumeral` is what a reader makes of such a text.
-/

namespace Dfos.Lib

/-- The digits of `n`, most significant first; zero has one digit. -/
def numeral (digit : Nat → Char) (base n : Nat) : List Char :=
  if n = 0 then [digit 0] else (Nat.digits base n).reverse.map digit

/-- The number that a text spells, digit by digit from the left. -/
def readNumeral (value : Char → Nat) (base : Nat) (text : List Char) : Nat :=
  text.foldl (fun n c => n * base + value c) 0

section Numeral

variable {digit : Nat → Char} {value : Char → Nat} {base n : Nat}

theorem numeral_zero : numeral digit base 0 = [digit 0] := if_pos rfl

theorem numeral_pos (pos : n ≠ 0) :
    numeral digit base n = (Nat.digits base n).reverse.map digit := if_neg pos

theorem foldl_map_reverse (inverse : ∀ d < base, value (digit d) = d) :
    ∀ digits : List Nat, (∀ d ∈ digits, d < base) →
      readNumeral value base (digits.reverse.map digit) = Nat.ofDigits base digits := by
  intro digits
  induction digits with
  | nil => intro _; rfl
  | cons d digits ih =>
    intro small
    have rest := ih fun e he => small e (List.mem_cons_of_mem _ he)
    rw [readNumeral] at rest ⊢
    rw [List.reverse_cons, List.map_append, List.foldl_append, rest, List.map_cons, List.map_nil,
      List.foldl_cons, List.foldl_nil, inverse d (small d List.mem_cons_self), Nat.ofDigits_cons]
    ring

/-- **A numeral reads back as its number.** -/
theorem readNumeral_numeral (two : 2 ≤ base) (inverse : ∀ d < base, value (digit d) = d) (n : Nat) :
    readNumeral value base (numeral digit base n) = n := by
  by_cases zero : n = 0
  · subst zero
    rw [numeral_zero, readNumeral, List.foldl_cons, List.foldl_nil, inverse 0 (by omega)]
    omega
  · rw [numeral_pos zero, foldl_map_reverse inverse _ fun d hd => Nat.digits_lt_base two hd,
      Nat.ofDigits_digits]

/-- Only zero starts with the digit zero. -/
theorem head_numeral_ne (two : 2 ≤ base) (inverse : ∀ d < base, value (digit d) = d)
    (pos : n ≠ 0) : (numeral digit base n).head? ≠ some (digit 0) := by
  have nonempty : Nat.digits base n ≠ [] := Nat.digits_ne_nil_iff_ne_zero.mpr pos
  rw [numeral_pos pos, List.head?_map, List.head?_reverse, List.getLast?_eq_getLast_of_ne_nil nonempty]
  intro same
  have last := Nat.getLast_digit_ne_zero base pos
  have small := Nat.digits_lt_base two (List.getLast_mem nonempty)
  have equal : digit ((Nat.digits base n).getLast nonempty) = digit 0 := Option.some.inj same
  apply last
  rw [← inverse _ small, equal, inverse 0 (by omega)]

theorem numeral_ne_nil : numeral digit base n ≠ [] := by
  by_cases zero : n = 0
  · rw [zero, numeral_zero]
    exact List.cons_ne_nil _ _
  · rw [numeral_pos zero, ne_eq, List.map_eq_nil_iff, List.reverse_eq_nil_iff]
    exact Nat.digits_ne_nil_iff_ne_zero.mpr zero

theorem mem_numeral {c : Char} (two : 2 ≤ base) (member : c ∈ numeral digit base n) :
    ∃ d < base, c = digit d := by
  by_cases zero : n = 0
  · rw [zero, numeral_zero, List.mem_singleton] at member
    exact ⟨0, by omega, member⟩
  · rw [numeral_pos zero, List.mem_map] at member
    obtain ⟨d, found, rfl⟩ := member
    exact ⟨d, Nat.digits_lt_base two (List.mem_reverse.mp found), rfl⟩

theorem length_numeral_le {k : Nat} (two : 2 ≤ base) (small : n < base ^ k) (pos : 0 < k) :
    (numeral digit base n).length ≤ k := by
  by_cases zero : n = 0
  · rw [zero, numeral_zero]
    exact pos
  · rw [numeral_pos zero, List.length_map, List.length_reverse]
    exact (Nat.digits_length_le_iff two n).mpr small

end Numeral

end Dfos.Lib
