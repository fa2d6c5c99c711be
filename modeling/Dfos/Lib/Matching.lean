import Mathlib.Data.PEquiv
import Mathlib.Tactic.Common

/-!
# Editing a matching

A partial equivalence matches some keys with values, one value to a key and one
key to a value.  Two edits keep it one: a key is matched with a value that no key
has, and the keys outside a set lose theirs.
-/

namespace Dfos.Lib

namespace Matching

variable {α β : Type} [DecidableEq α] [DecidableEq β]

/-- Match `a` with `b`, which no key has.  What `a` had before is lost. -/
def put (p : α ≃. β) (a : α) (b : β) (fresh : p.symm b = none) : α ≃. β where
  toFun x := if x = a then some b else p x
  invFun y := if y = b then some a else (p.symm y).filter (· ≠ a)
  inv x y := by
    have matched : p.symm y = some x ↔ p x = some y := p.eq_some_iff
    have unmatched : p x ≠ some b := fun found => by
      rw [p.eq_some_iff.mpr found] at fresh
      cases fresh
    by_cases key : x = a
    · by_cases value : y = b
      · simp [key, value]
      · simp [key, value, Ne.symm value]
    · by_cases value : y = b
      · simp [key, value, unmatched, Ne.symm key]
      · simp [key, value, matched]

omit [DecidableEq α] [DecidableEq β] in
/-- Keep the keys of a set only. -/
def keep (p : α ≃. β) (kept : α → Bool) : α ≃. β where
  toFun x := if kept x then p x else none
  invFun y := (p.symm y).filter kept
  inv x y := by
    have matched : p.symm y = some x ↔ p x = some y := p.eq_some_iff
    by_cases inside : kept x
    · simp [inside, matched]
    · simp [inside]

variable {p : α ≃. β} {a x : α} {b : β} {fresh : p.symm b = none}

@[simp] theorem put_here : put p a b fresh a = some b := if_pos rfl

theorem put_other (other : x ≠ a) : put p a b fresh x = p x := if_neg other

omit [DecidableEq α] [DecidableEq β] in
theorem keep_in {kept : α → Bool} (inside : kept x = true) : keep p kept x = p x := if_pos inside

omit [DecidableEq α] [DecidableEq β] in
theorem keep_out {kept : α → Bool} (outside : kept x = false) : keep p kept x = none :=
  if_neg (by rw [outside]; exact Bool.false_ne_true)

omit [DecidableEq α] [DecidableEq β] in
theorem keep_some {kept : α → Bool} (found : keep p kept x = some b) :
    kept x = true ∧ p x = some b := by
  by_cases inside : kept x = true
  · rw [keep_in inside] at found
    exact ⟨inside, found⟩
  · rw [keep_out (Bool.eq_false_of_not_eq_true inside)] at found
    cases found

end Matching

end Dfos.Lib
