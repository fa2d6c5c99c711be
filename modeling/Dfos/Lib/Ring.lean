import Mathlib.Data.Int.ModEq
import Mathlib.Data.List.Basic

/-!
# Rings

The entries of a history are numbered from zero on, and a ring of `n` cells keeps
entry `i` in cell `i % n`.  While at most `n` entries are kept, no write hits one
of them.
-/

namespace Dfos.Lib

/-- Numbers less than `n` apart have different cells. -/
theorem mod_ne_of_near {i j n : Nat} (less : i < j) (near : j < i + n) : i % n ≠ j % n := by
  intro same
  have divides : n ∣ j - i := (Nat.modEq_iff_dvd' less.le).mp same
  have := Nat.le_of_dvd (by omega) divides
  omega

/-- The cells hold the entries of `history` from number `first` on. -/
structure Window {α : Type} (n : Nat) (cells : Nat → α) (history : List α) (first : Nat) :
    Prop where
  entry : ∀ i x, first ≤ i → history[i]? = some x → cells (i % n) = x
  few : history.length ≤ first + n

namespace Window

variable {α : Type} {n first : Nat} {cells : Nat → α} {history : List α}

theorem empty (n : Nat) (cells : Nat → α) : Window n cells [] 0 where
  entry i x _ found := by simp at found
  few := Nat.zero_le _

/-- Older entries may be given up. -/
theorem mono (window : Window n cells history first) {later : Nat} (le : first ≤ later) :
    Window n cells history later where
  entry i x low found := window.entry i x (le.trans low) found
  few := window.few.trans (by omega)

/-- **A further entry** goes into the cell of its number, where none that is kept
lies. -/
theorem push (window : Window n cells history first) (room : history.length < first + n) (x : α) :
    Window n (Function.update cells (history.length % n) x) (history ++ [x]) first where
  entry i y low found := by
    rcases lt_trichotomy i history.length with old | new | beyond
    · rw [Function.update_of_ne (mod_ne_of_near old (by omega))]
      rw [List.getElem?_append_left old] at found
      exact window.entry i y low found
    · subst new
      rw [List.getElem?_concat_length] at found
      rw [Function.update_self]
      exact Option.some.inj found
    · rw [List.getElem?_eq_none (by rw [List.length_append, List.length_singleton]; omega)] at found
      cases found
  few := by
    rw [List.length_append, List.length_singleton]
    omega

end Window

end Dfos.Lib
