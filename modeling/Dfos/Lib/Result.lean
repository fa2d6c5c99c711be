import Mathlib.Tactic.Common

/-!
# Computations that may fail

How a sequence of fallible steps ends well.
-/

namespace Dfos.Lib

/-- A sequence returns exactly when both of its parts do. -/
theorem bind_ok_iff {ε α β : Type} {x : Except ε α} {f : α → Except ε β} {r : β} :
    (x >>= f) = .ok r ↔ ∃ a, x = .ok a ∧ f a = .ok r := by
  cases x with
  | error e => exact ⟨nofun, fun ⟨_, ended, _⟩ => nomatch ended⟩
  | ok a => exact ⟨fun ran => ⟨a, rfl, ran⟩, fun ⟨_, ended, ran⟩ => Except.ok.inj ended ▸ ran⟩

/-- A computation raises only what its parts raise. -/
theorem bind_ne_error {ε α β : Type} {x : Except ε α} {f : α → Except ε β} {e : ε}
    (first : x ≠ .error e) (rest : ∀ a, f a ≠ .error e) : (x >>= f) ≠ .error e := by
  cases x with
  | error e' => exact fun raised => first (congrArg Except.error (Except.error.inj raised))
  | ok a => exact rest a

theorem exists_of_isOk {ε α : Type} {x : Except ε α} (ok : x.isOk = true) : ∃ a, x = .ok a := by
  cases x with
  | error e => cases ok
  | ok a => exact ⟨a, rfl⟩

end Dfos.Lib
