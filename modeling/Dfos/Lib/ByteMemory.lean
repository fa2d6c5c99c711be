import Mathlib.Algebra.Order.Ring.Nat
import Mathlib.Tactic.Common

/-!
# A memory of bytes

Words are read little-endian.  `overlay` is a memory in which one range is held
by somebody else.
-/

namespace Dfos.Lib

/-- The byte stored at each address. -/
abbrev ByteMemory := Nat → BitVec 8

namespace ByteMemory

def u32 (m : ByteMemory) (a : Nat) : Nat :=
  (m a).toNat + 2 ^ 8 * (m (a + 1)).toNat + 2 ^ 16 * (m (a + 2)).toNat +
    2 ^ 24 * (m (a + 3)).toNat

def u64 (m : ByteMemory) (a : Nat) : Nat := m.u32 a + 2 ^ 32 * m.u32 (a + 4)

/-- The range `[lo, lo + n)` of `m` holds `bytes`. -/
def overlay (m : ByteMemory) (lo n : Nat) (bytes : Nat → BitVec 8) : ByteMemory :=
  fun a => if lo ≤ a ∧ a < lo + n then bytes (a - lo) else m a

/-- A word is stored. -/
def setU32 (m : ByteMemory) (a v : Nat) : ByteMemory :=
  m.overlay a 4 fun i => BitVec.ofNat 8 (v / 2 ^ (8 * i))

/-- `[lo, lo + n)` and `[lo', lo' + n')` have no byte in common. -/
def Clear (lo n lo' n' : Nat) : Prop := n = 0 ∨ n' = 0 ∨ lo + n ≤ lo' ∨ lo' + n' ≤ lo

instance (lo n lo' n' : Nat) : Decidable (Clear lo n lo' n') :=
  inferInstanceAs (Decidable (_ ∨ _))

variable {m : ByteMemory} {a lo n : Nat} {bytes : Nat → BitVec 8}

theorem u32_lt (m : ByteMemory) (a : Nat) : m.u32 a < 2 ^ 32 := by
  have := (m a).isLt
  have := (m (a + 1)).isLt
  have := (m (a + 2)).isLt
  have := (m (a + 3)).isLt
  unfold u32
  omega

theorem overlay_outside (outside : ¬ (lo ≤ a ∧ a < lo + n)) : m.overlay lo n bytes a = m a :=
  if_neg outside

theorem overlay_inside (inside : lo ≤ a ∧ a < lo + n) :
    m.overlay lo n bytes a = bytes (a - lo) :=
  if_pos inside

theorem u32_congr {m' : ByteMemory} (same : ∀ k < 4, m' (a + k) = m (a + k)) :
    m'.u32 a = m.u32 a := by
  have first : m' a = m a := same 0 (by decide)
  unfold u32
  rw [first, same 1 (by decide), same 2 (by decide), same 3 (by decide)]

theorem u32_overlay (clear : Clear lo n a 4) : (m.overlay lo n bytes).u32 a = m.u32 a := by
  unfold Clear at clear
  unfold u32
  rw [overlay_outside (by omega), overlay_outside (by omega), overlay_outside (by omega),
    overlay_outside (by omega)]

theorem u32_setU32 {v : Nat} (word : v < 2 ^ 32) : (m.setU32 a v).u32 a = v := by
  unfold setU32 u32
  rw [overlay_inside (by omega), overlay_inside (by omega), overlay_inside (by omega),
    overlay_inside (by omega), show a - a = 0 by omega, show a + 1 - a = 1 by omega,
    show a + 2 - a = 2 by omega, show a + 3 - a = 3 by omega]
  simp only [BitVec.toNat_ofNat]
  omega

/-- A range inside one that is clear of the overlay. -/
theorem Clear.mono {a' n' k : Nat} (clear : Clear lo n a n') (low : a ≤ a')
    (high : a' + k ≤ a + n') : Clear lo n a' k := by
  unfold Clear at *
  omega

end ByteMemory

end Dfos.Lib
