import Mathlib.Data.Nat.Bits
import Mathlib.Tactic.SplitIfs

/-!
# A memory of eight-byte words

Memory is read and written at the addresses of its words.  `fill` is the loop
that writes a table of consecutive words.
-/

namespace Dfos.Lib

/-- The word stored at each address. -/
abbrev WordMemory := Nat → Nat

namespace WordMemory

def store (m : WordMemory) (address value : Nat) : WordMemory :=
  fun a => if a = address then value else m a

/-- The address of word `i` of a table. -/
def word (base i : Nat) : Nat := base + 8 * i

/-- Writes `f 0, …, f (n - 1)` to the table at `base`. -/
def fill (m : WordMemory) (base : Nat) (f : Nat → Nat) : Nat → WordMemory
  | 0 => m
  | n + 1 => (fill m base f n).store (word base n) (f n)

variable {m : WordMemory} {base address value : Nat} {f : Nat → Nat}

/-- A word lies in a range that starts where its table does. -/
theorem word_within (base : Nat) {i size : Nat} (inside : 8 * i + 8 ≤ size) :
    base ≤ word base i ∧ word base i + 8 ≤ base + size := by
  unfold word
  omega

@[simp] theorem store_same : m.store address value address = value := if_pos rfl

theorem store_other {a : Nat} (other : a ≠ address) : m.store address value a = m a :=
  if_neg other

theorem fill_word {n i : Nat} (below : i < n) : m.fill base f n (word base i) = f i := by
  induction n with
  | zero => omega
  | succ n ih =>
      unfold fill
      by_cases last : i = n
      · rw [last, store_same]
      · rw [store_other, ih (by omega)]
        unfold word
        omega

theorem fill_outside {n a : Nat} (outside : a < base ∨ base + 8 * n ≤ a) :
    m.fill base f n a = m a := by
  induction n with
  | zero => rfl
  | succ n ih =>
      unfold fill
      rw [store_other, ih (by omega)]
      unfold word
      omega

/-! ## Tables that fill a frame -/

/-- Entry `i` of the table in a frame of 4096 bytes. -/
def entry (m : WordMemory) (frame i : Nat) : Nat := m (word (frame * 4096) i)

variable {frame g i j : Nat}

theorem word_frame (small : i < 512) : word (frame * 4096) i / 4096 = frame := by
  unfold word
  omega

theorem entry_store (here : i < 512) (there : j < 512) :
    (m.store (word (frame * 4096) i) value).entry g j =
      if g = frame ∧ j = i then value else m.entry g j := by
  unfold entry
  split
  · next same => rw [same.1, same.2, store_same]
  · next other =>
      apply store_other
      unfold word
      omega

theorem entry_clear (there : j < 512) :
    (m.fill (frame * 4096) (fun _ => 0) 512).entry g j = if g = frame then 0 else m.entry g j := by
  unfold entry
  split
  · next same => rw [same, fill_word there]
  · next other =>
      apply fill_outside
      unfold word
      omega

/-- A write to a frame leaves the others alone. -/
theorem store_off {a : Nat} (small : i < 512) (off : a / 4096 ≠ frame) :
    m.store (word (frame * 4096) i) value a = m a := by
  apply store_other
  intro same
  rw [same, word_frame small] at off
  exact off rfl

theorem clear_off {a : Nat} (off : a / 4096 ≠ frame) :
    m.fill (frame * 4096) (fun _ => 0) 512 a = m a := by
  apply fill_outside
  omega

end WordMemory

end Dfos.Lib
