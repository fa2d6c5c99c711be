import Mathlib.Order.Interval.Finset.Nat
import Mathlib.Data.Finset.Card
import Mathlib.Tactic.Common

/-!
# Byte-addressed bitmaps

A bitmap stored in bytes, with the set, clear and test of a single bit by mask,
and the number of clear bits in a range of indices.
-/

namespace Dfos.Lib

/-- The bytes of a bitmap.  Bit `i` is bit `i % 8` of byte `i / 8`. -/
abbrev Bitmap := Nat → BitVec 8

namespace Bitmap

/-- The mask of bit `i` in its byte. -/
def mask (i : Nat) : BitVec 8 := 1#8 <<< (i % 8)

def test (b : Bitmap) (i : Nat) : Bool := (b (i / 8) &&& mask i) != 0#8

def set (b : Bitmap) (i : Nat) : Bitmap :=
  fun j => if j = i / 8 then b j ||| mask i else b j

def clear (b : Bitmap) (i : Nat) : Bitmap :=
  fun j => if j = i / 8 then b j &&& ~~~ mask i else b j

variable {b : Bitmap} {i j lo mid hi : Nat}

theorem mask_eq_twoPow (i : Nat) : mask i = BitVec.twoPow 8 (i % 8) :=
  (BitVec.twoPow_eq 8 (i % 8)).symm

theorem test_eq_getLsbD (b : Bitmap) (i : Nat) : b.test i = (b (i / 8)).getLsbD (i % 8) := by
  have positive : ∀ k < 8, BitVec.twoPow 8 k ≠ 0#8 := by decide
  have nonzero := positive (i % 8) (Nat.mod_lt _ (by decide))
  unfold test
  rw [mask_eq_twoPow, BitVec.and_twoPow]
  cases (b (i / 8)).getLsbD (i % 8) with
  | false => simp
  | true => simpa using nonzero

/-- Two indices agree once they share the byte and the bit. -/
theorem index_ext (byte : j / 8 = i / 8) (bit : j % 8 = i % 8) : j = i := by
  omega

theorem test_set (b : Bitmap) (i j : Nat) : (b.set i).test j = (b.test j || decide (j = i)) := by
  have inByte : j % 8 < 8 := Nat.mod_lt _ (by decide)
  rw [test_eq_getLsbD, test_eq_getLsbD]
  unfold set
  by_cases byte : j / 8 = i / 8
  · rw [if_pos byte, BitVec.getLsbD_or, mask_eq_twoPow, BitVec.getLsbD_twoPow]
    have bit : i % 8 = j % 8 ↔ j = i := ⟨fun h => index_ext byte h.symm, fun h => by rw [h]⟩
    simp [bit, Nat.mod_lt]
  · rw [if_neg byte]
    have other : j ≠ i := fun same => byte (by rw [same])
    simp [other]

theorem test_clear (b : Bitmap) (i j : Nat) :
    (b.clear i).test j = (b.test j && !decide (j = i)) := by
  have inByte : j % 8 < 8 := Nat.mod_lt _ (by decide)
  rw [test_eq_getLsbD, test_eq_getLsbD]
  unfold clear
  by_cases byte : j / 8 = i / 8
  · rw [if_pos byte, BitVec.getLsbD_and, BitVec.getLsbD_not, mask_eq_twoPow,
      BitVec.getLsbD_twoPow]
    have bit : i % 8 = j % 8 ↔ j = i := ⟨fun h => index_ext byte h.symm, fun h => by rw [h]⟩
    simp [bit, inByte, Nat.mod_lt]
  · rw [if_neg byte]
    have other : j ≠ i := fun same => byte (by rw [same])
    simp [other]

theorem ext_test {c : Bitmap} (same : ∀ i, b.test i = c.test i) : b = c := by
  funext byte
  apply BitVec.eq_of_getLsbD_eq
  intro bit small
  have index := same (8 * byte + bit)
  have inByte : (8 * byte + bit) / 8 = byte := by omega
  have inBit : (8 * byte + bit) % 8 = bit := by omega
  rwa [test_eq_getLsbD, test_eq_getLsbD, inByte, inBit] at index

theorem test_of_ones (ones : b (i / 8) = 0xFF#8) : b.test i = true := by
  have inByte : i % 8 < 8 := Nat.mod_lt _ (by decide)
  have all : ∀ k < 8, (0xFF#8).getLsbD k = true := by decide
  rw [test_eq_getLsbD, ones]
  exact all _ inByte

theorem zero_of_clear {k : Nat} (clear : ∀ bit < 8, b.test (8 * k + bit) = false) : b k = 0#8 := by
  apply BitVec.eq_of_getLsbD_eq
  intro bit small
  have index := clear bit small
  have inByte : (8 * k + bit) / 8 = k := by omega
  have inBit : (8 * k + bit) % 8 = bit := by omega
  rw [test_eq_getLsbD, inByte, inBit] at index
  rw [index, BitVec.getLsbD_zero]

/-! ## Counting clear bits -/

/-- The clear bits with index in `[lo, hi)`. -/
def clearBits (b : Bitmap) (lo hi : Nat) : Finset Nat :=
  (Finset.Ico lo hi).filter fun i => b.test i = false

/-- How many bits with index in `[lo, hi)` are clear. -/
def clearCount (b : Bitmap) (lo hi : Nat) : Nat := (b.clearBits lo hi).card

theorem mem_clearBits : i ∈ b.clearBits lo hi ↔ (lo ≤ i ∧ i < hi) ∧ b.test i = false := by
  simp [clearBits]

theorem clearCount_empty (empty : hi ≤ lo) : b.clearCount lo hi = 0 := by
  unfold clearCount
  rw [Finset.card_eq_zero, Finset.eq_empty_iff_forall_notMem]
  intro i member
  have := mem_clearBits.mp member
  omega

theorem clearCount_full (full : ∀ i, lo ≤ i → i < hi → b.test i = true) :
    b.clearCount lo hi = 0 := by
  unfold clearCount
  rw [Finset.card_eq_zero, Finset.eq_empty_iff_forall_notMem]
  intro i member
  obtain ⟨⟨low, high⟩, free⟩ := mem_clearBits.mp member
  rw [full i low high] at free
  cases free

/-- Two bitmaps that agree on a range count alike there. -/
theorem clearCount_congr {c : Bitmap} (agree : ∀ i, lo ≤ i → i < hi → c.test i = b.test i) :
    c.clearCount lo hi = b.clearCount lo hi := by
  unfold clearCount
  congr 1
  ext i
  rw [mem_clearBits, mem_clearBits]
  constructor
  · intro member
    rwa [agree i member.1.1 member.1.2] at member
  · intro member
    rwa [agree i member.1.1 member.1.2]

theorem clearCount_split (below : lo ≤ mid) (above : mid ≤ hi) :
    b.clearCount lo mid + b.clearCount mid hi = b.clearCount lo hi := by
  unfold clearCount
  rw [← Finset.card_union_of_disjoint]
  · congr 1
    ext i
    rw [Finset.mem_union, mem_clearBits, mem_clearBits, mem_clearBits]
    by_cases side : i < mid <;> constructor <;> grind
  · rw [Finset.disjoint_left]
    intro i left right
    have := mem_clearBits.mp left
    have := mem_clearBits.mp right
    omega

theorem clearCount_le (b : Bitmap) (lo hi : Nat) : b.clearCount lo hi ≤ hi - lo := by
  unfold clearCount clearBits
  calc _ ≤ (Finset.Ico lo hi).card := Finset.card_filter_le _ _
    _ = hi - lo := Nat.card_Ico lo hi

/-- A clear bit of the range makes the count positive. -/
theorem clearCount_pos (low : lo ≤ i) (high : i < hi) (free : b.test i = false) :
    0 < b.clearCount lo hi :=
  Finset.card_pos.mpr ⟨i, mem_clearBits.mpr ⟨⟨low, high⟩, free⟩⟩

/-- A run of clear bits counts in full. -/
theorem le_clearCount {run n : Nat} (low : lo ≤ run) (high : run + n ≤ hi)
    (free : ∀ i, run ≤ i → i < run + n → b.test i = false) : n ≤ b.clearCount lo hi := by
  have inside : Finset.Ico run (run + n) ⊆ b.clearBits lo hi := by
    intro i member
    obtain ⟨above, below⟩ := Finset.mem_Ico.mp member
    exact mem_clearBits.mpr ⟨⟨low.trans above, Nat.lt_of_lt_of_le below high⟩, free i above below⟩
  calc n = (Finset.Ico run (run + n)).card := by rw [Nat.card_Ico, Nat.add_sub_cancel_left]
    _ ≤ (b.clearBits lo hi).card := Finset.card_le_card inside

/-- Setting a clear bit of the range takes one from the count. -/
theorem clearCount_set (low : lo ≤ i) (high : i < hi) (free : b.test i = false) :
    (b.set i).clearCount lo hi + 1 = b.clearCount lo hi := by
  have member : i ∈ b.clearBits lo hi := mem_clearBits.mpr ⟨⟨low, high⟩, free⟩
  have erased : (b.set i).clearBits lo hi = (b.clearBits lo hi).erase i := by
    ext j
    rw [Finset.mem_erase, mem_clearBits, mem_clearBits, test_set]
    by_cases same : j = i <;> simp [same]
  unfold clearCount
  rw [erased]
  exact Finset.card_erase_add_one member

/-- Clearing a set bit of the range adds one to the count. -/
theorem clearCount_clear (low : lo ≤ i) (high : i < hi) (taken : b.test i = true) :
    (b.clear i).clearCount lo hi = b.clearCount lo hi + 1 := by
  have fresh : i ∉ b.clearBits lo hi := by
    rw [mem_clearBits, taken]
    simp
  have inserted : (b.clear i).clearBits lo hi = insert i (b.clearBits lo hi) := by
    ext j
    rw [Finset.mem_insert, mem_clearBits, mem_clearBits, test_clear]
    by_cases same : j = i
    · simp [same, low, high]
    · simp [same]
  unfold clearCount
  rw [inserted]
  exact Finset.card_insert_of_notMem fresh

theorem clearCount_set_outside (outside : ¬ (lo ≤ i ∧ i < hi)) :
    (b.set i).clearCount lo hi = b.clearCount lo hi := by
  apply clearCount_congr
  intro j low high
  have other : j ≠ i := fun same => outside ⟨same ▸ low, same ▸ high⟩
  simp [test_set, other]

theorem clearCount_clear_outside (outside : ¬ (lo ≤ i ∧ i < hi)) :
    (b.clear i).clearCount lo hi = b.clearCount lo hi := by
  apply clearCount_congr
  intro j low high
  have other : j ≠ i := fun same => outside ⟨same ▸ low, same ▸ high⟩
  simp [test_clear, other]

end Bitmap

end Dfos.Lib
