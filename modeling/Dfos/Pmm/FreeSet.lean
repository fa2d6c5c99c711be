import Mathlib.Data.Set.Basic
import Dfos.Lib.Ledger
import Dfos.Pmm.Accounting

/-!
# The frame allocator as a set of free frames

Seen from outside the allocator is a set of free frames.  An allocation takes a
run out of the set or leaves the whole state alone, a release puts frames back.
A ledger kept beside a run of calls then shows that no frame is ever in two
hands.
-/

namespace Dfos.Pmm

open Dfos.Lib

/-- The frames an allocation may hand out. -/
def PmmState.freeSet (s : PmmState) : Set Nat :=
  { f | f < s.totalFrames ∧ s.frameBitmap.test f = false }

/-- A managed frame that is not free. -/
def PmmState.Taken (s : PmmState) (f : Nat) : Prop :=
  f < s.totalFrames ∧ s.frameBitmap.test f = true

/-- From `s` to `t` exactly the frames `[lo, lo + n)` went from free to taken. -/
structure TakesRun (s t : PmmState) (lo n : Nat) : Prop where
  inside : ∀ f, lo ≤ f → f < lo + n → f < s.totalFrames
  before : ∀ f, lo ≤ f → f < lo + n → s.frameBitmap.test f = false
  after : ∀ f, lo ≤ f → f < lo + n → t.frameBitmap.test f = true
  others : ∀ f, ¬ (lo ≤ f ∧ f < lo + n) → t.frameBitmap.test f = s.frameBitmap.test f

/-- The call contract of the allocator in state `s`. -/
structure RefinesFreeSet (s : PmmState) : Prop where
  allocFrame : ∀ preferredNode address,
    (pmmAllocFrameOnNode s preferredNode).2 = some address →
      address % pageSize = 0 ∧
        TakesRun s (pmmAllocFrameOnNode s preferredNode).1 (address / pageSize) 1
  allocFrame_fails : ∀ preferredNode, (pmmAllocFrameOnNode s preferredNode).2 = none →
    (pmmAllocFrameOnNode s preferredNode).1 = s
  allocFrames : ∀ frameCount preferredNode address,
    (pmmAllocFramesOnNode s frameCount preferredNode).2 = some address →
      address % pageSize = 0 ∧
        TakesRun s (pmmAllocFramesOnNode s frameCount preferredNode).1 (address / pageSize)
          frameCount
  allocFrames_fails : ∀ frameCount preferredNode,
    (pmmAllocFramesOnNode s frameCount preferredNode).2 = none →
      (pmmAllocFramesOnNode s frameCount preferredNode).1 = s
  freeFrame : ∀ physicalAddr, (pmmFreeFrame s physicalAddr).freeSet =
    s.freeSet ∪ { f | f = physicalAddr / pageSize ∧ f < s.totalFrames }
  freeFrame_free : ∀ physicalAddr, physicalAddr / pageSize ∈ s.freeSet →
    pmmFreeFrame s physicalAddr = s
  freeFrames : ∀ physicalAddr frameCount, physicalAddr / pageSize + frameCount < 2 ^ 32 →
    (pmmFreeFrames s physicalAddr frameCount).freeSet = s.freeSet ∪
      { f | (physicalAddr / pageSize ≤ f ∧ f < physicalAddr / pageSize + frameCount) ∧
        f < s.totalFrames }
  freeFrames_free : ∀ physicalAddr frameCount, physicalAddr / pageSize + frameCount < 2 ^ 32 →
    (∀ f, physicalAddr / pageSize ≤ f → f < physicalAddr / pageSize + frameCount →
      f < s.totalFrames → f ∈ s.freeSet) →
    pmmFreeFrames s physicalAddr frameCount = s

/-! ## Bits after each call -/

section Bits

variable {s t : PmmState} {lo n : Nat}

theorem Took.takesRun (took : Took s t lo n) : TakesRun s t lo n where
  inside f _ high := by
    have := took.inside
    omega
  before := took.free
  after f low high := by
    rw [took.after]
    simp only [low, high, and_self, decide_true, Bool.or_true]
  others f outside := by
    rw [took.after]
    simp only [outside, decide_false, Bool.or_false]

/-- The address of a managed frame is aligned and gives the frame back. -/
theorem frameAddress_eq {frame : Nat} (small : frame < 2 ^ 20) :
    frameAddress frame % pageSize = 0 ∧ frameAddress frame / pageSize = frame := by
  unfold frameAddress pageSize
  omega

theorem Allocated.address {result : PmmState × Option Nat} {address : Nat} (inv : Inv s)
    (positive : n ≠ 0) (allocated : Allocated s n result) (found : result.2 = some address) :
    address % pageSize = 0 ∧ Took s result.1 (address / pageSize) n := by
  rcases allocated with nothing | ⟨lo, same, took⟩
  · rw [nothing] at found
    cases found
  · have inside := took.inside
    have total := inv.total_le
    obtain ⟨aligned, frame⟩ := frameAddress_eq (show lo < 2 ^ 20 by omega)
    have : address = frameAddress lo := Option.some.inj (found.symm.trans same)
    rw [this, frame]
    exact ⟨aligned, took⟩

theorem Allocated.failed {result : PmmState × Option Nat} (allocated : Allocated s n result)
    (nothing : result.2 = none) : result.1 = s := by
  rcases allocated with same | ⟨lo, found, -⟩
  · rw [same]
  · rw [nothing] at found
    cases found

theorem pmmAllocFramesOnNode_zero (preferredNode : Nat) :
    pmmAllocFramesOnNode s 0 preferredNode = (s, none) :=
  if_pos rfl

theorem releaseFrames_test (left frame f : Nat) :
    (releaseFrames left frame s).frameBitmap.test f =
      (s.frameBitmap.test f && !decide ((frame ≤ f ∧ f < frame + left) ∧ f < s.totalFrames)) := by
  induction left generalizing frame s with
  | zero =>
    have nothing : ¬ ((frame ≤ f ∧ f < frame + 0) ∧ f < s.totalFrames) := by omega
    simp only [releaseFrames, nothing, decide_false, Bool.not_false, Bool.and_true]
  | succ left ih =>
    have split : ((frame ≤ f ∧ f < frame + (left + 1)) ∧ f < s.totalFrames) ↔
        (f = frame ∧ frame < s.totalFrames) ∨
          ((frame + 1 ≤ f ∧ f < frame + 1 + left) ∧ f < s.totalFrames) := by omega
    unfold releaseFrames
    rw [ih, releaseFrameLocked_test, (releaseFrameLocked_shape s frame).total, Bool.and_assoc]
    simp only [split, Bool.decide_or, Bool.not_or]

theorem reserveFrames_test (left frame f : Nat) :
    (reserveFrames left frame s).frameBitmap.test f =
      (s.frameBitmap.test f || decide ((frame ≤ f ∧ f < frame + left) ∧ f < s.totalFrames)) := by
  induction left generalizing frame s with
  | zero =>
    have nothing : ¬ ((frame ≤ f ∧ f < frame + 0) ∧ f < s.totalFrames) := by omega
    simp only [reserveFrames, nothing, decide_false, Bool.or_false]
  | succ left ih =>
    have split : ((frame ≤ f ∧ f < frame + (left + 1)) ∧ f < s.totalFrames) ↔
        (f = frame ∧ frame < s.totalFrames) ∨
          ((frame + 1 ≤ f ∧ f < frame + 1 + left) ∧ f < s.totalFrames) := by omega
    unfold reserveFrames
    rw [ih, reserveFrameLocked_test, (reserveFrameLocked_shape s frame).total, Bool.or_assoc]
    simp only [split, Bool.decide_or]

/-- The frames `pmm_free_frames` addresses from offset `i` on. -/
def addressed (frame left i : Nat) : Finset Nat :=
  (Finset.range left).image fun k => u32Add frame (i + k)

theorem addressed_succ (frame left i : Nat) :
    addressed frame (left + 1) i = insert (u32Add frame i) (addressed frame left (i + 1)) := by
  ext f
  simp only [addressed, Finset.mem_image, Finset.mem_range, Finset.mem_insert]
  constructor
  · rintro ⟨k, bound, rfl⟩
    cases k with
    | zero => exact Or.inl rfl
    | succ k => exact Or.inr ⟨k, by omega, by rw [Nat.add_right_comm, Nat.add_assoc]⟩
  · rintro (rfl | ⟨k, bound, rfl⟩)
    · exact ⟨0, by omega, rfl⟩
    · exact ⟨k + 1, by omega, by rw [Nat.add_right_comm, Nat.add_assoc]⟩

theorem freeLoop_test (frame left i f : Nat) :
    (freeLoop frame left i s).frameBitmap.test f =
      (s.frameBitmap.test f && !decide (f ∈ addressed frame left i ∧ f < s.totalFrames)) := by
  induction left generalizing i s with
  | zero =>
    have nothing : ¬ (f ∈ addressed frame 0 i ∧ f < s.totalFrames) := by
      simp [addressed]
    simp only [freeLoop, nothing, decide_false, Bool.not_false, Bool.and_true]
  | succ left ih =>
    have split : (f ∈ addressed frame (left + 1) i ∧ f < s.totalFrames) ↔
        (f = u32Add frame i ∧ u32Add frame i < s.totalFrames) ∨
          (f ∈ addressed frame left (i + 1) ∧ f < s.totalFrames) := by
      rw [addressed_succ, Finset.mem_insert, or_and_right]
      refine or_congr_left (and_congr_right fun same => ?_)
      rw [same]
    unfold freeLoop
    rw [ih, releaseFrameLocked_test, (releaseFrameLocked_shape s _).total, Bool.and_assoc]
    simp only [split, Bool.decide_or, Bool.not_or]

/-- Without a wrap the frames addressed are a run. -/
theorem mem_addressed {frame left f : Nat} (fits : frame + left < 2 ^ 32) :
    f ∈ addressed frame left 0 ↔ frame ≤ f ∧ f < frame + left := by
  simp only [addressed, Finset.mem_image, Finset.mem_range, Nat.zero_add]
  constructor
  · rintro ⟨k, bound, rfl⟩
    rw [u32Add_eq (by omega)]
    omega
  · rintro ⟨low, high⟩
    refine ⟨f - frame, by omega, ?_⟩
    rw [u32Add_eq (by omega)]
    omega

/-- Releasing frames that are free already does nothing. -/
theorem freeLoop_free {frame left i : Nat}
    (free : ∀ f ∈ addressed frame left i, f < s.totalFrames → s.frameBitmap.test f = false) :
    freeLoop frame left i s = s := by
  induction left generalizing i with
  | zero => rfl
  | succ left ih =>
    rw [addressed_succ] at free
    have here : releaseFrameLocked s (u32Add frame i) = (s, false) := by
      apply releaseFrameLocked_refused
      by_cases below : u32Add frame i < s.totalFrames
      · exact Or.inr (free _ (Finset.mem_insert_self _ _) below)
      · exact Or.inl (by omega)
    unfold freeLoop
    rw [here]
    exact ih fun f member => free f (Finset.mem_insert_of_mem member)

/-- The free set after some frames were released. -/
theorem freeSet_released {p : Nat → Prop} [DecidablePred p]
    (total : t.totalFrames = s.totalFrames)
    (bits : ∀ f, t.frameBitmap.test f =
      (s.frameBitmap.test f && !decide (p f ∧ f < s.totalFrames))) :
    t.freeSet = s.freeSet ∪ { f | p f ∧ f < s.totalFrames } := by
  ext f
  simp only [PmmState.freeSet, Set.mem_union, Set.mem_ofPred_eq, total, bits, Bool.and_eq_false_iff,
    Bool.not_eq_false', decide_eq_true_eq]
  constructor
  · rintro ⟨below, free | released⟩
    · exact Or.inl ⟨below, free⟩
    · exact Or.inr released
  · rintro (⟨below, free⟩ | ⟨released, below⟩)
    · exact ⟨below, Or.inl free⟩
    · exact ⟨below, Or.inr ⟨released, below⟩⟩

theorem Inv.refinesFreeSet (inv : Inv s) : RefinesFreeSet s where
  allocFrame preferredNode address found := by
    obtain ⟨aligned, took⟩ :=
      (pmmAllocFrameOnNode_allocated inv preferredNode).address inv one_ne_zero found
    exact ⟨aligned, took.takesRun⟩
  allocFrame_fails preferredNode := (pmmAllocFrameOnNode_allocated inv preferredNode).failed
  allocFrames frameCount preferredNode address found := by
    by_cases zero : frameCount = 0
    · rw [zero, pmmAllocFramesOnNode_zero] at found
      cases found
    · obtain ⟨aligned, took⟩ :=
        (pmmAllocFramesOnNode_allocated inv frameCount preferredNode).address inv zero found
      exact ⟨aligned, took.takesRun⟩
  allocFrames_fails frameCount preferredNode :=
    (pmmAllocFramesOnNode_allocated inv frameCount preferredNode).failed
  freeFrame physicalAddr := by
    apply freeSet_released (releaseFrameLocked_shape s _).total
    intro f
    rw [releaseFrameLocked_test]
    have same : (f = physicalAddr / pageSize ∧ physicalAddr / pageSize < s.totalFrames) ↔
        (f = physicalAddr / pageSize ∧ f < s.totalFrames) := by
      constructor <;> rintro ⟨rfl, below⟩ <;> exact ⟨rfl, below⟩
    simp only [same]
  freeFrame_free physicalAddr free := by
    rw [pmmFreeFrame, releaseFrameLocked_refused (Or.inr free.2)]
  freeFrames physicalAddr frameCount fits := by
    apply freeSet_released (freeLoop_inv inv _ _ _).2.total
    intro f
    rw [freeLoop_test]
    simp only [mem_addressed fits]
  freeFrames_free physicalAddr frameCount fits free := by
    apply freeLoop_free
    intro f member below
    obtain ⟨low, high⟩ := (mem_addressed fits).mp member
    exact (free f low high below).2

end Bits

/-! ## The ledger of a run -/

/-- What one call enters into the ledger.  An allocation is granted the frames
it returns.  A reservation takes the frames of its range that were free, and a
frame that is already in someone's hands stays there. -/
def book (s : PmmState) (l : Ledger Nat) : PmmOp → Ledger Nat
  | .allocFrameOnNode preferredNode =>
    match (pmmAllocFrameOnNode s preferredNode).2 with
    | some address => l.grant {address / pageSize}
    | none => l
  | .allocFramesOnNode frameCount preferredNode =>
    match (pmmAllocFramesOnNode s frameCount preferredNode).2 with
    | some address =>
      l.grant (Finset.Ico (address / pageSize) (address / pageSize + frameCount))
    | none => l
  | .freeFrame physicalAddr => l.release {physicalAddr / pageSize}
  | .freeFrames physicalAddr frameCount =>
    l.release (addressed (physicalAddr / pageSize) frameCount 0)
  | .reserveRange base length =>
    l.reserve (s.frameBitmap.clearBits (base / pageSize)
      (min ((base + length + pageSize - 1) / pageSize) s.totalFrames))
  | .markAvailableRange base length =>
    l.release (Finset.Ico (base / pageSize) ((base + length) / pageSize))
  | .configureNumaTopology _ => l

def bookRun (s : PmmState) (l : Ledger Nat) : List PmmOp → Ledger Nat
  | [] => l
  | op :: ops => bookRun (s.exec op).1 (book s l op) ops

/-- After boot every taken frame is reserved. -/
def bootLedger (s : PmmState) : Ledger Nat where
  live := []
  reserved := (Finset.range s.totalFrames).filter fun f => s.frameBitmap.test f = true

section Ledger

variable {s t : PmmState} {l : Ledger Nat} {boot : BootInfo}

theorem bootLedger_books (s : PmmState) : (bootLedger s).Books s.Taken where
  disjoint := List.Pairwise.nil
  unreserved held live := by cases live
  accounts f := by simp [bootLedger, PmmState.Taken]

theorem Took.grant {lo n : Nat} {items : Finset Nat} (took : Took s t lo n)
    (run : ∀ f, f ∈ items ↔ lo ≤ f ∧ f < lo + n) (books : l.Books s.Taken) :
    (l.grant items).Books t.Taken := by
  have inside := took.inside
  apply books.grant
  · intro f granted taken
    obtain ⟨low, high⟩ := (run f).mp granted
    have busy := taken.2
    rw [took.free f low high] at busy
    cases busy
  · intro f
    simp only [PmmState.Taken, took.shape.total, took.after, Bool.or_eq_true, decide_eq_true_eq,
      run f]
    constructor
    · rintro ⟨below, taken | granted⟩
      · exact Or.inl ⟨below, taken⟩
      · exact Or.inr granted
    · rintro (⟨below, taken⟩ | granted)
      · exact ⟨below, Or.inl taken⟩
      · exact ⟨by omega, Or.inr granted⟩

/-- Releasing frames below `total_frames` removes them from the ledger. -/
theorem books_released {items : Finset Nat} (books : l.Books s.Taken)
    (total : t.totalFrames = s.totalFrames)
    (bits : ∀ f, t.frameBitmap.test f =
      (s.frameBitmap.test f && !decide (f ∈ items ∧ f < s.totalFrames))) :
    (l.release items).Books t.Taken := by
  apply books.release
  intro f
  simp only [PmmState.Taken, total, bits, Bool.and_eq_true, Bool.not_eq_true',
    decide_eq_false_iff_not, not_and, not_lt]
  constructor
  · rintro ⟨below, taken, kept⟩
    exact ⟨⟨below, taken⟩, fun member => by have := kept member; omega⟩
  · rintro ⟨⟨below, taken⟩, kept⟩
    exact ⟨below, taken, fun member => absurd member kept⟩

theorem book_books (booted : Booted s) (books : l.Books s.Taken) (op : PmmOp) :
    (book s l op).Books (s.exec op).1.Taken := by
  have inv := booted.toInv
  cases op with
  | allocFrameOnNode preferredNode =>
    have allocated := pmmAllocFrameOnNode_allocated inv preferredNode
    simp only [book, PmmState.exec]
    split
    · next address found =>
      apply (allocated.address inv one_ne_zero found).2.grant _ books
      intro f
      rw [Finset.mem_singleton]
      omega
    · next nothing =>
      rw [allocated.failed nothing]
      exact books
  | allocFramesOnNode frameCount preferredNode =>
    have allocated := pmmAllocFramesOnNode_allocated inv frameCount preferredNode
    simp only [book, PmmState.exec]
    split
    · next address found =>
      by_cases zero : frameCount = 0
      · rw [zero, pmmAllocFramesOnNode_zero] at found
        cases found
      · apply (allocated.address inv zero found).2.grant _ books
        intro f
        exact Finset.mem_Ico
    · next nothing =>
      rw [allocated.failed nothing]
      exact books
  | freeFrame physicalAddr =>
    apply books_released books (releaseFrameLocked_shape s _).total
    intro f
    rw [releaseFrameLocked_test]
    have same : (f = physicalAddr / pageSize ∧ physicalAddr / pageSize < s.totalFrames) ↔
        (f ∈ ({physicalAddr / pageSize} : Finset Nat) ∧ f < s.totalFrames) := by
      rw [Finset.mem_singleton]
      constructor <;> rintro ⟨rfl, below⟩ <;> exact ⟨rfl, below⟩
    simp only [same]
  | freeFrames physicalAddr frameCount =>
    exact books_released books (freeLoop_inv inv _ _ _).2.total (freeLoop_test _ _ _)
  | reserveRange base length =>
    apply books.reserve
    · intro f new taken
      have free := (Bitmap.mem_clearBits.mp new).2
      rw [taken.2] at free
      cases free
    · intro f
      simp only [PmmState.Taken, PmmState.exec, pmmReserveRange,
        (reserveFrames_inv inv _ _).2.total, reserveFrames_test, Bitmap.mem_clearBits,
        Bool.or_eq_true, decide_eq_true_eq]
      cases s.frameBitmap.test f <;> grind
  | markAvailableRange base length =>
    apply books_released books (releaseFrames_inv inv _ _).2.total
    intro f
    rw [releaseFrames_test]
    have same : ((base / pageSize ≤ f ∧ f < base / pageSize +
          (min ((base + length) / pageSize) s.totalFrames - base / pageSize)) ∧
          f < s.totalFrames) ↔
        (f ∈ Finset.Ico (base / pageSize) ((base + length) / pageSize) ∧ f < s.totalFrames) := by
      rw [Finset.mem_Ico]
      omega
    simp only [same]
  | configureNumaTopology nodeCount =>
    obtain ⟨-, bitmap, -, total⟩ := pmmConfigureNumaTopology_booted booted nodeCount
    apply books.congr
    intro f
    simp only [PmmState.Taken, PmmState.exec, bitmap, total]

theorem bookRun_books (booted : Booted s) (books : l.Books s.Taken) (ops : List PmmOp) :
    (bookRun s l ops).Books (s.run ops).Taken := by
  induction ops generalizing s l with
  | nil => exact books
  | cons op ops ih => exact ih (booted.exec op) (book_books booted books op)

/-- **The frame allocator refines a set of free frames.**  In every state
reached after boot each call meets the contract, and the frames handed out and
not yet given back are pairwise disjoint and disjoint from the reserved ones. -/
theorem pmm_refines_free_set (ready : pmmInit boot = .ok s) (ops : List PmmOp) :
    RefinesFreeSet (s.run ops) ∧
      (bookRun s (bootLedger s) ops).live.Pairwise Disjoint ∧
      (∀ held ∈ (bookRun s (bootLedger s) ops).live,
        Disjoint held (bookRun s (bootLedger s) ops).reserved) ∧
      ∀ f, (s.run ops).Taken f ↔ f ∈ (bookRun s (bootLedger s) ops).reserved ∨
        ∃ held ∈ (bookRun s (bootLedger s) ops).live, f ∈ held := by
  have booted := (pmmInit_booted ready).1
  have books := bookRun_books booted (bootLedger_books s) ops
  exact ⟨(booted.run ops).toInv.refinesFreeSet, books.disjoint, books.unreserved, books.accounts⟩

theorem pmm_refines_free_set_eightMib :
    ∃ s, pmmInit eightMibBoot = .ok s ∧
      RefinesFreeSet (s.run [.allocFramesOnNode 3 0, .freeFrame 0x181000]) := by
  have found : highestPhysical eightMibBoot = .ok 0x800000 := by decide
  obtain ⟨s, ready⟩ := pmmInit_ok found (by decide) (by decide)
  exact ⟨s, ready, (pmm_refines_free_set ready _).1⟩

end Ledger

end Dfos.Pmm
