import Dfos.Heap.World

/-!
# Room for a block

`kmalloc` reserves a slot or a run of pages.  The block that it returns fits in
what is reserved unless the size of the header, added to the request, passes
`2^32`.
-/

namespace Dfos.Heap

open Dfos.Lib Dfos.Pmm

/-- A slab that hangs at one of the heads. -/
def Listed (h : HeapState) (s : SlabId) : Prop :=
  ∃ c l slabs, Thread h.next ((h.slabCaches c).heads l) slabs ∧ s ∈ slabs

/-- What a call of `kmalloc` that returned `p` reserved, from `start` on: the slot
before whose object the header lies, or the pages that were mapped for it. -/
inductive Reservation (h h' : HeapState) (size p : Nat) : (start length : Nat) → Prop
  | slot {c : CacheId} {s : SlabId} {i : Nat} :
    slabCacheForSize h (max size 1) = some c → Listed h' s → i < (h'.slabMetadataPool s).capacity →
    h'.mapped ((h'.slabMetadataPool s).pageBase / pageSize) = true →
    p = (h'.slabMetadataPool s).pageBase +
      i * (h'.slabCaches (h'.slabMetadataPool s).cache).slotSize + slabObjectHeaderSize →
    Reservation h h' size p (p - slabObjectHeaderSize)
      (h'.slabCaches (h'.slabMetadataPool s).cache).slotSize
  | run {count : Nat} :
    slabCacheForSize h (max size 1) = none →
    h'.memory.u32 (p - largeAllocationHeaderSize + 4) = count →
    (∀ page, (p - largeAllocationHeaderSize) / pageSize ≤ page →
      page < (p - largeAllocationHeaderSize) / pageSize + count →
      h.mapped page = false ∧ h'.mapped page = true) →
    Reservation h h' size p (p - largeAllocationHeaderSize) (count * pageSize)

/-- Callers free live blocks, and a run only where the probe does no harm. -/
def CarefulFree (w : HeapWorld) (p : Nat) : Prop := w.live p ≠ none ∧ w.Harmless p

section Room

variable {pool : Nat} {w : HeapWorld} {g : Shape} {h : HeapState} {size p : Nat}
  {grant : Option Grant}

theorem listed_iff {blocks runs : Nat → Option Nat} {s : SlabId}
    (inv : HeapInv pool h blocks runs g none) : Listed h s ↔ g.active s := by
  constructor
  · rintro ⟨c, l, slabs, thread, member⟩
    rw [thread.unique (inv.lists.heads c l)] at member
    exact ⟨(c, l), member⟩
  · rintro ⟨⟨c, l⟩, member⟩
    exact ⟨c, l, _, inv.lists.heads c l, member⟩

/-- A block from a slab has its slot. -/
theorem slot_room (inv : HeapInv pool w.heap w.blocks w.runs g none) (place : PoolPlace pool)
    (small : size ≤ slabLimit) (fresh : ∀ gr ∈ grant, Fresh w.heap 1 gr)
    (returns : kmalloc pool w.heap size grant = .ok (h, p)) :
    ∃ start length, Reservation w.heap h size p start length ∧
      start ≤ p ∧ p + max size 1 ≤ start + length := by
  have atMost : max size 1 ≤ slabLimit := max_le small (by decide)
  obtain ⟨c, found, -⟩ := slabCacheForSize_small inv.objectSize atMost
  obtain ⟨g', inv', -, -⟩ := inv.kmalloc_small place small fresh returns
  obtain ⟨s, active, i, inside, here, fits, -⟩ := inv'.contents.block_slot (Function.update_self _ _ _)
  have ok := inv'.contents.slabs s active
  have slotSize := (inv'.contents.sizes (h.slabMetadataPool s).cache).2
  have wide := (slotSizeOf_le (h.slabMetadataPool s).cache).1
  refine ⟨_, _, .slot found ((listed_iff inv').mpr active) (by rwa [ok.capacity]) ?_
    (by rw [slotSize]; exact here), Nat.sub_le _ _, ?_⟩
  · exact inv'.contents.mapped_of (show Owns h g'.active w.runs (.slab s) _ from ⟨active, rfl⟩)
  · rw [slotSize, here, slabObjectHeaderSize, Nat.add_sub_cancel]
    omega

/-- What is reserved for a large block is the granted run. -/
theorem run_reservation {blocks runs : Nat → Option Nat} {h : HeapState}
    (inv : HeapInv pool h blocks runs g none) (large : slabLimit < size) {gr : Grant}
    (page : Fresh h (largePageCount size) gr) {start length : Nat} :
    Reservation h (withRun h size gr) size (gr.base + 8) start length ↔
      start = gr.base ∧ length = largePageCount size * pageSize := by
  have one : max size 1 = size := max_eq_left (le_trans (by decide) large.le)
  have noClass := slabCacheForSize_large inv.objectSize large
  have base : gr.base + 8 - largeAllocationHeaderSize = gr.base := Nat.add_sub_cancel _ _
  have count : (withRun h size gr).memory.u32 (gr.base + 4) = largePageCount size := by
    refine ByteMemory.u32_setU32 ?_
    have high := page.high
    have limit : kernelDynamicLimit < 2 ^ 32 := by decide
    unfold pageSize at high
    omega
  constructor
  · intro reserved
    cases reserved with
    | slot found =>
      rw [one, noClass] at found
      cases found
    | run _ header _ =>
      rw [base, count] at header
      rw [base, header]
      exact ⟨rfl, rfl⟩
  · rintro ⟨rfl, rfl⟩
    have reserved : Reservation h (withRun h size gr) size (gr.base + 8)
        (gr.base + 8 - largeAllocationHeaderSize) (largePageCount size * pageSize) := by
      refine .run (by rw [one, noClass]) (by rw [base, count]) fun q low high => ?_
      rw [base] at low high
      exact ⟨page.unmapped q low high, (granted_mapped h _ gr q).mpr (Or.inr ⟨low, high⟩)⟩
    rwa [base] at reserved

/-- **Room for a block**: in every state that a history reaches, `kmalloc` panics or
returns a block, which has room in what is reserved for it unless the sum with
the header wraps. -/
theorem kmalloc_room_iff (place : PoolPlace pool)
    (reached : HeapWorld.Reached pool (· < 2 ^ 32 - 7) CarefulFree w) (word : size < 2 ^ 32)
    (fresh : ∀ gr ∈ grant, Fresh w.heap (pagesAsked size) gr) :
    (∃ text argument, kmalloc pool w.heap size grant = .error (.panic text argument)) ∨
    ∃ h p, kmalloc pool w.heap size grant = .ok (h, p) ∧
      ((∃ start length, Reservation w.heap h size p start length ∧
        start ≤ p ∧ p + max size 1 ≤ start + length) ↔ size < 2 ^ 32 - 7) := by
  obtain ⟨g, inv⟩ := reached.inv place (fun _ noWrap => noWrap) fun _ _ _ careful => Or.inl careful
  by_cases small : size ≤ slabLimit
  · rw [pagesAsked, if_pos small] at fresh
    rcases inv.heap.kmalloc_slab place small fresh with panics | ⟨h, p, -, returns, -⟩
    · exact Or.inl ⟨_, _, panics⟩
    · refine Or.inr ⟨h, p, returns, iff_of_true (slot_room inv.heap place small fresh returns) ?_⟩
      unfold slabLimit at small
      omega
  · have large : slabLimit < size := not_le.mp small
    have one : max size 1 = size := max_eq_left (le_trans (by decide) large.le)
    rw [pagesAsked, if_neg small] at fresh
    rcases inv.heap.kmalloc_run large fresh with panics | ⟨gr, granted, some_pages, returns⟩
    · exact Or.inl ⟨_, _, panics⟩
    · refine Or.inr ⟨_, _, returns, ?_⟩
      simp only [run_reservation inv.heap large (fresh gr granted)]
      rw [← largePageCount_fits word large some_pages, one]
      constructor
      · rintro ⟨_, _, ⟨rfl, rfl⟩, -, fits⟩
        omega
      · intro fits
        exact ⟨_, _, ⟨rfl, rfl⟩, by omega, by omega⟩

end Room

/-! ## A page for four gigabytes -/

/-- The statics before `heap_init`, with nothing mapped. -/
def zeroHeap : HeapState where
  slabCaches _ := { objectSize := 0, slotSize := 0, heads := fun _ => none }
  slabMetadataPool _ :=
    { cache := ⟨0, by decide⟩, pageBase := 0, freeList := 0, inUse := 0, capacity := 0, next := none }
  slabMetadataFreeList := none
  heapReady := false
  memory _ := 0
  mapped _ := false

/-- The first page of the dynamic region. -/
def firstPage : Grant := ⟨kernelDynamicBase, fun _ => 0⟩

theorem firstPage_fresh {count : Nat} (few : count ≤ 64512) :
    Fresh (heapInit zeroHeap) count firstPage := by
  refine ⟨by decide, le_rfl, ?_, fun _ _ _ => rfl⟩
  show kernelDynamicBase + count * pageSize ≤ kernelDynamicLimit
  unfold kernelDynamicBase kernelDynamicLimit pageSize
  omega

theorem zeroHeap_reached (pool : Nat) (sizes : Nat → Prop) (frees : HeapWorld → Nat → Prop) :
    HeapWorld.Reached pool sizes frees (.initial zeroHeap) :=
  ⟨zeroHeap, fun _ => rfl, .refl⟩

theorem zeroHeap_inv (pool : Nat) : (HeapWorld.initial zeroHeap).Inv pool HeapWorld.emptyShape :=
  HeapWorld.initial_inv fun _ => rfl

/-- Where the array of records may lie. -/
def poolAddress : Nat := 0xC0200000

theorem poolAddress_place : PoolPlace poolAddress := by
  unfold PoolPlace
  decide

/-- `kmalloc(0xFFFFFFFF)` returns a block of one page. -/
theorem kmalloc_returns_short :
    ∃ pool w size grant h p, PoolPlace pool ∧
      HeapWorld.Reached pool (· < 2 ^ 32) CarefulFree w ∧ size < 2 ^ 32 ∧
      (∀ gr ∈ grant, Fresh w.heap (pagesAsked size) gr) ∧
      kmalloc pool w.heap size grant = .ok (h, p) ∧
      ¬ ∃ start length, Reservation w.heap h size p start length ∧
        start ≤ p ∧ p + max size 1 ≤ start + length := by
  have inv := (zeroHeap_inv poolAddress).heap
  have large : slabLimit < 0xFFFFFFFF := by decide
  have count : largePageCount 0xFFFFFFFF = 1 := by decide
  have page : Fresh (heapInit zeroHeap) (largePageCount 0xFFFFFFFF) firstPage := by
    rw [count]
    exact firstPage_fresh (by decide)
  refine ⟨poolAddress, .initial zeroHeap, 0xFFFFFFFF, some firstPage, _, _, poolAddress_place,
    zeroHeap_reached _ _ _, by decide, ?_, inv.kmalloc_granted large (by rw [count]; decide) page, ?_⟩
  · rintro gr ⟨⟩
    exact page
  · rintro ⟨start, length, reserved, -, fits⟩
    obtain ⟨rfl, rfl⟩ := (run_reservation inv large page).mp reserved
    rw [count] at fits
    exact absurd fits (by decide)

/-- `kmalloc(4096)` after `heap_init`: two pages, room for the block. -/
theorem kmalloc_room_page :
    (∃ text argument, kmalloc poolAddress (heapInit zeroHeap) 4096 (some firstPage) =
      .error (.panic text argument)) ∨
    ∃ h p, kmalloc poolAddress (heapInit zeroHeap) 4096 (some firstPage) = .ok (h, p) ∧
      ((∃ start length, Reservation (heapInit zeroHeap) h 4096 p start length ∧
        start ≤ p ∧ p + max 4096 1 ≤ start + length) ↔ 4096 < 2 ^ 32 - 7) :=
  kmalloc_room_iff poolAddress_place (zeroHeap_reached poolAddress _ CarefulFree) (by decide)
    (by rintro gr ⟨⟩; exact firstPage_fresh (by decide))

end Dfos.Heap
