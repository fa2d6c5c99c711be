import Dfos.Heap.Contents
import Dfos.Lib.Result

/-!
# The steps of a call

What the code does to a state with the contents `ContentsInv`, up to the moves
between lists: an object is taken or put back, a page is cut up, a run of pages
gets its header.
-/

namespace Dfos.Heap

open Dfos.Lib Dfos.Pmm

/-- The array of records is an object of the address space. -/
def PoolPlace (pool : Nat) : Prop := 0 < pool ∧ pool + slabSize * heapMaxSlabs ≤ 2 ^ 32

/-- Pages that `paging_alloc_pages` may grant: in the dynamic region, and nobody's. -/
structure Fresh (h : HeapState) (pageCount : Nat) (g : Grant) : Prop where
  aligned : pageSize ∣ g.base
  low : kernelDynamicBase ≤ g.base
  high : g.base + pageCount * pageSize ≤ kernelDynamicLimit
  unmapped : ∀ page, g.base / pageSize ≤ page → page < g.base / pageSize + pageCount →
    h.mapped page = false

section Memory

variable {h : HeapState} {a v : Nat}

theorem load_eq (mapped : h.mapped (a / pageSize) = true ∧ h.mapped ((a + 3) / pageSize) = true) :
    h.load a = .ok (h.memory.u32 a) := by
  rw [HeapState.load, if_pos mapped]

theorem store_eq (mapped : h.mapped (a / pageSize) = true ∧ h.mapped ((a + 3) / pageSize) = true) :
    h.store a v = .ok { h with memory := h.memory.setU32 a v } := by
  rw [HeapState.store, if_pos mapped]

end Memory

theorem slabPointer_lt {pool : Nat} (place : PoolPlace pool) (s : SlabId) :
    0 < slabPointer pool s ∧ slabPointer pool s < 2 ^ 32 := by
  obtain ⟨positive, fits⟩ := place
  have small : slabSize * (s : Nat) < slabSize * heapMaxSlabs :=
    Nat.mul_lt_mul_of_pos_left s.isLt (by decide)
  unfold slabPointer
  omega

theorem slabOf_slabPointer (pool : Nat) (s : SlabId) : slabOf pool (slabPointer pool s) = some s := by
  have injective {t : SlabId} (same : slabPointer pool t = slabPointer pool s) : t = s := by
    have product : slabSize * (t : Nat) = slabSize * (s : Nat) := Nat.add_left_cancel same
    exact Fin.ext (Nat.eq_of_mul_eq_mul_left (by decide) product)
  have present : (slabOf pool (slabPointer pool s)).isSome := by
    rw [slabOf, List.find?_isSome]
    exact ⟨s, List.mem_finRange s, by simp⟩
  obtain ⟨t, found⟩ := Option.isSome_iff_exists.mp present
  have same : slabPointer pool t = slabPointer pool s := by
    simpa using List.find?_some found
  rw [found, injective same]

theorem setSlab_setSlab (h : HeapState) (s : SlabId) (r r' : Slab) :
    (h.setSlab s r).setSlab s r' = h.setSlab s r' := by
  simp only [HeapState.setSlab, Function.update_idem]

section Objects

variable {pool : Nat} {h : HeapState} {active : SlabId → Prop} {objects : SlabId → List Nat}
  {blocks runs : Nat → Option Nat} {s : SlabId} {i : Nat}

/-- What `slab_alloc_from_cache` does once it has a slab with a free object. -/
theorem slabTakeObject_eq (inv : ContentsInv pool h active objects blocks runs) (hs : active s)
    (c : CacheId) {o : Nat} {rest : List Nat} (first : objects s = o :: rest) :
    slabTakeObject h c s =
      if rest = [] then
        slabListRemove (taken h s o) c .partialSlabs s >>= fun h =>
          .ok (slabListPush h c .fullSlabs s, some (o + 16))
      else .ok (taken h s o, some (o + 16)) := by
  have ok := inv.slabs s hs
  rw [first] at ok
  obtain ⟨i, inside, rfl⟩ := ok.slots o List.mem_cons_self
  have bounds := ok.slot_bounds inside
  have positive : 0 < kernelDynamicBase := by decide
  have mapped := inv.header_mapped hs inside (show 8 ≤ 12 by decide)
  have last : h.memory.u32 ((h.slabMetadataPool s).slot i + 8) = 0 ↔ rest = [] :=
    ok.take.freeList_eq_zero
  have read : h.load ((h.slabMetadataPool s).slot i + 8) =
      .ok (h.memory.u32 ((h.slabMetadataPool s).slot i + 8)) := load_eq mapped
  rw [slabTakeObject, ok.freeList_eq, if_neg (by omega), read]
  dsimp only [bind, Except.bind]
  rw [store_eq]
  · dsimp only
    by_cases empty : rest = []
    · rw [if_pos empty, if_pos (last.mpr empty)]
      rfl
    · rw [if_neg empty, if_neg (fun zero => empty (last.mp zero))]
      rfl
  · exact mapped

/-- **`slab_free_pointer` on an object of a slab**, given out or not: the object is
put on the free list, unless the slab has nothing in use. -/
theorem slabFreePointer_slot (inv : ContentsInv pool h active objects blocks runs)
    (place : PoolPlace pool) (hs : active s)
    (inside : i < capacityOf (h.slabMetadataPool s).cache) :
    slabFreePointer pool h ((h.slabMetadataPool s).slot i + 16) =
      if (h.slabMetadataPool s).inUse = 0 then
        .error (.panic "double free detected for slab object %p" ((h.slabMetadataPool s).slot i + 16))
      else
        slabRelist (given h s ((h.slabMetadataPool s).slot i)) s
            (decide ((h.slabMetadataPool s).freeList = 0)) >>= fun h => .ok (h, true) := by
  have ok := inv.slabs s hs
  have bounds := ok.slot_bounds inside
  have wide := (slotSizeOf_le (h.slabMetadataPool s).cache).1
  have limit : kernelDynamicLimit + 16 < 2 ^ 32 := by decide
  have object : u32Sub ((h.slabMetadataPool s).slot i + 16) slabObjectHeaderSize =
      (h.slabMetadataPool s).slot i := by
    rw [slabObjectHeaderSize, u32Sub_eq (by omega) (by omega), Nat.add_sub_cancel]
  have magic : h.load ((h.slabMetadataPool s).slot i) = .ok heapSlabMagic := by
    rw [← ok.magic i inside]
    exact load_eq (inv.header_mapped hs inside (Nat.zero_le 12))
  have pointer : h.load (u32Add ((h.slabMetadataPool s).slot i) 4) = .ok (slabPointer pool s) := by
    rw [u32Add_eq (by omega), ← ok.pointer i inside]
    exact load_eq (inv.header_mapped hs inside (by decide))
  have positive := (slabPointer_lt place s).1
  rw [slabFreePointer, object, magic]
  dsimp only [bind, Except.bind]
  rw [if_neg (not_not.mpr rfl), pointer]
  dsimp only
  rw [if_neg (by omega), slabOf_slabPointer]
  dsimp only
  rw [u32Add_eq (by omega), store_eq (inv.header_mapped hs inside (by decide))]
  dsimp only
  rw [HeapState.setSlab_self]
  by_cases unused : (h.slabMetadataPool s).inUse = 0
  · rw [if_pos unused, if_pos unused]
    rfl
  · rw [if_neg unused, if_neg unused, setSlab_setSlab]
    rfl

/-- Changing lists never panics. -/
theorem slabRelist_ne_panic (h : HeapState) (s : SlabId) (wasFull : Bool) (text : String) (argument : Nat) :
    slabRelist h s wasFull ≠ .error (.panic text argument) := by
  have removes (c : CacheId) (l : SlabList) : slabListRemove h c l s ≠ .error (.panic text argument) :=
    fun failed => nomatch slabListRemoveLoop_error failed
  rw [slabRelist]
  split
  · refine bind_ne_error (removes _ _) fun h' => ?_
    split <;> exact nofun
  · split
    · exact bind_ne_error (removes _ _) fun h' => nofun
    · exact nofun

/-- `kfree` on an object of a slab ends in the slab path. -/
theorem kfree_slot (inv : ContentsInv pool h active objects blocks runs) (place : PoolPlace pool)
    (hs : active s) (inside : i < capacityOf (h.slabMetadataPool s).cache) :
    kfree pool h ((h.slabMetadataPool s).slot i + 16) =
      if (h.slabMetadataPool s).inUse = 0 then
        .error (.panic "double free detected for slab object %p" ((h.slabMetadataPool s).slot i + 16))
      else
        slabRelist (given h s ((h.slabMetadataPool s).slot i)) s
          (decide ((h.slabMetadataPool s).freeList = 0)) := by
  rw [kfree, if_neg (Nat.succ_ne_zero _), slabFreePointer_slot inv place hs inside]
  by_cases unused : (h.slabMetadataPool s).inUse = 0
  · rw [if_pos unused, if_pos unused]
    rfl
  · rw [if_neg unused, if_neg unused]
    cases slabRelist (given h s ((h.slabMetadataPool s).slot i)) s _ <;> rfl

/-- It panics exactly where the slab has nothing in use. -/
theorem kfree_slot_panics (inv : ContentsInv pool h active objects blocks runs)
    (place : PoolPlace pool) (hs : active s)
    (inside : i < capacityOf (h.slabMetadataPool s).cache) :
    kfree pool h ((h.slabMetadataPool s).slot i + 16) =
      .error (.panic "double free detected for slab object %p" ((h.slabMetadataPool s).slot i + 16)) ↔
      (h.slabMetadataPool s).inUse = 0 := by
  rw [kfree_slot inv place hs inside]
  by_cases unused : (h.slabMetadataPool s).inUse = 0
  · rw [if_pos unused]
    exact iff_of_true rfl unused
  · rw [if_neg unused]
    exact iff_of_false (slabRelist_ne_panic _ _ _ _ _) unused

end Objects

section Pages

variable {pool : Nat} {s : SlabId}

/-- The state after a grant of pages. -/
def granted (h : HeapState) (count : Nat) (gr : Grant) : HeapState :=
  { h with
    memory := h.memory.overlay gr.base (count * pageSize) gr.contents
    mapped := fun page => h.mapped page ||
      decide (gr.base / pageSize ≤ page ∧ page < gr.base / pageSize + count) }

theorem pagingAllocPages_some {h : HeapState} {count : Nat} (some_pages : count ≠ 0) (gr : Grant) :
    pagingAllocPages h count (some gr) = (granted h count gr, some gr.base) :=
  if_neg some_pages

theorem granted_mapped (h : HeapState) (count : Nat) (gr : Grant) (page : Nat) :
    (granted h count gr).mapped page = true ↔ h.mapped page = true ∨
      gr.base / pageSize ≤ page ∧ page < gr.base / pageSize + count := by
  simp only [granted, Bool.or_eq_true, decide_eq_true_eq]

/-- Bytes outside the granted pages are as before. -/
theorem granted_outside {h : HeapState} {count : Nat} {gr : Grant} (aligned : pageSize ∣ gr.base)
    {a : Nat} (other : ¬ (gr.base / pageSize ≤ a / pageSize ∧
      a / pageSize < gr.base / pageSize + count)) : (granted h count gr).memory a = h.memory a := by
  refine ByteMemory.overlay_outside fun within => other ?_
  have positive : 0 < pageSize := by decide
  refine ⟨Nat.div_le_div_right within.1, ?_⟩
  rw [Nat.div_lt_iff_lt_mul positive, Nat.add_mul, Nat.div_mul_cancel aligned]
  exact within.2

theorem pagingFreePages_eq (h : HeapState) {base count : Nat} (low : kernelDynamicBase ≤ base)
    (some_pages : count ≠ 0) (high : base + count * pageSize ≤ kernelDynamicLimit) :
    ∃ maps, pagingFreePages h base count = { h with mapped := maps } ∧
      ∀ page, maps page = true ↔ h.mapped page = true ∧
        ¬ (base / pageSize ≤ page ∧ page < base / pageSize + count) := by
  have positive : 0 < kernelDynamicBase := by decide
  have limit : kernelDynamicLimit < 0xFFFFFFFF := by decide
  refine ⟨_, if_neg ?_, fun page => ?_⟩
  · rintro (zero | none_asked | beyond)
    · omega
    · exact some_pages none_asked
    · omega
  · simp only [Bool.and_eq_true, Bool.not_eq_true', decide_eq_false_iff_not]

/-- The record that `slab_create` starts with. -/
def newSlab (c : CacheId) (page : Nat) : Slab where
  cache := c
  pageBase := page
  freeList := 0
  inUse := 0
  capacity := capacityOf c
  next := none

/-- One round of the loop of `slab_create`. -/
theorem slabCreateLoop_succ {h : HeapState} {record : Slab} (here : h.slabMetadataPool s = record)
    {page slotSize left i : Nat}
    (mapped : ∀ k < 16, h.mapped ((page + i * slotSize + k) / pageSize) = true) :
    slabCreateLoop pool s page slotSize (left + 1) i h =
      slabCreateLoop pool s page slotSize left (i + 1)
        (({ h with
            memory := writeHeader h.memory (page + i * slotSize) (slabPointer pool s) record.freeList
            } : HeapState).setSlab s { record with freeList := page + i * slotSize }) := by
  subst here
  have first : h.mapped ((page + i * slotSize) / pageSize) = true ∧
      h.mapped ((page + i * slotSize + 3) / pageSize) = true :=
    ⟨mapped 0 (by decide), mapped 3 (by decide)⟩
  rw [slabCreateLoop, store_eq first]
  dsimp only [bind, Except.bind]
  rw [store_eq]
  · dsimp only
    rw [store_eq]
    · dsimp only
      rw [store_eq]
      · rfl
      · exact ⟨mapped 8 (by decide), mapped 11 (by decide)⟩
    · exact ⟨mapped 12 (by decide), mapped 15 (by decide)⟩
  · exact ⟨mapped 4 (by decide), mapped 7 (by decide)⟩

/-- **The loop of `slab_create`** cuts the whole page and writes nowhere else. -/
theorem slabCreateLoop_carves (place : PoolPlace pool) {h : HeapState} {record : Slab}
    (here : h.slabMetadataPool s = record) (aligned : pageSize ∣ record.pageBase)
    (low : kernelDynamicBase ≤ record.pageBase)
    (high : record.pageBase + pageSize ≤ kernelDynamicLimit)
    (mapped : h.mapped (record.pageBase / pageSize) = true) {left i : Nat}
    (whole : i + left = capacityOf record.cache) (carved : Carved pool h.memory s record i) :
    ∃ m f, slabCreateLoop pool s record.pageBase (slotSizeOf record.cache) left i h =
        .ok (({ h with memory := m } : HeapState).setSlab s { record with freeList := f }) ∧
      Carved pool m s { record with freeList := f } (capacityOf record.cache) ∧
      ∀ a, a / pageSize ≠ record.pageBase / pageSize → m a = h.memory a := by
  induction left generalizing i h record with
  | zero =>
    obtain rfl : i = capacityOf record.cache := whole
    refine ⟨h.memory, record.freeList, ?_, carved, fun _ _ => rfl⟩
    subst here
    simp only [slabCreateLoop, HeapState.setSlab, Function.update_eq_self]
  | succ left ih =>
    have inside : i < capacityOf record.cache := by omega
    have bounds := record.slot_inside inside
    have wide := (slotSizeOf_le record.cache).1
    have limit : kernelDynamicLimit < 2 ^ 32 := by decide
    have positive : 0 < kernelDynamicBase := by decide
    have header (k : Nat) (small : k < 16) :
        h.mapped ((record.pageBase + i * slotSizeOf record.cache + k) / pageSize) = true := by
      have samePage : (record.slot i + k) / pageSize = record.pageBase / pageSize :=
        page_eq aligned (by omega) (by omega)
      rw [Slab.slot] at samePage
      rw [samePage]
      exact mapped
    rw [slabCreateLoop_succ here header]
    have self := HeapState.setSlab_self
      { h with memory := writeHeader h.memory (record.slot i) (slabPointer pool s) record.freeList }
      s { record with freeList := record.slot i }
    obtain ⟨m, f, ran, done, outside⟩ := ih self aligned low high mapped
      (show i + 1 + left = capacityOf record.cache by omega)
      (carved.step (slabPointer_lt place s).2 (by omega) (by omega))
    refine ⟨m, f, ran.trans ?_, done, fun a other => (outside a other).trans ?_⟩
    · exact congrArg Except.ok (setSlab_setSlab { h with memory := m } s _ _)
    · refine writeHeader_outside fun within => other ?_
      exact page_eq aligned (by omega) (by omega)

/-- `slab_create` where it gets a page and a record. -/
theorem slabCreate_eq {h h' : HeapState} {c : CacheId} {gr : Grant}
    (allocated : slabMetadataAlloc (granted h 1 gr) = (h', some s))
    (slotSize : (h'.slabCaches c).slotSize = slotSizeOf c) :
    slabCreate pool h c (some gr) =
      slabCreateLoop pool s gr.base (slotSizeOf c) (capacityOf c) 0
        (h'.setSlab s (newSlab c gr.base)) >>= fun h => .ok (h, some s) := by
  have few := capacityOf_le c
  have capacity : pageSize / (h'.slabCaches c).slotSize = capacityOf c := by
    rw [slotSize]
    rfl
  have narrow : capacityOf c % 2 ^ 16 = capacityOf c := Nat.mod_eq_of_lt (by omega)
  rw [slabCreate, pagingAllocPages_some (by decide)]
  dsimp only
  rw [allocated]
  dsimp only
  rw [capacity, if_neg (by omega), narrow, ← slotSize]
  rfl

/-- The state after the header of a run is written in granted pages. -/
def withRun (h : HeapState) (size : Nat) (gr : Grant) : HeapState :=
  { granted h (largePageCount size) gr with
    memory := ((granted h (largePageCount size) gr).memory.setU32 gr.base heapLargeMagic).setU32
      (gr.base + 4) (largePageCount size) }

/-- `allocate_large` where it gets its pages. -/
theorem allocateLarge_eq {h : HeapState} {size : Nat} {gr : Grant}
    (some_pages : largePageCount size ≠ 0) (page : Fresh h (largePageCount size) gr) :
    allocateLarge h size (some gr) = .ok (withRun h size gr, some (gr.base + 8)) := by
  have mapped (k : Nat) (inside : k < pageSize) :
      (granted h (largePageCount size) gr).mapped ((gr.base + k) / pageSize) = true := by
    rw [granted_mapped, page_eq page.aligned (Nat.le_add_right _ _) (Nat.add_lt_add_left inside _)]
    exact Or.inr ⟨le_rfl, by omega⟩
  have first : (granted h (largePageCount size) gr).mapped (gr.base / pageSize) = true :=
    mapped 0 (by decide)
  rw [allocateLarge, pagingAllocPages_some some_pages]
  dsimp only [bind, Except.bind]
  rw [store_eq ⟨first, mapped 3 (by decide)⟩]
  dsimp only
  rw [store_eq]
  · rfl
  · exact ⟨mapped 4 (by decide), mapped 7 (by decide)⟩

/-- The header is written in the granted pages. -/
theorem withRun_outside {h : HeapState} {size : Nat} {gr : Grant} {a : Nat}
    (some_pages : largePageCount size ≠ 0) (page : Fresh h (largePageCount size) gr)
    (other : ¬ (gr.base / pageSize ≤ a / pageSize ∧
      a / pageSize < gr.base / pageSize + largePageCount size)) :
    (withRun h size gr).memory a = h.memory a := by
  have header : ¬ (gr.base ≤ a ∧ a < gr.base + 8) := by
    rintro ⟨low, high⟩
    refine other ?_
    rw [page_eq page.aligned low (by unfold pageSize; omega)]
    omega
  have magic : ¬ (gr.base ≤ a ∧ a < gr.base + 4) := by omega
  have count : ¬ (gr.base + 4 ≤ a ∧ a < gr.base + 4 + 4) := by omega
  show ((granted h (largePageCount size) gr).memory.setU32 gr.base heapLargeMagic).setU32
    (gr.base + 4) (largePageCount size) a = h.memory a
  rw [ByteMemory.setU32, ByteMemory.overlay_outside count, ByteMemory.setU32,
    ByteMemory.overlay_outside magic]
  exact granted_outside page.aligned other

end Pages

end Dfos.Heap
