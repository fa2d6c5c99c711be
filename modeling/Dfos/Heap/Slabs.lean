import Dfos.Lib.ByteMemory
import Dfos.Lib.Thread
import Dfos.Lib.Word
import Dfos.Pmm.Frames

/-!
# The kernel heap

`kernel/kernel/heap.c`.  The records of the slabs and of the caches are statics
of the kernel; a pointer to one is its index, except where it is stored in an
object's header, which lies in memory that others write to.  Memory is a map
from addresses to bytes, of which only mapped pages can be read or written.

`paging_alloc_pages` is asked at most once in a call.  What it answers is an
argument of the call: nothing, or a base and what the pages held before.
-/

namespace Dfos.Heap

open Dfos.Lib Dfos.Pmm

def kernelDynamicBase : Nat := 0xF0000000
def kernelDynamicLimit : Nat := 0xFFC00000

def slabCacheCount : Nat := 9
def heapMaxSlabs : Nat := 256

def heapSlabMagic : Nat := 0x534C4142
def heapLargeMagic : Nat := 0x4C415247

/-- `sizeof(slab_object_header_t)`. -/
def slabObjectHeaderSize : Nat := 16

/-- `sizeof(large_allocation_header_t)`. -/
def largeAllocationHeaderSize : Nat := 8

/-- `sizeof(slab_t)`. -/
def slabSize : Nat := 20

abbrev CacheId := Fin slabCacheCount
abbrev SlabId := Fin heapMaxSlabs

/-- The lists `partial`, `full` and `empty` of a cache. -/
inductive SlabList where
  | partialSlabs
  | fullSlabs
  | emptySlabs
  deriving DecidableEq, Repr

/-- `slab_cache_t`, with the heads of its three lists. -/
structure SlabCache where
  objectSize : Nat
  slotSize : Nat
  heads : SlabList → Option SlabId

/-- `slab_t`.  `freeList` is the address of an object's header, zero for `NULL`. -/
structure Slab where
  cache : CacheId
  pageBase : Nat
  freeList : Nat
  inUse : Nat
  capacity : Nat
  next : Option SlabId

/-- The statics of `heap.c` and the dynamic region.  `mapped` is by page number. -/
structure HeapState where
  slabCaches : CacheId → SlabCache
  slabMetadataPool : SlabId → Slab
  slabMetadataFreeList : Option SlabId
  heapReady : Bool
  memory : ByteMemory
  mapped : Nat → Bool

/-- How a call fails to return: a panic with its argument, an access to an
unmapped page, a header whose slab pointer is no record, or a list whose end is
not found. -/
inductive HeapFault where
  | panic (text : String) (argument : Nat)
  | pageFault (address : Nat)
  | wildSlab (pointer : Nat)
  | endless
  deriving DecidableEq, Repr

/-- What `paging_alloc_pages` grants: the first page and the bytes in the pages. -/
structure Grant where
  base : Nat
  contents : Nat → BitVec 8

/-! ## Memory -/

namespace HeapState

/-- A word is read. -/
def load (h : HeapState) (a : Nat) : Except HeapFault Nat :=
  if h.mapped (a / pageSize) ∧ h.mapped ((a + 3) / pageSize) then .ok (h.memory.u32 a)
  else .error (.pageFault a)

/-- A word is written. -/
def store (h : HeapState) (a v : Nat) : Except HeapFault HeapState :=
  if h.mapped (a / pageSize) ∧ h.mapped ((a + 3) / pageSize) then
    .ok { h with memory := h.memory.setU32 a v }
  else .error (.pageFault a)

/-- `slab->… = …`. -/
def setSlab (h : HeapState) (slab : SlabId) (record : Slab) : HeapState :=
  { h with slabMetadataPool := Function.update h.slabMetadataPool slab record }

@[simp] theorem setSlab_self (h : HeapState) (slab : SlabId) (record : Slab) :
    (h.setSlab slab record).slabMetadataPool slab = record :=
  Function.update_self _ _ _

theorem setSlab_of_ne (h : HeapState) {slab other : SlabId} (distinct : other ≠ slab)
    (record : Slab) : (h.setSlab slab record).slabMetadataPool other = h.slabMetadataPool other :=
  Function.update_of_ne distinct _ _

/-- A record that keeps its cache and its page. -/
theorem setSlab_place (h : HeapState) {slab : SlabId} {record : Slab}
    (cache : record.cache = (h.slabMetadataPool slab).cache)
    (base : record.pageBase = (h.slabMetadataPool slab).pageBase) (other : SlabId) :
    ((h.setSlab slab record).slabMetadataPool other).cache = (h.slabMetadataPool other).cache ∧
      ((h.setSlab slab record).slabMetadataPool other).pageBase =
        (h.slabMetadataPool other).pageBase := by
  by_cases same : other = slab
  · rw [same, setSlab_self]
    exact ⟨cache, base⟩
  · rw [setSlab_of_ne _ same]
    exact ⟨rfl, rfl⟩

/-- The head of a list is set. -/
def setHead (h : HeapState) (cache : CacheId) (list : SlabList) (head : Option SlabId) :
    HeapState :=
  { h with
    slabCaches := Function.update h.slabCaches cache
      { h.slabCaches cache with
        heads := Function.update (h.slabCaches cache).heads list head } }

/-- `slab->next = …`. -/
def setNext (h : HeapState) (slab : SlabId) (next : Option SlabId) : HeapState :=
  h.setSlab slab { h.slabMetadataPool slab with next := next }

end HeapState

/-- `paging_alloc_pages`. -/
def pagingAllocPages (h : HeapState) (pageCount : Nat) (grant : Option Grant) :
    HeapState × Option Nat :=
  match grant with
  | none => (h, none)
  | some g =>
      if pageCount = 0 then (h, none)
      else
        ({ h with
          memory := h.memory.overlay g.base (pageCount * pageSize) g.contents
          mapped := fun page => h.mapped page ||
            decide (g.base / pageSize ≤ page ∧ page < g.base / pageSize + pageCount) },
          some g.base)

/-- `paging_free_pages`. -/
def pagingFreePages (h : HeapState) (base pageCount : Nat) : HeapState :=
  if base = 0 ∨ pageCount = 0 ∨ 0xFFFFFFFF < base + pageCount * pageSize then h
  else
    { h with
      mapped := fun page => h.mapped page &&
        !decide (base / pageSize ≤ page ∧ page < base / pageSize + pageCount) }

/-! ## Lists of slabs -/

/-- `align_up_size`, for an alignment that is a power of two. -/
def alignUpSize (value alignment : Nat) : Nat :=
  (value + alignment - 1) % 2 ^ 32 / alignment * alignment

/-- `slab_list_push`. -/
def slabListPush (h : HeapState) (cache : CacheId) (list : SlabList) (slab : SlabId) : HeapState :=
  (h.setNext slab ((h.slabCaches cache).heads list)).setHead cache list (some slab)

/-- The loop of `slab_list_remove`.  `cursor` is the link in the record of
`previous`, or the head. -/
def slabListRemoveLoop (cache : CacheId) (list : SlabList) (slab : SlabId) (h : HeapState) :
    (rounds : Nat) → (previous cursor : Option SlabId) → Except HeapFault HeapState
  | _, _, none => .ok h
  | 0, _, some _ => .error .endless
  | rounds + 1, previous, some current =>
      if current = slab then
        let after := (h.slabMetadataPool slab).next
        let h := match previous with
          | none => h.setHead cache list after
          | some p => h.setNext p after
        .ok (h.setNext slab none)
      else
        slabListRemoveLoop cache list slab h rounds (some current)
          (h.slabMetadataPool current).next

/-- `slab_list_remove`; a list that is not a cycle has at most all the records. -/
def slabListRemove (h : HeapState) (cache : CacheId) (list : SlabList) (slab : SlabId) :
    Except HeapFault HeapState :=
  slabListRemoveLoop cache list slab h heapMaxSlabs none ((h.slabCaches cache).heads list)

/-- `slab_metadata_alloc`. -/
def slabMetadataAlloc (h : HeapState) : HeapState × Option SlabId :=
  match h.slabMetadataFreeList with
  | none => (h, none)
  | some slab =>
      ({ h with slabMetadataFreeList := (h.slabMetadataPool slab).next }.setNext slab none,
        some slab)

/-- `slab_metadata_free`. -/
def slabMetadataFree (h : HeapState) (slab : SlabId) : HeapState :=
  { h.setNext slab h.slabMetadataFreeList with slabMetadataFreeList := some slab }

/-- `slab_cache_for_size`. -/
def slabCacheForSize (h : HeapState) (size : Nat) : Option CacheId :=
  (List.finRange slabCacheCount).find? fun i => size ≤ (h.slabCaches i).objectSize

/-! ## Slabs -/

/-- The address of a record in `slab_metadata_pool`, which starts at `pool`. -/
def slabPointer (pool : Nat) (slab : SlabId) : Nat := pool + slabSize * slab

/-- The record that a pointer points to. -/
def slabOf (pool pointer : Nat) : Option SlabId :=
  (List.finRange heapMaxSlabs).find? fun slab => slabPointer pool slab = pointer

section Slabs

variable (pool : Nat)

/-- The loop of `slab_create`: the header of object `i` and those behind it. -/
def slabCreateLoop (slab : SlabId) (page slotSize : Nat) :
    (left i : Nat) → HeapState → Except HeapFault HeapState
  | 0, _, h => .ok h
  | left + 1, i, h => do
      let object := page + i * slotSize
      let h ← h.store object heapSlabMagic
      let h ← h.store (object + 4) (slabPointer pool slab)
      let h ← h.store (object + 12) 0
      let h ← h.store (object + 8) (h.slabMetadataPool slab).freeList
      let h := h.setSlab slab { h.slabMetadataPool slab with freeList := object }
      slabCreateLoop slab page slotSize left (i + 1) h

/-- `slab_create`. -/
def slabCreate (h : HeapState) (cache : CacheId) (grant : Option Grant) :
    Except HeapFault (HeapState × Option SlabId) := do
  match pagingAllocPages h 1 grant with
  | (h, none) => return (h, none)
  | (h, some page) =>
      match slabMetadataAlloc h with
      | (h, none) => return (pagingFreePages h page 1, none)
      | (h, some slab) =>
          let capacity := pageSize / (h.slabCaches cache).slotSize
          if capacity = 0 then return (pagingFreePages (slabMetadataFree h slab) page 1, none)
          let h := h.setSlab slab
            { cache := cache, pageBase := page, freeList := 0, inUse := 0,
              capacity := capacity % 2 ^ 16, next := none }
          let h ← slabCreateLoop pool slab page (h.slabCaches cache).slotSize capacity 0 h
          return (h, some slab)

/-- `slab_destroy`. -/
def slabDestroy (h : HeapState) (slab : SlabId) : HeapState :=
  slabMetadataFree (pagingFreePages h (h.slabMetadataPool slab).pageBase 1) slab

/-- The slab that `slab_alloc_from_cache` takes its object from, first on
`partial`. -/
def slabForAlloc (h : HeapState) (cache : CacheId) (grant : Option Grant) :
    Except HeapFault (HeapState × Option SlabId) := do
  match (h.slabCaches cache).heads .partialSlabs with
  | some slab => return (h, some slab)
  | none =>
      match (h.slabCaches cache).heads .emptySlabs with
      | some slab =>
          let h ← slabListRemove h cache .emptySlabs slab
          return (slabListPush h cache .partialSlabs slab, some slab)
      | none =>
          match ← slabCreate pool h cache grant with
          | (h, none) => return (h, none)
          | (h, some slab) => return (slabListPush h cache .partialSlabs slab, some slab)

/-- The rest of `slab_alloc_from_cache`: the first object of the slab. -/
def slabTakeObject (h : HeapState) (cache : CacheId) (slab : SlabId) :
    Except HeapFault (HeapState × Option Nat) := do
  let object := (h.slabMetadataPool slab).freeList
  if object = 0 then return (h, none)
  let next ← h.load (object + 8)
  let h := h.setSlab slab
    { h.slabMetadataPool slab with
      freeList := next, inUse := ((h.slabMetadataPool slab).inUse + 1) % 2 ^ 16 }
  let h ← h.store (object + 8) 0
  if next = 0 then
    let h ← slabListRemove h cache .partialSlabs slab
    return (slabListPush h cache .fullSlabs slab, some (object + slabObjectHeaderSize))
  return (h, some (object + slabObjectHeaderSize))

/-- `slab_alloc_from_cache`. -/
def slabAllocFromCache (h : HeapState) (cache : CacheId) (grant : Option Grant) :
    Except HeapFault (HeapState × Option Nat) := do
  match ← slabForAlloc pool h cache grant with
  | (h, none) => return (h, none)
  | (h, some slab) => slabTakeObject h cache slab

/-- The end of `slab_free_pointer`: the slab changes its list. -/
def slabRelist (h : HeapState) (slab : SlabId) (wasFull : Bool) : Except HeapFault HeapState := do
  let cache := (h.slabMetadataPool slab).cache
  if (h.slabMetadataPool slab).inUse = 0 then
    let h ← slabListRemove h cache (if wasFull then .fullSlabs else .partialSlabs) slab
    match (h.slabCaches cache).heads .emptySlabs with
    | none => return slabListPush h cache .emptySlabs slab
    | some _ => return slabDestroy h slab
  if wasFull then
    let h ← slabListRemove h cache .fullSlabs slab
    return slabListPush h cache .partialSlabs slab
  return h

/-- `slab_free_pointer`. -/
def slabFreePointer (h : HeapState) (ptr : Nat) : Except HeapFault (HeapState × Bool) := do
  let object := u32Sub ptr slabObjectHeaderSize
  let magic ← h.load object
  if magic ≠ heapSlabMagic then return (h, false)
  let pointer ← h.load (u32Add object 4)
  if pointer = 0 then return (h, false)
  match slabOf pool pointer with
  | none => throw (.wildSlab pointer)
  | some slab =>
      let wasFull := (h.slabMetadataPool slab).freeList = 0
      let h ← h.store (u32Add object 8) (h.slabMetadataPool slab).freeList
      let h := h.setSlab slab { h.slabMetadataPool slab with freeList := object }
      if (h.slabMetadataPool slab).inUse = 0 then
        throw (.panic "double free detected for slab object %p" ptr)
      let h := h.setSlab slab
        { h.slabMetadataPool slab with inUse := (h.slabMetadataPool slab).inUse - 1 }
      return (← slabRelist h slab wasFull, true)

/-! ## Large blocks and the interface -/

/-- `page_count` of a large block. -/
def largePageCount (size : Nat) : Nat :=
  alignUpSize (u32Add size largeAllocationHeaderSize) pageSize / pageSize

/-- `allocate_large`. -/
def allocateLarge (h : HeapState) (size : Nat) (grant : Option Grant) :
    Except HeapFault (HeapState × Option Nat) := do
  match pagingAllocPages h (largePageCount size) grant with
  | (h, none) => return (h, none)
  | (h, some allocation) =>
      let h ← h.store allocation heapLargeMagic
      let h ← h.store (allocation + 4) (largePageCount size)
      return (h, some (allocation + largeAllocationHeaderSize))

/-- `object_sizes`. -/
def objectSizes (cache : CacheId) : Nat :=
  [8, 16, 32, 64, 128, 256, 512, 1024, 2048].getD cache 0

/-- `heap_init`. -/
def heapInit (h : HeapState) : HeapState :=
  { h with
    slabMetadataPool := fun slab =>
      { h.slabMetadataPool slab with
        next := if last : (slab : Nat) + 1 < heapMaxSlabs then some ⟨slab + 1, last⟩ else none }
    slabMetadataFreeList := some ⟨0, by decide⟩
    slabCaches := fun cache =>
      { objectSize := objectSizes cache
        slotSize := alignUpSize (slabObjectHeaderSize + objectSizes cache) 8
        heads := fun _ => none }
    heapReady := true }

/-- `kmalloc`. -/
def kmalloc (h : HeapState) (size : Nat) (grant : Option Grant) :
    Except HeapFault (HeapState × Nat) := do
  if ¬ h.heapReady then throw (.panic "kmalloc before heap_init" 0)
  let size := if size = 0 then 1 else size
  let (h, allocation) ← match slabCacheForSize h size with
    | some cache => slabAllocFromCache pool h cache grant
    | none => allocateLarge h size grant
  match allocation with
  | none => throw (.panic "kmalloc(%u) exhausted heap resources" size)
  | some ptr => return (h, ptr)

/-- `kfree`. -/
def kfree (h : HeapState) (ptr : Nat) : Except HeapFault HeapState := do
  if ptr = 0 then return h
  match ← slabFreePointer pool h ptr with
  | (h, true) => return h
  | (h, false) =>
      let header := u32Sub ptr largeAllocationHeaderSize
      let magic ← h.load header
      if magic ≠ heapLargeMagic then throw (.panic "kfree on unknown pointer %p" ptr)
      let pageCount ← h.load (u32Add header 4)
      return pagingFreePages h header pageCount

end Slabs

end Dfos.Heap
