import Dfos.Heap.Slabs
import Mathlib.Data.List.Perm.Subperm

/-!
# The objects of one slab

The page of a slab is cut into slots, each with a header of 16 bytes before the
object.  `SlabOk` reads the record and the headers: all name the slab, and the
free objects hang on the list that starts in the record.
-/

namespace Dfos.Heap

open Dfos.Lib Dfos.Pmm

/-- `slot_size` as `heap_init` sets it. -/
def slotSizeOf (cache : CacheId) : Nat := slabObjectHeaderSize + objectSizes cache

/-- `capacity` as `slab_create` sets it. -/
def capacityOf (cache : CacheId) : Nat := pageSize / slotSizeOf cache

/-- The header of object `i`. -/
def Slab.slot (record : Slab) (i : Nat) : Nat := record.pageBase + i * slotSizeOf record.cache

/-- A pointer that may be `NULL`. -/
def nonNull (a : Nat) : Option Nat := if a = 0 then none else some a

/-- `object->next`. -/
def nextObject (m : ByteMemory) (object : Nat) : Option Nat := nonNull (m.u32 (object + 8))

/-- The record of a slab and its page, with the objects on its free list. -/
structure SlabOk (pool : Nat) (m : ByteMemory) (slab : SlabId) (record : Slab)
    (objects : List Nat) : Prop where
  aligned : pageSize ∣ record.pageBase
  low : kernelDynamicBase ≤ record.pageBase
  high : record.pageBase + pageSize ≤ kernelDynamicLimit
  capacity : record.capacity = capacityOf record.cache
  magic : ∀ i < capacityOf record.cache, m.u32 (record.slot i) = heapSlabMagic
  pointer : ∀ i < capacityOf record.cache, m.u32 (record.slot i + 4) = slabPointer pool slab
  free : Thread (nextObject m) (nonNull record.freeList) objects
  slots : ∀ o ∈ objects, ∃ i < capacityOf record.cache, o = record.slot i
  nodup : objects.Nodup
  count : record.inUse + objects.length = record.capacity

/-! ## Slots -/

theorem slotSizeOf_le (cache : CacheId) : 24 ≤ slotSizeOf cache ∧ slotSizeOf cache ≤ 2064 := by
  revert cache
  decide

theorem capacityOf_le (cache : CacheId) : 0 < capacityOf cache ∧ capacityOf cache ≤ 170 := by
  revert cache
  decide

/-- The slots fit in the page. -/
theorem slot_fits {cache : CacheId} {i : Nat} (inside : i < capacityOf cache) :
    i * slotSizeOf cache + slotSizeOf cache ≤ pageSize :=
  calc i * slotSizeOf cache + slotSizeOf cache
      = (i + 1) * slotSizeOf cache := (Nat.succ_mul _ _).symm
    _ ≤ capacityOf cache * slotSizeOf cache := Nat.mul_le_mul_right _ inside
    _ ≤ pageSize := Nat.div_mul_le_self _ _

section Slots

variable {record : Slab} {i j : Nat}

theorem Slab.slot_inside (record : Slab) (inside : i < capacityOf record.cache) :
    record.pageBase ≤ record.slot i ∧
      record.slot i + slotSizeOf record.cache ≤ record.pageBase + pageSize := by
  have fits := slot_fits inside
  unfold Slab.slot
  omega

/-- Two slots have no byte in common. -/
theorem Slab.slot_apart (record : Slab) (other : i ≠ j) :
    record.slot i + slotSizeOf record.cache ≤ record.slot j ∨
      record.slot j + slotSizeOf record.cache ≤ record.slot i := by
  have before {i j : Nat} (less : i < j) :
      record.slot i + slotSizeOf record.cache ≤ record.slot j := by
    have steps : (i + 1) * slotSizeOf record.cache ≤ j * slotSizeOf record.cache :=
      Nat.mul_le_mul_right _ less
    rw [Nat.succ_mul] at steps
    unfold Slab.slot
    omega
  rcases Nat.lt_or_gt_of_ne other with less | greater
  · exact Or.inl (before less)
  · exact Or.inr (before greater)

theorem Slab.slot_injective (record : Slab) (same : record.slot i = record.slot j) : i = j := by
  by_contra other
  have wide := (slotSizeOf_le record.cache).1
  have apart := record.slot_apart other
  omega

/-- An address in a page, by its page number. -/
theorem page_eq {base a : Nat} (aligned : pageSize ∣ base) (low : base ≤ a)
    (high : a < base + pageSize) : a / pageSize = base / pageSize := by
  obtain ⟨k, rfl⟩ := aligned
  rw [Nat.mul_div_cancel_left k (by decide : 0 < pageSize)]
  have positive : 0 < pageSize := by decide
  exact Nat.div_eq_of_lt_le (by rw [Nat.mul_comm]; exact low)
    (by rw [Nat.succ_mul, Nat.mul_comm]; exact high)

end Slots

namespace SlabOk

variable {pool : Nat} {m m' : ByteMemory} {slab : SlabId} {record record' : Slab}
  {objects : List Nat} {o i : Nat}

/-- Only the headers are read, and the link between slabs is not. -/
theorem frame (ok : SlabOk pool m slab record objects)
    (same : { record' with next := none } = { record with next := none })
    (bytes : ∀ i < capacityOf record.cache, ∀ k < 16, m' (record.slot i + k) = m (record.slot i + k)) :
    SlabOk pool m' slab record' objects := by
  obtain ⟨cache, pageBase, freeList, inUse, capacity, next⟩ := record
  obtain ⟨cache', pageBase', freeList', inUse', capacity', next'⟩ := record'
  obtain ⟨rfl, rfl, rfl, rfl, rfl, -⟩ := Slab.mk.inj same
  have word {i k : Nat} (inside : i < capacityOf cache') (low : k ≤ 12) :
      m'.u32 (pageBase' + i * slotSizeOf cache' + k) = m.u32 (pageBase' + i * slotSizeOf cache' + k) :=
    ByteMemory.u32_congr fun b small => by
      rw [Nat.add_assoc]
      exact bytes i inside (k + b) (by omega)
  refine ⟨ok.aligned, ok.low, ok.high, ok.capacity, fun i inside => ?_, fun i inside => ?_, ?_,
    ok.slots, ok.nodup, ok.count⟩
  · exact (word inside (Nat.zero_le 12)).trans (ok.magic i inside)
  · exact (word inside (by decide)).trans (ok.pointer i inside)
  · refine ok.free.congr fun y hy => ?_
    obtain ⟨i, inside, rfl⟩ := ok.slots y hy
    exact congrArg nonNull (word inside (by decide))

theorem freeList_eq {rest : List Nat} (ok : SlabOk pool m slab record (o :: rest)) :
    record.freeList = o := by
  have head := ok.free.1
  unfold nonNull at head
  split at head
  · cases head
  · exact Option.some.inj head

/-- The free list ends where it is empty, and only there: no object is at zero. -/
theorem freeList_eq_zero (ok : SlabOk pool m slab record objects) :
    record.freeList = 0 ↔ objects = [] := by
  cases objects with
  | nil =>
    have head : nonNull record.freeList = none := ok.free
    unfold nonNull at head
    split at head
    · exact iff_of_true ‹_› rfl
    · cases head
  | cons o rest =>
    have head := ok.free.1
    refine iff_of_false (fun zero => ?_) (List.cons_ne_nil _ _)
    rw [nonNull, if_pos zero] at head
    cases head

theorem slot_bounds (ok : SlabOk pool m slab record objects) (inside : i < capacityOf record.cache) :
    kernelDynamicBase ≤ record.slot i ∧
      record.slot i + slotSizeOf record.cache ≤ kernelDynamicLimit := by
  have within := record.slot_inside inside
  have low := ok.low
  have high := ok.high
  omega

theorem freeList_lt (ok : SlabOk pool m slab record objects) : record.freeList < 2 ^ 32 := by
  cases objects with
  | nil =>
    rw [ok.freeList_eq_zero.mpr rfl]
    decide
  | cons o rest =>
    obtain ⟨i, inside, same⟩ := ok.slots o List.mem_cons_self
    have bounds := ok.slot_bounds inside
    have limit : kernelDynamicLimit < 2 ^ 32 := by decide
    rw [ok.freeList_eq, same]
    omega

/-- Writing the link in one header leaves the other words of the headers. -/
theorem u32_setNext (record : Slab) {i j k v : Nat} (other : k ≤ 4 ∨ i ≠ j ∧ k ≤ 8) :
    (m.setU32 (record.slot i + 8) v).u32 (record.slot j + k) = m.u32 (record.slot j + k) := by
  refine ByteMemory.u32_overlay ?_
  have wide := (slotSizeOf_le record.cache).1
  unfold ByteMemory.Clear
  by_cases same : i = j
  · subst same
    omega
  · have apart := record.slot_apart same
    omega

/-- Objects of one slab are slots, so there are not more of them. -/
theorem subperm_slots {objects : List Nat} (nodup : objects.Nodup)
    (slots : ∀ o ∈ objects, ∃ i < capacityOf record.cache, o = record.slot i) :
    objects.Subperm ((List.range (capacityOf record.cache)).map record.slot) := by
  refine nodup.subperm fun o member => ?_
  obtain ⟨i, inside, rfl⟩ := slots o member
  exact List.mem_map.mpr ⟨i, List.mem_range.mpr inside, rfl⟩

/-- A slab with nothing in use has every slot on its free list. -/
theorem all_free (ok : SlabOk pool m slab record objects) (unused : record.inUse = 0)
    (inside : i < capacityOf record.cache) : record.slot i ∈ objects := by
  have enough : ((List.range (capacityOf record.cache)).map record.slot).length ≤ objects.length := by
    have count := ok.count
    rw [unused, ok.capacity] at count
    rw [List.length_map, List.length_range]
    omega
  have perm := (subperm_slots ok.nodup ok.slots).perm_of_length_le enough
  exact perm.mem_iff.mpr (List.mem_map.mpr ⟨i, List.mem_range.mpr inside, rfl⟩)

/-- A slab with a slot that is not free has something in use. -/
theorem inUse_pos (ok : SlabOk pool m slab record objects) (inside : i < capacityOf record.cache)
    (taken : record.slot i ∉ objects) : 0 < record.inUse := by
  by_contra unused
  exact taken (ok.all_free (by omega) inside)

/-- A slab with something in use has a slot that is not free. -/
theorem exists_used (ok : SlabOk pool m slab record objects) (used : record.inUse ≠ 0) :
    ∃ i < capacityOf record.cache, record.slot i ∉ objects := by
  by_contra all
  push Not at all
  have distinct : ((List.range (capacityOf record.cache)).map record.slot).Nodup :=
    List.Nodup.map (fun a b => record.slot_injective) List.nodup_range
  have within : (List.range (capacityOf record.cache)).map record.slot ⊆ objects := by
    intro o member
    obtain ⟨i, inside, rfl⟩ := List.mem_map.mp member
    exact all i (List.mem_range.mp inside)
  have most := (distinct.subperm within).length_le
  have count := ok.count
  rw [List.length_map, List.length_range, ← ok.capacity] at most
  omega

/-- **Taking the first object.** -/
theorem take {rest : List Nat} (ok : SlabOk pool m slab record (o :: rest)) :
    SlabOk pool (m.setU32 (o + 8) 0) slab
      { record with freeList := m.u32 (o + 8), inUse := (record.inUse + 1) % 2 ^ 16 } rest := by
  obtain ⟨i, inside, rfl⟩ := ok.slots o List.mem_cons_self
  obtain ⟨fresh, distinct⟩ := List.nodup_cons.mp ok.nodup
  refine ⟨ok.aligned, ok.low, ok.high, ok.capacity, fun j hj => ?_, fun j hj => ?_, ?_,
    fun y hy => ok.slots y (List.mem_cons_of_mem _ hy), distinct, ?_⟩
  · exact (u32_setNext record (Or.inl (Nat.zero_le 4))).trans (ok.magic j hj)
  · exact (u32_setNext record (Or.inl le_rfl)).trans (ok.pointer j hj)
  · refine ok.free.2.congr fun y hy => ?_
    obtain ⟨j, hj, rfl⟩ := ok.slots y (List.mem_cons_of_mem _ hy)
    have other : i ≠ j := by
      rintro rfl
      exact fresh hy
    exact congrArg nonNull (u32_setNext record (Or.inr ⟨other, le_rfl⟩))
  · have count := ok.count
    have few := (capacityOf_le record.cache).2
    have capacity := ok.capacity
    rw [List.length_cons] at count
    show (record.inUse + 1) % 2 ^ 16 + rest.length = record.capacity
    omega

/-- **Giving an object back.** -/
theorem give (ok : SlabOk pool m slab record objects) (inside : i < capacityOf record.cache)
    (taken : record.slot i ∉ objects) :
    SlabOk pool (m.setU32 (record.slot i + 8) record.freeList) slab
      { record with freeList := record.slot i, inUse := record.inUse - 1 }
      (record.slot i :: objects) := by
  refine ⟨ok.aligned, ok.low, ok.high, ok.capacity, fun j hj => ?_, fun j hj => ?_, ⟨?_, ?_⟩,
    fun y hy => ?_, List.nodup_cons.mpr ⟨taken, ok.nodup⟩, ?_⟩
  · exact (u32_setNext record (Or.inl (Nat.zero_le 4))).trans (ok.magic j hj)
  · exact (u32_setNext record (Or.inl le_rfl)).trans (ok.pointer j hj)
  · have bounds := ok.slot_bounds inside
    have positive : 0 < kernelDynamicBase := by decide
    exact if_neg (show record.slot i ≠ 0 by omega)
  · have link : nextObject (m.setU32 (record.slot i + 8) record.freeList) (record.slot i) =
        nonNull record.freeList := congrArg nonNull (ByteMemory.u32_setU32 ok.freeList_lt)
    rw [link]
    refine ok.free.congr fun y hy => ?_
    obtain ⟨j, hj, rfl⟩ := ok.slots y hy
    have other : i ≠ j := by
      rintro rfl
      exact taken hy
    exact congrArg nonNull (u32_setNext record (Or.inr ⟨other, le_rfl⟩))
  · rcases List.mem_cons.mp hy with rfl | member
    · exact ⟨i, inside, rfl⟩
    · exact ok.slots y member
  · have count := ok.count
    have used := ok.inUse_pos inside taken
    show record.inUse - 1 + (record.slot i :: objects).length = record.capacity
    rw [List.length_cons]
    omega

end SlabOk

/-! ## Cutting a page into slots -/

/-- The header that `slab_create` writes. -/
def writeHeader (m : ByteMemory) (object pointer next : Nat) : ByteMemory :=
  (((m.setU32 object heapSlabMagic).setU32 (object + 4) pointer).setU32 (object + 12) 0).setU32
    (object + 8) next

section WriteHeader

variable {m : ByteMemory} {object pointer next a : Nat}

theorem writeHeader_outside (outside : ¬ (object ≤ a ∧ a < object + 16)) :
    writeHeader m object pointer next a = m a := by
  unfold writeHeader ByteMemory.setU32
  rw [ByteMemory.overlay_outside (by omega), ByteMemory.overlay_outside (by omega),
    ByteMemory.overlay_outside (by omega), ByteMemory.overlay_outside (by omega)]

theorem writeHeader_magic : (writeHeader m object pointer next).u32 object = heapSlabMagic := by
  unfold writeHeader
  rw [ByteMemory.setU32, ByteMemory.u32_overlay (by unfold ByteMemory.Clear; omega),
    ByteMemory.setU32, ByteMemory.u32_overlay (by unfold ByteMemory.Clear; omega),
    ByteMemory.setU32, ByteMemory.u32_overlay (by unfold ByteMemory.Clear; omega),
    ByteMemory.u32_setU32 (by decide)]

theorem writeHeader_pointer (word : pointer < 2 ^ 32) :
    (writeHeader m object pointer next).u32 (object + 4) = pointer := by
  unfold writeHeader
  rw [ByteMemory.setU32, ByteMemory.u32_overlay (by unfold ByteMemory.Clear; omega),
    ByteMemory.setU32, ByteMemory.u32_overlay (by unfold ByteMemory.Clear; omega),
    ByteMemory.u32_setU32 word]

theorem writeHeader_next (word : next < 2 ^ 32) :
    (writeHeader m object pointer next).u32 (object + 8) = next :=
  ByteMemory.u32_setU32 word

end WriteHeader

/-- The first `i` slots are cut: their headers are written and they hang on the
free list, the last one first. -/
structure Carved (pool : Nat) (m : ByteMemory) (slab : SlabId) (record : Slab) (i : Nat) : Prop where
  magic : ∀ j < i, m.u32 (record.slot j) = heapSlabMagic
  pointer : ∀ j < i, m.u32 (record.slot j + 4) = slabPointer pool slab
  free : Thread (nextObject m) (nonNull record.freeList) ((List.range i).reverse.map record.slot)
  word : record.freeList < 2 ^ 32

section Carving

variable {pool : Nat} {m : ByteMemory} {slab : SlabId} {record : Slab} {i : Nat}

theorem Carved.step (carved : Carved pool m slab record i) (place : slabPointer pool slab < 2 ^ 32)
    (positive : 0 < record.pageBase) (word : record.slot i < 2 ^ 32) :
    Carved pool (writeHeader m (record.slot i) (slabPointer pool slab) record.freeList) slab
      { record with freeList := record.slot i } (i + 1) := by
  have kept {j k : Nat} (before : j < i) (low : k ≤ 12) :
      (writeHeader m (record.slot i) (slabPointer pool slab) record.freeList).u32
        (record.slot j + k) = m.u32 (record.slot j + k) := by
    refine ByteMemory.u32_congr fun b small => writeHeader_outside ?_
    have apart := record.slot_apart before.ne
    have wide := (slotSizeOf_le record.cache).1
    have order : record.slot j ≤ record.slot i :=
      Nat.add_le_add_left (Nat.mul_le_mul_right _ before.le) _
    omega
  refine ⟨fun j hj => ?_, fun j hj => ?_, ?_, word⟩
  · rcases Nat.lt_succ_iff_lt_or_eq.mp hj with before | rfl
    · exact (kept before (Nat.zero_le _)).trans (carved.magic j before)
    · exact writeHeader_magic
  · rcases Nat.lt_succ_iff_lt_or_eq.mp hj with before | rfl
    · exact (kept before (by decide)).trans (carved.pointer j before)
    · exact writeHeader_pointer place
  · have objects : (List.range (i + 1)).reverse.map record.slot =
        record.slot i :: (List.range i).reverse.map record.slot := by
      rw [List.range_succ, List.reverse_append]
      rfl
    refine objects ▸ ⟨if_neg ?_, ?_⟩
    · show record.slot i ≠ 0
      unfold Slab.slot
      omega
    · have link : nextObject (writeHeader m (record.slot i) (slabPointer pool slab) record.freeList)
          (record.slot i) = nonNull record.freeList :=
        congrArg nonNull (writeHeader_next carved.word)
      rw [link]
      refine carved.free.congr fun y hy => ?_
      obtain ⟨j, hj, rfl⟩ := List.mem_map.mp hy
      rw [List.mem_reverse, List.mem_range] at hj
      exact congrArg nonNull (kept hj (by decide))

/-- A page that is cut up, with nothing in use. -/
theorem Carved.slabOk (carved : Carved pool m slab record (capacityOf record.cache))
    (aligned : pageSize ∣ record.pageBase) (low : kernelDynamicBase ≤ record.pageBase)
    (high : record.pageBase + pageSize ≤ kernelDynamicLimit)
    (capacity : record.capacity = capacityOf record.cache) (unused : record.inUse = 0) :
    SlabOk pool m slab record
      ((List.range (capacityOf record.cache)).reverse.map record.slot) := by
  refine ⟨aligned, low, high, capacity, carved.magic, carved.pointer, carved.free,
    fun o member => ?_, ?_, ?_⟩
  · obtain ⟨j, hj, rfl⟩ := List.mem_map.mp member
    rw [List.mem_reverse, List.mem_range] at hj
    exact ⟨j, hj, rfl⟩
  · refine List.Nodup.map (fun a b => record.slot_injective) ?_
    exact List.nodup_reverse.mpr List.nodup_range
  · rw [unused, List.length_map, List.length_reverse, List.length_range, capacity, Nat.zero_add]

end Carving

end Dfos.Heap
