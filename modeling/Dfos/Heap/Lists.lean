import Dfos.Heap.Slabs
import Dfos.Lib.Partition
import Mathlib.Data.Fintype.Card

/-!
# The lists of slab records

The 256 records are shared out between the metadata free list, the three lists
of each cache, and a hand: the records that a call has taken off one list and not
yet put on another.  The list operations move one record between these and touch
links only.
-/

namespace Dfos.Heap

open Dfos.Lib Dfos.Pmm
open scoped List

/-- The link in a record. -/
def HeapState.next (h : HeapState) (slab : SlabId) : Option SlabId :=
  (h.slabMetadataPool slab).next

/-- Two states that differ in the links and heads of the lists only. -/
structure SameContents (h h' : HeapState) : Prop where
  memory : h'.memory = h.memory
  mapped : h'.mapped = h.mapped
  ready : h'.heapReady = h.heapReady
  sizes : ∀ c, (h'.slabCaches c).objectSize = (h.slabCaches c).objectSize ∧
    (h'.slabCaches c).slotSize = (h.slabCaches c).slotSize
  records : ∀ slab, { h'.slabMetadataPool slab with next := none } =
    { h.slabMetadataPool slab with next := none }

/-- Which records are on which list. -/
structure ListsInv (h : HeapState) (hand pool : List SlabId)
    (lists : CacheId × SlabList → List SlabId) : Prop where
  free : Thread h.next h.slabMetadataFreeList pool
  heads : ∀ c l, Thread h.next ((h.slabCaches c).heads l) (lists (c, l))
  share : Partition (fun _ => True) (hand ++ pool) lists

section Same

variable {h h' h'' : HeapState}

theorem SameContents.trans (first : SameContents h h') (second : SameContents h' h'') :
    SameContents h h'' :=
  ⟨second.memory.trans first.memory, second.mapped.trans first.mapped,
    second.ready.trans first.ready,
    fun c => ⟨(second.sizes c).1.trans (first.sizes c).1, (second.sizes c).2.trans (first.sizes c).2⟩,
    fun slab => (second.records slab).trans (first.records slab)⟩

theorem SameContents.cache (same : SameContents h h') (slab : SlabId) :
    (h'.slabMetadataPool slab).cache = (h.slabMetadataPool slab).cache :=
  (Slab.mk.inj (same.records slab)).1

theorem SameContents.pageBase (same : SameContents h h') (slab : SlabId) :
    (h'.slabMetadataPool slab).pageBase = (h.slabMetadataPool slab).pageBase :=
  (Slab.mk.inj (same.records slab)).2.1

theorem SameContents.inUse (same : SameContents h h') (slab : SlabId) :
    (h'.slabMetadataPool slab).inUse = (h.slabMetadataPool slab).inUse :=
  (Slab.mk.inj (same.records slab)).2.2.2.1

theorem sameContents_setNext (h : HeapState) (slab : SlabId) (next : Option SlabId) :
    SameContents h (h.setNext slab next) := by
  refine ⟨rfl, rfl, rfl, fun _ => ⟨rfl, rfl⟩, fun other => ?_⟩
  by_cases same : other = slab
  · subst same
    rw [HeapState.setNext, HeapState.setSlab_self]
  · rw [HeapState.setNext, HeapState.setSlab_of_ne _ same]

theorem sameContents_setHead (h : HeapState) (cache : CacheId) (list : SlabList)
    (head : Option SlabId) : SameContents h (h.setHead cache list head) := by
  refine ⟨rfl, rfl, rfl, fun c => ?_, fun _ => rfl⟩
  by_cases same : c = cache
  · subst same
    simp only [HeapState.setHead, Function.update_self, and_self]
  · simp only [HeapState.setHead, Function.update_of_ne same, and_self]

theorem next_setSlab (h : HeapState) (slab : SlabId) (record : Slab) :
    (h.setSlab slab record).next = Function.update h.next slab record.next := by
  funext other
  by_cases same : other = slab
  · subst same
    rw [HeapState.next, HeapState.setSlab_self, Function.update_self]
  · rw [HeapState.next, HeapState.setSlab_of_ne _ same, Function.update_of_ne same,
      HeapState.next]

theorem next_setNext (h : HeapState) (slab : SlabId) (next : Option SlabId) :
    (h.setNext slab next).next = Function.update h.next slab next :=
  next_setSlab h slab _

theorem next_setHead (h : HeapState) (cache : CacheId) (list : SlabList) (head : Option SlabId) :
    (h.setHead cache list head).next = h.next := rfl

theorem heads_setHead (h : HeapState) (cache : CacheId) (list : SlabList) (head : Option SlabId)
    (c : CacheId) (l : SlabList) :
    ((h.setHead cache list head).slabCaches c).heads l =
      if (c, l) = (cache, list) then head else (h.slabCaches c).heads l := by
  by_cases sameCache : c = cache
  · subst sameCache
    by_cases sameList : l = list
    · subst sameList
      simp only [HeapState.setHead, Function.update_self, if_true]
    · simp only [HeapState.setHead, Function.update_self, Function.update_of_ne sameList,
        Prod.mk.injEq, sameList, and_false, if_false]
  · simp only [HeapState.setHead, Function.update_of_ne sameCache, Prod.mk.injEq, sameCache,
      false_and, if_false]

end Same

/-- The search in a list can only fail to end. -/
theorem slabListRemoveLoop_error {cache : CacheId} {list : SlabList} {slab : SlabId} {h : HeapState}
    {rounds : Nat} {previous cursor : Option SlabId} {fault : HeapFault}
    (failed : slabListRemoveLoop cache list slab h rounds previous cursor = .error fault) :
    fault = .endless := by
  induction rounds generalizing previous cursor with
  | zero =>
    cases cursor with
    | none => cases failed
    | some current => exact (Except.error.inj failed).symm
  | succ rounds ih =>
    cases cursor with
    | none => cases failed
    | some current =>
      rw [slabListRemoveLoop] at failed
      split at failed
      · cases failed
      · exact ih failed

namespace ListsInv

variable {h : HeapState} {hand pool : List SlabId} {lists : CacheId × SlabList → List SlabId}
  {slab : SlabId} {cache : CacheId} {list : SlabList}

/-- A record in the hand is on no list. -/
theorem fresh (inv : ListsInv h (slab :: hand) pool lists) :
    slab ∉ pool ∧ ∀ place, slab ∉ lists place := by
  have distinct := (inv.share.distinct (⟨0, by decide⟩, .partialSlabs)).of_append_left
  refine ⟨fun member => ?_, fun place => inv.share.not_held_of_free List.mem_cons_self⟩
  exact (List.nodup_cons.mp distinct).1 (List.mem_append_right _ member)

/-- Only links and heads are read. -/
theorem of_same (inv : ListsInv h hand pool lists) {h' : HeapState} (next : h'.next = h.next)
    (caches : h'.slabCaches = h.slabCaches)
    (free : h'.slabMetadataFreeList = h.slabMetadataFreeList) : ListsInv h' hand pool lists := by
  refine ⟨?_, fun c l => ?_, inv.share⟩
  · rw [next, free]
    exact inv.free
  · rw [next, caches]
    exact inv.heads c l

theorem place_unique (inv : ListsInv h hand pool lists) {place place' : CacheId × SlabList}
    (here : slab ∈ lists place) (there : slab ∈ lists place') : place = place' := by
  by_contra other
  exact inv.share.apart place place' other slab here there

/-- Records change places by a transfer between the hand and one list. -/
theorem share_update (inv : ListsInv h hand pool lists) {hand' : List SlabId}
    {place : CacheId × SlabList} {records : List SlabId}
    (perm : (hand' ++ pool ++ records).Perm (hand ++ pool ++ lists place)) :
    Partition (fun _ => True) (hand' ++ pool) (Function.update lists place records) := by
  have moved := inv.share.transfer perm
  have same : (fun j => if j = place then records else lists j) =
      Function.update lists place records := by
    funext j
    rw [Function.update_apply]
  rwa [same] at moved

/-- The loop of `slab_list_remove` finds the record behind those in `front`. -/
theorem slabListRemoveLoop_found (cache : CacheId) (list : SlabList) {front back : List SlabId} {cursor : Option SlabId}
    (thread : Thread h.next cursor (front ++ slab :: back)) (first : slab ∉ front)
    {rounds : Nat} (enough : front.length < rounds) (previous : Option SlabId) :
    slabListRemoveLoop cache list slab h rounds previous cursor =
      .ok (((match front.getLast?.or previous with
        | none => h.setHead cache list (h.next slab)
        | some p => h.setNext p (h.next slab)).setNext slab none)) := by
  induction front generalizing cursor rounds previous with
  | nil =>
    obtain ⟨rounds, rfl⟩ : ∃ r, rounds = r + 1 := ⟨rounds - 1, by simp at enough; omega⟩
    rw [thread.1]
    simp only [slabListRemoveLoop, if_true, List.getLast?_nil, Option.none_or]
    rfl
  | cons y front ih =>
    obtain ⟨rounds, rfl⟩ : ∃ r, rounds = r + 1 := ⟨rounds - 1, by simp at enough; omega⟩
    have other : slab ≠ y := List.ne_of_not_mem_cons first
    have first : slab ∉ front := List.not_mem_of_not_mem_cons first
    rw [thread.1]
    simp only [slabListRemoveLoop, if_neg (Ne.symm other)]
    rw [List.length_cons] at enough
    refine (ih thread.2 first (by omega) (some y)).trans ?_
    have last : (y :: front).getLast?.or previous = front.getLast?.or (some y) := by
      rw [List.getLast?_cons]
      cases front.getLast? <;> rfl
    rw [last]

/-- The link of a record in the hand is nobody's. -/
theorem relink (inv : ListsInv h (slab :: hand) pool lists) (next : Option SlabId) :
    ListsInv (h.setNext slab next) (slab :: hand) pool lists := by
  obtain ⟨notFree, notListed⟩ := inv.fresh
  refine ⟨?_, fun c l => ?_, inv.share⟩
  · rw [next_setNext]
    exact inv.free.congr fun y hy => Function.update_of_ne (ne_of_mem_of_not_mem hy notFree) _ _
  · rw [next_setNext]
    exact (inv.heads c l).congr fun y hy =>
      Function.update_of_ne (ne_of_mem_of_not_mem hy (notListed _)) _ _

/-- **`slab_list_push`.** -/
theorem push (inv : ListsInv h (slab :: hand) pool lists) (cache : CacheId) (list : SlabList) :
    ListsInv (slabListPush h cache list slab) hand pool
      (Function.update lists (cache, list) (slab :: lists (cache, list))) := by
  have linked := inv.relink ((h.slabCaches cache).heads list)
  refine ⟨linked.free, fun c l => ?_, inv.share_update List.perm_middle⟩
  rw [slabListPush, next_setHead, heads_setHead]
  by_cases here : (c, l) = (cache, list)
  · rw [if_pos here, here, Function.update_self, next_setNext]
    exact (inv.heads cache list).push (inv.fresh.2 _)
  · rw [if_neg here, Function.update_of_ne here]
    exact linked.heads c l

/-- A listed record that no link leads to any more is in the hand. -/
theorem detached (inv : ListsInv h hand pool lists) (listed : slab ∈ lists (cache, list))
    {h' : HeapState} (free : Thread h'.next h'.slabMetadataFreeList pool)
    (heads : ∀ c l, Thread h'.next ((h'.slabCaches c).heads l)
      (Function.update lists (cache, list) ((lists (cache, list)).erase slab) (c, l))) :
    ListsInv (h'.setNext slab none) (slab :: hand) pool
      (Function.update lists (cache, list) ((lists (cache, list)).erase slab)) := by
  refine relink ⟨free, heads, inv.share_update ?_⟩ none
  calc slab :: hand ++ pool ++ (lists (cache, list)).erase slab
      ~ (hand ++ pool) ++ slab :: (lists (cache, list)).erase slab := List.perm_middle.symm
    _ ~ hand ++ pool ++ lists (cache, list) :=
      (List.perm_cons_erase listed).symm.append_left (hand ++ pool)

/-- **`slab_list_remove`** takes a record into the hand. -/
theorem remove (inv : ListsInv h hand pool lists) (listed : slab ∈ lists (cache, list)) :
    ∃ h', slabListRemove h cache list slab = .ok h' ∧ SameContents h h' ∧
      ListsInv h' (slab :: hand) pool
        (Function.update lists (cache, list) ((lists (cache, list)).erase slab)) := by
  obtain ⟨front, back, split⟩ := List.append_of_mem listed
  have nodup := inv.share.held_nodup (cache, list)
  have thread := inv.heads cache list
  rw [split] at nodup thread
  have first : slab ∉ front := fun member =>
    (List.nodup_append.mp nodup).2.2 slab member slab List.mem_cons_self rfl
  have rest : (lists (cache, list)).erase slab = front ++ back := by
    rw [split, List.erase_append_right _ first, List.erase_cons_head]
  have short : front.length < heapMaxSlabs := by
    have all := nodup.length_le_card
    rw [List.length_append, List.length_cons, Fintype.card_fin] at all
    omega
  have found := slabListRemoveLoop_found cache list thread first short none
  rw [Option.or_none] at found
  have bypassed := thread.bypassed nodup
  refine ⟨_, found, ?_, ?_⟩
  · cases front.getLast? with
    | none => exact (sameContents_setHead _ _ _ _).trans (sameContents_setNext _ _ _)
    | some p => exact (sameContents_setNext _ _ _).trans (sameContents_setNext _ _ _)
  · cases before : front.getLast? with
    | none =>
      -- the head itself leads past the record
      rw [before] at bypassed
      refine inv.detached listed inv.free fun c l => ?_
      rw [next_setHead, heads_setHead, rest]
      by_cases here : (c, l) = (cache, list)
      · rw [if_pos here, here, Function.update_self]
        exact bypassed
      · rw [if_neg here, Function.update_of_ne here]
        exact inv.heads c l
    | some p =>
      rw [before] at bypassed
      have listedPrevious : p ∈ lists (cache, list) := by
        rw [split]
        exact List.mem_append_left _ (List.mem_of_getLast? before)
      refine inv.detached listed ?_ fun c l => ?_
      · rw [next_setNext]
        refine inv.free.congr fun y hy => Function.update_of_ne ?_ _ _
        rintro rfl
        exact inv.share.not_held_of_free (List.mem_append_right _ hy) listedPrevious
      · rw [next_setNext, rest]
        by_cases here : (c, l) = (cache, list)
        · obtain ⟨rfl, rfl⟩ := Prod.mk.inj here
          rw [Function.update_self]
          exact bypassed
        · rw [Function.update_of_ne here]
          refine (inv.heads c l).congr fun y hy => Function.update_of_ne ?_ _ _
          rintro rfl
          exact here (inv.place_unique hy listedPrevious)

/-- **`slab_metadata_alloc`** takes the first free record into the hand. -/
theorem metadataAlloc (inv : ListsInv h hand (slab :: pool) lists) :
    ∃ h', slabMetadataAlloc h = (h', some slab) ∧ SameContents h h' ∧
      ListsInv h' (slab :: hand) pool lists := by
  have head : h.slabMetadataFreeList = some slab := inv.free.1
  let popped : HeapState := { h with slabMetadataFreeList := h.next slab }
  have taken : ListsInv popped (slab :: hand) pool lists := 
    ⟨inv.free.2, inv.heads, inv.share.reorder List.perm_middle.symm⟩
  have same : SameContents h popped := ⟨rfl, rfl, rfl, fun _ => ⟨rfl, rfl⟩, fun _ => rfl⟩
  refine ⟨popped.setNext slab none, ?_, same.trans (sameContents_setNext _ _ _),
    taken.relink none⟩
  rw [slabMetadataAlloc, head]
  rfl

/-- **`slab_metadata_free`** puts a record back. -/
theorem metadataFree (inv : ListsInv h (slab :: hand) pool lists) :
    SameContents h (slabMetadataFree h slab) ∧
      ListsInv (slabMetadataFree h slab) hand (slab :: pool) lists := by
  have linked := inv.relink h.slabMetadataFreeList
  refine ⟨?_, ?_, linked.heads, inv.share.reorder List.perm_middle⟩
  · obtain ⟨memory, mapped, ready, sizes, records⟩ :=
      sameContents_setNext h slab h.slabMetadataFreeList
    exact ⟨memory, mapped, ready, sizes, records⟩
  · show Thread (h.setNext slab _).next (some slab) (slab :: pool)
    rw [next_setNext]
    exact inv.free.push inv.fresh.1

end ListsInv

end Dfos.Heap
