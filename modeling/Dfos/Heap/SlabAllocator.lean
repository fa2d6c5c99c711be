import Dfos.Heap.DoubleFree

/-!
# The slab allocator

The invariant of histories of blocks of up to 2048 bytes, read off the heap
itself: the lists hang at the heads that the code keeps, and the live pointers
are the objects that are on no free list.
-/

namespace Dfos.Heap

open Dfos.Lib Dfos.Pmm

/-- A slab on list `l` of cache `c`, with its free objects. -/
structure SlabOnList (h : HeapState) (c : CacheId) (l : SlabList) (s : SlabId) (objects : List Nat) :
    Prop where
  cache : (h.slabMetadataPool s).cache = c
  free : Thread (nextObject h.memory) (nonNull (h.slabMetadataPool s).freeList) objects
  count : (h.slabMetadataPool s).inUse + objects.length = (h.slabMetadataPool s).capacity
  full : l = .fullSlabs ↔ objects = []
  empty : l = .emptySlabs ↔ (h.slabMetadataPool s).inUse = 0
  partly : l = .partialSlabs ↔ objects ≠ [] ∧ (h.slabMetadataPool s).inUse ≠ 0

/-- The slots of a slab, as `slab_create` cuts them. -/
def IsSlot (h : HeapState) (s : SlabId) (o : Nat) : Prop :=
  ∃ i < (h.slabMetadataPool s).capacity, o = (h.slabMetadataPool s).pageBase +
    i * (h.slabCaches (h.slabMetadataPool s).cache).slotSize

/-- The records, the slabs on each list, and the objects on each free list. -/
structure AllocatorShape (w : HeapWorld) (free : List SlabId)
    (lists : CacheId × SlabList → List SlabId) (objects : SlabId → List Nat) : Prop where
  records : Partition (fun _ => True) free lists
  metadata : Thread w.heap.next w.heap.slabMetadataFreeList free
  heads : ∀ c l, Thread w.heap.next ((w.heap.slabCaches c).heads l) (lists (c, l))
  slabs : ∀ c l, ∀ s ∈ lists (c, l), SlabOnList w.heap c l s (objects s)
  oneEmpty : ∀ c, (lists (c, .emptySlabs)).length ≤ 1
  live : ∀ p, w.live p ≠ none ↔ ∃ place, ∃ s ∈ lists place, ∃ o, IsSlot w.heap s o ∧
    p = o + slabObjectHeaderSize ∧ o ∉ objects s

/-- A block of `n` bytes that `kmalloc` returned: it is in a slot, away from every
header and from the blocks that were live. -/
structure GoodBlock (w : HeapWorld) (h : HeapState) (p n : Nat) : Prop where
  slot : ∃ s, Listed h s ∧ ∃ o, IsSlot h s o ∧ p = o + slabObjectHeaderSize ∧
    p + n ≤ o + (h.slabCaches (h.slabMetadataPool s).cache).slotSize
  headers : ∀ s o, Listed h s → IsSlot h s o → ByteMemory.Clear p n o slabObjectHeaderSize
  others : ∀ q k, w.live q = some k → ByteMemory.Clear p n q (max k 1)

section Allocator

variable {pool : Nat} {w : HeapWorld} {g : Shape} {h : HeapState} {p size : Nat}
  {grant : Option Grant} {s : SlabId}

/-- The slots by the sizes that `heap_init` sets. -/
theorem isSlot_iff {blocks runs : Nat → Option Nat} (inv : HeapInv pool h blocks runs g none)
    (active : g.active s) {o : Nat} :
    IsSlot h s o ↔ ∃ i < capacityOf (h.slabMetadataPool s).cache, o = (h.slabMetadataPool s).slot i := by
  unfold IsSlot Slab.slot
  rw [(inv.contents.slabs s active).capacity, (inv.contents.sizes _).2]

/-- The invariant in the terms of the heap alone. -/
theorem HeapWorld.Inv.shape (inv : w.Inv pool g) (small : ∀ p, w.runs p = none) :
    AllocatorShape w g.pool g.lists g.objects := by
  refine ⟨inv.heap.lists.share, inv.heap.lists.free, inv.heap.lists.heads, fun c l s member => ?_,
    inv.heap.oneEmpty, fun p => ?_⟩
  · have ok := inv.heap.contents.slabs s ⟨_, member⟩
    obtain ⟨full, empty⟩ := inv.heap.placed c l s member nofun
    refine ⟨inv.heap.caches c l s member, ok.free, ok.count, full, empty, ?_⟩
    cases l <;> simp_all
  · have known : w.live p ≠ none ↔ w.blocks p ≠ none := by
      refine not_congr ⟨fun absent => ?_, fun noBlock => HeapWorld.live_eq_none noBlock (small p)⟩
      rw [HeapWorld.blocks, absent]
      rfl
    rw [known]
    constructor
    · intro present
      obtain ⟨s, active, i, inside, rfl⟩ := inv.heap.contents.located p present
      obtain ⟨place, member⟩ := active
      refine ⟨place, s, member, _, (isSlot_iff inv.heap ⟨place, member⟩).mpr ⟨i, inside, rfl⟩, rfl, ?_⟩
      exact (inv.heap.contents.payloads s ⟨place, member⟩ i inside).1.mpr present
    · rintro ⟨place, s, member, o, slot, rfl, used⟩
      obtain ⟨i, inside, rfl⟩ := (isSlot_iff inv.heap ⟨place, member⟩).mp slot
      exact (inv.heap.contents.payloads s ⟨place, member⟩ i inside).1.mp used

/-- What `kmalloc` returns is a good block. -/
theorem HeapWorld.Inv.good_block (inv : w.Inv pool g) (place : PoolPlace pool)
    (noRuns : ∀ p, w.runs p = none) (small : size ≤ slabLimit)
    (fresh : ∀ gr ∈ grant, Fresh w.heap 1 gr)
    (returns : kmalloc pool w.heap size grant = .ok (h, p)) : GoodBlock w h p (max size 1) := by
  obtain ⟨g', inv', absent, -⟩ := inv.heap.kmalloc_small place small fresh returns
  have here : Function.update w.blocks p (some size) p = some size := Function.update_self _ _ _
  refine ⟨?_, fun s o listed slot => ?_, fun q k hq => ?_⟩
  · obtain ⟨s, active, i, inside, rfl, fits, -⟩ := inv'.contents.block_slot here
    refine ⟨s, (listed_iff inv').mpr active, _, (isSlot_iff inv' active).mpr ⟨i, inside, rfl⟩, rfl, ?_⟩
    rw [(inv'.contents.sizes _).2]
    exact fits
  · have active := (listed_iff inv').mp listed
    obtain ⟨i, inside, rfl⟩ := (isSlot_iff inv' active).mp slot
    by_contra common
    unfold ByteMemory.Clear slabObjectHeaderSize at common
    exact inv'.contents.block_byte here (a := max p ((h.slabMetadataPool s).slot i)) (by omega)
      (by omega) (Or.inl ⟨s, active, i, inside, by omega, by omega⟩)
  · have block : w.blocks q = some k := by
      have noRun := noRuns q
      by_cases large : slabLimit < k
      · rw [HeapWorld.runs_eq hq large] at noRun
        cases noRun
      · exact HeapWorld.blocks_eq hq (not_lt.mp large)
    have other : q ≠ p := by
      rintro rfl
      rw [absent] at block
      cases block
    exact inv'.contents.block_clear here ((Function.update_of_ne other _ _).trans block) other.symm

/-- Where nothing is live, every mapped page is that of an empty slab. -/
theorem HeapWorld.Inv.empty_pages (inv : w.Inv pool g) (nothing : ∀ p, w.live p = none) :
    (∀ c l, l ≠ .emptySlabs → g.lists (c, l) = []) ∧
    ∀ page, w.heap.mapped page = true → ∃ c, ∃ s ∈ g.lists (c, .emptySlabs),
      page = (w.heap.slabMetadataPool s).pageBase / pageSize := by
  have noBlock (p : Nat) : w.blocks p = none := by
    rw [HeapWorld.blocks, nothing]
    rfl
  have emptyOnly {c : CacheId} {l : SlabList} {s : SlabId} (member : s ∈ g.lists (c, l)) :
      l = .emptySlabs := by
    have ok := inv.heap.contents.slabs s ⟨_, member⟩
    refine (inv.heap.placed c l s member (by simp)).2.mpr ?_
    by_contra used
    obtain ⟨i, inside, taken⟩ := ok.exists_used used
    exact (inv.heap.contents.payloads s ⟨_, member⟩ i inside).1.mp taken (noBlock _)
  refine ⟨fun c l other => List.eq_nil_iff_forall_not_mem.mpr fun s member => other (emptyOnly member),
    fun page mapped => ?_⟩
  obtain ⟨u, owns⟩ := (inv.heap.contents.mapped page).mp mapped
  cases u with
  | slab s =>
    obtain ⟨⟨⟨c, l⟩, member⟩, here⟩ := owns
    obtain rfl := emptyOnly member
    exact ⟨c, s, member, here⟩
  | run p =>
    obtain ⟨n, hp, -⟩ := owns
    rw [HeapWorld.runs, nothing] at hp
    cases hp

/-- **The slab allocator**: its lists in every state that a history of small blocks
reaches; there `kmalloc` panics or returns a good block, and `kfree` takes every
live block back; and the pages that are left when nothing is live. -/
theorem slab_allocator (place : PoolPlace pool)
    (reached : HeapWorld.Reached pool (· ≤ slabLimit) HeapWorld.LiveFree w) :
    ∃ free lists objects, AllocatorShape w free lists objects ∧
      (∀ size grant, size ≤ slabLimit → (∀ gr ∈ grant, Fresh w.heap 1 gr) →
        (∃ text argument, kmalloc pool w.heap size grant = .error (.panic text argument)) ∨
        ∃ h p, kmalloc pool w.heap size grant = .ok (h, p) ∧ GoodBlock w h p (max size 1)) ∧
      (∀ p, w.live p ≠ none → ∃ h, kfree pool w.heap p = .ok h) ∧
      ((∀ p, w.live p = none) → (∀ c l, l ≠ .emptySlabs → lists (c, l) = []) ∧
        ∀ page, w.heap.mapped page = true → ∃ c, ∃ s ∈ lists (c, .emptySlabs),
          page = (w.heap.slabMetadataPool s).pageBase / pageSize) := by
  have noRuns := runs_none_of_small reached
  obtain ⟨g, inv⟩ := reached.inv place (fun n small => lt_of_le_of_lt small (by decide))
    fun w before p live => Or.inl ⟨live, fun run => absurd (runs_none_of_small before p) run⟩
  refine ⟨g.pool, g.lists, g.objects, inv.shape noRuns, fun size grant small fresh => ?_,
    fun p live => ?_, inv.empty_pages⟩
  · rcases inv.heap.kmalloc_slab place small fresh with panics | ⟨h, p, -, returns, -⟩
    · exact Or.inl ⟨_, _, panics⟩
    · exact Or.inr ⟨h, p, returns, inv.good_block place noRuns small fresh returns⟩
  · obtain ⟨n, block⟩ := Option.ne_none_iff_exists'.mp fun absent : w.blocks p = none =>
      live (HeapWorld.live_eq_none absent (noRuns p))
    obtain ⟨h, -, returns, -⟩ := inv.heap.kfree_small place block
    exact ⟨h, returns⟩

/-- After two calls of `kmalloc` and one of `kfree`, which leave one object of the
slab free. -/
theorem slab_allocator_secondFree :
    ∃ w, w.stale 0xF0000830 = true ∧ ∃ free lists objects, AllocatorShape w free lists objects ∧
      ((∃ text argument, kmalloc poolAddress w.heap 1000 none = .error (.panic text argument)) ∨
        ∃ h p, kmalloc poolAddress w.heap 1000 none = .ok (h, p) ∧ GoodBlock w h p 1000) ∧
      ∀ p, w.live p ≠ none → ∃ h, kfree poolAddress w.heap p = .ok h := by
  obtain ⟨w, -, -, -, -, reached, stale, -⟩ := secondFree_world fun _ _ live => live
  obtain ⟨free, lists, objects, shape, gives, takes, -⟩ := slab_allocator poolAddress_place reached
  exact ⟨w, stale, free, lists, objects, shape, gives 1000 none (by decide) (by simp), takes⟩

end Allocator

end Dfos.Heap
