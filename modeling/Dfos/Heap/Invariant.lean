import Dfos.Heap.Calls

/-!
# The invariant of the heap

The contents and the lists together: every slab that holds a page is on the list
of its cache that its free objects ask for.  Within a call one slab may be
`busy`, on another list until the call moves it.
-/

namespace Dfos.Heap

open Dfos.Lib Dfos.Pmm

/-- The free records, the slabs on each list and the free objects of each slab. -/
structure Shape where
  pool : List SlabId
  lists : CacheId × SlabList → List SlabId
  objects : SlabId → List Nat

/-- The slabs that hold a page. -/
def Shape.active (g : Shape) (s : SlabId) : Prop := ∃ place, s ∈ g.lists place

/-- A slab is on `full` when it has no free object, on `empty` when it has nothing
in use, on `partial` otherwise. -/
def Fits (list : SlabList) (inUse : Nat) (objects : List Nat) : Prop :=
  (list = .fullSlabs ↔ objects = []) ∧ (list = .emptySlabs ↔ inUse = 0)

structure HeapInv (pool : Nat) (h : HeapState) (blocks runs : Nat → Option Nat) (g : Shape)
    (busy : Option SlabId) : Prop where
  contents : ContentsInv pool h g.active g.objects blocks runs
  lists : ListsInv h [] g.pool g.lists
  caches : ∀ c l, ∀ s ∈ g.lists (c, l), (h.slabMetadataPool s).cache = c
  placed : ∀ c l, ∀ s ∈ g.lists (c, l), busy ≠ some s →
    Fits l (h.slabMetadataPool s).inUse (g.objects s)
  oneEmpty : ∀ c, (g.lists (c, .emptySlabs)).length ≤ 1

/-- The address of an object of some slab. -/
def Located (h : HeapState) (g : Shape) (p : Nat) : Prop :=
  ∃ s, g.active s ∧ ∃ i < capacityOf (h.slabMetadataPool s).cache,
    p = (h.slabMetadataPool s).slot i + 16

/-- A slab goes from one list of its cache to another. -/
def Shape.moved (g : Shape) (c : CacheId) (l l' : SlabList) (s : SlabId) : Shape :=
  { g with
    lists := Function.update (Function.update g.lists (c, l) ((g.lists (c, l)).erase s)) (c, l')
      (s :: g.lists (c, l')) }

theorem Shape.moved_lists (g : Shape) (c : CacheId) (l l' : SlabList) (s : SlabId) :
    (g.moved c l l' s).lists = Function.update
      (Function.update g.lists (c, l) ((g.lists (c, l)).erase s)) (c, l') (s :: g.lists (c, l')) := rfl

/-- A free record becomes a slab on `partial`. -/
def Shape.created (g : Shape) (c : CacheId) (s : SlabId) (objects : List Nat) : Shape where
  pool := g.pool.tail
  lists := Function.update g.lists (c, .partialSlabs) (s :: g.lists (c, .partialSlabs))
  objects := Function.update g.objects s objects

theorem Shape.created_lists (g : Shape) (c : CacheId) (s : SlabId) (objects : List Nat) :
    (g.created c s objects).lists =
      Function.update g.lists (c, .partialSlabs) (s :: g.lists (c, .partialSlabs)) := rfl

theorem Shape.created_objects (g : Shape) (c : CacheId) (s : SlabId) (objects : List Nat) :
    (g.created c s objects).objects = Function.update g.objects s objects := rfl

/-- A slab becomes a free record. -/
def Shape.destroyed (g : Shape) (c : CacheId) (l : SlabList) (s : SlabId) : Shape :=
  { g with
    pool := s :: g.pool
    lists := Function.update g.lists (c, l) ((g.lists (c, l)).erase s) }

theorem Shape.destroyed_lists (g : Shape) (c : CacheId) (l : SlabList) (s : SlabId) :
    (g.destroyed c l s).lists = Function.update g.lists (c, l) ((g.lists (c, l)).erase s) := rfl

/-- An object stays one while its slab keeps its page. -/
theorem Located.transfer {h h' : HeapState} {g g' : Shape} {p : Nat} (located : Located h g p)
    (kept : ∀ s, g.active s → ∀ i < capacityOf (h.slabMetadataPool s).cache,
      p = (h.slabMetadataPool s).slot i + 16 →
      g'.active s ∧ (h'.slabMetadataPool s).cache = (h.slabMetadataPool s).cache ∧
        (h'.slabMetadataPool s).pageBase = (h.slabMetadataPool s).pageBase) :
    Located h' g' p := by
  obtain ⟨s, active, i, inside, here⟩ := located
  obtain ⟨active', cache, base⟩ := kept s active i inside here
  refine ⟨s, active', i, by rwa [cache], ?_⟩
  rw [here, Slab.slot, Slab.slot, cache, base]

section Contents

variable {pool : Nat} {h : HeapState} {active active' : SlabId → Prop}
  {objects : SlabId → List Nat} {blocks runs : Nat → Option Nat}

theorem ContentsInv.congr_active (inv : ContentsInv pool h active objects blocks runs)
    (same : ∀ s, active' s ↔ active s) : ContentsInv pool h active' objects blocks runs := by
  obtain rfl : active' = active := funext fun s => propext (same s)
  exact inv

end Contents

namespace HeapInv

variable {pool : Nat} {h : HeapState} {blocks runs : Nat → Option Nat} {g : Shape}
  {busy : Option SlabId} {c : CacheId} {l l' : SlabList} {s t : SlabId}

theorem mem_moved (inv : HeapInv pool h blocks runs g busy) (listed : s ∈ g.lists (c, l))
    (other : l ≠ l') (place : CacheId × SlabList) :
    t ∈ (g.moved c l l' s).lists place ↔ if t = s then place = (c, l') else t ∈ g.lists place := by
  have distinct : ((c, l) : CacheId × SlabList) ≠ (c, l') := fun same => other (Prod.mk.inj same).2
  have nodup := inv.lists.share.held_nodup (c, l)
  by_cases target : place = (c, l')
  · subst target
    rw [Shape.moved_lists, Function.update_self, List.mem_cons]
    by_cases here : t = s
    · simp [here]
    · simp [here]
  · rw [Shape.moved_lists, Function.update_of_ne target]
    by_cases source : place = (c, l)
    · subst source
      rw [Function.update_self, nodup.mem_erase_iff]
      by_cases here : t = s
      · simp [here, other]
      · simp [here]
    · rw [Function.update_of_ne source]
      by_cases here : t = s
      · subst here
        rw [if_pos rfl]
        exact iff_of_false (fun member => source (inv.lists.place_unique member listed)) target
      · rw [if_neg here]

theorem active_moved (inv : HeapInv pool h blocks runs g busy) (listed : s ∈ g.lists (c, l))
    (other : l ≠ l') : (g.moved c l l' s).active t ↔ g.active t := by
  unfold Shape.active
  by_cases here : t = s
  · subst here
    refine iff_of_true ⟨(c, l'), ?_⟩ ⟨(c, l), listed⟩
    rw [inv.mem_moved listed other, if_pos rfl]
  · simp only [inv.mem_moved listed other, if_neg here]

/-- **A slab changes its list.** -/
theorem move (inv : HeapInv pool h blocks runs g busy) (listed : s ∈ g.lists (c, l)) (other : l ≠ l')
    (busy' : Option SlabId) (only : ∀ t, busy = some t → t = s)
    (fits : busy' ≠ some s → Fits l' (h.slabMetadataPool s).inUse (g.objects s))
    (room : l' = .emptySlabs → g.lists (c, .emptySlabs) = []) :
    ∃ h', slabListRemove h c l s = .ok h' ∧ SameContents h (slabListPush h' c l' s) ∧
      HeapInv pool (slabListPush h' c l' s) blocks runs (g.moved c l l' s) busy' := by
  obtain ⟨h', removed, same, lists⟩ := inv.lists.remove listed
  have distinct : ((c, l') : CacheId × SlabList) ≠ (c, l) := fun same => other (Prod.mk.inj same).2.symm
  have pushed : SameContents h (slabListPush h' c l' s) :=
    same.trans ((sameContents_setNext _ _ _).trans (sameContents_setHead _ _ _ _))
  have lists' := lists.push c l'
  rw [Function.update_of_ne distinct] at lists'
  refine ⟨h', removed, pushed, (inv.contents.same pushed).congr_active
    fun t => inv.active_moved listed other, lists',
    fun c' k t member => ?_, fun c' k t member free => ?_, fun c' => ?_⟩
  · rw [pushed.cache]
    rw [inv.mem_moved listed other] at member
    split at member
    · obtain ⟨rfl, rfl⟩ := Prod.mk.inj member
      subst t
      exact inv.caches c' l s listed
    · exact inv.caches c' k t member
  · rw [pushed.inUse]
    rw [inv.mem_moved listed other] at member
    split at member
    · obtain ⟨rfl, rfl⟩ := Prod.mk.inj member
      subst t
      exact fits free
    · exact inv.placed c' k t member fun same => ‹t ≠ s› (only t same)
  · by_cases target : (c', .emptySlabs) = (c, l')
    · rw [Shape.moved_lists, target, Function.update_self]
      obtain ⟨rfl, rfl⟩ := Prod.mk.inj target
      rw [room rfl]
      exact le_rfl
    · rw [Shape.moved_lists, Function.update_of_ne target]
      by_cases source : (c', SlabList.emptySlabs) = (c, l)
      · rw [source, Function.update_self]
        obtain ⟨rfl, rfl⟩ := Prod.mk.inj source
        exact (List.length_erase_le).trans (inv.oneEmpty c')
      · rw [Function.update_of_ne source]
        exact inv.oneEmpty c'

/-! ## Taking an object -/

/-- A granted page is cut up for a record that holds no page. -/
theorem carve (inv : HeapInv pool h blocks runs g none) (place : PoolPlace pool) (c : CacheId)
    {gr : Grant} (page : Fresh h 1 gr) {h' : HeapState} (same : SameContents (granted h 1 gr) h')
    (idle : ¬ g.active s) :
    ∃ m f, slabCreateLoop pool s gr.base (slotSizeOf c) (capacityOf c) 0
        (h'.setSlab s (newSlab c gr.base)) =
          .ok (({ h' with memory := m } : HeapState).setSlab s
            { newSlab c gr.base with freeList := f }) ∧
      ContentsInv pool
        (({ h' with memory := m } : HeapState).setSlab s { newSlab c gr.base with freeList := f })
        (fun t => t = s ∨ g.active t)
        (Function.update g.objects s
          ((List.range (capacityOf c)).reverse.map { newSlab c gr.base with freeList := f }.slot))
        blocks runs := by
  have high : gr.base + pageSize ≤ kernelDynamicLimit := by
    have high := page.high
    rwa [Nat.one_mul] at high
  have mapped (page : Nat) :
      h'.mapped page = true ↔ h.mapped page = true ∨ page = gr.base / pageSize := by
    rw [same.mapped, granted_mapped]
    exact or_congr_right (by omega)
  have start : Carved pool (h'.setSlab s (newSlab c gr.base)).memory s (newSlab c gr.base) 0 :=
    ⟨nofun, nofun, rfl, Nat.two_pow_pos 32⟩
  obtain ⟨m, f, ran, carved, outside⟩ := slabCreateLoop_carves place
    (HeapState.setSlab_self h' s (newSlab c gr.base)) page.aligned page.low high
    ((mapped _).mpr (Or.inr rfl)) (Nat.zero_add (capacityOf c)) start
  -- before the grant: the links may differ already
  have before : ContentsInv pool { h' with memory := h.memory, mapped := h.mapped } g.active
      g.objects blocks runs :=
    inv.contents.frame same.ready same.sizes same.records rfl fun _ _ => rfl
  refine ⟨m, f, ran.trans ?_, before.create idle (page.unmapped _ le_rfl (Nat.lt_succ_self _)) mapped
    (fun a other => (outside a other).trans ?_)
    (carved.slabOk page.aligned page.low high rfl rfl) fun i inside => ?_⟩
  · exact congrArg Except.ok (setSlab_setSlab { h' with memory := m } s _ _)
  · show h'.memory a = h.memory a
    rw [same.memory]
    refine granted_outside page.aligned fun within => other ?_
    exact Nat.le_antisymm (Nat.lt_succ_iff.mp within.2) within.1
  · exact List.mem_map.mpr ⟨i, List.mem_reverse.mpr (List.mem_range.mpr inside), rfl⟩

/-- **`slab_create`** takes a record into the hand and cuts a page for it. -/
theorem slabCreate_spec (inv : HeapInv pool h blocks runs g none) (place : PoolPlace pool)
    (c : CacheId) {grant : Option Grant} (fresh : ∀ gr ∈ grant, Fresh h 1 gr) :
    (∃ h', slabCreate pool h c grant = .ok (h', none)) ∨
    ∃ h' s tail rest, g.pool = s :: tail ∧ slabCreate pool h c grant = .ok (h', some s) ∧
      rest ≠ [] ∧ (h'.slabMetadataPool s).cache = c ∧
      (∀ t ≠ s, { h'.slabMetadataPool t with next := none } =
        { h.slabMetadataPool t with next := none }) ∧
      ContentsInv pool h' (fun t => t = s ∨ g.active t) (Function.update g.objects s rest)
        blocks runs ∧
      ListsInv h' [s] tail g.lists := by
  cases grant with
  | none => exact Or.inl ⟨h, rfl⟩
  | some gr =>
    have lists : ListsInv (granted h 1 gr) [] g.pool g.lists := inv.lists.of_same rfl rfl rfl
    cases records : g.pool with
    | nil =>
      rw [records] at lists
      have exhausted : slabMetadataAlloc (granted h 1 gr) = (granted h 1 gr, none) := by
        rw [slabMetadataAlloc, show (granted h 1 gr).slabMetadataFreeList = none from lists.free]
      refine Or.inl ⟨pagingFreePages (granted h 1 gr) gr.base 1, ?_⟩
      rw [slabCreate, pagingAllocPages_some (by decide)]
      dsimp only
      rw [exhausted]
      rfl
    | cons s tail =>
      rw [records] at lists
      obtain ⟨h', allocated, same, lists'⟩ := lists.metadataAlloc
      obtain ⟨m, f, ran, contents⟩ := inv.carve place c (fresh gr rfl) same
        (fun there => there.elim fun place listed => lists'.fresh.2 place listed)
      refine Or.inr ⟨_, s, tail, _, rfl, ?_, ?_, ?_, ?_, contents, ?_⟩
      · rw [slabCreate_eq allocated ((same.sizes c).2.trans (inv.contents.sizes c).2), ran]
        rfl
      · exact List.ne_nil_of_length_pos (by
          rw [List.length_map, List.length_reverse, List.length_range]
          exact (capacityOf_le c).1)
      · rw [HeapState.setSlab_self]
        rfl
      · intro t other
        rw [HeapState.setSlab_of_ne _ other]
        exact same.records t
      · exact (lists'.relink none).of_same (by rw [next_setSlab, next_setNext]; rfl) rfl rfl

theorem mem_created {rest : List Nat} {place : CacheId × SlabList} :
    t ∈ (g.created c s rest).lists place ↔
      t ∈ g.lists place ∨ t = s ∧ place = (c, .partialSlabs) := by
  rw [Shape.created_lists]
  by_cases here : place = (c, .partialSlabs)
  · rw [here, Function.update_self, List.mem_cons]
    simp [or_comm]
  · rw [Function.update_of_ne here]
    simp [here]

theorem mem_created_active {rest : List Nat} :
    (g.created c s rest).active t ↔ t = s ∨ g.active t := by
  simp only [Shape.active, mem_created, exists_or, exists_eq_right]
  exact or_comm

/-- The new slab goes on `partial`. -/
theorem push_created (inv : HeapInv pool h blocks runs g none) {h' : HeapState} {tail : List SlabId}
    {rest : List Nat} (records : g.pool = s :: tail)
    (cache : (h'.slabMetadataPool s).cache = c)
    (others : ∀ t ≠ s, { h'.slabMetadataPool t with next := none } =
      { h.slabMetadataPool t with next := none })
    (contents : ContentsInv pool h' (fun t => t = s ∨ g.active t) (Function.update g.objects s rest)
      blocks runs)
    (lists : ListsInv h' [s] tail g.lists) :
    SameContents h' (slabListPush h' c .partialSlabs s) ∧
      HeapInv pool (slabListPush h' c .partialSlabs s) blocks runs (g.created c s rest) (some s) := by
  have same : SameContents h' (slabListPush h' c .partialSlabs s) :=
    (sameContents_setNext _ _ _).trans (sameContents_setHead _ _ _ _)
  have pool' : (g.created c s rest).pool = tail := by
    rw [Shape.created, records]
    rfl
  have lists' := lists.push c .partialSlabs
  have old {c' : CacheId} {k : SlabList} {t : SlabId} (member : t ∈ g.lists (c', k)) : t ≠ s := by
    rintro rfl
    exact lists.fresh.2 _ member
  refine ⟨same, (contents.same same).congr_active fun t => mem_created_active, ?_,
    fun c' k t member => ?_, fun c' k t member free => ?_, fun c' => ?_⟩
  · rw [pool']
    exact lists'
  · rw [same.cache]
    rcases mem_created.mp member with listed | ⟨rfl, place⟩
    · exact (Slab.mk.inj (others t (old listed))).1.trans (inv.caches c' k t listed)
    · exact cache.trans (Prod.mk.inj place).1.symm
  · rcases mem_created.mp member with listed | ⟨rfl, -⟩
    · rw [same.inUse, (Slab.mk.inj (others t (old listed))).2.2.2.1, Shape.created_objects,
        Function.update_of_ne (old listed)]
      exact inv.placed c' k t listed nofun
    · exact absurd rfl free
  · have other : ((c', .emptySlabs) : CacheId × SlabList) ≠ (c, .partialSlabs) :=
      fun same => nomatch (Prod.mk.inj same).2
    rw [Shape.created_lists, Function.update_of_ne other]
    exact inv.oneEmpty c'

/-- The call may leave one slab where it is for the moment. -/
theorem relax (inv : HeapInv pool h blocks runs g none) (s : SlabId) :
    HeapInv pool h blocks runs g (some s) :=
  ⟨inv.contents, inv.lists, inv.caches, fun c l t member _ => inv.placed c l t member nofun,
    inv.oneEmpty⟩

theorem first_of_head (inv : HeapInv pool h blocks runs g busy)
    (head : (h.slabCaches c).heads l = some s) : ∃ tail, g.lists (c, l) = s :: tail := by
  have thread := inv.lists.heads c l
  cases listed : g.lists (c, l) with
  | nil =>
    rw [listed] at thread
    exact absurd (head.symm.trans thread) nofun
  | cons t tail =>
    rw [listed] at thread
    obtain rfl : s = t := Option.some.inj (head.symm.trans thread.1)
    exact ⟨tail, rfl⟩

/-- **The slab that an object is taken from**: `slab_alloc_from_cache` up to there. -/
theorem slabForAlloc_spec (inv : HeapInv pool h blocks runs g none) (place : PoolPlace pool)
    (c : CacheId) {grant : Option Grant} (fresh : ∀ gr ∈ grant, Fresh h 1 gr) :
    (∃ h', slabForAlloc pool h c grant = .ok (h', none)) ∨
    ∃ h' g' s, slabForAlloc pool h c grant = .ok (h', some s) ∧
      HeapInv pool h' blocks runs g' (some s) ∧ s ∈ g'.lists (c, .partialSlabs) ∧
      g'.objects s ≠ [] ∧ ∀ p, Located h g p → Located h' g' p := by
  rw [slabForAlloc]
  cases onPartial : (h.slabCaches c).heads .partialSlabs with
  | some s =>
    obtain ⟨tail, listed⟩ := inv.first_of_head onPartial
    have member : s ∈ g.lists (c, .partialSlabs) := by
      rw [listed]
      exact List.mem_cons_self
    have fits := inv.placed c .partialSlabs s member nofun
    exact Or.inr ⟨h, g, s, rfl, inv.relax s, member, fun none_free => absurd (fits.1.mpr none_free) nofun,
      fun p located => located⟩
  | none =>
    dsimp only
    cases onEmpty : (h.slabCaches c).heads .emptySlabs with
    | some s =>
      -- the empty slab that the cache keeps
      obtain ⟨tail, listed⟩ := inv.first_of_head onEmpty
      have member : s ∈ g.lists (c, .emptySlabs) := by
        rw [listed]
        exact List.mem_cons_self
      have fits := inv.placed c .emptySlabs s member nofun
      have other : SlabList.emptySlabs ≠ .partialSlabs := nofun
      obtain ⟨h', removed, same, moved⟩ :=
        inv.move member other (some s) nofun (fun absent => absurd rfl absent) nofun
      refine Or.inr ⟨_, _, s, ?_, moved, ?_, fun none_free => absurd (fits.1.mpr none_free) nofun,
        fun p located => located.transfer fun t active _ _ _ => ?_⟩
      · dsimp only [bind, Except.bind]
        rw [removed]
        rfl
      · rw [inv.mem_moved member other, if_pos rfl]
      · exact ⟨(inv.active_moved member other).mpr active, same.cache t, same.pageBase t⟩
    | none =>
      dsimp only
      rcases inv.slabCreate_spec place c fresh with ⟨h', failed⟩ |
        ⟨h', s, tail, rest, records, created, free, cache, others, contents, lists⟩
      · refine Or.inl ⟨h', ?_⟩
        rw [failed]
        rfl
      · obtain ⟨pushed, inv'⟩ := inv.push_created records cache others contents lists
        refine Or.inr ⟨_, _, s, ?_, inv', mem_created.mpr (Or.inr ⟨rfl, rfl⟩), ?_,
          fun p located => located.transfer fun t active _ _ _ => ?_⟩
        · rw [created]
          rfl
        · rwa [Shape.created_objects, Function.update_self]
        · have other : t ≠ s := by
            rintro rfl
            obtain ⟨place, listed⟩ := active
            exact lists.fresh.2 place listed
          obtain ⟨cache', base', -⟩ := Slab.mk.inj (others t other)
          exact ⟨mem_created_active.mpr (Or.inr active), (pushed.cache t).trans cache',
            (pushed.pageBase t).trans base'⟩

/-- One slab has other free objects now, and is on the list it was on. -/
theorem edited (inv : HeapInv pool h blocks runs g busy) (only : ∀ t, busy = some t → t = s)
    {record : Slab} {m : ByteMemory} {rest : List Nat} {blocks' : Nat → Option Nat}
    (contents : ContentsInv pool (({ h with memory := m } : HeapState).setSlab s record) g.active
      (Function.update g.objects s rest) blocks' runs)
    (cache : record.cache = (h.slabMetadataPool s).cache)
    (next : record.next = (h.slabMetadataPool s).next) :
    HeapInv pool (({ h with memory := m } : HeapState).setSlab s record) blocks' runs
      { g with objects := Function.update g.objects s rest } (some s) := by
  refine ⟨contents, inv.lists.of_same ?_ rfl rfl, fun c l t member => ?_,
    fun c l t member free => ?_, inv.oneEmpty⟩
  · rw [next_setSlab, next]
    exact Function.update_eq_self s h.next
  · by_cases same : t = s
    · subst same
      rw [HeapState.setSlab_self, cache]
      exact inv.caches c l t member
    · rw [HeapState.setSlab_of_ne _ same]
      exact inv.caches c l t member
  · have other : t ≠ s := fun same => free (congrArg some same.symm)
    rw [HeapState.setSlab_of_ne _ other]
    show Fits l _ (Function.update g.objects s rest t)
    rw [Function.update_of_ne other]
    exact inv.placed c l t member fun same => other (only t same)

/-- The slab is on the list where it belongs. -/
theorem settle (inv : HeapInv pool h blocks runs g (some s)) (listed : s ∈ g.lists (c, l))
    (fits : Fits l (h.slabMetadataPool s).inUse (g.objects s)) :
    HeapInv pool h blocks runs g none := by
  refine ⟨inv.contents, inv.lists, inv.caches, fun c' k t member _ => ?_, inv.oneEmpty⟩
  by_cases same : t = s
  · subst same
    obtain ⟨rfl, rfl⟩ := Prod.mk.inj (inv.lists.place_unique member listed)
    exact fits
  · exact inv.placed c' k t member fun busy => same (Option.some.inj busy).symm

/-- **An object of the slab is given out**: the rest of `slab_alloc_from_cache`. -/
theorem slabTakeObject_spec (inv : HeapInv pool h blocks runs g (some s))
    (listed : s ∈ g.lists (c, .partialSlabs)) (free : g.objects s ≠ []) {n : Nat}
    (small : n ≤ objectSizes c) :
    ∃ h' g' o, slabTakeObject h c s = .ok (h', some (o + 16)) ∧ blocks (o + 16) = none ∧
      HeapInv pool h' (Function.update blocks (o + 16) (some n)) runs g' none ∧
      ∀ p, Located h g p → Located h' g' p := by
  obtain ⟨o, rest, first⟩ := List.exists_cons_of_ne_nil free
  have active : g.active s := ⟨_, listed⟩
  have cache := inv.caches c _ s listed
  have small' : n ≤ objectSizes (h.slabMetadataPool s).cache := by rwa [cache]
  have inv' : HeapInv pool (taken h s o) (Function.update blocks (o + 16) (some n)) runs
      { g with objects := Function.update g.objects s rest } (some s) :=
    inv.edited (fun t same => (Option.some.inj same).symm)
      (inv.contents.take active first small') rfl rfl
  have used : ((taken h s o).slabMetadataPool s).inUse ≠ 0 := by
    have count := (inv.contents.slabs s active).count
    have capacity := (inv.contents.slabs s active).capacity
    have few := capacityOf_le (h.slabMetadataPool s).cache
    rw [first, List.length_cons] at count
    rw [taken, HeapState.setSlab_self]
    show ((h.slabMetadataPool s).inUse + 1) % 2 ^ 16 ≠ 0
    omega
  have now : Function.update g.objects s rest s = rest := Function.update_self _ _ _
  rw [slabTakeObject_eq inv.contents active c first]
  have member : o ∈ g.objects s := by
    rw [first]
    exact List.mem_cons_self
  have absent : blocks (o + 16) = none := by
    obtain ⟨i, inside, rfl⟩ := (inv.contents.slabs s active).slots o member
    by_contra present
    exact (inv.contents.payloads s active i inside).1.mpr present member
  by_cases last : rest = []
  · have other : SlabList.partialSlabs ≠ .fullSlabs := nofun
    have fits : Fits .fullSlabs ((taken h s o).slabMetadataPool s).inUse
        (Function.update g.objects s rest s) :=
      ⟨iff_of_true rfl (now.trans last), iff_of_false nofun used⟩
    obtain ⟨h', removed, same, moved⟩ := inv'.move listed other none
      (fun t busy => (Option.some.inj busy).symm) (fun _ => fits) nofun
    refine ⟨_, _, o, ?_, absent, moved,
      fun p located => located.transfer fun t active _ _ _ => ?_⟩
    · rw [if_pos last]
      dsimp only [bind, Except.bind]
      rw [show slabListRemove (taken h s o) c .partialSlabs s = .ok h' from removed]
    · exact ⟨(inv'.active_moved listed other).mpr active,
        (same.cache t).trans (taken_place h s o t).1,
        (same.pageBase t).trans (taken_place h s o t).2⟩
  · refine ⟨_, _, o, if_neg last, absent, inv'.settle listed ⟨?_, iff_of_false nofun used⟩,
      fun p located => located.transfer fun t active _ _ _ => ⟨active, taken_place h s o t⟩⟩
    exact iff_of_false nofun fun none_free => last (now.symm.trans none_free)

/-! ## Putting an object back -/

theorem mem_destroyed (inv : HeapInv pool h blocks runs g busy) (listed : s ∈ g.lists (c, l))
    (place : CacheId × SlabList) :
    t ∈ (g.destroyed c l s).lists place ↔ t ∈ g.lists place ∧ t ≠ s := by
  rw [Shape.destroyed_lists]
  by_cases source : place = (c, l)
  · rw [source, Function.update_self, (inv.lists.share.held_nodup (c, l)).mem_erase_iff]
    exact and_comm
  · rw [Function.update_of_ne source]
    refine ⟨fun member => ⟨member, ?_⟩, And.left⟩
    rintro rfl
    exact source (inv.lists.place_unique member listed)

theorem active_destroyed (inv : HeapInv pool h blocks runs g busy) (listed : s ∈ g.lists (c, l)) :
    (g.destroyed c l s).active t ↔ g.active t ∧ t ≠ s := by
  simp only [Shape.active, inv.mem_destroyed listed, exists_and_right]

/-- A slab off its list gives up its page and its record. -/
theorem destroy_removed (inv : HeapInv pool h blocks runs g (some s)) (listed : s ∈ g.lists (c, l))
    (unused : (h.slabMetadataPool s).inUse = 0) {h' : HeapState} (same : SameContents h h')
    (lists : ListsInv h' [s] g.pool
      (Function.update g.lists (c, l) ((g.lists (c, l)).erase s))) :
    HeapInv pool (slabDestroy h' s) blocks runs (g.destroyed c l s) none ∧
      ∀ p, Located h g p → (slabDestroy h' s).mapped (p / pageSize) = true →
        Located (slabDestroy h' s) (g.destroyed c l s) p := by
  have active : g.active s := ⟨_, listed⟩
  have contents := inv.contents.same same
  have ok := contents.slabs s active
  obtain ⟨maps, freed, mapped⟩ := pagingFreePages_eq h' ok.low Nat.one_ne_zero
    (by rw [Nat.one_mul]; exact ok.high)
  have onePage (page : Nat) : maps page = true ↔
      h'.mapped page = true ∧ page ≠ (h'.slabMetadataPool s).pageBase / pageSize := by
    rw [mapped]
    exact and_congr_right fun _ => by omega
  have contents' := contents.destroy active ((same.inUse s).trans unused) onePage
  have lists' : ListsInv { h' with mapped := maps } [s] g.pool
      (Function.update g.lists (c, l) ((g.lists (c, l)).erase s)) := lists.of_same rfl rfl rfl
  obtain ⟨same', lists''⟩ := lists'.metadataFree
  have gone : slabDestroy h' s = slabMetadataFree { h' with mapped := maps } s := by
    rw [slabDestroy, freed]
  rw [gone]
  refine ⟨⟨(contents'.same same').congr_active fun t => inv.active_destroyed listed, lists'',
    fun c' k t member => ?_, fun c' k t member _ => ?_, fun c' => ?_⟩,
    fun p located still => located.transfer fun t active' i inside here => ?_⟩
  · rw [inv.mem_destroyed listed] at member
    rw [same'.cache]
    exact (same.cache t).trans (inv.caches c' k t member.1)
  · rw [inv.mem_destroyed listed] at member
    rw [same'.inUse]
    show Fits k (h'.slabMetadataPool t).inUse (g.objects t)
    rw [same.inUse]
    exact inv.placed c' k t member.1 fun busy => member.2 (Option.some.inj busy).symm
  · rw [Shape.destroyed_lists]
    by_cases source : (c', SlabList.emptySlabs) = (c, l)
    · rw [source, Function.update_self, ← source]
      exact List.length_erase_le.trans (inv.oneEmpty c')
    · rw [Function.update_of_ne source]
      exact inv.oneEmpty c'
  · have other : t ≠ s := by
      rintro rfl
      have wide := (slotSizeOf_le (h.slabMetadataPool t).cache).1
      have owns := inv.contents.slot_page active' inside (show 16 < _ by omega)
      rw [same'.mapped] at still
      refine ((onePage _).mp still).2 ?_
      rw [here, same.pageBase]
      exact owns.2
    exact ⟨(inv.active_destroyed listed).mpr ⟨active', other⟩, (same'.cache t).trans (same.cache t),
      (same'.pageBase t).trans (same.pageBase t)⟩

/-- **The slab changes its list** after an object was put back. -/
theorem slabRelist_spec (inv : HeapInv pool h blocks runs g (some s)) {wasFull : Bool}
    (listed : s ∈ g.lists (c, if wasFull then .fullSlabs else .partialSlabs))
    (free : g.objects s ≠ []) :
    ∃ h' g', slabRelist h s wasFull = .ok h' ∧ HeapInv pool h' blocks runs g' none ∧
      ∀ p, Located h g p → h'.mapped (p / pageSize) = true → Located h' g' p := by
  have cache := inv.caches c _ s listed
  have only (t : SlabId) (busy : some s = some t) : t = s := (Option.some.inj busy).symm
  have notEmpty : (if wasFull then SlabList.fullSlabs else .partialSlabs) ≠ .emptySlabs := by
    cases wasFull <;> simp
  rw [slabRelist, cache]
  by_cases unused : (h.slabMetadataPool s).inUse = 0
  · rw [if_pos unused]
    obtain ⟨h', removed, same, lists⟩ := inv.lists.remove listed
    dsimp only [bind, Except.bind]
    rw [removed]
    dsimp only
    cases head : (h'.slabCaches c).heads .emptySlabs with
    | none =>
      have room : g.lists (c, .emptySlabs) = [] := by
        have thread := lists.heads c .emptySlabs
        have other : ((c, .emptySlabs) : CacheId × SlabList) ≠
            (c, if wasFull then .fullSlabs else .partialSlabs) :=
          fun equal => notEmpty (Prod.mk.inj equal).2.symm
        rw [head, Function.update_of_ne other] at thread
        cases listed' : g.lists (c, .emptySlabs) with
        | nil => rfl
        | cons t tail =>
          rw [listed'] at thread
          cases thread.1
      obtain ⟨h'', removed', same', moved⟩ := inv.move listed notEmpty none only
        (fun _ => ⟨iff_of_false (by simp) free, iff_of_true rfl unused⟩) (fun _ => room)
      obtain rfl : h' = h'' := Except.ok.inj (removed.symm.trans removed')
      exact ⟨_, _, rfl, moved, fun p located _ => located.transfer fun t active _ _ _ =>
        ⟨(inv.active_moved listed notEmpty).mpr active, same'.cache t, same'.pageBase t⟩⟩
    | some t =>
      obtain ⟨inv', located⟩ := inv.destroy_removed listed unused same lists
      exact ⟨_, _, rfl, inv', located⟩
  · rw [if_neg unused]
    have fits : Fits .partialSlabs (h.slabMetadataPool s).inUse (g.objects s) :=
      ⟨iff_of_false (by simp) free, iff_of_false (by simp) unused⟩
    cases wasFull with
    | true =>
      rw [if_pos rfl] at listed
      have other : SlabList.fullSlabs ≠ .partialSlabs := by simp
      obtain ⟨h', removed, same, moved⟩ := inv.move listed other none only (fun _ => fits)
        (by simp)
      refine ⟨_, _, ?_, moved, fun p located _ => located.transfer fun t active _ _ _ =>
        ⟨(inv.active_moved listed other).mpr active, same.cache t, same.pageBase t⟩⟩
      dsimp only [bind, Except.bind]
      rw [if_pos rfl, removed]
      rfl
    | false =>
      exact ⟨h, g, rfl, inv.settle listed fits, fun p located _ => located⟩

end HeapInv

end Dfos.Heap
