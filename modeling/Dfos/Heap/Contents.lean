import Dfos.Heap.Lists
import Dfos.Heap.Objects

/-!
# What the heap holds

`ContentsInv` is about the slabs that hold a page, the blocks given out from them
and the runs of pages given out whole, not about the lists that the slabs are on.
A page of the dynamic region is mapped where one of these holds it, and no two
hold the same page.
-/

namespace Dfos.Heap

open Dfos.Lib Dfos.Pmm

/-- Who a page of the dynamic region can belong to. -/
inductive Holder where
  | slab (slab : SlabId)
  | run (ptr : Nat)

/-- The pages of a slab or of a run.  `runs` has the size that was asked for. -/
def Owns (h : HeapState) (active : SlabId → Prop) (runs : Nat → Option Nat) : Holder → Nat → Prop
  | .slab slab, page => active slab ∧ page = (h.slabMetadataPool slab).pageBase / pageSize
  | .run ptr, page => ∃ n, runs ptr = some n ∧ (ptr - 8) / pageSize ≤ page ∧
      page < (ptr - 8) / pageSize + largePageCount n

/-- A run of pages given out as one block. -/
structure LargeOk (m : ByteMemory) (ptr n : Nat) : Prop where
  aligned : pageSize ∣ ptr - 8
  low : kernelDynamicBase + 8 ≤ ptr
  high : ptr - 8 + largePageCount n * pageSize ≤ kernelDynamicLimit
  magic : m.u32 (ptr - 8) = heapLargeMagic
  count : m.u32 (ptr - 4) = largePageCount n
  fits : n + 8 ≤ largePageCount n * pageSize

/-- The contents of the heap: which slabs hold a page, their free objects, and
the sizes asked for of the blocks and runs that are given out. -/
structure ContentsInv (pool : Nat) (h : HeapState) (active : SlabId → Prop)
    (objects : SlabId → List Nat) (blocks runs : Nat → Option Nat) : Prop where
  ready : h.heapReady = true
  sizes : ∀ c, (h.slabCaches c).objectSize = objectSizes c ∧
    (h.slabCaches c).slotSize = slotSizeOf c
  slabs : ∀ s, active s → SlabOk pool h.memory s (h.slabMetadataPool s) (objects s)
  payloads : ∀ s, active s → ∀ i < capacityOf (h.slabMetadataPool s).cache,
    ((h.slabMetadataPool s).slot i ∉ objects s ↔
      blocks ((h.slabMetadataPool s).slot i + 16) ≠ none) ∧
    ∀ n ∈ blocks ((h.slabMetadataPool s).slot i + 16),
      n ≤ objectSizes (h.slabMetadataPool s).cache
  located : ∀ p, blocks p ≠ none → ∃ s, active s ∧
    ∃ i < capacityOf (h.slabMetadataPool s).cache, p = (h.slabMetadataPool s).slot i + 16
  large : ∀ p, ∀ n ∈ runs p, LargeOk h.memory p n
  owner : ∀ page u u', Owns h active runs u page → Owns h active runs u' page → u = u'
  mapped : ∀ page, h.mapped page = true ↔ ∃ u, Owns h active runs u page

/-- The bytes that the heap keeps for itself. -/
def HeaderByte (h : HeapState) (active : SlabId → Prop) (runs : Nat → Option Nat) (a : Nat) : Prop :=
  (∃ s, active s ∧ ∃ i < capacityOf (h.slabMetadataPool s).cache,
    (h.slabMetadataPool s).slot i ≤ a ∧ a < (h.slabMetadataPool s).slot i + 16) ∨
  ∃ p, runs p ≠ none ∧ p - 8 ≤ a ∧ a < p

/-- The state after the first object `o` of a slab is taken off its free list. -/
def taken (h : HeapState) (s : SlabId) (o : Nat) : HeapState :=
  ({ h with memory := h.memory.setU32 (o + 8) 0 } : HeapState).setSlab s
    { h.slabMetadataPool s with
      freeList := h.memory.u32 (o + 8), inUse := ((h.slabMetadataPool s).inUse + 1) % 2 ^ 16 }

/-- The state after an object `o` is put on the free list of a slab. -/
def given (h : HeapState) (s : SlabId) (o : Nat) : HeapState :=
  ({ h with memory := h.memory.setU32 (o + 8) (h.slabMetadataPool s).freeList } : HeapState).setSlab s
    { h.slabMetadataPool s with freeList := o, inUse := (h.slabMetadataPool s).inUse - 1 }

/-- No slab changes its cache or its page. -/
theorem taken_place (h : HeapState) (s : SlabId) (o : Nat) (t : SlabId) :
    ((taken h s o).slabMetadataPool t).cache = (h.slabMetadataPool t).cache ∧
      ((taken h s o).slabMetadataPool t).pageBase = (h.slabMetadataPool t).pageBase := by
  unfold taken
  exact HeapState.setSlab_place _ (by rfl) (by rfl) t

theorem given_place (h : HeapState) (s : SlabId) (o : Nat) (t : SlabId) :
    ((given h s o).slabMetadataPool t).cache = (h.slabMetadataPool t).cache ∧
      ((given h s o).slabMetadataPool t).pageBase = (h.slabMetadataPool t).pageBase := by
  unfold given
  exact HeapState.setSlab_place _ (by rfl) (by rfl) t

section Ownership

variable {owns owns' : Holder → Nat → Prop} {mapped mapped' : Nat → Bool} {u₀ : Holder}
  {here : Nat → Prop}

theorem owner_add (unique : ∀ page u u', owns u page → owns u' page → u = u')
    (known : ∀ page, mapped page = true ↔ ∃ u, owns u page)
    (added : ∀ u page, owns' u page ↔ owns u page ∨ u = u₀ ∧ here page)
    (fresh : ∀ page, here page → mapped page = false)
    (maps : ∀ page, mapped' page = true ↔ mapped page = true ∨ here page) :
    (∀ page u u', owns' u page → owns' u' page → u = u') ∧
      ∀ page, mapped' page = true ↔ ∃ u, owns' u page := by
  have nobody {u : Holder} {page : Nat} (new : here page) (old : owns u page) : False := by
    have absent := fresh page new
    rw [(known page).mpr ⟨u, old⟩] at absent
    cases absent
  refine ⟨fun page u u' left right => ?_, fun page => ?_⟩
  · rcases (added u page).mp left with old | ⟨rfl, new⟩ <;>
      rcases (added u' page).mp right with old' | ⟨rfl, new'⟩
    · exact unique page u u' old old'
    · exact (nobody new' old).elim
    · exact (nobody new old').elim
    · rfl
  · rw [maps, known]
    constructor
    · rintro (⟨u, old⟩ | new)
      · exact ⟨u, (added u page).mpr (Or.inl old)⟩
      · exact ⟨u₀, (added u₀ page).mpr (Or.inr ⟨rfl, new⟩)⟩
    · rintro ⟨u, has⟩
      exact ((added u page).mp has).imp (fun old => ⟨u, old⟩) And.right

theorem owner_drop (unique : ∀ page u u', owns u page → owns u' page → u = u')
    (known : ∀ page, mapped page = true ↔ ∃ u, owns u page)
    (dropped : ∀ u page, owns' u page ↔ owns u page ∧ u ≠ u₀)
    (maps : ∀ page, mapped' page = true ↔ mapped page = true ∧ ¬ owns u₀ page) :
    (∀ page u u', owns' u page → owns' u' page → u = u') ∧
      ∀ page, mapped' page = true ↔ ∃ u, owns' u page := by
  refine ⟨fun page u u' left right => ?_, fun page => ?_⟩
  · exact unique page u u' ((dropped u page).mp left).1 ((dropped u' page).mp right).1
  · rw [maps, known]
    constructor
    · rintro ⟨⟨u, has⟩, gone⟩
      refine ⟨u, (dropped u page).mpr ⟨has, ?_⟩⟩
      rintro rfl
      exact gone has
    · rintro ⟨u, has⟩
      obtain ⟨old, other⟩ := (dropped u page).mp has
      exact ⟨⟨u, old⟩, fun gone => other (unique page u u₀ old gone)⟩

end Ownership

namespace LargeOk

variable {m m' : ByteMemory} {ptr n : Nat}

theorem frame (ok : LargeOk m ptr n) (bytes : ∀ k < 8, m' (ptr - 8 + k) = m (ptr - 8 + k)) :
    LargeOk m' ptr n := by
  refine ⟨ok.aligned, ok.low, ok.high, ?_, ?_, ok.fits⟩
  · exact (ByteMemory.u32_congr fun k small => bytes k (by omega)).trans ok.magic
  · refine (ByteMemory.u32_congr fun k small => ?_).trans ok.count
    have low := ok.low
    have same := bytes (4 + k) (by omega)
    rwa [show ptr - 8 + (4 + k) = ptr - 4 + k by omega] at same

theorem page_inside (ok : LargeOk m ptr n) {a : Nat} (low : ptr - 8 ≤ a) (high : a < ptr + n) :
    (ptr - 8) / pageSize ≤ a / pageSize ∧
      a / pageSize < (ptr - 8) / pageSize + largePageCount n := by
  have positive : 0 < pageSize := by decide
  have fits := ok.fits
  have base := ok.low
  refine ⟨Nat.div_le_div_right low, ?_⟩
  rw [Nat.div_lt_iff_lt_mul positive, Nat.add_mul, Nat.div_mul_cancel ok.aligned]
  omega

end LargeOk

namespace ContentsInv

variable {pool : Nat} {h h' : HeapState} {active : SlabId → Prop} {objects : SlabId → List Nat}
  {blocks runs : Nat → Option Nat} {s t : SlabId} {i a p n : Nat}

section

variable (inv : ContentsInv pool h active objects blocks runs)
include inv

/-- The page that a byte of a slab lies in. -/
theorem slab_page (hs : active s)
    (low : (h.slabMetadataPool s).pageBase ≤ a)
    (high : a < (h.slabMetadataPool s).pageBase + pageSize) :
    Owns h active runs (.slab s) (a / pageSize) :=
  ⟨hs, page_eq (inv.slabs s hs).aligned low high⟩

theorem slot_page (hs : active s)
    (inside : i < capacityOf (h.slabMetadataPool s).cache) {k : Nat}
    (small : k < slotSizeOf (h.slabMetadataPool s).cache) :
    Owns h active runs (.slab s) (((h.slabMetadataPool s).slot i + k) / pageSize) := by
  have within := (h.slabMetadataPool s).slot_inside inside
  exact inv.slab_page hs (by omega) (by omega)

theorem run_page (hp : runs p = some n)
    (low : p - 8 ≤ a) (high : a < p + n) : Owns h active runs (.run p) (a / pageSize) :=
  ⟨n, hp, (inv.large p n hp).page_inside low high⟩

/-- A page is mapped where it belongs to somebody. -/
theorem mapped_of {u : Holder} {page : Nat}
    (owns : Owns h active runs u page) : h.mapped page = true :=
  (inv.mapped page).mpr ⟨u, owns⟩

/-- **Only headers are read**, and no list. -/
theorem frame (ready : h'.heapReady = h.heapReady)
    (sizes : ∀ c, (h'.slabCaches c).objectSize = (h.slabCaches c).objectSize ∧
      (h'.slabCaches c).slotSize = (h.slabCaches c).slotSize)
    (records : ∀ slab, { h'.slabMetadataPool slab with next := none } =
      { h.slabMetadataPool slab with next := none })
    (mapped : h'.mapped = h.mapped)
    (bytes : ∀ a, HeaderByte h active runs a → h'.memory a = h.memory a) :
    ContentsInv pool h' active objects blocks runs := by
  have cache (s : SlabId) : (h'.slabMetadataPool s).cache = (h.slabMetadataPool s).cache :=
    (Slab.mk.inj (records s)).1
  have base (s : SlabId) : (h'.slabMetadataPool s).pageBase = (h.slabMetadataPool s).pageBase :=
    (Slab.mk.inj (records s)).2.1
  have slot (s : SlabId) (i : Nat) :
      (h'.slabMetadataPool s).slot i = (h.slabMetadataPool s).slot i := by
    rw [Slab.slot, Slab.slot, cache, base]
  have owns : Owns h' active runs = Owns h active runs := by
    funext u page
    cases u with
    | slab s => rw [Owns, Owns, base]
    | run p => rfl
  refine ⟨ready.trans inv.ready, fun c => ?_, fun s hs => ?_, fun s hs i inside => ?_,
    fun p hp => ?_, fun p n hp => ?_, ?_, fun page => ?_⟩
  · rw [(sizes c).1, (sizes c).2]
    exact inv.sizes c
  · refine (inv.slabs s hs).frame (records s) fun i inside k small => bytes _ (Or.inl ?_)
    exact ⟨s, hs, i, inside, by omega, by omega⟩
  · rw [cache] at inside
    rw [slot, cache]
    exact inv.payloads s hs i inside
  · obtain ⟨s, hs, i, inside, rfl⟩ := inv.located p hp
    exact ⟨s, hs, i, by rwa [cache], by rw [slot]⟩
  · have large := inv.large p n hp
    have low := large.low
    refine large.frame fun k small => bytes _ (Or.inr ?_)
    exact ⟨p, by rw [hp]; exact Option.some_ne_none n, by omega, by omega⟩
  · rw [owns]
    exact inv.owner
  · rw [owns, mapped]
    exact inv.mapped page

/-- The lists are not read. -/
theorem same (same : SameContents h h') :
    ContentsInv pool h' active objects blocks runs :=
  inv.frame same.ready same.sizes same.records same.mapped fun a _ => by rw [same.memory]

/-- The bytes of a block from a slab are in its slot; a block has at least one. -/
theorem block_slot (hp : blocks p = some n) :
    ∃ s, active s ∧ ∃ i < capacityOf (h.slabMetadataPool s).cache,
      p = (h.slabMetadataPool s).slot i + 16 ∧
      p + max n 1 ≤ (h.slabMetadataPool s).slot i + slotSizeOf (h.slabMetadataPool s).cache ∧
      (h.slabMetadataPool s).slot i ∉ objects s := by
  obtain ⟨s, hs, i, inside, rfl⟩ := inv.located p (by rw [hp]; exact Option.some_ne_none n)
  obtain ⟨taken, small⟩ := inv.payloads s hs i inside
  have fits := small n hp
  have wide := (slotSizeOf_le (h.slabMetadataPool s).cache).1
  refine ⟨s, hs, i, inside, rfl, ?_, taken.mpr (by rw [hp]; exact Option.some_ne_none n)⟩
  unfold slotSizeOf slabObjectHeaderSize at *
  omega

theorem slot_byte (hs : active s)
    (inside : i < capacityOf (h.slabMetadataPool s).cache) (low : (h.slabMetadataPool s).slot i ≤ a)
    (high : a < (h.slabMetadataPool s).slot i + slotSizeOf (h.slabMetadataPool s).cache) :
    Owns h active runs (.slab s) (a / pageSize) := by
  have owns := inv.slot_page hs inside
    (show a - (h.slabMetadataPool s).slot i < slotSizeOf (h.slabMetadataPool s).cache by omega)
  rwa [Nat.add_sub_cancel' low] at owns

/-- Two slots that share a byte are one. -/
theorem slot_unique (hs : active s)
    (ht : active t) {j : Nat} (inside : i < capacityOf (h.slabMetadataPool s).cache)
    (inside' : j < capacityOf (h.slabMetadataPool t).cache)
    (low : (h.slabMetadataPool s).slot i ≤ a)
    (high : a < (h.slabMetadataPool s).slot i + slotSizeOf (h.slabMetadataPool s).cache)
    (low' : (h.slabMetadataPool t).slot j ≤ a)
    (high' : a < (h.slabMetadataPool t).slot j + slotSizeOf (h.slabMetadataPool t).cache) :
    s = t ∧ i = j := by
  have mine := inv.slot_byte hs inside low high
  have yours := inv.slot_byte ht inside' low' high'
  obtain rfl : s = t := Holder.slab.inj (inv.owner _ _ _ mine yours)
  refine ⟨rfl, ?_⟩
  by_contra slots
  have apart := (h.slabMetadataPool s).slot_apart slots
  omega

/-- What the owner of a block may write is no header. -/
theorem block_byte (hp : blocks p = some n)
    (low : p ≤ a) (high : a < p + max n 1) : ¬ HeaderByte h active runs a := by
  intro header
  obtain ⟨s, hs, i, inside, rfl, fits, -⟩ := inv.block_slot hp
  have owns := inv.slot_byte hs inside (a := a) (by omega) (by omega)
  rcases header with ⟨t, ht, j, inside', low', high'⟩ | ⟨q, hq, low', high'⟩
  · have wide := (slotSizeOf_le (h.slabMetadataPool t).cache).1
    obtain ⟨rfl, rfl⟩ := inv.slot_unique hs ht inside inside' (a := a) (by omega) (by omega) low'
      (by omega)
    omega
  · obtain ⟨k, hk⟩ := Option.ne_none_iff_exists'.mp hq
    exact Holder.noConfusion (inv.owner _ _ _ owns (inv.run_page hk low' (by omega)))

/-- Two blocks from slabs have no byte in common. -/
theorem block_clear {q k : Nat}
    (hp : blocks p = some n) (hq : blocks q = some k) (other : p ≠ q) :
    ByteMemory.Clear p (max n 1) q (max k 1) := by
  by_contra common
  obtain ⟨s, hs, i, inside, rfl, fits, -⟩ := inv.block_slot hp
  obtain ⟨t, ht, j, inside', rfl, fits', -⟩ := inv.block_slot hq
  unfold ByteMemory.Clear at common
  obtain ⟨rfl, rfl⟩ := inv.slot_unique hs ht inside inside'
    (a := max ((h.slabMetadataPool s).slot i + 16) ((h.slabMetadataPool t).slot j + 16))
    (by omega) (by omega) (by omega) (by omega)
  exact other rfl

theorem run_byte (hp : runs p = some n)
    (low : p ≤ a) (high : a < p + n) : ¬ HeaderByte h active runs a := by
  intro header
  have owns := inv.run_page hp (by omega) high
  rcases header with ⟨t, ht, j, inside, low', high'⟩ | ⟨q, hq, low', high'⟩
  · have wide := (slotSizeOf_le (h.slabMetadataPool t).cache).1
    exact Holder.noConfusion (inv.owner _ _ _ owns (inv.slot_byte ht inside low' (by omega)))
  · obtain ⟨k, hk⟩ := Option.ne_none_iff_exists'.mp hq
    have yours := inv.run_page hk low' (by omega)
    obtain rfl : p = q := Holder.run.inj (inv.owner _ _ _ owns yours)
    omega

/-- **A byte written by the owner of a block.** -/
theorem write
    (owner : blocks p = some n ∨ runs p = some n) (low : p ≤ a) (high : a < p + n)
    (byte : BitVec 8) :
    ContentsInv pool { h with memory := Function.update h.memory a byte } active objects blocks runs := by
  have outside : ¬ HeaderByte h active runs a := by
    rcases owner with hp | hp
    · exact inv.block_byte hp low (by omega)
    · exact inv.run_byte hp low high
  refine inv.frame rfl (fun _ => ⟨rfl, rfl⟩) (fun _ => rfl) rfl fun b header => ?_
  have other : b ≠ a := by
    rintro rfl
    exact outside header
  exact Function.update_of_ne other _ _

/-- **A change in one slab** that puts one slot on its free list or takes one off,
and writes in its page only. -/
theorem edit (hs : active s)
    (inside : i < capacityOf (h.slabMetadataPool s).cache) {record : Slab} {m : ByteMemory}
    {rest : List Nat} {size : Option Nat}
    (base : record.pageBase = (h.slabMetadataPool s).pageBase)
    (cache : record.cache = (h.slabMetadataPool s).cache)
    (outside : ∀ a, a / pageSize ≠ (h.slabMetadataPool s).pageBase / pageSize → m a = h.memory a)
    (ok : SlabOk pool m s record rest)
    (others : ∀ j ≠ i, (h.slabMetadataPool s).slot j ∈ rest ↔
      (h.slabMetadataPool s).slot j ∈ objects s)
    (here : (h.slabMetadataPool s).slot i ∉ rest ↔ size ≠ none)
    (fits : ∀ n ∈ size, n ≤ objectSizes (h.slabMetadataPool s).cache) :
    ContentsInv pool (({ h with memory := m } : HeapState).setSlab s record) active
      (Function.update objects s rest)
      (Function.update blocks ((h.slabMetadataPool s).slot i + 16) size) runs := by
  have slot (j : Nat) : record.slot j = (h.slabMetadataPool s).slot j := by
    rw [Slab.slot, Slab.slot, base, cache]
  have owns : Owns (({ h with memory := m } : HeapState).setSlab s record) active runs =
      Owns h active runs := by
    funext u page
    cases u with
    | slab t =>
      by_cases same : t = s
      · subst same
        rw [Owns, Owns, HeapState.setSlab_self, base]
      · rw [Owns, Owns, HeapState.setSlab_of_ne _ same]
    | run p => rfl
  have elsewhere {u : Holder} {a : Nat} (other : u ≠ .slab s)
      (there : Owns h active runs u (a / pageSize)) : m a = h.memory a :=
    outside a fun samePage => other (inv.owner _ _ _ there ⟨hs, samePage⟩)
  refine ⟨inv.ready, inv.sizes, fun t ht => ?_, fun t ht j inside' => ?_, fun p hp => ?_,
    fun p n hp => ?_, owns ▸ inv.owner, owns ▸ inv.mapped⟩
  · by_cases same : t = s
    · subst same
      rw [HeapState.setSlab_self, Function.update_self]
      exact ok
    · rw [HeapState.setSlab_of_ne _ same, Function.update_of_ne same]
      refine (inv.slabs t ht).frame rfl fun j inside' k small => ?_
      have wide := (slotSizeOf_le (h.slabMetadataPool t).cache).1
      exact elsewhere (fun slabs => same (Holder.slab.inj slabs))
        (inv.slot_page ht inside' (by omega))
  · by_cases same : t = s
    · subst same
      rw [HeapState.setSlab_self, cache] at inside'
      rw [HeapState.setSlab_self, Function.update_self, slot, cache]
      by_cases here' : j = i
      · subst here'
        rw [Function.update_self]
        exact ⟨here, fits⟩
      · have other : (h.slabMetadataPool t).slot j + 16 ≠ (h.slabMetadataPool t).slot i + 16 :=
          fun equal => here' ((h.slabMetadataPool t).slot_injective (Nat.add_right_cancel equal))
        rw [Function.update_of_ne other, others j here']
        exact inv.payloads t ht j inside'
    · rw [HeapState.setSlab_of_ne _ same] at inside'
      rw [HeapState.setSlab_of_ne _ same, Function.update_of_ne same]
      have other : (h.slabMetadataPool t).slot j + 16 ≠ (h.slabMetadataPool s).slot i + 16 := by
        intro equal
        have wide := (slotSizeOf_le (h.slabMetadataPool t).cache).1
        have wide' := (slotSizeOf_le (h.slabMetadataPool s).cache).1
        have mine := inv.slot_page hs inside (show 16 < _ by omega)
        have yours := inv.slot_page ht inside' (show 16 < _ by omega)
        rw [equal] at yours
        exact same (Holder.slab.inj (inv.owner _ _ _ yours mine))
      rw [Function.update_of_ne other]
      exact inv.payloads t ht j inside'
  · by_cases here' : p = (h.slabMetadataPool s).slot i + 16
    · refine ⟨s, hs, i, ?_, ?_⟩
      · rwa [HeapState.setSlab_self, cache]
      · rw [here', HeapState.setSlab_self, slot]
    · rw [Function.update_of_ne here'] at hp
      obtain ⟨t, ht, j, inside', rfl⟩ := inv.located p hp
      refine ⟨t, ht, j, ?_⟩
      by_cases same : t = s
      · subst same
        rw [HeapState.setSlab_self, cache, slot]
        exact ⟨inside', rfl⟩
      · rw [HeapState.setSlab_of_ne _ same]
        exact ⟨inside', rfl⟩
  · have large := inv.large p n hp
    have low := large.low
    refine large.frame fun k small => elsewhere (nofun : Holder.run p ≠ .slab s) ?_
    exact inv.run_page hp (by omega) (by omega)

/-! ## Objects -/

/-- The word at `slot i + k` of a header is mapped. -/
theorem header_mapped (hs : active s)
    (inside : i < capacityOf (h.slabMetadataPool s).cache) {k : Nat} (small : k ≤ 12) :
    h.mapped (((h.slabMetadataPool s).slot i + k) / pageSize) = true ∧
      h.mapped (((h.slabMetadataPool s).slot i + k + 3) / pageSize) = true := by
  have wide := (slotSizeOf_le (h.slabMetadataPool s).cache).1
  refine ⟨inv.mapped_of (inv.slot_page hs inside (by omega)), ?_⟩
  rw [Nat.add_assoc]
  exact inv.mapped_of (inv.slot_page hs inside (by omega))

/-- A link written in a header is written in the page of the slab. -/
theorem setU32_outside (hs : active s)
    (inside : i < capacityOf (h.slabMetadataPool s).cache) {v : Nat}
    (other : a / pageSize ≠ (h.slabMetadataPool s).pageBase / pageSize) :
    h.memory.setU32 ((h.slabMetadataPool s).slot i + 8) v a = h.memory a := by
  refine ByteMemory.overlay_outside fun within => other ?_
  have bounds := (h.slabMetadataPool s).slot_inside inside
  have wide := (slotSizeOf_le (h.slabMetadataPool s).cache).1
  exact page_eq (inv.slabs s hs).aligned (by omega) (by omega)

/-- **The first object of a slab is given out.** -/
theorem take (hs : active s)
    {o : Nat} {rest : List Nat} (first : objects s = o :: rest)
    (fits : n ≤ objectSizes (h.slabMetadataPool s).cache) :
    ContentsInv pool (taken h s o) active (Function.update objects s rest)
      (Function.update blocks (o + 16) (some n)) runs := by
  have ok := inv.slabs s hs
  rw [first] at ok
  obtain ⟨i, inside, rfl⟩ := ok.slots o List.mem_cons_self
  have fresh := (List.nodup_cons.mp ok.nodup).1
  refine inv.edit hs inside rfl rfl (fun a other => inv.setU32_outside hs inside other) ok.take
    (fun j other => ?_) (iff_of_true fresh (Option.some_ne_none n)) fun k hk => ?_
  · rw [first, List.mem_cons]
    refine ⟨Or.inr, fun member => member.resolve_left fun same => ?_⟩
    exact other ((h.slabMetadataPool s).slot_injective same)
  · rwa [← Option.some.inj hk]

/-- **An object is put back.** -/
theorem give (hs : active s)
    (inside : i < capacityOf (h.slabMetadataPool s).cache)
    (used : (h.slabMetadataPool s).slot i ∉ objects s) :
    ContentsInv pool (given h s ((h.slabMetadataPool s).slot i)) active
      (Function.update objects s ((h.slabMetadataPool s).slot i :: objects s))
      (Function.update blocks ((h.slabMetadataPool s).slot i + 16) none) runs := by
  refine inv.edit hs inside rfl rfl (fun a other => inv.setU32_outside hs inside other)
    ((inv.slabs s hs).give inside used) (fun j other => ?_)
    (iff_of_false (fun absent => absent List.mem_cons_self) (fun present => present rfl)) nofun
  rw [List.mem_cons]
  refine ⟨fun member => member.resolve_left fun same => ?_, Or.inr⟩
  exact other ((h.slabMetadataPool s).slot_injective same)

/-! ## Pages -/

/-- Memory outside the pages that nobody had is as before, where it is read. -/
theorem header_kept {m : ByteMemory}
    {here : Nat → Prop} (fresh : ∀ page, here page → h.mapped page = false)
    (outside : ∀ a, ¬ here (a / pageSize) → m a = h.memory a) {u : Holder}
    (owns : Owns h active runs u (a / pageSize)) : m a = h.memory a := by
  refine outside a fun new => ?_
  have absent := fresh _ new
  rw [inv.mapped_of owns] at absent
  cases absent

/-- **A page becomes a slab.** -/
theorem create (hs : ¬ active s)
    {record : Slab} {m : ByteMemory} {maps : Nat → Bool} {rest : List Nat}
    (fresh : h.mapped (record.pageBase / pageSize) = false)
    (mapped : ∀ page, maps page = true ↔ h.mapped page = true ∨ page = record.pageBase / pageSize)
    (outside : ∀ a, a / pageSize ≠ record.pageBase / pageSize → m a = h.memory a)
    (ok : SlabOk pool m s record rest)
    (all : ∀ i < capacityOf record.cache, record.slot i ∈ rest) :
    ContentsInv pool (({ h with memory := m, mapped := maps } : HeapState).setSlab s record)
      (fun t => t = s ∨ active t) (Function.update objects s rest) blocks runs := by
  have fresh' (page : Nat) (here : page = record.pageBase / pageSize) : h.mapped page = false := by
    rw [here]
    exact fresh
  have kept {u : Holder} {a : Nat} (owns : Owns h active runs u (a / pageSize)) :
      m a = h.memory a := inv.header_kept fresh' outside owns
  have other {t : SlabId} (ht : active t) : t ≠ s := by
    rintro rfl
    exact hs ht
  have added (u : Holder) (page : Nat) :
      Owns (({ h with memory := m, mapped := maps } : HeapState).setSlab s record)
        (fun t => t = s ∨ active t) runs u page ↔
      Owns h active runs u page ∨ u = .slab s ∧ page = record.pageBase / pageSize := by
    cases u with
    | slab t =>
      by_cases same : t = s
      · subst same
        rw [Owns, Owns, HeapState.setSlab_self]
        simp [hs]
      · rw [Owns, Owns, HeapState.setSlab_of_ne _ same]
        simp [same]
    | run p =>
      show Owns h active runs (.run p) page ↔ _
      simp
  obtain ⟨owner, known⟩ := owner_add inv.owner inv.mapped added fresh' mapped
  refine ⟨inv.ready, inv.sizes, fun t ht => ?_, fun t ht i inside => ?_, fun p hp => ?_,
    fun p n hp => ?_, owner, known⟩
  · rcases ht with rfl | ht
    · rw [HeapState.setSlab_self, Function.update_self]
      exact ok
    · rw [HeapState.setSlab_of_ne _ (other ht), Function.update_of_ne (other ht)]
      refine (inv.slabs t ht).frame rfl fun j inside k small => ?_
      have wide := (slotSizeOf_le (h.slabMetadataPool t).cache).1
      exact kept (inv.slot_page ht inside (by omega))
  · rcases ht with rfl | ht
    · -- the page was nobody's, so there is no block in it
      rw [HeapState.setSlab_self] at inside ⊢
      have absent : blocks (record.slot i + 16) = none := by
        by_contra present
        obtain ⟨t, ht, j, inside', same⟩ := inv.located _ present
        have wide := (slotSizeOf_le (h.slabMetadataPool t).cache).1
        have wide' := (slotSizeOf_le record.cache).1
        have bounds := record.slot_inside inside
        have yours := inv.mapped_of (inv.slot_page ht inside' (show 16 < _ by omega))
        rw [← same, page_eq ok.aligned (by omega) (by omega), fresh] at yours
        cases yours
      rw [Function.update_self, absent]
      exact ⟨iff_of_false (fun missing => missing (all i inside)) (fun present => present rfl), nofun⟩
    · rw [HeapState.setSlab_of_ne _ (other ht)] at inside ⊢
      rw [Function.update_of_ne (other ht)]
      exact inv.payloads t ht i inside
  · obtain ⟨t, ht, i, inside, rfl⟩ := inv.located p hp
    refine ⟨t, Or.inr ht, i, ?_⟩
    rw [HeapState.setSlab_of_ne _ (other ht)]
    exact ⟨inside, rfl⟩
  · have large := inv.large p n hp
    have low := large.low
    exact large.frame fun k small => kept (inv.run_page hp (by omega) (by omega))

/-- **A slab with nothing in use gives up its page.** -/
theorem destroy (hs : active s)
    (unused : (h.slabMetadataPool s).inUse = 0) {maps : Nat → Bool}
    (mapped : ∀ page, maps page = true ↔
      h.mapped page = true ∧ page ≠ (h.slabMetadataPool s).pageBase / pageSize) :
    ContentsInv pool { h with mapped := maps } (fun t => active t ∧ t ≠ s) objects blocks runs := by
  have dropped (u : Holder) (page : Nat) :
      Owns { h with mapped := maps } (fun t => active t ∧ t ≠ s) runs u page ↔
      Owns h active runs u page ∧ u ≠ .slab s := by
    cases u with
    | slab t =>
      simp only [Owns, ne_eq, Holder.slab.injEq]
      exact and_right_comm
    | run p =>
      show Owns h active runs (.run p) page ↔ _
      simp
  have maps' (page : Nat) : maps page = true ↔
      h.mapped page = true ∧ ¬ Owns h active runs (.slab s) page := by
    rw [mapped, Owns, not_and]
    simp [hs]
  obtain ⟨owner, known⟩ := owner_drop inv.owner inv.mapped dropped maps'
  refine ⟨inv.ready, inv.sizes, fun t ht => inv.slabs t ht.1, fun t ht => inv.payloads t ht.1,
    fun p hp => ?_, inv.large, owner, known⟩
  obtain ⟨t, ht, i, inside, rfl⟩ := inv.located p hp
  refine ⟨t, ⟨ht, ?_⟩, i, inside, rfl⟩
  rintro rfl
  exact (inv.payloads t ht i inside).1.mpr hp ((inv.slabs t ht).all_free unused inside)

/-- **A run of pages is given out.** -/
theorem addRun {m : ByteMemory}
    {maps : Nat → Bool} (absent : runs p = none) (ok : LargeOk m p n)
    (fresh : ∀ page, (p - 8) / pageSize ≤ page → page < (p - 8) / pageSize + largePageCount n →
      h.mapped page = false)
    (mapped : ∀ page, maps page = true ↔ h.mapped page = true ∨
      (p - 8) / pageSize ≤ page ∧ page < (p - 8) / pageSize + largePageCount n)
    (outside : ∀ a, ¬ ((p - 8) / pageSize ≤ a / pageSize ∧
      a / pageSize < (p - 8) / pageSize + largePageCount n) → m a = h.memory a) :
    ContentsInv pool { h with memory := m, mapped := maps } active objects blocks
      (Function.update runs p (some n)) := by
  have fresh' (page : Nat) (here : (p - 8) / pageSize ≤ page ∧
      page < (p - 8) / pageSize + largePageCount n) : h.mapped page = false :=
    fresh page here.1 here.2
  have kept {u : Holder} {a : Nat} (owns : Owns h active runs u (a / pageSize)) :
      m a = h.memory a := inv.header_kept fresh' outside owns
  have added (u : Holder) (page : Nat) :
      Owns { h with memory := m, mapped := maps } active (Function.update runs p (some n)) u page ↔
      Owns h active runs u page ∨ u = .run p ∧ ((p - 8) / pageSize ≤ page ∧
        page < (p - 8) / pageSize + largePageCount n) := by
    cases u with
    | slab t =>
      show Owns h active runs (.slab t) page ↔ _
      simp
    | run q =>
      by_cases same : q = p
      · subst same
        simp [Owns, absent]
      · simp [Owns, same]
  obtain ⟨owner, known⟩ := owner_add inv.owner inv.mapped added fresh' mapped
  refine ⟨inv.ready, inv.sizes, fun t ht => ?_, inv.payloads, inv.located, fun q k hq => ?_,
    owner, known⟩
  · refine (inv.slabs t ht).frame rfl fun j inside k small => ?_
    have wide := (slotSizeOf_le (h.slabMetadataPool t).cache).1
    exact kept (inv.slot_page ht inside (by omega))
  · by_cases same : q = p
    · subst same
      rw [Function.update_self] at hq
      rw [← Option.some.inj hq]
      exact ok
    · rw [Function.update_of_ne same] at hq
      have large := inv.large q k hq
      have low := large.low
      exact large.frame fun b small => kept (inv.run_page hq (by omega) (by omega))

/-- **A run of pages is given back.** -/
theorem dropRun {maps : Nat → Bool}
    (hp : runs p = some n)
    (mapped : ∀ page, maps page = true ↔ h.mapped page = true ∧
      ¬ ((p - 8) / pageSize ≤ page ∧ page < (p - 8) / pageSize + largePageCount n)) :
    ContentsInv pool { h with mapped := maps } active objects blocks
      (Function.update runs p none) := by
  have dropped (u : Holder) (page : Nat) :
      Owns { h with mapped := maps } active (Function.update runs p none) u page ↔
      Owns h active runs u page ∧ u ≠ .run p := by
    cases u with
    | slab t =>
      show Owns h active runs (.slab t) page ↔ _
      simp
    | run q =>
      by_cases same : q = p
      · subst same
        simp [Owns]
      · simp [Owns, same]
  have maps' (page : Nat) : maps page = true ↔
      h.mapped page = true ∧ ¬ Owns h active runs (.run p) page := by
    rw [mapped, Owns, hp]
    simp
  obtain ⟨owner, known⟩ := owner_drop inv.owner inv.mapped dropped maps'
  refine ⟨inv.ready, inv.sizes, inv.slabs, inv.payloads, inv.located, fun q k hq => ?_, owner,
    known⟩
  by_cases same : q = p
  · subst same
    rw [Function.update_self] at hq
    cases hq
  · rw [Function.update_of_ne same] at hq
    exact inv.large q k hq

end

end ContentsInv

end Dfos.Heap
