import Dfos.Heap.Invariant

/-!
# `kmalloc` and `kfree`

What one call does to a heap that keeps the invariant.  A block of up to 2048
bytes is a slot of a slab, a larger one is a run of pages.
-/

namespace Dfos.Heap

open Dfos.Lib Dfos.Pmm

/-- The largest size that a slab serves. -/
def slabLimit : Nat := 2048

/-- The pages that a call of `kmalloc` may ask for. -/
def pagesAsked (size : Nat) : Nat := if size ≤ slabLimit then 1 else largePageCount size

/-! ## Size classes -/

section Classes

variable {h : HeapState} {size : Nat}

/-- A size up to the limit has a class that is large enough. -/
theorem slabCacheForSize_small (sizes : ∀ c, (h.slabCaches c).objectSize = objectSizes c)
    (small : size ≤ slabLimit) :
    ∃ c, slabCacheForSize h size = some c ∧ size ≤ objectSizes c := by
  have found : (slabCacheForSize h size).isSome := by
    rw [slabCacheForSize, List.find?_isSome]
    refine ⟨⟨8, by decide⟩, List.mem_finRange _, ?_⟩
    rw [sizes, decide_eq_true_eq]
    exact small
  obtain ⟨c, here⟩ := Option.isSome_iff_exists.mp found
  have fits := List.find?_some here
  rw [sizes, decide_eq_true_eq] at fits
  exact ⟨c, here, fits⟩

theorem objectSizes_le (c : CacheId) : objectSizes c ≤ slabLimit := by
  revert c
  decide

theorem slabCacheForSize_large (sizes : ∀ c, (h.slabCaches c).objectSize = objectSizes c)
    (large : slabLimit < size) : slabCacheForSize h size = none := by
  rw [slabCacheForSize, List.find?_eq_none]
  intro c _
  rw [sizes, decide_eq_true_eq, not_le]
  exact (objectSizes_le c).trans_lt large

end Classes

/-! ## The number of pages -/

/-- `page_count` over all sizes: the alignment wraps before the sum does. -/
theorem largePageCount_eq {size : Nat} (word : size < 2 ^ 32) :
    largePageCount size = if size < 2 ^ 32 - 4103 then (size + 4103) / pageSize
      else if size < 2 ^ 32 - 7 then 0 else 1 := by
  unfold largePageCount alignUpSize u32Add largeAllocationHeaderSize pageSize
  split_ifs <;> omega

/-- A run has room for the block unless the sum wraps. -/
theorem largePageCount_fits {size : Nat} (word : size < 2 ^ 32) (large : slabLimit < size)
    (some_pages : largePageCount size ≠ 0) :
    size + 8 ≤ largePageCount size * pageSize ↔ size < 2 ^ 32 - 7 := by
  rw [largePageCount_eq word] at some_pages ⊢
  unfold pageSize at *
  unfold slabLimit at large
  split_ifs at some_pages ⊢ <;> omega

namespace HeapInv

variable {pool : Nat} {h h' : HeapState} {blocks runs : Nat → Option Nat} {g : Shape}
  {n p : Nat} {grant : Option Grant}

section

variable (inv : HeapInv pool h blocks runs g none)
include inv

theorem objectSize (c : CacheId) :
    (h.slabCaches c).objectSize = objectSizes c := (inv.contents.sizes c).1

/-- A block is not also a run. -/
theorem runs_eq_none (hp : blocks p = some n) :
    runs p = none := by
  by_contra present
  obtain ⟨k, hk⟩ := Option.ne_none_iff_exists'.mp present
  obtain ⟨s, active, i, inside, here, -⟩ := inv.contents.block_slot hp
  have wide := (slotSizeOf_le (h.slabMetadataPool s).cache).1
  have mine := inv.contents.slot_page active inside (show 8 < _ by omega)
  have yours := inv.contents.run_page hk (show p - 8 ≤ (h.slabMetadataPool s).slot i + 8 by omega)
    (by omega)
  exact Holder.noConfusion (inv.contents.owner _ _ _ mine yours)

/-- `kmalloc` up to the choice between a slab and a run. -/
theorem kmalloc_eq (n : Nat) (grant : Option Grant) :
    kmalloc pool h n grant =
      (match slabCacheForSize h (max n 1) with
        | some cache => slabAllocFromCache pool h cache grant
        | none => allocateLarge h (max n 1) grant) >>= fun r =>
      match r.2 with
      | none => .error (.panic "kmalloc(%u) exhausted heap resources" (max n 1))
      | some ptr => .ok (r.1, ptr) := by
  have size : (if n = 0 then 1 else n) = max n 1 := by split_ifs <;> omega
  rw [kmalloc, inv.contents.ready, if_neg (by simp), size]
  dsimp only
  cases slabCacheForSize h (max n 1) <;> rfl

/-- **A block from a slab**, or a panic. -/
theorem kmalloc_slab (place : PoolPlace pool)
    (small : n ≤ slabLimit) (fresh : ∀ gr ∈ grant, Fresh h 1 gr) :
    kmalloc pool h n grant = .error (.panic "kmalloc(%u) exhausted heap resources" (max n 1)) ∨
    ∃ h' p g', kmalloc pool h n grant = .ok (h', p) ∧
      HeapInv pool h' (Function.update blocks p (some n)) runs g' none ∧ blocks p = none ∧
      ∀ q, Located h g q → Located h' g' q := by
  have atMost : max n 1 ≤ slabLimit := max_le small (by decide)
  obtain ⟨c, found, fits⟩ := slabCacheForSize_small inv.objectSize atMost
  rw [inv.kmalloc_eq, found]
  dsimp only [slabAllocFromCache]
  rcases inv.slabForAlloc_spec place c fresh with ⟨h₁, failed⟩ |
    ⟨h₁, g₁, s, chosen, inv₁, listed, free, located⟩
  · rw [failed]
    exact Or.inl rfl
  · obtain ⟨h₂, g₂, o, took, absent, inv₂, located'⟩ :=
      inv₁.slabTakeObject_spec listed free (le_trans (le_max_left n 1) fits)
    rw [chosen]
    dsimp only [bind, Except.bind]
    rw [took]
    exact Or.inr ⟨h₂, o + 16, g₂, rfl, inv₂, absent, fun q here => located' q (located q here)⟩

theorem kmalloc_small (place : PoolPlace pool)
    (small : n ≤ slabLimit) (fresh : ∀ gr ∈ grant, Fresh h 1 gr)
    (returns : kmalloc pool h n grant = .ok (h', p)) :
    ∃ g', HeapInv pool h' (Function.update blocks p (some n)) runs g' none ∧ blocks p = none ∧
      ∀ q, Located h g q → Located h' g' q := by
  rcases inv.kmalloc_slab place small fresh with panics | ⟨h₁, p₁, g', ran, inv', rest⟩
  · rw [panics] at returns
    cases returns
  · obtain ⟨rfl, rfl⟩ := Prod.mk.inj (Except.ok.inj (ran.symm.trans returns))
    exact ⟨g', inv', rest⟩

/-- A large block is left to `allocate_large`. -/
theorem kmalloc_eq_large (large : slabLimit < n)
    (grant : Option Grant) :
    kmalloc pool h n grant = allocateLarge h n grant >>= fun r =>
      match r.2 with
      | none => .error (.panic "kmalloc(%u) exhausted heap resources" n)
      | some ptr => .ok (r.1, ptr) := by
  have size : max n 1 = n := max_eq_left (le_trans (by decide) large.le)
  rw [inv.kmalloc_eq, size, slabCacheForSize_large inv.objectSize large]

/-- A large block is given out wherever its pages are granted. -/
theorem kmalloc_granted (large : slabLimit < n)
    (some_pages : largePageCount n ≠ 0) {gr : Grant} (page : Fresh h (largePageCount n) gr) :
    kmalloc pool h n (some gr) = .ok (withRun h n gr, gr.base + 8) := by
  rw [inv.kmalloc_eq_large large, allocateLarge_eq some_pages page]
  rfl

/-- **A block of whole pages**, or a panic. -/
theorem kmalloc_run (large : slabLimit < n)
    (fresh : ∀ gr ∈ grant, Fresh h (largePageCount n) gr) :
    kmalloc pool h n grant = .error (.panic "kmalloc(%u) exhausted heap resources" n) ∨
    ∃ gr ∈ grant, largePageCount n ≠ 0 ∧
      kmalloc pool h n grant = .ok (withRun h n gr, gr.base + 8) := by
  cases grant with
  | none =>
    rw [inv.kmalloc_eq_large large]
    exact Or.inl rfl
  | some gr =>
    by_cases none_asked : largePageCount n = 0
    · have refused : allocateLarge h n (some gr) = .ok (h, none) := by
        rw [allocateLarge, pagingAllocPages, if_pos none_asked]
        rfl
      rw [inv.kmalloc_eq_large large, refused]
      exact Or.inl rfl
    · exact Or.inr ⟨gr, rfl, none_asked, inv.kmalloc_granted large none_asked (fresh gr rfl)⟩

theorem kmalloc_large (large : slabLimit < n)
    (fresh : ∀ gr ∈ grant, Fresh h (largePageCount n) gr)
    (returns : kmalloc pool h n grant = .ok (h', p)) :
    ∃ gr ∈ grant, largePageCount n ≠ 0 ∧ p = gr.base + 8 ∧ h' = withRun h n gr := by
  rcases inv.kmalloc_run large fresh with panics | ⟨gr, granted, some_pages, ran⟩
  · rw [panics] at returns
    cases returns
  · obtain ⟨rfl, rfl⟩ := Prod.mk.inj (Except.ok.inj (ran.symm.trans returns))
    exact ⟨gr, granted, some_pages, rfl, rfl⟩

/-- The invariant after a run is given out, unless the sum wrapped. -/
theorem withRun_inv {gr : Grant}
    (page : Fresh h (largePageCount n) gr) (fits : n + 8 ≤ largePageCount n * pageSize) :
    runs (gr.base + 8) = none ∧
      HeapInv pool (withRun h n gr) blocks (Function.update runs (gr.base + 8) (some n)) g none := by
  have word : largePageCount n < 2 ^ 32 := by
    have high := page.high
    have limit : kernelDynamicLimit < 2 ^ 32 := by decide
    unfold pageSize at high
    omega
  have base : gr.base + 8 - 8 = gr.base := Nat.add_sub_cancel _ _
  have some_pages : largePageCount n ≠ 0 := by
    intro zero
    rw [zero] at fits
    omega
  have absent : runs (gr.base + 8) = none := by
    by_contra present
    obtain ⟨k, hk⟩ := Option.ne_none_iff_exists'.mp present
    have yours := inv.contents.mapped_of (inv.contents.run_page hk base.le (by omega))
    rw [page.unmapped _ le_rfl (by omega)] at yours
    cases yours
  have ok : LargeOk (withRun h n gr).memory (gr.base + 8) n := by
    refine ⟨by rw [base]; exact page.aligned, Nat.add_le_add_right page.low 8,
      by rw [base]; exact page.high, ?_, ?_, fits⟩
    · rw [base, withRun, ByteMemory.setU32, ByteMemory.u32_overlay (by unfold ByteMemory.Clear; omega)]
      exact ByteMemory.u32_setU32 (by decide)
    · exact ByteMemory.u32_setU32 word
  have maps (q : Nat) : (withRun h n gr).mapped q = true ↔ h.mapped q = true ∨
      gr.base / pageSize ≤ q ∧ q < gr.base / pageSize + largePageCount n :=
    granted_mapped h _ gr q
  have contents := inv.contents.addRun absent ok (by rw [base]; exact page.unmapped)
    (by rw [base]; exact maps)
    (by rw [base]; exact fun a other => withRun_outside some_pages page other)
  exact ⟨absent, contents, inv.lists.of_same rfl rfl rfl, inv.caches, inv.placed, inv.oneEmpty⟩

/-! ## Giving a block back -/

/-- **`kfree` on a block from a slab.** -/
theorem kfree_small (place : PoolPlace pool)
    (hp : blocks p = some n) :
    ∃ h' g', kfree pool h p = .ok h' ∧
      HeapInv pool h' (Function.update blocks p none) runs g' none ∧
      ∀ q, Located h g q → h'.mapped (q / pageSize) = true → Located h' g' q := by
  obtain ⟨s, active, i, inside, rfl, -, used⟩ := inv.contents.block_slot hp
  have ok := inv.contents.slabs s active
  have inUse := ok.inUse_pos inside used
  obtain ⟨⟨c, l⟩, listed⟩ := active
  have fits := inv.placed c l s listed nofun
  let o := (h.slabMetadataPool s).slot i
  have inv' : HeapInv pool (given h s o) (Function.update blocks (o + 16) none) runs
      { g with objects := Function.update g.objects s (o :: g.objects s) } (some s) :=
    inv.edited nofun (inv.contents.give ⟨_, listed⟩ inside used) rfl rfl
  have list : l = if decide ((h.slabMetadataPool s).freeList = 0) then SlabList.fullSlabs
      else .partialSlabs := by
    by_cases full : (h.slabMetadataPool s).freeList = 0
    · rw [if_pos (decide_eq_true full)]
      exact fits.1.mpr (ok.freeList_eq_zero.mp full)
    · rw [if_neg (by rwa [decide_eq_true_eq])]
      cases l with
      | fullSlabs => exact absurd (ok.freeList_eq_zero.mpr (fits.1.mp rfl)) full
      | emptySlabs => exact absurd (fits.2.mp rfl) inUse.ne'
      | partialSlabs => rfl
  obtain ⟨h', g', relisted, inv'', located⟩ := inv'.slabRelist_spec (list ▸ listed)
    (show Function.update g.objects s (o :: g.objects s) s ≠ [] by
      rw [Function.update_self]
      exact List.cons_ne_nil _ _)
  refine ⟨h', g', ?_, inv'', fun q here still => located q (here.transfer fun t active _ _ _ =>
    ⟨active, given_place h s o t⟩) still⟩
  rw [kfree_slot inv.contents place ⟨_, listed⟩ inside, if_neg inUse.ne']
  exact relisted

/-- The word before the header of a run is in the page before. -/
theorem probe_page (hp : runs p = some n) {k : Nat}
    (small : k < 8) : (p - 16 + k) / pageSize = (p - 16) / pageSize ∧ p < 2 ^ 32 ∧ 16 ≤ p := by
  have large := inv.contents.large p n hp
  obtain ⟨q, aligned⟩ := large.aligned
  have low := large.low
  have high := large.high
  have limit : kernelDynamicLimit < 2 ^ 32 - 8 := by decide
  have base : 4096 ≤ kernelDynamicBase := by decide
  unfold pageSize at *
  omega

/-- The probe of `slab_free_pointer` before a run: the page may be missing. -/
theorem slabFreePointer_fault (hp : runs p = some n)
    (missing : h.mapped ((p - 16) / pageSize) = false) :
    slabFreePointer pool h p = .error (.pageFault (p - 16)) := by
  obtain ⟨-, word, low⟩ := inv.probe_page hp (show 0 < 8 by decide)
  rw [slabFreePointer, slabObjectHeaderSize, u32Sub_eq low word, HeapState.load,
    if_neg (by rw [missing]; simp)]
  rfl

theorem probe_loads (hp : runs p = some n)
    (mapped : h.mapped ((p - 16) / pageSize) = true) :
    h.load (p - 16) = .ok (h.memory.u32 (p - 16)) ∧
      h.load (u32Add (p - 16) 4) = .ok (h.memory.u32 (p - 12)) ∧ p < 2 ^ 32 ∧ 16 ≤ p := by
  obtain ⟨page₃, word, low⟩ := inv.probe_page hp (show 3 < 8 by decide)
  obtain ⟨page₄, -⟩ := inv.probe_page hp (show 4 < 8 by decide)
  obtain ⟨page₇, -⟩ := inv.probe_page hp (show 7 < 8 by decide)
  refine ⟨load_eq ⟨mapped, by rwa [page₃]⟩, ?_, word, low⟩
  rw [u32Add_eq (by omega), ← show p - 16 + 4 = p - 12 by omega]
  exact load_eq ⟨by rwa [page₄], by rwa [Nat.add_assoc, page₇]⟩

/-- The probe finds nothing that looks like the header of an object. -/
theorem slabFreePointer_run (hp : runs p = some n)
    (mapped : h.mapped ((p - 16) / pageSize) = true)
    (harmless : h.memory.u32 (p - 16) ≠ heapSlabMagic ∨ h.memory.u32 (p - 12) = 0) :
    slabFreePointer pool h p = .ok (h, false) := by
  obtain ⟨first, second, word, low⟩ := inv.probe_loads hp mapped
  rw [slabFreePointer, slabObjectHeaderSize, u32Sub_eq low word, first]
  dsimp only [bind, Except.bind]
  by_cases magic : h.memory.u32 (p - 16) ≠ heapSlabMagic
  · rw [if_pos magic]
    rfl
  · rw [if_neg magic, second]
    dsimp only
    rw [if_pos (harmless.resolve_left magic)]
    rfl

/-- **`kfree` on a run** that the probe lets through. -/
theorem kfree_large (hp : runs p = some n)
    (mapped : h.mapped ((p - 16) / pageSize) = true)
    (harmless : h.memory.u32 (p - 16) ≠ heapSlabMagic ∨ h.memory.u32 (p - 12) = 0) :
    kfree pool h p = .ok (pagingFreePages h (p - 8) (largePageCount n)) := by
  have large := inv.contents.large p n hp
  obtain ⟨-, word, low⟩ := inv.probe_page hp (show 0 < 8 by decide)
  have owned (k : Nat) (small : k < 8) : h.mapped ((p - 8 + k) / pageSize) = true :=
    inv.contents.mapped_of (inv.contents.run_page hp (by omega) (by omega))
  have first : h.load (p - 8) = .ok heapLargeMagic := by
    rw [← large.magic]
    exact load_eq ⟨owned 0 (by decide), owned 3 (by decide)⟩
  have second : h.load (u32Add (p - 8) 4) = .ok (largePageCount n) := by
    rw [u32Add_eq (by omega), ← large.count, ← show p - 8 + 4 = p - 4 by omega]
    exact load_eq ⟨owned 4 (by decide), owned 7 (by decide)⟩
  rw [kfree, if_neg (by omega), inv.slabFreePointer_run hp mapped harmless]
  dsimp only [bind, Except.bind]
  rw [largeAllocationHeaderSize, u32Sub_eq (by omega) word, first]
  dsimp only
  rw [if_neg (not_not.mpr rfl), second]
  rfl

/-- The invariant after a run is given back. -/
theorem withoutRun_inv (hp : runs p = some n) :
    HeapInv pool (pagingFreePages h (p - 8) (largePageCount n)) blocks (Function.update runs p none)
      g none := by
  have large := inv.contents.large p n hp
  have some_pages : largePageCount n ≠ 0 := by
    intro zero
    have fits := large.fits
    rw [zero] at fits
    omega
  have low := large.low
  obtain ⟨maps, freed, mapped⟩ := pagingFreePages_eq h (by omega) some_pages large.high
  rw [freed]
  exact ⟨inv.contents.dropRun hp mapped, inv.lists.of_same rfl rfl rfl, inv.caches, inv.placed,
    inv.oneEmpty⟩

end

end HeapInv

end Dfos.Heap
