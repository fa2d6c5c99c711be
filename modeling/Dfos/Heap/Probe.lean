import Dfos.Heap.Room

/-!
# Slabs and runs told apart

`kfree` takes the slab path when the words sixteen bytes before the pointer look
like the header of a slab object.  Before a run these words are in the page
before, which belongs to somebody else or to nobody.
-/

namespace Dfos.Heap

open Dfos.Lib Dfos.Pmm

/-- The page before a run is there, and does not end like the header of an object. -/
def QuietPage (h : HeapState) (p : Nat) : Prop :=
  h.mapped ((p - 16) / pageSize) = true ∧
    (h.memory.u32 (p - 16) ≠ heapSlabMagic ∨ h.memory.u32 (p - 12) = 0)

/-- The heap without the pages of the run at `p`. -/
def withoutRun (h : HeapState) (p n : Nat) : HeapState :=
  { h with
    mapped := fun page => h.mapped page && !decide ((p - 8) / pageSize ≤ page ∧
      page < (p - 8) / pageSize + largePageCount n) }

/-- `kfree` of a block of `n` bytes returns, so it reads mapped memory only; it takes
the slab path for a block from a slab, and for a run it unmaps the run and does
nothing else. -/
def ReleasesExactly (pool : Nat) (w : HeapWorld) (p n : Nat) : Prop :=
  ∃ h, kfree pool w.heap p = .ok h ∧
    (n ≤ slabLimit → slabFreePointer pool w.heap p = .ok (h, true)) ∧
    (slabLimit < n → slabFreePointer pool w.heap p = .ok (w.heap, false) ∧
      h = withoutRun w.heap p n ∧
      ∀ q k, w.live q = some k → q ≠ p → ∀ a, q ≤ a → a < q + max k 1 →
        h.mapped (a / pageSize) = true ∧ h.memory a = w.heap.memory a)

section Probe

variable {pool : Nat} {w : HeapWorld} {g : Shape} {h : HeapState} {blocks runs : Nat → Option Nat}
  {p n : Nat}

/-- Once the header is taken for one of an object, the slab path is taken. -/
theorem slabFreePointer_ne_false {h' : HeapState} {object pointer : Nat}
    (here : u32Sub p slabObjectHeaderSize = object) (magic : h.load object = .ok heapSlabMagic)
    (named : h.load (u32Add object 4) = .ok pointer) (nonNull : pointer ≠ 0) :
    slabFreePointer pool h p ≠ .ok (h', false) := by
  rw [slabFreePointer, here, magic]
  dsimp only [bind, Except.bind]
  rw [if_neg (not_not.mpr rfl), named]
  dsimp only
  rw [if_neg nonNull]
  cases slabOf pool pointer with
  | none =>
    intro returns
    cases returns
  | some slab =>
    intro returns
    obtain ⟨h₁, -, returns⟩ := bind_ok_iff.mp returns
    split at returns
    · cases returns
    · obtain ⟨h₂, -, returns⟩ := bind_ok_iff.mp returns
      cases returns

/-- The probe lets a run pass exactly where the page before is quiet. -/
theorem slabFreePointer_quiet_iff (inv : HeapInv pool h blocks runs g none) (hp : runs p = some n) :
    slabFreePointer pool h p = .ok (h, false) ↔ QuietPage h p := by
  constructor
  · intro passes
    cases mapped : h.mapped ((p - 16) / pageSize) with
    | false =>
      rw [inv.slabFreePointer_fault hp mapped] at passes
      cases passes
    | true =>
      refine ⟨mapped, ?_⟩
      by_contra forged
      push Not at forged
      obtain ⟨first, second, word, low⟩ := inv.probe_loads hp mapped
      rw [forged.1] at first
      exact slabFreePointer_ne_false (u32Sub_eq low word) first second forged.2 passes
  · intro quiet
    exact inv.slabFreePointer_run hp quiet.1 quiet.2

/-- Memory and mapped pages of the other blocks, after a run is unmapped. -/
theorem other_block_kept (inv : w.Inv pool g) (hp : w.runs p = some n) {q k a : Nat}
    (hq : w.live q = some k) (other : q ≠ p) (low : q ≤ a) (high : a < q + max k 1) :
    (withoutRun w.heap p n).mapped (a / pageSize) = true := by
  have owned : ∃ u, u ≠ .run p ∧ Owns w.heap g.active w.runs u (a / pageSize) := by
    by_cases small : k ≤ slabLimit
    · obtain ⟨s, active, i, inside, rfl, fits, -⟩ :=
        inv.heap.contents.block_slot (HeapWorld.blocks_eq hq small)
      exact ⟨.slab s, nofun, inv.heap.contents.slot_byte active inside (by omega) (by omega)⟩
    · have some_bytes : 1 ≤ k := by
        unfold slabLimit at small
        omega
      rw [max_eq_left some_bytes] at high
      refine ⟨.run q, fun same => other (Holder.run.inj same), ?_⟩
      exact inv.heap.contents.run_page (HeapWorld.runs_eq hq (not_le.mp small)) (by omega) high
  obtain ⟨u, notRun, owns⟩ := owned
  have outside : ¬ ((p - 8) / pageSize ≤ a / pageSize ∧
      a / pageSize < (p - 8) / pageSize + largePageCount n) :=
    fun within => notRun (inv.heap.contents.owner _ _ _ owns ⟨n, hp, within⟩)
  show (w.heap.mapped (a / pageSize) && !decide _) = true
  rw [inv.heap.contents.mapped_of owns, decide_eq_false outside]
  rfl

/-- The pages of a run are given back and nothing else. -/
theorem pagingFreePages_run (inv : HeapInv pool h blocks runs g none) (hp : runs p = some n) :
    pagingFreePages h (p - 8) (largePageCount n) = withoutRun h p n := by
  have large := inv.contents.large p n hp
  have low := large.low
  have high := large.high
  have fits := large.fits
  have limit : kernelDynamicLimit < 0xFFFFFFFF := by decide
  have positive : 0 < kernelDynamicBase := by decide
  refine if_neg ?_
  rintro (zero | none_asked | beyond)
  · omega
  · rw [none_asked] at fits
    omega
  · omega

/-- **`kfree` releases exactly the block it is given**: always for a block from a
slab, and for a run exactly where the page before it is quiet. -/
theorem kfree_releases_iff (place : PoolPlace pool)
    (reached : HeapWorld.Reached pool (· < 2 ^ 32 - 7) CarefulFree w) (live : w.live p = some n) :
    ReleasesExactly pool w p n ↔ (slabLimit < n → QuietPage w.heap p) := by
  obtain ⟨g, inv⟩ := reached.inv place (fun _ noWrap => noWrap) fun _ _ _ careful => Or.inl careful
  by_cases small : n ≤ slabLimit
  · have block := HeapWorld.blocks_eq live small
    refine iff_of_true ?_ fun large => absurd small (not_le.mpr large)
    obtain ⟨h, g', returns, -, -⟩ := inv.heap.kfree_small place block
    refine ⟨h, returns, fun _ => ?_, fun large => absurd small (not_le.mpr large)⟩
    obtain ⟨s, active, i, inside, rfl, -, used⟩ := inv.heap.contents.block_slot block
    have inUse := (inv.heap.contents.slabs s active).inUse_pos inside used
    rw [kfree_slot inv.heap.contents place active inside, if_neg inUse.ne'] at returns
    rw [slabFreePointer_slot inv.heap.contents place active inside, if_neg inUse.ne', returns]
    rfl
  · have large : slabLimit < n := not_le.mp small
    have run := HeapWorld.runs_eq live large
    rw [← slabFreePointer_quiet_iff inv.heap run]
    constructor
    · rintro ⟨h, -, -, exactly⟩ -
      exact (exactly large).1
    · intro passes
      obtain ⟨mapped, harmless⟩ := (slabFreePointer_quiet_iff inv.heap run).mp (passes large)
      have returns := inv.heap.kfree_large run mapped harmless
      rw [pagingFreePages_run inv.heap run] at returns
      exact ⟨_, returns, fun few => absurd few small, fun _ => ⟨passes large, rfl,
        fun q k hq other a low high => ⟨other_block_kept inv run hq other low high, rfl⟩⟩⟩

/-! ## The first run of the dynamic region -/

/-- After one `kmalloc` of a page at the start of the region. -/
def oneRun : HeapWorld :=
  (HeapWorld.initial zeroHeap).allocated (withRun (heapInit zeroHeap) 4096 firstPage)
    (kernelDynamicBase + 8) 4096

theorem oneRun_reached : HeapWorld.Reached poolAddress (· < 2 ^ 32 - 7) CarefulFree oneRun := by
  have page : Fresh (heapInit zeroHeap) (largePageCount 4096) firstPage := firstPage_fresh (by decide)
  have returns := (zeroHeap_inv poolAddress).heap.kmalloc_granted (n := 4096) (by decide) (by decide) page
  refine ⟨zeroHeap, fun _ => rfl, .single (.kmalloc (by decide) ?_ returns)⟩
  rintro gr ⟨⟩
  exact page

theorem oneRun_live : oneRun.live (kernelDynamicBase + 8) = some 4096 := by
  show Function.update (HeapWorld.initial zeroHeap).live (kernelDynamicBase + 8) (some 4096)
    (kernelDynamicBase + 8) = some 4096
  rw [Function.update_self]

/-- Its `kfree` reads the page before, which is nobody's. -/
theorem kfree_first_run_faults :
    ∃ pool w p n, PoolPlace pool ∧ HeapWorld.Reached pool (· < 2 ^ 32 - 7) CarefulFree w ∧
      w.live p = some n ∧ kfree pool w.heap p = .error (.pageFault (p - 16)) ∧
      ¬ ReleasesExactly pool w p n := by
  obtain ⟨g, inv⟩ := oneRun_reached.inv poolAddress_place (fun _ noWrap => noWrap)
    fun _ _ _ careful => Or.inl careful
  have run := HeapWorld.runs_eq oneRun_live (by decide)
  have missing : oneRun.heap.mapped ((kernelDynamicBase + 8 - 16) / pageSize) = false := by decide
  have faults : kfree poolAddress oneRun.heap (kernelDynamicBase + 8) =
      .error (.pageFault (kernelDynamicBase + 8 - 16)) := by
    rw [kfree, if_neg (by decide), inv.heap.slabFreePointer_fault run missing]
    rfl
  refine ⟨poolAddress, oneRun, _, _, poolAddress_place, oneRun_reached, oneRun_live, faults, ?_⟩
  rintro ⟨h, returns, -⟩
  rw [faults] at returns
  cases returns

theorem kfree_releases_first_run :
    ReleasesExactly poolAddress oneRun (kernelDynamicBase + 8) 4096 ↔
      (slabLimit < 4096 → QuietPage oneRun.heap (kernelDynamicBase + 8)) :=
  kfree_releases_iff poolAddress_place oneRun_reached oneRun_live

end Probe

end Dfos.Heap
