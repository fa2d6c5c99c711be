import Dfos.Paging.UserBoot
import Dfos.Pmm.Supply

/-!
# Page tables within the direct map

A page table is written through the direct map, which ends at 256 MiB.  On a
machine whose memory ends before, a space is created whenever a record and a frame
are free.
-/

namespace Dfos.Paging

open Dfos.Lib
open Dfos.Pmm

variable {layout : Layout} {all : Set Nat} {w : UserWorld} {tree : Trees Nat}

/-- With a record and two frames free a space is created, and one frame stays free. -/
theorem UserWorld.Inv.create_succeeds (inv : w.Inv layout all tree) (clear : layout.Clear all)
    (low : ∀ f ∈ all, Reachable f) {a b space : Nat} (free : a ∈ w.state.pmm.freeSet)
    (free' : b ∈ w.state.pmm.freeSet) (distinct : a ≠ b)
    (record : w.state.freeSpaceRecord = some space) (node : Nat) :
    ∃ s' tree', w.state.pagingCreateProcessSpaceOnNode layout node = .ok (s', some space) ∧
      Inv layout all { w with state := s' } tree' ∧ s'.Live space ∧ s'.pmm.freeSet ≠ ∅ := by
  have stock := inv.tables.spaces.stock
  rcases inv.createSpace clear node with
    ⟨_, -, f, open_, beyond, -⟩ | ⟨s', result, tree', done, inv', planted, -, created⟩
  · exact absurd (low f ((stock.free f).mp open_).1) beyond
  cases planted with
  | nothing why =>
      rcases why with full | empty
      · rw [record] at full
        cases full
      · exact absurd empty (pmmAllocFrameOnNode_supplies stock.booted free node)
  | @root space' f record' absent =>
      obtain rfl : space = space' := Option.some.inj (record.symm.trans record')
      refine ⟨s', _, done, inv', ⟨(created.here space rfl).2, ?_⟩, ?_⟩
      · rw [created.kernelSpace, inv.tables.kernelSpace]
        rintro kernel
        obtain rfl := Option.some.inj kernel
        have unused := (created.here 0 rfl).1
        rw [inv.tables.kernelRecord] at unused
        cases unused
      · -- whichever of the two frames became the root, the other is free
        have kept : ∀ g ∈ w.state.pmm.freeSet, g ≠ f → g ∈ s'.pmm.freeSet := by
          intro g before other
          obtain ⟨member, unused⟩ := (stock.free g).mp before
          refine (inv'.tables.spaces.stock.free g).mpr ⟨member, fun used => unused ?_⟩
          rcases used with (owner | backs) | ⟨k, p, there⟩
          · exact Or.inl (Or.inl owner)
          · exact Or.inl (Or.inr ((created.still.backs clear).mp backs))
          · rcases Trees.set_some there with ⟨-, -, same⟩ | before
            · exact (other same).elim
            · exact Or.inr ⟨k, p, before⟩
        apply Set.nonempty_iff_ne_empty.mp
        by_cases first : a = f
        · exact ⟨b, kept b free' fun same => distinct (first.trans same.symm)⟩
        · exact ⟨a, kept a free first⟩

/-- On the machine with eight MiB a caller gets a frame and creates a space. -/
theorem imageBoot_created :
    ∃ pmm f w, pmmInit imageBoot = .ok pmm ∧ (∀ g ∈ pmm.freeSet, Reachable g) ∧
      (UserWorld.boot twoMibLayout (fun _ => 0) pmm).run twoMibLayout
        [.allocFrameOnNode 0xFF, .createProcessSpaceOnNode 0xFF] = .ok w ∧
      w.Idle f ∧ w.state.Live 1 ∧ w.state.pmm.freeSet ≠ ∅ := by
  obtain ⟨pmm, ready, reachable⟩ := imageBoot_ready
  have clear := Layout.clear_of_image ready (by decide : twoMibLayout.InImage imageBoot)
  have booted := (pmmInit_booted ready).1
  have total : pmm.totalFrames = 0x800 := by
    have found : highestPhysical imageBoot = .ok 0x800000 := by decide
    obtain ⟨-, highest, found', -, total⟩ := pmmInit_booted ready
    obtain rfl := Except.ok.inj (found.symm.trans found')
    rw [total]
    decide
  have free : ∀ f, 0x400 ≤ f → f < 0x800 → f ∈ pmm.freeSet := by
    intro f low high
    have region : MemoryRegion.Marks ⟨0x100000, 0x700000, 1⟩ f :=
      ⟨⟨by decide, by decide, by decide⟩, Nat.le_trans (by decide) low,
        Nat.lt_of_lt_of_le high (by decide)⟩
    exact image_free ready (by rw [total]; decide) (List.mem_cons_of_mem _ List.mem_cons_self)
      region low
  -- the frame
  have first : (pmmAllocFrameOnNode pmm 0xFF).2 ≠ none :=
    pmmAllocFrameOnNode_supplies booted (free 0x400 (by decide) (by decide)) _
  obtain ⟨address, found⟩ := Option.ne_none_iff_exists'.mp first
  obtain ⟨f, rfl, -, -, stock⟩ := (Stock.start booted).alloc (Prod.ext rfl found)
  have left : ∀ g ∈ pmm.freeSet, g ≠ f → g ∈ (pmmAllocFrameOnNode pmm 0xFF).1.freeSet :=
    fun g member other => (stock.free g).mpr ⟨member, not_or.mpr ⟨id, other⟩⟩
  obtain ⟨w, call, inv⟩ := (UserWorld.boot_inv clear booted (fun _ => 0)).allocFrame clear 0xFF
  have made := Except.ok.inj call
  have pmm' : w.state.pmm = (pmmAllocFrameOnNode pmm 0xFF).1 := by rw [← made]; rfl
  have record : w.state.freeSpaceRecord = some 1 := by rw [← made]; rfl
  have idle : w.Idle f := by
    have owned : w.owned f = (false ||
        decide ((pmmAllocFrameOnNode pmm 0xFF).2 = some (f * pageSize))) := by rw [← made]; rfl
    refine ⟨?_, by rw [← made]; rfl⟩
    rw [owned, found]
    simp [pageSize]
  -- two more frames, for the root and for later
  obtain ⟨a, b, freeA, freeB, distinct⟩ : ∃ a b, a ∈ w.state.pmm.freeSet ∧
      b ∈ w.state.pmm.freeSet ∧ a ≠ b := by
    rw [pmm']
    by_cases low : f = 0x400 ∨ f = 0x401
    · exact ⟨0x402, 0x403, left _ (free _ (by decide) (by decide)) (by omega),
        left _ (free _ (by decide) (by decide)) (by omega), by decide⟩
    · exact ⟨0x400, 0x401, left _ (free _ (by decide) (by decide)) (by omega),
        left _ (free _ (by decide) (by decide)) (by omega), by decide⟩
  obtain ⟨s', -, created, -, live, more⟩ :=
    inv.create_succeeds clear reachable freeA freeB distinct record 0xFF
  refine ⟨pmm, f, { w with state := s' }, ready, reachable, ?_, idle, live, more⟩
  unfold UserWorld.run
  rw [call]
  dsimp only [bind, Except.bind]
  unfold UserWorld.run UserWorld.exec
  dsimp only
  rw [created]
  rfl

end Dfos.Paging
