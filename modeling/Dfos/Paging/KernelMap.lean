import Dfos.Paging.Aperture
import Dfos.Paging.Isolation

/-!
# The mappings that `paging_init` leaves

No call takes down or changes what `paging_init` mapped: the direct map and the
write protection of the kernel image, which is meant, and the identity map of the
kernel space, which is not.
-/

namespace Dfos.Paging

open Dfos.Lib
open Dfos.Pmm

/-- The walk of `pae_translate_address_in_space` down to the page-table entry. -/
def pageTableEntryInSpace (layout : Layout) (m : WordMemory) (space : PagingSpace)
    (virtualAddr : Nat) : Except Panic (Option Nat) := do
  let pdpt ← paeSpacePdpt layout m space
  let pdpte := m (WordMemory.word pdpt (paePdptIndexOf virtualAddr))
  if ¬ Present pdpte then return none
  let directory ← paeEntryPointer layout m pdpte
  let pde := m (WordMemory.word directory (paeDirectoryIndexOf virtualAddr))
  if ¬ Present pde ∨ pde &&& paeEntryPageSize ≠ 0 then return none
  let table ← paeEntryPointer layout m pde
  return some (m (WordMemory.word table (paeTableIndexOf virtualAddr)))

section Entry

variable {layout : Layout} {all : Set Nat} {held : Nat → Prop} {s : PagingState}
  {tree : Trees Nat} {mapped : (Nat × Nat) ≃. Nat} {k r a : Nat}

/-- From every space the walk to an address of the direct map ends at its static
entry. -/
theorem UserTables.directEntry (tables : UserTables layout all held s tree mapped)
    (half : KernelHalf layout s.memory) (root : tree k [] = some r) (low : kernelVma ≤ a)
    (high : a < kernelVma + kernelDirectMapLimitPhys) :
    pageTableEntryInSpace layout s.memory (s.pagingSpaces k) a =
      .ok (some (s.memory (layout.directMapEntry a))) := by
  obtain ⟨top, directory, entry, table⟩ := directMap_indices layout low high
  have gate : s.memory (WordMemory.word (r * 4096) (paePdptIndexOf a)) =
      paeMakeEntry layout.kernelDirectory paeEntryPresent := by
    rw [top]
    exact tables.gate root
  obtain ⟨aligned, reach⟩ := layout.kernelDirectory_page
  have present := tables.direct.pde _ directory
  obtain ⟨table', found, address, small⟩ := half _ (by omega) present
  obtain rfl : layout.directMapTable (paeDirectoryIndexOf a) = table' :=
    Option.some.inj (table.symm.trans found)
  have follow : paeEntryPointer layout s.memory
      (s.memory (layout.kernelDirectoryEntry (paeDirectoryIndexOf a))) =
        .ok (layout.directMapTable (paeDirectoryIndexOf a)) := by
    unfold paeEntryPointer
    rw [address]
    exact tables.direct.physToVirt (layout.table_static found).1
  unfold pageTableEntryInSpace
  rw [tables.spacePdpt root]
  simp only [bind, Except.bind, pure, Except.pure]
  rw [gate, if_neg (not_not.mpr (paeMakeEntry_present.mpr (by decide))),
    tables.direct.entryPointer aligned reach (by decide)]
  dsimp only
  rw [show WordMemory.word layout.kernelDirectory (paeDirectoryIndexOf a) =
    layout.kernelDirectoryEntry (paeDirectoryIndexOf a) from rfl,
    if_neg (not_or.mpr ⟨not_not.mpr present, not_not.mpr small⟩), follow]
  rfl

end Entry

/-! ## The direct map and write protection -/

/-- What the kernel relies on, whichever space is current. -/
structure KernelMapKept (layout : Layout) (s : PagingState) : Prop where
  roundTrip : ∀ p < kernelDirectMapLimitPhys, pagingPhysToVirt layout s.memory p = .ok p ∧
    pagingVirtToPhys layout s (kernelVma + p) = .ok p
  readOnly : ∀ a, layout.ReadOnly a → ∃ k pte, s.currentSpace = some k ∧
    pageTableEntryInSpace layout s.memory (s.pagingSpaces k) a = .ok (some pte) ∧
    Present pte ∧ pte &&& paeEntryWritable = 0

section Kept

variable {layout : Layout} {all : Set Nat} {w : UserWorld} {tree : Trees Nat}

theorem UserWorld.Inv.kernelMapKept (inv : w.Inv layout all tree)
    (aligned : pageSize ∣ layout.pdpt) : KernelMapKept layout w.state := by
  have direct := inv.tables.direct
  obtain ⟨k, current, inUse⟩ := inv.current
  have rooted : w.Rooted layout k := fun _ => aligned
  obtain ⟨r, root⟩ := inv.tables.root_of_inUse inUse rooted
  refine ⟨fun p below => ⟨direct.physToVirt below, ?_⟩, fun a inside => ?_⟩
  · have small : kernelVma + p < 2 ^ 32 := by
      unfold kernelDirectMapLimitPhys at below
      unfold kernelVma
      omega
    have walk := inv.tables.lookup_kernel root (Nat.le_add_right kernelVma p) small
    rw [inv.half.walk_direct direct inv.static below] at walk
    unfold pagingVirtToPhys pagingTranslateAddress
    rw [current]
    dsimp only
    unfold PagingState.pagingLookupPhysical at walk
    rw [walk]
    rfl
  · obtain ⟨low, high⟩ := inside.bounds
    obtain ⟨-, directory, entry, -⟩ := directMap_indices layout low (window_le high)
    exact ⟨k, _, current, inv.tables.directEntry inv.half root low (window_le high),
      direct.pte _ directory _ entry, inv.static.readOnly a inside⟩

/-- **The direct map and the kernel's write protection never change.** -/
theorem kernel_map_kept (aligned : pageSize ∣ layout.pdpt) {boot : BootInfo} {pmm : PmmState}
    (ready : pmmInit boot = .ok pmm) (image : layout.InImage boot) (memory : WordMemory)
    (ops : List UserOp) (reached : (UserWorld.boot layout memory pmm).run layout ops = .ok w) :
    KernelMapKept layout w.state := by
  obtain ⟨tree, inv⟩ := UserWorld.boot_reached ready image reached
  exact inv.kernelMapKept aligned

theorem kernel_map_kept_eightMib :
    ∃ pmm w, pmmInit imageBoot = .ok pmm ∧
      (UserWorld.boot twoMibLayout (fun _ => 0) pmm).run twoMibLayout imageCalls = .ok w ∧
      KernelMapKept twoMibLayout w.state := by
  obtain ⟨pmm, w, -, ready, ran, -⟩ := imageBoot_runs imageCalls
  exact ⟨pmm, w, ready, ran, kernel_map_kept (by decide : pageSize ∣ twoMibLayout.pdpt) ready
    (by decide : twoMibLayout.InImage imageBoot) (fun _ => 0) imageCalls ran⟩

/-! ## Low addresses -/

/-- Below `KERNEL_VMA` a space shows only pages that were mapped there, and none
below `PAGING_USER_BASE`. -/
def UserWorld.LowFaults (layout : Layout) (w : UserWorld) (space : Nat) : Prop :=
  ∀ a < kernelVma, ∀ physical, w.state.pagingLookupPhysical layout space a = .ok (some physical) →
    pagingUserBase ≤ a ∧ w.mapped (space, a / pageSize) ≠ none

/-- In a process space low addresses fault by default. -/
theorem UserWorld.Inv.lowFaults (inv : w.Inv layout all tree) {space : Nat}
    (live : w.state.Live space) : w.LowFaults layout space := by
  intro a below physical found
  rw [inv.tables.lookup_user live below] at found
  have mapped : w.mapped (space, a / pageSize) ≠ none := by
    intro none
    rw [none] at found
    cases found
  refine ⟨?_, mapped⟩
  by_contra low
  apply mapped
  apply inv.unmapped (Or.inr _)
  unfold pagingAddressIsUser
  simp [low]

/-- **Low addresses fault by default in a space exactly if it is not the kernel
space**, whose identity map stays. -/
theorem low_addresses_fault_iff {boot : BootInfo} {pmm : PmmState} (ready : pmmInit boot = .ok pmm)
    (image : layout.InImage boot) (memory : WordMemory) (ops : List UserOp)
    (reached : (UserWorld.boot layout memory pmm).run layout ops = .ok w) {space : Nat}
    (visible : w.Visible layout space) :
    w.LowFaults layout space ↔ w.state.kernelSpace ≠ some space := by
  obtain ⟨tree, inv⟩ := UserWorld.boot_reached ready image reached
  refine ⟨fun faults kernel => ?_, fun process => inv.lowFaults ⟨visible.1, process⟩⟩
  have shown := inv.lookup visible (a := 0) (by decide)
  unfold UserWorld.view at shown
  rw [if_neg (by decide), if_pos ⟨kernel, by decide⟩] at shown
  exact absurd (faults 0 (by decide) 0 shown).1 (by decide)

/-- A new space beside the kernel space. -/
theorem low_addresses_fault_iff_created :
    ∃ pmm w, pmmInit imageBoot = .ok pmm ∧
      (UserWorld.boot twoMibLayout (fun _ => 0) pmm).run twoMibLayout
        [.allocFrameOnNode 0xFF, .createProcessSpaceOnNode 0xFF] = .ok w ∧
      w.LowFaults twoMibLayout 1 := by
  obtain ⟨pmm, -, w, ready, -, ran, -, live, -⟩ := imageBoot_created
  exact ⟨pmm, w, ready, ran, (low_addresses_fault_iff ready
    (by decide : twoMibLayout.InImage imageBoot) (fun _ => 0) _ ran
    ⟨live.1, fun _ => by decide⟩).mpr live.2⟩

/-- **The kernel space translates low addresses that nobody mapped.** -/
theorem low_addresses_translate :
    ∃ pmm, pmmInit imageBoot = .ok pmm ∧
      (UserWorld.boot twoMibLayout (fun _ => 0) pmm).mapped (0, 1) = none ∧
      0x1000 < pagingUserBase ∧
      (pagingInit twoMibLayout (fun _ => 0) pmm).pagingLookupPhysical twoMibLayout 0 0x1000 =
        .ok (some 0x1000) := by
  obtain ⟨pmm, ready, -⟩ := imageBoot_ready
  have clear := Layout.clear_of_image ready (by decide : twoMibLayout.InImage imageBoot)
  have inv := UserWorld.boot_inv clear (pmmInit_booted ready).1 (fun _ => 0)
  have visible : (UserWorld.boot twoMibLayout (fun _ => 0) pmm).Visible twoMibLayout 0 :=
    ⟨rfl, fun _ => by decide⟩
  have shown := inv.lookup visible (show 0x1000 < 2 ^ 32 by decide)
  exact ⟨pmm, ready, rfl, by decide, shown⟩

end Kept

end Dfos.Paging
