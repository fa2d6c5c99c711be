import Dfos.Paging.KernelMap
import Dfos.Paging.Switch

/-!
# The root of the kernel space

`pae_translate_address` indexes the static tables, `pae_translate_address_in_space`
starts at the root in the space's record, which `paging_init` took from CR3 with
the low twelve bits cleared.  `pae_pdpt` is only aligned to 32 bytes, so the root
names `pae_pdpt` where the linker happens to start a page with it.
-/

namespace Dfos.Paging

open Dfos.Lib
open Dfos.Pmm

/-- The PDPT that a value of CR3 names in PAE mode. -/
def pdptBase (cr3 : Nat) : Nat := cr3 &&& 0xFFFFFFE0

/-- The kernel space stands for `pae_pdpt`: both walks agree on the kernel's
half, and a switch to the space from another one loads `pae_pdpt`. -/
structure DenotesPdpt (layout : Layout) (s : PagingState) (kernel : Nat) : Prop where
  isKernel : s.kernelSpace = some kernel
  translate : ∀ a, kernelVma ≤ a → a < 2 ^ 32 →
    paeTranslateAddressInSpace layout s.memory (s.pagingSpaces kernel) a =
      .ok (paeTranslateAddress layout s.memory a)
  loads : ∀ other cpu cr3, other ≠ kernel →
    pdptBase ((pagingSwitchSpace ⟨s.pagingSpaces, s.kernelSpace, some other, cr3⟩ cpu
      (some kernel)).cr3 cpu) = layout.pdpt

section Root

variable {layout : Layout} {m : WordMemory} {a : Nat}

/-- The walk over the static tables, in the kernel's half. -/
theorem paeTranslateAddress_kernel (half : KernelHalf layout m) (direct : DirectMap layout m)
    (above : kernelVma ≤ a) (small : a < 2 ^ 32) :
    kernelWalk layout m a = .ok (paeTranslateAddress layout m a) := by
  have top := paePdptIndexOf_kernel above small
  rw [half.walk direct]
  congr 1
  unfold paeTranslateAddress
  dsimp only
  rw [top, if_neg (not_not.mpr direct.pdpte), if_pos rfl]
  by_cases present : Present (m (layout.kernelDirectoryEntry (paeDirectoryIndexOf a)))
  · obtain ⟨table, found, -, small⟩ := half _ (address_route a).2.2 present
    rw [if_pos present, if_neg (not_not.mpr present), if_neg (not_not.mpr small), found]
    rfl
  · rw [if_neg present, if_pos present]

theorem pageSize_dvd_of_masked (same : a &&& 0xFFFFF000 = a) : pageSize ∣ a := by
  have low : (a &&& 0xFFFFF000) % 2 ^ 12 = 0 := by
    rw [Nat.and_mod_two_pow]
    exact Nat.and_zero _
  rw [same] at low
  exact Nat.dvd_of_mod_eq_zero low

theorem pdptBase_masked (a : Nat) : pdptBase (a &&& 0xFFFFF000) = a &&& 0xFFFFF000 := by
  unfold pdptBase
  rw [Nat.land_assoc]
  rfl

/-- What a switch to the kernel space loads. -/
theorem pdptBase_switch {s : PagingState} {kernel other cpu : Nat} {cr3 : Nat → Nat}
    (inUse : (s.pagingSpaces kernel).inUse = true) (differs : other ≠ kernel) :
    pdptBase ((pagingSwitchSpace ⟨s.pagingSpaces, s.kernelSpace, some other, cr3⟩ cpu
      (some kernel)).cr3 cpu) = (s.pagingSpaces kernel).rootPhysical &&& 0xFFFFF000 := by
  have taken : ¬ (¬ (s.pagingSpaces kernel).inUse = true ∨ some other = some kernel) :=
    not_or.mpr ⟨not_not.mpr inUse, fun same => differs (Option.some.inj same)⟩
  unfold pagingSwitchSpace
  dsimp only
  rw [if_neg taken]
  dsimp only
  rw [Function.update_self]
  exact pdptBase_masked _

/-- With `pae_pdpt` at the start of a page the kernel space stands for it. -/
theorem UserWorld.Inv.denotesPdpt {all : Set Nat} {w : UserWorld} {tree : Trees Nat}
    (inv : w.Inv layout all tree) (aligned : pageSize ∣ layout.pdpt) :
    DenotesPdpt layout w.state 0 := by
  have rooted : tree 0 [] ≠ none := (inv.tables.rooted 0).mpr (Or.inr ⟨rfl, aligned⟩)
  have root : tree 0 [] = some (layout.pdpt / 4096) := inv.tables.fixed rooted rfl
  refine ⟨inv.tables.kernelSpace, fun a above small => ?_, fun other cpu cr3 differs => ?_⟩
  · rw [← paeTranslateAddress_kernel inv.half inv.tables.direct above small]
    exact inv.tables.lookup_kernel root above small
  · rw [pdptBase_switch inv.tables.kernelRecord differs, inv.tables.root root,
      show layout.pdpt / 4096 * 4096 = layout.pdpt from Nat.div_mul_cancel aligned]
    have inside := layout.inside (layout.pdpt, 8 * paePdptEntries) (by simp)
    unfold bootstrapWindowSize at inside
    dsimp only at inside
    exact addrMask_of_page aligned (by omega)

/-- **The kernel space stands for `pae_pdpt`, in every state that is reached,
exactly if `pae_pdpt` starts a page.** -/
theorem kernel_root_denotes_pdpt_iff {boot : BootInfo} {pmm : PmmState}
    (ready : pmmInit boot = .ok pmm) (image : layout.InImage boot) (memory : WordMemory) :
    (∀ ops w, (UserWorld.boot layout memory pmm).run layout ops = .ok w →
      DenotesPdpt layout w.state 0) ↔ pageSize ∣ layout.pdpt := by
  constructor
  · intro every
    have first := every [] _ rfl
    have loaded := first.loads 1 0 (fun _ => 0) (by decide)
    rw [pdptBase_switch rfl (by decide)] at loaded
    have root : (layout.pdpt &&& 0xFFFFF000) &&& 0xFFFFF000 = layout.pdpt := loaded
    rw [Nat.land_assoc] at root
    exact pageSize_dvd_of_masked root
  · intro aligned ops w reached
    obtain ⟨tree, inv⟩ := UserWorld.boot_reached ready image reached
    exact inv.denotesPdpt aligned

end Root

theorem kernel_root_denotes_pdpt_boot :
    ∃ pmm, pmmInit imageBoot = .ok pmm ∧
      DenotesPdpt twoMibLayout (pagingInit twoMibLayout (fun _ => 0) pmm) 0 := by
  obtain ⟨pmm, ready, -⟩ := imageBoot_ready
  have aligned : pageSize ∣ twoMibLayout.pdpt := by decide
  have every := (kernel_root_denotes_pdpt_iff ready (by decide : twoMibLayout.InImage imageBoot)
    (fun _ => 0)).mpr aligned
  exact ⟨pmm, ready, every [] (UserWorld.boot twoMibLayout (fun _ => 0) pmm) rfl⟩

/-- `paging_init` leaves what lies in front of the tables. -/
theorem pagingInit_front {layout : Layout} {memory : WordMemory} {pmm : PmmState} {a : Nat}
    (pdpt : a + 8 ≤ layout.pdpt) (identityDirectory : a + 8 ≤ layout.identityDirectory)
    (identityTables : a + 8 ≤ layout.identityTables)
    (kernelDirectory : a + 8 ≤ layout.kernelDirectory)
    (directMapTables : a + 8 ≤ layout.directMapTables)
    (dynamicTables : a + 8 ≤ layout.dynamicTables) :
    (pagingInit layout memory pmm).memory a = memory a := by
  have offPdpt (i : Nat) : a ≠ WordMemory.word layout.pdpt i := by
    unfold WordMemory.word
    omega
  have apart {base size : Nat} (front : a + 8 ≤ base) : Apart (a, 8) (base, size) := Or.inl front
  rw [pagingInit_outside (apart directMapTables)]
  unfold paePrepareBootstrapTables prepareDirectMap prepareIdentity
  dsimp only
  rw [WordMemory.store_other (offPdpt _), WordMemory.store_other (offPdpt _),
    fillTables_outside (apart directMapTables), fill_apart (apart kernelDirectory),
    fill_apart (apart identityDirectory), fillTables_outside (apart identityTables),
    fillTables_outside (apart dynamicTables), fillTables_outside (apart directMapTables),
    fill_apart (apart kernelDirectory), fill_apart (apart identityDirectory),
    fill_apart (apart pdpt)]

/-- The placement of `twoMibLayout` with `pae_pdpt` behind 32 other bytes. -/
def offsetLayout : Layout :=
  { twoMibLayout with
    pdpt := 0x200020
    pdpt_aligned := by decide
    apart := by decide
    inside := by decide }

/-- In every layout the static walk shows the first page of the kernel's half. -/
theorem paeTranslateAddress_first {layout : Layout} {memory : WordMemory} {pmm : PmmState} :
    paeTranslateAddress layout (pagingInit layout memory pmm).memory kernelVma = some 0 := by
  have direct : DirectMap layout (pagingInit layout memory pmm).memory := pagingInit_directMap
  have half : KernelHalf layout (pagingInit layout memory pmm).memory := pagingInit_half
  have shown := half.walk_direct direct pagingInit_static (p := 0) (by decide)
  rw [Nat.add_zero, paeTranslateAddress_kernel half direct (le_refl kernelVma) (by decide)] at shown
  exact Except.ok.inj shown

/-- A space whose root has no kernel entry shows nothing there. -/
theorem paeTranslateAddressInSpace_absent {layout : Layout} {m : WordMemory} {space : PagingSpace}
    {root : Nat} (direct : DirectMap layout m) (masked : space.rootPhysical &&& 0xFFFFF000 = root)
    (below : root < kernelDirectMapLimitPhys)
    (absent : m (WordMemory.word root (paePdptIndexOf kernelVma)) = 0) :
    paeTranslateAddressInSpace layout m space kernelVma = .ok none := by
  have pdpt : paeSpacePdpt layout m space = .ok root := by
    unfold paeSpacePdpt
    rw [masked]
    exact direct.physToVirt below
  unfold paeTranslateAddressInSpace
  rw [pdpt]
  simp only [bind, Except.bind, pure, Except.pure, absent]
  rw [if_pos not_present_zero]

/-- **The kernel space stands for other bytes**: its walk finds no entry for the
first page of the kernel's half, which is mapped, and a switch to it loads the
page in front of `pae_pdpt`. -/
theorem kernel_root_misses_pdpt :
    ∃ pmm, pmmInit imageBoot = .ok pmm ∧ offsetLayout.InImage imageBoot ∧
      paeTranslateAddress offsetLayout (pagingInit offsetLayout (fun _ => 0) pmm).memory
        kernelVma = some 0 ∧
      paeTranslateAddressInSpace offsetLayout (pagingInit offsetLayout (fun _ => 0) pmm).memory
        ((pagingInit offsetLayout (fun _ => 0) pmm).pagingSpaces 0) kernelVma = .ok none ∧
      pdptBase ((pagingSwitchSpace ⟨(pagingInit offsetLayout (fun _ => 0) pmm).pagingSpaces,
        (pagingInit offsetLayout (fun _ => 0) pmm).kernelSpace, some 1, fun _ => 0⟩ 0
          (some 0)).cr3 0) ≠ offsetLayout.pdpt := by
  obtain ⟨pmm, ready, -⟩ := imageBoot_ready
  have root : ((pagingInit offsetLayout (fun _ => 0) pmm).pagingSpaces 0).rootPhysical =
      offsetLayout.pdpt &&& 0xFFFFF000 := rfl
  have masked : (offsetLayout.pdpt &&& 0xFFFFF000) &&& 0xFFFFF000 = 0x200000 := by decide
  have image : offsetLayout.InImage imageBoot := by decide
  refine ⟨pmm, ready, image, paeTranslateAddress_first, ?_, ?_⟩
  · refine paeTranslateAddressInSpace_absent pagingInit_directMap (by rw [root, masked]) (by decide) ?_
    exact pagingInit_front (by decide) (by decide) (by decide) (by decide) (by decide) (by decide)
  · have inUse : ((pagingInit offsetLayout (fun _ => 0) pmm).pagingSpaces 0).inUse = true := rfl
    rw [pdptBase_switch inUse (by decide), root, masked]
    decide

end Dfos.Paging
