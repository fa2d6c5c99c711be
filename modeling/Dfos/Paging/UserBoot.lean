import Dfos.Paging.UserRuns
import Dfos.Pmm.BootRanges

/-!
# The spaces after `paging_init` and `pmm_init`

The kernel space is the only one.  Its tree is made of `pae_pdpt`, the identity
directory and the two identity tables, none of them the PMM's: `pmm_init` keeps
the kernel image.
-/

namespace Dfos.Paging

open Dfos.Lib
open Dfos.Pmm

/-- The trees after `paging_init`. -/
def Layout.bootTree (layout : Layout) : Trees Nat :=
  fun k p => if k = 0 ∧ pageSize ∣ layout.pdpt then layout.kernelTable p else none

section Tree

variable {layout : Layout} {k f : Nat} {p : List Nat}

theorem Layout.bootTree_some (found : layout.bootTree k p = some f) :
    k = 0 ∧ pageSize ∣ layout.pdpt ∧ layout.kernelTable p = some f := by
  unfold Layout.bootTree at found
  split at found
  · next here => exact ⟨here.1, here.2, found⟩
  · cases found

theorem Layout.bootTree_eq (layout : Layout) (aligned : pageSize ∣ layout.pdpt) (p : List Nat) :
    layout.bootTree 0 p = layout.kernelTable p := if_pos ⟨rfl, aligned⟩

theorem snoc_inj {p q : List Nat} {i j : Nat} (same : p ++ [i] = q ++ [j]) : p = q ∧ i = j := by
  obtain ⟨init, last⟩ := List.append_inj' same rfl
  exact ⟨init, List.singleton_inj.mp last⟩

/-- No frame holds two of the tables. -/
theorem Layout.kernelTable_inj (aligned : pageSize ∣ layout.pdpt) {p' : List Nat}
    (found : layout.kernelTable p = some f) (found' : layout.kernelTable p' = some f) : p = p' := by
  obtain ⟨directory, tables, apart, -, -⟩ := layout.identity_apart.2
  unfold Apart at directory tables apart
  dsimp only at directory tables apart
  rcases Layout.kernelTable_cases aligned found with
    ⟨rfl, here⟩ | ⟨rfl, here⟩ | ⟨t, small, rfl, here⟩ <;>
  rcases Layout.kernelTable_cases aligned found' with
    ⟨rfl, there⟩ | ⟨rfl, there⟩ | ⟨t', small', rfl, there⟩
  · rfl
  · omega
  · omega
  · omega
  · rfl
  · omega
  · omega
  · omega
  · rw [show t = t' by omega]

end Tree

section Memory

variable {layout : Layout} {memory : WordMemory} {pmm : PmmState}

/-- Write protection touches the direct map's tables only. -/
theorem pagingInit_outside {a : Nat}
    (off : Apart (a, 8) (layout.directMapTables, 128 * 4096)) :
    (pagingInit layout memory pmm).memory a = paePrepareBootstrapTables layout memory a :=
  pagingApplyKernelProtections_protected.outside a off

theorem pagingInit_pdpt {i : Nat} (small : i < 4) :
    (pagingInit layout memory pmm).memory (WordMemory.word layout.pdpt i) =
      if i = paePdptEntryKernel then paeMakeEntry layout.kernelDirectory paeEntryPresent
      else if i = paePdptEntryLow then paeMakeEntry layout.identityDirectory paeEntryPresent
      else 0 := by
  obtain ⟨-, direct, -, -, -, -⟩ := layout.tables_apart
  obtain ⟨low, high⟩ := WordMemory.word_within layout.pdpt (show 8 * i + 8 ≤ 32 by omega)
  rw [pagingInit_outside (direct.mono low high), bootstrap_pdpt small]

theorem pagingInit_identityPde {d : Nat} (small : d < 512) :
    (pagingInit layout memory pmm).memory (WordMemory.word layout.identityDirectory d) =
      if d < 2 then paeMakeEntry (layout.identityTables + pageSize * d)
        (paeEntryPresent ||| paeEntryWritable)
      else 0 := by
  obtain ⟨-, -, -, direct, -⟩ := layout.identity_apart.2
  obtain ⟨low, high⟩ := WordMemory.word_within layout.identityDirectory
    (show 8 * d + 8 ≤ 4096 by omega)
  rw [pagingInit_outside (direct.mono low high), bootstrap_identityPde small]

theorem pagingInit_pde {d : Nat} (small : d < 512) :
    (pagingInit layout memory pmm).memory (layout.kernelDirectoryEntry d) =
      if d < 128 then paeMakeEntry (layout.directMapTable d) (paeEntryPresent ||| paeEntryWritable)
      else 0 := by
  obtain ⟨-, -, -, direct, -, -⟩ := layout.tables_apart
  obtain ⟨low, high⟩ := WordMemory.word_within layout.kernelDirectory
    (show 8 * d + 8 ≤ 4096 by omega)
  have off : Apart (layout.kernelDirectoryEntry d, 8) (layout.directMapTables, 128 * 4096) :=
    direct.mono low high
  rw [pagingInit_outside off, bootstrap_pde small]

theorem pagingInit_half : KernelHalf layout (pagingInit layout memory pmm).memory := by
  intro d small present
  rw [pagingInit_pde small] at present ⊢
  split at present
  · next direct =>
      have inside := layout.inside (layout.directMapTables, paeDirectMapPdeCount * pageSize)
        (by simp)
      obtain ⟨below, -, -⟩ := table_within inside (paeDirectMapPdeCount_eq.symm ▸ direct)
      refine ⟨layout.directMapTable d, ?_, ?_, ?_⟩
      · unfold paePageTableForDirectory
        rw [paeDirectMapPdeCount_eq, if_pos direct]
      · rw [if_pos direct]
        exact paeMakeEntry_addr
          ((Nat.dvd_add_right layout.directMapTables_aligned).mpr (dvd_mul_right _ _))
          (lt_trans below (by decide)) (by decide)
      · rw [if_pos direct]
        exact paeMakeEntry_flag (by decide)
  · exact (not_present_zero present).elim

/-- An entry that leads to a static table. -/
theorem Linked.static {address flags f : Nat} (here : f * 4096 = address)
    (inside : address < bootstrapWindowSize) (low : flags < 4096) (present : Present flags)
    (page : flags &&& paeEntryPageSize = 0) : Linked (paeMakeEntry address flags) f := by
  subst here
  unfold bootstrapWindowSize at inside
  exact .make (by omega) low present page

/-- The first entry of `pae_pdpt` leads to the identity directory. -/
theorem pdpt_names {i : Nat} (three : i < 3) :
    paeFormat.Names
      (if i = paePdptEntryLow then paeMakeEntry layout.identityDirectory paeEntryPresent else 0)
      (layout.kernelTable ([] ++ [i])) := by
  have inside : layout.identityDirectory < bootstrapWindowSize :=
    Nat.lt_of_lt_of_le (Nat.lt_add_of_pos_right (show 0 < pageSize by decide))
      (layout.inside (layout.identityDirectory, pageSize) (by simp))
  by_cases first : i = paePdptEntryLow
  · rw [if_pos first, first]
    exact .static (Nat.div_mul_cancel layout.identityDirectory_aligned) inside (by decide)
      (by decide) (by decide)
  · rw [if_neg first]
    have none : layout.kernelTable ([] ++ [i]) = none := by
      cases i with
      | zero => exact (first rfl).elim
      | succ i => rfl
    rw [none]
    exact not_present_zero

/-- The first two entries of the identity directory lead to the identity tables. -/
theorem identityDirectory_names (d : Nat) :
    paeFormat.Names
      (if d < 2 then paeMakeEntry (layout.identityTables + pageSize * d)
        (paeEntryPresent ||| paeEntryWritable) else 0)
      (layout.kernelTable ([0] ++ [d])) := by
  have inside : ∀ {t}, t < 2 → layout.identityTables + 4096 * t < bootstrapWindowSize := by
    intro t small
    exact Nat.lt_of_lt_of_le (Nat.add_lt_add_left (show 4096 * t < 2 * pageSize by
      unfold pageSize
      omega) _) (layout.inside (layout.identityTables, 2 * pageSize) (by simp))
  have page : layout.identityTables / 4096 * 4096 = layout.identityTables :=
    Nat.div_mul_cancel layout.identityTables_aligned
  match d with
  | 0 => exact .static page (inside Nat.two_pos) (by decide) (by decide) (by decide)
  | 1 =>
      have second : (layout.identityTables / 4096 + 1) * 4096 = layout.identityTables + 4096 * 1 := by
        rw [Nat.succ_mul, page]
      exact .static second (inside Nat.one_lt_two) (by decide) (by decide) (by decide)
  | d + 2 =>
      rw [if_neg (by omega)]
      exact not_present_zero

/-- The kernel's tree is in the tables `paging_init` builds. -/
theorem pagingInit_paged :
    Paged paeFormat (pagingInit layout memory pmm).memory.entry layout.bootTree ⊥ where
  forest := {
    inj := fun {k k' p p' f} here there => by
      obtain ⟨rfl, aligned, found⟩ := Layout.bootTree_some here
      obtain ⟨rfl, -, found'⟩ := Layout.bootTree_some there
      exact ⟨rfl, Layout.kernelTable_inj aligned found found'⟩
    parent := fun {k p i} there => by
      obtain ⟨f, here⟩ := Option.ne_none_iff_exists'.mp there
      obtain ⟨rfl, aligned, found⟩ := Layout.bootTree_some here
      rw [layout.bootTree_eq aligned]
      rcases Layout.kernelTable_cases aligned found with ⟨path, -⟩ | ⟨path, -⟩ | ⟨t, small, path, -⟩
      · simp at path
      · obtain ⟨rfl, rfl⟩ : p = [] ∧ i = 0 := snoc_inj path
        exact ⟨by decide, by decide, nofun⟩
      · obtain ⟨rfl, rfl⟩ : p = [0] ∧ i = t := snoc_inj path
        refine ⟨by decide, ?_, nofun⟩
        exact lt_trans small (by decide : 2 < 512)
    links := fun {k p f i} here inner small => by
      obtain ⟨rfl, aligned, found⟩ := Layout.bootTree_some here
      rw [layout.bootTree_eq aligned]
      unfold WordMemory.entry
      rcases Layout.kernelTable_cases aligned found with
        ⟨rfl, page⟩ | ⟨rfl, page⟩ | ⟨t, -, rfl, -⟩
      · have three : i < 3 := small
        rw [page, pagingInit_pdpt (by omega), if_neg (by unfold paePdptEntryKernel; omega)]
        exact pdpt_names three
      · rw [page, pagingInit_identityPde small]
        exact identityDirectory_names i
      · exact absurd inner (Nat.lt_irrefl 2) }
  leaves {k n f} here opened := by
    obtain ⟨-, -, found⟩ := Layout.bootTree_some here
    rw [kernelTable_open opened rfl] at found
    cases found
  backed {k n g} found := by cases found

end Memory

/-! ## The image -/

section Image

variable {layout : Layout} {boot : BootInfo} {pmm : PmmState}

/-- The static tables are part of the kernel image. -/
def Layout.InImage (layout : Layout) (boot : BootInfo) : Prop :=
  ∀ r ∈ layout.ranges, boot.kernelStartPhys ≤ r.1 ∧ r.1 + r.2 ≤ boot.kernelEndPhys

instance (layout : Layout) (boot : BootInfo) : Decidable (layout.InImage boot) :=
  inferInstanceAs (Decidable (∀ r ∈ layout.ranges, _))

theorem Layout.ranges_pos {r : Nat × Nat} (member : r ∈ layout.ranges) : 0 < r.2 := by
  unfold Layout.ranges at member
  rw [paeDirectMapPdeCount_eq, paeDynamicPdeCount_eq] at member
  simp only [List.mem_cons, List.not_mem_nil, or_false] at member
  rcases member with rfl | rfl | rfl | rfl | rfl | rfl
  all_goals
    dsimp only
    decide

/-- `pmm_init` frees no frame of the kernel image. -/
theorem Layout.clear_of_image (ready : pmmInit boot = .ok pmm) (image : layout.InImage boot) :
    layout.Clear pmm.freeSet := by
  intro f free r member
  have kernel := (pmmInit_free ready free).2.kernel
  have positive := Layout.ranges_pos member
  obtain ⟨low, high⟩ := image r member
  by_contra meets
  unfold Apart at meets
  dsimp only at meets
  -- the first byte they share
  refine kernel ⟨max (f * 4096) r.1, ?_, ?_⟩
  · omega
  · unfold pageSize
    omega

end Image

/-! ## The world -/

section World

variable {layout : Layout} {memory : WordMemory} {pmm : PmmState}

theorem Layout.kernelTable_static (aligned : pageSize ∣ layout.pdpt) {p : List Nat} {f : Nat}
    (found : layout.kernelTable p = some f) :
    Reachable f ∧ ∃ r ∈ layout.ranges, r.1 ≤ f * 4096 ∧ f * 4096 + 8 ≤ r.1 + r.2 := by
  have within : ∃ r ∈ layout.ranges, r.1 ≤ f * 4096 ∧ f * 4096 + 8 ≤ r.1 + r.2 := by
    rcases Layout.kernelTable_cases aligned found with
      ⟨-, page⟩ | ⟨-, page⟩ | ⟨t, small, -, page⟩
    · refine ⟨(layout.pdpt, 8 * paePdptEntries), by simp [Layout.ranges], page.ge, ?_⟩
      unfold paePdptEntries
      dsimp only
      omega
    · refine ⟨(layout.identityDirectory, pageSize), by simp [Layout.ranges], page.ge, ?_⟩
      unfold pageSize
      dsimp only
      omega
    · refine ⟨(layout.identityTables, 2 * pageSize), by simp [Layout.ranges], ?_, ?_⟩
      · dsimp only
        omega
      · unfold pageSize
        dsimp only
        omega
  obtain ⟨r, member, low, high⟩ := within
  refine ⟨?_, r, member, low, high⟩
  have inside := layout.inside r member
  unfold bootstrapWindowSize at inside
  unfold Reachable kernelDirectMapLimitPhys
  omega

/-- No table of the kernel space is the PMM's. -/
theorem Layout.Clear.bootTree {all : Set Nat} (clear : layout.Clear all) {f : Nat}
    (member : f ∈ all) : ¬ layout.bootTree.Holds f := by
  rintro ⟨k, p, there⟩
  obtain ⟨-, aligned, found⟩ := Layout.bootTree_some there
  obtain ⟨-, r, static, low, high⟩ := Layout.kernelTable_static aligned found
  apply clear.word static low high
  rwa [Nat.mul_div_cancel f (by decide)]

theorem UserWorld.boot_unheld {f : Nat} : ¬ (UserWorld.boot layout memory pmm).Held layout f := by
  rintro (owner | ⟨a, page, -, found⟩)
  · cases owner
  · cases (pagingInit_lookup page.dynamic).symm.trans found

theorem UserWorld.boot_spaces (clear : layout.Clear pmm.freeSet) (booted : Booted pmm)
    (memory : WordMemory) :
    Spaces paeFormat layout.Fixed pmm.freeSet ((UserWorld.boot layout memory pmm).Held layout) pmm
      (pagingInit layout memory pmm).memory.entry layout.bootTree ⊥ where
  paged := pagingInit_paged
  stock := by
    refine ⟨booted, fun _ free => free.1, fun f => ⟨fun free => ⟨free, ?_⟩, And.left⟩⟩
    rintro (holder | table)
    · exact boot_unheld holder
    · exact clear.bootTree free table
  members there := by
    obtain ⟨zero, -, found⟩ := Layout.bootTree_some there
    exact Or.inl ⟨zero, by rw [found]; nofun⟩
  reachable there := by
    obtain ⟨-, aligned, found⟩ := Layout.bootTree_some there
    exact (Layout.kernelTable_static aligned found).1
  unheld holder := absurd holder boot_unheld
  stocked holder := absurd holder boot_unheld
  data found := by cases found

/-- The root of the kernel space is `pae_pdpt`. -/
theorem Layout.bootTree_root {k f : Nat} (there : layout.bootTree k [] = some f) :
    k = 0 ∧ pageSize ∣ layout.pdpt ∧ f * 4096 = layout.pdpt := by
  obtain ⟨zero, aligned, found⟩ := Layout.bootTree_some there
  rcases Layout.kernelTable_cases aligned found with ⟨-, page⟩ | ⟨nil, -⟩ | ⟨t, -, nil, -⟩
  · exact ⟨zero, aligned, page⟩
  · cases nil
  · cases nil

theorem UserWorld.boot_tables (clear : layout.Clear pmm.freeSet) (booted : Booted pmm)
    (memory : WordMemory) :
    UserTables layout pmm.freeSet ((UserWorld.boot layout memory pmm).Held layout)
      (pagingInit layout memory pmm) layout.bootTree ⊥ where
  spaces := boot_spaces clear booted memory
  direct := pagingInit_directMap
  kernelSpace := rfl
  kernelRecord := rfl
  rooted k := by
    have dead : ¬ (pagingInit layout memory pmm).Live k := by
      rintro ⟨inUse, process⟩
      have nonzero : k ≠ 0 := by
        rintro rfl
        exact process rfl
      simp [pagingInit, nonzero] at inUse
    unfold Layout.bootTree
    split
    · next here => exact ⟨fun _ => Or.inr here, fun _ bad => by cases bad⟩
    · next other => exact ⟨fun some => absurd rfl some, fun root => root.elim (absurd · dead) (absurd · other)⟩
  root {k f} there := by
    obtain ⟨rfl, aligned, page⟩ := Layout.bootTree_root there
    rw [page]
    have inside := layout.inside (layout.pdpt, 8 * paePdptEntries) (by simp)
    unfold bootstrapWindowSize at inside
    exact addrMask_of_page aligned (by dsimp only at inside; omega)
  gate {k f} there := by
    obtain ⟨-, -, page⟩ := Layout.bootTree_root there
    unfold WordMemory.entry
    rw [page, pagingInit_pdpt (by decide), if_pos rfl]
  fixed {p f} rooted found := by
    obtain ⟨g, there⟩ := Option.ne_none_iff_exists'.mp rooted
    rw [layout.bootTree_eq (Layout.bootTree_root there).2.1, found]
  closed {k p} there _ _ := by
    obtain ⟨f, here⟩ := Option.ne_none_iff_exists'.mp there
    exact (Layout.bootTree_some here).1

/-- **The invariant holds after `paging_init`.** -/
theorem UserWorld.boot_inv (clear : layout.Clear pmm.freeSet) (booted : Booted pmm)
    (memory : WordMemory) :
    (UserWorld.boot layout memory pmm).Inv layout pmm.freeSet layout.bootTree where
  tables := boot_tables clear booted memory
  apart owner := by cases owner
  mine found := by cases found
  half := pagingInit_half
  static := pagingInit_static
  pages aligned := Allocator.boot_inv aligned memory booted
  current := ⟨0, rfl, rfl⟩

/-- **The invariant along a run** from `paging_init` and `pmm_init`. -/
theorem UserWorld.boot_run {boot : BootInfo} (ready : pmmInit boot = .ok pmm)
    (image : layout.InImage boot) (memory : WordMemory) (ops : List UserOp) :
    (∃ panic, (UserWorld.boot layout memory pmm).run layout ops = .error panic ∧
      OutOfReach pmm.freeSet panic) ∨
    ∃ w tree, (UserWorld.boot layout memory pmm).run layout ops = .ok w ∧
      w.Inv layout pmm.freeSet tree :=
  have clear := Layout.clear_of_image ready image
  (boot_inv clear (pmmInit_booted ready).1 memory).run clear ops

theorem UserWorld.boot_reached {boot : BootInfo} (ready : pmmInit boot = .ok pmm)
    (image : layout.InImage boot) {memory : WordMemory} {ops : List UserOp} {w : UserWorld}
    (reached : (UserWorld.boot layout memory pmm).run layout ops = .ok w) :
    ∃ tree, w.Inv layout pmm.freeSet tree := by
  rcases boot_run ready image memory ops with ⟨panic, fails, -⟩ | ⟨_, tree, done, inv⟩
  · cases fails.symm.trans reached
  · cases done.symm.trans reached
    exact ⟨tree, inv⟩

end World

/-- Eight MiB, with a kernel image that ends behind the tables of `twoMibLayout`. -/
def imageBoot : BootInfo := { eightMibBoot with kernelEndPhys := 0x303000 }

theorem imageBoot_ready :
    ∃ pmm, pmmInit imageBoot = .ok pmm ∧ ∀ f ∈ pmm.freeSet, Reachable f := by
  have found : highestPhysical imageBoot = .ok 0x800000 := by decide
  obtain ⟨pmm, ready⟩ := pmmInit_ok found (by decide) (by decide)
  obtain ⟨-, highest, found', -, total⟩ := pmmInit_booted ready
  obtain rfl := Except.ok.inj (found.symm.trans found')
  refine ⟨pmm, ready, fun f free => ?_⟩
  have below := free.1
  rw [total] at below
  have frames : f < 0x800 := Nat.lt_of_lt_of_eq below (by decide)
  unfold Reachable kernelDirectMapLimitPhys
  omega

/-- Two spaces, a page that is mapped and moved from one to the other, a switch,
and a range of kernel pages. -/
def imageCalls : List UserOp :=
  [.allocFrameOnNode 0xFF, .createProcessSpaceOnNode 0xFF, .createProcessSpaceOnNode 0,
    .mapUserPage 1 0x400000 0x304000 2, .switchSpace 1, .pages (.alloc 3 0xFF),
    .unmapUserPage 1 0x400000, .mapUserPage 2 0x400000 0x304000 2, .destroyProcessSpace 1]

/-- Within reach of the direct map every run returns. -/
theorem imageBoot_runs (ops : List UserOp) :
    ∃ pmm w tree, pmmInit imageBoot = .ok pmm ∧
      (UserWorld.boot twoMibLayout (fun _ => 0) pmm).run twoMibLayout ops = .ok w ∧
      w.Inv twoMibLayout pmm.freeSet tree := by
  obtain ⟨pmm, ready, reachable⟩ := imageBoot_ready
  rcases UserWorld.boot_run ready (by decide : twoMibLayout.InImage imageBoot) (fun _ => 0) ops with
    ⟨_, -, f, free, beyond, -⟩ | ⟨w, tree, done, inv⟩
  · exact absurd (reachable f free) beyond
  · exact ⟨pmm, w, tree, ready, done, inv⟩

/-- Everything above the kernel image and the bitmap is free, whatever memory the
machine has. -/
theorem image_free {regions : List MemoryRegion} {pmm : PmmState}
    (ready : pmmInit { imageBoot with memoryRegions := regions } = .ok pmm)
    (bytes : bitmapBytes pmm.totalFrames ≤ 0x10000) {region : MemoryRegion}
    (member : region ∈ regions) {f : Nat} (marks : region.Marks f) (low : 0x400 ≤ f) :
    f ∈ pmm.freeSet := by
  have off : ∀ {base length}, base + length ≤ 0x400000 → ¬ Meets f base length := by
    rintro base length inside ⟨byte, bounds, rfl⟩
    unfold pageSize at low
    omega
  refine pmmInit_frees ready (show imageBoot.kernelStartPhys < imageBoot.kernelEndPhys by decide)
    (fun _ => show imageBoot.memoryMapSize ≠ 0 by decide) ⟨rfl, region, member, marks⟩ ?_
  have image : imageBoot.kernelStartPhys +
      (imageBoot.kernelEndPhys - imageBoot.kernelStartPhys) ≤ 0x400000 := by decide
  have info : imageBoot.infoPhys + imageBoot.infoSizeHint ≤ 0x400000 := by decide
  have map : imageBoot.memoryMapPhys + imageBoot.memoryMapSize ≤ 0x400000 := by decide
  refine ⟨off (by decide), off image, off ?_, fun _ => off info, fun _ => off map,
    fun table => absurd rfl table, fun module member => by cases member⟩
  have start : Pmm.alignUpU32 imageBoot.kernelEndPhys pageSize = 0x303000 := by decide
  dsimp only
  rw [start]
  omega

end Dfos.Paging
