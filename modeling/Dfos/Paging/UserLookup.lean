import Dfos.Paging.Boot
import Dfos.Paging.UserSpaces

/-!
# What a lookup shows

Below `KERNEL_VMA` a lookup in a process space reads the matching of pages with
frames.  Above it, a lookup goes through the kernel's entry of the PDPT and then
over the static tables: the same walk from every space, and over words that no
call on a space writes.
-/

namespace Dfos.Paging

open Dfos.Lib
open Dfos.Pmm

theorem frame_or_offset (f a : Nat) : f * 4096 ||| (a &&& 0xFFF) = f * 4096 + a % 4096 := by
  rw [land_offset, Nat.mul_comm]
  exact (Nat.two_pow_add_eq_or_of_lt (i := 12) (Nat.mod_lt a (by decide)) f).symm

/-- The walk from the kernel's page directory. -/
def kernelWalk (layout : Layout) (m : WordMemory) (virtualAddr : Nat) :
    Except Panic (Option Nat) := do
  let pde := m (layout.kernelDirectoryEntry (paeDirectoryIndexOf virtualAddr))
  if ¬ Present pde then return none
  if pde &&& paeEntryPageSize ≠ 0 then return some (largeTarget pde virtualAddr)
  let table ← paeEntryPointer layout m pde
  let pte := m (WordMemory.word table (paeTableIndexOf virtualAddr))
  if ¬ Present pte then return none
  return some (pteTarget pte virtualAddr)

/-- A present entry of the kernel's page directory leads to its static table. -/
def KernelHalf (layout : Layout) (m : WordMemory) : Prop :=
  ∀ d < 512, Present (m (layout.kernelDirectoryEntry d)) →
    ∃ table, paePageTableForDirectory layout d = some table ∧
      m (layout.kernelDirectoryEntry d) &&& paeEntryAddrMask = table ∧
      m (layout.kernelDirectoryEntry d) &&& paeEntryPageSize = 0

/-- Table `k` of an array of tables in the bootstrap window. -/
theorem table_within {base count k : Nat} (inside : base + count * pageSize ≤ bootstrapWindowSize)
    (below : k < count) :
    base + pageSize * k < kernelDirectMapLimitPhys ∧ base ≤ base + pageSize * k ∧
      base + pageSize * k + 4096 ≤ base + count * pageSize := by
  unfold bootstrapWindowSize pageSize at inside
  unfold kernelDirectMapLimitPhys pageSize
  omega

/-- A table of the kernel's page directory is a static one. -/
theorem Layout.table_static (layout : Layout) {d table : Nat}
    (found : paePageTableForDirectory layout d = some table) :
    table < kernelDirectMapLimitPhys ∧ ∃ r ∈ [(layout.identityTables, 2 * pageSize),
      (layout.kernelDirectory, pageSize),
      (layout.directMapTables, paeDirectMapPdeCount * pageSize),
      (layout.dynamicTables, paeDynamicPdeCount * pageSize)],
      r.1 ≤ table ∧ table + 4096 ≤ r.1 + r.2 := by
  unfold paePageTableForDirectory at found
  split at found
  · next direct =>
      obtain rfl := Option.some.inj found
      obtain ⟨reach, within⟩ := table_within (layout.inside
        (layout.directMapTables, paeDirectMapPdeCount * pageSize) (by simp)) direct
      exact ⟨reach, _, by simp, within⟩
  · split at found
    · next dynamic =>
        obtain rfl := Option.some.inj found
        unfold paeDirectoryIsDynamic at dynamic
        simp only [Bool.and_eq_true, decide_eq_true_eq] at dynamic
        have below : d - paeDynamicPdeStart < paeDynamicPdeCount := by
          unfold paeDynamicPdeCount
          omega
        obtain ⟨reach, within⟩ := table_within (layout.inside
          (layout.dynamicTables, paeDynamicPdeCount * pageSize) (by simp)) below
        exact ⟨reach, (layout.dynamicTables, paeDynamicPdeCount * pageSize), by simp, within⟩
    · cases found

section Walk

variable {layout : Layout} {all : Set Nat} {m m' : WordMemory} {a : Nat}

/-- The walk over the static tables, once the direct map is there. -/
theorem KernelHalf.walk (half : KernelHalf layout m) (direct : DirectMap layout m) (a : Nat) :
    kernelWalk layout m a = .ok
      (if Present (m (layout.kernelDirectoryEntry (paeDirectoryIndexOf a))) then
        (paePageTableForDirectory layout (paeDirectoryIndexOf a)).bind fun table =>
          let pte := m (WordMemory.word table (paeTableIndexOf a))
          if Present pte then some (pteTarget pte a) else none
      else none) := by
  have wide := (address_route a).2.2
  unfold kernelWalk
  simp only [bind, Except.bind, pure, Except.pure]
  by_cases present : Present (m (layout.kernelDirectoryEntry (paeDirectoryIndexOf a)))
  · obtain ⟨table, found, address, small⟩ := half _ wide present
    have follow : paeEntryPointer layout m
        (m (layout.kernelDirectoryEntry (paeDirectoryIndexOf a))) = .ok table := by
      unfold paeEntryPointer
      rw [address]
      exact direct.physToVirt (layout.table_static found).1
    rw [if_neg (not_not.mpr present), if_neg (not_not.mpr small), follow, if_pos present, found]
    dsimp only [Option.bind_some]
    rw [ite_not]
    split <;> rfl
  · rw [if_pos present, if_neg present]

theorem KernelHalf.still (half : KernelHalf layout m) (clear : layout.Clear all)
    (still : Still layout all m m') : KernelHalf layout m' := by
  intro d small present
  rw [still.kernelDirectoryEntry clear small] at present ⊢
  exact half d small present

/-- No call on a space changes the kernel's half. -/
theorem KernelHalf.walk_still (half : KernelHalf layout m) (direct : DirectMap layout m)
    (clear : layout.Clear all) (still : Still layout all m m') (a : Nat) :
    kernelWalk layout m' a = kernelWalk layout m a := by
  obtain ⟨-, slot, wide⟩ := address_route a
  rw [half.walk direct, (half.still clear still).walk (direct.still clear still),
    still.kernelDirectoryEntry clear wide]
  cases found : paePageTableForDirectory layout (paeDirectoryIndexOf a) with
  | none => rfl
  | some table =>
      obtain ⟨-, r, member, low, high⟩ := layout.table_static found
      have entry : paeTableIndexOf a < 512 := slot ▸ paeFormat.slot_lt (a / pageSize)
      have same : m' (WordMemory.word table (paeTableIndexOf a)) =
          m (WordMemory.word table (paeTableIndexOf a)) := by
        apply still.static clear member <;> unfold WordMemory.word <;> omega
      dsimp only [Option.bind_some]
      rw [same]

end Walk

/-! ## What `paging_init` fixes for good -/

/-- The identity tables, the addresses of the direct map, and its pages that hold
code and read-only data. -/
structure StaticTables (layout : Layout) (m : WordMemory) : Prop where
  identity : ∀ t < 2, ∀ i < 512,
    m (WordMemory.word (layout.identityTables + pageSize * t) i) =
      paeMakeEntry ((t * paePteEntries + i) * pageSize) (paeEntryPresent ||| paeEntryWritable)
  target : ∀ d < 128, ∀ i < 512,
    m (WordMemory.word (layout.directMapTable d) i) &&& paeEntryAddrMask = (d * 512 + i) * 4096
  readOnly : ∀ a, layout.ReadOnly a → m (layout.directMapEntry a) &&& paeEntryWritable = 0

section Static

variable {layout : Layout} {all : Set Nat} {m m' : WordMemory}

theorem Layout.ReadOnly.bounds {a : Nat} (inside : layout.ReadOnly a) :
    kernelVma ≤ a ∧ a < kernelVma + bootstrapWindowSize := by
  obtain ⟨textLow, textHigh⟩ := layout.text_inside
  obtain ⟨rodataLow, rodataHigh⟩ := layout.rodata_inside
  rcases inside with ⟨low, high⟩ | ⟨low, high⟩
  · exact ⟨textLow.trans low, Nat.lt_of_lt_of_le high textHigh⟩
  · exact ⟨rodataLow.trans low, Nat.lt_of_lt_of_le high rodataHigh⟩

theorem StaticTables.congr (static : StaticTables layout m)
    (same : ∀ r ∈ [(layout.identityTables, 2 * 4096), (layout.directMapTables, 128 * 4096)],
      ∀ a, r.1 ≤ a → a + 8 ≤ r.1 + r.2 → m' a = m a) : StaticTables layout m' := by
  have direct : ∀ d < 128, ∀ i < 512, m' (WordMemory.word (layout.directMapTable d) i) =
      m (WordMemory.word (layout.directMapTable d) i) := by
    intro d table i small
    apply same (layout.directMapTables, 128 * 4096) (by simp)
    · unfold WordMemory.word Layout.directMapTable
      dsimp only
      omega
    · unfold WordMemory.word Layout.directMapTable pageSize
      dsimp only
      omega
  refine ⟨fun t table i small => ?_, fun d table i small => ?_, fun a inside => ?_⟩
  · rw [same (layout.identityTables, 2 * 4096) (by simp)]
    · exact static.identity t table i small
    · unfold WordMemory.word
      dsimp only
      omega
    · unfold WordMemory.word pageSize
      dsimp only
      omega
  · rw [direct d table i small]
    exact static.target d table i small
  · obtain ⟨low, high⟩ := inside.bounds
    obtain ⟨-, table, small, -⟩ := directMap_indices layout low (window_le high)
    rw [Layout.directMapEntry, direct _ table _ small]
    exact static.readOnly a inside

theorem StaticTables.still (static : StaticTables layout m) (clear : layout.Clear all)
    (still : Still layout all m m') : StaticTables layout m' := by
  refine static.congr fun r member a low high => ?_
  apply still.static clear (r := r) _ low high
  rw [paeDirectMapPdeCount_eq]
  simp only [List.mem_cons, List.not_mem_nil, or_false] at member ⊢
  rcases member with rfl | rfl
  · exact Or.inl rfl
  · exact Or.inr (Or.inr (Or.inl rfl))

theorem StaticTables.confined (static : StaticTables layout m)
    (outside : SameOutside layout m m') : StaticTables layout m' := by
  obtain ⟨-, -, -, direct, -, directDynamic⟩ := layout.tables_apart
  obtain ⟨-, -, identity, identityDynamic⟩ := layout.identity_apart.1
  refine static.congr fun r member a low high => ?_
  have apart : Apart r (layout.dynamicTables, 126 * 4096) ∧
      Apart r (layout.kernelDirectory, 4096) := by
    simp only [List.mem_cons, List.not_mem_nil, or_false] at member
    rcases member with rfl | rfl
    · exact ⟨identityDynamic.symm, identity.symm⟩
    · exact ⟨directDynamic, direct.symm⟩
  have off : Apart (a, 8) (layout.kernelDirectory, 4096) := apart.2.mono low high
  refine outside a (apart.1.mono low high) ?_
  unfold Apart at off ⊢
  dsimp only at off ⊢
  omega

theorem pagingInit_static {memory : WordMemory} {pmm : PmmState} :
    StaticTables layout (pagingInit layout memory pmm).memory := by
  have kept : Protected layout _ (pagingInit layout memory pmm).memory :=
    pagingApplyKernelProtections_protected
  obtain ⟨-, -, -, -, direct⟩ := layout.identity_apart.2
  refine ⟨fun t table i small => ?_, fun d table i small => ?_, fun a inside => ?_⟩
  · rw [kept.outside, bootstrap_identityPte table small]
    refine direct.mono ?_ ?_
    · unfold WordMemory.word
      omega
    · unfold WordMemory.word pageSize
      omega
  · have page : pageSize ∣ d * paePteEntries * pageSize + i * pageSize :=
      (Nat.dvd_add_right (dvd_mul_left _ _)).mpr (dvd_mul_left _ _)
    have below : d * paePteEntries * pageSize + i * pageSize < 2 ^ 32 := by
      unfold paePteEntries pageSize
      omega
    rw [kept.address, bootstrap_directPte table small, paeMakeEntry_addr page below (by decide)]
    unfold paePteEntries pageSize
    omega
  · apply pagingApplyKernelProtections_readOnly _ inside
    exact bootstrap_directMap

/-- **The direct map** takes each address to its physical address. -/
theorem KernelHalf.walk_direct (half : KernelHalf layout m) (direct : DirectMap layout m)
    (static : StaticTables layout m) {p : Nat} (below : p < kernelDirectMapLimitPhys) :
    kernelWalk layout m (kernelVma + p) = .ok (some p) := by
  obtain ⟨-, directory, entry, table⟩ := directMap_indices layout (Nat.le_add_right kernelVma p)
    (Nat.add_lt_add_left below kernelVma)
  rw [half.walk direct, if_pos (direct.pde _ directory), table]
  dsimp only [Option.bind_some]
  rw [if_pos (direct.pte _ directory _ entry), pteTarget, static.target _ directory _ entry,
    frame_or_offset, paeDirectoryIndexOf_eq, paeTableIndexOf_eq]
  unfold kernelDirectMapLimitPhys at below
  unfold kernelVma
  congr 2
  omega

end Static

namespace UserTables

variable {layout : Layout} {all : Set Nat} {held : Nat → Prop} {s s' : PagingState}
  {tree : Trees Nat} {mapped : (Nat × Nat) ≃. Nat} {space r a : Nat}

section

variable (tables : UserTables layout all held s tree mapped)
include tables

/-- The walk below `KERNEL_VMA` shows what is mapped, if it meets no closed table. -/
theorem lookup_mapped
    (root : tree space [] = some r) (below : a < kernelVma)
    (opens : tree space [paePdptIndexOf a, paeDirectoryIndexOf a] ≠ none →
      paeFormat.Open [paePdptIndexOf a, paeDirectoryIndexOf a]) :
    s.pagingLookupPhysical layout space a =
      .ok ((mapped (space, a / pageSize)).map fun f => f * pageSize + a % pageSize) := by
  obtain ⟨route, slot, wide⟩ := address_route a
  have top := paePdptIndexOf_user below
  have unmapped : tree space [paePdptIndexOf a, paeDirectoryIndexOf a] = none →
      mapped (space, a / pageSize) = none := fun none =>
    tables.spaces.paged.unmapped (route.symm ▸ none)
  unfold PagingState.pagingLookupPhysical paeTranslateAddressInSpace
  rw [tables.spacePdpt root]
  simp only [bind, Except.bind, pure, Except.pure]
  rcases directory : tree space [paePdptIndexOf a] with _ | d
  · rw [if_pos (tables.vacant root Nat.two_pos top directory),
      unmapped (tables.spaces.paged.forest.childless directory _)]
    rfl
  have linked := tables.linked root Nat.two_pos top directory
  rw [if_neg (not_not.mpr linked.1),
    tables.direct.linked linked (tables.spaces.reachable directory)]
  dsimp only
  rcases table : tree space [paePdptIndexOf a, paeDirectoryIndexOf a] with _ | t
  · rw [if_pos (tables.vacant directory Nat.one_lt_two wide table), unmapped table]
    rfl
  have linked := tables.linked directory Nat.one_lt_two wide table
  rw [if_neg (not_not.mpr linked.1), if_neg (not_not.mpr linked.2.2),
    tables.direct.linked linked (tables.spaces.reachable table)]
  dsimp only
  have opened := opens (by rw [table]; nofun)
  rw [← route] at table opened
  rw [← slot]
  rcases found : mapped (space, a / pageSize) with _ | f
  · exact if_pos (tables.leaf_none table opened found)
  · obtain ⟨present, frame⟩ := tables.leaf table opened found
    rw [if_neg (not_not.mpr present), pteTarget, frame, frame_or_offset]
    rfl

/-- **A lookup in a process space** shows what is mapped there. -/
theorem lookup_user (live : s.Live space)
    (below : a < kernelVma) :
    s.pagingLookupPhysical layout space a =
      .ok ((mapped (space, a / pageSize)).map fun f => f * pageSize + a % pageSize) := by
  have process : space ≠ 0 := by
    rintro rfl
    exact live.2 tables.kernelSpace
  obtain ⟨r, root⟩ := Option.ne_none_iff_exists'.mp ((tables.rooted space).mpr (Or.inl live))
  refine tables.lookup_mapped root below fun there => ?_
  obtain ⟨t, table⟩ := Option.ne_none_iff_exists'.mp there
  exact tables.open_of_process process table

/-- **A lookup of a user address** shows what is mapped there, in the kernel space
too. -/
theorem lookup_open
    (root : tree space [] = some r) (user : pagingAddressIsUser a = true) :
    s.pagingLookupPhysical layout space a =
      .ok ((mapped (space, a / pageSize)).map fun f => f * pageSize + a % pageSize) := by
  obtain ⟨-, -, route, -, opened⟩ := user_route user
  have below : a < kernelVma := by
    unfold pagingAddressIsUser pagingUserLimit at user
    simp only [Bool.and_eq_true, decide_eq_true_eq] at user
    exact user.2
  exact tables.lookup_mapped root below fun _ => route ▸ opened

/-- **The identity map** of the kernel space is never taken down. -/
theorem lookup_identity
    (static : StaticTables layout s.memory) (root : tree 0 [] = some r)
    (low : a < pagingUserBase) : s.pagingLookupPhysical layout 0 a = .ok (some a) := by
  obtain ⟨-, slot, wide⟩ := address_route a
  have aligned : pageSize ∣ layout.pdpt := by
    rcases (tables.rooted 0).mp (by rw [root]; nofun) with live | here
    · exact (live.2 tables.kernelSpace).elim
    · exact here.2
  unfold pagingUserBase at low
  have top : paePdptIndexOf a = 0 := by
    rw [paePdptIndexOf_eq]
    omega
  have few : paeDirectoryIndexOf a < 2 := by
    rw [paeDirectoryIndexOf_eq]
    omega
  have entry : paeTableIndexOf a < 512 := slot ▸ paeFormat.slot_lt (a / pageSize)
  have small : (paeDirectoryIndexOf a * paePteEntries + paeTableIndexOf a) * pageSize < 2 ^ 32 := by
    unfold paePteEntries pageSize
    omega
  have number : paeDirectoryIndexOf a * paePteEntries + paeTableIndexOf a = a / 4096 := by
    rw [paeDirectoryIndexOf_eq, paeTableIndexOf_eq]
    unfold paePteEntries
    omega
  have rooted : tree 0 [] ≠ none := by
    rw [root]
    nofun
  have directory := tables.fixed (p := [0]) rooted rfl
  obtain ⟨t, static'⟩ : ∃ t, layout.kernelTable [0, paeDirectoryIndexOf a] = some t := by
    rcases Nat.lt_succ_iff_lt_or_eq.mp few with zero | one
    · exact ⟨_, by rw [Nat.lt_one_iff.mp zero]; rfl⟩
    · exact ⟨_, by rw [one]; rfl⟩
  have table := tables.fixed rooted static'
  have page : t * 4096 = layout.identityTables + pageSize * paeDirectoryIndexOf a := by
    rcases Layout.kernelTable_cases aligned static' with ⟨nil, -⟩ | ⟨nil, -⟩ | ⟨j, -, path, page⟩
    · cases nil
    · cases nil
    · simp only [List.cons.injEq, and_true, true_and] at path
      rw [path]
      exact page
  have linked := tables.linked root Nat.two_pos (show 0 < 3 by decide) directory
  have linked' := tables.linked directory Nat.one_lt_two wide table
  have pte := static.identity _ few _ entry
  unfold PagingState.pagingLookupPhysical paeTranslateAddressInSpace
  rw [tables.spacePdpt root]
  simp only [bind, Except.bind, pure, Except.pure]
  rw [top, if_neg (not_not.mpr linked.1),
    tables.direct.linked linked (tables.spaces.reachable directory)]
  dsimp only
  rw [if_neg (not_not.mpr linked'.1), if_neg (not_not.mpr linked'.2.2),
    tables.direct.linked linked' (tables.spaces.reachable table)]
  dsimp only
  rw [page, pte, if_neg (not_not.mpr (paeMakeEntry_present.mpr (by decide))), pteTarget,
    paeMakeEntry_addr (dvd_mul_left _ _) small (by decide), number, show pageSize = 4096 from rfl,
    frame_or_offset, Nat.div_add_mod' a 4096]

/-- **A lookup in the kernel's half** is the walk from the kernel's directory. -/
theorem lookup_kernel
    (root : tree space [] = some r) (above : kernelVma ≤ a) (small : a < 2 ^ 32) :
    s.pagingLookupPhysical layout space a = kernelWalk layout s.memory a := by
  have top := paePdptIndexOf_kernel above small
  have gate : s.memory (WordMemory.word (r * 4096) (paePdptIndexOf a)) =
      paeMakeEntry layout.kernelDirectory paeEntryPresent := by
    rw [top]
    exact tables.gate root
  obtain ⟨aligned, reach⟩ := layout.kernelDirectory_page
  unfold PagingState.pagingLookupPhysical paeTranslateAddressInSpace
  rw [tables.spacePdpt root]
  simp only [bind, Except.bind, pure, Except.pure]
  rw [gate, if_neg (not_not.mpr (paeMakeEntry_present.mpr (by decide))),
    tables.direct.entryPointer aligned reach (by decide)]
  rfl

end

end UserTables

end Dfos.Paging
