import Dfos.Paging.Kernel

/-!
# What the walk sees in the dynamic region

The dynamic page tables are one array of page-table entries, indexed by the
page number within the region.  `lookup` reads that array; a walk through the
current space reads the same entry, and mapping and unmapping a page change it
at that page only.
-/

namespace Dfos.Paging

open Dfos.Lib
open Dfos.Pmm (pageSize)

/-! ## Entries -/

theorem paeDirectMapPdeCount_eq : paeDirectMapPdeCount = 128 := by decide

theorem paeDynamicPdeStart_eq : paeDynamicPdeStart = 384 := by decide

theorem paeDynamicPdeEnd_eq : paeDynamicPdeEnd = 510 := by decide

theorem paeDynamicPdeCount_eq : paeDynamicPdeCount = 126 := by decide

theorem land_addrMask (x : Nat) : x &&& paeEntryAddrMask = x / 4096 % 2 ^ 20 * 4096 :=
  land_mask x 12 20

theorem land_offset (x : Nat) : x &&& 0xFFF = x % 4096 := by
  simpa using land_mask x 0 12

theorem land_index (x : Nat) : x &&& 0x1FF = x % 512 := by
  simpa using land_mask x 0 9

theorem addrMask_of_page {p : Nat} (aligned : pageSize ∣ p) (small : p < 2 ^ 32) :
    p &&& paeEntryAddrMask = p := by
  unfold pageSize at aligned
  rw [land_addrMask]
  omega

section Entries

variable {physical flags : Nat}

theorem paeMakeEntry_addr (aligned : pageSize ∣ physical) (small : physical < 2 ^ 32)
    (low : flags < 4096) : paeMakeEntry physical flags &&& paeEntryAddrMask = physical := by
  have flagBits : flags &&& paeEntryAddrMask = 0 := by
    rw [land_addrMask, Nat.div_eq_of_lt low, Nat.zero_mod, Nat.zero_mul]
  rw [paeMakeEntry, Nat.and_or_distrib_right, flagBits, Nat.or_zero,
    addrMask_of_page aligned small, addrMask_of_page aligned small]

/-- The address bits hide no flag. -/
theorem paeMakeEntry_flag {bit : Nat} (clear : paeEntryAddrMask &&& bit = 0) :
    paeMakeEntry physical flags &&& bit = flags &&& bit := by
  rw [paeMakeEntry, Nat.and_or_distrib_right, Nat.and_assoc, clear, Nat.and_zero,
    Nat.zero_or]

theorem paeMakeEntry_present : Present (paeMakeEntry physical flags) ↔ Present flags := by
  unfold Present
  rw [paeMakeEntry_flag (by decide)]

theorem not_present_zero : ¬ Present 0 := by decide

end Entries

/-! ## Addresses of the dynamic region -/

/-- An address of the dynamic region. -/
def Dynamic (address : Nat) : Prop :=
  kernelDynamicBase ≤ address ∧ address < kernelDynamicLimit

/-- The number of a page within the dynamic region. -/
def pageNumber (address : Nat) : Nat := address / 4096 - 0xF0000

variable {layout : Layout}

/-- The address of the page-table entry of page `n` of the region. -/
def Layout.dynamicEntry (layout : Layout) (n : Nat) : Nat := WordMemory.word layout.dynamicTables n

theorem dynamicTable_word (d i : Nat) :
    WordMemory.word (layout.dynamicTable d) i = layout.dynamicEntry (512 * (d - 384) + i) := by
  unfold Layout.dynamicTable Layout.dynamicEntry WordMemory.word pageSize
  rw [paeDynamicPdeStart_eq]
  omega

theorem paePdptIndexOf_eq (address : Nat) : paePdptIndexOf address = address / 2 ^ 30 :=
  Nat.shiftRight_eq_div_pow address 30

theorem paePdptIndexOf_kernel {address : Nat} (above : kernelVma ≤ address)
    (small : address < 2 ^ 32) : paePdptIndexOf address = paePdptEntryKernel := by
  rw [paePdptIndexOf_eq]
  unfold kernelVma at above
  unfold paePdptEntryKernel
  omega

theorem paeDirectoryIndexOf_eq (address : Nat) :
    paeDirectoryIndexOf address = address / 2 ^ 21 % 512 := by
  rw [paeDirectoryIndexOf, land_index, Nat.shiftRight_eq_div_pow]

theorem paeTableIndexOf_eq (address : Nat) :
    paeTableIndexOf address = address / 2 ^ 12 % 512 := by
  rw [paeTableIndexOf, land_index, Nat.shiftRight_eq_div_pow]

/-- The indices of a dynamic address: the kernel entry of the PDPT, a dynamic
directory entry, and together the page's number. -/
theorem Dynamic.indices {address : Nat} (dynamic : Dynamic address) :
    paePdptIndexOf address = 3 ∧ 384 ≤ paeDirectoryIndexOf address ∧
      paeDirectoryIndexOf address < 510 ∧ paeTableIndexOf address < 512 ∧
      512 * (paeDirectoryIndexOf address - 384) + paeTableIndexOf address =
        pageNumber address := by
  unfold Dynamic kernelDynamicBase kernelDynamicLimit at dynamic
  rw [paePdptIndexOf_eq, paeDirectoryIndexOf_eq, paeTableIndexOf_eq]
  unfold pageNumber
  refine ⟨?_, ?_, ?_, ?_, ?_⟩ <;> omega

theorem Dynamic.directoryIndex {address : Nat} (dynamic : Dynamic address) :
    384 + pageNumber address / 512 = paeDirectoryIndexOf address := by
  obtain ⟨-, low, -, small, number⟩ := dynamic.indices
  omega

theorem Dynamic.pageNumber_lt {address : Nat} (dynamic : Dynamic address) :
    pageNumber address < 126 * 512 := by
  unfold Dynamic kernelDynamicBase kernelDynamicLimit at dynamic
  unfold pageNumber
  omega

theorem pageNumber_inj {a b : Nat} (ha : Dynamic a) (hb : Dynamic b)
    (pageA : pageSize ∣ a) (pageB : pageSize ∣ b) (same : pageNumber a = pageNumber b) :
    a = b := by
  unfold Dynamic kernelDynamicBase at ha hb
  unfold pageSize at pageA pageB
  unfold pageNumber at same
  omega

/-! ## The static half of the kernel's tables -/

/-- The kernel's PDPT entry and the direct map are present. -/
structure DirectMap (layout : Layout) (m : WordMemory) : Prop where
  pdpte : Present (m (WordMemory.word layout.pdpt paePdptEntryKernel))
  pde : ∀ d < 128, Present (m (layout.kernelDirectoryEntry d))
  pte : ∀ d < 128, ∀ i < 512, Present (m (WordMemory.word (layout.directMapTable d) i))

/-- Inside the aperture the direct map never panics. -/
theorem DirectMap.physToVirt {m : WordMemory} (direct : DirectMap layout m) {physical : Nat}
    (below : physical < kernelDirectMapLimitPhys) :
    pagingPhysToVirt layout m physical = .ok physical := by
  unfold pagingPhysToVirt
  rw [if_neg (by omega)]
  dsimp only
  rw [if_neg]
  rw [not_not]
  unfold kernelDirectMapLimitPhys at below
  unfold paeIsMapped paeTranslateAddress
  have page : alignDownU32 (kernelVma + physical) pageSize =
      0xC0000000 + physical / 4096 * 4096 := by
    unfold alignDownU32 kernelVma pageSize
    omega
  have top : paePdptIndexOf (0xC0000000 + physical / 4096 * 4096) = paePdptEntryKernel := by
    rw [paePdptIndexOf_eq]
    unfold paePdptEntryKernel
    omega
  have directory : paeDirectoryIndexOf (0xC0000000 + physical / 4096 * 4096) < 128 := by
    rw [paeDirectoryIndexOf_eq]
    omega
  have table : paeTableIndexOf (0xC0000000 + physical / 4096 * 4096) < 512 := by
    rw [paeTableIndexOf_eq]
    omega
  dsimp only
  rw [page, top, if_neg (not_not.mpr direct.pdpte), if_pos rfl,
    if_neg (not_not.mpr (direct.pde _ directory))]
  split
  · rfl
  · rw [paePageTableForDirectory, paeDirectMapPdeCount_eq, if_pos directory]
    dsimp only
    rw [if_pos (direct.pte _ directory _ table)]
    rfl

/-- Writes confined to the dynamic tables and their directory entries. -/
def SameOutside (layout : Layout) (m m' : WordMemory) : Prop :=
  ∀ a, Apart (a, 8) (layout.dynamicTables, 126 * 4096) →
    Apart (a, 8) (layout.kernelDirectory + 8 * 384, 8 * 126) → m' a = m a

/-- The distances between the tables that the proofs below use. -/
theorem Layout.tables_apart (layout : Layout) :
    Apart (layout.pdpt, 32) (layout.kernelDirectory, 4096) ∧
      Apart (layout.pdpt, 32) (layout.directMapTables, 128 * 4096) ∧
      Apart (layout.pdpt, 32) (layout.dynamicTables, 126 * 4096) ∧
      Apart (layout.kernelDirectory, 4096) (layout.directMapTables, 128 * 4096) ∧
      Apart (layout.kernelDirectory, 4096) (layout.dynamicTables, 126 * 4096) ∧
      Apart (layout.directMapTables, 128 * 4096) (layout.dynamicTables, 126 * 4096) := by
  have apart := layout.apart
  rw [paeDirectMapPdeCount_eq, paeDynamicPdeCount_eq] at apart
  simp only [List.pairwise_cons, List.mem_cons, List.not_mem_nil, or_false, forall_eq_or_imp,
    forall_eq] at apart
  obtain ⟨⟨-, -, a, b, c⟩, -, -, ⟨d, e⟩, f, -⟩ := apart
  exact ⟨a, b, c, d, e, f⟩

theorem DirectMap.congr {m m' : WordMemory} (direct : DirectMap layout m)
    (same : SameOutside layout m m') : DirectMap layout m' := by
  obtain ⟨pdptDirectory, -, pdptDynamic, directoryDirect, directoryDynamic, directDynamic⟩ :=
    layout.tables_apart
  unfold Apart at *
  dsimp only at *
  refine ⟨?_, fun d below => ?_, fun d below i small => ?_⟩
  · rw [same _ (by unfold Apart WordMemory.word paePdptEntryKernel; dsimp only; omega)
      (by unfold Apart WordMemory.word paePdptEntryKernel; dsimp only; omega)]
    exact direct.pdpte
  · rw [same _ (by unfold Apart Layout.kernelDirectoryEntry WordMemory.word; dsimp only; omega)
      (by unfold Apart Layout.kernelDirectoryEntry WordMemory.word; dsimp only; omega)]
    exact direct.pde d below
  · have inTables : layout.directMapTables ≤ WordMemory.word (layout.directMapTable d) i ∧
        WordMemory.word (layout.directMapTable d) i + 8 ≤ layout.directMapTables + 128 * 4096 := by
      unfold WordMemory.word Layout.directMapTable pageSize
      omega
    rw [same _ (by unfold Apart; dsimp only; omega) (by unfold Apart; dsimp only; omega)]
    exact direct.pte d below i small

/-! ## The walk -/

/-- What the entry of an address of the dynamic region gives. -/
def lookup (layout : Layout) (m : WordMemory) (address : Nat) : Option Nat :=
  let pte := m (layout.dynamicEntry (pageNumber address))
  if Present pte then some (pteTarget pte address) else none

/-- The dynamic tables hang together: a present directory entry points to its
own table, a present page-table entry has its directory entry, and no table is
present while empty. -/
structure DynamicTables (layout : Layout) (m : WordMemory) : Prop where
  pde : ∀ d, 384 ≤ d → d < 510 → Present (m (layout.kernelDirectoryEntry d)) →
    m (layout.kernelDirectoryEntry d) = paeMakeEntry (layout.dynamicTable d) 3
  backed : ∀ n < 126 * 512, Present (m (layout.dynamicEntry n)) →
    Present (m (layout.kernelDirectoryEntry (384 + n / 512)))
  inhabited : ∀ d, 384 ≤ d → d < 510 → Present (m (layout.kernelDirectoryEntry d)) →
    ∃ i < 512, Present (m (layout.dynamicEntry (512 * (d - 384) + i)))

/-- A root whose kernel entry names the kernel's page directory and lies apart
from the tables that mapping writes to. -/
structure KernelRoot (layout : Layout) (m : WordMemory) (root : Nat) : Prop where
  below : root < kernelDirectMapLimitPhys
  entry : m (WordMemory.word root paePdptEntryKernel) =
    paeMakeEntry layout.kernelDirectory paeEntryPresent
  offDirectory : Apart (WordMemory.word root paePdptEntryKernel, 8)
    (layout.kernelDirectory, 4096)
  offTables : Apart (WordMemory.word root paePdptEntryKernel, 8)
    (layout.dynamicTables, 126 * 4096)

/-- The invariant of the tables, seen from the current space. -/
structure PageTables (layout : Layout) (s : PagingState) : Prop where
  direct : DirectMap layout s.memory
  dynamic : DynamicTables layout s.memory
  root : ∃ space, s.currentSpace = some space ∧
    KernelRoot layout s.memory ((s.pagingSpaces space).rootPhysical &&& 0xFFFFF000)

theorem Layout.kernelDirectory_page (layout : Layout) :
    pageSize ∣ layout.kernelDirectory ∧ layout.kernelDirectory < kernelDirectMapLimitPhys := by
  refine ⟨layout.kernelDirectory_aligned, ?_⟩
  have inside := layout.inside (layout.kernelDirectory, pageSize) (by simp)
  unfold bootstrapWindowSize at inside
  unfold kernelDirectMapLimitPhys
  dsimp only at inside
  omega

theorem Layout.dynamicTable_page (layout : Layout) {d : Nat} (low : 384 ≤ d) (high : d < 510) :
    pageSize ∣ layout.dynamicTable d ∧ layout.dynamicTable d < kernelDirectMapLimitPhys := by
  have inside := layout.inside (layout.dynamicTables, paeDynamicPdeCount * pageSize) (by simp)
  rw [paeDynamicPdeCount_eq] at inside
  unfold bootstrapWindowSize pageSize at inside
  unfold Layout.dynamicTable
  rw [paeDynamicPdeStart_eq]
  refine ⟨(Nat.dvd_add_right layout.dynamicTables_aligned).mpr (dvd_mul_right _ _), ?_⟩
  unfold kernelDirectMapLimitPhys pageSize
  dsimp only at inside
  omega

/-- Following a table pointer that `pae_make_entry` built. -/
theorem DirectMap.entryPointer {m : WordMemory} (direct : DirectMap layout m)
    {physical flags : Nat} (aligned : pageSize ∣ physical)
    (below : physical < kernelDirectMapLimitPhys) (low : flags < 4096) :
    paeEntryPointer layout m (paeMakeEntry physical flags) = .ok physical := by
  have small : physical < 2 ^ 32 := lt_trans below (by decide)
  rw [paeEntryPointer, paeMakeEntry_addr aligned small low]
  exact direct.physToVirt below

/-- **The walk through the current space reads the dynamic tables.** -/
theorem PageTables.translate {s : PagingState} (tables : PageTables layout s) {address : Nat}
    (dynamic : Dynamic address) :
    pagingTranslateAddress layout s address = .ok (lookup layout s.memory address) := by
  obtain ⟨space, current, root⟩ := tables.root
  obtain ⟨top, low, high, -, number⟩ := dynamic.indices
  obtain ⟨kernelAligned, kernelBelow⟩ := layout.kernelDirectory_page
  obtain ⟨tableAligned, tableBelow⟩ := layout.dynamicTable_page low high
  have kernelPresent : Present (paeMakeEntry layout.kernelDirectory paeEntryPresent) :=
    paeMakeEntry_present.mpr (by decide)
  have follow : paeEntryPointer layout s.memory
      (paeMakeEntry layout.kernelDirectory paeEntryPresent) = .ok layout.kernelDirectory :=
    tables.direct.entryPointer kernelAligned kernelBelow (by decide)
  unfold pagingTranslateAddress
  rw [current]
  dsimp only
  unfold paeTranslateAddressInSpace paeSpacePdpt
  rw [tables.direct.physToVirt root.below]
  have entry := root.entry
  unfold paePdptEntryKernel at entry
  simp only [bind, Except.bind, pure, Except.pure]
  rw [top, entry, if_neg (not_not.mpr kernelPresent), follow]
  dsimp only
  have entryWord : WordMemory.word layout.kernelDirectory (paeDirectoryIndexOf address) =
      layout.kernelDirectoryEntry (paeDirectoryIndexOf address) := rfl
  rw [entryWord]
  unfold lookup
  dsimp only
  have backed := tables.dynamic.backed _ dynamic.pageNumber_lt
  rw [dynamic.directoryIndex] at backed
  by_cases present : Present (s.memory (layout.kernelDirectoryEntry (paeDirectoryIndexOf address)))
  · rw [if_neg (not_not.mpr present), tables.dynamic.pde _ low high present,
      if_neg (by rw [paeMakeEntry_flag (by decide)]; decide),
      tables.direct.entryPointer tableAligned tableBelow (by decide)]
    dsimp only
    rw [dynamicTable_word, number, ite_not]
    split <;> rfl
  · rw [if_pos present, if_neg fun pte => present (backed pte)]

/-! ## Mapping one page -/

theorem Layout.entries_ne (layout : Layout) {d n : Nat} (directory : d < 512)
    (number : n < 126 * 512) : layout.dynamicEntry n ≠ layout.kernelDirectoryEntry d := by
  obtain ⟨-, -, -, -, apart, -⟩ := layout.tables_apart
  unfold Apart at apart
  unfold Layout.dynamicEntry Layout.kernelDirectoryEntry WordMemory.word
  dsimp only at apart
  omega

theorem dynamicEntry_inj {a b : Nat} : layout.dynamicEntry a = layout.dynamicEntry b ↔ a = b := by
  unfold Layout.dynamicEntry WordMemory.word
  omega

theorem kernelDirectoryEntry_inj {a b : Nat} :
    layout.kernelDirectoryEntry a = layout.kernelDirectoryEntry b ↔ a = b := by
  unfold Layout.kernelDirectoryEntry WordMemory.word
  omega

section Outside

variable {m m' m'' : WordMemory}

theorem SameOutside.refl (m : WordMemory) : SameOutside layout m m := fun _ _ _ => rfl

theorem SameOutside.trans (first : SameOutside layout m m') (second : SameOutside layout m' m'') :
    SameOutside layout m m'' := fun a off off' => (second a off off').trans (first a off off')

theorem SameOutside.storeEntry {n : Nat} (number : n < 126 * 512) (value : Nat) :
    SameOutside layout m (m.store (layout.dynamicEntry n) value) := by
  intro a off _
  apply WordMemory.store_other
  unfold Apart at off
  unfold Layout.dynamicEntry WordMemory.word
  dsimp only at off
  omega

theorem SameOutside.storeDirectory {d : Nat} (low : 384 ≤ d) (high : d < 510) (value : Nat) :
    SameOutside layout m (m.store (layout.kernelDirectoryEntry d) value) := by
  intro a _ off
  apply WordMemory.store_other
  unfold Apart at off
  unfold Layout.kernelDirectoryEntry WordMemory.word
  dsimp only at off
  omega

theorem SameOutside.fillTable {d : Nat} (low : 384 ≤ d) (high : d < 510) (f : Nat → Nat) :
    SameOutside layout m (m.fill (layout.dynamicTable d) f 512) := by
  intro a off _
  apply WordMemory.fill_outside
  unfold Apart at off
  unfold Layout.dynamicTable pageSize
  rw [paeDynamicPdeStart_eq]
  dsimp only at off
  omega

/-- The kernel entry of a root survives writes to the dynamic tables. -/
theorem KernelRoot.congr {root : Nat} (kernel : KernelRoot layout m root)
    (same : SameOutside layout m m') : KernelRoot layout m' root where
  below := kernel.below
  entry := by
    have off := kernel.offDirectory
    rw [same _ kernel.offTables (by unfold Apart at off ⊢; dsimp only at off ⊢; omega)]
    exact kernel.entry
  offDirectory := kernel.offDirectory
  offTables := kernel.offTables

end Outside

section Mapping

variable {m : WordMemory}

/-- A directory entry as `ensureDirectory` leaves it.  A page-table entry can
only change from one stale value to zero. -/
structure Ensured (layout : Layout) (m m' : WordMemory) (d : Nat) : Prop where
  pde : m' (layout.kernelDirectoryEntry d) = paeMakeEntry (layout.dynamicTable d) 3
  others : ∀ d' < 512, d' ≠ d →
    m' (layout.kernelDirectoryEntry d') = m (layout.kernelDirectoryEntry d')
  entries : ∀ n < 126 * 512, m' (layout.dynamicEntry n) = m (layout.dynamicEntry n) ∨
    ¬ Present (m (layout.dynamicEntry n)) ∧ m' (layout.dynamicEntry n) = 0
  outside : SameOutside layout m m'

theorem fillTable_entry {d n : Nat} (low : 384 ≤ d) :
    m.fill (layout.dynamicTable d) (fun _ => 0) 512 (layout.dynamicEntry n) =
      if 384 + n / 512 = d then 0 else m (layout.dynamicEntry n) := by
  split
  · next here =>
      have index : layout.dynamicEntry n = WordMemory.word (layout.dynamicTable d) (n % 512) := by
        rw [dynamicTable_word]
        congr 1
        omega
      rw [index, WordMemory.fill_word (Nat.mod_lt _ (by decide))]
  · next elsewhere =>
      apply WordMemory.fill_outside
      unfold Layout.dynamicEntry Layout.dynamicTable WordMemory.word pageSize
      rw [paeDynamicPdeStart_eq]
      omega

theorem ensureDirectory_ensured (dynamic : DynamicTables layout m) {d : Nat} (low : 384 ≤ d)
    (high : d < 510) :
    Ensured layout m (ensureDirectory layout m d (layout.dynamicTable d) pageWritable) d := by
  have noUser : ¬ (pageWritable &&& pageUser ≠ 0) := by decide
  unfold ensureDirectory
  dsimp only
  by_cases present : Present (m (layout.kernelDirectoryEntry d))
  · rw [if_neg (not_not.mpr present), if_neg fun user => noUser user.1]
    exact ⟨dynamic.pde d low high present, fun _ _ _ => rfl, fun _ _ => Or.inl rfl, .refl m⟩
  · rw [if_pos present, if_neg noUser]
    refine ⟨WordMemory.store_same, fun d' below other => ?_, fun n number => ?_, ?_⟩
    · rw [WordMemory.store_other (kernelDirectoryEntry_inj.not.mpr other),
        WordMemory.fill_outside]
      obtain ⟨-, -, -, -, apart, -⟩ := layout.tables_apart
      unfold Apart at apart
      unfold Layout.kernelDirectoryEntry Layout.dynamicTable WordMemory.word pageSize paePteEntries
      rw [paeDynamicPdeStart_eq]
      dsimp only at apart
      omega
    · have cleared : m.fill (layout.dynamicTable d) (fun _ => 0) 512 (layout.dynamicEntry n) =
          if 384 + n / 512 = d then 0 else m (layout.dynamicEntry n) := fillTable_entry low
      rw [WordMemory.store_other (layout.entries_ne (by omega) number)]
      by_cases here : 384 + n / 512 = d
      · right
        refine ⟨fun pte => present ?_, cleared.trans (if_pos here)⟩
        rw [← here]
        exact dynamic.backed n number pte
      · exact Or.inl (cleared.trans (if_neg here))
    · exact (SameOutside.fillTable low high _).trans (.storeDirectory low high _)

/-- A page mapped through a present directory entry. -/
theorem Ensured.mapped {m' : WordMemory} {d n value : Nat} (dynamic : DynamicTables layout m)
    (ensured : Ensured layout m m' d) (number : n < 126 * 512) (index : 384 + n / 512 = d)
    (present : Present value) :
    DynamicTables layout (m'.store (layout.dynamicEntry n) value) := by
  have directory : ∀ d' < 512,
      m'.store (layout.dynamicEntry n) value (layout.kernelDirectoryEntry d') =
        m' (layout.kernelDirectoryEntry d') := fun d' below =>
    WordMemory.store_other (layout.entries_ne below number).symm
  have here : Present (m' (layout.kernelDirectoryEntry d)) := by
    rw [ensured.pde]
    exact paeMakeEntry_present.mpr (by decide)
  refine ⟨fun d' low high pde => ?_, fun k below pte => ?_, fun d' low high pde => ?_⟩
  · rw [directory d' (by omega)] at pde ⊢
    by_cases same : d' = d
    · rw [same, ensured.pde]
    · rw [ensured.others d' (by omega) same] at pde ⊢
      exact dynamic.pde d' low high pde
  · rw [directory _ (by omega)]
    by_cases same : 384 + k / 512 = d
    · rw [same]
      exact here
    · rw [ensured.others _ (by omega) same]
      have other : k ≠ n := by rintro rfl; exact same index
      rw [WordMemory.store_other (dynamicEntry_inj.not.mpr other)] at pte
      rcases ensured.entries k below with kept | ⟨-, zero⟩
      · rw [kept] at pte
        exact dynamic.backed k below pte
      · rw [zero] at pte
        exact absurd pte not_present_zero
  · rw [directory d' (by omega)] at pde
    by_cases same : d' = d
    · refine ⟨n % 512, Nat.mod_lt _ (by decide), ?_⟩
      have position : 512 * (d' - 384) + n % 512 = n := by omega
      rw [position, WordMemory.store_same]
      exact present
    · rw [ensured.others d' (by omega) same] at pde
      obtain ⟨i, small, pte⟩ := dynamic.inhabited d' low high pde
      refine ⟨i, small, ?_⟩
      rw [WordMemory.store_other (dynamicEntry_inj.not.mpr (by omega))]
      rcases ensured.entries _ (by omega : 512 * (d' - 384) + i < 126 * 512) with
        kept | ⟨absent, -⟩
      · rwa [kept]
      · exact absurd pte absent

end Mapping

/-- The walk after the write of one page. -/
structure Rewritten (layout : Layout) (m m' : WordMemory) (page : Nat) (target : Option Nat) :
    Prop where
  outside : SameOutside layout m m'
  dynamic : DynamicTables layout m'
  here : lookup layout m' page = target
  elsewhere : ∀ b, Dynamic b → pageSize ∣ b → b ≠ page → lookup layout m' b = lookup layout m b

section Writes

variable {m : WordMemory} {page frame : Nat}

theorem paePageTableForDirectory_dynamic {d : Nat} (low : 384 ≤ d) (high : d < 510) :
    paeDirectoryIsDynamic d = true ∧
      paePageTableForDirectory layout d = some (layout.dynamicTable d) := by
  have inRange : paeDirectoryIsDynamic d = true := by
    unfold paeDirectoryIsDynamic
    rw [paeDynamicPdeStart_eq, paeDynamicPdeEnd_eq]
    simp [low, high]
  refine ⟨inRange, ?_⟩
  unfold paePageTableForDirectory
  rw [paeDirectMapPdeCount_eq, if_neg (by omega), if_pos inRange]

theorem Dynamic.isDynamic (dynamic : Dynamic page) : paeAddressIsDynamic page = true := by
  unfold Dynamic at dynamic
  unfold paeAddressIsDynamic
  simp [dynamic.1, dynamic.2]

theorem pteTarget_entry (aligned : pageSize ∣ frame) (small : frame < 2 ^ 32)
    (pageAligned : pageSize ∣ page) : pteTarget (paeMakeEntry frame 3) page = frame := by
  have offset : page &&& 0xFFF = 0 := by
    rw [land_offset]
    exact Nat.mod_eq_zero_of_dvd pageAligned
  rw [pteTarget, paeMakeEntry_addr aligned small (by decide), offset, Nat.or_zero]

/-- `pae_map_page` of a dynamic page succeeds and changes that page only. -/
theorem paeMapPage_spec (dynamic : DynamicTables layout m) (inRegion : Dynamic page)
    (pageAligned : pageSize ∣ page) (aligned : pageSize ∣ frame) (small : frame < 2 ^ 32) :
    (paeMapPage layout m page frame pageWritable).2 = true ∧
      Rewritten layout m (paeMapPage layout m page frame pageWritable).1 page (some frame) := by
  obtain ⟨top, low, high, -, number⟩ := inRegion.indices
  obtain ⟨isDynamic, table⟩ : _ ∧ paePageTableForDirectory layout _ = _ :=
    paePageTableForDirectory_dynamic low high
  have pageOffset : page &&& 0xFFF = 0 := by
    rw [land_offset]
    exact Nat.mod_eq_zero_of_dvd pageAligned
  have frameOffset : frame &&& 0xFFF = 0 := by
    rw [land_offset]
    exact Nat.mod_eq_zero_of_dvd aligned
  have flags : paeEntryPresent ||| (pageWritable &&& 0xFFF) = 3 := by decide
  have value : paeMapPage layout m page frame pageWritable =
      ((ensureDirectory layout m (paeDirectoryIndexOf page)
        (layout.dynamicTable (paeDirectoryIndexOf page)) pageWritable).store
          (layout.dynamicEntry (pageNumber page)) (paeMakeEntry frame 3), true) := by
    unfold paeMapPage
    dsimp only
    rw [if_neg (by rw [pageOffset, frameOffset]; simp),
      if_neg (by rw [inRegion.isDynamic, top]; decide), if_neg (by rw [isDynamic]; simp), table]
    dsimp only
    rw [flags, dynamicTable_word, number]
  have below := inRegion.pageNumber_lt
  have ensured := ensureDirectory_ensured dynamic low high
  rw [value]
  refine ⟨rfl, ensured.outside.trans (.storeEntry below _), ?_, ?_, fun b hb page' other => ?_⟩
  · exact ensured.mapped dynamic below inRegion.directoryIndex
      (paeMakeEntry_present.mpr (by decide))
  · unfold lookup
    dsimp only
    rw [WordMemory.store_same, if_pos (paeMakeEntry_present.mpr (by decide)),
      pteTarget_entry aligned small pageAligned]
  · have apart : pageNumber b ≠ pageNumber page := fun same =>
      other (pageNumber_inj hb inRegion page' pageAligned same)
    unfold lookup
    dsimp only
    rw [WordMemory.store_other (dynamicEntry_inj.not.mpr apart)]
    rcases ensured.entries _ hb.pageNumber_lt with kept | ⟨absent, zero⟩
    · rw [kept]
    · rw [zero, if_neg not_present_zero, if_neg absent]

theorem tableIsEmpty_iff {d : Nat} :
    tableIsEmpty m (layout.dynamicTable d) = true ↔
      ∀ i < 512, ¬ Present (m (layout.dynamicEntry (512 * (d - 384) + i))) := by
  unfold tableIsEmpty paePteEntries
  simp only [List.all_eq_true, List.mem_range, decide_eq_true_eq, dynamicTable_word]

/-- Clearing an entry of a table that keeps another one. -/
theorem DynamicTables.clearEntry (dynamic : DynamicTables layout m) {n : Nat}
    (number : n < 126 * 512)
    (left : ∃ i < 512, Present ((m.store (layout.dynamicEntry n) 0)
      (layout.dynamicEntry (512 * (n / 512) + i)))) :
    DynamicTables layout (m.store (layout.dynamicEntry n) 0) := by
  have directory : ∀ d' < 512, m.store (layout.dynamicEntry n) 0 (layout.kernelDirectoryEntry d') =
      m (layout.kernelDirectoryEntry d') := fun d' below =>
    WordMemory.store_other (layout.entries_ne below number).symm
  refine ⟨fun d' low high pde => ?_, fun k below pte => ?_, fun d' low high pde => ?_⟩
  · rw [directory d' (by omega)] at pde ⊢
    exact dynamic.pde d' low high pde
  · rw [directory _ (by omega)]
    by_cases same : k = n
    · rw [same, WordMemory.store_same] at pte
      exact absurd pte not_present_zero
    · rw [WordMemory.store_other (dynamicEntry_inj.not.mpr same)] at pte
      exact dynamic.backed k below pte
  · by_cases same : d' = 384 + n / 512
    · have position : d' - 384 = n / 512 := by omega
      rw [position]
      exact left
    · rw [directory d' (by omega)] at pde
      obtain ⟨i, small, pte⟩ := dynamic.inhabited d' low high pde
      refine ⟨i, small, ?_⟩
      rwa [WordMemory.store_other (dynamicEntry_inj.not.mpr (by omega))]

/-- Clearing the last entry of a table together with its directory entry. -/
theorem DynamicTables.clearTable (dynamic : DynamicTables layout m) {n : Nat}
    (number : n < 126 * 512)
    (empty : ∀ i < 512, ¬ Present ((m.store (layout.dynamicEntry n) 0)
      (layout.dynamicEntry (512 * (n / 512) + i)))) :
    DynamicTables layout ((m.store (layout.dynamicEntry n) 0).store
      (layout.kernelDirectoryEntry (384 + n / 512)) 0) := by
  have others : ∀ d' < 512, d' ≠ 384 + n / 512 →
      ((m.store (layout.dynamicEntry n) 0).store (layout.kernelDirectoryEntry (384 + n / 512)) 0)
        (layout.kernelDirectoryEntry d') = m (layout.kernelDirectoryEntry d') := by
    intro d' below other
    rw [WordMemory.store_other (kernelDirectoryEntry_inj.not.mpr other),
      WordMemory.store_other (layout.entries_ne below number).symm]
  have entries : ∀ k < 126 * 512,
      ((m.store (layout.dynamicEntry n) 0).store (layout.kernelDirectoryEntry (384 + n / 512)) 0)
        (layout.dynamicEntry k) = m.store (layout.dynamicEntry n) 0 (layout.dynamicEntry k) :=
    fun k below => WordMemory.store_other (layout.entries_ne (by omega) below)
  refine ⟨fun d' low high pde => ?_, fun k below pte => ?_, fun d' low high pde => ?_⟩
  · by_cases same : d' = 384 + n / 512
    · rw [same, WordMemory.store_same] at pde
      exact absurd pde not_present_zero
    · rw [others d' (by omega) same] at pde ⊢
      exact dynamic.pde d' low high pde
  · rw [entries k below] at pte
    by_cases same : k / 512 = n / 512
    · have position : 512 * (n / 512) + k % 512 = k := by omega
      have gone := empty (k % 512) (Nat.mod_lt _ (by decide))
      rw [position] at gone
      exact absurd pte gone
    · rw [others _ (by omega) (by omega)]
      rw [WordMemory.store_other (dynamicEntry_inj.not.mpr (by omega))] at pte
      exact dynamic.backed k below pte
  · by_cases same : d' = 384 + n / 512
    · rw [same, WordMemory.store_same] at pde
      exact absurd pde not_present_zero
    · rw [others d' (by omega) same] at pde
      obtain ⟨i, small, pte⟩ := dynamic.inhabited d' low high pde
      refine ⟨i, small, ?_⟩
      rwa [entries _ (by omega), WordMemory.store_other (dynamicEntry_inj.not.mpr (by omega))]

/-- `pae_unmap_page` of a mapped page removes that page only; the directory
entry goes with the last page of its table. -/
theorem paeUnmapPage_spec (dynamic : DynamicTables layout m) (inRegion : Dynamic page)
    (pageAligned : pageSize ∣ page) (mapped : lookup layout m page ≠ none) :
    Rewritten layout m (paeUnmapPage layout m page) page none := by
  obtain ⟨top, low, high, -, number⟩ := inRegion.indices
  obtain ⟨isDynamic, table⟩ : _ ∧ paePageTableForDirectory layout _ = _ :=
    paePageTableForDirectory_dynamic low high
  have below := inRegion.pageNumber_lt
  have index := inRegion.directoryIndex
  have pte : Present (m (layout.dynamicEntry (pageNumber page))) := by
    by_contra absent
    exact mapped (if_neg absent)
  have pde := dynamic.backed _ below pte
  rw [index] at pde
  have position : paeDirectoryIndexOf page - 384 = pageNumber page / 512 := by omega
  have emptyIff : tableIsEmpty (m.store (layout.dynamicEntry (pageNumber page)) 0)
      (layout.dynamicTable (paeDirectoryIndexOf page)) = true ↔ _ := tableIsEmpty_iff
  rw [position] at emptyIff
  have looked : ∀ m' : WordMemory,
      (∀ k < 126 * 512, m' (layout.dynamicEntry k) =
        m.store (layout.dynamicEntry (pageNumber page)) 0 (layout.dynamicEntry k)) →
      lookup layout m' page = none ∧ ∀ b, Dynamic b → pageSize ∣ b → b ≠ page →
        lookup layout m' b = lookup layout m b := by
    intro m' same
    refine ⟨?_, fun b hb page' other => ?_⟩
    · unfold lookup
      dsimp only
      rw [same _ below, WordMemory.store_same, if_neg not_present_zero]
    · have apart : pageNumber b ≠ pageNumber page := fun equal =>
        other (pageNumber_inj hb inRegion page' pageAligned equal)
      unfold lookup
      dsimp only
      rw [same _ hb.pageNumber_lt, WordMemory.store_other (dynamicEntry_inj.not.mpr apart)]
  unfold paeUnmapPage
  dsimp only
  rw [if_neg (by rw [inRegion.isDynamic, top]; decide), if_neg (by rw [isDynamic]; simp), table]
  dsimp only
  rw [if_neg (not_not.mpr pde), dynamicTable_word, number, if_neg (not_not.mpr pte)]
  unfold paeIsPageTableEmpty
  rw [table]
  dsimp only
  by_cases empty : tableIsEmpty (m.store (layout.dynamicEntry (pageNumber page)) 0)
      (layout.dynamicTable (paeDirectoryIndexOf page)) = true
  · rw [if_pos empty]
    obtain ⟨here, elsewhere⟩ := looked _ fun k small =>
      WordMemory.store_other (layout.entries_ne (d := paeDirectoryIndexOf page) (by omega) small)
    refine ⟨(SameOutside.storeEntry below _).trans (.storeDirectory low high _), ?_, here,
      elsewhere⟩
    have cleared := dynamic.clearTable below (emptyIff.mp empty)
    rwa [index] at cleared
  · rw [if_neg empty]
    obtain ⟨here, elsewhere⟩ := looked _ fun _ _ => rfl
    refine ⟨.storeEntry below _, dynamic.clearEntry below ?_, here, elsewhere⟩
    by_contra none
    push Not at none
    exact empty (emptyIff.mpr none)

end Writes

end Dfos.Paging
