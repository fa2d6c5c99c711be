import Dfos.Lib.Word
import Dfos.Lib.WordMemory
import Dfos.Pmm.Frames

/-!
# PAE page tables

The PAE half of `kernel/kernel/paging.c` up to the common interface: entries,
the static tables of the kernel half, the table walk over them, and mapping and
unmapping in the dynamic region.

The static arrays lie in physical memory where the linker put them, so a walk
that starts from a `root_physical` and one that starts from the C arrays read
the same words.  A pointer into the direct map is given by the physical address
it points to.
-/

namespace Dfos.Paging

open Dfos.Lib
open Dfos.Pmm (pageSize)

/-! ## Constants -/

/-- `KERNEL_VMA`. -/
def kernelVma : Nat := 0xC0000000

/-- `BOOTSTRAP_WINDOW_SIZE`. -/
def bootstrapWindowSize : Nat := 0x400000

/-- `KERNEL_DIRECT_MAP_LIMIT_PHYS`. -/
def kernelDirectMapLimitPhys : Nat := 0x10000000

/-- `KERNEL_DYNAMIC_BASE`. -/
def kernelDynamicBase : Nat := 0xF0000000

/-- `KERNEL_DYNAMIC_LIMIT`. -/
def kernelDynamicLimit : Nat := 0xFFC00000

/-- `PAGE_WRITABLE`. -/
def pageWritable : Nat := 0x002

/-- `PAGE_USER`. -/
def pageUser : Nat := 0x004

/-- `PAE_PDPT_ENTRIES`. -/
def paePdptEntries : Nat := 4

/-- `PAE_PDE_ENTRIES`. -/
def paePdeEntries : Nat := 512

/-- `PAE_PTE_ENTRIES`. -/
def paePteEntries : Nat := 512

/-- `PAE_PDPT_ENTRY_LOW`. -/
def paePdptEntryLow : Nat := 0

/-- `PAE_PDPT_ENTRY_KERNEL`. -/
def paePdptEntryKernel : Nat := 3

/-- `PAE_DIRECT_MAP_PDE_COUNT`. -/
def paeDirectMapPdeCount : Nat := kernelDirectMapLimitPhys / (paePteEntries * pageSize)

/-- `PAE_DYNAMIC_PDE_START`. -/
def paeDynamicPdeStart : Nat := (kernelDynamicBase - kernelVma) / (paePteEntries * pageSize)

/-- `PAE_DYNAMIC_PDE_END`. -/
def paeDynamicPdeEnd : Nat := (kernelDynamicLimit - kernelVma) / (paePteEntries * pageSize)

/-- `PAE_DYNAMIC_PDE_COUNT`. -/
def paeDynamicPdeCount : Nat := paeDynamicPdeEnd - paeDynamicPdeStart

/-- `PAE_ENTRY_PRESENT`. -/
def paeEntryPresent : Nat := 0x001

/-- `PAE_ENTRY_WRITABLE`. -/
def paeEntryWritable : Nat := 0x002

/-- `PAE_ENTRY_USER`. -/
def paeEntryUser : Nat := 0x004

/-- `PAE_ENTRY_PAGE_SIZE`. -/
def paeEntryPageSize : Nat := 0x080

/-- `PAE_ENTRY_ADDR_MASK`. -/
def paeEntryAddrMask : Nat := 0xFFFFF000

/-! ## Placement of the static tables -/

/-- Two byte ranges `(start, size)` that do not meet. -/
def Apart (a b : Nat × Nat) : Prop := a.1 + a.2 ≤ b.1 ∨ b.1 + b.2 ≤ a.1

instance : DecidableRel Apart := fun _ _ => inferInstanceAs (Decidable (_ ∨ _))

/-- Where the linker puts the static tables (physical addresses) and the
protected sections (virtual addresses): aligned as declared, apart from each
other, and inside the bootstrap window. -/
structure Layout where
  pdpt : Nat
  identityDirectory : Nat
  identityTables : Nat
  kernelDirectory : Nat
  directMapTables : Nat
  dynamicTables : Nat
  textStart : Nat
  textEnd : Nat
  rodataStart : Nat
  rodataEnd : Nat
  pdpt_aligned : 32 ∣ pdpt
  identityDirectory_aligned : pageSize ∣ identityDirectory
  identityTables_aligned : pageSize ∣ identityTables
  kernelDirectory_aligned : pageSize ∣ kernelDirectory
  directMapTables_aligned : pageSize ∣ directMapTables
  dynamicTables_aligned : pageSize ∣ dynamicTables
  apart : [(pdpt, 8 * paePdptEntries), (identityDirectory, pageSize),
    (identityTables, 2 * pageSize), (kernelDirectory, pageSize),
    (directMapTables, paeDirectMapPdeCount * pageSize),
    (dynamicTables, paeDynamicPdeCount * pageSize)].Pairwise Apart
  inside : ∀ r ∈ [(pdpt, 8 * paePdptEntries), (identityDirectory, pageSize),
    (identityTables, 2 * pageSize), (kernelDirectory, pageSize),
    (directMapTables, paeDirectMapPdeCount * pageSize),
    (dynamicTables, paeDynamicPdeCount * pageSize)], r.1 + r.2 ≤ bootstrapWindowSize
  text_inside : kernelVma ≤ textStart ∧ textEnd ≤ kernelVma + bootstrapWindowSize
  rodata_inside : kernelVma ≤ rodataStart ∧ rodataEnd ≤ kernelVma + bootstrapWindowSize

/-! ## Entries and indices -/

/-- `pae_make_entry`. -/
def paeMakeEntry (physical flags : Nat) : Nat := (physical &&& paeEntryAddrMask) ||| flags

/-- The test `(entry & PAE_ENTRY_PRESENT) != 0`. -/
def Present (entry : Nat) : Prop := entry &&& paeEntryPresent ≠ 0

instance (entry : Nat) : Decidable (Present entry) := inferInstanceAs (Decidable (_ ≠ _))

/-- `pae_pdpt_index_of`. -/
def paePdptIndexOf (virtualAddr : Nat) : Nat := virtualAddr >>> 30

/-- `pae_directory_index_of`. -/
def paeDirectoryIndexOf (virtualAddr : Nat) : Nat := (virtualAddr >>> 21) &&& 0x1FF

/-- `pae_table_index_of`. -/
def paeTableIndexOf (virtualAddr : Nat) : Nat := (virtualAddr >>> 12) &&& 0x1FF

/-- `pae_address_is_dynamic`. -/
def paeAddressIsDynamic (virtualAddr : Nat) : Bool :=
  kernelDynamicBase ≤ virtualAddr && virtualAddr < kernelDynamicLimit

/-- `pae_directory_is_dynamic`. -/
def paeDirectoryIsDynamic (directoryIndex : Nat) : Bool :=
  paeDynamicPdeStart ≤ directoryIndex && directoryIndex < paeDynamicPdeEnd

/-- `align_down_u32`. -/
def alignDownU32 (value alignment : Nat) : Nat := value / alignment * alignment

/-- `align_up_u32` of `paging.c`, which wraps at 32 bits. -/
def alignUpU32 (value alignment : Nat) : Nat :=
  u32Add value (alignment - 1) / alignment * alignment

variable (layout : Layout)

/-- The address of `pae_kernel_page_directory[i]`. -/
def Layout.kernelDirectoryEntry (i : Nat) : Nat := WordMemory.word layout.kernelDirectory i

/-- The address of `pae_direct_map_page_tables[pde]`. -/
def Layout.directMapTable (pde : Nat) : Nat := layout.directMapTables + pageSize * pde

/-- The address of `pae_dynamic_page_tables[pde - PAE_DYNAMIC_PDE_START]`. -/
def Layout.dynamicTable (pde : Nat) : Nat :=
  layout.dynamicTables + pageSize * (pde - paeDynamicPdeStart)

/-- `pae_page_table_for_directory`. -/
def paePageTableForDirectory (directoryIndex : Nat) : Option Nat :=
  if directoryIndex < paeDirectMapPdeCount then some (layout.directMapTable directoryIndex)
  else if paeDirectoryIsDynamic directoryIndex then some (layout.dynamicTable directoryIndex)
  else none

/-- The loop of `pae_is_page_table_empty` over the table it found. -/
def tableIsEmpty (m : WordMemory) (table : Nat) : Bool :=
  (List.range paePteEntries).all fun i => ¬ Present (m (WordMemory.word table i))

/-- `pae_is_page_table_empty`. -/
def paeIsPageTableEmpty (m : WordMemory) (directoryIndex : Nat) : Bool :=
  match paePageTableForDirectory layout directoryIndex with
  | none => true
  | some table => tableIsEmpty m table

/-! ## Building the bootstrap tables -/

/-- The loop over `pde` with a table of its own for each. -/
def fillTables (base : Nat) (f : Nat → Nat → Nat) : Nat → WordMemory → WordMemory
  | 0, m => m
  | n + 1, m =>
      (fillTables base f n m).fill (base + pageSize * n) (f n) paePteEntries

/-- The two identity-mapped tables and their directory entries. -/
def prepareIdentity (m : WordMemory) : WordMemory :=
  let m := fillTables layout.identityTables (fun table entry =>
    paeMakeEntry ((table * paePteEntries + entry) * pageSize)
      (paeEntryPresent ||| paeEntryWritable)) 2 m
  m.fill layout.identityDirectory (fun table =>
    paeMakeEntry (layout.identityTables + pageSize * table)
      (paeEntryPresent ||| paeEntryWritable)) 2

/-- The direct map: every directory entry and every table of it. -/
def prepareDirectMap (m : WordMemory) : WordMemory :=
  let m := m.fill layout.kernelDirectory (fun pde =>
    paeMakeEntry (layout.directMapTable pde) (paeEntryPresent ||| paeEntryWritable))
    paeDirectMapPdeCount
  fillTables layout.directMapTables (fun pde pte =>
    paeMakeEntry (pde * paePteEntries * pageSize + pte * pageSize)
      (paeEntryPresent ||| paeEntryWritable)) paeDirectMapPdeCount m

/-- `pae_prepare_bootstrap_tables`.  The source writes a directory entry and
its table in one loop; the two are separate arrays and the order of the writes
does not show. -/
def paePrepareBootstrapTables (m : WordMemory) : WordMemory :=
  let m := m.fill layout.pdpt (fun _ => 0) paePdptEntries
  let m := m.fill layout.identityDirectory (fun _ => 0) paePdeEntries
  let m := m.fill layout.kernelDirectory (fun _ => 0) paePdeEntries
  let m := fillTables layout.directMapTables (fun _ _ => 0) paeDirectMapPdeCount m
  let m := fillTables layout.dynamicTables (fun _ _ => 0) paeDynamicPdeCount m
  let m := prepareIdentity layout m
  let m := prepareDirectMap layout m
  let m := m.store (WordMemory.word layout.pdpt paePdptEntryLow)
    (paeMakeEntry layout.identityDirectory paeEntryPresent)
  m.store (WordMemory.word layout.pdpt paePdptEntryKernel)
    (paeMakeEntry layout.kernelDirectory paeEntryPresent)

/-! ## The walk over the static tables -/

/-- The physical address a present page-table entry gives. -/
def pteTarget (pte virtualAddr : Nat) : Nat :=
  (pte &&& paeEntryAddrMask) ||| (virtualAddr &&& 0xFFF)

/-- The physical address a large-page directory entry gives. -/
def largeTarget (pde virtualAddr : Nat) : Nat :=
  (pde &&& 0xFFE00000) ||| (virtualAddr &&& 0x1FFFFF)

/-- `pae_translate_address`. -/
def paeTranslateAddress (m : WordMemory) (virtualAddr : Nat) : Option Nat :=
  let directoryIndex := paeDirectoryIndexOf virtualAddr
  let tableIndex := paeTableIndexOf virtualAddr
  let pdptIndex := paePdptIndexOf virtualAddr
  if ¬ Present (m (WordMemory.word layout.pdpt pdptIndex)) then none
  else if pdptIndex = paePdptEntryKernel then
    let pde := m (layout.kernelDirectoryEntry directoryIndex)
    if ¬ Present pde then none
    else if pde &&& paeEntryPageSize ≠ 0 then some (largeTarget pde virtualAddr)
    else
      match paePageTableForDirectory layout directoryIndex with
      | none => none
      | some table =>
          let pte := m (WordMemory.word table tableIndex)
          if Present pte then some (pteTarget pte virtualAddr) else none
  else if pdptIndex = paePdptEntryLow then
    if 2 ≤ directoryIndex then none
    else if ¬ Present (m (WordMemory.word layout.identityDirectory directoryIndex)) then none
    else
      let pte := m (WordMemory.word (layout.identityTables + pageSize * directoryIndex) tableIndex)
      if Present pte then some (pteTarget pte virtualAddr) else none
  else none

/-! ## Mapping and unmapping in the dynamic region -/

/-- The directory entry `pae_map_page` leaves for a table, and the table
cleared when there was none. -/
def ensureDirectory (m : WordMemory) (directoryIndex table flags : Nat) : WordMemory :=
  let entry := layout.kernelDirectoryEntry directoryIndex
  let pde := m entry
  if ¬ Present pde then
    (m.fill table (fun _ => 0) paePteEntries).store entry
      (paeMakeEntry table (paeEntryPresent ||| paeEntryWritable |||
        (if flags &&& pageUser ≠ 0 then paeEntryUser else 0)))
  else if flags &&& pageUser ≠ 0 ∧ pde &&& paeEntryUser = 0 then
    m.store entry (pde ||| paeEntryUser ||| paeEntryWritable)
  else m

/-- `pae_map_page`; `paging_invalidate_page` has no effect on the tables. -/
def paeMapPage (m : WordMemory) (address physicalAddr flags : Nat) : WordMemory × Bool :=
  let directoryIndex := paeDirectoryIndexOf address
  let tableIndex := paeTableIndexOf address
  if address &&& 0xFFF ≠ 0 ∨ physicalAddr &&& 0xFFF ≠ 0 then (m, false)
  else if ¬ paeAddressIsDynamic address ∨ paePdptIndexOf address ≠ paePdptEntryKernel then
    (m, false)
  else if ¬ paeDirectoryIsDynamic directoryIndex then (m, false)
  else
    match paePageTableForDirectory layout directoryIndex with
    | none => (m, false)
    | some table =>
        ((ensureDirectory layout m directoryIndex table flags).store
          (WordMemory.word table tableIndex)
          (paeMakeEntry physicalAddr (paeEntryPresent ||| (flags &&& 0xFFF))), true)

/-- `pae_unmap_page`. -/
def paeUnmapPage (m : WordMemory) (address : Nat) : WordMemory :=
  let directoryIndex := paeDirectoryIndexOf address
  let tableIndex := paeTableIndexOf address
  if ¬ paeAddressIsDynamic address ∨ paePdptIndexOf address ≠ paePdptEntryKernel then m
  else if ¬ paeDirectoryIsDynamic directoryIndex then m
  else
    match paePageTableForDirectory layout directoryIndex with
    | none => m
    | some table =>
        if ¬ Present (m (layout.kernelDirectoryEntry directoryIndex)) then m
        else if ¬ Present (m (WordMemory.word table tableIndex)) then m
        else
          let m := m.store (WordMemory.word table tableIndex) 0
          if paeIsPageTableEmpty layout m directoryIndex then
            m.store (layout.kernelDirectoryEntry directoryIndex) 0
          else m

/-! ## Write protection -/

/-- One page of `pae_protect_range`. -/
def protectPage (m : WordMemory) (address : Nat) : WordMemory :=
  let directoryIndex := paeDirectoryIndexOf address
  if paePdptIndexOf address ≠ paePdptEntryKernel then m
  else if ¬ Present (m (layout.kernelDirectoryEntry directoryIndex)) then m
  else
    match paePageTableForDirectory layout directoryIndex with
    | none => m
    | some table =>
        let entry := WordMemory.word table (paeTableIndexOf address)
        if ¬ Present (m entry) then m
        -- `pte & ~PAE_ENTRY_WRITABLE` in 64 bits
        else m.store entry (m entry &&& 0xFFFFFFFFFFFFFFFD)

/-- The loop of `pae_protect_range`, `left` pages from `address` on. -/
def protectLoop : (left address : Nat) → WordMemory → WordMemory
  | 0, _, m => m
  | left + 1, address, m =>
      protectLoop left (address + pageSize) (protectPage layout m address)

/-- `pae_protect_range`. -/
def paeProtectRange (m : WordMemory) (start stop : Nat) : WordMemory :=
  if stop ≤ start then m
  else
    let alignedStart := alignDownU32 start pageSize
    let alignedEnd := alignUpU32 stop pageSize
    protectLoop layout ((alignedEnd - alignedStart) / pageSize) alignedStart m

/-- The PAE branch of `paging_apply_kernel_protections`. -/
def pagingApplyKernelProtections (m : WordMemory) : WordMemory :=
  let m := paeProtectRange layout m layout.textStart layout.textEnd
  paeProtectRange layout m layout.rodataStart layout.rodataEnd

end Dfos.Paging
