import Dfos.Paging.Tables
import Dfos.Vma.Gap

/-!
# The common paging interface in PAE mode

The part of `kernel/kernel/paging.c` behind `paging_mode == PAGING_MODE_PAE`:
address spaces, the walk through the current space, `paging_init`, and the
kernel page allocator over the PMM and `kernel_vma_tree`.

A panic ends the run, so a function that can panic returns `Except Panic`.
-/

namespace Dfos.Paging

open Dfos.Lib
open Dfos.Pmm
open Dfos.Vma (Vmas VmaOp vmaTreeFindGap)

/-- The panics of the modelled functions. -/
inductive Panic where
  | exceedsDirectMapAperture (physical : Nat)
  | directMapIsMissing (virtualPage : Nat)
  | onUnmappedAddress (virtualAddr : Nat)
  deriving DecidableEq, Repr

/-- `struct paging_space`. -/
structure PagingSpace where
  inUse : Bool
  rootPhysical : Nat
  preferredNumaNode : Nat
  deriving DecidableEq, Repr

/-- The state behind the paging interface.  A `paging_space_t*` is an index
into `paging_spaces`; `kernel_vma_tree` is one of the trees over the node
pool. -/
structure PagingState where
  memory : WordMemory
  pagingSpaces : Nat → PagingSpace
  kernelSpace : Option Nat
  currentSpace : Option Nat
  vmas : Vmas
  pmm : PmmState

/-- The tree of `vmas` that is `kernel_vma_tree`. -/
def kernelVmaTree : Nat := 0

variable (layout : Layout)

/-! ## The direct map and the walk through a space -/

/-- `pae_is_mapped`. -/
def paeIsMapped (m : WordMemory) (virtualAddr : Nat) : Bool :=
  (paeTranslateAddress layout m virtualAddr).isSome

/-- `paging_phys_to_virt`; the pointer is given by the physical address it
points to. -/
def pagingPhysToVirt (m : WordMemory) (physical : Nat) : Except Panic Nat :=
  if kernelDirectMapLimitPhys ≤ physical then .error (.exceedsDirectMapAperture physical)
  else
    let virtualPage := alignDownU32 (kernelVma + physical) pageSize
    if ¬ paeIsMapped layout m virtualPage then .error (.directMapIsMissing virtualPage)
    else .ok physical

/-- `pae_space_pdpt`. -/
def paeSpacePdpt (m : WordMemory) (space : PagingSpace) : Except Panic Nat :=
  pagingPhysToVirt layout m (space.rootPhysical &&& 0xFFFFF000)

/-- `pae_entry_pointer`. -/
def paeEntryPointer (m : WordMemory) (entry : Nat) : Except Panic Nat :=
  pagingPhysToVirt layout m (entry &&& paeEntryAddrMask)

/-- `pae_translate_address_in_space`. -/
def paeTranslateAddressInSpace (m : WordMemory) (space : PagingSpace) (virtualAddr : Nat) :
    Except Panic (Option Nat) := do
  let pdpt ← paeSpacePdpt layout m space
  let pdpte := m (WordMemory.word pdpt (paePdptIndexOf virtualAddr))
  if ¬ Present pdpte then return none
  let directory ← paeEntryPointer layout m pdpte
  let pde := m (WordMemory.word directory (paeDirectoryIndexOf virtualAddr))
  if ¬ Present pde then return none
  if pde &&& paeEntryPageSize ≠ 0 then return some (largeTarget pde virtualAddr)
  let table ← paeEntryPointer layout m pde
  let pte := m (WordMemory.word table (paeTableIndexOf virtualAddr))
  if ¬ Present pte then return none
  return some (pteTarget pte virtualAddr)

/-- `paging_translate_address`. -/
def pagingTranslateAddress (s : PagingState) (virtualAddr : Nat) : Except Panic (Option Nat) :=
  match s.currentSpace with
  | some space => paeTranslateAddressInSpace layout s.memory (s.pagingSpaces space) virtualAddr
  | none => .ok (paeTranslateAddress layout s.memory virtualAddr)

/-- `paging_virt_to_phys`. -/
def pagingVirtToPhys (s : PagingState) (virtualAddr : Nat) : Except Panic Nat := do
  match ← pagingTranslateAddress layout s virtualAddr with
  | none => .error (.onUnmappedAddress virtualAddr)
  | some physical => return physical

/-! ## Mapping single pages -/

/-- `paging_map_page`. -/
def pagingMapPage (s : PagingState) (address physicalAddr flags : Nat) : PagingState × Bool :=
  if address < kernelVma then (s, false)
  else if flags &&& pageUser ≠ 0 then (s, false)
  else
    let (memory, mapped) := paeMapPage layout s.memory address physicalAddr flags
    ({ s with memory := memory }, mapped)

/-- `paging_unmap_page`. -/
def pagingUnmapPage (s : PagingState) (address : Nat) : PagingState :=
  if address < kernelVma then s
  else { s with memory := paeUnmapPage layout s.memory address }

/-! ## Initialisation -/

/-- `paging_init` on a CPU with PAE.  `pae_activate_runtime` loads CR3 with the
address of `pae_pdpt`, and the root of the kernel space is that register with
its low twelve bits cleared. -/
def pagingInit (memory : WordMemory) (pmm : PmmState) : PagingState :=
  let memory := paePrepareBootstrapTables layout memory
  let cr3 := layout.pdpt
  let memory := pagingApplyKernelProtections layout memory
  { memory := memory
    pagingSpaces := fun i =>
      if i = 0 then
        { inUse := true, rootPhysical := cr3 &&& 0xFFFFF000,
          preferredNumaNode := pmmNumaNodeAny }
      else { inUse := false, rootPhysical := 0, preferredNumaNode := 0 }
    kernelSpace := some 0
    currentSpace := some 0
    vmas := Vmas.init
    pmm := pmm }

/-! ## The kernel page allocator -/

/-- The body shared by the rollback and by `paging_free_pages`: the frame is
found by walking the tables, given back, and the page is unmapped. -/
def releasePage (s : PagingState) (virtualPage : Nat) : Except Panic PagingState := do
  match ← pagingTranslateAddress layout s virtualPage with
  | none => return s
  | some frame =>
      return pagingUnmapPage layout { s with pmm := pmmFreeFrame s.pmm frame } virtualPage

/-- The rollback loop; `mapped_pages` counts down. -/
def rollback (baseVirtual : Nat) : (mappedPages : Nat) → PagingState → Except Panic PagingState
  | 0, s => .ok s
  | mappedPages + 1, s => do
      let s ← releasePage layout s (baseVirtual + mappedPages * pageSize)
      rollback baseVirtual mappedPages s

/-- The allocation loop from page `i` on, with `left` pages to go.  Returns the
state, `mapped_pages` and whether every page was mapped. -/
def mapLoop (preferredNumaNode baseVirtual : Nat) :
    (left i : Nat) → PagingState → PagingState × Nat × Bool
  | 0, i, s => (s, i, true)
  | left + 1, i, s =>
      match pmmAllocFrameOnNode s.pmm preferredNumaNode with
      | (pmm, none) => ({ s with pmm := pmm }, i, false)
      | (pmm, some frame) =>
          let virtualPage := baseVirtual + i * pageSize
          let (mappedState, mapped) :=
            pagingMapPage layout { s with pmm := pmm } virtualPage frame pageWritable
          if mapped then mapLoop preferredNumaNode baseVirtual left (i + 1) mappedState
          else ({ mappedState with pmm := pmmFreeFrame mappedState.pmm frame }, i, false)

/-- `paging_alloc_pages_on_node` once the gap is found. -/
def allocAt (s : PagingState) (pageCount preferredNumaNode baseVirtual : Nat) :
    Except Panic (PagingState × Option Nat) := do
  let (s, mappedPages, complete) := mapLoop layout preferredNumaNode baseVirtual pageCount 0 s
  if ¬ complete then
    return (← rollback layout baseVirtual mappedPages s, none)
  let (vmas, inserted) := s.vmas.exec
    (.insert kernelVmaTree baseVirtual (baseVirtual + pageCount * pageSize) 0)
  let s := { s with vmas := vmas }
  if inserted then return (s, some baseVirtual)
  return (← rollback layout baseVirtual mappedPages s, none)

/-- `paging_alloc_pages_on_node`.  `base_virtual + i * PAGE_SIZE` stays below
the dynamic limit, so the 32-bit sums of the source do not wrap. -/
def pagingAllocPagesOnNode (s : PagingState) (pageCount preferredNumaNode : Nat) :
    Except Panic (PagingState × Option Nat) :=
  if pageCount = 0 ∨ ¬ s.pmm.initialized then .ok (s, none)
  else
    let span := pageCount * pageSize
    if span = 0 ∨ kernelDynamicLimit - kernelDynamicBase < span then .ok (s, none)
    else
      match vmaTreeFindGap (s.vmas.trees kernelVmaTree) kernelDynamicBase kernelDynamicLimit
        span pageSize with
      | none => .ok (s, none)
      | some baseVirtual => allocAt layout s pageCount preferredNumaNode baseVirtual

/-- The loop of `paging_free_pages`. -/
def freePagesLoop (baseVirtual : Nat) :
    (left i : Nat) → PagingState → Except Panic PagingState
  | 0, _, s => .ok s
  | left + 1, i, s => do
      let s ← releasePage layout s (baseVirtual + i * pageSize)
      freePagesLoop baseVirtual left (i + 1) s

/-- `paging_free_pages`. -/
def pagingFreePages (s : PagingState) (base pageCount : Nat) : Except Panic PagingState :=
  if base = 0 ∨ pageCount = 0 then .ok s
  else
    let endVirtual := base + pageCount * pageSize
    if 0xFFFFFFFF < endVirtual then .ok s
    else
      let (vmas, _) := s.vmas.exec (.remove kernelVmaTree base endVirtual)
      freePagesLoop layout base pageCount 0 { s with vmas := vmas }

end Dfos.Paging
