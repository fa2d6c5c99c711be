import Dfos.Paging.Kernel

/-!
# Process spaces in PAE mode

A process space is a PDPT in a frame of its own.  Its fourth entry is the
kernel's directory, the other three lead to directories and tables that are made
when a page is mapped and given back when their last page goes.  Mapping and
destroying walk these tables through the direct map.

Where a function calls `pmm_free_frame` it also returns the addresses it passed,
in order.
-/

namespace Dfos.Paging

open Dfos.Lib
open Dfos.Pmm

/-- `PAGING_USER_BASE`. -/
def pagingUserBase : Nat := 0x00400000

/-- `PAGING_USER_LIMIT`. -/
def pagingUserLimit : Nat := kernelVma

/-- `PAGING_MAX_SPACES`. -/
def pagingMaxSpaces : Nat := 32

/-- `paging_address_is_user`. -/
def pagingAddressIsUser (virtualAddr : Nat) : Bool :=
  pagingUserBase ≤ virtualAddr && virtualAddr < pagingUserLimit

/-- `pae_table_has_present_entries`. -/
def paeTableHasPresentEntries (m : WordMemory) (table entryCount : Nat) : Bool :=
  (List.range entryCount).any fun i => Present (m (WordMemory.word table i))

/-- The flags of an entry that leads to a user table. -/
def userTableFlags : Nat := paeEntryPresent ||| paeEntryWritable ||| paeEntryUser

variable (layout : Layout)

namespace PagingState

/-! ## Records -/

/-- The search of `paging_allocate_space_record`. -/
def freeSpaceRecord (s : PagingState) : Option Nat :=
  (List.range pagingMaxSpaces).find? fun i => !(s.pagingSpaces i).inUse

def setSpace (s : PagingState) (space : Nat) (record : PagingSpace) : PagingState :=
  { s with pagingSpaces := fun i => if i = space then record else s.pagingSpaces i }

/-- `paging_release_space_record`. -/
def pagingReleaseSpaceRecord (s : PagingState) (space : Nat) : PagingState :=
  s.setSpace space { inUse := false, rootPhysical := 0, preferredNumaNode := pmmNumaNodeAny }

/-- `paging_switch_space`, as far as it shows outside the register. -/
def pagingSwitchSpace (s : PagingState) : Option Nat → PagingState
  | none => s
  | some space =>
    if (s.pagingSpaces space).inUse = false ∨ s.currentSpace = some space then s
    else { s with currentSpace := some space }

/-! ## Creating a space -/

/-- `pae_create_process_space`. -/
def paeCreateProcessSpace (s : PagingState) (preferredNumaNode : Nat) :
    Except Panic (PagingState × Option Nat) :=
  match pmmAllocFrameOnNode s.pmm preferredNumaNode with
  | (pmm, none) => .ok ({ s with pmm := pmm }, none)
  | (pmm, some pdptPhysical) => do
    let s := { s with pmm := pmm }
    let pdpt ← pagingPhysToVirt layout s.memory (pdptPhysical &&& 0xFFFFF000)
    let memory := (s.memory.fill pdpt (fun _ => 0) paePteEntries).store
      (WordMemory.word pdpt paePdptEntryKernel)
      (paeMakeEntry layout.kernelDirectory paeEntryPresent)
    let s := { s with memory := memory }
    match s.freeSpaceRecord with
    | none => return ({ s with pmm := pmmFreeFrame s.pmm pdptPhysical }, none)
    | some space =>
      return (s.setSpace space
        { inUse := true, rootPhysical := pdptPhysical &&& 0xFFFFF000,
          preferredNumaNode := preferredNumaNode }, some space)

/-- `paging_create_process_space_on_node`. -/
def pagingCreateProcessSpaceOnNode (s : PagingState) (preferredNumaNode : Nat) :
    Except Panic (PagingState × Option Nat) :=
  if s.pmm.initialized = false then .ok (s, none)
  else if s.kernelSpace = none then .ok (s, none)
  else s.paeCreateProcessSpace layout preferredNumaNode

/-! ## Mapping a page -/

/-- One level of `pae_map_user_page_in_space`: the table the entry at
`entryAddress` leads to, a new one if there is none.  A directory and a page
table are both 512 entries. -/
def userTable (s : PagingState) (preferredNumaNode entryAddress : Nat) :
    Except Panic (PagingState × Option Nat) :=
  let entry := s.memory entryAddress
  if ¬ Present entry then
    match pmmAllocFrameOnNode s.pmm preferredNumaNode with
    | (pmm, none) => .ok ({ s with pmm := pmm }, none)
    | (pmm, some physical) => do
      let table ← pagingPhysToVirt layout s.memory physical
      let memory := (s.memory.fill table (fun _ => 0) paePteEntries).store entryAddress
        (paeMakeEntry physical userTableFlags)
      return ({ s with pmm := pmm, memory := memory }, some table)
  else do
    let entry := if entry &&& paeEntryUser = 0 then entry ||| (paeEntryUser ||| paeEntryWritable)
      else entry
    let memory := if s.memory entryAddress &&& paeEntryUser = 0 then
      s.memory.store entryAddress entry else s.memory
    let table ← paeEntryPointer layout memory entry
    return ({ s with memory := memory }, some table)

/-- `pae_map_user_page_in_space`. -/
def paeMapUserPageInSpace (s : PagingState) (space virtualAddr physicalAddr flags : Nat) :
    Except Panic (PagingState × Bool) := do
  let preferredNumaNode := (s.pagingSpaces space).preferredNumaNode
  let pdpt ← paeSpacePdpt layout s.memory (s.pagingSpaces space)
  match ← s.userTable layout preferredNumaNode
      (WordMemory.word pdpt (paePdptIndexOf virtualAddr)) with
  | (s, none) => return (s, false)
  | (s, some directory) =>
    match ← s.userTable layout preferredNumaNode
        (WordMemory.word directory (paeDirectoryIndexOf virtualAddr)) with
    | (s, none) => return (s, false)
    | (s, some table) =>
      let memory := s.memory.store (WordMemory.word table (paeTableIndexOf virtualAddr))
        (paeMakeEntry physicalAddr (paeEntryPresent ||| paeEntryUser ||| (flags &&& 0xFFF)))
      return ({ s with memory := memory }, true)

/-- `paging_map_user_page`. -/
def pagingMapUserPage (s : PagingState) (space address physicalAddr flags : Nat) :
    Except Panic (PagingState × Bool) :=
  if (s.pagingSpaces space).inUse = false then .ok (s, false)
  else if pagingAddressIsUser address = false then .ok (s, false)
  else if address &&& 0xFFF ≠ 0 ∨ physicalAddr &&& 0xFFF ≠ 0 then .ok (s, false)
  else s.paeMapUserPageInSpace layout space address physicalAddr (flags ||| pageUser)

/-! ## Unmapping a page -/

/-- `pae_unmap_user_page_in_space`. -/
def paeUnmapUserPageInSpace (s : PagingState) (space virtualAddr : Nat) :
    Except Panic (PagingState × List Nat) := do
  let pdpt ← paeSpacePdpt layout s.memory (s.pagingSpaces space)
  let pdpteAddress := WordMemory.word pdpt (paePdptIndexOf virtualAddr)
  let pdpte := s.memory pdpteAddress
  if ¬ Present pdpte then return (s, [])
  let directory ← paeEntryPointer layout s.memory pdpte
  let pdeAddress := WordMemory.word directory (paeDirectoryIndexOf virtualAddr)
  let pde := s.memory pdeAddress
  if ¬ Present pde ∨ pde &&& paeEntryPageSize ≠ 0 then return (s, [])
  let table ← paeEntryPointer layout s.memory pde
  let pteAddress := WordMemory.word table (paeTableIndexOf virtualAddr)
  if ¬ Present (s.memory pteAddress) then return (s, [])
  let memory := s.memory.store pteAddress 0
  if paeTableHasPresentEntries memory table paePteEntries then
    return ({ s with memory := memory }, [])
  let memory := memory.store pdeAddress 0
  let pmm := pmmFreeFrame s.pmm (pde &&& paeEntryAddrMask)
  if paeTableHasPresentEntries memory directory paePdeEntries then
    return ({ s with memory := memory, pmm := pmm }, [pde &&& paeEntryAddrMask])
  let memory := memory.store pdpteAddress 0
  let pmm := pmmFreeFrame pmm (pdpte &&& paeEntryAddrMask)
  return ({ s with memory := memory, pmm := pmm },
    [pde &&& paeEntryAddrMask, pdpte &&& paeEntryAddrMask])

/-- `paging_unmap_user_page`. -/
def pagingUnmapUserPage (s : PagingState) (space address : Nat) :
    Except Panic (PagingState × List Nat) :=
  if (s.pagingSpaces space).inUse = false then .ok (s, [])
  else if pagingAddressIsUser address = false then .ok (s, [])
  else s.paeUnmapUserPageInSpace layout space address

/-! ## Destroying a space -/

/-- The loop `for (i = 0; i < n; i++)` of a body that frees frames: what all the
rounds free, in order. -/
def collectFrees (body : Nat → Except Panic (List Nat)) : List Nat → Except Panic (List Nat)
  | [] => .ok []
  | i :: rest => do
    let first ← body i
    let later ← collectFrees body rest
    return first ++ later

/-- The loop over a page table. -/
def tableFrees (m : WordMemory) (table : Nat) : List Nat :=
  (List.range paePteEntries).filterMap fun i =>
    let pte := m (WordMemory.word table i)
    if Present pte then some (pte &&& paeEntryAddrMask) else none

/-- One round of the loop over a directory. -/
def directoryEntryFrees (m : WordMemory) (directory i : Nat) : Except Panic (List Nat) := do
  let pde := m (WordMemory.word directory i)
  if ¬ Present pde ∨ pde &&& paeEntryPageSize ≠ 0 then return []
  let table ← paeEntryPointer layout m pde
  return tableFrees m table ++ [pde &&& paeEntryAddrMask]

/-- One round of the loop over the PDPT. -/
def pdptEntryFrees (m : WordMemory) (pdpt i : Nat) : Except Panic (List Nat) := do
  let pdpte := m (WordMemory.word pdpt i)
  if ¬ Present pdpte then return []
  let directory ← paeEntryPointer layout m pdpte
  let freed ← collectFrees (directoryEntryFrees layout m directory) (List.range paePdeEntries)
  return freed ++ [pdpte &&& paeEntryAddrMask]

/-- `pae_destroy_process_space`.  The loops read the tables and only write to the
PMM, so the frames are collected first and freed in the same order. -/
def paeDestroyProcessSpace (s : PagingState) (space : Nat) :
    Except Panic (PagingState × List Nat) := do
  let pdpt ← paeSpacePdpt layout s.memory (s.pagingSpaces space)
  let freed ← collectFrees (pdptEntryFrees layout s.memory pdpt) (List.range paePdptEntryKernel)
  let freed := freed ++ [(s.pagingSpaces space).rootPhysical &&& 0xFFFFF000]
  return ({ s with pmm := freed.foldl pmmFreeFrame s.pmm }, freed)

/-- `paging_destroy_process_space`. -/
def pagingDestroyProcessSpace (s : PagingState) (space : Nat) :
    Except Panic (PagingState × List Nat) :=
  if (s.pagingSpaces space).inUse = false ∨ s.kernelSpace = some space then .ok (s, [])
  else do
    let s := if s.currentSpace = some space then s.pagingSwitchSpace s.kernelSpace else s
    let (s, freed) ← s.paeDestroyProcessSpace layout space
    return (s.pagingReleaseSpaceRecord space, freed)

/-- `paging_lookup_physical`. -/
def pagingLookupPhysical (s : PagingState) (space virtualAddr : Nat) :
    Except Panic (Option Nat) :=
  paeTranslateAddressInSpace layout s.memory (s.pagingSpaces space) virtualAddr

end PagingState

end Dfos.Paging
