import Dfos.Lib.ByteMemory
import Dfos.Pmm.Init

/-!
# The boot handoff

A model of `bootinfo.c` for a loader that passed the multiboot magic.  The
accessors read the loader's structures in physical memory each time they are
called, through the direct map: an address at or past its end makes
`paging_phys_to_virt` panic, and a structure that reaches past the end faults.
-/

namespace Dfos.Boot

open Dfos.Lib Dfos.Pmm

/-- `KERNEL_DIRECT_MAP_LIMIT_PHYS`. -/
def directMapLimitPhys : Nat := 0x10000000

def multibootInfoMemory : Nat := 1 <<< 0
def multibootInfoModules : Nat := 1 <<< 3
def multibootInfoMemMap : Nat := 1 <<< 6

/-- `sizeof(multiboot_info_t)`. -/
def multibootInfoSize : Nat := 88

/-- `sizeof(multiboot_memory_map_t)`. -/
def multibootMemoryMapSize : Nat := 24

/-- `sizeof(multiboot_module_t)`. -/
def multibootModuleSize : Nat := 16

/-- Where the loader put `multiboot_info_t` and where the linker put the kernel. -/
structure Handoff where
  infoPhys : Nat
  kernelStartPhys : Nat
  kernelEndPhys : Nat
  deriving Repr, DecidableEq

/-- Reading `size` bytes at `phys` through `paging_phys_to_virt` in PAE mode, in
which all of the direct map is mapped. -/
def throughDirectMap (phys size : Nat) : Except String Unit :=
  if directMapLimitPhys ≤ phys then .error "physical address exceeds direct-map aperture"
  else if directMapLimitPhys < phys + size then .error "page fault past the direct map"
  else .ok ()

/-! ## The info structure -/

section Fields

variable (m : ByteMemory) (info : Nat)

def flags : Nat := m.u32 info
def memUpper : Nat := m.u32 (info + 8)
def modsCount : Nat := m.u32 (info + 20)
def modsAddr : Nat := m.u32 (info + 24)
def mmapLength : Nat := m.u32 (info + 44)
def mmapAddr : Nat := m.u32 (info + 48)

/-- The bytes of `multiboot_info_t` up to the last field that is read. -/
def infoFieldsSize : Nat := 52

/-- `bootinfo_has_memory_map`. -/
def bootinfoHasMemoryMap : Bool :=
  decide (flags m info &&& multibootInfoMemMap ≠ 0) && decide (0 < mmapLength m info)

/-- `bootinfo_memory_map_phys`. -/
def bootinfoMemoryMapPhys : Nat :=
  if bootinfoHasMemoryMap m info then mmapAddr m info else 0

/-- `bootinfo_memory_map_size`. -/
def bootinfoMemoryMapSize : Nat :=
  if bootinfoHasMemoryMap m info then mmapLength m info else 0

/-- `bootinfo_has_memory_kib_info`. -/
def bootinfoHasMemoryKibInfo : Bool := decide (flags m info &&& multibootInfoMemory ≠ 0)

/-- `bootinfo_upper_memory_kib`. -/
def bootinfoUpperMemoryKib : Nat :=
  if bootinfoHasMemoryKibInfo m info then memUpper m info else 0

/-- `bootinfo_module_count`. -/
def bootinfoModuleCount : Nat :=
  if flags m info &&& multibootInfoModules = 0 then 0 else modsCount m info

/-- `bootinfo_module_table_phys`. -/
def bootinfoModuleTablePhys : Nat :=
  if bootinfoModuleCount m info = 0 then 0 else modsAddr m info

/-- `bootinfo_module_table_size`. -/
def bootinfoModuleTableSize : Nat :=
  bootinfoModuleCount m info * multibootModuleSize % 2 ^ 32

/-! ## The memory map -/

/-- `multiboot_map_bounds`. -/
def multibootMapBounds : Option (Nat × Nat) :=
  if flags m info &&& multibootInfoMemMap = 0 then none
  else
    let start := mmapAddr m info
    let stop := u32Add start (mmapLength m info)
    if stop < start then none else some (start, stop)

/-- `multiboot_decode_memory_region`: the entry at the cursor and the cursor
behind it. -/
def multibootDecodeMemoryRegion (cursorPhys : Nat) :
    Except String (Option (MemoryRegion × Nat)) := do
  match multibootMapBounds m info with
  | none => return none
  | some (mapStart, mapEnd) =>
    if cursorPhys < mapStart ∨ mapEnd ≤ cursorPhys then return none
    throughDirectMap cursorPhys 4
    let payloadSize := m.u32 cursorPhys
    let entrySize := u32Add payloadSize 4
    if payloadSize < multibootMemoryMapSize - 4 then return none
    if entrySize < 4 then return none
    let nextCursor := u32Add cursorPhys entrySize
    if nextCursor ≤ cursorPhys ∨ mapEnd < nextCursor then return none
    throughDirectMap cursorPhys multibootMemoryMapSize
    return some (⟨m.u64 (cursorPhys + 4), m.u64 (cursorPhys + 12), m.u32 (cursorPhys + 20)⟩,
      nextCursor)

/-- `bootinfo_memory_next`: the region at the cursor and the cursor it leaves,
zero at the end of the map. -/
def bootinfoMemoryNext (cursorPhys : Nat) : Except String (Option (MemoryRegion × Nat)) := do
  if cursorPhys = 0 then return none
  match multibootMapBounds m info with
  | none => return none
  | some (mapStart, mapEnd) =>
    if cursorPhys < mapStart ∨ mapEnd ≤ cursorPhys then return none
    match ← multibootDecodeMemoryRegion m info cursorPhys with
    | none => return none
    | some (region, nextCursor) =>
      return some (region, if mapEnd ≤ nextCursor then 0 else nextCursor)

/-- `bootinfo_memory_begin`: the cursor at which the iteration starts. -/
def bootinfoMemoryBegin : Nat :=
  match multibootMapBounds m info with
  | none => 0
  | some (mapStart, _) => mapStart

/-! ## Modules -/

/-- `bootinfo_module_at`. -/
def bootinfoModuleAt (index : Nat) : Except String (Option BootModule) := do
  if bootinfoModuleCount m info ≤ index then return none
  throughDirectMap (modsAddr m info) 1
  let entry := modsAddr m info + multibootModuleSize * index
  throughDirectMap entry 12
  let string := m.u32 (entry + 8)
  if string = 0 then return some ⟨m.u32 entry, m.u32 (entry + 4), none⟩
  throughDirectMap string 1
  return some ⟨m.u32 entry, m.u32 (entry + 4), some string⟩

end Fields

/-- The loop `for (has = begin(…); has; has = next(…))`, over a state that may
change the memory the iterator reads.  A cursor only grows until it is zero, so
`2 ^ 32` rounds are enough. -/
def forEachRegion {σ : Type} (view : σ → ByteMemory) (info : Nat) (step : σ → MemoryRegion → σ) :
    (fuel cursorPhys : Nat) → σ → Except String σ
  | 0, _, s => .ok s
  | fuel + 1, cursorPhys, s => do
    match ← bootinfoMemoryNext (view s) info cursorPhys with
    | none => return s
    | some (region, nextCursor) => forEachRegion view info step fuel nextCursor (step s region)

/-- The loop from the start of the map. -/
def forRegions {σ : Type} (view : σ → ByteMemory) (info : Nat) (step : σ → MemoryRegion → σ)
    (s : σ) : Except String σ :=
  forEachRegion view info step (2 ^ 32) (bootinfoMemoryBegin (view s) info) s

/-- The regions the iterator yields while nothing writes to the handoff. -/
def bootinfoRegions (m : ByteMemory) (info : Nat) : Except String (List MemoryRegion) :=
  forRegions (fun _ => m) info (fun regions region => regions ++ [region]) []

end Dfos.Boot
