import Dfos.Pmm.Frames

/-!
# Boot of the frame allocator

A model of `pmm_init`.  What the loader handed over is a `BootInfo`: the answers
of the `bootinfo_*` accessors and the physical extent of the kernel image.
-/

namespace Dfos.Pmm

open Dfos.Lib

/-- `bootinfo_memory_region_t`. -/
structure MemoryRegion where
  base : Nat
  length : Nat
  type : Nat
  deriving Repr, DecidableEq

/-- `bootinfo_module_t`, with the physical address of a non-`NULL` string. -/
structure BootModule where
  start : Nat
  stop : Nat
  stringPhys : Option Nat
  deriving Repr, DecidableEq

/-- The boot handoff as `pmm_init` reads it.  `memoryRegions` are the regions
the iterator yields. -/
structure BootInfo where
  hasMemoryMap : Bool
  memoryRegions : List MemoryRegion
  memoryMapPhys : Nat
  memoryMapSize : Nat
  hasMemoryKibInfo : Bool
  upperMemoryKib : Nat
  infoPhys : Nat
  infoSizeHint : Nat
  moduleTablePhys : Nat
  moduleTableSize : Nat
  modules : List BootModule
  kernelStartPhys : Nat
  kernelEndPhys : Nat
  deriving Repr, DecidableEq

def multibootMemoryAvailable : Nat := 1

/-- The last page-aligned physical address below 4 GiB. -/
def pmmPhysCap : Nat := 0xFFFFF000

/-- `paging_window_end_phys()`. -/
def pagingWindowEndPhys : Nat := 0x400000

/-- `align_up_u32`, for an alignment that is a power of two. -/
def alignUpU32 (value alignment : Nat) : Nat :=
  (value + alignment - 1) % 2 ^ 32 / alignment * alignment

/-- One region of the scan for the highest physical address. -/
def raiseHighest (highest : Nat) (region : MemoryRegion) : Nat :=
  let regionEnd := (region.base + region.length) % 2 ^ 64
  let regionEnd := if regionEnd < region.base then pmmPhysCap else regionEnd
  let regionEnd := if pmmPhysCap < regionEnd then pmmPhysCap else regionEnd
  if regionEnd = 0 then highest
  else if highest < regionEnd then regionEnd else highest

/-- The size the KiB fields of the handoff report. -/
def kibHighest (upperMemoryKib : Nat) : Nat :=
  (upperMemoryKib + 1024) % 2 ^ 32 * 1024 % 2 ^ 32

/-- `highest_physical`. -/
def highestPhysical (boot : BootInfo) : Except String Nat :=
  if boot.hasMemoryMap then .ok (boot.memoryRegions.foldl raiseHighest 0)
  else if boot.hasMemoryKibInfo then .ok (kibHighest boot.upperMemoryKib)
  else .error "no memory map provided by bootloader"

/-- One region of the loop that frees what the loader reports available. -/
def markRegion (s : PmmState) (region : MemoryRegion) : PmmState :=
  if region.type ≠ multibootMemoryAvailable ∨ region.length = 0 then s
  else
    let start := region.base
    let stop := (region.base + region.length) % 2 ^ 64
    if stop ≤ start then s
    else if pmmPhysCap ≤ start then s
    else
      let stop := if pmmPhysCap < stop then pmmPhysCap else stop
      pmmMarkAvailableRange s start (stop - start)

/-- One module of the loop that reserves the boot modules. -/
def reserveModule (s : PmmState) (module : BootModule) : PmmState :=
  let s := if module.start < module.stop then
    pmmReserveRange s module.start (module.stop - module.start) else s
  match module.stringPhys with
  | some string => pmmReserveRange s string 128
  | none => s

/-- `total_frames` for a given highest physical address. -/
def managedFrames (highest : Nat) : Nat := alignUpU32 highest pageSize / pageSize

/-- `bitmap_bytes` for a given number of frames. -/
def bitmapBytes (totalFrames : Nat) : Nat := alignUpU32 ((totalFrames + 7) / 8) pageSize

/-- The statics once the bitmap is in place and every frame is taken. -/
def allTaken (totalFrames bitmapEndPhys : Nat) : PmmState :=
  pmmNumaResetLayout
    { PmmState.zero with
      mapped := true
      frameBitmap := fun i => if i < bitmapBytes totalFrames then 0xFF#8 else 0#8
      totalFrames := totalFrames
      totalMemoryKib := totalFrames * 4
      bitmapEndPhys := bitmapEndPhys
      activeNumaNodeCount := 1 } 1

/-- The reservations of `pmm_init`, in order. -/
def reserveBoot (boot : BootInfo) (bitmapPhys totalFrames : Nat) (s : PmmState) : PmmState :=
  let s := pmmReserveRange s 0 0x100000
  let s := pmmReserveRange s boot.kernelStartPhys (boot.kernelEndPhys - boot.kernelStartPhys)
  let s := pmmReserveRange s bitmapPhys (bitmapBytes totalFrames)
  let s := if boot.infoPhys ≠ 0 ∧ boot.infoSizeHint ≠ 0 then
    pmmReserveRange s boot.infoPhys boot.infoSizeHint else s
  let s := if boot.hasMemoryMap then
    pmmReserveRange s boot.memoryMapPhys boot.memoryMapSize else s
  let s := if boot.moduleTablePhys ≠ 0 ∧ boot.moduleTableSize ≠ 0 then
    pmmReserveRange s boot.moduleTablePhys boot.moduleTableSize else s
  boot.modules.foldl reserveModule s

/-- `pmm_init`: the state it leaves, or the text it panics with. -/
def pmmInit (boot : BootInfo) : Except String PmmState :=
  match highestPhysical boot with
  | .error text => .error text
  | .ok highest =>
    if highest = 0 then .error "bootloader reported zero physical memory"
    else
      let totalFrames := managedFrames highest
      let bitmapPhys := alignUpU32 boot.kernelEndPhys pageSize
      let bitmapEndPhys := u32Add bitmapPhys (bitmapBytes totalFrames)
      if pagingWindowEndPhys ≤ bitmapEndPhys then
        .error "frame bitmap exceeds bootstrap mapping window"
      else
        let s := allTaken totalFrames bitmapEndPhys
        let s := if boot.hasMemoryMap then boot.memoryRegions.foldl markRegion s else s
        let s := reserveBoot boot bitmapPhys totalFrames s
        .ok { pmmRecountNumaFreeFramesLocked s with initialized := true }

end Dfos.Pmm
