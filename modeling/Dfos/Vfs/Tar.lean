import Dfos.Lib.ByteMemory
import Dfos.Lib.Word
import Dfos.Paging.Kernel
import Dfos.Pmm.Init

/-!
# The initrd file system

`kernel/kernel/vfs.c`: the scan of the tar archive that the first boot module
holds, and the functions that read the files it has found.

Pointers are 32-bit addresses, and pointer arithmetic wraps as it does on the
machine.  `ByteMemory` holds the byte at each address; the functions that read
files take a `Loads`, in which an address outside the memory they may read does
not load, so that a stray access shows as `none`.
-/

namespace Dfos.Vfs

open Dfos.Lib
open Dfos.Paging (Panic kernelVma)
open Dfos.Pmm (BootModule)

/-- `VFS_MAX_FILES`. -/
def vfsMaxFiles : Nat := 32

/-- `TAR_BLOCK_SIZE`. -/
def tarBlockSize : Nat := 512

/-- `vfs_node_t`. -/
structure VfsNode where
  name : Nat
  data : Nat
  size : Nat
  deriving DecidableEq, Repr

/-- `files[0]` to `files[file_count - 1]`. -/
structure FileTable where
  files : List VfsNode
  deriving DecidableEq, Repr

/-- `vfs_file_count`. -/
def FileTable.fileCount (v : FileTable) : Nat := v.files.length

/-! ## The archive -/

section

variable (m : ByteMemory)

/-- The loop of `tar_parse_octal` with `left` characters to go. -/
def parseDigits : (left text value : Nat) → Nat
  | 0, _, value => value
  | left + 1, text, value =>
      if m text = 0 then value
      else if (m text).toNat < 48 ∨ 55 < (m text).toNat then
        parseDigits left (u32Add text 1) value
      else parseDigits left (u32Add text 1)
        (u32Add (value * 8 % 2 ^ 32) ((m text).toNat - 48))

/-- `tar_parse_octal`. -/
def tarParseOctal (text length : Nat) : Nat := parseDigits m length text 0

/-- `tar_block_is_zero`. -/
def tarBlockIsZero (block : Nat) : Bool :=
  (List.range tarBlockSize).all fun i => m (u32Add block i) = 0

/-- `normalize_name`. -/
def normalizeName (rawName : Nat) : Nat :=
  if m rawName = 46 ∧ m (u32Add rawName 1) = 47 then u32Add rawName 2 else rawName

/-- `size` of the header at `cursor`. -/
def headerSize (cursor : Nat) : Nat := tarParseOctal m (u32Add cursor 124) 12

/-- `header->typeflag == '5'`: the header of a directory. -/
def headerIsDirectory (cursor : Nat) : Bool := m (u32Add cursor 156) = 53

/-- `blocks`. -/
def headerBlocks (cursor : Nat) : Nat :=
  u32Sub (u32Add (headerSize m cursor) tarBlockSize) 1 / tarBlockSize

/-- `cursor` after the entry. -/
def nextHeader (cursor : Nat) : Nat :=
  u32Add cursor (u32Add tarBlockSize (headerBlocks m cursor * tarBlockSize % 2 ^ 32))

/-- The record of the header at `cursor`. -/
def headerNode (cursor : Nat) : VfsNode where
  name := normalizeName m cursor
  data := u32Add cursor tarBlockSize
  size := headerSize m cursor

/-- The conditional of the loop body: a file is recorded while there is room. -/
def recordHeader (v : FileTable) (cursor : Nat) : FileTable :=
  if v.fileCount < vfsMaxFiles ∧ ¬ headerIsDirectory m cursor then
    { files := v.files ++ [headerNode m cursor] }
  else v

variable (limit : Nat)

/-- The first condition of the loop: a header's worth of bytes is left. -/
def HeaderFits (cursor : Nat) : Prop := u32Add cursor tarBlockSize ≤ limit

instance (cursor : Nat) : Decidable (HeaderFits limit cursor) :=
  inferInstanceAs (Decidable (_ ≤ _))

/-- The loop of `vfs_load_initrd_module`; `none` when it is still going after
`fuel` rounds. -/
def scan : (fuel : Nat) → FileTable → (cursor : Nat) → Option FileTable
  | 0, _, _ => none
  | fuel + 1, v, cursor =>
      if HeaderFits limit cursor ∧ ¬ tarBlockIsZero m cursor then
        scan fuel (recordHeader m v cursor) (nextHeader m cursor)
      else some v

/-- The addresses of the headers that the first `fuel` rounds of the loop read. -/
def headersRead : (fuel cursor : Nat) → List Nat
  | 0, _ => []
  | fuel + 1, cursor =>
      if HeaderFits limit cursor then
        cursor :: if tarBlockIsZero m cursor then [] else headersRead fuel (nextHeader m cursor)
      else []

end

section

variable (physToVirt : Nat → Except Panic Nat) (m : ByteMemory)

/-- `vfs_load_initrd_module`, where `physToVirt` answers `paging_phys_to_virt`. -/
def vfsLoadInitrdModule (fuel : Nat) (v : FileTable) (moduleStart moduleEnd : Nat) :
    Except Panic (Option FileTable) := do
  let cursor ← physToVirt moduleStart
  let limit ← physToVirt moduleEnd
  return scan m limit fuel v cursor

/-- `vfs_init`, given the boot modules. -/
def vfsInit (fuel : Nat) (modules : List BootModule) : Except Panic (Option FileTable) :=
  match modules with
  | [] => .ok (some ⟨[]⟩)
  | module :: _ => vfsLoadInitrdModule physToVirt m fuel ⟨[]⟩ module.start module.stop

end

/-! ## Reading files -/

/-- What a load from each address gives, `none` where it may not be made. -/
abbrev Loads := Nat → Option (BitVec 8)

/-- The bytes of `m` from `lo` up to `hi` and no others. -/
def loadsWithin (m : ByteMemory) (lo hi : Nat) : Loads :=
  fun a => if lo ≤ a ∧ a < hi then some (m a) else none

section

variable (load : Loads)

/-- `memcpy`, giving the bytes copied. -/
def memcpy : (src size : Nat) → Option (List (BitVec 8))
  | _, 0 => some []
  | src, size + 1 => do
      let byte ← load src
      let rest ← memcpy (u32Add src 1) size
      return byte :: rest

/-- `strcmp` of the string at `left` with the string `right`, given without its
terminating NUL. -/
def strcmp : (left : Nat) → (right : List (BitVec 8)) → Option Int
  | left, [] => do
      let byte ← load left
      return byte.toNat
  | left, c :: right => do
      let byte ← load left
      if byte ≠ 0 ∧ byte = c then strcmp (u32Add left 1) right
      else return (byte.toNat : Int) - c.toNat

/-- The loop of `vfs_open` over the files that are left. -/
def openLoop (path : List (BitVec 8)) : List VfsNode → Option (Option VfsNode)
  | [] => some none
  | file :: files => do
      let order ← strcmp load file.name path
      if order = 0 then return some file
      openLoop path files

/-- `vfs_open`. -/
def vfsOpen (v : FileTable) (path : List (BitVec 8)) : Option (Option VfsNode) :=
  openLoop load path v.files

/-- `vfs_read`, giving the bytes copied; their number is what it returns. -/
def vfsRead (node : VfsNode) (offset size : Nat) : Option (List (BitVec 8)) :=
  if node.size ≤ offset then some []
  else
    let remaining := node.size - offset
    memcpy load (u32Add node.data offset) (if remaining < size then remaining else size)

end

end Dfos.Vfs
