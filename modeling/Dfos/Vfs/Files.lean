import Dfos.Vfs.Initrd

/-!
# The files of the initrd

The scan records the first files of the archive and stores the parsed size and
the address of the name as they are.  So the files lie inside the module exactly
if they fit (`FilesFit`, `scan_archive`): their data ends inside the module, and a
NUL follows their name in it.  Then `vfs_read` and `vfs_open` touch nothing but
the module.
-/

namespace Dfos.Vfs

open Dfos.Lib
open Dfos.Paging (DirectMap Layout bootstrap_directMap kernelDirectMapLimitPhys kernelVma)
open Dfos.Pmm (BootModule)

section

variable (m : ByteMemory)

/-- The data and the name of the file lie inside `[lo, hi)`. -/
structure InModule (lo hi : Nat) (file : VfsNode) : Prop where
  data : lo ≤ file.data ∧ file.data + file.size ≤ hi
  name : lo ≤ file.name ∧ ∃ length, file.name + length < hi ∧ m (file.name + length) = 0

/-- Where the name in the header at `header` starts, after a leading `./`. -/
def nameStart (header : Nat) : Nat :=
  if m header = 46 ∧ m (header + 1) = 47 then header + 2 else header

variable (limit : Nat)

/-- From `cursor` on, the next `room` files of the archive end before `limit`, and
a byte of each one's name, or one after it, is a NUL. -/
inductive FilesFit : (room cursor : Nat) → Prop
  | full {cursor : Nat} : FilesFit 0 cursor
  | stop {room cursor : Nat} :
      ¬ (cursor + tarBlockSize ≤ limit ∧ tarBlockIsZero m cursor = false) → FilesFit room cursor
  | directory {room cursor : Nat} : headerIsDirectory m cursor = true →
      FilesFit room (cursor + entryLength m cursor) → FilesFit room cursor
  | file {room cursor : Nat} : headerIsDirectory m cursor = false →
      cursor + tarBlockSize + headerSize m cursor ≤ limit →
      (∃ length, nameStart m cursor + length < limit ∧ m (nameStart m cursor + length) = 0) →
      FilesFit room (cursor + entryLength m cursor) → FilesFit (room + 1) cursor

end

section

variable {m : ByteMemory} {limit cursor header lo : Nat} {v : FileTable}

theorem recordHeader_full (full : ¬ v.fileCount < vfsMaxFiles) (cursor : Nat) :
    recordHeader m v cursor = v :=
  if_neg fun room => full room.1

theorem recordHeader_directory (directory : headerIsDirectory m cursor = true) :
    recordHeader m v cursor = v :=
  if_neg fun file => file.2 directory

/-- Where a block fits below 2^32, nothing of the record wraps. -/
theorem headerNode_eq (roomy : Roomy header) :
    headerNode m header = ⟨nameStart m header, header + tarBlockSize, headerSize m header⟩ := by
  unfold Roomy tarBlockSize at roomy
  unfold headerNode normalizeName nameStart tarBlockSize
  rw [u32Add_eq (by omega), u32Add_eq (by omega), u32Add_eq roomy]

theorem nameStart_le (m : ByteMemory) (header : Nat) :
    header ≤ nameStart m header ∧ nameStart m header ≤ header + 2 := by
  unfold nameStart
  split <;> omega

/-- The record of a header, in the terms of its bytes. -/
theorem inModule_iff (roomy : Roomy header) (low : lo ≤ header) :
    InModule m lo limit (headerNode m header) ↔
      header + tarBlockSize + headerSize m header ≤ limit ∧
      ∃ length, nameStart m header + length < limit ∧ m (nameStart m header + length) = 0 := by
  have early := (nameStart_le m header).1
  rw [headerNode_eq roomy]
  constructor
  · intro inside
    exact ⟨inside.data.2, inside.name.2⟩
  · rintro ⟨data, found⟩
    exact ⟨⟨by dsimp only; omega, data⟩, Nat.le_trans low early, found⟩

/-- **What the loop records** of an archive: the files already there, and inside
the module exactly if the next ones of the archive fit. -/
theorem scan_archive (archive : Archive m limit cursor) (roomy : Roomy cursor) (low : lo ≤ cursor) :
    ∀ v : FileTable, ∃ fuel v', scan m limit fuel v cursor = some v' ∧
      ((∀ file ∈ v'.files, InModule m lo limit file) ↔
        (∀ file ∈ v.files, InModule m lo limit file) ∧
          FilesFit m limit (vfsMaxFiles - v.fileCount) cursor) := by
  induction archive with
  | @short cursor short =>
      intro v
      refine ⟨1, v, scan_stop (fun go => ?_) 0, fun inside => ⟨inside, .stop fun go => ?_⟩, And.left⟩
      · have fits := (roomy.headerFits limit).mp go.1
        omega
      · omega
  | @zero cursor inside zero =>
      intro v
      refine ⟨1, v, scan_stop (fun go => go.2 zero) 0, fun inside => ⟨inside, .stop fun go => ?_⟩,
        And.left⟩
      rw [zero] at go
      cases go.2
  | @entry cursor inside entry fits rest ih =>
      intro v
      have here : cursor + tarBlockSize ≤ limit ∧ tarBlockIsZero m cursor = false := ⟨inside, entry⟩
      obtain ⟨fuel, v', ended, files⟩ := ih fits.roomy (by omega) (recordHeader m v cursor)
      rw [← fits.next, ← scan_entry ((roomy.headerFits limit).mpr inside) entry] at ended
      refine ⟨fuel + 1, v', ended, files.trans ?_⟩
      cases directory : headerIsDirectory m cursor with
      | true =>
          rw [recordHeader_directory directory]
          refine and_congr_right fun _ => ⟨.directory directory, fun fit => ?_⟩
          generalize vfsMaxFiles - v.fileCount = room at fit ⊢
          cases fit with
          | full => exact .full
          | stop stop => exact absurd here stop
          | directory _ next => exact next
          | file notDirectory => simp [directory] at notDirectory
      | false =>
          by_cases room : v.fileCount < vfsMaxFiles
          · have recorded : recordHeader m v cursor = ⟨v.files ++ [headerNode m cursor]⟩ :=
              if_pos ⟨room, by simp [directory]⟩
            obtain ⟨left, count⟩ : ∃ left, vfsMaxFiles - v.fileCount = left + 1 :=
              ⟨vfsMaxFiles - v.fileCount - 1, by omega⟩
            have count' : vfsMaxFiles - (recordHeader m v cursor).fileCount = left := by
              rw [recorded]
              unfold FileTable.fileCount at count ⊢
              rw [List.length_append, List.length_singleton]
              omega
            rw [count', count, recorded]
            simp only [List.mem_append, List.mem_singleton, or_imp, forall_and, forall_eq, and_assoc]
            refine and_congr_right fun _ => ?_
            rw [inModule_iff roomy low, and_assoc]
            constructor
            · rintro ⟨data, name, next⟩
              exact .file directory data name next
            · intro fit
              cases fit with
              | stop stop => exact absurd here stop
              | directory isDirectory => simp [directory] at isDirectory
              | file _ data name next => exact ⟨data, name, next⟩
          · have none : vfsMaxFiles - v.fileCount = 0 := by omega
            rw [recordHeader_full room, none]
            exact and_congr_right fun _ => iff_of_true .full .full

/-! ## Reading -/

theorem memcpy_within {lo hi : Nat} (below : hi < 2 ^ 32) :
    ∀ (size src : Nat), lo ≤ src → src + size ≤ hi →
      memcpy (loadsWithin m lo hi) src size ≠ none := by
  intro size
  induction size with
  | zero => exact fun _ _ _ => nofun
  | succ size ih =>
      intro src low high
      obtain ⟨rest, copied⟩ := Option.ne_none_iff_exists'.mp (ih (src + 1) (by omega) (by omega))
      have byte : loadsWithin m lo hi src = some (m src) := if_pos ⟨low, by omega⟩
      unfold memcpy
      rw [u32Add_eq (by omega), byte, copied]
      exact nofun

/-- A string that ends inside the module is compared without leaving it. -/
theorem strcmp_within {lo hi : Nat} (below : hi < 2 ^ 32) :
    ∀ (length left : Nat) (right : List (BitVec 8)), lo ≤ left → left + length < hi →
      m (left + length) = 0 → strcmp (loadsWithin m lo hi) left right ≠ none := by
  intro length
  induction length with
  | zero =>
      intro left right low high ends
      have byte : loadsWithin m lo hi left = some 0 := by
        rw [Nat.add_zero] at ends
        exact (if_pos ⟨low, high⟩).trans (congrArg some ends)
      cases right with
      | nil =>
          rw [strcmp, byte]
          exact nofun
      | cons c right =>
          rw [strcmp, byte]
          dsimp only [Option.bind_eq_bind, Option.bind_some]
          rw [if_neg fun same => same.1 rfl]
          exact nofun
  | succ length ih =>
      intro left right low high ends
      have byte : loadsWithin m lo hi left = some (m left) := if_pos ⟨low, by omega⟩
      cases right with
      | nil =>
          rw [strcmp, byte]
          exact nofun
      | cons c right =>
          rw [strcmp, byte]
          dsimp only [Option.bind_eq_bind, Option.bind_some]
          split
          · rw [u32Add_eq (by omega)]
            refine ih (left + 1) right (by omega) (by omega) ?_
            rwa [Nat.add_assoc, Nat.add_comm 1 length]
          · exact nofun

theorem openLoop_within {lo hi : Nat} (below : hi < 2 ^ 32) (path : List (BitVec 8)) :
    ∀ files : List VfsNode, (∀ file ∈ files, InModule m lo hi file) →
      openLoop (loadsWithin m lo hi) path files ≠ none := by
  intro files
  induction files with
  | nil => exact fun _ => nofun
  | cons file files ih =>
      intro inside
      obtain ⟨low, length, high, ends⟩ := (inside file List.mem_cons_self).name
      obtain ⟨order, compared⟩ := Option.ne_none_iff_exists'.mp
        (strcmp_within below length file.name path low high ends)
      unfold openLoop
      rw [compared]
      dsimp only [Option.bind_eq_bind, Option.bind_some]
      split
      · exact nofun
      · exact ih fun other member => inside other (List.mem_cons_of_mem file member)

theorem vfsRead_within {lo hi : Nat} (below : hi < 2 ^ 32) {file : VfsNode}
    (inside : InModule m lo hi file) (offset size : Nat) :
    vfsRead (loadsWithin m lo hi) file offset size ≠ none := by
  obtain ⟨low, high⟩ := inside.data
  unfold vfsRead
  split
  · exact nofun
  · dsimp only
    rw [u32Add_eq (by omega)]
    refine memcpy_within below _ _ (by omega) ?_
    split <;> omega

end

/-- **Files inside the initrd.**  `vfs_init` reads an archive to its end, and the
files that it records lie inside the module exactly if the first files of the
archive fit; and then `vfs_read` and `vfs_open` load from the module only,
whatever they are asked for. -/
theorem initrd_files_inside_iff {layout : Layout} {words : WordMemory}
    (direct : DirectMap layout words) (module : BootModule) (modules : List BootModule)
    (start : module.start < kernelDirectMapLimitPhys)
    (stop : module.stop < kernelDirectMapLimitPhys) {m : ByteMemory}
    (archive : Archive m (kernelVma + module.stop) (kernelVma + module.start)) :
    ∃ fuel v, vfsInit (paePhysToVirt layout words) m fuel (module :: modules) = .ok (some v) ∧
      ((∀ file ∈ v.files, InModule m (kernelVma + module.start) (kernelVma + module.stop) file) ↔
        FilesFit m (kernelVma + module.stop) vfsMaxFiles (kernelVma + module.start)) ∧
      (FilesFit m (kernelVma + module.stop) vfsMaxFiles (kernelVma + module.start) →
        (∀ file ∈ v.files, ∀ offset size, vfsRead
          (loadsWithin m (kernelVma + module.start) (kernelVma + module.stop)) file offset size ≠
            none) ∧
        ∀ path, vfsOpen (loadsWithin m (kernelVma + module.start) (kernelVma + module.stop)) v path ≠
          none) := by
  have below : kernelVma + module.stop < 2 ^ 32 := by
    unfold kernelDirectMapLimitPhys at stop
    unfold kernelVma
    omega
  obtain ⟨fuel, v, ended, files⟩ := scan_archive archive (roomy_start start) (Nat.le_refl _) ⟨[]⟩
  have equivalent : (∀ file ∈ v.files, InModule m (kernelVma + module.start)
      (kernelVma + module.stop) file) ↔
      FilesFit m (kernelVma + module.stop) vfsMaxFiles (kernelVma + module.start) :=
    files.trans (and_iff_right (by simp))
  refine ⟨fuel, v, ?_, equivalent, fun fit => ?_⟩
  · unfold vfsInit vfsLoadInitrdModule
    dsimp only
    rw [paePhysToVirt_ok direct start, paePhysToVirt_ok direct stop]
    exact congrArg Except.ok ended
  · have inside := equivalent.mpr fit
    exact ⟨fun file member offset size => vfsRead_within below (inside file member) offset size,
      fun path => openLoop_within below path v.files inside⟩

/-- Both blocks of a file of five bytes are there. -/
theorem initrd_files_inside_iff_fiveBytes :
    ∃ fuel v, vfsInit bootPointer (sizeField [53]) fuel [⟨0x400000, 0x400800, none⟩] =
        .ok (some v) ∧
      (∀ file ∈ v.files, InModule (sizeField [53]) 0xC0400000 0xC0400800 file) ∧
      (∀ file ∈ v.files, ∀ offset size,
        vfsRead (loadsWithin (sizeField [53]) 0xC0400000 0xC0400800) file offset size ≠ none) ∧
      ∀ path, vfsOpen (loadsWithin (sizeField [53]) 0xC0400000 0xC0400800) v path ≠ none := by
  obtain ⟨fuel, v, ended, equivalent, reads⟩ := initrd_files_inside_iff bootstrap_directMap
    ⟨0x400000, 0x400800, none⟩ [] (show 0x400000 < _ by decide)
    (show 0x400800 < _ by decide) fiveBytes_archive
  have fit : FilesFit (sizeField [53]) 0xC0400800 vfsMaxFiles 0xC0400000 := by
    refine .file (by decide) (by decide +kernel) ⟨0, by decide, by decide⟩ (.stop ?_)
    rw [fiveBytes_length]
    decide +kernel
  exact ⟨fuel, v, ended, equivalent.mpr fit, reads fit⟩

/-- The module ends with the header of a file of five bytes: the file is recorded,
and reading it reads what lies behind the module. -/
theorem initrd_file_behind_module :
    ∃ v file, vfsInit bootPointer (sizeField [53]) 2 [⟨0x400000, 0x400200, none⟩] =
        .ok (some v) ∧ file ∈ v.files ∧ ¬ file.data + file.size ≤ 0xC0400200 ∧
      vfsRead (loadsWithin (sizeField [53]) 0xC0400000 0xC0400200) file 0 5 = none := by
  have start : bootPointer 0x400000 = .ok 0xC0400000 := bootPointer_ok (by decide)
  have stop : bootPointer 0x400200 = .ok 0xC0400200 := bootPointer_ok (by decide)
  have scanned : scan (sizeField [53]) 0xC0400200 2 ⟨[]⟩ 0xC0400000 =
      some ⟨[⟨0xC0400000, 0xC0400200, 5⟩]⟩ := by decide +kernel
  refine ⟨⟨[⟨0xC0400000, 0xC0400200, 5⟩]⟩, ⟨0xC0400000, 0xC0400200, 5⟩, ?_,
    List.mem_singleton_self _, by decide, by decide⟩
  unfold vfsInit vfsLoadInitrdModule
  dsimp only
  rw [start, stop]
  exact congrArg Except.ok scanned

end Dfos.Vfs
