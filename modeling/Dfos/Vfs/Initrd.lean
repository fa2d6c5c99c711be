import Dfos.Paging.Contract
import Dfos.Vfs.Tar

/-!
# Scanning the initrd

An entry of the archive takes a header block and its data, rounded up to blocks:
`entryLength`.  The loop of `vfs_load_initrd_module` adds it up in 32 bits, so it
reads an archive from front to back only if no sum wraps: `Archive` is that
condition on the headers, in exact arithmetic, and `ScanBehaves` what the loop
does.
-/

namespace Dfos.Vfs

open Dfos.Lib
open Dfos.Paging (DirectMap Layout Panic bootstrap_directMap kernelDirectMapLimitPhys kernelVma
  paePrepareBootstrapTables pagingPhysToVirt twoMibLayout)

/-- `paging_phys_to_virt` in PAE mode, where the tables map all of the direct map.
The back end without PAE maps the pages of its arguments only. -/
def paePhysToVirt (layout : Layout) (words : WordMemory) (physical : Nat) : Except Panic Nat :=
  (kernelVma + ·) <$> pagingPhysToVirt layout words physical

theorem paePhysToVirt_ok {layout : Layout} {words : WordMemory} (direct : DirectMap layout words)
    {physical : Nat} (below : physical < kernelDirectMapLimitPhys) :
    paePhysToVirt layout words physical = .ok (kernelVma + physical) := by
  unfold paePhysToVirt
  rw [direct.physToVirt below]
  rfl

/-! ## Headers -/

section

variable (m : ByteMemory) (limit : Nat)

/-- The bytes that the entry at `cursor` takes.  A size within 511 of 2^32 rounds
to no block at all. -/
def entryLength (cursor : Nat) : Nat :=
  if 2 ^ 32 - 511 ≤ headerSize m cursor then tarBlockSize
  else tarBlockSize + (headerSize m cursor + 511) / tarBlockSize * tarBlockSize

/-- The end of the entry and a header after it are below 2^32. -/
def EntryFits (cursor : Nat) : Prop :=
  cursor + entryLength m cursor + tarBlockSize < 2 ^ 32

/-- From `cursor` on there is an archive whose entries all fit: entries one after
the other up to a zero block or the end of the module. -/
inductive Archive : (cursor : Nat) → Prop
  | short {cursor : Nat} : limit < cursor + tarBlockSize → Archive cursor
  | zero {cursor : Nat} : cursor + tarBlockSize ≤ limit → tarBlockIsZero m cursor = true →
      Archive cursor
  | entry {cursor : Nat} : cursor + tarBlockSize ≤ limit → tarBlockIsZero m cursor = false →
      EntryFits m cursor → Archive (cursor + entryLength m cursor) → Archive cursor

end

/-- The scan ends, and the headers it reads lie one after the other inside the
module, so that there are at most as many as it has blocks. -/
structure ScanBehaves (m : ByteMemory) (v : FileTable) (cursor limit : Nat) : Prop where
  ends : ∃ fuel v', scan m limit fuel v cursor = some v'
  increasing : ∀ fuel, (headersRead m limit fuel cursor).Pairwise (· < ·)
  inside : ∀ fuel, ∀ header ∈ headersRead m limit fuel cursor,
    cursor ≤ header ∧ header + tarBlockSize ≤ limit
  few : ∀ fuel, (headersRead m limit fuel cursor).length ≤ (limit - cursor) / tarBlockSize

section

variable {m : ByteMemory} {v : FileTable} {cursor limit : Nat}

theorem parseDigits_lt : ∀ (left text value : Nat), value < 2 ^ 32 →
    parseDigits m left text value < 2 ^ 32 := by
  intro left
  induction left with
  | zero => exact fun _ _ small => small
  | succ left ih =>
      intro text value small
      unfold parseDigits
      split
      · exact small
      split
      · exact ih _ _ small
      · exact ih _ _ (u32Add_lt ..)

theorem headerSize_lt (m : ByteMemory) (cursor : Nat) : headerSize m cursor < 2 ^ 32 :=
  parseDigits_lt 12 _ 0 (by decide)

/-- The loop moves on by `entryLength`, modulo 2^32. -/
theorem nextHeader_eq (m : ByteMemory) (cursor : Nat) :
    nextHeader m cursor = (cursor + entryLength m cursor) % 2 ^ 32 := by
  have small := headerSize_lt m cursor
  unfold nextHeader headerBlocks entryLength u32Add u32Sub tarBlockSize
  generalize headerSize m cursor = size at small ⊢
  split <;> omega

theorem entryLength_pos (m : ByteMemory) (cursor : Nat) :
    tarBlockSize ≤ entryLength m cursor := by
  unfold entryLength
  split <;> omega

theorem entryLength_le (m : ByteMemory) (cursor : Nat) : entryLength m cursor ≤ 2 ^ 32 := by
  have small := headerSize_lt m cursor
  unfold entryLength tarBlockSize
  split <;> omega

theorem EntryFits.next (fits : EntryFits m cursor) :
    nextHeader m cursor = cursor + entryLength m cursor := by
  unfold EntryFits at fits
  rw [nextHeader_eq, Nat.mod_eq_of_lt (by omega)]

/-- An address that has a block after it. -/
def Roomy (cursor : Nat) : Prop := cursor + tarBlockSize < 2 ^ 32

theorem Roomy.headerFits (roomy : Roomy cursor) (limit : Nat) :
    HeaderFits limit cursor ↔ cursor + tarBlockSize ≤ limit := by
  unfold HeaderFits
  rw [u32Add_eq roomy]

theorem EntryFits.roomy (fits : EntryFits m cursor) : Roomy (cursor + entryLength m cursor) :=
  fits

/-! ## The loop -/

theorem headersRead_short (short : ¬ HeaderFits limit cursor) (fuel : Nat) :
    headersRead m limit fuel cursor = [] := by
  cases fuel with
  | zero => rfl
  | succ fuel => exact if_neg short

theorem headersRead_zero (fits : HeaderFits limit cursor) (zero : tarBlockIsZero m cursor = true)
    (fuel : Nat) : headersRead m limit (fuel + 1) cursor = [cursor] := by
  rw [headersRead, if_pos fits, if_pos zero]

theorem headersRead_entry (fits : HeaderFits limit cursor)
    (entry : tarBlockIsZero m cursor = false) (fuel : Nat) :
    headersRead m limit (fuel + 1) cursor =
      cursor :: headersRead m limit fuel (nextHeader m cursor) := by
  rw [headersRead, if_pos fits, if_neg (by simp [entry])]

theorem scan_stop (stop : ¬ (HeaderFits limit cursor ∧ ¬ tarBlockIsZero m cursor = true))
    (fuel : Nat) : scan m limit (fuel + 1) v cursor = some v :=
  if_neg stop

theorem scan_entry (fits : HeaderFits limit cursor) (entry : tarBlockIsZero m cursor = false)
    (fuel : Nat) : scan m limit (fuel + 1) v cursor =
      scan m limit fuel (recordHeader m v cursor) (nextHeader m cursor) :=
  if_pos ⟨fits, by simp [entry]⟩

/-- An archive is read from front to back. -/
theorem Archive.behaves (archive : Archive m limit cursor) (roomy : Roomy cursor) :
    ∀ v, ScanBehaves m v cursor limit := by
  induction archive with
  | @short cursor short =>
      intro v
      have no : ¬ HeaderFits limit cursor := by
        rw [roomy.headerFits]
        omega
      have none := headersRead_short (m := m) no
      refine ⟨⟨1, v, scan_stop (fun go => no go.1) 0⟩, fun fuel => ?_, fun fuel => ?_, fun fuel => ?_⟩
      · rw [none]
        exact List.Pairwise.nil
      · rw [none]
        exact nofun
      · rw [none]
        exact Nat.zero_le _
  | @zero cursor inside zero =>
      intro v
      have fits := (roomy.headerFits limit).mpr inside
      have one : ∀ fuel, headersRead m limit fuel cursor = [] ∨
          headersRead m limit fuel cursor = [cursor] := by
        intro fuel
        cases fuel with
        | zero => exact Or.inl rfl
        | succ fuel => exact Or.inr (headersRead_zero fits zero fuel)
      refine ⟨⟨1, v, scan_stop (fun go => go.2 zero) 0⟩, fun fuel => ?_, fun fuel => ?_,
        fun fuel => ?_⟩
      · rcases one fuel with none | just
        · rw [none]
          exact List.Pairwise.nil
        · rw [just]
          exact List.pairwise_singleton _ _
      · intro header member
        rcases one fuel with none | just
        · rw [none] at member
          cases member
        · rw [just, List.mem_singleton] at member
          subst member
          exact ⟨Nat.le_refl _, inside⟩
      · have room : 1 ≤ (limit - cursor) / tarBlockSize := by
          unfold tarBlockSize at inside ⊢
          omega
        rcases one fuel with none | just
        · rw [none]
          exact Nat.zero_le _
        · rw [just]
          exact room
  | @entry cursor inside entry fits rest ih =>
      intro v
      have far := entryLength_pos m cursor
      have headerFits := (roomy.headerFits limit).mpr inside
      have onward := ih fits.roomy (recordHeader m v cursor)
      rw [← fits.next] at onward
      have ahead : cursor + tarBlockSize ≤ nextHeader m cursor := by
        rw [fits.next]
        omega
      have step := headersRead_entry headerFits entry
      obtain ⟨fuel₀, v', ended⟩ := onward.ends
      refine ⟨⟨fuel₀ + 1, v', (scan_entry headerFits entry fuel₀).trans ended⟩, fun fuel => ?_,
        fun fuel => ?_, fun fuel => ?_⟩
      · cases fuel with
        | zero => exact List.Pairwise.nil
        | succ fuel =>
            rw [step, List.pairwise_cons]
            refine ⟨fun header member => ?_, onward.increasing fuel⟩
            have later := (onward.inside fuel header member).1
            unfold tarBlockSize at ahead
            omega
      · cases fuel with
        | zero => exact nofun
        | succ fuel =>
            intro header member
            rw [step, List.mem_cons] at member
            rcases member with rfl | later
            · exact ⟨Nat.le_refl _, inside⟩
            · obtain ⟨behind, within⟩ := onward.inside fuel header later
              exact ⟨by omega, within⟩
      · cases fuel with
        | zero => exact Nat.zero_le _
        | succ fuel =>
            have count := onward.few fuel
            rw [step, List.length_cons]
            unfold tarBlockSize at inside ahead count ⊢
            omega

/-- Headers that are read in order and inside the module make an archive. -/
theorem archive_of_headersRead (small : limit < 2 ^ 32) :
    ∀ (n cursor : Nat), limit - cursor ≤ n → Roomy cursor →
      (∀ fuel, (headersRead m limit fuel cursor).Pairwise (· < ·)) →
      (∀ fuel, ∀ header ∈ headersRead m limit fuel cursor, header + tarBlockSize ≤ limit) →
      Archive m limit cursor := by
  intro n
  induction n with
  | zero =>
      intro cursor measure _ _ _
      refine .short ?_
      unfold tarBlockSize
      omega
  | succ n ih =>
      intro cursor measure roomy increasing inside
      by_cases room : cursor + tarBlockSize ≤ limit
      · have headerFits := (roomy.headerFits limit).mpr room
        cases zero : tarBlockIsZero m cursor with
        | true => exact .zero room zero
        | false =>
            have step := headersRead_entry headerFits zero
            have far := entryLength_pos m cursor
            -- a sum that wraps leads back, or to a block across the end of memory
            have fits : EntryFits m cursor := by
              by_contra wraps
              have most := entryLength_le m cursor
              have next := nextHeader_eq m cursor
              unfold EntryFits at wraps
              have again : HeaderFits limit (nextHeader m cursor) := by
                unfold HeaderFits u32Add
                unfold tarBlockSize at *
                omega
              have read : nextHeader m cursor ∈ headersRead m limit 1 (nextHeader m cursor) := by
                rw [headersRead, if_pos again]
                exact List.mem_cons_self
              have order := increasing 2
              rw [step, List.pairwise_cons] at order
              have later := order.1 _ read
              have within := inside 2 (nextHeader m cursor) (by
                rw [step]
                exact List.mem_cons_of_mem _ read)
              unfold Roomy at roomy
              unfold tarBlockSize at *
              omega
            refine .entry room zero fits (ih _ ?_ fits.roomy (fun fuel => ?_) fun fuel => ?_)
            · unfold tarBlockSize at *
              omega
            · have order := increasing (fuel + 1)
              rw [step, List.pairwise_cons, fits.next] at order
              exact order.2
            · intro header member
              refine inside (fuel + 1) header ?_
              rw [step, fits.next]
              exact List.mem_cons_of_mem _ member
      · exact .short (by omega)

end

theorem roomy_start {moduleStart : Nat} (start : moduleStart < kernelDirectMapLimitPhys) :
    Roomy (kernelVma + moduleStart) := by
  unfold kernelDirectMapLimitPhys at start
  unfold Roomy kernelVma tarBlockSize
  omega

/-- **The initrd scan.**  For every module within the direct map of the PAE
tables, `vfs_load_initrd_module` ends and reads headers from front to back inside
the module exactly if the entries of the archive fit. -/
theorem initrd_scan_behaves_iff {layout : Layout} {words : WordMemory}
    (direct : DirectMap layout words) {moduleStart moduleEnd : Nat}
    (start : moduleStart < kernelDirectMapLimitPhys) (stop : moduleEnd < kernelDirectMapLimitPhys)
    (m : ByteMemory) (v : FileTable) :
    ((∃ fuel v', vfsLoadInitrdModule (paePhysToVirt layout words) m fuel v moduleStart moduleEnd =
          .ok (some v')) ∧
        ScanBehaves m v (kernelVma + moduleStart) (kernelVma + moduleEnd)) ↔
      Archive m (kernelVma + moduleEnd) (kernelVma + moduleStart) := by
  have roomy := roomy_start start
  constructor
  · rintro ⟨-, behaves⟩
    refine archive_of_headersRead ?_ _ _ (Nat.le_refl _) roomy behaves.increasing
      fun fuel header member => (behaves.inside fuel header member).2
    unfold kernelDirectMapLimitPhys at stop
    unfold kernelVma
    omega
  · intro archive
    have behaves := archive.behaves roomy v
    obtain ⟨fuel, v', ended⟩ := behaves.ends
    refine ⟨⟨fuel, v', ?_⟩, behaves⟩
    unfold vfsLoadInitrdModule
    rw [paePhysToVirt_ok direct start, paePhysToVirt_ok direct stop]
    exact congrArg Except.ok ended

/-- A memory with an archive at 4 MiB: one header, whose size field starts with
these characters. -/
def sizeField (digits : List (BitVec 8)) : ByteMemory :=
  fun a => if 0xC040007C ≤ a then digits.getD (a - 0xC040007C) 0 else 0

/-- The kernel's direct map after `pae_prepare_bootstrap_tables`. -/
def bootPointer : Nat → Except Panic Nat :=
  paePhysToVirt twoMibLayout (paePrepareBootstrapTables twoMibLayout fun _ => 0)

theorem bootPointer_ok {physical : Nat} (below : physical < kernelDirectMapLimitPhys) :
    bootPointer physical = .ok (kernelVma + physical) :=
  paePhysToVirt_ok bootstrap_directMap below

theorem fiveBytes_length : entryLength (sizeField [53]) 0xC0400000 = 0x400 := by decide +kernel

theorem fiveBytes_archive : Archive (sizeField [53]) 0xC0400800 0xC0400000 := by
  refine .entry (by decide) (by decide +kernel) ?_ ?_
  · unfold EntryFits
    rw [fiveBytes_length]
    decide
  · rw [fiveBytes_length]
    exact .zero (by decide) (by decide +kernel)

/-- An archive with a file of five bytes. -/
theorem initrd_scan_behaves_iff_fiveBytes :
    (∃ fuel v', vfsLoadInitrdModule bootPointer (sizeField [53]) fuel ⟨[]⟩ 0x400000 0x400800 =
      .ok (some v')) ∧ ScanBehaves (sizeField [53]) ⟨[]⟩ 0xC0400000 0xC0400800 := by
  exact (initrd_scan_behaves_iff bootstrap_directMap (show 0x400000 < _ by decide)
    (show 0x400800 < _ by decide) (sizeField [53]) ⟨[]⟩).mpr fiveBytes_archive

/-- With the size 037777777000 the header block and the data make 2^32 bytes: the
loop stays where it is. -/
theorem initrd_scan_never_ends :
    ¬ ∃ fuel v', vfsLoadInitrdModule bootPointer
      (sizeField [51, 55, 55, 55, 55, 55, 55, 55, 48, 48, 48]) fuel ⟨[]⟩ 0x400000 0x400200 =
        .ok (some v') := by
  rintro ⟨fuel, v', ended⟩
  have fits : HeaderFits 0xC0400200 0xC0400000 := by decide
  have entry : tarBlockIsZero (sizeField [51, 55, 55, 55, 55, 55, 55, 55, 48, 48, 48])
      0xC0400000 = false := by decide +kernel
  have still : nextHeader (sizeField [51, 55, 55, 55, 55, 55, 55, 55, 48, 48, 48])
      0xC0400000 = 0xC0400000 := by decide +kernel
  have forever : ∀ fuel v, scan (sizeField [51, 55, 55, 55, 55, 55, 55, 55, 48, 48, 48])
      0xC0400200 fuel v 0xC0400000 = none := by
    intro fuel
    induction fuel with
    | zero => exact fun _ => rfl
    | succ fuel ih =>
        intro v
        rw [scan_entry fits entry, still]
        exact ih _
  unfold vfsLoadInitrdModule at ended
  rw [bootPointer_ok (by decide), bootPointer_ok (by decide)] at ended
  exact Option.some_ne_none v' ((Except.ok.inj ended).symm.trans (forever fuel _))

end Dfos.Vfs
