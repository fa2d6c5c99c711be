import Dfos.Lib.Result
import Dfos.Paging.Tables
import Mathlib.Data.Finset.Card
import Mathlib.Data.Finset.Range
import Mathlib.Data.List.Dedup
import Mathlib.Logic.Function.Basic

/-!
# The MP configuration table

`mp_collect_cpu_ids` of `kernel/arch/i386/cpu.c` on the bytes of a table, whose
addresses are offsets from its header.  Every load of a byte is checked against
the header and the length that it gives, and every store against the 256 entries
of `apic_ids`.
-/

namespace Dfos.Cpu

open Dfos.Lib
open Dfos.Paging (kernelDirectMapLimitPhys)

inductive TableFault where
  /-- `paging_phys_to_virt` panics. -/
  | exceedsDirectMapAperture
  | overread
  | overrun
  deriving DecidableEq, Repr

/-- The bytes from the header on. -/
abbrev TableBytes := Nat → UInt8

/-- `sizeof(mp_config_table_header_t)`. -/
def headerSize : Nat := 44

/-- `sizeof(mp_processor_entry_t)`. -/
def processorSize : Nat := 20

namespace TableBytes

def u16 (bytes : TableBytes) (offset : Nat) : Nat :=
  (bytes offset).toNat + 256 * (bytes (offset + 1)).toNat

/-- `header->base_table_length`. -/
def baseTableLength (bytes : TableBytes) : Nat := u16 bytes 4

/-- `header->entry_count`. -/
def entryCount (bytes : TableBytes) : Nat := u16 bytes 34

/-- `header->local_apic_address`. -/
def localApicAddress (bytes : TableBytes) : Nat := u16 bytes 36 + 2 ^ 16 * u16 bytes 38

/-- The table starts with `PCMP`. -/
def signed (bytes : TableBytes) : Bool :=
  bytes 0 = 0x50 && bytes 1 = 0x43 && bytes 2 = 0x4D && bytes 3 = 0x50

/-- A load of one byte. -/
def load (bytes : TableBytes) (offset : Nat) : Except TableFault UInt8 :=
  if offset < max headerSize (baseTableLength bytes) then .ok (bytes offset)
  else .error .overread

end TableBytes

/-- `byte_checksum` of the first `length` bytes. -/
def byteChecksum (bytes : TableBytes) : Nat → Except TableFault UInt8
  | 0 => .ok 0
  | length + 1 => do
      let sum ← byteChecksum bytes length
      let byte ← bytes.load length
      return sum + byte

/-- The locals of the loop: `seen`, what `apic_ids` holds so far, and `bsp_apic`. -/
structure Collected where
  seen : UInt8 → Bool
  apicIds : List UInt8
  bspApic : UInt8

/-- What an enabled processor does. -/
def Collected.add (found : Collected) (id : UInt8) (isBsp : Bool) :
    Except TableFault Collected :=
  let found := if isBsp then { found with bspApic := id } else found
  if found.seen id then .ok found
  else if found.apicIds.length < 256 then
    .ok { found with seen := Function.update found.seen id true, apicIds := found.apicIds ++ [id] }
  else .error .overrun

/-- The loop of `mp_collect_cpu_ids` over the entries that are left, from
`cursor` on; `none` is a return of `false`. -/
def collectLoop (bytes : TableBytes) :
    Nat → Nat → Collected → Except TableFault (Option Collected)
  | 0, _, found => .ok (some found)
  | left + 1, cursor, found =>
      let stop := bytes.baseTableLength
      if cursor < stop then do
        let type ← bytes.load cursor
        if type = 0 then
          if stop - cursor < processorSize then return none
          else
            let id ← bytes.load (cursor + 1)
            let flags ← bytes.load (cursor + 3)
            let found ← (if flags &&& 1 ≠ 0 then found.add id (flags &&& 2 ≠ 0) else .ok found)
            collectLoop bytes left (cursor + processorSize) found
        else if stop - cursor < 8 then return none
        else collectLoop bytes left (cursor + 8) found
      else return some found

/-- The fields of `mp_floating_pointer_t` that are read. -/
structure MpFloatingPointer where
  configTablePhys : Nat
  feature1 : UInt8

/-- `mp_collect_cpu_ids`: `lapic_base_phys` after it, and the ids with that of the
bootstrap processor unless it returns `false`.  `bytes` are those at
`config_table_phys`, `bootstrapId` is what CPUID says. -/
def mpCollectCpuIds (mp : Option MpFloatingPointer) (bytes : TableBytes) (bootstrapId : UInt8)
    (lapicBasePhys : Nat) : Except TableFault (Nat × Option (List UInt8 × UInt8)) :=
  match mp with
  | none => .ok (lapicBasePhys, none)
  | some mp =>
      if mp.configTablePhys = 0 ∨ mp.feature1 ≠ 0 then .ok (lapicBasePhys, none)
      else if kernelDirectMapLimitPhys ≤ mp.configTablePhys then .error .exceedsDirectMapAperture
      else if ¬ bytes.signed then .ok (lapicBasePhys, none)
      else if bytes.baseTableLength < headerSize then .ok (lapicBasePhys, none)
      else do
        let sum ← byteChecksum bytes bytes.baseTableLength
        if sum ≠ 0 then return (lapicBasePhys, none)
        else
          let found ← collectLoop bytes bytes.entryCount headerSize
            { seen := fun _ => false, apicIds := [], bspApic := bootstrapId }
          match found with
          | none => return (bytes.localApicAddress, none)
          | some found =>
              if found.apicIds = [] then return (bytes.localApicAddress, none)
              else return (bytes.localApicAddress, some (found.apicIds, found.bspApic))

/-! ## What the table lists -/

/-- The size of the entry at an offset. -/
def TableBytes.entrySize (bytes : TableBytes) (offset : Nat) : Nat :=
  if bytes offset = 0 then processorSize else 8

/-- The offsets of the first `count` entries from `offset` on, as far as they start
inside the table. -/
def TableBytes.listed (bytes : TableBytes) : Nat → Nat → List Nat
  | 0, _ => []
  | count + 1, offset =>
      if offset < bytes.baseTableLength then
        offset :: bytes.listed count (offset + bytes.entrySize offset)
      else []

/-- An entry that the end of the table cuts off. -/
def TableBytes.cut (bytes : TableBytes) (offset : Nat) : Bool :=
  bytes.baseTableLength < offset + bytes.entrySize offset

/-- An enabled processor. -/
def TableBytes.enabled (bytes : TableBytes) (offset : Nat) : Bool :=
  bytes offset = 0 && bytes (offset + 3) &&& 1 ≠ 0

/-- The ids of the enabled processors among the entries, each once and in the order
of their first appearance. -/
def TableBytes.idsOf (bytes : TableBytes) (entries : List Nat) : List UInt8 :=
  ((entries.filter bytes.enabled).map fun offset => bytes (offset + 1)).reverse.dedup.reverse

/-- The id of the last enabled processor that is flagged as bootstrap processor. -/
def TableBytes.bspOf (bytes : TableBytes) (entries : List Nat) : Option UInt8 :=
  ((entries.filter fun offset => bytes.enabled offset && bytes (offset + 3) &&& 2 ≠ 0).map
    fun offset => bytes (offset + 1)).getLast?

section Loop

variable {bytes : TableBytes} {bootstrapId : UInt8} {entries : List Nat} {offset : Nat}
  {found : Collected}

theorem TableBytes.load_ok (inside : offset < bytes.baseTableLength) :
    bytes.load offset = .ok (bytes offset) := if_pos (lt_max_of_lt_right inside)

/-- What the locals hold after some entries. -/
structure Collected.After (bytes : TableBytes) (bootstrapId : UInt8) (found : Collected)
    (entries : List Nat) : Prop where
  ids : found.apicIds = bytes.idsOf entries
  seen : ∀ id, found.seen id = true ↔ id ∈ found.apicIds
  bsp : found.bspApic = (bytes.bspOf entries).getD bootstrapId

theorem TableBytes.nodup_idsOf (bytes : TableBytes) (entries : List Nat) :
    (bytes.idsOf entries).Nodup := List.nodup_reverse.mpr (List.nodup_dedup _)

theorem length_le_of_nodup {ids : List UInt8} (distinct : ids.Nodup) : ids.length ≤ 256 := by
  have inside : (ids.map UInt8.toNat).toFinset ⊆ Finset.range 256 := by
    intro n mem
    obtain ⟨id, -, rfl⟩ := List.mem_map.mp (List.mem_toFinset.mp mem)
    exact Finset.mem_range.mpr id.toNat_lt
  have card := Finset.card_le_card inside
  rwa [List.toFinset_card_of_nodup (distinct.map fun _ _ => UInt8.toNat_inj.mp), List.length_map,
    Finset.card_range] at card

theorem TableBytes.idsOf_concat (bytes : TableBytes) (entries : List Nat) (offset : Nat) :
    bytes.idsOf (entries ++ [offset]) =
      if bytes.enabled offset = true ∧ bytes (offset + 1) ∉ bytes.idsOf entries then
        bytes.idsOf entries ++ [bytes (offset + 1)]
      else bytes.idsOf entries := by
  unfold TableBytes.idsOf
  cases enabled : bytes.enabled offset with
  | false => simp [enabled]
  | true =>
    rw [List.filter_append, List.filter_singleton, enabled, cond_true, List.map_append,
      List.map_singleton, List.reverse_append, List.reverse_singleton, List.singleton_append]
    generalize ((entries.filter bytes.enabled).map fun offset => bytes (offset + 1)).reverse = ids
    have mem : bytes (offset + 1) ∈ ids.dedup.reverse ↔ bytes (offset + 1) ∈ ids := by
      rw [List.mem_reverse, List.mem_dedup]
    by_cases old : bytes (offset + 1) ∈ ids
    · rw [List.dedup_cons_of_mem old, if_neg fun new => new.2 (mem.mpr old)]
    · rw [List.dedup_cons_of_notMem old, if_pos ⟨rfl, fun found => old (mem.mp found)⟩,
        List.reverse_cons]

theorem TableBytes.bspOf_concat (bytes : TableBytes) (entries : List Nat) (offset : Nat) :
    bytes.bspOf (entries ++ [offset]) =
      if bytes.enabled offset = true ∧ bytes (offset + 3) &&& 2 ≠ 0 then some (bytes (offset + 1))
      else bytes.bspOf entries := by
  unfold TableBytes.bspOf
  rw [List.filter_append, List.map_append]
  by_cases flagged : bytes.enabled offset = true ∧ bytes (offset + 3) &&& 2 ≠ 0
  · rw [if_pos flagged, List.filter_singleton, flagged.1, decide_eq_true flagged.2]
    simp
  · have skipped : (bytes.enabled offset && decide (bytes (offset + 3) &&& 2 ≠ 0)) = false := by
      simpa using flagged
    rw [if_neg flagged, List.filter_singleton, skipped]
    simp

/-- An entry that is not an enabled processor changes nothing. -/
theorem Collected.After.skip (after : found.After bytes bootstrapId entries)
    (disabled : bytes.enabled offset = false) :
    found.After bytes bootstrapId (entries ++ [offset]) where
  ids := by rw [bytes.idsOf_concat, if_neg (by simp [disabled])]; exact after.ids
  seen := after.seen
  bsp := by rw [bytes.bspOf_concat, if_neg (by simp [disabled])]; exact after.bsp

/-- An enabled processor is added once. -/
theorem Collected.After.add (offset : Nat) (after : found.After bytes bootstrapId entries)
    (enabled : bytes.enabled offset = true) :
    ∃ found', found.add (bytes (offset + 1)) (bytes (offset + 3) &&& 2 ≠ 0) = .ok found' ∧
      found'.After bytes bootstrapId (entries ++ [offset]) := by
  have bsp : (if bytes (offset + 3) &&& 2 ≠ 0 then bytes (offset + 1) else found.bspApic) =
      (bytes.bspOf (entries ++ [offset])).getD bootstrapId := by
    rw [bytes.bspOf_concat]
    by_cases flagged : bytes (offset + 3) &&& 2 ≠ 0
    · rw [if_pos flagged, if_pos ⟨enabled, flagged⟩]
      rfl
    · rw [if_neg flagged, if_neg fun both => flagged both.2]
      exact after.bsp
  have distinct := bytes.nodup_idsOf (entries ++ [offset])
  have concat := bytes.idsOf_concat entries offset
  rw [← after.ids] at concat
  generalize flag : decide (bytes (offset + 3) &&& 2 ≠ 0) = isBsp at *
  generalize bytes (offset + 1) = id at *
  have seen := after.seen id
  -- `bsp_apic` is set first, then the id is looked up
  have first : (if isBsp then { found with bspApic := id } else found) =
      { found with bspApic := if bytes (offset + 3) &&& 2 ≠ 0 then id else found.bspApic } := by
    rw [← flag]
    by_cases flagged : bytes (offset + 3) &&& 2 ≠ 0
    · rw [if_pos (decide_eq_true flagged), if_pos flagged]
    · rw [if_neg (by simpa using flagged), if_neg flagged]
  unfold Collected.add
  rw [first]
  dsimp only
  by_cases old : found.seen id = true
  · rw [if_pos old]
    rw [if_neg fun new => new.2 (seen.mp old)] at concat
    exact ⟨_, rfl, concat.symm, after.seen, bsp⟩
  · rw [if_pos ⟨enabled, fun mem => old (seen.mpr mem)⟩] at concat
    have short := length_le_of_nodup distinct
    rw [concat, List.length_append, List.length_singleton] at short
    rw [if_neg old, if_pos (by omega)]
    refine ⟨_, rfl, concat.symm, fun other => ?_, bsp⟩
    dsimp only
    rw [List.mem_append, List.mem_singleton, ← after.seen other]
    by_cases same : other = id
    · subst same
      simp
    · rw [Function.update_of_ne same]
      simp [same]

/-- The loop has gone through the entries of `rest` after those of `entries`. -/
def Collected.Ends (bytes : TableBytes) (bootstrapId : UInt8) (entries rest : List Nat)
    (outcome : Except TableFault (Option Collected)) : Prop :=
  ∃ result, outcome = .ok result ∧
    if rest.any bytes.cut then result = none
    else ∃ found, result = some found ∧ found.After bytes bootstrapId (entries ++ rest)

theorem Collected.Ends.cons {rest : List Nat} {outcome : Except TableFault (Option Collected)}
    (ends : Collected.Ends bytes bootstrapId (entries ++ [offset]) rest outcome)
    (whole : ¬ bytes.cut offset = true) :
    Collected.Ends bytes bootstrapId entries (offset :: rest) outcome := by
  obtain ⟨result, done, spec⟩ := ends
  rw [List.append_assoc, List.singleton_append] at spec
  rw [Bool.not_eq_true] at whole
  refine ⟨result, done, ?_⟩
  rwa [List.any_cons, whole, Bool.false_or]

theorem Collected.ends_cut (rest : List Nat) (cut : bytes.cut offset = true) :
    Collected.Ends bytes bootstrapId entries (offset :: rest) (.ok none) := by
  refine ⟨none, rfl, ?_⟩
  rw [List.any_cons, cut, Bool.true_or]
  exact rfl

/-- **The loop** reads inside the table, refuses a cut entry, and adds the entries
that are left. -/
theorem collectLoop_ends (left cursor : Nat) (after : found.After bytes bootstrapId entries) :
    Collected.Ends bytes bootstrapId entries (bytes.listed left cursor)
      (collectLoop bytes left cursor found) := by
  induction left generalizing cursor entries found with
  | zero => exact ⟨some found, rfl, found, rfl, by rwa [TableBytes.listed, List.append_nil]⟩
  | succ left ih =>
    rw [collectLoop, TableBytes.listed]
    by_cases inside : cursor < bytes.baseTableLength
    case neg =>
      rw [if_neg inside, if_neg inside]
      exact ⟨some found, rfl, found, rfl, by rwa [List.append_nil]⟩
    have cutIff : bytes.cut cursor = true ↔
        bytes.baseTableLength - cursor < bytes.entrySize cursor := by
      rw [TableBytes.cut, decide_eq_true_iff]
      omega
    rw [if_pos inside, if_pos inside, TableBytes.load_ok inside]
    simp only [bind, Except.bind]
    by_cases processor : bytes cursor = 0
    · have size : bytes.entrySize cursor = processorSize := if_pos processor
      rw [if_pos processor, ← size]
      by_cases short : bytes.baseTableLength - cursor < bytes.entrySize cursor
      · rw [if_pos short]
        exact Collected.ends_cut _ (cutIff.mpr short)
      · have room : cursor + 20 ≤ bytes.baseTableLength := by
          rw [size, processorSize] at short
          omega
        rw [if_neg short, TableBytes.load_ok (by omega), TableBytes.load_ok (by omega)]
        dsimp only
        by_cases enabled : bytes (cursor + 3) &&& 1 ≠ 0
        · obtain ⟨found', added, after'⟩ := Collected.After.add cursor after
            (by simp [TableBytes.enabled, processor, enabled])
          rw [if_pos enabled, added]
          exact (ih _ after').cons (mt cutIff.mp short)
        · have skipped : bytes.enabled cursor = false := by
            simpa [TableBytes.enabled, processor] using enabled
          rw [if_neg enabled]
          exact (ih _ (after.skip skipped)).cons (mt cutIff.mp short)
    · have size : bytes.entrySize cursor = 8 := if_neg processor
      have skipped : bytes.enabled cursor = false := by simp [TableBytes.enabled, processor]
      rw [if_neg processor, ← size]
      by_cases short : bytes.baseTableLength - cursor < bytes.entrySize cursor
      · rw [if_pos short]
        exact Collected.ends_cut _ (cutIff.mpr short)
      · rw [if_neg short]
        exact (ih _ (after.skip skipped)).cons (mt cutIff.mp short)

end Loop

/-- The entries that the header announces and that start inside the table. -/
def TableBytes.entries (bytes : TableBytes) : List Nat := bytes.listed bytes.entryCount headerSize

/-- **The table is parsed exactly.**  On any table inside the direct map, with
signature, length and checksum, the call returns and reads no byte outside the table.  It fails if an
entry is cut off or no processor is enabled; otherwise it gives the ids of the
enabled processors, and the bootstrap processor that the table names last, or the
one that CPUID names. -/
theorem mp_table_parsed_exactly (mp : MpFloatingPointer) (bytes : TableBytes) (bootstrapId : UInt8)
    (lapicBasePhys : Nat) (present : mp.configTablePhys ≠ 0) (feature : mp.feature1 = 0)
    (inside : mp.configTablePhys + bytes.baseTableLength ≤ kernelDirectMapLimitPhys)
    (signature : bytes.signed = true) (long : 44 ≤ bytes.baseTableLength)
    (checksum : byteChecksum bytes bytes.baseTableLength = .ok 0) :
    mpCollectCpuIds (some mp) bytes bootstrapId lapicBasePhys =
        .ok (bytes.localApicAddress,
          if bytes.entries.any bytes.cut ∨ bytes.entries.filter bytes.enabled = [] then none
          else some (bytes.idsOf bytes.entries,
            (bytes.bspOf bytes.entries).getD bootstrapId)) ∧
      (bytes.idsOf bytes.entries).length ≤ 256 := by
  refine ⟨?_, length_le_of_nodup (bytes.nodup_idsOf _)⟩
  have start : Collected.After bytes bootstrapId
      { seen := fun _ => false, apicIds := [], bspApic := bootstrapId } [] :=
    ⟨rfl, fun id => by simp, rfl⟩
  obtain ⟨result, done, spec⟩ := collectLoop_ends bytes.entryCount headerSize start
  rw [List.nil_append, ← TableBytes.entries] at spec
  unfold mpCollectCpuIds
  dsimp only
  rw [if_neg (by simp [present, feature]), if_neg (by omega), if_neg (by simp [signature]),
    if_neg (by unfold headerSize; omega), checksum]
  simp only [bind, Except.bind, ne_eq, not_true_eq_false, if_false, done]
  split at spec
  · next cut =>
    subst spec
    rw [if_pos (.inl cut)]
    rfl
  · next whole =>
    obtain ⟨found, rfl, after⟩ := spec
    have none : found.apicIds = [] ↔ bytes.entries.filter bytes.enabled = [] := by
      rw [after.ids, TableBytes.idsOf, List.reverse_eq_nil_iff, List.dedup_eq_nil,
        List.reverse_eq_nil_iff, List.map_eq_nil_iff]
    dsimp only
    rw [if_congr none rfl rfl]
    by_cases empty : bytes.entries.filter bytes.enabled = []
    · rw [if_pos empty, if_pos (.inr empty)]
      rfl
    · rw [if_neg empty, if_neg (by rintro (cut | none); exacts [whole cut, empty none]),
        ← after.ids, ← after.bsp]
      rfl

/-- A table with the bootstrap processor, a bus, the bootstrap processor again, and
a second processor. -/
def twoProcessors : TableBytes := fun offset =>
  match offset with
  | 0 => 0x50 | 1 => 0x43 | 2 => 0x4D | 3 => 0x50
  | 4 => 112 | 7 => 0x45 | 34 => 4
  | 45 => 5 | 47 => 3 | 64 => 1 | 73 => 5 | 75 => 1 | 93 => 7 | 95 => 1
  | _ => 0

theorem mp_table_parsed_exactly_twoProcessors :
    mpCollectCpuIds (some ⟨0x9FC00, 0⟩) twoProcessors 0 0xFEE00000 = .ok (0, some ([5, 7], 5)) :=
  (mp_table_parsed_exactly ⟨0x9FC00, 0⟩ twoProcessors 0 0xFEE00000 (by decide) rfl (by decide)
    (by decide) (by decide) (by decide +kernel)).1.trans (by decide +kernel)

end Dfos.Cpu
