import Dfos.Boot.FreeFrames

/-!
# The memory map

The map is a sequence of records, each with its payload size in front.
`wellFormedPrefix` reads the records that lie wholly in the map up to the first
one that does not, with sums that do not wrap.  The iterator of `bootinfo.c`
checks its cursors in 32-bit arithmetic and marks the end by a zero.  It yields
the same regions; only where the map ends in up to three stray bytes right at
the end of the direct map does the size field it reads there lie outside.
-/

namespace Dfos.Boot

open Dfos.Lib Dfos.Lib.ByteMemory Dfos.Pmm

/-! ## Records -/

/-- A record with at least the payload of a region that ends in the map. -/
def WellFormedRecord (m : ByteMemory) (mapEnd a : Nat) : Prop :=
  20 ≤ m.u32 a ∧ a + 4 + m.u32 a ≤ mapEnd

instance (m : ByteMemory) (mapEnd a : Nat) : Decidable (WellFormedRecord m mapEnd a) :=
  inferInstanceAs (Decidable (_ ∧ _))

/-- The region in a record. -/
def recordRegion (m : ByteMemory) (a : Nat) : MemoryRegion :=
  ⟨m.u64 (a + 4), m.u64 (a + 12), m.u32 (a + 20)⟩

/-- The regions of the longest front part of well-formed records, and where that
part ends. -/
def wellFormedPrefix (m : ByteMemory) (mapEnd a : Nat) : List MemoryRegion × Nat :=
  if _ : WellFormedRecord m mapEnd a then
    let (regions, stop) := wellFormedPrefix m mapEnd (a + 4 + m.u32 a)
    (recordRegion m a :: regions, stop)
  else ([], a)
termination_by mapEnd - a
decreasing_by
  unfold WellFormedRecord at *
  omega

/-- The regions of the map at the handoff. -/
def mapRegions (m : ByteMemory) (info : Nat) : List MemoryRegion :=
  (wellFormedPrefix m (mmapAddr m info + mmapLength m info) (mmapAddr m info)).1

/-- Behind its records the map has one to three more bytes, and a size field
there would reach past the direct map. -/
def CutSizeField (m : ByteMemory) (info : Nat) : Prop :=
  let stop := (wellFormedPrefix m (mmapAddr m info + mmapLength m info) (mmapAddr m info)).2
  stop < mmapAddr m info + mmapLength m info ∧ directMapLimitPhys < stop + 4

/-- The memory holds these regions as records with these payload sizes, from `a`
to `stop`. -/
def HoldsRecords (m : ByteMemory) (stop : Nat) : Nat → List (MemoryRegion × Nat) → Prop
  | a, [] => a = stop
  | a, (region, payload) :: records =>
      m.u32 a = payload ∧ 20 ≤ payload ∧ recordRegion m a = region ∧
        HoldsRecords m stop (a + 4 + payload) records

/-- The regions that the calls of `bootinfo_memory_next` yield from a cursor on,
up to the first that yields none. -/
inductive Yields (m : ByteMemory) (info : Nat) : Nat → List MemoryRegion → Prop
  | done {cursor : Nat} (none : bootinfoMemoryNext m info cursor = .ok none) : Yields m info cursor []
  | more {cursor next : Nat} {region : MemoryRegion} {regions : List MemoryRegion}
    (found : bootinfoMemoryNext m info cursor = .ok (some (region, next)))
    (rest : Yields m info next regions) : Yields m info cursor (region :: regions)

section Map

variable {m : ByteMemory} {info mapEnd a : Nat}

theorem wellFormedPrefix_record (well : WellFormedRecord m mapEnd a) :
    wellFormedPrefix m mapEnd a =
      (recordRegion m a :: (wellFormedPrefix m mapEnd (a + 4 + m.u32 a)).1,
        (wellFormedPrefix m mapEnd (a + 4 + m.u32 a)).2) := by
  rw [wellFormedPrefix, dif_pos well]

theorem wellFormedPrefix_stop (ill : ¬ WellFormedRecord m mapEnd a) :
    wellFormedPrefix m mapEnd a = ([], a) := by
  rw [wellFormedPrefix, dif_neg ill]

/-- A map filled with records has all of them as its front part. -/
theorem HoldsRecords.wellFormedPrefix_eq {records : List (MemoryRegion × Nat)}
    (holds : HoldsRecords m mapEnd a records) :
    a ≤ mapEnd ∧ wellFormedPrefix m mapEnd a = (records.map Prod.fst, mapEnd) := by
  induction records generalizing a with
  | nil =>
    have here : a = mapEnd := holds
    have ill : ¬ WellFormedRecord m mapEnd a := by
      unfold WellFormedRecord
      omega
    exact ⟨here.le, by rw [wellFormedPrefix_stop ill, here, List.map_nil]⟩
  | cons record records ih =>
    obtain ⟨region, payload⟩ := record
    obtain ⟨rfl, enough, rfl, rest⟩ := holds
    obtain ⟨within, later⟩ := ih rest
    refine ⟨by omega, ?_⟩
    rw [wellFormedPrefix_record ⟨enough, within⟩, later, List.map_cons]

/-- The checks of the decoder in 32-bit arithmetic. -/
theorem wellFormedRecord_iff (before : a < mapEnd) (aperture : mapEnd ≤ directMapLimitPhys) :
    WellFormedRecord m mapEnd a ↔
      ¬ m.u32 a < multibootMemoryMapSize - 4 ∧ ¬ u32Add (m.u32 a) 4 < 4 ∧
        ¬ (u32Add a (u32Add (m.u32 a) 4) ≤ a ∨ mapEnd < u32Add a (u32Add (m.u32 a) 4)) := by
  have word := u32_lt m a
  unfold WellFormedRecord multibootMemoryMapSize directMapLimitPhys u32Add at *
  omega

theorem yields_of_none {cursor : Nat} (none : bootinfoMemoryNext m info cursor = .ok none)
    (regions : List MemoryRegion) : Yields m info cursor regions ↔ regions = [] := by
  refine ⟨fun yields => ?_, fun empty => empty ▸ .done none⟩
  cases yields with
  | done => rfl
  | more found => rw [none] at found; cases found

theorem yields_of_some {cursor next : Nat} {region : MemoryRegion}
    (found : bootinfoMemoryNext m info cursor = .ok (some (region, next)))
    (regions : List MemoryRegion) :
    Yields m info cursor regions ↔ ∃ rest, regions = region :: rest ∧ Yields m info next rest := by
  constructor
  · intro yields
    cases yields with
    | done none => rw [found] at none; cases none
    | more found' rest =>
      rw [found] at found'
      cases found'
      exact ⟨_, rfl, rest⟩
  · rintro ⟨rest, rfl, yields⟩
    exact .more found yields

theorem not_yields_of_error {cursor : Nat} {text : String}
    (fault : bootinfoMemoryNext m info cursor = .error text) (regions : List MemoryRegion) :
    ¬ Yields m info cursor regions := by
  intro yields
  cases yields with
  | done none => rw [fault] at none; cases none
  | more found => rw [fault] at found; cases found

theorem throughDirectMap_of_le {phys size : Nat} (positive : 0 < size)
    (inside : phys + size ≤ directMapLimitPhys) : throughDirectMap phys size = .ok () := by
  rw [throughDirectMap, if_neg (by omega), if_neg (by omega)]

theorem multibootMapBounds_aperture (provided : flags m info &&& multibootInfoMemMap ≠ 0)
    (inside : mmapAddr m info + mmapLength m info ≤ directMapLimitPhys) :
    multibootMapBounds m info =
      some (mmapAddr m info, mmapAddr m info + mmapLength m info) := by
  have sum : u32Add (mmapAddr m info) (mmapLength m info) =
      mmapAddr m info + mmapLength m info :=
    u32Add_eq (by unfold directMapLimitPhys at inside; omega)
  unfold multibootMapBounds
  rw [if_neg provided]
  dsimp only
  rw [sum, if_neg (by omega)]

section Cursor

variable {mapStart : Nat} (bounds : multibootMapBounds m info = some (mapStart, mapEnd))
  (positive : 0 < mapStart) (aperture : mapEnd ≤ directMapLimitPhys)

include bounds positive aperture

/-- A cursor at a well-formed record. -/
theorem bootinfoMemoryNext_record (after : mapStart ≤ a) (well : WellFormedRecord m mapEnd a) :
    bootinfoMemoryNext m info a = .ok (some (recordRegion m a,
      if mapEnd ≤ a + 4 + m.u32 a then 0 else a + 4 + m.u32 a)) := by
  obtain ⟨enough, within⟩ := id well
  have before : a < mapEnd := by omega
  obtain ⟨payload, entry, next⟩ := (wellFormedRecord_iff before aperture).mp well
  have inside : ¬ (a < mapStart ∨ mapEnd ≤ a) := by omega
  have advanced : u32Add a (u32Add (m.u32 a) 4) = a + 4 + m.u32 a := by
    unfold directMapLimitPhys u32Add at *
    omega
  have size : throughDirectMap a 4 = .ok () := throughDirectMap_of_le (by decide) (by omega)
  have whole : throughDirectMap a multibootMemoryMapSize = .ok () :=
    throughDirectMap_of_le (by decide) (by unfold multibootMemoryMapSize; omega)
  have decoded : multibootDecodeMemoryRegion m info a =
      .ok (some (recordRegion m a, a + 4 + m.u32 a)) := by
    unfold multibootDecodeMemoryRegion
    simp only [bounds, if_neg inside, size, bind, Except.bind, if_neg payload, if_neg entry,
      if_neg next, whole]
    rw [advanced]
    rfl
  unfold bootinfoMemoryNext
  rw [if_neg (by omega), bounds]
  dsimp only
  rw [if_neg inside, decoded]
  rfl

/-- A cursor in the map at something else. -/
theorem bootinfoMemoryNext_ill (after : mapStart ≤ a) (before : a < mapEnd)
    (ill : ¬ WellFormedRecord m mapEnd a) :
    bootinfoMemoryNext m info a = (throughDirectMap a 4).map fun _ => none := by
  have inside : ¬ (a < mapStart ∨ mapEnd ≤ a) := by omega
  rw [wellFormedRecord_iff before aperture] at ill
  have refused : multibootDecodeMemoryRegion m info a =
      (throughDirectMap a 4).map fun _ => none := by
    unfold multibootDecodeMemoryRegion
    rw [bounds]
    dsimp only
    rw [if_neg inside]
    cases throughDirectMap a 4 with
    | error text => rfl
    | ok done =>
      dsimp only [bind, Except.bind, Except.map]
      by_cases payload : m.u32 a < multibootMemoryMapSize - 4
      · rw [if_pos payload]
        rfl
      by_cases entry : u32Add (m.u32 a) 4 < 4
      · rw [if_neg payload, if_pos entry]
        rfl
      · have next := not_not.mp fun open' => ill ⟨payload, entry, open'⟩
        rw [if_neg payload, if_neg entry, if_pos next]
        rfl
  unfold bootinfoMemoryNext
  rw [if_neg (by omega), bounds]
  dsimp only
  rw [if_neg inside, refused]
  cases throughDirectMap a 4 <;> rfl

/-- **The iteration from a cursor**, which is zero at the end of the map. -/
theorem yields_iff (after : mapStart ≤ a) (regions : List MemoryRegion) :
    Yields m info (if mapEnd ≤ a then 0 else a) regions ↔
      regions = (wellFormedPrefix m mapEnd a).1 ∧
        ¬ ((wellFormedPrefix m mapEnd a).2 < mapEnd ∧
          directMapLimitPhys < (wellFormedPrefix m mapEnd a).2 + 4) := by
  induction a using wellFormedPrefix.induct m mapEnd generalizing regions with
  | case1 a well rest stop found ih =>
    obtain ⟨enough, within⟩ := id well
    rw [if_neg (by omega), wellFormedPrefix_record well,
      yields_of_some (bootinfoMemoryNext_record bounds positive aperture after well)]
    have later := ih (by omega)
    constructor
    · rintro ⟨tail, rfl, yields⟩
      obtain ⟨same, open'⟩ := (later tail).mp yields
      exact ⟨congrArg _ same, open'⟩
    · rintro ⟨rfl, open'⟩
      exact ⟨_, rfl, (later _).mpr ⟨rfl, open'⟩⟩
  | case2 a ill =>
    rw [wellFormedPrefix_stop ill]
    by_cases before : a < mapEnd
    · have next := bootinfoMemoryNext_ill bounds positive aperture after before ill
      rw [if_neg (by omega)]
      by_cases readable : a + 4 ≤ directMapLimitPhys
      · rw [throughDirectMap_of_le (by decide) readable] at next
        rw [yields_of_none next]
        exact ⟨fun empty => ⟨empty, by dsimp only; omega⟩, And.left⟩
      · have fault : throughDirectMap a 4 = .error "page fault past the direct map" := by
          rw [throughDirectMap, if_neg (by omega), if_pos (by omega)]
        rw [fault] at next
        refine ⟨fun yields => (not_yields_of_error next _ yields).elim, fun open' => ?_⟩
        exact (open'.2 ⟨before, by dsimp only; omega⟩).elim
    · rw [if_pos (by omega), yields_of_none bootinfoMemoryNext_zero]
      exact ⟨fun empty => ⟨empty, fun cut => before cut.1⟩, And.left⟩

theorem yields_begin (regions : List MemoryRegion) :
    Yields m info (bootinfoMemoryBegin m info) regions ↔
      regions = (wellFormedPrefix m mapEnd mapStart).1 ∧
        ¬ ((wellFormedPrefix m mapEnd mapStart).2 < mapEnd ∧
          directMapLimitPhys < (wellFormedPrefix m mapEnd mapStart).2 + 4) := by
  have begins : bootinfoMemoryBegin m info = mapStart := by
    unfold bootinfoMemoryBegin
    rw [bounds]
  rw [begins, ← yields_iff bounds positive aperture (le_refl mapStart)]
  by_cases empty : mapEnd ≤ mapStart
  · have none : bootinfoMemoryNext m info mapStart = .ok none := by
      unfold bootinfoMemoryNext
      rw [if_neg (by omega), bounds]
      dsimp only
      rw [if_pos (Or.inr empty)]
      rfl
    rw [if_pos empty, yields_of_none none, yields_of_none bootinfoMemoryNext_zero]
  · rw [if_neg empty]

end Cursor

/-- **The iterator decodes the memory map**, through the direct map as it is in PAE
mode.  It ends and yields the regions of the longest front part of well-formed
records, unless a cut size field at the end of the direct map faults.  A map that
is filled with records is read completely. -/
theorem memory_map_decoded_iff (provided : flags m info &&& multibootInfoMemMap ≠ 0)
    (nonzero : 0 < mmapAddr m info)
    (inside : mmapAddr m info + mmapLength m info ≤ directMapLimitPhys) :
    (Yields m info (bootinfoMemoryBegin m info) (mapRegions m info) ↔ ¬ CutSizeField m info) ∧
    ∀ records, HoldsRecords m (mmapAddr m info + mmapLength m info) (mmapAddr m info) records →
      Yields m info (bootinfoMemoryBegin m info) (records.map Prod.fst) := by
  have bounds := multibootMapBounds_aperture provided inside
  refine ⟨?_, fun records holds => ?_⟩
  · rw [yields_begin bounds nonzero inside]
    exact and_iff_right rfl
  · rw [yields_begin bounds nonzero inside, holds.wellFormedPrefix_eq.2]
    exact ⟨rfl, fun cut => absurd cut.1 (lt_irrefl _)⟩

end Map

/-- The loader's map of one record. -/
theorem memory_map_decoded_loader :
    Yields (loaderMemory 0x100000 0x700000 0x9070) 0x9000
      (bootinfoMemoryBegin (loaderMemory 0x100000 0x700000 0x9070) 0x9000)
      [⟨0x100000, 0x700000, 1⟩] :=
  (memory_map_decoded_iff (by decide +kernel) (by decide +kernel) (by decide +kernel)).2
    [(⟨0x100000, 0x700000, 1⟩, 20)] (by
      refine ⟨by decide +kernel, by decide, by decide +kernel, ?_⟩
      show _ = _
      decide +kernel)

/-- A map of two bytes at the end of the direct map. -/
def cutMap : ByteMemory :=
  overlay (fun _ => 0#8) 0x9000 52 <| wordBytes [0x40, 0, 0, 0, 0, 0, 0, 0, 0, 0, 0, 2, 0xffffffe]

theorem cutMap_faults :
    flags cutMap 0x9000 &&& multibootInfoMemMap ≠ 0 ∧ 0 < mmapAddr cutMap 0x9000 ∧
      mmapAddr cutMap 0x9000 + mmapLength cutMap 0x9000 ≤ directMapLimitPhys ∧
      bootinfoMemoryNext cutMap 0x9000 (bootinfoMemoryBegin cutMap 0x9000) =
        .error "page fault past the direct map" ∧
      ¬ ∃ regions, Yields cutMap 0x9000 (bootinfoMemoryBegin cutMap 0x9000) regions := by
  have fault : bootinfoMemoryNext cutMap 0x9000 (bootinfoMemoryBegin cutMap 0x9000) =
      .error "page fault past the direct map" := by
    decide +kernel
  refine ⟨by decide +kernel, by decide +kernel, by decide +kernel, fault, ?_⟩
  rintro ⟨regions, yields⟩
  exact not_yields_of_error fault regions yields

end Dfos.Boot
