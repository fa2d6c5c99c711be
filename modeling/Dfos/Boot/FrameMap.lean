import Dfos.Boot.Bootinfo
import Dfos.Lib.Result
import Dfos.Pmm.BootRanges

/-!
# `pmm_init` on a handoff in memory

`pmm_init` puts the frame bitmap right behind the kernel image and fills it
before it has read the handoff a second time.  So the accessors it calls from
then on read a memory in which the bitmap's pages hold the bitmap.  When no
structure of the loader lies there, the handoff answers as before, and the
outcome is `pmmInit` on the answers.
-/

namespace Dfos.Boot

open Dfos.Lib Dfos.Lib.ByteMemory Dfos.Pmm

/-! ## The model -/

section Model

variable (m : ByteMemory) (h : Handoff)

/-- The first pass of `pmm_init`. -/
def highestOf : Except String Nat :=
  if bootinfoHasMemoryMap m h.infoPhys then forRegions (fun _ => m) h.infoPhys raiseHighest 0
  else if bootinfoHasMemoryKibInfo m h.infoPhys then
    .ok (kibHighest (bootinfoUpperMemoryKib m h.infoPhys))
  else .error "no memory map provided by bootloader"

/-- Where the bitmap starts. -/
def Handoff.bitmapPhys : Nat := alignUpU32 h.kernelEndPhys pageSize

/-- Physical memory once the bitmap is in place. -/
def bitmapView (totalFrames : Nat) (s : PmmState) : ByteMemory :=
  m.overlay h.bitmapPhys (bitmapBytes totalFrames) s.frameBitmap

/-- One round of the loop over the modules. -/
def reserveModuleAt (view : PmmState → ByteMemory) (s : PmmState) (index : Nat) :
    Except String PmmState := do
  match ← bootinfoModuleAt (view s) h.infoPhys index with
  | none => return s
  | some module => return reserveModule s module

/-- The reservations up to the module table. -/
def reserveTables (view : PmmState → ByteMemory) (totalFrames : Nat) (s : PmmState) : PmmState :=
  let s := pmmReserveRange s 0 0x100000
  let s := pmmReserveRange s h.kernelStartPhys (h.kernelEndPhys - h.kernelStartPhys)
  let s := pmmReserveRange s h.bitmapPhys (bitmapBytes totalFrames)
  let s := if h.infoPhys ≠ 0 ∧ multibootInfoSize ≠ 0 then
    pmmReserveRange s h.infoPhys multibootInfoSize else s
  let s := if bootinfoHasMemoryMap (view s) h.infoPhys then
    pmmReserveRange s (bootinfoMemoryMapPhys (view s) h.infoPhys)
      (bootinfoMemoryMapSize (view s) h.infoPhys) else s
  if bootinfoModuleTablePhys (view s) h.infoPhys ≠ 0 ∧
      bootinfoModuleTableSize (view s) h.infoPhys ≠ 0 then
    pmmReserveRange s (bootinfoModuleTablePhys (view s) h.infoPhys)
      (bootinfoModuleTableSize (view s) h.infoPhys) else s

/-- The second pass of `pmm_init`. -/
def markMap (view : PmmState → ByteMemory) (s : PmmState) : Except String PmmState :=
  if bootinfoHasMemoryMap (view s) h.infoPhys then forRegions view h.infoPhys markRegion s
  else .ok s

/-- `pmm_init` behind the placement of the bitmap. -/
def fillFrames (view : PmmState → ByteMemory) (totalFrames : Nat) (s : PmmState) :
    Except String PmmState := do
  let s ← markMap h view s
  let s := reserveTables h view totalFrames s
  let s ← (List.range (bootinfoModuleCount (view s) h.infoPhys)).foldlM (reserveModuleAt h view) s
  return { pmmRecountNumaFreeFramesLocked s with initialized := true }

/-- `pmm_init` after `bootinfo_init`. -/
def pmmInitAt : Except String PmmState := do
  throughDirectMap h.infoPhys infoFieldsSize
  let highest ← highestOf m h
  if highest = 0 then throw "bootloader reported zero physical memory"
  let totalFrames := managedFrames highest
  let bitmapEndPhys := u32Add h.bitmapPhys (bitmapBytes totalFrames)
  if pagingWindowEndPhys ≤ bitmapEndPhys then
    throw "frame bitmap exceeds bootstrap mapping window"
  fillFrames h (bitmapView m h totalFrames) totalFrames (allTaken totalFrames bitmapEndPhys)

end Model

/-! ## Iterating -/

section Iterating

variable {m : ByteMemory} {info : Nat} {σ : Type} {view : σ → ByteMemory}
  {step : σ → MemoryRegion → σ}

theorem bootinfoMemoryNext_zero : bootinfoMemoryNext m info 0 = .ok none := rfl

/-- The regions the iterator yields from a cursor on, behind those collected. -/
theorem collect_append (fuel cursor : Nat) (regions : List MemoryRegion) :
    forEachRegion (fun _ => m) info (fun regions region => regions ++ [region]) fuel cursor
        regions =
      (forEachRegion (fun _ => m) info (fun regions region => regions ++ [region]) fuel cursor
        []).map (regions ++ ·) := by
  induction fuel generalizing cursor regions with
  | zero => exact congrArg Except.ok (List.append_nil regions).symm
  | succ fuel ih =>
    unfold forEachRegion
    cases bootinfoMemoryNext m info cursor with
    | error text => rfl
    | ok entry =>
      rcases entry with _ | ⟨region, next⟩
      · exact congrArg Except.ok (List.append_nil regions).symm
      · dsimp only [bind, Except.bind]
        rw [ih next (regions ++ [region]), ih next ([] ++ [region])]
        cases forEachRegion (fun _ => m) info (fun regions region => regions ++ [region]) fuel next
          [] with
        | error text => rfl
        | ok later => exact congrArg Except.ok (List.append_assoc _ _ _)

/-- A loop over the regions folds the regions the iterator yields. -/
theorem forEachRegion_eq (agree : ∀ s c, bootinfoMemoryNext (view s) info c =
      bootinfoMemoryNext m info c) (fuel cursor : Nat) (s : σ) :
    forEachRegion view info step fuel cursor s =
      (forEachRegion (fun _ => m) info (fun regions region => regions ++ [region]) fuel cursor
        []).map (List.foldl step s) := by
  induction fuel generalizing cursor s with
  | zero => rfl
  | succ fuel ih =>
    unfold forEachRegion
    rw [agree]
    cases bootinfoMemoryNext m info cursor with
    | error text => rfl
    | ok entry =>
      rcases entry with _ | ⟨region, next⟩
      · rfl
      · dsimp only [bind, Except.bind]
        rw [ih, collect_append fuel next ([] ++ [region])]
        cases forEachRegion (fun _ => m) info (fun regions region => regions ++ [region]) fuel next
          [] with
        | error text => rfl
        | ok later => rfl

theorem forRegions_eq (begins : ∀ s, bootinfoMemoryBegin (view s) info =
      bootinfoMemoryBegin m info)
    (agree : ∀ s c, bootinfoMemoryNext (view s) info c = bootinfoMemoryNext m info c) (s : σ) :
    forRegions view info step s = (bootinfoRegions m info).map (List.foldl step s) := by
  unfold forRegions
  rw [begins]
  exact forEachRegion_eq agree _ _ s

end Iterating

/-! ## Answers that do not change -/

section Agreement

variable {m v : ByteMemory} {info : Nat}

/-- Two memories in which the info structure and the memory map are the same. -/
structure SameTables (m v : ByteMemory) (info : Nat) : Prop where
  fields : ∀ k, k + 4 ≤ infoFieldsSize → v.u32 (info + k) = m.u32 (info + k)
  map : ∀ k, k + 24 ≤ mmapLength m info → ∀ j, j + 4 ≤ 24 →
    v.u32 (mmapAddr m info + k + j) = m.u32 (mmapAddr m info + k + j)

variable (same : SameTables m v info)
include same

theorem SameTables.flags : flags v info = flags m info := same.fields 0 (by decide)

theorem SameTables.modsCount : modsCount v info = modsCount m info :=
  same.fields 20 (by decide)

theorem SameTables.modsAddr : modsAddr v info = modsAddr m info := same.fields 24 (by decide)

theorem SameTables.mmapLength : mmapLength v info = mmapLength m info :=
  same.fields 44 (by decide)

theorem SameTables.mmapAddr : mmapAddr v info = mmapAddr m info := same.fields 48 (by decide)

theorem SameTables.hasMemoryMap : bootinfoHasMemoryMap v info = bootinfoHasMemoryMap m info := by
  unfold bootinfoHasMemoryMap
  rw [same.flags, same.mmapLength]

theorem SameTables.memoryMap :
    bootinfoMemoryMapPhys v info = bootinfoMemoryMapPhys m info ∧
      bootinfoMemoryMapSize v info = bootinfoMemoryMapSize m info := by
  unfold bootinfoMemoryMapPhys bootinfoMemoryMapSize
  rw [same.hasMemoryMap, same.mmapAddr, same.mmapLength]
  exact ⟨rfl, rfl⟩

theorem SameTables.moduleCount : bootinfoModuleCount v info = bootinfoModuleCount m info := by
  unfold bootinfoModuleCount
  rw [same.flags, same.modsCount]

theorem SameTables.moduleTable :
    bootinfoModuleTablePhys v info = bootinfoModuleTablePhys m info ∧
      bootinfoModuleTableSize v info = bootinfoModuleTableSize m info := by
  unfold bootinfoModuleTablePhys bootinfoModuleTableSize
  rw [same.moduleCount, same.modsAddr]
  exact ⟨rfl, rfl⟩

theorem SameTables.bounds : multibootMapBounds v info = multibootMapBounds m info := by
  unfold multibootMapBounds
  rw [same.flags, same.mmapAddr, same.mmapLength]

theorem SameTables.begins : bootinfoMemoryBegin v info = bootinfoMemoryBegin m info := by
  unfold bootinfoMemoryBegin
  rw [same.bounds]

omit same in
theorem multibootMapBounds_some {start stop : Nat}
    (bounds : multibootMapBounds m info = some (start, stop)) :
    start = Boot.mmapAddr m info ∧ stop = start + Boot.mmapLength m info := by
  unfold multibootMapBounds at bounds
  split at bounds
  · cases bounds
  · dsimp only at bounds
    split at bounds
    · cases bounds
    next ordered =>
    rw [Option.some_inj, Prod.mk.injEq] at bounds
    obtain ⟨rfl, rfl⟩ := bounds
    exact ⟨rfl, u32Add_eq_of_le (u32_lt _ _) (u32_lt _ _) (Nat.not_lt.mp ordered)⟩

omit same in
/-- No size of at least a whole entry fits into less than a whole entry. -/
theorem short_refused {cursor size stop : Nat} (word : size < 2 ^ 32) (payload : 20 ≤ size)
    (entry : 4 ≤ u32Add size 4) (before : cursor < stop) (short : stop < cursor + 24) :
    u32Add cursor (u32Add size 4) ≤ cursor ∨ stop < u32Add cursor (u32Add size 4) := by
  have whole : u32Add size 4 = size + 4 := by
    unfold u32Add at *
    omega
  rw [whole] at entry ⊢
  unfold u32Add at *
  omega

omit same in
/-- An entry that does not fit into the rest of the map is refused, whatever its
size field says. -/
theorem multibootDecodeMemoryRegion_short {cursor start stop : Nat}
    (bounds : multibootMapBounds m info = some (start, stop)) (inside : start ≤ cursor)
    (before : cursor < stop) (short : stop < cursor + 24) :
    multibootDecodeMemoryRegion m info cursor = (throughDirectMap cursor 4).map fun _ => none := by
  have within : ¬ (cursor < start ∨ stop ≤ cursor) := by omega
  unfold multibootDecodeMemoryRegion
  rw [bounds]
  dsimp only
  rw [if_neg within]
  cases throughDirectMap cursor 4 with
  | error text => rfl
  | ok done =>
    dsimp only [bind, Except.bind, Except.map]
    split
    · rfl
    next payload =>
    split
    · rfl
    next entry =>
    have refused := short_refused (u32_lt m cursor) (Nat.not_lt.mp payload)
      (Nat.not_lt.mp entry) before short
    rw [if_pos refused]
    rfl

theorem SameTables.decode (cursor : Nat) :
    multibootDecodeMemoryRegion v info cursor = multibootDecodeMemoryRegion m info cursor := by
  cases bounds : multibootMapBounds m info with
  | none =>
    unfold multibootDecodeMemoryRegion
    rw [same.bounds, bounds]
  | some range =>
    obtain ⟨start, stop⟩ := range
    obtain ⟨startEq, stopEq⟩ := multibootMapBounds_some bounds
    by_cases inside : start ≤ cursor ∧ cursor < stop
    · by_cases short : stop < cursor + 24
      · rw [multibootDecodeMemoryRegion_short bounds inside.1 inside.2 short,
          multibootDecodeMemoryRegion_short (same.bounds.trans bounds) inside.1 inside.2 short]
      · have read (j : Nat) (fits : j + 4 ≤ 24) : v.u32 (cursor + j) = m.u32 (cursor + j) := by
          have := same.map (cursor - start) (by omega) j fits
          rwa [← startEq, show start + (cursor - start) = cursor by omega] at this
        have size : v.u32 cursor = m.u32 cursor := read 0 (by decide)
        have base : v.u64 (cursor + 4) = m.u64 (cursor + 4) :=
          congrArg₂ (fun low high => low + 2 ^ 32 * high) (read 4 (by decide)) (read 8 (by decide))
        have length : v.u64 (cursor + 12) = m.u64 (cursor + 12) :=
          congrArg₂ (fun low high => low + 2 ^ 32 * high) (read 12 (by decide))
            (read 16 (by decide))
        unfold multibootDecodeMemoryRegion
        rw [same.bounds, size, base, length, read 20 (by decide)]
    · unfold multibootDecodeMemoryRegion
      rw [same.bounds, bounds]
      dsimp only
      rw [if_pos (by omega), if_pos (by omega)]

theorem SameTables.next (cursor : Nat) :
    bootinfoMemoryNext v info cursor = bootinfoMemoryNext m info cursor := by
  unfold bootinfoMemoryNext
  rw [same.bounds, same.decode]

theorem SameTables.moduleAt (table : ∀ i < bootinfoModuleCount m info, ∀ j, j + 4 ≤ 16 →
      v.u32 (Boot.modsAddr m info + multibootModuleSize * i + j) =
        m.u32 (Boot.modsAddr m info + multibootModuleSize * i + j)) (index : Nat) :
    bootinfoModuleAt v info index = bootinfoModuleAt m info index := by
  unfold bootinfoModuleAt
  rw [same.moduleCount, same.modsAddr]
  split
  · rfl
  next counted =>
  have here : index < bootinfoModuleCount m info := Nat.not_le.mp counted
  have start : v.u32 (Boot.modsAddr m info + multibootModuleSize * index) = _ :=
    table index here 0 (by decide)
  dsimp only
  rw [start, table index here 4 (by decide), table index here 8 (by decide)]
  rfl

end Agreement

/-! ## The handoff behind the bitmap -/

section Placement

variable {m : ByteMemory} {h : Handoff} {view : PmmState → ByteMemory} {totalFrames : Nat}
  {s t : PmmState}

/-- The entry of the module table that `bootinfo_module_at` reads. -/
def moduleEntry (m : ByteMemory) (info index : Nat) : BootModule :=
  let entry := modsAddr m info + multibootModuleSize * index
  ⟨m.u32 entry, m.u32 (entry + 4),
    if m.u32 (entry + 8) = 0 then none else some (m.u32 (entry + 8))⟩

theorem throughDirectMap_ok {phys size : Nat} (through : throughDirectMap phys size = .ok ()) :
    phys + size ≤ directMapLimitPhys := by
  unfold throughDirectMap at through
  split at through
  · cases through
  split at through
  · cases through
  · omega

theorem bootinfoModuleAt_ok {info index : Nat} {found : Option BootModule}
    (counted : index < bootinfoModuleCount m info)
    (read : bootinfoModuleAt m info index = .ok found) :
    found = some (moduleEntry m info index) ∧
      modsAddr m info + multibootModuleSize * index + 12 ≤ directMapLimitPhys := by
  unfold bootinfoModuleAt at read
  rw [if_neg (Nat.not_le.mpr counted)] at read
  obtain ⟨-, -, read⟩ := bind_ok_iff.mp read
  obtain ⟨⟨⟩, inside, read⟩ := bind_ok_iff.mp read
  refine ⟨?_, throughDirectMap_ok inside⟩
  unfold moduleEntry
  dsimp only at read ⊢
  split at read
  · next zero =>
    rw [if_pos zero]
    exact (Except.ok.inj read).symm
  · next nonzero =>
    obtain ⟨-, -, read⟩ := bind_ok_iff.mp read
    rw [if_neg nonzero]
    exact (Except.ok.inj read).symm

/-- The loop over the modules reserves the entries of the table. -/
theorem reserveModules_fold {indices : List Nat}
    (same : ∀ s i, bootinfoModuleAt (view s) h.infoPhys i = bootinfoModuleAt m h.infoPhys i)
    (counted : ∀ i ∈ indices, i < bootinfoModuleCount m h.infoPhys)
    (done : indices.foldlM (reserveModuleAt h view) s = .ok t) :
    t = (indices.map (moduleEntry m h.infoPhys)).foldl reserveModule s ∧
      ∀ i ∈ indices, modsAddr m h.infoPhys + multibootModuleSize * i + 12 ≤ directMapLimitPhys := by
  induction indices generalizing s with
  | nil =>
    cases done
    exact ⟨rfl, nofun⟩
  | cons i indices ih =>
    rw [List.foldlM_cons] at done
    obtain ⟨next, here, done⟩ := bind_ok_iff.mp done
    unfold reserveModuleAt at here
    obtain ⟨found, read, here⟩ := bind_ok_iff.mp here
    rw [same] at read
    obtain ⟨rfl, inside⟩ := bootinfoModuleAt_ok (counted i List.mem_cons_self) read
    cases here
    obtain ⟨folded, rest⟩ := ih (fun j member => counted j (List.mem_cons_of_mem _ member)) done
    refine ⟨folded, fun j member => ?_⟩
    rcases List.mem_cons.mp member with rfl | later
    · exact inside
    · exact rest j later

/-- The answers of the handoff as it was handed over. -/
def answersOf (m : ByteMemory) (h : Handoff) (regions : List MemoryRegion)
    (modules : List BootModule) : BootInfo where
  hasMemoryMap := bootinfoHasMemoryMap m h.infoPhys
  memoryRegions := regions
  memoryMapPhys := bootinfoMemoryMapPhys m h.infoPhys
  memoryMapSize := bootinfoMemoryMapSize m h.infoPhys
  hasMemoryKibInfo := bootinfoHasMemoryKibInfo m h.infoPhys
  upperMemoryKib := bootinfoUpperMemoryKib m h.infoPhys
  infoPhys := h.infoPhys
  infoSizeHint := multibootInfoSize
  moduleTablePhys := bootinfoModuleTablePhys m h.infoPhys
  moduleTableSize := bootinfoModuleTableSize m h.infoPhys
  modules := modules
  kernelStartPhys := h.kernelStartPhys
  kernelEndPhys := h.kernelEndPhys

/-- The modules of the handoff as it was handed over. -/
def modulesOf (m : ByteMemory) (info : Nat) : List BootModule :=
  (List.range (bootinfoModuleCount m info)).map (moduleEntry m info)

/-- The reservations up to the module table read the same answers. -/
theorem reserveTables_eq (regions : List MemoryRegion) (modules : List BootModule)
    (same : ∀ s, SameTables m (view s) h.infoPhys) (s : PmmState) :
    modules.foldl reserveModule (reserveTables h view totalFrames s) =
      reserveBoot (answersOf m h regions modules) h.bitmapPhys totalFrames s := by
  have map (t : PmmState) := (same t).hasMemoryMap
  have mapPhys (t : PmmState) := (same t).memoryMap.1
  have mapSize (t : PmmState) := (same t).memoryMap.2
  have tablePhys (t : PmmState) := (same t).moduleTable.1
  have tableSize (t : PmmState) := (same t).moduleTable.2
  unfold reserveTables reserveBoot
  simp only [map, mapPhys, mapSize, tablePhys, tableSize]
  rfl

/-- The second pass sees the regions of the first one. -/
theorem markMap_eq (same : ∀ s, SameTables m (view s) h.infoPhys) (s : PmmState) :
    markMap h view s = if bootinfoHasMemoryMap m h.infoPhys then
      (bootinfoRegions m h.infoPhys).map (List.foldl markRegion s) else .ok s := by
  unfold markMap
  rw [(same s).hasMemoryMap, forRegions_eq (fun s => (same s).begins) (fun s => (same s).next)]

theorem highestOf_eq (m : ByteMemory) (h : Handoff) (modules : List BootModule) :
    highestOf m h = if bootinfoHasMemoryMap m h.infoPhys then
      (bootinfoRegions m h.infoPhys).bind fun regions =>
        highestPhysical (answersOf m h regions modules)
      else highestPhysical (answersOf m h [] modules) := by
  unfold highestOf highestPhysical
  split
  · next map =>
    rw [forRegions_eq (fun _ => rfl) (fun _ _ => rfl)]
    cases bootinfoRegions m h.infoPhys with
    | error text => rfl
    | ok regions =>
      dsimp only [Except.bind, Except.map]
      rw [if_pos (show (answersOf m h regions modules).hasMemoryMap = true from map)]
      rfl
  · next map =>
    rw [if_neg (show ¬ (answersOf m h [] modules).hasMemoryMap = true from map)]
    rfl

/-- No structure that is read again lies in the bitmap's pages. -/
structure TablesClear (m : ByteMemory) (h : Handoff) (bytes : Nat) : Prop where
  info : Clear h.bitmapPhys bytes h.infoPhys infoFieldsSize
  map : Clear h.bitmapPhys bytes (mmapAddr m h.infoPhys) (mmapLength m h.infoPhys)
  table : Clear h.bitmapPhys bytes (modsAddr m h.infoPhys)
    (multibootModuleSize * bootinfoModuleCount m h.infoPhys)

theorem sameTables_of_clear
    (info : Clear h.bitmapPhys (bitmapBytes totalFrames) h.infoPhys infoFieldsSize)
    (map : Clear h.bitmapPhys (bitmapBytes totalFrames) (mmapAddr m h.infoPhys)
      (mmapLength m h.infoPhys)) (s : PmmState) :
    SameTables m (bitmapView m h totalFrames s) h.infoPhys where
  fields k fits := u32_overlay (info.mono (by omega) (by omega))
  map k fits j inner := u32_overlay (map.mono (by omega) (by omega))

theorem TablesClear.moduleAt (clear : TablesClear m h (bitmapBytes totalFrames)) (s : PmmState)
    (index : Nat) : bootinfoModuleAt (bitmapView m h totalFrames s) h.infoPhys index =
      bootinfoModuleAt m h.infoPhys index := by
  refine (sameTables_of_clear clear.info clear.map s).moduleAt (fun i below j inner => ?_) index
  refine u32_overlay (clear.table.mono (by omega) ?_)
  unfold multibootModuleSize
  omega

/-- **With the tables clear of the bitmap, `pmm_init` is `pmmInit` on the answers
of the handoff.** -/
theorem pmmInitAt_answers (ready : pmmInitAt m h = .ok s)
    (clear : ∀ highest, highestOf m h = .ok highest →
      TablesClear m h (bitmapBytes (managedFrames highest))) :
    ∃ regions, (bootinfoHasMemoryMap m h.infoPhys = true →
        bootinfoRegions m h.infoPhys = .ok regions) ∧
      pmmInit (answersOf m h regions (modulesOf m h.infoPhys)) = .ok s ∧
      ∀ i < bootinfoModuleCount m h.infoPhys,
        modsAddr m h.infoPhys + multibootModuleSize * i + 12 ≤ directMapLimitPhys := by
  unfold pmmInitAt at ready
  obtain ⟨-, -, ready⟩ := bind_ok_iff.mp ready
  obtain ⟨highest, found, ready⟩ := bind_ok_iff.mp ready
  split at ready
  · cases ready
  next nonzero =>
  dsimp only at ready
  split at ready
  · cases ready
  next window =>
  have same := sameTables_of_clear (clear highest found).info (clear highest found).map
  unfold fillFrames at ready
  obtain ⟨marked, marking, ready⟩ := bind_ok_iff.mp ready
  dsimp only at ready
  obtain ⟨reserved, reserving, ended⟩ := bind_ok_iff.mp ready
  rw [(same _).moduleCount] at reserving
  obtain ⟨folded, aperture⟩ := reserveModules_fold (clear highest found).moduleAt
    (fun i => List.mem_range.mp) reserving
  rw [folded] at ended
  rw [markMap_eq same] at marking
  rw [highestOf_eq m h (modulesOf m h.infoPhys)] at found
  -- whatever regions explain both passes explain the outcome
  have outcome {regions : List MemoryRegion}
      (first : highestPhysical (answersOf m h regions (modulesOf m h.infoPhys)) = .ok highest)
      (second : (if (answersOf m h regions (modulesOf m h.infoPhys)).hasMemoryMap then
        regions.foldl markRegion (allTaken (managedFrames highest)
          (u32Add h.bitmapPhys (bitmapBytes (managedFrames highest))))
        else allTaken (managedFrames highest)
          (u32Add h.bitmapPhys (bitmapBytes (managedFrames highest)))) = marked) :
      pmmInit (answersOf m h regions (modulesOf m h.infoPhys)) = .ok s := by
    have low : ¬ pagingWindowEndPhys ≤
        u32Add (alignUpU32 (answersOf m h regions (modulesOf m h.infoPhys)).kernelEndPhys pageSize)
          (bitmapBytes (managedFrames highest)) := window
    unfold pmmInit
    rw [first]
    dsimp only
    rw [if_neg nonzero, if_neg low]
    refine Eq.trans ?_ ended
    rw [← second]
    exact congrArg
      (fun z => Except.ok { pmmRecountNumaFreeFramesLocked z with initialized := true })
      (reserveTables_eq regions (modulesOf m h.infoPhys) same _).symm
  have indices (i : Nat) (below : i < bootinfoModuleCount m h.infoPhys) :=
    aperture i (List.mem_range.mpr below)
  by_cases map : bootinfoHasMemoryMap m h.infoPhys = true
  · rw [if_pos map] at found marking
    cases listed : bootinfoRegions m h.infoPhys with
    | error text =>
      rw [listed] at found
      cases found
    | ok regions =>
      rw [listed] at found marking
      refine ⟨regions, fun _ => rfl, outcome found ?_, indices⟩
      rw [if_pos (show (answersOf m h regions (modulesOf m h.infoPhys)).hasMemoryMap = true
        from map)]
      exact Except.ok.inj marking
  · rw [if_neg map] at found marking
    refine ⟨[], fun holds => (map holds).elim, outcome found ?_, indices⟩
    rw [if_neg (show ¬ (answersOf m h [] (modulesOf m h.infoPhys)).hasMemoryMap = true from map)]
    exact Except.ok.inj marking

/-- The allocator when `pmm_init` turns to the modules. -/
def beforeModules (m : ByteMemory) (h : Handoff) (regions : List MemoryRegion) (highest : Nat) :
    PmmState :=
  reserveBoot (answersOf m h regions []) h.bitmapPhys (managedFrames highest)
    (regions.foldl markRegion (allTaken (managedFrames highest)
      (u32Add h.bitmapPhys (bitmapBytes (managedFrames highest)))))

/-- A module loop that reserves nothing leaves what a handoff without modules
leaves. -/
theorem pmmInitAt_skipped {regions : List MemoryRegion} {highest : Nat}
    (aperture : throughDirectMap h.infoPhys infoFieldsSize = .ok ())
    (map : bootinfoHasMemoryMap m h.infoPhys = true)
    (listed : bootinfoRegions m h.infoPhys = .ok regions)
    (found : highestPhysical (answersOf m h regions []) = .ok highest) (nonzero : highest ≠ 0)
    (window : u32Add h.bitmapPhys (bitmapBytes (managedFrames highest)) < pagingWindowEndPhys)
    (same : ∀ s, SameTables m (bitmapView m h (managedFrames highest) s) h.infoPhys)
    (rounds : (List.range (bootinfoModuleCount m h.infoPhys)).foldlM
      (reserveModuleAt h (bitmapView m h (managedFrames highest)))
        (beforeModules m h regions highest) = .ok (beforeModules m h regions highest)) :
    pmmInitAt m h = pmmInit (answersOf m h regions []) := by
  have first : highestOf m h = .ok highest := by
    rw [highestOf_eq m h [], if_pos map, listed]
    exact found
  have low : ¬ pagingWindowEndPhys ≤ u32Add (alignUpU32 (answersOf m h regions []).kernelEndPhys
      pageSize) (bitmapBytes (managedFrames highest)) := Nat.not_le.mpr window
  have tables (s : PmmState) :
      reserveTables h (bitmapView m h (managedFrames highest)) (managedFrames highest) s =
        reserveBoot (answersOf m h regions []) h.bitmapPhys (managedFrames highest) s :=
    reserveTables_eq regions [] same s
  unfold pmmInitAt fillFrames
  rw [aperture, first]
  dsimp only [bind, Except.bind]
  rw [if_neg nonzero, if_neg (Nat.not_le.mpr window), markMap_eq same, if_pos map, listed]
  dsimp only [Except.map]
  rw [tables, (same _).moduleCount]
  unfold beforeModules at rounds
  rw [rounds]
  unfold pmmInit
  rw [found]
  dsimp only
  rw [if_neg nonzero, if_neg low,
    if_pos (show (answersOf m h regions []).hasMemoryMap = true from map)]
  rfl

end Placement

end Dfos.Boot
