import Dfos.Boot.FrameMap

/-!
# The free frames after `pmm_init`, in terms of the handoff

Two statements about the frame map that boot leaves: it protects what has to
survive and frees the rest, and it frees nothing the loader did not report as
available.  Each holds on the handoffs that keep clear of one defect.  The first
pass over the handoff comes before the bitmap is filled, the second one after
it.  And the start of a region is rounded down to a page.
-/

namespace Dfos.Boot

open Dfos.Lib Dfos.Lib.ByteMemory Dfos.Pmm

/-- The bytes of the bitmap, whole pages. -/
def bitmapSize (m : ByteMemory) (h : Handoff) : Nat :=
  match highestOf m h with
  | .ok highest => bitmapBytes (managedFrames highest)
  | .error _ => 0

/-- Frame `f` shares no byte with what has to survive boot. -/
structure Unneeded (m : ByteMemory) (h : Handoff) (f : Nat) : Prop where
  low : ¬ Meets f 0 0x100000
  kernel : ¬ Meets f h.kernelStartPhys (h.kernelEndPhys - h.kernelStartPhys)
  bitmap : ¬ Meets f h.bitmapPhys (bitmapSize m h)
  info : ¬ Meets f h.infoPhys multibootInfoSize
  memoryMap : ¬ Meets f (mmapAddr m h.infoPhys) (mmapLength m h.infoPhys)
  moduleTable : ¬ Meets f (modsAddr m h.infoPhys)
    (multibootModuleSize * bootinfoModuleCount m h.infoPhys)
  modules : ∀ i < bootinfoModuleCount m h.infoPhys, ¬ (moduleEntry m h.infoPhys i).Meets f

/-- The frame map protects what has to survive, and frees every other frame
that lies in an available region. -/
structure ProtectsAndFrees (m : ByteMemory) (h : Handoff) (s : PmmState) : Prop where
  protects : ∀ f ∈ s.freeSet, Unneeded m h f
  frees : ∀ regions, bootinfoRegions m h.infoPhys = .ok regions → ∀ region ∈ regions,
    region.type = multibootMemoryAvailable → region.base + region.length < 2 ^ 64 →
    ∀ f, region.base ≤ f * pageSize →
      (f + 1) * pageSize ≤ min (region.base + region.length) 0xFFFFF000 → Unneeded m h f →
      f ∈ s.freeSet

/-- Every byte of a free frame lies in a region that was reported as available. -/
def OnlyAvailable (m : ByteMemory) (h : Handoff) (s : PmmState) : Prop :=
  ∀ regions, bootinfoRegions m h.infoPhys = .ok regions → ∀ f ∈ s.freeSet,
    ∀ byte, byte / pageSize = f → ∃ region ∈ regions,
      region.type = multibootMemoryAvailable ∧ region.base ≤ byte ∧
        byte < region.base + region.length

/-- The page in which an available region starts is all available, or is
reserved anyway, unless the region ends before the page does. -/
def StartsCovered (m : ByteMemory) (h : Handoff) : Prop :=
  ∀ regions, bootinfoRegions m h.infoPhys = .ok regions → ∀ region ∈ regions, region.Accepted →
    region.base / pageSize < region.cutEnd / pageSize →
    (answersOf m h regions (modulesOf m h.infoPhys)).Unreserved h.bitmapPhys (bitmapSize m h)
      (region.base / pageSize) →
    ∀ byte, byte / pageSize = region.base / pageSize → byte < region.base →
      ∃ other ∈ regions, other.type = multibootMemoryAvailable ∧ other.base ≤ byte ∧
        byte < other.base + other.length

section Ranges

variable {m : ByteMemory} {h : Handoff} {f : Nat} {regions : List MemoryRegion}

theorem meets_mono {base length base' length' : Nat} (meets : Meets f base length)
    (low : base' ≤ base) (high : base + length ≤ base' + length') : Meets f base' length' := by
  obtain ⟨byte, inside, same⟩ := meets
  exact ⟨byte, by omega, same⟩

/-- Each module lies in the direct map, so the size of the table does not wrap. -/
theorem moduleTableSize_eq (aperture : ∀ i < bootinfoModuleCount m h.infoPhys,
      modsAddr m h.infoPhys + multibootModuleSize * i + 12 ≤ directMapLimitPhys) :
    bootinfoModuleTableSize m h.infoPhys =
      multibootModuleSize * bootinfoModuleCount m h.infoPhys := by
  unfold bootinfoModuleTableSize multibootModuleSize directMapLimitPhys at *
  rcases Nat.eq_zero_or_pos (bootinfoModuleCount m h.infoPhys) with none | some
  · rw [none]
    rfl
  · have last := aperture _ (Nat.sub_lt some one_pos)
    omega

/-- What meets no range that has to survive meets no range that is reserved. -/
theorem Unneeded.unreserved (clear : Unneeded m h f)
    (aperture : ∀ i < bootinfoModuleCount m h.infoPhys,
      modsAddr m h.infoPhys + multibootModuleSize * i + 12 ≤ directMapLimitPhys) :
    (answersOf m h regions (modulesOf m h.infoPhys)).Unreserved h.bitmapPhys (bitmapSize m h)
      f where
  low := clear.low
  kernel := clear.kernel
  bitmap := clear.bitmap
  info _ := clear.info
  memoryMap map := by
    unfold answersOf bootinfoMemoryMapPhys bootinfoMemoryMapSize
    dsimp only
    rw [if_pos (show bootinfoHasMemoryMap m h.infoPhys = true from map),
      if_pos (show bootinfoHasMemoryMap m h.infoPhys = true from map)]
    exact clear.memoryMap
  moduleTable nonzero := by
    have table : bootinfoModuleTablePhys m h.infoPhys = modsAddr m h.infoPhys := by
      unfold bootinfoModuleTablePhys
      split
      · next none => exact (nonzero (if_pos none)).elim
      · rfl
    unfold answersOf
    dsimp only
    rw [table, moduleTableSize_eq aperture]
    exact clear.moduleTable
  modules module member := by
    obtain ⟨i, below, rfl⟩ := List.mem_map.mp member
    exact clear.modules i (List.mem_range.mp below)

/-- The reservations cover everything that has to survive, a module table at
address zero apart. -/
theorem unneeded_of_unreserved (map : bootinfoHasMemoryMap m h.infoPhys = true)
    (aperture : ∀ i < bootinfoModuleCount m h.infoPhys,
      modsAddr m h.infoPhys + multibootModuleSize * i + 12 ≤ directMapLimitPhys)
    (table : modsAddr m h.infoPhys ≠ 0 ∨
      multibootModuleSize * bootinfoModuleCount m h.infoPhys ≤ 0x100000)
    (clear : (answersOf m h regions (modulesOf m h.infoPhys)).Unreserved h.bitmapPhys
      (bitmapSize m h) f) : Unneeded m h f where
  low := clear.low
  kernel := clear.kernel
  bitmap := clear.bitmap
  info := by
    by_cases zero : h.infoPhys = 0
    · rw [zero]
      exact fun meets => clear.low (meets_mono meets (Nat.le_refl 0) (by decide))
    · exact clear.info zero
  memoryMap := by
    have covered := clear.memoryMap map
    unfold answersOf bootinfoMemoryMapPhys bootinfoMemoryMapSize at covered
    dsimp only at covered
    rwa [if_pos map, if_pos map] at covered
  moduleTable := by
    rcases Nat.eq_zero_or_pos (bootinfoModuleCount m h.infoPhys) with none | some
    · rw [none]
      exact not_meets_empty
    · have phys : bootinfoModuleTablePhys m h.infoPhys = modsAddr m h.infoPhys :=
        if_neg (Nat.pos_iff_ne_zero.mp some)
      by_cases zero : modsAddr m h.infoPhys = 0
      · rw [zero]
        have small := table.resolve_left (absurd zero)
        exact fun meets => clear.low (meets_mono meets (Nat.le_refl 0) (by omega))
      · have covered := clear.moduleTable
          (show bootinfoModuleTablePhys m h.infoPhys ≠ 0 from phys ▸ zero)
        unfold answersOf at covered
        dsimp only at covered
        rwa [phys, moduleTableSize_eq aperture] at covered
  modules i below := clear.modules _ (List.mem_map.mpr ⟨i, List.mem_range.mpr below, rfl⟩)

end Ranges

/-! ## The outcome of boot -/

section Outcome

variable {m : ByteMemory} {h : Handoff} {s : PmmState}

/-- `pmm_init` on the answers, with the size of the bitmap it leaves. -/
theorem pmmInitAt_outcome (ready : pmmInitAt m h = .ok s)
    (map : bootinfoHasMemoryMap m h.infoPhys = true)
    (clear : TablesClear m h (bitmapSize m h)) :
    ∃ regions, bootinfoRegions m h.infoPhys = .ok regions ∧
      pmmInit (answersOf m h regions (modulesOf m h.infoPhys)) = .ok s ∧
      bitmapBytes s.totalFrames = bitmapSize m h ∧
      ∀ i < bootinfoModuleCount m h.infoPhys,
        modsAddr m h.infoPhys + multibootModuleSize * i + 12 ≤ directMapLimitPhys := by
  obtain ⟨regions, listed, done, aperture⟩ := pmmInitAt_answers ready fun highest found => by
    unfold bitmapSize at clear
    rwa [found] at clear
  have listed := listed map
  obtain ⟨-, highest, found, -, total⟩ := pmmInit_booted done
  have first : highestOf m h = .ok highest := by
    rw [highestOf_eq m h (modulesOf m h.infoPhys), if_pos map, listed]
    exact found
  refine ⟨regions, listed, done, ?_, aperture⟩
  unfold bitmapSize
  rw [first, total]

/-- A frame inside a region that does not wrap is one the region marks. -/
theorem marks_of_inside {region : MemoryRegion} {f : Nat}
    (type : region.type = multibootMemoryAvailable)
    (whole : region.base + region.length < 2 ^ 64) (low : region.base ≤ f * pageSize)
    (high : (f + 1) * pageSize ≤ min (region.base + region.length) 0xFFFFF000) :
    region.Marks f := by
  have stop : (region.base + region.length) % 2 ^ 64 = region.base + region.length :=
    Nat.mod_eq_of_lt whole
  unfold MemoryRegion.Marks MemoryRegion.Accepted MemoryRegion.cutEnd
  rw [stop]
  unfold pmmPhysCap
  unfold pageSize at *
  refine ⟨⟨type, by omega, by omega⟩, by omega, by omega⟩

/-- A map that is there is not empty. -/
theorem memoryMapSize_ne (map : bootinfoHasMemoryMap m h.infoPhys = true)
    (regions : List MemoryRegion) :
    (answersOf m h regions (modulesOf m h.infoPhys)).memoryMapSize ≠ 0 := by
  have positive := map
  unfold bootinfoHasMemoryMap at positive
  rw [Bool.and_eq_true, decide_eq_true_eq, decide_eq_true_eq] at positive
  unfold answersOf bootinfoMemoryMapSize
  dsimp only
  rw [if_pos map]
  exact Nat.pos_iff_ne_zero.mp positive.2

/-- **`pmm_init` protects what it must and frees what it may**, for a handoff
that keeps clear of the bitmap and whose module table, if it starts at address
zero, ends within the first MiB. -/
theorem pmm_init_protects_and_frees (ready : pmmInitAt m h = .ok s)
    (map : bootinfoHasMemoryMap m h.infoPhys = true)
    (image : h.kernelStartPhys < h.kernelEndPhys)
    (clear : TablesClear m h (bitmapSize m h))
    (table : modsAddr m h.infoPhys ≠ 0 ∨
      multibootModuleSize * bootinfoModuleCount m h.infoPhys ≤ 0x100000) :
    ProtectsAndFrees m h s := by
  obtain ⟨regions, listed, done, bytes, aperture⟩ := pmmInitAt_outcome ready map clear
  refine ⟨fun f free => ?_, fun regions' listed' region member type whole f low high unneeded => ?_⟩
  · obtain ⟨-, unreserved⟩ := pmmInit_free done free
    rw [bytes] at unreserved
    exact unneeded_of_unreserved map aperture table unreserved
  · obtain rfl : regions' = regions := Except.ok.inj (listed'.symm.trans listed)
    have available : (answersOf m h regions' (modulesOf m h.infoPhys)).Available f :=
      ⟨map, region, member, marks_of_inside type whole low high⟩
    refine pmmInit_frees done image (fun _ => memoryMapSize_ne map regions') available ?_
    rw [bytes]
    exact unneeded.unreserved aperture

/-- **`pmm_init` frees only reported-available memory** exactly when no region
starts inside a page it does not cover. -/
theorem pmm_init_frees_only_available (ready : pmmInitAt m h = .ok s)
    (map : bootinfoHasMemoryMap m h.infoPhys = true)
    (image : h.kernelStartPhys < h.kernelEndPhys)
    (clear : TablesClear m h (bitmapSize m h)) :
    OnlyAvailable m h s ↔ StartsCovered m h := by
  obtain ⟨regions, listed, done, bytes, aperture⟩ := pmmInitAt_outcome ready map clear
  constructor
  · intro only regions' listed' region member accepted reaches unreserved byte page _
    obtain rfl : regions' = regions := Except.ok.inj (listed'.symm.trans listed)
    refine only regions' listed (region.base / pageSize) ?_ byte page
    refine pmmInit_frees done image (fun _ => memoryMapSize_ne map regions')
      ⟨map, region, member, accepted, Nat.le_refl _, reaches⟩ ?_
    rw [bytes]
    exact unreserved
  · intro covered regions' listed' f free byte page
    obtain rfl : regions' = regions := Except.ok.inj (listed'.symm.trans listed)
    obtain ⟨⟨-, region, member, accepted, low, high⟩, unreserved⟩ := pmmInit_free done free
    rw [bytes] at unreserved
    by_cases inside : region.base ≤ byte
    · refine ⟨region, member, accepted.1, inside, ?_⟩
      have cut : region.cutEnd ≤ region.base + region.length :=
        (Nat.min_le_left _ _).trans (Nat.mod_le _ _)
      unfold pageSize at *
      omega
    · -- the byte lies in front of the region, in the page in which the region starts
      have first : region.base / pageSize = f := by
        unfold pageSize at *
        omega
      subst first
      exact covered regions' listed region member accepted high unreserved byte page (by omega)

end Outcome

/-! ## Concrete handoffs -/

/-- The bytes of a sequence of 32-bit words. -/
def wordBytes (words : List Nat) (i : Nat) : BitVec 8 :=
  BitVec.ofNat 8 (words.getD (i / 4) 0 / 2 ^ (8 * (i % 4)))

/-- A loader that puts its info structure at `0x9000`, behind it a memory map
with one available region and a table with the module `[0x600000, 0x700000)`. -/
def loaderMemory (base length modsAddr : Nat) : ByteMemory :=
  overlay (fun _ => 0#8) 0x9000 128 <| wordBytes <|
    [0x48, 0, 0, 0, 0, 1, modsAddr, 0, 0, 0, 0, 24, 0x9058, 0, 0, 0, 0, 0, 0, 0, 0, 0] ++
    [20, base, 0, length, 0, 1] ++ [0x600000, 0x700000, 0, 0]

/-- A kernel of one MiB at one MiB. -/
def kernelAtOneMib : Handoff where
  infoPhys := 0x9000
  kernelStartPhys := 0x100000
  kernelEndPhys := 0x200000

theorem pmm_init_protects_and_frees_lowTables :
    ∃ s, pmmInitAt (loaderMemory 0x100000 0x700000 0x9070) kernelAtOneMib = .ok s ∧
      ProtectsAndFrees (loaderMemory 0x100000 0x700000 0x9070) kernelAtOneMib s := by
  have accepted : (pmmInitAt (loaderMemory 0x100000 0x700000 0x9070) kernelAtOneMib).isOk = true :=
    by decide +kernel
  obtain ⟨s, ready⟩ := exists_of_isOk accepted
  refine ⟨s, ready, pmm_init_protects_and_frees ready (by decide +kernel) (by decide) ?_
    (Or.inl (by decide +kernel))⟩
  exact ⟨by decide +kernel, by decide +kernel, by decide +kernel⟩

theorem pmm_init_frees_only_available_lowTables :
    ∃ s, pmmInitAt (loaderMemory 0x100000 0x700000 0x9070) kernelAtOneMib = .ok s ∧
      StartsCovered (loaderMemory 0x100000 0x700000 0x9070) kernelAtOneMib ∧
      OnlyAvailable (loaderMemory 0x100000 0x700000 0x9070) kernelAtOneMib s := by
  have accepted : (pmmInitAt (loaderMemory 0x100000 0x700000 0x9070) kernelAtOneMib).isOk = true :=
    by decide +kernel
  obtain ⟨s, ready⟩ := exists_of_isOk accepted
  have listed : bootinfoRegions (loaderMemory 0x100000 0x700000 0x9070) 0x9000 =
      .ok [⟨0x100000, 0x700000, 1⟩] := rfl
  have covered : StartsCovered (loaderMemory 0x100000 0x700000 0x9070) kernelAtOneMib := by
    intro regions listed' region member _ _ _ byte page before
    rw [← Except.ok.inj (listed.symm.trans listed')] at member
    obtain rfl := List.mem_singleton.mp member
    -- the region starts on a page boundary
    unfold pageSize at page
    dsimp only at page before
    omega
  refine ⟨s, ready, covered, (pmm_init_frees_only_available ready (by decide +kernel) (by decide)
    ?_).mpr covered⟩
  exact ⟨by decide +kernel, by decide +kernel, by decide +kernel⟩

/-- The region `[0x300800, 0x400800)`: the frame at `0x300000` is free although
its first half was not reported as available. -/
theorem pmm_init_frees_unreported_bytes :
    ∃ s, pmmInitAt (loaderMemory 0x300800 0x100000 0x9070) kernelAtOneMib = .ok s ∧
      ¬ OnlyAvailable (loaderMemory 0x300800 0x100000 0x9070) kernelAtOneMib s := by
  have accepted : (pmmInitAt (loaderMemory 0x300800 0x100000 0x9070) kernelAtOneMib).isOk = true :=
    by decide +kernel
  obtain ⟨s, ready⟩ := exists_of_isOk accepted
  have map : bootinfoHasMemoryMap (loaderMemory 0x300800 0x100000 0x9070) kernelAtOneMib.infoPhys =
      true := by
    decide +kernel
  have clear : TablesClear (loaderMemory 0x300800 0x100000 0x9070) kernelAtOneMib
      (bitmapSize (loaderMemory 0x300800 0x100000 0x9070) kernelAtOneMib) :=
    ⟨by decide +kernel, by decide +kernel, by decide +kernel⟩
  obtain ⟨regions, listed, done, bytes, aperture⟩ := pmmInitAt_outcome ready map clear
  have one : bootinfoRegions (loaderMemory 0x300800 0x100000 0x9070) 0x9000 =
      .ok [⟨0x300800, 0x100000, 1⟩] := rfl
  obtain rfl : regions = [⟨0x300800, 0x100000, 1⟩] := Except.ok.inj (listed.symm.trans one)
  have marks : (⟨0x300800, 0x100000, 1⟩ : MemoryRegion).Marks 0x300 := by
    unfold MemoryRegion.Marks MemoryRegion.Accepted
    decide +kernel
  have unreserved : (answersOf (loaderMemory 0x300800 0x100000 0x9070) kernelAtOneMib
      [⟨0x300800, 0x100000, 1⟩]
      (modulesOf (loaderMemory 0x300800 0x100000 0x9070) 0x9000)).Unreserved
        kernelAtOneMib.bitmapPhys (bitmapSize (loaderMemory 0x300800 0x100000 0x9070) kernelAtOneMib) 0x300 := by
    decide +kernel
  rw [← bytes] at unreserved
  have free : 0x300 ∈ s.freeSet :=
    pmmInit_frees done (by decide) (fun _ => memoryMapSize_ne map _)
      ⟨map, _, List.mem_singleton_self _, marks⟩ unreserved
  refine ⟨s, ready, fun only => ?_⟩
  obtain ⟨region, member, -, low, -⟩ := only _ one 0x300 free 0x300000 rfl
  obtain rfl := List.mem_singleton.mp member
  exact absurd low (by decide)

/-- The same loader with the module table at `0x200080`, behind the kernel image. -/
def tableBehindKernel : ByteMemory :=
  (loaderMemory 0x100000 0x700000 0x200080).overlay 0x200080 16
    (wordBytes [0x600000, 0x700000, 0, 0])

/-- When the allocator turns to the module table, the frames whose bits lie where
the table was are free. -/
theorem tableBehindKernel_bits {f : Nat} (low : 1024 ≤ f) (high : f < 1120) :
    (beforeModules tableBehindKernel kernelAtOneMib [⟨0x100000, 0x700000, 1⟩]
      0x800000).frameBitmap.test f = false := by
  have clear : ∀ k < 96, (answersOf tableBehindKernel kernelAtOneMib [⟨0x100000, 0x700000, 1⟩]
      []).Unreserved kernelAtOneMib.bitmapPhys (bitmapBytes (managedFrames 0x800000))
        (1024 + k) := by
    decide +kernel
  have unreserved := clear (f - 1024) (by omega)
  rw [show 1024 + (f - 1024) = f by omega] at unreserved
  have marks : (⟨0x100000, 0x700000, 1⟩ : MemoryRegion).Marks f :=
    ⟨⟨rfl, by decide, by decide⟩, (show 0x100000 / pageSize ≤ 1024 by decide).trans low,
      high.trans (by decide)⟩
  have marked : f ∈ ([⟨0x100000, 0x700000, 1⟩].foldl markRegion (allTaken (managedFrames 0x800000)
      (u32Add kernelAtOneMib.bitmapPhys (bitmapBytes (managedFrames 0x800000))))).freeSet := by
    refine mem_freeSet_markRegions.mpr (Or.inr ⟨⟨_, List.mem_singleton_self _, marks⟩, ?_⟩)
    exact high.trans (show 1120 < managedFrames 0x800000 by decide)
  have free := free_of_unreserved (by decide +kernel) (by decide +kernel)
    (fun _ => by decide +kernel) marked unreserved
  exact free.2

/-- The bytes at the place of the module table then read as zero. -/
theorem tableBehindKernel_reads {s : PmmState}
    (bits : ∀ f, 1024 ≤ f → f < 1120 → s.frameBitmap.test f = false) (a : Nat)
    (low : 0x200080 ≤ a) (high : a + 4 ≤ 0x20008C) :
    (bitmapView tableBehindKernel kernelAtOneMib (managedFrames 0x800000) s).u32 a = 0 := by
  have byte (b : Nat) (low : 0x200080 ≤ b) (high : b < 0x20008C) :
      bitmapView tableBehindKernel kernelAtOneMib (managedFrames 0x800000) s b = 0#8 := by
    have start : kernelAtOneMib.bitmapPhys = 0x200000 := by decide
    have size : bitmapBytes (managedFrames 0x800000) = 0x1000 := by decide
    unfold bitmapView
    rw [start, size, overlay_inside (by omega)]
    exact Bitmap.zero_of_clear fun bit small => bits _ (by omega) (by omega)
  unfold u32
  rw [byte a (by omega) (by omega), byte (a + 1) (by omega) (by omega),
    byte (a + 2) (by omega) (by omega), byte (a + 3) (by omega) (by omega)]
  rfl

/-- The bitmap of 8 MiB lies at `0x200000`.  When the table is read, its entry
reads as zero, and the frames of the module stay free. -/
theorem pmm_init_frees_module_frames :
    ∃ s, pmmInitAt tableBehindKernel kernelAtOneMib = .ok s ∧
      ¬ ProtectsAndFrees tableBehindKernel kernelAtOneMib s := by
  have same : ∀ s, SameTables tableBehindKernel
      (bitmapView tableBehindKernel kernelAtOneMib (managedFrames 0x800000) s) 0x9000 :=
    sameTables_of_clear (by decide +kernel) (by decide +kernel)
  have map : bootinfoHasMemoryMap tableBehindKernel kernelAtOneMib.infoPhys = true := by
    decide +kernel
  have listed : bootinfoRegions tableBehindKernel 0x9000 = .ok [⟨0x100000, 0x700000, 1⟩] := rfl
  have aperture : throughDirectMap 0x9000 infoFieldsSize = .ok () := rfl
  have count : bootinfoModuleCount tableBehindKernel 0x9000 = 1 := by decide +kernel
  have addr : modsAddr tableBehindKernel 0x9000 = 0x200080 := by decide +kernel
  have found : highestPhysical (answersOf tableBehindKernel kernelAtOneMib
      [⟨0x100000, 0x700000, 1⟩] []) = .ok 0x800000 := rfl
  -- the one round of the module loop reserves nothing
  have round {t : PmmState} (bits : ∀ f, 1024 ≤ f → f < 1120 → t.frameBitmap.test f = false) :
      (List.range 1).foldlM (reserveModuleAt kernelAtOneMib
        (bitmapView tableBehindKernel kernelAtOneMib (managedFrames 0x800000))) t = .ok t := by
    have reads := tableBehindKernel_reads bits
    have module : bootinfoModuleAt
        (bitmapView tableBehindKernel kernelAtOneMib (managedFrames 0x800000) t) 0x9000 0 =
        .ok (some ⟨0, 0, none⟩) := by
      unfold bootinfoModuleAt
      rw [(same t).moduleCount, (same t).modsAddr, count, addr]
      dsimp only
      rw [reads _ (by decide) (by decide), reads _ (by decide) (by decide),
        reads _ (by decide) (by decide)]
      rfl
    rw [show List.range 1 = [0] from rfl, List.foldlM_cons]
    unfold reserveModuleAt
    rw [show kernelAtOneMib.infoPhys = 0x9000 from rfl, module]
    rfl
  obtain ⟨s, ready⟩ := pmmInit_ok found (by decide) (by decide +kernel)
  have skipped : pmmInitAt tableBehindKernel kernelAtOneMib = .ok s := by
    refine (pmmInitAt_skipped aperture map listed found (by decide) (by decide +kernel) same
      ?_).trans ready
    rw [show bootinfoModuleCount tableBehindKernel kernelAtOneMib.infoPhys = 1 from count]
    exact round fun f => tableBehindKernel_bits
  obtain ⟨-, highest, found', -, total⟩ := pmmInit_booted ready
  obtain rfl : highest = 0x800000 := Except.ok.inj (found'.symm.trans found)
  have marks : (⟨0x100000, 0x700000, 1⟩ : MemoryRegion).Marks 0x600 := by
    unfold MemoryRegion.Marks MemoryRegion.Accepted
    decide +kernel
  have unreserved : (answersOf tableBehindKernel kernelAtOneMib [⟨0x100000, 0x700000, 1⟩]
      []).Unreserved kernelAtOneMib.bitmapPhys (bitmapBytes (managedFrames 0x800000)) 0x600 := by
    decide +kernel
  rw [← total] at unreserved
  have free : 0x600 ∈ s.freeSet :=
    pmmInit_frees ready (by decide) (fun _ => by decide +kernel)
      ⟨map, _, List.mem_singleton_self _, marks⟩ unreserved
  refine ⟨s, skipped, fun right => (right.protects 0x600 free).modules 0 ?_ ?_⟩
  · rw [show bootinfoModuleCount tableBehindKernel kernelAtOneMib.infoPhys = 1 from count]
    decide
  · decide +kernel

end Dfos.Boot
