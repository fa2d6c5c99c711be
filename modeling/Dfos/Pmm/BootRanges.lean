import Dfos.Pmm.FreeSet

/-!
# What `pmm_init` frees and what it reserves

The frames that are free after boot are those some region marks, less those
that meet a reserved range.  Marking rounds both ends of a region down to a
page, reserving rounds the start down and the end up.
-/

namespace Dfos.Pmm

open Dfos.Lib

/-- Frame `f` shares a byte with `[base, base + length)`. -/
def Meets (f base length : Nat) : Prop :=
  ∃ byte, (base ≤ byte ∧ byte < base + length) ∧ byte / pageSize = f

/-- A module's image or the first 128 bytes of its string share a byte with `f`. -/
def BootModule.Meets (module : BootModule) (f : Nat) : Prop :=
  Pmm.Meets f module.start (module.stop - module.start) ∨
    ∃ string ∈ module.stringPhys, Pmm.Meets f string 128

/-- The end of a region as the freeing loop computes it. -/
def MemoryRegion.cutEnd (region : MemoryRegion) : Nat :=
  min ((region.base + region.length) % 2 ^ 64) pmmPhysCap

/-- The freeing loop does not skip the region. -/
def MemoryRegion.Accepted (region : MemoryRegion) : Prop :=
  region.type = multibootMemoryAvailable ∧
    region.base < (region.base + region.length) % 2 ^ 64 ∧ region.base < pmmPhysCap

/-- The region makes the freeing loop release frame `f`. -/
def MemoryRegion.Marks (region : MemoryRegion) (f : Nat) : Prop :=
  region.Accepted ∧ region.base / pageSize ≤ f ∧ f < region.cutEnd / pageSize

/-- The ranges `pmm_init` reserves, as the frames they meet. -/
structure BootInfo.Unreserved (boot : BootInfo) (bitmapPhys bytes f : Nat) : Prop where
  low : ¬ Meets f 0 0x100000
  kernel : ¬ Meets f boot.kernelStartPhys (boot.kernelEndPhys - boot.kernelStartPhys)
  bitmap : ¬ Meets f bitmapPhys bytes
  info : boot.infoPhys ≠ 0 → ¬ Meets f boot.infoPhys boot.infoSizeHint
  memoryMap : boot.hasMemoryMap = true → ¬ Meets f boot.memoryMapPhys boot.memoryMapSize
  moduleTable : boot.moduleTablePhys ≠ 0 → ¬ Meets f boot.moduleTablePhys boot.moduleTableSize
  modules : ∀ module ∈ boot.modules, ¬ module.Meets f

section Ranges

variable {s : PmmState} {f base length : Nat}

theorem meets_iff (nonempty : length ≠ 0) :
    Meets f base length ↔ base / pageSize ≤ f ∧ f < (base + length + pageSize - 1) / pageSize := by
  unfold Meets pageSize
  constructor
  · rintro ⟨byte, inside, rfl⟩
    omega
  · rintro ⟨low, high⟩
    -- the first common byte is the later of the two starts
    refine ⟨max base (f * 4096), ?_, ?_⟩ <;> omega

theorem not_meets_empty : ¬ Meets f base 0 := by
  rintro ⟨byte, inside, -⟩
  omega

instance (f base length : Nat) : Decidable (Meets f base length) :=
  if empty : length = 0 then isFalse (empty ▸ not_meets_empty)
  else decidable_of_iff _ (meets_iff empty).symm

instance BootModule.decidableMeets (module : BootModule) (f : Nat) :
    Decidable (module.Meets f) :=
  inferInstanceAs (Decidable (_ ∨ _))

theorem reserveFrames_total (left frame : Nat) (s : PmmState) :
    (reserveFrames left frame s).totalFrames = s.totalFrames := by
  induction left generalizing frame s with
  | zero => rfl
  | succ left ih => exact (ih _ _).trans (reserveFrameLocked_shape s frame).total

theorem pmmReserveRange_total (s : PmmState) (base length : Nat) :
    (pmmReserveRange s base length).totalFrames = s.totalFrames :=
  reserveFrames_total _ _ _

theorem pmmReserveRange_test (s : PmmState) (base length f : Nat) :
    (pmmReserveRange s base length).frameBitmap.test f =
      (s.frameBitmap.test f || decide ((base / pageSize ≤ f ∧
        f < (base + length + pageSize - 1) / pageSize) ∧ f < s.totalFrames)) := by
  unfold pmmReserveRange
  dsimp only
  rw [reserveFrames_test]
  congr 1
  rw [decide_eq_decide]
  generalize base / pageSize = lo
  generalize (base + length + pageSize - 1) / pageSize = hi
  omega

/-- Reserving a range takes the frames that meet it. -/
theorem mem_freeSet_reserve (nonempty : length ≠ 0) :
    f ∈ (pmmReserveRange s base length).freeSet ↔ f ∈ s.freeSet ∧ ¬ Meets f base length := by
  rw [meets_iff nonempty]
  simp only [PmmState.freeSet, Set.mem_ofPred_eq, pmmReserveRange_total, pmmReserveRange_test,
    Bool.or_eq_false_iff, decide_eq_false_iff_not]
  constructor
  · rintro ⟨below, free, outside⟩
    exact ⟨⟨below, free⟩, fun inside => outside ⟨inside, below⟩⟩
  · rintro ⟨⟨below, free⟩, outside⟩
    exact ⟨below, free, fun inside => outside inside.1⟩

/-- Whatever the length, a frame that stays free does not meet the range. -/
theorem mem_freeSet_of_reserve (free : f ∈ (pmmReserveRange s base length).freeSet) :
    f ∈ s.freeSet ∧ ¬ Meets f base length := by
  by_cases empty : length = 0
  · subst empty
    refine ⟨?_, not_meets_empty⟩
    obtain ⟨below, bit⟩ := free
    rw [pmmReserveRange_total] at below
    rw [pmmReserveRange_test, Bool.or_eq_false_iff] at bit
    exact ⟨below, bit.1⟩
  · exact (mem_freeSet_reserve empty).mp free

theorem reserveModule_total (s : PmmState) (module : BootModule) :
    (reserveModule s module).totalFrames = s.totalFrames := by
  unfold reserveModule
  dsimp only
  split <;> split <;> simp only [pmmReserveRange_total]

theorem mem_freeSet_reserveModule {module : BootModule} :
    f ∈ (reserveModule s module).freeSet ↔ f ∈ s.freeSet ∧ ¬ module.Meets f := by
  have image : f ∈ (if module.start < module.stop then
      pmmReserveRange s module.start (module.stop - module.start) else s).freeSet ↔
      f ∈ s.freeSet ∧ ¬ Meets f module.start (module.stop - module.start) := by
    split
    · exact mem_freeSet_reserve (by omega)
    · rw [show module.stop - module.start = 0 by omega]
      exact ⟨fun free => ⟨free, not_meets_empty⟩, And.left⟩
  unfold reserveModule BootModule.Meets
  cases found : module.stringPhys with
  | none =>
    simp only [Option.not_mem_none, false_and, exists_false, or_false]
    exact image
  | some string =>
    simp only [Option.mem_some_iff, exists_eq_left', not_or]
    rw [mem_freeSet_reserve (by decide), image, and_assoc]

theorem mem_freeSet_reserveModules {modules : List BootModule} :
    f ∈ (modules.foldl reserveModule s).freeSet ↔
      f ∈ s.freeSet ∧ ∀ module ∈ modules, ¬ module.Meets f := by
  induction modules generalizing s with
  | nil => simp only [List.foldl_nil, List.not_mem_nil, false_implies, implies_true, and_true]
  | cons module modules ih =>
    rw [List.foldl_cons, ih, mem_freeSet_reserveModule, List.forall_mem_cons, and_assoc]

instance (boot : BootInfo) (bitmapPhys bytes f : Nat) :
    Decidable (boot.Unreserved bitmapPhys bytes f) :=
  decidable_of_iff (¬ Meets f 0 0x100000 ∧
      ¬ Meets f boot.kernelStartPhys (boot.kernelEndPhys - boot.kernelStartPhys) ∧
      ¬ Meets f bitmapPhys bytes ∧
      (boot.infoPhys ≠ 0 → ¬ Meets f boot.infoPhys boot.infoSizeHint) ∧
      (boot.hasMemoryMap = true → ¬ Meets f boot.memoryMapPhys boot.memoryMapSize) ∧
      (boot.moduleTablePhys ≠ 0 → ¬ Meets f boot.moduleTablePhys boot.moduleTableSize) ∧
      ∀ module ∈ boot.modules, ¬ module.Meets f)
    ⟨fun ⟨low, kernel, bitmap, info, memoryMap, moduleTable, modules⟩ =>
      ⟨low, kernel, bitmap, info, memoryMap, moduleTable, modules⟩,
    fun clear => ⟨clear.low, clear.kernel, clear.bitmap, clear.info, clear.memoryMap,
      clear.moduleTable, clear.modules⟩⟩

/-- A range that is reserved only when a test on it succeeds. -/
theorem mem_freeSet_reserveIf {test : Prop} [Decidable test] (nonempty : test → length ≠ 0) :
    f ∈ (if test then pmmReserveRange s base length else s).freeSet ↔
      f ∈ s.freeSet ∧ (test → ¬ Meets f base length) := by
  split
  · next holds =>
    rw [mem_freeSet_reserve (nonempty holds)]
    exact and_congr_right fun _ => ⟨fun clear _ => clear, fun clear => clear holds⟩
  · next fails => exact ⟨fun free => ⟨free, fun holds => (fails holds).elim⟩, And.left⟩

theorem mem_freeSet_of_reserveIf {test : Prop} [Decidable test]
    (free : f ∈ (if test then pmmReserveRange s base length else s).freeSet) :
    f ∈ s.freeSet ∧ (test → ¬ Meets f base length) := by
  split at free
  · obtain ⟨before, clear⟩ := mem_freeSet_of_reserve free
    exact ⟨before, fun _ => clear⟩
  · next fails => exact ⟨free, fun holds => (fails holds).elim⟩

variable {boot : BootInfo} {bitmapPhys total : Nat}

/-- **The reservations**, one way: whatever stays free meets none of them. -/
theorem unreserved_of_free (free : f ∈ (reserveBoot boot bitmapPhys total s).freeSet) :
    f ∈ s.freeSet ∧ boot.Unreserved bitmapPhys (bitmapBytes total) f := by
  unfold reserveBoot at free
  dsimp only at free
  obtain ⟨free, modules⟩ := mem_freeSet_reserveModules.mp free
  obtain ⟨free, moduleTable⟩ := mem_freeSet_of_reserveIf free
  obtain ⟨free, memoryMap⟩ := mem_freeSet_of_reserveIf free
  obtain ⟨free, info⟩ := mem_freeSet_of_reserveIf free
  obtain ⟨free, bitmap⟩ := mem_freeSet_of_reserve free
  obtain ⟨free, kernel⟩ := mem_freeSet_of_reserve free
  obtain ⟨free, low⟩ := mem_freeSet_of_reserve free
  refine ⟨free, low, kernel, bitmap, fun nonzero => ?_, memoryMap, fun nonzero => ?_, modules⟩
  · by_cases empty : boot.infoSizeHint = 0
    · rw [empty]
      exact not_meets_empty
    · exact info ⟨nonzero, empty⟩
  · by_cases empty : boot.moduleTableSize = 0
    · rw [empty]
      exact not_meets_empty
    · exact moduleTable ⟨nonzero, empty⟩

/-- **The reservations**, the other way: what meets none of them stays free. -/
theorem free_of_unreserved (image : boot.kernelStartPhys < boot.kernelEndPhys)
    (bytes : bitmapBytes total ≠ 0) (map : boot.hasMemoryMap = true → boot.memoryMapSize ≠ 0)
    (free : f ∈ s.freeSet) (clear : boot.Unreserved bitmapPhys (bitmapBytes total) f) :
    f ∈ (reserveBoot boot bitmapPhys total s).freeSet := by
  unfold reserveBoot
  dsimp only
  rw [mem_freeSet_reserveModules, mem_freeSet_reserveIf (fun test => test.2),
    mem_freeSet_reserveIf map, mem_freeSet_reserveIf (fun test => test.2),
    mem_freeSet_reserve bytes, mem_freeSet_reserve (by omega), mem_freeSet_reserve (by decide)]
  exact ⟨⟨⟨⟨⟨⟨⟨free, clear.low⟩, clear.kernel⟩, clear.bitmap⟩, fun test => clear.info test.1⟩,
    clear.memoryMap⟩, fun test => clear.moduleTable test.1⟩, clear.modules⟩

end Ranges

/-! ## Marking -/

section Marking

variable {s : PmmState} {f : Nat} {region : MemoryRegion}

theorem releaseFrames_total (left frame : Nat) (s : PmmState) :
    (releaseFrames left frame s).totalFrames = s.totalFrames := by
  induction left generalizing frame s with
  | zero => rfl
  | succ left ih => exact (ih _ _).trans (releaseFrameLocked_shape s frame).total

theorem mem_freeSet_mark (s : PmmState) (base length f : Nat) :
    f ∈ (pmmMarkAvailableRange s base length).freeSet ↔
      f ∈ s.freeSet ∨
        (base / pageSize ≤ f ∧ f < (base + length) / pageSize) ∧ f < s.totalFrames := by
  unfold pmmMarkAvailableRange
  dsimp only
  rw [freeSet_released (releaseFrames_total _ _ _) (releaseFrames_test _ _)]
  simp only [Set.mem_union, Set.mem_ofPred_eq]
  generalize base / pageSize = lo
  generalize (base + length) / pageSize = hi
  refine or_congr_right ?_
  omega

/-- The freeing loop on one region, without its early exits. -/
theorem markRegion_eq (s : PmmState) (region : MemoryRegion) [Decidable region.Accepted] :
    markRegion s region = if region.Accepted then
      pmmMarkAvailableRange s region.base (region.cutEnd - region.base) else s := by
  unfold markRegion
  dsimp only
  by_cases accepted : region.Accepted
  · obtain ⟨type, nonempty, low⟩ := accepted
    have length : region.length ≠ 0 := by omega
    have taken : region.Accepted := ⟨type, nonempty, low⟩
    rw [if_neg (fun skip => skip.elim (· type) length), if_neg (by omega), if_neg (by omega),
      if_pos taken]
    congr 2
    unfold MemoryRegion.cutEnd
    split <;> omega
  · rw [if_neg accepted]
    split
    · rfl
    next kept =>
    split
    · rfl
    split
    · rfl
    · exact absurd ⟨by tauto, by omega, by omega⟩ accepted

theorem markRegion_total (s : PmmState) (region : MemoryRegion) :
    (markRegion s region).totalFrames = s.totalFrames := by
  classical
  rw [markRegion_eq]
  split
  · exact releaseFrames_total _ _ _
  · rfl

theorem mem_freeSet_markRegion :
    f ∈ (markRegion s region).freeSet ↔
      f ∈ s.freeSet ∨ region.Marks f ∧ f < s.totalFrames := by
  classical
  rw [markRegion_eq]
  unfold MemoryRegion.Marks
  split
  · next accepted =>
    have upto : region.base + (region.cutEnd - region.base) = region.cutEnd := by
      obtain ⟨-, nonempty, low⟩ := accepted
      unfold MemoryRegion.cutEnd
      omega
    rw [mem_freeSet_mark, upto]
    exact or_congr_right ⟨fun ⟨inside, below⟩ => ⟨⟨accepted, inside⟩, below⟩,
      fun ⟨⟨_, inside⟩, below⟩ => ⟨inside, below⟩⟩
  · next skipped =>
    exact ⟨Or.inl, fun free => free.elim id fun marked => (skipped marked.1.1).elim⟩

theorem mem_freeSet_markRegions {regions : List MemoryRegion} :
    f ∈ (regions.foldl markRegion s).freeSet ↔
      f ∈ s.freeSet ∨ (∃ region ∈ regions, region.Marks f) ∧ f < s.totalFrames := by
  induction regions generalizing s with
  | nil => simp only [List.foldl_nil, List.not_mem_nil, false_and, exists_false, or_false]
  | cons region regions ih =>
    rw [List.foldl_cons, ih, mem_freeSet_markRegion, markRegion_total, List.exists_mem_cons_iff,
      or_and_right, or_assoc]

/-- The first pass covers every region the second one marks. -/
theorem raiseHighest_ge {highest : Nat} : highest ≤ raiseHighest highest region := by
  unfold raiseHighest
  dsimp only
  split_ifs <;> omega

theorem raiseHighest_covers {highest : Nat} (accepted : region.Accepted) :
    region.cutEnd ≤ raiseHighest highest region := by
  obtain ⟨-, nonempty, -⟩ := accepted
  unfold raiseHighest MemoryRegion.cutEnd
  dsimp only
  split_ifs <;> omega

theorem foldl_raiseHighest_ge (regions : List MemoryRegion) (highest : Nat) :
    highest ≤ regions.foldl raiseHighest highest := by
  induction regions generalizing highest with
  | nil => exact le_refl _
  | cons region regions ih => exact raiseHighest_ge.trans (ih _)

theorem foldl_raiseHighest_covers {regions : List MemoryRegion} (highest : Nat)
    (member : region ∈ regions) (accepted : region.Accepted) :
    region.cutEnd ≤ regions.foldl raiseHighest highest := by
  induction regions generalizing highest with
  | nil => cases member
  | cons head regions ih =>
    rcases List.mem_cons.mp member with rfl | later
    · exact (raiseHighest_covers accepted).trans (foldl_raiseHighest_ge regions _)
    · exact ih _ later

end Marking

/-! ## The free set after boot -/

section Boot

variable {s : PmmState} {f : Nat} {boot : BootInfo}

theorem allTaken_free {totalFrames bitmapEndPhys : Nat} (total : totalFrames ≤ 2 ^ 20) :
    f ∉ (allTaken totalFrames bitmapEndPhys).freeSet := by
  rintro ⟨below, bit⟩
  have cover := bitmapBytes_cover total
  have inside : f < totalFrames := below
  have byte : f / 8 < bitmapBytes totalFrames := by omega
  have taken : (allTaken totalFrames bitmapEndPhys).frameBitmap.test f = true :=
    Bitmap.test_of_ones (if_pos byte)
  rw [taken] at bit
  cases bit

/-- The frames the map of a handoff makes free before anything is reserved. -/
def BootInfo.Available (boot : BootInfo) (f : Nat) : Prop :=
  boot.hasMemoryMap = true ∧ ∃ region ∈ boot.memoryRegions, region.Marks f

/-- `pmm_init` step by step, with the free set of what it leaves. -/
theorem pmmInit_freeSet (ready : pmmInit boot = .ok s) :
    ∃ marked : PmmState,
      (∀ f, f ∈ marked.freeSet ↔ boot.Available f ∧ f < s.totalFrames) ∧
      s.freeSet = (reserveBoot boot (alignUpU32 boot.kernelEndPhys pageSize) s.totalFrames
        marked).freeSet := by
  obtain ⟨-, highest, found, nonzero, total⟩ := pmmInit_booted ready
  unfold pmmInit at ready
  rw [found] at ready
  dsimp only at ready
  rw [if_neg nonzero] at ready
  split at ready
  · cases ready
  next window =>
  have le := managedFrames_le highest
  generalize startEq : allTaken (managedFrames highest) _ = start at ready
  have nothing (f : Nat) : f ∉ start.freeSet := startEq ▸ allTaken_free le
  have managed : start.totalFrames = managedFrames highest := by
    rw [← startEq]
    rfl
  have startInv : Inv start := startEq ▸ allTaken_inv le _
  generalize markedEq : (if boot.hasMemoryMap then boot.memoryRegions.foldl markRegion start
    else start) = marked at ready
  have kept : Inv marked ∧ SameShape start marked := by
    rw [← markedEq]
    split
    · exact foldl_inv (fun _ region inv => markRegion_inv inv region) startInv _
    · exact ⟨startInv, .refl start⟩
  refine ⟨marked, fun f => ?_, ?_⟩
  · rw [← markedEq, total, ← managed]
    unfold BootInfo.Available
    split
    · next map =>
      rw [mem_freeSet_markRegions]
      simp only [nothing f, false_or, map, true_and]
    · next map =>
      exact ⟨fun free => (nothing f free).elim, fun held => (map held.1.1).elim⟩
  · obtain ⟨inv, -⟩ := reserveBoot_inv kept.1 boot (alignUpU32 boot.kernelEndPhys pageSize)
      (managedFrames highest)
    obtain ⟨-, shape, bits⟩ := pmmRecountNumaFreeFramesLocked_inv inv.toLaid inv.globalCursor
      inv.roundRobin
    rw [total]
    cases ready
    unfold PmmState.freeSet
    dsimp only
    rw [shape.total, bits]

/-- **What is free after boot**, one way. -/
theorem pmmInit_free (ready : pmmInit boot = .ok s) (free : f ∈ s.freeSet) :
    boot.Available f ∧
      boot.Unreserved (alignUpU32 boot.kernelEndPhys pageSize) (bitmapBytes s.totalFrames) f := by
  obtain ⟨marked, available, same⟩ := pmmInit_freeSet ready
  rw [same] at free
  obtain ⟨free, clear⟩ := unreserved_of_free free
  exact ⟨((available f).mp free).1, clear⟩

/-- A frame some region marks is a managed one. -/
theorem Available.managed (ready : pmmInit boot = .ok s) (available : boot.Available f) :
    f < s.totalFrames := by
  obtain ⟨-, highest, found, nonzero, total⟩ := pmmInit_booted ready
  obtain ⟨map, region, member, accepted, -, below⟩ := available
  unfold highestPhysical at found
  rw [if_pos map] at found
  have covers := foldl_raiseHighest_covers 0 member accepted
  have cap := foldl_raiseHighest_le boot.memoryRegions (Nat.zero_le pmmPhysCap)
  rw [Except.ok.inj found] at covers cap
  rw [total]
  unfold pmmPhysCap at cap
  unfold pageSize at below
  unfold managedFrames alignUpU32 pageSize
  omega

/-- **What is free after boot**, the other way. -/
theorem pmmInit_frees (ready : pmmInit boot = .ok s)
    (image : boot.kernelStartPhys < boot.kernelEndPhys)
    (map : boot.hasMemoryMap = true → boot.memoryMapSize ≠ 0) (available : boot.Available f)
    (clear : boot.Unreserved (alignUpU32 boot.kernelEndPhys pageSize) (bitmapBytes s.totalFrames)
      f) : f ∈ s.freeSet := by
  have below := Available.managed ready available
  obtain ⟨marked, marks, same⟩ := pmmInit_freeSet ready
  have cover := bitmapBytes_cover (pmmInit_booted ready).1.total_le
  rw [same]
  exact free_of_unreserved image (by omega) map ((marks f).mpr ⟨available, below⟩) clear

end Boot

end Dfos.Pmm
