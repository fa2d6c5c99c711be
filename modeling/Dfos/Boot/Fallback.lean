import Dfos.Boot.FreeFrames

/-!
# Boot without a memory map

A loader may report only the KiB above the first MiB.  `pmm_init` then takes the
size of memory from that field, in 32-bit arithmetic, and skips both passes over
the map.  The second of them is the one that frees frames, so all of memory stays
taken.
-/

namespace Dfos.Boot

open Dfos.Lib Dfos.Lib.ByteMemory Dfos.Pmm

/-- The end of memory that the KiB field reports. -/
def reportedEnd (m : ByteMemory) (info : Nat) : Nat := 0x100000 + memUpper m info * 1024

/-- A frame of the reported memory above the first MiB that boot does not need. -/
structure Spare (m : ByteMemory) (h : Handoff) (f : Nat) : Prop where
  high : 0x100000 ≤ f * pageSize
  reported : (f + 1) * pageSize ≤ reportedEnd m h.infoPhys
  kernel : ¬ Meets f h.kernelStartPhys (h.kernelEndPhys - h.kernelStartPhys)
  bitmap : ¬ Meets f h.bitmapPhys (bitmapSize m h)
  info : ¬ Meets f h.infoPhys multibootInfoSize
  moduleTable : ¬ Meets f (modsAddr m h.infoPhys)
    (multibootModuleSize * bootinfoModuleCount m h.infoPhys)
  modules : ∀ i < bootinfoModuleCount m h.infoPhys, ¬ (moduleEntry m h.infoPhys i).Meets f

/-- What boot makes of the reported memory: the frames of all of it, the spare
ones free, and no more than the cap. -/
structure UsableMemory (m : ByteMemory) (h : Handoff) (s : PmmState) : Prop where
  sized : reportedEnd m h.infoPhys ≤ pmmPhysCap →
    s.totalFrames * pageSize = (reportedEnd m h.infoPhys + pageSize - 1) / pageSize * pageSize
  frees : reportedEnd m h.infoPhys ≤ pmmPhysCap → ∀ f, Spare m h f → f ∈ s.freeSet
  capped : pmmPhysCap < reportedEnd m h.infoPhys → s.totalFrames * pageSize = pmmPhysCap

/-! ## No frame is freed -/

/-- All of the managed frames are taken. -/
structure AllTaken (total : Nat) (s : PmmState) : Prop where
  inv : Inv s
  total : s.totalFrames = total
  taken : ∀ f, f ∉ s.freeSet

section Reserving

variable {s : PmmState} {total : Nat}

theorem AllTaken.reserveRange (all : AllTaken total s) (base length : Nat) :
    AllTaken total (pmmReserveRange s base length) where
  inv := (pmmReserveRange_inv all.inv base length).1
  total := (pmmReserveRange_total s base length).trans all.total
  taken f free := all.taken f (mem_freeSet_of_reserve free).1

theorem AllTaken.reserveIf (all : AllTaken total s) (test : Prop) [Decidable test]
    (base length : Nat) : AllTaken total (if test then pmmReserveRange s base length else s) := by
  split
  · exact all.reserveRange base length
  · exact all

theorem AllTaken.reserveModule (all : AllTaken total s) (module : BootModule) :
    AllTaken total (reserveModule s module) where
  inv := (reserveModule_inv all.inv module).1
  total := (reserveModule_total s module).trans all.total
  taken f free := all.taken f (mem_freeSet_reserveModule.mp free).1

/-- The recount at the end changes the counts only. -/
theorem AllTaken.recounted (all : AllTaken total s) :
    (pmmRecountNumaFreeFramesLocked s).totalFrames = total ∧
      ∀ f, f ∉ (pmmRecountNumaFreeFramesLocked s).freeSet := by
  obtain ⟨-, shape, bits⟩ := pmmRecountNumaFreeFramesLocked_inv all.inv.toLaid
    all.inv.globalCursor all.inv.roundRobin
  refine ⟨shape.total.trans all.total, fun f ⟨below, bit⟩ => all.taken f ⟨?_, ?_⟩⟩
  · rwa [shape.total] at below
  · rwa [bits] at bit

variable {h : Handoff} {view : PmmState → ByteMemory}

theorem AllTaken.reserveTables (all : AllTaken total s) (frames : Nat) :
    AllTaken total (reserveTables h view frames s) := by
  unfold Boot.reserveTables
  dsimp only
  exact ((((((all.reserveRange _ _).reserveRange _ _).reserveRange _ _).reserveIf _ _ _).reserveIf
    _ _ _).reserveIf _ _ _)

theorem AllTaken.reserveModules {indices : List Nat} {t : PmmState} (all : AllTaken total s)
    (done : indices.foldlM (reserveModuleAt h view) s = .ok t) : AllTaken total t := by
  induction indices generalizing s with
  | nil =>
    cases done
    exact all
  | cons i indices ih =>
    rw [List.foldlM_cons] at done
    obtain ⟨u, first, rest⟩ := bind_ok_iff.mp done
    refine ih ?_ rest
    unfold reserveModuleAt at first
    obtain ⟨found, -, first⟩ := bind_ok_iff.mp first
    cases found with
    | none => cases first; exact all
    | some module => cases first; exact all.reserveModule module

end Reserving

/-! ## Panics -/

/-- The panic of a boot without memory. -/
def noMemory : String := "bootloader reported zero physical memory"

theorem throughDirectMap_ne {phys size : Nat} : throughDirectMap phys size ≠ .error noMemory := by
  unfold throughDirectMap
  split
  · exact fun raised => absurd (Except.error.inj raised) (by decide)
  · split
    · exact fun raised => absurd (Except.error.inj raised) (by decide)
    · nofun

theorem bootinfoModuleAt_ne {m : ByteMemory} {info index : Nat} :
    bootinfoModuleAt m info index ≠ .error noMemory := by
  unfold bootinfoModuleAt
  split
  · nofun
  refine bind_ne_error throughDirectMap_ne fun _ => bind_ne_error throughDirectMap_ne fun _ => ?_
  dsimp only
  split
  · nofun
  · exact bind_ne_error throughDirectMap_ne fun _ => nofun

/-- The loop over the modules raises only what reading them raises. -/
theorem reserveModules_ne {h : Handoff} {view : PmmState → ByteMemory} (indices : List Nat)
    (s : PmmState) : indices.foldlM (reserveModuleAt h view) s ≠ .error noMemory := by
  induction indices generalizing s with
  | nil => nofun
  | cons i indices ih =>
    rw [List.foldlM_cons]
    refine bind_ne_error (bind_ne_error bootinfoModuleAt_ne fun found => ?_) ih
    cases found <;> nofun

/-! ## The size -/

/-- The sum and the product each wrap; together they keep the low 22 bits of the
KiB. -/
theorem kibHighest_eq (upper : Nat) : kibHighest upper = (upper + 1024) % 2 ^ 22 * 1024 := by
  unfold kibHighest
  omega

/-- What the frames of the wrapped size come to. -/
theorem managedFrames_kib (upper : Nat) :
    managedFrames (kibHighest upper) * pageSize = pmmPhysCap ↔
      0x3FFFF9 ≤ (upper + 1024) % 2 ^ 22 ∧ (upper + 1024) % 2 ^ 22 ≤ 0x3FFFFC := by
  rw [kibHighest_eq]
  unfold managedFrames alignUpU32 pmmPhysCap pageSize
  omega

section Fallback

variable {m : ByteMemory} {h : Handoff} {s : PmmState}

theorem kibHighest_reported (fits : reportedEnd m h.infoPhys ≤ pmmPhysCap) :
    kibHighest (memUpper m h.infoPhys) = reportedEnd m h.infoPhys := by
  rw [kibHighest_eq]
  unfold reportedEnd pmmPhysCap at *
  omega

variable (noMap : bootinfoHasMemoryMap m h.infoPhys = false)
  (kib : bootinfoHasMemoryKibInfo m h.infoPhys = true)
  (clear : Clear h.bitmapPhys (bitmapSize m h) h.infoPhys infoFieldsSize)

include noMap kib

theorem highestOf_fallback : highestOf m h = .ok (kibHighest (memUpper m h.infoPhys)) := by
  unfold highestOf bootinfoUpperMemoryKib
  rw [noMap, kib]
  rfl

include clear

/-- With the info structure clear of the bitmap, the second pass is skipped as
well. -/
theorem markMap_fallback (s : PmmState) :
    markMap h (bitmapView m h (managedFrames (kibHighest (memUpper m h.infoPhys)))) s = .ok s := by
  unfold bitmapSize at clear
  rw [highestOf_fallback noMap kib] at clear
  dsimp only at clear
  generalize managedFrames (kibHighest (memUpper m h.infoPhys)) = frames at clear ⊢
  have word (k : Nat) (inside : k + 4 ≤ infoFieldsSize) :
      (bitmapView m h frames s).u32 (h.infoPhys + k) = m.u32 (h.infoPhys + k) :=
    u32_overlay (clear.mono (by omega) (by omega))
  have flags : flags (bitmapView m h frames s) h.infoPhys = flags m h.infoPhys :=
    word 0 (by decide)
  have same : bootinfoHasMemoryMap (bitmapView m h frames s) h.infoPhys = false := by
    rw [← noMap]
    unfold bootinfoHasMemoryMap mmapLength
    rw [word 44 (by decide), flags]
  unfold markMap
  rw [same]
  rfl

/-- So only reservations are left. -/
theorem fillFrames_fallback {frames : Nat}
    (size : managedFrames (kibHighest (memUpper m h.infoPhys)) = frames) (s : PmmState) :
    fillFrames h (bitmapView m h frames) frames s =
      ((List.range (bootinfoModuleCount (bitmapView m h frames
        (reserveTables h (bitmapView m h frames) frames s)) h.infoPhys)).foldlM
          (reserveModuleAt h (bitmapView m h frames))
          (reserveTables h (bitmapView m h frames) frames s)).map
        fun t => { pmmRecountNumaFreeFramesLocked t with initialized := true } := by
  have skipped := markMap_fallback noMap kib clear s
  rw [size] at skipped
  unfold fillFrames
  rw [skipped]
  dsimp only [bind, Except.bind]
  cases List.foldlM (reserveModuleAt h (bitmapView m h frames)) _ _ <;> rfl

/-- **Without a map boot frees nothing.** -/
theorem pmmInitAt_fallback (ready : pmmInitAt m h = .ok s) :
    s.totalFrames = managedFrames (kibHighest (memUpper m h.infoPhys)) ∧
      ∀ f, f ∉ s.freeSet := by
  have le := managedFrames_le (kibHighest (memUpper m h.infoPhys))
  unfold pmmInitAt at ready
  obtain ⟨-, -, ready⟩ := bind_ok_iff.mp ready
  rw [highestOf_fallback noMap kib] at ready
  dsimp only [bind, Except.bind] at ready
  generalize size : managedFrames (kibHighest (memUpper m h.infoPhys)) = frames at ready le
  split at ready
  · cases ready
  split at ready
  · cases ready
  rw [fillFrames_fallback noMap kib clear size] at ready
  cases reserving : List.foldlM (reserveModuleAt h (bitmapView m h frames)) _ _ with
  | error text =>
    rw [reserving] at ready
    cases ready
  | ok t =>
    rw [reserving] at ready
    cases ready
    have start : AllTaken frames (allTaken frames (u32Add h.bitmapPhys (bitmapBytes frames))) :=
      ⟨allTaken_inv le _, rfl, fun _ => allTaken_free le⟩
    exact ((start.reserveTables frames).reserveModules reserving).recounted

/-- A handoff that reports memory below the cap is not refused for lack of it. -/
theorem pmmInitAt_reported (fits : reportedEnd m h.infoPhys ≤ pmmPhysCap) :
    pmmInitAt m h ≠ .error noMemory := by
  have nonzero : kibHighest (memUpper m h.infoPhys) ≠ 0 := by
    rw [kibHighest_reported fits]
    unfold reportedEnd
    omega
  unfold pmmInitAt
  refine bind_ne_error throughDirectMap_ne fun _ => ?_
  rw [highestOf_fallback noMap kib]
  dsimp only [bind, Except.bind]
  generalize size : managedFrames (kibHighest (memUpper m h.infoPhys)) = frames
  rw [if_neg nonzero]
  split
  · exact fun raised => absurd (Except.error.inj raised) (by decide)
  rw [fillFrames_fallback noMap kib clear size]
  cases reserving : List.foldlM (reserveModuleAt h (bitmapView m h frames)) _ _ with
  | error text =>
    intro raised
    rw [Except.error.inj raised] at reserving
    exact reserveModules_ne _ _ reserving
  | ok t => nofun

/-- **The KiB fallback yields usable memory exactly if there is none to free.**
Below the cap boot does not panic for lack of memory, but it frees no frame; a
report above the cap is cut to it only if what is left of it in 32 bits is the
cap. -/
theorem mem_upper_fallback_iff :
    (reportedEnd m h.infoPhys ≤ pmmPhysCap → pmmInitAt m h ≠ .error noMemory) ∧
    ∀ s, pmmInitAt m h = .ok s →
      (UsableMemory m h s ↔
        (reportedEnd m h.infoPhys ≤ pmmPhysCap ∧ ¬ ∃ f, Spare m h f) ∨
        (pmmPhysCap < reportedEnd m h.infoPhys ∧
          0x3FFFF9 ≤ (memUpper m h.infoPhys + 1024) % 2 ^ 22 ∧
          (memUpper m h.infoPhys + 1024) % 2 ^ 22 ≤ 0x3FFFFC)) := by
  refine ⟨pmmInitAt_reported noMap kib clear, fun s ready => ?_⟩
  obtain ⟨total, taken⟩ := pmmInitAt_fallback noMap kib clear ready
  constructor
  · intro usable
    rcases Nat.lt_or_ge pmmPhysCap (reportedEnd m h.infoPhys) with large | fits
    · have capped := usable.capped large
      rw [total] at capped
      exact Or.inr ⟨large, (managedFrames_kib _).mp capped⟩
    · exact Or.inl ⟨fits, fun ⟨f, spare⟩ => taken f (usable.frees fits f spare)⟩
  · rintro (⟨fits, none⟩ | ⟨large, wraps⟩)
    · refine ⟨fun _ => ?_, fun _ f spare => (none ⟨f, spare⟩).elim, fun large => by omega⟩
      rw [total, kibHighest_reported fits]
      unfold managedFrames alignUpU32 pageSize
      unfold pmmPhysCap at fits
      omega
    · refine ⟨fun fits => by omega, fun fits => by omega, fun _ => ?_⟩
      rw [total]
      exact (managedFrames_kib _).mpr wraps

end Fallback

/-! ## Concrete handoffs -/

/-- A loader that puts its info structure at `0x9000` and reports the KiB above
the first MiB only. -/
def kibMemory (upper : Nat) : ByteMemory :=
  overlay (fun _ => 0#8) 0x9000 12 <| wordBytes [1, 0, upper]

/-- Two MiB of memory, the second one filled by the kernel. -/
theorem mem_upper_fallback_twoMib :
    ∃ s, pmmInitAt (kibMemory 1024) kernelAtOneMib = .ok s ∧
      UsableMemory (kibMemory 1024) kernelAtOneMib s := by
  have accepted : (pmmInitAt (kibMemory 1024) kernelAtOneMib).isOk = true := by decide +kernel
  obtain ⟨s, ready⟩ := exists_of_isOk accepted
  refine ⟨s, ready, ((mem_upper_fallback_iff (m := kibMemory 1024) (h := kernelAtOneMib)
    (by decide +kernel) (by decide +kernel) (by decide +kernel)).2 s ready).mpr (Or.inl ?_)⟩
  have size : reportedEnd (kibMemory 1024) 0x9000 = 0x200000 := by decide +kernel
  refine ⟨by decide +kernel, fun ⟨f, spare⟩ => spare.kernel ⟨f * pageSize, ?_, ?_⟩⟩
  · have high := spare.high
    have reported := spare.reported
    rw [show kernelAtOneMib.infoPhys = 0x9000 from rfl, size] at reported
    show 0x100000 ≤ f * pageSize ∧ f * pageSize < 0x100000 + (0x200000 - 0x100000)
    unfold pageSize at *
    omega
  · exact Nat.mul_div_cancel f (by decide)

/-- With eight MiB the frame at four MiB is spare and taken, and four GiB count
as none. -/
theorem mem_upper_fallback_frees_nothing :
    (∃ s, pmmInitAt (kibMemory 7168) kernelAtOneMib = .ok s ∧
      reportedEnd (kibMemory 7168) 0x9000 = 0x800000 ∧
      Spare (kibMemory 7168) kernelAtOneMib 1024 ∧ 1024 ∉ s.freeSet) ∧
    reportedEnd (kibMemory 0x3FFC00) 0x9000 = 2 ^ 32 ∧
      pmmInitAt (kibMemory 0x3FFC00) kernelAtOneMib = .error noMemory := by
  have accepted : (pmmInitAt (kibMemory 7168) kernelAtOneMib).isOk = true := by decide +kernel
  obtain ⟨s, ready⟩ := exists_of_isOk accepted
  obtain ⟨-, taken⟩ := pmmInitAt_fallback (m := kibMemory 7168) (h := kernelAtOneMib)
    (by decide +kernel) (by decide +kernel) (by decide +kernel) ready
  refine ⟨⟨s, ready, by decide +kernel, ?_, taken 1024⟩, by decide +kernel, ?_⟩
  · exact ⟨by decide, by decide +kernel, by decide +kernel, by decide +kernel, by decide +kernel,
      by decide +kernel, by decide +kernel⟩
  · have zero : highestOf (kibMemory 0x3FFC00) kernelAtOneMib = .ok 0 := by decide +kernel
    have info : throughDirectMap kernelAtOneMib.infoPhys infoFieldsSize = .ok () := by decide
    unfold pmmInitAt
    rw [info, zero]
    rfl

end Dfos.Boot
