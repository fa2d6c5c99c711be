import Dfos.Pmm.Search

/-!
# Accounting of the frame allocator

Every call keeps `Inv`, and `pmm_init` establishes it.  Read in the terms of the
source, this is `Accounting`: nodes, bitmap, counts and cursors agree.  The one
handoff for which a part of it fails is a KiB report so close to 4 GiB that
rounding it up to whole pages wraps to zero.
-/

namespace Dfos.Pmm

open Dfos.Lib

/-- The invariant of a booted allocator. -/
structure Booted (s : PmmState) : Prop extends Inv s where
  mapped : s.mapped = true
  initialized : s.initialized = true

theorem Took.booted {s t : PmmState} {lo n : Nat} (took : Took s t lo n) (booted : Booted s) :
    Booted t where
  toInv := took.inv
  mapped := took.shape.mapped.trans booted.mapped
  initialized := took.shape.initialized.trans booted.initialized

/-! ## Ranges of frames -/

section Ranges

variable {s : PmmState}

theorem releaseFrames_inv (inv : Inv s) (left frame : Nat) :
    Inv (releaseFrames left frame s) ∧ SameShape s (releaseFrames left frame s) := by
  induction left generalizing frame s with
  | zero => exact ⟨inv, .refl s⟩
  | succ left ih =>
    obtain ⟨inv', shape⟩ := ih (releaseFrameLocked_inv inv frame) (frame + 1)
    exact ⟨inv', (releaseFrameLocked_shape s frame).trans shape⟩

theorem reserveFrames_inv (inv : Inv s) (left frame : Nat) :
    Inv (reserveFrames left frame s) ∧ SameShape s (reserveFrames left frame s) := by
  induction left generalizing frame s with
  | zero => exact ⟨inv, .refl s⟩
  | succ left ih =>
    obtain ⟨inv', shape⟩ := ih (reserveFrameLocked_inv inv frame) (frame + 1)
    exact ⟨inv', (reserveFrameLocked_shape s frame).trans shape⟩

theorem freeLoop_inv (inv : Inv s) (frame left i : Nat) :
    Inv (freeLoop frame left i s) ∧ SameShape s (freeLoop frame left i s) := by
  induction left generalizing i s with
  | zero => exact ⟨inv, .refl s⟩
  | succ left ih =>
    obtain ⟨inv', shape⟩ := ih (releaseFrameLocked_inv inv (u32Add frame i)) (i + 1)
    exact ⟨inv', (releaseFrameLocked_shape s _).trans shape⟩

end Ranges

/-! ## Layout and recount -/

section Layout

variable {s : PmmState} {nodeCount : Nat}

/-- The layout loop gives each node its part of the even split. -/
theorem layoutNodes_eq (n k left node : Nat) (nodes : Nat → NumaNode) (i : Nat) :
    layoutNodes (n / k) left node (evenStart n k node) (n % k - node) nodes i =
      if node ≤ i ∧ i < node + left then
        ⟨evenStart n k i, n / k + (if i < n % k then 1 else 0), 0, evenStart n k i⟩
      else nodes i := by
  induction left generalizing node nodes with
  | zero =>
    rw [if_neg (by omega)]
    rfl
  | succ left ih =>
    unfold layoutNodes
    have extra : (0 < n % k - node) ↔ node < n % k := by omega
    have next : evenStart n k node + (n / k + if 0 < n % k - node then 1 else 0) =
        evenStart n k (node + 1) := by
      simp only [extra, evenStart_succ]
    have less : n % k - node - 1 = n % k - (node + 1) := by omega
    dsimp only
    rw [next, less, ih]
    by_cases here : i = node
    · subst here
      have past : ¬ (i + 1 ≤ i ∧ i < i + 1 + left) := by omega
      have inside : i ≤ i ∧ i < i + (left + 1) := by omega
      rw [if_neg past, if_pos rfl, if_pos inside]
      simp only [extra]
    · have later : (node + 1 ≤ i ∧ i < node + 1 + left) ↔ (node ≤ i ∧ i < node + (left + 1)) := by
        omega
      simp only [here, if_false, later]

theorem pmmNumaResetLayout_eq (positive : nodeCount ≠ 0) (small : nodeCount ≤ pmmMaxNumaNodes)
    {i : Nat} (active : i < nodeCount) :
    (pmmNumaResetLayout s nodeCount).numaNodes i =
      ⟨evenStart s.totalFrames nodeCount i,
        s.totalFrames / nodeCount + (if i < s.totalFrames % nodeCount then 1 else 0), 0,
        evenStart s.totalFrames nodeCount i⟩ := by
  have start := layoutNodes_eq s.totalFrames nodeCount nodeCount 0 s.numaNodes i
  rw [evenStart_zero, Nat.sub_zero, if_pos (by omega)] at start
  unfold pmmNumaResetLayout
  simp only [if_neg positive, if_neg (Nat.not_lt.mpr small)]
  rw [if_neg (by omega), start]

theorem pmmNumaResetLayout_active (positive : nodeCount ≠ 0)
    (small : nodeCount ≤ pmmMaxNumaNodes) :
    (pmmNumaResetLayout s nodeCount).activeNumaNodeCount = nodeCount := by
  unfold pmmNumaResetLayout
  simp only [if_neg positive, if_neg (Nat.not_lt.mpr small)]

/-- A new layout is even, and its cursors are in range. -/
theorem pmmNumaResetLayout_laid (positive : nodeCount ≠ 0) (small : nodeCount ≤ pmmMaxNumaNodes)
    (total : s.totalFrames ≤ 2 ^ 20) : Laid (pmmNumaResetLayout s nodeCount) := by
  have active := pmmNumaResetLayout_active (s := s) positive small
  refine ⟨by omega, by omega, total, ?_, ?_⟩
  · intro i hi
    rw [active] at hi ⊢
    rw [pmmNumaResetLayout_eq positive small hi]
    rfl
  · intro i hi
    rw [active] at hi ⊢
    rw [pmmNumaResetLayout_eq positive small hi]
    exact (evenStart_succ _ _ _).symm

theorem pmmNumaResetLayout_cursors (positive : nodeCount ≠ 0)
    (small : nodeCount ≤ pmmMaxNumaNodes) :
    (∀ i < nodeCount, ((pmmNumaResetLayout s nodeCount).numaNodes i).nextScanFrame =
      ((pmmNumaResetLayout s nodeCount).numaNodes i).firstFrame) ∧
    (s.totalFrames ≠ 0 →
      (pmmNumaResetLayout s nodeCount).globalNextScanFrame < s.totalFrames) ∧
    (pmmNumaResetLayout s nodeCount).roundRobinNumaNode < nodeCount := by
  refine ⟨fun i active => ?_, fun nonempty => ?_, ?_⟩
  · rw [pmmNumaResetLayout_eq positive small active]
  · unfold pmmNumaResetLayout
    dsimp only
    split <;> omega
  · unfold pmmNumaResetLayout
    simp only [if_neg positive, if_neg (Nat.not_lt.mpr small)]
    split <;> omega

theorem countFree_eq (bitmap : Bitmap) (left frame : Nat) :
    countFree bitmap left frame = bitmap.clearCount frame (frame + left) := by
  induction left generalizing frame with
  | zero => exact (Bitmap.clearCount_empty (by omega)).symm
  | succ left ih =>
    have split : bitmap.clearCount frame (frame + 1) + bitmap.clearCount (frame + 1)
        (frame + (left + 1)) = bitmap.clearCount frame (frame + (left + 1)) :=
      Bitmap.clearCount_split (by omega) (by omega)
    unfold countFree
    rw [ih, show frame + 1 + left = frame + (left + 1) by omega, ← split]
    congr 1
    cases taken : bitmap.test frame with
    | true =>
      rw [if_pos rfl, Bitmap.clearCount_full]
      intro i low high
      rw [show i = frame by omega, taken]
    | false =>
      rw [if_neg Bool.false_ne_true]
      have positive : 0 < bitmap.clearCount frame (frame + 1) :=
        Bitmap.clearCount_pos (le_refl frame) (Nat.lt_succ_self frame) taken
      have bound := bitmap.clearCount_le frame (frame + 1)
      omega

/-- The recount from node `node` on.  What it changes is the free counts, and the
cursors that are out of range. -/
theorem recountNodes_spec (left node totalFree : Nat) (laid : Laid s)
    (upto : node + left = s.activeNumaNodeCount)
    (counted : totalFree =
      s.frameBitmap.clearCount 0 (evenStart s.totalFrames s.activeNumaNodeCount node)) :
    recountNodes left node s totalFree = { s with
      numaNodes := fun i =>
        if node ≤ i ∧ i < s.activeNumaNodeCount then recountNode s.frameBitmap (s.numaNodes i)
        else s.numaNodes i
      freeFrames := s.frameBitmap.clearCount 0 s.totalFrames } := by
  induction left generalizing node s totalFree with
  | zero =>
    have done : node = s.activeNumaNodeCount := by omega
    have none (i : Nat) : ¬ (node ≤ i ∧ i < s.activeNumaNodeCount) := by omega
    unfold recountNodes
    simp only [none, if_false]
    rw [counted, done, evenStart_end laid.active_pos]
  | succ left ih =>
    have active : node < s.activeNumaNodeCount := by omega
    have same : SameRanges s (s.setNode node (recountNode s.frameBitmap (s.numaNodes node))) :=
      (SameRanges.refl s).setNode rfl rfl
    unfold recountNodes
    dsimp only
    rw [ih (node + 1) _ (same.laid laid) (by rw [same.active]; omega)]
    · have nodes : ∀ i, (if node + 1 ≤ i ∧ i < s.activeNumaNodeCount then
          recountNode s.frameBitmap
            ((s.setNode node (recountNode s.frameBitmap (s.numaNodes node))).numaNodes i)
          else (s.setNode node (recountNode s.frameBitmap (s.numaNodes node))).numaNodes i) =
          if node ≤ i ∧ i < s.activeNumaNodeCount then recountNode s.frameBitmap (s.numaNodes i)
          else s.numaNodes i := by
        intro i
        by_cases here : i = node
        · rw [here, if_neg (by omega), setNode_self, if_pos (by omega)]
        · rw [setNode_other here]
          by_cases later : node + 1 ≤ i ∧ i < s.activeNumaNodeCount
          · rw [if_pos later, if_pos (by omega)]
          · rw [if_neg later, if_neg (by omega)]
      simp only [PmmState.mk.injEq]
      exact ⟨rfl, rfl, rfl, rfl, rfl, rfl, rfl, funext nodes, rfl, rfl, rfl⟩
    · rw [same.total, same.active, counted]
      have end' := laid.last node active
      unfold NumaNode.endFrame at end'
      unfold recountNode
      dsimp only
      rw [countFree_eq, end', laid.first node active]
      exact Bitmap.clearCount_split (Nat.zero_le _) (evenStart_mono (by omega))

/-- **The recount makes every count exact.** -/
theorem pmmRecountNumaFreeFramesLocked_inv (laid : Laid s)
    (global : s.totalFrames ≠ 0 → s.globalNextScanFrame < s.totalFrames)
    (roundRobin : s.roundRobinNumaNode < s.activeNumaNodeCount) :
    Inv (pmmRecountNumaFreeFramesLocked s) ∧
      SameShape s (pmmRecountNumaFreeFramesLocked s) ∧
      (pmmRecountNumaFreeFramesLocked s).frameBitmap = s.frameBitmap := by
  unfold pmmRecountNumaFreeFramesLocked
  rw [recountNodes_spec _ 0 0 laid (Nat.zero_add _)
    (by rw [evenStart_zero]; exact (Bitmap.clearCount_empty (le_refl 0)).symm)]
  refine ⟨⟨⟨laid.active_pos, laid.active_le, laid.total_le, ?_, ?_⟩, ?_, rfl, ?_, global,
    roundRobin⟩, ⟨rfl, rfl, rfl, rfl⟩, rfl⟩
  · intro i active
    dsimp only
    rw [if_pos ⟨Nat.zero_le _, active⟩]
    exact laid.first i active
  · intro i active
    dsimp only
    rw [if_pos ⟨Nat.zero_le _, active⟩]
    exact laid.last i active
  · intro i active
    dsimp only
    rw [if_pos ⟨Nat.zero_le _, active⟩]
    exact countFree_eq _ _ _
  · intro i active nonempty
    dsimp only at nonempty ⊢
    rw [if_pos ⟨Nat.zero_le _, active⟩] at nonempty ⊢
    unfold recountNode at nonempty ⊢
    dsimp only at nonempty ⊢
    split
    · next inside => exact pmmNodeContainsFrame_iff.mp inside
    · unfold NumaNode.endFrame
      dsimp only
      omega

/-- **A new topology** keeps the invariant, the bitmap and the free count. -/
theorem pmmConfigureNumaTopology_booted (booted : Booted s) (nodeCount : Nat) :
    Booted (pmmConfigureNumaTopology s nodeCount).1 ∧
      (pmmConfigureNumaTopology s nodeCount).1.frameBitmap = s.frameBitmap ∧
      (pmmConfigureNumaTopology s nodeCount).1.freeFrames = s.freeFrames ∧
      (pmmConfigureNumaTopology s nodeCount).1.totalFrames = s.totalFrames := by
  unfold pmmConfigureNumaTopology
  split
  · exact ⟨booted, rfl, rfl, rfl⟩
  next accepted =>
  have positive : nodeCount ≠ 0 := fun zero => accepted (Or.inl zero)
  have small : nodeCount ≤ pmmMaxNumaNodes := by omega
  have laid := pmmNumaResetLayout_laid (s := s) positive small booted.total_le
  have active := pmmNumaResetLayout_active (s := s) positive small
  obtain ⟨cursors, global, roundRobin⟩ := pmmNumaResetLayout_cursors (s := s) positive small
  dsimp only
  split
  · obtain ⟨inv, shape, bitmap⟩ :=
      pmmRecountNumaFreeFramesLocked_inv laid global (by rw [active]; exact roundRobin)
    refine ⟨⟨inv, shape.mapped.trans booted.mapped, shape.initialized.trans booted.initialized⟩,
      bitmap, ?_, shape.total⟩
    rw [inv.free, bitmap, shape.total]
    exact booted.free.symm
  · next empty =>
    -- with no frame to manage there is nothing to count
    have none : s.totalFrames = 0 := by
      by_contra some
      exact empty ⟨booted.mapped, Nat.pos_of_ne_zero some⟩
    refine ⟨⟨⟨laid, ?_, booted.free, ?_, global, by rw [active]; exact roundRobin⟩,
      booted.mapped, booted.initialized⟩, rfl, rfl, rfl⟩
    · intro i hi
      have last : _ ≤ s.totalFrames := laid.end_le hi
      rw [active] at hi
      dsimp only
      rw [Bitmap.clearCount_empty (by omega), pmmNumaResetLayout_eq positive small hi]
    · intro i hi nonempty
      have last : _ ≤ s.totalFrames := laid.end_le hi
      unfold NumaNode.endFrame at last
      dsimp only at nonempty
      omega

/-- A topology that is accepted has the nodes asked for. -/
theorem pmmConfigureNumaTopology_active (booted : Booted s) {nodeCount : Nat}
    (positive : nodeCount ≠ 0) (small : nodeCount ≤ pmmMaxNumaNodes) :
    (pmmConfigureNumaTopology s nodeCount).1.activeNumaNodeCount = nodeCount := by
  have laid := pmmNumaResetLayout_laid (s := s) positive small booted.total_le
  have active := pmmNumaResetLayout_active (s := s) positive small
  obtain ⟨-, global, roundRobin⟩ := pmmNumaResetLayout_cursors (s := s) positive small
  unfold pmmConfigureNumaTopology
  rw [if_neg (not_or.mpr ⟨positive, Nat.not_lt.mpr small⟩)]
  dsimp only
  split
  · exact (pmmRecountNumaFreeFramesLocked_inv laid global
      (by rw [active]; exact roundRobin)).2.1.active.trans active
  · exact active

/-- A new topology is searched from the start of every node. -/
theorem pmmConfigureNumaTopology_cursors (booted : Booted s) {nodeCount : Nat}
    (positive : nodeCount ≠ 0) (small : nodeCount ≤ pmmMaxNumaNodes) {i : Nat}
    (below : i < nodeCount) :
    ((pmmConfigureNumaTopology s nodeCount).1.numaNodes i).nextScanFrame =
      ((pmmConfigureNumaTopology s nodeCount).1.numaNodes i).firstFrame := by
  have laid := pmmNumaResetLayout_laid (s := s) positive small booted.total_le
  have active := pmmNumaResetLayout_active (s := s) positive small
  have cursor := (pmmNumaResetLayout_cursors (s := s) positive small).1 i below
  unfold pmmConfigureNumaTopology
  rw [if_neg (not_or.mpr ⟨positive, Nat.not_lt.mpr small⟩)]
  dsimp only
  split
  · unfold pmmRecountNumaFreeFramesLocked
    rw [recountNodes_spec _ 0 0 laid (Nat.zero_add _)
      (by rw [evenStart_zero]; exact (Bitmap.clearCount_empty (le_refl 0)).symm)]
    dsimp only
    rw [if_pos ⟨Nat.zero_le i, by rw [active]; exact below⟩]
    unfold recountNode
    dsimp only
    split
    · exact cursor
    · rfl
  · exact cursor

end Layout

/-! ## Calls and runs -/

section Calls

variable {s : PmmState}

theorem Allocated.booted {n : Nat} {result : PmmState × Option Nat}
    (allocated : Allocated s n result) (booted : Booted s) : Booted result.1 := by
  rcases allocated with nothing | ⟨lo, -, took⟩
  · rw [nothing]
    exact booted
  · exact took.booted booted

theorem Booted.of_shape {t : PmmState} (booted : Booted s) (step : Inv t ∧ SameShape s t) :
    Booted t where
  toInv := step.1
  mapped := step.2.mapped.trans booted.mapped
  initialized := step.2.initialized.trans booted.initialized

/-- **Every call keeps the invariant.** -/
theorem Booted.exec (booted : Booted s) (op : PmmOp) : Booted (s.exec op).1 := by
  cases op with
  | allocFrameOnNode preferredNode =>
    exact (pmmAllocFrameOnNode_allocated booted.toInv preferredNode).booted booted
  | allocFramesOnNode frameCount preferredNode =>
    exact (pmmAllocFramesOnNode_allocated booted.toInv frameCount preferredNode).booted booted
  | freeFrame physicalAddr =>
    exact booted.of_shape ⟨releaseFrameLocked_inv booted.toInv _, releaseFrameLocked_shape s _⟩
  | freeFrames physicalAddr frameCount =>
    exact booted.of_shape (freeLoop_inv booted.toInv _ _ _)
  | reserveRange base length => exact booted.of_shape (reserveFrames_inv booted.toInv _ _)
  | markAvailableRange base length => exact booted.of_shape (releaseFrames_inv booted.toInv _ _)
  | configureNumaTopology nodeCount => exact (pmmConfigureNumaTopology_booted booted nodeCount).1

theorem Booted.run (booted : Booted s) (ops : List PmmOp) : Booted (s.run ops) := by
  induction ops generalizing s with
  | nil => exact booted
  | cons op ops ih => exact ih (booted.exec op)

theorem Booted.exec_total (booted : Booted s) (op : PmmOp) :
    (s.exec op).1.totalFrames = s.totalFrames := by
  have alloc {n : Nat} {result : PmmState × Option Nat} (allocated : Allocated s n result) :
      result.1.totalFrames = s.totalFrames := by
    rcases allocated with nothing | ⟨lo, -, took⟩
    · rw [nothing]
    · exact took.shape.total
  cases op with
  | allocFrameOnNode preferredNode =>
    exact alloc (pmmAllocFrameOnNode_allocated booted.toInv preferredNode)
  | allocFramesOnNode frameCount preferredNode =>
    exact alloc (pmmAllocFramesOnNode_allocated booted.toInv frameCount preferredNode)
  | freeFrame physicalAddr => exact (releaseFrameLocked_shape s _).total
  | freeFrames physicalAddr frameCount => exact (freeLoop_inv booted.toInv _ _ _).2.total
  | reserveRange base length => exact (reserveFrames_inv booted.toInv _ _).2.total
  | markAvailableRange base length => exact (releaseFrames_inv booted.toInv _ _).2.total
  | configureNumaTopology nodeCount =>
    exact (pmmConfigureNumaTopology_booted booted nodeCount).2.2.2

theorem Booted.run_total (booted : Booted s) (ops : List PmmOp) :
    (s.run ops).totalFrames = s.totalFrames := by
  induction ops generalizing s with
  | nil => rfl
  | cons op ops ih => exact (ih (booted.exec op)).trans (booted.exec_total op)

end Calls

/-! ## Boot -/

section Boot

variable {s : PmmState} {boot : BootInfo}

theorem managedFrames_le (highest : Nat) : managedFrames highest ≤ 2 ^ 20 := by
  unfold managedFrames alignUpU32 pageSize
  omega

/-- The bitmap has a bit for every managed frame. -/
theorem bitmapBytes_cover {totalFrames : Nat} (total : totalFrames ≤ 2 ^ 20) :
    totalFrames ≤ bitmapBytes totalFrames * 8 := by
  unfold bitmapBytes alignUpU32 pageSize
  omega

/-- Before anything is freed every frame is taken, so the zero counts are right. -/
theorem allTaken_inv {totalFrames : Nat} (total : totalFrames ≤ 2 ^ 20) (bitmapEndPhys : Nat) :
    Inv (allTaken totalFrames bitmapEndPhys) := by
  have bytes := bitmapBytes_cover total
  unfold allTaken
  generalize start : ({ PmmState.zero with
      mapped := true
      frameBitmap := fun i => if i < bitmapBytes totalFrames then 0xFF#8 else 0#8
      totalFrames := totalFrames
      totalMemoryKib := totalFrames * 4
      bitmapEndPhys := bitmapEndPhys
      activeNumaNodeCount := 1 } : PmmState) = z
  have managed : z.totalFrames = totalFrames := by rw [← start]
  have noneFree : z.freeFrames = 0 := by rw [← start]; rfl
  have full : ∀ i, i < z.totalFrames → z.frameBitmap.test i = true := by
    intro i below
    rw [managed] at below
    apply Bitmap.test_of_ones
    rw [← start]
    exact if_pos (by omega)
  have small : 1 ≤ pmmMaxNumaNodes := by decide
  have laid := pmmNumaResetLayout_laid (s := z) one_ne_zero small (managed ▸ total)
  have active := pmmNumaResetLayout_active (s := z) one_ne_zero small
  obtain ⟨cursors, global, roundRobin⟩ := pmmNumaResetLayout_cursors (s := z) one_ne_zero small
  refine ⟨laid, ?_, ?_, ?_, global, by rw [active]; exact roundRobin⟩
  · intro i hi
    have last : _ ≤ z.totalFrames := laid.end_le hi
    rw [active] at hi
    rw [Bitmap.clearCount_full, pmmNumaResetLayout_eq one_ne_zero small hi]
    intro f _ high
    exact full f (by omega)
  · rw [Bitmap.clearCount_full]
    · exact noneFree
    · intro f _ high
      exact full f high
  · intro i hi nonempty
    rw [active] at hi
    rw [cursors i hi]
    unfold NumaNode.endFrame
    omega

theorem markRegion_inv (inv : Inv s) (region : MemoryRegion) :
    Inv (markRegion s region) ∧ SameShape s (markRegion s region) := by
  unfold markRegion
  split
  · exact ⟨inv, .refl s⟩
  dsimp only
  split
  · exact ⟨inv, .refl s⟩
  split
  · exact ⟨inv, .refl s⟩
  · exact releaseFrames_inv inv _ _

theorem pmmReserveRange_inv (inv : Inv s) (base length : Nat) :
    Inv (pmmReserveRange s base length) ∧ SameShape s (pmmReserveRange s base length) :=
  reserveFrames_inv inv _ _

theorem reserveModule_inv (inv : Inv s) (module : BootModule) :
    Inv (reserveModule s module) ∧ SameShape s (reserveModule s module) := by
  have body : Inv (if module.start < module.stop then
        pmmReserveRange s module.start (module.stop - module.start) else s) ∧
      SameShape s (if module.start < module.stop then
        pmmReserveRange s module.start (module.stop - module.start) else s) := by
    split
    · exact pmmReserveRange_inv inv _ _
    · exact ⟨inv, .refl s⟩
  unfold reserveModule
  cases module.stringPhys with
  | none => exact body
  | some string =>
    obtain ⟨inv', shape⟩ := pmmReserveRange_inv body.1 string 128
    exact ⟨inv', body.2.trans shape⟩

/-- A loop whose body keeps the invariant keeps it. -/
theorem foldl_inv {α : Type} {step : PmmState → α → PmmState}
    (keeps : ∀ s a, Inv s → Inv (step s a) ∧ SameShape s (step s a)) (inv : Inv s)
    (items : List α) : Inv (items.foldl step s) ∧ SameShape s (items.foldl step s) := by
  induction items generalizing s with
  | nil => exact ⟨inv, .refl s⟩
  | cons a items ih =>
    obtain ⟨inv', shape⟩ := keeps s a inv
    obtain ⟨inv'', shape'⟩ := ih inv'
    exact ⟨inv'', shape.trans shape'⟩

/-- The boot reservations, each of them a reserved range or nothing. -/
theorem reserveBoot_inv (inv : Inv s) (boot : BootInfo) (bitmapPhys totalFrames : Nat) :
    Inv (reserveBoot boot bitmapPhys totalFrames s) ∧
      SameShape s (reserveBoot boot bitmapPhys totalFrames s) := by
  have reserve {t : PmmState} (kept : Inv t ∧ SameShape s t) (base length : Nat) :
      Inv (pmmReserveRange t base length) ∧ SameShape s (pmmReserveRange t base length) := by
    obtain ⟨inv', shape⟩ := pmmReserveRange_inv kept.1 base length
    exact ⟨inv', kept.2.trans shape⟩
  have maybe {t : PmmState} (kept : Inv t ∧ SameShape s t) (p : Prop) [Decidable p]
      (base length : Nat) :
      Inv (if p then pmmReserveRange t base length else t) ∧
        SameShape s (if p then pmmReserveRange t base length else t) := by
    split
    · exact reserve kept base length
    · exact kept
  have modules {t : PmmState} (kept : Inv t ∧ SameShape s t) :
      Inv (boot.modules.foldl reserveModule t) ∧
        SameShape s (boot.modules.foldl reserveModule t) := by
    obtain ⟨inv', shape⟩ := foldl_inv (fun _ m inv => reserveModule_inv inv m) kept.1 boot.modules
    exact ⟨inv', kept.2.trans shape⟩
  unfold reserveBoot
  apply modules
  apply maybe
  apply maybe
  apply maybe
  apply reserve
  apply reserve
  apply reserve
  exact ⟨inv, .refl s⟩

/-- **What `pmm_init` leaves.** -/
theorem pmmInit_booted (ready : pmmInit boot = .ok s) :
    Booted s ∧ ∃ highest, highestPhysical boot = .ok highest ∧ highest ≠ 0 ∧
      s.totalFrames = managedFrames highest := by
  unfold pmmInit at ready
  split at ready
  · cases ready
  next highest found =>
  split at ready
  · cases ready
  next nonzero =>
  dsimp only at ready
  split at ready
  · cases ready
  have start := allTaken_inv (managedFrames_le highest)
    (u32Add (alignUpU32 boot.kernelEndPhys pageSize) (bitmapBytes (managedFrames highest)))
  have marked {z : PmmState} (inv : Inv z) :
      Inv (if boot.hasMemoryMap then boot.memoryRegions.foldl markRegion z else z) ∧
        SameShape z (if boot.hasMemoryMap then boot.memoryRegions.foldl markRegion z else z) := by
    split
    · exact foldl_inv (fun _ region inv => markRegion_inv inv region) inv _
    · exact ⟨inv, .refl z⟩
  obtain ⟨inv, shape⟩ := marked start
  obtain ⟨inv', shape'⟩ := reserveBoot_inv inv boot (alignUpU32 boot.kernelEndPhys pageSize)
    (managedFrames highest)
  obtain ⟨inv'', shape'', -⟩ := pmmRecountNumaFreeFramesLocked_inv inv'.toLaid inv'.globalCursor
    inv'.roundRobin
  have kept := (shape.trans shape').trans shape''
  cases ready
  exact ⟨⟨inv''.setInitialized true, kept.mapped, rfl⟩, highest, found, nonzero, kept.total⟩

/-- When `pmm_init` returns. -/
theorem pmmInit_ok {highest : Nat} (found : highestPhysical boot = .ok highest)
    (nonzero : highest ≠ 0)
    (window : u32Add (alignUpU32 boot.kernelEndPhys pageSize)
      (bitmapBytes (managedFrames highest)) < pagingWindowEndPhys) :
    ∃ s, pmmInit boot = .ok s := by
  unfold pmmInit
  rw [found]
  dsimp only
  rw [if_neg nonzero, if_neg (Nat.not_le.mpr window)]
  exact ⟨_, rfl⟩

/-- The handoffs whose size survives the rounding to whole pages. -/
def BootInfo.FitsBelowCap (boot : BootInfo) : Prop :=
  boot.hasMemoryMap = true ∨ kibHighest boot.upperMemoryKib ≤ pmmPhysCap

theorem raiseHighest_le {highest : Nat} (bound : highest ≤ pmmPhysCap) (region : MemoryRegion) :
    raiseHighest highest region ≤ pmmPhysCap := by
  unfold raiseHighest
  dsimp only
  split_ifs <;> omega

theorem foldl_raiseHighest_le (regions : List MemoryRegion) {highest : Nat}
    (bound : highest ≤ pmmPhysCap) : regions.foldl raiseHighest highest ≤ pmmPhysCap := by
  induction regions generalizing highest with
  | nil => exact bound
  | cons region regions ih => exact ih (raiseHighest_le bound region)

theorem managedFrames_pos {highest : Nat} (nonzero : highest ≠ 0) (bound : highest ≤ pmmPhysCap) :
    managedFrames highest ≠ 0 := by
  unfold pmmPhysCap at bound
  unfold managedFrames alignUpU32 pageSize
  omega

/-- Past the cap the rounding wraps. -/
theorem managedFrames_wrap {highest : Nat} (past : pmmPhysCap < highest)
    (word : highest < 2 ^ 32) : managedFrames highest = 0 := by
  unfold pmmPhysCap at past
  unfold managedFrames alignUpU32 pageSize
  omega

/-- Some frame is managed exactly for the handoffs that fit. -/
theorem pmmInit_total_iff (ready : pmmInit boot = .ok s) :
    s.totalFrames ≠ 0 ↔ boot.FitsBelowCap := by
  obtain ⟨-, highest, found, nonzero, total⟩ := pmmInit_booted ready
  rw [total]
  unfold BootInfo.FitsBelowCap
  unfold highestPhysical at found
  cases map : boot.hasMemoryMap with
  | true =>
    rw [map, if_pos rfl] at found
    cases found
    have bound := foldl_raiseHighest_le boot.memoryRegions (Nat.zero_le pmmPhysCap)
    exact ⟨fun _ => Or.inl rfl, fun _ => managedFrames_pos nonzero bound⟩
  | false =>
    rw [map, if_neg Bool.false_ne_true] at found
    split at found
    · have same : kibHighest boot.upperMemoryKib = highest := Except.ok.inj found
      rw [← same] at nonzero ⊢
      constructor
      · intro some
        right
        by_contra past
        exact some (managedFrames_wrap (by omega) (Nat.mod_lt _ (by decide)))
      · rintro (map' | bound)
        · cases map'
        · exact managedFrames_pos nonzero bound
    · cases found

end Boot

/-! ## The accounting invariant -/

/-- Nodes, bitmap, counts and cursors of the allocator agree. -/
structure Accounting (s : PmmState) : Prop where
  nodes_pos : 1 ≤ s.activeNumaNodeCount
  nodes_le : s.activeNumaNodeCount ≤ 8
  first : (s.numaNodes 0).firstFrame = 0
  consecutive : ∀ i, i + 1 < s.activeNumaNodeCount →
    (s.numaNodes (i + 1)).firstFrame = (s.numaNodes i).firstFrame + (s.numaNodes i).frameCount
  last : (s.numaNodes (s.activeNumaNodeCount - 1)).firstFrame +
    (s.numaNodes (s.activeNumaNodeCount - 1)).frameCount = s.totalFrames
  even : ∀ i < s.activeNumaNodeCount, ∀ j < s.activeNumaNodeCount,
    (s.numaNodes i).frameCount ≤ (s.numaNodes j).frameCount + 1
  nodeFree : ∀ i < s.activeNumaNodeCount, (s.numaNodes i).freeFrames =
    s.frameBitmap.clearCount (s.numaNodes i).firstFrame
      ((s.numaNodes i).firstFrame + (s.numaNodes i).frameCount)
  free : s.freeFrames = s.frameBitmap.clearCount 0 s.totalFrames
  free_sum : s.freeFrames =
    ∑ i ∈ Finset.range s.activeNumaNodeCount, (s.numaNodes i).freeFrames
  nodeCursor : ∀ i < s.activeNumaNodeCount, (s.numaNodes i).frameCount ≠ 0 →
    (s.numaNodes i).firstFrame ≤ (s.numaNodes i).nextScanFrame ∧
      (s.numaNodes i).nextScanFrame <
        (s.numaNodes i).firstFrame + (s.numaNodes i).frameCount
  globalCursor : s.globalNextScanFrame < s.totalFrames
  roundRobin : s.roundRobinNumaNode < s.activeNumaNodeCount

/-- The accounting of a state, and what it promises of the next call: a guarded
decrement never meets a zero, and a new topology keeps the bitmap and the free
count. -/
structure AccountingKept (s : PmmState) : Prop extends Accounting s where
  noDrift : ∀ frame, (reserveFrameLocked s frame).2 = true →
    0 < s.freeFrames ∧ pmmNodeIndexForFrame s frame < s.activeNumaNodeCount ∧
      0 < (s.numaNodes (pmmNodeIndexForFrame s frame)).freeFrames
  topology : ∀ nodeCount,
    (pmmConfigureNumaTopology s nodeCount).1.frameBitmap = s.frameBitmap ∧
      (pmmConfigureNumaTopology s nodeCount).1.freeFrames = s.freeFrames

section Statement

variable {s : PmmState} {boot : BootInfo}

/-- The counts of the first `k` nodes add up to the clear bits they cover. -/
theorem Inv.sum_nodeFree (inv : Inv s) {k : Nat} (le : k ≤ s.activeNumaNodeCount) :
    ∑ i ∈ Finset.range k, (s.numaNodes i).freeFrames =
      s.frameBitmap.clearCount 0 (evenStart s.totalFrames s.activeNumaNodeCount k) := by
  induction k with
  | zero =>
    rw [evenStart_zero, Bitmap.clearCount_empty (le_refl 0)]
    rfl
  | succ k ih =>
    have active : k < s.activeNumaNodeCount := le
    rw [Finset.sum_range_succ, ih active.le, inv.nodeFree k active, inv.first k active,
      inv.last k active]
    exact Bitmap.clearCount_split (Nat.zero_le _) (evenStart_mono (Nat.le_succ k))

theorem Laid.frameCount_eq (laid : Laid s) {i : Nat} (active : i < s.activeNumaNodeCount) :
    (s.numaNodes i).frameCount = s.totalFrames / s.activeNumaNodeCount +
      if i < s.totalFrames % s.activeNumaNodeCount then 1 else 0 := by
  have last := laid.last i active
  unfold NumaNode.endFrame at last
  rw [laid.first i active, evenStart_succ] at last
  exact Nat.add_left_cancel last

theorem Inv.accounting (inv : Inv s) (nonempty : s.totalFrames ≠ 0) : Accounting s where
  nodes_pos := inv.active_pos
  nodes_le := inv.active_le
  first := by rw [inv.first 0 inv.active_pos, evenStart_zero]
  consecutive i active := by
    rw [inv.first (i + 1) active]
    exact (inv.last i (by omega)).symm
  last := by
    have positive := inv.active_pos
    have last := inv.last (s.activeNumaNodeCount - 1) (by omega)
    rw [Nat.sub_add_cancel positive, evenStart_end positive] at last
    exact last
  even i activeI j activeJ := by
    rw [inv.frameCount_eq activeI, inv.frameCount_eq activeJ, Nat.add_assoc]
    apply Nat.add_le_add_left
    split <;> omega
  nodeFree := inv.nodeFree
  free := inv.free
  free_sum := by
    rw [inv.sum_nodeFree (le_refl _), evenStart_end inv.active_pos]
    exact inv.free
  nodeCursor := inv.nodeCursor
  globalCursor := inv.globalCursor nonempty
  roundRobin := inv.roundRobin

theorem Inv.noDrift (inv : Inv s) {frame : Nat} (reserved : (reserveFrameLocked s frame).2 = true) :
    0 < s.freeFrames ∧ pmmNodeIndexForFrame s frame < s.activeNumaNodeCount ∧
      0 < (s.numaNodes (pmmNodeIndexForFrame s frame)).freeFrames := by
  have accepted : frame < s.totalFrames ∧ s.frameBitmap.test frame = false := by
    unfold reserveFrameLocked at reserved
    split at reserved
    · cases reserved
    · next accepted =>
      rw [not_or, Bool.not_eq_true] at accepted
      exact ⟨by omega, accepted.2⟩
  obtain ⟨below, free⟩ := accepted
  obtain ⟨i, active, index, contains, -⟩ := inv.nodeIndex below
  rw [index, inv.free, inv.nodeFree i active]
  exact ⟨Bitmap.clearCount_pos (Nat.zero_le _) below free, active,
    Bitmap.clearCount_pos contains.1 contains.2 free⟩

/-- **Accounting of the frame allocator.**  After any calls the counts, the node
ranges and the cursors agree with the bitmap, exactly when the handoff does not
report a size in the last partial page below 4 GiB. -/
theorem pmm_accounting_iff (ready : pmmInit boot = .ok s) :
    (∀ ops, AccountingKept (s.run ops)) ↔ boot.FitsBelowCap := by
  have booted := (pmmInit_booted ready).1
  rw [← pmmInit_total_iff ready]
  constructor
  · intro kept empty
    have cursor := (kept []).globalCursor
    have total : (s.run []).totalFrames = 0 := empty
    omega
  · intro nonempty ops
    have now := booted.run ops
    have managed : (s.run ops).totalFrames ≠ 0 := by
      rw [booted.run_total ops]
      exact nonempty
    refine ⟨now.toInv.accounting managed, fun frame => now.toInv.noDrift, fun nodeCount => ?_⟩
    obtain ⟨-, bitmap, free, -⟩ := pmmConfigureNumaTopology_booted now nodeCount
    exact ⟨bitmap, free⟩

end Statement

/-- A PC with 8 MiB and a memory map. -/
def eightMibBoot : BootInfo where
  hasMemoryMap := true
  memoryRegions := [⟨0, 0x9FC00, 1⟩, ⟨0x100000, 0x700000, 1⟩]
  memoryMapPhys := 0x9100
  memoryMapSize := 48
  hasMemoryKibInfo := true
  upperMemoryKib := 7168
  infoPhys := 0x9000
  infoSizeHint := 88
  moduleTablePhys := 0
  moduleTableSize := 0
  modules := []
  kernelStartPhys := 0x100000
  kernelEndPhys := 0x180000

theorem pmm_accounting_eightMib :
    ∃ s, pmmInit eightMibBoot = .ok s ∧ ∀ ops, AccountingKept (s.run ops) := by
  have found : highestPhysical eightMibBoot = .ok 0x800000 := by decide
  obtain ⟨s, ready⟩ := pmmInit_ok found (by decide) (by decide)
  exact ⟨s, ready, (pmm_accounting_iff ready).mpr (Or.inl rfl)⟩

/-- No memory map, and KiB fields that put the end of memory at `0xFFFFF400`. -/
def kibBelowFourGibBoot : BootInfo :=
  { eightMibBoot with
    hasMemoryMap := false
    memoryRegions := []
    memoryMapPhys := 0
    memoryMapSize := 0
    upperMemoryKib := 0x3FFBFD }

/-- Rounding `0xFFFFF400` up to a page wraps: no frame is managed and the global
cursor has no range to lie in. -/
theorem pmm_accounting_fails_below_fourGib :
    ∃ s, pmmInit kibBelowFourGibBoot = .ok s ∧ s.totalFrames = 0 ∧ ¬ Accounting s := by
  have found : highestPhysical kibBelowFourGibBoot = .ok 0xFFFFF400 := by decide
  obtain ⟨s, ready⟩ := pmmInit_ok found (by decide) (by decide)
  obtain ⟨-, highest, found', -, total⟩ := pmmInit_booted ready
  have empty : s.totalFrames = 0 := by
    rw [total, Except.ok.inj (found'.symm.trans found)]
    decide
  refine ⟨s, ready, empty, fun kept => ?_⟩
  have cursor := kept.globalCursor
  omega

end Dfos.Pmm
