import Dfos.Pmm.BootRanges
import Dfos.Pmm.NodeChoice

/-!
# When a run of frames is found

`pmm_alloc_frames_on_node` looks for a run of free frames in each node and then
in all of memory, each time in two pieces: from a cursor up, and from the start
to the cursor.  A run that lies across the cursor is in neither piece.
-/

namespace Dfos.Pmm

open Dfos.Lib

/-- The cursor lies inside the run `[lo, lo + n)`. -/
def Cuts (cursor lo n : Nat) : Prop := lo < cursor ∧ cursor < lo + n

namespace PmmState

/-- A run of free frames. -/
def FreeRun (s : PmmState) (lo n : Nat) : Prop :=
  lo + n ≤ s.totalFrames ∧ ∀ f, lo ≤ f → f < lo + n → s.frameBitmap.test f = false

/-- The run lies in the node, and the cursor of the node does not cut it. -/
def SeenInNode (s : PmmState) (id lo n : Nat) : Prop :=
  (s.numaNodes id).firstFrame ≤ lo ∧ lo + n ≤ (s.numaNodes id).endFrame ∧
    ¬ Cuts (s.numaNodes id).nextScanFrame lo n

/-- Some search has the run in one piece. -/
def Seen (s : PmmState) (lo n : Nat) : Prop :=
  ¬ Cuts s.globalNextScanFrame lo n ∨ ∃ id < s.activeNumaNodeCount, s.SeenInNode id lo n

end PmmState

/-! ## The scan for a run -/

section Scan

variable {bitmap : Bitmap} {s : PmmState} {frameCount lo start stop searchStart id : Nat}

/-- **The scan finds a run that starts no later than any run in its range.**  It
carries the free frames that end where it stands; a run that began before lies in
them. -/
theorem findRun_finds {left frame runStart runLength : Nat} (short : runLength < frameCount)
    (run : runLength ≠ 0 → runStart + runLength = frame)
    (began : lo < frame → runLength ≠ 0 ∧ runStart ≤ lo)
    (fits : lo + frameCount ≤ frame + left)
    (free : ∀ f, lo ≤ f → f < lo + frameCount → bitmap.test f = false) :
    ∃ r ≤ lo, findRun bitmap frameCount left frame runStart runLength = some r := by
  induction left generalizing frame runStart runLength with
  | zero =>
      obtain ⟨nonempty, early⟩ := began (by omega)
      have := run nonempty
      omega
  | succ left ih =>
      unfold findRun
      cases taken : bitmap.test frame with
      | true =>
          rw [if_pos rfl]
          have ahead : frame < lo := by
            by_contra behind
            by_cases inside : frame < lo + frameCount
            · rw [free frame (by omega) inside] at taken
              cases taken
            · obtain ⟨nonempty, early⟩ := began (by omega)
              have := run nonempty
              omega
          exact ih (by omega) (fun some => absurd rfl some) (fun behind => by omega) (by omega)
      | false =>
          rw [if_neg Bool.false_ne_true]
          dsimp only
          -- where the run that ends at this frame starts
          have starts : (if runLength = 0 then frame else runStart) + (runLength + 1) = frame + 1 := by
            split
            · omega
            · next nonempty =>
                have := run nonempty
                omega
          have early : lo < frame + 1 → (if runLength = 0 then frame else runStart) ≤ lo := by
            intro behind
            by_cases here : lo = frame
            · omega
            · obtain ⟨nonempty, early⟩ := began (by omega)
              rw [if_neg nonempty]
              exact early
          split
          · refine ⟨_, ?_, rfl⟩
            by_cases behind : lo < frame + 1
            · exact early behind
            · omega
          · exact ih (by omega) (fun _ => starts) (fun behind => ⟨by omega, early behind⟩) (by omega)

theorem pmmFindContiguousFreeLinearLocked_finds (positive : frameCount ≠ 0) (low : start ≤ lo)
    (high : lo + frameCount ≤ stop)
    (free : ∀ f, lo ≤ f → f < lo + frameCount → s.frameBitmap.test f = false) :
    ∃ r ≤ lo, pmmFindContiguousFreeLinearLocked s start stop frameCount = some r := by
  unfold pmmFindContiguousFreeLinearLocked
  rw [if_neg (by omega), if_neg (by omega)]
  exact findRun_finds (by omega) (fun some => absurd rfl some) (fun behind => by omega) (by omega)
    free

/-- A run of free frames inside `[start, stop)`. -/
def RunWithin (s : PmmState) (start stop frameCount lo : Nat) : Prop :=
  start ≤ lo ∧ lo + frameCount ≤ stop ∧
    ∀ f, lo ≤ f → f < lo + frameCount → s.frameBitmap.test f = false

/-- **The linear search is exact.**  It succeeds if and only if there is a run in
the range, and then reports the lowest one; nothing is asked of the bitmap or of
the range. -/
theorem linear_search_exact (s : PmmState) (start stop frameCount : Nat)
    (positive : 1 ≤ frameCount) :
    ((∃ r, pmmFindContiguousFreeLinearLocked s start stop frameCount = some r) ↔
      ∃ lo, RunWithin s start stop frameCount lo) ∧
    ∀ r, pmmFindContiguousFreeLinearLocked s start stop frameCount = some r →
      RunWithin s start stop frameCount r ∧
        ∀ lo, RunWithin s start stop frameCount lo → r ≤ lo := by
  have finds (lo : Nat) (run : RunWithin s start stop frameCount lo) :
      ∃ r ≤ lo, pmmFindContiguousFreeLinearLocked s start stop frameCount = some r :=
    pmmFindContiguousFreeLinearLocked_finds (by omega) run.1 run.2.1 run.2.2
  refine ⟨⟨?_, ?_⟩, ?_⟩
  · rintro ⟨r, found⟩
    exact ⟨r, pmmFindContiguousFreeLinearLocked_some found⟩
  · rintro ⟨lo, run⟩
    obtain ⟨r, -, found⟩ := finds lo run
    exact ⟨r, found⟩
  · intro r found
    refine ⟨pmmFindContiguousFreeLinearLocked_some found, ?_⟩
    intro lo run
    obtain ⟨r', early, found'⟩ := finds lo run
    rw [found] at found'
    cases found'
    exact early

/-- Three frames in a row, where the first two and then one more are taken. -/
theorem linear_search_exact_taken :
    ∃ r, pmmFindContiguousFreeLinearLocked
      { PmmState.zero with frameBitmap := fun i => if i = 0 then 0x23 else 0 } 2 9 3 = some r ∧
      ∀ lo, RunWithin { PmmState.zero with frameBitmap := fun i => if i = 0 then 0x23 else 0 } 2 9 3
        lo → r ≤ lo := by
  obtain ⟨finds, lowest⟩ := linear_search_exact
    { PmmState.zero with frameBitmap := fun i => if i = 0 then 0x23 else 0 } 2 9 3 (by decide)
  obtain ⟨r, found⟩ := finds.mpr ⟨6, by decide, by decide, by decide⟩
  exact ⟨r, found, (lowest r found).2⟩

/-- **The search in two pieces** finds something exactly if there is a run that the
cursor does not cut. -/
theorem pmmFindContiguousFreeWrappedLocked_iff (positive : frameCount ≠ 0)
    (inside : start ≤ searchStart ∧ searchStart < stop) :
    pmmFindContiguousFreeWrappedLocked s start stop frameCount searchStart ≠ none ↔
      ∃ lo, start ≤ lo ∧ lo + frameCount ≤ stop ∧ ¬ Cuts searchStart lo frameCount ∧
        ∀ f, lo ≤ f → f < lo + frameCount → s.frameBitmap.test f = false := by
  unfold pmmFindContiguousFreeWrappedLocked Cuts
  constructor
  · intro found
    split at found
    · exact absurd rfl found
    split at found
    · exact absurd rfl found
    rw [if_neg (by omega)] at found
    dsimp only at found
    cases upper : pmmFindContiguousFreeLinearLocked s searchStart stop frameCount with
    | some r =>
        obtain ⟨low, high, free⟩ := pmmFindContiguousFreeLinearLocked_some upper
        exact ⟨r, by omega, high, by omega, free⟩
    | none =>
        rw [upper] at found
        dsimp only at found
        split at found
        · exact absurd rfl found
        · obtain ⟨r, lower⟩ := Option.ne_none_iff_exists'.mp found
          obtain ⟨low, high, free⟩ := pmmFindContiguousFreeLinearLocked_some lower
          exact ⟨r, low, by omega, by omega, free⟩
  · rintro ⟨lo, low, high, whole, free⟩
    rw [if_neg (by omega), if_neg (by omega), if_neg (by omega)]
    dsimp only
    cases upper : pmmFindContiguousFreeLinearLocked s searchStart stop frameCount with
    | some r => nofun
    | none =>
        dsimp only
        by_cases above : searchStart ≤ lo
        · obtain ⟨r, -, found⟩ := pmmFindContiguousFreeLinearLocked_finds positive above high free
          rw [upper] at found
          cases found
        · have below : lo + frameCount ≤ searchStart := by omega
          obtain ⟨r, -, found⟩ := pmmFindContiguousFreeLinearLocked_finds positive low below free
          rw [if_neg (by omega), found]
          nofun

/-- A node is searched exactly if it has a run that its cursor does not cut. -/
theorem pmmFindContiguousInNodeLocked_iff (inv : Inv s) (active : id < s.activeNumaNodeCount)
    (positive : frameCount ≠ 0) :
    (pmmFindContiguousInNodeLocked s id frameCount).2 ≠ none ↔
      ∃ lo, s.FreeRun lo frameCount ∧ s.SeenInNode id lo frameCount := by
  have last := inv.end_le active
  have length : (s.numaNodes id).endFrame = (s.numaNodes id).firstFrame +
      (s.numaNodes id).frameCount := rfl
  constructor
  · intro found
    unfold pmmFindContiguousInNodeLocked at found
    rw [if_neg (by omega)] at found
    dsimp only at found
    split at found
    · exact absurd rfl found
    next room =>
    have nonempty : (s.numaNodes id).frameCount ≠ 0 := by omega
    have cursor := inv.nodeCursor id active nonempty
    rw [inv.scanCursor_mem active nonempty] at found
    have some : pmmFindContiguousFreeWrappedLocked s (s.numaNodes id).firstFrame
        (s.numaNodes id).endFrame frameCount (s.numaNodes id).nextScanFrame ≠ none := by
      intro none
      rw [none] at found
      exact found rfl
    obtain ⟨lo, low, high, whole, free⟩ :=
      (pmmFindContiguousFreeWrappedLocked_iff positive cursor).mp some
    exact ⟨lo, ⟨by omega, free⟩, low, high, whole⟩
  · rintro ⟨lo, ⟨inside, free⟩, low, high, whole⟩
    have nonempty : (s.numaNodes id).frameCount ≠ 0 := by omega
    have counted : frameCount ≤ (s.numaNodes id).freeFrames := by
      rw [inv.nodeFree id active]
      exact Bitmap.le_clearCount low high free
    have some := (pmmFindContiguousFreeWrappedLocked_iff positive
      (inv.nodeCursor id active nonempty)).mpr ⟨lo, low, high, whole, free⟩
    obtain ⟨r, found⟩ := Option.ne_none_iff_exists'.mp some
    obtain ⟨above, fits, free'⟩ := pmmFindContiguousFreeWrappedLocked_some found
    obtain ⟨t, reserved, -⟩ := pmmReserveContiguousLocked_took inv (by omega) free'
    unfold pmmFindContiguousInNodeLocked
    rw [if_neg (by omega)]
    dsimp only
    rw [if_neg (by omega), inv.scanCursor_mem active nonempty, found]
    dsimp only
    rw [reserved]
    nofun

end Scan

/-! ## The call -/

section Call

variable {s : PmmState} {frameCount preferredNode : Nat}

/-- The loop over the nodes comes to every node it does not skip. -/
theorem searchOthers_supplies {search : PmmState → Nat → PmmState × Option Nat} (inv : Inv s)
    (still : ∀ id, (search s id).2 = none → (search s id).1 = s) {id : Nat}
    (active : id < s.activeNumaNodeCount)
    (kept : ¬ (preferredNode ≠ pmmNumaNodeAny ∧ preferredNode < s.activeNumaNodeCount ∧
      id = preferredNode)) (supplies : (search s id).2 ≠ none) :
    (searchOthers search preferredNode s).2 ≠ none := by
  obtain ⟨j, below, visits⟩ := exists_round (Nat.mod_lt s.roundRobinNumaNode inv.active_pos) active
  refine searchNodes_supplies still (Nat.zero_le j) (by omega) ?_ ?_
  · rw [visits]
    exact kept
  · rw [visits]
    exact supplies

theorem searchPreferred_iff {search : PmmState → Nat → PmmState × Option Nat} :
    (searchPreferred search preferredNode s).2 ≠ none ↔
      (preferredNode ≠ pmmNumaNodeAny ∧ preferredNode < s.activeNumaNodeCount) ∧
        (search s preferredNode).2 ≠ none := by
  unfold searchPreferred
  split
  · next asked =>
      rcases search s preferredNode with ⟨t, _ | r⟩
      · simp
      · simp [asked]
  · next other => simp [other]

/-- The three searches of the call. -/
theorem Booted.allocFrames_parts (booted : Booted s) (positive : frameCount ≠ 0)
    (enough : frameCount ≤ s.freeFrames) (preferredNode : Nat) :
    (pmmAllocFramesOnNode s frameCount preferredNode).2 ≠ none ↔
      (searchPreferred (pmmFindContiguousInNodeLocked · · frameCount) preferredNode s).2 ≠ none ∨
      (searchOthers (pmmFindContiguousInNodeLocked · · frameCount) preferredNode s).2 ≠ none ∨
      pmmFindContiguousFreeWrappedLocked s 0 s.totalFrames frameCount s.globalNextScanFrame ≠
        none := by
  have inv := booted.toInv
  have active := inv.active_pos
  have outcome := fun id => pmmFindContiguousInNodeLocked_outcome inv id frameCount
  unfold pmmAllocFramesOnNode
  rw [if_neg positive, if_neg (by rw [booted.initialized]; simp; omega)]
  dsimp only
  rcases searchPreferred_outcome (pmmFindContiguousInNodeLocked · · frameCount) outcome
      preferredNode with first | ⟨lo, first, -⟩
  · rw [first]
    dsimp only
    rcases searchOthers_outcome (pmmFindContiguousInNodeLocked · · frameCount) outcome
        preferredNode with second | ⟨lo, second, -⟩
    · rw [second]
      dsimp only
      cases third : pmmFindContiguousFreeWrappedLocked s 0 s.totalFrames frameCount
          s.globalNextScanFrame with
      | none => simp
      | some runStart =>
          obtain ⟨-, fits, free⟩ := pmmFindContiguousFreeWrappedLocked_some third
          obtain ⟨t, reserved, -⟩ := pmmReserveContiguousLocked_took inv fits free
          dsimp only
          rw [reserved]
          simp
    · generalize searchOthers (pmmFindContiguousInNodeLocked · · frameCount) preferredNode s =
        result at second
      obtain ⟨t, address⟩ := result
      cases second
      simp
  · generalize searchPreferred (pmmFindContiguousInNodeLocked · · frameCount) preferredNode s =
      result at first
    obtain ⟨t, address⟩ := result
    cases first
    simp

/-- **A run of frames is found exactly if some search has one in one piece.** -/
theorem Booted.allocFrames_iff (booted : Booted s) (positive : frameCount ≠ 0)
    (preferredNode : Nat) :
    (pmmAllocFramesOnNode s frameCount preferredNode).2 ≠ none ↔
      ∃ lo, s.FreeRun lo frameCount ∧ s.Seen lo frameCount := by
  have inv := booted.toInv
  have still := fun id => (pmmFindContiguousInNodeLocked_outcome inv id frameCount).still
  have active : ∀ k, k % s.activeNumaNodeCount < s.activeNumaNodeCount :=
    fun k => Nat.mod_lt k inv.active_pos
  constructor
  · intro done
    have enough : frameCount ≤ s.freeFrames := by
      by_contra few
      unfold pmmAllocFramesOnNode at done
      rw [if_neg positive, if_pos (Or.inr (Or.inr (by omega)))] at done
      exact done rfl
    -- a node that has something shows a run
    have shows : ∀ {id}, id < s.activeNumaNodeCount →
        (pmmFindContiguousInNodeLocked s id frameCount).2 ≠ none →
        ∃ lo, s.FreeRun lo frameCount ∧ s.Seen lo frameCount := by
      intro id below found
      obtain ⟨lo, run, seen⟩ := (pmmFindContiguousInNodeLocked_iff inv below positive).mp found
      exact ⟨lo, run, Or.inr ⟨id, below, seen⟩⟩
    rcases (booted.allocFrames_parts positive enough preferredNode).mp done with
      first | second | third
    · obtain ⟨asked, found⟩ := searchPreferred_iff.mp first
      exact shows asked.2 found
    · obtain ⟨r, found⟩ := Option.ne_none_iff_exists'.mp second
      obtain ⟨j, -, -, here, -⟩ := searchNodes_first still found
      exact shows (active _) (by rw [here]; nofun)
    · have nonempty : s.totalFrames ≠ 0 := by
        intro none
        unfold pmmFindContiguousFreeWrappedLocked at third
        rw [if_pos (by omega)] at third
        exact third rfl
      obtain ⟨lo, -, fits, whole, free⟩ := (pmmFindContiguousFreeWrappedLocked_iff positive
        ⟨Nat.zero_le _, inv.globalCursor nonempty⟩).mp third
      exact ⟨lo, ⟨fits, free⟩, Or.inl whole⟩
  · rintro ⟨lo, run, seen⟩
    have enough : frameCount ≤ s.freeFrames := by
      rw [inv.free]
      exact Bitmap.le_clearCount (Nat.zero_le lo) run.1 run.2
    rw [booted.allocFrames_parts positive enough preferredNode]
    rcases seen with whole | ⟨id, below, inNode⟩
    · have cursor : s.globalNextScanFrame < s.totalFrames := by
        apply inv.globalCursor
        have := run.1
        omega
      exact Or.inr (Or.inr ((pmmFindContiguousFreeWrappedLocked_iff positive
        ⟨Nat.zero_le _, cursor⟩).mpr ⟨lo, Nat.zero_le lo, run.1, whole, run.2⟩))
    · have supplies := (pmmFindContiguousInNodeLocked_iff inv below positive).mpr ⟨lo, run, inNode⟩
      by_cases asked : preferredNode ≠ pmmNumaNodeAny ∧ preferredNode < s.activeNumaNodeCount ∧
          id = preferredNode
      · obtain ⟨any, less, rfl⟩ := asked
        exact Or.inl (searchPreferred_iff.mpr ⟨⟨any, less⟩, supplies⟩)
      · exact Or.inr (Or.inl (searchOthers_supplies inv still below asked supplies))

/-- **Contiguous allocation succeeds whenever it can exactly if some run of free
frames, when there is one, lies whole in a piece that is searched**: no cursor
cuts it in all the searches that reach it. -/
theorem pmm_alloc_frames_complete_iff {boot : BootInfo} {booted : PmmState}
    (ready : pmmInit boot = .ok booted) (ops : List PmmOp) (preferredNode : Nat)
    (positive : frameCount ≠ 0) :
    ((pmmAllocFramesOnNode (booted.run ops) frameCount preferredNode).2 ≠ none ↔
        ∃ lo, (booted.run ops).FreeRun lo frameCount) ↔
      ((∃ lo, (booted.run ops).FreeRun lo frameCount) →
        ∃ lo, (booted.run ops).FreeRun lo frameCount ∧ (booted.run ops).Seen lo frameCount) := by
  rw [((pmmInit_booted ready).1.run ops).allocFrames_iff positive preferredNode]
  refine ⟨fun complete => complete.mpr, fun seen => ⟨?_, seen⟩⟩
  rintro ⟨lo, run, -⟩
  exact ⟨lo, run⟩

theorem pmm_alloc_frames_complete_iff_eightMib :
    ∃ s, pmmInit eightMibBoot = .ok s ∧
      (((pmmAllocFramesOnNode (s.run [.allocFrameOnNode 0]) 3 0).2 ≠ none ↔
          ∃ lo, (s.run [.allocFrameOnNode 0]).FreeRun lo 3) ↔
        ((∃ lo, (s.run [.allocFrameOnNode 0]).FreeRun lo 3) →
          ∃ lo, (s.run [.allocFrameOnNode 0]).FreeRun lo 3 ∧
            (s.run [.allocFrameOnNode 0]).Seen lo 3)) := by
  have found : highestPhysical eightMibBoot = .ok 0x800000 := by decide
  obtain ⟨s, ready⟩ := pmmInit_ok found (by decide) (by decide)
  exact ⟨s, ready, pmm_alloc_frames_complete_iff ready _ 0 (by decide)⟩

end Call

/-! ## A run across the cursors -/

section Across

variable {s t : PmmState}

/-- The cursors are the same. -/
def SameCursors (s t : PmmState) : Prop :=
  t.globalNextScanFrame = s.globalNextScanFrame ∧
    ∀ i, (t.numaNodes i).nextScanFrame = (s.numaNodes i).nextScanFrame

theorem SameCursors.trans {u : PmmState} (first : SameCursors s t) (second : SameCursors t u) :
    SameCursors s u :=
  ⟨second.1.trans first.1, fun i => (second.2 i).trans (first.2 i)⟩

theorem adjustNode_cursors (s : PmmState) (frame : Nat) (adjust : Nat → Nat) :
    SameCursors s (adjustNode s frame adjust) := by
  unfold adjustNode
  dsimp only
  split
  · exact ⟨rfl, fun _ => rfl⟩
  · refine ⟨rfl, fun i => ?_⟩
    by_cases here : i = pmmNodeIndexForFrame s frame
    · rw [here, setNode_self]
    · rw [setNode_other here]

theorem releaseFrameLocked_cursors (s : PmmState) (frame : Nat) :
    SameCursors s (releaseFrameLocked s frame).1 := by
  unfold releaseFrameLocked
  split
  · exact ⟨rfl, fun _ => rfl⟩
  · exact adjustNode_cursors _ frame _

theorem freeLoop_cursors (frame left i : Nat) (s : PmmState) :
    SameCursors s (freeLoop frame left i s) := by
  induction left generalizing i s with
  | zero => exact ⟨rfl, fun _ => rfl⟩
  | succ left ih => exact (releaseFrameLocked_cursors s _).trans (ih (i + 1) _)

/-- On one node that is searched from its start, a call gets the first run, and
leaves both cursors behind it. -/
theorem Booted.allocFrames_single (booted : Booted s) {frameCount lo : Nat}
    (positive : frameCount ≠ 0) (single : s.activeNumaNodeCount = 1)
    (start : (s.numaNodes 0).nextScanFrame = 0) (run : s.FreeRun lo frameCount)
    (inside : lo + frameCount < s.totalFrames) (first : ∀ f < lo, s.frameBitmap.test f = true) :
    ∃ t, pmmAllocFramesOnNode s frameCount pmmNumaNodeAny = (t, some (lo * pageSize)) ∧
      t.globalNextScanFrame = lo + frameCount ∧
      (t.numaNodes 0).nextScanFrame = lo + frameCount := by
  have inv := booted.toInv
  have zero : (s.numaNodes 0).firstFrame = 0 := by
    rw [inv.first 0 inv.active_pos, evenStart_zero]
  have all : (s.numaNodes 0).endFrame = s.totalFrames := by
    rw [inv.last 0 inv.active_pos, Nat.zero_add, ← single, evenStart_end inv.active_pos]
  have length : (s.numaNodes 0).frameCount = s.totalFrames := by
    unfold NumaNode.endFrame at all
    omega
  have enough : frameCount ≤ s.freeFrames := by
    rw [inv.free]
    exact Bitmap.le_clearCount (Nat.zero_le lo) run.1 run.2
  have counted : frameCount ≤ (s.numaNodes 0).freeFrames := by
    rw [inv.nodeFree 0 inv.active_pos, zero, all, ← inv.free]
    exact enough
  -- the search starts at frame 0 and stops at the first run
  have linear : pmmFindContiguousFreeLinearLocked s 0 s.totalFrames frameCount = some lo := by
    obtain ⟨r, early, found⟩ :=
      pmmFindContiguousFreeLinearLocked_finds positive (Nat.zero_le lo) run.1 run.2
    obtain ⟨-, -, free⟩ := pmmFindContiguousFreeLinearLocked_some found
    rcases Nat.eq_or_lt_of_le early with same | before
    · rw [← same]
      exact found
    · have taken := first r before
      rw [free r (le_refl r) (by omega)] at taken
      cases taken
  have wrapped : pmmFindContiguousFreeWrappedLocked s 0 s.totalFrames frameCount 0 = some lo := by
    unfold pmmFindContiguousFreeWrappedLocked
    rw [if_neg (by omega), if_neg (by omega), if_neg (by omega)]
    dsimp only
    rw [linear]
  obtain ⟨t, reserved, took⟩ := pmmReserveContiguousLocked_took inv run.1 run.2
  have ranges := pmmReserveContiguousLocked_sameRanges frameCount lo s
  rw [reserved] at ranges
  have node : pmmFindContiguousInNodeLocked s 0 frameCount =
      (t.setNode 0 { t.numaNodes 0 with nextScanFrame := lo + frameCount }, some lo) := by
    have behind : ¬ (t.numaNodes 0).endFrame ≤ lo + frameCount := by
      rw [ranges.last, all]
      omega
    unfold pmmFindContiguousInNodeLocked
    rw [if_neg (by omega)]
    dsimp only
    rw [if_neg (by omega), inv.scanCursor_mem inv.active_pos (by omega), start, zero, all, wrapped]
    dsimp only
    rw [reserved]
    dsimp only
    rw [if_neg behind]
  have others : searchOthers (pmmFindContiguousInNodeLocked · · frameCount) pmmNumaNodeAny s =
      ({ t.setNode 0 { t.numaNodes 0 with nextScanFrame := lo + frameCount } with
        roundRobinNumaNode := 1 % t.activeNumaNodeCount }, some lo) := by
    unfold searchOthers
    rw [single]
    unfold searchNodes
    dsimp only
    rw [single, if_neg (fun skipped => skipped.1 rfl), Nat.mod_one, node]
    rfl
  have small : lo < 2 ^ 20 := Nat.lt_of_lt_of_le (by omega) booted.total_le
  have total := took.shape.total
  unfold pmmAllocFramesOnNode
  rw [if_neg positive, if_neg (by rw [booted.initialized]; simp; omega)]
  dsimp only
  rw [show searchPreferred (pmmFindContiguousInNodeLocked · · frameCount) pmmNumaNodeAny s =
    (s, none) from if_neg fun asked => asked.1 rfl]
  dsimp only
  rw [others]
  dsimp only
  have address : frameAddress lo = lo * pageSize := by
    unfold frameAddress pageSize
    omega
  rw [address]
  refine ⟨_, rfl, ?_, ?_⟩
  · unfold advanceGlobal
    extract_lets next moved here
    have global : moved.globalNextScanFrame = lo + frameCount := by
      exact if_neg (by show ¬ t.totalFrames ≤ lo + frameCount; omega)
    split
    · exact global
    · exact global
  · unfold advanceGlobal
    extract_lets next moved here
    have cursor : (moved.numaNodes 0).nextScanFrame = lo + frameCount := by
      exact congrArg NumaNode.nextScanFrame (setNode_self (s := t))
    split
    · exact cursor
    · exact cursor

theorem eightMibBoot_total (ready : pmmInit eightMibBoot = .ok s) : s.totalFrames = 0x800 := by
  have found : highestPhysical eightMibBoot = .ok 0x800000 := by decide
  obtain ⟨-, highest, found', -, total⟩ := pmmInit_booted ready
  obtain rfl := Except.ok.inj (found.symm.trans found')
  rw [total]
  decide

/-- The free frames of `eightMibBoot`: everything above the kernel image and the
bitmap. -/
theorem eightMibBoot_free {f : Nat} (ready : pmmInit eightMibBoot = .ok s) :
    f ∈ s.freeSet ↔ 0x181 ≤ f ∧ f < 0x800 := by
  have total := eightMibBoot_total ready
  have bytes : bitmapBytes s.totalFrames = 0x1000 := by
    rw [total]
    decide
  constructor
  · intro free
    have below := free.1
    rw [total] at below
    obtain ⟨-, clear⟩ := pmmInit_free ready free
    have low := clear.low
    have kernel := clear.kernel
    have bitmap := clear.bitmap
    rw [bytes, show alignUpU32 eightMibBoot.kernelEndPhys pageSize = 0x180000 by decide,
      meets_iff (by decide)] at bitmap
    rw [meets_iff (by decide)] at low kernel
    unfold pageSize at low kernel bitmap
    have image : eightMibBoot.kernelStartPhys = 0x100000 ∧
        eightMibBoot.kernelEndPhys = 0x180000 := by decide
    rw [image.1, image.2] at kernel
    omega
  · rintro ⟨low, high⟩
    have off : ∀ {base length}, base + length ≤ 0x181000 → ¬ Meets f base length := by
      rintro base length inside ⟨byte, bounds, rfl⟩
      unfold pageSize at low
      omega
    have marks : MemoryRegion.Marks ⟨0x100000, 0x700000, 1⟩ f :=
      ⟨⟨by decide, by decide, by decide⟩, Nat.le_trans (by decide) low,
        Nat.lt_of_lt_of_le high (by decide)⟩
    refine pmmInit_frees ready (by decide) (fun _ => by decide)
      ⟨rfl, _, List.mem_cons_of_mem _ List.mem_cons_self, marks⟩ ?_
    rw [bytes]
    exact ⟨off (by decide), off (by decide), off (by decide), fun _ => off (by decide),
      fun _ => off (by decide), fun table => absurd rfl table, fun module member => by cases member⟩

/-- **A run of 1663 free frames, and a call for 1000 of them fails**: an earlier
call for 800 left both cursors in the middle of the run. -/
theorem pmm_alloc_frames_misses_run :
    ∃ s t, pmmInit eightMibBoot = .ok s ∧
      t = s.run [.configureNumaTopology 1, .allocFramesOnNode 800 pmmNumaNodeAny,
        .freeFrames 0x181000 800] ∧
      t.FreeRun 0x181 1663 ∧ (pmmAllocFramesOnNode t 1000 pmmNumaNodeAny).2 = none := by
  have found : highestPhysical eightMibBoot = .ok 0x800000 := by decide
  obtain ⟨s, ready⟩ := pmmInit_ok found (by decide) (by decide)
  have booted := (pmmInit_booted ready).1
  obtain ⟨booted₁, bitmap₁, -, total₁⟩ := pmmConfigureNumaTopology_booted booted 1
  have single := pmmConfigureNumaTopology_active booted (show 1 ≠ 0 by decide) (by decide)
  have cursor := pmmConfigureNumaTopology_cursors booted (show 1 ≠ 0 by decide) (by decide)
    Nat.one_pos
  rw [booted₁.first 0 booted₁.active_pos, evenStart_zero] at cursor
  rw [eightMibBoot_total ready] at total₁
  have free₁ : ∀ f, f < 0x800 →
      ((pmmConfigureNumaTopology s 1).1.frameBitmap.test f = false ↔ 0x181 ≤ f) := by
    intro f below
    rw [bitmap₁]
    refine ⟨fun free => ?_, fun low => ((eightMibBoot_free ready).mpr ⟨low, below⟩).2⟩
    have managed : f < s.totalFrames := by
      rw [eightMibBoot_total ready]
      exact below
    exact ((eightMibBoot_free ready).mp ⟨managed, free⟩).1
  -- the call for 800 frames
  have run₁ : (pmmConfigureNumaTopology s 1).1.FreeRun 0x181 800 :=
    ⟨by omega, fun f low high => (free₁ f (by omega)).mpr low⟩
  have first : ∀ f < 0x181, (pmmConfigureNumaTopology s 1).1.frameBitmap.test f = true := by
    intro f low
    by_contra free
    have := (free₁ f (by omega)).mp (Bool.eq_false_of_not_eq_true free)
    omega
  obtain ⟨t, call, global, scan⟩ :=
    booted₁.allocFrames_single (by decide) single cursor run₁ (by omega) first
  obtain ⟨-, took⟩ := (pmmAllocFramesOnNode_allocated booted₁.toInv 800 pmmNumaNodeAny).address
    booted₁.toInv (by decide) (congrArg Prod.snd call)
  rw [call, show 0x181 * pageSize / pageSize = 0x181 by decide] at took
  -- and their return
  have booted₂ := took.booted booted₁
  have booted₃ : Booted (freeLoop 0x181 800 0 t) :=
    booted₂.of_shape (freeLoop_inv booted₂.toInv 0x181 800 0)
  have shape₃ := (freeLoop_inv booted₂.toInv 0x181 800 0).2
  obtain ⟨global₃, scan₃⟩ := freeLoop_cursors 0x181 800 0 t
  have total₃ : (freeLoop 0x181 800 0 t).totalFrames = 0x800 := by
    rw [shape₃.total, took.shape.total, total₁]
  have free₃ : ∀ f, f < 0x800 →
      ((freeLoop 0x181 800 0 t).frameBitmap.test f = false ↔ 0x181 ≤ f) := by
    intro f below
    have managed : f < t.totalFrames := by
      rw [took.shape.total, total₁]
      exact below
    rw [freeLoop_test, took.after, Bool.and_eq_false_iff, Bool.or_eq_false_iff, free₁ f below]
    simp only [mem_addressed (show 0x181 + 800 < 2 ^ 32 by decide), managed, and_true,
      decide_eq_false_iff_not, Bool.not_eq_false', decide_eq_true_eq]
    omega
  have state : s.run [.configureNumaTopology 1, .allocFramesOnNode 800 pmmNumaNodeAny,
      .freeFrames 0x181000 800] = freeLoop 0x181 800 0 t := by
    simp only [PmmState.run, PmmState.exec, call, pmmFreeFrames,
      show 0x181000 / pageSize = 0x181 by decide]
  refine ⟨s, _, ready, state.symm, ⟨by omega, fun f low high => (free₃ f (by omega)).mpr low⟩, ?_⟩
  by_contra done
  obtain ⟨lo, run, seen⟩ := (booted₃.allocFrames_iff (show 1000 ≠ 0 by decide) _).mp done
  have fits := run.1
  rw [total₃] at fits
  have low := (free₃ lo (by omega)).mp (run.2 lo (le_refl lo) (by omega))
  have whole : ¬ Cuts (0x181 + 800) lo 1000 := by
    rcases seen with whole | ⟨id, active, -, -, whole⟩
    · rwa [global₃, global] at whole
    · rw [shape₃.active, took.shape.active, single] at active
      obtain rfl : id = 0 := by omega
      rwa [scan₃, scan] at whole
  unfold Cuts at whole
  omega

end Across

end Dfos.Pmm
