import Mathlib.Algebra.BigOperators.Group.Finset.Basic
import Dfos.Lib.EvenSplit
import Dfos.Pmm.Init

/-!
# The invariant of the frame allocator

`Laid` fixes the node layout of a state, `Inv` adds the counts and the cursors.
`Took` says what a successful allocation did: a run of free frames became taken
and nothing else changed hands.  Each function of the allocator has one lemma
here, in terms of these three.
-/

namespace Dfos.Pmm

open Dfos.Lib

/-- The active nodes cut `[0, total_frames)` evenly. -/
structure Laid (s : PmmState) : Prop where
  active_pos : 0 < s.activeNumaNodeCount
  active_le : s.activeNumaNodeCount ≤ pmmMaxNumaNodes
  total_le : s.totalFrames ≤ 2 ^ 20
  first : ∀ i < s.activeNumaNodeCount,
    (s.numaNodes i).firstFrame = evenStart s.totalFrames s.activeNumaNodeCount i
  last : ∀ i < s.activeNumaNodeCount,
    (s.numaNodes i).endFrame = evenStart s.totalFrames s.activeNumaNodeCount (i + 1)

/-- Layout, exact counts, and every cursor in its range. -/
structure Inv (s : PmmState) : Prop extends Laid s where
  nodeFree : ∀ i < s.activeNumaNodeCount, (s.numaNodes i).freeFrames =
    s.frameBitmap.clearCount (s.numaNodes i).firstFrame (s.numaNodes i).endFrame
  free : s.freeFrames = s.frameBitmap.clearCount 0 s.totalFrames
  nodeCursor : ∀ i < s.activeNumaNodeCount, (s.numaNodes i).frameCount ≠ 0 →
    (s.numaNodes i).firstFrame ≤ (s.numaNodes i).nextScanFrame ∧
      (s.numaNodes i).nextScanFrame < (s.numaNodes i).endFrame
  globalCursor : s.totalFrames ≠ 0 → s.globalNextScanFrame < s.totalFrames
  roundRobin : s.roundRobinNumaNode < s.activeNumaNodeCount

/-- What no call but a new topology changes. -/
structure SameShape (s t : PmmState) : Prop where
  total : t.totalFrames = s.totalFrames
  active : t.activeNumaNodeCount = s.activeNumaNodeCount
  initialized : t.initialized = s.initialized
  mapped : t.mapped = s.mapped

theorem SameShape.refl (s : PmmState) : SameShape s s := ⟨rfl, rfl, rfl, rfl⟩

theorem SameShape.trans {s t u : PmmState} (first : SameShape s t) (second : SameShape t u) :
    SameShape s u where
  total := second.total.trans first.total
  active := second.active.trans first.active
  initialized := second.initialized.trans first.initialized
  mapped := second.mapped.trans first.mapped

section Nodes

variable {s : PmmState} {node : NumaNode} {frame id : Nat}

theorem pmmNodeContainsFrame_iff :
    pmmNodeContainsFrame node frame = true ↔ node.firstFrame ≤ frame ∧ frame < node.endFrame := by
  unfold pmmNodeContainsFrame
  by_cases empty : node.frameCount = 0
  · have : node.endFrame = node.firstFrame := by simp [NumaNode.endFrame, empty]
    simp only [if_pos empty, Bool.false_eq_true, false_iff]
    omega
  · simp [empty]

theorem Laid.end_le (laid : Laid s) (active : id < s.activeNumaNodeCount) :
    (s.numaNodes id).endFrame ≤ s.totalFrames := by
  rw [laid.last id active]
  calc evenStart s.totalFrames s.activeNumaNodeCount (id + 1)
      ≤ evenStart s.totalFrames s.activeNumaNodeCount s.activeNumaNodeCount :=
        evenStart_mono active
    _ = s.totalFrames := evenStart_end laid.active_pos

/-- Every managed frame lies in exactly one active node, the one the index
lookup returns. -/
theorem Laid.nodeIndex (laid : Laid s) (below : frame < s.totalFrames) :
    ∃ i < s.activeNumaNodeCount, pmmNodeIndexForFrame s frame = i ∧
      ((s.numaNodes i).firstFrame ≤ frame ∧ frame < (s.numaNodes i).endFrame) ∧
      ∀ j < s.activeNumaNodeCount, j ≠ i →
        ¬ ((s.numaNodes j).firstFrame ≤ frame ∧ frame < (s.numaNodes j).endFrame) := by
  have part (i : Nat) (active : i < s.activeNumaNodeCount) :
      pmmNodeContainsFrame (s.numaNodes i) frame = true ↔
        evenStart s.totalFrames s.activeNumaNodeCount i ≤ frame ∧
          frame < evenStart s.totalFrames s.activeNumaNodeCount (i + 1) := by
    rw [pmmNodeContainsFrame_iff, laid.first i active, laid.last i active]
  obtain ⟨k, hk, inside⟩ : ∃ k < s.activeNumaNodeCount, _ ∧ _ :=
    exists_part (by rw [evenStart_end laid.active_pos]; exact below)
  cases found : (List.range s.activeNumaNodeCount).find?
      fun node => pmmNodeContainsFrame (s.numaNodes node) frame with
  | none =>
    have missing := List.find?_eq_none.mp found k (List.mem_range.mpr hk)
    exact absurd ((part k hk).mpr inside) missing
  | some i =>
    have active : i < s.activeNumaNodeCount := List.mem_range.mp (List.mem_of_find?_eq_some found)
    have holds : pmmNodeContainsFrame (s.numaNodes i) frame = true := by
      simpa only using List.find?_some found
    refine ⟨i, active, by unfold pmmNodeIndexForFrame; rw [found],
      pmmNodeContainsFrame_iff.mp holds, ?_⟩
    intro j activeJ other contains
    apply other
    exact part_unique ((part j activeJ).mp (pmmNodeContainsFrame_iff.mpr contains))
      ((part i active).mp holds)

theorem index_ne_any (laid : Laid s) (active : id < s.activeNumaNodeCount) :
    id ≠ pmmNumaNodeAny := by
  have := laid.active_le
  unfold pmmMaxNumaNodes at this
  unfold pmmNumaNodeAny
  omega

theorem Inv.scanCursor_mem (inv : Inv s) (active : id < s.activeNumaNodeCount)
    (nonempty : (s.numaNodes id).frameCount ≠ 0) :
    scanCursor (s.numaNodes id) = (s.numaNodes id).nextScanFrame := by
  unfold scanCursor
  rw [if_pos (pmmNodeContainsFrame_iff.mpr (inv.nodeCursor id active nonempty))]

end Nodes

/-! ## Edits that keep the invariant -/

/-- `t` has the node ranges of `s`. -/
structure SameRanges (s t : PmmState) : Prop where
  total : t.totalFrames = s.totalFrames
  active : t.activeNumaNodeCount = s.activeNumaNodeCount
  first : ∀ i, (t.numaNodes i).firstFrame = (s.numaNodes i).firstFrame
  count : ∀ i, (t.numaNodes i).frameCount = (s.numaNodes i).frameCount

section Edits

variable {s t : PmmState} {node : NumaNode} {frame id k : Nat}

theorem SameRanges.last (same : SameRanges s t) (i : Nat) :
    (t.numaNodes i).endFrame = (s.numaNodes i).endFrame := by
  unfold NumaNode.endFrame
  rw [same.first, same.count]

theorem SameRanges.laid (same : SameRanges s t) (laid : Laid s) : Laid t where
  active_pos := by rw [same.active]; exact laid.active_pos
  active_le := by rw [same.active]; exact laid.active_le
  total_le := by rw [same.total]; exact laid.total_le
  first i active := by
    rw [same.active] at active ⊢
    rw [same.first, same.total]
    exact laid.first i active
  last i active := by
    rw [same.active] at active ⊢
    rw [same.last, same.total]
    exact laid.last i active

theorem setNode_self : (s.setNode id node).numaNodes id = node := if_pos rfl

theorem setNode_other (other : k ≠ id) : (s.setNode id node).numaNodes k = s.numaNodes k :=
  if_neg other

theorem SameRanges.refl (s : PmmState) : SameRanges s s :=
  ⟨rfl, rfl, fun _ => rfl, fun _ => rfl⟩

theorem SameRanges.setNode (same : SameRanges s t)
    (first : node.firstFrame = (s.numaNodes id).firstFrame)
    (count : node.frameCount = (s.numaNodes id).frameCount) :
    SameRanges s (t.setNode id node) where
  total := same.total
  active := same.active
  first i := by
    by_cases here : i = id
    · rw [here, setNode_self, first]
    · rw [setNode_other here, same.first]
  count i := by
    by_cases here : i = id
    · rw [here, setNode_self, count]
    · rw [setNode_other here, same.count]

/-- Flip the bit of one frame and adjust the two counts that cover it. -/
theorem Inv.adjust {bitmap : Bitmap} (inv : Inv s) (adjust : Nat → Nat)
    (below : frame < s.totalFrames)
    (inside : ∀ lo hi, lo ≤ frame → frame < hi →
      bitmap.clearCount lo hi = adjust (s.frameBitmap.clearCount lo hi))
    (outside : ∀ lo hi, ¬ (lo ≤ frame ∧ frame < hi) →
      bitmap.clearCount lo hi = s.frameBitmap.clearCount lo hi) :
    Inv (adjustNode { s with frameBitmap := bitmap, freeFrames := adjust s.freeFrames }
      frame adjust) := by
  obtain ⟨i, active, index, contains, others⟩ := inv.nodeIndex below
  have index' : pmmNodeIndexForFrame
      { s with frameBitmap := bitmap, freeFrames := adjust s.freeFrames } frame = i := index
  unfold adjustNode
  simp only [index', if_neg (index_ne_any inv.toLaid active)]
  have flipped : SameRanges s
      { s with frameBitmap := bitmap, freeFrames := adjust s.freeFrames } :=
    ⟨rfl, rfl, fun _ => rfl, fun _ => rfl⟩
  have same : SameRanges s (PmmState.setNode
      { s with frameBitmap := bitmap, freeFrames := adjust s.freeFrames } i
      { s.numaNodes i with freeFrames := adjust (s.numaNodes i).freeFrames }) :=
    flipped.setNode rfl rfl
  refine ⟨same.laid inv.toLaid, ?_, ?_, ?_, inv.globalCursor, inv.roundRobin⟩
  · intro j activeJ
    rw [same.first, same.last]
    by_cases here : j = i
    · rw [here, setNode_self]
      show adjust (s.numaNodes i).freeFrames = bitmap.clearCount _ _
      rw [inside _ _ contains.1 contains.2, inv.nodeFree i active]
    · rw [setNode_other here]
      show (s.numaNodes j).freeFrames = bitmap.clearCount _ _
      rw [outside _ _ (others j activeJ here), inv.nodeFree j activeJ]
  · show adjust s.freeFrames = bitmap.clearCount 0 s.totalFrames
    rw [inv.free, inside 0 s.totalFrames (Nat.zero_le _) below]
  · intro j activeJ nonempty
    rw [same.count] at nonempty
    rw [same.first, same.last]
    by_cases here : j = i
    · rw [here, setNode_self]
      exact inv.nodeCursor i active (here ▸ nonempty)
    · rw [setNode_other here]
      exact inv.nodeCursor j activeJ nonempty

/-- A node's cursor may move anywhere inside the node. -/
theorem Inv.setCursor (inv : Inv s) {next : Nat}
    (inside : id < s.activeNumaNodeCount → (s.numaNodes id).frameCount ≠ 0 →
      (s.numaNodes id).firstFrame ≤ next ∧ next < (s.numaNodes id).endFrame) :
    Inv (s.setNode id { s.numaNodes id with nextScanFrame := next }) := by
  have same : SameRanges s (s.setNode id { s.numaNodes id with nextScanFrame := next }) :=
    (SameRanges.refl s).setNode rfl rfl
  refine ⟨same.laid inv.toLaid, ?_, inv.free, ?_, inv.globalCursor, inv.roundRobin⟩
  · intro j active
    rw [same.first, same.last]
    by_cases here : j = id
    · rw [here, setNode_self]
      exact inv.nodeFree id (here ▸ active)
    · rw [setNode_other here]
      exact inv.nodeFree j active
  · intro j active nonempty
    rw [same.count] at nonempty
    rw [same.first, same.last]
    by_cases here : j = id
    · subst here
      rw [setNode_self]
      exact inside active nonempty
    · rw [setNode_other here]
      exact inv.nodeCursor j active nonempty

theorem Inv.setRoundRobin (inv : Inv s) (active : k < s.activeNumaNodeCount) :
    Inv { s with roundRobinNumaNode := k } where
  active_pos := inv.active_pos
  active_le := inv.active_le
  total_le := inv.total_le
  first := inv.first
  last := inv.last
  nodeFree := inv.nodeFree
  free := inv.free
  nodeCursor := inv.nodeCursor
  globalCursor := inv.globalCursor
  roundRobin := active

theorem Inv.setGlobalCursor (inv : Inv s) (below : s.totalFrames ≠ 0 → k < s.totalFrames) :
    Inv { s with globalNextScanFrame := k } where
  active_pos := inv.active_pos
  active_le := inv.active_le
  total_le := inv.total_le
  first := inv.first
  last := inv.last
  nodeFree := inv.nodeFree
  free := inv.free
  nodeCursor := inv.nodeCursor
  globalCursor := below
  roundRobin := inv.roundRobin

theorem Inv.setInitialized (inv : Inv s) (flag : Bool) : Inv { s with initialized := flag } where
  active_pos := inv.active_pos
  active_le := inv.active_le
  total_le := inv.total_le
  first := inv.first
  last := inv.last
  nodeFree := inv.nodeFree
  free := inv.free
  nodeCursor := inv.nodeCursor
  globalCursor := inv.globalCursor
  roundRobin := inv.roundRobin

theorem adjustNode_frame (s : PmmState) (frame : Nat) (adjust : Nat → Nat) :
    (adjustNode s frame adjust).frameBitmap = s.frameBitmap ∧
      SameShape s (adjustNode s frame adjust) := by
  unfold adjustNode
  dsimp only
  split
  · exact ⟨rfl, .refl s⟩
  · exact ⟨rfl, rfl, rfl, rfl, rfl⟩

end Edits

end Dfos.Pmm
