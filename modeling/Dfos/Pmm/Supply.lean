import Dfos.Pmm.FreeSet

/-!
# When an allocation succeeds

The search of a node hands out its next free frame, and the loop over the nodes
comes to every node.  So an allocation fails only if no frame is free, and one on
a node that has a free frame gives a frame of that node.
-/

namespace Dfos.Pmm

open Dfos.Lib

variable {s t : PmmState} {f id node : Nat}

/-- The range of a node. -/
def NumaNode.Spans (n : NumaNode) (f : Nat) : Prop := n.firstFrame ≤ f ∧ f < n.endFrame

/-- The node has a free frame. -/
def PmmState.HasFree (s : PmmState) (id : Nat) : Prop :=
  ∃ f, (s.numaNodes id).Spans f ∧ s.frameBitmap.test f = false

/-- How far behind the cursor of the node a frame comes, going round the node. -/
def NumaNode.turn (n : NumaNode) (f : Nat) : Nat :=
  if n.nextScanFrame ≤ f then f - n.nextScanFrame else f + n.frameCount - n.nextScanFrame

/-- The first free frame of the node at or after its cursor, in cyclic order. -/
structure NextFree (s : PmmState) (id g : Nat) : Prop where
  spans : (s.numaNodes id).Spans g
  free : s.frameBitmap.test g = false
  first : ∀ f, (s.numaNodes id).Spans f → s.frameBitmap.test f = false →
    (s.numaNodes id).turn g ≤ (s.numaNodes id).turn f

/-- **The search of a node** hands out the next free frame, if the node has one. -/
theorem pmmFindFreeFrameInNodeLocked_next (inv : Inv s) (active : id < s.activeNumaNodeCount) :
    (¬ s.HasFree id ∧ pmmFindFreeFrameInNodeLocked s id = (s, none)) ∨
      ∃ t g, pmmFindFreeFrameInNodeLocked s id = (t, some g) ∧ NextFree s id g := by
  have last := inv.end_le active
  unfold pmmFindFreeFrameInNodeLocked
  rw [if_neg (by omega)]
  dsimp only
  split
  · next empty =>
      refine Or.inl ⟨?_, rfl⟩
      rintro ⟨f, range, free⟩
      rcases empty with none | uncounted
      · obtain ⟨low, high⟩ := range
        unfold NumaNode.endFrame at high
        omega
      · rw [inv.nodeFree id active] at uncounted
        exact Nat.ne_of_gt (Bitmap.clearCount_pos range.1 range.2 free) uncounted
  next occupied =>
  rw [not_or] at occupied
  have cursor := inv.nodeCursor id active occupied.1
  rw [inv.scanCursor_mem active occupied.1]
  have length : (s.numaNodes id).endFrame = (s.numaNodes id).firstFrame +
      (s.numaNodes id).frameCount := rfl
  rcases scanReserve_outcome s ((s.numaNodes id).endFrame - (s.numaNodes id).nextScanFrame)
      (s.numaNodes id).nextScanFrame (by omega) with ⟨nothing, upper⟩ | ⟨g, range, free, before, scan⟩
  · rw [nothing]
    dsimp only
    -- a free frame can only be below the cursor
    have below : ∀ f, (s.numaNodes id).Spans f → s.frameBitmap.test f = false →
        f < (s.numaNodes id).nextScanFrame := by
      intro f range free
      by_contra above
      obtain ⟨-, high⟩ := range
      rw [upper f (by omega) (by omega)] at free
      cases free
    rcases scanReserve_outcome s ((s.numaNodes id).nextScanFrame - (s.numaNodes id).firstFrame)
        (s.numaNodes id).firstFrame (by omega) with
      ⟨nothing', lower⟩ | ⟨g, range, free, before, scan⟩
    · rw [nothing']
      refine Or.inl ⟨?_, rfl⟩
      rintro ⟨f, range, free⟩
      have under := below f range free
      rw [lower f range.1 (by omega)] at free
      cases free
    · rw [scan]
      refine Or.inr ⟨_, g, rfl, ⟨by omega, by omega⟩, free, fun f spans free' => ?_⟩
      have under := below f spans free'
      have order : g ≤ f := by
        by_contra earlier
        rw [before f spans.1 (by omega)] at free'
        cases free'
      unfold NumaNode.turn
      rw [if_neg (by omega), if_neg (by omega)]
      omega
  · rw [scan]
    refine Or.inr ⟨_, g, rfl, ⟨by omega, by omega⟩, free, fun f spans free' => ?_⟩
    unfold NumaNode.turn
    rw [if_pos range.1]
    split
    · next above =>
        have order : g ≤ f := by
          by_contra earlier
          rw [before f above (by omega)] at free'
          cases free'
        omega
    · obtain ⟨low, high⟩ := spans
      omega

/-- A node with a free frame hands out one of its frames. -/
theorem pmmFindFreeFrameInNodeLocked_supplies (inv : Inv s) (active : id < s.activeNumaNodeCount)
    (range : (s.numaNodes id).Spans f) (free : s.frameBitmap.test f = false) :
    ∃ t g, pmmFindFreeFrameInNodeLocked s id = (t, some g) ∧ (s.numaNodes id).Spans g := by
  rcases pmmFindFreeFrameInNodeLocked_next inv active with ⟨none, -⟩ | ⟨t, g, found, next⟩
  · exact absurd ⟨f, range, free⟩ none
  · exact ⟨t, g, found, next.spans⟩

/-- The loop over the nodes goes on until a node it does not skip has something. -/
theorem searchNodes_supplies {search : PmmState → Nat → PmmState × Option Nat}
    {preferredNode startNode : Nat} (still : ∀ id, (search s id).2 = none → (search s id).1 = s) :
    ∀ {left i j : Nat}, i ≤ j → j < i + left →
      ¬ (preferredNode ≠ pmmNumaNodeAny ∧ preferredNode < s.activeNumaNodeCount ∧
        (startNode + j) % s.activeNumaNodeCount = preferredNode) →
      (search s ((startNode + j) % s.activeNumaNodeCount)).2 ≠ none →
      (searchNodes search preferredNode startNode left i s).2 ≠ none := by
  intro left
  induction left with
  | zero => exact fun low high => by omega
  | succ left ih =>
      intro i j low high kept supplies
      unfold searchNodes
      dsimp only
      split
      · next skipped =>
          have later : i ≠ j := by
            rintro rfl
            exact kept skipped
          exact ih (by omega) (by omega) kept supplies
      · rcases found : search s ((startNode + i) % s.activeNumaNodeCount) with ⟨t, _ | g⟩
        · have same : t = s := by
            have := still ((startNode + i) % s.activeNumaNodeCount) (by rw [found])
            rwa [found] at this
          have later : i ≠ j := by
            rintro rfl
            rw [found] at supplies
            exact supplies rfl
          rw [same]
          exact ih (by omega) (by omega) kept supplies
        · intro bad
          cases bad

/-- Going round from any node, every node comes up. -/
theorem exists_round {n start k : Nat} (begins : start < n) (below : k < n) :
    ∃ j < n, (start + j) % n = k := by
  by_cases ahead : start ≤ k
  · refine ⟨k - start, by omega, ?_⟩
    rw [Nat.add_sub_cancel' ahead, Nat.mod_eq_of_lt below]
  · refine ⟨k + n - start, by omega, ?_⟩
    rw [Nat.add_sub_cancel' (by omega), Nat.add_mod_right, Nat.mod_eq_of_lt below]

section Alloc

theorem Outcome.still {n : Nat} {result : PmmState × Option Nat} (outcome : Outcome s n result)
    (nothing : result.2 = none) : result.1 = s := by
  rcases outcome with same | ⟨lo, found, -⟩
  · rw [same]
  · rw [nothing] at found
    cases found

theorem alloc_enters (booted : Booted s) (free : f ∈ s.freeSet) :
    ¬ (s.initialized = false ∨ s.activeNumaNodeCount = 0 ∨ s.freeFrames = 0) := by
  have inv := booted.toInv
  have counted : 0 < s.freeFrames := by
    rw [inv.free]
    exact Bitmap.clearCount_pos (Nat.zero_le f) free.1 free.2
  have active := inv.active_pos
  rw [booted.initialized]
  simp only [Bool.true_eq_false, false_or, not_or]
  omega

/-- **An allocation fails only if no frame is free.** -/
theorem pmmAllocFrameOnNode_supplies (booted : Booted s) (free : f ∈ s.freeSet)
    (preferredNode : Nat) : (pmmAllocFrameOnNode s preferredNode).2 ≠ none := by
  have inv := booted.toInv
  have outcome := pmmFindFreeFrameInNodeLocked_outcome inv
  obtain ⟨k, active, -, range, -⟩ := inv.nodeIndex free.1
  obtain ⟨t, g, found, -⟩ := pmmFindFreeFrameInNodeLocked_supplies inv active range free.2
  unfold pmmAllocFrameOnNode
  rw [if_neg (alloc_enters booted free)]
  rcases first : searchPreferred pmmFindFreeFrameInNodeLocked preferredNode s with ⟨u, _ | h⟩
  · have same : u = s := by
      have still := (searchPreferred_outcome _ outcome preferredNode).still (by rw [first])
      rwa [first] at still
    subst same
    dsimp only
    -- the node of the free frame is not the preferred one, so the loop comes to it
    have kept : ¬ (preferredNode ≠ pmmNumaNodeAny ∧ preferredNode < u.activeNumaNodeCount ∧
        k = preferredNode) := by
      rintro ⟨any, below, rfl⟩
      unfold searchPreferred at first
      rw [if_pos ⟨any, below⟩, found] at first
      cases first
    have supplies : (searchOthers pmmFindFreeFrameInNodeLocked preferredNode u).2 ≠ none := by
      obtain ⟨j, below, visits⟩ := exists_round (Nat.mod_lt u.roundRobinNumaNode inv.active_pos)
        active
      refine searchNodes_supplies (fun id => (outcome id).still) (Nat.zero_le j) (by omega) ?_ ?_
      · rw [visits]
        exact kept
      · rw [visits, found]
        nofun
    rcases second : searchOthers pmmFindFreeFrameInNodeLocked preferredNode u with ⟨v, _ | h⟩
    · rw [second] at supplies
      exact absurd rfl supplies
    · nofun
  · nofun

end Alloc

end Dfos.Pmm
