import Dfos.Pmm.Supply

/-!
# Which frame an allocation picks

`pmm_alloc_frame_on_node` asks the preferred node and then the others, round from
`round_robin_numa_node`.  A node is asked by its count alone and scanned from its
cursor, so what is picked follows from the exact counts and from
`pmmFindFreeFrameInNodeLocked_next`.
-/

namespace Dfos.Pmm

open Dfos.Lib

variable {s t : PmmState} {g node preferredNode : Nat}

/-- The preferred node is skipped by the loop over the nodes. -/
def Skips (s : PmmState) (preferredNode node : Nat) : Prop :=
  preferredNode ≠ pmmNumaNodeAny ∧ preferredNode < s.activeNumaNodeCount ∧ node = preferredNode

/-- The loop over the nodes stops at the first node that has something. -/
theorem searchNodes_first {search : PmmState → Nat → PmmState × Option Nat} {startNode : Nat}
    (still : ∀ id, (search s id).2 = none → (search s id).1 = s) {left i : Nat}
    (found : (searchNodes search preferredNode startNode left i s).2 = some g) :
    ∃ j, i ≤ j ∧ j < i + left ∧
      (search s ((startNode + j) % s.activeNumaNodeCount)).2 = some g ∧
      ∀ j', i ≤ j' → j' < j →
        Skips s preferredNode ((startNode + j') % s.activeNumaNodeCount) ∨
          (search s ((startNode + j') % s.activeNumaNodeCount)).2 = none := by
  induction left generalizing i with
  | zero => cases found
  | succ left ih =>
      -- the rest of the loop, once this node is passed over
      have onward : (Skips s preferredNode ((startNode + i) % s.activeNumaNodeCount) ∨
          (search s ((startNode + i) % s.activeNumaNodeCount)).2 = none) →
          (searchNodes search preferredNode startNode left (i + 1) s).2 = some g →
          ∃ j, i ≤ j ∧ j < i + (left + 1) ∧
            (search s ((startNode + j) % s.activeNumaNodeCount)).2 = some g ∧
            ∀ j', i ≤ j' → j' < j →
              Skips s preferredNode ((startNode + j') % s.activeNumaNodeCount) ∨
                (search s ((startNode + j') % s.activeNumaNodeCount)).2 = none := by
        intro passed rest
        obtain ⟨j, low, high, here, before⟩ := ih rest
        refine ⟨j, by omega, by omega, here, fun j' low' high' => ?_⟩
        rcases Nat.eq_or_lt_of_le low' with same | later
        · rw [← same]
          exact passed
        · exact before j' later high'
      unfold searchNodes at found
      dsimp only at found
      split at found
      · next skipped => exact onward (Or.inl skipped) found
      · rcases result : search s ((startNode + i) % s.activeNumaNodeCount) with ⟨u, _ | h⟩
        · have same : u = s := by
            have kept := still ((startNode + i) % s.activeNumaNodeCount) (by rw [result])
            rwa [result] at kept
          rw [result] at found
          dsimp only at found
          rw [same] at found
          exact onward (Or.inr (by rw [result])) found
        · rw [result] at found
          obtain rfl := Option.some.inj found
          exact ⟨i, le_refl i, by omega, by rw [result], fun j' low high => by omega⟩

theorem NextFree.member (inv : Inv s) {id : Nat} (active : id < s.activeNumaNodeCount)
    (next : NextFree s id g) : g ∈ s.freeSet :=
  ⟨Nat.lt_of_lt_of_le next.spans.2 (inv.end_le active), next.free⟩

/-- The search of a node that found something found its next free frame. -/
theorem next_of_found (inv : Inv s) {id : Nat} (active : id < s.activeNumaNodeCount)
    (found : (pmmFindFreeFrameInNodeLocked s id).2 = some g) : NextFree s id g := by
  rcases pmmFindFreeFrameInNodeLocked_next inv active with ⟨-, nothing⟩ | ⟨t, h, result, next⟩
  · rw [nothing] at found
    cases found
  · rw [result] at found
    obtain rfl := Option.some.inj found
    exact next

theorem none_of_empty (inv : Inv s) {id : Nat} (active : id < s.activeNumaNodeCount)
    (found : (pmmFindFreeFrameInNodeLocked s id).2 = none) : ¬ s.HasFree id := by
  rcases pmmFindFreeFrameInNodeLocked_next inv active with ⟨none, -⟩ | ⟨t, h, result, -⟩
  · exact none
  · rw [result] at found
    cases found

/-! ## The contract -/

/-- What `pmm_alloc_frame_on_node` does in a state. -/
structure PicksFrame (s : PmmState) (preferredNode : Nat) : Prop where
  succeeds : (pmmAllocFrameOnNode s preferredNode).2 ≠ none ↔ s.freeSet.Nonempty
  /-- A preferred node with a free frame gives its next one. -/
  preferred : preferredNode < s.activeNumaNodeCount → s.HasFree preferredNode →
    ∃ g, (pmmAllocFrameOnNode s preferredNode).2 = some (g * pageSize) ∧ NextFree s preferredNode g
  /-- Otherwise the first node with a free frame does, round from
  `round_robin_numa_node`. -/
  others : ¬ (preferredNode < s.activeNumaNodeCount ∧ s.HasFree preferredNode) → ∀ address,
    (pmmAllocFrameOnNode s preferredNode).2 = some address →
    ∃ g i, address = g * pageSize ∧ i < s.activeNumaNodeCount ∧
      NextFree s ((s.roundRobinNumaNode + i) % s.activeNumaNodeCount) g ∧
      ∀ j < i, ¬ s.HasFree ((s.roundRobinNumaNode + j) % s.activeNumaNodeCount)
  valid : ∀ address, (pmmAllocFrameOnNode s preferredNode).2 = some address →
    pmmNumaNodeForPhysical (pmmAllocFrameOnNode s preferredNode).1 address <
      (pmmAllocFrameOnNode s preferredNode).1.activeNumaNodeCount

theorem Booted.address_eq (booted : Booted s) (free : g ∈ s.freeSet) :
    frameAddress g = g * pageSize := by
  have small := Nat.lt_of_lt_of_le free.1 booted.total_le
  unfold frameAddress pageSize
  omega

/-- The preferred node hands out its next free frame. -/
theorem Booted.picks_preferred (booted : Booted s) (active : preferredNode < s.activeNumaNodeCount)
    (has : s.HasFree preferredNode) :
    ∃ g, (pmmAllocFrameOnNode s preferredNode).2 = some (g * pageSize) ∧
      NextFree s preferredNode g := by
  obtain ⟨f, range, free⟩ := has
  have member : f ∈ s.freeSet := ⟨Nat.lt_of_lt_of_le range.2 (booted.end_le active), free⟩
  rcases pmmFindFreeFrameInNodeLocked_next booted.toInv active with ⟨none, -⟩ | ⟨t, g, found, next⟩
  · exact absurd ⟨f, range, free⟩ none
  · refine ⟨g, ?_, next⟩
    unfold pmmAllocFrameOnNode searchPreferred
    rw [if_neg (alloc_enters booted member),
      if_pos ⟨index_ne_any booted.toLaid active, active⟩, found,
      ← booted.address_eq (next.member booted.toInv active)]

/-- Without it, the first node with a free frame does. -/
theorem Booted.picks_other (booted : Booted s)
    (without : ¬ (preferredNode < s.activeNumaNodeCount ∧ s.HasFree preferredNode)) {address : Nat}
    (done : (pmmAllocFrameOnNode s preferredNode).2 = some address) :
    ∃ g i, address = g * pageSize ∧ i < s.activeNumaNodeCount ∧
      NextFree s ((s.roundRobinNumaNode + i) % s.activeNumaNodeCount) g ∧
      ∀ j < i, ¬ s.HasFree ((s.roundRobinNumaNode + j) % s.activeNumaNodeCount) := by
  have inv := booted.toInv
  have active : ∀ k, k % s.activeNumaNodeCount < s.activeNumaNodeCount :=
    fun k => Nat.mod_lt k inv.active_pos
  have still := fun id => (pmmFindFreeFrameInNodeLocked_outcome inv id).still
  have first : searchPreferred pmmFindFreeFrameInNodeLocked preferredNode s = (s, none) := by
    unfold searchPreferred
    split
    · next asked =>
        rcases pmmFindFreeFrameInNodeLocked_next inv asked.2 with ⟨-, nothing⟩ | ⟨t, g, -, next⟩
        · rw [nothing]
        · exact absurd ⟨asked.2, g, next.spans, next.free⟩ without
    · rfl
  unfold pmmAllocFrameOnNode at done
  split at done
  · cases done
  rw [first] at done
  dsimp only at done
  rcases second : searchOthers pmmFindFreeFrameInNodeLocked preferredNode s with ⟨t, _ | g⟩
  · rw [second] at done
    cases done
  rw [second] at done
  obtain rfl := Option.some.inj done
  obtain ⟨i, -, small, found, before⟩ := searchNodes_first still (congrArg Prod.snd second)
  rw [Nat.mod_eq_of_lt inv.roundRobin] at found before
  have next := next_of_found inv (active _) found
  refine ⟨g, i, booted.address_eq (next.member inv (active _)), by omega, next, fun j low => ?_⟩
  rcases before j (Nat.zero_le j) low with ⟨-, below, same⟩ | nothing
  · rw [same]
    exact fun has => without ⟨below, has⟩
  · exact none_of_empty inv (active _) nothing

/-- The frame lies in a node, before and after it is handed out. -/
theorem Booted.picks_valid (booted : Booted s) {address : Nat}
    (done : (pmmAllocFrameOnNode s preferredNode).2 = some address) :
    pmmNumaNodeForPhysical (pmmAllocFrameOnNode s preferredNode).1 address <
      (pmmAllocFrameOnNode s preferredNode).1.activeNumaNodeCount := by
  obtain ⟨-, took⟩ := (pmmAllocFrameOnNode_allocated booted.toInv preferredNode).address
    booted.toInv one_ne_zero done
  have below : address / pageSize < (pmmAllocFrameOnNode s preferredNode).1.totalFrames := by
    rw [took.shape.total]
    exact took.inside
  obtain ⟨k, active, index, -⟩ := took.inv.nodeIndex below
  unfold pmmNumaNodeForPhysical
  dsimp only
  rw [if_neg (by omega), index]
  exact active

theorem Booted.picksFrame (booted : Booted s) (preferredNode : Nat) :
    PicksFrame s preferredNode where
  succeeds := by
    refine ⟨fun done => ?_, fun ⟨f, free⟩ => pmmAllocFrameOnNode_supplies booted free preferredNode⟩
    obtain ⟨address, found⟩ := Option.ne_none_iff_exists'.mp done
    obtain ⟨-, took⟩ := (pmmAllocFrameOnNode_allocated booted.toInv preferredNode).address
      booted.toInv one_ne_zero found
    exact ⟨address / pageSize, took.inside, took.free _ (le_refl _) (Nat.lt_succ_self _)⟩
  preferred := booted.picks_preferred
  others without _ := booted.picks_other without
  valid _ := booted.picks_valid

/-- **Single-frame allocation is complete and honours the preferred node**, in
every state the allocator reaches and for every preferred node. -/
theorem pmm_alloc_frame_picks {boot : BootInfo} {booted : PmmState}
    (ready : pmmInit boot = .ok booted) (ops : List PmmOp) (preferredNode : Nat) :
    PicksFrame (booted.run ops) preferredNode :=
  ((pmmInit_booted ready).1.run ops).picksFrame preferredNode

theorem pmm_alloc_frame_picks_eightMib :
    ∃ s, pmmInit eightMibBoot = .ok s ∧
      PicksFrame (s.run [.configureNumaTopology 4, .allocFrameOnNode 2, .allocFramesOnNode 9 1]) 2 := by
  have found : highestPhysical eightMibBoot = .ok 0x800000 := by decide
  obtain ⟨s, ready⟩ := pmmInit_ok found (by decide) (by decide)
  exact ⟨s, ready, pmm_alloc_frame_picks ready _ 2⟩

end Dfos.Pmm
