import Dfos.Pmm.FreeSet

/-!
# A stock of frames

`Stock pmm all used` says that the frames of `all` are the allocator's to give,
that it gave the `used` ones, and that the rest is free.  Whoever keeps the books
on who uses what gets from it that a new frame is used by nobody, and that a
frame given back is free again.
-/

namespace Dfos.Pmm

open Dfos.Lib

structure Stock (pmm : PmmState) (all : Set Nat) (used : Nat → Prop) : Prop where
  booted : Booted pmm
  managed : ∀ f ∈ all, f < pmm.totalFrames
  free : ∀ f, f ∈ pmm.freeSet ↔ f ∈ all ∧ ¬ used f

namespace Stock

variable {pmm t : PmmState} {all : Set Nat} {used used' : Nat → Prop} {f node address : Nat}

theorem start (booted : Booted pmm) : Stock pmm pmm.freeSet (fun _ => False) :=
  ⟨booted, fun _ free => free.1, fun _ => by simp⟩

section

variable (stock : Stock pmm all used)
include stock

theorem congr (same : ∀ f, used f ↔ used' f) :
    Stock pmm all used' :=
  ⟨stock.booted, stock.managed, fun f => by rw [stock.free, same]⟩

theorem small (member : f ∈ all) : f < 2 ^ 20 :=
  Nat.lt_of_lt_of_le (stock.managed f member) stock.booted.total_le

/-- A frame in use is taken. -/
theorem taken (member : f ∈ all) (inUse : used f) : pmm.Taken f := by
  refine ⟨stock.managed f member, ?_⟩
  by_contra free
  exact ((stock.free f).mp ⟨stock.managed f member, Bool.eq_false_of_not_eq_true free⟩).2 inUse

/-- A run that is taken was used by nobody. -/
theorem take {lo n : Nat} (took : Took pmm t lo n) :
    (∀ f, lo ≤ f → f < lo + n → f ∈ all ∧ ¬ used f) ∧
      Stock t all (fun g => used g ∨ lo ≤ g ∧ g < lo + n) := by
  have inside := took.inside
  refine ⟨fun f low high => (stock.free f).mp ⟨by omega, took.free f low high⟩,
    took.booted stock.booted, fun g here => ?_, fun g => ?_⟩
  · rw [took.shape.total]
    exact stock.managed g here
  · have bits : g ∈ t.freeSet ↔ g ∈ pmm.freeSet ∧ ¬ (lo ≤ g ∧ g < lo + n) := by
      simp only [PmmState.freeSet, Set.mem_ofPred_eq, took.shape.total, took.after,
        Bool.or_eq_false_iff, decide_eq_false_iff_not, and_assoc]
    rw [bits, stock.free]
    tauto

/-- **An allocation gives a frame that nobody uses.** -/
theorem alloc
    (found : pmmAllocFrameOnNode pmm node = (t, some address)) :
    ∃ f, address = f * 4096 ∧ f ∈ all ∧ ¬ used f ∧ Stock t all (fun g => used g ∨ g = f) := by
  have allocated := pmmAllocFrameOnNode_allocated stock.booted.toInv node
  rw [found] at allocated
  obtain ⟨aligned, took⟩ := allocated.address stock.booted.toInv one_ne_zero rfl
  obtain ⟨unused, taken⟩ := stock.take took
  obtain ⟨member, free⟩ := unused _ (le_refl _) (Nat.lt_succ_self _)
  refine ⟨address / pageSize, ?_, member, free, taken.congr fun g => or_congr_right ?_⟩
  · unfold pageSize at aligned ⊢
    omega
  · omega

/-- **An allocation of several frames** gives a run that nobody uses. -/
theorem allocRun {n : Nat}
    (found : pmmAllocFramesOnNode pmm n node = (t, some address)) :
    (∀ f, address / pageSize ≤ f → f < address / pageSize + n → f ∈ all ∧ ¬ used f) ∧
      Stock t all (fun g => used g ∨ address / pageSize ≤ g ∧ g < address / pageSize + n) := by
  have nonzero : n ≠ 0 := by
    rintro rfl
    rw [pmmAllocFramesOnNode_zero] at found
    cases found
  have allocated := pmmAllocFramesOnNode_allocated stock.booted.toInv n node
  rw [found] at allocated
  exact stock.take (allocated.address stock.booted.toInv nonzero rfl).2

theorem allocRun_none {n : Nat}
    (nothing : pmmAllocFramesOnNode pmm n node = (t, none)) : t = pmm := by
  have allocated := pmmAllocFramesOnNode_allocated stock.booted.toInv n node
  rw [nothing] at allocated
  exact allocated.failed rfl

/-- An allocation that fails changes nothing. -/
theorem alloc_none
    (nothing : pmmAllocFrameOnNode pmm node = (t, none)) : t = pmm := by
  have allocated := pmmAllocFrameOnNode_allocated stock.booted.toInv node
  rw [nothing] at allocated
  exact allocated.failed rfl

/-- **A frame given back is free.** -/
theorem giveBack (member : f ∈ all) :
    Stock (pmmFreeFrame pmm (f * 4096)) all (fun g => used g ∧ g ≠ f) := by
  have frame : f * 4096 / pageSize = f := by
    unfold pageSize
    omega
  have total := (releaseFrameLocked_shape pmm (f * 4096 / pageSize)).total
  refine ⟨stock.booted.exec (.freeFrame (f * 4096)), fun g here => ?_, fun g => ?_⟩
  · exact Nat.lt_of_lt_of_eq (stock.managed g here) total.symm
  · rw [stock.booted.toInv.refinesFreeSet.freeFrame, frame, Set.mem_union, stock.free]
    simp only [Set.mem_ofPred_eq]
    constructor
    · rintro (⟨here, unused⟩ | ⟨rfl, -⟩)
      · exact ⟨here, fun both => unused both.1⟩
      · exact ⟨member, fun both => both.2 rfl⟩
    · rintro ⟨here, unused⟩
      by_cases same : g = f
      · exact Or.inr ⟨same, stock.managed g here⟩
      · exact Or.inl ⟨here, fun use => unused ⟨use, same⟩⟩

end

/-- The frames of a list given back one after the other. -/
theorem giveBackAll (frames : List Nat) (members : ∀ f ∈ frames, f ∈ all) :
    ∀ {pmm : PmmState} {used : Nat → Prop}, Stock pmm all used →
      Stock ((frames.map (· * 4096)).foldl pmmFreeFrame pmm) all
        (fun g => used g ∧ g ∉ frames) := by
  induction frames with
  | nil => exact fun stock => stock.congr fun g => by simp
  | cons f frames ih =>
      intro pmm used stock
      have rest := ih (fun g here => members g (List.mem_cons_of_mem f here))
        (stock.giveBack (members f List.mem_cons_self))
      exact rest.congr fun g => by rw [List.mem_cons, not_or, and_assoc]

/-- A new topology moves no frame. -/
theorem configure (stock : Stock pmm all used) (nodeCount : Nat) :
    Stock (pmmConfigureNumaTopology pmm nodeCount).1 all used := by
  obtain ⟨booted, bitmap, -, total⟩ := pmmConfigureNumaTopology_booted stock.booted nodeCount
  have same : (pmmConfigureNumaTopology pmm nodeCount).1.freeSet = pmm.freeSet := by
    unfold PmmState.freeSet
    rw [bitmap, total]
  refine ⟨booted, fun f member => ?_, fun f => ?_⟩
  · rw [total]
    exact stock.managed f member
  · rw [same]
    exact stock.free f

end Stock

end Dfos.Pmm
