import Dfos.Heap.Room

/-!
# A pointer given back twice

`slab_free_pointer` looks at `in_use` of the slab alone.  A second `kfree` of an
object is noticed when nothing of the slab is in use, and passes for the `kfree`
of another object when something is.
-/

namespace Dfos.Heap

open Dfos.Lib Dfos.Pmm

/-- Callers free live blocks, and stale ones only where nothing else is live in
the page. -/
def LoneSecondFree (w : HeapWorld) (p : Nat) : Prop :=
  w.live p ≠ none ∨ w.stale p = true ∧ w.Alone p

/-- Every free list of a slab on some list ends. -/
def FreeListsEnd (h : HeapState) : Prop :=
  ∀ c l, ∃ slabs, Thread h.next ((h.slabCaches c).heads l) slabs ∧
    ∀ s ∈ slabs, ∃ objects, Thread (nextObject h.memory) (nonNull (h.slabMetadataPool s).freeList)
      objects

/-- `kmalloc` returns no pointer that is live. -/
def FreshResults (pool : Nat) (w : HeapWorld) : Prop :=
  ∀ size grant h p, size ≤ slabLimit → (∀ gr ∈ grant, Fresh w.heap 1 gr) →
    kmalloc pool w.heap size grant = .ok (h, p) → w.live p = none

section Histories

variable {pool : Nat} {w : HeapWorld} {p : Nat}

/-- Callers of up to 2048 bytes never hold a run. -/
theorem runs_none_of_small {frees : HeapWorld → Nat → Prop}
    (reached : HeapWorld.Reached pool (· ≤ slabLimit) frees w) (p : Nat) : w.runs p = none := by
  obtain ⟨h, -, run⟩ := reached
  induction run with
  | refl => rfl
  | tail _ step ih =>
    cases step with
    | kmalloc small =>
      rw [HeapWorld.runs_allocated, if_neg (not_lt.mpr small), Function.update_apply, ih, ite_self]
    | kfree => rw [HeapWorld.runs_freed, Function.update_apply, ih, ite_self]
    | write => exact ih

theorem inv_of_small (place : PoolPlace pool)
    (reached : HeapWorld.Reached pool (· ≤ slabLimit) LoneSecondFree w) : ∃ g, w.Inv pool g := by
  refine reached.inv place (fun n small => ?_) fun w before p allowed => ?_
  · exact lt_of_le_of_lt small (by decide)
  · exact allowed.imp_left fun live => ⟨live, fun run => absurd (runs_none_of_small before p) run⟩

/-- **A second `kfree`** of an object panics exactly where nothing else is live in
its page.  Histories whose second frees are all of this kind hand no live address
out again and have no free list without end. -/
theorem second_kfree_panics_iff (place : PoolPlace pool)
    (reached : HeapWorld.Reached pool (· ≤ slabLimit) LoneSecondFree w) :
    (∀ p, w.stale p = true →
      (kfree pool w.heap p = .error (.panic "double free detected for slab object %p" p) ↔
        w.Alone p)) ∧
    FreshResults pool w ∧ FreeListsEnd w.heap := by
  obtain ⟨g, inv⟩ := inv_of_small place reached
  refine ⟨fun p stale => inv.freed_twice place stale, fun size grant h p small fresh returns => ?_,
    fun c l => ⟨_, inv.heap.lists.heads c l, fun s member => ?_⟩⟩
  · refine (inv.allocated place (lt_of_le_of_lt small (by decide)) ?_ returns).1
    rwa [pagesAsked, if_pos small]
  · exact ⟨_, (inv.heap.contents.slabs s ⟨_, member⟩).free⟩

end Histories

/-! ## A second `kfree` that is not noticed -/

/-- Two objects are taken, the first is given back twice, and two more are taken:
the first pointer, whether its page is still mapped after the first `kfree`, and
the last two pointers. -/
def secondFree : Except HeapFault (Nat × Bool × Nat × Nat) := do
  let (h, p) ← kmalloc poolAddress (heapInit zeroHeap) 1024 (some firstPage)
  let (h, _) ← kmalloc poolAddress h 1024 none
  let h ← kfree poolAddress h p
  let mapped := h.mapped (p / pageSize)
  let h ← kfree poolAddress h p
  let (h, q) ← kmalloc poolAddress h 1024 none
  let (_, r) ← kmalloc poolAddress h 1024 none
  return (p, mapped, q, r)

theorem secondFree_eq :
    secondFree.toOption = some (0xF0000830, true, 0xF0000830, 0xF0000830) := by
  decide +kernel

/-- The history up to the first `kfree`, and the calls after it. -/
theorem secondFree_world {frees : HeapWorld → Nat → Prop}
    (allows : ∀ w p, HeapWorld.LiveFree w p → frees w p) :
    ∃ w h h₁ h₂ q, HeapWorld.Reached poolAddress (· ≤ slabLimit) frees w ∧
      w.stale 0xF0000830 = true ∧ kfree poolAddress w.heap 0xF0000830 = .ok h ∧
      kmalloc poolAddress h 1024 none = .ok (h₁, q) ∧
      kmalloc poolAddress h₁ 1024 none = .ok (h₂, q) := by
  have ran : ∃ r, secondFree = .ok r ∧ r = (0xF0000830, true, 0xF0000830, 0xF0000830) := by
    have computed := secondFree_eq
    cases outcome : secondFree with
    | error fault =>
      rw [outcome] at computed
      cases computed
    | ok r =>
      rw [outcome] at computed
      exact ⟨r, rfl, Option.some.inj computed⟩
  obtain ⟨r, ran, result⟩ := ran
  unfold secondFree at ran
  obtain ⟨⟨h₁, p⟩, first, ran⟩ := bind_ok_iff.mp ran
  obtain ⟨⟨h₂, p'⟩, second, ran⟩ := bind_ok_iff.mp ran
  obtain ⟨h₃, freed, ran⟩ := bind_ok_iff.mp ran
  obtain ⟨h₄, again, ran⟩ := bind_ok_iff.mp ran
  obtain ⟨⟨h₅, q⟩, third, ran⟩ := bind_ok_iff.mp ran
  obtain ⟨⟨h₆, q'⟩, fourth, ran⟩ := bind_ok_iff.mp ran
  obtain ⟨rfl, mapped, rfl, rfl⟩ : p = 0xF0000830 ∧ h₃.mapped (p / pageSize) = true ∧
      q = 0xF0000830 ∧ q' = 0xF0000830 := by
    have parts := (Except.ok.inj ran).trans result
    exact ⟨congrArg (·.1) parts, congrArg (·.2.1) parts, congrArg (·.2.2.1) parts,
      congrArg (·.2.2.2) parts⟩
  let w₁ := (HeapWorld.initial zeroHeap).allocated h₁ 0xF0000830 1024
  let w₂ := w₁.allocated h₂ p' 1024
  have live : w₂.live 0xF0000830 = some 1024 := by
    simp only [w₂, w₁, HeapWorld.allocated, Function.update_apply]
    split <;> rfl
  have step₁ : HeapWorld.Step poolAddress (· ≤ slabLimit) frees
      (.initial zeroHeap) w₁ :=
    .kmalloc (by decide) (by rintro gr ⟨⟩; exact firstPage_fresh (by decide)) first
  have step₂ : HeapWorld.Step poolAddress (· ≤ slabLimit) frees w₁ w₂ :=
    .kmalloc (by decide) (by rintro gr ⟨⟩) second
  have step₃ : HeapWorld.Step poolAddress (· ≤ slabLimit) frees w₂
      (w₂.freed h₃ 0xF0000830) :=
    .kfree (allows _ _ (by rw [HeapWorld.LiveFree, live]; simp)) freed
  have reached : HeapWorld.Reached poolAddress (· ≤ slabLimit) frees
      (w₂.freed h₃ 0xF0000830) :=
    ⟨zeroHeap, fun _ => rfl, ((Relation.ReflTransGen.single step₁).tail step₂).tail step₃⟩
  refine ⟨_, h₄, h₅, h₆, _, reached, ?_, again, third, fourth⟩
  simp [HeapWorld.freed, live, mapped, slabLimit]

/-- The second `kfree` returns, and two calls of `kmalloc` then give the same
address out. -/
theorem second_kfree_unnoticed :
    ∃ pool w p h h₁ h₂ q, PoolPlace pool ∧
      HeapWorld.Reached pool (· ≤ slabLimit) HeapWorld.LiveFree w ∧
      w.stale p = true ∧ kfree pool w.heap p = .ok h ∧
      kmalloc pool h 1024 none = .ok (h₁, q) ∧ kmalloc pool h₁ 1024 none = .ok (h₂, q) := by
  obtain ⟨w, h, h₁, h₂, q, world⟩ := secondFree_world fun _ _ live => live
  exact ⟨poolAddress, w, 0xF0000830, h, h₁, h₂, q, poolAddress_place, world⟩

/-- In that world another object of the slab is live. -/
theorem second_kfree_company :
    ∃ w, HeapWorld.Reached poolAddress (· ≤ slabLimit) LoneSecondFree w ∧
      w.stale 0xF0000830 = true ∧ ¬ w.Alone 0xF0000830 ∧
      FreshResults poolAddress w ∧ FreeListsEnd w.heap := by
  obtain ⟨w, h, h₁, h₂, q, reached, stale, returns, -⟩ := secondFree_world fun _ _ live => Or.inl live
  obtain ⟨panics, rest⟩ := second_kfree_panics_iff poolAddress_place reached
  refine ⟨w, reached, stale, fun alone => ?_, rest⟩
  rw [(panics _ stale).mpr alone] at returns
  cases returns

end Dfos.Heap
