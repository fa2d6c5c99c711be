import Mathlib.Data.List.Nodup
import Mathlib.Logic.Function.Basic

/-!
# Singly linked lists

Items carry the link to the next one.  `Thread` says which items hang at a link
and in which order; it reads the links of these items and no others.
-/

namespace Dfos.Lib

variable {α : Type}

/-- The items from a link on, each linked to the next one. -/
def Thread (next : α → Option α) : Option α → List α → Prop
  | head, [] => head = none
  | head, x :: xs => head = some x ∧ Thread next (next x) xs

/-- The link before an item is made to lead past it: the head, or the link of the
item before. -/
def bypass [DecidableEq α] (next : α → Option α) (head : Option α) (previous after : Option α) :
    (α → Option α) × Option α :=
  match previous with
  | none => (next, after)
  | some p => (Function.update next p after, head)

namespace Thread

variable {next next' : α → Option α} {head : Option α} {xs ys front back : List α} {x : α}

theorem congr (thread : Thread next head xs) (same : ∀ y ∈ xs, next' y = next y) :
    Thread next' head xs := by
  induction xs generalizing head with
  | nil => exact thread
  | cons y xs ih =>
    obtain ⟨here, rest⟩ := thread
    refine ⟨here, ?_⟩
    rw [same y List.mem_cons_self]
    exact ih rest fun z hz => same z (List.mem_cons_of_mem _ hz)

/-- The links determine the items. -/
theorem unique (left : Thread next head xs) (right : Thread next head ys) : xs = ys := by
  induction xs generalizing head ys with
  | nil =>
    cases ys with
    | nil => rfl
    | cons y ys => exact absurd (left.symm.trans right.1) nofun
  | cons x xs ih =>
    cases ys with
    | nil => exact absurd (right.symm.trans left.1) nofun
    | cons y ys =>
      obtain rfl : x = y := Option.some.inj (left.1.symm.trans right.1)
      exact congrArg _ (ih left.2 right.2)

variable [DecidableEq α]

theorem push (thread : Thread next head xs) (fresh : x ∉ xs) :
    Thread (Function.update next x head) (some x) (x :: xs) := by
  refine ⟨rfl, ?_⟩
  rw [Function.update_self]
  exact thread.congr fun y hy => Function.update_of_ne (ne_of_mem_of_not_mem hy fresh) _ _

/-- **Taking an item out** by leading the link before it past it. -/
theorem bypassed (thread : Thread next head (front ++ x :: back))
    (nodup : (front ++ x :: back).Nodup) :
    Thread (bypass next head front.getLast? (next x)).1
      (bypass next head front.getLast? (next x)).2 (front ++ back) := by
  induction front generalizing head with
  | nil => exact thread.2
  | cons y front ih =>
    obtain ⟨here, rest⟩ := thread
    obtain ⟨fresh, distinct⟩ := List.nodup_cons.mp nodup
    cases before : front.getLast? with
    | none =>
      -- the item is the second one
      obtain rfl := List.getLast?_eq_none_iff.mp before
      refine ⟨here, ?_⟩
      show Thread (Function.update next y (next x)) (Function.update next y (next x) y) back
      rw [Function.update_self]
      exact rest.2.congr fun z hz => Function.update_of_ne
        (ne_of_mem_of_not_mem (List.mem_cons_of_mem _ hz) fresh) _ _
    | some p =>
      have last : (y :: front).getLast? = some p := by
        rw [List.getLast?_cons, before]
        rfl
      have member : p ∈ front := List.mem_of_getLast? before
      have later := ih rest distinct
      rw [before] at later
      rw [last]
      refine ⟨here, ?_⟩
      show Thread (Function.update next p (next x)) (Function.update next p (next x) y) (front ++ back)
      rw [Function.update_of_ne (ne_of_mem_of_not_mem (List.mem_append_left _ member) fresh).symm]
      exact later

end Thread

end Dfos.Lib
