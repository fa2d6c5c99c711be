import Dfos.Vma.Tree

/-!
# The in-order sequence under the tree operations

Rotations never change the in-order sequence, so what an operation does to the
stored intervals can be read off the descent alone, whatever the heights are.

* `nodeInsert_inserted` / `nodeInsert_rejected`: where a new node goes, or
  which stored interval it overlaps.
* `nodeRemove_removed` / `nodeRemove_missing`: which interval leaves, and which
  slot goes back to the pool.
* `nodeFind_eq_some`, `nodeLeftmost_eq_head`: the two queries.
-/

namespace Dfos.Vma

open Dfos.Lib

/-- The stored intervals in order. -/
def intervals (t : VmaNode) : List Interval := t.toList.map Area.toInterval

/-- The pool slots of the nodes, in order. -/
def slots (t : VmaNode) : List Nat := t.toList.map Area.slot

/-- Non-empty intervals, each ending before the next one starts. -/
structure Ordered (l : List Interval) : Prop where
  valid : ∀ i ∈ l, i.start < i.stop
  apart : l.Pairwise fun i j => i.stop ≤ j.start

@[simp] theorem intervals_nil : intervals .nil = [] := rfl

@[simp] theorem intervals_node {h : Int} {a : Area} {l r : VmaNode} :
    intervals (.node h a l r) = intervals l ++ a.toInterval :: intervals r := by
  simp only [intervals, AvlTree.toList_node, List.map_append, List.map_cons]

@[simp] theorem slots_nil : slots .nil = [] := rfl

@[simp] theorem slots_node {h : Int} {a : Area} {l r : VmaNode} :
    slots (.node h a l r) = slots l ++ a.slot :: slots r := by
  simp only [slots, AvlTree.toList_node, List.map_append, List.map_cons]

/-! ## Ordered sequences around one interval -/

theorem Ordered.nil : Ordered [] := ⟨by simp, List.Pairwise.nil⟩

theorem ordered_append_cons {l r : List Interval} {a : Interval} :
    Ordered (l ++ a :: r) ↔
      Ordered l ∧ Ordered r ∧ a.start < a.stop ∧
        (∀ i ∈ l, i.stop ≤ a.start) ∧ (∀ j ∈ r, a.stop ≤ j.start) := by
  constructor
  · rintro ⟨valid, apart⟩
    rw [List.pairwise_append, List.pairwise_cons] at apart
    obtain ⟨left, ⟨after, right⟩, across⟩ := apart
    exact ⟨⟨fun i hi => valid i (by simp [hi]), left⟩,
      ⟨fun i hi => valid i (by simp [hi]), right⟩, valid a (by simp),
      fun i hi => across i hi a (by simp), after⟩
  · rintro ⟨left, right, valid, before, after⟩
    refine ⟨?_, ?_⟩
    · intro i hi
      simp only [List.mem_append, List.mem_cons] at hi
      rcases hi with hi | rfl | hi
      · exact left.valid i hi
      · exact valid
      · exact right.valid i hi
    · rw [List.pairwise_append, List.pairwise_cons]
      refine ⟨left.apart, ⟨after, right.apart⟩, ?_⟩
      intro i hi j hj
      rcases List.mem_cons.mp hj with rfl | hj
      · exact before i hi
      · have := before i hi
        have := after j hj
        omega

/-- Dropping one element keeps the order. -/
theorem Ordered.drop {l r : List Interval} {a : Interval}
    (ordered : Ordered (l ++ a :: r)) : Ordered (l ++ r) :=
  ⟨fun i hi => ordered.valid i (by
      simp only [List.mem_append, List.mem_cons] at hi ⊢
      tauto),
    ordered.apart.sublist (by simp)⟩

/-- In an ordered sequence a start determines its interval. -/
theorem Ordered.eq_of_start_eq {l : List Interval} (ordered : Ordered l) {i j : Interval}
    (hi : i ∈ l) (hj : j ∈ l) (same : i.start = j.start) : i = j := by
  induction l with
  | nil => cases hi
  | cons a l ih =>
    obtain ⟨-, rest, valid, -, after⟩ :=
      ordered_append_cons.mp (show Ordered ([] ++ a :: l) from ordered)
    rcases List.mem_cons.mp hi with hi | hi <;> rcases List.mem_cons.mp hj with hj | hj
    · exact hi.trans hj.symm
    · have := after j hj
      subst hi
      omega
    · have := after i hi
      subst hj
      omega
    · exact ih rest hi hj

/-! ## Rotations -/

@[simp] theorem nodeRefreshHeight_toList (t : VmaNode) :
    (nodeRefreshHeight t).toList = t.toList := by
  cases t <;> rfl

theorem rotateRight_toList (t : VmaNode) : (rotateRight t).toList = t.toList := by
  unfold rotateRight
  split
  · simp only [nodeRefreshHeight_toList, AvlTree.toList_node, List.append_assoc,
      List.cons_append]
  · rfl

theorem rotateLeft_toList (t : VmaNode) : (rotateLeft t).toList = t.toList := by
  unfold rotateLeft
  split
  · simp only [nodeRefreshHeight_toList, AvlTree.toList_node, List.append_assoc,
      List.cons_append]
  · rfl

theorem rebalanceRefreshed_toList (t : VmaNode) :
    (rebalanceRefreshed t).toList = t.toList := by
  cases t with
  | nil => rfl
  | node h a l r =>
    simp only [rebalanceRefreshed]
    split_ifs <;>
      simp only [rotateRight_toList, rotateLeft_toList, AvlTree.toList_node]

@[simp] theorem rebalance_toList (t : VmaNode) : (rebalance t).toList = t.toList := by
  rw [rebalance, rebalanceRefreshed_toList, nodeRefreshHeight_toList]

@[simp] theorem intervals_rebalance (t : VmaNode) : intervals (rebalance t) = intervals t := by
  rw [intervals, rebalance_toList, intervals]

@[simp] theorem slots_rebalance (t : VmaNode) : slots (rebalance t) = slots t := by
  rw [slots, rebalance_toList, slots]

/-! ## Insertion -/

section InsertCases

variable {node a : Area} {h : Int} {l r : VmaNode}

theorem nodeInsert_below (below : node.stop ≤ a.start) :
    nodeInsert node (.node h a l r) =
      if (nodeInsert node l).2 then (rebalance (.node h a (nodeInsert node l).1 r), true)
      else (.node h a (nodeInsert node l).1 r, false) := by
  rw [nodeInsert, if_pos below]

theorem nodeInsert_above (notBelow : ¬ node.stop ≤ a.start) (above : node.start ≥ a.stop) :
    nodeInsert node (.node h a l r) =
      if (nodeInsert node r).2 then (rebalance (.node h a l (nodeInsert node r).1), true)
      else (.node h a l (nodeInsert node r).1, false) := by
  rw [nodeInsert, if_neg notBelow, if_pos above]

theorem nodeInsert_overlap (notBelow : ¬ node.stop ≤ a.start)
    (notAbove : ¬ node.start ≥ a.stop) :
    nodeInsert node (.node h a l r) = (.node h a l r, false) := by
  rw [nodeInsert, if_neg notBelow, if_neg notAbove]

end InsertCases

/-- A refused insertion changes nothing. -/
theorem nodeInsert_unchanged {node : Area} {t : VmaNode}
    (rejected : (nodeInsert node t).2 = false) : (nodeInsert node t).1 = t := by
  induction t with
  | nil => cases rejected
  | node h a l r ihl ihr =>
    by_cases below : node.stop ≤ a.start
    · rw [nodeInsert_below below] at rejected ⊢
      cases inserted : (nodeInsert node l).2 with
      | true => simp [inserted] at rejected
      | false => simp [ihl inserted]
    by_cases above : node.start ≥ a.stop
    · rw [nodeInsert_above below above] at rejected ⊢
      cases inserted : (nodeInsert node r).2 with
      | true => simp [inserted] at rejected
      | false => simp [ihr inserted]
    · rw [nodeInsert_overlap below above]

/-- A refused insertion overlaps a stored interval. -/
theorem nodeInsert_rejected {node : Area} {t : VmaNode}
    (rejected : (nodeInsert node t).2 = false) :
    ∃ i ∈ intervals t, i.start < node.stop ∧ node.start < i.stop := by
  induction t with
  | nil => cases rejected
  | node h a l r ihl ihr =>
    simp only [intervals_node, List.mem_append, List.mem_cons]
    by_cases below : node.stop ≤ a.start
    · rw [nodeInsert_below below] at rejected
      cases inserted : (nodeInsert node l).2 with
      | true => simp [inserted] at rejected
      | false =>
        obtain ⟨i, hi, overlap⟩ := ihl inserted
        exact ⟨i, Or.inl hi, overlap⟩
    by_cases above : node.start ≥ a.stop
    · rw [nodeInsert_above below above] at rejected
      cases inserted : (nodeInsert node r).2 with
      | true => simp [inserted] at rejected
      | false =>
        obtain ⟨i, hi, overlap⟩ := ihr inserted
        exact ⟨i, Or.inr (Or.inr hi), overlap⟩
    · exact ⟨a.toInterval, Or.inr (Or.inl rfl), by omega, by omega⟩

/-- An accepted node goes between the intervals that end before it and those
that start after it. -/
theorem nodeInsert_inserted {node : Area} {t : VmaNode}
    (ordered : Ordered (intervals t)) (accepted : (nodeInsert node t).2 = true) :
    ∃ before after, t.toList = before ++ after ∧
      (nodeInsert node t).1.toList = before ++ node :: after ∧
      (∀ a ∈ before, a.stop ≤ node.start) ∧ (∀ a ∈ after, node.stop ≤ a.start) := by
  induction t with
  | nil => exact ⟨[], [], rfl, rfl, by simp, by simp⟩
  | node h a l r ihl ihr =>
    rw [intervals_node, ordered_append_cons] at ordered
    obtain ⟨left, right, here, leftBefore, rightAfter⟩ := ordered
    by_cases below : node.stop ≤ a.start
    · rw [nodeInsert_below below] at accepted ⊢
      cases inserted : (nodeInsert node l).2 with
      | false => simp [inserted] at accepted
      | true =>
        obtain ⟨before, after, split, result, lower, upper⟩ := ihl left inserted
        refine ⟨before, after ++ a :: r.toList, ?_, ?_, lower, ?_⟩
        · simp only [AvlTree.toList_node, split, List.append_assoc]
        · simp only [if_true, rebalance_toList, AvlTree.toList_node, result,
            List.append_assoc, List.cons_append]
        · intro b hb
          simp only [List.mem_append, List.mem_cons] at hb
          rcases hb with hb | rfl | hb
          · exact upper b hb
          · exact below
          · have := rightAfter b.toInterval (List.mem_map_of_mem hb)
            omega
    by_cases above : node.start ≥ a.stop
    · rw [nodeInsert_above below above] at accepted ⊢
      cases inserted : (nodeInsert node r).2 with
      | false => simp [inserted] at accepted
      | true =>
        obtain ⟨before, after, split, result, lower, upper⟩ := ihr right inserted
        refine ⟨l.toList ++ a :: before, after, ?_, ?_, ?_, upper⟩
        · simp only [AvlTree.toList_node, split, List.append_assoc, List.cons_append]
        · simp only [if_true, rebalance_toList, AvlTree.toList_node, result,
            List.append_assoc, List.cons_append]
        · intro b hb
          simp only [List.mem_append, List.mem_cons] at hb
          rcases hb with hb | rfl | hb
          · have := leftBefore b.toInterval (List.mem_map_of_mem hb)
            omega
          · exact above
          · exact lower b hb
    · rw [nodeInsert_overlap below above] at accepted
      cases accepted

/-- The new node keeps the sequence ordered. -/
theorem nodeInsert_ordered {node : Area} {t : VmaNode} (valid : node.start < node.stop)
    (ordered : Ordered (intervals t)) (accepted : (nodeInsert node t).2 = true) :
    Ordered (intervals (nodeInsert node t).1) := by
  obtain ⟨before, after, split, result, lower, upper⟩ :=
    nodeInsert_inserted ordered accepted
  have whole : intervals t = before.map Area.toInterval ++ after.map Area.toInterval := by
    rw [intervals, split, List.map_append]
  rw [intervals, result, List.map_append, List.map_cons, ordered_append_cons]
  rw [whole] at ordered
  have apart := List.pairwise_append.mp ordered.apart
  refine ⟨⟨fun i hi => ordered.valid i (by simp [hi]), apart.1⟩,
    ⟨fun i hi => ordered.valid i (by simp [hi]), apart.2.1⟩, valid, ?_, ?_⟩
  · intro i hi
    obtain ⟨b, hb, rfl⟩ := List.mem_map.mp hi
    exact lower b hb
  · intro i hi
    obtain ⟨b, hb, rfl⟩ := List.mem_map.mp hi
    exact upper b hb

/-! ## Queries -/

theorem nodeLeftmost_eq_head (t : VmaNode) : nodeLeftmost t = t.toList.head? := by
  induction t with
  | nil => rfl
  | node h a l r ihl _ =>
    cases l with
    | nil => rfl
    | node hl b ll lr =>
      have descend : nodeLeftmost (.node h a (.node hl b ll lr) r) =
          nodeLeftmost (.node hl b ll lr) := by
        rw [nodeLeftmost]
        exact fun empty => by cases empty
      rw [descend, ihl]
      simp only [AvlTree.toList_node, List.append_assoc, List.cons_append, List.head?_append,
        List.head?_cons]

theorem nodeFind_eq_some {t : VmaNode} (ordered : Ordered (intervals t)) {address : Nat}
    {i : Interval} :
    nodeFind t address = some i ↔ i ∈ intervals t ∧ i.start ≤ address ∧ address < i.stop := by
  induction t with
  | nil => simp [nodeFind]
  | node h a l r ihl ihr =>
    rw [intervals_node, ordered_append_cons] at ordered
    obtain ⟨left, right, here, leftBefore, rightAfter⟩ := ordered
    simp only [nodeFind, intervals_node, List.mem_append, List.mem_cons]
    split_ifs with below above
    · rw [ihl left]
      constructor
      · rintro ⟨hi, inside⟩
        exact ⟨Or.inl hi, inside⟩
      · rintro ⟨hi | rfl | hi, inside⟩
        · exact ⟨hi, inside⟩
        · omega
        · have := rightAfter i hi
          omega
    · rw [ihr right]
      constructor
      · rintro ⟨hi, inside⟩
        exact ⟨Or.inr (Or.inr hi), inside⟩
      · rintro ⟨hi | rfl | hi, inside⟩
        · have := leftBefore i hi
          omega
        · omega
        · exact ⟨hi, inside⟩
    · constructor
      · intro found
        cases found
        exact ⟨Or.inr (Or.inl rfl), by omega, by omega⟩
      · rintro ⟨hi | rfl | hi, inside⟩
        · have := leftBefore i hi
          omega
        · rfl
        · have := rightAfter i hi
          omega

/-! ## Removal -/

section RemoveCases

variable {a : Area} {h : Int} {l r : VmaNode} {start stop : Nat} {pool : Pool}

theorem nodeRemove_below (below : start < a.start) :
    nodeRemove (.node h a l r) start stop pool =
      (rebalance (.node h a (nodeRemove l start stop pool).1 r),
        (nodeRemove l start stop pool).2) := by
  rw [nodeRemove.eq_def]
  simp only [below, if_true]

theorem nodeRemove_above (above : start > a.start) :
    nodeRemove (.node h a l r) start stop pool =
      (rebalance (.node h a l (nodeRemove r start stop pool).1),
        (nodeRemove r start stop pool).2) := by
  rw [nodeRemove.eq_def]
  simp only [Nat.lt_asymm above, above, if_true, if_false]

theorem nodeRemove_mismatch (same : start = a.start) (other : a.stop ≠ stop) :
    nodeRemove (.node h a l r) start stop pool = (.node h a l r, false, pool) := by
  subst same
  rw [nodeRemove.eq_def]
  simp only [gt_iff_lt, Nat.lt_irrefl, if_false, if_pos other]

theorem nodeRemove_noLeft (same : start = a.start) (stopEq : a.stop = stop) :
    nodeRemove (.node h a .nil r) start stop pool = (r, true, nodeFree a.slot pool) := by
  subst same stopEq
  rw [nodeRemove.eq_def]
  simp only [gt_iff_lt, Nat.lt_irrefl, if_false, ne_eq, not_true_eq_false]

theorem nodeRemove_noRight (same : start = a.start) (stopEq : a.stop = stop) :
    nodeRemove (.node h a l .nil) start stop pool = (l, true, nodeFree a.slot pool) := by
  subst same stopEq
  rw [nodeRemove.eq_def]
  simp only [gt_iff_lt, Nat.lt_irrefl, if_false, ne_eq, not_true_eq_false]
  cases l <;> rfl

theorem nodeRemove_both (same : start = a.start) (stopEq : a.stop = stop)
    (hasLeft : l ≠ .nil) {successor : Area} (least : nodeLeftmost r = some successor) :
    nodeRemove (.node h a l r) start stop pool =
      (rebalance (.node h { toInterval := successor.toInterval, slot := a.slot } l
          (nodeRemove r successor.start successor.stop pool).1), true,
        (nodeRemove r successor.start successor.stop pool).2.2) := by
  subst same stopEq
  rw [nodeRemove.eq_def]
  simp only [gt_iff_lt, Nat.lt_irrefl, if_false, ne_eq, not_true_eq_false, least]

end RemoveCases

/-- What a successful removal leaves: one interval is gone, every other one is
still there in order, and one slot is back in the pool. -/
structure Removed (t : VmaNode) (start stop : Nat) (pool : Pool)
    (result : VmaNode × Bool × Pool) : Prop where
  removed : result.2.1 = true
  split : ∃ before i after, intervals t = before ++ i :: after ∧
    i.start = start ∧ i.stop = stop ∧ intervals result.1 = before ++ after
  freed : ∃ slot, result.2.2 = nodeFree slot pool ∧ (slot :: slots result.1).Perm (slots t)

/-- When the removed interval starts where the first one does, the rest is left. -/
theorem eq_of_removed_head {l before after rest : List Interval} {first i : Interval}
    (ordered : Ordered l) (split : before ++ i :: after = first :: rest)
    (whole : l = first :: rest) (same : i.start = first.start) : before ++ after = rest := by
  cases before with
  | nil =>
    injection split with _ tails
  | cons k before =>
    injection split with head tails
    subst head whole
    have apart := (List.pairwise_cons.mp ordered.apart).1 i (by simp [← tails])
    have := ordered.valid k (by simp)
    omega

/-- **`node_remove` takes out the interval it is asked for.** -/
theorem nodeRemove_removed {t : VmaNode} (ordered : Ordered (intervals t)) {start stop : Nat}
    (stored : ∃ i ∈ intervals t, i.start = start ∧ i.stop = stop) (pool : Pool) :
    Removed t start stop pool (nodeRemove t start stop pool) := by
  induction t generalizing start stop with
  | nil =>
    obtain ⟨i, hi, -⟩ := stored
    cases hi
  | node h a l r ihl ihr =>
    obtain ⟨i, hi, hstart, hstop⟩ := stored
    have whole := ordered
    rw [intervals_node, ordered_append_cons] at ordered
    obtain ⟨left, right, here, leftBefore, rightAfter⟩ := ordered
    simp only [intervals_node, List.mem_append, List.mem_cons] at hi
    rcases Nat.lt_trichotomy start a.start with below | same | above
    · -- the interval is in the left subtree
      have inLeft : i ∈ intervals l := by
        rcases hi with hi | rfl | hi
        · exact hi
        · omega
        · have := rightAfter i hi
          omega
      obtain ⟨done, ⟨before, j, after, split, js, je, rest⟩, slot, poolEq, perm⟩ :=
        ihl left ⟨i, inLeft, hstart, hstop⟩
      rw [nodeRemove_below below]
      refine ⟨done, ⟨before, j, after ++ a.toInterval :: intervals r, ?_, js, je, ?_⟩,
        slot, poolEq, ?_⟩
      · rw [intervals_node, split, List.append_assoc, List.cons_append]
      · rw [intervals_rebalance, intervals_node, rest, List.append_assoc]
      · rw [slots_rebalance, slots_node, slots_node, ← List.cons_append]
        exact perm.append_right _
    · by_cases stopEq : a.stop = stop
      · cases least : nodeLeftmost r with
        | none =>
          have empty : r = .nil := by
            cases r with
            | nil => rfl
            | node => simp [nodeLeftmost_eq_head] at least
          subst empty
          rw [nodeRemove_noRight same stopEq]
          refine ⟨rfl, ⟨intervals l, a.toInterval, [], by simp, same.symm, stopEq, by simp⟩,
            a.slot, rfl, ?_⟩
          rw [slots_node, slots_nil]
          exact List.perm_append_singleton _ _ |>.symm
        | some successor =>
          by_cases noLeft : l = .nil
          · subst noLeft
            rw [nodeRemove_noLeft same stopEq]
            exact ⟨rfl, ⟨[], a.toInterval, intervals r, by simp, same.symm, stopEq, rfl⟩,
              a.slot, rfl, by simp⟩
          obtain ⟨rest, restEq⟩ : ∃ rest, r.toList = successor :: rest := by
            rw [nodeLeftmost_eq_head] at least
            exact ⟨r.toList.tail, (List.cons_head?_tail least).symm⟩
          have rightEq : intervals r =
              successor.toInterval :: rest.map Area.toInterval := by
            rw [intervals, restEq, List.map_cons]
          have inRight : successor.toInterval ∈ intervals r := by simp [rightEq]
          obtain ⟨done, ⟨before, j, after, split, js, je, remaining⟩, slot, poolEq, perm⟩ :=
            ihr right ⟨successor.toInterval, inRight, rfl, rfl⟩
          -- a start determines its interval, so the successor itself went
          have restIntervals : intervals (nodeRemove r successor.start successor.stop pool).1 =
              rest.map Area.toInterval := by
            rw [remaining]
            exact eq_of_removed_head right (split.symm.trans rightEq) rightEq js
          rw [nodeRemove_both same stopEq noLeft least]
          refine ⟨rfl, ⟨intervals l, a.toInterval, intervals r, by simp,
            same.symm, stopEq, ?_⟩, slot, poolEq, ?_⟩
          · rw [intervals_rebalance, intervals_node, restIntervals, rightEq]
          · rw [slots_rebalance, slots_node, slots_node, ← List.cons_append]
            refine List.perm_middle.trans (List.Perm.trans ?_ List.perm_middle.symm)
            exact (List.perm_middle.symm.trans (perm.append_left _)).cons _
      · -- the start is here but the end is not: the order leaves no other candidate
        exfalso
        have ieq := whole.eq_of_start_eq (i := i) (j := a.toInterval)
          (by simp [hi]) (by simp) (hstart.trans same)
        rw [ieq] at hstop
        exact stopEq hstop
    · have inRight : i ∈ intervals r := by
        rcases hi with hi | rfl | hi
        · have := leftBefore i hi
          have := left.valid i hi
          omega
        · omega
        · exact hi
      obtain ⟨done, ⟨before, j, after, split, js, je, rest⟩, slot, poolEq, perm⟩ :=
        ihr right ⟨i, inRight, hstart, hstop⟩
      rw [nodeRemove_above above]
      refine ⟨done, ⟨intervals l ++ a.toInterval :: before, j, after, ?_, js, je, ?_⟩,
        slot, poolEq, ?_⟩
      · rw [intervals_node, split, List.append_assoc, List.cons_append]
      · rw [intervals_rebalance, intervals_node, rest, List.append_assoc, List.cons_append]
      · rw [slots_rebalance, slots_node, slots_node]
        refine List.perm_middle.symm.trans ?_
        refine List.Perm.append_left _ ?_
        exact (List.Perm.swap _ _ _).trans (perm.cons _)

/-- Without such an interval the stored sequence and the pool stay. -/
theorem nodeRemove_missing {t : VmaNode} {start stop : Nat}
    (missing : ∀ i ∈ intervals t, ¬ (i.start = start ∧ i.stop = stop)) (pool : Pool) :
    (nodeRemove t start stop pool).1.toList = t.toList ∧
      (nodeRemove t start stop pool).2 = (false, pool) := by
  induction t with
  | nil => exact ⟨rfl, rfl⟩
  | node h a l r ihl ihr =>
    simp only [intervals_node, List.mem_append, List.mem_cons] at missing
    have left := ihl fun i hi => missing i (Or.inl hi)
    have right := ihr fun i hi => missing i (Or.inr (Or.inr hi))
    rcases Nat.lt_trichotomy start a.start with below | same | above
    · rw [nodeRemove_below below]
      exact ⟨by rw [rebalance_toList, AvlTree.toList_node, left.1, AvlTree.toList_node],
        left.2⟩
    · have other : a.stop ≠ stop := fun stopEq =>
        missing a.toInterval (Or.inr (Or.inl rfl)) ⟨same.symm, stopEq⟩
      rw [nodeRemove_mismatch same other]
      exact ⟨rfl, rfl⟩
    · rw [nodeRemove_above above]
      exact ⟨by rw [rebalance_toList, AvlTree.toList_node, right.1, AvlTree.toList_node],
        right.2⟩

end Dfos.Vma
