import Dfos.Lib.Partition
import Dfos.Vma.Balance
import Dfos.Vma.Order

/-!
# The representation invariant of the VMA trees

`Vmas.Inv` holds of every state that calls reach from initialised trees: each
tree is an ordered AVL tree that counts its nodes (`VmaTree.WellFormed`), and
the pool's slots are split between the free list and the trees
(`Partition`).  The two parts need each other: the pool bounds the size of a
tree, the size bounds its height, and a small height is what makes the
`int8_t` arithmetic exact.
-/

namespace Dfos.Vma

open Dfos.Lib

/-! ## AVL shape under insertion and removal -/

/-- A tree drawn from the pool is at most fifteen high. -/
theorem height_le_of_pool {t : VmaNode} (avl : t.Avl) (few : t.size ≤ vmaMaxNodes) :
    t.storedHeight ≤ 15 := by
  have bound : Nat.fib 18 = 2584 := by decide
  refine avl.height_le_of_size (k := 15) ?_
  rw [show 15 + 3 = 18 from rfl, bound]
  simp only [vmaMaxNodes] at few
  omega

theorem nodeInsert_avl {node : Area} {t : VmaNode} (avl : t.Avl)
    (few : t.size ≤ vmaMaxNodes) (accepted : (nodeInsert node t).2 = true) :
    (nodeInsert node t).1.Avl ∧
      ((nodeInsert node t).1.storedHeight = t.storedHeight ∨
        (nodeInsert node t).1.storedHeight = t.storedHeight + 1) := by
  induction t with
  | nil =>
    refine ⟨⟨rfl, ?_, ?_, trivial, trivial⟩, Or.inr rfl⟩ <;>
      simp only [AvlTree.storedHeight_nil] <;> omega
  | node h a l r ihl ihr =>
    obtain ⟨exact, leftHigh, rightHigh, left, right⟩ := avl
    simp only [AvlTree.size] at few
    have leftSmall := height_le_of_pool left (by omega)
    have rightSmall := height_le_of_pool right (by omega)
    by_cases below : node.stop ≤ a.start
    · rw [nodeInsert_below below] at accepted ⊢
      cases inserted : (nodeInsert node l).2 with
      | false => simp [inserted] at accepted
      | true =>
        obtain ⟨left', grown⟩ := ihl left (by omega) inserted
        simp only [if_true, AvlTree.storedHeight_node]
        have spec := rebalance_spec (h := h) (a := a) left' right
          (by omega) (by omega) (by omega) (by omega)
        refine ⟨spec.avl, ?_⟩
        by_cases balanced : (nodeInsert node l).1.storedHeight - r.storedHeight ≤ 1
        · rw [rebalance_balanced left' right (by omega) (by omega) balanced (by omega)]
          simp only [AvlTree.storedHeight_node]
          omega
        · have := spec.low
          have := spec.high
          omega
    by_cases above : node.start ≥ a.stop
    · rw [nodeInsert_above below above] at accepted ⊢
      cases inserted : (nodeInsert node r).2 with
      | false => simp [inserted] at accepted
      | true =>
        obtain ⟨right', grown⟩ := ihr right (by omega) inserted
        simp only [if_true, AvlTree.storedHeight_node]
        have spec := rebalance_spec (h := h) (a := a) left right'
          (by omega) (by omega) (by omega) (by omega)
        refine ⟨spec.avl, ?_⟩
        by_cases balanced : (nodeInsert node r).1.storedHeight - l.storedHeight ≤ 1
        · rw [rebalance_balanced left right' (by omega) (by omega) (by omega) balanced]
          simp only [AvlTree.storedHeight_node]
          omega
        · have := spec.low
          have := spec.high
          omega
    · rw [nodeInsert_overlap below above] at accepted
      cases accepted

/-- One child has become at most one lower: rebalancing gives an AVL tree that
is at most one lower. -/
theorem rebalance_shrunk {h : Int} {a b : Area} {l r l' r' : VmaNode}
    (avl : (AvlTree.node h a l r).Avl) (small : h ≤ 16) (left : l'.Avl) (right : r'.Avl)
    (shrunk : (l' = l ∧ (r'.storedHeight = r.storedHeight ∨
        r'.storedHeight = r.storedHeight - 1)) ∨
      (r' = r ∧ (l'.storedHeight = l.storedHeight ∨
        l'.storedHeight = l.storedHeight - 1))) :
    (rebalance (.node h b l' r')).Avl ∧
      ((rebalance (.node h b l' r')).storedHeight = h ∨
        (rebalance (.node h b l' r')).storedHeight = h - 1) := by
  obtain ⟨exact, leftHigh, rightHigh, leftAvl, rightAvl⟩ := avl
  have leftNonneg := leftAvl.height_nonneg
  have rightNonneg := rightAvl.height_nonneg
  have leftNear : l'.storedHeight = l.storedHeight ∨
      l'.storedHeight = l.storedHeight - 1 := by
    rcases shrunk with ⟨rfl, -⟩ | ⟨-, near⟩
    · exact Or.inl rfl
    · exact near
  have rightNear : r'.storedHeight = r.storedHeight ∨
      r'.storedHeight = r.storedHeight - 1 := by
    rcases shrunk with ⟨-, near⟩ | ⟨rfl, -⟩
    · exact near
    · exact Or.inl rfl
  have oneSide : l'.storedHeight = l.storedHeight ∨ r'.storedHeight = r.storedHeight := by
    rcases shrunk with ⟨rfl, -⟩ | ⟨rfl, -⟩
    · exact Or.inl rfl
    · exact Or.inr rfl
  have spec := rebalance_spec (h := h) (a := b) left right
    (by omega) (by omega) (by omega) (by omega)
  refine ⟨spec.avl, ?_⟩
  by_cases balanced : l'.storedHeight - r'.storedHeight ≤ 1 ∧
      r'.storedHeight - l'.storedHeight ≤ 1
  · rw [rebalance_balanced left right (by omega) (by omega) balanced.1 balanced.2]
    simp only [AvlTree.storedHeight_node]
    omega
  · have := spec.low
    have := spec.high
    omega

theorem nodeRemove_avl {t : VmaNode} (avl : t.Avl) (few : t.size ≤ vmaMaxNodes)
    (start stop : Nat) (pool : Pool) :
    (nodeRemove t start stop pool).1.Avl ∧
      ((nodeRemove t start stop pool).1.storedHeight = t.storedHeight ∨
        (nodeRemove t start stop pool).1.storedHeight = t.storedHeight - 1) := by
  induction t generalizing start stop with
  | nil => exact ⟨trivial, Or.inl rfl⟩
  | node h a l r ihl ihr =>
    have whole := avl
    have small := height_le_of_pool avl few
    obtain ⟨exact, leftHigh, rightHigh, left, right⟩ := avl
    simp only [AvlTree.size] at few
    simp only [AvlTree.storedHeight_node] at small ⊢
    have leftNonneg := left.height_nonneg
    have rightNonneg := right.height_nonneg
    rcases Nat.lt_trichotomy start a.start with below | same | above
    · rw [nodeRemove_below below]
      obtain ⟨left', near⟩ := ihl left (by omega) start stop
      exact rebalance_shrunk whole (by omega) left' right (Or.inr ⟨rfl, near⟩)
    · by_cases stopEq : a.stop = stop
      · cases least : nodeLeftmost r with
        | none =>
          have empty : r = .nil := by
            cases r with
            | nil => rfl
            | node => simp [nodeLeftmost_eq_head] at least
          subst empty
          rw [nodeRemove_noRight same stopEq]
          simp only [AvlTree.storedHeight_nil] at *
          exact ⟨left, by omega⟩
        | some successor =>
          by_cases noLeft : l = .nil
          · subst noLeft
            rw [nodeRemove_noLeft same stopEq]
            simp only [AvlTree.storedHeight_nil] at *
            exact ⟨right, by omega⟩
          · rw [nodeRemove_both same stopEq noLeft least]
            obtain ⟨right', near⟩ := ihr right (by omega) successor.start successor.stop
            exact rebalance_shrunk whole (by omega) left right' (Or.inl ⟨rfl, near⟩)
      · rw [nodeRemove_mismatch same stopEq]
        exact ⟨whole, Or.inl rfl⟩
    · rw [nodeRemove_above above]
      obtain ⟨right', near⟩ := ihr right (by omega) start stop
      exact rebalance_shrunk whole (by omega) left right' (Or.inl ⟨rfl, near⟩)

/-! ## One tree -/

/-- The representation invariant of one tree. -/
structure VmaTree.WellFormed (tree : VmaTree) : Prop where
  avl : tree.root.Avl
  ordered : Ordered (intervals tree.root)
  count : tree.nodeCount = tree.root.toList.length

theorem vmaTreeInit_wellFormed : vmaTreeInit.WellFormed :=
  ⟨trivial, Ordered.nil, rfl⟩

/-- The slots the pool can still hand out, before or after its lazy set-up. -/
def Pool.available (pool : Pool) : List Nat := (nodePoolInit pool).freeNodes

theorem nodePoolInit_initialized (pool : Pool) : (nodePoolInit pool).initialized = true := by
  unfold nodePoolInit
  split
  · assumption
  · rfl

@[simp] theorem available_of_initialized {pool : Pool} (ready : pool.initialized = true) :
    pool.available = pool.freeNodes := by
  rw [Pool.available, nodePoolInit, if_pos ready]

/-- A call keeps the slots that the pool and its tree hold together. -/
def SlotsKept (tree : VmaTree) (pool : Pool) (tree' : VmaTree) (pool' : Pool) : Prop :=
  (pool'.available ++ slots tree'.root).Perm (pool.available ++ slots tree.root)

section Calls

variable {tree : VmaTree} {pool : Pool}

/-- What `vma_tree_insert` does when the arguments are an interval and a node
is to be had. -/
theorem vmaTreeInsert_alloc {start stop flags slot : Nat} {rest : List Nat}
    (valid : start < stop) (room : pool.available = slot :: rest) :
    vmaTreeInsert tree pool start stop flags =
      (let node : Area := { start := start, stop := stop, flags := flags, slot := slot }
      if (nodeInsert node tree.root).2 then
        ({ root := (nodeInsert node tree.root).1, nodeCount := u32Add tree.nodeCount 1 },
          { initialized := true, freeNodes := rest }, true)
      else (tree, { initialized := true, freeNodes := slot :: rest }, false)) := by
  have ready := nodePoolInit_initialized pool
  have alloc : nodeAlloc pool start stop flags =
      (some { start := start, stop := stop, flags := flags, slot := slot },
        { initialized := true, freeNodes := rest }) := by
    rw [Pool.available] at room
    simp only [nodeAlloc, room, ready]
  rw [vmaTreeInsert, if_neg (by omega), alloc]
  dsimp only
  split
  · rfl
  · rename_i rejected
    rw [nodeInsert_unchanged (by simpa using rejected)]
    rfl

theorem vmaTreeInsert_empty {start stop flags : Nat} (empty : pool.available = []) :
    vmaTreeInsert tree pool start stop flags =
      (tree, if stop ≤ start then pool else nodePoolInit pool, false) := by
  unfold vmaTreeInsert
  split
  · rfl
  · rw [Pool.available] at empty
    simp only [nodeAlloc, empty]

theorem available_nodePoolInit (pool : Pool) : (nodePoolInit pool).available = pool.available :=
  available_of_initialized (nodePoolInit_initialized pool)

/-- The size of a tree whose slots are distinct pool slots. -/
theorem size_le_of_slots {t : VmaNode} (distinct : (slots t).Nodup)
    (inPool : ∀ k ∈ slots t, k < vmaMaxNodes) : t.size ≤ vmaMaxNodes := by
  have sub : slots t ⊆ List.range vmaMaxNodes := fun k hk =>
    List.mem_range.mpr (inPool k hk)
  have := (List.subperm_of_subset distinct sub).length_le
  rw [List.length_range, slots, List.length_map, AvlTree.length_toList] at this
  exact this

theorem vmaTreeInsert_wellFormed (wf : tree.WellFormed) (few : tree.root.size ≤ vmaMaxNodes)
    (start stop flags : Nat) :
    (vmaTreeInsert tree pool start stop flags).1.WellFormed ∧
      SlotsKept tree pool (vmaTreeInsert tree pool start stop flags).1
        (vmaTreeInsert tree pool start stop flags).2.1 := by
  by_cases valid : start < stop
  · cases room : pool.available with
    | nil =>
      rw [vmaTreeInsert_empty room, if_neg (by omega)]
      refine ⟨wf, ?_⟩
      rw [SlotsKept, available_nodePoolInit]
    | cons slot rest =>
      rw [vmaTreeInsert_alloc valid room]
      dsimp only
      generalize hnode : ({ start := start, stop := stop, flags := flags, slot := slot } : Area) =
        node
      have nodeValid : node.start < node.stop := by
        subst hnode
        exact valid
      have nodeSlot : node.slot = slot := by rw [← hnode]
      split
      · rename_i accepted
        obtain ⟨before, after, split, result, -, -⟩ := nodeInsert_inserted wf.ordered accepted
        refine ⟨⟨(nodeInsert_avl wf.avl few accepted).1,
          nodeInsert_ordered nodeValid wf.ordered accepted, ?_⟩, ?_⟩
        · have old : tree.nodeCount = before.length + after.length := by
            rw [wf.count, split, List.length_append]
          have few' := few
          rw [← AvlTree.length_toList, ← wf.count, vmaMaxNodes] at few'
          simp only [result, List.length_append, List.length_cons]
          rw [u32Add_eq (by omega), old]
          omega
        · rw [SlotsKept, available_of_initialized rfl, room, slots, slots, result, split,
            List.map_append, List.map_append, List.map_cons, nodeSlot, List.cons_append,
            ← List.append_assoc]
          exact List.perm_middle.trans (by rw [List.append_assoc])
      · refine ⟨wf, ?_⟩
        rw [SlotsKept, available_of_initialized rfl, room]
  · rw [vmaTreeInsert, if_pos (by omega)]
    exact ⟨wf, List.Perm.refl _⟩

/-- Without a match the whole tree is returned: on an AVL tree the
rebalancing of the descent has nothing to do. -/
theorem nodeRemove_unchanged {t : VmaNode} (avl : t.Avl) (few : t.size ≤ vmaMaxNodes)
    {start stop : Nat} (missing : ∀ i ∈ intervals t, ¬ (i.start = start ∧ i.stop = stop)) :
    (nodeRemove t start stop pool).1 = t := by
  induction t with
  | nil => rfl
  | node h a l r ihl ihr =>
    have whole := avl
    have small := height_le_of_pool avl few
    obtain ⟨-, -, -, left, right⟩ := avl
    simp only [AvlTree.size] at few
    simp only [AvlTree.storedHeight_node] at small
    simp only [intervals_node, List.mem_append, List.mem_cons] at missing
    rcases Nat.lt_trichotomy start a.start with below | same | above
    · rw [nodeRemove_below below, ihl left (by omega) fun i hi => missing i (Or.inl hi)]
      exact rebalance_of_avl whole (by omega)
    · have other : a.stop ≠ stop := fun stopEq =>
        missing a.toInterval (Or.inr (Or.inl rfl)) ⟨same.symm, stopEq⟩
      rw [nodeRemove_mismatch same other]
    · rw [nodeRemove_above above,
        ihr right (by omega) fun i hi => missing i (Or.inr (Or.inr hi))]
      exact rebalance_of_avl whole (by omega)

/-- A removal without a match returns `false` and changes nothing. -/
theorem vmaTreeRemove_missing (wf : tree.WellFormed) (few : tree.root.size ≤ vmaMaxNodes)
    {start stop : Nat}
    (missing : ∀ i ∈ intervals tree.root, ¬ (i.start = start ∧ i.stop = stop)) :
    vmaTreeRemove tree pool start stop = (tree, pool, false) := by
  have result : nodeRemove tree.root start stop pool = (tree.root, false, pool) :=
    Prod.ext (nodeRemove_unchanged wf.avl few missing) (nodeRemove_missing missing pool).2
  rw [vmaTreeRemove, result]
  rfl

theorem vmaTreeRemove_wellFormed (wf : tree.WellFormed) (few : tree.root.size ≤ vmaMaxNodes)
    (ready : pool.initialized = true) (start stop : Nat) :
    (vmaTreeRemove tree pool start stop).1.WellFormed ∧
      (vmaTreeRemove tree pool start stop).2.1.initialized = true ∧
      SlotsKept tree pool (vmaTreeRemove tree pool start stop).1
        (vmaTreeRemove tree pool start stop).2.1 := by
  by_cases stored : ∃ i ∈ intervals tree.root, i.start = start ∧ i.stop = stop
  · obtain ⟨removed, ⟨before, i, after, split, -, -, rest⟩, slot, poolEq, perm⟩ :=
      nodeRemove_removed wf.ordered stored pool
    have avl := nodeRemove_avl wf.avl few start stop pool
    simp only [vmaTreeRemove, removed, if_true, poolEq]
    refine ⟨⟨avl.1, ?_, ?_⟩, ready, ?_⟩
    · have ordered := wf.ordered
      rw [split] at ordered
      rw [rest]
      exact ordered.drop
    · have whole : tree.nodeCount = (intervals tree.root).length := by
        rw [wf.count, intervals, List.length_map]
      have left : (nodeRemove tree.root start stop pool).1.toList.length =
          (before ++ after).length := by
        rw [← rest, intervals, List.length_map]
      rw [split] at whole
      have few' := few
      rw [← AvlTree.length_toList, ← wf.count, vmaMaxNodes] at few'
      rw [left]
      simp only [List.length_append, List.length_cons] at whole ⊢
      rw [u32Sub_eq (by omega) (by omega)]
      omega
    · rw [SlotsKept, available_of_initialized ready, available_of_initialized (by exact ready)]
      simp only [nodeFree, List.cons_append]
      exact List.perm_middle.symm.trans (perm.append_left _)
  · have missing : ∀ i ∈ intervals tree.root, ¬ (i.start = start ∧ i.stop = stop) :=
      fun i hi same => stored ⟨i, hi, same⟩
    rw [vmaTreeRemove_missing wf few missing]
    exact ⟨wf, ready, List.Perm.refl _⟩

theorem nodeReleaseSubtree_freeNodes (t : VmaNode) (pool : Pool) :
    (nodeReleaseSubtree t pool).freeNodes.Perm (pool.freeNodes ++ slots t) ∧
      (nodeReleaseSubtree t pool).initialized = pool.initialized := by
  induction t generalizing pool with
  | nil => exact ⟨by simp [nodeReleaseSubtree], rfl⟩
  | node h a l r ihl ihr =>
    obtain ⟨left, leftReady⟩ := ihl pool
    obtain ⟨right, rightReady⟩ := ihr (nodeReleaseSubtree l pool)
    refine ⟨?_, rightReady.trans leftReady⟩
    simp only [nodeReleaseSubtree, nodeFree, slots_node]
    rw [← List.append_assoc]
    refine List.Perm.trans ?_ List.perm_middle.symm
    exact (right.trans (left.append_right _)).cons _

theorem vmaTreeClear_wellFormed (ready : pool.initialized = true) :
    (vmaTreeClear tree pool).1.WellFormed ∧
      (vmaTreeClear tree pool).2.initialized = true ∧
      SlotsKept tree pool (vmaTreeClear tree pool).1 (vmaTreeClear tree pool).2 := by
  obtain ⟨perm, keeps⟩ := nodeReleaseSubtree_freeNodes tree.root pool
  have ready' := keeps.trans ready
  refine ⟨vmaTreeInit_wellFormed, ready', ?_⟩
  rw [SlotsKept, vmaTreeClear, available_of_initialized ready', available_of_initialized ready]
  simpa only [slots_nil, List.append_nil] using perm

end Calls

/-! ## All trees over the pool -/

/-- The invariant of the trees and the pool they share. -/
structure Vmas.Inv (v : Vmas) : Prop where
  wellFormed : ∀ id, (v.trees id).WellFormed
  parts : Partition (· < vmaMaxNodes) v.pool.available fun id => slots (v.trees id).root
  fresh : v.pool.initialized = false → ∀ id, (v.trees id).root = .nil

theorem Vmas.Inv.size_le {v : Vmas} (inv : v.Inv) (id : Nat) :
    (v.trees id).root.size ≤ vmaMaxNodes :=
  size_le_of_slots (inv.parts.held_nodup id) fun _ hk => inv.parts.mem_of_held hk

theorem Vmas.init_inv : Vmas.init.Inv where
  wellFormed _ := vmaTreeInit_wellFormed
  parts := by
    have all : Vmas.init.pool.available = (List.range vmaMaxNodes).reverse := by
      simp only [Vmas.init, Pool.available, nodePoolInit, Bool.false_eq_true, if_false]
    rw [all]
    refine Partition.of_free (List.nodup_reverse.mpr List.nodup_range) fun k => ?_
    rw [List.mem_reverse, List.mem_range]
  fresh _ _ := rfl

/-- Storing the outcome of a call on one tree. -/
theorem Vmas.Inv.setTree {v : Vmas} (inv : v.Inv) {id : Nat} {tree : VmaTree} {pool : Pool}
    (wf : tree.WellFormed) (kept : SlotsKept (v.trees id) v.pool tree pool)
    (ready : pool.initialized = true ∨ (pool = v.pool ∧ tree = v.trees id)) :
    (v.setTree id tree pool).Inv where
  wellFormed i := by
    simp only [Vmas.setTree]
    split
    · exact wf
    · exact inv.wellFormed i
  parts := by
    have moved := inv.parts.transfer kept
    have same : (fun i => slots ((v.setTree id tree pool).trees i).root) =
        fun i => if i = id then slots tree.root else slots (v.trees i).root := by
      funext i
      simp only [Vmas.setTree]
      split <;> rfl
    rw [same]
    exact moved
  fresh unset i := by
    rcases ready with ready | ⟨rfl, rfl⟩
    · simp only [Vmas.setTree, ready, Bool.true_eq_false] at unset
    · simp only [Vmas.setTree] at unset ⊢
      split
      · exact inv.fresh unset id
      · exact inv.fresh unset i

theorem vmaTreeInsert_ready {tree : VmaTree} {pool : Pool} (start stop flags : Nat) :
    (vmaTreeInsert tree pool start stop flags).2.1.initialized = true ∨
      (vmaTreeInsert tree pool start stop flags).2.1 = pool ∧
        (vmaTreeInsert tree pool start stop flags).1 = tree := by
  by_cases valid : start < stop
  · left
    cases room : pool.available with
    | nil =>
      rw [vmaTreeInsert_empty room, if_neg (by omega)]
      exact nodePoolInit_initialized pool
    | cons slot rest =>
      rw [vmaTreeInsert_alloc valid room]
      dsimp only
      split <;> rfl
  · right
    rw [vmaTreeInsert, if_pos (by omega)]
    exact ⟨rfl, rfl⟩

/-- **Every call keeps the invariant.** -/
theorem Vmas.Inv.exec {v : Vmas} (inv : v.Inv) (op : VmaOp) : (v.exec op).1.Inv := by
  cases op with
  | insert id start stop flags =>
    have step : (vmaTreeInsert (v.trees id) v.pool start stop flags).1.WellFormed ∧ _ :=
      vmaTreeInsert_wellFormed (inv.wellFormed id) (inv.size_le id) start stop flags
    exact inv.setTree step.1 step.2 (vmaTreeInsert_ready start stop flags)
  | remove id start stop =>
    cases ready : v.pool.initialized with
    | true =>
      obtain ⟨wf, ready', kept⟩ := vmaTreeRemove_wellFormed (inv.wellFormed id)
        (inv.size_le id) ready start stop
      exact inv.setTree wf kept (Or.inl ready')
    | false =>
      -- no call has used the pool yet, so there is nothing to remove
      have empty := inv.fresh ready id
      have same : vmaTreeRemove (v.trees id) v.pool start stop = (v.trees id, v.pool, false) :=
        vmaTreeRemove_missing (inv.wellFormed id) (inv.size_le id) (by simp [empty])
      have state : (v.exec (.remove id start stop)).1 = v.setTree id (v.trees id) v.pool := by
        simp only [Vmas.exec, same]
      rw [state]
      exact inv.setTree (inv.wellFormed id) (List.Perm.refl _) (Or.inr ⟨rfl, rfl⟩)
  | clear id =>
    cases ready : v.pool.initialized with
    | true =>
      have step : (vmaTreeClear (v.trees id) v.pool).1.WellFormed ∧ _ :=
        vmaTreeClear_wellFormed ready
      exact inv.setTree step.1 step.2.2 (Or.inl step.2.1)
    | false =>
      have empty := inv.fresh ready id
      have count := (inv.wellFormed id).count
      rw [empty] at count
      have same : vmaTreeClear (v.trees id) v.pool = (v.trees id, v.pool) := by
        rw [vmaTreeClear, empty, nodeReleaseSubtree]
        cases hv : v.trees id with
        | mk root nodeCount =>
          rw [hv] at empty count
          cases empty
          cases count
          rfl
      have state : (v.exec (.clear id)).1 = v.setTree id (v.trees id) v.pool := by
        simp only [Vmas.exec, same]
      rw [state]
      exact inv.setTree (inv.wellFormed id) (List.Perm.refl _) (Or.inr ⟨rfl, rfl⟩)

theorem Vmas.Inv.run {v : Vmas} (inv : v.Inv) (ops : List VmaOp) : (v.run ops).Inv := by
  induction ops generalizing v with
  | nil => exact inv
  | cons op ops ih => exact ih (inv.exec op)

/-- **Representation invariant of the VMA trees.**  After any sequence of
calls every tree has non-empty intervals, in order and apart, exact AVL
heights and an exact node count. -/
theorem vma_trees_wellFormed (ops : List VmaOp) (id : Nat) :
    ((Vmas.init.run ops).trees id).WellFormed :=
  (Vmas.init_inv.run ops).wellFormed id

/-- No path down a tree has more than fifteen nodes, so no recursion over one
nests deeper. -/
theorem vma_trees_shallow (ops : List VmaOp) (id : Nat) :
    ((Vmas.init.run ops).trees id).root.depth ≤ 15 := by
  have inv := Vmas.init_inv.run ops
  have avl := (inv.wellFormed id).avl
  have low := height_le_of_pool avl (inv.size_le id)
  rw [← avl.depth_eq] at low
  exact_mod_cast low

end Dfos.Vma
