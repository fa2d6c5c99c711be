import Dfos.Vma.Tree

/-!
# Rebalancing keeps the tree an AVL tree

`rebalance` is called on the way up of every insertion and removal, with two
AVL children whose heights differ by at most two.  `rebalance_spec` says what
it then returns; `nodeInsert_avl` and `nodeRemove_avl` follow by induction on
the tree.  The `int8_t` narrowing is harmless as long as heights are small,
and they are because the pool bounds the number of nodes
(`height_le_of_pool`).
-/

namespace Dfos.Vma

open Dfos.Lib

/-! ## One rotation -/

/-- Below the `int8_t` range the refreshed height is one more than the larger
child's. -/
theorem nodeRefreshHeight_eq {h : Int} {a : Area} {l r : VmaNode}
    (left : l.Avl) (right : r.Avl)
    (leftSmall : l.storedHeight ≤ 100) (rightSmall : r.storedHeight ≤ 100) :
    nodeRefreshHeight (.node h a l r) =
      .node (1 + max l.storedHeight r.storedHeight) a l r := by
  have leftNonneg := left.height_nonneg
  have rightNonneg := right.height_nonneg
  rw [nodeRefreshHeight, nodeHeight, nodeHeight, toInt8_eq (by omega) (by omega)]

/-- Two AVL trees of like heights make one around `a`, whatever height was stored. -/
theorem nodeRefreshHeight_avl {l r : VmaNode} (h : Int) (a : Area) (left : l.Avl) (right : r.Avl)
    (small : l.storedHeight ≤ 100 ∧ r.storedHeight ≤ 100)
    (like : l.storedHeight - r.storedHeight ≤ 1 ∧ r.storedHeight - l.storedHeight ≤ 1) :
    (nodeRefreshHeight (.node h a l r)).Avl ∧
      (nodeRefreshHeight (.node h a l r)).storedHeight = 1 + max l.storedHeight r.storedHeight ∧
      (nodeRefreshHeight (.node h a l r)).toList = l.toList ++ a :: r.toList := by
  rw [nodeRefreshHeight_eq left right small.1 small.2]
  exact ⟨⟨rfl, like.1, like.2, left, right⟩, rfl, rfl⟩

/-- What `rebalance` may return on children `l` and `r` around `a`: the same
items in an AVL tree that is at most as high as the plain node, and at most one
lower. -/
structure Rebalanced (l : VmaNode) (a : Area) (r t : VmaNode) : Prop where
  avl : t.Avl
  toList : t.toList = l.toList ++ a :: r.toList
  low : max l.storedHeight r.storedHeight ≤ t.storedHeight
  high : t.storedHeight ≤ 1 + max l.storedHeight r.storedHeight

theorem Rebalanced.of_avl {l r t L R : VmaNode} {a b : Area}
    (join : t.Avl ∧ t.storedHeight = 1 + max L.storedHeight R.storedHeight ∧
      t.toList = L.toList ++ b :: R.toList)
    (items : L.toList ++ b :: R.toList = l.toList ++ a :: r.toList)
    (low : max l.storedHeight r.storedHeight ≤ 1 + max L.storedHeight R.storedHeight)
    (high : max L.storedHeight R.storedHeight ≤ max l.storedHeight r.storedHeight) :
    Rebalanced l a r t :=
  ⟨join.1, join.2.2.trans items, by omega, by omega⟩

/-- A left subtree that is two higher is rotated to the right, after a rotation
of the subtree itself when its inner child is the higher one. -/
theorem rebalance_leftHeavy {h : Int} {a : Area} {l r : VmaNode}
    (left : l.Avl) (right : r.Avl) (small : l.storedHeight ≤ 100)
    (heavy : l.storedHeight = r.storedHeight + 2) :
    Rebalanced l a r (rebalance (.node h a l r)) := by
  have rightNonneg := right.height_nonneg
  rw [rebalance, nodeRefreshHeight_eq left right small (by omega)]
  have balance : nodeHeight l - nodeHeight r > 1 := by
    simp only [nodeHeight]
    omega
  simp only [rebalanceRefreshed, nodeBalanceFactor, balance, if_true]
  cases l with
  | nil => simp only [AvlTree.storedHeight_nil] at heavy; omega
  | node hl b ll lr =>
    obtain ⟨leftExact, outerHigh, innerHigh, outer, inner⟩ := left
    simp only [AvlTree.storedHeight_node] at heavy small
    have outerNonneg := outer.height_nonneg
    have innerNonneg := inner.height_nonneg
    by_cases zigzag : ll.storedHeight - lr.storedHeight < 0
    · -- the inner child is higher: it becomes the root
      simp only [nodeHeight, zigzag, if_true]
      cases lr with
      | nil => simp only [AvlTree.storedHeight_nil] at zigzag; omega
      | node hm c ml mr =>
        obtain ⟨innerExact, mlHigh, mrHigh, mlAvl, mrAvl⟩ := inner
        have mlNonneg := mlAvl.height_nonneg
        have mrNonneg := mrAvl.height_nonneg
        simp only [AvlTree.storedHeight_node] at *
        obtain ⟨lower, lowerHigh, lowerList⟩ :=
          nodeRefreshHeight_avl hl b outer mlAvl (by omega) (by omega)
        obtain ⟨upper, upperHigh, upperList⟩ :=
          nodeRefreshHeight_avl (1 + max hl r.storedHeight) a mrAvl right (by omega) (by omega)
        rw [rotateLeft, nodeRefreshHeight_eq lower mrAvl (by omega) (by omega)]
        exact .of_avl (nodeRefreshHeight_avl 0 c lower upper (by omega) (by omega))
          (by simp [lowerList, upperList]) (by simp only [AvlTree.storedHeight_node]; omega)
          (by simp only [AvlTree.storedHeight_node]; omega)
    · simp only [nodeHeight, AvlTree.storedHeight_node, zigzag, if_false]
      obtain ⟨upper, upperHigh, upperList⟩ :=
        nodeRefreshHeight_avl (1 + max hl r.storedHeight) a inner right (by omega) (by omega)
      exact .of_avl (nodeRefreshHeight_avl hl b outer upper (by omega) (by omega))
        (by simp [upperList]) (by simp only [AvlTree.storedHeight_node]; omega)
        (by simp only [AvlTree.storedHeight_node]; omega)

/-- The mirror image of `rebalance_leftHeavy`. -/
theorem rebalance_rightHeavy {h : Int} {a : Area} {l r : VmaNode}
    (left : l.Avl) (right : r.Avl) (small : r.storedHeight ≤ 100)
    (heavy : r.storedHeight = l.storedHeight + 2) :
    Rebalanced l a r (rebalance (.node h a l r)) := by
  have leftNonneg := left.height_nonneg
  rw [rebalance, nodeRefreshHeight_eq left right (by omega) small]
  have notLeft : ¬ nodeHeight l - nodeHeight r > 1 := by
    simp only [nodeHeight]
    omega
  have balance : nodeHeight l - nodeHeight r < -1 := by
    simp only [nodeHeight]
    omega
  simp only [rebalanceRefreshed, nodeBalanceFactor, notLeft, balance, if_true, if_false]
  cases r with
  | nil => simp only [AvlTree.storedHeight_nil] at heavy; omega
  | node hr b rl rr =>
    obtain ⟨rightExact, innerHigh, outerHigh, inner, outer⟩ := right
    simp only [AvlTree.storedHeight_node] at heavy small
    have innerNonneg := inner.height_nonneg
    have outerNonneg := outer.height_nonneg
    by_cases zigzag : rl.storedHeight - rr.storedHeight > 0
    · simp only [nodeHeight, zigzag, if_true]
      cases rl with
      | nil => simp only [AvlTree.storedHeight_nil] at zigzag; omega
      | node hm c ml mr =>
        obtain ⟨innerExact, mlHigh, mrHigh, mlAvl, mrAvl⟩ := inner
        have mlNonneg := mlAvl.height_nonneg
        have mrNonneg := mrAvl.height_nonneg
        simp only [AvlTree.storedHeight_node] at *
        obtain ⟨lower, lowerHigh, lowerList⟩ :=
          nodeRefreshHeight_avl hr b mrAvl outer (by omega) (by omega)
        obtain ⟨upper, upperHigh, upperList⟩ :=
          nodeRefreshHeight_avl (1 + max l.storedHeight hr) a left mlAvl (by omega) (by omega)
        rw [rotateRight, nodeRefreshHeight_eq mlAvl lower (by omega) (by omega)]
        exact .of_avl (nodeRefreshHeight_avl 0 c upper lower (by omega) (by omega))
          (by simp [lowerList, upperList]) (by simp only [AvlTree.storedHeight_node]; omega)
          (by simp only [AvlTree.storedHeight_node]; omega)
    · simp only [nodeHeight, AvlTree.storedHeight_node, zigzag, if_false]
      obtain ⟨upper, upperHigh, upperList⟩ :=
        nodeRefreshHeight_avl (1 + max l.storedHeight hr) a left inner (by omega) (by omega)
      exact .of_avl (nodeRefreshHeight_avl hr b upper outer (by omega) (by omega))
        (by simp [upperList]) (by simp only [AvlTree.storedHeight_node]; omega)
        (by simp only [AvlTree.storedHeight_node]; omega)

/-- Children that are already in balance are only given their height. -/
theorem rebalance_balanced {h : Int} {a : Area} {l r : VmaNode}
    (left : l.Avl) (right : r.Avl)
    (leftSmall : l.storedHeight ≤ 100) (rightSmall : r.storedHeight ≤ 100)
    (leftHigh : l.storedHeight - r.storedHeight ≤ 1)
    (rightHigh : r.storedHeight - l.storedHeight ≤ 1) :
    rebalance (.node h a l r) =
      .node (1 + max l.storedHeight r.storedHeight) a l r := by
  rw [rebalance, nodeRefreshHeight_eq left right leftSmall rightSmall]
  have notLeft : ¬ nodeHeight l - nodeHeight r > 1 := by
    simp only [nodeHeight]
    omega
  have notRight : ¬ nodeHeight l - nodeHeight r < -1 := by
    simp only [nodeHeight]
    omega
  simp only [rebalanceRefreshed, nodeBalanceFactor, notLeft, notRight, if_false]

/-- **`rebalance` on AVL children whose heights differ by at most two.** -/
theorem rebalance_spec {h : Int} {a : Area} {l r : VmaNode}
    (left : l.Avl) (right : r.Avl)
    (leftSmall : l.storedHeight ≤ 100) (rightSmall : r.storedHeight ≤ 100)
    (leftHigh : l.storedHeight - r.storedHeight ≤ 2)
    (rightHigh : r.storedHeight - l.storedHeight ≤ 2) :
    Rebalanced l a r (rebalance (.node h a l r)) := by
  by_cases leftHeavy : l.storedHeight = r.storedHeight + 2
  · exact rebalance_leftHeavy left right leftSmall leftHeavy
  by_cases rightHeavy : r.storedHeight = l.storedHeight + 2
  · exact rebalance_rightHeavy left right rightSmall rightHeavy
  rw [rebalance_balanced left right leftSmall rightSmall (by omega) (by omega)]
  exact .of_avl ⟨⟨rfl, by omega, by omega, left, right⟩, rfl, rfl⟩ rfl (by omega) le_rfl

/-- An AVL node is left as it is. -/
theorem rebalance_of_avl {h : Int} {a : Area} {l r : VmaNode}
    (avl : (AvlTree.node h a l r).Avl) (small : h ≤ 100) :
    rebalance (.node h a l r) = .node h a l r := by
  obtain ⟨exact, leftHigh, rightHigh, left, right⟩ := avl
  have leftNonneg := left.height_nonneg
  have rightNonneg := right.height_nonneg
  rw [rebalance_balanced left right (by omega) (by omega) leftHigh rightHigh, exact]

end Dfos.Vma
