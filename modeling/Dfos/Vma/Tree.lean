import Dfos.Lib.AvlTree
import Dfos.Lib.Word

/-!
# The VMA interval tree

`kernel/kernel/vma.c`: an AVL tree of address intervals whose nodes come from
one static pool of `VMA_MAX_NODES` nodes shared by all trees.

A `vma_node_t*` is a `VmaNode`, a tree owned by its parent; the node's place in
`node_pool` is kept as `slot`, so that the free list and the trees can be
compared node by node.  The `int8_t` height keeps its narrowing.
-/

namespace Dfos.Vma

open Dfos.Lib

/-- `VMA_MAX_NODES`. -/
def vmaMaxNodes : Nat := 2048

/-- What a caller stores: `[start, stop)` with its flags. -/
structure Interval where
  start : Nat
  stop : Nat
  flags : Nat
  deriving DecidableEq, Repr

/-- The data of a `vma_node_t` beside its height and links. -/
structure Area extends Interval where
  slot : Nat
  deriving DecidableEq, Repr

/-- `vma_node_t*`. -/
abbrev VmaNode := AvlTree Area

/-! ## The node pool -/

/-- `node_pool` with `free_nodes` and `pool_initialized`; the free list is
given by the slots on it, first to last. -/
structure Pool where
  initialized : Bool
  freeNodes : List Nat
  deriving DecidableEq, Repr

/-- `node_pool_init`: threads every node through `left`, last slot first. -/
def nodePoolInit (pool : Pool) : Pool :=
  if pool.initialized then pool
  else { initialized := true, freeNodes := (List.range vmaMaxNodes).reverse }

/-- `node_alloc`, returning the node's data; the caller links it with height
one and no children. -/
def nodeAlloc (pool : Pool) (start stop flags : Nat) : Option Area × Pool :=
  let pool := nodePoolInit pool
  match pool.freeNodes with
  | [] => (none, pool)
  | slot :: rest =>
      (some { start := start, stop := stop, flags := flags, slot := slot },
        { pool with freeNodes := rest })

/-- `node_free`. -/
def nodeFree (slot : Nat) (pool : Pool) : Pool :=
  { pool with freeNodes := slot :: pool.freeNodes }

/-! ## Heights and rotations -/

/-- `node_height`. -/
def nodeHeight (node : VmaNode) : Int := node.storedHeight

/-- `node_refresh_height`. -/
def nodeRefreshHeight : VmaNode → VmaNode
  | .nil => .nil
  | .node _ a left right =>
      .node (toInt8 (1 + max (nodeHeight left) (nodeHeight right))) a left right

/-- `node_balance_factor`. -/
def nodeBalanceFactor : VmaNode → Int
  | .nil => 0
  | .node _ _ left right => nodeHeight left - nodeHeight right

/-- `rotate_right`.  The source dereferences the left child, which every caller
has checked to be there. -/
def rotateRight : VmaNode → VmaNode
  | .node h a (.node hp p pl pr) right =>
      nodeRefreshHeight (.node hp p pl (nodeRefreshHeight (.node h a pr right)))
  | node => node

/-- `rotate_left`, dually. -/
def rotateLeft : VmaNode → VmaNode
  | .node h a left (.node hp p pl pr) =>
      nodeRefreshHeight (.node hp p (nodeRefreshHeight (.node h a left pl)) pr)
  | node => node

/-- The part of `rebalance` after the height has been refreshed. -/
def rebalanceRefreshed : VmaNode → VmaNode
  | .nil => .nil
  | .node h a left right =>
      let balance := nodeBalanceFactor (.node h a left right)
      if balance > 1 then
        if nodeBalanceFactor left < 0 then rotateRight (.node h a (rotateLeft left) right)
        else rotateRight (.node h a left right)
      else if balance < -1 then
        if nodeBalanceFactor right > 0 then rotateLeft (.node h a left (rotateRight right))
        else rotateLeft (.node h a left right)
      else .node h a left right

/-- `rebalance`. -/
def rebalance (node : VmaNode) : VmaNode := rebalanceRefreshed (nodeRefreshHeight node)

/-! ## Insertion and removal -/

/-- `node_insert`, with the final value of `*inserted`. -/
def nodeInsert (node : Area) : VmaNode → VmaNode × Bool
  | .nil => (.node 1 node .nil .nil, true)
  | .node h a left right =>
      if node.stop ≤ a.start then
        let (left', inserted) := nodeInsert node left
        if inserted then (rebalance (.node h a left' right), true)
        else (.node h a left' right, false)
      else if node.start ≥ a.stop then
        let (right', inserted) := nodeInsert node right
        if inserted then (rebalance (.node h a left right'), true)
        else (.node h a left right', false)
      else (.node h a left right, false)

/-- `node_leftmost`, returning the node's data. -/
def nodeLeftmost : VmaNode → Option Area
  | .nil => none
  | .node _ a .nil _ => some a
  | .node _ _ left _ => nodeLeftmost left

/-- `node_remove`, with the final value of `*removed` and the pool after every
`node_free`. -/
def nodeRemove : VmaNode → Nat → Nat → Pool → VmaNode × Bool × Pool
  | .nil, _, _, pool => (.nil, false, pool)
  | .node h a left right, start, stop, pool =>
      if start < a.start then
        let (left', removed, pool) := nodeRemove left start stop pool
        (rebalance (.node h a left' right), removed, pool)
      else if start > a.start then
        let (right', removed, pool) := nodeRemove right start stop pool
        (rebalance (.node h a left right'), removed, pool)
      else if a.stop ≠ stop then (.node h a left right, false, pool)
      else
        match left, nodeLeftmost right with
        | .nil, _ => (right, true, nodeFree a.slot pool)
        | left, none => (left, true, nodeFree a.slot pool)
        | left, some successor =>
            -- the successor's interval moves into this node, its own node goes
            let a' : Area := { toInterval := successor.toInterval, slot := a.slot }
            let (right', _, pool) := nodeRemove right successor.start successor.stop pool
            (rebalance (.node h a' left right'), true, pool)

/-- `node_release_subtree`. -/
def nodeReleaseSubtree : VmaNode → Pool → Pool
  | .nil, pool => pool
  | .node _ a left right, pool =>
      nodeFree a.slot (nodeReleaseSubtree right (nodeReleaseSubtree left pool))

/-! ## The tree interface -/

/-- `vma_tree_t`. -/
structure VmaTree where
  root : VmaNode
  nodeCount : Nat
  deriving DecidableEq, Repr

/-- `vma_tree_init`. -/
def vmaTreeInit : VmaTree := { root := .nil, nodeCount := 0 }

/-- `vma_tree_clear`. -/
def vmaTreeClear (tree : VmaTree) (pool : Pool) : VmaTree × Pool :=
  ({ root := .nil, nodeCount := 0 }, nodeReleaseSubtree tree.root pool)

/-- `vma_tree_insert`. -/
def vmaTreeInsert (tree : VmaTree) (pool : Pool) (start stop flags : Nat) :
    VmaTree × Pool × Bool :=
  if stop ≤ start then (tree, pool, false)
  else
    match nodeAlloc pool start stop flags with
    | (none, pool) => (tree, pool, false)
    | (some node, pool) =>
        let (root, inserted) := nodeInsert node tree.root
        if inserted then
          ({ root := root, nodeCount := u32Add tree.nodeCount 1 }, pool, true)
        else ({ tree with root := root }, nodeFree node.slot pool, false)

/-- `vma_tree_remove`. -/
def vmaTreeRemove (tree : VmaTree) (pool : Pool) (start stop : Nat) :
    VmaTree × Pool × Bool :=
  let (root, removed, pool) := nodeRemove tree.root start stop pool
  ({ root := root, nodeCount := if removed then u32Sub tree.nodeCount 1 else tree.nodeCount },
    pool, removed)

/-- The descent of `vma_tree_find`. -/
def nodeFind : VmaNode → Nat → Option Interval
  | .nil, _ => none
  | .node _ a left right, address =>
      if address < a.start then nodeFind left address
      else if address ≥ a.stop then nodeFind right address
      else some a.toInterval

/-- `vma_tree_find`: `none` is the return value `false`, `some` carries what is
written through the three output pointers. -/
def vmaTreeFind (tree : VmaTree) (address : Nat) : Option Interval :=
  nodeFind tree.root address

/-- `vma_tree_first`. -/
def vmaTreeFirst (tree : VmaTree) : Option Interval :=
  (nodeLeftmost tree.root).map Area.toInterval

/-! ## Trees over one pool -/

/-- All trees of the kernel with the pool they share.  A tree that is never
used stays as `vma_tree_init` left it. -/
structure Vmas where
  pool : Pool
  trees : Nat → VmaTree

/-- One call on one of the trees. -/
inductive VmaOp where
  | insert (tree start stop flags : Nat)
  | remove (tree start stop : Nat)
  | clear (tree : Nat)
  deriving DecidableEq, Repr

/-- The static pool before its first use, and every tree initialised once. -/
def Vmas.init : Vmas where
  pool := { initialized := false, freeNodes := [] }
  trees := fun _ => vmaTreeInit

/-- Store a tree. -/
def Vmas.setTree (v : Vmas) (id : Nat) (tree : VmaTree) (pool : Pool) : Vmas where
  pool := pool
  trees := fun i => if i = id then tree else v.trees i

/-- One call with its return value (`true` for `vma_tree_clear`). -/
def Vmas.exec (v : Vmas) : VmaOp → Vmas × Bool
  | .insert id start stop flags =>
      let (tree, pool, ok) := vmaTreeInsert (v.trees id) v.pool start stop flags
      (v.setTree id tree pool, ok)
  | .remove id start stop =>
      let (tree, pool, ok) := vmaTreeRemove (v.trees id) v.pool start stop
      (v.setTree id tree pool, ok)
  | .clear id =>
      let (tree, pool) := vmaTreeClear (v.trees id) v.pool
      (v.setTree id tree pool, true)

/-- A sequence of calls. -/
def Vmas.run (v : Vmas) (ops : List VmaOp) : Vmas :=
  ops.foldl (fun v op => (v.exec op).1) v

end Dfos.Vma
