import Dfos.Lib.Bitmap
import Dfos.Lib.Word

/-!
# The physical frame allocator

A model of `pmm.c`.  The allocator keeps a bitmap with one bit per 4 KiB frame
(a set bit is a taken frame), a global and a per-node count of free frames, and
three kinds of cursor.  Every entry point runs under `pmm_state_lock`, so a call
is one step.  A `NULL` output pointer makes an allocation return false before
anything else happens and is left out.

Frame numbers and addresses are `uint32_t` in the source.  Node ranges lie in
`[0, total_frames)` with `total_frames ≤ 2^20`, so only `frame + i` of
`pmm_free_frames` and the conversion of a frame to an address are reduced here.
-/

namespace Dfos.Pmm

open Dfos.Lib

def pageSize : Nat := 4096

def pmmMaxNumaNodes : Nat := 8

def pmmNumaNodeAny : Nat := 0xFF

/-- `pmm_numa_node_t`. -/
structure NumaNode where
  firstFrame : Nat
  frameCount : Nat
  freeFrames : Nat
  nextScanFrame : Nat
  deriving Repr, DecidableEq

/-- The end of a node's range. -/
def NumaNode.endFrame (node : NumaNode) : Nat := node.firstFrame + node.frameCount

/-- The static variables of `pmm.c`.  `mapped` says that `frame_bitmap` is no
longer `NULL`. -/
structure PmmState where
  mapped : Bool
  frameBitmap : Bitmap
  totalFrames : Nat
  freeFrames : Nat
  totalMemoryKib : Nat
  bitmapEndPhys : Nat
  initialized : Bool
  numaNodes : Nat → NumaNode
  activeNumaNodeCount : Nat
  roundRobinNumaNode : Nat
  globalNextScanFrame : Nat

namespace PmmState

/-- The zeroed statics before `pmm_init`. -/
def zero : PmmState where
  mapped := false
  frameBitmap := fun _ => 0#8
  totalFrames := 0
  freeFrames := 0
  totalMemoryKib := 0
  bitmapEndPhys := 0
  initialized := false
  numaNodes := fun _ => ⟨0, 0, 0, 0⟩
  activeNumaNodeCount := 0
  roundRobinNumaNode := 0
  globalNextScanFrame := 0

def setNode (s : PmmState) (id : Nat) (node : NumaNode) : PmmState :=
  { s with numaNodes := fun i => if i = id then node else s.numaNodes i }

end PmmState

/-- The address `frame * PAGE_SIZE`. -/
def frameAddress (frame : Nat) : Nat := frame * pageSize % 2 ^ 32

/-- `pmm_node_contains_frame`. -/
def pmmNodeContainsFrame (node : NumaNode) (frame : Nat) : Bool :=
  if node.frameCount = 0 then false
  else decide (node.firstFrame ≤ frame) && decide (frame < node.endFrame)

/-- `pmm_node_index_for_frame`. -/
def pmmNodeIndexForFrame (s : PmmState) (frame : Nat) : Nat :=
  match (List.range s.activeNumaNodeCount).find?
      fun node => pmmNodeContainsFrame (s.numaNodes node) frame with
  | some node => node
  | none => pmmNumaNodeAny

/-! ## Layout and recount -/

/-- The first loop of `pmm_numa_reset_layout`: `left` nodes from `node` on. -/
def layoutNodes (base : Nat) :
    (left node cursor remainder : Nat) → (Nat → NumaNode) → Nat → NumaNode
  | 0, _, _, _, nodes => nodes
  | left + 1, node, cursor, remainder, nodes =>
    let frames := base + if 0 < remainder then 1 else 0
    layoutNodes base left (node + 1) (cursor + frames) (remainder - 1)
      fun i => if i = node then ⟨cursor, frames, 0, cursor⟩ else nodes i

/-- `pmm_numa_reset_layout`. -/
def pmmNumaResetLayout (s : PmmState) (nodeCount : Nat) : PmmState :=
  let nodeCount := if nodeCount = 0 then 1 else nodeCount
  let nodeCount := if pmmMaxNumaNodes < nodeCount then pmmMaxNumaNodes else nodeCount
  let laidOut := layoutNodes (s.totalFrames / nodeCount) nodeCount 0 0
    (s.totalFrames % nodeCount) s.numaNodes
  { s with
    numaNodes := fun i =>
      if nodeCount ≤ i ∧ i < pmmMaxNumaNodes then ⟨0, 0, 0, 0⟩ else laidOut i
    activeNumaNodeCount := nodeCount
    roundRobinNumaNode :=
      if nodeCount ≤ s.roundRobinNumaNode then 0 else s.roundRobinNumaNode
    globalNextScanFrame :=
      if s.totalFrames ≤ s.globalNextScanFrame then 0 else s.globalNextScanFrame }

/-- The inner loop of the recount: the free frames among `left` frames from
`frame` on. -/
def countFree (bitmap : Bitmap) : (left frame : Nat) → Nat
  | 0, _ => 0
  | left + 1, frame =>
    (if bitmap.test frame then 0 else 1) + countFree bitmap left (frame + 1)

/-- One node of the recount. -/
def recountNode (bitmap : Bitmap) (node : NumaNode) : NumaNode :=
  { node with
    freeFrames := countFree bitmap node.frameCount node.firstFrame
    nextScanFrame :=
      if pmmNodeContainsFrame node node.nextScanFrame then node.nextScanFrame
      else node.firstFrame }

/-- The outer loop of the recount: `left` nodes from `node` on. -/
def recountNodes : (left node : Nat) → PmmState → Nat → PmmState
  | 0, _, s, totalFree => { s with freeFrames := totalFree }
  | left + 1, node, s, totalFree =>
    let counted := recountNode s.frameBitmap (s.numaNodes node)
    recountNodes left (node + 1) (s.setNode node counted) (totalFree + counted.freeFrames)

/-- `pmm_recount_numa_free_frames_locked`. -/
def pmmRecountNumaFreeFramesLocked (s : PmmState) : PmmState :=
  recountNodes s.activeNumaNodeCount 0 s 0

/-! ## Single frames -/

/-- Count one frame less, or one more, on the node that holds `frame`. -/
def adjustNode (s : PmmState) (frame : Nat) (adjust : Nat → Nat) : PmmState :=
  let node := pmmNodeIndexForFrame s frame
  if node = pmmNumaNodeAny then s
  else s.setNode node
    { s.numaNodes node with freeFrames := adjust (s.numaNodes node).freeFrames }

/-- `reserve_frame_locked`.  The guarded decrements are subtractions on `Nat`. -/
def reserveFrameLocked (s : PmmState) (frame : Nat) : PmmState × Bool :=
  if s.totalFrames ≤ frame ∨ s.frameBitmap.test frame then (s, false)
  else
    let s := { s with
      frameBitmap := s.frameBitmap.set frame
      freeFrames := s.freeFrames - 1 }
    (adjustNode s frame (· - 1), true)

/-- `release_frame_locked`. -/
def releaseFrameLocked (s : PmmState) (frame : Nat) : PmmState × Bool :=
  if s.totalFrames ≤ frame ∨ s.frameBitmap.test frame = false then (s, false)
  else
    let s := { s with
      frameBitmap := s.frameBitmap.clear frame
      freeFrames := s.freeFrames + 1 }
    (adjustNode s frame (· + 1), true)

/-- One scan loop of `pmm_find_free_frame_in_node_locked`: `left` frames from
`frame` on, reserving the first free one. -/
def scanReserve : (left frame : Nat) → PmmState → PmmState × Option Nat
  | 0, _, s => (s, none)
  | left + 1, frame, s =>
    if s.frameBitmap.test frame then scanReserve left (frame + 1) s
    else
      match reserveFrameLocked s frame with
      | (s, true) => (s, some frame)
      | (s, false) => scanReserve left (frame + 1) s

/-- The cursor at which a search of the node starts. -/
def scanCursor (node : NumaNode) : Nat :=
  if pmmNodeContainsFrame node node.nextScanFrame then node.nextScanFrame else node.firstFrame

/-- `node->next_scan_frame = frame + 1 < end ? frame + 1 : start`. -/
def advanceScan (s : PmmState) (id frame : Nat) : PmmState :=
  let node := s.numaNodes id
  s.setNode id { node with
    nextScanFrame := if frame + 1 < node.endFrame then frame + 1 else node.firstFrame }

/-- `pmm_find_free_frame_in_node_locked`. -/
def pmmFindFreeFrameInNodeLocked (s : PmmState) (id : Nat) : PmmState × Option Nat :=
  if s.activeNumaNodeCount ≤ id then (s, none)
  else
    let node := s.numaNodes id
    if node.frameCount = 0 ∨ node.freeFrames = 0 then (s, none)
    else
      let cursor := scanCursor node
      match scanReserve (node.endFrame - cursor) cursor s with
      | (s, some frame) => (advanceScan s id frame, some frame)
      | (s, none) =>
        match scanReserve (cursor - node.firstFrame) node.firstFrame s with
        | (s, some frame) => (advanceScan s id frame, some frame)
        | (s, none) => (s, none)

/-! ## Runs of frames -/

/-- The loop of `pmm_find_contiguous_free_linear_locked`: `left` frames from
`frame` on, with the run of free frames that ends there. -/
def findRun (bitmap : Bitmap) (frameCount : Nat) :
    (left frame runStart runLength : Nat) → Option Nat
  | 0, _, _, _ => none
  | left + 1, frame, runStart, runLength =>
    if bitmap.test frame then findRun bitmap frameCount left (frame + 1) runStart 0
    else
      let runStart := if runLength = 0 then frame else runStart
      if runLength + 1 = frameCount then some runStart
      else findRun bitmap frameCount left (frame + 1) runStart (runLength + 1)

/-- `pmm_find_contiguous_free_linear_locked`. -/
def pmmFindContiguousFreeLinearLocked (s : PmmState) (start stop frameCount : Nat) :
    Option Nat :=
  if stop ≤ start ∨ frameCount = 0 then none
  else if stop - start < frameCount then none
  else findRun s.frameBitmap frameCount (stop - start) start 0 0

/-- `pmm_find_contiguous_free_wrapped_locked`. -/
def pmmFindContiguousFreeWrappedLocked (s : PmmState) (start stop frameCount searchStart : Nat) :
    Option Nat :=
  if stop ≤ start ∨ frameCount = 0 then none
  else if stop - start < frameCount then none
  else
    let searchStart := if searchStart < start ∨ stop ≤ searchStart then start else searchStart
    match pmmFindContiguousFreeLinearLocked s searchStart stop frameCount with
    | some runStart => some runStart
    | none =>
      if searchStart = start then none
      else pmmFindContiguousFreeLinearLocked s start searchStart frameCount

/-- `pmm_reserve_contiguous_locked`, `left` frames from `frame` on.  A refusal
stops the loop and keeps what was reserved before it. -/
def pmmReserveContiguousLocked : (left frame : Nat) → PmmState → PmmState × Bool
  | 0, _, s => (s, true)
  | left + 1, frame, s =>
    match reserveFrameLocked s frame with
    | (s, true) => pmmReserveContiguousLocked left (frame + 1) s
    | (s, false) => (s, false)

/-- `pmm_find_contiguous_in_node_locked`. -/
def pmmFindContiguousInNodeLocked (s : PmmState) (id frameCount : Nat) :
    PmmState × Option Nat :=
  if s.activeNumaNodeCount ≤ id ∨ frameCount = 0 then (s, none)
  else
    let node := s.numaNodes id
    if node.frameCount < frameCount ∨ node.freeFrames < frameCount then (s, none)
    else
      match pmmFindContiguousFreeWrappedLocked s node.firstFrame node.endFrame frameCount
          (scanCursor node) with
      | none => (s, none)
      | some runStart =>
        match pmmReserveContiguousLocked frameCount runStart s with
        | (s, false) => (s, none)
        | (s, true) =>
          let node := s.numaNodes id
          let next := runStart + frameCount
          (s.setNode id { node with
            nextScanFrame := if node.endFrame ≤ next then node.firstFrame else next },
            some runStart)

/-! ## Ranges -/

/-- `release_frame_locked` on `left` frames from `frame` on. -/
def releaseFrames : (left frame : Nat) → PmmState → PmmState
  | 0, _, s => s
  | left + 1, frame, s => releaseFrames left (frame + 1) (releaseFrameLocked s frame).1

/-- `reserve_frame_locked` on `left` frames from `frame` on. -/
def reserveFrames : (left frame : Nat) → PmmState → PmmState
  | 0, _, s => s
  | left + 1, frame, s => reserveFrames left (frame + 1) (reserveFrameLocked s frame).1

/-- `pmm_mark_available_range`. -/
def pmmMarkAvailableRange (s : PmmState) (base length : Nat) : PmmState :=
  let startFrame := base / pageSize
  let endFrame := (base + length) / pageSize
  releaseFrames (min endFrame s.totalFrames - startFrame) startFrame s

/-- `pmm_reserve_range`. -/
def pmmReserveRange (s : PmmState) (base length : Nat) : PmmState :=
  let startFrame := base / pageSize
  let endFrame := (base + length + pageSize - 1) / pageSize
  reserveFrames (min endFrame s.totalFrames - startFrame) startFrame s

/-! ## Allocation -/

/-- The loop over the nodes in `pmm_alloc_frame_on_node` and
`pmm_alloc_frames_on_node`: `left` nodes from offset `i` on, skipping the
preferred one, until `search` finds something. -/
def searchNodes (search : PmmState → Nat → PmmState × Option Nat)
    (preferredNode startNode : Nat) : (left i : Nat) → PmmState → PmmState × Option Nat
  | 0, _, s => (s, none)
  | left + 1, i, s =>
    let node := (startNode + i) % s.activeNumaNodeCount
    if preferredNode ≠ pmmNumaNodeAny ∧ preferredNode < s.activeNumaNodeCount ∧
        node = preferredNode then
      searchNodes search preferredNode startNode left (i + 1) s
    else
      match search s node with
      | (s, none) => searchNodes search preferredNode startNode left (i + 1) s
      | (s, some frame) =>
        ({ s with roundRobinNumaNode := (node + 1) % s.activeNumaNodeCount }, some frame)

/-- The preferred node first. -/
def searchPreferred (search : PmmState → Nat → PmmState × Option Nat) (preferredNode : Nat)
    (s : PmmState) : PmmState × Option Nat :=
  if preferredNode ≠ pmmNumaNodeAny ∧ preferredNode < s.activeNumaNodeCount then
    match search s preferredNode with
    | (s, none) => (s, none)
    | (s, some frame) =>
      ({ s with roundRobinNumaNode := (preferredNode + 1) % s.activeNumaNodeCount }, some frame)
  else (s, none)

/-- The other nodes, from the round-robin one on. -/
def searchOthers (search : PmmState → Nat → PmmState × Option Nat) (preferredNode : Nat)
    (s : PmmState) : PmmState × Option Nat :=
  searchNodes search preferredNode (s.roundRobinNumaNode % s.activeNumaNodeCount)
    s.activeNumaNodeCount 0 s

/-- `pmm_alloc_frame_on_node`: the address of the frame, or `none`. -/
def pmmAllocFrameOnNode (s : PmmState) (preferredNode : Nat) : PmmState × Option Nat :=
  if s.initialized = false ∨ s.activeNumaNodeCount = 0 ∨ s.freeFrames = 0 then (s, none)
  else
    match searchPreferred pmmFindFreeFrameInNodeLocked preferredNode s with
    | (s, some frame) => (s, some (frameAddress frame))
    | (s, none) =>
      match searchOthers pmmFindFreeFrameInNodeLocked preferredNode s with
      | (s, some frame) => (s, some (frameAddress frame))
      | (s, none) => (s, none)

/-- The last block of `pmm_alloc_frames_on_node`: the global cursor and the
round-robin node move past the run. -/
def advanceGlobal (s : PmmState) (runStart frameCount : Nat) : PmmState :=
  let next := runStart + frameCount
  let s := { s with
    globalNextScanFrame := if s.totalFrames ≤ next then next % s.totalFrames else next }
  let node := pmmNodeIndexForFrame s runStart
  if node ≠ pmmNumaNodeAny ∧ 0 < s.activeNumaNodeCount then
    { s with roundRobinNumaNode := (node + 1) % s.activeNumaNodeCount }
  else s

/-- `pmm_alloc_frames_on_node`: the address of the run, or `none`. -/
def pmmAllocFramesOnNode (s : PmmState) (frameCount preferredNode : Nat) :
    PmmState × Option Nat :=
  if frameCount = 0 then (s, none)
  else if s.initialized = false ∨ s.activeNumaNodeCount = 0 ∨ s.freeFrames < frameCount then
    (s, none)
  else
    let search := fun s id => pmmFindContiguousInNodeLocked s id frameCount
    match searchPreferred search preferredNode s with
    | (s, some runStart) => (s, some (frameAddress runStart))
    | (s, none) =>
      match searchOthers search preferredNode s with
      | (s, some runStart) => (advanceGlobal s runStart frameCount, some (frameAddress runStart))
      | (s, none) =>
        match pmmFindContiguousFreeWrappedLocked s 0 s.totalFrames frameCount
            s.globalNextScanFrame with
        | none => (s, none)
        | some runStart =>
          match pmmReserveContiguousLocked frameCount runStart s with
          | (s, false) => (s, none)
          | (s, true) => (advanceGlobal s runStart frameCount, some (frameAddress runStart))

/-- `pmm_free_frame`. -/
def pmmFreeFrame (s : PmmState) (physicalAddr : Nat) : PmmState :=
  (releaseFrameLocked s (physicalAddr / pageSize)).1

/-- The loop of `pmm_free_frames`, where `frame + i` wraps at 32 bits. -/
def freeLoop (frame : Nat) : (left i : Nat) → PmmState → PmmState
  | 0, _, s => s
  | left + 1, i, s => freeLoop frame left (i + 1) (releaseFrameLocked s (u32Add frame i)).1

/-- `pmm_free_frames`. -/
def pmmFreeFrames (s : PmmState) (physicalAddr frameCount : Nat) : PmmState :=
  freeLoop (physicalAddr / pageSize) frameCount 0 s

/-- `pmm_configure_numa_topology`. -/
def pmmConfigureNumaTopology (s : PmmState) (nodeCount : Nat) : PmmState × Bool :=
  if nodeCount = 0 ∨ pmmMaxNumaNodes < nodeCount then (s, false)
  else
    let s := pmmNumaResetLayout s nodeCount
    if s.mapped ∧ 0 < s.totalFrames then (pmmRecountNumaFreeFramesLocked s, true) else (s, true)

/-- `pmm_numa_node_for_physical`. -/
def pmmNumaNodeForPhysical (s : PmmState) (physicalAddr : Nat) : Nat :=
  let frame := physicalAddr / pageSize
  if s.totalFrames ≤ frame then pmmNumaNodeAny else pmmNodeIndexForFrame s frame

/-! ## Runs of calls -/

/-- The entry points of the allocator after `pmm_init`. -/
inductive PmmOp where
  | allocFrameOnNode (preferredNode : Nat)
  | allocFramesOnNode (frameCount preferredNode : Nat)
  | freeFrame (physicalAddr : Nat)
  | freeFrames (physicalAddr frameCount : Nat)
  | reserveRange (base length : Nat)
  | markAvailableRange (base length : Nat)
  | configureNumaTopology (nodeCount : Nat)
  deriving Repr, DecidableEq

/-- One call, with the address a successful allocation returns. -/
def PmmState.exec (s : PmmState) : PmmOp → PmmState × Option Nat
  | .allocFrameOnNode preferredNode => pmmAllocFrameOnNode s preferredNode
  | .allocFramesOnNode frameCount preferredNode => pmmAllocFramesOnNode s frameCount preferredNode
  | .freeFrame physicalAddr => (pmmFreeFrame s physicalAddr, none)
  | .freeFrames physicalAddr frameCount => (pmmFreeFrames s physicalAddr frameCount, none)
  | .reserveRange base length => (pmmReserveRange s base length, none)
  | .markAvailableRange base length => (pmmMarkAvailableRange s base length, none)
  | .configureNumaTopology nodeCount => ((pmmConfigureNumaTopology s nodeCount).1, none)

def PmmState.run (s : PmmState) : List PmmOp → PmmState
  | [] => s
  | op :: ops => (s.exec op).1.run ops

end Dfos.Pmm
