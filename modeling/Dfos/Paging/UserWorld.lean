import Dfos.Lib.Matching
import Dfos.Paging.Contract
import Dfos.Paging.UserPages

/-!
# Callers of the paging interface

A world is the paging state together with what its callers know: the frames they
got from the PMM, which of them they mapped where, and the kernel pages they were
given.  A caller maps only a frame it got and that is mapped nowhere, and gives
back only a frame it got and that is mapped nowhere; a call that would break this
is not made.

Where `pae_pdpt` does not start a page, the root of the kernel space names other
data.  Then no page is mapped in the kernel space, and no kernel page is asked
for.
-/

namespace Dfos.Paging

open Dfos.Lib
open Dfos.Pmm

structure UserWorld where
  state : PagingState
  /-- The frames the callers hold. -/
  owned : Nat → Bool
  /-- The frame at each page of each space, `(space, page number)`. -/
  mapped : (Nat × Nat) ≃. Nat
  /-- The ranges of kernel pages that were allocated and not freed since. -/
  live : Finset PageRange

/-- The calls. -/
inductive UserOp where
  | configureNumaTopology (nodeCount : Nat)
  | allocFrameOnNode (preferredNode : Nat)
  | allocFramesOnNode (frameCount preferredNode : Nat)
  | freeFrame (physicalAddr : Nat)
  | createProcessSpaceOnNode (preferredNumaNode : Nat)
  | mapUserPage (space address physicalAddr flags : Nat)
  | unmapUserPage (space address : Nat)
  | destroyProcessSpace (space : Nat)
  | switchSpace (space : Nat)
  | pages (op : PageOp)

namespace UserWorld

/-- The frame is a caller's and mapped nowhere. -/
def Idle (w : UserWorld) (frame : Nat) : Prop :=
  w.owned frame = true ∧ w.mapped.symm frame = none

instance (w : UserWorld) (frame : Nat) : Decidable (w.Idle frame) :=
  inferInstanceAs (Decidable (_ ∧ _))

/-- The callers' records after a call to `paging_map_user_page` returned. -/
def noteMap (w : UserWorld) (state : PagingState) (space address physicalAddr : Nat)
    (idle : w.Idle (physicalAddr / pageSize)) (done : Bool) : UserWorld :=
  { w with
    state := state
    mapped := if done then
        Matching.put w.mapped (space, address / pageSize) (physicalAddr / pageSize) idle.2
      else w.mapped }

/-- The callers' records after a page was unmapped. -/
def noteUnmap (w : UserWorld) (state : PagingState) (space address : Nat) : UserWorld :=
  { w with
    state := state
    mapped := Matching.keep w.mapped fun place => place ≠ (space, address / pageSize) }

/-- The callers' records after a space was destroyed: the frames it still had
mapped are no longer theirs. -/
def noteDestroy (w : UserWorld) (state : PagingState) (space : Nat) : UserWorld :=
  { w with
    state := state
    owned := fun frame => w.owned frame && (w.mapped.symm frame).all fun place => place.1 ≠ space
    mapped := Matching.keep w.mapped fun place => place.1 ≠ space }

variable (layout : Layout)

/-- The root of the space names its PDPT. -/
def Rooted (w : UserWorld) (space : Nat) : Prop :=
  w.state.kernelSpace = some space → pageSize ∣ layout.pdpt

instance (w : UserWorld) (space : Nat) : Decidable (w.Rooted layout space) :=
  inferInstanceAs (Decidable (_ → _))

def exec (w : UserWorld) : UserOp → Except Panic UserWorld
  | .configureNumaTopology nodeCount =>
    .ok { w with state := { w.state with
      pmm := (pmmConfigureNumaTopology w.state.pmm nodeCount).1 } }
  | .allocFrameOnNode preferredNode =>
    let (pmm, found) := pmmAllocFrameOnNode w.state.pmm preferredNode
    .ok { w with
      state := { w.state with pmm := pmm }
      owned := fun frame => w.owned frame || found = some (frame * pageSize) }
  | .allocFramesOnNode frameCount preferredNode =>
    let (pmm, found) := pmmAllocFramesOnNode w.state.pmm frameCount preferredNode
    .ok { w with
      state := { w.state with pmm := pmm }
      owned := fun frame => w.owned frame || found.any fun address =>
        address / pageSize ≤ frame && frame < address / pageSize + frameCount }
  | .freeFrame physicalAddr =>
    if w.Idle (physicalAddr / pageSize) then
      .ok { w with
        state := { w.state with pmm := pmmFreeFrame w.state.pmm physicalAddr }
        owned := fun frame => w.owned frame && frame ≠ physicalAddr / pageSize }
    else .ok w
  | .createProcessSpaceOnNode preferredNumaNode => do
    let (state, _) ← w.state.pagingCreateProcessSpaceOnNode layout preferredNumaNode
    return { w with state := state }
  | .mapUserPage space address physicalAddr flags =>
    if idle : w.Idle (physicalAddr / pageSize) then
      if w.Rooted layout space then do
        let (state, done) ← w.state.pagingMapUserPage layout space address physicalAddr flags
        return w.noteMap state space address physicalAddr idle done
      else .ok w
    else .ok w
  | .unmapUserPage space address =>
    if w.Rooted layout space then do
      let (state, _) ← w.state.pagingUnmapUserPage layout space address
      return w.noteUnmap state space address
    else .ok w
  | .destroyProcessSpace space => do
    let (state, _) ← w.state.pagingDestroyProcessSpace layout space
    -- a space that is not in use and the kernel space are left as they are
    if (w.state.pagingSpaces space).inUse = false ∨ w.state.kernelSpace = some space then
      return { w with state := state }
    return w.noteDestroy state space
  | .switchSpace space => .ok { w with state := w.state.pagingSwitchSpace (some space) }
  | .pages op =>
    if pageSize ∣ layout.pdpt then do
      let allocator ← (Allocator.mk w.state w.live).exec layout op
      return { w with state := allocator.state, live := allocator.live }
    else .ok w

def run (w : UserWorld) : List UserOp → Except Panic UserWorld
  | [] => .ok w
  | op :: ops => do
    let w ← w.exec layout op
    w.run ops

/-- The world after `pmm_init` and `paging_init`. -/
def boot (memory : WordMemory) (pmm : PmmState) : UserWorld where
  state := pagingInit layout memory pmm
  owned _ := false
  mapped := ⊥
  live := ∅

end UserWorld

end Dfos.Paging
