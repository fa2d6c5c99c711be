import Dfos.Paging.UserBoot

/-!
# Isolation of the process spaces

What a lookup in a space shows is a function of the callers' records for that
space and of the kernel's half, which all spaces share.
-/

namespace Dfos.Paging

open Dfos.Lib
open Dfos.Pmm

/-- The call maps or unmaps a page of the space. -/
def UserOp.On (space : Nat) : UserOp → Prop
  | .mapUserPage k _ _ _ => k = space
  | .unmapUserPage k _ => k = space
  | _ => False

namespace UserWorld

/-- A space in use whose root names its PDPT: a process space, or the kernel space
where `pae_pdpt` starts a page. -/
def Visible (layout : Layout) (w : UserWorld) (space : Nat) : Prop :=
  (w.state.pagingSpaces space).inUse = true ∧ w.Rooted layout space

/-- What a space shows at an address: the kernel's half, the identity map of the
kernel space, and what the callers mapped. -/
def view (layout : Layout) (w : UserWorld) (space a : Nat) : Except Panic (Option Nat) :=
  if kernelVma ≤ a then kernelWalk layout w.state.memory a
  else if w.state.kernelSpace = some space ∧ a < pagingUserBase then .ok (some a)
  else .ok ((w.mapped (space, a / pageSize)).map fun f => f * pageSize + a % pageSize)

variable {layout : Layout} {all : Set Nat} {w w' : UserWorld} {tree tree' : Trees Nat}
  {space other a : Nat}

/-- **A lookup shows the view.** -/
theorem Inv.lookup (inv : w.Inv layout all tree) (visible : w.Visible layout space)
    (small : a < 2 ^ 32) : w.state.pagingLookupPhysical layout space a = w.view layout space a := by
  obtain ⟨r, root⟩ := inv.tables.root_of_inUse visible.1 visible.2
  unfold view
  split
  · next above => exact inv.tables.lookup_kernel root above small
  next below =>
  have below := Nat.lt_of_not_le below
  split
  · next identity =>
      obtain rfl : space = 0 := Option.some.inj (identity.1.symm.trans inv.tables.kernelSpace)
      exact inv.tables.lookup_identity inv.static root identity.2
  next user =>
  by_cases kernel : w.state.kernelSpace = some space
  · apply inv.tables.lookup_open root
    have above : pagingUserBase ≤ a := Nat.le_of_not_lt fun low => user ⟨kernel, low⟩
    unfold pagingAddressIsUser pagingUserLimit
    simp [above, below]
  · exact inv.tables.lookup_user ⟨visible.1, kernel⟩ below

/-- A call on another space does not change the view. -/
theorem Inv.view_served (inv : w.Inv layout all tree) (clear : layout.Clear all)
    (served : Served layout all w.state w'.state)
    (same : ∀ n, w'.mapped (space, n) = w.mapped (space, n)) (a : Nat) :
    w'.view layout space a = w.view layout space a := by
  unfold view
  rw [inv.half.walk_still inv.tables.direct clear served.still, served.kernelSpace, same]

/-- A call on a space that goes through leaves the lookups of the others. -/
theorem Inv.lookup_served (inv : w.Inv layout all tree) (clear : layout.Clear all)
    (inv' : w'.Inv layout all tree') (served : Served layout all w.state w'.state)
    (visible : w.Visible layout space)
    (same : ∀ n, w'.mapped (space, n) = w.mapped (space, n)) (small : a < 2 ^ 32) :
    w'.state.pagingLookupPhysical layout space a = w.state.pagingLookupPhysical layout space a := by
  have visible' : w'.Visible layout space := by
    unfold Visible Rooted at visible ⊢
    rw [served.pagingSpaces, served.kernelSpace]
    exact visible
  rw [inv.lookup visible small, inv'.lookup visible' small, inv.view_served clear served same]

theorem noteMap_other {physicalAddr : Nat} {s' : PagingState}
    {idle : w.Idle (physicalAddr / pageSize)} {address : Nat} {done : Bool} (away : other ≠ space)
    (n : Nat) :
    (w.noteMap s' space address physicalAddr idle done).mapped (other, n) = w.mapped (other, n) := by
  unfold noteMap
  dsimp only
  split
  · exact Matching.put_other fun same => away (congrArg Prod.fst same)
  · rfl

theorem noteUnmap_other {s' : PagingState} {address : Nat} (away : other ≠ space) (n : Nat) :
    (w.noteUnmap s' space address).mapped (other, n) = w.mapped (other, n) :=
  Matching.keep_in (decide_eq_true fun same => away (congrArg Prod.fst same))

/-- **A call on a page of a space**, when it returns, leaves the records of the
other spaces. -/
theorem Inv.exec_on (inv : w.Inv layout all tree) (clear : layout.Clear all) {op : UserOp}
    (on : op.On space) (done : w.exec layout op = .ok w') :
    (∃ tree', w'.Inv layout all tree') ∧ Served layout all w.state w'.state ∧
      ∀ k n, k ≠ space → w'.mapped (k, n) = w.mapped (k, n) := by
  have nothing : w = w' → (∃ tree', w'.Inv layout all tree') ∧
      Served layout all w.state w'.state ∧
      ∀ k n, k ≠ space → w'.mapped (k, n) = w.mapped (k, n) := by
    rintro rfl
    exact ⟨⟨tree, inv⟩, .refl _, fun _ _ _ => rfl⟩
  cases op with
  | mapUserPage k address physicalAddr flags =>
      obtain rfl : k = space := on
      unfold UserWorld.exec at done
      dsimp only at done
      split at done
      · next idle =>
          split at done
          · next rooted =>
              rcases inv.mapPage clear idle rooted address flags with
                ⟨panic, fails, -⟩ | ⟨s', result, tree', call, inv', served⟩
              · rw [fails] at done
                cases done
              · rw [call] at done
                obtain rfl := Except.ok.inj done
                exact ⟨⟨tree', inv'⟩, served, fun k n away => noteMap_other away n⟩
          · exact nothing (Except.ok.inj done)
      · exact nothing (Except.ok.inj done)
  | unmapUserPage k address =>
      obtain rfl : k = space := on
      unfold UserWorld.exec at done
      dsimp only at done
      split at done
      · next rooted =>
          obtain ⟨s', freed, tree', call, inv', served⟩ := inv.unmapPage clear rooted address
          rw [call] at done
          obtain rfl := Except.ok.inj done
          exact ⟨⟨tree', inv'⟩, served, fun k n away => noteUnmap_other away n⟩
      · exact nothing (Except.ok.inj done)
  | _ => exact on.elim

end UserWorld

/-! ## The contract -/

/-- What callers see of the spaces. -/
structure Isolated (layout : Layout) (w : UserWorld) : Prop where
  /-- A lookup below `KERNEL_VMA` shows the page last mapped there and not unmapped
  since. -/
  recorded : ∀ space a, w.state.Live space → a < kernelVma →
    w.state.pagingLookupPhysical layout space a =
      .ok ((w.mapped (space, a / pageSize)).map fun f => f * pageSize + a % pageSize)
  /-- Above it all spaces show the same. -/
  shared : ∀ a, kernelVma ≤ a → a < 2 ^ 32 → ∃ target, ∀ space, w.Visible layout space →
    w.state.pagingLookupPhysical layout space a = .ok target
  /-- A map or unmap in one space changes no lookup in another. -/
  others : ∀ op space w', op.On space → w.exec layout op = .ok w' →
    ∀ other a, other ≠ space → w.Visible layout other → a < 2 ^ 32 →
      w'.state.pagingLookupPhysical layout other a = w.state.pagingLookupPhysical layout other a
  /-- A map that returns false changes no lookup at all. -/
  failed : ∀ space address physicalAddr flags s', w.Idle (physicalAddr / pageSize) →
    w.Rooted layout space →
    w.state.pagingMapUserPage layout space address physicalAddr flags = .ok (s', false) →
    ∀ other a, w.Visible layout other → a < 2 ^ 32 →
      s'.pagingLookupPhysical layout other a = w.state.pagingLookupPhysical layout other a

section Contract

variable {layout : Layout} {all : Set Nat} {w : UserWorld} {tree : Trees Nat}

theorem UserWorld.Inv.isolated (inv : w.Inv layout all tree) (clear : layout.Clear all) :
    Isolated layout w where
  recorded space a live below := inv.tables.lookup_user live below
  shared a above small := by
    obtain ⟨target, walk⟩ : ∃ target, kernelWalk layout w.state.memory a = .ok target :=
      ⟨_, inv.half.walk inv.tables.direct a⟩
    refine ⟨target, fun space visible => ?_⟩
    rw [inv.lookup visible small, view, if_pos above, walk]
  others op space w' on done other a away visible small := by
    obtain ⟨⟨tree', inv'⟩, served, same⟩ := inv.exec_on clear on done
    exact inv.lookup_served clear inv' served visible (fun n => same other n away) small
  failed space address physicalAddr flags s' idle rooted call other a visible small := by
    rcases inv.mapPage clear idle rooted address flags with
      ⟨panic, fails, -⟩ | ⟨s'', result, tree', call', inv', served⟩
    · rw [fails] at call
      cases call
    · rw [call'] at call
      obtain ⟨rfl, rfl⟩ := Prod.mk.inj (Except.ok.inj call)
      exact inv.lookup_served clear inv' served visible (fun n => rfl) small

/-- **User mappings are an isolated map per space.**  In every run of the paging
interface from `paging_init` and `pmm_init`, whose callers map frames they got
from the PMM, each in one place at a time, either a page table needs a frame
beyond the direct map, and that panics, or the spaces are isolated. -/
theorem user_maps_isolated {boot : BootInfo} {pmm : PmmState} (ready : pmmInit boot = .ok pmm)
    (image : layout.InImage boot) (memory : WordMemory) (ops : List UserOp) :
    (∃ panic, (UserWorld.boot layout memory pmm).run layout ops = .error panic ∧
      UserWorld.OutOfReach pmm.freeSet panic) ∨
    ∃ w, (UserWorld.boot layout memory pmm).run layout ops = .ok w ∧ Isolated layout w := by
  rcases UserWorld.boot_run ready image memory ops with panics | ⟨w, tree, done, inv⟩
  · exact Or.inl panics
  · exact Or.inr ⟨w, done, inv.isolated (Layout.clear_of_image ready image)⟩

theorem user_maps_isolated_eightMib :
    ∃ pmm w, pmmInit imageBoot = .ok pmm ∧
      (UserWorld.boot twoMibLayout (fun _ => 0) pmm).run twoMibLayout imageCalls = .ok w ∧
      Isolated twoMibLayout w := by
  obtain ⟨pmm, ready, reachable⟩ := imageBoot_ready
  rcases user_maps_isolated ready (by decide : twoMibLayout.InImage imageBoot) (fun _ => 0)
    imageCalls with ⟨_, -, f, free, beyond, -⟩ | isolated
  · exact absurd (reachable f free) beyond
  · obtain ⟨w, done, seen⟩ := isolated
    exact ⟨pmm, w, ready, done, seen⟩

/-- **No frame is lost or has two uses**: what was free at boot is free, held, or
one table of one live space. -/
theorem frames_conserved {boot : BootInfo} {pmm : PmmState} {memory : WordMemory}
    {ops : List UserOp} (ready : pmmInit boot = .ok pmm) (image : layout.InImage boot)
    (ran : (UserWorld.boot layout memory pmm).run layout ops = .ok w) :
    ∃ tree, UserTables layout pmm.freeSet (w.Held layout) w.state tree w.mapped ∧
      ∀ f, f ∈ w.state.pmm.freeSet ↔ f ∈ pmm.freeSet ∧ ¬ (w.Held layout f ∨ tree.Holds f) := by
  obtain ⟨tree, inv⟩ := UserWorld.boot_reached ready image ran
  exact ⟨tree, inv.tables, inv.tables.spaces.stock.free⟩

theorem frames_conserved_eightMib :
    ∃ pmm w tree, (UserWorld.boot twoMibLayout (fun _ => 0) pmm).run twoMibLayout imageCalls =
        .ok w ∧
      UserTables twoMibLayout pmm.freeSet (w.Held twoMibLayout) w.state tree w.mapped := by
  obtain ⟨pmm, w, -, ready, ran, -⟩ := imageBoot_runs imageCalls
  obtain ⟨tree, tables, -⟩ := frames_conserved ready (by decide : twoMibLayout.InImage imageBoot) ran
  exact ⟨pmm, w, tree, ran, tables⟩

end Contract

end Dfos.Paging
