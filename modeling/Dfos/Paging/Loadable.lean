import Dfos.Lib.Result
import Dfos.Paging.Aperture
import Dfos.Paging.Isolation

/-!
# The entries of a PDPT

IA-32 reserves bits 1, 2 and 5 to 8 of a PDPT entry.  `paging_init` and
`paging_create_process_space_on_node` write entries that leave them clear;
`pae_map_user_page_in_space` writes the flags of the lower levels there, which set
bits 1 and 2, as soon as it has a directory to enter.
-/

namespace Dfos.Paging

open Dfos.Lib
open Dfos.Pmm

/-- The bits of a PDPT entry that IA-32 reserves. -/
def pdpteReserved : Nat := 0x1E6

/-- Loading CR3 with the root of the space does not fault over a reserved bit. -/
def PagingState.Loadable (s : PagingState) (space : Nat) : Prop :=
  ∀ i < paePdptEntries,
    Present (s.memory (WordMemory.word (s.pagingSpaces space).rootPhysical i)) →
    s.memory (WordMemory.word (s.pagingSpaces space).rootPhysical i) &&& pdpteReserved = 0

namespace UserWorld

variable (layout : Layout)

/-- The arguments pass the checks of `paging_map_user_page`. -/
structure Accepts (w : UserWorld) (space address physicalAddr : Nat) : Prop where
  idle : w.Idle (physicalAddr / pageSize)
  rooted : w.Rooted layout space
  inUse : (w.state.pagingSpaces space).inUse = true
  user : pagingAddressIsUser address = true
  pages : address &&& 0xFFF = 0 ∧ physicalAddr &&& 0xFFF = 0

/-- A map that is refused, or that finds no frame for the directory it needs. -/
def Harmless (w : UserWorld) : UserOp → Prop
  | .mapUserPage space address physicalAddr _ => w.Accepts layout space address physicalAddr →
      w.state.pmm.freeSet = ∅ ∧ ¬ (w.state.kernelSpace = some space ∧ paePdptIndexOf address = 0)
  | _ => True

/-- Every space may be loaded. -/
def AllLoadable (w : UserWorld) : Prop := ∀ space, w.Visible layout space → w.state.Loadable space

/-- In every state of the run every space may be loaded. -/
def LoadableRun (w : UserWorld) : List UserOp → Prop
  | [] => w.AllLoadable layout
  | op :: ops => w.AllLoadable layout ∧
      ∀ w', w.exec layout op = .ok w' → w'.LoadableRun ops

variable {layout} in
theorem LoadableRun.start {w : UserWorld} {ops : List UserOp} (run : w.LoadableRun layout ops) :
    w.AllLoadable layout := by
  cases ops with
  | nil => exact run
  | cons op ops => exact run.1

variable {layout} in
theorem LoadableRun.finish {w w' : UserWorld} {ops : List UserOp} (run : w.LoadableRun layout ops)
    (done : w.run layout ops = .ok w') : w'.AllLoadable layout := by
  induction ops generalizing w with
  | nil =>
      obtain rfl := Except.ok.inj done
      exact run
  | cons op ops ih =>
      obtain ⟨w₁, first, rest⟩ := bind_ok_iff.mp done
      exact ih (run.2 w₁ first) rest

variable {layout} in
theorem run_concat {w w₁ w₂ : UserWorld} {ops : List UserOp} {op : UserOp}
    (ran : w.run layout ops = .ok w₁) (last : w₁.exec layout op = .ok w₂) :
    w.run layout (ops ++ [op]) = .ok w₂ := by
  induction ops generalizing w with
  | nil =>
      obtain rfl := Except.ok.inj ran
      exact bind_ok_iff.mpr ⟨w₂, last, rfl⟩
  | cons op ops ih =>
      obtain ⟨w', first, rest⟩ := bind_ok_iff.mp ran
      exact bind_ok_iff.mpr ⟨w', first, ih rest⟩

/-- Every map of the run is harmless when it is made. -/
def HarmlessRun (w : UserWorld) : List UserOp → Prop
  | [] => True
  | op :: ops => w.Harmless layout op ∧
      ∀ w', w.exec layout op = .ok w' → w'.HarmlessRun ops

end UserWorld

/-! ## While no page is mapped -/

section Bare

variable {layout : Layout} {all : Set Nat} {w w' : UserWorld} {tree tree' : Trees Nat}

/-- No space has a directory, but for the identity directory of the kernel space. -/
structure Bare (w : UserWorld) (tree : Trees Nat) : Prop where
  unmapped : w.mapped = ⊥
  directories : ∀ k i, tree k [i] ≠ none → k = 0 ∧ i = 0
  identity : ∀ r, tree 0 [] = some r → w.state.memory.entry r 0 &&& pdpteReserved = 0

/-- The tables of a world without mappings are loadable. -/
theorem Bare.loadable (bare : Bare w tree) (inv : w.Inv layout all tree) {space : Nat}
    (visible : w.Visible layout space) : w.state.Loadable space := by
  obtain ⟨r, root⟩ := inv.tables.root_of_inUse visible.1 visible.2
  have fourth := inv.tables.gate root
  intro i small present
  rw [inv.tables.root root] at present ⊢
  by_cases kernel : i = paePdptEntryKernel
  · rw [kernel]
    unfold WordMemory.entry at fourth
    rw [fourth, paeMakeEntry_flag (by decide)]
    decide
  · have three : i < 3 := by
      unfold paePdptEntries at small
      unfold paePdptEntryKernel at kernel
      omega
    have there : tree space [i] ≠ none := by
      intro absent
      exact inv.tables.vacant root Nat.two_pos three absent present
    obtain ⟨rfl, rfl⟩ := bare.directories space i there
    exact bare.identity r root

/-- What a call other than a map that goes through leaves alone. -/
theorem Bare.next (bare : Bare w tree) (mapped : w'.mapped = ⊥)
    (directories : ∀ k i, tree' k [i] ≠ none → tree k [i] ≠ none)
    (root : ∀ r, tree' 0 [] = some r → tree 0 [] = some r)
    (entry : ∀ r, tree 0 [] = some r → w'.state.memory.entry r 0 = w.state.memory.entry r 0) :
    Bare w' tree' where
  unmapped := mapped
  directories k i there := bare.directories k i (directories k i there)
  identity r there := by
    rw [entry r (root r there)]
    exact bare.identity r (root r there)

theorem Bare.same (bare : Bare w tree) (mapped : w'.mapped = w.mapped)
    (memory : w'.state.memory = w.state.memory) : Bare w' tree :=
  bare.next (mapped.trans bare.unmapped) (fun _ _ => id) (fun _ => id) fun r _ => by rw [memory]

/-- Without a frame for its directory a map does nothing. -/
theorem UserTables.map_starved {held : Nat → Prop} {s : PagingState}
    {mapped : (Nat × Nat) ≃. Nat} {space r address : Nat}
    (tables : UserTables layout all held s tree mapped) (root : tree space [] = some r)
    (user : pagingAddressIsUser address = true) (absent : tree space [paePdptIndexOf address] = none)
    (empty : s.pmm.freeSet = ∅) (physicalAddr flags : Nat) :
    s.paeMapUserPageInSpace layout space address physicalAddr flags = .ok (s, false) := by
  have vacant := tables.vacant root Nat.two_pos (user_route user).1 absent
  unfold PagingState.paeMapUserPageInSpace
  rw [tables.spacePdpt root]
  simp only [bind, Except.bind, pure, Except.pure]
  unfold PagingState.userTable
  dsimp only
  rw [if_pos vacant]
  rcases found : pmmAllocFrameOnNode s.pmm (s.pagingSpaces space).preferredNumaNode with
    ⟨t, _ | frame⟩
  · rw [tables.spaces.stock.alloc_none found]
  · obtain ⟨f, -, member, free, fresh, -⟩ := tables.spaces.alloc found
    have frees : f ∈ s.pmm.freeSet :=
      (tables.spaces.stock.free f).mpr ⟨member, not_or.mpr ⟨free, fresh⟩⟩
    rw [empty] at frees
    cases frees

namespace UserWorld

/-- A harmless map changes nothing. -/
theorem Inv.map_harmless (inv : w.Inv layout all tree) (bare : Bare w tree)
    {space address physicalAddr flags : Nat}
    (harmless : w.Harmless layout (.mapUserPage space address physicalAddr flags)) :
    w.exec layout (.mapUserPage space address physicalAddr flags) = .ok w := by
  unfold UserWorld.exec
  dsimp only
  split
  · next idle =>
      split
      · next rooted =>
          have call : w.state.pagingMapUserPage layout space address physicalAddr flags =
              .ok (w.state, false) := by
            unfold PagingState.pagingMapUserPage
            split
            · rfl
            next inUse =>
            split
            · rfl
            next user =>
            split
            · rfl
            next pages =>
            rw [not_or, not_not, not_not] at pages
            have inUse := Bool.eq_true_of_not_eq_false inUse
            have user := Bool.eq_true_of_not_eq_false user
            obtain ⟨r, root⟩ := inv.tables.root_of_inUse inUse rooted
            obtain ⟨empty, elsewhere⟩ := harmless ⟨idle, rooted, inUse, user, pages⟩
            have absent : tree space [paePdptIndexOf address] = none := by
              by_contra there
              obtain ⟨rfl, first⟩ := bare.directories _ _ there
              exact elsewhere ⟨inv.tables.kernelSpace, first⟩
            exact inv.tables.map_starved root user absent empty _ _
          rw [call]
          rfl
      · rfl
  · rfl

/-- Where nothing is mapped an unmapping does nothing. -/
theorem Inv.unmap_bare (inv : w.Inv layout all tree) (bare : Bare w tree) (space address : Nat) :
    w.exec layout (.unmapUserPage space address) = .ok w := by
  have absent : w.mapped (space, address / pageSize) = none := by
    rw [bare.unmapped]
    rfl
  have note : w.noteUnmap w.state space address = w := by
    unfold noteUnmap
    rw [Paged.keep_absent absent]
  unfold UserWorld.exec
  dsimp only
  split
  · next rooted =>
      have call : w.state.pagingUnmapUserPage layout space address = .ok (w.state, []) := by
        unfold PagingState.pagingUnmapUserPage
        split
        · rfl
        next inUse =>
        split
        · rfl
        next user =>
        obtain ⟨r, root⟩ := inv.tables.root_of_inUse (Bool.eq_true_of_not_eq_false inUse) rooted
        exact inv.tables.unmap_absent root (Bool.eq_true_of_not_eq_false user) absent
      rw [call]
      exact congrArg Except.ok note
  · rfl

/-- **One harmless call.** -/
theorem Inv.exec_bare (inv : w.Inv layout all tree) (clear : layout.Clear all) (bare : Bare w tree)
    {op : UserOp} (harmless : w.Harmless layout op) (done : w.exec layout op = .ok w') :
    ∃ tree', w'.Inv layout all tree' ∧ Bare w' tree' := by
  cases op with
  | configureNumaTopology nodeCount =>
      obtain ⟨w₁, call, inv'⟩ := inv.configure clear nodeCount
      obtain rfl := Except.ok.inj (call.symm.trans done)
      obtain rfl := Except.ok.inj call
      exact ⟨tree, inv', bare.same rfl rfl⟩
  | allocFrameOnNode preferredNode =>
      obtain ⟨w₁, call, inv'⟩ := inv.allocFrame clear preferredNode
      obtain rfl := Except.ok.inj (call.symm.trans done)
      obtain rfl := Except.ok.inj call
      exact ⟨tree, inv', bare.same rfl rfl⟩
  | allocFramesOnNode frameCount preferredNode =>
      obtain ⟨w₁, call, inv'⟩ := inv.allocFrames clear frameCount preferredNode
      obtain rfl := Except.ok.inj (call.symm.trans done)
      obtain rfl := Except.ok.inj call
      exact ⟨tree, inv', bare.same rfl rfl⟩
  | freeFrame physicalAddr =>
      obtain ⟨w₁, call, inv'⟩ := inv.freeFrame clear physicalAddr
      obtain rfl := Except.ok.inj (call.symm.trans done)
      refine ⟨tree, inv', ?_⟩
      unfold UserWorld.exec at call
      dsimp only at call
      split at call
      · obtain rfl := Except.ok.inj call
        exact bare.same rfl rfl
      · obtain rfl := Except.ok.inj call
        exact bare
  | createProcessSpaceOnNode node =>
      unfold UserWorld.exec at done
      dsimp only at done
      rcases inv.createSpace clear node with
        ⟨panic, fails, -⟩ | ⟨s', result, tree', call, inv', planted, untouched, -⟩
      · rw [fails] at done
        cases done
      rw [call] at done
      obtain rfl := Except.ok.inj done
      refine ⟨tree', inv', bare.next bare.unmapped ?_ ?_ fun r root => untouched root (by decide)⟩
      · intro k i there
        cases planted with
        | nothing => exact there
        | root => rwa [Trees.set_other fun same => by simp at same] at there
      · intro r there
        cases planted with
        | nothing => exact there
        | root record absent =>
            rcases Trees.set_some there with ⟨rfl, -, -⟩ | before
            · -- the record of the kernel space is in use
              have unused := List.find?_some record
              rw [inv.tables.kernelRecord] at unused
              cases unused
            · exact before
  | mapUserPage space address physicalAddr flags =>
      obtain rfl := Except.ok.inj ((inv.map_harmless bare harmless).symm.trans done)
      exact ⟨tree, inv, bare⟩
  | unmapUserPage space address =>
      obtain rfl := Except.ok.inj ((inv.unmap_bare bare space address).symm.trans done)
      exact ⟨tree, inv, bare⟩
  | destroyProcessSpace space =>
      rcases inv.destroy clear space with spared | ⟨s', call, memory, inv'⟩
      · obtain rfl := Except.ok.inj (spared.symm.trans done)
        exact ⟨tree, inv, bare⟩
      · obtain rfl := Except.ok.inj (call.symm.trans done)
        refine ⟨_, inv', bare.next ?_ ?_ ?_ ?_⟩
        · refine PEquiv.ext fun place => ?_
          cases found : (w.noteDestroy s' space).mapped place with
          | none => rfl
          | some f =>
              have before := (Matching.keep_some found).2
              rw [bare.unmapped] at before
              cases before
        · intro k i there
          obtain ⟨f, found⟩ := Option.ne_none_iff_exists'.mp there
          rw [(Trees.fell_some found).2]
          nofun
        · exact fun r there => (Trees.fell_some there).2
        · intro r _
          unfold noteDestroy
          dsimp only
          rw [memory]
  | switchSpace space =>
      obtain ⟨w₁, call, inv'⟩ := inv.switch clear space
      obtain rfl := Except.ok.inj (call.symm.trans done)
      obtain rfl := Except.ok.inj call
      refine ⟨tree, inv', bare.same rfl ?_⟩
      unfold PagingState.pagingSwitchSpace
      dsimp only
      split
      · rfl
      · rfl
  | pages op =>
      obtain ⟨w₁, call, inv'⟩ := inv.kernelPages clear op
      obtain rfl := Except.ok.inj (call.symm.trans done)
      refine ⟨tree, inv', ?_⟩
      unfold UserWorld.exec at call
      dsimp only at call
      split at call
      · next aligned =>
          obtain ⟨allocator, result, -, exchanged⟩ := (inv.pages aligned).exec op
          rw [result] at call
          obtain rfl := Except.ok.inj call
          exact bare.next bare.unmapped (fun _ _ => id) (fun _ => id) fun r root =>
            inv.entry_confined clear exchanged.confined root (by decide)
      · obtain rfl := Except.ok.inj call
        exact bare

/-! ## A map that has a directory to enter -/

/-- The user's bit is reserved in a PDPT entry. -/
theorem not_loadable {space i : Nat} {s : PagingState} (small : i < 3)
    (marked : UserTables.Marked
      (s.memory (WordMemory.word (s.pagingSpaces space).rootPhysical i))) : ¬ s.Loadable space := by
  intro loadable
  apply marked.2
  have clear := loadable i (by unfold paePdptEntries; omega) marked.1
  have part : paeEntryUser = pdpteReserved &&& paeEntryUser := by decide
  rw [part, ← Nat.and_assoc, clear, Nat.zero_and]

/-- **A map that is not harmless** leaves a space that may not be loaded. -/
theorem Inv.map_marks (inv : w.Inv layout all tree) (clear : layout.Clear all)
    {space address physicalAddr flags : Nat} (accepts : w.Accepts layout space address physicalAddr)
    (enters : w.state.pmm.freeSet ≠ ∅ ∨ tree space [paePdptIndexOf address] ≠ none)
    (done : w.exec layout (.mapUserPage space address physicalAddr flags) = .ok w') :
    ¬ w'.AllLoadable layout := by
  obtain ⟨r, root⟩ := inv.tables.root_of_inUse accepts.inUse accepts.rooted
  obtain ⟨top, -⟩ := user_route accepts.user
  obtain ⟨page, frame⟩ := accepts.pages
  have physical : physicalAddr = physicalAddr / pageSize * 4096 := by
    rw [land_offset] at frame
    unfold pageSize
    omega
  have starved : (pmmAllocFrameOnNode w.state.pmm
      (w.state.pagingSpaces space).preferredNumaNode).2 = none → w.state.pmm.freeSet ≠ ∅ → False := by
    intro none some
    obtain ⟨f, free⟩ := Set.nonempty_iff_ne_empty.mpr some
    exact pmmAllocFrameOnNode_supplies inv.tables.spaces.stock.booted free _ none
  -- whether it returns true or false, the entry has the user's bit
  have marks : ∀ s' result,
      w.state.paeMapUserPageInSpace layout space address physicalAddr (flags ||| pageUser) =
        .ok (s', result) →
      s'.pagingSpaces = w.state.pagingSpaces ∧ s'.kernelSpace = w.state.kernelSpace ∧
        UserTables.Marked (s'.memory.entry r (paePdptIndexOf address)) := by
    intro s' result call
    rw [congrArg (w.state.paeMapUserPageInSpace layout space address · (flags ||| pageUser))
      physical] at call
    rcases inv.tables.mapInSpace clear root accepts.user accepts.idle.2 (Or.inl accepts.idle.1)
        (flags ||| pageUser) with
      ⟨panic, fails, -⟩ | ⟨t, tree', fails, remapped, empty, either⟩ | ⟨t, tree', maps, remapped, marked⟩
    · rw [fails] at call
      cases call
    · rw [fails] at call
      obtain ⟨rfl, -⟩ := Prod.mk.inj (Except.ok.inj call)
      refine ⟨remapped.served.pagingSpaces, remapped.served.kernelSpace, ?_⟩
      rcases either with ⟨rfl, absent⟩ | marked
      · exact (enters.elim (starved empty) fun there => there absent).elim
      · exact marked
    · rw [maps] at call
      obtain ⟨rfl, -⟩ := Prod.mk.inj (Except.ok.inj call)
      exact ⟨remapped.served.pagingSpaces, remapped.served.kernelSpace, marked⟩
  unfold UserWorld.exec at done
  dsimp only at done
  rw [dif_pos accepts.idle, if_pos accepts.rooted] at done
  obtain ⟨⟨s', result⟩, call, note⟩ := bind_ok_iff.mp done
  obtain rfl := Except.ok.inj note
  unfold PagingState.pagingMapUserPage at call
  rw [if_neg (by rw [accepts.inUse]; decide), if_neg (by rw [accepts.user]; decide),
    if_neg (not_or.mpr ⟨not_not.mpr page, not_not.mpr frame⟩)] at call
  obtain ⟨spaces, kernel, marked⟩ := marks s' result call
  intro loadable
  have visible : (w.noteMap s' space address physicalAddr accepts.idle result).Visible layout
      space := by
    unfold Visible Rooted noteMap
    dsimp only
    rw [spaces, kernel]
    exact ⟨accepts.inUse, accepts.rooted⟩
  refine not_loadable top ?_ (loadable space visible)
  unfold noteMap
  dsimp only
  rw [spaces, inv.tables.root root]
  exact marked

/-- While nothing is mapped, a call keeps every space loadable only if it is
harmless. -/
theorem Inv.harmless_of_loadable (inv : w.Inv layout all tree) (clear : layout.Clear all)
    (op : UserOp) (done : w.exec layout op = .ok w') (loadable : w'.AllLoadable layout) :
    w.Harmless layout op := by
  cases op with
  | mapUserPage space address physicalAddr flags =>
      intro accepts
      by_contra harmful
      refine inv.map_marks clear accepts ?_ done loadable
      rw [not_and_or, not_not] at harmful
      rcases harmful with supplied | ⟨kernel, first⟩
      · exact Or.inl supplied
      · -- the identity directory is there
        right
        obtain rfl : space = 0 := Option.some.inj (kernel.symm.trans inv.tables.kernelSpace)
        obtain ⟨r, root⟩ := inv.tables.root_of_inUse accepts.inUse accepts.rooted
        rw [first, inv.tables.fixed (p := [0]) (by rw [root]; nofun) rfl]
        nofun
  | _ => exact trivial

/-- **In every state of a run every space may be loaded exactly if every map of
the run is harmless.** -/
theorem Inv.loadableRun_iff (inv : w.Inv layout all tree) (clear : layout.Clear all)
    (bare : Bare w tree) {ops : List UserOp} (done : w.run layout ops = .ok w') :
    w.LoadableRun layout ops ↔ w.HarmlessRun layout ops := by
  have loadable : w.AllLoadable layout := fun space visible => bare.loadable inv visible
  induction ops generalizing w tree with
  | nil => exact ⟨fun _ => trivial, fun _ => loadable⟩
  | cons op ops ih =>
      unfold UserWorld.run at done
      obtain ⟨w₁, first, rest⟩ := bind_ok_iff.mp done
      have next : ∀ {w₂}, w.exec layout op = .ok w₂ → w₁ = w₂ := fun other =>
        Except.ok.inj (first.symm.trans other)
      have step : w.Harmless layout op → (w₁.LoadableRun layout ops ↔ w₁.HarmlessRun layout ops) := by
        intro harmless
        obtain ⟨tree₁, inv₁, bare₁⟩ := inv.exec_bare clear bare harmless first
        exact ih inv₁ bare₁ rest fun space visible => bare₁.loadable inv₁ visible
      constructor
      · rintro ⟨-, after⟩
        have harmless := inv.harmless_of_loadable clear op first (after w₁ first).start
        refine ⟨harmless, fun w₂ other => ?_⟩
        obtain rfl := next other
        exact (step harmless).mp (after w₁ first)
      · rintro ⟨harmless, after⟩
        refine ⟨loadable, fun w₂ other => ?_⟩
        obtain rfl := next other
        exact (step harmless).mpr (after w₁ first)

end UserWorld

/-- Nothing is mapped after `paging_init`. -/
theorem Bare.boot (layout : Layout) (memory : WordMemory) (pmm : PmmState) :
    Bare (UserWorld.boot layout memory pmm) layout.bootTree where
  unmapped := rfl
  directories k i there := by
    obtain ⟨f, here⟩ := Option.ne_none_iff_exists'.mp there
    obtain ⟨zero, aligned, found⟩ := Layout.bootTree_some here
    refine ⟨zero, ?_⟩
    rcases Layout.kernelTable_cases aligned found with ⟨path, -⟩ | ⟨path, -⟩ | ⟨t, -, path, -⟩
    · cases path
    · exact List.head_eq_of_cons_eq path
    · cases path
  identity r root := by
    obtain ⟨-, -, page⟩ := Layout.bootTree_root root
    unfold WordMemory.entry
    rw [page, show (UserWorld.boot layout memory pmm).state = pagingInit layout memory pmm from rfl,
      pagingInit_pdpt (by decide), if_neg (by decide), if_pos (show 0 = paePdptEntryLow from rfl),
      paeMakeEntry_flag (by decide)]
    decide

/-- **Every space may be loaded in every state of a run exactly if no map of the
run goes through or gets as far as a directory.** -/
theorem pdpt_loadable_iff {boot : BootInfo} {pmm : PmmState} (ready : pmmInit boot = .ok pmm)
    (image : layout.InImage boot) (memory : WordMemory) (ops : List UserOp)
    (reached : (UserWorld.boot layout memory pmm).run layout ops = .ok w) :
    (UserWorld.boot layout memory pmm).LoadableRun layout ops ↔
      (UserWorld.boot layout memory pmm).HarmlessRun layout ops := by
  have clear := Layout.clear_of_image ready image
  exact (UserWorld.boot_inv clear (pmmInit_booted ready).1 memory).loadableRun_iff clear
    (Bare.boot layout memory pmm) reached

/-- Frame `f` is the first page of a new process space. -/
def firstMap (f : Nat) : List UserOp :=
  [.allocFrameOnNode 0xFF, .createProcessSpaceOnNode 0xFF, .mapUserPage 1 0x400000 (f * pageSize) 2]

/-- The PDPT of the space is marked. -/
theorem imageBoot_mapped :
    ∃ pmm f w, pmmInit imageBoot = .ok pmm ∧
      (UserWorld.boot twoMibLayout (fun _ => 0) pmm).run twoMibLayout (firstMap f) = .ok w ∧
      ¬ w.AllLoadable twoMibLayout := by
  obtain ⟨pmm, f, w, ready, reachable, both, idle, live, more⟩ := imageBoot_created
  have image : twoMibLayout.InImage imageBoot := by decide
  have clear := Layout.clear_of_image ready image
  obtain ⟨tree, inv⟩ := UserWorld.boot_reached ready image both
  have frame : f * pageSize / pageSize = f := Nat.mul_div_cancel f (by decide)
  have accepts : w.Accepts twoMibLayout 1 0x400000 (f * pageSize) := by
    refine ⟨by rw [frame]; exact idle, fun kernel => absurd kernel live.2, live.1, by decide,
      by decide, ?_⟩
    rw [land_offset]
    exact Nat.mul_mod_left f 4096
  rcases inv.map clear 1 0x400000 (f * pageSize) 2 with
    ⟨_, -, g, free, beyond, -⟩ | ⟨w₃, tree₃, third, -⟩
  · exact absurd (reachable g ((inv.tables.spaces.stock.free g).mp free).1) beyond
  refine ⟨pmm, f, w₃, ready, ?_, inv.map_marks clear accepts (Or.inl more) third⟩
  exact UserWorld.run_concat both third

/-- A run that maps a page while frames are free. -/
theorem pdpt_loadable_iff_mapped :
    ∃ pmm f w, pmmInit imageBoot = .ok pmm ∧
      (UserWorld.boot twoMibLayout (fun _ => 0) pmm).run twoMibLayout (firstMap f) = .ok w ∧
      ¬ (UserWorld.boot twoMibLayout (fun _ => 0) pmm).HarmlessRun twoMibLayout (firstMap f) := by
  obtain ⟨pmm, f, w, ready, ran, marked⟩ := imageBoot_mapped
  refine ⟨pmm, f, w, ready, ran, fun harmless => marked ?_⟩
  exact ((pdpt_loadable_iff ready (by decide : twoMibLayout.InImage imageBoot) (fun _ => 0) _
    ran).mpr harmless).finish ran

/-- **The first page mapped in a new process space** makes its PDPT unloadable. -/
theorem mapped_space_not_loadable :
    ∃ pmm f w, pmmInit imageBoot = .ok pmm ∧
      (UserWorld.boot twoMibLayout (fun _ => 0) pmm).run twoMibLayout (firstMap f) = .ok w ∧
      ¬ w.AllLoadable twoMibLayout :=
  imageBoot_mapped

end Bare

end Dfos.Paging
