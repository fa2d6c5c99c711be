import Dfos.Paging.UserLookup
import Dfos.Paging.UserWorld

/-!
# The invariant of the paging interface

The tables of the spaces, the kernel's page allocator and the callers' records
share one PMM and one memory.  Calls on a space write no word of the kernel's
tables (`Still`), calls for kernel pages write only the dynamic ones
(`Exchanged`), and each side's frames are held where the other side looks for
free ones.
-/

namespace Dfos.Paging

open Dfos.Lib
open Dfos.Pmm

/-! ## The kernel's tables through a call on a space -/

section Transport

variable {layout : Layout} {all : Set Nat} {m m' : WordMemory} {s t : PagingState}
  {held : Nat → Prop} {tree : Trees Nat} {mapped : (Nat × Nat) ≃. Nat} {live : Finset PageRange}

theorem Still.lookup (still : Still layout all m m') (clear : layout.Clear all) {a : Nat}
    (dynamic : Dynamic a) : lookup layout m' a = lookup layout m a := by
  unfold Paging.lookup
  rw [still.dynamicEntry clear dynamic.pageNumber_lt]

theorem Still.backs (still : Still layout all s.memory t.memory) (clear : layout.Clear all)
    {P : Nat → Prop} {f : Nat} : Backs layout t P f ↔ Backs layout s P f := by
  refine exists_congr fun a => and_congr_right fun page => ?_
  unfold PagingState.at
  rw [still.lookup clear page.dynamic]

theorem DynamicTables.still (dynamic : DynamicTables layout m) (clear : layout.Clear all)
    (still : Still layout all m m') : DynamicTables layout m' where
  pde d low high present := by
    rw [still.kernelDirectoryEntry clear (by omega)] at present ⊢
    exact dynamic.pde d low high present
  backed n number present := by
    rw [still.dynamicEntry clear number] at present
    rw [still.kernelDirectoryEntry clear (by omega)]
    exact dynamic.backed n number present
  inhabited d low high present := by
    rw [still.kernelDirectoryEntry clear (by omega)] at present
    obtain ⟨i, small, entry⟩ := dynamic.inhabited d low high present
    refine ⟨i, small, ?_⟩
    rw [still.dynamicEntry clear (by omega)]
    exact entry

namespace UserTables

variable {k f : Nat}

/-- What lies apart from a table that starts a page lies apart from the page. -/
theorem apart_page {a b size : Nat} (apart : Apart (a, 32) (b, size)) (page : pageSize ∣ a)
    (other : pageSize ∣ b) : Apart (a, 4096) (b, size) := by
  unfold Apart at apart ⊢
  unfold pageSize at page other
  dsimp only at apart ⊢
  omega

/-- Any word of a table of a space lies apart from the kernel's dynamic tables. -/
theorem offKernel (tables : UserTables layout all held s tree mapped) (clear : layout.Clear all)
    {p : List Nat} {i : Nat} (there : tree k p = some f) (small : i < 512) :
    Apart (WordMemory.word (f * 4096) i, 8) (layout.kernelDirectory, 4096) ∧
      Apart (WordMemory.word (f * 4096) i, 8) (layout.dynamicTables, 126 * 4096) := by
  obtain ⟨low, high⟩ := WordMemory.word_within (f * 4096) (show 8 * i + 8 ≤ 4096 by omega)
  rcases tables.site there with member | ⟨-, aligned, static⟩
  · have dynamic := clear f member (layout.dynamicTables, paeDynamicPdeCount * pageSize)
      (by simp [Layout.ranges])
    rw [paeDynamicPdeCount_eq] at dynamic
    exact ⟨(clear f member (layout.kernelDirectory, pageSize) (by simp [Layout.ranges])).mono
      low high, dynamic.mono low high⟩
  obtain ⟨directory, -, dynamic, -, -, -⟩ := layout.tables_apart
  obtain ⟨identity, identityDynamic, pages, pagesDynamic⟩ := layout.identity_apart.1
  rcases Layout.kernelTable_cases aligned static with ⟨-, page⟩ | ⟨-, page⟩ | ⟨t, few, -, page⟩
  · rw [page] at low high ⊢
    exact ⟨(apart_page directory aligned layout.kernelDirectory_aligned).mono low high,
      (apart_page dynamic aligned layout.dynamicTables_aligned).mono low high⟩
  · rw [page] at low high ⊢
    exact ⟨identity.symm.mono low high, identityDynamic.symm.mono low high⟩
  · rw [page] at low high ⊢
    have low := (Nat.le_add_right _ _).trans low
    have high := high.trans (show _ ≤ layout.identityTables + 2 * 4096 by omega)
    exact ⟨pages.symm.mono low high, pagesDynamic.symm.mono low high⟩

/-- The root of a space leads to the kernel's half. -/
theorem kernelRoot (tables : UserTables layout all held s tree mapped) (clear : layout.Clear all)
    (root : tree k [] = some f) :
    KernelRoot layout s.memory ((s.pagingSpaces k).rootPhysical &&& 0xFFFFF000) := by
  have reachable := tables.spaces.reachable root
  obtain ⟨offDirectory, offTables⟩ := tables.offKernel clear root
    (show paePdptEntryKernel < 512 by decide)
  rw [tables.root root, frame_mask reachable.small]
  exact ⟨reachable, tables.gate root, offDirectory, offTables⟩

/-- A space in use has a root, if its root names its PDPT. -/
theorem root_of_inUse (tables : UserTables layout all held s tree mapped)
    (inUse : (s.pagingSpaces k).inUse = true)
    (rooted : s.kernelSpace = some k → pageSize ∣ layout.pdpt) : ∃ f, tree k [] = some f := by
  apply Option.ne_none_iff_exists'.mp
  rw [tables.rooted]
  by_cases kernel : s.kernelSpace = some k
  · have zero : k = 0 := Option.some.inj (kernel.symm.trans tables.kernelSpace)
    exact Or.inr ⟨zero, rooted kernel⟩
  · exact Or.inl ⟨inUse, kernel⟩

end UserTables

/-- The kernel's half after kernel pages were mapped or unmapped. -/
theorem KernelHalf.confined (half : KernelHalf layout m) (outside : SameOutside layout m m')
    (dynamic : DynamicTables layout m') : KernelHalf layout m' := by
  intro d small present
  by_cases inside : 384 ≤ d ∧ d < 510
  · obtain ⟨low, high⟩ := inside
    obtain ⟨aligned, below⟩ := layout.dynamicTable_page low high
    rw [dynamic.pde d low high present]
    exact ⟨_, (paePageTableForDirectory_dynamic low high).2,
      paeMakeEntry_addr aligned (lt_trans below (by decide)) (by decide),
      paeMakeEntry_flag (by decide)⟩
  · obtain ⟨-, -, -, -, apart, -⟩ := layout.tables_apart
    have same : m' (layout.kernelDirectoryEntry d) = m (layout.kernelDirectoryEntry d) := by
      obtain ⟨low, high⟩ := WordMemory.word_within layout.kernelDirectory
        (show 8 * d + 8 ≤ 4096 by omega)
      apply outside _ (apart.mono low high)
      unfold Apart WordMemory.word
      dsimp only
      omega
    rw [same] at present ⊢
    exact half d small present

/-- The page allocator does not notice a call on a space. -/
theorem Allocator.Inv.still (inv : (Allocator.mk s live).Inv layout)
    (tables : UserTables layout all held t tree mapped) (clear : layout.Clear all)
    (still : Still layout all s.memory t.memory) (vmas : t.vmas = s.vmas)
    (aligned : pageSize ∣ layout.pdpt)
    (current : ∃ k, t.currentSpace = some k ∧ (t.pagingSpaces k).inUse = true)
    (holds : ∀ f, Backs layout s (fun _ => True) f → held f) :
    (Allocator.mk t live).Inv layout := by
  have walk : ∀ {a}, Page a → t.at layout a = s.at layout a :=
    fun page => still.lookup clear page.dynamic
  obtain ⟨k, here, inUse⟩ := current
  obtain ⟨f, root⟩ := tables.root_of_inUse inUse fun _ => aligned
  refine ⟨⟨⟨tables.direct, inv.sound.tables.dynamic.still clear still,
    k, here, tables.kernelRoot clear root⟩, tables.spaces.stock.booted, ?_, ?_, ?_⟩, inv.valid,
    inv.apart, ?_, ?_⟩
  · rw [vmas]
    exact inv.sound.vmas
  · intro a g page found
    rw [walk page] at found
    obtain ⟨divides, -⟩ := inv.sound.taken page found
    refine ⟨divides, ?_⟩
    have holder : held (g / pageSize) := holds _ ⟨a, page, trivial, by
      rw [found, Nat.div_mul_cancel divides]⟩
    exact tables.spaces.stock.taken (tables.spaces.stocked holder) (Or.inl holder)
  · intro a b g pageA pageB foundA foundB
    rw [walk pageA] at foundA
    rw [walk pageB] at foundB
    exact inv.sound.distinct pageA pageB foundA foundB
  · intro i
    dsimp only
    rw [vmas]
    exact inv.tree i
  · intro p page
    dsimp only
    rw [walk page]
    exact inv.mapped p page

end Transport

/-! ## The invariant -/

namespace UserTables

variable {layout : Layout} {all : Set Nat} {held held' : Nat → Prop} {s : PagingState}
  {tree : Trees Nat} {mapped : (Nat × Nat) ≃. Nat}

/-- The holders change, and the PMM with them. -/
theorem rehold (tables : UserTables layout all held s tree mapped) {pmm : PmmState}
    (stock : Stock pmm all fun f => held' f ∨ tree.Holds f)
    (unheld : ∀ {f}, held' f → ¬ tree.Holds f) (stocked : ∀ {f}, held' f → f ∈ all)
    (data : ∀ {k n f}, mapped (k, n) = some f → held' f) :
    UserTables layout all held' { s with pmm := pmm } tree mapped :=
  { tables with spaces := tables.spaces.rehold stock unheld stocked data }

end UserTables

namespace UserWorld

/-- A frame that a caller has or that backs a kernel page. -/
def Held (layout : Layout) (w : UserWorld) (f : Nat) : Prop :=
  w.owned f = true ∨ Backs layout w.state (fun _ => True) f

structure Inv (layout : Layout) (all : Set Nat) (w : UserWorld) (tree : Trees Nat) : Prop where
  tables : UserTables layout all (w.Held layout) w.state tree w.mapped
  apart : ∀ {f}, w.owned f = true → ¬ Backs layout w.state (fun _ => True) f
  mine : ∀ {place f}, w.mapped place = some f → w.owned f = true
  half : KernelHalf layout w.state.memory
  static : StaticTables layout w.state.memory
  pages : pageSize ∣ layout.pdpt → (Allocator.mk w.state w.live).Inv layout
  current : ∃ k, w.state.currentSpace = some k ∧ (w.state.pagingSpaces k).inUse = true

variable {layout : Layout} {all : Set Nat} {w w' : UserWorld} {tree tree' : Trees Nat}

section

variable (inv : w.Inv layout all tree)
include inv

/-- **A call that writes no word of the kernel's tables.** -/
theorem Inv.next (clear : layout.Clear all)
    (tables : UserTables layout all
      (fun f => w'.owned f = true ∨ Backs layout w.state (fun _ => True) f) w'.state tree' w'.mapped)
    (still : Still layout all w.state.memory w'.state.memory)
    (vmas : w'.state.vmas = w.state.vmas) (live : w'.live = w.live)
    (apart : ∀ {f}, w'.owned f = true → ¬ Backs layout w.state (fun _ => True) f)
    (mine : ∀ {place f}, w'.mapped place = some f → w'.owned f = true)
    (current : ∃ k, w'.state.currentSpace = some k ∧ (w'.state.pagingSpaces k).inUse = true) :
    w'.Inv layout all tree' where
  tables := by
    have same : w'.Held layout =
        fun f => w'.owned f = true ∨ Backs layout w.state (fun _ => True) f := by
      funext f
      unfold Held
      rw [still.backs clear]
    rw [same]
    exact tables
  apart owner := by
    rw [still.backs clear]
    exact apart owner
  mine := mine
  half := inv.half.still clear still
  static := inv.static.still clear still
  pages aligned := by
    rw [live]
    exact (inv.pages aligned).still tables clear still vmas aligned current fun f => Or.inr
  current := current

/-- A call of the PMM by a caller, which changes what that caller has. -/
theorem Inv.regain (clear : layout.Clear all) {pmm : PmmState}
    {owned : Nat → Bool}
    (stock : Stock pmm all fun f =>
      (owned f = true ∨ Backs layout w.state (fun _ => True) f) ∨ tree.Holds f)
    (gained : ∀ {f}, owned f = true → w.owned f = true ∨ f ∈ all ∧ ¬ w.Held layout f ∧ ¬ tree.Holds f)
    (mine : ∀ {place f}, w.mapped place = some f → owned f = true) :
    Inv layout all { w with state := { w.state with pmm := pmm }, owned := owned } tree := by
  refine inv.next clear (inv.tables.rehold stock ?_ ?_ fun found => Or.inl (mine found)) (.refl _)
    rfl rfl ?_ mine inv.current
  · rintro f (owner | backs)
    · rcases gained owner with before | ⟨-, -, free⟩
      · exact inv.tables.spaces.unheld (Or.inl before)
      · exact free
    · exact inv.tables.spaces.unheld (Or.inr backs)
  · rintro f (owner | backs)
    · rcases gained owner with before | ⟨member, -, -⟩
      · exact inv.tables.spaces.stocked (Or.inl before)
      · exact member
    · exact inv.tables.spaces.stocked (Or.inr backs)
  · intro f owner
    rcases gained owner with before | ⟨-, unheld, -⟩
    · exact inv.apart before
    · exact fun backs => unheld (Or.inr backs)

theorem Inv.configure (clear : layout.Clear all) (nodeCount : Nat) :
    ∃ w', w.exec layout (.configureNumaTopology nodeCount) = .ok w' ∧ w'.Inv layout all tree :=
  ⟨_, rfl, inv.regain clear (inv.tables.spaces.stock.configure nodeCount) Or.inl inv.mine⟩

theorem Inv.allocFrame (clear : layout.Clear all) (node : Nat) :
    ∃ w', w.exec layout (.allocFrameOnNode node) = .ok w' ∧ w'.Inv layout all tree := by
  unfold exec
  dsimp only
  rcases found : pmmAllocFrameOnNode w.state.pmm node with ⟨pmm, _ | address⟩
  · refine ⟨_, rfl, inv.regain clear ?_ ?_ ?_⟩
    · rw [inv.tables.spaces.stock.alloc_none found]
      exact inv.tables.spaces.stock.congr fun f => by simp [Held]
    · intro f owner
      exact Or.inl (by simpa using owner)
    · intro place f mapped
      simp [inv.mine mapped]
  · obtain ⟨f, rfl, member, free, fresh, stock⟩ := inv.tables.spaces.alloc found
    have this : ∀ g, f * 4096 = g * pageSize ↔ g = f := by
      intro g
      unfold pageSize
      omega
    refine ⟨_, rfl, inv.regain clear (stock.congr fun g => ?_) ?_ ?_⟩
    · simp only [Held, Bool.or_eq_true, decide_eq_true_eq, Option.some.injEq, this]
      tauto
    · intro g owner
      simp only [Bool.or_eq_true, decide_eq_true_eq, Option.some.injEq, this] at owner
      rcases owner with before | rfl
      · exact Or.inl before
      · exact Or.inr ⟨member, free, fresh⟩
    · intro place g mapped
      simp [inv.mine mapped]

theorem Inv.allocFrames (clear : layout.Clear all)
    (frameCount node : Nat) :
    ∃ w', w.exec layout (.allocFramesOnNode frameCount node) = .ok w' ∧
      w'.Inv layout all tree := by
  unfold exec
  dsimp only
  rcases found : pmmAllocFramesOnNode w.state.pmm frameCount node with ⟨pmm, _ | address⟩
  · refine ⟨_, rfl, inv.regain clear ?_ ?_ ?_⟩
    · rw [inv.tables.spaces.stock.allocRun_none found]
      exact inv.tables.spaces.stock.congr fun f => by simp [Held]
    · intro f owner
      exact Or.inl (by simpa using owner)
    · intro place f mapped
      simp [inv.mine mapped]
  · obtain ⟨unused, stock⟩ := inv.tables.spaces.stock.allocRun found
    refine ⟨_, rfl, inv.regain clear (stock.congr fun g => ?_) ?_ ?_⟩
    · simp only [Held, Bool.or_eq_true, Bool.and_eq_true, decide_eq_true_eq, Option.any_some]
      tauto
    · intro g owner
      simp only [Bool.or_eq_true, Bool.and_eq_true, decide_eq_true_eq, Option.any_some] at owner
      rcases owner with before | ⟨low, high⟩
      · exact Or.inl before
      · obtain ⟨member, free⟩ := unused g low high
        rw [not_or] at free
        exact Or.inr ⟨member, free⟩
    · intro place g mapped
      simp [inv.mine mapped]

end

/-- A frame that is mapped nowhere. -/
theorem Idle.unmapped {f : Nat} (idle : w.Idle f) (place : Nat × Nat) :
    w.mapped place ≠ some f := by
  intro found
  have nowhere := idle.2
  rw [w.mapped.eq_some_iff.mpr found] at nowhere
  cases nowhere

section

variable (inv : w.Inv layout all tree)
include inv

theorem Inv.freeFrame (clear : layout.Clear all)
    (physicalAddr : Nat) :
    ∃ w', w.exec layout (.freeFrame physicalAddr) = .ok w' ∧ w'.Inv layout all tree := by
  unfold exec
  dsimp only
  split
  · next idle =>
      generalize frame : physicalAddr / pageSize = f at idle
      have same : pmmFreeFrame w.state.pmm physicalAddr = pmmFreeFrame w.state.pmm (f * 4096) := by
        unfold pmmFreeFrame
        rw [frame, show f * 4096 / pageSize = f from Nat.mul_div_cancel f (by decide)]
      have member := inv.tables.spaces.stocked (Or.inl idle.1)
      have unheld := inv.tables.spaces.unheld (Or.inl idle.1)
      rw [same]
      refine ⟨_, rfl, inv.regain clear
        ((inv.tables.spaces.stock.giveBack member).congr fun g => ?_) ?_ ?_⟩
      · simp only [Held, Bool.and_eq_true, decide_eq_true_eq]
        refine ⟨?_, ?_⟩
        · rintro ⟨(owner | backs) | table, other⟩
          · exact Or.inl (Or.inl ⟨owner, other⟩)
          · exact Or.inl (Or.inr backs)
          · exact Or.inr table
        · rintro ((⟨owner, other⟩ | backs) | table)
          · exact ⟨Or.inl (Or.inl owner), other⟩
          · refine ⟨Or.inl (Or.inr backs), ?_⟩
            rintro rfl
            exact inv.apart idle.1 backs
          · refine ⟨Or.inr table, ?_⟩
            rintro rfl
            exact unheld table
      · intro g owner
        simp only [Bool.and_eq_true] at owner
        exact Or.inl owner.1
      · intro place g mapped
        have other : g ≠ f := by
          rintro rfl
          exact idle.unmapped place mapped
        simp [inv.mine mapped, other]
  · exact ⟨w, rfl, inv⟩

/-- What `paging_create_process_space_on_node` does. -/
theorem Inv.createSpace (clear : layout.Clear all) (node : Nat) :
    (∃ panic, w.state.pagingCreateProcessSpaceOnNode layout node = .error panic ∧
      w.state.Overreaches panic) ∨
    ∃ s' result tree', w.state.pagingCreateProcessSpaceOnNode layout node = .ok (s', result) ∧
      Inv layout all { w with state := s' } tree' ∧
      UserTables.Planted w.state node tree result tree' ∧
      UserTables.Untouched tree w.state s' ∧ UserTables.Created layout all w.state s' result := by
  rcases inv.tables.create clear node with
    panics | ⟨s', result, tree', done, tables, planted, untouched, created⟩
  · exact Or.inl panics
  refine Or.inr ⟨s', result, tree', done, inv.next clear tables created.still created.vmas rfl
    inv.apart inv.mine ?_, planted, untouched, created⟩
  obtain ⟨k, here, inUse⟩ := inv.current
  refine ⟨k, created.currentSpace.trans here, ?_⟩
  dsimp only
  by_cases same : result = some k
  · exact (created.here k same).2
  · rw [created.others k same]
    exact inUse

theorem Inv.create (clear : layout.Clear all) (node : Nat) :
    (∃ panic, w.exec layout (.createProcessSpaceOnNode node) = .error panic ∧
      w.state.Overreaches panic) ∨
    ∃ w' tree', w.exec layout (.createProcessSpaceOnNode node) = .ok w' ∧
      w'.Inv layout all tree' := by
  unfold exec
  dsimp only
  rcases inv.createSpace clear node with
    ⟨panic, fails, reaches⟩ | ⟨s', result, tree', done, inv', -⟩
  · rw [fails]
    exact Or.inl ⟨panic, rfl, reaches⟩
  · rw [done]
    exact Or.inr ⟨_, tree', rfl, inv'⟩

/-- A call on a page of a space. -/
theorem Inv.remap (clear : layout.Clear all) {space : Nat}
    {s' : PagingState} {mapped' : (Nat × Nat) ≃. Nat}
    (remapped : Remapped layout all (w.Held layout) w.state tree space s' tree' mapped')
    (mine : ∀ {place f}, mapped' place = some f → w.owned f = true) :
    Inv layout all { w with state := s', mapped := mapped' } tree' := by
  refine inv.next clear remapped.tables remapped.served.still remapped.served.vmas rfl inv.apart
    mine ?_
  dsimp only
  rw [remapped.served.currentSpace, remapped.served.pagingSpaces]
  exact inv.current

/-- What `paging_map_user_page` does, in the words of the records. -/
theorem Inv.mapPage (clear : layout.Clear all)
    {space physicalAddr : Nat} (idle : w.Idle (physicalAddr / pageSize))
    (rooted : w.Rooted layout space) (address flags : Nat) :
    (∃ panic, w.state.pagingMapUserPage layout space address physicalAddr flags = .error panic ∧
      w.state.Overreaches panic) ∨
    ∃ s' done tree',
      w.state.pagingMapUserPage layout space address physicalAddr flags = .ok (s', done) ∧
      Inv layout all (w.noteMap s' space address physicalAddr idle done) tree' ∧
      Served layout all w.state s' := by
  have refused : Inv layout all (w.noteMap w.state space address physicalAddr idle false) tree := inv
  unfold PagingState.pagingMapUserPage
  split
  · exact Or.inr ⟨_, _, tree, rfl, refused, .refl _⟩
  next inUse =>
  split
  · exact Or.inr ⟨_, _, tree, rfl, refused, .refl _⟩
  next user =>
  split
  · exact Or.inr ⟨_, _, tree, rfl, refused, .refl _⟩
  next pages =>
  obtain ⟨r, root⟩ := inv.tables.root_of_inUse (Bool.eq_true_of_not_eq_false inUse) rooted
  have physical : physicalAddr = physicalAddr / pageSize * 4096 := by
    rw [not_or, not_not, not_not, land_offset, land_offset] at pages
    unfold pageSize
    omega
  have call := congrArg (w.state.paeMapUserPageInSpace layout space address · (flags ||| pageUser))
    physical
  rw [call]
  rcases inv.tables.mapInSpace clear root (Bool.eq_true_of_not_eq_false user) idle.2
      (Or.inl idle.1) (flags ||| pageUser) with
    ⟨panic, fails, reaches⟩ | ⟨s', tree', fails, remapped, -⟩ | ⟨s', tree', done, remapped, -⟩
  · exact Or.inl ⟨panic, fails, reaches⟩
  · exact Or.inr ⟨s', false, tree', fails, inv.remap clear remapped inv.mine, remapped.served⟩
  · have owner : ∀ {place f}, Matching.put w.mapped (space, address / pageSize)
        (physicalAddr / pageSize) idle.2 place = some f → w.owned f = true := by
      intro place f found
      by_cases here : place = (space, address / pageSize)
      · rw [here, Matching.put_here] at found
        rw [← Option.some.inj found]
        exact idle.1
      · rw [Matching.put_other here] at found
        exact inv.mine found
    exact Or.inr ⟨s', true, tree', done, inv.remap clear remapped owner, remapped.served⟩

theorem Inv.map (clear : layout.Clear all)
    (space address physicalAddr flags : Nat) :
    (∃ panic, w.exec layout (.mapUserPage space address physicalAddr flags) = .error panic ∧
      w.state.Overreaches panic) ∨
    ∃ w' tree', w.exec layout (.mapUserPage space address physicalAddr flags) = .ok w' ∧
      w'.Inv layout all tree' := by
  unfold exec
  dsimp only
  split
  · next idle =>
      split
      · next rooted =>
          rcases inv.mapPage clear idle rooted address flags with
            ⟨panic, fails, reaches⟩ | ⟨s', done, tree', call, inv', -⟩
          · rw [fails]
            exact Or.inl ⟨panic, rfl, reaches⟩
          · rw [call]
            exact Or.inr ⟨_, tree', rfl, inv'⟩
      · exact Or.inr ⟨w, tree, rfl, inv⟩
  · exact Or.inr ⟨w, tree, rfl, inv⟩

/-- Only pages of user addresses are ever mapped, and only in spaces in use. -/
theorem Inv.unmapped {space address : Nat}
    (off : (w.state.pagingSpaces space).inUse = false ∨ pagingAddressIsUser address = false) :
    w.mapped (space, address / pageSize) = none := by
  cases found : w.mapped (space, address / pageSize) with
  | none => rfl
  | some f =>
      obtain ⟨opened, there⟩ := inv.tables.spaces.paged.backed found
      obtain ⟨t, table⟩ := Option.ne_none_iff_exists'.mp there
      rcases off with unused | other
      · exact (inv.tables.hasRoot table (inv.tables.absent unused).2).elim
      · rw [(address_route address).1] at table opened
        rcases inv.tables.path_cases table with none | ⟨i, -, short⟩ | ⟨i, top, j, -, path⟩
        · cases none
        · cases short
        · simp only [List.cons.injEq, and_true] at path
          rw [user_of_open (path.1 ▸ top) opened] at other
          cases other

/-- What `paging_unmap_user_page` does, in the words of the records. -/
theorem Inv.unmapPage (clear : layout.Clear all) {space : Nat}
    (rooted : w.Rooted layout space) (address : Nat) :
    ∃ s' freed tree', w.state.pagingUnmapUserPage layout space address = .ok (s', freed) ∧
      Inv layout all (w.noteUnmap s' space address) tree' ∧ Served layout all w.state s' := by
  have nothing : w.mapped (space, address / pageSize) = none →
      Inv layout all (w.noteUnmap w.state space address) tree := by
    intro absent
    unfold noteUnmap
    rw [Paged.keep_absent absent]
    exact inv
  unfold PagingState.pagingUnmapUserPage
  split
  · next unused => exact ⟨_, _, tree, rfl, nothing (inv.unmapped (Or.inl unused)), .refl _⟩
  next inUse =>
  split
  · next other => exact ⟨_, _, tree, rfl, nothing (inv.unmapped (Or.inr other)), .refl _⟩
  next user =>
  obtain ⟨r, root⟩ := inv.tables.root_of_inUse (Bool.eq_true_of_not_eq_false inUse) rooted
  obtain ⟨s', tree', freed, done, remapped, -⟩ :=
    inv.tables.unmapInSpace clear root (Bool.eq_true_of_not_eq_false user)
  exact ⟨s', freed, tree', done, inv.remap clear remapped fun found =>
    inv.mine (Matching.keep_some found).2, remapped.served⟩

theorem Inv.unmap (clear : layout.Clear all)
    (space address : Nat) :
    ∃ w' tree', w.exec layout (.unmapUserPage space address) = .ok w' ∧
      w'.Inv layout all tree' := by
  unfold exec
  dsimp only
  split
  · next rooted =>
      obtain ⟨s', freed, tree', done, inv', -⟩ := inv.unmapPage clear rooted address
      rw [done]
      exact ⟨_, tree', rfl, inv'⟩
  · exact ⟨w, tree, rfl, inv⟩

/-- The frames the callers keep when a space is destroyed. -/
theorem Inv.holders (space : Nat) (s' : PagingState) (f : Nat) :
    ((w.noteDestroy s' space).owned f = true ∨ Backs layout w.state (fun _ => True) f) ↔
      w.Held layout f ∧ ∀ n, w.mapped (space, n) ≠ some f := by
  have unmapped : (w.mapped.symm f).all (fun place => place.1 ≠ space) = true ↔
      ∀ n, w.mapped (space, n) ≠ some f := by
    rw [Option.all_eq_true]
    refine ⟨fun elsewhere n found => ?_, fun never place found => ?_⟩
    · simpa using elsewhere (space, n) (w.mapped.eq_some_iff.mpr found)
    · have here := w.mapped.eq_some_iff.mp found
      rw [decide_eq_true_eq]
      rintro rfl
      exact never place.2 here
  unfold noteDestroy Held
  dsimp only
  rw [Bool.and_eq_true, unmapped]
  refine ⟨?_, ?_⟩
  · rintro (⟨owner, never⟩ | backs)
    · exact ⟨Or.inl owner, never⟩
    · exact ⟨Or.inr backs, fun n found => inv.apart (inv.mine found) backs⟩
  · rintro ⟨owner | backs, never⟩
    · exact Or.inl ⟨owner, never⟩
    · exact Or.inr backs

/-- What `paging_destroy_process_space` does to a process space. -/
theorem Inv.destroySpace (clear : layout.Clear all) {space : Nat}
    (live : w.state.Live space) :
    ∃ s' r, w.state.pagingDestroyProcessSpace layout space =
        .ok (s', (spaceFrames tree w.mapped space r).map (· * 4096)) ∧
      tree space [] = some r ∧ Inv layout all (w.noteDestroy s' space) (tree.fell space) ∧
      UserTables.Destroyed layout all w.state s' space := by
  obtain ⟨s', r, done, root, tables, destroyed⟩ :=
    inv.tables.destroy live (inv.holders space w.state)
  refine ⟨s', r, done, root, inv.next clear tables (destroyed.memory ▸ .refl _) destroyed.vmas rfl
    ?_ ?_ ?_, destroyed⟩
  · intro f owner
    simp only [noteDestroy, Bool.and_eq_true] at owner
    exact inv.apart owner.1
  · rintro ⟨k, n⟩ f found
    obtain ⟨other, before⟩ := Matching.keep_some found
    have symm := w.mapped.eq_some_iff.mpr before
    simp only [noteDestroy, Bool.and_eq_true]
    refine ⟨inv.mine before, ?_⟩
    rw [symm]
    exact other
  · obtain ⟨k, here, inUse⟩ := inv.current
    rcases destroyed.currentSpace with same | kernel
    · refine ⟨k, same.trans here, ?_⟩
      have other : k ≠ space := by
        rintro rfl
        exact destroyed.left (same.trans here)
      exact (congrArg PagingSpace.inUse (destroyed.others k other)).trans inUse
    · refine ⟨0, kernel.trans inv.tables.kernelSpace, ?_⟩
      have other : 0 ≠ space := by
        rintro rfl
        exact live.2 inv.tables.kernelSpace
      exact (congrArg PagingSpace.inUse (destroyed.others 0 other)).trans inv.tables.kernelRecord

/-- The call leaves the space alone, or fells its tree. -/
theorem Inv.destroy (clear : layout.Clear all) (space : Nat) :
    w.exec layout (.destroyProcessSpace space) = .ok w ∨
    ∃ s', w.exec layout (.destroyProcessSpace space) = .ok (w.noteDestroy s' space) ∧
      s'.memory = w.state.memory ∧ Inv layout all (w.noteDestroy s' space) (tree.fell space) := by
  unfold exec
  dsimp only
  by_cases spared : (w.state.pagingSpaces space).inUse = false ∨ w.state.kernelSpace = some space
  · left
    unfold PagingState.pagingDestroyProcessSpace
    rw [if_pos spared]
    dsimp only [bind, Except.bind]
    rw [if_pos spared]
    rfl
  · right
    rw [not_or] at spared
    obtain ⟨s', r, done, -, inv', destroyed⟩ :=
      inv.destroySpace clear ⟨Bool.eq_true_of_not_eq_false spared.1, spared.2⟩
    refine ⟨s', ?_, destroyed.memory, inv'⟩
    rw [done]
    dsimp only [bind, Except.bind]
    rw [if_neg (not_or.mpr spared)]
    rfl

theorem Inv.switch (clear : layout.Clear all) (space : Nat) :
    ∃ w', w.exec layout (.switchSpace space) = .ok w' ∧ w'.Inv layout all tree := by
  refine ⟨_, rfl, ?_⟩
  unfold PagingState.pagingSwitchSpace
  dsimp only
  split
  · exact inv
  · next goes =>
      rw [not_or] at goes
      exact inv.next clear (inv.tables.switch (some space)) (.refl _) rfl rfl inv.apart inv.mine
        ⟨space, rfl, Bool.eq_true_of_not_eq_false goes.1⟩

end

/-! ## Kernel pages -/

section Pages

variable {t : PagingState} {live : Finset PageRange}

/-- The words of the spaces' tables that a call for kernel pages leaves alone. -/
theorem Inv.entry_confined (inv : w.Inv layout all tree) (clear : layout.Clear all)
    (confined : Confined layout w.state t) {k f i : Nat} {p : List Nat}
    (there : tree k p = some f) (small : i < 512) :
    t.memory.entry f i = w.state.memory.entry f i := by
  obtain ⟨directory, dynamic⟩ := inv.tables.offKernel clear there small
  apply confined.outside _ dynamic
  unfold Apart at directory ⊢
  dsimp only at directory ⊢
  omega

/-- The frames after a call for kernel pages. -/
theorem Inv.restock (inv : w.Inv layout all tree) (sound : Sound layout t)
    (exchanged : Exchanged layout w.state t) :
    Stock t.pmm all (fun f =>
        (w.owned f = true ∨ Backs layout t (fun _ => True) f) ∨ tree.Holds f) ∧
      ∀ {f}, Backs layout t (fun _ => True) f → f ∈ all ∧ w.owned f ≠ true ∧ ¬ tree.Holds f := by
  have stock := inv.tables.spaces.stock
  have taken : ∀ {f}, Backs layout t (fun _ => True) f → t.pmm.Taken f := by
    rintro f ⟨a, page, -, found⟩
    have := (sound.taken page found).2
    rwa [Nat.mul_div_cancel f (by decide)] at this
  have free : ∀ {p : PmmState} {f}, f < p.totalFrames → ¬ p.Taken f → f ∈ p.freeSet := by
    intro p f below untaken
    exact ⟨below, Bool.eq_false_of_not_eq_true fun set => untaken ⟨below, set⟩⟩
  have backed : ∀ {f}, Backs layout t (fun _ => True) f →
      f ∈ all ∧ w.owned f ≠ true ∧ ¬ tree.Holds f := by
    intro f backs
    by_cases before : Backs layout w.state (fun _ => True) f
    · exact ⟨inv.tables.spaces.stocked (Or.inr before), fun owner => inv.apart owner before,
        inv.tables.spaces.unheld (Or.inr before)⟩
    · have managed := (taken backs).1
      rw [exchanged.total] at managed
      obtain ⟨member, unused⟩ := (stock.free f).mp (free managed (exchanged.fresh f backs before))
      rw [not_or] at unused
      exact ⟨member, fun owner => unused.1 (Or.inl owner), unused.2⟩
  refine ⟨⟨sound.booted, fun f member => ?_, fun f => ?_⟩, backed⟩
  · rw [exchanged.total]
    exact stock.managed f member
  by_cases after : Backs layout t (fun _ => True) f
  · refine ⟨fun unset => ?_, fun unused => absurd (Or.inl (Or.inr after)) unused.2⟩
    have set := (taken after).2
    rw [unset.2] at set
    cases set
  by_cases before : Backs layout w.state (fun _ => True) f
  · -- the frame was given back
    have member := inv.tables.spaces.stocked (Or.inr before)
    refine ⟨fun _ => ⟨member, ?_⟩, fun _ => free ?_ (exchanged.freed f before after)⟩
    · rintro ((owner | backs) | table)
      · exact inv.apart owner before
      · exact after backs
      · exact inv.tables.spaces.unheld (Or.inr before) table
    · rw [exchanged.total]
      exact stock.managed f member
  · have same : f ∈ t.pmm.freeSet ↔ f ∈ w.state.pmm.freeSet := by
      have kept := exchanged.kept f before after
      unfold PmmState.Taken at kept
      unfold PmmState.freeSet
      rw [exchanged.total] at kept
      simp only [Set.mem_ofPred_eq, exchanged.total, Bool.eq_false_iff]
      tauto
    rw [same, stock.free]
    unfold Held
    tauto

theorem Inv.exchange (inv : w.Inv layout all tree) (clear : layout.Clear all)
    (pages : (Allocator.mk t live).Inv layout) (exchanged : Exchanged layout w.state t) :
    Inv layout all { w with state := t, live := live } tree := by
  obtain ⟨stock, backed⟩ := inv.restock pages.sound exchanged
  have confined := exchanged.confined
  have tables := inv.tables
  have spaces : Spaces paeFormat layout.Fixed all (Held layout { w with state := t, live := live })
      t.pmm t.memory.entry tree w.mapped := by
    refine (tables.spaces.congr (inv.entry_confined clear confined)).rehold stock ?_ ?_ ?_
    · rintro f (owner | backs)
      · exact tables.spaces.unheld (Or.inl owner)
      · exact (backed backs).2.2
    · rintro f (owner | backs)
      · exact tables.spaces.stocked (Or.inl owner)
      · exact (backed backs).1
    · exact fun found => Or.inl (inv.mine found)
  have alive : ∀ k, t.Live k ↔ w.state.Live k := by
    intro k
    unfold PagingState.Live
    rw [confined.pagingSpaces, confined.kernelSpace]
  refine ⟨⟨spaces, pages.sound.tables.direct, confined.kernelSpace.trans tables.kernelSpace, ?_,
    fun k => ?_, ?_, ?_, tables.fixed, tables.closed⟩, ?_, inv.mine, ?_,
    inv.static.confined confined.outside, fun _ => pages, ?_⟩
  · dsimp only
    rw [confined.pagingSpaces]
    exact tables.kernelRecord
  · rw [alive]
    exact tables.rooted k
  · intro k f there
    dsimp only
    rw [confined.pagingSpaces]
    exact tables.root there
  · intro k f there
    dsimp only
    rw [inv.entry_confined clear confined there (by decide)]
    exact tables.gate there
  · exact fun owner backs => (backed backs).2.1 owner
  · exact inv.half.confined confined.outside pages.sound.tables.dynamic
  · dsimp only
    rw [confined.currentSpace, confined.pagingSpaces]
    exact inv.current

theorem Inv.kernelPages (inv : w.Inv layout all tree) (clear : layout.Clear all) (op : PageOp) :
    ∃ w', w.exec layout (.pages op) = .ok w' ∧ w'.Inv layout all tree := by
  unfold UserWorld.exec
  dsimp only
  split
  · next aligned =>
      obtain ⟨allocator, done, pages, exchanged⟩ := (inv.pages aligned).exec op
      rw [done]
      exact ⟨_, rfl, inv.exchange clear pages exchanged⟩
  · exact ⟨w, rfl, inv⟩

end Pages

/-! ## Runs -/

/-- **One call** keeps the invariant, or meets a free frame out of reach. -/
theorem Inv.exec (inv : w.Inv layout all tree) (clear : layout.Clear all) (op : UserOp) :
    (∃ panic, w.exec layout op = .error panic ∧ w.state.Overreaches panic) ∨
    ∃ w' tree', w.exec layout op = .ok w' ∧ w'.Inv layout all tree' := by
  cases op with
  | configureNumaTopology nodeCount =>
      obtain ⟨w', done, inv'⟩ := inv.configure clear nodeCount
      exact Or.inr ⟨w', tree, done, inv'⟩
  | allocFrameOnNode preferredNode =>
      obtain ⟨w', done, inv'⟩ := inv.allocFrame clear preferredNode
      exact Or.inr ⟨w', tree, done, inv'⟩
  | allocFramesOnNode frameCount preferredNode =>
      obtain ⟨w', done, inv'⟩ := inv.allocFrames clear frameCount preferredNode
      exact Or.inr ⟨w', tree, done, inv'⟩
  | freeFrame physicalAddr =>
      obtain ⟨w', done, inv'⟩ := inv.freeFrame clear physicalAddr
      exact Or.inr ⟨w', tree, done, inv'⟩
  | createProcessSpaceOnNode preferredNumaNode => exact inv.create clear preferredNumaNode
  | mapUserPage space address physicalAddr flags =>
      exact inv.map clear space address physicalAddr flags
  | unmapUserPage space address => exact Or.inr (inv.unmap clear space address)
  | destroyProcessSpace space =>
      rcases inv.destroy clear space with spared | ⟨s', done, -, inv'⟩
      · exact Or.inr ⟨w, tree, spared, inv⟩
      · exact Or.inr ⟨_, _, done, inv'⟩
  | switchSpace space =>
      obtain ⟨w', done, inv'⟩ := inv.switch clear space
      exact Or.inr ⟨w', tree, done, inv'⟩
  | pages op =>
      obtain ⟨w', done, inv'⟩ := inv.kernelPages clear op
      exact Or.inr ⟨w', tree, done, inv'⟩

/-- The panic over a frame of the PMM that is beyond the direct map. -/
def OutOfReach (all : Set Nat) (panic : Panic) : Prop :=
  ∃ f ∈ all, ¬ Reachable f ∧ panic = .exceedsDirectMapAperture (f * 4096)

/-- **A run** keeps the invariant, or ends at a free frame out of reach. -/
theorem Inv.run (inv : w.Inv layout all tree) (clear : layout.Clear all) (ops : List UserOp) :
    (∃ panic, w.run layout ops = .error panic ∧ OutOfReach all panic) ∨
    ∃ w' tree', w.run layout ops = .ok w' ∧ w'.Inv layout all tree' := by
  induction ops generalizing w tree with
  | nil => exact Or.inr ⟨w, tree, rfl, inv⟩
  | cons op ops ih =>
      unfold UserWorld.run
      rcases inv.exec clear op with ⟨panic, fails, f, free, beyond, rfl⟩ | ⟨w', tree', done, inv'⟩
      · rw [fails]
        exact Or.inl ⟨_, rfl, f, ((inv.tables.spaces.stock.free f).mp free).1, beyond, rfl⟩
      · rw [done]
        exact ih inv'

end UserWorld

end Dfos.Paging
