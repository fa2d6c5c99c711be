import Dfos.Paging.UserMaps

/-!
# Creating, destroying and reading a space

`paging_create_process_space_on_node` plants a tree, `paging_destroy_process_space`
fells one and gives back every frame of its tables and of the pages still mapped
in it.  A lookup below `KERNEL_VMA` reads what was mapped; one above reads the
kernel's tables, the same from every space.
-/

namespace Dfos.Paging

open Dfos.Lib
open Dfos.Pmm

namespace UserTables

variable {layout : Layout} {all : Set Nat} {held held' : Nat → Prop} {s : PagingState}
  {tree : Trees Nat} {mapped : (Nat × Nat) ≃. Nat} {space f r n address : Nat}

/-! ## Creating a space -/

theorem frame_mask (small : f < 2 ^ 20) : f * 4096 &&& 0xFFFFF000 = f * 4096 :=
  addrMask_of_page (dvd_mul_left _ _) (by omega)

/-- The memory of a new PDPT. -/
def newPdpt (layout : Layout) (m : WordMemory) (f : Nat) : WordMemory :=
  (m.fill (f * 4096) (fun _ => 0) paePteEntries).store
    (WordMemory.word (f * 4096) paePdptEntryKernel)
    (paeMakeEntry layout.kernelDirectory paeEntryPresent)

theorem newPdpt_still (member : f ∈ all) {m : WordMemory} :
    Still layout all m (newPdpt layout m f) :=
  (Still.fill member).trans (.store member (by decide))

theorem newPdpt_entry {m : WordMemory} {g i : Nat} (small : i < 512) :
    (newPdpt layout m f).entry g i =
      if g = f ∧ i = paePdptEntryKernel then paeMakeEntry layout.kernelDirectory paeEntryPresent
      else if g = f then 0 else m.entry g i := by
  unfold newPdpt
  rw [WordMemory.entry_store (by decide) small]
  split
  · rfl
  · exact WordMemory.entry_clear small

theorem newPdpt_other {m : WordMemory} {g i : Nat} (other : g ≠ f) (small : i < 512) :
    (newPdpt layout m f).entry g i = m.entry g i := by
  rw [newPdpt_entry small, if_neg fun same => other same.1, if_neg other]

/-- No record is free: the frame goes back. -/
theorem discard (tables : UserTables layout all held s tree mapped) (clear : layout.Clear all)
    {t : PmmState} (member : f ∈ all) (free : ¬ held f) (fresh : ¬ tree.Holds f)
    (stock : Stock t all fun g => (held g ∨ tree.Holds g) ∨ g = f) :
    UserTables layout all held
      { s with pmm := pmmFreeFrame t (f * 4096), memory := newPdpt layout s.memory f } tree
      mapped := by
  have other : ∀ {k p g}, tree k p = some g → g ≠ f := fun there same =>
    fresh ⟨_, _, same ▸ there⟩
  have stock' : Stock (pmmFreeFrame t (f * 4096)) all fun g => held g ∨ tree.Holds g := by
    refine (stock.giveBack member).congr fun g => ⟨fun used => used.1.resolve_right used.2,
      fun used => ⟨Or.inl used, ?_⟩⟩
    rintro rfl
    exact used.elim free fresh
  have moved : Spaces paeFormat layout.Fixed all held s.pmm (newPdpt layout s.memory f).entry tree
      mapped := tables.spaces.congr fun there small => newPdpt_other (other there) small
  have spaces := moved.rehold stock' tables.spaces.unheld tables.spaces.stocked tables.spaces.data
  exact tables.edit clear ⟨newPdpt_still member, rfl, rfl, rfl, rfl⟩ spaces (fun _ => rfl)
    (fun there => newPdpt_other (other there) (by decide)) (fun _ _ => rfl)
    (fun there _ => Or.inl there)

/-- A space that is not in use has no tables, and is not the kernel's. -/
theorem absent (tables : UserTables layout all held s tree mapped)
    (unused : (s.pagingSpaces space).inUse = false) : space ≠ 0 ∧ tree space [] = none := by
  have nonzero : space ≠ 0 := by
    rintro rfl
    rw [tables.kernelRecord] at unused
    cases unused
  refine ⟨nonzero, ?_⟩
  by_contra present
  rcases (tables.rooted space).mp present with live | ⟨zero, -⟩
  · rw [live.1] at unused
    cases unused
  · exact nonzero zero

/-- A record is taken: the space has a root. -/
theorem plant (tables : UserTables layout all held s tree mapped) (clear : layout.Clear all)
    {t : PmmState} (member : f ∈ all) (free : ¬ held f) (fresh : ¬ tree.Holds f)
    (reachable : Reachable f) (stock : Stock t all fun g => (held g ∨ tree.Holds g) ∨ g = f)
    (unused : (s.pagingSpaces space).inUse = false) (node : Nat) :
    UserTables layout all held
      (PagingState.setSpace { s with pmm := t, memory := newPdpt layout s.memory f } space
        { inUse := true, rootPhysical := f * 4096, preferredNumaNode := node })
      (tree.set space [] (some f)) mapped := by
  obtain ⟨nonzero, absent⟩ := tables.absent unused
  have other : ∀ {k p g}, tree k p = some g → g ≠ f := fun there same =>
    fresh ⟨_, _, same ▸ there⟩
  have vacant : ∀ i < paeFormat.width [], ¬ Present ((newPdpt layout s.memory f).entry f i) := by
    intro i small
    have off : i ≠ paePdptEntryKernel := by
      rintro rfl
      exact absurd small (by decide)
    rw [newPdpt_entry (Nat.lt_of_lt_of_le small (paeFormat.width_le [])),
      if_neg fun same => off same.2, if_pos rfl]
    exact not_present_zero
  have paged := tables.spaces.paged.plant absent fresh
    (fun g i other small => newPdpt_other other small) vacant
  refine ⟨tables.spaces.settle absent member free reachable stock paged,
    tables.direct.still clear (newPdpt_still member), tables.kernelSpace, ?_, fun k => ?_, ?_, ?_,
    ?_, ?_⟩
  · unfold PagingState.setSpace
    dsimp only
    rw [if_neg (Ne.symm nonzero)]
    exact tables.kernelRecord
  · unfold PagingState.Live PagingState.setSpace
    dsimp only
    by_cases here : k = space
    · rw [here, Trees.set_here, if_pos rfl, tables.kernelSpace]
      simp [Ne.symm nonzero]
    · rw [Trees.set_other fun same => here same.1, if_neg here]
      exact tables.rooted k
  · intro k g there
    unfold PagingState.setSpace
    dsimp only
    rcases Trees.set_some there with ⟨rfl, -, rfl⟩ | before
    · rw [if_pos rfl]
    · have away : k ≠ space := by
        rintro rfl
        rw [absent] at before
        cases before
      rw [if_neg away]
      exact tables.root before
  · intro k g there
    unfold PagingState.setSpace
    dsimp only
    rcases Trees.set_some there with ⟨-, -, rfl⟩ | before
    · rw [newPdpt_entry (by decide), if_pos ⟨rfl, rfl⟩]
    · rw [newPdpt_other (other before) (by decide)]
      exact tables.gate before
  · intro p g rooted static
    have away : ∀ q : List Nat, ¬ (0 = space ∧ q = []) := fun q same => nonzero same.1.symm
    rw [Trees.set_other (away _)] at rooted ⊢
    exact tables.fixed rooted static
  · intro k p there length shut
    rw [Trees.set_other] at there
    · exact tables.closed there length shut
    · rintro ⟨-, rfl⟩
      cases length

/-- What creating a space leaves alone. -/
structure Created (layout : Layout) (all : Set Nat) (s s' : PagingState) (result : Option Nat) :
    Prop where
  still : Still layout all s.memory s'.memory
  vmas : s'.vmas = s.vmas
  kernelSpace : s'.kernelSpace = s.kernelSpace
  currentSpace : s'.currentSpace = s.currentSpace
  here : ∀ space, result = some space →
    (s.pagingSpaces space).inUse = false ∧ (s'.pagingSpaces space).inUse = true
  others : ∀ k, result ≠ some k → s'.pagingSpaces k = s.pagingSpaces k

/-- The words of the tables are the same. -/
def Untouched (tree : Trees Nat) (s s' : PagingState) : Prop :=
  ∀ {k p g i}, tree k p = some g → i < 512 → s'.memory.entry g i = s.memory.entry g i

/-- The trees after a call to create a space, and what it returned. -/
inductive Planted (s : PagingState) (node : Nat) (tree : Trees Nat) :
    Option Nat → Trees Nat → Prop where
  | nothing (why : s.freeSpaceRecord = none ∨ (pmmAllocFrameOnNode s.pmm node).2 = none) :
      Planted s node tree none tree
  | root {space f : Nat} (record : s.freeSpaceRecord = some space)
      (absent : tree space [] = none) : Planted s node tree (some space) (tree.set space [] (some f))

/-- **`paging_create_process_space_on_node`** plants a tree, or changes nothing
that shows, or meets a frame out of reach. -/
theorem create (tables : UserTables layout all held s tree mapped) (clear : layout.Clear all)
    (node : Nat) :
    (∃ panic, s.pagingCreateProcessSpaceOnNode layout node = .error panic ∧
      s.Overreaches panic) ∨
    ∃ s' result tree', s.pagingCreateProcessSpaceOnNode layout node = .ok (s', result) ∧
      UserTables layout all held s' tree' mapped ∧ Planted s node tree result tree' ∧
      Untouched tree s s' ∧ Created layout all s s' result := by
  unfold PagingState.pagingCreateProcessSpaceOnNode
  rw [tables.spaces.stock.booted.initialized, tables.kernelSpace, if_neg (by decide),
    if_neg (by decide)]
  unfold PagingState.paeCreateProcessSpace
  rcases found : pmmAllocFrameOnNode s.pmm node with ⟨t, _ | address⟩
  · rw [tables.spaces.stock.alloc_none found]
    exact Or.inr ⟨s, none, tree, rfl, tables, .nothing (Or.inr (congrArg Prod.snd found)),
      fun _ _ => rfl, .refl _, rfl, rfl, rfl, nofun, fun _ _ => rfl⟩
  obtain ⟨f, rfl, member, free, fresh, stock⟩ := tables.spaces.alloc found
  have mask := frame_mask (tables.spaces.stock.small member)
  have untouched : ∀ {k p g i}, tree k p = some g → i < 512 →
      (newPdpt layout s.memory f).entry g i = s.memory.entry g i := by
    intro k p g i there small
    apply newPdpt_other _ small
    rintro rfl
    exact fresh ⟨_, _, there⟩
  dsimp only
  rw [mask]
  by_cases reachable : Reachable f
  · right
    rw [tables.direct.physToVirt reachable]
    simp only [bind, Except.bind, pure, Except.pure]
    cases record : PagingState.freeSpaceRecord _ with
    | none =>
        exact ⟨_, none, tree, rfl, tables.discard clear member free fresh stock,
          .nothing (Or.inl record), untouched, newPdpt_still member, rfl, rfl, rfl, nofun,
          fun _ _ => rfl⟩
    | some space =>
        have unused : (s.pagingSpaces space).inUse = false := by
          have passes := List.find?_some record
          simpa using passes
        refine ⟨_, some space, _, rfl,
          tables.plant clear member free fresh reachable stock unused node,
          .root record (tables.absent unused).2, untouched, newPdpt_still member, rfl, rfl, rfl, ?_,
          fun k other => if_neg fun same => other (congrArg some same.symm)⟩
        rintro k same
        obtain rfl := Option.some.inj same
        refine ⟨unused, ?_⟩
        unfold PagingState.setSpace
        dsimp only
        rw [if_pos rfl]
  · left
    refine ⟨.exceedsDirectMapAperture (f * 4096), ?_, f, ?_, reachable, rfl⟩
    · unfold pagingPhysToVirt
      unfold Reachable at reachable
      rw [if_pos (by omega)]
      rfl
    · exact (tables.spaces.stock.free f).mpr ⟨member, not_or.mpr ⟨free, fresh⟩⟩

end UserTables

/-! ## Destroying a space -/

section Frames

variable (tree : Trees Nat) (mapped : (Nat × Nat) ≃. Nat) (space : Nat)

/-- The frames of the pages of a table and of the table. -/
def tableFrames (i j : Nat) : List Nat :=
  match tree space [i, j] with
  | none => []
  | some t =>
      (List.range 512).filterMap (fun l => mapped (space, (i * 512 + j) * 512 + l)) ++ [t]

/-- The frames below a directory, and the directory's. -/
def directoryFrames (i : Nat) : List Nat :=
  match tree space [i] with
  | none => []
  | some d => (List.range 512).flatMap (tableFrames tree mapped space i) ++ [d]

/-- The frames of a space whose root is in frame `r`, in the order they are
freed. -/
def spaceFrames (r : Nat) : List Nat :=
  (List.range 3).flatMap (directoryFrames tree mapped space) ++ [r]

end Frames

theorem collectFrees_ok {body : Nat → Except Panic (List Nat)} {frames : Nat → List Nat}
    {rounds : List Nat} (each : ∀ i ∈ rounds, body i = .ok ((frames i).map (· * 4096))) :
    PagingState.collectFrees body rounds = .ok ((rounds.flatMap frames).map (· * 4096)) := by
  induction rounds with
  | nil => rfl
  | cons i rounds ih =>
      unfold PagingState.collectFrees
      rw [each i List.mem_cons_self, ih fun j later => each j (List.mem_cons_of_mem i later),
        List.flatMap_cons, List.map_append]
      rfl

namespace UserTables

variable {layout : Layout} {all : Set Nat} {held held' : Nat → Prop} {s : PagingState}
  {tree : Trees Nat} {mapped : (Nat × Nat) ≃. Nat} {space f r n i j t d address : Nat}

theorem page_route (small : j < 512) {l : Nat} (entry : l < 512) :
    paeFormat.route ((i * 512 + j) * 512 + l) = [i, j] ∧
      paeFormat.slot ((i * 512 + j) * 512 + l) = l := by
  simp only [paeFormat, List.cons.injEq, and_true]
  omega

section

variable (tables : UserTables layout all held s tree mapped)
include tables

/-- The tables of a process space are all open. -/
theorem open_of_process (process : space ≠ 0)
    (there : tree space [i, j] = some t) : paeFormat.Open [i, j] := by
  by_contra shut
  exact process (tables.closed (by rw [there]; nofun) rfl shut)

/-- The loop over a page table frees the pages mapped in it. -/
theorem tableFrees_eq (process : space ≠ 0)
    (small : j < 512) (there : tree space [i, j] = some t) :
    PagingState.tableFrees s.memory (t * 4096) =
      ((List.range 512).filterMap fun l => mapped (space, (i * 512 + j) * 512 + l)).map
        (· * 4096) := by
  unfold PagingState.tableFrees
  rw [List.map_filterMap]
  apply List.filterMap_congr
  intro l member
  obtain ⟨route, slot⟩ := page_route (i := i) small (List.mem_range.mp member)
  have opened := tables.open_of_process process there
  rw [← route] at there opened
  cases found : mapped (space, (i * 512 + j) * 512 + l) with
  | none =>
      have shows := tables.leaf_none there opened found
      rw [slot] at shows
      exact if_neg shows
  | some g =>
      have shows := tables.leaf there opened found
      rw [slot] at shows
      exact (if_pos shows.1).trans (congrArg some shows.2)

theorem directoryEntryFrees_eq
    (process : space ≠ 0) (directory : tree space [i] = some d) (small : j < 512) :
    PagingState.directoryEntryFrees layout s.memory (d * 4096) j =
      .ok ((tableFrames tree mapped space i j).map (· * 4096)) := by
  unfold PagingState.directoryEntryFrees tableFrames
  simp only [bind, Except.bind, pure, Except.pure]
  cases table : tree space [i, j] with
  | none => exact if_pos (Or.inl (tables.vacant directory Nat.one_lt_two small table))
  | some t =>
      have linked := tables.linked directory Nat.one_lt_two small table
      rw [if_neg (not_or.mpr ⟨not_not.mpr linked.1, not_not.mpr linked.2.2⟩),
        tables.direct.linked linked (tables.spaces.reachable table), linked.2.1]
      dsimp only
      rw [tables.tableFrees_eq process small table, List.map_append]
      rfl

theorem pdptEntryFrees_eq
    (process : space ≠ 0) (root : tree space [] = some r) (small : i < 3) :
    PagingState.pdptEntryFrees layout s.memory (r * 4096) i =
      .ok ((directoryFrames tree mapped space i).map (· * 4096)) := by
  unfold PagingState.pdptEntryFrees directoryFrames
  simp only [bind, Except.bind, pure, Except.pure]
  cases directory : tree space [i] with
  | none => exact if_pos (tables.vacant root Nat.two_pos small directory)
  | some d =>
      have linked := tables.linked root Nat.two_pos small directory
      rw [if_neg (not_not.mpr linked.1),
        tables.direct.linked linked (tables.spaces.reachable directory), linked.2.1]
      dsimp only
      have each : ∀ j ∈ List.range paePdeEntries,
          PagingState.directoryEntryFrees layout s.memory (d * 4096) j = _ := fun j member =>
        tables.directoryEntryFrees_eq process directory (List.mem_range.mp member)
      rw [collectFrees_ok each]
      dsimp only
      rw [List.map_append]
      rfl

theorem path_cases {p : List Nat}
    (there : tree space p = some f) :
    p = [] ∨ (∃ i < 3, p = [i]) ∨ ∃ i < 3, ∃ j < 512, p = [i, j] := by
  have forest := tables.spaces.paged.forest
  rcases p.eq_nil_or_concat' with rfl | ⟨q, j, rfl⟩
  · exact Or.inl rfl
  right
  obtain ⟨short, small, above⟩ := forest.parent (by rw [there]; nofun)
  rcases q.eq_nil_or_concat' with rfl | ⟨q, i, rfl⟩
  · exact Or.inl ⟨j, small, rfl⟩
  obtain ⟨shorter, top, -⟩ := forest.parent above
  have nil : q = [] := by
    rw [List.length_append, List.length_singleton] at short
    exact List.eq_nil_of_length_eq_zero (Nat.lt_one_iff.mp (Nat.succ_lt_succ_iff.mp short))
  subst nil
  exact Or.inr ⟨i, top, j, small, rfl⟩

end

theorem mem_tableFrames (there : tree space [i, j] = some t) :
    f ∈ tableFrames tree mapped space i j ↔
      f = t ∨ ∃ l < 512, mapped (space, (i * 512 + j) * 512 + l) = some f := by
  unfold tableFrames
  rw [there]
  simp [or_comm]

theorem mem_directoryFrames (there : tree space [i] = some d) :
    f ∈ directoryFrames tree mapped space i ↔
      f = d ∨ ∃ j < 512, f ∈ tableFrames tree mapped space i j := by
  unfold directoryFrames
  rw [there]
  simp [or_comm]

/-- **The frames a space frees** are those of its tables and of its pages. -/
theorem mem_spaceFrames (tables : UserTables layout all held s tree mapped)
    (root : tree space [] = some r) :
    f ∈ spaceFrames tree mapped space r ↔
      (∃ p, tree space p = some f) ∨ ∃ n, mapped (space, n) = some f := by
  have forest := tables.spaces.paged.forest
  unfold spaceFrames
  simp only [List.mem_append, List.mem_flatMap, List.mem_range, List.mem_singleton]
  constructor
  · rintro (⟨i, -, below⟩ | rfl)
    · rcases directory : tree space [i] with _ | d
      · rw [directoryFrames, directory] at below
        cases below
      rcases (mem_directoryFrames directory).mp below with rfl | ⟨j, -, below⟩
      · exact Or.inl ⟨[i], directory⟩
      rcases table : tree space [i, j] with _ | t
      · rw [tableFrames, table] at below
        cases below
      rcases (mem_tableFrames table).mp below with rfl | ⟨l, -, page⟩
      · exact Or.inl ⟨[i, j], table⟩
      · exact Or.inr ⟨_, page⟩
    · exact Or.inl ⟨[], root⟩
  · -- a table is found below its directory, and a page below its table
    have deep : ∀ {i j t}, tree space [i, j] = some t → f ∈ tableFrames tree mapped space i j →
        ∃ i < 3, f ∈ directoryFrames tree mapped space i := by
      intro i j t table below
      obtain ⟨-, small, above⟩ := forest.parent (p := [i]) (fun none => by
        cases table.symm.trans none)
      obtain ⟨d, directory⟩ := Option.ne_none_iff_exists'.mp above
      obtain ⟨-, top, -⟩ := forest.parent (p := []) above
      exact ⟨i, top, (mem_directoryFrames directory).mpr (Or.inr ⟨j, small, below⟩)⟩
    rintro (⟨p, there⟩ | ⟨n, page⟩)
    · rcases tables.path_cases there with rfl | ⟨i, top, rfl⟩ | ⟨i, -, j, -, rfl⟩
      · exact Or.inr (Option.some.inj (there.symm.trans root))
      · exact Or.inl ⟨i, top, (mem_directoryFrames there).mpr (Or.inl rfl)⟩
      · exact Or.inl (deep there ((mem_tableFrames there).mpr (Or.inl rfl)))
    · obtain ⟨t, table⟩ := Option.ne_none_iff_exists'.mp (tables.spaces.paged.backed page).2
      refine Or.inl (deep table ((mem_tableFrames table).mpr (Or.inr ⟨n % 512, ?_, ?_⟩)))
      · exact Nat.mod_lt n (by decide)
      · have number : (n / 2 ^ 18 * 512 + n / 2 ^ 9 % 512) * 512 + n % 512 = n := by omega
        rw [number]
        exact page

/-- What destroying a space leaves alone. -/
structure Destroyed (layout : Layout) (all : Set Nat) (s s' : PagingState) (space : Nat) :
    Prop where
  memory : s'.memory = s.memory
  vmas : s'.vmas = s.vmas
  kernelSpace : s'.kernelSpace = s.kernelSpace
  currentSpace : s'.currentSpace = s.currentSpace ∨ s'.currentSpace = s.kernelSpace
  left : s'.currentSpace ≠ some space
  gone : (s'.pagingSpaces space).inUse = false
  others : ∀ k, k ≠ space → s'.pagingSpaces k = s.pagingSpaces k

theorem release_here : ((s.pagingReleaseSpaceRecord space).pagingSpaces space).inUse = false :=
  congrArg PagingSpace.inUse (if_pos rfl)

theorem release_other {k : Nat} (other : k ≠ space) :
    (s.pagingReleaseSpaceRecord space).pagingSpaces k = s.pagingSpaces k := if_neg other

section

variable (tables : UserTables layout all held s tree mapped)
include tables

/-- The tables do not depend on the space that is current. -/
theorem switch (current : Option Nat) :
    UserTables layout all held { s with currentSpace := current } tree mapped :=
  ⟨tables.spaces, tables.direct, tables.kernelSpace, tables.kernelRecord, tables.rooted,
    tables.root, tables.gate, tables.fixed, tables.closed⟩

/-- A space is left before it is destroyed. -/
theorem leave (process : space ≠ 0) :
    ∃ current, (if s.currentSpace = some space then s.pagingSwitchSpace s.kernelSpace else s) =
        { s with currentSpace := current } ∧
      (current = s.currentSpace ∨ current = s.kernelSpace) ∧ current ≠ some space := by
  by_cases here : s.currentSpace = some space
  · refine ⟨some 0, ?_, Or.inr tables.kernelSpace.symm, fun same =>
      process (Option.some.inj same).symm⟩
    have switches : s.pagingSwitchSpace (some 0) = { s with currentSpace := some 0 } := by
      unfold PagingState.pagingSwitchSpace
      dsimp only
      rw [here, tables.kernelRecord, if_neg (by simp [process])]
    rw [if_pos here, ← switches, tables.kernelSpace]
  · exact ⟨s.currentSpace, if_neg here, Or.inl rfl, here⟩

theorem paeDestroy_eq (process : space ≠ 0)
    (root : tree space [] = some r) :
    s.paeDestroyProcessSpace layout space =
      let freed := (spaceFrames tree mapped space r).map (· * 4096)
      .ok ({ s with pmm := freed.foldl pmmFreeFrame s.pmm }, freed) := by
  have each : ∀ i ∈ List.range paePdptEntryKernel,
      PagingState.pdptEntryFrees layout s.memory (r * 4096) i = _ := fun i member =>
    tables.pdptEntryFrees_eq process root (List.mem_range.mp member)
  have last : (s.pagingSpaces space).rootPhysical &&& 0xFFFFF000 = r * 4096 := by
    rw [tables.root root]
    exact frame_mask (tables.spaces.reachable root).small
  have frames : (spaceFrames tree mapped space r).map (· * 4096) =
      ((List.range 3).flatMap (directoryFrames tree mapped space)).map (· * 4096) ++
        [r * 4096] := List.map_append
  unfold PagingState.paeDestroyProcessSpace
  rw [tables.spacePdpt root]
  simp only [bind, Except.bind, pure, Except.pure]
  rw [collectFrees_ok each, last, frames]
  rfl

/-- **`paging_destroy_process_space`** of a live space never panics and fells its
tree. -/
theorem destroy (live : s.Live space)
    (holders : ∀ f, held' f ↔ held f ∧ ∀ n, mapped (space, n) ≠ some f) :
    ∃ s' r, s.pagingDestroyProcessSpace layout space =
        .ok (s', (spaceFrames tree mapped space r).map (· * 4096)) ∧
      tree space [] = some r ∧
      UserTables layout all held' s' (tree.fell space)
        (Matching.keep mapped fun place => place.1 ≠ space) ∧
      Destroyed layout all s s' space := by
  have process : space ≠ 0 := by
    rintro rfl
    exact live.2 tables.kernelSpace
  obtain ⟨r, root⟩ := Option.ne_none_iff_exists'.mp ((tables.rooted space).mpr (Or.inl live))
  obtain ⟨current, left, where_, away⟩ := tables.leave process
  have spaces := tables.spaces.fell (fun p fixed => process fixed.1)
    (fun f => tables.mem_spaceFrames root) holders
  unfold PagingState.pagingDestroyProcessSpace
  rw [if_neg (not_or.mpr ⟨by rw [live.1]; decide, live.2⟩)]
  dsimp only
  rw [left, (tables.switch current).paeDestroy_eq process root]
  refine ⟨_, r, rfl, root, ⟨spaces, tables.direct, tables.kernelSpace, ?_, fun k => ?_, ?_, ?_, ?_,
    ?_⟩, ⟨rfl, rfl, rfl, where_, away, release_here, fun k other => release_other other⟩⟩
  · rw [release_other (Ne.symm process)]
    exact tables.kernelRecord
  · unfold PagingState.Live
    by_cases here : k = space
    · rw [here, release_here, Trees.fell_here]
      simp [process]
    · rw [release_other here, Trees.fell_other here]
      exact tables.rooted k
  · intro k f there
    obtain ⟨other, there⟩ := Trees.fell_some there
    rw [release_other other]
    exact tables.root there
  · intro k f there
    exact tables.gate (Trees.fell_some there).2
  · intro p f rooted static
    rw [Trees.fell_other (Ne.symm process)] at rooted ⊢
    exact tables.fixed rooted static
  · intro k p there length shut
    by_cases here : k = space
    · rw [here, Trees.fell_here] at there
      exact (there rfl).elim
    · rw [Trees.fell_other here] at there
      exact tables.closed there length shut

end

end UserTables

end Dfos.Paging
