import Dfos.Paging.UserTables

/-!
# Mapping and unmapping a user page

`pae_map_user_page_in_space` and `pae_unmap_user_page_in_space` as edits of the
tree of a space.  A map makes the tables it lacks on the way down; an unmapping
gives back the tables it leaves without an entry, on the way up.
-/

namespace Dfos.Paging

open Dfos.Lib
open Dfos.Pmm

/-! ## Mapping a page -/

/-- The tables after a call on a page of a space: only that space has changed. -/
structure Remapped (layout : Layout) (all : Set Nat) (held : Nat → Prop) (s : PagingState)
    (tree : Trees Nat) (space : Nat) (s' : PagingState) (tree' : Trees Nat)
    (mapped' : (Nat × Nat) ≃. Nat) : Prop where
  tables : UserTables layout all held s' tree' mapped'
  served : Served layout all s s'
  others : ∀ {k p}, k ≠ space → tree' k p = tree k p

theorem address_route (address : Nat) :
    paeFormat.route (address / pageSize) = [paePdptIndexOf address, paeDirectoryIndexOf address] ∧
      paeFormat.slot (address / pageSize) = paeTableIndexOf address ∧
      paeDirectoryIndexOf address < 512 := by
  rw [paePdptIndexOf_eq, paeDirectoryIndexOf_eq, paeTableIndexOf_eq]
  unfold pageSize
  simp only [paeFormat, List.cons.injEq, and_true]
  refine ⟨⟨by omega, by omega⟩, by omega, by omega⟩

theorem paePdptIndexOf_user {address : Nat} (below : address < kernelVma) :
    paePdptIndexOf address < 3 := by
  rw [paePdptIndexOf_eq]
  unfold kernelVma at below
  omega

/-- The indices of a user address lead to its page, in an open table. -/
theorem user_route {address : Nat} (user : pagingAddressIsUser address = true) :
    paePdptIndexOf address < 3 ∧ paeDirectoryIndexOf address < 512 ∧
      paeFormat.route (address / pageSize) = [paePdptIndexOf address, paeDirectoryIndexOf address] ∧
      paeFormat.slot (address / pageSize) = paeTableIndexOf address ∧
      paeFormat.Open (paeFormat.route (address / pageSize)) := by
  obtain ⟨route, slot, wide⟩ := address_route address
  unfold pagingAddressIsUser pagingUserLimit at user
  simp only [Bool.and_eq_true, decide_eq_true_eq] at user
  refine ⟨paePdptIndexOf_user user.2, wide, route, slot, ?_⟩
  have above := user.1
  unfold pagingUserBase at above
  unfold pageSize
  simp only [paeFormat, List.cons.injEq, and_true, ne_eq, not_and]
  omega

/-- An address in an open table is a user address. -/
theorem user_of_open {address : Nat} (top : paePdptIndexOf address < 3)
    (opened : paeFormat.Open [paePdptIndexOf address, paeDirectoryIndexOf address]) :
    pagingAddressIsUser address = true := by
  unfold pagingAddressIsUser pagingUserLimit pagingUserBase kernelVma
  rw [paePdptIndexOf_eq] at top
  simp only [paeFormat, List.cons.injEq, and_true, ne_eq, not_and, paePdptIndexOf_eq,
    paeDirectoryIndexOf_eq] at opened
  simp only [Bool.and_eq_true, decide_eq_true_eq]
  omega

namespace UserTables

variable {layout : Layout} {all : Set Nat} {held : Nat → Prop} {s : PagingState}
  {tree : Trees Nat} {mapped : (Nat × Nat) ≃. Nat} {space f g r n address physicalAddr flags : Nat}

theorem spacePdpt (tables : UserTables layout all held s tree mapped)
    (root : tree space [] = some r) :
    paeSpacePdpt layout s.memory (s.pagingSpaces space) = .ok (r * 4096) := by
  have reachable := tables.spaces.reachable root
  have page : r * 4096 &&& 0xFFFFF000 = r * 4096 :=
    addrMask_of_page (dvd_mul_left _ _) (by have := reachable.small; omega)
  unfold paeSpacePdpt
  rw [tables.root root, page]
  exact tables.direct.physToVirt reachable

/-- A frame that is free after a table was made was free before. -/
theorem free_of_grows {s' : PagingState} {tree' : Trees Nat}
    (tables : UserTables layout all held s tree mapped)
    (tables' : UserTables layout all held s' tree' mapped)
    (grows : ∀ {k p h}, tree k p = some h → tree' k p = some h) (free : f ∈ s'.pmm.freeSet) :
    f ∈ s.pmm.freeSet := by
  obtain ⟨member, unused⟩ := (tables'.spaces.stock.free f).mp free
  refine (tables.spaces.stock.free f).mpr ⟨member, fun used => unused (used.imp_right ?_)⟩
  rintro ⟨k, p, there⟩
  exact ⟨k, p, grows there⟩

theorem writeLeaf (tables : UserTables layout all held s tree mapped) (clear : layout.Clear all)
    (table : tree space (paeFormat.route n) = some f) (opened : paeFormat.Open (paeFormat.route n))
    (fresh : mapped.symm g = none) (holder : held g) {entry : Nat}
    (leaf : paeFormat.Leaf entry g) :
    Remapped layout all held s tree space
      { s with memory := s.memory.store (WordMemory.word (f * 4096) (paeFormat.slot n)) entry }
      tree (Matching.put mapped (space, n) g fresh) := by
  have small : paeFormat.slot n < paeFormat.width (paeFormat.route n) := paeFormat.slot_lt n
  have still := tables.still_store table small (fun _ => opened) s.memory entry
  have paged : Paged paeFormat _ tree (Matching.put mapped (space, n) g fresh) :=
    tables.spaces.paged.put table opened (puts_store (paeFormat.slot_lt n)) leaf
  exact ⟨tables.edit clear ⟨still, rfl, rfl, rfl, rfl⟩ (tables.spaces.put holder paged)
    (fun _ => rfl) (tables.gate_store table small) (fun _ _ => rfl) (fun there _ => Or.inl there),
    ⟨still, rfl, rfl, rfl, rfl⟩, fun _ => rfl⟩

theorem leaf_make (small : g < 2 ^ 20) (flags : Nat) :
    paeFormat.Leaf (paeMakeEntry (g * 4096)
      (paeEntryPresent ||| paeEntryUser ||| (flags &&& 0xFFF))) g := by
  have low : paeEntryPresent ||| paeEntryUser ||| (flags &&& 0xFFF) < 4096 := by
    apply Nat.or_lt_two_pow (n := 12)
    · decide
    · rw [land_offset]
      exact Nat.mod_lt _ (by decide)
  refine ⟨paeMakeEntry_present.mpr ?_, paeMakeEntry_addr (dvd_mul_left _ _) (by omega) low⟩
  unfold Present
  rw [Nat.and_or_distrib_right]
  intro none
  exact absurd (Nat.or_eq_zero_iff.mp none).1 (by decide)

/-- An entry that is present and open to the user. -/
def Marked (entry : Nat) : Prop := Present entry ∧ entry &&& paeEntryUser ≠ 0

/-- **`pae_map_user_page_in_space`**: it maps the page, or fails for lack of a
frame with every page as it was, or meets a frame out of reach. -/
theorem mapInSpace (tables : UserTables layout all held s tree mapped) (clear : layout.Clear all)
    (root : tree space [] = some r) (user : pagingAddressIsUser address = true)
    (fresh : mapped.symm g = none) (holder : held g) (flags : Nat) :
    (∃ panic, s.paeMapUserPageInSpace layout space address (g * 4096) flags = .error panic ∧
      s.Overreaches panic) ∨
    (∃ s' tree', s.paeMapUserPageInSpace layout space address (g * 4096) flags = .ok (s', false) ∧
      Remapped layout all held s tree space s' tree' mapped ∧
      (pmmAllocFrameOnNode s'.pmm (s.pagingSpaces space).preferredNumaNode).2 = none ∧
      (s' = s ∧ tree space [paePdptIndexOf address] = none ∨
        Marked (s'.memory.entry r (paePdptIndexOf address)))) ∨
    ∃ s' tree', s.paeMapUserPageInSpace layout space address (g * 4096) flags = .ok (s', true) ∧
      Remapped layout all held s tree space s' tree'
        (Matching.put mapped (space, address / pageSize) g fresh) ∧
      Marked (s'.memory.entry r (paePdptIndexOf address)) := by
  obtain ⟨top, wide, route, slot, opened⟩ := user_route user
  have small : g < 2 ^ 20 := tables.spaces.stock.small (tables.spaces.stocked holder)
  unfold PagingState.paeMapUserPageInSpace
  rw [tables.spacePdpt root]
  simp only [bind, Except.bind, pure, Except.pure]
  generalize (s.pagingSpaces space).preferredNumaNode = node
  rcases tables.userTable clear root (by decide) top (fun last => by cases last) node with
    ⟨panic, fails, reaches⟩ | ⟨fails, absent, empty⟩ | ⟨s₁, d, tree₁, first, made⟩
  · rw [fails]
    exact Or.inl ⟨panic, rfl, reaches⟩
  · rw [fails]
    exact Or.inr (Or.inl ⟨s, tree, rfl, ⟨tables, .refl s, fun _ => rfl⟩, empty,
      Or.inl ⟨rfl, absent⟩⟩)
  rw [first]
  dsimp only
  have others₁ : ∀ {k p}, k ≠ space → tree₁ k p = tree k p :=
    fun other => made.others fun same => other same.1
  have opens : paeFormat.Open [paePdptIndexOf address, paeDirectoryIndexOf address] :=
    route ▸ opened
  have marked : Marked (s₁.memory.entry r (paePdptIndexOf address)) :=
    ⟨(made.tables.linked (made.grows root) Nat.two_pos top made.here).1, made.user⟩
  rcases made.tables.userTable clear made.here Nat.one_lt_two wide (fun _ => opens) node with
    ⟨panic, fails, h, free, beyond, rfl⟩ | ⟨fails, -, empty⟩ | ⟨s₂, table, tree₂, second, made₂⟩
  · left
    rw [fails]
    exact ⟨_, rfl, h, tables.free_of_grows made.tables made.grows free, beyond, rfl⟩
  · right
    left
    rw [fails]
    exact ⟨s₁, tree₁, rfl, ⟨made.tables, made.served, others₁⟩, empty, Or.inr marked⟩
  · right
    right
    rw [second]
    have here : tree₂ space (paeFormat.route (address / pageSize)) = some table :=
      route ▸ made₂.here
    have written := made₂.tables.writeLeaf clear here opened fresh holder (leaf_make small flags)
    refine ⟨_, tree₂, rfl, ⟨?_, ?_, ?_⟩, ?_⟩
    · rw [← slot]
      exact written.tables
    · rw [← slot]
      exact made.served.trans (made₂.served.trans written.served)
    · intro k p other
      rw [made₂.others fun same => other same.1]
      exact others₁ other
    · -- neither the second table nor the page shares a word with the first entry
      have root₁ := made.grows root
      have bound : paePdptIndexOf address < 512 := by omega
      have puts : paeFormat.Puts s₂.memory.entry _ table (paeFormat.slot (address / pageSize))
          (paeMakeEntry (g * 4096) (paeEntryPresent ||| paeEntryUser ||| (flags &&& 0xFFF))) :=
        puts_store (paeFormat.slot_lt (address / pageSize))
      have leaf := made₂.tables.spaces.paged.forest.puts_other puts here (made₂.grows root₁)
        (fun same => Paged.route_ne_nil paeFormat (address / pageSize) same.2.1.symm) bound
      rw [slot] at leaf
      dsimp only
      rw [leaf, made₂.entries root₁ (fun same => by simp at same) bound]
      exact marked

end UserTables

/-! ## Unmapping a page -/

theorem paeTableHasPresentEntries_eq_false {m : WordMemory} {f count : Nat} :
    paeTableHasPresentEntries m (f * 4096) count = false ↔
      ∀ j < count, ¬ Present (m.entry f j) := by
  unfold paeTableHasPresentEntries WordMemory.entry
  simp

theorem paeTableHasPresentEntries_eq_true {m : WordMemory} {f count : Nat} :
    paeTableHasPresentEntries m (f * 4096) count = true ↔ ∃ j < count, Present (m.entry f j) := by
  unfold paeTableHasPresentEntries WordMemory.entry
  simp

/-- What the unmapping of page `n` of a space took away: nothing while another
page of its table is mapped, the table with its last page, the directory with
its last table. -/
inductive Reclaimed (tree : Trees Nat) (mapped : (Nat × Nat) ≃. Nat) (space n i j : Nat) :
    (tree' : Trees Nat) → (freed : List Nat) → Prop where
  | nothing (kept : mapped (space, n) ≠ none → ∃ n', paeFormat.route n' = [i, j] ∧ n' ≠ n ∧
        mapped (space, n') ≠ none) : Reclaimed tree mapped space n i j tree []
  | table {t : Nat} (table : tree space [i, j] = some t)
      (last : ∀ n', paeFormat.route n' = [i, j] → n' ≠ n → mapped (space, n') = none)
      (another : ∃ j', j' ≠ j ∧ tree space [i, j'] ≠ none) :
      Reclaimed tree mapped space n i j (tree.set space [i, j] none) [t * 4096]
  | directory {t d : Nat} (table : tree space [i, j] = some t)
      (last : ∀ n', paeFormat.route n' = [i, j] → n' ≠ n → mapped (space, n') = none)
      (directory : tree space [i] = some d)
      (alone : ∀ j', j' ≠ j → tree space [i, j'] = none) :
      Reclaimed tree mapped space n i j ((tree.set space [i, j] none).set space [i] none)
        [t * 4096, d * 4096]

/-- Every entry of a page table is some page's. -/
theorem exists_slot (n : Nat) {l : Nat} (small : l < 512) :
    ∃ n', paeFormat.route n' = paeFormat.route n ∧ paeFormat.slot n' = l := by
  refine ⟨n / 512 * 512 + l, ?_, ?_⟩
  · simp only [paeFormat, List.cons.injEq, and_true]
    omega
  · simp only [paeFormat]
    omega

namespace UserTables

variable {layout : Layout} {all : Set Nat} {held : Nat → Prop} {s : PagingState}
  {tree : Trees Nat} {mapped : (Nat × Nat) ≃. Nat} {key space f g i r n address : Nat}
  {path : List Nat}

section

variable (tables : UserTables layout all held s tree mapped)
include tables

theorem clearLeaf (clear : layout.Clear all)
    (table : tree space (paeFormat.route n) = some f)
    (opened : paeFormat.Open (paeFormat.route n)) :
    Remapped layout all held s tree space
      { s with memory := s.memory.store (WordMemory.word (f * 4096) (paeFormat.slot n)) 0 }
      tree (Matching.keep mapped fun place => place ≠ (space, n)) := by
  have small : paeFormat.slot n < paeFormat.width (paeFormat.route n) := paeFormat.slot_lt n
  have still := tables.still_store table small (fun _ => opened) s.memory 0
  have paged := tables.spaces.paged.clear table (puts_store (paeFormat.slot_lt n))
  exact ⟨tables.edit clear ⟨still, rfl, rfl, rfl, rfl⟩ (tables.spaces.keep paged)
    (fun _ => rfl) (tables.gate_store table small) (fun _ _ => rfl) (fun there _ => Or.inl there),
    ⟨still, rfl, rfl, rfl, rfl⟩, fun _ => rfl⟩

/-- **A table is given back.** -/
theorem reclaim (clear : layout.Clear all)
    (parent : tree key path = some g) (inner : path.length < 2) (small : i < paeFormat.width path)
    (child : tree key (path ++ [i]) = some f) (unfixed : ¬ layout.Fixed key (path ++ [i]))
    (leafless : ∀ j, tree key (path ++ [i] ++ [j]) = none)
    (pageless : ∀ n, paeFormat.route n = path ++ [i] → mapped (key, n) = none) :
    Remapped layout all held s tree key
      { s with
        memory := s.memory.store (WordMemory.word (g * 4096) i) 0
        pmm := pmmFreeFrame s.pmm (f * 4096) }
      (tree.set key (path ++ [i]) none) mapped := by
  have bound : i < 512 := Nat.lt_of_lt_of_le small (paeFormat.width_le path)
  have member := (tables.spaces.members child).resolve_left unfixed
  have still := tables.still_store parent small (fun last => by omega) s.memory 0
  have paged := tables.spaces.paged.prune parent inner leafless pageless (puts_store bound)
  have notRoot : ∀ k, ¬ (k = key ∧ ([] : List Nat) = path ++ [i]) := fun k same => by simp at same
  refine ⟨tables.edit clear ⟨still, rfl, rfl, rfl, rfl⟩
    (tables.spaces.unsettle child member paged) (fun k => Trees.set_other (notRoot k))
    (tables.gate_store parent small) ?_ ?_, ⟨still, rfl, rfl, rfl, rfl⟩,
    fun other => Trees.set_other fun same => other same.1⟩
  · intro p h _ static
    apply Trees.set_other
    rintro ⟨rfl, rfl⟩
    exact unfixed ⟨rfl, by rw [static]; nofun⟩
  · intro k p there _
    left
    by_cases here : k = key ∧ p = path ++ [i]
    · rw [here.1, here.2, Trees.set_here] at there
      exact (there rfl).elim
    · rwa [Trees.set_other here] at there

/-- A page table without a present entry maps no page. -/
theorem pageless
    (table : tree space (paeFormat.route n) = some f)
    (empty : ∀ l < 512, ¬ Present (s.memory.entry f l)) {n' : Nat}
    (same : paeFormat.route n' = paeFormat.route n) : mapped (space, n') = none := by
  cases found : mapped (space, n') with
  | none => rfl
  | some g =>
      have shows := tables.spaces.paged.leaves (same ▸ table) (tables.spaces.paged.backed found).1
      rw [found] at shows
      exact (empty _ (paeFormat.slot_lt n') shows.1).elim

/-- A directory without a present entry has no tables. -/
theorem leafless
    (directory : tree space [i] = some f)
    (empty : ∀ j < 512, ¬ Present (s.memory.entry f j)) (j : Nat) :
    tree space ([i] ++ [j]) = none := by
  cases found : tree space ([i] ++ [j]) with
  | none => rfl
  | some t =>
      obtain ⟨inner, small, -⟩ := tables.spaces.paged.forest.parent (by rw [found]; nofun)
      have links := tables.spaces.paged.forest.links directory inner small
      rw [found] at links
      exact (empty j small links.1).elim

/-- A directory without tables is not the kernel's. -/
theorem unfixed_of_leafless
    (directory : tree space [i] = some f) (leafless : ∀ j, tree space ([i] ++ [j]) = none) :
    ¬ layout.Fixed space [i] := by
  rintro ⟨rfl, static⟩
  cases i with
  | zero =>
      have there := tables.fixed (p := [0, 0]) (tables.hasRoot directory) rfl
      cases there.symm.trans (leafless 0)
  | succ i => exact static rfl

/-- The page's table has another page. -/
theorem another_page
    (table : tree space (paeFormat.route n) = some f) (opened : paeFormat.Open (paeFormat.route n))
    (present : ∃ l < 512, Present (s.memory.entry f l)) :
    ∃ n', paeFormat.route n' = paeFormat.route n ∧ mapped (space, n') ≠ none := by
  obtain ⟨l, small, entry⟩ := present
  obtain ⟨n', route, slot⟩ := exists_slot n small
  refine ⟨n', route, fun none => ?_⟩
  have shows := tables.spaces.paged.leaves (route ▸ table) (route ▸ opened)
  rw [none, slot] at shows
  exact shows entry

/-- The directory has another table. -/
theorem another_table
    (directory : tree space [i] = some f) (present : ∃ j < 512, Present (s.memory.entry f j)) :
    ∃ j, tree space [i, j] ≠ none := by
  obtain ⟨j, small, entry⟩ := present
  refine ⟨j, fun none => ?_⟩
  have links := tables.spaces.paged.forest.links directory Nat.one_lt_two small
  rw [show [i] ++ [j] = [i, j] from rfl, none] at links
  exact links entry

/-- The walk of an unmapping ends early at a page that is not mapped. -/
theorem unmap_absent
    (root : tree space [] = some r) (user : pagingAddressIsUser address = true)
    (absent : mapped (space, address / pageSize) = none) :
    s.paeUnmapUserPageInSpace layout space address = .ok (s, []) := by
  obtain ⟨top, wide, route, slot, opened⟩ := user_route user
  unfold PagingState.paeUnmapUserPageInSpace
  rw [tables.spacePdpt root]
  simp only [bind, Except.bind, pure, Except.pure]
  rcases directory : tree space [paePdptIndexOf address] with _ | d
  · exact if_pos (tables.vacant root Nat.two_pos top directory)
  have linked := tables.linked root Nat.two_pos top directory
  rw [if_neg (not_not.mpr linked.1),
    tables.direct.linked linked (tables.spaces.reachable directory)]
  dsimp only
  rcases table : tree space [paePdptIndexOf address, paeDirectoryIndexOf address] with _ | t
  · exact if_pos (Or.inl (tables.vacant directory Nat.one_lt_two wide table))
  have linked := tables.linked directory Nat.one_lt_two wide table
  rw [if_neg (not_or.mpr ⟨not_not.mpr linked.1, not_not.mpr linked.2.2⟩),
    tables.direct.linked linked (tables.spaces.reachable table)]
  rw [← slot]
  exact if_pos (tables.leaf_none (route ▸ table) opened absent)

/-- **`pae_unmap_user_page_in_space`** unmaps the page, never panics, and gives
back each table it leaves empty. -/
theorem unmapInSpace
    (clear : layout.Clear all) (root : tree space [] = some r)
    (user : pagingAddressIsUser address = true) :
    ∃ s' tree' freed, s.paeUnmapUserPageInSpace layout space address = .ok (s', freed) ∧
      Remapped layout all held s tree space s' tree'
        (Matching.keep mapped fun place => place ≠ (space, address / pageSize)) ∧
      Reclaimed tree mapped space (address / pageSize) (paePdptIndexOf address)
        (paeDirectoryIndexOf address) tree' freed := by
  by_cases absent : mapped (space, address / pageSize) = none
  · rw [Paged.keep_absent absent]
    exact ⟨s, tree, [], tables.unmap_absent root user absent, ⟨tables, .refl s, fun _ => rfl⟩,
      .nothing fun some => absurd absent some⟩
  obtain ⟨top, wide, route, slot, opened⟩ := user_route user
  obtain ⟨g, found⟩ := Option.ne_none_iff_exists'.mp absent
  obtain ⟨t, leafTable⟩ := Option.ne_none_iff_exists'.mp (tables.spaces.paged.backed found).2
  have table : tree space [paePdptIndexOf address, paeDirectoryIndexOf address] = some t :=
    route ▸ leafTable
  have parent : tree space [paePdptIndexOf address] ≠ none :=
    (tables.spaces.paged.forest.parent (p := [paePdptIndexOf address])
      (fun none => by cases table.symm.trans none)).2.2
  obtain ⟨d, directory⟩ := Option.ne_none_iff_exists'.mp parent
  have linkedDirectory := tables.linked root Nat.two_pos top directory
  have linkedTable := tables.linked directory Nat.one_lt_two wide table
  have leaf : Present (s.memory (WordMemory.word (t * 4096) (paeTableIndexOf address))) := by
    rw [← slot]
    exact (tables.leaf leafTable opened found).1
  unfold PagingState.paeUnmapUserPageInSpace
  rw [tables.spacePdpt root]
  simp only [bind, Except.bind, pure, Except.pure]
  rw [if_neg (not_not.mpr linkedDirectory.1),
    tables.direct.linked linkedDirectory (tables.spaces.reachable directory)]
  dsimp only
  rw [if_neg (not_or.mpr ⟨not_not.mpr linkedTable.1, not_not.mpr linkedTable.2.2⟩),
    tables.direct.linked linkedTable (tables.spaces.reachable table)]
  dsimp only
  rw [if_neg (not_not.mpr leaf), linkedDirectory.2.1, linkedTable.2.1]
  -- the page goes
  have cleared := tables.clearLeaf clear leafTable opened
  rw [slot] at cleared
  by_cases more : paeTableHasPresentEntries (s.memory.store
      (WordMemory.word (t * 4096) (paeTableIndexOf address)) 0) (t * 4096) paePteEntries = true
  · rw [if_pos more]
    refine ⟨_, tree, [], rfl, cleared, .nothing fun _ => ?_⟩
    obtain ⟨n, same, other⟩ := cleared.tables.another_page leafTable opened
      (paeTableHasPresentEntries_eq_true.mp more)
    obtain ⟨h, kept⟩ := Option.ne_none_iff_exists'.mp other
    obtain ⟨away, before⟩ := Matching.keep_some kept
    refine ⟨n, same.trans route, ?_, by rw [before]; nofun⟩
    rintro rfl
    simp at away
  rw [if_neg more]
  -- the table goes
  have empty := paeTableHasPresentEntries_eq_false.mp (Bool.eq_false_of_not_eq_true more)
  have pageless : ∀ n, paeFormat.route n = [paePdptIndexOf address] ++ [paeDirectoryIndexOf address] →
      Matching.keep mapped (fun place => place ≠ (space, address / pageSize)) (space, n) = none :=
    fun n same => cleared.tables.pageless leafTable empty (same.trans route.symm)
  have last : ∀ n, paeFormat.route n = [paePdptIndexOf address, paeDirectoryIndexOf address] →
      n ≠ address / pageSize → mapped (space, n) = none := by
    intro n same other
    have gone := pageless n same
    rwa [Matching.keep_in (by simp [other])] at gone
  have unfixed : ¬ layout.Fixed space ([paePdptIndexOf address] ++ [paeDirectoryIndexOf address]) := by
    rintro ⟨-, static⟩
    rw [route] at opened
    exact static (kernelTable_open opened rfl)
  have reclaimed := cleared.tables.reclaim clear directory Nat.one_lt_two wide table unfixed
    (fun j => by
      by_contra present
      exact absurd (tables.spaces.paged.forest.parent present).1 (Nat.lt_irrefl 2)) pageless
  have untouched : ∀ {p}, p ≠ [paePdptIndexOf address, paeDirectoryIndexOf address] →
      tree.set space ([paePdptIndexOf address] ++ [paeDirectoryIndexOf address]) none space p =
        tree space p := fun other => Trees.set_other fun same => other same.2
  by_cases more : paeTableHasPresentEntries ((s.memory.store
      (WordMemory.word (t * 4096) (paeTableIndexOf address)) 0).store
        (WordMemory.word (d * 4096) (paeDirectoryIndexOf address)) 0) (d * 4096) paePdeEntries = true
  · rw [if_pos more]
    refine ⟨_, _, _, rfl, ⟨reclaimed.tables, cleared.served.trans reclaimed.served,
      reclaimed.others⟩, .table table last ?_⟩
    obtain ⟨j, there⟩ := reclaimed.tables.another_table (by rw [untouched]; exact directory; simp)
      (paeTableHasPresentEntries_eq_true.mp more)
    have other : j ≠ paeDirectoryIndexOf address := by
      rintro rfl
      exact there Trees.set_here
    rw [untouched (by simp [other])] at there
    exact ⟨j, other, there⟩
  · rw [if_neg more]
    -- the directory goes
    have short : [paePdptIndexOf address].length < paeFormat.depth := Nat.one_lt_two
    have directory' := (untouched (p := [paePdptIndexOf address]) (by simp)).trans directory
    have leafless := reclaimed.tables.leafless directory'
      (paeTableHasPresentEntries_eq_false.mp (Bool.eq_false_of_not_eq_true more))
    have reclaimed' := reclaimed.tables.reclaim clear ((untouched (by simp)).trans root) Nat.two_pos
      top directory' (reclaimed.tables.unfixed_of_leafless directory' leafless) leafless
      fun n same => absurd same (Paged.route_ne paeFormat short n)
    refine ⟨_, _, _, rfl, ⟨reclaimed'.tables, cleared.served.trans
      (reclaimed.served.trans reclaimed'.served), fun other =>
        (reclaimed'.others other).trans (reclaimed.others other)⟩,
      .directory table last directory fun j other => ?_⟩
    have gone := leafless j
    rwa [untouched (by simp [other])] at gone

end

end UserTables

end Dfos.Paging
