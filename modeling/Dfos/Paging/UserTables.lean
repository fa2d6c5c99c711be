import Dfos.Paging.Lookup
import Dfos.Paging.Spaces
import Dfos.Paging.UserPages

/-!
# The tables of the process spaces

In PAE mode a space is a tree of three levels, the PDPT, directories and page
tables, of which the first three entries of the PDPT belong to the user.  The
kernel space is such a tree too, over the static `pae_pdpt`, where `pae_pdpt`
starts a page; its identity tables below `PAGING_USER_BASE` are closed to user
mappings.  Each call edits the trees and leaves alone every other word of the
static tables.
-/

namespace Dfos.Paging

open Dfos.Lib
open Dfos.Pmm

/-! ## The format -/

/-- An entry that leads to the table in a frame. -/
def Linked (entry frame : Nat) : Prop :=
  Present entry ∧ entry &&& paeEntryAddrMask = frame * 4096 ∧ entry &&& paeEntryPageSize = 0

/-- Tables of 512 entries, the PDPT with three for the user. -/
def paeFormat : PageFormat where
  depth := 2
  size := 512
  width path := if path = [] then 3 else 512
  Links := Linked
  Vacant entry := ¬ Present entry
  width_le path := by split <;> omega
  vacant_zero := not_present_zero
  route n := [n / 2 ^ 18, n / 2 ^ 9 % 512]
  slot n := n % 512
  Leaf entry frame := Present entry ∧ entry &&& paeEntryAddrMask = frame * 4096
  Open path := path ≠ [0, 0] ∧ path ≠ [0, 1]
  depth_pos := Nat.two_pos
  route_length _ := rfl
  slot_lt n := Nat.mod_lt n (by decide)
  page_inj {n n'} route slot := by
    simp only [List.cons.injEq, and_true] at route
    omega

theorem Linked.make {frame flags : Nat} (small : frame < 2 ^ 20) (low : flags < 4096)
    (present : Present flags) (page : flags &&& paeEntryPageSize = 0) :
    Linked (paeMakeEntry (frame * 4096) flags) frame := by
  refine ⟨paeMakeEntry_present.mpr present, ?_, ?_⟩
  · exact paeMakeEntry_addr (dvd_mul_left _ _) (by omega) low
  · rw [paeMakeEntry_flag (by decide), page]

/-- More rights for the user do not change where an entry leads. -/
theorem Linked.upgrade {entry frame : Nat} (linked : Linked entry frame) :
    Linked (entry ||| (paeEntryUser ||| paeEntryWritable)) frame := by
  obtain ⟨present, address, small⟩ := linked
  refine ⟨?_, ?_, ?_⟩
  · unfold Present at present ⊢
    have clear : (paeEntryUser ||| paeEntryWritable) &&& paeEntryPresent = 0 := by decide
    rwa [Nat.and_or_distrib_right, clear, Nat.or_zero]
  · have clear : (paeEntryUser ||| paeEntryWritable) &&& paeEntryAddrMask = 0 := by decide
    rw [Nat.and_or_distrib_right, address, clear, Nat.or_zero]
  · have clear : (paeEntryUser ||| paeEntryWritable) &&& paeEntryPageSize = 0 := by decide
    rw [Nat.and_or_distrib_right, small, clear, Nat.or_zero]

theorem Reachable.small {frame : Nat} (reachable : Reachable frame) : frame < 2 ^ 20 := by
  unfold Reachable kernelDirectMapLimitPhys at reachable
  omega

/-- Following the link to a table. -/
theorem DirectMap.linked {layout : Layout} {m : WordMemory} {entry frame : Nat}
    (direct : DirectMap layout m) (linked : Linked entry frame) (reachable : Reachable frame) :
    paeEntryPointer layout m entry = .ok (frame * 4096) := by
  unfold paeEntryPointer
  rw [linked.2.1]
  exact direct.physToVirt reachable

section Edits

variable {m : WordMemory} {f g i value : Nat}

theorem puts_store (small : i < 512) :
    paeFormat.Puts m.entry (m.store (WordMemory.word (g * 4096) i) value).entry g i value :=
  fun _ _ bound => WordMemory.entry_store small bound

theorem clears_fill :
    paeFormat.Clears m.entry (m.fill (f * 4096) (fun _ => 0) paePteEntries).entry f :=
  fun _ _ bound => WordMemory.entry_clear bound

end Edits

/-! ## The static tables -/

/-- The ranges of the static tables. -/
def Layout.ranges (layout : Layout) : List (Nat × Nat) :=
  [(layout.pdpt, 8 * paePdptEntries), (layout.identityDirectory, pageSize),
    (layout.identityTables, 2 * pageSize), (layout.kernelDirectory, pageSize),
    (layout.directMapTables, paeDirectMapPdeCount * pageSize),
    (layout.dynamicTables, paeDynamicPdeCount * pageSize)]

/-- The frames of the kernel space that are not the PMM's. -/
def Layout.kernelTable (layout : Layout) : List Nat → Option Nat
  | [] => some (layout.pdpt / 4096)
  | [0] => some (layout.identityDirectory / 4096)
  | [0, 0] => some (layout.identityTables / 4096)
  | [0, 1] => some (layout.identityTables / 4096 + 1)
  | _ => none

def Layout.Fixed (layout : Layout) (space : Nat) (path : List Nat) : Prop :=
  space = 0 ∧ layout.kernelTable path ≠ none

/-- No frame of `all` meets a static table. -/
def Layout.Clear (layout : Layout) (all : Set Nat) : Prop :=
  ∀ f ∈ all, ∀ r ∈ layout.ranges, Apart (f * 4096, 4096) r

/-- The words that no call on a space writes: those outside the frames of `all`,
the user's part of `pae_pdpt` and `pae_identity_page_directory`. -/
def Still (layout : Layout) (all : Set Nat) (m m' : WordMemory) : Prop :=
  ∀ a, a / 4096 ∉ all → Apart (a, 8) (layout.pdpt, 24) →
    Apart (a, 8) (layout.identityDirectory, 4096) → m' a = m a

/-- The kernel's page tables are closed. -/
theorem kernelTable_open {layout : Layout} {path : List Nat} (opened : paeFormat.Open path)
    (last : path.length = 2) : layout.kernelTable path = none := by
  unfold Layout.kernelTable
  split
  · cases last
  · cases last
  · exact (opened.1 rfl).elim
  · exact (opened.2 rfl).elim
  · rfl

/-- The tables of the kernel space, with their addresses. -/
theorem Layout.kernelTable_cases {layout : Layout} {p : List Nat} {f : Nat}
    (aligned : pageSize ∣ layout.pdpt) (found : layout.kernelTable p = some f) :
    p = [] ∧ f * 4096 = layout.pdpt ∨ p = [0] ∧ f * 4096 = layout.identityDirectory ∨
      ∃ t < 2, p = [0, t] ∧ f * 4096 = layout.identityTables + 4096 * t := by
  have tables := layout.identityTables_aligned
  unfold Layout.kernelTable at found
  split at found
  · obtain rfl := Option.some.inj found
    exact Or.inl ⟨rfl, Nat.div_mul_cancel aligned⟩
  · obtain rfl := Option.some.inj found
    exact Or.inr (Or.inl ⟨rfl, Nat.div_mul_cancel layout.identityDirectory_aligned⟩)
  · obtain rfl := Option.some.inj found
    exact Or.inr (Or.inr ⟨0, by decide, rfl, Nat.div_mul_cancel tables⟩)
  · obtain rfl := Option.some.inj found
    refine Or.inr (Or.inr ⟨1, by decide, rfl, ?_⟩)
    rw [Nat.succ_mul]
    exact congrArg (· + 4096) (Nat.div_mul_cancel tables)
  · cases found

section Static

variable {layout : Layout} {all : Set Nat} {m m' m'' : WordMemory} {a f i value : Nat}

theorem Layout.Clear.word (clear : layout.Clear all) {r : Nat × Nat} (member : r ∈ layout.ranges)
    (low : r.1 ≤ a) (high : a + 8 ≤ r.1 + r.2) : a / 4096 ∉ all := by
  intro inside
  have apart := clear _ inside r member
  unfold Apart at apart
  dsimp only at apart
  omega

theorem Still.refl (m : WordMemory) : Still layout all m m := fun _ _ _ _ => rfl

theorem Still.trans (first : Still layout all m m') (second : Still layout all m' m'') :
    Still layout all m m'' :=
  fun a off pdpt identity => (second a off pdpt identity).trans (first a off pdpt identity)

/-- A write to a frame of `all`. -/
theorem Still.store (member : f ∈ all) (small : i < 512) :
    Still layout all m (m.store (WordMemory.word (f * 4096) i) value) :=
  fun _ off _ _ => WordMemory.store_off small fun same => off (same ▸ member)

theorem Still.fill (member : f ∈ all) :
    Still layout all m (m.fill (f * 4096) (fun _ => 0) paePteEntries) :=
  fun _ off _ _ => WordMemory.clear_off fun same => off (same ▸ member)

section

variable (still : Still layout all m m')
include still

/-- A static table other than `pae_pdpt` and `pae_identity_page_directory`. -/
theorem Still.static (clear : layout.Clear all) {r : Nat × Nat}
    (member : r ∈ [(layout.identityTables, 2 * pageSize), (layout.kernelDirectory, pageSize),
      (layout.directMapTables, paeDirectMapPdeCount * pageSize),
      (layout.dynamicTables, paeDynamicPdeCount * pageSize)])
    (low : r.1 ≤ a) (high : a + 8 ≤ r.1 + r.2) : m' a = m a := by
  have inRanges : r ∈ layout.ranges := by
    unfold Layout.ranges
    exact List.mem_cons_of_mem _ (List.mem_cons_of_mem _ member)
  have apart := layout.apart
  rw [List.pairwise_cons, List.pairwise_cons] at apart
  have pdpt := apart.1 r (List.mem_cons_of_mem _ member)
  have identity := apart.2.1 r member
  unfold Apart paePdptEntries at pdpt
  unfold Apart pageSize at identity
  dsimp only at pdpt identity
  refine still a (clear.word inRanges low high) ?_ ?_
  · unfold Apart
    dsimp only
    omega
  · unfold Apart
    dsimp only
    omega

theorem Still.kernelDirectoryEntry (clear : layout.Clear all)
    {d : Nat} (small : d < 512) :
    m' (layout.kernelDirectoryEntry d) = m (layout.kernelDirectoryEntry d) := by
  refine still.static clear (r := (layout.kernelDirectory, pageSize)) (by simp) ?_ ?_
  · unfold Layout.kernelDirectoryEntry WordMemory.word
    dsimp only
    omega
  · unfold Layout.kernelDirectoryEntry WordMemory.word pageSize
    dsimp only
    omega

theorem Still.directMap (clear : layout.Clear all) {d i : Nat}
    (table : d < 128) (small : i < 512) :
    m' (WordMemory.word (layout.directMapTable d) i) =
      m (WordMemory.word (layout.directMapTable d) i) := by
  refine still.static clear
    (r := (layout.directMapTables, paeDirectMapPdeCount * pageSize)) (by simp) ?_ ?_
  · unfold Layout.directMapTable WordMemory.word
    dsimp only
    omega
  · rw [paeDirectMapPdeCount_eq]
    unfold Layout.directMapTable WordMemory.word pageSize
    dsimp only
    omega

theorem Still.dynamicEntry (clear : layout.Clear all) {n : Nat}
    (number : n < 126 * 512) : m' (layout.dynamicEntry n) = m (layout.dynamicEntry n) := by
  refine still.static clear
    (r := (layout.dynamicTables, paeDynamicPdeCount * pageSize)) (by simp) ?_ ?_
  · unfold Layout.dynamicEntry WordMemory.word
    dsimp only
    omega
  · rw [paeDynamicPdeCount_eq]
    unfold Layout.dynamicEntry WordMemory.word pageSize
    dsimp only
    omega

/-- The fourth entry of `pae_pdpt` is not the user's. -/
theorem Still.pdpte (clear : layout.Clear all) :
    m' (WordMemory.word layout.pdpt paePdptEntryKernel) =
      m (WordMemory.word layout.pdpt paePdptEntryKernel) := by
  have apart := layout.apart
  rw [List.pairwise_cons] at apart
  have identity := apart.1 (layout.identityDirectory, pageSize) (by simp)
  unfold Apart paePdptEntries pageSize at identity
  dsimp only at identity
  apply still
  · apply clear.word (r := (layout.pdpt, 8 * paePdptEntries)) (by simp [Layout.ranges])
    · unfold WordMemory.word
      dsimp only
      omega
    · unfold WordMemory.word paePdptEntryKernel paePdptEntries
      dsimp only
      omega
  · unfold Apart WordMemory.word paePdptEntryKernel
    dsimp only
    omega
  · unfold Apart WordMemory.word paePdptEntryKernel
    dsimp only
    omega

end

theorem DirectMap.still (direct : DirectMap layout m) (clear : layout.Clear all)
    (still : Still layout all m m') : DirectMap layout m' where
  pdpte := by
    rw [still.pdpte clear]
    exact direct.pdpte
  pde d below := by
    rw [still.kernelDirectoryEntry clear (by omega)]
    exact direct.pde d below
  pte d below i small := by
    rw [still.directMap clear below small]
    exact direct.pte d below i small

end Static

/-! ## The invariant -/

/-- A process space that was created and not destroyed since. -/
def PagingState.Live (s : PagingState) (space : Nat) : Prop :=
  (s.pagingSpaces space).inUse = true ∧ s.kernelSpace ≠ some space

instance (s : PagingState) (space : Nat) : Decidable (s.Live space) :=
  inferInstanceAs (Decidable (_ ∧ _))

structure UserTables (layout : Layout) (all : Set Nat) (held : Nat → Prop) (s : PagingState)
    (tree : Trees Nat) (mapped : (Nat × Nat) ≃. Nat) : Prop where
  spaces : Spaces paeFormat layout.Fixed all held s.pmm s.memory.entry tree mapped
  direct : DirectMap layout s.memory
  kernelSpace : s.kernelSpace = some 0
  kernelRecord : (s.pagingSpaces 0).inUse = true
  rooted : ∀ k, tree k [] ≠ none ↔ s.Live k ∨ k = 0 ∧ pageSize ∣ layout.pdpt
  root : ∀ {k f}, tree k [] = some f → (s.pagingSpaces k).rootPhysical = f * 4096
  gate : ∀ {k f}, tree k [] = some f →
    s.memory.entry f paePdptEntryKernel = paeMakeEntry layout.kernelDirectory paeEntryPresent
  fixed : ∀ {p f}, tree 0 [] ≠ none → layout.kernelTable p = some f → tree 0 p = some f
  closed : ∀ {k p}, tree k p ≠ none → p.length = 2 → ¬ paeFormat.Open p → k = 0

/-- What a call on a page of a space leaves alone. -/
structure Served (layout : Layout) (all : Set Nat) (s s' : PagingState) : Prop where
  still : Still layout all s.memory s'.memory
  vmas : s'.vmas = s.vmas
  kernelSpace : s'.kernelSpace = s.kernelSpace
  pagingSpaces : s'.pagingSpaces = s.pagingSpaces
  currentSpace : s'.currentSpace = s.currentSpace

section Served

variable {layout : Layout} {all : Set Nat} {s s' s'' : PagingState}

theorem Served.refl (s : PagingState) : Served layout all s s := ⟨.refl _, rfl, rfl, rfl, rfl⟩

theorem Served.trans (first : Served layout all s s') (second : Served layout all s' s'') :
    Served layout all s s'' :=
  ⟨first.still.trans second.still, second.vmas.trans first.vmas,
    second.kernelSpace.trans first.kernelSpace, second.pagingSpaces.trans first.pagingSpaces,
    second.currentSpace.trans first.currentSpace⟩

theorem Served.live (served : Served layout all s s') {space : Nat} :
    s'.Live space ↔ s.Live space := by
  unfold PagingState.Live
  rw [served.pagingSpaces, served.kernelSpace]

end Served

namespace UserTables

variable {layout : Layout} {all : Set Nat} {held held' : Nat → Prop} {s s' : PagingState}
  {tree tree' : Trees Nat} {mapped mapped' : (Nat × Nat) ≃. Nat} {key k f g i : Nat}
  {path p : List Nat}

section

variable (tables : UserTables layout all held s tree mapped)
include tables

/-- A space with a table has a root. -/
theorem hasRoot (there : tree k p = some g) :
    tree k [] ≠ none := by
  intro none
  rw [tables.spaces.paged.forest.bare none p] at there
  cases there

theorem linked (parent : tree key path = some g)
    (inner : path.length < 2) (small : i < paeFormat.width path)
    (child : tree key (path ++ [i]) = some f) :
    Linked (s.memory (WordMemory.word (g * 4096) i)) f := by
  have links := tables.spaces.paged.forest.links parent inner small
  rw [child] at links
  exact links

theorem vacant (parent : tree key path = some g)
    (inner : path.length < 2) (small : i < paeFormat.width path)
    (absent : tree key (path ++ [i]) = none) :
    ¬ Present (s.memory (WordMemory.word (g * 4096) i)) := by
  have links := tables.spaces.paged.forest.links parent inner small
  rw [absent] at links
  exact links

theorem leaf {n : Nat}
    (table : tree k (paeFormat.route n) = some f) (opened : paeFormat.Open (paeFormat.route n))
    (found : mapped (k, n) = some g) :
    Present (s.memory (WordMemory.word (f * 4096) (paeFormat.slot n))) ∧
      s.memory (WordMemory.word (f * 4096) (paeFormat.slot n)) &&& paeEntryAddrMask = g * 4096 := by
  have shows := tables.spaces.paged.leaves table opened
  rw [found] at shows
  exact shows

theorem leaf_none {n : Nat}
    (table : tree k (paeFormat.route n) = some f) (opened : paeFormat.Open (paeFormat.route n))
    (absent : mapped (k, n) = none) :
    ¬ Present (s.memory (WordMemory.word (f * 4096) (paeFormat.slot n))) := by
  have shows := tables.spaces.paged.leaves table opened
  rw [absent] at shows
  exact shows

/-- A table is in a frame of the PMM or is one of the kernel's. -/
theorem site (there : tree k p = some g) :
    g ∈ all ∨ k = 0 ∧ pageSize ∣ layout.pdpt ∧ layout.kernelTable p = some g := by
  rcases tables.spaces.members there with ⟨rfl, static⟩ | member
  · right
    have rooted := tables.hasRoot there
    obtain ⟨g', named⟩ := Option.ne_none_iff_exists'.mp static
    have same := tables.fixed rooted named
    rw [there] at same
    obtain rfl := Option.some.inj same
    refine ⟨rfl, ?_, named⟩
    rcases (tables.rooted 0).mp rooted with live | aligned
    · exact (live.2 tables.kernelSpace).elim
    · exact aligned.2
  · exact Or.inl member

theorem still_store
    (there : tree k p = some g) (small : i < paeFormat.width p)
    (opened : p.length = 2 → paeFormat.Open p) (m : WordMemory) (value : Nat) :
    Still layout all m (m.store (WordMemory.word (g * 4096) i) value) := by
  have bound := Nat.lt_of_lt_of_le small (paeFormat.width_le p)
  rcases tables.site there with member | ⟨-, aligned, static⟩
  · exact .store member bound
  · intro a off pdpt identity
    apply WordMemory.store_other
    unfold Apart at pdpt identity
    unfold WordMemory.word
    unfold pageSize at aligned
    dsimp only at pdpt identity
    unfold Layout.kernelTable at static
    split at static
    · -- the three entries of `pae_pdpt`
      obtain rfl := Option.some.inj static
      have three : i < 3 := small
      omega
    · have page := layout.identityDirectory_aligned
      unfold pageSize at page
      obtain rfl := Option.some.inj static
      have entries : i < 512 := bound
      omega
    · exact ((opened rfl).1 rfl).elim
    · exact ((opened rfl).2 rfl).elim
    · cases static

/-- **An edit of the tables** that keeps the roots. -/
theorem edit (clear : layout.Clear all)
    (served : Served layout all s s')
    (spaces : Spaces paeFormat layout.Fixed all held' s'.pmm s'.memory.entry tree' mapped')
    (roots : ∀ k, tree' k [] = tree k [])
    (gates : ∀ {k f}, tree k [] = some f →
      s'.memory.entry f paePdptEntryKernel = s.memory.entry f paePdptEntryKernel)
    (fixed : ∀ {p f}, tree 0 [] ≠ none → layout.kernelTable p = some f → tree' 0 p = tree 0 p)
    (closed : ∀ {k p}, tree' k p ≠ none → p.length = 2 → tree k p ≠ none ∨ paeFormat.Open p) :
    UserTables layout all held' s' tree' mapped' where
  spaces := spaces
  direct := tables.direct.still clear served.still
  kernelSpace := served.kernelSpace.trans tables.kernelSpace
  kernelRecord := by
    rw [served.pagingSpaces]
    exact tables.kernelRecord
  rooted k := by
    rw [roots, served.live]
    exact tables.rooted k
  root {k f} here := by
    rw [roots] at here
    rw [served.pagingSpaces]
    exact tables.root here
  gate {k f} here := by
    rw [roots] at here
    rw [gates here]
    exact tables.gate here
  fixed {p f} rooted static := by
    rw [roots] at rooted
    rw [fixed rooted static]
    exact tables.fixed rooted static
  closed {k p} there length shut := by
    rcases closed there length with before | opened
    · exact tables.closed before length shut
    · exact (shut opened).elim

/-- Writing an entry of a user's table keeps the kernel entries of the roots. -/
theorem gate_store
    (written : tree key path = some g) (small : i < paeFormat.width path) {m : WordMemory}
    {value : Nat} (here : tree k [] = some f) :
    (m.store (WordMemory.word (g * 4096) i) value).entry f paePdptEntryKernel =
      m.entry f paePdptEntryKernel := by
  have bound : i < 512 := Nat.lt_of_lt_of_le small (paeFormat.width_le path)
  rw [WordMemory.entry_store bound (by decide)]
  apply if_neg
  rintro ⟨rfl, rfl⟩
  obtain ⟨rfl, rfl⟩ := tables.spaces.paged.forest.inj here written
  exact absurd small (by decide)

end

/-- Clearing a fresh frame keeps the tables. -/
theorem gate_fill (fresh : ¬ tree.Holds g) {m : WordMemory} (here : tree k [] = some f) :
    (m.fill (g * 4096) (fun _ => 0) paePteEntries).entry f paePdptEntryKernel =
      m.entry f paePdptEntryKernel := by
  rw [show paePteEntries = 512 from rfl, WordMemory.entry_clear (by decide)]
  exact if_neg fun same => fresh ⟨_, _, same ▸ here⟩

/-! ## One level of a map -/

end UserTables

/-- The panic over a free frame beyond the direct map. -/
def PagingState.Overreaches (s : PagingState) (panic : Panic) : Prop :=
  ∃ f ∈ s.pmm.freeSet, ¬ Reachable f ∧ panic = .exceedsDirectMapAperture (f * 4096)

/-- Entry `i` of the table in frame `g` leads to frame `f`, for the user too. -/
structure Opened (layout : Layout) (all : Set Nat) (held : Nat → Prop) (s : PagingState)
    (tree : Trees Nat) (mapped : (Nat × Nat) ≃. Nat) (key : Nat) (path : List Nat) (g i : Nat)
    (s' : PagingState) (f : Nat) (tree' : Trees Nat) : Prop where
  tables : UserTables layout all held s' tree' mapped
  here : tree' key (path ++ [i]) = some f
  grows : ∀ {k p h}, tree k p = some h → tree' k p = some h
  others : ∀ {k p}, ¬ (k = key ∧ p = path ++ [i]) → tree' k p = tree k p
  served : Served layout all s s'
  entries : ∀ {k p h j}, tree k p = some h → ¬ (k = key ∧ p = path ∧ j = i) → j < 512 →
    s'.memory.entry h j = s.memory.entry h j
  user : s'.memory.entry g i &&& paeEntryUser ≠ 0

namespace UserTables

variable {layout : Layout} {all : Set Nat} {held : Nat → Prop} {s : PagingState}
  {tree : Trees Nat} {mapped : (Nat × Nat) ≃. Nat} {key f g i : Nat} {path : List Nat}

/-- The table that is there, with the rights of the user. -/
theorem upgrade (tables : UserTables layout all held s tree mapped) (clear : layout.Clear all)
    (parent : tree key path = some g) (inner : path.length < 2) (small : i < paeFormat.width path)
    (child : tree key (path ++ [i]) = some f) (node : Nat) :
    ∃ s', s.userTable layout node (WordMemory.word (g * 4096) i) = .ok (s', some (f * 4096)) ∧
      Opened layout all held s tree mapped key path g i s' f tree := by
  have bound : i < 512 := Nat.lt_of_lt_of_le small (paeFormat.width_le path)
  have linked := tables.linked parent inner small child
  have reachable := tables.spaces.reachable child
  unfold PagingState.userTable
  dsimp only
  rw [if_neg (not_not.mpr linked.1)]
  by_cases already : s.memory (WordMemory.word (g * 4096) i) &&& paeEntryUser = 0
  · rw [if_pos already, if_pos already]
    have served : Served layout all s { s with
        memory := s.memory.store (WordMemory.word (g * 4096) i)
          (s.memory (WordMemory.word (g * 4096) i) ||| (paeEntryUser ||| paeEntryWritable)) } :=
      ⟨tables.still_store parent small (fun last => by omega) _ _, rfl, rfl, rfl, rfl⟩
    have edited : UserTables layout all held _ tree mapped := tables.edit clear served
      { tables.spaces with
        paged := tables.spaces.paged.relink parent inner child (puts_store bound) linked.upgrade }
      (fun _ => rfl) (tables.gate_store parent small) (fun _ _ => rfl)
      (fun there _ => Or.inl there)
    refine ⟨_, ?_, edited, child, id, fun _ => rfl, served,
      tables.spaces.paged.forest.puts_other (puts_store bound) parent, ?_⟩
    · rw [edited.direct.linked linked.upgrade reachable]
      rfl
    · dsimp only
      rw [WordMemory.entry_store bound bound, if_pos ⟨rfl, rfl⟩, Nat.and_or_distrib_right, already]
      decide
  · rw [if_neg already, if_neg already, tables.direct.linked linked reachable]
    exact ⟨s, rfl, tables, child, id, fun _ => rfl, .refl s, fun _ _ _ => rfl, already⟩

theorem extend (tables : UserTables layout all held s tree mapped) (clear : layout.Clear all)
    (parent : tree key path = some g) (inner : path.length < 2) (small : i < paeFormat.width path)
    (opened : path.length = 1 → paeFormat.Open (path ++ [i]))
    (absent : tree key (path ++ [i]) = none) {t : PmmState} (member : f ∈ all)
    (free : ¬ held f) (fresh : ¬ tree.Holds f) (reachable : Reachable f)
    (stock : Stock t all fun g => (held g ∨ tree.Holds g) ∨ g = f) :
    Opened layout all held s tree mapped key path g i
      { s with
        pmm := t
        memory := (s.memory.fill (f * 4096) (fun _ => 0) paePteEntries).store
          (WordMemory.word (g * 4096) i) (paeMakeEntry (f * 4096) userTableFlags) }
      f (tree.set key (path ++ [i]) (some f)) := by
  have bound : i < 512 := Nat.lt_of_lt_of_le small (paeFormat.width_le path)
  have links : Linked (paeMakeEntry (f * 4096) userTableFlags) f :=
    .make reachable.small (by decide) (by decide) (by decide)
  have paged := tables.spaces.paged.grow parent inner small absent fresh clears_fill
    (puts_store bound) links
  have still : Still layout all s.memory _ := (Still.fill member).trans
    (tables.still_store parent small (fun last => by omega) _
      (paeMakeEntry (f * 4096) userTableFlags))
  have notRoot : ∀ k, ¬ (k = key ∧ ([] : List Nat) = path ++ [i]) := fun k same => by simp at same
  refine ⟨tables.edit clear ⟨still, rfl, rfl, rfl, rfl⟩
    (tables.spaces.settle absent member free reachable stock paged)
    (fun k => Trees.set_other (notRoot k)) ?_ ?_ ?_, Trees.set_here, ?_,
    fun other => Trees.set_other other, ⟨still, rfl, rfl, rfl, rfl⟩, ?_, ?_⟩
  · intro k h here
    dsimp only
    rw [tables.gate_store parent small here, gate_fill fresh here]
  · intro p h rooted static
    apply Trees.set_other
    rintro ⟨rfl, rfl⟩
    -- the kernel's own tables are there already
    rw [tables.fixed rooted static] at absent
    cases absent
  · intro k p there length
    by_cases here : k = key ∧ p = path ++ [i]
    · right
      rw [here.2]
      apply opened
      rw [here.2, List.length_append, List.length_singleton] at length
      omega
    · rw [Trees.set_other here] at there
      exact Or.inl there
  · intro k p h before
    rw [Trees.set_other]
    · exact before
    · rintro ⟨rfl, rfl⟩
      rw [absent] at before
      cases before
  · intro k p h j there other narrow
    have old : h ≠ f := fun same => fresh ⟨_, _, same ▸ there⟩
    have off : ¬ (h = g ∧ j = i) := by
      rintro ⟨rfl, rfl⟩
      obtain ⟨rfl, rfl⟩ := tables.spaces.paged.forest.inj there parent
      exact other ⟨rfl, rfl, rfl⟩
    dsimp only
    rw [WordMemory.entry_store bound narrow, if_neg off, show paePteEntries = 512 from rfl,
      WordMemory.entry_clear narrow, if_neg old]
  · dsimp only
    rw [WordMemory.entry_store bound bound, if_pos ⟨rfl, rfl⟩,
      paeMakeEntry_flag (by decide)]
    decide

/-- **One level of a map**: it finds the table or makes it, or the PMM has no
frame, or its frame is out of reach. -/
theorem userTable (tables : UserTables layout all held s tree mapped) (clear : layout.Clear all)
    (parent : tree key path = some g) (inner : path.length < 2) (small : i < paeFormat.width path)
    (opened : path.length = 1 → paeFormat.Open (path ++ [i])) (node : Nat) :
    (∃ panic, s.userTable layout node (WordMemory.word (g * 4096) i) = .error panic ∧
      s.Overreaches panic) ∨
    (s.userTable layout node (WordMemory.word (g * 4096) i) = .ok (s, none) ∧
      tree key (path ++ [i]) = none ∧ (pmmAllocFrameOnNode s.pmm node).2 = none) ∨
    ∃ s' f tree',
      s.userTable layout node (WordMemory.word (g * 4096) i) = .ok (s', some (f * 4096)) ∧
      Opened layout all held s tree mapped key path g i s' f tree' := by
  cases child : tree key (path ++ [i]) with
  | some f =>
      obtain ⟨s', done, result⟩ := tables.upgrade clear parent inner small child node
      exact Or.inr (Or.inr ⟨s', f, tree, done, result⟩)
  | none =>
      have vacant := tables.vacant parent inner small child
      unfold PagingState.userTable
      dsimp only
      rw [if_pos vacant]
      rcases found : pmmAllocFrameOnNode s.pmm node with ⟨t, _ | address⟩
      · right
        left
        rw [tables.spaces.stock.alloc_none found]
        exact ⟨rfl, rfl, rfl⟩
      · obtain ⟨f, rfl, member, free, fresh, stock⟩ := tables.spaces.alloc found
        dsimp only
        by_cases reachable : Reachable f
        · right
          right
          rw [tables.direct.physToVirt reachable]
          exact ⟨_, f, _, rfl,
            tables.extend clear parent inner small opened child member free fresh reachable stock⟩
        · left
          refine ⟨.exceedsDirectMapAperture (f * 4096), ?_, f, ?_, reachable, rfl⟩
          · unfold pagingPhysToVirt
            unfold Reachable at reachable
            rw [if_pos (by omega)]
            rfl
          · exact (tables.spaces.stock.free f).mpr ⟨member, not_or.mpr ⟨free, fresh⟩⟩

end UserTables

end Dfos.Paging
