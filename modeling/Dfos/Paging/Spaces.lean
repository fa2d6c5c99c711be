import Dfos.Lib.PageTrees
import Dfos.Paging.Tables
import Dfos.Pmm.Stock

/-!
# The frames of the address spaces

Each address space is a tree of tables whose frames come from the PMM, but for
those that are fixed in the kernel image.  `Spaces` ties the trees, the pages
mapped in them and the PMM's stock together; everything else that holds frames
of the stock, the mapped ones among it, is `held`.  The edits of the trees keep
it, each with the allocation or the release that goes with it.
-/

namespace Dfos.Paging

open Dfos.Lib
open Dfos.Pmm

/-- The frames below `KERNEL_DIRECT_MAP_LIMIT_PHYS`. -/
def Reachable (frame : Nat) : Prop := frame * 4096 < kernelDirectMapLimitPhys

structure Spaces (format : PageFormat) (Fixed : Nat → List Nat → Prop) (all : Set Nat)
    (held : Nat → Prop) (pmm : PmmState) (m : Tables) (tree : Trees Nat)
    (mapped : (Nat × Nat) ≃. Nat) : Prop where
  paged : Paged format m tree mapped
  stock : Stock pmm all fun f => held f ∨ tree.Holds f
  members : ∀ {k p f}, tree k p = some f → Fixed k p ∨ f ∈ all
  reachable : ∀ {k p f}, tree k p = some f → Reachable f
  unheld : ∀ {f}, held f → ¬ tree.Holds f
  stocked : ∀ {f}, held f → f ∈ all
  data : ∀ {k n f}, mapped (k, n) = some f → held f

section Holds

variable {tree : Trees Nat} {key f g : Nat} {path : List Nat}

theorem holds_set (absent : tree key path = none) :
    (tree.set key path (some f)).Holds g ↔ tree.Holds g ∨ g = f := by
  constructor
  · rintro ⟨k, p, found⟩
    rcases Trees.set_some found with ⟨-, -, rfl⟩ | before
    · exact Or.inr rfl
    · exact Or.inl ⟨k, p, before⟩
  · rintro (⟨k, p, found⟩ | rfl)
    · refine ⟨k, p, ?_⟩
      rw [Trees.set_other]
      · exact found
      · rintro ⟨rfl, rfl⟩
        rw [absent] at found
        cases found
    · exact ⟨key, path, Trees.set_here⟩

theorem holds_unset {scheme : TableScheme} {m : Tables} (forest : Forest scheme m tree)
    (there : tree key path = some f) :
    (tree.set key path none).Holds g ↔ tree.Holds g ∧ g ≠ f := by
  constructor
  · rintro ⟨k, p, found⟩
    obtain ⟨other, before⟩ := Trees.set_none found
    refine ⟨⟨k, p, before⟩, ?_⟩
    rintro rfl
    exact other (forest.inj before there)
  · rintro ⟨⟨k, p, found⟩, other⟩
    refine ⟨k, p, ?_⟩
    rw [Trees.set_other]
    · exact found
    · rintro ⟨rfl, rfl⟩
      exact other (Option.some.inj (found.symm.trans there))

theorem holds_fell {scheme : TableScheme} {m : Tables} (forest : Forest scheme m tree) :
    (tree.fell key).Holds g ↔ tree.Holds g ∧ ∀ p, tree key p ≠ some g := by
  constructor
  · rintro ⟨k, p, found⟩
    obtain ⟨other, before⟩ := Trees.fell_some found
    exact ⟨⟨k, p, before⟩, fun q there => other (forest.inj before there).1⟩
  · rintro ⟨⟨k, p, found⟩, gone⟩
    refine ⟨k, p, ?_⟩
    rw [Trees.fell_other]
    · exact found
    · rintro rfl
      exact gone p found

end Holds

namespace Spaces

variable {format : PageFormat} {Fixed : Nat → List Nat → Prop} {all : Set Nat}
  {held held' : Nat → Prop} {pmm t : PmmState} {m m₁ m' : Tables} {tree : Trees Nat}
  {mapped : (Nat × Nat) ≃. Nat} {key f g i n entry : Nat} {path : List Nat}

section

variable (spaces : Spaces format Fixed all held pmm m tree mapped)
include spaces

/-- The entries may change wherever no table is. -/
theorem congr
    (same : ∀ {k p f i}, tree k p = some f → i < format.size → m' f i = m f i) :
    Spaces format Fixed all held pmm m' tree mapped :=
  { spaces with paged := spaces.paged.congr same }

/-- **An allocated frame** is held by nobody and holds no table. -/
theorem alloc {node address : Nat}
    (found : pmmAllocFrameOnNode pmm node = (t, some address)) :
    ∃ f, address = f * 4096 ∧ f ∈ all ∧ ¬ held f ∧ ¬ tree.Holds f ∧
      Stock t all fun g => (held g ∨ tree.Holds g) ∨ g = f := by
  obtain ⟨f, eq, member, unused, stock⟩ := spaces.stock.alloc found
  rw [not_or] at unused
  exact ⟨f, eq, member, unused.1, unused.2, stock⟩

/-- The holders change, and the PMM with them. -/
theorem rehold
    (stock : Stock t all fun f => held' f ∨ tree.Holds f)
    (unheld : ∀ {f}, held' f → ¬ tree.Holds f) (stocked : ∀ {f}, held' f → f ∈ all)
    (data : ∀ {k n f}, mapped (k, n) = some f → held' f) :
    Spaces format Fixed all held' t m tree mapped where
  paged := spaces.paged
  stock := stock
  members := spaces.members
  reachable := spaces.reachable
  unheld := unheld
  stocked := stocked
  data := data

/-- A table is put where there was none. -/
theorem settle
    (absent : tree key path = none) (member : f ∈ all) (free : ¬ held f) (low : Reachable f)
    (stock : Stock t all fun g => (held g ∨ tree.Holds g) ∨ g = f)
    (paged : Paged format m' (tree.set key path (some f)) mapped) :
    Spaces format Fixed all held t m' (tree.set key path (some f)) mapped where
  paged := paged
  stock := stock.congr fun g => by rw [holds_set absent, or_assoc]
  members {k p h} here := by
    rcases Trees.set_some here with ⟨-, -, rfl⟩ | before
    · exact Or.inr member
    · exact spaces.members before
  reachable {k p h} here := by
    rcases Trees.set_some here with ⟨-, -, rfl⟩ | before
    · exact low
    · exact spaces.reachable before
  unheld {g} holder := by
    rw [holds_set absent, not_or]
    exact ⟨spaces.unheld holder, fun same => free (same ▸ holder)⟩
  stocked := spaces.stocked
  data := spaces.data

/-- A table is taken away and its frame given back. -/
theorem unsettle
    (there : tree key path = some f) (member : f ∈ all)
    (paged : Paged format m' (tree.set key path none) mapped) :
    Spaces format Fixed all held (pmmFreeFrame pmm (f * 4096)) m' (tree.set key path none)
      mapped where
  paged := paged
  stock := (spaces.stock.giveBack member).congr fun g => by
    rw [holds_unset spaces.paged.forest there]
    refine ⟨?_, ?_⟩
    · rintro ⟨holder | table, other⟩
      · exact Or.inl holder
      · exact Or.inr ⟨table, other⟩
    · rintro (holder | ⟨table, other⟩)
      · refine ⟨Or.inl holder, ?_⟩
        rintro rfl
        exact spaces.unheld holder ⟨_, _, there⟩
      · exact ⟨Or.inr table, other⟩
  members here := spaces.members (Trees.set_none here).2
  reachable here := spaces.reachable (Trees.set_none here).2
  unheld holder := fun table =>
    spaces.unheld holder ((holds_unset spaces.paged.forest there).mp table).1
  stocked := spaces.stocked
  data := spaces.data

/-- **A page is mapped** to a frame somebody holds. -/
theorem put
    {fresh : mapped.symm g = none} (holder : held g)
    (paged : Paged format m' tree (Matching.put mapped (key, n) g fresh)) :
    Spaces format Fixed all held pmm m' tree (Matching.put mapped (key, n) g fresh) where
  paged := paged
  stock := spaces.stock
  members := spaces.members
  reachable := spaces.reachable
  unheld := spaces.unheld
  stocked := spaces.stocked
  data {k n' h} found := by
    by_cases same : (k, n') = (key, n)
    · rw [same, Matching.put_here] at found
      exact Option.some.inj found ▸ holder
    · rw [Matching.put_other same] at found
      exact spaces.data found

/-- **Pages are unmapped.** -/
theorem keep {kept : Nat × Nat → Bool}
    (paged : Paged format m' tree (Matching.keep mapped kept)) :
    Spaces format Fixed all held pmm m' tree (Matching.keep mapped kept) where
  paged := paged
  stock := spaces.stock
  members := spaces.members
  reachable := spaces.reachable
  unheld := spaces.unheld
  stocked := spaces.stocked
  data found := spaces.data (Matching.keep_some found).2

/-- **A space is destroyed**: the frames given back are those of its tables and
those mapped in it. -/
theorem fell {frames : List Nat}
    (unfixed : ∀ p, ¬ Fixed key p)
    (frees : ∀ f, f ∈ frames ↔ (∃ p, tree key p = some f) ∨ ∃ n, mapped (key, n) = some f)
    (holders : ∀ f, held' f ↔ held f ∧ ∀ n, mapped (key, n) ≠ some f) :
    Spaces format Fixed all held' ((frames.map (· * 4096)).foldl pmmFreeFrame pmm) m
      (tree.fell key) (Matching.keep mapped fun place => place.1 ≠ key) where
  paged := spaces.paged.fell key
  stock := by
    have members : ∀ f ∈ frames, f ∈ all := by
      intro f freed
      rcases (frees f).mp freed with ⟨p, table⟩ | ⟨n, page⟩
      · exact (spaces.members table).resolve_left (unfixed p)
      · exact spaces.stocked (spaces.data page)
    refine (spaces.stock.giveBackAll frames members).congr fun g => ?_
    rw [holders, holds_fell spaces.paged.forest, frees]
    simp only [not_or, not_exists]
    refine ⟨?_, ?_⟩
    · rintro ⟨holder | table, noTable, noPage⟩
      · exact Or.inl ⟨holder, noPage⟩
      · exact Or.inr ⟨table, noTable⟩
    · rintro (⟨holder, noPage⟩ | ⟨table, noTable⟩)
      · exact ⟨Or.inl holder, fun p there => spaces.unheld holder ⟨_, _, there⟩, noPage⟩
      · exact ⟨Or.inr table, noTable, fun n page => spaces.unheld (spaces.data page) table⟩
  members here := spaces.members (Trees.fell_some here).2
  reachable here := spaces.reachable (Trees.fell_some here).2
  unheld {g} holder := fun table =>
    spaces.unheld ((holders g).mp holder).1 ((holds_fell spaces.paged.forest).mp table).1
  stocked {g} holder := spaces.stocked ((holders g).mp holder).1
  data {k n f} found := by
    obtain ⟨other, found⟩ := Matching.keep_some found
    refine (holders f).mpr ⟨spaces.data found, fun n' there => ?_⟩
    have same := mapped.inj found there
    simp only [Prod.mk.injEq] at same
    simp [same.1] at other

end

end Spaces

end Dfos.Paging
