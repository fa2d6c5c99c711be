import Dfos.Lib.Matching
import Dfos.Lib.TableForest

/-!
# Trees of tables with pages at the leaves

The tables of greatest depth hold one entry for each page: the page's `route`
leads to the table and its `slot` is the entry.  `Paged` relates the frames to
the trees and to a matching of pages with the frames they are mapped to.  A
table may be closed: its entries stand for nothing in the matching and no edit
touches them.
-/

namespace Dfos.Lib

structure PageFormat extends TableScheme where
  route : Nat → List Nat
  slot : Nat → Nat
  Leaf : (entry frame : Nat) → Prop
  Open : List Nat → Prop
  depth_pos : 0 < depth
  route_length : ∀ n, (route n).length = depth
  slot_lt : ∀ n, slot n < size
  page_inj : ∀ {n n'}, route n = route n' → slot n = slot n' → n = n'

/-- What an entry of a table of pages shows. -/
def PageFormat.Shows (format : PageFormat) (entry : Nat) : Option Nat → Prop
  | none => format.Vacant entry
  | some frame => format.Leaf entry frame

/-- The frames hold the trees, and their leaves the matching. -/
structure Paged {κ : Type} (format : PageFormat) (m : Tables) (tree : Trees κ)
    (mapped : (κ × Nat) ≃. Nat) : Prop where
  forest : Forest format.toTableScheme m tree
  leaves : ∀ {k n f}, tree k (format.route n) = some f → format.Open (format.route n) →
    format.Shows (m f (format.slot n)) (mapped (k, n))
  backed : ∀ {k n g}, mapped (k, n) = some g →
    format.Open (format.route n) ∧ tree k (format.route n) ≠ none

namespace Paged

variable {κ : Type} [DecidableEq κ] {format : PageFormat} {m m₁ m' : Tables} {tree : Trees κ}
  {mapped : (κ × Nat) ≃. Nat} {key k : κ} {path p : List Nat} {f g i n entry : Nat}

theorem route_ne_nil (format : PageFormat) (n : Nat) : format.route n ≠ [] := by
  intro nil
  have length := format.route_length n
  rw [nil, List.length_nil] at length
  exact absurd length.symm (Nat.ne_of_gt format.depth_pos)

theorem route_ne (format : PageFormat) (inner : path.length < format.depth) (n : Nat) :
    format.route n ≠ path := by
  intro same
  rw [← same, format.route_length] at inner
  exact absurd inner (Nat.lt_irrefl _)

omit [DecidableEq κ] in
/-- A page of a table that is not there is not mapped. -/
theorem unmapped (paged : Paged format m tree mapped) (absent : tree k (format.route n) = none) :
    mapped (k, n) = none := by
  cases found : mapped (k, n) with
  | none => rfl
  | some g => exact ((paged.backed found).2 absent).elim

omit [DecidableEq κ] in
/-- The entries may change wherever no table is. -/
theorem congr (paged : Paged format m tree mapped)
    (same : ∀ {k p f i}, tree k p = some f → i < format.size → m' f i = m f i) :
    Paged format m' tree mapped where
  forest := paged.forest.congr fun here _ small =>
    same here (Nat.lt_of_lt_of_le small (format.width_le _))
  leaves {k n f} here opened := by
    rw [same here (format.slot_lt n)]
    exact paged.leaves here opened
  backed := paged.backed

/-- **A new root.** -/
theorem plant (paged : Paged format m tree mapped) (absent : tree key [] = none)
    (fresh : ¬ tree.Holds f) (same : ∀ g i, g ≠ f → i < format.size → m' g i = m g i)
    (vacant : ∀ i < format.width [], format.Vacant (m' f i)) :
    Paged format m' (tree.set key [] (some f)) mapped where
  forest := paged.forest.plant absent fresh same vacant
  leaves {k n h} here opened := by
    rw [Trees.set_other fun root => route_ne_nil format n root.2] at here
    rw [same h _ (fun equal => fresh ⟨_, _, equal ▸ here⟩) (format.slot_lt n)]
    exact paged.leaves here opened
  backed {k n g} found := by
    rw [Trees.set_other fun root => route_ne_nil format n root.2]
    exact paged.backed found

/-- **A new table.** -/
theorem grow (paged : Paged format m tree mapped) (parent : tree key path = some g)
    (inner : path.length < format.depth) (small : i < format.width path)
    (absent : tree key (path ++ [i]) = none) (fresh : ¬ tree.Holds f)
    (clears : format.Clears m m₁ f) (puts : format.Puts m₁ m' g i entry)
    (links : format.Links entry f) :
    Paged format m' (tree.set key (path ++ [i]) (some f)) mapped where
  forest := paged.forest.insert parent inner small absent fresh clears puts links
  leaves {k n h} here opened := by
    have slot := format.slot_lt n
    have off : ¬ (h = g ∧ format.slot n = i) := by
      rintro ⟨rfl, -⟩
      rcases Trees.set_some here with ⟨-, -, rfl⟩ | before
      · exact fresh ⟨_, _, parent⟩
      · exact route_ne format inner n (paged.forest.inj before parent).2
    rw [puts h _ slot, if_neg off, clears h _ slot]
    rcases Trees.set_some here with ⟨rfl, new, rfl⟩ | before
    · -- the new table shows nothing, and nothing was mapped in it
      rw [if_pos rfl, paged.unmapped (new ▸ absent)]
      exact format.vacant_zero
    · rw [if_neg fun equal => fresh ⟨_, _, equal ▸ before⟩]
      exact paged.leaves before opened
  backed {k n h} found := by
    obtain ⟨opened, present⟩ := paged.backed found
    refine ⟨opened, fun gone => present ?_⟩
    by_cases here : k = key ∧ format.route n = path ++ [i]
    · rw [here.1, here.2, Trees.set_here] at gone
      cases gone
    · rwa [Trees.set_other here] at gone

omit [DecidableEq κ] in
/-- **Another link** to the table that is there. -/
theorem relink (paged : Paged format m tree mapped) (parent : tree key path = some g)
    (inner : path.length < format.depth) (child : tree key (path ++ [i]) = some f)
    (puts : format.Puts m m' g i entry) (links : format.Links entry f) :
    Paged format m' tree mapped where
  forest := paged.forest.relink parent child puts links
  leaves {k n h} here opened := by
    rw [paged.forest.puts_other puts parent here
      (fun same => route_ne format inner n same.2.1) (format.slot_lt n)]
    exact paged.leaves here opened
  backed := paged.backed

section Leaves

variable {fresh : mapped.symm g = none}

omit [DecidableEq κ] in
/-- Writing a leaf leaves the links alone. -/
theorem forest_leaf (paged : Paged format m tree mapped)
    (table : tree key (format.route n) = some f)
    (puts : format.Puts m m' f (format.slot n) entry) : Forest format.toTableScheme m' tree :=
  paged.forest.congr fun {_ p _ _} here inner small =>
    paged.forest.puts_other puts table here (fun same => route_ne format inner n same.2.1.symm)
      (Nat.lt_of_lt_of_le small (format.width_le p))

omit [DecidableEq κ] in
/-- The leaf of a page that is not the one written. -/
theorem leaf_other {n' : Nat} (paged : Paged format m tree mapped)
    (table : tree key (format.route n) = some f)
    (puts : format.Puts m m' f (format.slot n) entry) {h : Nat}
    (here : tree k (format.route n') = some h) (other : (k, n') ≠ (key, n)) :
    m' h (format.slot n') = m h (format.slot n') := by
  refine paged.forest.puts_other puts table here ?_ (format.slot_lt n')
  rintro ⟨rfl, route, slot⟩
  exact other (by rw [format.page_inj route slot])

/-- **A page is mapped.** -/
theorem put (paged : Paged format m tree mapped) (table : tree key (format.route n) = some f)
    (opened : format.Open (format.route n))
    (puts : format.Puts m m' f (format.slot n) entry) (leaf : format.Leaf entry g) :
    Paged format m' tree (Matching.put mapped (key, n) g fresh) where
  forest := paged.forest_leaf table puts
  leaves {k n' h} here open' := by
    by_cases same : (k, n') = (key, n)
    · obtain ⟨rfl, rfl⟩ := Prod.mk.inj same
      obtain rfl := Option.some.inj (table.symm.trans here)
      rw [puts _ _ (format.slot_lt n'), if_pos ⟨rfl, rfl⟩, Matching.put_here]
      exact leaf
    · rw [Matching.put_other same, paged.leaf_other table puts here same]
      exact paged.leaves here open'
  backed {k n' h} found := by
    by_cases same : (k, n') = (key, n)
    · obtain ⟨rfl, rfl⟩ := Prod.mk.inj same
      refine ⟨opened, fun gone => ?_⟩
      rw [table] at gone
      cases gone
    · rw [Matching.put_other same] at found
      exact paged.backed found

/-- **A page is unmapped.** -/
theorem clear (paged : Paged format m tree mapped) (table : tree key (format.route n) = some f)
    (puts : format.Puts m m' f (format.slot n) 0) :
    Paged format m' tree (Matching.keep mapped fun place => place ≠ (key, n)) where
  forest := paged.forest_leaf table puts
  leaves {k n' h} here opened := by
    by_cases same : (k, n') = (key, n)
    · obtain ⟨rfl, rfl⟩ := Prod.mk.inj same
      obtain rfl := Option.some.inj (table.symm.trans here)
      rw [puts _ _ (format.slot_lt n'), if_pos ⟨rfl, rfl⟩, Matching.keep_out (by simp)]
      exact format.vacant_zero
    · rw [Matching.keep_in (by exact decide_eq_true same), paged.leaf_other table puts here same]
      exact paged.leaves here opened
  backed found := paged.backed (Matching.keep_some found).2

/-- A page that is not mapped is unmapped. -/
theorem keep_absent (absent : mapped (key, n) = none) :
    Matching.keep mapped (fun place => place ≠ (key, n)) = mapped := by
  ext place : 1
  by_cases same : place = (key, n)
  · rw [Matching.keep_out (by simp [same]), same, absent]
  · exact Matching.keep_in (decide_eq_true same)

end Leaves

/-- **A table without children and pages is taken away.** -/
theorem prune (paged : Paged format m tree mapped) (parent : tree key path = some g)
    (inner : path.length < format.depth)
    (leafless : ∀ j, tree key (path ++ [i] ++ [j]) = none)
    (pageless : ∀ n, format.route n = path ++ [i] → mapped (key, n) = none)
    (puts : format.Puts m m' g i 0) :
    Paged format m' (tree.set key (path ++ [i]) none) mapped where
  forest := paged.forest.remove parent leafless puts
  leaves {k n h} here opened := by
    obtain ⟨-, before⟩ := Trees.set_none here
    rw [paged.forest.puts_other puts parent before
      (fun same => route_ne format inner n same.2.1) (format.slot_lt n)]
    exact paged.leaves before opened
  backed {k n h} found := by
    obtain ⟨opened, present⟩ := paged.backed found
    refine ⟨opened, ?_⟩
    rw [Trees.set_other]
    · exact present
    · rintro ⟨rfl, route⟩
      rw [pageless n route] at found
      cases found

/-- **A whole tree is taken away**, with its pages. -/
theorem fell (paged : Paged format m tree mapped) (key : κ) :
    Paged format m (tree.fell key) (Matching.keep mapped fun place => place.1 ≠ key) where
  forest := paged.forest.fell key
  leaves {k n h} here opened := by
    obtain ⟨other, here⟩ := Trees.fell_some here
    rw [Matching.keep_in (by simpa using other)]
    exact paged.leaves here opened
  backed {k n g} found := by
    obtain ⟨other, found⟩ := Matching.keep_some found
    rw [Trees.fell_other (by simpa using other)]
    exact paged.backed found

end Paged

end Dfos.Lib
