import Mathlib.Data.List.Induction
import Mathlib.Tactic.Common

/-!
# Trees of tables

A tree of tables hangs below each key.  A table fills a frame and is named by
its path, the indices that lead to it from the root.  An entry of an inner table
links to the table one index further down, or is vacant.  `Forest` relates what
the frames hold to such trees: no frame holds two tables, and every entry names
what the tree has.  The lemmas are the edits: a new root, a new table below an
entry, another link to the same table, the removal of a table, the removal of a
whole tree.
-/

namespace Dfos.Lib

/-- How tables refer to each other.  `depth` is the length of the paths of the
tables that hold no links, `size` the number of entries of a frame. -/
structure TableScheme where
  depth : Nat
  size : Nat
  width : List Nat → Nat
  Links : (entry frame : Nat) → Prop
  Vacant : Nat → Prop
  width_le : ∀ path, width path ≤ size
  vacant_zero : Vacant 0

/-- The entries, by frame and index. -/
abbrev Tables := Nat → Nat → Nat

/-- `m'` is `m` with another entry `i` of frame `g`. -/
def TableScheme.Puts (scheme : TableScheme) (m m' : Tables) (g i entry : Nat) : Prop :=
  ∀ h j, j < scheme.size → m' h j = if h = g ∧ j = i then entry else m h j

/-- `m'` is `m` with frame `f` all zeros. -/
def TableScheme.Clears (scheme : TableScheme) (m m' : Tables) (f : Nat) : Prop :=
  ∀ h j, j < scheme.size → m' h j = if h = f then 0 else m h j

/-- The frame of each table, by key and path. -/
abbrev Trees (κ : Type) := κ → List Nat → Option Nat

namespace Trees

variable {κ : Type} [DecidableEq κ]

/-- Put a table at a path, or take it away. -/
def set (tree : Trees κ) (key : κ) (path : List Nat) (frame : Option Nat) : Trees κ :=
  fun k p => if k = key ∧ p = path then frame else tree k p

/-- Take a whole tree away. -/
def fell (tree : Trees κ) (key : κ) : Trees κ := fun k p => if k = key then none else tree k p

/-- The frame holds a table. -/
def Holds (tree : Trees κ) (frame : Nat) : Prop := ∃ k p, tree k p = some frame

variable {tree : Trees κ} {key k : κ} {path p : List Nat} {frame : Option Nat} {f g : Nat}

@[simp] theorem set_here : tree.set key path frame key path = frame := if_pos ⟨rfl, rfl⟩

theorem set_other (other : ¬ (k = key ∧ p = path)) : tree.set key path frame k p = tree k p :=
  if_neg other

@[simp] theorem fell_here : tree.fell key key p = none := if_pos rfl

theorem fell_other (other : k ≠ key) : tree.fell key k p = tree k p := if_neg other

theorem fell_some (found : tree.fell key k p = some f) : k ≠ key ∧ tree k p = some f := by
  unfold fell at found
  split at found
  · cases found
  · next other => exact ⟨other, found⟩

/-- A frame of the trees after a table was put at a path. -/
theorem set_some (found : tree.set key path (some g) k p = some f) :
    k = key ∧ p = path ∧ f = g ∨ tree k p = some f := by
  unfold set at found
  split at found
  · next here => exact Or.inl ⟨here.1, here.2, (Option.some.inj found).symm⟩
  · exact Or.inr found

theorem set_none (found : tree.set key path none k p = some f) :
    ¬ (k = key ∧ p = path) ∧ tree k p = some f := by
  unfold set at found
  split at found
  · cases found
  · next other => exact ⟨other, found⟩

end Trees

/-- What an entry of an inner table names as the table below it. -/
def TableScheme.Names (scheme : TableScheme) (entry : Nat) : Option Nat → Prop
  | none => scheme.Vacant entry
  | some frame => scheme.Links entry frame

/-- The frames hold the trees. -/
structure Forest {κ : Type} (scheme : TableScheme) (m : Tables) (tree : Trees κ) : Prop where
  inj : ∀ {k k' p p' f}, tree k p = some f → tree k' p' = some f → k = k' ∧ p = p'
  parent : ∀ {k p i}, tree k (p ++ [i]) ≠ none →
    p.length < scheme.depth ∧ i < scheme.width p ∧ tree k p ≠ none
  links : ∀ {k p f i}, tree k p = some f → p.length < scheme.depth → i < scheme.width p →
    scheme.Names (m f i) (tree k (p ++ [i]))

namespace Forest

variable {κ : Type} [DecidableEq κ] {scheme : TableScheme} {m m₁ m' : Tables} {tree : Trees κ}
  {key k : κ} {path p : List Nat} {f g h i j entry : Nat}

omit [DecidableEq κ] in
/-- Without a root there is no table. -/
theorem bare (forest : Forest scheme m tree) (absent : tree key [] = none) (p : List Nat) :
    tree key p = none := by
  induction p using List.reverseRecOn with
  | nil => exact absent
  | append_singleton p i ih =>
      by_contra present
      exact (forest.parent present).2.2 ih

omit [DecidableEq κ] in
/-- A table below a path without a table does not exist. -/
theorem childless (forest : Forest scheme m tree) (absent : tree key path = none) (i : Nat) :
    tree key (path ++ [i]) = none := by
  by_contra present
  exact (forest.parent present).2.2 absent

omit [DecidableEq κ] in
/-- The entries may change wherever no link is kept. -/
theorem congr (forest : Forest scheme m tree)
    (same : ∀ {k p f i}, tree k p = some f → p.length < scheme.depth → i < scheme.width p →
      m' f i = m f i) : Forest scheme m' tree where
  inj := forest.inj
  parent := forest.parent
  links here inner small := by
    rw [same here inner small]
    exact forest.links here inner small

omit [DecidableEq κ] in
/-- An entry of one table is written, and another table is read. -/
theorem puts_other (forest : Forest scheme m tree) (puts : scheme.Puts m m' g i entry)
    (written : tree key path = some g) (read : tree k p = some h)
    (other : ¬ (k = key ∧ p = path ∧ j = i)) (small : j < scheme.size) : m' h j = m h j := by
  rw [puts h j small]
  apply if_neg
  rintro ⟨rfl, rfl⟩
  obtain ⟨rfl, rfl⟩ := forest.inj read written
  exact other ⟨rfl, rfl, rfl⟩

/-- A fresh frame keeps the tables apart. -/
theorem inj_set (forest : Forest scheme m tree) (fresh : ¬ tree.Holds f) {k k' : κ}
    {p p' : List Nat} {h : Nat} (here : tree.set key path (some f) k p = some h)
    (there : tree.set key path (some f) k' p' = some h) : k = k' ∧ p = p' := by
  rcases Trees.set_some here with ⟨k_eq, p_eq, h_eq⟩ | before
  · rcases Trees.set_some there with ⟨k_eq', p_eq', -⟩ | before'
    · exact ⟨k_eq.trans k_eq'.symm, p_eq.trans p_eq'.symm⟩
    · exact (fresh ⟨_, _, h_eq ▸ before'⟩).elim
  · rcases Trees.set_some there with ⟨-, -, h_eq⟩ | before'
    · exact (fresh ⟨_, _, h_eq ▸ before⟩).elim
    · exact forest.inj before before'

/-- **A new root.** -/
theorem plant (forest : Forest scheme m tree) (absent : tree key [] = none)
    (fresh : ¬ tree.Holds f)
    (same : ∀ g i, g ≠ f → i < scheme.size → m' g i = m g i)
    (vacant : ∀ i < scheme.width [], scheme.Vacant (m' f i)) :
    Forest scheme m' (tree.set key [] (some f)) where
  inj := forest.inj_set fresh
  parent {k p i} present := by
    rw [Trees.set_other (fun here => by simp at here)] at present
    obtain ⟨short, small, above⟩ := forest.parent present
    refine ⟨short, small, fun gone => ?_⟩
    by_cases here : k = key ∧ p = []
    · rw [here.1, here.2, Trees.set_here] at gone
      cases gone
    · rw [Trees.set_other here] at gone
      exact above gone
  links {k p h i} here inner small := by
    have below : tree.set key [] (some f) k (p ++ [i]) = tree k (p ++ [i]) :=
      Trees.set_other fun same => by simp at same
    rw [below]
    rcases Trees.set_some here with ⟨rfl, rfl, rfl⟩ | before
    · rw [forest.childless absent i]
      exact vacant i small
    · have bound := Nat.lt_of_lt_of_le small (scheme.width_le p)
      rw [same h i (fun same => fresh ⟨_, _, same ▸ before⟩) bound]
      exact forest.links before inner small

/-- What the entries of the old tables name once entry `i` of the one at `path`
names another table, or none. -/
theorem names_set (forest : Forest scheme m tree) (parent : tree key path = some g)
    {frame : Option Nat} (names : scheme.Names entry frame) (here : tree k p = some h)
    (short : p.length < scheme.depth) (narrow : j < scheme.width p) :
    scheme.Names (if h = g ∧ j = i then entry else m h j)
      (tree.set key (path ++ [i]) frame k (p ++ [j])) := by
  by_cases written : h = g ∧ j = i
  · obtain ⟨rfl, rfl⟩ := written
    obtain ⟨rfl, rfl⟩ := forest.inj here parent
    rw [if_pos ⟨rfl, rfl⟩, Trees.set_here]
    exact names
  · rw [if_neg written, Trees.set_other]
    · exact forest.links here short narrow
    · rintro ⟨rfl, same⟩
      obtain ⟨rfl, index⟩ := List.append_singleton_inj.mp same
      exact written ⟨Option.some.inj (here.symm.trans parent), index⟩

/-- **A new table** below entry `i` of the table at `path`. -/
theorem insert (forest : Forest scheme m tree) (parent : tree key path = some g)
    (inner : path.length < scheme.depth) (small : i < scheme.width path)
    (absent : tree key (path ++ [i]) = none) (fresh : ¬ tree.Holds f)
    (clears : scheme.Clears m m₁ f) (puts : scheme.Puts m₁ m' g i entry)
    (links : scheme.Links entry f) :
    Forest scheme m' (tree.set key (path ++ [i]) (some f)) where
  inj := forest.inj_set fresh
  parent {k p j} present := by
    by_cases here : k = key ∧ p ++ [j] = path ++ [i]
    · obtain ⟨rfl, rfl, same⟩ := And.imp_right List.append_singleton_inj.mp here
      rw [same]
      refine ⟨inner, small, fun gone => ?_⟩
      rw [Trees.set_other (fun same => by simp at same)] at gone
      rw [parent] at gone
      cases gone
    · rw [Trees.set_other here] at present
      obtain ⟨short, narrow, above⟩ := forest.parent present
      refine ⟨short, narrow, fun gone => above ?_⟩
      by_cases self : k = key ∧ p = path ++ [i]
      · rw [self.1, self.2, absent]
      · rwa [Trees.set_other self] at gone
  links {k p h j} here short narrow := by
    have bound := Nat.lt_of_lt_of_le narrow (scheme.width_le p)
    rw [puts h j bound, clears h j bound]
    rcases Trees.set_some here with ⟨rfl, rfl, rfl⟩ | before
    · -- the new table has no children and nothing but zeros
      have off : ¬ (h = g ∧ j = i) := fun same => fresh ⟨_, _, same.1 ▸ parent⟩
      rw [if_neg off, if_pos rfl, Trees.set_other (fun same => by simp at same),
        forest.childless absent j]
      exact scheme.vacant_zero
    · have old : h ≠ f := fun same => fresh ⟨_, _, same ▸ before⟩
      rw [if_neg old]
      exact forest.names_set parent links before short narrow

omit [DecidableEq κ] in
/-- **Another link** to the table that is there. -/
theorem relink (forest : Forest scheme m tree) (parent : tree key path = some g)
    (child : tree key (path ++ [i]) = some f) (puts : scheme.Puts m m' g i entry)
    (links : scheme.Links entry f) : Forest scheme m' tree where
  inj := forest.inj
  parent := forest.parent
  links {k p h j} here short narrow := by
    have bound := Nat.lt_of_lt_of_le narrow (scheme.width_le p)
    rw [puts h j bound]
    by_cases written : h = g ∧ j = i
    · obtain ⟨rfl, rfl⟩ := written
      obtain ⟨rfl, rfl⟩ := forest.inj here parent
      rw [if_pos ⟨rfl, rfl⟩, child]
      exact links
    · rw [if_neg written]
      exact forest.links here short narrow

/-- **A table without children is taken away**, and its link with it. -/
theorem remove (forest : Forest scheme m tree) (parent : tree key path = some g)
    (leafless : ∀ j, tree key (path ++ [i] ++ [j]) = none) (puts : scheme.Puts m m' g i 0) :
    Forest scheme m' (tree.set key (path ++ [i]) none) where
  inj here there := forest.inj (Trees.set_none here).2 (Trees.set_none there).2
  parent {k p j} present := by
    by_cases here : k = key ∧ p ++ [j] = path ++ [i]
    · rw [here.1, here.2, Trees.set_here] at present
      exact (present rfl).elim
    · rw [Trees.set_other here] at present
      obtain ⟨short, narrow, above⟩ := forest.parent present
      refine ⟨short, narrow, fun gone => ?_⟩
      by_cases self : k = key ∧ p = path ++ [i]
      · rw [self.1, self.2] at present
        exact present (leafless j)
      · rw [Trees.set_other self] at gone
        exact above gone
  links {k p h j} here short narrow := by
    have bound := Nat.lt_of_lt_of_le narrow (scheme.width_le p)
    obtain ⟨-, before⟩ := Trees.set_none here
    rw [puts h j bound]
    exact forest.names_set parent scheme.vacant_zero before short narrow

/-- **A whole tree is taken away.** -/
theorem fell (forest : Forest scheme m tree) (key : κ) : Forest scheme m (tree.fell key) where
  inj here there := forest.inj (Trees.fell_some here).2 (Trees.fell_some there).2
  parent {k p i} present := by
    by_cases here : k = key
    · rw [here, Trees.fell_here] at present
      exact (present rfl).elim
    · rw [Trees.fell_other here] at present ⊢
      exact forest.parent present
  links {k p f i} here short narrow := by
    obtain ⟨other, here⟩ := Trees.fell_some here
    rw [Trees.fell_other other]
    exact forest.links here short narrow

end Forest

end Dfos.Lib
