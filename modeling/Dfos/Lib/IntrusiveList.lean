import Mathlib.Data.List.Nodup
import Mathlib.Tactic.Common

/-!
# Intrusive doubly linked lists

Nodes carry their own links, a list is an anchor with its head, its tail and a
count, and one node can be on one list at a time.  `IsList` says which nodes an
anchor holds and in which order; `Holds` says it of all the lists that share
the links, so that an edit of one list leaves the others alone.
-/

namespace Dfos.Lib

/-- The links inside the nodes. -/
structure Links (α : Type) where
  prev : α → Option α
  next : α → Option α

/-- The head of a list. -/
structure Anchor (α : Type) where
  head : Option α
  tail : Option α
  count : Nat
  deriving DecidableEq, Repr

variable {α ρ : Type}

def Anchor.empty : Anchor α := ⟨none, none, 0⟩

section Operations

variable [DecidableEq α]

def Links.setNext (l : Links α) (x : α) (v : Option α) : Links α :=
  { l with next := fun y => if y = x then v else l.next y }

def Links.setPrev (l : Links α) (x : α) (v : Option α) : Links α :=
  { l with prev := fun y => if y = x then v else l.prev y }

/-- Appends `x`. -/
def pushBack (l : Links α) (a : Anchor α) (x : α) : Links α × Anchor α :=
  let l := (l.setPrev x a.tail).setNext x none
  match a.tail with
  | some last => (l.setNext last (some x), ⟨a.head, some x, a.count + 1⟩)
  | none => (l, ⟨some x, some x, a.count + 1⟩)

/-- The successor of `x` becomes that of its predecessor. -/
def bypassNext (l : Links α) (head : Option α) (x : α) : Links α × Option α :=
  match l.prev x with
  | some p => (l.setNext p (l.next x), head)
  | none => (l, l.next x)

/-- The predecessor of `x` becomes that of its successor. -/
def bypassPrev (l : Links α) (tail : Option α) (x : α) : Links α × Option α :=
  match l.next x with
  | some n => (l.setPrev n (l.prev x), tail)
  | none => (l, l.prev x)

/-- Unlinks `x`. -/
def remove (l : Links α) (a : Anchor α) (x : α) : Links α × Anchor α :=
  let (l, head) := bypassNext l a.head x
  let (l, tail) := bypassPrev l a.tail x
  ((l.setPrev x none).setNext x none, ⟨head, tail, a.count - 1⟩)

end Operations

/-! ## Chains -/

/-- The nodes `xs` are linked both ways between `p` and `q`. -/
def Chain (l : Links α) : Option α → List α → Option α → Prop
  | p, [], q => (∀ x, p = some x → l.next x = q) ∧ (∀ y, q = some y → l.prev y = p)
  | p, x :: xs, q =>
      (∀ y, p = some y → l.next y = some x) ∧ l.prev x = p ∧ Chain l (some x) xs q

theorem chain_append {l : Links α} {xs ys : List α} {x : α} :
    ∀ {p q : Option α}, Chain l p (xs ++ x :: ys) q ↔
      Chain l p xs (some x) ∧ Chain l (some x) ys q := by
  induction xs with
  | nil =>
      intro p q
      simp only [List.nil_append, Chain, Option.some.injEq, forall_eq']
      exact and_assoc.symm
  | cons y xs ih =>
      intro p q
      simp only [List.cons_append, Chain, ih, and_assoc]

/-- A chain only reads the links of its nodes and the two that lead into it. -/
theorem Chain.congr {l l' : Links α} {xs : List α} :
    ∀ {p q : Option α}, Chain l p xs q →
      (∀ y, y ∈ xs ∨ p = some y → l'.next y = l.next y) →
      (∀ y, y ∈ xs ∨ q = some y → l'.prev y = l.prev y) → Chain l' p xs q := by
  induction xs with
  | nil =>
      rintro p q ⟨next, prev⟩ sameNext samePrev
      exact ⟨fun x here => (sameNext x (Or.inr here)).trans (next x here),
        fun y here => (samePrev y (Or.inr here)).trans (prev y here)⟩
  | cons x xs ih =>
      rintro p q ⟨into, prev, rest⟩ sameNext samePrev
      refine ⟨fun y here => (sameNext y (Or.inr here)).trans (into y here),
        (samePrev x (by simp)).trans prev, ih rest ?_ ?_⟩
      · rintro y (member | here)
        · exact sameNext y (by simp [member])
        · exact sameNext y (by simp [Option.some.inj here])
      · rintro y (member | here)
        · exact samePrev y (by simp [member])
        · exact samePrev y (Or.inr here)

/-- `a` is a well-formed list that holds `xs` in this order. -/
structure IsList (l : Links α) (a : Anchor α) (xs : List α) : Prop where
  chain : Chain l none xs none
  nodup : xs.Nodup
  head : a.head = xs.head?
  tail : a.tail = xs.getLast?
  count : a.count = xs.length

theorem IsList.empty (l : Links α) : IsList l Anchor.empty [] :=
  ⟨⟨nofun, nofun⟩, List.nodup_nil, rfl, rfl, rfl⟩

theorem IsList.congr {l l' : Links α} {a : Anchor α} {xs : List α} (list : IsList l a xs)
    (same : ∀ y ∈ xs, l'.next y = l.next y ∧ l'.prev y = l.prev y) : IsList l' a xs where
  chain := list.chain.congr (fun y member => (same y (by simpa using member)).1)
    (fun y member => (same y (by simpa using member)).2)
  nodup := list.nodup
  head := list.head
  tail := list.tail
  count := list.count

/-- The link of a node leads to what follows it. -/
theorem IsList.next {l : Links α} {a : Anchor α} {xs ys : List α} {x : α}
    (list : IsList l a (xs ++ x :: ys)) : l.next x = ys.head? := by
  have rest := (chain_append.mp list.chain).2
  cases ys with
  | nil => exact rest.1 x rfl
  | cons y ys => exact rest.1 x rfl

theorem IsList.prev {l : Links α} {a : Anchor α} {xs ys : List α} {x : α}
    (list : IsList l a (xs ++ x :: ys)) : l.prev x = xs.getLast? := by
  have front := (chain_append.mp list.chain).1
  rcases List.eq_nil_or_concat xs with rfl | ⟨init, y, rfl⟩
  · exact front.2 x rfl
  · rw [List.concat_eq_append] at front ⊢
    have last := (chain_append.mp front).2
    rw [List.getLast?_concat]
    exact last.2 x rfl

/-! ## Appending -/

section Push

variable [DecidableEq α] {l : Links α} {a : Anchor α} {xs : List α} {x : α}

theorem pushBack_isList (list : IsList l a xs) (fresh : x ∉ xs) :
    IsList (pushBack l a x).1 (pushBack l a x).2 (xs ++ [x]) := by
  have nodup : (xs ++ [x]).Nodup := by
    rw [List.nodup_append_comm]
    exact List.nodup_cons.mpr ⟨fresh, list.nodup⟩
  have count : a.count + 1 = (xs ++ [x]).length := by
    rw [list.count, List.length_append, List.length_singleton]
  have last : (xs ++ [x]).getLast? = some x := List.getLast?_concat
  rcases List.eq_nil_or_concat xs with rfl | ⟨init, y, rfl⟩
  · have tail : a.tail = none := list.tail
    unfold pushBack
    rw [tail]
    refine ⟨?_, nodup, rfl, last.symm, count⟩
    simp [Chain, Links.setNext, Links.setPrev]
  · rw [List.concat_eq_append] at list fresh nodup count last ⊢
    have tail : a.tail = some y := by rw [list.tail, List.getLast?_concat]
    have head : a.head = (init ++ [y] ++ [x]).head? := by
      rw [list.head]
      cases init <;> rfl
    obtain ⟨front, -⟩ := chain_append.mp list.chain
    have distinct := list.nodup
    rw [List.nodup_append_comm, List.singleton_append, List.nodup_cons] at distinct
    have other : x ≠ y := by
      rintro rfl
      exact fresh (by simp)
    unfold pushBack
    rw [tail]
    refine ⟨?_, nodup, head, last.symm, count⟩
    rw [List.append_assoc, List.singleton_append]
    refine chain_append.mpr ⟨front.congr ?_ ?_, ?_⟩
    · rintro z (member | here)
      · have notX : z ≠ x := fun same => fresh (by simp [← same, member])
        have notY : z ≠ y := fun same => distinct.1 (same ▸ member)
        simp [Links.setNext, Links.setPrev, notX, notY]
      · cases here
    · rintro z (member | here)
      · have notX : z ≠ x := fun same => fresh (by simp [← same, member])
        simp [Links.setNext, Links.setPrev, notX]
      · have notX : z ≠ x := fun same => other (by rw [← same, Option.some.inj here])
        simp [Links.setNext, Links.setPrev, notX]
    · simp [Chain, Links.setNext, Links.setPrev, other]

/-- Appending writes the links of `x` and of the last node only. -/
theorem pushBack_frame (list : IsList l a xs) {y : α} (off : y ∉ xs) (other : y ≠ x) :
    (pushBack l a x).1.next y = l.next y ∧ (pushBack l a x).1.prev y = l.prev y := by
  unfold pushBack
  cases tail : a.tail with
  | none => simp [Links.setNext, Links.setPrev, other]
  | some last =>
      have notLast : y ≠ last := by
        rintro rfl
        exact off (List.mem_of_getLast? (list.tail.symm.trans tail))
      simp [Links.setNext, Links.setPrev, other, notLast]

end Push

/-! ## Unlinking -/

section Remove

variable [DecidableEq α] {l : Links α} {a : Anchor α} {pre post : List α} {x : α}

/-- What unlinking writes. -/
structure Unlinked (l l' : Links α) (pre : List α) (x : α) (post : List α) : Prop where
  next : ∀ y, y ≠ x → l'.next y = if pre.getLast? = some y then post.head? else l.next y
  prev : ∀ y, y ≠ x → l'.prev y = if post.head? = some y then pre.getLast? else l.prev y

theorem remove_unlinked (list : IsList l a (pre ++ x :: post)) :
    Unlinked l (remove l a x).1 pre x post ∧
      (remove l a x).2.head = (pre ++ post).head? ∧
      (remove l a x).2.tail = (pre ++ post).getLast? := by
  have next := list.next
  have prev := list.prev
  have head := list.head
  have tail := list.tail
  have nodup := list.nodup
  rcases List.eq_nil_or_concat pre with rfl | ⟨init, p, rfl⟩
  · -- the first node: the head moves on
    cases post with
    | nil =>
        simp only [List.getLast?_nil, List.head?_nil] at prev next
        simp only [remove, bypassNext, bypassPrev, prev, next]
        exact ⟨⟨fun y other => by simp [Links.setNext, Links.setPrev, other],
          fun y other => by simp [Links.setNext, Links.setPrev, other]⟩, rfl, rfl⟩
    | cons n post =>
        simp only [List.getLast?_nil, List.head?_cons] at prev next
        simp only [remove, bypassNext, bypassPrev, prev, next]
        refine ⟨⟨fun y other => by simp [Links.setNext, Links.setPrev, other],
          fun y other => ?_⟩, rfl, ?_⟩
        · simp [Links.setNext, Links.setPrev, other, @eq_comm _ n y]
        · rw [tail]
          simp
  · rw [List.concat_eq_append] at list prev head tail nodup ⊢
    have other : p ≠ x := by
      rintro rfl
      rw [List.nodup_middle, List.nodup_cons] at nodup
      exact nodup.1 (by simp)
    rw [List.getLast?_concat] at prev
    have headKept : a.head = (init ++ [p] ++ post).head? := by
      rw [head]
      cases init <;> rfl
    cases post with
    | nil =>
        simp only [List.head?_nil] at next
        simp only [remove, bypassNext, bypassPrev, prev, next, Links.setNext, other.symm, if_false]
        refine ⟨⟨fun y off => ?_, fun y off => by simp [Links.setPrev, off]⟩, headKept, ?_⟩
        · simp [Links.setPrev, off, eq_comm]
        · rw [List.append_nil, List.getLast?_concat]
    | cons n post =>
        simp only [List.head?_cons] at next
        simp only [remove, bypassNext, bypassPrev, prev, next, Links.setNext, other.symm, if_false]
        refine ⟨⟨fun y off => ?_, fun y off => ?_⟩, headKept, ?_⟩
        · simp [Links.setPrev, off, eq_comm]
        · simp [Links.setPrev, off, @eq_comm _ n y]
        · rw [tail]
          simp

theorem remove_isList (list : IsList l a (pre ++ x :: post)) :
    IsList (remove l a x).1 (remove l a x).2 (pre ++ post) := by
  obtain ⟨⟨next, prev⟩, head, tail⟩ := remove_unlinked list
  have nodup := list.nodup
  rw [List.nodup_middle, List.nodup_cons] at nodup
  obtain ⟨gone, nodup⟩ := nodup
  have count : (remove l a x).2.count = (pre ++ post).length := by
    show a.count - 1 = _
    rw [list.count]
    simp
  obtain ⟨front, back⟩ := chain_append.mp list.chain
  have apart : ∀ y ∈ pre ++ post, y ≠ x := fun y member same => gone (same ▸ member)
  refine ⟨?_, nodup, head, tail, count⟩
  rcases List.eq_nil_or_concat pre with rfl | ⟨init, p, rfl⟩
  · cases post with
    | nil => exact ⟨nofun, nofun⟩
    | cons n post =>
        obtain ⟨-, -, rest⟩ := back
        have clear : n ∉ post := (List.nodup_cons.mp nodup).1
        refine ⟨nofun, ?_, rest.congr ?_ ?_⟩
        · rw [prev n (apart n (by simp)), List.head?_cons, if_pos rfl]
          rfl
        · rintro y member
          have here : y ∈ n :: post := by simpa [eq_comm, or_comm] using member
          rw [next y (apart y here), if_neg (by simp)]
        · rintro y (member | absent)
          · rw [prev y (apart y (by simp [member])), if_neg]
            rintro same
            exact clear (by rwa [← Option.some.inj same] at member)
          · cases absent
  · rw [List.concat_eq_append] at *
    obtain ⟨start, -⟩ := chain_append.mp front
    have last : (init ++ [p]).getLast? = some p := List.getLast?_concat
    rw [last] at next prev
    rw [List.append_assoc, List.singleton_append] at nodup apart ⊢
    have split := List.nodup_append.mp nodup
    refine chain_append.mpr ⟨start.congr ?_ ?_, ?_⟩
    · rintro y (member | absent)
      · rw [next y (apart y (by simp [member])), if_neg]
        rintro same
        exact split.2.2 y member p (by simp) (Option.some.inj same).symm
      · cases absent
    · rintro y member
      have here : y ∈ init ∨ y = p := by simpa [eq_comm] using member
      rw [prev y (apart y (by rcases here with h | h <;> simp [h])), if_neg]
      intro same
      have inPost : y ∈ post := List.mem_of_mem_head? same
      rcases here with early | rfl
      · exact split.2.2 y early y (by simp [inPost]) rfl
      · exact (List.nodup_cons.mp split.2.1).1 inPost
    · cases post with
      | nil =>
          refine ⟨?_, nofun⟩
          rintro y same
          obtain rfl := Option.some.inj same
          rw [next p (apart p (by simp)), if_pos rfl]
          rfl
      | cons n post =>
          obtain ⟨-, -, rest⟩ := back
          have order := (List.nodup_cons.mp split.2.1)
          have clear : n ∉ post := (List.nodup_cons.mp order.2).1
          refine ⟨?_, ?_, rest.congr ?_ ?_⟩
          · rintro y same
            obtain rfl := Option.some.inj same
            rw [next p (apart p (by simp)), if_pos rfl]
            rfl
          · rw [prev n (apart n (by simp)), List.head?_cons, if_pos rfl]
          · rintro y member
            have here : y ∈ n :: post := by simpa [eq_comm, or_comm] using member
            rw [next y (apart y (by simp at here ⊢; tauto)), if_neg]
            rintro same
            exact order.1 (by rwa [← Option.some.inj same] at here)
          · rintro y (member | absent)
            · rw [prev y (apart y (by simp [member])), if_neg]
              rintro same
              exact clear (by rwa [← Option.some.inj same] at member)
            · cases absent

/-- Unlinking writes the links of the list's own nodes only. -/
theorem remove_frame (list : IsList l a (pre ++ x :: post)) {y : α}
    (off : y ∉ pre ++ x :: post) :
    (remove l a x).1.next y = l.next y ∧ (remove l a x).1.prev y = l.prev y := by
  obtain ⟨⟨next, prev⟩, -, -⟩ := remove_unlinked list
  have other : y ≠ x := fun same => off (by simp [same])
  rw [next y other, prev y other, if_neg, if_neg]
  · exact ⟨rfl, rfl⟩
  · intro same
    exact off (by simp [List.mem_of_mem_head? same])
  · intro same
    exact off (by simp [List.mem_of_getLast? same])

end Remove

/-! ## Several lists over the same links -/

/-- Every anchor is a list, and no node is on two of them. -/
structure Holds (l : Links α) (anchors : ρ → Anchor α) (contents : ρ → List α) : Prop where
  list : ∀ r, IsList l (anchors r) (contents r)
  apart : ∀ {r q x}, x ∈ contents r → x ∈ contents q → r = q

section Several

variable [DecidableEq α] [DecidableEq ρ] {l : Links α} {anchors : ρ → Anchor α}
  {contents : ρ → List α}

theorem Holds.pushBack (holds : Holds l anchors contents) (r : ρ) {x : α}
    (fresh : ∀ q, x ∉ contents q) :
    Holds (Lib.pushBack l (anchors r) x).1
      (Function.update anchors r (Lib.pushBack l (anchors r) x).2)
      (Function.update contents r (contents r ++ [x])) where
  list q := by
    by_cases here : q = r
    · subst here
      simp only [Function.update_self]
      exact pushBack_isList (holds.list q) (fresh q)
    · simp only [Function.update_of_ne here]
      refine (holds.list q).congr fun y member => pushBack_frame (holds.list r) ?_ ?_
      · exact fun also => here (holds.apart member also)
      · rintro rfl
        exact fresh q member
  apart {q s y} first second := by
    have only : ∀ {q}, y ∈ Function.update contents r (contents r ++ [x]) q →
        y ∈ contents q ∨ y = x ∧ q = r := by
      intro q member
      by_cases here : q = r
      · subst here
        simp only [Function.update_self, List.mem_append, List.mem_singleton] at member
        exact member.imp_right fun same => ⟨same, rfl⟩
      · rw [Function.update_of_ne here] at member
        exact Or.inl member
    rcases only first with before | ⟨rfl, rfl⟩
    · rcases only second with before' | ⟨rfl, rfl⟩
      · exact holds.apart before before'
      · exact absurd before (fresh q)
    · rcases only second with before' | ⟨-, rfl⟩
      · exact absurd before' (fresh s)
      · rfl

theorem Holds.remove (holds : Holds l anchors contents) {r : ρ} {x : α}
    (member : x ∈ contents r) :
    Holds (Lib.remove l (anchors r) x).1
      (Function.update anchors r (Lib.remove l (anchors r) x).2)
      (Function.update contents r ((contents r).erase x)) where
  list q := by
    obtain ⟨pre, post, split⟩ := List.append_of_mem member
    have list := holds.list r
    rw [split] at list
    by_cases here : q = r
    · subst here
      have clear : x ∉ pre := by
        have nodup := list.nodup
        rw [List.nodup_middle, List.nodup_cons] at nodup
        exact fun early => nodup.1 (by simp [early])
      simp only [Function.update_self]
      rw [split, List.erase_append_right _ clear, List.erase_cons_head]
      exact remove_isList list
    · simp only [Function.update_of_ne here]
      refine (holds.list q).congr fun y inOther => remove_frame list ?_
      rw [← split]
      exact fun also => here (holds.apart inOther also)
  apart {q s y} first second := by
    have before : ∀ {q}, y ∈ Function.update contents r ((contents r).erase x) q →
        y ∈ contents q := by
      intro q member
      by_cases here : q = r
      · subst here
        rw [Function.update_self] at member
        exact List.mem_of_mem_erase member
      · rwa [Function.update_of_ne here] at member
    exact holds.apart (before first) (before second)

end Several

/-! ## Walking a list while it changes -/

section Walk

variable {σ : Type}

/-- The loop `while (x != NULL) { next = x->next; body; x = next; }`, where the
body may leave the loop.  `none` stands for a loop that is still running when
the fuel is used up. -/
def walk (next : σ → α → Option α) (body : α → σ → σ × Bool) :
    (fuel : Nat) → Option α → σ → Option σ
  | _, none, s => some s
  | 0, some _, _ => none
  | fuel + 1, some x, s =>
      let after := next s x
      match body x s with
      | (s, true) => some s
      | (s, false) => walk next body fuel after s

/-- The rule for such a loop: `I` is kept for the nodes still ahead, and the
link read before the body leads to the next of them. -/
theorem walk_rule {next : σ → α → Option α} {body : α → σ → σ × Bool}
    {I : List α → σ → Prop} {Q : σ → Prop}
    (follow : ∀ {x rest s}, I (x :: rest) s → next s x = rest.head?)
    (step : ∀ {x rest s}, I (x :: rest) s → (body x s).2 = false → I rest (body x s).1)
    (leave : ∀ {x rest s}, I (x :: rest) s → (body x s).2 = true → Q (body x s).1)
    (done : ∀ {s}, I [] s → Q s) :
    ∀ {xs : List α} {fuel : Nat} {s : σ}, I xs s → xs.length ≤ fuel →
      ∃ t, walk next body fuel xs.head? s = some t ∧ Q t := by
  intro xs
  induction xs with
  | nil =>
      intro fuel s holds _
      exact ⟨s, by cases fuel <;> rfl, done holds⟩
  | cons x rest ih =>
      intro fuel s holds enough
      rcases fuel with _ | fuel
      · cases enough
      · have after := follow holds
        rw [List.head?_cons]
        unfold walk
        cases result : body x s with
        | mk t left =>
            have keep := step holds
            have exit := leave holds
            rw [result] at keep exit
            cases left with
            | true => exact ⟨t, rfl, exit rfl⟩
            | false =>
                dsimp only
                rw [after]
                exact ih (keep rfl) (Nat.le_of_succ_le_succ enough)

/-- The rule on lists that are linked in any way: `P` is kept while the loop goes
on, and gives `Q` where it ends. -/
theorem walk_ends {next : σ → α → Option α} {body : α → σ → σ × Bool} {P Q : σ → Prop}
    (step : ∀ x s, P s → (body x s).2 = false → P (body x s).1)
    (leave : ∀ x s, P s → (body x s).2 = true → Q (body x s).1) (done : ∀ s, P s → Q s) :
    ∀ {fuel : Nat} {x : Option α} {s t : σ}, P s → walk next body fuel x s = some t → Q t := by
  intro fuel
  induction fuel with
  | zero =>
      intro x s t holds ended
      cases x with
      | none =>
          cases ended
          exact done s holds
      | some x => cases ended
  | succ fuel ih =>
      intro x s t holds ended
      cases x with
      | none =>
          cases ended
          exact done s holds
      | some x =>
          have goes := step x s holds
          have leaves := leave x s holds
          unfold walk at ended
          dsimp only at ended
          cases result : body x s with
          | mk u left =>
              rw [result] at goes leaves ended
              cases left with
              | true =>
                  cases ended
                  exact leaves rfl
              | false => exact ih (goes rfl) ended

/-- Whatever every pass of the loop keeps, the loop keeps. -/
theorem walk_keeps {next : σ → α → Option α} {body : α → σ → σ × Bool} {P : σ → Prop}
    (step : ∀ x s, P s → P (body x s).1) {fuel : Nat} {x : Option α} {s t : σ} (holds : P s)
    (ended : walk next body fuel x s = some t) : P t :=
  walk_ends (fun x s holds _ => step x s holds) (fun x s holds _ => step x s holds)
    (fun _ => id) holds ended

/-- The node after `x` on a list that `x :: rest` ends. -/
theorem IsList.next_of_suffix {l : Links α} {a : Anchor α} {xs rest : List α} {x : α}
    (list : IsList l a xs) (ends : x :: rest <:+ xs) : l.next x = rest.head? := by
  obtain ⟨front, rfl⟩ := ends
  exact list.next

end Walk

end Dfos.Lib
