import Dfos.Vma.IntervalSet

/-!
# The first-fit gap search

`vma_tree_find_gap` walks the tree in order with a cursor that never moves
down and stops at the first hole that is long enough.

The walk is a left fold over the stored intervals, so its soundness is an
induction over that list: everything behind the cursor has been passed, and
everything ahead of it starts later.
-/

namespace Dfos.Vma

open Dfos.Lib

/-! ## The search as the source writes it -/

/-- `align_up_u32`; the sum is taken in 64 bits and a result that does not fit
32 bits becomes zero.  `alignment` is a power of two at every call. -/
def alignUpU32 (value alignment : Nat) : Nat :=
  if alignment ≤ 1 then value
  else
    let aligned := (value + alignment - 1) / alignment * alignment
    if aligned > 0xFFFFFFFF then 0 else aligned

/-- `add_fits_limit`. -/
def addFitsLimit (start length limit : Nat) : Bool := start + length ≤ limit

/-- `gap_search_state_t`. -/
structure GapSearchState where
  cursor : Nat
  maxAddr : Nat
  length : Nat
  alignment : Nat
  result : Nat
  found : Bool
  deriving DecidableEq, Repr

/-- The cursor after an interval that leaves no room before it. -/
def GapSearchState.nextCursor (state : GapSearchState) (stop : Nat) : Nat :=
  let next := alignUpU32 stop state.alignment
  let next := if next < state.cursor then state.maxAddr else next
  if next > state.maxAddr then state.maxAddr else next

/-- The part of `gap_search_in_order` between its two recursive calls. -/
def gapVisit (state : GapSearchState) (i : Interval) : GapSearchState :=
  if i.stop > state.cursor then
    let gapEnd := if i.start > state.maxAddr then state.maxAddr else i.start
    if addFitsLimit state.cursor state.length gapEnd then
      { state with result := state.cursor, found := true }
    else { state with cursor := state.nextCursor i.stop }
  else state

/-- `gap_search_in_order`. -/
def gapSearchInOrder : VmaNode → GapSearchState → GapSearchState
  | .nil, state => state
  | .node _ a left right, state =>
      if state.found then state
      else
        let state := gapSearchInOrder left state
        if state.found then state
        else gapSearchInOrder right (gapVisit state a.toInterval)

/-- `vma_tree_find_gap`, with `*start_out` as the result. -/
def vmaTreeFindGap (tree : VmaTree) (minAddr maxAddr length alignment : Nat) : Option Nat :=
  if length = 0 ∨ minAddr ≥ maxAddr ∨ alignment = 0 then none
  else if alignment &&& (alignment - 1) ≠ 0 then none
  else
    let start := alignUpU32 minAddr alignment
    if start < minAddr ∨ start ≥ maxAddr then none
    else
      let state := gapSearchInOrder tree.root
        { cursor := start, maxAddr := maxAddr, length := length, alignment := alignment,
          result := 0, found := false }
      if state.found then some state.result
      else if addFitsLimit state.cursor length maxAddr then some state.cursor
      else none

/-- The state the walk starts with. -/
def GapSearchState.start (minAddr maxAddr length alignment : Nat) : GapSearchState where
  cursor := alignUpU32 minAddr alignment
  maxAddr := maxAddr
  length := length
  alignment := alignment
  result := 0
  found := false

/-- What the search answers once the walk is over. -/
def GapSearchState.answer (state : GapSearchState) : Option Nat :=
  if state.found then some state.result
  else if addFitsLimit state.cursor state.length state.maxAddr then some state.cursor
  else none

/-! ## The walk is a fold -/

/-- One interval of the fold; nothing happens once a gap is found. -/
def gapStep (state : GapSearchState) (i : Interval) : GapSearchState :=
  if state.found then state else gapVisit state i

theorem foldl_gapStep_found {state : GapSearchState} (found : state.found = true)
    (l : List Interval) : l.foldl gapStep state = state := by
  induction l with
  | nil => rfl
  | cons i l ih => rw [List.foldl_cons, gapStep, if_pos found, ih]

theorem gapSearchInOrder_eq_foldl (t : VmaNode) (state : GapSearchState) :
    gapSearchInOrder t state = (intervals t).foldl gapStep state := by
  induction t generalizing state with
  | nil => rfl
  | node h a left right ihLeft ihRight =>
      have split : intervals (.node h a left right) =
          intervals left ++ a.toInterval :: intervals right := by
        simp [intervals]
      rw [split, List.foldl_append, List.foldl_cons, ← ihLeft, gapSearchInOrder]
      cases found : state.found with
      | true =>
          have stays : gapSearchInOrder left state = state := by
            rw [ihLeft, foldl_gapStep_found found]
          rw [if_pos rfl, stays, gapStep, if_pos found, foldl_gapStep_found found]
      | false =>
          rw [if_neg (by simp)]
          cases foundLeft : (gapSearchInOrder left state).found with
          | true =>
              dsimp only
              rw [if_pos foundLeft, gapStep, if_pos foundLeft, foldl_gapStep_found foundLeft]
          | false =>
              dsimp only
              rw [if_neg (by simp [foundLeft]), ihRight, gapStep,
                if_neg (by simp [foundLeft])]

/-! ## Soundness -/

/-- `address` starts a hole of the searched length: aligned, within the
bounds, and apart from every interval of `l`. -/
structure IsGap (l : List Interval) (minAddr maxAddr length alignment address : Nat) :
    Prop where
  above : minAddr ≤ address
  aligned : alignment ∣ address
  below : address + length ≤ maxAddr
  apart : ∀ i ∈ l, i.stop ≤ address ∨ address + length ≤ i.start

/-- A search still under way after the intervals `seen`.  A cursor that was
cut to the upper bound counts as past everything: nothing fits there. -/
structure Searching (minAddr : Nat) (seen : List Interval) (state : GapSearchState) :
    Prop where
  above : minAddr ≤ state.cursor
  aligned : state.cursor = state.maxAddr ∨ state.alignment ∣ state.cursor
  past : ∀ i ∈ seen, state.cursor = state.maxAddr ∨ i.stop ≤ state.cursor

theorem alignUpU32_spec (value : Nat) {alignment : Nat} (positive : 0 < alignment) :
    alignUpU32 value alignment = 0 ∨
      value ≤ alignUpU32 value alignment ∧ alignment ∣ alignUpU32 value alignment := by
  unfold alignUpU32
  by_cases small : alignment ≤ 1
  · have one : alignment = 1 := by omega
    rw [if_pos small]
    exact Or.inr ⟨le_rfl, by rw [one]; exact one_dvd _⟩
  · rw [if_neg small]
    dsimp only
    split_ifs with overflow
    · exact Or.inl rfl
    · refine Or.inr ⟨?_, Dvd.intro_left _ rfl⟩
      have below : value + alignment - 1 <
          ((value + alignment - 1) / alignment + 1) * alignment := by
        rw [mul_comm]
        exact Nat.lt_mul_div_succ _ positive
      rw [add_mul, one_mul] at below
      omega

theorem nextCursor_le (state : GapSearchState) (stop : Nat) :
    state.nextCursor stop ≤ state.maxAddr := by
  unfold GapSearchState.nextCursor
  dsimp only
  split_ifs <;> omega

/-- The cursor moves past the interval, or to the upper bound. -/
theorem nextCursor_spec (state : GapSearchState) (stop : Nat)
    (positive : 0 < state.alignment) (started : 0 < state.cursor) :
    state.nextCursor stop = state.maxAddr ∨
      (state.cursor ≤ state.nextCursor stop ∧ stop ≤ state.nextCursor stop ∧
        state.alignment ∣ state.nextCursor stop) := by
  unfold GapSearchState.nextCursor
  dsimp only
  rcases alignUpU32_spec stop positive with zero | ⟨high, aligned⟩
  · left
    rw [zero, if_pos started]
    simp
  · by_cases back : alignUpU32 stop state.alignment < state.cursor
    · left
      rw [if_pos back]
      simp
    · rw [if_neg back]
      by_cases beyond : alignUpU32 stop state.alignment > state.maxAddr
      · exact Or.inl (if_pos beyond)
      · rw [if_neg beyond]
        exact Or.inr ⟨by omega, high, aligned⟩

section

variable {minAddr maxAddr length alignment : Nat}

/-- The parameters a search carries along unchanged. -/
structure Searches (minAddr maxAddr length alignment : Nat) (state : GapSearchState) :
    Prop where
  max : state.maxAddr = maxAddr
  len : state.length = length
  align : state.alignment = alignment
  within : state.cursor ≤ maxAddr

theorem gapVisit_searches {state : GapSearchState}
    (searches : Searches minAddr maxAddr length alignment state) (i : Interval) :
    Searches minAddr maxAddr length alignment (gapVisit state i) := by
  obtain ⟨max, len, align, within⟩ := searches
  have moved : Searches minAddr maxAddr length alignment
      { state with cursor := state.nextCursor i.stop } :=
    ⟨max, len, align, max ▸ nextCursor_le state i.stop⟩
  unfold gapVisit
  dsimp only
  split_ifs
  · exact ⟨max, len, align, within⟩
  · exact moved
  · exact ⟨max, len, align, within⟩
  · exact moved
  · exact ⟨max, len, align, within⟩

/-- One visit: either the hole before `i` is long enough for a gap apart from
everything seen, from `i` and from what follows, or the search goes on past
`i`. -/
theorem gapVisit_sound {state : GapSearchState} {seen rest : List Interval} {i : Interval}
    (ordered : Ordered (seen ++ i :: rest)) (started : 0 < minAddr)
    (nonempty : 0 < length) (positive : 0 < alignment)
    (searches : Searches minAddr maxAddr length alignment state)
    (searching : Searching minAddr seen state) (open_ : state.found = false) :
    ((gapVisit state i).found = true ∧
      IsGap (seen ++ i :: rest) minAddr maxAddr length alignment
        (gapVisit state i).result) ∨
    ((gapVisit state i).found = false ∧
      Searching minAddr (seen ++ [i]) (gapVisit state i)) := by
  obtain ⟨max, len, align, within⟩ := searches
  obtain ⟨above, aligned, past⟩ := searching
  unfold gapVisit
  by_cases ahead : i.stop > state.cursor
  · rw [if_pos ahead]
    dsimp only
    by_cases fits : addFitsLimit state.cursor state.length
        (if i.start > state.maxAddr then state.maxAddr else i.start) = true
    · rw [if_pos fits]
      simp only [addFitsLimit, decide_eq_true_eq] at fits
      have room : state.cursor + length ≤ i.start ∧ state.cursor + length ≤ maxAddr := by
        split at fits <;> omega
      refine Or.inl ⟨rfl, above, ?_, room.2, fun j member => ?_⟩
      · rcases aligned with top | aligned
        · omega
        · rwa [align] at aligned
      · show j.stop ≤ state.cursor ∨ state.cursor + length ≤ j.start
        rcases List.mem_append.mp member with before | later
        · rcases past j before with top | behind
          · omega
          · exact Or.inl behind
        · rcases List.mem_cons.mp later with rfl | later
          · exact Or.inr room.1
          · have order := ordered.apart
            rw [List.pairwise_append, List.pairwise_cons] at order
            have after : i.stop ≤ j.start := order.2.1.1 j later
            have valid : i.start < i.stop := ordered.valid i (by simp)
            exact Or.inr (by omega)
    · rw [if_neg fits]
      refine Or.inr ⟨open_, ?_⟩
      have next := nextCursor_spec state i.stop (by omega) (by omega)
      rcases next with top | ⟨moved, stop, aligned⟩
      · exact ⟨by dsimp only; omega, Or.inl top, fun _ _ => Or.inl top⟩
      · refine ⟨by dsimp only; omega, Or.inr aligned, fun j member => ?_⟩
        rcases List.mem_append.mp member with before | here
        · rcases past j before with top | behind
          · left
            show state.nextCursor i.stop = state.maxAddr
            have low := nextCursor_le state i.stop
            omega
          · exact Or.inr (le_trans behind moved)
        · obtain rfl := List.mem_singleton.mp here
          exact Or.inr stop
  · rw [if_neg ahead]
    refine Or.inr ⟨open_, above, aligned, fun j member => ?_⟩
    rcases List.mem_append.mp member with before | here
    · exact past j before
    · obtain rfl := List.mem_singleton.mp here
      exact Or.inr (by omega)

/-- The whole walk, by induction on the intervals still ahead. -/
theorem foldl_gapStep_sound {rest : List Interval} :
    ∀ {seen : List Interval} {state : GapSearchState}, Ordered (seen ++ rest) →
      0 < minAddr → 0 < length → 0 < alignment →
      Searches minAddr maxAddr length alignment state → Searching minAddr seen state →
      state.found = false →
      ((rest.foldl gapStep state).found = true ∧
        IsGap (seen ++ rest) minAddr maxAddr length alignment
          (rest.foldl gapStep state).result) ∨
      ((rest.foldl gapStep state).found = false ∧
        Searches minAddr maxAddr length alignment (rest.foldl gapStep state) ∧
        Searching minAddr (seen ++ rest) (rest.foldl gapStep state)) := by
  induction rest with
  | nil =>
      intro seen state _ _ _ _ searches searching open_
      rw [List.append_nil]
      exact Or.inr ⟨open_, searches, searching⟩
  | cons i rest ih =>
      intro seen state ordered started nonempty positive searches searching open_
      have step : gapStep state i = gapVisit state i := by
        rw [gapStep, if_neg (by simp [open_])]
      rw [List.foldl_cons, step]
      rcases gapVisit_sound ordered started nonempty positive searches searching open_ with
        ⟨found, gap⟩ | ⟨missing, searching⟩
      · rw [foldl_gapStep_found found]
        exact Or.inl ⟨found, gap⟩
      · have regroup : seen ++ i :: rest = (seen ++ [i]) ++ rest := by simp
        rw [regroup] at ordered ⊢
        exact ih ordered started nonempty positive (gapVisit_searches searches i) searching
          missing

theorem gapStep_searches {state : GapSearchState}
    (searches : Searches minAddr maxAddr length alignment state) (i : Interval) :
    Searches minAddr maxAddr length alignment (gapStep state i) := by
  unfold gapStep
  split
  · exact searches
  · exact gapVisit_searches searches i

theorem foldl_gapStep_searches (l : List Interval) :
    ∀ {state : GapSearchState}, Searches minAddr maxAddr length alignment state →
      Searches minAddr maxAddr length alignment (l.foldl gapStep state) := by
  induction l with
  | nil => exact fun searches => searches
  | cons i l ih => exact fun searches => ih (gapStep_searches searches i)

theorem start_searches (low : alignUpU32 minAddr alignment ≤ maxAddr) :
    Searches minAddr maxAddr length alignment (.start minAddr maxAddr length alignment) :=
  ⟨rfl, rfl, rfl, low⟩

/-- What a walk over `l` answers is a gap. -/
theorem answer_isGap {l : List Interval} {state : GapSearchState} {address : Nat}
    (nonempty : 0 < length)
    (outcome : (state.found = true ∧ IsGap l minAddr maxAddr length alignment state.result) ∨
      (state.found = false ∧ Searches minAddr maxAddr length alignment state ∧
        Searching minAddr l state))
    (found : state.answer = some address) :
    IsGap l minAddr maxAddr length alignment address := by
  unfold GapSearchState.answer at found
  rcases outcome with ⟨hit, gap⟩ | ⟨miss, ⟨max, len, align, -⟩, searching⟩
  · rw [if_pos hit] at found
    obtain rfl := Option.some.inj found
    exact gap
  · rw [if_neg (by simp [miss])] at found
    split at found
    · next fits =>
        obtain rfl := Option.some.inj found
        simp only [addFitsLimit, decide_eq_true_eq] at fits
        refine ⟨searching.above, ?_, by omega, fun i member => Or.inl ?_⟩
        · rcases searching.aligned with top | aligned
          · omega
          · rwa [align] at aligned
        · rcases searching.past i member with top | behind
          · omega
          · exact behind
    · cases found

end

section Search

variable {tree : VmaTree} {minAddr maxAddr length alignment address : Nat}

/-- **The search** is the walk over the stored intervals. -/
theorem vmaTreeFindGap_eq :
    vmaTreeFindGap tree minAddr maxAddr length alignment =
      if length = 0 ∨ minAddr ≥ maxAddr ∨ alignment = 0 then none
      else if alignment &&& (alignment - 1) ≠ 0 then none
      else if alignUpU32 minAddr alignment < minAddr ∨ alignUpU32 minAddr alignment ≥ maxAddr then
        none
      else ((intervals tree.root).foldl gapStep (.start minAddr maxAddr length alignment)).answer := by
  unfold vmaTreeFindGap
  dsimp only
  rw [gapSearchInOrder_eq_foldl]
  split
  · rfl
  split
  · rfl
  split
  · rfl
  next low =>
  have searches : Searches minAddr maxAddr length alignment
      ((intervals tree.root).foldl gapStep (.start minAddr maxAddr length alignment)) :=
    foldl_gapStep_searches _ (start_searches (by omega))
  unfold GapSearchState.answer
  rw [searches.max, searches.len]
  rfl

/-- **A gap the search returns is one.**  The lower bound must be positive:
with a cursor at zero an alignment that overflows looks like no progress. -/
theorem vmaTreeFindGap_sound (wf : tree.WellFormed) (started : 0 < minAddr)
    (found : vmaTreeFindGap tree minAddr maxAddr length alignment = some address) :
    IsGap (intervals tree.root) minAddr maxAddr length alignment address := by
  rw [vmaTreeFindGap_eq] at found
  split at found
  · cases found
  next valid =>
  split at found
  · cases found
  split at found
  · cases found
  next bounds =>
  have positive : 0 < alignment := by omega
  have aligned : alignment ∣ alignUpU32 minAddr alignment := by
    rcases alignUpU32_spec minAddr positive with zero | ⟨_, aligned⟩
    · rw [zero]
      exact dvd_zero _
    · exact aligned
  have low : minAddr ≤ alignUpU32 minAddr alignment := by omega
  have start : Searching minAddr [] (.start minAddr maxAddr length alignment) :=
    ⟨low, Or.inr aligned, by simp⟩
  have ordered : Ordered ([] ++ intervals tree.root) := wf.ordered
  exact answer_isGap (by omega) (foldl_gapStep_sound ordered started (by omega) positive
    (start_searches (by omega)) start rfl) found

end Search

end Dfos.Vma
