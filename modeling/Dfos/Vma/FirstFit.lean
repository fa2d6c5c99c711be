import Mathlib
import Dfos.Vma.Gap

/-!
# The gap search is lowest-first, and sound away from zero

No start of a hole lies behind the cursor: it begins at the first aligned address
of the bounds, and an interval moves it past itself only when no hole before the
interval is long enough.  So a hole is found if there is one, and it is the lowest.

The answer is a hole unless the cursor is stuck at zero.  An end that does not
round up within 32 bits rounds to zero, which sends a cursor above zero to the
upper bound; for a cursor at zero it looks like no progress, and the search goes
on as if the interval were not there.
-/

namespace Dfos.Vma

open Dfos.Lib

/-! ## Lowest first -/

/-- Rounding up stays at or below any multiple that fits 32 bits. -/
theorem alignUpU32_le {value alignment t : Nat} (positive : 0 < alignment) (low : value ≤ t)
    (aligned : alignment ∣ t) (fits : t < 2 ^ 32) :
    value ≤ alignUpU32 value alignment ∧ alignUpU32 value alignment ≤ t := by
  unfold alignUpU32
  by_cases small : alignment ≤ 1
  · rw [if_pos small]
    exact ⟨le_refl _, low⟩
  obtain ⟨q, rfl⟩ := aligned
  have least : (value + alignment - 1) / alignment * alignment ≤ alignment * q := by
    have below : value + alignment - 1 < alignment * q + alignment := by omega
    rw [← Nat.mul_succ] at below
    rw [Nat.mul_comm]
    exact Nat.mul_le_mul_left _ (Nat.le_of_lt_succ (Nat.div_lt_of_lt_mul below))
  have past : value + alignment - 1 < ((value + alignment - 1) / alignment + 1) * alignment := by
    rw [Nat.mul_comm]
    exact Nat.lt_mul_div_succ _ positive
  rw [if_neg small, if_neg (by omega)]
  rw [Nat.add_mul, Nat.one_mul] at past
  exact ⟨by omega, least⟩

/-- **One interval of the walk**: nothing, an answer, or a move past it. -/
theorem gapStep_cases (state : GapSearchState) (i : Interval) :
    (gapStep state i = state ∧ (state.found = true ∨ i.stop ≤ state.cursor)) ∨
    (gapStep state i = { state with result := state.cursor, found := true } ∧
      state.found = false ∧ state.cursor + state.length ≤ i.start ∧ state.cursor + state.length ≤ state.maxAddr) ∨
    (gapStep state i = { state with cursor := state.nextCursor i.stop } ∧ state.found = false ∧
      state.cursor < i.stop ∧
      (i.start < state.cursor + state.length ∨ state.maxAddr < state.cursor + state.length)) := by
  unfold gapStep
  cases found : state.found with
  | true => exact Or.inl ⟨if_pos rfl, Or.inl rfl⟩
  | false =>
      rw [if_neg Bool.false_ne_true]
      unfold gapVisit
      by_cases ahead : i.stop > state.cursor
      · rw [if_pos ahead]
        dsimp only
        by_cases fits : addFitsLimit state.cursor state.length
            (if i.start > state.maxAddr then state.maxAddr else i.start) = true
        · rw [if_pos fits]
          simp only [addFitsLimit, decide_eq_true_eq] at fits
          refine Or.inr (Or.inl ⟨rfl, rfl, ?_⟩)
          split at fits <;> omega
        · rw [if_neg fits, found]
          simp only [addFitsLimit, decide_eq_true_eq] at fits
          refine Or.inr (Or.inr ⟨rfl, rfl, ahead, ?_⟩)
          split at fits <;> omega
      · rw [if_neg ahead]
        exact Or.inl ⟨rfl, Or.inr (by omega)⟩

section Lowest

variable {l : List Interval} {minAddr maxAddr length alignment : Nat}

/-- No start of a hole lies behind what the search has reached. -/
def NoneBehind (l : List Interval) (minAddr maxAddr length alignment : Nat)
    (state : GapSearchState) : Prop :=
  ∀ t, IsGap l minAddr maxAddr length alignment t →
    (if state.found then state.result else state.cursor) ≤ t

theorem gapStep_noneBehind {state : GapSearchState} {i : Interval} (member : i ∈ l)
    (positive : 0 < alignment) (small : maxAddr < 2 ^ 32)
    (searches : Searches minAddr maxAddr length alignment state)
    (behind : NoneBehind l minAddr maxAddr length alignment state) :
    NoneBehind l minAddr maxAddr length alignment (gapStep state i) := by
  obtain ⟨max, len, align, within⟩ := searches
  intro t gap
  have reached := behind t gap
  have room := gap.below
  rcases gapStep_cases state i with ⟨same, -⟩ | ⟨answer, missing, -⟩ | ⟨moved, missing, ahead, short⟩
  · rw [same]
    exact reached
  · rw [missing, if_neg Bool.false_ne_true] at reached
    rw [answer]
    exact reached
  · rw [missing, if_neg Bool.false_ne_true] at reached
    -- the hole at `t` does not lie before `i`, since the one at the cursor does not
    have after : i.stop ≤ t := by
      rcases gap.apart i member with after | before
      · exact after
      · omega
    obtain ⟨past, least⟩ := alignUpU32_le positive after gap.aligned (by omega)
    rw [moved]
    dsimp only
    rw [missing, if_neg Bool.false_ne_true]
    unfold GapSearchState.nextCursor
    dsimp only
    have kept : ¬ alignUpU32 i.stop alignment < state.cursor := by omega
    rw [align, if_neg kept, if_neg (by omega)]
    exact least

theorem foldl_gapStep_noneBehind (positive : 0 < alignment) (small : maxAddr < 2 ^ 32)
    {rest : List Interval} (members : ∀ i ∈ rest, i ∈ l) :
    ∀ {state : GapSearchState}, Searches minAddr maxAddr length alignment state →
      NoneBehind l minAddr maxAddr length alignment state →
      NoneBehind l minAddr maxAddr length alignment (rest.foldl gapStep state) := by
  induction rest with
  | nil => exact fun _ behind => behind
  | cons i rest ih =>
      intro state searches behind
      exact ih (fun j later => members j (List.mem_cons_of_mem i later))
        (gapStep_searches searches i)
        (gapStep_noneBehind (members i List.mem_cons_self) positive small searches behind)

end Lowest

section Search

variable {tree : VmaTree} {l : List Interval} {minAddr maxAddr length alignment k : Nat}

/-- The search on arguments it does not refuse. -/
theorem vmaTreeFindGap_valid (bounds : minAddr < maxAddr) (nonempty : 0 < length) :
    vmaTreeFindGap tree minAddr maxAddr length (2 ^ k) =
      if alignUpU32 minAddr (2 ^ k) < minAddr ∨ alignUpU32 minAddr (2 ^ k) ≥ maxAddr then none
      else ((intervals tree.root).foldl gapStep
        (.start minAddr maxAddr length (2 ^ k))).answer := by
  have power : 2 ^ k &&& (2 ^ k - 1) = 0 := by
    rw [Nat.and_two_pow_sub_one_eq_mod, Nat.mod_self]
  have positive : 0 < 2 ^ k := Nat.two_pow_pos k
  rw [vmaTreeFindGap_eq, if_neg (by omega), if_neg (not_not.mpr power)]

/-- **If there is a hole, the search answers, with a start no later than any.** -/
theorem vmaTreeFindGap_lowest (bounds : minAddr < maxAddr) (nonempty : 0 < length)
    (small : maxAddr < 2 ^ 32) {t : Nat}
    (gap : IsGap (intervals tree.root) minAddr maxAddr length (2 ^ k) t) :
    ∃ s, vmaTreeFindGap tree minAddr maxAddr length (2 ^ k) = some s ∧
      ∀ u, IsGap (intervals tree.root) minAddr maxAddr length (2 ^ k) u → s ≤ u := by
  have positive : 0 < 2 ^ k := Nat.two_pow_pos k
  have first (u : Nat) (hole : IsGap (intervals tree.root) minAddr maxAddr length (2 ^ k) u) :
      minAddr ≤ alignUpU32 minAddr (2 ^ k) ∧ alignUpU32 minAddr (2 ^ k) ≤ u := by
    have below := hole.below
    exact alignUpU32_le positive hole.above hole.aligned (by omega)
  have room := gap.below
  obtain ⟨low, high⟩ := first t gap
  have start : Searches minAddr maxAddr length (2 ^ k) (.start minAddr maxAddr length (2 ^ k)) :=
    start_searches (by omega)
  have behind := foldl_gapStep_noneBehind (l := intervals tree.root) positive small
    (fun _ member => member) start fun u hole => (first u hole).2
  have searches := foldl_gapStep_searches (intervals tree.root) start
  rw [vmaTreeFindGap_valid bounds nonempty, if_neg (by omega)]
  generalize (intervals tree.root).foldl gapStep (.start minAddr maxAddr length (2 ^ k)) = state
    at searches behind
  unfold NoneBehind at behind
  unfold GapSearchState.answer
  cases found : state.found with
  | true =>
      rw [found] at behind
      exact ⟨state.result, if_pos rfl, behind⟩
  | false =>
      rw [found] at behind
      have reached : state.cursor ≤ t := behind t gap
      have fits : addFitsLimit state.cursor state.length state.maxAddr = true := by
        rw [searches.max, searches.len, addFitsLimit, decide_eq_true_eq]
        omega
      rw [if_neg Bool.false_ne_true, if_pos fits]
      exact ⟨state.cursor, rfl, behind⟩

/-! ## Where soundness fails -/

/-- The search would start at zero, the first interval leaves no room below it,
and its end does not round up within 32 bits. -/
def StuckAtZero (l : List Interval) (minAddr maxAddr length alignment : Nat) : Prop :=
  minAddr = 0 ∧ length ≤ maxAddr ∧ 1 < alignment ∧
    ∃ first ∈ l.head?, first.start < length ∧
      0xFFFFFFFF < (first.stop + alignment - 1) / alignment * alignment

/-- Rounding gives zero exactly where it does not fit. -/
theorem alignUpU32_overflow {value : Nat} (positive : 0 < alignment) (nonzero : 0 < value) :
    alignUpU32 value alignment = 0 ↔
      1 < alignment ∧ 0xFFFFFFFF < (value + alignment - 1) / alignment * alignment := by
  have past : value + alignment - 1 < ((value + alignment - 1) / alignment + 1) * alignment := by
    rw [Nat.mul_comm]
    exact Nat.lt_mul_div_succ _ positive
  rw [Nat.add_mul, Nat.one_mul] at past
  unfold alignUpU32
  dsimp only
  split
  · omega
  · split <;> omega

theorem alignUpU32_zero (positive : 0 < alignment) : alignUpU32 0 alignment = 0 := by
  have none : (0 + alignment - 1) / alignment = 0 := Nat.div_eq_of_lt (by omega)
  unfold alignUpU32
  rw [none, Nat.zero_mul]
  simp

/-- A cursor at zero stays there as long as no end rounds up within 32 bits. -/
theorem foldl_gapStep_stuck
    (stuck : ∀ i ∈ l, alignUpU32 i.stop alignment = 0) :
    ∀ {state : GapSearchState}, Searches minAddr maxAddr length alignment state →
      state.cursor = 0 → (state.found = true → state.result = 0) →
      (l.foldl gapStep state).cursor = 0 ∧
        ((l.foldl gapStep state).found = true → (l.foldl gapStep state).result = 0) := by
  induction l with
  | nil => exact fun _ zero result => ⟨zero, result⟩
  | cons i l ih =>
      intro state searches zero result
      have later : ∀ j ∈ l, alignUpU32 j.stop alignment = 0 :=
        fun j member => stuck j (List.mem_cons_of_mem i member)
      have next : state.nextCursor i.stop = 0 := by
        unfold GapSearchState.nextCursor
        rw [searches.align, stuck i List.mem_cons_self, zero]
        simp
      have kept := gapStep_searches searches i
      rw [List.foldl_cons]
      rcases gapStep_cases state i with ⟨same, -⟩ | ⟨answer, -⟩ | ⟨moved, -, -, -⟩
      · rw [same]
        exact ih later searches zero result
      · exact ih later kept (by rw [answer]; exact zero)
          (by rw [answer]; exact fun _ => zero)
      · exact ih later kept (by rw [moved]; exact next)
          (by rw [moved]; exact result)

/-- A search that starts at zero before an interval it cannot step over answers
zero, which the interval covers. -/
theorem StuckAtZero.unsound (ordered : Ordered l)
    (stuck : StuckAtZero l minAddr maxAddr length alignment) :
    (l.foldl gapStep (.start minAddr maxAddr length alignment)).answer = some 0 ∧
      ¬ IsGap l minAddr maxAddr length alignment 0 := by
  obtain ⟨rfl, fits, wide, first, head, covers, overflow⟩ := stuck
  obtain ⟨rest, rfl⟩ := List.head?_eq_some_iff.mp head
  have order := ordered.apart
  rw [List.pairwise_cons] at order
  have valid : first.start < first.stop := ordered.valid first List.mem_cons_self
  have ends : ∀ i ∈ first :: rest, alignUpU32 i.stop alignment = 0 := by
    intro i member
    have later : first.stop ≤ i.stop := by
      rcases List.mem_cons.mp member with rfl | member
      · exact le_refl _
      · have := order.1 i member
        have := ordered.valid i (List.mem_cons_of_mem first member)
        omega
    refine (alignUpU32_overflow (by omega) (by omega)).mpr ⟨wide, ?_⟩
    exact Nat.lt_of_lt_of_le overflow
      (Nat.mul_le_mul_right _ (Nat.div_le_div_right (by omega)))
  have zero : alignUpU32 0 alignment = 0 := alignUpU32_zero (by omega)
  have start : Searches 0 maxAddr length alignment (.start 0 maxAddr length alignment) :=
    start_searches (by omega)
  obtain ⟨cursor, result⟩ := foldl_gapStep_stuck ends start zero
    (fun found => absurd found Bool.false_ne_true)
  have kept := foldl_gapStep_searches (first :: rest) start
  refine ⟨?_, fun gap => ?_⟩
  · unfold GapSearchState.answer
    split
    · next found => rw [result found]
    · rw [kept.max, kept.len, cursor, addFitsLimit, if_pos (by simpa using fits)]
  · rcases gap.apart first List.mem_cons_self with behind | before <;> omega

/-- An answer ends within the bounds. -/
theorem answer_fits (low : alignUpU32 minAddr alignment ≤ maxAddr) {s : Nat}
    (found : (l.foldl gapStep (.start minAddr maxAddr length alignment)).answer = some s) :
    s + length ≤ maxAddr := by
  have walk (l : List Interval) : ∀ {state : GapSearchState},
      Searches minAddr maxAddr length alignment state →
      (state.found = true → state.result + length ≤ maxAddr) →
      (l.foldl gapStep state).found = true → (l.foldl gapStep state).result + length ≤ maxAddr := by
    induction l with
    | nil => exact fun _ fits => fits
    | cons i l ih =>
        intro state searches fits
        have kept := gapStep_searches searches i
        refine ih kept ?_
        rcases gapStep_cases state i with ⟨same, -⟩ | ⟨answer, -, -, room⟩ | ⟨moved, -, -, -⟩
        · rw [same]
          exact fits
        · rw [answer]
          rw [searches.max, searches.len] at room
          exact fun _ => room
        · rw [moved]
          exact fits
  have start : Searches minAddr maxAddr length alignment (.start minAddr maxAddr length alignment) :=
    start_searches low
  have kept := foldl_gapStep_searches l start
  unfold GapSearchState.answer at found
  split at found
  · next hit =>
      obtain rfl := Option.some.inj found
      exact walk l start (fun found => absurd found Bool.false_ne_true) hit
  · split at found
    · next fits =>
        obtain rfl := Option.some.inj found
        rw [kept.max, kept.len] at fits
        simpa only [addFitsLimit, decide_eq_true_eq] using fits
    · cases found

/-- Away from that case a search that starts at zero is sound: its first step
ends it or takes the cursor off zero. -/
theorem isGap_of_zero (ordered : Ordered l) (bounds : 0 < maxAddr) (nonempty : 0 < length)
    (positive : 0 < alignment) (free : ¬ StuckAtZero l 0 maxAddr length alignment) {s : Nat}
    (found : (l.foldl gapStep (.start 0 maxAddr length alignment)).answer = some s) :
    IsGap l 0 maxAddr length alignment s := by
  have zero := alignUpU32_zero positive
  have fits := answer_fits (by omega) found
  have start : Searches 0 maxAddr length alignment (.start 0 maxAddr length alignment) :=
    start_searches (by omega)
  cases l with
  | nil =>
      refine answer_isGap nonempty (Or.inr ⟨rfl, start, ?_, Or.inr ?_, ?_⟩) found
      · exact Nat.zero_le _
      · show alignment ∣ alignUpU32 0 alignment
        rw [zero]
        exact dvd_zero _
      · exact fun i member => absurd member List.not_mem_nil
  | cons first rest =>
      have valid : first.start < first.stop := ordered.valid first List.mem_cons_self
      have order := ordered.apart
      rw [List.pairwise_cons] at order
      rw [List.foldl_cons] at found
      have kept := gapStep_searches start first
      rcases gapStep_cases (.start 0 maxAddr length alignment) first with
        ⟨-, impossible | behind⟩ | ⟨answer, -, before, -⟩ | ⟨moved, -, -, short⟩
      · cases impossible
      · have : first.stop ≤ alignUpU32 0 alignment := behind
        omega
      · -- the hole below the first interval
        rw [answer, foldl_gapStep_found rfl] at found
        have result : s = 0 := (Option.some.inj found).symm.trans zero
        have room : alignUpU32 0 alignment + length ≤ first.start := before
        rw [result]
        refine ⟨le_refl 0, dvd_zero _, by omega, fun i member => Or.inr ?_⟩
        rcases List.mem_cons.mp member with rfl | member
        · omega
        · have := order.1 i member
          omega
      · have short : first.start < alignUpU32 0 alignment + length ∨
            maxAddr < alignUpU32 0 alignment + length := short
        have nonzero : alignUpU32 first.stop alignment ≠ 0 := by
          intro overflow
          obtain ⟨wide, past⟩ := (alignUpU32_overflow positive (by omega)).mp overflow
          exact free ⟨rfl, by omega, wide, first, rfl, by omega, past⟩
        obtain ⟨high, aligned⟩ := (alignUpU32_spec first.stop positive).resolve_left nonzero
        have next : GapSearchState.nextCursor (.start 0 maxAddr length alignment) first.stop =
            if alignUpU32 first.stop alignment > maxAddr then maxAddr
            else alignUpU32 first.stop alignment := by
          unfold GapSearchState.nextCursor GapSearchState.start
          dsimp only
          rw [zero, if_neg (Nat.not_lt_zero _)]
        rw [moved, next] at found kept
        have searching : Searching 1 [first]
            { GapSearchState.start 0 maxAddr length alignment with
              cursor := if alignUpU32 first.stop alignment > maxAddr then maxAddr
                else alignUpU32 first.stop alignment } := by
          dsimp only [GapSearchState.start]
          split
          · exact ⟨bounds, Or.inl rfl, fun _ _ => Or.inl rfl⟩
          · refine ⟨Nat.one_le_iff_ne_zero.mpr nonzero, Or.inr aligned, fun i member => Or.inr ?_⟩
            rw [List.mem_singleton.mp member]
            exact high
        have rest : Searches 1 maxAddr length alignment _ :=
          ⟨kept.max, kept.len, kept.align, kept.within⟩
        have gap := answer_isGap nonempty
          (foldl_gapStep_sound ordered one_pos nonempty positive rest searching rfl) found
        exact ⟨Nat.zero_le s, gap.aligned, gap.below, gap.apart⟩

/-- The search from a positive lower bound, or from zero where it is not stuck. -/
theorem vmaTreeFindGap_sound_iff (wf : tree.WellFormed) (bounds : minAddr < maxAddr)
    (nonempty : 0 < length) :
    (∀ s, vmaTreeFindGap tree minAddr maxAddr length (2 ^ k) = some s →
        IsGap (intervals tree.root) minAddr maxAddr length (2 ^ k) s) ↔
      ¬ StuckAtZero (intervals tree.root) minAddr maxAddr length (2 ^ k) := by
  have positive : 0 < 2 ^ k := Nat.two_pow_pos k
  constructor
  · intro sound stuck
    have zero := stuck.1
    obtain ⟨answer, covered⟩ := StuckAtZero.unsound wf.ordered stuck
    have start : alignUpU32 minAddr (2 ^ k) = 0 := by
      rw [zero]
      exact alignUpU32_zero positive
    apply covered
    apply sound
    rw [vmaTreeFindGap_valid bounds nonempty, if_neg (by omega)]
    exact answer
  · intro free s found
    by_cases zero : minAddr = 0
    · subst zero
      rw [vmaTreeFindGap_valid bounds nonempty, alignUpU32_zero positive, if_neg (by omega)] at found
      exact isGap_of_zero wf.ordered bounds nonempty positive free found
    · exact vmaTreeFindGap_sound wf (Nat.pos_of_ne_zero zero) found

end Search

/-! ## The search over reachable trees -/

/-- **`vma_tree_find_gap` is sound except where it is stuck at zero.**  For every
tree reached by any calls and any valid arguments, what it returns is aligned,
within the bounds and apart from every stored interval, if and only if the search
does not start at zero before an interval it cannot round past. -/
theorem vma_tree_find_gap_sound (ops : List VmaOp) (id k : Nat) {minAddr maxAddr length : Nat}
    (bounds : minAddr < maxAddr) (nonempty : 0 < length) :
    (∀ s, vmaTreeFindGap ((Vmas.init.run ops).trees id) minAddr maxAddr length (2 ^ k) = some s →
        IsGap (intervals ((Vmas.init.run ops).trees id).root) minAddr maxAddr length (2 ^ k) s) ↔
      ¬ StuckAtZero (intervals ((Vmas.init.run ops).trees id).root) minAddr maxAddr length
        (2 ^ k) :=
  vmaTreeFindGap_sound_iff ((Vmas.init_inv.run ops).wellFormed id) bounds nonempty

/-- Below an interval that ends within the last page there is room for one page. -/
theorem vma_tree_find_gap_sound_pageBelow :
    vmaTreeFindGap ((Vmas.init.run [.insert 0 0x1000 0xFFFFFF00 0]).trees 0) 0 0xFFFFFFFF 0x1000
        (2 ^ 12) = some 0 ∧
      IsGap (intervals ((Vmas.init.run [.insert 0 0x1000 0xFFFFFF00 0]).trees 0).root) 0 0xFFFFFFFF
        0x1000 (2 ^ 12) 0 := by
  have found : vmaTreeFindGap ((Vmas.init.run [.insert 0 0x1000 0xFFFFFF00 0]).trees 0) 0
      0xFFFFFFFF 0x1000 (2 ^ 12) = some 0 := by decide +kernel
  have single : intervals ((Vmas.init.run [.insert 0 0x1000 0xFFFFFF00 0]).trees 0).root =
      [⟨0x1000, 0xFFFFFF00, 0⟩] := by decide +kernel
  refine ⟨found, (vma_tree_find_gap_sound [.insert 0 0x1000 0xFFFFFF00 0] 0 12 (by decide)
    (by decide)).mpr ?_ 0 found⟩
  rw [single]
  rintro ⟨-, -, -, first, head, covers, -⟩
  obtain rfl := Option.some.inj head
  exact absurd covers (by decide)

/-- Two pages are asked for, and the answer is page zero although the second page
is taken. -/
theorem vma_tree_find_gap_answers_taken_page :
    vmaTreeFindGap ((Vmas.init.run [.insert 0 0x1000 0xFFFFFF00 0]).trees 0) 0 0xFFFFFFFF 0x2000
        0x1000 = some 0 ∧
      (⟨0x1000, 0xFFFFFF00, 0⟩ : Interval) ∈
        intervals ((Vmas.init.run [.insert 0 0x1000 0xFFFFFF00 0]).trees 0).root ∧
      ¬ Disjoint (Interval.mk 0 0x2000 0).addresses (Interval.mk 0x1000 0xFFFFFF00 0).addresses := by
  refine ⟨by decide +kernel, by decide +kernel, ?_⟩
  rw [Interval.disjoint_iff (by decide) (by decide)]
  decide

/-- **`vma_tree_find_gap` is complete and lowest-first.**  If some aligned start
of the bounds leaves room apart from every stored interval, the search returns a
start, and one that is no later than any such start. -/
theorem vma_tree_find_gap_lowest_first (ops : List VmaOp) (id k : Nat)
    {minAddr maxAddr length t : Nat} (bounds : minAddr < maxAddr) (nonempty : 0 < length)
    (small : maxAddr < 2 ^ 32)
    (gap : IsGap (intervals ((Vmas.init.run ops).trees id).root) minAddr maxAddr length (2 ^ k) t) :
    ∃ s, vmaTreeFindGap ((Vmas.init.run ops).trees id) minAddr maxAddr length (2 ^ k) = some s ∧
      ∀ u, IsGap (intervals ((Vmas.init.run ops).trees id).root) minAddr maxAddr length (2 ^ k) u →
        s ≤ u :=
  vmaTreeFindGap_lowest bounds nonempty small gap

/-- Two intervals with a hole of one page between them: a page is found there,
and a start further up is no reason to skip it. -/
theorem vma_tree_find_gap_lowest_first_hole :
    ∃ s, vmaTreeFindGap ((Vmas.init.run [.insert 0 0x1000 0x3000 0, .insert 0 0x4000 0x9000 0]).trees
        0) 0x1000 0x10000 0x1000 (2 ^ 12) = some s ∧ s ≤ 0x9000 := by
  have stored : intervals ((Vmas.init.run [.insert 0 0x1000 0x3000 0,
      .insert 0 0x4000 0x9000 0]).trees 0).root = [⟨0x1000, 0x3000, 0⟩, ⟨0x4000, 0x9000, 0⟩] := by
    decide +kernel
  have gap : IsGap (intervals ((Vmas.init.run [.insert 0 0x1000 0x3000 0,
      .insert 0 0x4000 0x9000 0]).trees 0).root) 0x1000 0x10000 0x1000 (2 ^ 12) 0x9000 := by
    rw [stored]
    exact ⟨by decide, by decide, by decide, by decide⟩
  obtain ⟨s, found, lowest⟩ := vma_tree_find_gap_lowest_first [.insert 0 0x1000 0x3000 0,
    .insert 0 0x4000 0x9000 0] 0 12 (by decide) (by decide) (by decide) gap
  exact ⟨s, found, lowest 0x9000 gap⟩

end Dfos.Vma
