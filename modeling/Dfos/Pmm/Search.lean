import Dfos.Pmm.Invariant

/-!
# What the searches of the frame allocator do

`Took s t lo n` says that `t` is `s` after the free frames `[lo, lo + n)` were
taken.  Every search either leaves the state alone or takes one such run, and
that is all its callers need to know.
-/

namespace Dfos.Pmm

open Dfos.Lib

section Single

variable {s : PmmState} {frame : Nat}

theorem reserveFrameLocked_refused
    (refused : s.totalFrames ≤ frame ∨ s.frameBitmap.test frame = true) :
    reserveFrameLocked s frame = (s, false) :=
  if_pos refused

theorem releaseFrameLocked_refused
    (refused : s.totalFrames ≤ frame ∨ s.frameBitmap.test frame = false) :
    releaseFrameLocked s frame = (s, false) :=
  if_pos refused

theorem reserveFrameLocked_eq (below : frame < s.totalFrames)
    (free : s.frameBitmap.test frame = false) :
    reserveFrameLocked s frame =
      (adjustNode { s with
        frameBitmap := s.frameBitmap.set frame
        freeFrames := s.freeFrames - 1 } frame (· - 1), true) := by
  unfold reserveFrameLocked
  rw [if_neg]
  rintro (above | taken)
  · omega
  · rw [free] at taken
    cases taken

theorem releaseFrameLocked_eq (below : frame < s.totalFrames)
    (taken : s.frameBitmap.test frame = true) :
    releaseFrameLocked s frame =
      (adjustNode { s with
        frameBitmap := s.frameBitmap.clear frame
        freeFrames := s.freeFrames + 1 } frame (· + 1), true) := by
  unfold releaseFrameLocked
  rw [if_neg]
  rintro (above | free)
  · omega
  · rw [taken] at free
    cases free

theorem reserveFrameLocked_inv (inv : Inv s) (frame : Nat) : Inv (reserveFrameLocked s frame).1 := by
  by_cases accepted : frame < s.totalFrames ∧ s.frameBitmap.test frame = false
  · obtain ⟨below, free⟩ := accepted
    rw [reserveFrameLocked_eq below free]
    apply inv.adjust (· - 1) below
    · intro lo hi low high
      have := Bitmap.clearCount_set low high free
      omega
    · intro lo hi outside
      exact Bitmap.clearCount_set_outside outside
  · rw [reserveFrameLocked_refused]
    · exact inv
    · by_contra neither
      rw [not_or, Bool.not_eq_true] at neither
      exact accepted ⟨by omega, neither.2⟩

theorem releaseFrameLocked_inv (inv : Inv s) (frame : Nat) : Inv (releaseFrameLocked s frame).1 := by
  by_cases accepted : frame < s.totalFrames ∧ s.frameBitmap.test frame = true
  · obtain ⟨below, taken⟩ := accepted
    rw [releaseFrameLocked_eq below taken]
    apply inv.adjust (· + 1) below
    · intro lo hi low high
      exact Bitmap.clearCount_clear low high taken
    · intro lo hi outside
      exact Bitmap.clearCount_clear_outside outside
  · rw [releaseFrameLocked_refused]
    · exact inv
    · by_contra neither
      rw [not_or, Bool.not_eq_false] at neither
      exact accepted ⟨by omega, neither.2⟩

theorem reserveFrameLocked_shape (s : PmmState) (frame : Nat) :
    SameShape s (reserveFrameLocked s frame).1 := by
  unfold reserveFrameLocked
  split
  · exact .refl s
  · obtain ⟨total, active, initialized, mapped⟩ := (adjustNode_frame { s with
      frameBitmap := s.frameBitmap.set frame
      freeFrames := s.freeFrames - 1 } frame (· - 1)).2
    exact ⟨total, active, initialized, mapped⟩

theorem releaseFrameLocked_shape (s : PmmState) (frame : Nat) :
    SameShape s (releaseFrameLocked s frame).1 := by
  unfold releaseFrameLocked
  split
  · exact .refl s
  · obtain ⟨total, active, initialized, mapped⟩ := (adjustNode_frame { s with
      frameBitmap := s.frameBitmap.clear frame
      freeFrames := s.freeFrames + 1 } frame (· + 1)).2
    exact ⟨total, active, initialized, mapped⟩

/-- A reservation takes the frame when it is managed and changes no other bit. -/
theorem reserveFrameLocked_test (s : PmmState) (frame f : Nat) :
    (reserveFrameLocked s frame).1.frameBitmap.test f =
      (s.frameBitmap.test f || decide (f = frame ∧ frame < s.totalFrames)) := by
  unfold reserveFrameLocked
  split
  · next refused =>
    by_cases same : f = frame
    · subst same
      rcases refused with above | taken
      · have : ¬ f < s.totalFrames := by omega
        simp [this]
      · simp [taken]
    · simp [same]
  · next accepted =>
    have below : frame < s.totalFrames := by
      by_contra above
      exact accepted (Or.inl (by omega))
    rw [(adjustNode_frame _ _ _).1, Bitmap.test_set]
    simp [below]

/-- A release frees the frame when it is managed and changes no other bit. -/
theorem releaseFrameLocked_test (s : PmmState) (frame f : Nat) :
    (releaseFrameLocked s frame).1.frameBitmap.test f =
      (s.frameBitmap.test f && !decide (f = frame ∧ frame < s.totalFrames)) := by
  unfold releaseFrameLocked
  split
  · next refused =>
    by_cases same : f = frame
    · subst same
      rcases refused with above | free
      · have : ¬ f < s.totalFrames := by omega
        simp [this]
      · simp [free]
    · simp [same]
  · next accepted =>
    have below : frame < s.totalFrames := by
      by_contra above
      exact accepted (Or.inl (by omega))
    rw [(adjustNode_frame _ _ _).1, Bitmap.test_clear]
    simp [below]

end Single

/-! ## Taking a run -/

/-- `t` is `s` with the free frames `[lo, lo + n)` taken. -/
structure Took (s t : PmmState) (lo n : Nat) : Prop where
  inside : lo + n ≤ s.totalFrames
  free : ∀ f, lo ≤ f → f < lo + n → s.frameBitmap.test f = false
  after : ∀ f, t.frameBitmap.test f = (s.frameBitmap.test f || decide (lo ≤ f ∧ f < lo + n))
  inv : Inv t
  shape : SameShape s t

/-- A search leaves the state alone or takes the run it reports. -/
def Outcome (s : PmmState) (n : Nat) (result : PmmState × Option Nat) : Prop :=
  result = (s, none) ∨ ∃ lo, result.2 = some lo ∧ Took s result.1 lo n

section Runs

variable {s t u : PmmState} {lo n id : Nat}

theorem Took.zero (inv : Inv s) (inside : lo ≤ s.totalFrames) : Took s s lo 0 where
  inside := by omega
  free f low high := by omega
  after f := by
    have nothing : ¬ (lo ≤ f ∧ f < lo + 0) := by omega
    simp only [nothing, decide_false, Bool.or_false]
  inv := inv
  shape := .refl s

theorem Took.one (inv : Inv s) (below : lo < s.totalFrames)
    (free : s.frameBitmap.test lo = false) : Took s (reserveFrameLocked s lo).1 lo 1 where
  inside := by omega
  free f low high := by
    have : f = lo := by omega
    rw [this, free]
  after f := by
    have single : (f = lo ∧ lo < s.totalFrames) ↔ (lo ≤ f ∧ f < lo + 1) := by omega
    rw [reserveFrameLocked_test]
    simp only [single]
  inv := reserveFrameLocked_inv inv lo
  shape := reserveFrameLocked_shape s lo

/-- Neighbouring runs join. -/
theorem Took.append {m : Nat} (first : Took s t lo m) (second : Took t u (lo + m) n) :
    Took s u lo (m + n) where
  inside := by
    have := second.inside
    rw [first.shape.total] at this
    omega
  free f low high := by
    by_cases left : f < lo + m
    · exact first.free f low left
    · have later := second.free f (by omega) (by omega)
      rw [first.after, Bool.or_eq_false_iff] at later
      exact later.1
  after f := by
    have joined : (lo ≤ f ∧ f < lo + (m + n)) ↔
        (lo ≤ f ∧ f < lo + m) ∨ (lo + m ≤ f ∧ f < lo + m + n) := by omega
    rw [second.after, first.after, Bool.or_assoc]
    simp only [joined, Bool.decide_or]
  inv := second.inv
  shape := first.shape.trans second.shape

/-- What a later edit of the cursors keeps. -/
theorem Took.edit (took : Took s t lo n) (bitmap : u.frameBitmap = t.frameBitmap) (inv : Inv u)
    (shape : SameShape t u) : Took s u lo n where
  inside := took.inside
  free := took.free
  after f := by rw [bitmap, took.after]
  inv := inv
  shape := took.shape.trans shape

theorem Took.setRoundRobin (took : Took s t lo n) {k : Nat} (active : k < t.activeNumaNodeCount) :
    Took s { t with roundRobinNumaNode := k } lo n :=
  took.edit rfl (took.inv.setRoundRobin active) ⟨rfl, rfl, rfl, rfl⟩

/-- Reserving a run that was found free succeeds. -/
theorem pmmReserveContiguousLocked_took (inv : Inv s) (inside : lo + n ≤ s.totalFrames)
    (free : ∀ f, lo ≤ f → f < lo + n → s.frameBitmap.test f = false) :
    ∃ t, pmmReserveContiguousLocked n lo s = (t, true) ∧ Took s t lo n := by
  induction n generalizing lo s with
  | zero => exact ⟨s, rfl, .zero inv (by omega)⟩
  | succ n ih =>
    have below : lo < s.totalFrames := by omega
    have freeHere := free lo (le_refl lo) (by omega)
    have first := Took.one inv below freeHere
    have inside' : lo + 1 + n ≤ (reserveFrameLocked s lo).1.totalFrames := by
      rw [first.shape.total]
      omega
    have free' : ∀ f, lo + 1 ≤ f → f < lo + 1 + n →
        (reserveFrameLocked s lo).1.frameBitmap.test f = false := by
      intro f low high
      have other : ¬ (lo ≤ f ∧ f < lo + 1) := by omega
      rw [first.after, free f (by omega) (by omega)]
      simp only [other, decide_false, Bool.or_false]
    obtain ⟨t, reserved, rest⟩ := ih first.inv inside' free'
    refine ⟨t, ?_, ?_⟩
    · unfold pmmReserveContiguousLocked
      have accepted : reserveFrameLocked s lo = ((reserveFrameLocked s lo).1, true) := by
        rw [reserveFrameLocked_eq below freeHere]
      rw [accepted]
      exact reserved
    · rw [Nat.add_comm n 1]
      exact first.append rest

/-- A scan reserves the first free frame of its range, if there is one. -/
theorem scanReserve_outcome (s : PmmState) (left frame : Nat) (inside : frame + left ≤ s.totalFrames) :
    (scanReserve left frame s = (s, none) ∧
      ∀ f, frame ≤ f → f < frame + left → s.frameBitmap.test f = true) ∨
    ∃ f, (frame ≤ f ∧ f < frame + left) ∧ s.frameBitmap.test f = false ∧
      (∀ g, frame ≤ g → g < f → s.frameBitmap.test g = true) ∧
      scanReserve left frame s = ((reserveFrameLocked s f).1, some f) := by
  induction left generalizing frame with
  | zero => exact Or.inl ⟨rfl, fun f low high => by omega⟩
  | succ left ih =>
    unfold scanReserve
    cases taken : s.frameBitmap.test frame with
    | true =>
      rw [if_pos rfl]
      have here : ∀ f, frame ≤ f → (frame + 1 ≤ f → s.frameBitmap.test f = true) →
          s.frameBitmap.test f = true := by
        intro f low later
        rcases Nat.eq_or_lt_of_le low with same | above
        · rw [← same, taken]
        · exact later above
      rcases ih (frame + 1) (by omega) with ⟨none, all⟩ | ⟨f, range, free, before, found⟩
      · exact Or.inl ⟨none, fun f low high => here f low fun above => all f above (by omega)⟩
      · exact Or.inr ⟨f, by omega, free, fun g low high => here g low fun above =>
          before g above high, found⟩
    | false =>
      rw [if_neg Bool.false_ne_true]
      refine Or.inr ⟨frame, by omega, taken, fun g low high => by omega, ?_⟩
      rw [reserveFrameLocked_eq (by omega) taken]

theorem advanceScan_took {frame : Nat} (took : Took s t lo n)
    (range : (t.numaNodes id).firstFrame ≤ frame ∧ frame < (t.numaNodes id).endFrame) :
    Took s (advanceScan t id frame) lo n := by
  refine took.edit rfl (took.inv.setCursor ?_) ⟨rfl, rfl, rfl, rfl⟩
  intro _ _
  split <;> omega

theorem SameRanges.adjustNode (s : PmmState) (frame : Nat) (adjust : Nat → Nat) :
    SameRanges s (adjustNode s frame adjust) := by
  unfold Dfos.Pmm.adjustNode
  dsimp only
  split
  · exact .refl s
  · exact (SameRanges.refl s).setNode rfl rfl

theorem SameRanges.reserveFrameLocked (s : PmmState) (frame : Nat) :
    SameRanges s (reserveFrameLocked s frame).1 := by
  unfold Dfos.Pmm.reserveFrameLocked
  split
  · exact .refl s
  · have kept := SameRanges.adjustNode { s with
      frameBitmap := s.frameBitmap.set frame
      freeFrames := s.freeFrames - 1 } frame (· - 1)
    exact ⟨kept.total, kept.active, kept.first, kept.count⟩

theorem pmmFindFreeFrameInNodeLocked_outcome (inv : Inv s) (id : Nat) :
    Outcome s 1 (pmmFindFreeFrameInNodeLocked s id) := by
  unfold pmmFindFreeFrameInNodeLocked
  split
  · exact Or.inl rfl
  next active =>
  dsimp only
  split
  · exact Or.inl rfl
  next nonempty =>
  have active' : id < s.activeNumaNodeCount := by omega
  have cursor := inv.nodeCursor id active' (fun empty => nonempty (Or.inl empty))
  have last := inv.end_le active'
  rw [inv.scanCursor_mem active' (fun empty => nonempty (Or.inl empty))]
  -- both scans hand out a free frame of the node
  have found {f : Nat} (range : (s.numaNodes id).firstFrame ≤ f ∧ f < (s.numaNodes id).endFrame)
      (free : s.frameBitmap.test f = false) :
      Outcome s 1 (advanceScan (reserveFrameLocked s f).1 id f, some f) := by
    have same := SameRanges.reserveFrameLocked s f
    refine Or.inr ⟨f, rfl, advanceScan_took (.one inv (by omega) free) ?_⟩
    rw [same.first, same.last]
    exact range
  rcases scanReserve_outcome s ((s.numaNodes id).endFrame - (s.numaNodes id).nextScanFrame)
      (s.numaNodes id).nextScanFrame (by omega) with ⟨nothing, -⟩ | ⟨f, range, free, -, scan⟩
  · rw [nothing]
    dsimp only
    rcases scanReserve_outcome s ((s.numaNodes id).nextScanFrame - (s.numaNodes id).firstFrame)
        (s.numaNodes id).firstFrame (by omega) with ⟨nothing', -⟩ | ⟨f, range, free, -, scan⟩
    · rw [nothing']
      exact Or.inl rfl
    · rw [scan]
      exact found (by omega) free
  · rw [scan]
    exact found (by omega) free

/-! ## Contiguous runs -/

/-- The run found so far ends at the scan position, and the one returned is free
and inside the range scanned. -/
theorem findRun_some {bitmap : Bitmap} {frameCount left frame runStart runLength r : Nat}
    (low : lo ≤ frame)
    (run : runLength = 0 ∨ (runStart + runLength = frame ∧ lo ≤ runStart ∧
      ∀ f, runStart ≤ f → f < frame → bitmap.test f = false))
    (found : findRun bitmap frameCount left frame runStart runLength = some r) :
    lo ≤ r ∧ r + frameCount ≤ frame + left ∧
      ∀ f, r ≤ f → f < r + frameCount → bitmap.test f = false := by
  induction left generalizing frame runStart runLength with
  | zero => cases found
  | succ left ih =>
    unfold findRun at found
    cases taken : bitmap.test frame with
    | true =>
      rw [taken, if_pos rfl] at found
      obtain ⟨above, fits, free⟩ := ih (by omega) (Or.inl rfl) found
      exact ⟨above, by omega, free⟩
    | false =>
      rw [taken, if_neg Bool.false_ne_true] at found
      -- the run extended by this frame
      have extended : (if runLength = 0 then frame else runStart) + (runLength + 1) = frame + 1 ∧
          lo ≤ (if runLength = 0 then frame else runStart) ∧
          ∀ f, (if runLength = 0 then frame else runStart) ≤ f → f < frame + 1 →
            bitmap.test f = false := by
        rcases run with empty | ⟨ends, above, free⟩
        · rw [if_pos empty]
          refine ⟨by omega, low, fun f below high => ?_⟩
          have : f = frame := by omega
          rw [this, taken]
        · by_cases empty : runLength = 0
          · rw [if_pos empty]
            refine ⟨by omega, low, fun f below high => ?_⟩
            have : f = frame := by omega
            rw [this, taken]
          · rw [if_neg empty]
            refine ⟨by omega, above, fun f below high => ?_⟩
            by_cases last : f = frame
            · rw [last, taken]
            · exact free f below (by omega)
      dsimp only at found
      split at found
      · next complete =>
        cases found
        obtain ⟨ends, above, free⟩ := extended
        exact ⟨above, by omega, fun f below high => free f below (by omega)⟩
      · obtain ⟨above, fits, free⟩ := ih (by omega) (Or.inr extended) found
        exact ⟨above, by omega, free⟩

variable {start stop frameCount r : Nat}

theorem pmmFindContiguousFreeLinearLocked_some
    (found : pmmFindContiguousFreeLinearLocked s start stop frameCount = some r) :
    start ≤ r ∧ r + frameCount ≤ stop ∧
      ∀ f, r ≤ f → f < r + frameCount → s.frameBitmap.test f = false := by
  unfold pmmFindContiguousFreeLinearLocked at found
  split at found
  · cases found
  next nonempty =>
  split at found
  · cases found
  obtain ⟨above, fits, free⟩ := findRun_some (le_refl start) (Or.inl rfl) found
  exact ⟨above, by omega, free⟩

theorem pmmFindContiguousFreeWrappedLocked_some {searchStart : Nat}
    (found : pmmFindContiguousFreeWrappedLocked s start stop frameCount searchStart = some r) :
    start ≤ r ∧ r + frameCount ≤ stop ∧
      ∀ f, r ≤ f → f < r + frameCount → s.frameBitmap.test f = false := by
  unfold pmmFindContiguousFreeWrappedLocked at found
  split at found
  · cases found
  next nonempty =>
  split at found
  · cases found
  dsimp only at found
  -- the search starts inside the range, whatever cursor it was given
  have inside : start ≤ (if searchStart < start ∨ stop ≤ searchStart then start else searchStart) ∧
      (if searchStart < start ∨ stop ≤ searchStart then start else searchStart) ≤ stop := by
    split <;> omega
  generalize (if searchStart < start ∨ stop ≤ searchStart then start else searchStart) = cursor
    at found inside
  split at found
  · next upper =>
    cases found
    obtain ⟨above, fits, free⟩ := pmmFindContiguousFreeLinearLocked_some upper
    exact ⟨by omega, fits, free⟩
  · split at found
    · cases found
    · obtain ⟨above, fits, free⟩ := pmmFindContiguousFreeLinearLocked_some found
      exact ⟨above, by omega, free⟩

theorem pmmReserveContiguousLocked_sameRanges (n lo : Nat) (s : PmmState) :
    SameRanges s (pmmReserveContiguousLocked n lo s).1 := by
  induction n generalizing lo s with
  | zero => exact .refl s
  | succ n ih =>
    have first := SameRanges.reserveFrameLocked s lo
    unfold pmmReserveContiguousLocked
    split
    · next t reserved =>
      rw [reserved] at first
      have rest := ih (lo + 1) t
      exact ⟨rest.total.trans first.total, rest.active.trans first.active,
        fun i => (rest.first i).trans (first.first i), fun i => (rest.count i).trans (first.count i)⟩
    · next t refused =>
      rw [refused] at first
      exact first

theorem pmmFindContiguousInNodeLocked_outcome (inv : Inv s) (id frameCount : Nat) :
    Outcome s frameCount (pmmFindContiguousInNodeLocked s id frameCount) := by
  unfold pmmFindContiguousInNodeLocked
  split
  · exact Or.inl rfl
  next active =>
  dsimp only
  split
  · exact Or.inl rfl
  split
  · exact Or.inl rfl
  next runStart found =>
  have active' : id < s.activeNumaNodeCount := by omega
  have last := inv.end_le active'
  obtain ⟨above, fits, free⟩ := pmmFindContiguousFreeWrappedLocked_some found
  obtain ⟨t, reserved, took⟩ := pmmReserveContiguousLocked_took inv (by omega) free
  have same := pmmReserveContiguousLocked_sameRanges frameCount runStart s
  rw [reserved] at same ⊢
  dsimp only at same ⊢
  refine Or.inr ⟨runStart, rfl, took.edit rfl (took.inv.setCursor ?_) ⟨rfl, rfl, rfl, rfl⟩⟩
  intro _ nonempty
  rw [same.first, same.last]
  split <;> omega

/-! ## Searching the nodes -/

variable (search : PmmState → Nat → PmmState × Option Nat)

/-- The address an allocation reports is that of the run it took. -/
def Allocated (s : PmmState) (n : Nat) (result : PmmState × Option Nat) : Prop :=
  result = (s, none) ∨ ∃ lo, result.2 = some (frameAddress lo) ∧ Took s result.1 lo n

theorem Took.next_node (took : Took s t lo n) (k : Nat) :
    (k + 1) % t.activeNumaNodeCount < t.activeNumaNodeCount :=
  Nat.mod_lt _ took.inv.active_pos

theorem searchNodes_outcome (outcome : ∀ id, Outcome s n (search s id))
    (preferredNode startNode left i : Nat) :
    Outcome s n (searchNodes search preferredNode startNode left i s) := by
  induction left generalizing i with
  | zero => exact Or.inl rfl
  | succ left ih =>
    unfold searchNodes
    dsimp only
    split
    · exact ih (i + 1)
    · rcases outcome ((startNode + i) % s.activeNumaNodeCount) with nothing | ⟨lo, found, took⟩
      · rw [nothing]
        exact ih (i + 1)
      · generalize search s ((startNode + i) % s.activeNumaNodeCount) = result at found took
        obtain ⟨t, address⟩ := result
        cases found
        exact Or.inr ⟨lo, rfl, took.setRoundRobin (took.next_node _)⟩

theorem searchPreferred_outcome (outcome : ∀ id, Outcome s n (search s id))
    (preferredNode : Nat) : Outcome s n (searchPreferred search preferredNode s) := by
  unfold searchPreferred
  split
  · rcases outcome preferredNode with nothing | ⟨lo, found, took⟩
    · rw [nothing]
      exact Or.inl rfl
    · generalize search s preferredNode = result at found took
      obtain ⟨t, address⟩ := result
      cases found
      exact Or.inr ⟨lo, rfl, took.setRoundRobin (took.next_node _)⟩
  · exact Or.inl rfl

theorem searchOthers_outcome (outcome : ∀ id, Outcome s n (search s id)) (preferredNode : Nat) :
    Outcome s n (searchOthers search preferredNode s) :=
  searchNodes_outcome search outcome preferredNode _ _ _

/-! ## The two allocation calls -/

/-- **A single-frame allocation** fails without effect or takes one frame. -/
theorem pmmAllocFrameOnNode_allocated (inv : Inv s) (preferredNode : Nat) :
    Allocated s 1 (pmmAllocFrameOnNode s preferredNode) := by
  have outcome := pmmFindFreeFrameInNodeLocked_outcome inv
  unfold pmmAllocFrameOnNode
  split
  · exact Or.inl rfl
  rcases searchPreferred_outcome pmmFindFreeFrameInNodeLocked outcome preferredNode with nothing | ⟨lo, found, took⟩
  · rw [nothing]
    dsimp only
    rcases searchOthers_outcome pmmFindFreeFrameInNodeLocked outcome preferredNode with nothing' | ⟨lo, found, took⟩
    · rw [nothing']
      exact Or.inl rfl
    · generalize searchOthers pmmFindFreeFrameInNodeLocked preferredNode s = result at found took
      obtain ⟨t, address⟩ := result
      cases found
      exact Or.inr ⟨lo, rfl, took⟩
  · generalize searchPreferred pmmFindFreeFrameInNodeLocked preferredNode s = result at found took
    obtain ⟨t, address⟩ := result
    cases found
    exact Or.inr ⟨lo, rfl, took⟩

theorem Took.advanceGlobal (took : Took s t lo n) : Took s (advanceGlobal t lo n) lo n := by
  have cursor : Took s { t with globalNextScanFrame :=
      if t.totalFrames ≤ lo + n then (lo + n) % t.totalFrames else lo + n } lo n := by
    refine took.edit rfl (took.inv.setGlobalCursor ?_) ⟨rfl, rfl, rfl, rfl⟩
    intro nonempty
    split
    · exact Nat.mod_lt _ (by omega)
    · omega
  unfold Dfos.Pmm.advanceGlobal
  extract_lets next moved node
  split
  · exact cursor.setRoundRobin (Nat.mod_lt (node + 1) took.inv.active_pos)
  · exact cursor

/-- **A multi-frame allocation** fails without effect or takes one run. -/
theorem pmmAllocFramesOnNode_allocated (inv : Inv s) (frameCount preferredNode : Nat) :
    Allocated s frameCount (pmmAllocFramesOnNode s frameCount preferredNode) := by
  have outcome (id : Nat) : Outcome s frameCount (pmmFindContiguousInNodeLocked s id frameCount) :=
    pmmFindContiguousInNodeLocked_outcome inv id frameCount
  unfold pmmAllocFramesOnNode
  split
  · exact Or.inl rfl
  split
  · exact Or.inl rfl
  dsimp only
  rcases searchPreferred_outcome (fun s id => pmmFindContiguousInNodeLocked s id frameCount) outcome
    preferredNode with nothing | ⟨lo, found, took⟩
  · rw [nothing]
    dsimp only
    rcases searchOthers_outcome (fun s id => pmmFindContiguousInNodeLocked s id frameCount) outcome
      preferredNode with nothing' | ⟨lo, found, took⟩
    · rw [nothing']
      dsimp only
      split
      · exact Or.inl rfl
      next runStart found =>
      obtain ⟨-, fits, free⟩ := pmmFindContiguousFreeWrappedLocked_some found
      obtain ⟨t, reserved, took⟩ := pmmReserveContiguousLocked_took inv fits free
      rw [reserved]
      exact Or.inr ⟨runStart, rfl, took.advanceGlobal⟩
    · generalize searchOthers (fun s id => pmmFindContiguousInNodeLocked s id frameCount)
        preferredNode s = result at found took
      obtain ⟨t, address⟩ := result
      cases found
      exact Or.inr ⟨lo, rfl, took.advanceGlobal⟩
  · generalize searchPreferred (fun s id => pmmFindContiguousInNodeLocked s id frameCount)
      preferredNode s = result at found took
    obtain ⟨t, address⟩ := result
    cases found
    exact Or.inr ⟨lo, rfl, took⟩

end Runs

end Dfos.Pmm
