import Dfos.Paging.Boot
import Dfos.Pmm.FreeSet

/-!
# Acquiring and releasing pages of the dynamic region

`Acquired s t P` says that `t` is `s` with the pages in `P` mapped to frames
that were free, `Released s t P` that `t` is `s` with the pages in `P` unmapped
and their frames given back.  The loops of the page allocator are described by
these two relations, and a rollback is the second undoing the first.
-/

namespace Dfos.Paging

open Dfos.Lib
open Dfos.Pmm

variable {layout : Layout} {s t u : PagingState}

/-- A page of the dynamic region. -/
structure Page (a : Nat) : Prop where
  dynamic : Dynamic a
  aligned : pageSize ∣ a

/-- The walk at `a`. -/
abbrev PagingState.at (layout : Layout) (s : PagingState) (a : Nat) : Option Nat :=
  lookup layout s.memory a

/-- Tables, PMM and trees are in order, and the mapped pages have distinct
frames, all taken. -/
structure Sound (layout : Layout) (s : PagingState) : Prop where
  tables : PageTables layout s
  booted : Booted s.pmm
  vmas : s.vmas.Inv
  taken : ∀ {a f}, Page a → s.at layout a = some f → pageSize ∣ f ∧ s.pmm.Taken (f / pageSize)
  distinct : ∀ {a b f}, Page a → Page b → s.at layout a = some f → s.at layout b = some f → a = b

/-- The frame `f` backs a page in `P`. -/
def Backs (layout : Layout) (s : PagingState) (P : Nat → Prop) (f : Nat) : Prop :=
  ∃ a, Page a ∧ P a ∧ s.at layout a = some (f * pageSize)

/-- Storing new tables for one page. -/
theorem Rewritten.tables {page : Nat} {target : Option Nat} {memory : WordMemory}
    (tables : PageTables layout s) (rewritten : Rewritten layout s.memory memory page target)
    (same : t.memory = memory) (spaces : t.pagingSpaces = s.pagingSpaces)
    (current : t.currentSpace = s.currentSpace) : PageTables layout t where
  direct := same ▸ tables.direct.congr rewritten.outside
  dynamic := same ▸ rewritten.dynamic
  root := by
    obtain ⟨space, here, root⟩ := tables.root
    exact ⟨space, current.trans here, by rw [same, spaces]; exact root.congr rewritten.outside⟩

/-- What mapping and unmapping pages of the region leaves alone. -/
structure Confined (layout : Layout) (s t : PagingState) : Prop where
  outside : SameOutside layout s.memory t.memory
  pagingSpaces : t.pagingSpaces = s.pagingSpaces
  kernelSpace : t.kernelSpace = s.kernelSpace
  currentSpace : t.currentSpace = s.currentSpace

theorem Confined.refl (s : PagingState) : Confined layout s s := ⟨.refl _, rfl, rfl, rfl⟩

theorem Confined.trans (first : Confined layout s t) (second : Confined layout t u) :
    Confined layout s u :=
  ⟨first.outside.trans second.outside, second.pagingSpaces.trans first.pagingSpaces,
    second.kernelSpace.trans first.kernelSpace, second.currentSpace.trans first.currentSpace⟩

/-! ## Releasing -/

/-- The pages in `P` are gone and their frames are free again. -/
structure Released (layout : Layout) (s t : PagingState) (P : Nat → Prop) : Prop where
  sound : Sound layout t
  gone : ∀ {a}, Page a → P a → t.at layout a = none
  kept : ∀ {a}, Page a → ¬ P a → t.at layout a = s.at layout a
  taken : ∀ f, t.pmm.Taken f ↔ s.pmm.Taken f ∧ ¬ Backs layout s P f
  confined : Confined layout s t
  vmas : t.vmas = s.vmas
  shape : SameShape s.pmm t.pmm
  beyond : ∀ f, s.pmm.totalFrames ≤ f → t.pmm.frameBitmap.test f = s.pmm.frameBitmap.test f

section Release

variable {P Q : Nat → Prop}

theorem Released.none (sound : Sound layout s) (empty : ∀ a, ¬ P a) : Released layout s s P where
  sound := sound
  gone _ member := absurd member (empty _)
  kept _ _ := rfl
  taken f := by
    refine ⟨fun taken => ⟨taken, ?_⟩, And.left⟩
    rintro ⟨a, -, member, -⟩
    exact empty a member
  confined := .refl s
  vmas := rfl
  shape := .refl _
  beyond _ _ := rfl

theorem Released.congr (released : Released layout s t P) (same : ∀ a, P a ↔ Q a) :
    Released layout s t Q := by
  have equal : P = Q := funext fun a => propext (same a)
  exact equal ▸ released

/-- Releasing `P` and then `Q` releases both. -/
theorem Released.trans (first : Released layout s t P) (second : Released layout t u Q) :
    Released layout s u fun a => P a ∨ Q a where
  sound := second.sound
  gone {a} page member := by
    by_cases later : Q a
    · exact second.gone page later
    · rw [second.kept page later]
      exact first.gone page (member.resolve_right later)
  kept page other := by
    rw [not_or] at other
    rw [second.kept page other.2, first.kept page other.1]
  taken f := by
    rw [second.taken, first.taken, and_assoc]
    refine and_congr_right fun _ => ⟨?_, ?_⟩
    · rintro ⟨notFirst, notSecond⟩ ⟨a, page, member, backed⟩
      by_cases early : P a
      · exact notFirst ⟨a, page, early, backed⟩
      · refine notSecond ⟨a, page, member.resolve_left early, ?_⟩
        rw [first.kept page early]
        exact backed
    · intro neither
      refine ⟨?_, ?_⟩
      · rintro ⟨a, page, member, backed⟩
        exact neither ⟨a, page, Or.inl member, backed⟩
      · rintro ⟨a, page, member, backed⟩
        by_cases early : P a
        · rw [first.gone page early] at backed
          cases backed
        · rw [first.kept page early] at backed
          exact neither ⟨a, page, Or.inr member, backed⟩
  confined := first.confined.trans second.confined
  vmas := second.vmas.trans first.vmas
  shape := first.shape.trans second.shape
  beyond f above :=
    (second.beyond f (by rw [first.shape.total]; exact above)).trans (first.beyond f above)

end Release

/-- Giving a frame back to the PMM. -/
theorem pmmFreeFrame_taken (p : PmmState) (frame f : Nat) :
    (pmmFreeFrame p frame).Taken f ↔ p.Taken f ∧ f ≠ frame / pageSize := by
  unfold PmmState.Taken pmmFreeFrame
  rw [releaseFrameLocked_test, (releaseFrameLocked_shape p _).total]
  simp only [Bool.and_eq_true, Bool.not_eq_true', decide_eq_false_iff_not]
  refine ⟨fun ⟨below, taken, other⟩ => ⟨⟨below, taken⟩, ?_⟩, fun ⟨⟨below, taken⟩, other⟩ =>
    ⟨below, taken, fun same => other same.1⟩⟩
  rintro rfl
  exact other ⟨rfl, below⟩

/-- **The shared body of rollback and free**: it never panics, and it releases
the page if it was mapped. -/
theorem releasePage_released (sound : Sound layout s) {page : Nat} (inRegion : Page page) :
    ∃ t, releasePage layout s page = .ok t ∧ Released layout s t (· = page) := by
  unfold releasePage
  rw [sound.tables.translate inRegion.dynamic]
  cases found : lookup layout s.memory page with
  | none =>
      refine ⟨s, rfl, sound, ?_, fun _ _ => rfl, fun f => ?_, .refl s, rfl, .refl _,
        fun _ _ => rfl⟩
      · rintro a - rfl
        exact found
      · refine ⟨fun taken => ⟨taken, ?_⟩, And.left⟩
        rintro ⟨a, -, rfl, backed⟩
        exact absurd (found.symm.trans backed) nofun
  | some frame =>
      have kernel : ¬ page < kernelVma := by
        have low := inRegion.dynamic.1
        unfold kernelDynamicBase at low
        unfold kernelVma
        omega
      have rewritten := paeUnmapPage_spec sound.tables.dynamic inRegion.dynamic inRegion.aligned
        (by rw [found]; exact Option.some_ne_none _)
      obtain ⟨aligned, takenHere⟩ := sound.taken inRegion found
      obtain ⟨k, rfl⟩ := aligned
      have quotient : pageSize * k / pageSize = k := Nat.mul_div_cancel_left k (by decide)
      have shape := releaseFrameLocked_shape s.pmm (pageSize * k / pageSize)
      refine ⟨_, rfl, ?_⟩
      unfold pagingUnmapPage
      rw [if_neg kernel]
      have elsewhere : ∀ {a}, Page a → a ≠ page →
          lookup layout (paeUnmapPage layout s.memory page) a = lookup layout s.memory a :=
        fun inRegion' other => rewritten.elsewhere _ inRegion'.dynamic inRegion'.aligned other
      refine ⟨⟨rewritten.tables sound.tables rfl rfl rfl, ?_, sound.vmas, ?_, ?_⟩, ?_, ?_, ?_,
        ⟨rewritten.outside, rfl, rfl, rfl⟩, rfl, shape, ?_⟩
      · exact ⟨releaseFrameLocked_inv sound.booted.toInv _,
          shape.mapped.trans sound.booted.mapped, shape.initialized.trans sound.booted.initialized⟩
      · intro a f inRegion' backed
        have other : a ≠ page := by
          rintro rfl
          exact absurd (rewritten.here.symm.trans backed) nofun
        have before := (elsewhere inRegion' other).symm.trans backed
        obtain ⟨aligned, taken⟩ := sound.taken inRegion' before
        refine ⟨aligned, (pmmFreeFrame_taken _ _ _).mpr ⟨taken, fun same => other ?_⟩⟩
        -- two pages with one frame would be one page
        have equal : f = pageSize * k := by
          rw [quotient] at same
          rw [← same, Nat.mul_div_cancel' aligned]
        exact sound.distinct inRegion' inRegion (equal ▸ before) found
      · intro a b f pageA pageB backedA backedB
        have otherA : a ≠ page := by
          rintro rfl
          exact absurd (rewritten.here.symm.trans backedA) nofun
        have otherB : b ≠ page := by
          rintro rfl
          exact absurd (rewritten.here.symm.trans backedB) nofun
        exact sound.distinct pageA pageB ((elsewhere pageA otherA).symm.trans backedA)
          ((elsewhere pageB otherB).symm.trans backedB)
      · rintro a - rfl
        exact rewritten.here
      · intro a inRegion' other
        exact elsewhere inRegion' other
      · intro f
        rw [pmmFreeFrame_taken, quotient]
        refine and_congr_right fun _ => not_congr ⟨?_, ?_⟩
        · rintro rfl
          exact ⟨page, inRegion, rfl, found.trans (by rw [Nat.mul_comm])⟩
        · rintro ⟨a, -, rfl, backed⟩
          have equal : pageSize * k = f * pageSize := Option.some.inj (found.symm.trans backed)
          rw [Nat.mul_comm f] at equal
          exact (Nat.eq_of_mul_eq_mul_left (by decide) equal).symm
      · intro f above
        refine (releaseFrameLocked_test s.pmm _ f).trans ?_
        have other : ¬ (f = pageSize * k / pageSize ∧ pageSize * k / pageSize < s.pmm.totalFrames) :=
          fun ⟨here, below⟩ => by omega
        rw [decide_eq_false other, Bool.not_false, Bool.and_true]

/-- The pages `base + j * PAGE_SIZE` with `lo ≤ j < hi`. -/
def Span (base lo hi a : Nat) : Prop := ∃ j, lo ≤ j ∧ j < hi ∧ a = base + j * pageSize

theorem rollback_released {base : Nat} :
    ∀ (mapped : Nat) {s : PagingState}, Sound layout s →
      (∀ j < mapped, Page (base + j * pageSize)) →
      ∃ t, rollback layout base mapped s = .ok t ∧ Released layout s t (Span base 0 mapped) := by
  intro mapped
  induction mapped with
  | zero =>
      intro s sound _
      refine ⟨s, rfl, .none sound ?_⟩
      rintro a ⟨j, -, below, -⟩
      omega
  | succ mapped ih =>
      intro s sound pages
      obtain ⟨t, step, here⟩ := releasePage_released sound (pages mapped (by omega))
      obtain ⟨u, rest, below⟩ := ih here.sound fun j small => pages j (by omega)
      refine ⟨u, ?_, (here.trans below).congr fun a => ⟨?_, ?_⟩⟩
      · unfold rollback
        rw [step]
        exact rest
      · rintro (rfl | ⟨j, -, small, rfl⟩)
        · exact ⟨mapped, by omega, by omega, rfl⟩
        · exact ⟨j, by omega, by omega, rfl⟩
      · rintro ⟨j, low, high, rfl⟩
        by_cases last : j = mapped
        · exact Or.inl (by rw [last])
        · exact Or.inr ⟨j, low, by omega, rfl⟩

theorem freePagesLoop_released {base : Nat} :
    ∀ (left i : Nat) {s : PagingState}, Sound layout s →
      (∀ j, i ≤ j → j < i + left → Page (base + j * pageSize)) →
      ∃ t, freePagesLoop layout base left i s = .ok t ∧
        Released layout s t (Span base i (i + left)) := by
  intro left
  induction left with
  | zero =>
      intro i s sound _
      refine ⟨s, rfl, .none sound ?_⟩
      rintro a ⟨j, low, high, -⟩
      omega
  | succ left ih =>
      intro i s sound pages
      obtain ⟨t, step, here⟩ := releasePage_released sound (pages i (by omega) (by omega))
      obtain ⟨u, rest, above⟩ := ih (i + 1) here.sound fun j low high =>
        pages j (by omega) (by omega)
      refine ⟨u, ?_, (here.trans above).congr fun a => ⟨?_, ?_⟩⟩
      · unfold freePagesLoop
        rw [step]
        exact rest
      · rintro (rfl | ⟨j, low, high, rfl⟩)
        · exact ⟨i, by omega, by omega, rfl⟩
        · exact ⟨j, by omega, by omega, rfl⟩
      · rintro ⟨j, low, high, rfl⟩
        by_cases first : j = i
        · exact Or.inl (by rw [first])
        · exact Or.inr ⟨j, by omega, by omega, rfl⟩

/-! ## Acquiring -/

/-- The pages in `P` are mapped to frames that were free. -/
structure Acquired (layout : Layout) (s t : PagingState) (P : Nat → Prop) : Prop where
  sound : Sound layout t
  mapped : ∀ {a}, Page a → P a → ∃ f, t.at layout a = some (f * pageSize) ∧ ¬ s.pmm.Taken f
  kept : ∀ {a}, Page a → ¬ P a → t.at layout a = s.at layout a
  taken : ∀ f, t.pmm.Taken f ↔ s.pmm.Taken f ∨ Backs layout t P f
  confined : Confined layout s t
  vmas : t.vmas = s.vmas
  shape : SameShape s.pmm t.pmm
  beyond : ∀ f, s.pmm.totalFrames ≤ f → t.pmm.frameBitmap.test f = s.pmm.frameBitmap.test f

section Acquire

variable {P Q : Nat → Prop}

theorem Acquired.none (sound : Sound layout s) (empty : ∀ a, ¬ P a) : Acquired layout s s P where
  sound := sound
  mapped _ member := absurd member (empty _)
  kept _ _ := rfl
  taken f := by
    refine ⟨Or.inl, fun either => either.resolve_right ?_⟩
    rintro ⟨a, -, member, -⟩
    exact empty a member
  confined := .refl s
  vmas := rfl
  shape := .refl _
  beyond _ _ := rfl

theorem Acquired.congr (acquired : Acquired layout s t P) (same : ∀ a, P a ↔ Q a) :
    Acquired layout s t Q := by
  have equal : P = Q := funext fun a => propext (same a)
  exact equal ▸ acquired

/-- Acquiring `P` and then pages `Q` outside it acquires both. -/
theorem Acquired.trans (first : Acquired layout s t P) (second : Acquired layout t u Q)
    (disjoint : ∀ a, P a → ¬ Q a) : Acquired layout s u fun a => P a ∨ Q a where
  sound := second.sound
  mapped {a} page member := by
    by_cases later : Q a
    · obtain ⟨f, mapped, free⟩ := second.mapped page later
      exact ⟨f, mapped, fun taken => free ((first.taken f).mpr (Or.inl taken))⟩
    · rw [second.kept page later]
      exact first.mapped page (member.resolve_right later)
  kept page other := by
    rw [not_or] at other
    rw [second.kept page other.2, first.kept page other.1]
  taken f := by
    rw [second.taken, first.taken, or_assoc]
    refine or_congr_right ⟨?_, ?_⟩
    · rintro (⟨a, page, member, backed⟩ | ⟨a, page, member, backed⟩)
      · exact ⟨a, page, Or.inl member, (second.kept page (disjoint a member)).trans backed⟩
      · exact ⟨a, page, Or.inr member, backed⟩
    · rintro ⟨a, page, member, backed⟩
      by_cases later : Q a
      · exact Or.inr ⟨a, page, later, backed⟩
      · exact Or.inl ⟨a, page, member.resolve_right later,
          (second.kept page later).symm.trans backed⟩
  confined := first.confined.trans second.confined
  vmas := second.vmas.trans first.vmas
  shape := first.shape.trans second.shape
  beyond f above :=
    (second.beyond f (by rw [first.shape.total]; exact above)).trans (first.beyond f above)

/-- **A rollback restores the mappings and the PMM's bitmap.**  It may start
after the trees have changed. -/
theorem Acquired.undone {t' : PagingState} (acquired : Acquired layout s t P)
    (released : Released layout t' u P) (memory : t'.memory = t.memory) (pmm : t'.pmm = t.pmm)
    (unmapped : ∀ {a}, Page a → P a → s.at layout a = Option.none) :
    (∀ {a}, Page a → u.at layout a = s.at layout a) ∧
      u.pmm.frameBitmap = s.pmm.frameBitmap := by
  have taken : ∀ f, u.pmm.Taken f ↔ s.pmm.Taken f := by
    intro f
    have backs : Backs layout t' P f ↔ Backs layout t P f := by
      unfold Backs PagingState.at
      rw [memory]
    rw [released.taken, pmm, acquired.taken, backs]
    refine ⟨fun ⟨either, notBacked⟩ => either.resolve_right notBacked, fun taken =>
      ⟨Or.inl taken, ?_⟩⟩
    rintro ⟨a, page, member, backed⟩
    obtain ⟨g, mapped, free⟩ := acquired.mapped page member
    have equal : f * pageSize = g * pageSize := Option.some.inj (backed.symm.trans mapped)
    rw [Nat.eq_of_mul_eq_mul_right (by decide) equal] at taken
    exact free taken
  have total : u.pmm.totalFrames = s.pmm.totalFrames :=
    released.shape.total.trans (pmm ▸ acquired.shape.total)
  refine ⟨fun {a} page => ?_, Bitmap.ext_test fun f => ?_⟩
  · by_cases member : P a
    · rw [released.gone page member, unmapped page member]
    · rw [released.kept page member, ← acquired.kept page member, PagingState.at, memory]
  · by_cases below : f < s.pmm.totalFrames
    · have same := taken f
      unfold PmmState.Taken at same
      rw [total, and_congr_right_iff] at same
      exact Bool.eq_iff_iff.mpr (same below)
    · have after := released.beyond f (by rw [pmm, acquired.shape.total]; omega)
      rw [pmm] at after
      exact after.trans (acquired.beyond f (by omega))

/-- A frame the PMM just gave, mapped at a page that was unmapped. -/
theorem mapPage_acquired (sound : Sound layout s) {page frame : Nat} (inRegion : Page page)
    {pmm : PmmState} (aligned : frame % pageSize = 0)
    (took : Took s.pmm pmm (frame / pageSize) 1) :
    (pagingMapPage layout { s with pmm := pmm } page frame pageWritable).2 = true ∧
      Acquired layout s (pagingMapPage layout { s with pmm := pmm } page frame pageWritable).1
        (· = page) := by
  have total := sound.booted.total_le
  have inside := took.inside
  obtain ⟨k, rfl⟩ := Nat.dvd_of_mod_eq_zero aligned
  have quotient : pageSize * k / pageSize = k := Nat.mul_div_cancel_left k (by decide)
  rw [quotient] at took inside
  have small : pageSize * k < 2 ^ 32 := by
    unfold pageSize
    omega
  have kernel : ¬ page < kernelVma := by
    have low := inRegion.dynamic.1
    unfold kernelDynamicBase at low
    unfold kernelVma
    omega
  have taken : ∀ f, pmm.Taken f ↔ s.pmm.Taken f ∨ f = k := by
    intro f
    unfold PmmState.Taken
    rw [took.after, took.shape.total, Bool.or_eq_true, decide_eq_true_eq]
    refine ⟨fun ⟨below, either⟩ => ?_, ?_⟩
    · rcases either with before | new
      · exact Or.inl ⟨below, before⟩
      · exact Or.inr (by omega)
    · rintro (⟨below, before⟩ | rfl)
      · exact ⟨below, Or.inl before⟩
      · exact ⟨by omega, Or.inr ⟨le_refl _, by omega⟩⟩
  have free : ¬ s.pmm.Taken k := by
    rintro ⟨-, taken⟩
    rw [took.free k (by omega) (by omega)] at taken
    cases taken
  obtain ⟨accepted, rewritten⟩ := paeMapPage_spec sound.tables.dynamic inRegion.dynamic
    inRegion.aligned (Dvd.intro k rfl) small
  have elsewhere : ∀ {a}, Page a → a ≠ page →
      lookup layout (paeMapPage layout s.memory page (pageSize * k) pageWritable).1 a =
        lookup layout s.memory a :=
    fun inRegion' other => rewritten.elsewhere _ inRegion'.dynamic inRegion'.aligned other
  have noUser : ¬ (pageWritable &&& pageUser ≠ 0) := by decide
  unfold pagingMapPage
  rw [if_neg kernel, if_neg noUser]
  refine ⟨accepted, ⟨rewritten.tables sound.tables rfl rfl rfl, took.booted sound.booted,
    sound.vmas, ?_, ?_⟩, ?_, ?_, ?_, ⟨rewritten.outside, rfl, rfl, rfl⟩, rfl, took.shape, ?_⟩
  · intro a f inRegion' backed
    by_cases here : a = page
    · subst here
      obtain rfl := Option.some.inj (rewritten.here.symm.trans backed)
      rw [quotient]
      exact ⟨Dvd.intro k rfl, (taken k).mpr (Or.inr rfl)⟩
    · obtain ⟨aligned, before⟩ :=
        sound.taken inRegion' ((elsewhere inRegion' here).symm.trans backed)
      exact ⟨aligned, (taken _).mpr (Or.inl before)⟩
  · -- the new frame was free, so it backs no other page
    have fresh : ∀ {a}, Page a → a ≠ page → lookup layout
        (paeMapPage layout s.memory page (pageSize * k) pageWritable).1 a ≠
          some (pageSize * k) := by
      intro a inRegion' other backed
      have before := sound.taken inRegion' ((elsewhere inRegion' other).symm.trans backed)
      rw [quotient] at before
      exact free before.2
    intro a b f pageA pageB backedA backedB
    by_cases hereA : a = page
    · subst hereA
      obtain rfl := Option.some.inj (rewritten.here.symm.trans backedA)
      by_contra other
      exact fresh pageB (Ne.symm other) backedB
    · by_cases hereB : b = page
      · subst hereB
        obtain rfl := Option.some.inj (rewritten.here.symm.trans backedB)
        exact absurd backedA (fresh pageA hereA)
      · exact sound.distinct pageA pageB ((elsewhere pageA hereA).symm.trans backedA)
          ((elsewhere pageB hereB).symm.trans backedB)
  · rintro a - rfl
    exact ⟨k, rewritten.here.trans (by rw [Nat.mul_comm]), free⟩
  · intro a inRegion' other
    exact elsewhere inRegion' other
  · intro f
    show pmm.Taken f ↔ _
    rw [taken]
    refine or_congr_right ⟨?_, ?_⟩
    · rintro rfl
      exact ⟨page, inRegion, rfl, rewritten.here.trans (by rw [Nat.mul_comm])⟩
    · rintro ⟨a, -, rfl, backed⟩
      have equal : pageSize * k = f * pageSize :=
        Option.some.inj (rewritten.here.symm.trans backed)
      rw [Nat.mul_comm f] at equal
      exact (Nat.eq_of_mul_eq_mul_left (by decide) equal).symm
  · intro f above
    have other : ¬ (k ≤ f ∧ f < k + 1) := by omega
    exact (took.after f).trans (by rw [decide_eq_false other, Bool.or_false])

/-- **The allocation loop** acquires the pages it counts; mapping itself never
fails here, so the only way out early is an exhausted PMM. -/
theorem mapLoop_acquired (node base : Nat) :
    ∀ (left i : Nat) {s : PagingState}, Sound layout s →
      (∀ j, i ≤ j → j < i + left → Page (base + j * pageSize)) →
      Acquired layout s (mapLoop layout node base left i s).1
          (Span base i (mapLoop layout node base left i s).2.1) ∧
        i ≤ (mapLoop layout node base left i s).2.1 ∧
        (mapLoop layout node base left i s).2.1 ≤ i + left ∧
        ((mapLoop layout node base left i s).2.2 = true →
          (mapLoop layout node base left i s).2.1 = i + left) := by
  have nothing : ∀ i a, ¬ Span base i i a := by
    rintro i a ⟨j, low, high, -⟩
    omega
  intro left
  induction left with
  | zero =>
      intro i s sound _
      exact ⟨.none sound (nothing i), le_refl i, by rfl, fun _ => rfl⟩
  | succ left ih =>
      intro i s sound pages
      have inv := sound.booted.toInv
      have allocated := pmmAllocFrameOnNode_allocated inv node
      unfold mapLoop
      rcases result : pmmAllocFrameOnNode s.pmm node with ⟨pmm, _ | frame⟩
      · rw [result] at allocated
        have same : pmm = s.pmm := allocated.failed rfl
        subst same
        dsimp only
        exact ⟨.none sound (nothing i), le_refl i, by omega, nofun⟩
      · rw [result] at allocated
        obtain ⟨aligned, took⟩ := allocated.address inv one_ne_zero rfl
        have inRegion := pages i (by omega) (by omega)
        obtain ⟨accepted, here⟩ := mapPage_acquired sound inRegion aligned took
        dsimp only at accepted here ⊢
        rw [if_pos accepted]
        obtain ⟨rest, low, high, complete⟩ := ih (i + 1) here.sound fun j low high =>
          pages j (by omega) (by omega)
        refine ⟨(here.trans rest ?_).congr fun a => ⟨?_, ?_⟩, by omega, by omega, fun done => ?_⟩
        · rintro a rfl ⟨j, later, -, equal⟩
          have page : 0 < pageSize := by decide
          have : i = j := Nat.eq_of_mul_eq_mul_right page (Nat.add_left_cancel equal)
          omega
        · rintro (rfl | ⟨j, later, below, rfl⟩)
          · exact ⟨i, le_refl i, low, rfl⟩
          · exact ⟨j, by omega, below, rfl⟩
        · rintro ⟨j, later, below, rfl⟩
          by_cases first : j = i
          · exact Or.inl (by rw [first])
          · exact Or.inr ⟨j, by omega, below, rfl⟩
        · have := complete done
          omega

end Acquire

end Dfos.Paging
