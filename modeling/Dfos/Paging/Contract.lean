import Mathlib
import Dfos.Paging.Pages

/-!
# The contract of the kernel page allocator

A run of the allocator keeps the ranges it handed out and not yet took back.
The invariant ties them to four structures at once: `kernel_vma_tree`, the page
directory, the dynamic page tables and the PMM's bitmap.
-/

namespace Dfos.Paging

open Dfos.Lib
open Dfos.Pmm
open Dfos.Vma

/-- A range of pages: its base and its number of pages. -/
abbrev PageRange := Nat × Nat

def PageRange.stop (r : PageRange) : Nat := r.1 + r.2 * pageSize

/-- The interval the allocator stores for a range. -/
def PageRange.interval (r : PageRange) : Interval := ⟨r.1, r.stop, 0⟩

/-- The paging state with the ranges that are live in it. -/
structure Allocator where
  state : PagingState
  live : Finset PageRange

/-- A call of the allocator's interface. -/
inductive PageOp where
  | alloc (pageCount preferredNumaNode : Nat)
  | free (range : PageRange)

section Calls

variable (layout : Layout)

/-- One call; a range is only freed while it is live. -/
def Allocator.exec (a : Allocator) : PageOp → Except Panic Allocator
  | .alloc pageCount node => do
      match ← pagingAllocPagesOnNode layout a.state pageCount node with
      | (s, some base) => return ⟨s, insert (base, pageCount) a.live⟩
      | (s, none) => return ⟨s, a.live⟩
  | .free range =>
      if range ∈ a.live then do
        return ⟨← pagingFreePages layout a.state range.1 range.2, a.live.erase range⟩
      else .ok a

/-- A sequence of calls. -/
def Allocator.run (a : Allocator) : List PageOp → Except Panic Allocator
  | [] => .ok a
  | op :: ops => do (← a.exec layout op).run ops

/-- The allocator after `paging_init` and `pmm_init`. -/
def Allocator.boot (memory : WordMemory) (pmm : PmmState) : Allocator :=
  ⟨pagingInit layout memory pmm, ∅⟩

end Calls

variable {layout : Layout} {a : Allocator}

/-! ## The invariant -/

/-- A live range: page-aligned, non-empty, inside the dynamic region. -/
structure PageRange.Valid (r : PageRange) : Prop where
  aligned : pageSize ∣ r.1
  nonempty : 0 < r.2
  low : kernelDynamicBase ≤ r.1
  high : r.stop ≤ kernelDynamicLimit

/-- The invariant between calls. -/
structure Allocator.Inv (layout : Layout) (a : Allocator) : Prop where
  sound : Sound layout a.state
  valid : ∀ r ∈ a.live, r.Valid
  apart : ∀ r ∈ a.live, ∀ q ∈ a.live, r ≠ q → r.stop ≤ q.1 ∨ q.stop ≤ r.1
  tree : ∀ i, i ∈ a.state.vmas.stored kernelVmaTree ↔ ∃ r ∈ a.live, i = r.interval
  mapped : ∀ p, Page p →
    (a.state.at layout p ≠ none ↔ ∃ r ∈ a.live, r.1 ≤ p ∧ p < r.stop)

/-- The pages of a range, by address. -/
theorem PageRange.span_iff {r : PageRange} (aligned : pageSize ∣ r.1) {p : Nat}
    (page : pageSize ∣ p) : Span r.1 0 r.2 p ↔ r.1 ≤ p ∧ p < r.stop := by
  unfold Span PageRange.stop
  unfold pageSize at *
  constructor
  · rintro ⟨j, -, below, rfl⟩
    omega
  · rintro ⟨low, high⟩
    exact ⟨(p - r.1) / 4096, by omega, by omega, by omega⟩

theorem PageRange.Valid.page {r : PageRange} (valid : r.Valid) {j : Nat} (below : j < r.2) :
    Page (r.1 + j * pageSize) := by
  obtain ⟨aligned, -, low, high⟩ := valid
  unfold PageRange.stop at high
  refine ⟨⟨by omega, ?_⟩, (Nat.dvd_add_right aligned).mpr (dvd_mul_left _ _)⟩
  unfold pageSize at *
  omega

theorem Allocator.boot_inv (aligned : pageSize ∣ layout.pdpt) (memory : WordMemory)
    {pmm : PmmState} (booted : Booted pmm) : (Allocator.boot layout memory pmm).Inv layout where
  sound := {
    tables := pagingInit_tables aligned
    booted := booted
    vmas := Vmas.init_inv
    taken := fun page mapped =>
      absurd ((pagingInit_lookup page.dynamic).symm.trans mapped) nofun
    distinct := fun page _ mapped =>
      absurd ((pagingInit_lookup page.dynamic).symm.trans mapped) nofun }
  valid := by simp [Allocator.boot]
  apart := by simp [Allocator.boot]
  tree i := by simp [Allocator.boot, pagingInit, Vmas.init, Vmas.stored, vmaTreeInit]
  mapped p page := by
    simp only [Allocator.boot, PagingState.at, pagingInit_lookup page.dynamic]
    simp

/-! ## A failed allocation -/

/-- What a failed allocation leaves as it was. -/
structure Unchanged (layout : Layout) (s t : PagingState) : Prop where
  sound : Sound layout t
  walk : ∀ {p}, Page p → t.at layout p = s.at layout p
  tree : t.vmas.trees kernelVmaTree = s.vmas.trees kernelVmaTree
  bitmap : t.pmm.frameBitmap = s.pmm.frameBitmap
  total : t.pmm.totalFrames = s.pmm.totalFrames
  confined : Confined layout s t

theorem Unchanged.refl {s : PagingState} (sound : Sound layout s) : Unchanged layout s s :=
  ⟨sound, fun _ => rfl, rfl, rfl, rfl, .refl s⟩

theorem Unchanged.inv {t : PagingState} (inv : a.Inv layout)
    (unchanged : Unchanged layout a.state t) : (Allocator.mk t a.live).Inv layout where
  sound := unchanged.sound
  valid := inv.valid
  apart := inv.apart
  tree i := by
    rw [← inv.tree]
    unfold Vmas.stored
    rw [unchanged.tree]
  mapped p page := by
    rw [← inv.mapped p page, unchanged.walk page]

theorem vmaTreeInsert_refused {tree : VmaTree} {pool : Pool} {start stop flags : Nat}
    (refused : (vmaTreeInsert tree pool start stop flags).2.2 = false) :
    (vmaTreeInsert tree pool start stop flags).1 = tree := by
  by_cases valid : start < stop
  · cases room : pool.available with
    | nil => rw [vmaTreeInsert_empty room]
    | cons slot rest =>
        rw [vmaTreeInsert_alloc valid room] at refused ⊢
        dsimp only at refused ⊢
        split at refused
        · cases refused
        · next rejected => rw [if_neg rejected]
  · rw [vmaTreeInsert, if_pos (by omega)]

theorem Sound.setVmas {s : PagingState} (sound : Sound layout s) {vmas : Vmas}
    (inv : vmas.Inv) : Sound layout { s with vmas := vmas } where
  tables := ⟨sound.tables.direct, sound.tables.dynamic, sound.tables.root⟩
  booted := sound.booted
  vmas := inv
  taken := sound.taken
  distinct := sound.distinct

/-! ## What a call exchanges with the PMM -/

/-- Only the frames that back pages of the region are taken or given back. -/
structure Exchanged (layout : Layout) (s t : PagingState) : Prop where
  confined : Confined layout s t
  total : t.pmm.totalFrames = s.pmm.totalFrames
  kept : ∀ f, ¬ Backs layout s (fun _ => True) f → ¬ Backs layout t (fun _ => True) f →
    (t.pmm.Taken f ↔ s.pmm.Taken f)
  fresh : ∀ f, Backs layout t (fun _ => True) f → ¬ Backs layout s (fun _ => True) f →
    ¬ s.pmm.Taken f
  freed : ∀ f, Backs layout s (fun _ => True) f → ¬ Backs layout t (fun _ => True) f →
    ¬ t.pmm.Taken f

section Exchange

variable {s t : PagingState} {P : Nat → Prop} {f : Nat}

theorem Backs.all (backs : Backs layout s P f) : Backs layout s (fun _ => True) f := by
  obtain ⟨a, page, -, backed⟩ := backs
  exact ⟨a, page, trivial, backed⟩

theorem Acquired.exchanged (acquired : Acquired layout s t P)
    (unmapped : ∀ {a}, Page a → P a → s.at layout a = Option.none) : Exchanged layout s t where
  confined := acquired.confined
  total := acquired.shape.total
  kept f _ after := by
    rw [acquired.taken]
    exact or_iff_left fun backs => after backs.all
  fresh f backs before := by
    obtain ⟨a, page, -, backed⟩ := backs
    by_cases inside : P a
    · obtain ⟨g, mapped, free⟩ := acquired.mapped page inside
      have same : f * pageSize = g * pageSize := Option.some.inj (backed.symm.trans mapped)
      rwa [Nat.eq_of_mul_eq_mul_right (by decide) same]
    · exact absurd ⟨a, page, trivial, (acquired.kept page inside).symm.trans backed⟩ before
  freed f backs after := by
    obtain ⟨a, page, -, backed⟩ := backs
    by_cases inside : P a
    · cases (unmapped page inside).symm.trans backed
    · exact absurd ⟨a, page, trivial, (acquired.kept page inside).trans backed⟩ after

theorem Released.exchanged (released : Released layout s t P) : Exchanged layout s t where
  confined := released.confined
  total := released.shape.total
  kept f before _ := by
    rw [released.taken]
    exact and_iff_left fun backs => before backs.all
  fresh f backs before := by
    obtain ⟨a, page, -, backed⟩ := backs
    by_cases inside : P a
    · cases (released.gone page inside).symm.trans backed
    · exact absurd ⟨a, page, trivial, (released.kept page inside).symm.trans backed⟩ before
  freed f backs after taken := by
    obtain ⟨a, page, -, backed⟩ := backs
    by_cases inside : P a
    · exact ((released.taken f).mp taken).2 ⟨a, page, inside, backed⟩
    · exact after ⟨a, page, trivial, (released.kept page inside).trans backed⟩

/-- The relation does not see the trees. -/
theorem Exchanged.vmas (exchanged : Exchanged layout s t) (before after : Vmas) :
    Exchanged layout { s with vmas := before } { t with vmas := after } where
  confined := ⟨exchanged.confined.outside, exchanged.confined.pagingSpaces,
    exchanged.confined.kernelSpace, exchanged.confined.currentSpace⟩
  total := exchanged.total
  kept := exchanged.kept
  fresh := exchanged.fresh
  freed := exchanged.freed

theorem Unchanged.exchanged (unchanged : Unchanged layout s t) : Exchanged layout s t := by
  have taken : ∀ f, t.pmm.Taken f ↔ s.pmm.Taken f := by
    intro f
    unfold PmmState.Taken
    rw [unchanged.bitmap, unchanged.total]
  have backs : ∀ f, Backs layout t (fun _ => True) f ↔ Backs layout s (fun _ => True) f := by
    intro f
    refine exists_congr fun a => and_congr_right fun page => ?_
    rw [unchanged.walk page]
  exact ⟨unchanged.confined, unchanged.total, fun f _ _ => taken f,
    fun f after before => absurd ((backs f).mp after) before,
    fun f before after => absurd ((backs f).mpr before) after⟩

end Exchange

/-! ## Allocation -/

section Alloc

variable {pageCount node base : Nat}

/-- A gap lies outside every live range, so none of its pages is mapped. -/
theorem Allocator.Inv.gap_unmapped (inv : a.Inv layout)
    (gap : IsGap (intervals (a.state.vmas.trees kernelVmaTree).root) kernelDynamicBase
      kernelDynamicLimit (pageCount * pageSize) pageSize base) {p : Nat} (page : Page p)
    (inside : base ≤ p ∧ p < base + pageCount * pageSize) : a.state.at layout p = none := by
  by_contra mapped
  obtain ⟨r, member, low, high⟩ := (inv.mapped p page).mp mapped
  have stored : r.interval ∈ a.state.vmas.stored kernelVmaTree :=
    (inv.tree _).mpr ⟨r, member, rfl⟩
  have apart : r.stop ≤ base ∨ base + pageCount * pageSize ≤ r.1 := gap.apart _ stored
  omega

/-- The pages of a gap that is now stored are live. -/
theorem Allocator.Inv.grown (inv : a.Inv layout)
    (gap : IsGap (intervals (a.state.vmas.trees kernelVmaTree).root) kernelDynamicBase
      kernelDynamicLimit (pageCount * pageSize) pageSize base) (nonempty : 0 < pageCount)
    {t : PagingState} (acquired : Acquired layout a.state t (Span base 0 pageCount))
    (inserted : (t.vmas.exec
      (.insert kernelVmaTree base (base + pageCount * pageSize) 0)).2 = true) :
    (Allocator.mk { t with vmas := (t.vmas.exec
      (.insert kernelVmaTree base (base + pageCount * pageSize) 0)).1 }
        (insert (base, pageCount) a.live)).Inv layout := by
  have gapApart : ∀ r ∈ a.live, r.stop ≤ base ∨ base + pageCount * pageSize ≤ r.1 :=
    fun r member => gap.apart r.interval ((inv.tree _).mpr ⟨r, member, rfl⟩)
  refine ⟨acquired.sound.setVmas (acquired.sound.vmas.exec _), ?_, ?_, fun i => ?_,
    fun p page => ?_⟩
  · intro r member
    rcases Finset.mem_insert.mp member with rfl | member
    · exact ⟨gap.aligned, nonempty, gap.above, gap.below⟩
    · exact inv.valid r member
  · intro r hr q hq other
    rcases Finset.mem_insert.mp hr with rfl | hr <;> rcases Finset.mem_insert.mp hq with rfl | hq
    · exact absurd rfl other
    · exact (gapApart q hq).symm
    · exact gapApart r hr
    · exact inv.apart r hr q hq other
  · show i ∈ (t.vmas.exec (.insert kernelVmaTree base (base + pageCount * pageSize) 0)).1.stored
      kernelVmaTree ↔ _
    rw [Vmas.mem_stored_insert acquired.sound.vmas, inserted, acquired.vmas, inv.tree]
    refine ⟨?_, ?_⟩
    · rintro (⟨r, member, rfl⟩ | ⟨-, rfl⟩)
      · exact ⟨r, Finset.mem_insert_of_mem member, rfl⟩
      · exact ⟨(base, pageCount), Finset.mem_insert_self _ _, rfl⟩
    · rintro ⟨r, member, rfl⟩
      rcases Finset.mem_insert.mp member with rfl | member
      · exact Or.inr ⟨rfl, rfl⟩
      · exact Or.inl ⟨r, member, rfl⟩
  · have span : Span base 0 pageCount p ↔ base ≤ p ∧ p < base + pageCount * pageSize :=
      PageRange.span_iff (r := (base, pageCount)) gap.aligned page.aligned
    by_cases inside : Span base 0 pageCount p
    · obtain ⟨f, mapped, -⟩ := acquired.mapped page inside
      refine ⟨fun _ => ⟨(base, pageCount), Finset.mem_insert_self _ _, span.mp inside⟩, fun _ =>
        ?_⟩
      exact fun gone => absurd (mapped.symm.trans gone) nofun
    · have before : t.at layout p = a.state.at layout p := acquired.kept page inside
      refine (not_congr (by rw [← before])).trans ((inv.mapped p page).trans ⟨?_, ?_⟩)
      · rintro ⟨r, member, bounds⟩
        exact ⟨r, Finset.mem_insert_of_mem member, bounds⟩
      · rintro ⟨r, member, bounds⟩
        rcases Finset.mem_insert.mp member with rfl | member
        · exact absurd (span.mpr bounds) inside
        · exact ⟨r, member, bounds⟩

/-- Allocation in a gap that was found. -/
theorem Allocator.Inv.allocAt (inv : a.Inv layout)
    (gap : IsGap (intervals (a.state.vmas.trees kernelVmaTree).root) kernelDynamicBase
      kernelDynamicLimit (pageCount * pageSize) pageSize base) (nonempty : 0 < pageCount)
    (node : Nat) :
    (∃ t, Paging.allocAt layout a.state pageCount node base = .ok (t, none) ∧
      Unchanged layout a.state t) ∨
    ∃ t, Paging.allocAt layout a.state pageCount node base = .ok (t, some base) ∧
      (Allocator.mk t (insert (base, pageCount) a.live)).Inv layout ∧
      Exchanged layout a.state t := by
  have valid : PageRange.Valid (base, pageCount) :=
    ⟨gap.aligned, nonempty, gap.above, gap.below⟩
  have unmapped : ∀ k ≤ pageCount, ∀ {p}, Page p → Span base 0 k p →
      a.state.at layout p = none := by
    rintro k few p page ⟨j, -, below, rfl⟩
    refine inv.gap_unmapped gap page ⟨by omega, ?_⟩
    have := Nat.mul_lt_mul_of_pos_right (show j < pageCount by omega) (show 0 < pageSize by decide)
    omega
  have loop := mapLoop_acquired node base pageCount 0 inv.sound
    fun j _ below => valid.page (show j < pageCount by omega)
  unfold Paging.allocAt
  generalize mapLoop layout node base pageCount 0 a.state = outcome at loop ⊢
  rcases outcome with ⟨t, mapped, complete⟩
  obtain ⟨acquired, -, most, all⟩ := loop
  dsimp only at acquired most all ⊢
  rw [Nat.zero_add] at most all
  have pages : ∀ j < mapped, Page (base + j * pageSize) := fun j below =>
    valid.page (show j < pageCount by omega)
  cases complete with
  | false =>
      left
      obtain ⟨u, back, released⟩ := rollback_released mapped acquired.sound pages
      obtain ⟨walk, bitmap⟩ := acquired.undone released rfl rfl (unmapped mapped most)
      refine ⟨u, ?_, released.sound, walk, ?_, bitmap,
        released.shape.total.trans acquired.shape.total,
        acquired.confined.trans released.confined⟩
      · rw [if_pos (by simp), back]
        rfl
      · rw [released.vmas, acquired.vmas]
  | true =>
      obtain rfl : mapped = pageCount := all rfl
      rw [if_neg (by simp)]
      cases inserted : (t.vmas.exec (.insert kernelVmaTree base (base + mapped * pageSize) 0)).2 with
      | true =>
          right
          have exchanged : Exchanged layout a.state t :=
            acquired.exchanged (unmapped mapped (le_refl mapped))
          exact ⟨_, if_pos rfl, inv.grown gap nonempty acquired inserted,
            exchanged.vmas a.state.vmas _⟩
      | false =>
          left
          have sound := acquired.sound.setVmas (acquired.sound.vmas.exec
            (.insert kernelVmaTree base (base + mapped * pageSize) 0))
          obtain ⟨u, back, released⟩ := rollback_released mapped sound pages
          obtain ⟨walk, bitmap⟩ := acquired.undone released rfl rfl (unmapped mapped most)
          have back' : Confined layout t u := ⟨released.confined.outside,
            released.confined.pagingSpaces, released.confined.kernelSpace,
            released.confined.currentSpace⟩
          refine ⟨u, ?_, released.sound, walk, ?_, bitmap,
            released.shape.total.trans acquired.shape.total, acquired.confined.trans back'⟩
          · rw [if_neg (by simp), back]
            rfl
          · have same : (t.vmas.exec (.insert kernelVmaTree base
                (base + mapped * pageSize) 0)).1.trees kernelVmaTree =
                  t.vmas.trees kernelVmaTree := by
              simp only [Vmas.exec, Vmas.setTree, if_true]
              exact vmaTreeInsert_refused inserted
            rw [released.vmas]
            exact same.trans (by rw [acquired.vmas])

/-- **One allocation**: it returns a fresh range that becomes live, or it fails
and leaves everything as it was. -/
theorem Allocator.Inv.alloc (inv : a.Inv layout) (pageCount node : Nat) :
    (∃ t, pagingAllocPagesOnNode layout a.state pageCount node = .ok (t, none) ∧
      Unchanged layout a.state t) ∨
    ∃ t base, pagingAllocPagesOnNode layout a.state pageCount node = .ok (t, some base) ∧
      (Allocator.mk t (insert (base, pageCount) a.live)).Inv layout ∧
      Exchanged layout a.state t := by
  unfold pagingAllocPagesOnNode
  split
  · exact Or.inl ⟨a.state, rfl, .refl inv.sound⟩
  next asked =>
  dsimp only
  split
  · exact Or.inl ⟨a.state, rfl, .refl inv.sound⟩
  split
  · exact Or.inl ⟨a.state, rfl, .refl inv.sound⟩
  next base found =>
  have gap := vmaTreeFindGap_sound (inv.sound.vmas.wellFormed kernelVmaTree) (by decide) found
  rcases inv.allocAt gap (by omega) node with failed | ⟨t, allocated, inv'⟩
  · exact Or.inl failed
  · exact Or.inr ⟨t, base, allocated, inv'⟩

end Alloc

/-! ## Freeing a live range -/

/-- The state in which `paging_free_pages` walks the pages of the range. -/
def Allocator.unstored (a : Allocator) (r : PageRange) : PagingState :=
  { a.state with vmas := (a.state.vmas.exec (.remove kernelVmaTree r.1 r.stop)).1 }

/-- `paging_free_pages` of a live range releases its pages. -/
theorem Allocator.Inv.released (inv : a.Inv layout) {r : PageRange} (live : r ∈ a.live) :
    ∃ t, pagingFreePages layout a.state r.1 r.2 = .ok t ∧
      Released layout (a.unstored r) t (Span r.1 0 r.2) := by
  have valid := inv.valid r live
  have sound : Sound layout (a.unstored r) := inv.sound.setVmas (inv.sound.vmas.exec _)
  obtain ⟨t, loop, released⟩ := freePagesLoop_released r.2 0 sound fun j _ below =>
    valid.page (show j < r.2 by omega)
  rw [Nat.zero_add] at released
  refine ⟨t, ?_, released⟩
  obtain ⟨-, nonempty, low, high⟩ := valid
  unfold kernelDynamicBase at low
  unfold kernelDynamicLimit PageRange.stop at high
  unfold pagingFreePages
  rw [if_neg (by omega)]
  dsimp only
  rw [if_neg (by omega)]
  exact loop

theorem Allocator.Inv.free (inv : a.Inv layout) {r : PageRange} (live : r ∈ a.live)
    {t : PagingState} (released : Released layout (a.unstored r) t (Span r.1 0 r.2)) :
    (Allocator.mk t (a.live.erase r)).Inv layout := by
  have valid := inv.valid r live
  refine ⟨released.sound, ?_, ?_, fun i => ?_, fun p page => ?_⟩
  · intro q member
    exact inv.valid q (Finset.mem_of_mem_erase member)
  · intro q hq q' hq' other
    exact inv.apart q (Finset.mem_of_mem_erase hq) q' (Finset.mem_of_mem_erase hq') other
  · show i ∈ t.vmas.stored kernelVmaTree ↔ _
    rw [released.vmas]
    show i ∈ (a.state.vmas.exec (.remove kernelVmaTree r.1 r.stop)).1.stored kernelVmaTree ↔ _
    rw [Vmas.mem_stored_remove inv.sound.vmas, inv.tree]
    refine ⟨?_, ?_⟩
    · rintro ⟨⟨q, member, rfl⟩, other⟩
      refine ⟨q, Finset.mem_erase.mpr ⟨?_, member⟩, rfl⟩
      rintro rfl
      exact other ⟨rfl, rfl⟩
    · rintro ⟨q, member, rfl⟩
      obtain ⟨other, member⟩ := Finset.mem_erase.mp member
      refine ⟨⟨q, member, rfl⟩, ?_⟩
      rintro ⟨start, -⟩
      -- another live range cannot start at the same address
      have start : q.1 = r.1 := start
      have apart := inv.apart q member r live other
      have nonempty := valid.nonempty
      have nonempty' := (inv.valid q member).nonempty
      unfold PageRange.stop pageSize at apart
      omega
  · have span := PageRange.span_iff valid.aligned page.aligned
    by_cases inside : Span r.1 0 r.2 p
    · refine ⟨fun mapped => absurd (released.gone page inside) mapped, ?_⟩
      rintro ⟨q, member, low, high⟩
      obtain ⟨other, member⟩ := Finset.mem_erase.mp member
      have apart := inv.apart q member r live other
      have bounds := span.mp inside
      omega
    · have before : t.at layout p = a.state.at layout p := released.kept page inside
      refine (not_congr (by rw [← before])).trans ((inv.mapped p page).trans ⟨?_, ?_⟩)
      · rintro ⟨q, member, bounds⟩
        refine ⟨q, Finset.mem_erase.mpr ⟨?_, member⟩, bounds⟩
        rintro rfl
        exact inside (span.mpr bounds)
      · rintro ⟨q, member, bounds⟩
        exact ⟨q, Finset.mem_of_mem_erase member, bounds⟩

/-! ## Runs -/

theorem Allocator.Inv.exec (inv : a.Inv layout) (op : PageOp) :
    ∃ b, a.exec layout op = .ok b ∧ b.Inv layout ∧ Exchanged layout a.state b.state := by
  cases op with
  | alloc pageCount node =>
      unfold Allocator.exec
      dsimp only
      rcases inv.alloc pageCount node with
        ⟨t, failed, unchanged⟩ | ⟨t, base, done, inv', exchanged⟩
      · rw [failed]
        exact ⟨_, rfl, unchanged.inv inv, unchanged.exchanged⟩
      · rw [done]
        exact ⟨_, rfl, inv', exchanged⟩
  | free range =>
      unfold Allocator.exec
      dsimp only
      split
      · next live =>
          obtain ⟨t, done, released⟩ := inv.released live
          rw [done]
          exact ⟨_, rfl, inv.free live released, released.exchanged.vmas a.state.vmas t.vmas⟩
      · exact ⟨a, rfl, inv, (Unchanged.refl inv.sound).exchanged⟩

/-- No run panics, and every run keeps the invariant. -/
theorem Allocator.Inv.run (inv : a.Inv layout) (ops : List PageOp) :
    ∃ b, a.run layout ops = .ok b ∧ b.Inv layout := by
  induction ops generalizing a with
  | nil => exact ⟨a, rfl, inv⟩
  | cons op ops ih =>
      obtain ⟨b, step, inv', -⟩ := inv.exec op
      unfold Allocator.run
      rw [step]
      exact ih inv'

/-! ## The contract -/

/-- The contract, in terms of what the interface and the walk show. -/
structure Contract (layout : Layout) (a : Allocator) : Prop where
  range : ∀ r ∈ a.live, pageSize ∣ r.1 ∧ kernelDynamicBase ≤ r.1 ∧ r.stop ≤ kernelDynamicLimit
  disjoint : ∀ r ∈ a.live, ∀ q ∈ a.live, r ≠ q →
    Disjoint (Set.Ico r.1 r.stop) (Set.Ico q.1 q.stop)
  tree : a.state.vmas.stored kernelVmaTree = { i | ∃ r ∈ a.live, i = ⟨r.1, r.stop, 0⟩ }
  mapped : ∀ p, Page p →
    ((∃ f, pagingTranslateAddress layout a.state p = .ok (some f)) ↔
      ∃ r ∈ a.live, p ∈ Set.Ico r.1 r.stop)
  taken : ∀ p f, Page p → pagingTranslateAddress layout a.state p = .ok (some f) →
    pageSize ∣ f ∧ a.state.pmm.Taken (f / pageSize)
  distinct : ∀ p q f, Page p → Page q →
    pagingTranslateAddress layout a.state p = .ok (some f) →
    pagingTranslateAddress layout a.state q = .ok (some f) → p = q
  noEmptyTable : ∀ d, paeDirectoryIsDynamic d →
    Present (a.state.memory (layout.kernelDirectoryEntry d)) →
    paeIsPageTableEmpty layout a.state.memory d = false
  failedAlloc : ∀ pageCount node t,
    pagingAllocPagesOnNode layout a.state pageCount node = .ok (t, none) →
    (∀ p, Page p →
      pagingTranslateAddress layout t p = pagingTranslateAddress layout a.state p) ∧
    t.vmas.trees kernelVmaTree = a.state.vmas.trees kernelVmaTree ∧
    t.pmm.frameBitmap = a.state.pmm.frameBitmap
  freed : ∀ r ∈ a.live, ∃ t, pagingFreePages layout a.state r.1 r.2 = .ok t ∧
    ∃ frames : Finset Nat, frames.card = r.2 ∧
      (∀ f, f ∈ frames ↔ ∃ i < r.2,
        pagingTranslateAddress layout a.state (r.1 + i * pageSize) = .ok (some (f * pageSize))) ∧
      (∀ f ∈ frames, a.state.pmm.Taken f) ∧
      ∀ f, t.pmm.Taken f ↔ a.state.pmm.Taken f ∧ f ∉ frames

theorem Sound.walk {s : PagingState} (sound : Sound layout s) {p : Nat} (page : Page p)
    {target : Option Nat} :
    pagingTranslateAddress layout s p = .ok target ↔ s.at layout p = target := by
  rw [sound.tables.translate page.dynamic, Except.ok.injEq]

/-- Exactly the frames of a live range are given back. -/
theorem Allocator.Inv.freed (inv : a.Inv layout) {r : PageRange} (live : r ∈ a.live) :
    ∃ t, pagingFreePages layout a.state r.1 r.2 = .ok t ∧
      ∃ frames : Finset Nat, frames.card = r.2 ∧
        (∀ f, f ∈ frames ↔ ∃ i < r.2,
          pagingTranslateAddress layout a.state (r.1 + i * pageSize) =
            .ok (some (f * pageSize))) ∧
        (∀ f ∈ frames, a.state.pmm.Taken f) ∧
        ∀ f, t.pmm.Taken f ↔ a.state.pmm.Taken f ∧ f ∉ frames := by
  have valid := inv.valid r live
  have page : 0 < pageSize := by decide
  obtain ⟨t, done, released⟩ := inv.released live
  -- the frame number behind each page of the range
  have backed : ∀ i < r.2, ∃ f, a.state.at layout (r.1 + i * pageSize) = some (f * pageSize) := by
    intro i below
    have inside := (PageRange.span_iff valid.aligned (valid.page below).aligned).mp
      ⟨i, by omega, below, rfl⟩
    have mapped := (inv.mapped _ (valid.page below)).mpr ⟨r, live, inside⟩
    obtain ⟨f, found⟩ := Option.ne_none_iff_exists'.mp mapped
    obtain ⟨k, rfl⟩ := (inv.sound.taken (valid.page below) found).1
    exact ⟨k, by rw [found, Nat.mul_comm]⟩
  choose! frame frameAt using backed
  have member : ∀ f, f ∈ (Finset.range r.2).image frame ↔
      ∃ i < r.2, pagingTranslateAddress layout a.state (r.1 + i * pageSize) =
        .ok (some (f * pageSize)) := by
    intro f
    simp only [Finset.mem_image, Finset.mem_range]
    refine exists_congr fun i => and_congr_right fun below => ?_
    rw [inv.sound.walk (valid.page below), frameAt i below, Option.some.injEq]
    exact ⟨fun same => by rw [same], fun same => Nat.eq_of_mul_eq_mul_right page same⟩
  refine ⟨t, done, (Finset.range r.2).image frame, ?_, member, ?_, fun f => ?_⟩
  · rw [Finset.card_image_of_injOn, Finset.card_range]
    intro i hi j hj same
    rw [Finset.coe_range, Set.mem_Iio] at hi hj
    have here := frameAt i hi
    rw [show frame i = frame j from same] at here
    have equal := inv.sound.distinct (valid.page hi) (valid.page hj) here (frameAt j hj)
    exact Nat.eq_of_mul_eq_mul_right page (Nat.add_left_cancel equal)
  · intro f hf
    obtain ⟨i, below, found⟩ := (member f).mp hf
    rw [inv.sound.walk (valid.page below)] at found
    have taken := (inv.sound.taken (valid.page below) found).2
    rwa [Nat.mul_div_cancel f page] at taken
  · rw [released.taken, member]
    refine and_congr_right fun _ => not_congr ⟨?_, ?_⟩
    · rintro ⟨p, inRegion, ⟨i, -, below, rfl⟩, found⟩
      exact ⟨i, below, (inv.sound.walk inRegion).mpr found⟩
    · rintro ⟨i, below, found⟩
      exact ⟨_, valid.page below, ⟨i, by omega, below, rfl⟩,
        (inv.sound.walk (valid.page below)).mp found⟩

theorem Allocator.Inv.contract (inv : a.Inv layout) : Contract layout a where
  range r live := ⟨(inv.valid r live).aligned, (inv.valid r live).low, (inv.valid r live).high⟩
  disjoint r hr q hq other := by
    rw [Set.Ico_disjoint_Ico]
    have apart := inv.apart r hr q hq other
    omega
  tree := Set.ext inv.tree
  mapped p page := by
    simp only [inv.sound.walk page, Set.mem_Ico]
    rw [← inv.mapped p page, Option.ne_none_iff_exists']
  taken p f page found := inv.sound.taken page ((inv.sound.walk page).mp found)
  distinct p q f pageP pageQ foundP foundQ :=
    inv.sound.distinct pageP pageQ ((inv.sound.walk pageP).mp foundP)
      ((inv.sound.walk pageQ).mp foundQ)
  noEmptyTable d dynamic present := by
    have bounds : 384 ≤ d ∧ d < 510 := by
      unfold paeDirectoryIsDynamic at dynamic
      rw [paeDynamicPdeStart_eq, paeDynamicPdeEnd_eq] at dynamic
      simpa using dynamic
    obtain ⟨i, small, pte⟩ := inv.sound.tables.dynamic.inhabited d bounds.1 bounds.2 present
    unfold paeIsPageTableEmpty
    rw [(paePageTableForDirectory_dynamic bounds.1 bounds.2).2]
    dsimp only
    rw [Bool.eq_false_iff]
    intro empty
    exact tableIsEmpty_iff.mp empty i small pte
  failedAlloc pageCount node t failed := by
    rcases inv.alloc pageCount node with ⟨t', failed', unchanged⟩ | ⟨t', base, done, -⟩
    · rw [failed] at failed'
      obtain rfl : t = t' := (Prod.mk.inj (Except.ok.inj failed')).1
      refine ⟨fun p page => ?_, unchanged.tree, unchanged.bitmap⟩
      rw [unchanged.sound.tables.translate page.dynamic, inv.sound.tables.translate page.dynamic]
      exact congrArg Except.ok (unchanged.walk page)
    · rw [failed] at done
      exact absurd (Prod.mk.inj (Except.ok.inj done)).2 nofun
  freed r live := inv.freed live

/-- **The kernel page allocator keeps its contract.**  From `paging_init` and
`pmm_init`, and whatever the PMM was used for in between, no sequence of
allocations and frees of live ranges panics, and after each of them the
contract holds.  The linker places `pae_pdpt`; it is taken to start a page,
since a kernel space whose root names other data does not get through
`pmm_init`. -/
theorem kernel_pages_contract (aligned : pageSize ∣ layout.pdpt) {boot : BootInfo}
    {pmm : PmmState} (ready : pmmInit boot = .ok pmm) (before : List PmmOp)
    (memory : WordMemory) (ops : List PageOp) :
    ∃ a, (Allocator.boot layout memory (pmm.run before)).run layout ops = .ok a ∧
      Contract layout a := by
  have booted : Booted (pmm.run before) := (pmmInit_booted ready).1.run before
  obtain ⟨a, done, inv⟩ := (Allocator.boot_inv aligned memory booted).run ops
  exact ⟨a, done, inv.contract⟩

/-- A placement of the tables behind a kernel of one MiB. -/
def twoMibLayout : Layout where
  pdpt := 0x200000
  identityDirectory := 0x201000
  identityTables := 0x202000
  kernelDirectory := 0x204000
  directMapTables := 0x205000
  dynamicTables := 0x285000
  textStart := 0xC0100000
  textEnd := 0xC0120000
  rodataStart := 0xC0120000
  rodataEnd := 0xC0128000
  pdpt_aligned := by decide
  identityDirectory_aligned := by decide
  identityTables_aligned := by decide
  kernelDirectory_aligned := by decide
  directMapTables_aligned := by decide
  dynamicTables_aligned := by decide
  apart := by decide
  inside := by decide
  text_inside := by decide
  rodata_inside := by decide

theorem kernel_pages_contract_eightMib :
    ∃ pmm a, pmmInit { eightMibBoot with kernelEndPhys := 0x303000 } = .ok pmm ∧
      (Allocator.boot twoMibLayout (fun _ => 0)
        (pmm.run [.configureNumaTopology 2])).run twoMibLayout
          [.alloc 3 1, .alloc 2 0xFF, .free (0xF0000000, 3)] = .ok a ∧
      Contract twoMibLayout a := by
  have found : highestPhysical { eightMibBoot with kernelEndPhys := 0x303000 } = .ok 0x800000 := by
    decide
  obtain ⟨pmm, ready⟩ := pmmInit_ok found (by decide) (by decide)
  obtain ⟨a, done, contract⟩ := kernel_pages_contract (by decide : pageSize ∣ twoMibLayout.pdpt)
    ready [.configureNumaTopology 2] (fun _ => 0)
    [.alloc 3 1, .alloc 2 0xFF, .free (0xF0000000, 3)]
  exact ⟨pmm, a, ready, done, contract⟩

end Dfos.Paging
