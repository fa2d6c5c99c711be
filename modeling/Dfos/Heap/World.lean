import Dfos.Heap.Interface
import Mathlib.Logic.Relation

/-!
# Histories of the heap

A world is a heap together with what its callers know: the pointers they hold
with the sizes they asked for, and the pointers to slab objects that were given
back and not handed out again, as long as the heap keeps the page.  Callers
write only the bytes they asked for.
-/

namespace Dfos.Heap

open Dfos.Lib Dfos.Pmm

structure HeapWorld where
  heap : HeapState
  live : Nat → Option Nat
  stale : Nat → Bool

namespace HeapWorld

/-- After `heap_init`, with nothing allocated. -/
def initial (h : HeapState) : HeapWorld := ⟨heapInit h, fun _ => none, fun _ => false⟩

/-- The world after `kmalloc` returned `p`. -/
def allocated (w : HeapWorld) (h : HeapState) (p size : Nat) : HeapWorld where
  heap := h
  live := Function.update w.live p (some size)
  stale := Function.update w.stale p false

/-- The world after `kfree` of `p`. -/
def freed (w : HeapWorld) (h : HeapState) (p : Nat) : HeapWorld where
  heap := h
  live := Function.update w.live p none
  stale q := (w.stale q || decide (q = p) && (w.live p).any (· ≤ slabLimit)) &&
    h.mapped (q / pageSize)

/-- The world after a caller wrote a byte. -/
def written (w : HeapWorld) (a : Nat) (byte : BitVec 8) : HeapWorld :=
  { w with heap := { w.heap with memory := Function.update w.heap.memory a byte } }

/-- The live blocks that are slots of slabs. -/
def blocks (w : HeapWorld) (p : Nat) : Option Nat := (w.live p).filter (· ≤ slabLimit)

/-- The live blocks that are runs of pages. -/
def runs (w : HeapWorld) (p : Nat) : Option Nat := (w.live p).filter (slabLimit < ·)

/-- Where a run is given back, the words before its header do not look like the
header of a slab object. -/
def Harmless (w : HeapWorld) (p : Nat) : Prop :=
  w.runs p ≠ none → w.heap.memory.u32 (p - 16) ≠ heapSlabMagic ∨ w.heap.memory.u32 (p - 12) = 0

/-- Callers free live blocks. -/
def LiveFree (w : HeapWorld) (p : Nat) : Prop := w.live p ≠ none

/-- No live block is in the page of `p`. -/
def Alone (w : HeapWorld) (p : Nat) : Prop :=
  ∀ q, w.live q ≠ none → q / pageSize ≠ p / pageSize

/-- One call or one write.  `sizes` are the sizes that callers ask for, `frees`
the pointers that they give to `kfree`. -/
inductive Step (pool : Nat) (sizes : Nat → Prop) (frees : HeapWorld → Nat → Prop) :
    HeapWorld → HeapWorld → Prop
  | kmalloc {w : HeapWorld} {size : Nat} {grant : Option Grant} {h : HeapState} {p : Nat} :
    sizes size → (∀ gr ∈ grant, Fresh w.heap (pagesAsked size) gr) →
    kmalloc pool w.heap size grant = .ok (h, p) → Step pool sizes frees w (w.allocated h p size)
  | kfree {w : HeapWorld} {p : Nat} {h : HeapState} :
    frees w p → kfree pool w.heap p = .ok h → Step pool sizes frees w (w.freed h p)
  | write {w : HeapWorld} {p n a : Nat} {byte : BitVec 8} :
    w.live p = some n → p ≤ a → a < p + n → Step pool sizes frees w (w.written a byte)

/-- The worlds that a history reaches. -/
def Reached (pool : Nat) (sizes : Nat → Prop) (frees : HeapWorld → Nat → Prop) (w : HeapWorld) :
    Prop :=
  ∃ h : HeapState, (∀ page, h.mapped page = false) ∧
    Relation.ReflTransGen (Step pool sizes frees) (initial h) w

/-- The invariant of histories. -/
structure Inv (pool : Nat) (w : HeapWorld) (g : Shape) : Prop where
  heap : HeapInv pool w.heap w.blocks w.runs g none
  stale : ∀ p, w.stale p = true → Located w.heap g p ∧ w.live p = none

/-! ## The start -/

/-- The record behind record `i`. -/
def nextRecord (i : Nat) : Option SlabId :=
  if last : i < heapMaxSlabs then some ⟨i, last⟩ else none

/-- `heap_init` links every record to the one behind it. -/
theorem heapInit_thread (h : HeapState) {left i : Nat} (whole : i + left = heapMaxSlabs) :
    Thread (heapInit h).next (nextRecord i) ((List.finRange heapMaxSlabs).drop i) := by
  induction left generalizing i with
  | zero =>
    rw [List.drop_of_length_le (by rw [List.length_finRange]; omega)]
    exact dif_neg (by omega)
  | succ left ih =>
    have inside : i < heapMaxSlabs := by omega
    rw [List.drop_eq_getElem_cons (by rw [List.length_finRange]; exact inside), List.getElem_finRange]
    refine ⟨dif_pos inside, ?_⟩
    exact ih (show i + 1 + left = heapMaxSlabs by omega)

theorem slotSize_eq (c : CacheId) :
    alignUpSize (slabObjectHeaderSize + objectSizes c) 8 = slotSizeOf c := by
  revert c
  decide

/-- Every record is free. -/
def emptyShape : Shape := ⟨List.finRange heapMaxSlabs, fun _ => [], fun _ => []⟩

theorem heapInit_lists (h : HeapState) :
    ListsInv (heapInit h) [] emptyShape.pool emptyShape.lists := by
  have start := heapInit_thread h (Nat.zero_add heapMaxSlabs)
  have head : nextRecord 0 = (heapInit h).slabMetadataFreeList := by
    rw [nextRecord, dif_pos (by decide), heapInit]
  have records : emptyShape.pool = List.finRange heapMaxSlabs := by rw [emptyShape]
  rw [head, List.drop_zero, ← records] at start
  refine ⟨start, fun _ _ => rfl, ?_⟩
  rw [List.nil_append, records]
  exact Partition.of_free (List.nodup_finRange _) fun s => iff_of_true trivial (List.mem_finRange s)

theorem initial_inv {pool : Nat} {h : HeapState} (nothing : ∀ page, h.mapped page = false) :
    (initial h).Inv pool emptyShape := by
  have none_active (s : SlabId) : ¬ emptyShape.active s := fun ⟨_, member⟩ => nomatch member
  have nobody (u : Holder) (page : Nat) :
      ¬ Owns (heapInit h) emptyShape.active (initial h).runs u page := by
    cases u with
    | slab s => exact fun owns => none_active s owns.1
    | run p => exact fun ⟨n, some_run, _⟩ => nomatch some_run
  have unmapped (page : Nat) : (heapInit h).mapped page ≠ true := by
    rw [show (heapInit h).mapped page = false from nothing page]
    exact nofun
  have contents : ContentsInv pool (heapInit h) emptyShape.active emptyShape.objects
      (initial h).blocks (initial h).runs :=
    ⟨rfl, fun c => ⟨rfl, slotSize_eq c⟩, fun s active => (none_active s active).elim,
      fun s active => (none_active s active).elim, fun p present => (present rfl).elim, nofun,
      fun page u u' owns => (nobody u page owns).elim,
      fun page => iff_of_false (unmapped page) fun ⟨u, owns⟩ => nobody u page owns⟩
  exact ⟨⟨contents, heapInit_lists h, nofun, nofun, fun _ => Nat.zero_le 1⟩, nofun⟩

/-! ## The steps -/

section Sizes

variable {w : HeapWorld} {h : HeapState} {p n : Nat}

theorem blocks_allocated (w : HeapWorld) (h : HeapState) (p n : Nat) :
    (w.allocated h p n).blocks =
      Function.update w.blocks p (if n ≤ slabLimit then some n else none) := by
  funext q
  by_cases here : q = p
  · subst here
    simp [blocks, allocated, Option.filter]
  · simp [blocks, allocated, here]

theorem runs_allocated (w : HeapWorld) (h : HeapState) (p n : Nat) :
    (w.allocated h p n).runs =
      Function.update w.runs p (if slabLimit < n then some n else none) := by
  funext q
  by_cases here : q = p
  · subst here
    simp [runs, allocated, Option.filter]
  · simp [runs, allocated, here]

theorem blocks_freed (w : HeapWorld) (h : HeapState) (p : Nat) :
    (w.freed h p).blocks = Function.update w.blocks p none := by
  funext q
  by_cases here : q = p
  · subst here
    simp [blocks, freed]
  · simp [blocks, freed, here]

theorem runs_freed (w : HeapWorld) (h : HeapState) (p : Nat) :
    (w.freed h p).runs = Function.update w.runs p none := by
  funext q
  by_cases here : q = p
  · subst here
    simp [runs, freed]
  · simp [runs, freed, here]

theorem blocks_eq (hp : w.live p = some n) (small : n ≤ slabLimit) : w.blocks p = some n := by
  rw [blocks, hp, Option.filter_some, if_pos (decide_eq_true small)]

theorem runs_eq (hp : w.live p = some n) (large : slabLimit < n) : w.runs p = some n := by
  rw [runs, hp, Option.filter_some, if_pos (decide_eq_true large)]

theorem live_eq_none (noBlock : w.blocks p = none) (noRun : w.runs p = none) : w.live p = none := by
  cases hp : w.live p with
  | none => rfl
  | some n =>
    by_cases small : n ≤ slabLimit
    · rw [blocks_eq hp small] at noBlock
      cases noBlock
    · rw [runs_eq hp (not_le.mp small)] at noRun
      cases noRun

theorem update_none_eq {f : Nat → Option Nat} (absent : f p = none) :
    Function.update f p none = f := by
  rw [← absent, Function.update_eq_self]

end Sizes

section Steps

variable {pool : Nat} {w w' : HeapWorld} {g : Shape} {h : HeapState} {p n : Nat}
  {grant : Option Grant}

/-- A pointer that is handed out is live, the others are as they were. -/
theorem Inv.allocated_stale (inv : w.Inv pool g) {g' : Shape}
    (located : ∀ q, Located w.heap g q → Located h g' q) (q : Nat)
    (stale : (w.allocated h p n).stale q = true) :
    Located h g' q ∧ (w.allocated h p n).live q = none := by
  have other : q ≠ p := by
    rintro rfl
    simp [allocated] at stale
  have before : w.stale q = true := by
    simpa [allocated, other] using stale
  obtain ⟨here, free⟩ := inv.stale q before
  exact ⟨located q here, by simpa [allocated, other] using free⟩

/-- **`kmalloc`** of a size whose sum does not wrap. -/
theorem Inv.allocated (inv : w.Inv pool g) (place : PoolPlace pool) (word : n < 2 ^ 32 - 7)
    (fresh : ∀ gr ∈ grant, Fresh w.heap (pagesAsked n) gr)
    (returns : kmalloc pool w.heap n grant = .ok (h, p)) :
    w.live p = none ∧ ∃ g', (w.allocated h p n).Inv pool g' := by
  by_cases small : n ≤ slabLimit
  · rw [pagesAsked, if_pos small] at fresh
    obtain ⟨g', inv', noBlock, located⟩ := inv.heap.kmalloc_small place small fresh returns
    have noRun : w.runs p = none := inv'.runs_eq_none (Function.update_self _ _ _)
    refine ⟨live_eq_none noBlock noRun, g', ?_, inv.allocated_stale located⟩
    rw [blocks_allocated, runs_allocated, if_pos small, if_neg (not_lt.mpr small),
      update_none_eq noRun]
    exact inv'
  · have large : slabLimit < n := not_le.mp small
    rw [pagesAsked, if_neg small] at fresh
    obtain ⟨gr, granted, some_pages, rfl, rfl⟩ := inv.heap.kmalloc_large large fresh returns
    have fits := (largePageCount_fits (by omega) large some_pages).mpr word
    obtain ⟨noRun, inv'⟩ := inv.heap.withRun_inv (fresh gr granted) fits
    have noBlock : w.blocks (gr.base + 8) = none := by
      by_contra present
      obtain ⟨k, hk⟩ := Option.ne_none_iff_exists'.mp present
      have absent := inv'.runs_eq_none hk
      rw [Function.update_self] at absent
      cases absent
    refine ⟨live_eq_none noBlock noRun, g, ?_, inv.allocated_stale fun q located => located⟩
    rw [blocks_allocated, runs_allocated, if_neg small, if_pos large, update_none_eq noBlock]
    exact inv'

/-- A pointer that is given back is stale, if the heap keeps its page. -/
theorem Inv.freed_stale (inv : w.Inv pool g) {g' : Shape}
    (located : ∀ q, Located w.heap g q → h.mapped (q / pageSize) = true → Located h g' q)
    (here : (w.live p).any (· ≤ slabLimit) = true → Located w.heap g p) (q : Nat)
    (stale : (w.freed h p).stale q = true) :
    Located h g' q ∧ (w.freed h p).live q = none := by
  obtain ⟨known, mapped⟩ := Bool.and_eq_true_iff.mp stale
  by_cases same : q = p
  · subst same
    refine ⟨located q ?_ mapped, Function.update_self _ _ _⟩
    rcases Bool.or_eq_true_iff.mp known with before | now
    · exact (inv.stale q before).1
    · exact here (Bool.and_eq_true_iff.mp now).2
  · have before : w.stale q = true := by simpa [same] using known
    obtain ⟨there, free⟩ := inv.stale q before
    exact ⟨located q there mapped, (Function.update_of_ne same _ _).trans free⟩

/-- **`kfree`** of a live pointer, where the probe before a run does no harm. -/
theorem Inv.freed (inv : w.Inv pool g) (place : PoolPlace pool) (live : w.live p ≠ none)
    (harmless : w.Harmless p) (returns : kfree pool w.heap p = .ok h) :
    ∃ g', (w.freed h p).Inv pool g' := by
  obtain ⟨n, hp⟩ := Option.ne_none_iff_exists'.mp live
  by_cases small : n ≤ slabLimit
  · have block := blocks_eq hp small
    obtain ⟨h', g', ran, inv', located⟩ := inv.heap.kfree_small place block
    obtain rfl : h' = h := Except.ok.inj (ran.symm.trans returns)
    have noRun := inv.heap.runs_eq_none block
    refine ⟨g', ?_, inv.freed_stale located fun _ => ?_⟩
    · rw [blocks_freed, runs_freed, update_none_eq noRun]
      exact inv'
    · obtain ⟨s, active, i, inside, here, -⟩ := inv.heap.contents.block_slot block
      exact ⟨s, active, i, inside, here⟩
  · have run := runs_eq hp (not_le.mp small)
    have noBlock : w.blocks p = none := by
      rw [blocks, hp, Option.filter_some, if_neg (by rwa [decide_eq_true_eq])]
    cases mapped : w.heap.mapped ((p - 16) / pageSize) with
    | false =>
      have low := (inv.heap.probe_page run (show 0 < 8 by decide)).2.2
      rw [kfree, if_neg (by omega), inv.heap.slabFreePointer_fault run mapped] at returns
      cases returns
    | true =>
      have ran := inv.heap.kfree_large run mapped (harmless (by rw [run]; exact Option.some_ne_none n))
      obtain rfl := Except.ok.inj (ran.symm.trans returns)
      refine ⟨g, ?_, inv.freed_stale (fun q located _ => ?_) fun wasSmall => ?_⟩
      · rw [blocks_freed, runs_freed, update_none_eq noBlock]
        exact inv.heap.withoutRun_inv run
      · refine located.transfer fun s active _ _ _ => ⟨active, ?_⟩
        rw [pagingFreePages]
        split <;> exact ⟨rfl, rfl⟩
      · rw [hp, Option.any_some, decide_eq_true_eq] at wasSmall
        exact absurd wasSmall small

/-- **A byte written** by the owner of a block. -/
theorem Inv.written (inv : w.Inv pool g) {a : Nat} (hp : w.live p = some n) (low : p ≤ a)
    (high : a < p + n) (byte : BitVec 8) : (w.written a byte).Inv pool g := by
  have owner : w.blocks p = some n ∨ w.runs p = some n := by
    by_cases small : n ≤ slabLimit
    · exact Or.inl (blocks_eq hp small)
    · exact Or.inr (runs_eq hp (not_le.mp small))
  have contents := inv.heap.contents.write owner low high byte
  refine ⟨⟨contents, inv.heap.lists.of_same rfl rfl rfl, inv.heap.caches, inv.heap.placed,
    inv.heap.oneEmpty⟩, fun q stale => ?_⟩
  obtain ⟨located, free⟩ := inv.stale q stale
  exact ⟨located, free⟩

/-- **`kfree` of a stale pointer** panics exactly where the slab has nothing in
use. -/
theorem Inv.freed_twice (inv : w.Inv pool g) (place : PoolPlace pool) (stale : w.stale p = true) :
    kfree pool w.heap p = .error (.panic "double free detected for slab object %p" p) ↔
      w.Alone p := by
  obtain ⟨⟨s, active, i, inside, rfl⟩, free⟩ := inv.stale p stale
  have ok := inv.heap.contents.slabs s active
  have wide := (slotSizeOf_le (w.heap.slabMetadataPool s).cache).1
  have mine := inv.heap.contents.slot_page active inside (show 16 < _ by omega)
  rw [kfree_slot_panics inv.heap.contents place active inside]
  constructor
  · intro unused q live samePage
    obtain ⟨n, hq⟩ := Option.ne_none_iff_exists'.mp live
    by_cases small : n ≤ slabLimit
    · obtain ⟨t, active', j, inside', rfl, -, used⟩ :=
        inv.heap.contents.block_slot (blocks_eq hq small)
      have wide' := (slotSizeOf_le (w.heap.slabMetadataPool t).cache).1
      have yours := inv.heap.contents.slot_page active' inside' (show 16 < _ by omega)
      rw [samePage] at yours
      obtain rfl : t = s := Holder.slab.inj (inv.heap.contents.owner _ _ _ yours mine)
      exact used (ok.all_free unused inside')
    · have yours := inv.heap.contents.run_page (runs_eq hq (not_le.mp small)) (Nat.sub_le q 8)
        (by omega)
      rw [samePage] at yours
      exact Holder.noConfusion (inv.heap.contents.owner _ _ _ yours mine)
  · intro alone
    by_contra used
    obtain ⟨j, inside', taken⟩ := ok.exists_used used
    have live := (inv.heap.contents.payloads s active j inside').1.mp taken
    have yours := inv.heap.contents.slot_page active inside' (show 16 < _ by omega)
    refine alone _ (fun absent => live ?_) (yours.2.trans mine.2.symm)
    rw [blocks, absent]
    rfl

variable {sizes : Nat → Prop} {frees : HeapWorld → Nat → Prop}

/-- **Every step keeps the invariant**, where sums do not wrap, runs are given back
without harm and a second `kfree` finds the slab empty. -/
theorem Inv.step (inv : w.Inv pool g) (place : PoolPlace pool)
    (noWrap : ∀ n, sizes n → n < 2 ^ 32 - 7)
    (careful : ∀ p, frees w p → w.live p ≠ none ∧ w.Harmless p ∨ w.stale p = true ∧ w.Alone p)
    (step : Step pool sizes frees w w') : ∃ g', w'.Inv pool g' := by
  cases step with
  | kmalloc size fresh returns => exact (inv.allocated place (noWrap _ size) fresh returns).2
  | kfree allowed returns =>
    rcases careful _ allowed with ⟨live, harmless⟩ | ⟨stale, alone⟩
    · exact inv.freed place live harmless returns
    · rw [(inv.freed_twice place stale).mpr alone] at returns
      cases returns
  | write hp low high => exact ⟨g, inv.written hp low high _⟩

/-- **Every history keeps the invariant.** -/
theorem Reached.inv (place : PoolPlace pool) (noWrap : ∀ n, sizes n → n < 2 ^ 32 - 7)
    (careful : ∀ w, Reached pool sizes frees w → ∀ p, frees w p →
      w.live p ≠ none ∧ w.Harmless p ∨ w.stale p = true ∧ w.Alone p)
    (reached : Reached pool sizes frees w) : ∃ g, w.Inv pool g := by
  obtain ⟨h, nothing, run⟩ := reached
  induction run with
  | refl => exact ⟨emptyShape, initial_inv nothing⟩
  | tail before step ih =>
    obtain ⟨g, inv⟩ := ih
    exact inv.step place noWrap (careful _ ⟨h, nothing, before⟩) step

end Steps

end HeapWorld

end Dfos.Heap
