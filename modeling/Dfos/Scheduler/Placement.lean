import Dfos.Scheduler.Operations
import Mathlib.Data.Finset.Card
import Mathlib.Data.Fintype.EquivFin

/-!
# Where tasks are

The state of a task fixes the list it is on.  `Placed` says so of every task
but those a critical section has in hand: such a task is on no list, whatever
its state, as the slot of a task that is being created is.
-/

namespace Dfos.Scheduler

open Dfos.Lib

/-- The list a task in this state is on. -/
def Task.home (t : Task) : Option ListRef :=
  match t.state with
  | .unused => some .free
  | .runnable => some (.runnable t.assignedCpu t.priority)
  | .running => none
  | .sleeping => some .sleeping
  | .blocked => some .blocked
  | .zombie => some .zombie

/-- The `list_kind` of a task on this list. -/
def kindOn : Option ListRef → ListKind
  | none => .none
  | some .free => .free
  | some (.runnable _ _) => .runnable
  | some .sleeping => .sleeping
  | some .blocked => .blocked
  | some .zombie => .zombie

/-- The list a task is on, when the tasks of `held` are in hand. -/
def State.whereabouts (s : State) (held : Finset TaskId) (t : TaskId) : Option ListRef :=
  if t ∈ held then none else (s.tasks t).home

theorem State.whereabouts_held {s : State} {held : Finset TaskId} {t : TaskId}
    (inHand : t ∈ held) : s.whereabouts held t = none :=
  if_pos inHand

theorem State.whereabouts_home {s : State} {held : Finset TaskId} {t : TaskId}
    (off : t ∉ held) : s.whereabouts held t = (s.tasks t).home :=
  if_neg off

theorem State.whereabouts_congr {s s' : State} {held held' : Finset TaskId} {t : TaskId}
    (inHand : t ∈ held' ↔ t ∈ held) (home : (s'.tasks t).home = (s.tasks t).home) :
    s'.whereabouts held' t = s.whereabouts held t := by
  simp only [State.whereabouts, inHand, home]

/-- Every list is well formed and holds exactly the tasks whose state says so. -/
structure Placed (s : State) (contents : ListRef → List TaskId) (held : Finset TaskId) :
    Prop where
  holds : Holds s.links s.lists contents
  member : ∀ t r, t ∈ contents r ↔ s.whereabouts held t = some r
  kind : ∀ t, (s.tasks t).listKind = kindOn (s.whereabouts held t)

/-! ## The task updates of the list operations -/

theorem State.setTask_same (s : State) (t : TaskId) (f : Task → Task) :
    (s.setTask t f).tasks t = f (s.tasks t) :=
  Function.update_self ..

theorem State.setTask_other {t u : TaskId} (s : State) (f : Task → Task) (other : u ≠ t) :
    (s.setTask t f).tasks u = s.tasks u :=
  Function.update_of_ne other ..

theorem taskListPushBack_same (s : State) (list : ListRef) (t : TaskId) (kind : ListKind) :
    (taskListPushBack s list t kind).tasks t = { s.tasks t with listKind := kind } := by
  simp [taskListPushBack, State.setTask]

theorem taskListPushBack_other {t u : TaskId} (s : State) (list : ListRef) (kind : ListKind)
    (other : u ≠ t) : (taskListPushBack s list t kind).tasks u = s.tasks u := by
  simp [taskListPushBack, State.setTask, other]

theorem taskListRemove_same (s : State) (list : ListRef) (t : TaskId) :
    (taskListRemove s list t).tasks t = { s.tasks t with listKind := .none } := by
  simp [taskListRemove, State.setTask]

theorem taskListRemove_other {t u : TaskId} (s : State) (list : ListRef) (other : u ≠ t) :
    (taskListRemove s list t).tasks u = s.tasks u := by
  simp [taskListRemove, State.setTask, other]

namespace Placed

variable {s : State} {contents : ListRef → List TaskId} {held : Finset TaskId} {t : TaskId}

section

variable (placed : Placed s contents held)
include placed

theorem unique {r q : ListRef} (first : t ∈ contents r)
    (second : t ∈ contents q) : r = q :=
  placed.holds.apart first second

theorem notHeld {r : ListRef} (member : t ∈ contents r) :
    t ∉ held := by
  intro inHand
  have nowhere := (placed.member t r).mp member
  rw [State.whereabouts_held inHand] at nowhere
  cases nowhere

theorem home {r : ListRef} (member : t ∈ contents r) :
    (s.tasks t).home = some r := by
  rw [← State.whereabouts_home (placed.notHeld member)]
  exact (placed.member t r).mp member

theorem mem_of_home {r : ListRef} (off : t ∉ held)
    (home : (s.tasks t).home = some r) : t ∈ contents r := by
  rw [placed.member, State.whereabouts_home off, home]

theorem held_off (inHand : t ∈ held) (r : ListRef) :
    t ∉ contents r :=
  fun member => placed.notHeld member inHand

theorem held_kind (inHand : t ∈ held) :
    (s.tasks t).listKind = .none := by
  rw [placed.kind, State.whereabouts_held inHand]
  rfl

/-- There are 32 slots, so a walk over a list ends. -/
theorem length_le (r : ListRef) :
    (contents r).length ≤ schedulerMaxThreads := by
  have bound := (placed.holds.list r).nodup.length_le_card
  rwa [Fintype.card_fin] at bound

/-- `Placed` reads the lists, and of each task where it belongs. -/
theorem congr {s' : State} {held' : Finset TaskId}
    (links : s'.links = s.links) (lists : s'.lists = s.lists)
    (tasks : ∀ t, s'.whereabouts held' t = s.whereabouts held t ∧
      (s'.tasks t).listKind = (s.tasks t).listKind) : Placed s' contents held' where
  holds := by
    rw [links, lists]
    exact placed.holds
  member t r := by rw [placed.member, (tasks t).1]
  kind t := by rw [(tasks t).1, (tasks t).2, placed.kind]

/-- A task in hand can be rewritten. -/
theorem setHeld (inHand : t ∈ held) {f : Task → Task}
    (kind : (f (s.tasks t)).listKind = .none) : Placed (s.setTask t f) contents held := by
  refine placed.congr rfl rfl fun u => ?_
  by_cases here : u = t
  · subst here
    rw [State.whereabouts_held inHand, State.whereabouts_held inHand, State.setTask_same, kind,
      placed.held_kind inHand]
    exact ⟨rfl, rfl⟩
  · have same := State.setTask_other s f here
    exact ⟨State.whereabouts_congr Iff.rfl (by rw [same]), by rw [same]⟩

/-- Taking a task off its list puts it in hand. -/
theorem remove {r : ListRef} (member : t ∈ contents r) :
    Placed (taskListRemove s r t) (Function.update contents r ((contents r).erase t))
      (insert t held) := by
  have others : ∀ {u}, u ≠ t →
      (taskListRemove s r t).whereabouts (insert t held) u = s.whereabouts held u := by
    intro u other
    refine State.whereabouts_congr ?_ (by rw [taskListRemove_other s r other])
    rw [Finset.mem_insert, or_iff_right other]
  refine ⟨placed.holds.remove member, fun u q => ?_, fun u => ?_⟩
  · by_cases here : u = t
    · subst here
      rw [State.whereabouts_held (Finset.mem_insert_self ..)]
      refine iff_of_false (fun found => ?_) nofun
      by_cases same : q = r
      · subst same
        rw [Function.update_self] at found
        exact (placed.holds.list q).nodup.not_mem_erase found
      · rw [Function.update_of_ne same] at found
        exact same (placed.unique found member)
    · rw [others here, ← placed.member]
      by_cases same : q = r
      · subst same
        rw [Function.update_self, List.mem_erase_of_ne here]
      · rw [Function.update_of_ne same]
  · by_cases here : u = t
    · subst here
      rw [taskListRemove_same, State.whereabouts_held (Finset.mem_insert_self ..)]
      rfl
    · rw [taskListRemove_other s r here, others here, placed.kind]

/-- A task in hand goes to the list its state names. -/
theorem push (inHand : t ∈ held) {r : ListRef}
    (home : (s.tasks t).home = some r) :
    Placed (taskListPushBack s r t (kindOn (some r)))
      (Function.update contents r (contents r ++ [t])) (held.erase t) := by
  have others : ∀ {u}, u ≠ t →
      (taskListPushBack s r t (kindOn (some r))).whereabouts (held.erase t) u =
        s.whereabouts held u := by
    intro u other
    refine State.whereabouts_congr ?_ (by rw [taskListPushBack_other s r _ other])
    rw [Finset.mem_erase, and_iff_right other]
  have arrived : (taskListPushBack s r t (kindOn (some r))).whereabouts (held.erase t) t =
      some r := by
    rw [State.whereabouts_home (Finset.notMem_erase t held), taskListPushBack_same]
    exact home
  refine ⟨placed.holds.pushBack r (placed.held_off inHand), fun u q => ?_, fun u => ?_⟩
  · by_cases here : u = t
    · subst here
      rw [arrived]
      by_cases same : q = r
      · subst same
        simp
      · rw [Function.update_of_ne same]
        exact iff_of_false (placed.held_off inHand q)
          (fun found => same (Option.some.inj found).symm)
    · rw [others here, ← placed.member]
      by_cases same : q = r
      · subst same
        rw [Function.update_self, List.mem_append, List.mem_singleton, or_iff_left here]
      · rw [Function.update_of_ne same]
  · by_cases here : u = t
    · subst here
      rw [arrived, taskListPushBack_same]
    · rw [taskListPushBack_other s r _ here, others here, placed.kind]

end

end Placed

end Dfos.Scheduler
