import Dfos.Scheduler.Interleaving

/-!
# Reading the current task

`scheduler_sleep`, `scheduler_wait_channel` and `scheduler_join_task` call
`scheduler_current_task` before they take the lock.  It finds the state of the
CPU it runs on and then loads `current` from there.  An interrupt in between may
move the caller to another CPU, and then it goes on with whatever task the CPU
that it left is running.

The steps of a `World` do the two reads inside the critical section that uses
them.  `Callers` makes them steps of their own, over any system of such steps;
as long as nobody is moved between the two, an invariant of the system is one of
the system with the reads (`Callers.invariant`).
-/

namespace Dfos.Scheduler

/-- A system of interleaved critical sections. -/
structure Callers (W A : Type) where
  world : W → World
  step : W → A → Option W
  /-- The CPU whose task calls `scheduler_current_task` before the section. -/
  reads : A → Option Nat
  /-- The section, where that call gave another task than the caller. -/
  misled : W → A → TaskId → Option W

/-- The system, with what its tasks have read. -/
structure Reading (W : Type) where
  inner : W
  /-- The CPU whose state the task has found. -/
  found : TaskId → Option Nat
  /-- The task that it has loaded from there. -/
  loaded : TaskId → Option TaskId

inductive ReadStep (A : Type) where
  | find (cpu : Nat)
  | load (cpu : Nat)
  | act (action : A)

/-- Nothing is read yet. -/
def Reading.start {W : Type} (w : W) : Reading W := ⟨w, fun _ => none, fun _ => none⟩

/-- Every task that has loaded one has loaded itself. -/
def Reading.Honest {W : Type} (w : Reading W) : Prop := ∀ t u, w.loaded t = some u → u = t

namespace Callers

variable {W A : Type} (c : Callers W A)

/-- One step.  A caller that loads NULL returns from its call. -/
def readStep (w : Reading W) : ReadStep A → Option (Reading W)
  | .find cpu => ((c.world w.inner).runningOn cpu).map fun t =>
      { w with
        found := Function.update w.found t
          (some (schedulerCurrentCpuState (c.world w.inner).state cpu)) }
  | .load cpu => ((c.world w.inner).runningOn cpu).bind fun t => (w.found t).map fun id =>
      { w with
        found := Function.update w.found t none
        loaded := Function.update w.loaded t ((c.world w.inner).state.cpus id).current }
  | .act action =>
      match c.reads action with
      | none => (c.step w.inner action).map fun inner => { w with inner := inner }
      | some cpu =>
          ((c.world w.inner).runningOn cpu).bind fun t => (w.loaded t).bind fun u =>
            (if u = t then c.step w.inner action else c.misled w.inner action u).map fun inner =>
              { w with inner := inner, loaded := Function.update w.loaded t none }

def readRun (w : Reading W) : List (ReadStep A) → Option (Reading W)
  | [] => some w
  | step :: steps => (c.readStep w step).bind (readRun · steps)

/-- A task that loads is what the CPU that it has found runs, and a section is
taken where `P` holds. -/
def Meets (P : W → A → Prop) (w : Reading W) : ReadStep A → Prop
  | .find _ => True
  | .load cpu => ∀ t ∈ (c.world w.inner).runningOn cpu, ∀ id ∈ w.found t,
      ((c.world w.inner).state.cpus id).current = some t
  | .act action => P w.inner action

/-- Every step of the run is such where it is taken. -/
def Along (P : W → A → Prop) (w : Reading W) : List (ReadStep A) → Prop
  | [] => True
  | step :: steps => c.Meets P w step ∧ ∀ w', c.readStep w step = some w' → Along P w' steps

/-- What a step does to the system: a read does nothing. -/
def Does (w w' : W) : ReadStep A → Prop
  | .act action => c.step w action = some w'
  | _ => w' = w

/-- The steps of a run, each read right before its section. -/
def whole (actions : List A) : List (ReadStep A) :=
  actions.flatMap fun action =>
    match c.reads action with
    | none => [.act action]
    | some cpu => [.find cpu, .load cpu, .act action]

section

variable {c} {P : W → A → Prop} {w w' : Reading W}

theorem Meets.does {step : ReadStep A} (meets : c.Meets P w step) (honest : w.Honest)
    (stepped : c.readStep w step = some w') : w'.Honest ∧ c.Does w.inner w'.inner step := by
  cases step with
  | find cpu =>
      obtain ⟨t, -, rfl⟩ := Option.map_eq_some_iff.mp stepped
      exact ⟨honest, rfl⟩
  | load cpu =>
      obtain ⟨t, running, rest⟩ := Option.bind_eq_some_iff.mp stepped
      obtain ⟨id, found, rfl⟩ := Option.map_eq_some_iff.mp rest
      refine ⟨fun u v loaded => ?_, rfl⟩
      dsimp only at loaded
      rcases eq_or_ne u t with rfl | other
      · rw [Function.update_self, meets u running id found] at loaded
        exact (Option.some.inj loaded).symm
      · rw [Function.update_of_ne other] at loaded
        exact honest u v loaded
  | act action =>
      rw [readStep] at stepped
      split at stepped
      · obtain ⟨inner, done, rfl⟩ := Option.map_eq_some_iff.mp stepped
        exact ⟨honest, done⟩
      · obtain ⟨t, -, rest⟩ := Option.bind_eq_some_iff.mp stepped
        obtain ⟨u, loaded, rest⟩ := Option.bind_eq_some_iff.mp rest
        obtain ⟨inner, done, rfl⟩ := Option.map_eq_some_iff.mp rest
        rw [if_pos (honest t u loaded)] at done
        refine ⟨fun v u loaded => ?_, done⟩
        dsimp only at loaded
        rcases eq_or_ne v t with rfl | other
        · rw [Function.update_self] at loaded
          cases loaded
        · rw [Function.update_of_ne other] at loaded
          exact honest v u loaded

theorem honest_run {steps : List (ReadStep A)} (honest : w.Honest) (along : c.Along P w steps)
    (ran : c.readRun w steps = some w') : w'.Honest := by
  induction steps generalizing w with
  | nil =>
      obtain rfl := Option.some.inj ran
      exact honest
  | cons step steps ih =>
      obtain ⟨m, stepped, rest⟩ := Option.bind_eq_some_iff.mp ran
      exact ih (along.1.does honest stepped).1 (along.2 m stepped) rest

theorem along_append_iff {first second : List (ReadStep A)} :
    c.Along P w (first ++ second) ↔ c.Along P w first ∧
      ∀ w', c.readRun w first = some w' → c.Along P w' second := by
  induction first generalizing w with
  | nil =>
      refine ⟨fun along => ⟨trivial, fun w' ran => ?_⟩, fun along => along.2 w rfl⟩
      rwa [← Option.some.inj ran]
  | cons step first ih =>
      constructor
      · rintro ⟨meets, rest⟩
        refine ⟨⟨meets, fun m stepped => (ih.mp (rest m stepped)).1⟩, fun w' ran => ?_⟩
        obtain ⟨m, stepped, ran⟩ := Option.bind_eq_some_iff.mp ran
        exact (ih.mp (rest m stepped)).2 w' ran
      · rintro ⟨⟨meets, along⟩, rest⟩
        refine ⟨meets, fun m stepped => ih.mpr ⟨along m stepped, fun w' ran => rest w' ?_⟩⟩
        exact Option.bind_eq_some_iff.mpr ⟨m, stepped, ran⟩

theorem honest_start (w : W) : (Reading.start w).Honest := by
  intro t u loaded
  cases loaded

/-- **An invariant of the system** is one of the system with the reads. -/
theorem invariant {I : W → Prop}
    (keeps : ∀ {w w' action}, I w → P w action → c.step w action = some w' → I w')
    {steps : List (ReadStep A)} (honest : w.Honest) (along : c.Along P w steps)
    (ran : c.readRun w steps = some w') (start : I w.inner) : I w'.inner := by
  induction steps generalizing w with
  | nil =>
      obtain rfl := Option.some.inj ran
      exact start
  | cons step steps ih =>
      obtain ⟨m, stepped, rest⟩ := Option.bind_eq_some_iff.mp ran
      obtain ⟨honestM, does⟩ := along.1.does honest stepped
      refine ih honestM (along.2 m stepped) rest ?_
      cases step with
      | act action => exact keeps start along.1 does
      | find cpu | load cpu =>
          rw [show m.inner = w.inner from does]
          exact start

theorem runningOn_current {w : World} {cpu : Nat} {t : TaskId} (running : w.runningOn cpu = some t) :
    schedulerCurrentTask w.state cpu = some t :=
  (Option.filter_eq_some_iff.mp running).1

/-- Where a task loads right after it has found its CPU, it loads itself. -/
theorem along_whole {actions : List A} (quiet : ∀ action ∈ actions, ∀ w, P w action)
    (w : Reading W) : c.Along P w (c.whole actions) := by
  induction actions generalizing w with
  | nil => exact trivial
  | cons action actions ih =>
      have rest := ih fun other member => quiet other (List.mem_cons_of_mem _ member)
      have here := quiet action List.mem_cons_self
      unfold whole at rest ⊢
      rw [List.flatMap_cons]
      split
      · exact ⟨here _, fun w' _ => rest w'⟩
      · refine ⟨trivial, fun m stepped => ⟨fun t running id found => ?_,
          fun _ _ => ⟨here _, fun w' _ => rest w'⟩⟩⟩
        obtain ⟨u, caller, rfl⟩ := Option.map_eq_some_iff.mp stepped
        obtain rfl : u = t := Option.some.inj (caller.symm.trans running)
        dsimp only [Option.mem_def] at found
        rw [Function.update_self] at found
        rw [← Option.some.inj found]
        exact runningOn_current caller

end

end Callers

/-! ## The scheduler's own steps -/

/-- `scheduler_sleep` and `scheduler_wait_channel` read before they lock;
`scheduler_exit_current` reads under the lock. -/
def Action.reads : Action → Option Nat
  | .sleep cpu _ => some cpu
  | .waitChannel cpu _ _ => some cpu
  | _ => none

/-- The critical section on the task `u`. -/
def World.misled (w : World) : Action → TaskId → Option World
  | .sleep _ ticks, u =>
      if ticks = 0 then none else some { w with state := sleepLocked w.state u ticks }
  | .waitChannel _ channel timeoutTicks, u =>
      if timeoutTicks = 0 then none
      else some { w with state := waitLocked w.state u channel timeoutTicks }
  | _, _ => none

def worldCallers : Callers World Action := ⟨id, World.step, Action.reads, World.misled⟩

end Dfos.Scheduler
