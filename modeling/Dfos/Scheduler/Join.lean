import Dfos.Scheduler.Effects

/-!
# Joining a task that exits

`scheduler_join_task` looks at its target in one critical section and blocks in
another; `scheduler_exit_current` becomes a zombie in one and wakes the joiners
in another.  Both gaps lose the wakeup: the target may run its whole exit in the
first, and a zombie preempted in the second is never resumed to wake anybody.

A `JoinWorld` adds to the interleavings where each task is in these two
functions.  As long as no task exits while a joiner is in the first gap, no
interrupt reaches a task in the second, and a joiner that looks up the current
task finds itself, every joiner that is blocked has its wakeup ahead.
-/

namespace Dfos.Scheduler

open Dfos.Lib

/-- Where a task is in `scheduler_join_task(target, SCHEDULER_WAIT_FOREVER)` or
in `scheduler_exit_current`. -/
inductive JoinPoint where
  | outside
  /-- At the head of the loop. -/
  | looking (target : Nat)
  /-- The target was there and no zombie, and the lock is released. -/
  | checked (target : Nat)
  /-- Past the locked part of `scheduler_wait_channel`. -/
  | waiting (target : Nat)
  /-- The same, with another task in its own place. -/
  | misled (target : Nat) (other : TaskId)
  /-- A zombie that has not woken its joiners. -/
  | exited
  | woke
  deriving DecidableEq, Repr

structure JoinWorld where
  world : World
  points : TaskId → JoinPoint

/-- A step inside the two functions, or any other step. -/
inductive JoinAction where
  | joinCall (cpu taskId : Nat)
  | joinLook (cpu : Nat)
  | joinWait (cpu : Nat)
  | joinResume (cpu : Nat)
  | exitMark (cpu : Nat)
  | exitWake (cpu : Nat)
  | other (action : Action)

def JoinWorld.goto (w : JoinWorld) (t : TaskId) (point : JoinPoint) : JoinWorld :=
  { w with points := Function.update w.points t point }

/-- A critical section that ends with `t` at `point`. -/
def JoinWorld.perform (w : JoinWorld) (action : Action) (t : TaskId) (point : JoinPoint) :
    Option JoinWorld :=
  (w.world.step action).map fun world => JoinWorld.goto ⟨world, w.points⟩ t point

/-- The critical section at the head of the loop of `scheduler_join_task`. -/
def JoinWorld.look (w : JoinWorld) (t : TaskId) (target : Nat) : JoinWorld :=
  match schedulerFindTaskById w.world.state target with
  | none => w.goto t .outside
  | some found =>
      if (w.world.state.tasks found).state = .zombie then
        match joinLocked w.world.state target with
        | (s, some _) => { w with world := { w.world with state := s } }.goto t .outside
        -- it yields and looks again
        | (_, none) => w
      else w.goto t (.checked target)

/-- Inside the two functions a task does nothing else. -/
def JoinWorld.Permits (w : JoinWorld) : Action → Prop
  | .sleep cpu _ => ∀ t ∈ schedulerCurrentTask w.world.state cpu, w.points t = .outside
  | .waitChannel cpu _ _ => ∀ t ∈ schedulerCurrentTask w.world.state cpu, w.points t = .outside
  | .exitCurrent _ => False
  | _ => True

instance JoinWorld.decidablePermits (w : JoinWorld) :
    (action : Action) → Decidable (w.Permits action)
  | .sleep cpu _ | .waitChannel cpu _ _ => inferInstanceAs
      (Decidable (∀ t ∈ schedulerCurrentTask w.world.state cpu, w.points t = .outside))
  | .exitCurrent _ => instDecidableFalse
  | .bootstrapCurrent .. | .bootstrapSecondary .. | .createReserve .. | .createEnqueue ..
  | .createRelease .. | .timerTick .. | .yield .. | .wakeChannel .. | .setTaskPriority ..
  | .joinTask .. | .reapZombie => instDecidableTrue

/-- The slot in which a step starts a new task. -/
def Action.starts (after : State) : Action → Option TaskId
  | .bootstrapCurrent _ _ => (after.cpus after.bootCpuId).current
  | .bootstrapSecondary cpu _ _ => (after.cpus cpu).current
  | .createEnqueue _ t _ _ _ => some t
  | _ => none

/-- A new task starts outside. -/
def JoinWorld.enrol (w : JoinWorld) : Option TaskId → JoinWorld
  | some t => w.goto t .outside
  | none => w

def JoinWorld.step (w : JoinWorld) : JoinAction → Option JoinWorld
  | .joinCall cpu taskId =>
      (w.world.runningOn cpu).bind fun t =>
        if w.points t = .outside then
          if taskId = 0 ∨ taskId = (w.world.state.tasks t).id then some w
          else some (w.goto t (.looking taskId))
        else none
  | .joinLook cpu =>
      (w.world.runningOn cpu).bind fun t =>
        match w.points t with
        | .looking target => some (w.look t target)
        | _ => none
  | .joinWait cpu =>
      (w.world.runningOn cpu).bind fun t =>
        match w.points t with
        | .checked target =>
            w.perform (.waitChannel cpu schedulerJoinWaitChannelToken schedulerWaitForever) t
              (.waiting target)
        | _ => none
  | .joinResume cpu =>
      (w.world.runningOn cpu).bind fun t =>
        match w.points t with
        | .waiting target =>
            some (w.goto t (if (w.world.state.tasks t).waitResult then .looking target
              else .outside))
        | .misled target u =>
            some (w.goto t (if (w.world.state.tasks u).waitResult then .looking target
              else .outside))
        | _ => none
  | .exitMark cpu =>
      (w.world.runningOn cpu).bind fun t =>
        if w.points t = .outside then w.perform (.exitCurrent cpu) t .exited else none
  | .exitWake cpu =>
      (schedulerCurrentTask w.world.state cpu).bind fun t =>
        if w.points t = .exited then
          w.perform (.wakeChannel cpu schedulerJoinWaitChannelToken 0) t .woke
        else none
  | .other action =>
      if w.Permits action then
        (w.world.step action).map fun world =>
          JoinWorld.enrol ⟨world, w.points⟩ (action.starts world.state)
      else none

/-- The join reads the current task for its id, and then in
`scheduler_wait_channel`. -/
def JoinAction.reads : JoinAction → Option Nat
  | .joinCall cpu _ => some cpu
  | .joinWait cpu => some cpu
  | .other action => action.reads
  | _ => none

/-- The step, where the read gave `u`. -/
def JoinWorld.misled (w : JoinWorld) : JoinAction → TaskId → Option JoinWorld
  | .joinCall cpu taskId, u =>
      (w.world.runningOn cpu).bind fun t =>
        if w.points t = .outside then
          if taskId = 0 ∨ taskId = (w.world.state.tasks u).id then some w
          else some (w.goto t (.looking taskId))
        else none
  | .joinWait cpu, u =>
      (w.world.runningOn cpu).bind fun t =>
        match w.points t with
        | .checked target =>
            (w.world.misled
              (.waitChannel cpu schedulerJoinWaitChannelToken schedulerWaitForever) u).map
                fun world => JoinWorld.goto ⟨world, w.points⟩ t (.misled target u)
        | _ => none
  | .other action, u =>
      if w.Permits action then (w.world.misled action u).map fun world => ⟨world, w.points⟩
      else none
  | _, _ => none

def joinCallers : Callers JoinWorld JoinAction :=
  ⟨JoinWorld.world, JoinWorld.step, JoinAction.reads, JoinWorld.misled⟩

def JoinWorld.start (spaces : Paging.AddressSpaces) (smpAvailable : Bool)
    (config : TopologyConfig) : Option JoinWorld :=
  (World.start spaces smpAvailable config).map fun world =>
    { world := world, points := fun _ => .outside }

/-! ## Lost wakeups -/

/-- A live task has the id. -/
def JoinWorld.Present (w : JoinWorld) (target : Nat) : Prop :=
  ∃ x, (w.world.state.tasks x).id = target ∧ (w.world.state.tasks x).Live

/-- The task with the id is exiting and on a CPU, and wakes its joiners next. -/
def JoinWorld.AboutToWake (w : JoinWorld) (target : Nat) : Prop :=
  ∃ x, (w.world.state.tasks x).id = target ∧ w.points x = .exited ∧
    schedulerTaskIsCurrentOnAnyCpuLocked w.world.state x

/-- A task is blocked for good in a join on a task that is a zombie or gone,
and that will not wake it any more. -/
def JoinWorld.Lost (w : JoinWorld) : Prop :=
  ∃ t target, w.points t = .waiting target ∧ (w.world.state.tasks t).state = .blocked ∧
    (w.world.state.tasks t).waitChannel = some schedulerJoinWaitChannelToken ∧
    (w.world.state.tasks t).wakeupTick = 0 ∧ ¬ w.Present target ∧ ¬ w.AboutToWake target

/-- No task exits while a joiner of it is between its check and its wait, and no
interrupt reaches a task that is exiting; the load balancer finds no current
task queued. -/
def JoinWorld.Quiet (w : JoinWorld) : JoinAction → Prop
  | .exitMark cpu => ∀ t ∈ schedulerCurrentTask w.world.state cpu,
      ∀ u, w.points u ≠ .checked (w.world.state.tasks t).id
  | .other (.timerTick cpu frame) => w.world.Calm (.timerTick cpu frame) ∧
      ∀ t ∈ (w.world.state.cpus cpu).current, w.points t ≠ .exited
  | .other (.yield cpu _) => ∀ t ∈ (w.world.state.cpus cpu).current, w.points t ≠ .exited
  | _ => True

/-- `AboutToWake` with the CPU. -/
def JoinWorld.Waking (w : JoinWorld) (target : Nat) : Prop :=
  ∃ x c, (w.world.state.tasks x).id = target ∧ w.points x = .exited ∧
    (w.world.state.cpus c).current = some x

/-- Whoever is about to block has a live target, and whoever is blocked has a
wakeup ahead. -/
structure JoinWorld.Safe (w : JoinWorld) : Prop where
  checked : ∀ t target, w.points t = .checked target → w.Present target
  waiting : ∀ t target, w.points t = .waiting target →
    (w.world.state.tasks t).state = .blocked →
    (w.world.state.tasks t).waitChannel = some schedulerJoinWaitChannelToken →
    w.Present target ∨ w.Waking target

section

variable {w w' : JoinWorld} {contents : ListRef → List TaskId} {held : Finset TaskId}
  {stopping migrating slot : TaskId → Prop} {switching : Nat → Prop} {t : TaskId} {target : Nat}

theorem JoinWorld.Safe.not_lost (safe : w.Safe) (sound : w.world.Sound contents held) :
    ¬ w.Lost := by
  rintro ⟨t, target, point, blocked, channel, -, gone, silent⟩
  rcases safe.waiting t target point blocked channel with present | ⟨x, c, id, exited, current⟩
  · exact gone present
  · refine silent ⟨x, id, exited, ?_⟩
    by_contra nowhere
    rw [Bool.not_eq_true] at nowhere
    exact sound.core.idle_of_not_current nowhere c current

/-! ## What a step keeps -/

/-- A target stays unless it is the task that exits. -/
theorem JoinWorld.Present.step (present : w.Present target)
    (effect : Effect stopping migrating slot switching w.world.state w'.world.state)
    (stays : ∀ x, stopping x → (w.world.state.tasks x).id = target →
      (w'.world.state.tasks x).Live) : w'.Present target := by
  obtain ⟨x, id, live⟩ := present
  by_cases stops : stopping x
  · exact ⟨x, (effect.stops x stops).trans id, stays x stops id⟩
  · have drifts := effect.tasks x stops fun inSlot => (effect.dead x inSlot).1 live
    exact ⟨x, drifts.id.trans id, drifts.live live⟩

/-- A task that is about to wake its joiners stays so, unless its CPU is
interrupted. -/
theorem JoinWorld.Waking.step (waking : w.Waking target)
    (effect : Effect stopping migrating slot switching w.world.state w'.world.state)
    (busy : ∀ c x, switching c → (w.world.state.cpus c).current = some x → w.points x ≠ .exited)
    (points : ∀ x c, w.points x = .exited → (w.world.state.cpus c).current = some x →
      w'.points x = .exited ∧ ¬ stopping x) : w'.Waking target := by
  obtain ⟨x, c, id, point, current⟩ := waking
  obtain ⟨after, goes⟩ := points x c point current
  have drifts := effect.tasks x goes fun inSlot => (effect.dead x inSlot).2 c current
  have still := effect.current c x (fun switches => busy c x switches current point) current
  exact ⟨x, c, drifts.id.trans id, after, still⟩

/-- Whoever is blocked after a step, and did not block in it, was blocked. -/
theorem Effect.blocked {s s' : State} (effect : Effect stopping migrating slot switching s s')
    (goes : ¬ stopping t) (blocked : (s'.tasks t).state = .blocked) :
    (s.tasks t).state = .blocked ∧ (s'.tasks t).waitChannel = (s.tasks t).waitChannel :=
  (effect.tasks t goes fun inSlot => effect.unblocked t inSlot blocked).blocked blocked

/-- A step in which no task moves on in the two functions. -/
theorem JoinWorld.Safe.effect (safe : w.Safe)
    (effect : Effect stopping migrating slot switching w.world.state w'.world.state)
    (busy : ∀ c x, switching c → (w.world.state.cpus c).current = some x → w.points x ≠ .exited)
    (stopped : ∀ x, stopping x → (∀ target, w.points x ≠ .waiting target) ∧
      w.points x ≠ .exited ∧ (w'.world.state.tasks x).Live)
    (points : ∀ x, w'.points x = w.points x ∨
      w'.points x = .outside ∧ ∀ c, (w.world.state.cpus c).current ≠ some x) : w'.Safe := by
  have before : ∀ x point, w'.points x = point → point ≠ .outside → w.points x = point := by
    intro x point after inside
    rcases points x with same | ⟨outside, -⟩
    · exact same.symm.trans after
    · exact absurd (after.symm.trans outside) inside
  refine ⟨fun t target point => ?_, fun t target point blocked channel => ?_⟩
  · exact (safe.checked t target (before t _ point nofun)).step effect
      fun x stops _ => (stopped x stops).2.2
  · have was := before t _ point nofun
    obtain ⟨wasBlocked, same⟩ :=
      effect.blocked (fun stops => (stopped t stops).1 target was) blocked
    rcases safe.waiting t target was wasBlocked (same.symm.trans channel) with present | waking
    · exact .inl (present.step effect fun x stops _ => (stopped x stops).2.2)
    · refine .inr (waking.step effect busy fun x c point current => ⟨?_, fun stops => ?_⟩)
      · rcases points x with same | ⟨-, idle⟩
        · exact same.trans point
        · exact absurd current (idle c)
      · exact (stopped x stops).2.1 point

/-- A task moves on in `scheduler_join_task`; from its check on, its target is
there. -/
theorem JoinWorld.Safe.goto {point : JoinPoint} (safe : w.Safe) (inside : w.points t ≠ .exited)
    (found : ∀ target, point = .checked target ∨ point = .waiting target → w.Present target) :
    (w.goto t point).Safe := by
  have others : ∀ u, u ≠ t → (w.goto t point).points u = w.points u :=
    fun u other => Function.update_of_ne other ..
  have here : (w.goto t point).points t = point := Function.update_self ..
  refine ⟨fun u target at_ => ?_, fun u target at_ blocked channel => ?_⟩
  · rcases eq_or_ne u t with rfl | other
    · exact found target (.inl (here.symm.trans at_))
    · exact safe.checked u target ((others u other).symm.trans at_)
  · rcases eq_or_ne u t with rfl | other
    · exact .inl (found target (.inr (here.symm.trans at_)))
    · rcases safe.waiting u target ((others u other).symm.trans at_) blocked channel with
        present | ⟨x, c, id, exited, current⟩
      · exact .inl present
      · refine .inr ⟨x, c, id, ?_, current⟩
        have away : x ≠ t := by
          rintro rfl
          exact inside exited
        exact (others x away).trans exited

/-- The running task becomes a zombie, and nobody is about to wait for it. -/
theorem JoinWorld.Safe.exit {m : World} {cpu : Nat} (safe : w.Safe)
    (effect : Effect (· = t) migrating slot switching w.world.state m.state)
    (still : ∀ c, ¬ switching c) (outside : w.points t = .outside)
    (current : (w.world.state.cpus cpu).current = some t)
    (quiet : ∀ u, w.points u ≠ .checked (w.world.state.tasks t).id) :
    (JoinWorld.goto ⟨m, w.points⟩ t .exited).Safe := by
  have others : ∀ u, u ≠ t → (JoinWorld.goto ⟨m, w.points⟩ t .exited).points u = w.points u :=
    fun u other => Function.update_of_ne other ..
  have here : (JoinWorld.goto ⟨m, w.points⟩ t .exited).points t = .exited :=
    Function.update_self ..
  have was : ∀ u point, (JoinWorld.goto ⟨m, w.points⟩ t .exited).points u = point →
      point ≠ .exited → u ≠ t ∧ w.points u = point := by
    intro u point at_ other
    have away : u ≠ t := by
      rintro rfl
      exact other (at_.symm.trans here)
    exact ⟨away, (others u away).symm.trans at_⟩
  refine ⟨fun u target at_ => ?_, fun u target at_ blocked channel => ?_⟩
  · obtain ⟨-, point⟩ := was u _ at_ nofun
    refine (safe.checked u target point).step effect fun x same id => ?_
    rw [← id, same] at point
    exact absurd point (quiet u)
  · obtain ⟨away, point⟩ := was u _ at_ nofun
    obtain ⟨wasBlocked, same⟩ := effect.blocked away blocked
    rcases safe.waiting u target point wasBlocked (same.symm.trans channel) with
      ⟨x, id, live⟩ | waking
    · rcases eq_or_ne x t with rfl | other
      · -- the target itself exits: it wakes its joiners next
        exact .inr ⟨x, cpu, (effect.stops x rfl).trans id, here,
          effect.current cpu x (still cpu) current⟩
      · have drifts := effect.tasks x other fun inSlot => (effect.dead x inSlot).1 live
        exact .inl ⟨x, drifts.id.trans id, drifts.live live⟩
    · refine .inr (waking.step effect (fun c _ switches => absurd switches (still c))
        fun x c exited _ => ?_)
      have other : x ≠ t := by
        rintro rfl
        rw [outside] at exited
        cases exited
      exact ⟨(others x other).trans exited, other⟩

/-- The zombie wakes every joiner. -/
theorem JoinWorld.Safe.wake {m : World} (safe : w.Safe)
    (effect : Effect stopping migrating slot switching w.world.state m.state)
    (goes : ∀ x, ¬ stopping x)
    (nobody : ∀ u, (m.state.tasks u).state = .blocked →
      (m.state.tasks u).waitChannel ≠ some schedulerJoinWaitChannelToken) :
    (JoinWorld.goto ⟨m, w.points⟩ t .woke).Safe := by
  refine ⟨fun u target at_ => ?_, fun u _ _ blocked channel => absurd channel (nobody u blocked)⟩
  have other : u ≠ t := by
    rintro rfl
    cases (Function.update_self u _ w.points).symm.trans at_
  have point : w.points u = .checked target := (Function.update_of_ne other ..).symm.trans at_
  exact (safe.checked u target point).step effect fun x stops _ => absurd stops (goes x)

/-! ## Steps -/

theorem JoinWorld.perform_eq {action : Action} {point : JoinPoint}
    (performed : w.perform action t point = some w') :
    ∃ m, w.world.step action = some m ∧ w' = JoinWorld.goto ⟨m, w.points⟩ t point := by
  obtain ⟨m, stepped, same⟩ := Option.map_eq_some_iff.mp performed
  exact ⟨m, stepped, same.symm⟩

/-- The locked part of a wait or a sleep leaves its task alive. -/
theorem World.stopped_live {m : World} {action : Action} {w : World} {x : TaskId}
    (stepped : w.step action = some m) (stops : action.Stops w.state x)
    (noExit : ∀ cpu, action ≠ .exitCurrent cpu) : (m.state.tasks x).Live := by
  have held : ∀ {r kind} {f : Task → Task}, (f (w.state.tasks x)).Live →
      ((taskListPushBack (w.state.setTask x f) r x kind).tasks x).Live := by
    intro r kind f live
    rw [taskListPushBack_same, State.setTask_same]
    exact live
  cases action with
  | sleep cpu ticks | waitChannel cpu channel timeoutTicks =>
      rw [World.step] at stepped
      split at stepped
      · cases stepped
      · obtain ⟨t, current, -, rfl⟩ := World.call_ok stepped
        cases current.symm.trans stops
        exact held ⟨by simp, by simp⟩
  | exitCurrent cpu => exact absurd rfl (noExit cpu)
  | _ => exact stops.elim

/-- The slot of a new task was current nowhere. -/
theorem World.Sound.starts_idle {m : World} {action : Action} {w : World} {x : TaskId}
    (sound : w.Sound contents held) (stepped : w.step action = some m)
    (starts : action.starts m.state = some x) (c : Nat) :
    (w.state.cpus c).current ≠ some x := by
  have first : ∀ {cpu}, action.boots w.state = some cpu →
      (m.state.cpus cpu).current = some x → (w.state.cpus c).current ≠ some x := by
    intro cpu boots new
    obtain ⟨t, booted⟩ := sound.booted stepped boots
    rw [booted.current, if_pos rfl] at new
    cases new
    exact sound.core.unused_idle booted.fresh c
  cases action with
  | bootstrapCurrent stackTop name =>
      obtain ⟨t, booted⟩ := sound.booted stepped rfl
      refine first rfl ?_
      rw [← booted.topology.bootCpuId]
      exact starts
  | bootstrapSecondary cpuId kernelStackTop name => exact first rfl starts
  | createEnqueue cpu t request space stack =>
      cases starts
      rw [World.step] at stepped
      split at stepped
      · cases stepped
      · next effective creating =>
          exact sound.core.unused_idle
            (sound.reserved x (sound.pending x effective creating).1) c
  | _ => cases starts

theorem JoinWorld.Quiet.calm {action : Action} (quiet : w.Quiet (.other action)) :
    w.world.Calm action := by
  cases action with
  | timerTick cpu frame => exact quiet.1
  | _ => trivial

theorem JoinWorld.Safe.other {action : Action} {m : World} (safe : w.Safe)
    (sound : w.world.Sound contents held) (quiet : w.Quiet (.other action))
    (permitted : w.Permits action) (stepped : w.world.step action = some m) :
    (JoinWorld.enrol ⟨m, w.points⟩ (action.starts m.state)).Safe := by
  obtain ⟨slot, effect⟩ := sound.effect quiet.calm stepped
  have world : (JoinWorld.enrol ⟨m, w.points⟩ (action.starts m.state)).world = m := by
    unfold JoinWorld.enrol
    split <;> rfl
  rw [← world] at effect
  refine safe.effect effect (fun c x switches current => ?_) (fun x stops => ?_) fun x => ?_
  · cases action with
    | timerTick cpu frame =>
        cases switches
        exact quiet.2 x current
    | yield cpu frame =>
        cases switches
        exact quiet x current
    | _ => exact switches.elim
  · have noExit : ∀ cpu, action ≠ .exitCurrent cpu := by
      rintro cpu rfl
      exact permitted
    have outside : w.points x = .outside := by
      cases action with
      | sleep cpu ticks | waitChannel cpu channel timeoutTicks => exact permitted x stops
      | exitCurrent cpu => exact absurd rfl (noExit cpu)
      | _ => exact stops.elim
    rw [world, outside]
    exact ⟨nofun, nofun, World.stopped_live stepped stops noExit⟩
  · cases starts : action.starts m.state with
    | none => exact .inl rfl
    | some u =>
        rcases eq_or_ne x u with rfl | other
        · exact .inr ⟨Function.update_self .., sound.starts_idle stepped starts⟩
        · exact .inl (Function.update_of_ne other ..)

/-- A critical section of a task at a known point, before the task moves on. -/
theorem JoinWorld.Safe.within {action : Action} {m : World} (safe : w.Safe)
    (effect : Effect (action.Stops w.world.state) migrating slot action.Switches w.world.state
      m.state)
    (stays : ∀ c, ¬ action.Switches c)
    (stopped : ∀ x, action.Stops w.world.state x → (∀ target, w.points x ≠ .waiting target) ∧
      w.points x ≠ .exited ∧ (m.state.tasks x).Live) :
    (JoinWorld.mk m w.points).Safe :=
  safe.effect effect (fun c _ switches => absurd switches (stays c)) stopped
    fun _ => .inl rfl

theorem JoinWorld.Safe.look (safe : w.Safe) (sound : w.world.Sound contents held)
    (at_ : w.points t = .looking target) :
    (∃ contents' held', (w.look t target).world.Sound contents' held') ∧
      (w.look t target).Safe := by
  have inside : w.points t ≠ .exited := by
    rw [at_]
    nofun
  unfold JoinWorld.look
  split
  · exact ⟨⟨contents, held, sound⟩, safe.goto inside (by simp)⟩
  · next found search =>
      split
      · split
        · next s resources joined =>
            have stepped : w.world.step (.joinTask target) = some { w.world with state := s } := by
              rw [World.step, joined]
            obtain ⟨slot, effect⟩ := sound.effect (by trivial) stepped
            have reaped := safe.within effect (fun _ => id) (fun _ => False.elim)
            exact ⟨sound.step (by trivial) stepped, reaped.goto inside (by simp)⟩
        · exact ⟨⟨contents, held, sound⟩, safe⟩
      · next alive =>
          have present : w.Present target := ⟨found, schedulerFindTaskById_id search,
            schedulerFindTaskById_live search, alive⟩
          refine ⟨⟨contents, held, sound⟩, safe.goto inside fun other same => ?_⟩
          rcases same with same | same <;> cases same
          exact present

theorem JoinWorld.Safe.wait {cpu channel timeoutTicks : Nat} {m : World} (safe : w.Safe)
    (sound : w.world.Sound contents held) (at_ : w.points t = .checked target)
    (current : schedulerCurrentTask w.world.state cpu = some t)
    (waited : w.world.step (.waitChannel cpu channel timeoutTicks) = some m) :
    (JoinWorld.goto ⟨m, w.points⟩ t (.waiting target)).Safe := by
  obtain ⟨slot, effect⟩ := sound.effect (by trivial) waited
  have blocks : (JoinWorld.mk m w.points).Safe := by
    refine safe.within effect (fun _ => id) fun x stops => ?_
    obtain rfl : t = x := Option.some.inj (current.symm.trans stops)
    rw [at_]
    exact ⟨nofun, nofun, World.stopped_live waited stops nofun⟩
  refine blocks.goto ?_ fun other same => ?_
  · rw [at_]
    nofun
  · rcases same with same | same <;> cases same
    exact blocks.checked t target at_

/-- **One step.** -/
theorem JoinWorld.Safe.step {action : JoinAction} (safe : w.Safe)
    (sound : w.world.Sound contents held) (quiet : w.Quiet action)
    (stepped : w.step action = some w') :
    (∃ contents' held', w'.world.Sound contents' held') ∧ w'.Safe := by
  cases action with
  | joinCall cpu taskId =>
      obtain ⟨t, -, rest⟩ := Option.bind_eq_some_iff.mp stepped
      split at rest
      · next outside =>
          split at rest
          · cases rest
            exact ⟨⟨contents, held, sound⟩, safe⟩
          · cases rest
            exact ⟨⟨contents, held, sound⟩, safe.goto (by simp [outside]) (by simp)⟩
      · cases rest
  | joinLook cpu =>
      obtain ⟨t, -, rest⟩ := Option.bind_eq_some_iff.mp stepped
      split at rest
      · next target at_ =>
          cases rest
          exact safe.look sound at_
      · cases rest
  | joinWait cpu =>
      obtain ⟨t, runs, rest⟩ := Option.bind_eq_some_iff.mp stepped
      split at rest
      · next target at_ =>
          obtain ⟨m, waited, rfl⟩ := JoinWorld.perform_eq rest
          exact ⟨sound.step (by trivial) waited,
            safe.wait sound at_ (World.runningOn_eq runs).1 waited⟩
      · cases rest
  | joinResume cpu =>
      obtain ⟨t, -, rest⟩ := Option.bind_eq_some_iff.mp stepped
      split at rest
      · next target at_ =>
          cases rest
          refine ⟨⟨contents, held, sound⟩, safe.goto (by simp [at_]) fun other same => ?_⟩
          split at same <;> rcases same with same | same <;> cases same
      · next target u at_ =>
          cases rest
          refine ⟨⟨contents, held, sound⟩, safe.goto (by simp [at_]) fun other same => ?_⟩
          split at same <;> rcases same with same | same <;> cases same
      · cases rest
  | exitMark cpu =>
      obtain ⟨t, runs, rest⟩ := Option.bind_eq_some_iff.mp stepped
      have current := (World.runningOn_eq runs).1
      split at rest
      · next outside =>
          obtain ⟨m, exited, rfl⟩ := JoinWorld.perform_eq rest
          obtain ⟨slot, effect⟩ := sound.effect (by trivial) exited
          have only : (Action.exitCurrent cpu).Stops w.world.state = (· = t) := by
            funext x
            simp [Action.Stops, current, eq_comm]
          rw [only] at effect
          exact ⟨sound.step (by trivial) exited,
            safe.exit effect (fun _ => id) outside current (quiet t current)⟩
      · cases rest
  | exitWake cpu =>
      obtain ⟨t, -, rest⟩ := Option.bind_eq_some_iff.mp stepped
      split at rest
      · obtain ⟨m, woken, rfl⟩ := JoinWorld.perform_eq rest
        obtain ⟨slot, effect⟩ := sound.effect (by trivial) woken
        refine ⟨sound.step (by trivial) woken, safe.wake effect (fun _ => id) fun u blocked => ?_⟩
        rw [World.step] at woken
        split at woken
        · cases woken
        · next woke =>
            cases woken
            exact schedulerWakeChannel_all sound.core sound.reserved woke u blocked
      · cases rest
  | other action =>
      rw [JoinWorld.step] at stepped
      split at stepped
      · next permitted =>
          obtain ⟨m, acted, rfl⟩ := Option.map_eq_some_iff.mp stepped
          have world : (JoinWorld.enrol ⟨m, w.points⟩ (action.starts m.state)).world = m := by
            unfold JoinWorld.enrol
            split <;> rfl
          rw [world]
          exact ⟨sound.step quiet.calm acted, safe.other sound quiet permitted acted⟩
      · cases stepped

end

/-- **No lost join wakeup.**  Over any topology and any interleaving in which no
task exits in a joiner's gap, none is interrupted in its own, nobody is moved
between the two reads for the current task, and the balancer is calm, no joiner
is left blocked behind a task that is gone. -/
theorem join_wakeup_not_lost {spaces : Paging.AddressSpaces} {smpAvailable : Bool}
    {config : TopologyConfig} {start : JoinWorld} {w : Reading JoinWorld}
    {steps : List (ReadStep JoinAction)}
    (started : JoinWorld.start spaces smpAvailable config = some start)
    (quiet : joinCallers.Along JoinWorld.Quiet (.start start) steps)
    (ran : joinCallers.readRun (.start start) steps = some w) : ¬ w.inner.Lost := by
  obtain ⟨world, begun, rfl⟩ := Option.map_eq_some_iff.mp started
  obtain ⟨contents, sound⟩ := World.start_sound begun
  have safe : (JoinWorld.mk world fun _ => .outside).Safe := ⟨nofun, nofun⟩
  obtain ⟨⟨contents', held', after⟩, ended⟩ := Callers.invariant (c := joinCallers)
    (I := fun w => (∃ contents held, w.world.Sound contents held) ∧ w.Safe)
    (by rintro _ _ _ ⟨⟨_, _, sound⟩, safe⟩ quiet stepped; exact safe.step sound quiet stepped)
    (Callers.honest_start _) quiet ran ⟨⟨_, _, sound⟩, safe⟩
  exact ended.not_lost after

/-! ## One CPU -/

/-- A task is created in slot `t`. -/
def spawn (t stack : Nat) : List JoinAction :=
  [.other (.createReserve 0 (taskFor 1).config),
    .other (.createEnqueue 0 (TaskId.ofNat t) (taskFor 1) 0 stack)]

/-- The bootstrap task (id 1) joins a new task (id 2) and finds it alive. -/
def joinFirst : List JoinAction :=
  [.other (.bootstrapCurrent 0x9000 none)] ++ spawn 1 0x100000 ++ spawn 2 0x110000 ++
    [.joinCall 0 2, .joinLook 0]

/-- The joiner waits and lets the other task run. -/
def joinBlocks : List JoinAction :=
  joinFirst ++ [.joinWait 0] ++ [.other (.yield 0 0x8F00)]

/-- The other task exits and wakes it. -/
def joinWoken : List JoinAction :=
  joinBlocks ++ [.exitMark 0, .exitWake 0]

theorem join_wakeup_not_lost_joinWoken :
    ∃ start w, JoinWorld.start kernelOnly false oneCpu = some start ∧
      joinCallers.Along JoinWorld.Quiet (.start start) (joinCallers.whole joinWoken) ∧
      joinCallers.readRun (.start start) (joinCallers.whole joinWoken) = some w ∧
      (w.inner.world.state.tasks 0).state = .runnable ∧ ¬ w.inner.Lost := by
  have whole : ((JoinWorld.start kernelOnly false oneCpu).bind fun start =>
      joinCallers.readRun (.start start) (joinCallers.whole joinWoken)).map
        (fun w => (w.inner.world.state.tasks 0).state) = some .runnable := by
    decide +kernel
  have blocks : ((JoinWorld.start kernelOnly false oneCpu).bind fun start =>
      joinCallers.readRun (.start start) (joinCallers.whole (joinFirst ++ [.joinWait 0]))).map
        (fun w => decide (∀ t, w.inner.points t ≠ .exited)) = some true := by
    decide +kernel
  have exits : ((JoinWorld.start kernelOnly false oneCpu).bind fun start =>
      joinCallers.readRun (.start start) (joinCallers.whole joinBlocks)).map
        (fun w => decide (∀ t u, w.inner.points u ≠
          .checked (w.inner.world.state.tasks t).id)) = some true := by
    decide +kernel
  obtain ⟨w, ran, woken⟩ := Option.map_eq_some_iff.mp whole
  obtain ⟨start, started, ran⟩ := Option.bind_eq_some_iff.mp ran
  rw [started, Option.bind_some] at blocks exits
  have quietBlocks : joinCallers.Along JoinWorld.Quiet (.start start)
      (joinCallers.whole joinBlocks) := by
    change joinCallers.Along JoinWorld.Quiet (.start start)
      (joinCallers.whole (joinFirst ++ [.joinWait 0]) ++ [.act (.other (.yield 0 0x8F00))])
    refine Callers.along_append_iff.mpr
      ⟨Callers.along_whole ?_ _, fun m before => ⟨fun t _ => ?_, fun _ _ => trivial⟩⟩
    · simp [joinFirst, spawn, JoinWorld.Quiet]
    · rw [before, Option.map_some, Option.some.injEq, decide_eq_true_eq] at blocks
      exact blocks t
  have quiet : joinCallers.Along JoinWorld.Quiet (.start start)
      (joinCallers.whole joinWoken) := by
    change joinCallers.Along JoinWorld.Quiet (.start start)
      (joinCallers.whole joinBlocks ++ [.act (.exitMark 0), .act (.exitWake 0)])
    refine Callers.along_append_iff.mpr
      ⟨quietBlocks, fun m before => ⟨fun t _ => ?_, fun _ _ => ⟨trivial, fun _ _ => trivial⟩⟩⟩
    rw [before, Option.map_some, Option.some.injEq, decide_eq_true_eq] at exits
    exact exits t
  exact ⟨start, w, started, quiet, ran, woken, join_wakeup_not_lost started quiet ran⟩

/-- The joiner is preempted after its check; its target exits, wakes nobody and
leaves the CPU; then the joiner waits. -/
def exitInJoinGap : List JoinAction :=
  joinFirst ++ List.replicate 5 (.other (.timerTick 0 0x8F00)) ++
    [.exitMark 0, .exitWake 0, .other (.yield 0 0x103000), .other (.yield 0 0x113000),
      .joinWait 0]

/-- The joiner waits; its target is preempted as a zombie. -/
def tickInExitGap : List JoinAction :=
  joinBlocks ++ [.exitMark 0, .other (.timerTick 0 0x103000)]

/-- What is left of the second task and of the first task's wait. -/
def JoinWorld.stuck (t : TaskId) (w : JoinWorld) : Bool :=
  w.points t = .waiting 2 && (w.world.state.tasks t).state = .blocked &&
    (w.world.state.tasks t).waitChannel = some schedulerJoinWaitChannelToken &&
    (w.world.state.tasks t).wakeupTick = 0 &&
    (List.finRange 32).all fun x => (w.world.state.tasks x).id ≠ 2 ||
      ((w.world.state.tasks x).state = .unused || (w.world.state.tasks x).state = .zombie) &&
        (w.points x ≠ .exited || !schedulerTaskIsCurrentOnAnyCpuLocked w.world.state x)

theorem JoinWorld.lost_of_stuck {w : JoinWorld} {t : TaskId} (stuck : w.stuck t) : w.Lost := by
  simp only [JoinWorld.stuck, Bool.and_eq_true, decide_eq_true_eq, List.all_eq_true,
    List.mem_finRange, true_implies, Bool.or_eq_true, Bool.not_eq_true', ne_eq] at stuck
  obtain ⟨⟨⟨⟨point, blocked⟩, channel⟩, deadline⟩, tasks⟩ := stuck
  refine ⟨t, 2, point, blocked, channel, deadline, ?_, ?_⟩
  · rintro ⟨x, id, live⟩
    rcases tasks x with other | ⟨state | state, -⟩
    · exact other id
    · exact live.1 state
    · exact live.2 state
  · rintro ⟨x, id, exited, current⟩
    rcases tasks x with other | ⟨-, out | nowhere⟩
    · exact other id
    · exact out exited
    · rw [nowhere] at current
      cases current

/-- On one CPU, each of the two gaps loses the wakeup. -/
theorem join_wakeup_lost :
    ∃ start, JoinWorld.start kernelOnly false oneCpu = some start ∧
      (∃ w, joinCallers.readRun (.start start) (joinCallers.whole exitInJoinGap) = some w ∧
        w.inner.Lost) ∧
      ∃ w, joinCallers.readRun (.start start) (joinCallers.whole tickInExitGap) = some w ∧
        w.inner.Lost := by
  have first : ((JoinWorld.start kernelOnly false oneCpu).bind fun start =>
      joinCallers.readRun (.start start) (joinCallers.whole exitInJoinGap)).map
        (·.inner.stuck 0) = some true := by
    decide +kernel
  have second : ((JoinWorld.start kernelOnly false oneCpu).bind fun start =>
      joinCallers.readRun (.start start) (joinCallers.whole tickInExitGap)).map
        (·.inner.stuck 0) = some true := by
    decide +kernel
  obtain ⟨w, ran, stuck⟩ := Option.map_eq_some_iff.mp first
  obtain ⟨start, started, ran⟩ := Option.bind_eq_some_iff.mp ran
  rw [started, Option.bind_some] at second
  obtain ⟨v, ranSecond, stuckSecond⟩ := Option.map_eq_some_iff.mp second
  exact ⟨start, started, ⟨w, ran, JoinWorld.lost_of_stuck stuck⟩,
    v, ranSecond, JoinWorld.lost_of_stuck stuckSecond⟩

end Dfos.Scheduler
