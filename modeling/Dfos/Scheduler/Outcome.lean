import Dfos.Scheduler.Consistency
import Dfos.Scheduler.Drift
import Dfos.Scheduler.OneCpu

/-!
# What a step comes from

Every step of the interleaving is the critical section or interrupt it names,
with the facts that come with it under the invariant: an `Outcome`.  What the
later modules say of a step, they say of its outcome.
-/

namespace Dfos.Scheduler

open Dfos.Lib

/-- The CPU that a step gives its first task. -/
def Action.boots (s : State) : Action → Option Nat
  | .bootstrapCurrent _ _ => some s.bootCpuId
  | .bootstrapSecondary cpu _ _ => some cpu
  | _ => none

/-- The CPU whose current task takes itself off it. -/
def Action.stopsOn : Action → Option Nat
  | .sleep cpu _ => some cpu
  | .waitChannel cpu _ _ => some cpu
  | .exitCurrent cpu => some cpu
  | _ => none

/-- The steps that give out an id. -/
def Action.isCreation : Action → Bool
  | .bootstrapCurrent _ _ => true
  | .bootstrapSecondary _ _ _ => true
  | .createEnqueue _ _ _ _ _ => true
  | _ => false

/-- What the critical section leaves for `scheduler_cleanup_reaped_resources`.  A
join returns true if it leaves anything. -/
def Action.cleanup (s : State) : Action → Option ReapResources
  | .joinTask taskId => (joinLocked s taskId).2
  | .reapZombie => (reapLocked s).bind Prod.snd
  | _ => none

/-- The id a join asks for. -/
def Action.target : Action → Option Nat
  | .joinTask taskId => some taskId
  | _ => none

/-! ## New tasks -/

/-- A task with a new id in the slot `t`. -/
structure Starts (s s' : State) (t : TaskId) : Prop where
  nextTaskId : s'.nextTaskId = u32Add s.nextTaskId 1
  fresh : (s.tasks t).state = .unused
  ready : (s'.tasks t).Ready
  id : (s'.tasks t).id = s.nextTaskId
  others : ∀ u, u ≠ t → s'.tasks u = s.tasks u

section

variable {s s' : State} {t : TaskId} {contents : ListRef → List TaskId} {held : Finset TaskId}

theorem schedulerAllocateTaskSlot_nextTaskId (s : State) :
    (schedulerAllocateTaskSlot s).1.nextTaskId = s.nextTaskId := by
  unfold schedulerAllocateTaskSlot taskListPopFront
  cases (s.lists .free).head <;> rfl

theorem schedulerAllocateTaskSlot_clock (s : State) :
    (schedulerAllocateTaskSlot s).1.systemTicks = s.systemTicks := by
  unfold schedulerAllocateTaskSlot taskListPopFront
  cases (s.lists .free).head <;> rfl

theorem createReserve_nextTaskId (s : State) (executing : Nat) (config : TaskConfig) :
    (createReserve s executing config).1.nextTaskId = s.nextTaskId := by
  have kept := schedulerAllocateTaskSlot_nextTaskId s
  unfold createReserve
  split
  · rfl
  · dsimp only
    split <;> next taken => rwa [taken] at kept

theorem createEnqueue_starts {effective : TaskConfig} (core : Core s contents held)
    (inHand : t ∈ held) (unused : (s.tasks t).state = .unused) (checked : Effective s effective)
    (executing : Nat) (request : TaskRequest) (space stack : Nat) :
    Starts s (createEnqueue s executing request effective t space stack).1 t := by
  obtain ⟨-, slot, state, -⟩ :=
    createEnqueue_core core inHand unused checked executing request space stack
  have filled : (createEnqueue s executing request effective t space stack).1.nextTaskId =
        u32Add s.nextTaskId 1 ∧
      ((createEnqueue s executing request effective t space stack).1.tasks t).id =
        s.nextTaskId := by
    unfold createEnqueue at state ⊢
    split at state
    · rw [schedulerReleaseTaskSlot_unused] at state
      cases state
    · next configured =>
        rw [if_neg configured]
        dsimp only
        generalize schedulerCpuById s _ = cpu
        have drift : Drift (fun _ => False) (s.fillSlot t (createdTask s request effective cpu
            space stack)) _ := schedulerCpuEnqueueRunnable_drift _ executing cpu t .reschedule
        refine ⟨drift.nextTaskId, (drift.tasks t).id.trans ?_⟩
        rw [fillSlot_task]
        rfl
  exact ⟨filled.1, unused, Or.inl state, filled.2, slot.others⟩

/-- The attached task has the next id. -/
theorem schedulerBootstrapCpuTask_id {cpu kernelStackTop : Nat} {name : Option String}
    (attached : schedulerBootstrapCpuTask s cpu kernelStackTop name = (s', some t)) :
    s'.nextTaskId = u32Add s.nextTaskId 1 ∧ (s'.tasks t).id = s.nextTaskId ∧
      (s'.cpus cpu).current = some t ∧ s'.systemTicks = s.systemTicks := by
  have kept := schedulerAllocateTaskSlot_nextTaskId s
  have clock := schedulerAllocateTaskSlot_clock s
  unfold schedulerBootstrapCpuTask at attached
  split at attached
  · cases attached
  split at attached
  · cases attached
  split at attached
  · cases attached
  · next m u taken =>
      rw [taken] at kept clock
      obtain ⟨rfl, same⟩ := Prod.mk.inj attached
      obtain rfl := Option.some.inj same
      refine ⟨congrArg (u32Add · 1) kept, ?_, ?_, clock⟩
      · exact (congrArg Task.id (fillSlot_task m u _)).trans kept
      · rw [State.setCpu_same]

theorem schedulerBootstrapCurrent_starts {stackTop : Nat} {name : Option String}
    (started : schedulerBootstrapCurrent s stackTop name = .ok s')
    (booted : Booted s s' s.bootCpuId t) :
    Starts s s' t ∧ s'.systemTicks = s.systemTicks := by
  unfold schedulerBootstrapCurrent at started
  split at started
  · cases started
  split at started
  · cases started
  split at started
  · cases started
  · next m u attached =>
      obtain ⟨next, id, seat, clock⟩ := schedulerBootstrapCpuTask_id attached
      cases started
      have here := booted.current s.bootCpuId
      rw [if_pos rfl] at here
      obtain rfl := Option.some.inj (seat.symm.trans here)
      refine ⟨⟨next, booted.fresh, Or.inr booted.running, ?_, booted.others⟩, clock⟩
      have same := State.setTask_same m u fun v => { v with space := m.spaces.currentSpace }
      exact (congrArg Task.id same).trans id

theorem schedulerBootstrapSecondaryCurrent_starts {cpu kernelStackTop : Nat}
    {name : Option String}
    (started : schedulerBootstrapSecondaryCurrent s cpu kernelStackTop name = (s', true))
    (booted : Booted s s' cpu t) : Starts s s' t ∧ s'.systemTicks = s.systemTicks := by
  unfold schedulerBootstrapSecondaryCurrent at started
  split at started
  · cases started
  split at started
  · cases started
  split at started
  · cases started
  split at started
  · cases started
  · next m u attached =>
      obtain ⟨next, id, seat, clock⟩ := schedulerBootstrapCpuTask_id attached
      cases started
      have here := booted.current cpu
      rw [if_pos rfl] at here
      obtain rfl := Option.some.inj (seat.symm.trans here)
      exact ⟨⟨next, booted.fresh, Or.inr booted.running, id, booted.others⟩, clock⟩

/-! ## Interrupts -/

/-- What an interrupt on `cpu` leaves: no slot comes to life, and if the other
CPUs ran their current tasks then all do. -/
structure Turned (cpu : Nat) (s s' : State) : Prop where
  topology : SameTopology s s'
  unused : ∀ t, (s'.tasks t).state = .unused ↔ (s.tasks t).state = .unused
  busy : RunningBut s cpu → Busy s'

theorem schedule_turned {executing cpu : Nat} {frame : Option Nat} {r : State × Option Nat}
    (core : Core s contents held) (reserved : Reserved s held) (online : (s.cpus cpu).online)
    (scheduled : schedulerScheduleCpu s executing cpu frame true = .ok r) : Turned cpu s r.1 := by
  rcases schedulerScheduleCpu_core core reserved online executing frame with
    ⟨id, panics⟩ | ⟨s', next, contents', switched, -, dispatched⟩
  · cases panics.symm.trans scheduled
  · cases switched.symm.trans scheduled
    refine ⟨(saveFrame_topology s cpu frame).trans dispatched.topology, fun t => ?_,
      dispatched.busy core⟩
    rw [dispatched.unused, saveFrame_state]

theorem charge_state (s : State) (t u : TaskId) :
    ((charge s t).tasks u).state = (s.tasks u).state := by
  unfold charge
  rcases eq_or_ne u t with rfl | other
  · rw [State.setTask_same]
  · rw [State.setTask_other s _ other]

theorem tickCurrent_turned {cpu : Nat} {frame : Option Nat} {r : State × Option Nat}
    (core : Core s contents held) (reserved : Reserved s held) (online : (s.cpus cpu).online)
    (ticked : tickCurrent s cpu frame = .ok r) : Turned cpu s r.1 := by
  have cases' := tickCurrent_cases s cpu frame
  rw [core.topology.currentCpu_eq online] at cases'
  rcases cases' with scheduled | ⟨t, current, running, charged⟩
  · rw [scheduled] at ticked
    exact schedule_turned core reserved online ticked
  · obtain ⟨coreC, stirs⟩ := charge_core core t
    rcases charged with scheduled | resumed
    · rw [scheduled] at ticked
      have turned := schedule_turned coreC (stirs.reserved reserved) online ticked
      refine ⟨stirs.topology.trans turned.topology,
        fun u => (turned.unused u).trans (stirs.unused u), fun others => turned.busy ?_⟩
      intro c u away now
      rw [charge_state]
      exact others c u away now
    · rw [resumed] at ticked
      cases ticked
      refine ⟨stirs.topology.trans (saveFrame_topology ..), fun u => ?_,
        fun others c u now => ?_⟩
      · rw [saveFrame_state, charge_state]
      · rw [saveFrame_cpus] at now
        rw [saveFrame_state, charge_state]
        rcases eq_or_ne c cpu with rfl | away
        · obtain rfl := Option.some.inj (current.symm.trans now)
          exact running
        · exact others c u away now

/-! ## Detaching a zombie -/

theorem schedulerDetachZombieTaskLocked_reaped {resources : ReapResources}
    (core : Core s contents held)
    (detached : schedulerDetachZombieTaskLocked s t = some (s', resources)) :
    Reaped s s' t ∧ (s'.tasks t).listKind = .free ∧ s'.nextTaskId = s.nextTaskId ∧
      resources = ⟨(s.tasks t).stackBase, (s.tasks t).space⟩ := by
  rcases schedulerDetachZombieTaskLocked_core core t with kept | ⟨_, _, gone, -, reaped⟩
  · cases kept.symm.trans detached
  cases gone.symm.trans detached
  unfold schedulerDetachZombieTaskLocked at detached
  split at detached
  · cases detached
  split at detached
  · cases detached
  cases detached
  refine ⟨reaped, ?_, rfl, ?_⟩
  · rw [schedulerReleaseTaskSlot, taskListPushBack_same]
  · rw [taskListRemove_same]

end

/-! ## Steps -/

/-- The step from `w` to the state `s'`, by what was called. -/
inductive Outcome (w : World) (held : Finset TaskId) (s' : State) : Action → Prop where
  | boots {action : Action} {cpu : Nat} {t : TaskId} (boots : action.boots w.state = some cpu)
      (booted : Booted w.state s' cpu t) (starts : Starts w.state s' t)
      (clock : s'.systemTicks = w.state.systemTicks) : Outcome w held s' action
  | creates {cpu : Nat} {t : TaskId} {request : TaskRequest} {space stack : Nat}
      (slot : OnlySlot t w.state s') (starts : Starts w.state s' t) :
      Outcome w held s' (.createEnqueue cpu t request space stack)
  /-- A free slot is taken off the free list, or given back unfilled. -/
  | slot {action : Action} {t : TaskId}
      (slot : (∃ cpu config, action = .createReserve cpu config) ∨ action = .createRelease t)
      (only : OnlySlot t w.state s') (before : (w.state.tasks t).state = .unused)
      (after : (s'.tasks t).state = .unused) (nextTaskId : s'.nextTaskId = w.state.nextTaskId) :
      Outcome w held s' action
  | ticks {cpu frame : Nat} {m : State} {queues : ListRef → List TaskId} {resumed : Option Nat}
      (timers : tickTimers w.state cpu = .ok m) (core : Core m queues held)
      (stirs : Stirs (TickMoves w.state) w.state m)
      (clock : m.systemTicks = w.state.countTick.systemTicks) (online : (m.cpus cpu).online)
      (ticked : tickCurrent m cpu (some frame) = .ok (s', resumed)) :
      Outcome w held s' (.timerTick cpu frame)
  | yields {cpu frame : Nat} {resumed : Option Nat} (online : (w.state.cpus cpu).online)
      (scheduled : schedulerScheduleCpu w.state cpu cpu (some frame) true = .ok (s', resumed)) :
      Outcome w held s' (.yield cpu frame)
  /-- A running task puts itself on a list, as a zombie if it exits. -/
  | stops {action : Action} {cpu : Nat} {t : TaskId} {r : ListRef} {f : Task → Task}
      {kind : ListKind} (stops : action.stopsOn = some cpu)
      (current : schedulerCurrentTask w.state cpu = some t)
      (running : (w.state.tasks t).state = .running) (id : (f (w.state.tasks t)).id = (w.state.tasks t).id)
      (rests : (f (w.state.tasks t)).state = .sleeping ∨ (f (w.state.tasks t)).state = .blocked ∨
        (f (w.state.tasks t)).state = .zombie ∧ action = .exitCurrent cpu)
      (moved : s' = taskListPushBack (w.state.setTask t f) r t kind) : Outcome w held s' action
  | wakes {cpu channel maxCount count : Nat}
      (woke : schedulerWakeChannel w.state cpu (some channel) maxCount = some (s', count))
      (moves : Moves (Waiting w.state) w.state s') :
      Outcome w held s' (.wakeChannel cpu channel maxCount)
  | changes {cpu taskId priority : Nat}
      (changed : s' = (schedulerSetTaskPriority w.state cpu taskId priority).1) :
      Outcome w held s' (.setTaskPriority cpu taskId priority)
  | reaps {action : Action} {t : TaskId} {resources : ReapResources}
      (hands : action.cleanup w.state = some resources)
      (asked : ∀ taskId, action.target = some taskId → (w.state.tasks t).id = taskId)
      (detached : schedulerDetachZombieTaskLocked w.state t = some (s', resources))
      (reaped : Reaped w.state s' t) : Outcome w held s' action
  | looks {action : Action}
      (looks : (∃ taskId, action = .joinTask taskId) ∨ action = .reapZombie)
      (hands : action.cleanup w.state = none) (same : s' = w.state) : Outcome w held s' action

section

variable {w w' : World} {contents : ListRef → List TaskId} {held : Finset TaskId}

/-- What an interrupt's handler returned, and the resumption it noted. -/
theorem World.interrupt_ok {cpu frame : Nat} {handled : Except Fault (State × Option Nat)}
    (interrupted : w.interrupt cpu frame handled = some w') :
    ∃ resumed, handled = .ok (w'.state, resumed) ∧
      ∀ next, (w'.state.cpus cpu).current = some next → ∃ before,
        w'.resumptions = ⟨cpu, next, resumed, before⟩ :: w.resumptions := by
  unfold World.interrupt at interrupted
  cases handled with
  | error _ => cases interrupted
  | ok r =>
      cases interrupted
      refine ⟨r.2, rfl, fun next current => ⟨suspend w.state w.suspended cpu frame next, ?_⟩⟩
      dsimp only at current ⊢
      rw [current]

theorem World.bootstrapped_state (s : State) (task : Option TaskId) :
    (w.bootstrapped s task).state = s := by
  cases task <;> rfl

theorem World.runningOn_eq {cpu : Nat} {t : TaskId} (runs : w.runningOn cpu = some t) :
    schedulerCurrentTask w.state cpu = some t ∧ (w.state.tasks t).state = .running := by
  unfold World.runningOn at runs
  simpa using Option.filter_eq_some_iff.mp runs

theorem World.call_ok {cpu : Nat} {section_ : TaskId → State}
    (called : w.call cpu section_ = some w') :
    ∃ t, schedulerCurrentTask w.state cpu = some t ∧ (w.state.tasks t).state = .running ∧
      w' = { w with state := section_ t } := by
  unfold World.call at called
  split at called
  · cases called
  · next t current =>
      split at called
      · next running => exact ⟨t, current, running, (Option.some.inj called).symm⟩
      · cases called

theorem World.call_outcome {action : Action} {cpu : Nat} {section_ : TaskId → State} {r : ListRef}
    {f : Task → Task} (kind : ListKind) (stops : action.stopsOn = some cpu)
    (called : w.call cpu section_ = some w')
    (does : ∀ t, section_ t = taskListPushBack (w.state.setTask t f) r t kind)
    (id : ∀ t, (f t).id = t.id)
    (rests : ∀ t, (f t).state = .sleeping ∨ (f t).state = .blocked ∨
      (f t).state = .zombie ∧ action = .exitCurrent cpu) : Outcome w held w'.state action := by
  obtain ⟨t, current, running, rfl⟩ := World.call_ok called
  exact .stops stops current running (id _) (rests _) (does t)

section

variable (sound : w.Sound contents held)
include sound

theorem joinLocked_outcome (taskId : Nat) :
    Outcome w held (joinLocked w.state taskId).1 (.joinTask taskId) := by
  have looks : (Action.joinTask taskId).cleanup w.state = (joinLocked w.state taskId).2 := rfl
  cases search : schedulerFindTaskById w.state taskId with
  | none =>
      have missed : joinLocked w.state taskId = (w.state, none) := by
        unfold joinLocked
        rw [search]
      rw [missed] at looks ⊢
      exact .looks (Or.inl ⟨taskId, rfl⟩) looks rfl
  | some t =>
      cases detached : schedulerDetachZombieTaskLocked w.state t with
      | none =>
          have waits : joinLocked w.state taskId = (w.state, none) := by
            unfold joinLocked
            rw [search]
            dsimp only
            rw [detached]
          rw [waits] at looks ⊢
          exact .looks (Or.inl ⟨taskId, rfl⟩) looks rfl
      | some gone =>
          have joined : joinLocked w.state taskId = (gone.1, some gone.2) := by
            unfold joinLocked
            rw [search]
            dsimp only
            rw [detached]
          rw [joined] at looks ⊢
          refine .reaps looks (fun asked same => ?_) detached
            (schedulerDetachZombieTaskLocked_reaped sound.core detached).1
          rw [← Option.some.inj same]
          exact schedulerFindTaskById_id search

/-- The two halves of a tick. -/
theorem World.Sound.timerTick_ok {cpu frame : Nat}
    (calm : w.Calm (.timerTick cpu frame)) (stepped : w.step (.timerTick cpu frame) = some w') :
    ∃ m queues resumed, tickTimers w.state cpu = .ok m ∧ Core m queues held ∧
      Stirs (TickMoves w.state) w.state m ∧ m.systemTicks = w.state.countTick.systemTicks ∧
      (m.cpus cpu).online ∧ tickCurrent m cpu (some frame) = .ok (w'.state, resumed) ∧
      ∀ next, (w'.state.cpus cpu).current = some next → ∃ before,
        w'.resumptions = ⟨cpu, next, resumed, before⟩ :: w.resumptions := by
  rw [World.step] at stepped
  split at stepped
  · next online =>
      obtain ⟨resumed, ticked, pushed⟩ := World.interrupt_ok stepped
      obtain ⟨m, timers, ⟨queues, core⟩, stirs, clock⟩ := tickTimers_timed sound.core calm
      unfold schedulerOnTimerTick at ticked
      rw [timers] at ticked
      exact ⟨m, queues, resumed, timers, core, stirs, clock, by rwa [stirs.topology.online], ticked,
        pushed⟩
  · cases stepped

theorem World.Sound.yield_ok {cpu frame : Nat}
    (stepped : w.step (.yield cpu frame) = some w') :
    ∃ resumed, (w.state.cpus cpu).online ∧
      schedulerScheduleCpu w.state cpu cpu (some frame) true = .ok (w'.state, resumed) ∧
      ∀ next, (w'.state.cpus cpu).current = some next → ∃ before,
        w'.resumptions = ⟨cpu, next, resumed, before⟩ :: w.resumptions := by
  rw [World.step] at stepped
  split at stepped
  · next online =>
      obtain ⟨resumed, yielded, pushed⟩ := World.interrupt_ok stepped
      unfold schedulerOnYield at yielded
      rw [sound.core.topology.currentCpu_eq online] at yielded
      exact ⟨resumed, online, yielded, pushed⟩
  · cases stepped

/-- **Every step has its outcome.** -/
theorem World.Sound.outcome {action : Action}
    (calm : w.Calm action) (stepped : w.step action = some w') :
    Outcome w held w'.state action := by
  cases action with
  | bootstrapCurrent stackTop name =>
      rw [World.step] at stepped
      rcases schedulerBootstrapCurrent_core sound.core stackTop name with
        ⟨reason, panics⟩ | ⟨s, t, started, -, booted, -⟩
      · rw [panics] at stepped
        cases stepped
      · rw [started] at stepped
        cases stepped
        rw [World.bootstrapped_state]
        obtain ⟨starts, clock⟩ := schedulerBootstrapCurrent_starts started booted
        exact .boots rfl booted starts clock
  | bootstrapSecondary cpu kernelStackTop name =>
      rw [World.step] at stepped
      rcases schedulerBootstrapSecondaryCurrent_core sound.core cpu kernelStackTop name with
        refused | ⟨s, t, started, -, booted, -⟩
      · rw [refused] at stepped
        cases stepped
      · rw [started] at stepped
        cases stepped
        rw [World.bootstrapped_state]
        obtain ⟨starts, clock⟩ := schedulerBootstrapSecondaryCurrent_starts started booted
        exact .boots rfl booted starts clock
  | createReserve cpu config =>
      have kept := createReserve_nextTaskId w.state cpu config
      rw [World.step] at stepped
      rcases createReserve_core sound.core cpu config with
        full | ⟨s, t, effective, node, taken, -, -, slot, before, after, -⟩
      · rw [full] at stepped
        cases stepped
      · rw [taken] at stepped kept
        cases stepped
        exact .slot (Or.inl ⟨cpu, config, rfl⟩) slot before after kept
  | createEnqueue cpu t request space stack =>
      rw [World.step] at stepped
      cases creating : w.pending t with
      | none =>
          rw [creating] at stepped
          cases stepped
      | some effective =>
          rw [creating] at stepped
          cases stepped
          obtain ⟨inHand, checked⟩ := sound.pending t effective creating
          have unused := sound.reserved t inHand
          obtain ⟨-, slot, -, -⟩ :=
            createEnqueue_core sound.core inHand unused checked cpu request space stack
          exact .creates slot
            (createEnqueue_starts sound.core inHand unused checked cpu request space stack)
  | createRelease t =>
      rw [World.step] at stepped
      cases creating : w.pending t with
      | none =>
          rw [creating] at stepped
          cases stepped
      | some effective =>
          rw [creating] at stepped
          cases stepped
          exact .slot (Or.inr rfl) (schedulerReleaseTaskSlot_onlySlot w.state t)
            (sound.reserved t (sound.pending t effective creating).1)
            (schedulerReleaseTaskSlot_unused ..) rfl
  | timerTick cpu frame =>
      obtain ⟨m, queues, resumed, timers, core, stirs, clock, online, ticked, -⟩ :=
        sound.timerTick_ok calm stepped
      exact .ticks timers core stirs clock online ticked
  | yield cpu frame =>
      obtain ⟨resumed, online, scheduled, -⟩ := sound.yield_ok stepped
      exact .yields online scheduled
  | sleep cpu ticks =>
      rw [World.step] at stepped
      split at stepped
      · cases stepped
      · exact World.call_outcome .sleeping rfl stepped (fun _ => rfl) (fun _ => rfl)
          fun _ => by exact Or.inl rfl
  | waitChannel cpu channel timeoutTicks =>
      rw [World.step] at stepped
      split at stepped
      · cases stepped
      · exact World.call_outcome .blocked rfl stepped (fun _ => rfl) (fun _ => rfl)
          fun _ => by exact Or.inr (Or.inl rfl)
  | exitCurrent cpu =>
      exact World.call_outcome .zombie rfl stepped (fun _ => rfl) (fun _ => rfl)
        fun _ => by exact Or.inr (Or.inr ⟨rfl, rfl⟩)
  | wakeChannel cpu channel maxCount =>
      rw [World.step] at stepped
      obtain ⟨r, woke, -, moves⟩ := schedulerWakeChannel_core sound.core cpu (some channel) maxCount
      rw [woke] at stepped
      cases stepped
      exact .wakes woke moves
  | setTaskPriority cpu taskId priority =>
      cases stepped
      exact .changes rfl
  | joinTask taskId =>
      cases stepped
      exact joinLocked_outcome sound taskId
  | reapZombie =>
      have looks : Action.reapZombie.cleanup w.state = (reapLocked w.state).bind Prod.snd := rfl
      rw [World.step] at stepped
      obtain ⟨r, swept, rfl | ⟨t, s', resources, rfl, detached⟩⟩ := reapLocked_detached sound.core
      · rw [swept] at stepped looks
        cases stepped
        exact .looks (Or.inr rfl) looks rfl
      · rw [swept] at stepped looks
        cases stepped
        exact .reaps looks (fun _ bad => by cases bad) detached
          (schedulerDetachZombieTaskLocked_reaped sound.core detached).1

/-- The CPUs stay as they were configured. -/
theorem World.Sound.topology {action : Action}
    (calm : w.Calm action) (stepped : w.step action = some w') :
    SameTopology w.state w'.state := by
  cases sound.outcome calm stepped with
  | boots boots booted => exact booted.topology
  | creates slot => exact slot.machine.topology
  | slot slot only => exact only.machine.topology
  | ticks timers core stirs clock online ticked =>
      exact stirs.topology.trans
        (tickCurrent_turned core (stirs.reserved sound.reserved) online ticked).topology
  | yields online scheduled =>
      exact (schedule_turned sound.core sound.reserved online scheduled).topology
  | stops stops current running id rests moved =>
      rw [moved]
      exact ⟨fun _ => rfl, fun _ => rfl, rfl, rfl⟩
  | wakes woke moves => exact moves.machine.topology
  | @changes cpu taskId priority changed =>
      rw [changed]
      exact (schedulerSetTaskPriority_core sound.core sound.reserved cpu taskId
        priority).2.1.topology
  | reaps hands asked detached reaped => exact reaped.slot.machine.topology
  | looks looks hands unchanged =>
      rw [unchanged]
      exact ⟨fun _ => rfl, fun _ => rfl, rfl, rfl⟩

end

end

end Dfos.Scheduler
