import Dfos.Scheduler.Effects
import Dfos.Sync.Exclusion

/-!
# The spinlock of a mutex under preemption

The tasks of one CPU, with the scheduler as it is, share a mutex.  A task runs
its code in the mutex functions while it is current; `scheduler_wait_channel` and
`scheduler_wake_channel` are the scheduler's own, and a timer tick may come
between any two steps, since `kspin_lock` leaves interrupts enabled.

A tick that comes while the current task is inside the spinlock can hand the CPU
to a task of higher priority that then spins for ever.  Where no tick does, the
holder of the spinlock is always the current task.
-/

namespace Dfos.Sync

open Dfos.Lib
open Dfos.Scheduler (Action TaskId TopologyConfig schedulerCurrentTask)

/-- One CPU and one mutex, whose wait queue is at `channel`. -/
structure Machine where
  channel : Nat
  mutex : World
  sched : Scheduler.World

/-- What happens next: a call or a step by the task the CPU executes, or
something else in the scheduler. -/
inductive Event where
  | call (call : MutexCall)
  | go
  | sched (action : Action)

namespace Machine

/-- `scheduler_current_task_id` of the slot. -/
def idOf (w : Machine) (t : TaskId) : Nat := (w.sched.state.tasks t).id

/-- The mutex and the tasks in it at the time of the scheduler's clock. -/
def now (w : Machine) : World := { w.mutex with ticks := w.sched.state.systemTicks }

/-- One step of the code of the task in slot `t`. -/
def go (w : Machine) (t : TaskId) : Option Machine :=
  match w.mutex.pc (w.idOf t) with
  | .waitBlock call wait =>
      if wait.waitTicks = 0 then
        some { w with mutex := w.mutex.goto (w.idOf t) (.waitUncount call wait false) }
      else
        (w.sched.step (.waitChannel 0 w.channel wait.waitTicks)).map fun sched =>
          { w with sched := sched, mutex := w.mutex.goto (w.idOf t) (.blocked call wait) }
  | .blocked call wait =>
      -- it runs again, with the result that the wake or the timer left
      let woke := (w.sched.state.tasks t).waitResult
      some { w with mutex := w.mutex.goto (w.idOf t) (.waitUncount call wait woke) }
  | .unlockWake =>
      (w.sched.step (.wakeChannel 0 w.channel 1)).map fun sched =>
        { w with sched := sched, mutex := w.mutex.goto (w.idOf t) .unlockDone }
  | _ => some { w with mutex := w.now.go (w.idOf t) }

/-- The point of the current task. -/
def point (w : Machine) : Pc :=
  match schedulerCurrentTask w.sched.state 0 with
  | some t => w.mutex.pc (w.idOf t)
  | none => .outside

/-- What the current task can do in the scheduler by itself: past the locked part
of a wait it executes `int 48`, and otherwise only what it does outside. -/
def permits (w : Machine) : Action → Bool
  | .yield _ _ =>
      match w.point with
      | .outside => true
      | .blocked _ _ => true
      | _ => false
  | .sleep _ _ => w.point = .outside
  | .waitChannel _ _ _ => w.point = .outside
  | .exitCurrent _ => w.point = .outside
  | _ => true

def step (w : Machine) : Event → Option Machine
  | .call c =>
      (w.sched.runningOn 0).map fun t => { w with mutex := w.now.call (w.idOf t) c }
  | .go => (w.sched.runningOn 0).bind w.go
  | .sched action =>
      if w.permits action then (w.sched.step action).map fun sched => { w with sched := sched }
      else none

def run (w : Machine) : List Event → Option Machine
  | [] => some w
  | event :: events => (w.step event).bind (·.run events)

/-- The mutex is free and no task is in its functions. -/
def start (channel : Nat) (spaces : Paging.AddressSpaces) (smpAvailable : Bool)
    (config : TopologyConfig) : Option Machine :=
  (Scheduler.World.start spaces smpAvailable config).map fun sched =>
    { channel := channel, mutex := World.init, sched := sched }

end Machine

/-- In the loop of `kspin_lock`. -/
def Pc.spins : Pc → Bool
  | .tryLockSpin | .lockSpin _ | .waitRelock _ _ | .unlockSpin => true
  | _ => false

/-- The current task spins for the spinlock while its holder waits on the run
queues of the same CPU with a lower priority. -/
def Machine.Inverted (w : Machine) : Prop :=
  ∃ t h, schedulerCurrentTask w.sched.state 0 = some t ∧
    (w.mutex.pc (w.idOf t)).spins = true ∧ w.mutex.spinHolder = some (w.idOf h) ∧
    (w.sched.state.tasks h).state = .runnable ∧
    (w.sched.state.tasks h).assignedCpu = (w.sched.state.tasks t).assignedCpu ∧
    (w.sched.state.tasks t).priority < (w.sched.state.tasks h).priority

instance (w : Machine) : Decidable w.Inverted := by
  unfold Machine.Inverted
  infer_instance

/-- No tick comes while the current task is inside the spinlock. -/
def Machine.Unpreempted (w : Machine) : Event → Prop
  | .sched (.timerTick _ _) => w.point.inSpin = false
  | _ => True

def Machine.UnpreemptedAlong (w : Machine) : List Event → Prop
  | [] => True
  | event :: events =>
      w.Unpreempted event ∧ ∀ w', w.step event = some w' → w'.UnpreemptedAlong events

/-! ## The holder stays current -/

/-- One CPU, and it executes the task that holds the spinlock. -/
structure Machine.Inv (w : Machine) : Prop where
  mutex : w.mutex.Inv
  sound : ∃ contents held, w.sched.Sound contents held
  one : w.sched.state.configuredCpuCount ≤ 1
  holder : ∀ i, w.mutex.spinHolder = some i →
    ∃ t, schedulerCurrentTask w.sched.state 0 = some t ∧ w.idOf t = i

section

variable {v : World} {j : Nat} {p : Pc}

theorem goto_spinHolder : (v.goto j p).spinHolder = v.spinHolder := rfl

theorem write_spinHolder {m : KMutex} : (v.write j m).spinHolder = v.spinHolder := rfl

theorem acquire_spinHolder :
    (v.acquire j p).spinHolder = v.spinHolder ∨ (v.acquire j p).spinHolder = some j := by
  unfold World.acquire
  split
  · exact Or.inr rfl
  · exact Or.inl rfl

theorem wakeOne_spinHolder : v.wakeOne.spinHolder = v.spinHolder := by
  unfold World.wakeOne
  split
  · rfl
  · split <;> rfl

/-- A step gives the spinlock to the task that takes it, or to nobody. -/
theorem go_spinHolder : (v.go j).spinHolder = v.spinHolder ∨ (v.go j).spinHolder = some j ∨
    (v.go j).spinHolder = none := by
  have taken : ∀ {q}, (v.acquire j q).spinHolder = v.spinHolder ∨
      (v.acquire j q).spinHolder = some j ∨ (v.acquire j q).spinHolder = none :=
    acquire_spinHolder.imp_right Or.inl
  unfold World.go
  cases v.pc j with
  | unlockWake => exact Or.inl wakeOne_spinHolder
  | lockElapsed call =>
      dsimp only
      split
      · exact Or.inl rfl
      · split <;> exact Or.inl rfl
  | lockTimedOut call =>
      dsimp only
      split <;> exact Or.inr (Or.inr rfl)
  | waitBlock call wait =>
      dsimp only
      split <;> exact Or.inl rfl
  | lockAfterWait call signaled =>
      dsimp only
      split <;> exact Or.inl rfl
  | waitUncount call wait woke => exact Or.inl (goto_spinHolder.trans write_spinHolder)
  | tryLockSpin | lockSpin | waitRelock | unlockSpin => exact taken
  | _ => first | exact Or.inl rfl | exact Or.inr (Or.inr rfl)

theorem call_spinHolder (c : MutexCall) : (v.call j c).spinHolder = v.spinHolder := by
  unfold World.call
  split <;> rfl

end

section

variable {w w' : Machine} {t : TaskId}

/-- With one CPU the balancer never runs. -/
theorem Machine.Inv.calm (inv : w.Inv) (action : Action) : w.sched.Calm action := by
  unfold Scheduler.World.Calm
  split
  · intro balances
    have never : (Scheduler.schedulerShouldBalanceNow w.sched.state.countTick).2 = false := by
      have one : w.sched.state.countTick.configuredCpuCount ≤ 1 := inv.one
      unfold Scheduler.schedulerShouldBalanceNow
      rw [if_pos (Or.inr (Or.inl one))]
    cases never.symm.trans balances.2
  · trivial

/-- The one CPU is CPU 0. -/
theorem current_of_one {sched : Scheduler.World} {contents : Scheduler.ListRef → List TaskId}
    {held : Finset TaskId} (sound : sched.Sound contents held)
    (one : sched.state.configuredCpuCount ≤ 1) :
    schedulerCurrentTask sched.state 0 = (sched.state.cpus 0).current := by
  have topology := sound.core.topology
  have online := topology.boot
  have zero : sched.state.bootCpuId = 0 := by
    have inRange := topology.online _ online
    omega
  rw [zero] at online
  unfold schedulerCurrentTask
  rw [topology.currentCpu_eq online]

/-- A step of the scheduler that does not take the CPU from the holder. -/
theorem Machine.Inv.sched {action : Action} {sched : Scheduler.World} (inv : w.Inv)
    (stays : w.mutex.spinHolder ≠ none → ¬ action.Switches 0)
    (stepped : w.sched.step action = some sched) : Machine.Inv { w with sched := sched } := by
  obtain ⟨contents, held, sound⟩ := inv.sound
  have calm := inv.calm action
  have topology := sound.topology calm stepped
  obtain ⟨slot, effect⟩ := sound.effect calm stepped
  have one : sched.state.configuredCpuCount ≤ 1 := by
    rw [topology.configuredCpuCount]
    exact inv.one
  obtain ⟨contents', held', after⟩ := sound.step calm stepped
  refine ⟨inv.mutex, ⟨contents', held', after⟩, one, fun i holds => ?_⟩
  obtain ⟨t, current, id⟩ := inv.holder i holds
  rw [current_of_one sound inv.one] at current
  have there := effect.current 0 t (stays (by rw [holds]; nofun)) current
  refine ⟨t, ?_, ?_⟩
  · rw [current_of_one after one]
    exact there
  · refine Eq.trans ?_ id
    by_cases stopping : action.Stops w.sched.state t
    · exact effect.stops t stopping
    · by_cases released : slot t
      · exact absurd current ((effect.dead t released).2 0)
      · exact (effect.tasks t stopping released).id

/-- A step of the code that touches no spinlock. -/
theorem Machine.Inv.goto {i : Nat} {p : Pc} (inv : w.Inv) (start : (w.mutex.pc i).inSpin = false)
    (stop : p.inSpin = false) (known : Local w.mutex.holders (w.mutex.log i) i p) :
    Machine.Inv { w with mutex := w.mutex.goto i p } :=
  ⟨inv.mutex.goto_outer start stop known, inv.sound, inv.one, inv.holder⟩

/-- The task the CPU executes takes a step. -/
theorem Machine.Inv.go (inv : w.Inv) (current : schedulerCurrentTask w.sched.state 0 = some t)
    (stepped : w.go t = some w') : w'.Inv := by
  have known := inv.mutex.calls (w.idOf t)
  unfold Machine.go at stepped
  split at stepped
  · next call wait here =>
      have start : (w.mutex.pc (w.idOf t)).inSpin = false := by rw [here]; rfl
      rw [here] at known
      split at stepped
      · obtain rfl := Option.some.inj stepped
        exact inv.goto start rfl known
      · obtain ⟨sched, blocked, rfl⟩ := Option.map_eq_some_iff.mp stepped
        have waits := inv.sched (fun _ => by nofun) blocked
        exact waits.goto (i := w.idOf t) start rfl known
  · next call wait here =>
      have start : (w.mutex.pc (w.idOf t)).inSpin = false := by rw [here]; rfl
      rw [here] at known
      obtain rfl := Option.some.inj stepped
      exact inv.goto start rfl known
  · next here =>
      have start : (w.mutex.pc (w.idOf t)).inSpin = true := by rw [here]; rfl
      have inside := inv.mutex.inside _ ((inv.mutex.spin _).mp start)
      rw [here] at known inside
      obtain ⟨sched, woke, rfl⟩ := Option.map_eq_some_iff.mp stepped
      have wakes := inv.sched (fun _ => by nofun) woke
      exact ⟨inv.mutex.goto_inner start rfl inside known, wakes.sound, wakes.one, wakes.holder⟩
  · obtain rfl := Option.some.inj stepped
    have timed : w.now.Inv :=
      ⟨inv.mutex.spin, inv.mutex.value, inv.mutex.free, inv.mutex.inside, inv.mutex.calls⟩
    refine ⟨timed.go _, inv.sound, inv.one, fun i holds => ?_⟩
    rcases go_spinHolder (v := w.now) (j := w.idOf t) with same | own | nobody
    · exact inv.holder i (same.symm.trans holds)
    · exact ⟨t, current, Option.some.inj (own.symm.trans holds)⟩
    · cases nobody.symm.trans holds

theorem Machine.Inv.call (inv : w.Inv) (c : MutexCall) :
    Machine.Inv { w with mutex := w.now.call (w.idOf t) c } := by
  have timed : w.now.Inv :=
    ⟨inv.mutex.spin, inv.mutex.value, inv.mutex.free, inv.mutex.inside, inv.mutex.calls⟩
  refine ⟨timed.call _ c, inv.sound, inv.one, fun i holds => inv.holder i ?_⟩
  rw [call_spinHolder] at holds
  exact holds

/-- While somebody holds the spinlock, the current task is inside it. -/
theorem Machine.Inv.point (inv : w.Inv) (taken : w.mutex.spinHolder ≠ none) :
    w.point.inSpin = true := by
  obtain ⟨i, holds⟩ := Option.ne_none_iff_exists'.mp taken
  obtain ⟨t, current, id⟩ := inv.holder i holds
  unfold Machine.point
  rw [current]
  rw [← id] at holds
  exact (inv.mutex.spin _).mpr holds

/-- Inside the spinlock a task gives up the CPU only to a tick. -/
theorem Machine.permits_switch {action : Action} (permits : w.permits action = true)
    (unpreempted : w.Unpreempted (.sched action)) (switches : action.Switches 0) :
    w.point.inSpin = false := by
  cases action with
  | timerTick => exact unpreempted
  | yield =>
      unfold Machine.permits at permits
      dsimp only at permits
      split at permits
      · next outside => rw [outside]; rfl
      · next blocked => rw [blocked]; rfl
      · cases permits
  | _ => exact switches.elim

theorem Machine.Inv.step {event : Event} (inv : w.Inv) (unpreempted : w.Unpreempted event)
    (stepped : w.step event = some w') : w'.Inv := by
  cases event with
  | call c =>
      obtain ⟨t, -, rfl⟩ := Option.map_eq_some_iff.mp stepped
      exact inv.call c
  | go =>
      obtain ⟨t, running, went⟩ := Option.bind_eq_some_iff.mp stepped
      exact inv.go (Scheduler.World.runningOn_eq running).1 went
  | sched action =>
      unfold Machine.step at stepped
      dsimp only at stepped
      split at stepped
      · next permits =>
          obtain ⟨sched, acted, rfl⟩ := Option.map_eq_some_iff.mp stepped
          refine inv.sched (fun taken switches => ?_) acted
          have outside := Machine.permits_switch permits unpreempted switches
          rw [inv.point taken] at outside
          cases outside
      · cases stepped

theorem Machine.Inv.run (events : List Event) (inv : w.Inv) (unpreempted : w.UnpreemptedAlong events)
    (ran : w.run events = some w') : w'.Inv := by
  induction events generalizing w with
  | nil =>
      obtain rfl := Option.some.inj ran
      exact inv
  | cons event events ih =>
      obtain ⟨m, stepped, ran⟩ := Option.bind_eq_some_iff.mp ran
      exact ih (inv.step unpreempted.1 stepped) (unpreempted.2 m stepped) ran

/-- The holder of the spinlock does not spin for it. -/
theorem Machine.Inv.notInverted (inv : w.Inv) : ¬ w.Inverted := by
  rintro ⟨t, h, current, spins, holds, -⟩
  have inside := inv.point (by rw [holds]; nofun)
  unfold Machine.point at inside
  rw [current] at inside
  revert spins inside
  dsimp only
  cases w.mutex.pc (w.idOf t) <;> nofun

end

/-! ## From the start -/

theorem start_one {spaces : Paging.AddressSpaces} {smpAvailable : Bool} {config : TopologyConfig}
    {sched : Scheduler.World} (one : config.cpuCount = 1)
    (started : Scheduler.World.start spaces smpAvailable config = some sched) :
    sched.state.configuredCpuCount ≤ 1 := by
  unfold Scheduler.World.start at started
  split at started
  · cases started
  · next s up =>
      obtain rfl := Option.some.inj started
      have byDefault : s.configuredCpuCount = 1 := by
        unfold Scheduler.schedulerInit at up
        dsimp only at up
        generalize Scheduler.initTasks (Scheduler.State.zero spaces smpAvailable) = m at up
        rcases Scheduler.schedulerConfigureTopology_cases m Scheduler.schedulerTopologyDefault true
          with refused | ⟨-, -, installed⟩
        · rw [refused] at up
          cases up
        · rw [installed] at up
          obtain rfl := Except.ok.inj up
          rfl
      dsimp only
      rcases Scheduler.schedulerConfigureTopology_cases s config true with
        refused | ⟨-, -, installed⟩
      · rw [refused]
        exact byDefault.le
      · rw [installed]
        exact one.le

theorem Machine.start_inv {channel : Nat} {spaces : Paging.AddressSpaces} {smpAvailable : Bool}
    {config : TopologyConfig} {w : Machine} (one : config.cpuCount = 1)
    (started : Machine.start channel spaces smpAvailable config = some w) : w.Inv := by
  obtain ⟨sched, began, rfl⟩ := Option.map_eq_some_iff.mp started
  obtain ⟨contents, sound⟩ := Scheduler.World.start_sound began
  exact ⟨World.init_inv, ⟨contents, ∅, sound⟩, start_one one began, nofun⟩

/-- **No spinning above the holder.**  Over one CPU, any tasks and any run in
which no timer tick comes inside the spinlock, the current task never spins while
the holder of the spinlock waits on the run queue below it. -/
theorem spin_never_inverts {channel : Nat} {spaces : Paging.AddressSpaces} {smpAvailable : Bool}
    {config : TopologyConfig} {start w : Machine} {events : List Event}
    (one : config.cpuCount = 1)
    (started : Machine.start channel spaces smpAvailable config = some start)
    (unpreempted : start.UnpreemptedAlong events) (ran : start.run events = some w) :
    ¬ w.Inverted :=
  (Machine.Inv.run events (Machine.start_inv one started) unpreempted ran).notInverted

/-! ## Two tasks on one CPU -/

/-- A task of the given priority is created in slot `t`. -/
def enlist (t priority stack : Nat) : List Event :=
  let request := { Scheduler.taskFor 1 with
    config := ⟨priority, 1, Scheduler.schedulerNumaNodeAny⟩ }
  [.sched (.createReserve 0 request.config), .sched (.createEnqueue 0 (Scheduler.TaskId.ofNat t) request 0 stack)]

/-- The CPU comes up with a task of high and one of low priority; the task that
booted it and the one of high priority sleep, and the one of low priority takes
the spinlock of the mutex. -/
def lowTakesSpin : List Event :=
  [.sched (.bootstrapCurrent 0x9000 none)] ++ enlist 1 1 0x100000 ++ enlist 2 3 0x110000 ++
    [.sched (.sleep 0 1000), .sched (.yield 0 0x8F00), .sched (.sleep 0 1),
      .sched (.yield 0 0x103F00), .call .lock, .go]

/-- The task of low priority has the mutex, and the spinlock is free again. -/
def lowLocks : List Event :=
  lowTakesSpin ++ List.replicate 4 .go

/-- The tick wakes the task of high priority, which asks for the mutex. -/
def highAsks : List Event :=
  [.sched (.timerTick 0 0x113F00), .call .lock, .go]

theorem Machine.unpreemptedAlong_append {w : Machine} {first second : List Event} :
    w.UnpreemptedAlong first → (∀ w', w.run first = some w' → w'.UnpreemptedAlong second) →
      w.UnpreemptedAlong (first ++ second) := by
  induction first generalizing w with
  | nil => exact fun _ rest => rest w rfl
  | cons event first ih =>
      intro unpreempted rest
      refine ⟨unpreempted.1, fun m stepped => ih (unpreempted.2 m stepped) fun w' ran => rest w' ?_⟩
      unfold Machine.run
      rw [stepped]
      exact ran

theorem spin_never_inverts_highAsks :
    ∃ start w, Machine.start 7 Scheduler.kernelOnly false Scheduler.oneCpu = some start ∧
      start.UnpreemptedAlong (lowLocks ++ highAsks) ∧
      start.run (lowLocks ++ highAsks) = some w ∧ schedulerCurrentTask w.sched.state 0 = some 1 ∧
      ¬ w.Inverted := by
  have whole : ((Machine.start 7 Scheduler.kernelOnly false Scheduler.oneCpu).bind fun start =>
      start.run (lowLocks ++ highAsks)).map (fun w => schedulerCurrentTask w.sched.state 0) =
        some (some 1) := by
    decide +kernel
  have released : ((Machine.start 7 Scheduler.kernelOnly false Scheduler.oneCpu).bind fun start =>
      start.run lowLocks).map (fun w => w.point.inSpin) = some false := by
    decide +kernel
  obtain ⟨w, ran, current⟩ := Option.map_eq_some_iff.mp whole
  obtain ⟨start, started, ran⟩ := Option.bind_eq_some_iff.mp ran
  rw [started, Option.bind_some] at released
  have unpreempted : start.UnpreemptedAlong (lowLocks ++ highAsks) := by
    refine Machine.unpreemptedAlong_append ?_ fun m before => ?_
    · simp [lowLocks, lowTakesSpin, enlist, Machine.UnpreemptedAlong, Machine.Unpreempted]
    · rw [before, Option.map_some] at released
      refine ⟨Option.some.inj released, ?_⟩
      simp [Machine.UnpreemptedAlong, Machine.Unpreempted]
  exact ⟨start, w, started, unpreempted, ran, current,
    spin_never_inverts rfl started unpreempted ran⟩

/-- The tick comes while the task of low priority is inside the spinlock. -/
theorem spin_inverts :
    ∃ start w, Machine.start 7 Scheduler.kernelOnly false Scheduler.oneCpu = some start ∧
      start.run (lowTakesSpin ++ highAsks) = some w ∧ w.Inverted := by
  have whole : ((Machine.start 7 Scheduler.kernelOnly false Scheduler.oneCpu).bind fun start =>
      start.run (lowTakesSpin ++ highAsks)).map (fun w => decide w.Inverted) = some true := by
    decide +kernel
  obtain ⟨w, ran, inverted⟩ := Option.map_eq_some_iff.mp whole
  obtain ⟨start, started, ran⟩ := Option.bind_eq_some_iff.mp ran
  exact ⟨start, w, started, ran, of_decide_eq_true inverted⟩

end Dfos.Sync
