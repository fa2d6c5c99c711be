import Dfos.Scheduler.Effects

/-!
# A CPU always has a task

The bootstrap task of a CPU never sleeps, waits or exits, and it would always be
there for the CPU to fall back on, were it not subject to load balancing: its
affinity mask names every online CPU, so the balancer may take it away, and once
everything else on the CPU sleeps there is nothing left to dispatch.

An `IdleWorld` records which tasks are bootstrap tasks.  While no bootstrap task
is queued when the balancer runs, and no caller is moved while it reads which
task it is, no interrupt finds its CPU without a task.
-/

namespace Dfos.Scheduler

open Dfos.Lib

/-- The interleavings, with the CPU each bootstrap task was made for. -/
structure IdleWorld where
  world : World
  idle : TaskId → Option Nat

/-- Only a CPU that was given its bootstrap task takes interrupts, and bootstrap
tasks neither sleep nor wait nor exit. -/
def IdleWorld.Permits (w : IdleWorld) : Action → Prop
  | .timerTick cpu _ => ∃ t, w.idle t = some cpu
  | .yield cpu _ => ∃ t, w.idle t = some cpu
  | .sleep cpu _ => ∀ t ∈ schedulerCurrentTask w.world.state cpu, w.idle t = none
  | .waitChannel cpu _ _ => ∀ t ∈ schedulerCurrentTask w.world.state cpu, w.idle t = none
  | .exitCurrent cpu => ∀ t ∈ schedulerCurrentTask w.world.state cpu, w.idle t = none
  | _ => True

instance IdleWorld.decidablePermits (w : IdleWorld) (action : Action) :
    Decidable (w.Permits action) := by
  unfold IdleWorld.Permits
  split <;> infer_instance

/-- The first task of a CPU is its bootstrap task. -/
def IdleWorld.enrol (w : IdleWorld) (after : World) : Option Nat → IdleWorld
  | none => { w with world := after }
  | some cpu =>
      match (after.state.cpus cpu).current with
      | none => { w with world := after }
      | some t => { world := after, idle := Function.update w.idle t (some cpu) }

def IdleWorld.step (w : IdleWorld) (action : Action) : Option IdleWorld :=
  if w.Permits action then
    (w.world.step action).map fun after => w.enrol after (action.boots w.world.state)
  else none

/-- A section on another task than the caller, which is no bootstrap task. -/
def IdleWorld.misled (w : IdleWorld) (action : Action) (u : TaskId) : Option IdleWorld :=
  if w.Permits action then (w.world.misled action u).map fun after => { w with world := after }
  else none

def idleCallers : Callers IdleWorld Action :=
  ⟨IdleWorld.world, IdleWorld.step, Action.reads, IdleWorld.misled⟩

def IdleWorld.start (spaces : Paging.AddressSpaces) (smpAvailable : Bool)
    (config : TopologyConfig) : Option IdleWorld :=
  (World.start spaces smpAvailable config).map fun world =>
    { world := world, idle := fun _ => none }

/-- The interrupt ends in the panic of `scheduler_switch_to_task`. -/
def IdleWorld.Starves (w : IdleWorld) : Action → Prop
  | .timerTick cpu frame => ∃ id, schedulerOnTimerTick w.world.state cpu (some frame) =
      .error (.panic (.noRunnableTasks id))
  | .yield cpu frame => ∃ id, schedulerOnYield w.world.state cpu (some frame) =
      .error (.panic (.noRunnableTasks id))
  | _ => False

/-- Where a tick balances, no current task is queued and no bootstrap task is
RUNNABLE. -/
def IdleWorld.Kept (w : IdleWorld) (action : Action) : Prop :=
  w.world.Calm action ∧ ∀ cpu frame, action = .timerTick cpu frame → Balances w.world.state cpu →
    ∀ t, w.idle t ≠ none → (w.world.state.tasks t).state ≠ .runnable

/-- Every bootstrap task is ready to run on its CPU. -/
def IdleWorld.Manned (w : IdleWorld) : Prop :=
  ∀ t cpu, w.idle t = some cpu →
    (w.world.state.tasks t).Ready ∧ (w.world.state.tasks t).assignedCpu = cpu

/-! ## A CPU with a ready task -/

section

variable {s s' : State} {contents : ListRef → List TaskId} {held : Finset TaskId} {t : TaskId}

theorem dequeueFrom_none {cpu : Nat} :
    ∀ {left priority}, dequeueFrom s cpu left priority = (s', none) →
      ∀ p, priority ≤ p → p < priority + left → (s.lists (.runnable cpu p)).head = none := by
  intro left
  induction left with
  | zero =>
      intro priority _ p above below
      omega
  | succ left ih =>
      intro priority ended p above below
      unfold dequeueFrom at ended
      split at ended
      · cases ended
      · next empty =>
          rcases Nat.eq_or_lt_of_le above with rfl | later
          · exact empty
          · exact ih ended p later (by omega)

/-- A task that is ready keeps its CPU from running dry. -/
theorem reschedule_not_starved {cpu : Nat} (core : Core s contents held)
    (reserved : Reserved s held) (online : (s.cpus cpu).online) (ready : (s.tasks t).Ready)
    (own : (s.tasks t).assignedCpu = cpu) (executing : Nat) (frame : Option Nat) (id : Nat) :
    reschedule s executing cpu frame ≠ .error (.panic (.noRunnableTasks id)) := by
  intro panics
  obtain ⟨⟨queues, requeued⟩, moves, stopped⟩ := requeueCurrent_core core reserved online executing
  have seats := requeueCurrent_preserves steady_assignedCpu core online executing
  have drift : Drift (fun _ => False) s (requeueCurrent s executing cpu) := by
    unfold requeueCurrent
    split
    · split
      · exact schedulerCpuEnqueueRunnable_drift ..
      · exact .refl s
    · exact .refl s
  have readyM := (drift.tasks t).ready ready
  have ownM := (seats t).trans own
  unfold reschedule at panics
  generalize requeueCurrent s executing cpu = m at *
  -- it is queued: were it running, it would be what has just made way
  have queued : (m.tasks t).state = .runnable := by
    rcases readyM with state | state
    · exact state
    · have here := (requeued.allowed t).running state
      rw [ownM, moves.machine.current] at here
      exact absurd state (stopped t here)
  have off : t ∉ held := fun inHand => ready.live.1 (reserved t inHand)
  have live : (m.tasks t).state ≠ .unused := by simp [queued]
  have home : (m.tasks t).home = some (.runnable cpu (m.tasks t).priority) := by
    rw [Task.home, queued, ownM]
  have member := requeued.placed.mem_of_home off home
  have head := (requeued.placed.holds.list (.runnable cpu (m.tasks t).priority)).head
  cases taken : schedulerCpuDequeueNextRunnable m cpu with
  | mk n next =>
      rw [taken] at panics
      cases next with
      | some next => cases panics
      | none =>
          unfold schedulerCpuDequeueNextRunnable at taken
          have inRange := ((requeued.allowed t).seated live).priority
          have empty := dequeueFrom_none taken (m.tasks t).priority (Nat.zero_le _)
            (by omega)
          rw [head, List.head?_eq_none_iff] at empty
          rw [empty] at member
          cases member

theorem schedulerScheduleCpu_not_starved {cpu : Nat} (core : Core s contents held)
    (reserved : Reserved s held) (online : (s.cpus cpu).online) (ready : (s.tasks t).Ready)
    (own : (s.tasks t).assignedCpu = cpu) (executing : Nat) (frame : Option Nat) (id : Nat) :
    schedulerScheduleCpu s executing cpu frame true ≠ .error (.panic (.noRunnableTasks id)) := by
  have saved := saveFrame_core core cpu frame
  have reservedSaved : Reserved (saveFrame s cpu frame) held := fun u inHand => by
    rw [saveFrame_state]
    exact reserved u inHand
  have onlineSaved : ((saveFrame s cpu frame).cpus cpu).online := by rwa [saveFrame_cpus]
  have drift : Drift (fun _ => False) s (saveFrame s cpu frame) := saveFrame_drift ..
  have dispatches := reschedule_not_starved saved reservedSaved onlineSaved
    ((drift.tasks t).ready ready)
    ((saveFrame_preserves steady_assignedCpu s cpu frame t).trans own) executing frame id
  unfold schedulerScheduleCpu
  dsimp only
  split
  · rw [if_neg (by simp)]
    exact dispatches
  · exact dispatches

theorem tickCurrent_not_starved {cpu : Nat} (core : Core s contents held)
    (reserved : Reserved s held) (online : (s.cpus cpu).online) (ready : (s.tasks t).Ready)
    (own : (s.tasks t).assignedCpu = cpu) (frame : Option Nat) (id : Nat) :
    tickCurrent s cpu frame ≠ .error (.panic (.noRunnableTasks id)) := by
  have cases' := tickCurrent_cases s cpu frame
  rw [core.topology.currentCpu_eq online] at cases'
  rcases cases' with scheduled | ⟨u, current, -, scheduled | resumed⟩
  · rw [scheduled]
    exact schedulerScheduleCpu_not_starved core reserved online ready own cpu frame id
  · rw [scheduled]
    obtain ⟨charged, stirs⟩ := charge_core core u
    have seats : Seats s (charge s u) := .setTask rfl
    have drift : Drift (fun _ => False) s (charge s u) := .setTask ⟨rfl, .inl ⟨rfl, rfl⟩⟩
    exact schedulerScheduleCpu_not_starved charged (stirs.reserved reserved) online
      ((drift.tasks t).ready ready) ((seats t).trans own) cpu frame id
  · rw [resumed]
    nofun

/-- A task that is ready keeps its CPU in a tick, unless that balances while the
task is queued. -/
theorem tickTimers_stays {cpu : Nat} {m : State} (core : Core s contents held)
    (calm : Balances s cpu → ∀ c t, (s.cpus c).current = some t → ¬ TickMoves s t)
    (ready : (s.tasks t).Ready) (off : Balances s cpu → (s.tasks t).state ≠ .runnable)
    (ticked : tickTimers s cpu = .ok m) : m.tasks t = s.tasks t := by
  have awake : ¬ Due s.countTick t := by
    rintro ⟨-, state | ⟨state, -⟩⟩ <;> rcases ready with now | now <;> cases now.symm.trans state
  by_cases balances : Balances s cpu
  · obtain ⟨m', ticked', -, stirs⟩ := tickTimers_core core calm
    obtain rfl := Except.ok.inj (ticked.symm.trans ticked')
    exact stirs.untouched t (not_or.mpr ⟨awake, off balances⟩)
  · have counted : Core s.countTick contents held := core.transport rfl rfl rfl rfl rfl rfl
    obtain ⟨n, expired, ⟨queues, coreN⟩, moves⟩ := schedulerAdvanceTimers_core counted cpu
    have same := moves.untouched t awake
    have topology : SameTopology s n :=
      ⟨moves.machine.id, moves.machine.online, moves.machine.configuredCpuCount,
        moves.machine.bootCpuId⟩
    unfold tickTimers at ticked
    rw [expired] at ticked
    dsimp only [walked, bind, Except.bind] at ticked
    split at ticked
    · next boot =>
        rw [coreN.topology.id_currentCpu, schedulerCurrentCpuState_congr topology,
          topology.bootCpuId] at boot
        have decision := schedulerShouldBalanceNow_congr moves.machine
        obtain ⟨-, stirs⟩ := schedulerShouldBalanceNow_core coreN
        cases decided : schedulerShouldBalanceNow n with
        | mk n' now =>
            rw [decided] at ticked decision stirs
            cases now with
            | true => exact absurd ⟨boot, decision.symm⟩ balances
            | false =>
                obtain rfl := Except.ok.inj ticked
                exact (stirs.untouched t id).trans same
    · obtain rfl := Except.ok.inj ticked
      exact same

end

/-! ## Steps and runs -/

section

variable {w w' : IdleWorld} {contents : ListRef → List TaskId} {held : Finset TaskId}
  {action : Action}

theorem IdleWorld.enrol_world (w : IdleWorld) (after : World) (cpu : Option Nat) :
    (w.enrol after cpu).world = after := by
  unfold IdleWorld.enrol
  split
  · rfl
  · split <;> rfl

/-- No bootstrap task is migrated. -/
theorem IdleWorld.Kept.stays {t : TaskId} (kept : w.Kept action)
    (sound : w.world.Sound contents held) (idle : w.idle t ≠ none)
    (ready : (w.world.state.tasks t).Ready) : ¬ action.Migrates w.world.state t := by
  cases action with
  | timerTick cpu frame =>
      rintro ⟨m, ticked, moved⟩
      have same := tickTimers_stays sound.core kept.1 ready
        (fun balances => kept.2 cpu frame rfl balances t idle) ticked
      exact moved (congrArg Task.assignedCpu same)
  | _ => exact id

/-- A bootstrap task remains ready on its CPU. -/
theorem IdleWorld.Manned.old {m : World} {t : TaskId} {cpu : Nat} (manned : w.Manned)
    (sound : w.world.Sound contents held) (kept : w.Kept action) (permitted : w.Permits action)
    (stepped : w.world.step action = some m) (idle : w.idle t = some cpu) :
    (m.state.tasks t).Ready ∧ (m.state.tasks t).assignedCpu = cpu := by
  obtain ⟨ready, own⟩ := manned t cpu idle
  obtain ⟨slot, effect⟩ := sound.effect kept.1 stepped
  have goes : ¬ action.Stops w.world.state t := by
    intro stops
    have none : w.idle t = none := by
      cases action with
      | sleep cpu ticks | waitChannel cpu channel timeoutTicks | exitCurrent cpu =>
        exact permitted t stops
      | _ => exact stops.elim
    rw [none] at idle
    cases idle
  have drifts := effect.tasks t goes fun inSlot => (effect.dead t inSlot).1 ready.live
  have stays := kept.stays sound (by simp [idle]) ready
  exact ⟨drifts.ready ready, (effect.seats t ready goes stays).trans own⟩

theorem IdleWorld.Manned.step (manned : w.Manned) (sound : w.world.Sound contents held)
    (kept : w.Kept action) (stepped : w.step action = some w') :
    (∃ contents' held', w'.world.Sound contents' held') ∧ w'.Manned := by
  unfold IdleWorld.step at stepped
  split at stepped
  · next permitted =>
      obtain ⟨m, acted, rfl⟩ := Option.map_eq_some_iff.mp stepped
      obtain ⟨contents', held', sound'⟩ := sound.step kept.1 acted
      have world := w.enrol_world m (action.boots w.world.state)
      have old : ∀ {t cpu}, w.idle t = some cpu →
          (m.state.tasks t).Ready ∧ (m.state.tasks t).assignedCpu = cpu :=
        fun idle => manned.old sound kept permitted acted idle
      refine ⟨⟨contents', held', by rw [world]; exact sound'⟩, fun t cpu idle => ?_⟩
      rw [world]
      unfold IdleWorld.enrol at idle
      split at idle
      · exact old idle
      · next boots =>
          obtain ⟨u, booted⟩ := sound.booted acted boots
          rw [booted.current, if_pos rfl] at idle
          dsimp only at idle
          rcases eq_or_ne t u with rfl | other
          · -- the task that has just been bootstrapped
            rw [Function.update_self] at idle
            cases idle
            refine ⟨.inr booted.running, ((sound'.core.allowed t).current _ ?_).2⟩
            rw [booted.current, if_pos rfl]
          · rw [Function.update_of_ne other] at idle
            exact old idle
  · cases stepped

/-- An interrupt on a CPU that has its bootstrap task finds a task to run. -/
theorem IdleWorld.Manned.not_starved (manned : w.Manned) (sound : w.world.Sound contents held)
    (kept : w.Kept action) (permitted : w.Permits action) : ¬ w.Starves action := by
  have seat : ∀ {t cpu}, w.idle t = some cpu → (w.world.state.cpus cpu).online := by
    intro t cpu idle
    obtain ⟨ready, own⟩ := manned t cpu idle
    exact own ▸ ((sound.core.allowed t).seated ready.live.1).online
  cases action with
  | timerTick cpu frame =>
      rintro ⟨id, panics⟩
      obtain ⟨t, idle⟩ := permitted
      obtain ⟨ready, own⟩ := manned t cpu idle
      obtain ⟨m, timers, ⟨queues, coreM⟩, stirs⟩ := tickTimers_core sound.core kept.1
      have drift : Drift (fun _ => False) w.world.state m := tickTimers_drift timers
      have ownM : (m.tasks t).assignedCpu = cpu := by
        by_contra moved
        exact kept.stays sound (by simp [idle]) ready ⟨m, timers, own ▸ moved⟩
      unfold schedulerOnTimerTick at panics
      rw [timers] at panics
      exact tickCurrent_not_starved coreM (stirs.reserved sound.reserved)
        ((stirs.topology.online cpu).trans (seat idle)) ((drift.tasks t).ready ready) ownM
        (some frame) id panics
  | yield cpu frame =>
      rintro ⟨id, panics⟩
      obtain ⟨t, idle⟩ := permitted
      obtain ⟨ready, own⟩ := manned t cpu idle
      unfold schedulerOnYield at panics
      rw [sound.core.topology.currentCpu_eq (seat idle)] at panics
      exact schedulerScheduleCpu_not_starved sound.core sound.reserved (seat idle) ready own cpu
        (some frame) id panics
  | _ => exact id

end

/-- **A CPU never runs out of tasks.**  Over any topology and any run in which no
bootstrap task is queued when the balancer runs, no interrupt on a CPU with a
bootstrap task panics for want of a runnable task. -/
theorem cpu_never_starves {spaces : Paging.AddressSpaces} {smpAvailable : Bool}
    {config : TopologyConfig} {start : IdleWorld} {w : Reading IdleWorld}
    {steps : List (ReadStep Action)} (action : Action)
    (started : IdleWorld.start spaces smpAvailable config = some start)
    (kept : idleCallers.Along IdleWorld.Kept (.start start) steps)
    (ran : idleCallers.readRun (.start start) steps = some w)
    (keeps : w.inner.Kept action) (permitted : w.inner.Permits action) :
    ¬ w.inner.Starves action := by
  obtain ⟨world, begun, rfl⟩ := Option.map_eq_some_iff.mp started
  obtain ⟨contents, sound⟩ := World.start_sound begun
  obtain ⟨⟨contents', held', after⟩, staffed⟩ := Callers.invariant (c := idleCallers)
    (I := fun w => (∃ contents held, w.world.Sound contents held) ∧ w.Manned)
    (by rintro _ _ _ ⟨⟨_, _, sound⟩, manned⟩ kept stepped; exact manned.step sound kept stepped)
    (Callers.honest_start _) kept ran ⟨⟨_, _, sound⟩, by intro t cpu idle; cases idle⟩
  exact staffed.not_starved after keeps permitted

/-- CPU 1 runs a task of its own, which goes to sleep. -/
def lastTaskSleeps : List Action :=
  bringUp ++ [.sleep 1 5]

theorem cpu_never_starves_lastTaskSleeps :
    ∃ start w, IdleWorld.start kernelOnly true twoCpus = some start ∧
      idleCallers.readRun (.start start) (idleCallers.whole lastTaskSleeps) = some w ∧
      w.inner.Permits (.yield 1 0x103000) ∧ ¬ w.inner.Starves (.yield 1 0x103000) := by
  have whole : ((IdleWorld.start kernelOnly true twoCpus).bind fun start =>
      idleCallers.readRun (.start start) (idleCallers.whole lastTaskSleeps)).map
        (fun w => decide (w.inner.Permits (.yield 1 0x103000))) = some true := by
    decide +kernel
  obtain ⟨w, ran, permitted⟩ := Option.map_eq_some_iff.mp whole
  obtain ⟨start, started, ran⟩ := Option.bind_eq_some_iff.mp ran
  rw [decide_eq_true_eq] at permitted
  have kept : idleCallers.Along IdleWorld.Kept (.start start) (idleCallers.whole lastTaskSleeps) :=
    Callers.along_whole (by simp [lastTaskSleeps, bringUp, create, IdleWorld.Kept, World.Calm]) _
  have keeps : w.inner.Kept (.yield 1 0x103000) := ⟨trivial, by simp⟩
  exact ⟨start, w, started, ran, permitted, cpu_never_starves _ started kept ran keeps permitted⟩

/-- CPU 1 runs a task, with another one and its bootstrap task queued.  The
sixteenth tick on CPU 0 balances and takes the bootstrap task; then the two tasks
of CPU 1 sleep. -/
def bootstrapTaskMigrates : List Action :=
  [.bootstrapCurrent 0x9000 none, .bootstrapSecondary 1 0xA000 none] ++
    create 2 2 0x100000 ++ create 3 2 0x110000 ++ [.yield 1 0x9F00] ++
    List.replicate 16 (.timerTick 0 0x8F00) ++
    [.sleep 1 100, .yield 1 0x103000, .sleep 1 100]

/-- CPU 1 is left without a task and panics. -/
theorem cpu_starves :
    ∃ start w, IdleWorld.start kernelOnly true twoCpus = some start ∧
      idleCallers.readRun (.start start) (idleCallers.whole bootstrapTaskMigrates) = some w ∧
      w.inner.Permits (.yield 1 0x113000) ∧ w.inner.Starves (.yield 1 0x113000) := by
  have whole : ((IdleWorld.start kernelOnly true twoCpus).bind fun start =>
      idleCallers.readRun (.start start) (idleCallers.whole bootstrapTaskMigrates)).map
        (fun w => (decide (w.inner.Permits (.yield 1 0x113000)),
        match schedulerOnYield w.inner.world.state 1 (some 0x113000) with
        | .error (.panic (.noRunnableTasks id)) => some id
        | _ => none)) = some (true, some 1) := by
    decide +kernel
  obtain ⟨w, ran, ends⟩ := Option.map_eq_some_iff.mp whole
  obtain ⟨start, started, ran⟩ := Option.bind_eq_some_iff.mp ran
  simp only [Prod.mk.injEq, decide_eq_true_eq] at ends
  obtain ⟨permitted, panics⟩ := ends
  refine ⟨start, w, started, ran, permitted, 1, ?_⟩
  split at panics
  · next fault =>
      cases panics
      exact fault
  · cases panics

end Dfos.Scheduler
