import Dfos.Scheduler.State

/-!
# Run queues

Choosing a CPU, putting tasks on run queues and taking them off, periodic load
balancing, timer expiry, and the switch to the next task.

`executing` is the CPU the code runs on; the functions that take a CPU state in
the source take its index here.
-/

namespace Dfos.Scheduler

open Dfos.Lib
open Dfos.Paging (pagingSwitchSpace)

/-! ## Choosing a CPU -/

/-- `scheduler_cpu_load`. -/
def schedulerCpuLoad (s : State) (cpu : Nat) : Nat :=
  match (s.cpus cpu).current with
  | some t =>
      if (s.tasks t).state = .running then (s.cpus cpu).runnableCount + 1
      else (s.cpus cpu).runnableCount
  | none => (s.cpus cpu).runnableCount

/-- The arrays `cpu_online`, `cpu_to_node` and `cpu_load` with `cpu_count`. -/
structure CpuView where
  cpuCount : Nat
  cpuOnline : Nat → Bool
  cpuToNode : Nat → Nat
  cpuLoad : Nat → Nat

/-- The view the callers fill from `cpus`. -/
def State.view (s : State) : CpuView where
  cpuCount := s.configuredCpuCount
  cpuOnline i := (s.cpus i).online
  cpuToNode i := (s.cpus i).numaNode
  cpuLoad i := schedulerCpuLoad s i

/-- The mask of the online CPUs of a view. -/
def CpuView.onlineMask (view : CpuView) : Nat :=
  (List.range view.cpuCount).foldl
    (fun mask cpu => if view.cpuOnline cpu then mask ||| (1 <<< cpu) else mask) 0

/-- `normalized_affinity`. -/
def CpuView.normalizedAffinity (view : CpuView) (affinityMask : Nat) : Nat :=
  let normalized := affinityMask &&& view.onlineMask
  if normalized = 0 then view.onlineMask else normalized

/-- The two tests that skip a CPU in the selection loop. -/
def CpuView.candidate (view : CpuView) (normalizedAffinity : Nat) (preferred : Option Nat)
    (cpu : Nat) : Bool :=
  normalizedAffinity &&& (1 <<< cpu) ≠ 0 &&
    match preferred with
    | some node => view.cpuToNode cpu = node
    | none => true

/-- One CPU of the selection loop on `(best_cpu, best_load)`. -/
def selectStep (view : CpuView) (normalizedAffinity : Nat) (preferred : Option Nat)
    (localCpu : Nat) (best : Nat × Nat) (cpu : Nat) : Nat × Nat :=
  if ¬ view.candidate normalizedAffinity preferred cpu then best
  else
    let load := view.cpuLoad cpu
    if best.1 = schedulerInvalidCpuId ∨ load < best.2 then (cpu, load)
    else if load = best.2 then
      if cpu = localCpu ∧ best.1 ≠ localCpu then (cpu, best.2)
      else if best.1 ≠ localCpu ∧ cpu < best.1 then (cpu, best.2)
      else best
    else best

/-- One pass of the selection; `preferred` is the node it enforces. -/
def selectPass (view : CpuView) (normalizedAffinity : Nat) (preferred : Option Nat)
    (localCpu : Nat) : Nat :=
  ((List.range view.cpuCount).foldl (selectStep view normalizedAffinity preferred localCpu)
    (schedulerInvalidCpuId, 0xFFFFFFFF)).1

/-- `scheduler_select_best_cpu_from_view`. -/
def schedulerSelectBestCpuFromView (view : CpuView) (affinityMask preferredNumaNode localCpu : Nat) :
    Nat :=
  if view.cpuCount = 0 then schedulerInvalidCpuId
  else if view.onlineMask = 0 then schedulerInvalidCpuId
  else
    let normalized := view.normalizedAffinity affinityMask
    let first := selectPass view normalized
      (if preferredNumaNode ≠ schedulerNumaNodeAny then some preferredNumaNode else none) localCpu
    if first ≠ schedulerInvalidCpuId then first
    else selectPass view normalized none localCpu

/-- `scheduler_select_target_cpu`. -/
def schedulerSelectTargetCpu (s : State) (executing affinityMask preferredNumaNode : Nat) : Nat :=
  let localCpu := if s.bootstrapped then schedulerCurrentCpu s executing else s.bootCpuId
  let selected := schedulerSelectBestCpuFromView s.view affinityMask preferredNumaNode localCpu
  if selected = schedulerInvalidCpuId then s.bootCpuId else selected

/-! ## Enqueueing and dequeueing -/

/-- `scheduler_notify_remote_runnable`. -/
def schedulerNotifyRemoteRunnable (s : State) (executing cpu : Nat) (reason : EnqueueReason) :
    State :=
  if ¬ s.bootstrapped ∨ ¬ (s.cpus cpu).online ∨ ¬ s.smpAvailable then s
  else if (s.cpus cpu).id = schedulerCurrentCpu s executing then s
  else { s with ipis := ((s.cpus cpu).id, reason) :: s.ipis }

/-- Puts a task on a run queue of `cpu`. -/
def addRunnable (s : State) (cpu priority : Nat) (task : TaskId) : State :=
  (taskListPushBack s (.runnable cpu priority) task .runnable).setCpu cpu
    fun c => { c with runnableCount := c.runnableCount + 1 }

/-- Takes a task off a run queue of `cpu`. -/
def dropRunnable (s : State) (cpu priority : Nat) (task : TaskId) : State :=
  (taskListRemove s (.runnable cpu priority) task).setCpu cpu
    fun c => { c with runnableCount := c.runnableCount - 1 }

/-- The fields `scheduler_cpu_enqueue_runnable_local` writes. -/
def enqueuedTask (s : State) (cpu : Nat) (t : Task) : Task :=
  { t with
    priority := schedulerPrioritySanitize t.priority
    assignedCpu := (s.cpus cpu).id
    assignedNumaNode := (s.cpus cpu).numaNode
    state := .runnable
    ticksInSlice := 0
    runnableEnqueueTick := s.systemTicks }

/-- `scheduler_cpu_enqueue_runnable_local`. -/
def schedulerCpuEnqueueRunnableLocal (s : State) (cpu : Nat) (task : TaskId) : State :=
  let priority := schedulerPrioritySanitize (s.tasks task).priority
  addRunnable (s.setTask task (enqueuedTask s cpu)) cpu priority task

/-- `scheduler_cpu_enqueue_runnable`. -/
def schedulerCpuEnqueueRunnable (s : State) (executing cpu : Nat) (task : TaskId)
    (reason : EnqueueReason) : State :=
  schedulerNotifyRemoteRunnable (schedulerCpuEnqueueRunnableLocal s cpu task) executing cpu reason

/-- `scheduler_enqueue_runnable`. -/
def schedulerEnqueueRunnable (s : State) (executing : Nat) (task : TaskId)
    (reason : EnqueueReason) : State :=
  schedulerCpuEnqueueRunnable s executing (schedulerCpuById s (s.tasks task).assignedCpu) task
    reason

/-- `scheduler_remove_runnable`. -/
def schedulerRemoveRunnable (s : State) (task : TaskId) : State :=
  if (s.tasks task).listKind ≠ .runnable ∨ (s.tasks task).state ≠ .runnable then s
  else
    dropRunnable s (schedulerCpuById s (s.tasks task).assignedCpu)
      (schedulerPrioritySanitize (s.tasks task).priority) task

/-- The loop of `scheduler_cpu_dequeue_next_runnable` from `priority` on, with
`left` priorities to go. -/
def dequeueFrom (s : State) (cpu : Nat) : (left priority : Nat) → State × Option TaskId
  | 0, _ => (s, none)
  | left + 1, priority =>
      match (s.lists (.runnable cpu priority)).head with
      | some next => (dropRunnable s cpu priority next, some next)
      | none => dequeueFrom s cpu left (priority + 1)

/-- `scheduler_cpu_dequeue_next_runnable`. -/
def schedulerCpuDequeueNextRunnable (s : State) (cpu : Nat) : State × Option TaskId :=
  dequeueFrom s cpu schedulerPriorityCount 0

/-! ## Load balancing -/

/-- `scheduler_migrate_runnable_task`. -/
def schedulerMigrateRunnableTask (s : State) (executing source target : Nat) (task : TaskId)
    (notifyTarget : Bool) : State × Bool :=
  if source = target then (s, false)
  else if ¬ (s.cpus source).online ∨ ¬ (s.cpus target).online then (s, false)
  else if (s.tasks task).state ≠ .runnable ∨ (s.tasks task).listKind ≠ .runnable then (s, false)
  else if (s.tasks task).assignedCpu ≠ (s.cpus source).id then (s, false)
  else if (s.tasks task).cpuAffinityMask &&& (1 <<< (s.cpus target).id) = 0 then (s, false)
  else
    let s := dropRunnable s source (schedulerPrioritySanitize (s.tasks task).priority) task
    if notifyTarget then (schedulerCpuEnqueueRunnable s executing target task .reschedule, true)
    else (schedulerCpuEnqueueRunnableLocal s target task, true)

/-- What one call of `scheduler_balance_once_from_view` works on: the state,
`cpu_load`, and whether a task has moved. -/
structure Balance where
  state : State
  cpuLoad : Nat → Nat
  moved : Bool

/-- The body of the innermost loop of `scheduler_balance_once_from_view`; the
flag says whether the call returns. -/
def balanceTask (executing source : Nat) (view : CpuView) (notifyTarget : Bool)
    (task : TaskId) (b : Balance) : Balance × Bool :=
  let t := b.state.tasks task
  let target := schedulerSelectBestCpuFromView { view with cpuLoad := b.cpuLoad }
    t.cpuAffinityMask t.preferredNumaNode (b.state.cpus source).id
  if target = schedulerInvalidCpuId ∨ target = (b.state.cpus source).id then (b, false)
  else if b.cpuLoad source ≤ b.cpuLoad target + 1 then (b, false)
  else if ¬ view.cpuOnline target ∨ ¬ (b.state.cpus target).online then (b, false)
  else
    match schedulerMigrateRunnableTask b.state executing source target task notifyTarget with
    | (_, false) => (b, false)
    | (state, true) =>
        let cpuLoad := Function.update b.cpuLoad source (b.cpuLoad source - 1)
        ({ state := state
           cpuLoad := Function.update cpuLoad target (cpuLoad target + 1)
           moved := true }, true)

/-- The walk over one run queue. -/
def balanceQueue (executing source : Nat) (view : CpuView) (notifyTarget : Bool) (priority : Nat)
    (b : Balance) : Option Balance :=
  walk (fun b t => b.state.links.next t) (balanceTask executing source view notifyTarget)
    schedulerMaxThreads (b.state.lists (.runnable source priority)).head b

/-- The loop over the priorities, lowest first; `left` counts down. -/
def balancePriorities (executing source : Nat) (view : CpuView) (notifyTarget : Bool) :
    (left : Nat) → Balance → Option Balance
  | 0, b => some b
  | left + 1, b => do
      let b ← balanceQueue executing source view notifyTarget left b
      if b.moved then return b
      balancePriorities executing source view notifyTarget left b

/-- The loop over the source CPUs. -/
def balanceSources (executing : Nat) (view : CpuView) (notifyTarget : Bool) :
    (left source : Nat) → Balance → Option Balance
  | 0, _, b => some b
  | left + 1, source, b =>
      if ¬ view.cpuOnline source ∨ ¬ (b.state.cpus source).online ∨
          (b.state.cpus source).runnableCount = 0 then
        balanceSources executing view notifyTarget left (source + 1) b
      else do
        let b ← balancePriorities executing source view notifyTarget schedulerPriorityCount b
        if b.moved then return b
        balanceSources executing view notifyTarget left (source + 1) b

/-- `scheduler_balance_once_from_view` on `cpus`. -/
def schedulerBalanceOnceFromView (executing : Nat) (view : CpuView) (notifyTarget : Bool)
    (b : Balance) : Option Balance :=
  if view.cpuCount ≤ 1 then some { b with moved := false }
  else balanceSources executing view notifyTarget view.cpuCount 0 { b with moved := false }

/-- The loop of `scheduler_balance_periodic`, with `left` migrations to go. -/
def balanceLoop (executing : Nat) (view : CpuView) (notifyTarget : Bool) :
    (left : Nat) → Balance → Option Balance
  | 0, b => some b
  | left + 1, b => do
      let b ← schedulerBalanceOnceFromView executing view notifyTarget b
      if b.moved then balanceLoop executing view notifyTarget left b else return b

/-- `scheduler_balance_periodic`. -/
def schedulerBalancePeriodic (s : State) (executing : Nat) : Option State := do
  let b ← balanceLoop executing s.view true 2
    { state := s, cpuLoad := s.view.cpuLoad, moved := false }
  return b.state

/-- `scheduler_should_balance_now`, which also records the tick. -/
def schedulerShouldBalanceNow (s : State) : State × Bool :=
  if ¬ s.bootstrapped ∨ s.configuredCpuCount ≤ 1 ∨ ¬ s.smpAvailable then (s, false)
  else if u32Sub s.systemTicks s.lastBalanceTick < 16 then (s, false)
  else ({ s with lastBalanceTick := s.systemTicks }, true)

/-! ## Timers -/

/-- The body of the first loop of `scheduler_advance_timers`. -/
def expireSleep (executing : Nat) (task : TaskId) (s : State) : State × Bool :=
  if (s.tasks task).wakeupTick ≤ s.systemTicks then
    (schedulerEnqueueRunnable (taskListRemove s .sleeping task) executing task .wakeup, false)
  else (s, false)

/-- The end of a wait: off the blocked list and onto a run queue. -/
def endWait (s : State) (executing : Nat) (task : TaskId) (result : Bool) : State :=
  let s := (taskListRemove s .blocked task).setTask task fun t => { t with
    waitChannel := none
    waitResult := result
    wakeupTick := 0 }
  schedulerEnqueueRunnable s executing task .wakeup

/-- The body of the second loop of `scheduler_advance_timers`. -/
def expireWait (executing : Nat) (task : TaskId) (s : State) : State × Bool :=
  if (s.tasks task).wakeupTick ≠ 0 ∧ (s.tasks task).wakeupTick ≤ s.systemTicks then
    (endWait s executing task false, false)
  else (s, false)

/-- `scheduler_advance_timers`. -/
def schedulerAdvanceTimers (s : State) (executing : Nat) : Option State := do
  let s ← walk (fun s t => s.links.next t) (expireSleep executing) schedulerMaxThreads
    (s.lists .sleeping).head s
  walk (fun s t => s.links.next t) (expireWait executing) schedulerMaxThreads
    (s.lists .blocked).head s

/-! ## Dispatch -/

/-- `scheduler_cpu_has_higher_priority_runnable`. -/
def schedulerCpuHasHigherPriorityRunnable (s : State) (cpu priority : Nat) : Bool :=
  (List.range (schedulerPrioritySanitize priority)).any
    fun i => 0 < (s.lists (.runnable cpu i)).count

/-- `next` runs and is the current task of `cpu`. -/
def makeCurrent (s : State) (cpu : Nat) (next : TaskId) : State :=
  (s.setTask next fun t => { t with state := .running, ticksInSlice := 0 }).setCpu cpu
    fun c => { c with current := some next }

/-- `scheduler_switch_to_task`, returning the frame to resume. -/
def schedulerSwitchToTask (s : State) (executing cpu : Nat) (next : Option TaskId)
    (fallbackFrame : Option Nat) : Except Fault (State × Option Nat) :=
  match next with
  | none =>
      match (s.cpus cpu).current with
      | none => .error (.panic (.noRunnableTasks (s.cpus cpu).id))
      | some current =>
          if (s.tasks current).state = .running then
            .ok ({ s with
              spaces := pagingSwitchSpace s.spaces executing (s.tasks current).space },
              fallbackFrame)
          else .error (.panic (.noRunnableTasks (s.cpus cpu).id))
  | some next =>
      let s := makeCurrent s cpu next
      .ok ({ s with spaces := pagingSwitchSpace s.spaces executing (s.tasks next).space },
        (s.tasks next).frame)

/-- A current task that is running goes back to a run queue of the CPU. -/
def requeueCurrent (s : State) (executing cpu : Nat) : State :=
  match (s.cpus cpu).current with
  | some current =>
      if (s.tasks current).state = .running then
        schedulerCpuEnqueueRunnable s executing cpu current .reschedule
      else s
  | none => s

/-- The end of `scheduler_schedule_cpu`: the current task makes way, and the
next task is dispatched. -/
def reschedule (s : State) (executing cpu : Nat) (frame : Option Nat) :
    Except Fault (State × Option Nat) :=
  let (s, next) := schedulerCpuDequeueNextRunnable (requeueCurrent s executing cpu) cpu
  schedulerSwitchToTask s executing cpu next frame

/-- `current->frame = frame`, when there is a current task. -/
def saveFrame (s : State) (cpu : Nat) (frame : Option Nat) : State :=
  match (s.cpus cpu).current with
  | some current => s.setTask current fun t => { t with frame := frame }
  | none => s

/-- `scheduler_schedule_cpu`. -/
def schedulerScheduleCpu (s : State) (executing cpu : Nat) (frame : Option Nat)
    (forceSwitch : Bool) : Except Fault (State × Option Nat) :=
  let s := saveFrame s cpu frame
  match (s.cpus cpu).current with
  | some current =>
      if (s.tasks current).state = .running ∧ ¬ forceSwitch ∧
          ¬ schedulerCpuHasHigherPriorityRunnable s cpu (s.tasks current).priority then
        .ok (s, frame)
      else reschedule s executing cpu frame
  | none => reschedule s executing cpu frame

end Dfos.Scheduler
