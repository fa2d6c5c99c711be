import Dfos.Scheduler.Queues

/-!
# Scheduler operations

The entry points of `kernel/kernel/scheduler.c`.  A call that holds
`scheduler_state_lock` more than once is cut into its critical sections, and
the complete call is their composition; the switch that ends a blocking call is
`scheduler_on_yield` entered through `int 48`.

Answers of the paging code (a new space, a stack) are arguments.
-/

namespace Dfos.Scheduler

open Dfos.Lib
open Dfos.Paging (AddressSpaces PagingSpace)

/-! ## Task slots -/

/-- `scheduler_allocate_task_slot`. -/
def schedulerAllocateTaskSlot (s : State) : State × Option TaskId :=
  match taskListPopFront s .free with
  | (s, none) => (s, none)
  | (s, some task) => (taskReset s task, some task)

/-- `scheduler_release_task_slot`. -/
def schedulerReleaseTaskSlot (s : State) (task : TaskId) : State :=
  taskListPushBack (taskReset s task) .free task .free

/-- Fills in a slot and counts `next_task_id` on. -/
def State.fillSlot (s : State) (task : TaskId) (f : Task → Task) : State :=
  { s.setTask task f with nextTaskId := u32Add s.nextTaskId 1 }

/-- `scheduler_find_task_by_id`. -/
def schedulerFindTaskById (s : State) (taskId : Nat) : Option TaskId :=
  (List.finRange 32).find? fun t => (s.tasks t).state ≠ .unused && (s.tasks t).id = taskId

/-! ## Initialisation -/

/-- The state before `scheduler_init`: zeroed statics. -/
def State.zero (spaces : AddressSpaces) (smpAvailable : Bool) : State where
  tasks _ := Task.reset 0
  links := ⟨fun _ => none, fun _ => none⟩
  lists _ := Anchor.empty
  cpus _ := { id := 0, numaNode := 0, online := false, runnableCount := 0, current := none }
  configuredCpuCount := 0
  configuredNodeCount := 0
  bootCpuId := 0
  systemTicks := 0
  nextTaskId := 1
  lastBalanceTick := 0
  bootstrapped := false
  spaces := spaces
  smpAvailable := smpAvailable
  ipis := []

/-- The loop of `scheduler_init` that puts every slot on the free list. -/
def initTasks (s : State) : State :=
  (List.finRange 32).foldl schedulerReleaseTaskSlot s

/-- `scheduler_init`, where `pmmAccepts` answers `pmm_configure_numa_topology`. -/
def schedulerInit (spaces : AddressSpaces) (smpAvailable pmmAccepts : Bool) :
    Except Fault State :=
  let s := initTasks (State.zero spaces smpAvailable)
  match schedulerConfigureTopology s schedulerTopologyDefault pmmAccepts with
  | (s, true) => .ok s
  | (_, false) => .error (.panic .failedDefaultTopology)

/-- The fields `scheduler_bootstrap_cpu_task` writes. -/
def bootstrapTask (s : State) (cpu kernelStackTop : Nat) (name : Option String) (t : Task) :
    Task :=
  { t with
    id := s.nextTaskId
    name := some (name.getD "bootstrap")
    state := .running
    priority := schedulerPriorityNormal
    cpuAffinityMask := schedulerOnlineCpuMask s
    preferredNumaNode := schedulerNumaNodeAny
    assignedCpu := (s.cpus cpu).id
    assignedNumaNode := (s.cpus cpu).numaNode
    frame := none
    stackBase := none
    kernelStackTop := kernelStackTop
    wakeupTick := 0
    runnableEnqueueTick := 0
    entry := none
    arg := 0
    space := s.spaces.kernelSpace
    ticksInSlice := 0
    waitChannel := none
    waitResult := false }

/-- `scheduler_bootstrap_cpu_task`. -/
def schedulerBootstrapCpuTask (s : State) (cpuId kernelStackTop : Nat) (name : Option String) :
    State × Option TaskId :=
  if s.configuredCpuCount = 0 ∨ s.configuredCpuCount ≤ cpuId ∨ ¬ (s.cpus cpuId).online then
    (s, none)
  else if (s.cpus cpuId).current ≠ none then (s, none)
  else
    match schedulerAllocateTaskSlot s with
    | (s, none) => (s, none)
    | (s, some task) =>
        let s := s.fillSlot task (bootstrapTask s cpuId kernelStackTop name)
        (s.setCpu cpuId fun c => { c with current := some task }, some task)

/-- `scheduler_bootstrap_current`. -/
def schedulerBootstrapCurrent (s : State) (stackTop : Nat) (name : Option String) :
    Except Fault State :=
  if s.bootstrapped then .error (.panic .bootstrapAttemptedTwice)
  else if s.configuredCpuCount = 0 then .error (.panic .topologyNotConfigured)
  else
    match schedulerBootstrapCpuTask s s.bootCpuId stackTop (some (name.getD "bootstrap")) with
    | (s, none) => .error (.panic (.couldNotAttachBootstrapTask s.bootCpuId))
    | (s, some task) =>
        .ok { s.setTask task fun t => { t with space := s.spaces.currentSpace } with
          bootstrapped := true }

/-- `scheduler_bootstrap_secondary_current`. -/
def schedulerBootstrapSecondaryCurrent (s : State) (cpuId kernelStackTop : Nat)
    (name : Option String) : State × Bool :=
  if ¬ s.bootstrapped then (s, false)
  else if s.configuredCpuCount ≤ cpuId then (s, false)
  else if cpuId = s.bootCpuId then (s, false)
  else
    match schedulerBootstrapCpuTask s cpuId kernelStackTop name with
    | (s, none) => (s, false)
    | (s, some _) => (s, true)

/-! ## Creating a task -/

/-- `scheduler_task_config_t`. -/
structure TaskConfig where
  priority : Nat
  cpuAffinityMask : Nat
  preferredNumaNode : Nat
  deriving DecidableEq, Repr

/-- The arguments of `scheduler_create_kernel_task_ex` that the task keeps. -/
structure TaskRequest where
  name : Option String
  entry : Option Nat
  arg : Nat
  config : TaskConfig
  deriving DecidableEq, Repr

/-- `effective`. -/
def effectiveConfig (s : State) (config : TaskConfig) : TaskConfig where
  priority := schedulerPrioritySanitize config.priority
  cpuAffinityMask := schedulerNormalizeAffinityMask s config.cpuAffinityMask
  preferredNumaNode :=
    if config.preferredNumaNode ≠ schedulerNumaNodeAny ∧
      s.configuredNodeCount ≤ config.preferredNumaNode then schedulerNumaNodeAny
    else config.preferredNumaNode

/-- The first critical section of `scheduler_create_kernel_task_ex`: the
effective configuration, the node for the task's memory, and a slot. -/
def createReserve (s : State) (executing : Nat) (config : TaskConfig) :
    State × Option (TaskId × TaskConfig × Nat) :=
  if s.configuredCpuCount = 0 then (s, none)
  else
    let effective := effectiveConfig s config
    let hint := schedulerCpuById s (schedulerSelectTargetCpu s executing
      effective.cpuAffinityMask effective.preferredNumaNode)
    match schedulerAllocateTaskSlot s with
    | (s', none) => (s', none)
    | (s', some task) => (s', some (task, effective, (s.cpus hint).numaNode))

/-- The fields the second critical section writes before it enqueues the task. -/
def createdTask (s : State) (request : TaskRequest) (effective : TaskConfig)
    (cpu space stack : Nat) (t : Task) : Task :=
  { t with
    id := s.nextTaskId
    name := some (request.name.getD "kernel-task")
    state := .runnable
    priority := effective.priority
    cpuAffinityMask := effective.cpuAffinityMask
    preferredNumaNode := effective.preferredNumaNode
    assignedCpu := (s.cpus cpu).id
    assignedNumaNode := (s.cpus cpu).numaNode
    frame := some (stack + taskStackSize - interruptFrameSize)
    stackBase := some stack
    kernelStackTop := stack + taskStackSize
    wakeupTick := 0
    runnableEnqueueTick := 0
    entry := request.entry
    arg := request.arg
    space := some space
    ticksInSlice := 0
    waitChannel := none
    waitResult := false }

/-- The second critical section: the task is filled in and enqueued.  With no
CPU configured the slot goes back. -/
def createEnqueue (s : State) (executing : Nat) (request : TaskRequest) (effective : TaskConfig)
    (task : TaskId) (space stack : Nat) : State × Bool :=
  if s.configuredCpuCount = 0 then (schedulerReleaseTaskSlot s task, false)
  else
    let cpu := schedulerCpuById s (schedulerSelectTargetCpu s executing
      effective.cpuAffinityMask effective.preferredNumaNode)
    let s := s.fillSlot task (createdTask s request effective cpu space stack)
    (schedulerCpuEnqueueRunnable s executing cpu task .reschedule, true)

/-- `scheduler_create_kernel_task_ex`, given the answers of
`paging_create_process_space_on_node` and `paging_alloc_pages_on_node`. -/
def schedulerCreateKernelTaskEx (s : State) (executing : Nat) (request : TaskRequest)
    (space stack : Option Nat) : State × Bool :=
  if request.entry = none then (s, false)
  else
    match createReserve s executing request.config with
    | (s, none) => (s, false)
    | (s, some (task, effective, _)) =>
        match space, stack with
        | some space, some stack => createEnqueue s executing request effective task space stack
        | _, _ => (schedulerReleaseTaskSlot s task, false)

/-! ## Ticks and yields -/

/-- Takes a queued task off its run queue. -/
def unqueue (s : State) (task : TaskId) : State :=
  if (s.tasks task).state = .runnable ∧ (s.tasks task).listKind = .runnable then
    schedulerRemoveRunnable s task
  else s

/-- Puts a task that is runnable on the run queue of its priority. -/
def requeue (s : State) (executing : Nat) (task : TaskId) : State :=
  if (s.tasks task).state = .runnable then
    schedulerEnqueueRunnable s executing task .reschedule
  else s

/-- Starts the slice of a running task anew. -/
def renewSlice (s : State) (task : TaskId) : State :=
  if (s.tasks task).state = .running then
    s.setTask task fun t => { t with ticksInSlice := 0 }
  else s

/-- What `scheduler_set_task_priority` does to the task it has found. -/
def changePriority (s : State) (executing : Nat) (task : TaskId) (safePriority : Nat) : State :=
  let s := (unqueue s task).setTask task fun t => { t with priority := safePriority }
  renewSlice (requeue s executing task) task

/-- `scheduler_set_task_priority`. -/
def schedulerSetTaskPriority (s : State) (executing taskId priority : Nat) : State × Bool :=
  match schedulerFindTaskById s taskId with
  | none => (s, false)
  | some task =>
      let safePriority := schedulerPrioritySanitize priority
      if (s.tasks task).priority = safePriority then (s, true)
      else (changePriority s executing task safePriority, true)

/-- `system_ticks++`. -/
def State.countTick (s : State) : State :=
  { s with systemTicks := u32Add s.systemTicks 1 }

/-- Timer expiry and load balancing, the first half of
`scheduler_on_timer_tick`. -/
def tickTimers (s : State) (executing : Nat) : Except Fault State := do
  let s ← walked (schedulerAdvanceTimers s.countTick executing)
  if (s.cpus (schedulerCurrentCpuState s executing)).id = s.bootCpuId then
    match schedulerShouldBalanceNow s with
    | (s, true) => walked (schedulerBalancePeriodic s executing)
    | (s, false) => .ok s
  else .ok s

/-- The second half of `scheduler_on_timer_tick`: account the tick to the
current task, and preempt it at the end of its slice or for a task of higher
priority. -/
def tickCurrent (s : State) (executing : Nat) (frame : Option Nat) :
    Except Fault (State × Option Nat) :=
  let cpu := schedulerCurrentCpuState s executing
  match (s.cpus cpu).current with
  | none => schedulerScheduleCpu s executing cpu frame true
  | some current =>
      if (s.tasks current).state ≠ .running then schedulerScheduleCpu s executing cpu frame true
      else
        let s := s.setTask current fun t => { t with ticksInSlice := u32Add t.ticksInSlice 1 }
        let t := s.tasks current
        if schedulerPriorityTimeslice t.priority ≤ t.ticksInSlice ∨
            schedulerCpuHasHigherPriorityRunnable s cpu t.priority then
          schedulerScheduleCpu s executing cpu frame true
        else .ok (s.setTask current fun t => { t with frame := frame }, frame)

/-- `scheduler_on_timer_tick`. -/
def schedulerOnTimerTick (s : State) (executing : Nat) (frame : Option Nat) :
    Except Fault (State × Option Nat) := do
  let s ← tickTimers s executing
  tickCurrent s executing frame

/-- `scheduler_on_yield`. -/
def schedulerOnYield (s : State) (executing : Nat) (frame : Option Nat) :
    Except Fault (State × Option Nat) :=
  schedulerScheduleCpu s executing (schedulerCurrentCpuState s executing) frame true

/-! ## Sleeping, waiting and waking -/

/-- The critical section of `scheduler_sleep`. -/
def sleepLocked (s : State) (task : TaskId) (ticks : Nat) : State :=
  let s := s.setTask task fun t => { t with
    wakeupTick := u32Add s.systemTicks ticks
    state := .sleeping }
  taskListPushBack s .sleeping task .sleeping

/-- `scheduler_sleep` together with its switch. -/
def schedulerSleep (s : State) (executing ticks : Nat) (frame : Option Nat) :
    Except Fault State := do
  if ticks = 0 then return (← schedulerOnYield s executing frame).1
  match schedulerCurrentTask s executing with
  | none => return s
  | some task => return (← schedulerOnYield (sleepLocked s task ticks) executing frame).1

/-- The critical section of `scheduler_wait_channel`. -/
def waitLocked (s : State) (task : TaskId) (channel timeoutTicks : Nat) : State :=
  let s := s.setTask task fun t => { t with
    waitChannel := some channel
    waitResult := false
    wakeupTick :=
      if timeoutTicks = schedulerWaitForever then 0 else u32Add s.systemTicks timeoutTicks
    state := .blocked }
  taskListPushBack s .blocked task .blocked

/-- `scheduler_wait_channel` together with its switch. -/
def schedulerWaitChannel (s : State) (executing : Nat) (channel : Option Nat)
    (timeoutTicks : Nat) (frame : Option Nat) : Except Fault State := do
  match channel with
  | none => return s
  | some channel =>
      if timeoutTicks = 0 then return s
      match schedulerCurrentTask s executing with
      | none => return s
      | some task =>
          return (← schedulerOnYield (waitLocked s task channel timeoutTicks) executing frame).1

/-- The body of the loop of `scheduler_wake_channel`, on the state and `woke`. -/
def wakeTask (executing channel limit : Nat) (task : TaskId) (w : State × Nat) :
    (State × Nat) × Bool :=
  if (w.1.tasks task).waitChannel = some channel then
    ((endWait w.1 executing task true, w.2 + 1), ¬ w.2 + 1 < limit)
  else (w, ¬ w.2 < limit)

/-- `scheduler_wake_channel`, returning `woke`. -/
def schedulerWakeChannel (s : State) (executing : Nat) (channel : Option Nat) (maxCount : Nat) :
    Option (State × Nat) :=
  match channel with
  | none => some (s, 0)
  | some channel =>
      let limit := if maxCount = 0 then 0xFFFFFFFF else maxCount
      walk (fun w t => w.1.links.next t) (wakeTask executing channel limit) schedulerMaxThreads
        (s.lists .blocked).head (s, 0)

/-! ## Exit and reaping -/

/-- The address of `scheduler_join_wait_channel_token`. -/
def schedulerJoinWaitChannelToken : Nat := 0

/-- The first critical section of `scheduler_exit_current`. -/
def exitLocked (s : State) (task : TaskId) : State :=
  taskListPushBack (s.setTask task fun t => { t with state := .zombie }) .zombie task .zombie

/-- `scheduler_exit_current` together with its wake and its switch. -/
def schedulerExitCurrent (s : State) (executing : Nat) (frame : Option Nat) :
    Except Fault State := do
  match schedulerCurrentTask s executing with
  | none => throw (.panic .exitWithoutCurrentTask)
  | some task =>
      let (s, _) ← walked (schedulerWakeChannel (exitLocked s task) executing
        (some schedulerJoinWaitChannelToken) 0)
      return (← schedulerOnYield s executing frame).1

/-- `scheduler_task_is_current_on_any_cpu_locked`. -/
def schedulerTaskIsCurrentOnAnyCpuLocked (s : State) (task : TaskId) : Bool :=
  (List.range s.configuredCpuCount).any
    fun cpu => (s.cpus cpu).online && (s.cpus cpu).current = some task

/-- `scheduler_reap_resources_t`. -/
structure ReapResources where
  stackBase : Option Nat
  space : Option Nat
  deriving DecidableEq, Repr

/-- `scheduler_detach_zombie_task_locked`. -/
def schedulerDetachZombieTaskLocked (s : State) (task : TaskId) :
    Option (State × ReapResources) :=
  if (s.tasks task).state ≠ .zombie ∨ (s.tasks task).listKind ≠ .zombie then none
  else if schedulerTaskIsCurrentOnAnyCpuLocked s task then none
  else
    let removed := taskListRemove s .zombie task
    some (schedulerReleaseTaskSlot removed task,
      { stackBase := (removed.tasks task).stackBase, space := (removed.tasks task).space })

/-- The critical section of `scheduler_join_task` on a zombie. -/
def joinLocked (s : State) (taskId : Nat) : State × Option ReapResources :=
  match schedulerFindTaskById s taskId with
  | none => (s, none)
  | some task =>
      match schedulerDetachZombieTaskLocked s task with
      | none => (s, none)
      | some (s, resources) => (s, some resources)

/-- The body of the loop over `zombie_list` in `scheduler_reap_zombies`. -/
def reapTask (task : TaskId) (r : State × Option ReapResources) :
    (State × Option ReapResources) × Bool :=
  match schedulerDetachZombieTaskLocked r.1 task with
  | none => (r, false)
  | some (s, resources) => ((s, some resources), true)

/-- The critical section of `scheduler_reap_zombies`. -/
def reapLocked (s : State) : Option (State × Option ReapResources) :=
  walk (fun r t => r.1.links.next t) reapTask schedulerMaxThreads (s.lists .zombie).head (s, none)

/-! ## Runs of complete operations -/

/-- One complete operation. -/
inductive Op where
  | configureTopology (config : TopologyConfig) (pmmAccepts : Bool)
  | bootstrapCurrent (stackTop : Nat) (name : Option String)
  | bootstrapSecondary (cpuId kernelStackTop : Nat) (name : Option String)
  | createTask (request : TaskRequest) (space stack : Option Nat)
  | timerTick (frame : Option Nat)
  | yield (frame : Option Nat)
  | sleep (ticks : Nat) (frame : Option Nat)
  | waitChannel (channel : Option Nat) (timeoutTicks : Nat) (frame : Option Nat)
  | wakeChannel (channel : Option Nat) (maxCount : Nat)
  | setTaskPriority (taskId priority : Nat)
  | exitCurrent (frame : Option Nat)
  | joinTask (taskId : Nat)
  | reapZombie

/-- One complete operation on the CPU `executing`. -/
def State.exec (s : State) (executing : Nat) : Op → Except Fault State
  | .configureTopology config pmmAccepts =>
      .ok (schedulerConfigureTopology s config pmmAccepts).1
  | .bootstrapCurrent stackTop name => schedulerBootstrapCurrent s stackTop name
  | .bootstrapSecondary cpuId kernelStackTop name =>
      .ok (schedulerBootstrapSecondaryCurrent s cpuId kernelStackTop name).1
  | .createTask request space stack =>
      .ok (schedulerCreateKernelTaskEx s executing request space stack).1
  | .timerTick frame => do return (← schedulerOnTimerTick s executing frame).1
  | .yield frame => do return (← schedulerOnYield s executing frame).1
  | .sleep ticks frame => schedulerSleep s executing ticks frame
  | .waitChannel channel timeoutTicks frame =>
      schedulerWaitChannel s executing channel timeoutTicks frame
  | .wakeChannel channel maxCount => do
      return (← walked (schedulerWakeChannel s executing channel maxCount)).1
  | .setTaskPriority taskId priority =>
      .ok (schedulerSetTaskPriority s executing taskId priority).1
  | .exitCurrent frame => schedulerExitCurrent s executing frame
  | .joinTask taskId => .ok (joinLocked s taskId).1
  | .reapZombie => do return (← walked (reapLocked s)).1

/-- A run of complete operations, each with the CPU it runs on. -/
def State.run (s : State) : List (Nat × Op) → Except Fault State
  | [] => .ok s
  | (executing, op) :: ops => do (← s.exec executing op).run ops

end Dfos.Scheduler
