import Dfos.Lib.IntrusiveList
import Dfos.Lib.Word
import Dfos.Paging.Switch

/-!
# Scheduler state

`kernel/kernel/scheduler.c`: the task table, the per-CPU state, the lists that
thread the tasks, and the topology.

A `task_t*` is an index into `tasks`; the links `list_prev` and `list_next` of
all tasks are kept together in `links`, and a `task_list_t*` is a `ListRef`.  A
`scheduler_cpu_state_t*` is an index into `cpus`.  The trace counters are
written and never read by the scheduler and are left out.
-/

namespace Dfos.Scheduler

open Dfos.Lib
open Dfos.Paging (AddressSpaces)

/-- `SCHEDULER_MAX_THREADS`. -/
def schedulerMaxThreads : Nat := 32

/-- `SCHEDULER_MAX_CPUS`. -/
def schedulerMaxCpus : Nat := 8

/-- `SCHEDULER_MAX_NUMA_NODES`. -/
def schedulerMaxNumaNodes : Nat := 4

/-- `SCHEDULER_CPU_MASK_ALL`. -/
def schedulerCpuMaskAll : Nat := 0xFFFFFFFF

/-- `SCHEDULER_NUMA_NODE_ANY`. -/
def schedulerNumaNodeAny : Nat := 0xFF

/-- `SCHEDULER_WAIT_FOREVER`. -/
def schedulerWaitForever : Nat := 0xFFFFFFFF

/-- `SCHEDULER_INVALID_CPU_ID`. -/
def schedulerInvalidCpuId : Nat := 0xFF

/-- `SCHEDULER_PRIORITY_NORMAL`. -/
def schedulerPriorityNormal : Nat := 2

/-- `SCHEDULER_PRIORITY_COUNT`. -/
def schedulerPriorityCount : Nat := 5

/-- `TASK_STACK_SIZE`. -/
def taskStackSize : Nat := 16384

/-- `sizeof(interrupt_frame_t)`: thirteen 32-bit registers. -/
def interruptFrameSize : Nat := 52

/-- `task_t*`. -/
abbrev TaskId := Fin 32

/-- `task_state_t`. -/
inductive TaskState where
  | unused
  | runnable
  | running
  | sleeping
  | blocked
  | zombie
  deriving DecidableEq, Repr

/-- `task_list_kind_t`. -/
inductive ListKind where
  | none
  | free
  | runnable
  | sleeping
  | blocked
  | zombie
  deriving DecidableEq, Repr

/-- `scheduler_enqueue_reason_t`. -/
inductive EnqueueReason where
  | reschedule
  | wakeup
  deriving DecidableEq, Repr

/-- `struct task` without its links. -/
structure Task where
  id : Nat
  name : Option String
  state : TaskState
  priority : Nat
  cpuAffinityMask : Nat
  preferredNumaNode : Nat
  assignedCpu : Nat
  assignedNumaNode : Nat
  frame : Option Nat
  stackBase : Option Nat
  kernelStackTop : Nat
  wakeupTick : Nat
  runnableEnqueueTick : Nat
  entry : Option Nat
  arg : Nat
  space : Option Nat
  waitChannel : Option Nat
  waitResult : Bool
  ticksInSlice : Nat
  listKind : ListKind
  deriving DecidableEq, Repr

/-- `task_list_t*`. -/
inductive ListRef where
  | free
  | runnable (cpu priority : Nat)
  | sleeping
  | blocked
  | zombie
  deriving DecidableEq, Repr

/-- `scheduler_cpu_state_t` without its lists. -/
structure Cpu where
  id : Nat
  numaNode : Nat
  online : Bool
  runnableCount : Nat
  current : Option TaskId
  deriving DecidableEq, Repr

/-- The static state of the scheduler, with the paging variables it acts on,
whether other CPUs can be interrupted, and the interrupts sent to them. -/
structure State where
  tasks : TaskId → Task
  links : Links TaskId
  lists : ListRef → Anchor TaskId
  cpus : Nat → Cpu
  configuredCpuCount : Nat
  configuredNodeCount : Nat
  bootCpuId : Nat
  systemTicks : Nat
  nextTaskId : Nat
  lastBalanceTick : Nat
  bootstrapped : Bool
  spaces : AddressSpaces
  smpAvailable : Bool
  ipis : List (Nat × EnqueueReason)

/-- The panics of the modelled functions. -/
inductive Panic where
  | failedDefaultTopology
  | bootstrapAttemptedTwice
  | topologyNotConfigured
  | couldNotAttachBootstrapTask (cpu : Nat)
  | noRunnableTasks (cpu : Nat)
  | exitWithoutCurrentTask
  deriving DecidableEq, Repr

/-- How a call can fail to return: by a panic, or in a list walk that does not
end. -/
inductive Fault where
  | panic (reason : Panic)
  | endlessWalk
  deriving DecidableEq, Repr

/-- The outcome of a list walk of the scheduler. -/
def walked {α : Type} : Option α → Except Fault α
  | some a => .ok a
  | none => .error .endlessWalk

/-! ## Field updates -/

def State.setTask (s : State) (t : TaskId) (f : Task → Task) : State :=
  { s with tasks := Function.update s.tasks t (f (s.tasks t)) }

def State.setCpu (s : State) (c : Nat) (f : Cpu → Cpu) : State :=
  { s with cpus := Function.update s.cpus c (f (s.cpus c)) }

/-! ## Task lists -/

/-- `task_list_push_back`. -/
def taskListPushBack (s : State) (list : ListRef) (task : TaskId) (kind : ListKind) : State :=
  let (links, anchor) := pushBack s.links (s.lists list) task
  { s with links := links, lists := Function.update s.lists list anchor }.setTask task
    fun t => { t with listKind := kind }

/-- `task_list_remove`. -/
def taskListRemove (s : State) (list : ListRef) (task : TaskId) : State :=
  let (links, anchor) := remove s.links (s.lists list) task
  { s with links := links, lists := Function.update s.lists list anchor }.setTask task
    fun t => { t with listKind := .none }

/-- `task_list_pop_front`. -/
def taskListPopFront (s : State) (list : ListRef) : State × Option TaskId :=
  match (s.lists list).head with
  | none => (s, none)
  | some task => (taskListRemove s list task, some task)

/-- The fields `task_reset` writes. -/
def Task.reset (bootCpuId : Nat) : Task where
  id := 0
  name := none
  state := .unused
  priority := schedulerPriorityNormal
  cpuAffinityMask := schedulerCpuMaskAll
  preferredNumaNode := schedulerNumaNodeAny
  assignedCpu := bootCpuId
  assignedNumaNode := 0
  frame := none
  stackBase := none
  kernelStackTop := 0
  wakeupTick := 0
  runnableEnqueueTick := 0
  entry := none
  arg := 0
  space := none
  waitChannel := none
  waitResult := false
  ticksInSlice := 0
  listKind := .none

/-- `task_reset`. -/
def taskReset (s : State) (task : TaskId) : State :=
  { s.setTask task fun _ => Task.reset s.bootCpuId with
    links := (s.links.setPrev task none).setNext task none }

/-! ## Priorities -/

/-- `scheduler_priority_sanitize`. -/
def schedulerPrioritySanitize (priority : Nat) : Nat :=
  if schedulerPriorityCount ≤ priority then schedulerPriorityNormal else priority

/-- `priority_time_slice`. -/
def priorityTimeSlice : Nat → Nat
  | 0 => 2
  | 1 => 3
  | 2 => 5
  | 3 => 7
  | _ => 9

/-- `scheduler_priority_timeslice`. -/
def schedulerPriorityTimeslice (priority : Nat) : Nat :=
  priorityTimeSlice (schedulerPrioritySanitize priority)

/-! ## Topology -/

/-- `scheduler_topology_config_t`. -/
structure TopologyConfig where
  cpuCount : Nat
  bootCpuId : Nat
  nodeCount : Nat
  cpuToNode : Nat → Nat
  cpuOnline : Nat → Bool

/-- `scheduler_topology_default`. -/
def schedulerTopologyDefault : TopologyConfig where
  cpuCount := 1
  bootCpuId := 0
  nodeCount := 1
  cpuToNode _ := 0
  cpuOnline i := i = 0

/-- `scheduler_has_live_tasks`. -/
def schedulerHasLiveTasks (s : State) : Bool :=
  (List.finRange 32).any fun t => (s.tasks t).state ≠ .unused

/-- The checks of `scheduler_configure_topology` on the configuration. -/
def TopologyConfig.accepted (config : TopologyConfig) : Bool :=
  ¬ (config.cpuCount = 0 ∨ schedulerMaxCpus < config.cpuCount) &&
  ¬ (config.nodeCount = 0 ∨ schedulerMaxNumaNodes < config.nodeCount) &&
  ¬ config.cpuCount ≤ config.bootCpuId &&
  (List.range config.cpuCount).all (fun i => config.cpuToNode i < config.nodeCount) &&
  (List.range config.cpuCount).any config.cpuOnline &&
  config.cpuOnline config.bootCpuId

/-- The new topology, with `scheduler_cpu_state_init` for every CPU. -/
def installCpus (s : State) (config : TopologyConfig) : State :=
  { s with
    configuredCpuCount := config.cpuCount
    configuredNodeCount := config.nodeCount
    bootCpuId := config.bootCpuId
    cpus := fun i =>
      if i < schedulerMaxCpus then
        { id := i
          numaNode := if i < config.cpuCount then config.cpuToNode i else 0
          online := if i < config.cpuCount then config.cpuOnline i else false
          runnableCount := 0
          current := none }
      else s.cpus i
    lists := fun r =>
      match r with
      | .runnable cpu priority =>
          if cpu < schedulerMaxCpus ∧ priority < schedulerPriorityCount then Anchor.empty
          else s.lists r
      | _ => s.lists r }

/-- `scheduler_configure_topology`; `pmmAccepts` is the answer of
`pmm_configure_numa_topology`. -/
def schedulerConfigureTopology (s : State) (config : TopologyConfig) (pmmAccepts : Bool) :
    State × Bool :=
  if s.bootstrapped ∨ schedulerHasLiveTasks s then (s, false)
  else if ¬ config.accepted then (s, false)
  else (installCpus s config, pmmAccepts)

/-- `scheduler_online_cpu_mask`. -/
def schedulerOnlineCpuMask (s : State) : Nat :=
  (List.range s.configuredCpuCount).foldl
    (fun mask i => if (s.cpus i).online then mask ||| (1 <<< i) else mask) 0

/-- `scheduler_normalize_affinity_mask`. -/
def schedulerNormalizeAffinityMask (s : State) (affinityMask : Nat) : Nat :=
  let normalized := affinityMask &&& schedulerOnlineCpuMask s
  if normalized = 0 then schedulerOnlineCpuMask s else normalized

/-- `scheduler_cpu_by_id`. -/
def schedulerCpuById (s : State) (cpuId : Nat) : Nat :=
  if s.configuredCpuCount ≤ cpuId ∨ ¬ (s.cpus cpuId).online then s.bootCpuId else cpuId

/-- `scheduler_current_cpu_state` on the CPU for which `cpu_current_id` is
`executing`. -/
def schedulerCurrentCpuState (s : State) (executing : Nat) : Nat :=
  if s.configuredCpuCount = 0 then 0
  else if s.configuredCpuCount ≤ executing ∨ ¬ (s.cpus executing).online then s.bootCpuId
  else executing

/-- `scheduler_current_cpu`. -/
def schedulerCurrentCpu (s : State) (executing : Nat) : Nat :=
  (s.cpus (schedulerCurrentCpuState s executing)).id

/-- `scheduler_current_task`. -/
def schedulerCurrentTask (s : State) (executing : Nat) : Option TaskId :=
  (s.cpus (schedulerCurrentCpuState s executing)).current

end Dfos.Scheduler
