import Dfos.Scheduler.Operations

/-!
# Interleavings of critical sections

The scheduler on several CPUs, one locked critical section or one interrupt at
a time.  Between the locked part of `scheduler_sleep`, `scheduler_wait_channel`
or `scheduler_exit_current` and its `int 48`, every other step may run.

Beside the scheduler's state a `World` holds the slots in creation, the frame
each task was last interrupted with, and the dispatches so far.
-/

namespace Dfos.Scheduler

open Dfos.Lib
open Dfos.Paging (AddressSpaces)

/-- A return from an interrupt: the CPU, its current task, the frame it resumes,
and the frame the task was last suspended with. -/
structure Resumption where
  cpu : Nat
  task : TaskId
  frame : Option Nat
  suspended : Option Nat
  deriving DecidableEq, Repr

structure World where
  state : State
  /-- The slots that `scheduler_create_kernel_task_ex` has reserved, with the
  configuration it has settled on. -/
  pending : TaskId → Option TaskConfig
  /-- The frame of the interrupt that last suspended the task, or the frame it
  was created with. -/
  suspended : TaskId → Option Nat
  resumptions : List Resumption

/-- One atomic step, with the CPU that takes it where that matters. -/
inductive Action where
  | bootstrapCurrent (stackTop : Nat) (name : Option String)
  | bootstrapSecondary (cpuId kernelStackTop : Nat) (name : Option String)
  | createReserve (cpu : Nat) (config : TaskConfig)
  | createEnqueue (cpu : Nat) (task : TaskId) (request : TaskRequest) (space stack : Nat)
  | createRelease (task : TaskId)
  | timerTick (cpu frame : Nat)
  | yield (cpu frame : Nat)
  | sleep (cpu ticks : Nat)
  | waitChannel (cpu channel timeoutTicks : Nat)
  | wakeChannel (cpu channel maxCount : Nat)
  | setTaskPriority (cpu taskId priority : Nat)
  | exitCurrent (cpu : Nat)
  | joinTask (taskId : Nat)
  | reapZombie

/-- The interrupt suspends the current task of the CPU. -/
def suspend (s : State) (suspended : TaskId → Option Nat) (cpu frame : Nat) :
    TaskId → Option Nat :=
  match (s.cpus cpu).current with
  | some t => Function.update suspended t (some frame)
  | none => suspended

/-- An interrupt on `cpu` with `frame`, given what its handler returns. -/
def World.interrupt (w : World) (cpu frame : Nat) :
    Except Fault (State × Option Nat) → Option World
  | .error _ => none
  | .ok (s, resumed) =>
      let suspended := suspend w.state w.suspended cpu frame
      some { w with
        state := s
        suspended := suspended
        resumptions :=
          match (s.cpus cpu).current with
          | some t => ⟨cpu, t, resumed, suspended t⟩ :: w.resumptions
          | none => w.resumptions }

/-- The task a CPU executes. -/
def World.runningOn (w : World) (cpu : Nat) : Option TaskId :=
  (schedulerCurrentTask w.state cpu).filter fun t => (w.state.tasks t).state = .running

/-- The current task of the CPU calls into the scheduler.  It can if it is
running: past the locked part of a blocking call it only executes `int 48`. -/
def World.call (w : World) (cpu : Nat) (section_ : TaskId → State) : Option World :=
  match schedulerCurrentTask w.state cpu with
  | none => none
  | some task =>
      if (w.state.tasks task).state = .running then some { w with state := section_ task }
      else none

/-- A task that is bootstrapped has not been suspended before. -/
def World.bootstrapped (w : World) (s : State) (task : Option TaskId) : World :=
  match task with
  | some t => { w with state := s, suspended := Function.update w.suspended t none }
  | none => { w with state := s }

/-- One step, or `none` where it is not possible or panics. -/
def World.step (w : World) : Action → Option World
  | .bootstrapCurrent stackTop name =>
      match schedulerBootstrapCurrent w.state stackTop name with
      | .error _ => none
      | .ok s => some (w.bootstrapped s (s.cpus s.bootCpuId).current)
  | .bootstrapSecondary cpuId kernelStackTop name =>
      match schedulerBootstrapSecondaryCurrent w.state cpuId kernelStackTop name with
      | (_, false) => none
      | (s, true) => some (w.bootstrapped s (s.cpus cpuId).current)
  | .createReserve cpu config =>
      match createReserve w.state cpu config with
      | (_, none) => none
      | (s, some (task, effective, _)) =>
          some { w with
            state := s
            pending := Function.update w.pending task (some effective) }
  | .createEnqueue cpu task request space stack =>
      match w.pending task with
      | none => none
      | some effective =>
          some { w with
            state := (createEnqueue w.state cpu request effective task space stack).1
            pending := Function.update w.pending task none
            suspended := Function.update w.suspended task
              (some (stack + taskStackSize - interruptFrameSize)) }
  | .createRelease task =>
      match w.pending task with
      | none => none
      | some _ =>
          some { w with
            state := schedulerReleaseTaskSlot w.state task
            pending := Function.update w.pending task none }
  | .timerTick cpu frame =>
      if (w.state.cpus cpu).online then
        w.interrupt cpu frame (schedulerOnTimerTick w.state cpu (some frame))
      else none
  | .yield cpu frame =>
      if (w.state.cpus cpu).online then
        w.interrupt cpu frame (schedulerOnYield w.state cpu (some frame))
      else none
  | .sleep cpu ticks =>
      if ticks = 0 then none else w.call cpu fun task => sleepLocked w.state task ticks
  | .waitChannel cpu channel timeoutTicks =>
      if timeoutTicks = 0 then none
      else w.call cpu fun task => waitLocked w.state task channel timeoutTicks
  | .exitCurrent cpu => w.call cpu fun task => exitLocked w.state task
  | .wakeChannel cpu channel maxCount =>
      match schedulerWakeChannel w.state cpu (some channel) maxCount with
      | none => none
      | some (s, _) => some { w with state := s }
  | .setTaskPriority cpu taskId priority =>
      some { w with state := (schedulerSetTaskPriority w.state cpu taskId priority).1 }
  | .joinTask taskId => some { w with state := (joinLocked w.state taskId).1 }
  | .reapZombie =>
      match reapLocked w.state with
      | none => none
      | some (s, _) => some { w with state := s }

/-- The steps one after the other. -/
def World.run (w : World) : List Action → Option World
  | [] => some w
  | action :: actions =>
      match w.step action with
      | none => none
      | some w => w.run actions

/-- The world after `scheduler_init` and `scheduler_configure_topology`. -/
def World.start (spaces : AddressSpaces) (smpAvailable : Bool) (config : TopologyConfig) :
    Option World :=
  match schedulerInit spaces smpAvailable true with
  | .error _ => none
  | .ok s => some {
      state := (schedulerConfigureTopology s config true).1
      pending := fun _ => none
      suspended := fun _ => none
      resumptions := [] }

end Dfos.Scheduler
