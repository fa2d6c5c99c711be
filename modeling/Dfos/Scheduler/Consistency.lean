import Dfos.Scheduler.Sections

/-!
# The representation invariant of the scheduler

Between complete operations no slot is in creation and every current task is
running.  Each operation of `Op` ends in such a state or panics, and so does
every run from `scheduler_init`.
-/

namespace Dfos.Scheduler

open Dfos.Lib

/-- The call panics, or it returns a state with the property. -/
def Ends (P : State → Prop) (result : Except Fault State) : Prop :=
  (∃ s, result = .ok s ∧ P s) ∨ ∃ reason, result = .error (.panic reason)

theorem Ends.ok {P : State → Prop} {s : State} (holds : P s) : Ends P (.ok s) :=
  Or.inl ⟨s, rfl, holds⟩

theorem Ends.bind {P Q : State → Prop} {result : Except Fault State}
    {next : State → Except Fault State} (first : Ends P result)
    (then_ : ∀ s, P s → Ends Q (next s)) : Ends Q (result >>= next) := by
  rcases first with ⟨s, rfl, holds⟩ | ⟨reason, rfl⟩
  · exact then_ s holds
  · exact Or.inr ⟨reason, rfl⟩

/-! ## Every CPU runs its current task -/

/-- Every current task runs. -/
def Busy (s : State) : Prop :=
  ∀ c t, (s.cpus c).current = some t → (s.tasks t).state = .running

/-- The current tasks of the other CPUs run. -/
def RunningBut (s : State) (cpu : Nat) : Prop :=
  ∀ c t, c ≠ cpu → (s.cpus c).current = some t → (s.tasks t).state = .running

section

variable {s s' : State} {contents : ListRef → List TaskId} {held : Finset TaskId} {t : TaskId}
  {cpu : Nat}

theorem Busy.runningBut (busy : Busy s) (cpu : Nat) : RunningBut s cpu :=
  fun c t _ current => busy c t current

/-- A CPU that has been scheduled runs a task, whatever its last one did. -/
theorem Dispatched.busy {frame : Option Nat} {next : TaskId} (core : Core s contents held)
    (others : RunningBut s cpu) (dispatched : Dispatched (saveFrame s cpu frame) s' cpu next) :
    Busy s' := by
  intro c t current
  rw [dispatched.current, saveFrame_cpus] at current
  split at current
  · obtain rfl := Option.some.inj current
    exact dispatched.running
  · next away =>
      have saved := saveFrame_core core cpu frame
      have seat := ((saved.allowed t).current c (by rwa [saveFrame_cpus])).2
      rw [dispatched.untouched t (by rwa [seat]), saveFrame_state]
      exact others c t away current

theorem Stirs.busy {touched : TaskId → Prop} (stirs : Stirs touched s s') (busy : Busy s)
    (spared : ∀ t, (s.tasks t).state = .running → ¬ touched t) : Busy s' := by
  intro c t current
  rw [stirs.current] at current
  have now := busy c t current
  rw [stirs.untouched t (spared t now)]
  exact now

/-- An operation on one slot that no CPU runs. -/
theorem OnlySlot.busy (slot : OnlySlot t s s') (busy : Busy s)
    (idle : ∀ c, (s.cpus c).current ≠ some t) : Busy s' := by
  intro c u current
  rw [slot.machine.current] at current
  rw [slot.others u]
  · exact busy c u current
  · rintro rfl
    exact idle c current

theorem Booted.busy (booted : Booted s s' cpu t) (core : Core s contents held) (busy : Busy s) :
    Busy s' := by
  intro c u current
  rw [booted.current] at current
  split at current
  · obtain rfl := Option.some.inj current
    exact booted.running
  · rw [booted.others u]
    · exact busy c u current
    · rintro rfl
      exact core.unused_idle booted.fresh c current

theorem charge_busy (busy : Busy s) (t : TaskId) : Busy (charge s t) := by
  intro c u current
  have runs := busy c u current
  rcases eq_or_ne u t with rfl | other
  · rw [charge, State.setTask_same]
    exact runs
  · rw [charge, State.setTask_other _ _ other]
    exact runs

theorem saveFrame_busy (busy : Busy s) (cpu : Nat) (frame : Option Nat) :
    Busy (saveFrame s cpu frame) := by
  intro c t current
  rw [saveFrame_cpus] at current
  rw [saveFrame_state]
  exact busy c t current

/-- Tasks that run are neither due nor queued nor waiting. -/
theorem not_tickMoves (running : (s.tasks t).state = .running) : ¬ TickMoves s t := by
  rintro (⟨-, asleep | ⟨blocked, -⟩⟩ | queued)
  · rw [show (s.countTick.tasks t).state = _ from running] at asleep
    cases asleep
  · rw [show (s.countTick.tasks t).state = _ from running] at blocked
    cases blocked
  · rw [Queued, running] at queued
    cases queued

end

/-! ## Complete operations -/

section

variable {s : State} {contents : ListRef → List TaskId}

theorem reserved_none (s : State) : Reserved s ∅ :=
  fun t inHand => absurd inHand (Finset.notMem_empty t)

theorem Consistent.runningBut (consistent : Consistent s) (cpu : Nat) : RunningBut s cpu :=
  Busy.runningBut consistent.2 cpu

/-! ### Switching -/

/-- Whatever the current task of a CPU does, it runs a task again once the CPU
has been scheduled. -/
theorem schedule_consistent {cpu : Nat} (core : Core s contents ∅) (others : RunningBut s cpu)
    (online : (s.cpus cpu).online) (executing : Nat) (frame : Option Nat) :
    Ends Consistent (do return (← schedulerScheduleCpu s executing cpu frame true).1) := by
  rcases schedulerScheduleCpu_core core (reserved_none s) online executing frame with
    ⟨id, panics⟩ | ⟨s', next, contents', switched, core', dispatched⟩
  · rw [panics]
    exact Or.inr ⟨_, rfl⟩
  · rw [switched]
    exact Ends.ok ⟨⟨contents', core'⟩, dispatched.busy core others⟩

theorem schedulerOnYield_consistent (core : Core s contents ∅) (executing : Nat)
    (others : RunningBut s (schedulerCurrentCpuState s executing)) (frame : Option Nat) :
    Ends Consistent (do return (← schedulerOnYield s executing frame).1) :=
  schedule_consistent core others (core.topology.currentCpu executing) executing frame

/-- A current task that takes itself off its CPU, and the switch after it. -/
theorem yield_after_stop {s' : State} {contents' : ListRef → List TaskId} {t : TaskId}
    {touched : TaskId → Prop} (consistent : Consistent s) (executing : Nat)
    (current : schedulerCurrentTask s executing = some t) (core' : Core s' contents' ∅)
    (stirs : Stirs touched s s')
    (spared : ∀ u, u ≠ t → (s.tasks u).state = .running → ¬ touched u) (frame : Option Nat) :
    Ends Consistent (do return (← schedulerOnYield s' executing frame).1) := by
  obtain ⟨⟨contents, core⟩, running⟩ := consistent
  have here := ((core.allowed t).current _ current).2
  refine schedulerOnYield_consistent core' executing (fun c u away now => ?_) frame
  rw [stirs.current] at now
  rw [schedulerCurrentCpuState_congr stirs.topology] at away
  have runs := running c u now
  have other : u ≠ t := by
    rintro rfl
    exact away (((core.allowed u).current c now).2.symm.trans here)
  rw [stirs.untouched u (spared u other runs)]
  exact runs

theorem schedulerSleep_consistent (consistent : Consistent s) (executing ticks : Nat)
    (frame : Option Nat) : Ends Consistent (schedulerSleep s executing ticks frame) := by
  obtain ⟨contents, core⟩ := consistent.1
  unfold schedulerSleep
  split
  · exact schedulerOnYield_consistent core executing (consistent.runningBut _) frame
  · cases current : schedulerCurrentTask s executing with
    | none => exact Ends.ok consistent
    | some t =>
        obtain ⟨core', moves⟩ := sleepLocked_listed core (Finset.notMem_empty t)
          (consistent.2 _ t current) ticks
        exact yield_after_stop consistent executing current core' moves.stirs
          (fun u other _ => other) frame

theorem schedulerWaitChannel_consistent (consistent : Consistent s) (executing : Nat)
    (channel : Option Nat) (timeoutTicks : Nat) (frame : Option Nat) :
    Ends Consistent (schedulerWaitChannel s executing channel timeoutTicks frame) := by
  obtain ⟨contents, core⟩ := consistent.1
  unfold schedulerWaitChannel
  cases channel with
  | none => exact Ends.ok consistent
  | some channel =>
      dsimp only
      split
      · exact Ends.ok consistent
      · cases current : schedulerCurrentTask s executing with
        | none => exact Ends.ok consistent
        | some t =>
            obtain ⟨core', moves⟩ := waitLocked_listed core (Finset.notMem_empty t)
              (consistent.2 _ t current) channel timeoutTicks
            exact yield_after_stop consistent executing current core' moves.stirs
              (fun u other _ => other) frame

/-! ### Waking and ticking -/

theorem Stirs.consistent {s' : State} {contents' : ListRef → List TaskId}
    {touched : TaskId → Prop} (stirs : Stirs touched s s') (core' : Core s' contents' ∅)
    (running : ∀ c t, (s.cpus c).current = some t → (s.tasks t).state = .running)
    (spared : ∀ t, (s.tasks t).state = .running → ¬ touched t) : Consistent s' :=
  ⟨⟨contents', core'⟩, stirs.busy running spared⟩

section

variable (consistent : Consistent s)
include consistent

theorem schedulerWakeChannel_consistent (executing : Nat)
    (channel : Option Nat) (maxCount : Nat) :
    Ends Consistent (do
      return (← walked (schedulerWakeChannel s executing channel maxCount)).1) := by
  obtain ⟨contents, core⟩ := consistent.1
  obtain ⟨w, woke, ⟨contents', core'⟩, moves⟩ :=
    schedulerWakeChannel_core core executing channel maxCount
  rw [woke]
  refine Ends.ok (moves.stirs.consistent core' consistent.2 fun t running waiting => ?_)
  rw [Waiting, running] at waiting
  cases waiting

theorem schedulerExitCurrent_consistent (executing : Nat)
    (frame : Option Nat) : Ends Consistent (schedulerExitCurrent s executing frame) := by
  obtain ⟨contents, core⟩ := consistent.1
  unfold schedulerExitCurrent
  cases current : schedulerCurrentTask s executing with
  | none => exact Or.inr ⟨_, rfl⟩
  | some t =>
      obtain ⟨exited, moves⟩ := exitLocked_listed core (Finset.notMem_empty t)
        (consistent.2 _ t current)
      obtain ⟨w, woke, ⟨contents', core'⟩, moved⟩ := schedulerWakeChannel_core exited executing
        (some schedulerJoinWaitChannelToken) 0
      dsimp only
      rw [woke]
      have stirs : Stirs (fun u => u = t ∨ Waiting (exitLocked s t) u) s w.1 :=
        (moves.stirs.mono fun _ => Or.inl).trans (moved.stirs.mono fun _ => Or.inr)
      refine yield_after_stop consistent executing current core' stirs ?_ frame
      rintro u other running (rfl | waiting)
      · exact other rfl
      · rw [Waiting, moves.untouched u other, running] at waiting
        cases waiting

theorem tickTimers_consistent (executing : Nat) :
    Ends Consistent (tickTimers s executing) := by
  obtain ⟨contents, core⟩ := consistent.1
  obtain ⟨s', ticked, ⟨contents', core'⟩, stirs⟩ := tickTimers_core core
    fun _ c t current => not_tickMoves (consistent.2 c t current)
  rw [ticked]
  exact Ends.ok (stirs.consistent core' consistent.2 fun t => not_tickMoves)

theorem charge_consistent (t : TaskId) : Consistent (charge s t) := by
  obtain ⟨⟨contents, core⟩, running⟩ := consistent
  exact ⟨⟨contents, (charge_core core t).1⟩, charge_busy running t⟩

theorem saveFrame_consistent (cpu : Nat) (frame : Option Nat) :
    Consistent (saveFrame s cpu frame) := by
  obtain ⟨⟨contents, core⟩, running⟩ := consistent
  exact ⟨⟨contents, saveFrame_core core cpu frame⟩, saveFrame_busy running cpu frame⟩

theorem tickCurrent_consistent (executing : Nat)
    (frame : Option Nat) :
    Ends Consistent (do return (← tickCurrent s executing frame).1) := by
  obtain ⟨contents, core⟩ := consistent.1
  have online := core.topology.currentCpu executing
  rcases tickCurrent_cases s executing frame with scheduled | ⟨t, -, -, scheduled | resumed⟩
  · rw [scheduled]
    exact schedule_consistent core (consistent.runningBut _) online executing frame
  · rw [scheduled]
    have charged := charge_consistent consistent t
    exact schedule_consistent (charge_core core t).1 (charged.runningBut _) online executing frame
  · rw [resumed]
    exact Ends.ok (saveFrame_consistent (charge_consistent consistent t) _ frame)

theorem schedulerOnTimerTick_consistent (executing : Nat)
    (frame : Option Nat) :
    Ends Consistent (do return (← schedulerOnTimerTick s executing frame).1) := by
  have ticked := (tickTimers_consistent consistent executing).bind
    fun m consistentM => tickCurrent_consistent consistentM executing frame
  unfold schedulerOnTimerTick
  rwa [bind_assoc]

theorem schedulerSetTaskPriority_consistent
    (executing taskId priority : Nat) :
    Consistent (schedulerSetTaskPriority s executing taskId priority).1 := by
  obtain ⟨⟨contents, core⟩, running⟩ := consistent
  obtain ⟨after, stirs, runs⟩ :=
    schedulerSetTaskPriority_core core (reserved_none s) executing taskId priority
  refine ⟨after, fun c t current => ?_⟩
  rw [stirs.current] at current
  exact runs t (running c t current)

end

/-! ### Slots -/

/-- An operation on one slot that no CPU runs. -/
theorem OnlySlot.consistent {s' : State} {contents' : ListRef → List TaskId} {t : TaskId}
    (slot : OnlySlot t s s') (core' : Core s' contents' ∅)
    (running : ∀ c t, (s.cpus c).current = some t → (s.tasks t).state = .running)
    (idle : ∀ c, (s.cpus c).current ≠ some t) : Consistent s' :=
  ⟨⟨contents', core'⟩, slot.busy running idle⟩

theorem schedulerCreateKernelTaskEx_consistent (consistent : Consistent s) (executing : Nat)
    (request : TaskRequest) (space stack : Option Nat) :
    Consistent (schedulerCreateKernelTaskEx s executing request space stack).1 := by
  obtain ⟨⟨contents, core⟩, running⟩ := consistent
  unfold schedulerCreateKernelTaskEx
  split
  · exact ⟨⟨contents, core⟩, running⟩
  · rcases createReserve_core core executing request.config with
      full | ⟨m, t, effective, node, taken, coreM, off, slot, unused, unusedM, checked⟩
    · rw [full]
      exact ⟨⟨contents, core⟩, running⟩
    · rw [taken]
      dsimp only
      have inHand : t ∈ insert t (∅ : Finset TaskId) := Finset.mem_insert_self ..
      have none : (insert t (∅ : Finset TaskId)).erase t = ∅ := Finset.erase_insert off
      have idle := core.unused_idle unused
      have idleM := coreM.unused_idle unusedM
      have released : Consistent (schedulerReleaseTaskSlot m t) := by
        have core' := schedulerReleaseTaskSlot_core coreM inHand idleM
        rw [none] at core'
        exact (slot.trans (schedulerReleaseTaskSlot_onlySlot m t)).consistent core' running idle
      cases space with
      | none => exact released
      | some space =>
          cases stack with
          | none => exact released
          | some stack =>
              obtain ⟨⟨q, core'⟩, filled, -, -⟩ := createEnqueue_core coreM inHand unusedM
                checked executing request space stack
              rw [none] at core'
              exact (slot.trans filled).consistent core' running idle

theorem Reaped.consistent {s' : State} {contents' : ListRef → List TaskId} {t : TaskId}
    (reaped : Reaped s s' t) (core' : Core s' contents' ∅)
    (running : ∀ c t, (s.cpus c).current = some t → (s.tasks t).state = .running) :
    Consistent s' :=
  reaped.slot.consistent core' running reaped.idle

theorem joinLocked_consistent (consistent : Consistent s) (taskId : Nat) :
    Consistent (joinLocked s taskId).1 := by
  obtain ⟨contents, core⟩ := consistent.1
  rcases joinLocked_core core taskId with kept | ⟨t, core', reaped⟩
  · rw [kept]
    exact consistent
  · exact reaped.consistent core' consistent.2

theorem reapLocked_consistent (consistent : Consistent s) :
    Ends Consistent (do return (← walked (reapLocked s)).1) := by
  obtain ⟨contents, core⟩ := consistent.1
  obtain ⟨r, swept, kept | ⟨t, core', reaped⟩⟩ := reapLocked_core core
  · rw [swept]
    exact Ends.ok (kept ▸ consistent)
  · rw [swept]
    exact Ends.ok (reaped.consistent core' consistent.2)

theorem Booted.consistent {s' : State} {contents' : ListRef → List TaskId} {cpu : Nat}
    {t : TaskId} (booted : Booted s s' cpu t) (core' : Core s' contents' ∅)
    (core : Core s contents ∅)
    (running : ∀ c t, (s.cpus c).current = some t → (s.tasks t).state = .running) :
    Consistent s' :=
  ⟨⟨contents', core'⟩, booted.busy core running⟩

theorem schedulerBootstrapCurrent_consistent (consistent : Consistent s) (stackTop : Nat)
    (name : Option String) : Ends Consistent (schedulerBootstrapCurrent s stackTop name) := by
  obtain ⟨contents, core⟩ := consistent.1
  rcases schedulerBootstrapCurrent_core core stackTop name with
    panics | ⟨s', t, started, core', booted, -⟩
  · exact Or.inr panics
  · rw [started]
    exact Ends.ok (booted.consistent core' core consistent.2)

theorem schedulerBootstrapSecondaryCurrent_consistent (consistent : Consistent s)
    (cpuId kernelStackTop : Nat) (name : Option String) :
    Consistent (schedulerBootstrapSecondaryCurrent s cpuId kernelStackTop name).1 := by
  obtain ⟨contents, core⟩ := consistent.1
  rcases schedulerBootstrapSecondaryCurrent_core core cpuId kernelStackTop name with
    refused | ⟨s', t, started, core', booted, -⟩
  · rw [refused]
    exact consistent
  · rw [started]
    exact booted.consistent core' core consistent.2

/-! ## Runs -/

/-- One complete operation. -/
theorem exec_consistent (consistent : Consistent s) (executing : Nat) (op : Op) :
    Ends Consistent (s.exec executing op) := by
  cases op with
  | configureTopology config pmm =>
      exact Ends.ok (schedulerConfigureTopology_consistent consistent config pmm)
  | bootstrapCurrent stackTop name =>
      exact schedulerBootstrapCurrent_consistent consistent stackTop name
  | bootstrapSecondary cpuId kernelStackTop name =>
      exact Ends.ok
        (schedulerBootstrapSecondaryCurrent_consistent consistent cpuId kernelStackTop name)
  | createTask request space stack =>
      exact Ends.ok
        (schedulerCreateKernelTaskEx_consistent consistent executing request space stack)
  | timerTick frame => exact schedulerOnTimerTick_consistent consistent executing frame
  | yield frame =>
      obtain ⟨contents, core⟩ := consistent.1
      exact schedulerOnYield_consistent core executing (consistent.runningBut _) frame
  | sleep ticks frame => exact schedulerSleep_consistent consistent executing ticks frame
  | waitChannel channel timeoutTicks frame =>
      exact schedulerWaitChannel_consistent consistent executing channel timeoutTicks frame
  | wakeChannel channel maxCount =>
      exact schedulerWakeChannel_consistent consistent executing channel maxCount
  | setTaskPriority taskId priority =>
      exact Ends.ok (schedulerSetTaskPriority_consistent consistent executing taskId priority)
  | exitCurrent frame => exact schedulerExitCurrent_consistent consistent executing frame
  | joinTask taskId => exact Ends.ok (joinLocked_consistent consistent taskId)
  | reapZombie => exact reapLocked_consistent consistent

theorem run_consistent : ∀ (ops : List (Nat × Op)) {s : State}, Consistent s →
    Ends Consistent (s.run ops) := by
  intro ops
  induction ops with
  | nil => exact fun consistent => Ends.ok consistent
  | cons op ops ih =>
      intro s consistent
      exact (exec_consistent consistent op.1 op.2).bind fun _ after => ih after

end

/-- The state of every slot and the lists agree: `contents` is what each list
holds, from its head on. -/
structure Represents (s : State) (contents : ListRef → List TaskId) : Prop where
  /-- Every list is a well-formed doubly linked list, and its count its length. -/
  list : ∀ r, IsList s.links (s.lists r) (contents r)
  /-- No slot is on two lists. -/
  unique : ∀ t r q, t ∈ contents r → t ∈ contents q → r = q
  /-- The state of a slot fixes the list it is on. -/
  home : ∀ t r, t ∈ contents r ↔ (s.tasks t).home = some r
  kind : ∀ t, (s.tasks t).listKind = kindOn (s.tasks t).home
  /-- A running task is current on one CPU, the one it is assigned to. -/
  running : ∀ t c, (s.tasks t).state = .running →
    ((s.cpus c).current = some t ↔ c = (s.tasks t).assignedCpu)
  current : ∀ c t, (s.cpus c).current = some t → (s.tasks t).state = .running
  runnableCount : ∀ c, (s.cpus c).runnableCount =
    ∑ p ∈ Finset.range schedulerPriorityCount, (s.lists (.runnable c p)).count
  /-- The CPU of a live task is online and in its affinity mask. -/
  online : ∀ t, (s.tasks t).state ≠ .unused →
    (s.tasks t).assignedCpu < s.configuredCpuCount ∧
      (s.cpus (s.tasks t).assignedCpu).online = true ∧
      (s.tasks t).cpuAffinityMask.testBit (s.tasks t).assignedCpu = true
  priority : ∀ t, (s.tasks t).state ≠ .unused → (s.tasks t).priority < schedulerPriorityCount

theorem Consistent.represents {s : State} (consistent : Consistent s) :
    ∃ contents, Represents s contents := by
  obtain ⟨⟨contents, core⟩, running⟩ := consistent
  have whereabouts : ∀ t, s.whereabouts ∅ t = (s.tasks t).home :=
    fun t => State.whereabouts_home (Finset.notMem_empty t)
  refine ⟨contents, core.placed.holds.list, fun t r q => core.placed.unique,
    fun t r => ?_, fun t => ?_, fun t c state => ⟨fun here => ?_, fun here => ?_⟩, running,
    fun c => ?_, fun t live => ?_, fun t live => ((core.allowed t).seated live).priority⟩
  · rw [core.placed.member, whereabouts]
  · rw [core.placed.kind, whereabouts]
  · exact ((core.allowed t).current c here).2.symm
  · rw [here]
    exact (core.allowed t).running state
  · rw [core.counted c, queued]
    exact Finset.sum_congr rfl fun p _ => ((core.placed.holds.list (.runnable c p)).count).symm
  · have seated := (core.allowed t).seated live
    exact ⟨core.topology.online _ seated.online, seated.online, seated.affinity⟩

/-- **Representation invariant.**  A run of complete operations from
`scheduler_init`, on any CPUs and over any topology that is accepted, panics or
reaches a state in which every slot is where its state says, every list is well
formed, the counters are right, and tasks sit on online CPUs they allow. -/
theorem scheduler_representation (spaces : Paging.AddressSpaces) (smpAvailable pmm : Bool)
    (ops : List (Nat × Op)) :
    (∃ s contents, (schedulerInit spaces smpAvailable pmm >>= fun s => s.run ops) = .ok s ∧
        Represents s contents) ∨
      ∃ reason, (schedulerInit spaces smpAvailable pmm >>= fun s => s.run ops) =
        .error (.panic reason) := by
  rcases schedulerInit_consistent spaces smpAvailable pmm with ⟨s, started, consistent, -⟩ | panics
  · rw [started]
    rcases run_consistent ops consistent with ⟨s', ran, after⟩ | ⟨reason, panics⟩
    · obtain ⟨contents, represents⟩ := after.represents
      exact Or.inl ⟨s', contents, ran, represents⟩
    · exact Or.inr ⟨reason, panics⟩
  · rw [panics]
    exact Or.inr ⟨_, rfl⟩

end Dfos.Scheduler
