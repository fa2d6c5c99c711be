import Dfos.Scheduler.Outcome

/-!
# What a step does to the tasks

One statement for all steps of the interleaving: a task that does not stop
itself and whose slot is not being made or released drifts, a ready task stays
assigned to its CPU unless the load balancer migrates it, and only an interrupt
takes a current task off its CPU.
-/

namespace Dfos.Scheduler

open Dfos.Lib

/-- Neither a free slot nor a zombie. -/
def Task.Live (t : Task) : Prop :=
  t.state ≠ .unused ∧ t.state ≠ .zombie

theorem Task.Ready.live {t : Task} (ready : t.Ready) : t.Live := by
  rcases ready with state | state <;> simp [Task.Live, state]

theorem Task.Drifts.live {t t' : Task} (drifts : t.Drifts t') (live : t.Live) : t'.Live := by
  rcases drifts.state with ⟨state, -⟩ | ready
  · exact ⟨state ▸ live.1, state ▸ live.2⟩
  · exact ready.live

theorem Task.Drifts.ready {t t' : Task} (drifts : t.Drifts t') (ready : t.Ready) : t'.Ready := by
  rcases drifts.state with ⟨state, -⟩ | ready
  · unfold Task.Ready at ready ⊢
    rwa [state]
  · exact ready

/-- A task that is blocked after drifting was blocked before, on its channel. -/
theorem Task.Drifts.blocked {t t' : Task} (drifts : t.Drifts t') (blocked : t'.state = .blocked) :
    t.state = .blocked ∧ t'.waitChannel = t.waitChannel := by
  rcases drifts.state with ⟨state, channel⟩ | ready
  · exact ⟨state ▸ blocked, channel⟩
  · rcases ready with state | state <;> rw [blocked] at state <;> cases state

/-- The task that puts itself to sleep, blocks or exits. -/
def Action.Stops (s : State) : Action → TaskId → Prop
  | .sleep cpu _, t => schedulerCurrentTask s cpu = some t
  | .waitChannel cpu _ _, t => schedulerCurrentTask s cpu = some t
  | .exitCurrent cpu, t => schedulerCurrentTask s cpu = some t
  | _, _ => False

/-- A task that the timer expiry and load balancing of a tick leave on another
CPU. -/
def Action.Migrates (s : State) : Action → TaskId → Prop
  | .timerTick cpu _, t => ∃ m, tickTimers s cpu = .ok m ∧
      (m.tasks t).assignedCpu ≠ (s.tasks t).assignedCpu
  | _, _ => False

/-- The CPU that may leave its current task. -/
def Action.Switches : Action → Nat → Prop
  | .timerTick cpu _, c => c = cpu
  | .yield cpu _, c => c = cpu
  | _, _ => False

/-- All but the tasks that stop and the slots that are made or released drift. -/
structure Effect (stopping migrating slot : TaskId → Prop) (switching : Nat → Prop)
    (s s' : State) : Prop where
  tasks : ∀ t, ¬ stopping t → ¬ slot t → (s.tasks t).Drifts (s'.tasks t)
  stops : ∀ t, stopping t → (s'.tasks t).id = (s.tasks t).id
  dead : ∀ t, slot t → ¬ (s.tasks t).Live ∧ ∀ c, (s.cpus c).current ≠ some t
  unblocked : ∀ t, slot t → (s'.tasks t).state ≠ .blocked
  seats : ∀ t, (s.tasks t).Ready → ¬ stopping t → ¬ migrating t →
    (s'.tasks t).assignedCpu = (s.tasks t).assignedCpu
  current : ∀ c t, ¬ switching c → (s.cpus c).current = some t → (s'.cpus c).current = some t

section

variable {stopping migrating : TaskId → Prop} {switching : Nat → Prop} {s s' : State} {t : TaskId}
  {contents : ListRef → List TaskId} {held : Finset TaskId}

theorem Drift.effect (drift : Drift switching s s') (none : ∀ t, ¬ stopping t)
    (seats : ∀ t, (s.tasks t).Ready → ¬ migrating t →
      (s'.tasks t).assignedCpu = (s.tasks t).assignedCpu) :
    Effect stopping migrating (fun _ => False) switching s s' :=
  ⟨fun t _ _ => drift.tasks t, fun t stops => absurd stops (none t), nofun, nofun,
    fun t ready _ stays => seats t ready stays,
    fun c _ stays is => (drift.current c stays).trans is⟩

theorem OnlySlot.effect (slot : OnlySlot t s s') (dead : ¬ (s.tasks t).Live)
    (idle : ∀ c, (s.cpus c).current ≠ some t) (after : (s'.tasks t).state ≠ .blocked)
    (none : ∀ t, ¬ stopping t) : Effect stopping migrating (· = t) switching s s' where
  tasks u _ other := slot.others u other ▸ .refl _
  stops u stops := absurd stops (none u)
  dead _ here := here ▸ ⟨dead, idle⟩
  unblocked _ here := here ▸ after
  seats u ready _ _ := by
    rw [slot.others u]
    rintro rfl
    exact dead ready.live
  current c _ _ is := (slot.machine.current c).trans is

theorem Reaped.effect (reaped : Reaped s s' t) (none : ∀ t, ¬ stopping t) :
    Effect stopping migrating (· = t) switching s s' :=
  reaped.slot.effect (fun live => live.2 reaped.zombie) reaped.idle (by simp [reaped.unused]) none

theorem Booted.effect {cpu : Nat} (booted : Booted s s' cpu t) (core : Core s contents held)
    (none : ∀ t, ¬ stopping t) : Effect stopping migrating (· = t) switching s s' where
  tasks u _ other := booted.others u other ▸ .refl _
  stops u stops := absurd stops (none u)
  dead _ here := here ▸ ⟨fun live => live.1 booted.fresh, core.unused_idle booted.fresh⟩
  unblocked u here := by
    rw [here, booted.running]
    nofun
  seats u ready _ _ := by
    rw [booted.others u]
    rintro rfl
    exact ready.live.1 booted.fresh
  current c u _ is := by
    have other : c ≠ cpu := by
      rintro rfl
      rw [booted.free] at is
      cases is
    rw [booted.current, if_neg other, is]

/-- The locked part of a call that stops its task. -/
theorem stop_effect {r : ListRef} {f : Task → Task} (kind : ListKind)
    (id : (f (s.tasks t)).id = (s.tasks t).id) (only : ∀ u, stopping u ↔ u = t) :
    Effect stopping migrating (fun _ => False) switching s
      (taskListPushBack (s.setTask t f) r t kind) where
  tasks u other _ := by
    have away : u ≠ t := fun same => other ((only u).mpr same)
    rw [taskListPushBack_other _ r kind away, State.setTask_other s f away]
    exact .refl _
  stops u here := by
    rw [(only u).mp here, taskListPushBack_same, State.setTask_same]
    exact id
  dead := nofun
  unblocked := nofun
  seats u _ other _ := by
    have away : u ≠ t := fun same => other ((only u).mpr same)
    rw [taskListPushBack_other _ r kind away, State.setTask_other s f away]
  current _ _ _ is := is

end

/-! ## What queueing and switching leave alone -/

/-- No task changes in `g`. -/
def Preserves {α : Type} (g : Task → α) (s s' : State) : Prop :=
  ∀ t, g (s'.tasks t) = g (s.tasks t)

/-- No task is assigned to another CPU. -/
abbrev Seats (s s' : State) : Prop :=
  Preserves Task.assignedCpu s s'

/-- Nothing in `g` is written when a task is queued on its own CPU, switched to,
charged or given another priority. -/
structure Steady {α : Type} (g : Task → α) : Prop where
  kind : ∀ (t : Task) (kind : ListKind), g { t with listKind := kind } = g t
  queued : ∀ (s : State) (cpu : Nat) (t : Task), (s.cpus cpu).id = t.assignedCpu →
    g (enqueuedTask s cpu t) = g t
  running : ∀ t : Task, g { t with state := .running, ticksInSlice := 0 } = g t
  slice : ∀ (t : Task) (ticks : Nat), g { t with ticksInSlice := ticks } = g t
  frame : ∀ (t : Task) (frame : Option Nat), g { t with frame := frame } = g t
  priority : ∀ (t : Task) (priority : Nat), g { t with priority := priority } = g t

theorem steady_assignedCpu : Steady Task.assignedCpu :=
  ⟨fun _ _ => rfl, fun _ _ _ own => own, fun _ => rfl, fun _ _ => rfl, fun _ _ => rfl,
    fun _ _ => rfl⟩

section

variable {s m s' : State} {contents : ListRef → List TaskId} {held : Finset TaskId} {α : Type}
  {g : Task → α}

theorem Preserves.refl (s : State) : Preserves g s s :=
  fun _ => rfl

theorem Preserves.trans (first : Preserves g s m) (second : Preserves g m s') : Preserves g s s' :=
  fun t => (second t).trans (first t)

theorem Preserves.setTask {t : TaskId} {f : Task → Task} (same : g (f (s.tasks t)) = g (s.tasks t)) :
    Preserves g s (s.setTask t f) := by
  intro u
  rcases eq_or_ne u t with rfl | other
  · rw [State.setTask_same, same]
  · rw [State.setTask_other s f other]

theorem dropRunnable_preserves (kind : ∀ t k, g { t with listKind := k } = g t) (s : State)
    (cpu priority : Nat) (t : TaskId) : Preserves g s (dropRunnable s cpu priority t) := by
  intro u
  change g ((taskListRemove s _ t).tasks u) = _
  rcases eq_or_ne u t with rfl | other
  · rw [taskListRemove_same]
    exact kind ..
  · rw [taskListRemove_other _ _ other]

theorem schedulerCpuEnqueueRunnableLocal_preserves {t : TaskId} {cpu : Nat}
    (kind : ∀ t k, g { t with listKind := k } = g t)
    (queued : g (enqueuedTask s cpu (s.tasks t)) = g (s.tasks t)) :
    Preserves g s (schedulerCpuEnqueueRunnableLocal s cpu t) := by
  intro u
  change g ((taskListPushBack (s.setTask t (enqueuedTask s cpu)) _ t _).tasks u) = _
  rcases eq_or_ne u t with rfl | other
  · rw [taskListPushBack_same, State.setTask_same, kind]
    exact queued
  · rw [taskListPushBack_other _ _ _ other, State.setTask_other s _ other]

theorem schedulerCpuEnqueueRunnable_preserves {cpu : Nat} {t : TaskId}
    (kind : ∀ t k, g { t with listKind := k } = g t)
    (queued : g (enqueuedTask s cpu (s.tasks t)) = g (s.tasks t)) (executing : Nat)
    (reason : EnqueueReason) : Preserves g s (schedulerCpuEnqueueRunnable s executing cpu t reason) := by
  intro u
  have notified := schedulerNotifyRemoteRunnable_moves (fun _ => False)
    (schedulerCpuEnqueueRunnableLocal s cpu t) executing cpu reason
  rw [schedulerCpuEnqueueRunnable, notified.untouched u id]
  exact schedulerCpuEnqueueRunnableLocal_preserves kind queued u

section

variable (steady : Steady g)
include steady

/-- A task goes to a run queue of the CPU it is assigned to. -/
theorem schedulerEnqueueRunnable_preserves {t : TaskId} (topology : Topology s)
    (online : (s.cpus (s.tasks t).assignedCpu).online) (executing : Nat)
    (reason : EnqueueReason) : Preserves g s (schedulerEnqueueRunnable s executing t reason) := by
  unfold schedulerEnqueueRunnable
  rw [topology.cpuById online]
  exact schedulerCpuEnqueueRunnable_preserves steady.kind (steady.queued _ _ _ (topology.id _ online))
    executing reason

theorem requeueCurrent_preserves {cpu : Nat} (core : Core s contents held)
    (online : (s.cpus cpu).online) (executing : Nat) :
    Preserves g s (requeueCurrent s executing cpu) := by
  unfold requeueCurrent
  split
  · next t current =>
      split
      · have own := (core.topology.id cpu online).trans ((core.allowed t).current cpu current).2.symm
        exact schedulerCpuEnqueueRunnable_preserves steady.kind (steady.queued _ _ _ own) executing
          .reschedule
      · exact .refl _
  · exact .refl _

theorem dequeueFrom_preserves (s : State) (cpu : Nat) :
    ∀ left priority, Preserves g s (dequeueFrom s cpu left priority).1 := by
  intro left
  induction left with
  | zero => exact fun _ => .refl _
  | succ left ih =>
      intro priority
      unfold dequeueFrom
      split
      · exact dropRunnable_preserves steady.kind _ _ _ _
      · exact ih _

theorem schedulerSwitchToTask_preserves {executing cpu : Nat} {next : Option TaskId}
    {frame : Option Nat} {r : State × Option Nat}
    (switched : schedulerSwitchToTask s executing cpu next frame = .ok r) : Preserves g s r.1 := by
  unfold schedulerSwitchToTask at switched
  split at switched
  · split at switched
    · cases switched
    · split at switched
      · cases switched
        exact .refl _
      · cases switched
  · next t =>
      cases switched
      have runs : Preserves g s (s.setTask t fun t => { t with state := .running, ticksInSlice := 0 }) :=
        .setTask (steady.running _)
      exact runs

theorem saveFrame_preserves (s : State) (cpu : Nat) (frame : Option Nat) :
    Preserves g s (saveFrame s cpu frame) := by
  unfold saveFrame
  split
  · exact .setTask (steady.frame ..)
  · exact .refl _

theorem schedulerScheduleCpu_preserves {executing cpu : Nat} {frame : Option Nat}
    {r : State × Option Nat} (core : Core s contents held)
    (online : (s.cpus cpu).online)
    (scheduled : schedulerScheduleCpu s executing cpu frame true = .ok r) : Preserves g s r.1 := by
  have saved := saveFrame_core core cpu frame
  have onlineSaved : ((saveFrame s cpu frame).cpus cpu).online := by rwa [saveFrame_cpus]
  rw [schedulerScheduleCpu_forced] at scheduled
  unfold reschedule schedulerCpuDequeueNextRunnable at scheduled
  exact (saveFrame_preserves steady s cpu frame).trans
    (((requeueCurrent_preserves steady saved onlineSaved executing).trans
      (dequeueFrom_preserves steady _ cpu schedulerPriorityCount 0)).trans
        (schedulerSwitchToTask_preserves steady scheduled))

theorem tickCurrent_preserves {cpu : Nat} {frame : Option Nat} {r : State × Option Nat}
    (core : Core s contents held) (online : (s.cpus cpu).online)
    (ticked : tickCurrent s cpu frame = .ok r) : Preserves g s r.1 := by
  have cases' := tickCurrent_cases s cpu frame
  rw [core.topology.currentCpu_eq online] at cases'
  rcases cases' with scheduled | ⟨t, current, -, scheduled | resumed⟩
  · rw [scheduled] at ticked
    exact schedulerScheduleCpu_preserves steady core online ticked
  · rw [scheduled] at ticked
    have charged : Preserves g s (charge s t) := .setTask (steady.slice ..)
    exact charged.trans (schedulerScheduleCpu_preserves steady (charge_core core t).1 online ticked)
  · rw [resumed] at ticked
    cases ticked
    have charged : Preserves g s (charge s t) := .setTask (steady.slice ..)
    exact charged.trans (saveFrame_preserves steady _ _ _)

theorem unqueue_preserves (s : State) (t : TaskId) : Preserves g s (unqueue s t) := by
  unfold unqueue schedulerRemoveRunnable
  split
  · split
    · exact .refl _
    · exact dropRunnable_preserves steady.kind _ _ _ _
  · exact .refl _

end

theorem unqueue_moves (s : State) (t : TaskId) : Moves (· = t) s (unqueue s t) := by
  unfold unqueue schedulerRemoveRunnable
  split
  · split
    · exact .refl _ s
    · exact dropRunnable_moves ..
  · exact .refl _ s

theorem schedulerSetTaskPriority_preserves (steady : Steady g) (core : Core s contents held)
    (executing taskId priority : Nat) :
    Preserves g s (schedulerSetTaskPriority s executing taskId priority).1 := by
  unfold schedulerSetTaskPriority
  split
  · exact .refl _
  next t found =>
  dsimp only
  split
  · exact .refl _
  have seated := (core.allowed t).seated (schedulerFindTaskById_live found)
  have moves := unqueue_moves s t
  have seats := unqueue_preserves steady_assignedCpu s t
  have changed : Preserves g s ((unqueue s t).setTask t
      fun u => { u with priority := schedulerPrioritySanitize priority }) :=
    (unqueue_preserves steady s t).trans (.setTask (steady.priority ..))
  have topology : Topology ((unqueue s t).setTask t
      fun u => { u with priority := schedulerPrioritySanitize priority }) :=
    core.topology.congr ⟨moves.machine.id, moves.machine.online,
      moves.machine.configuredCpuCount, moves.machine.bootCpuId⟩
  have online : (((unqueue s t).setTask t
      fun u => { u with priority := schedulerPrioritySanitize priority }).cpus
        (((unqueue s t).setTask t
          fun u => { u with priority := schedulerPrioritySanitize priority }).tasks
            t).assignedCpu).online := by
    rw [State.setTask_same]
    change ((unqueue s t).cpus ((unqueue s t).tasks t).assignedCpu).online
    rw [seats t]
    exact (moves.machine.online _).trans seated.online
  unfold changePriority
  dsimp only
  generalize (unqueue s t).setTask t
    (fun u => { u with priority := schedulerPrioritySanitize priority }) = n
      at changed topology online ⊢
  have back : Preserves g n (requeue n executing t) := by
    unfold requeue
    split
    · exact schedulerEnqueueRunnable_preserves steady topology online executing .reschedule
    · exact .refl _
  have renewed : Preserves g (requeue n executing t) (renewSlice (requeue n executing t) t) := by
    unfold renewSlice
    split
    · exact .setTask (steady.slice ..)
    · exact .refl _
  exact (changed.trans back).trans renewed

end

/-! ## Steps -/

section

variable {w w' : World} {contents : ListRef → List TaskId} {held : Finset TaskId}

theorem World.Sound.booted {action : Action} {cpu : Nat} (sound : w.Sound contents held)
    (stepped : w.step action = some w') (boots : action.boots w.state = some cpu) :
    ∃ t, Booted w.state w'.state cpu t := by
  cases action with
  | bootstrapCurrent stackTop name =>
      cases boots
      exact (sound.bootstrapCurrent stepped).2
  | bootstrapSecondary cpuId kernelStackTop name =>
      cases boots
      exact (sound.bootstrapSecondary stepped).2
  | _ => cases boots

theorem Action.stops_iff {action : Action} {s : State} {t : TaskId} :
    action.Stops s t ↔ ∃ cpu, action.stopsOn = some cpu ∧ schedulerCurrentTask s cpu = some t := by
  cases action <;> simp [Action.Stops, Action.stopsOn]

/-- **What a step does.** -/
theorem World.Sound.effect {action : Action} (sound : w.Sound contents held)
    (calm : w.Calm action) (stepped : w.step action = some w') :
    ∃ slot, Effect (action.Stops w.state) (action.Migrates w.state) slot action.Switches
      w.state w'.state := by
  have goesOn : action.stopsOn = none → ∀ t, ¬ action.Stops w.state t := by
    intro none t stops
    obtain ⟨cpu, some, -⟩ := Action.stops_iff.mp stops
    cases none.symm.trans some
  cases sound.outcome calm stepped with
  | boots boots booted =>
      exact ⟨_, booted.effect sound.core (goesOn (by cases action <;> first | rfl | cases boots))⟩
  | creates slot starts =>
      refine ⟨_, slot.effect (fun live => live.1 starts.fresh)
        (sound.core.unused_idle starts.fresh) ?_ (goesOn rfl)⟩
      rcases starts.ready with state | state <;> simp [state]
  | slot slot only before after =>
      exact ⟨_, only.effect (fun live => live.1 before) (sound.core.unused_idle before)
        (by simp [after]) (goesOn (by rcases slot with ⟨_, _, rfl⟩ | rfl <;> rfl))⟩
  | @ticks cpu frame m queues resumed timers core stirs clock online ticked =>
      have here : schedulerCurrentCpuState m cpu = cpu := core.topology.currentCpu_eq online
      have second : Drift (· = cpu) m w'.state := tickCurrent_drift here ticked
      refine ⟨_, ((tickTimers_drift timers).trans second).effect (goesOn rfl)
        fun t _ stays => (tickCurrent_preserves steady_assignedCpu core online ticked t).trans ?_⟩
      by_contra moved
      exact stays ⟨_, timers, moved⟩
  | @yields cpu frame resumed online scheduled =>
      have drift : Drift (· = cpu) w.state w'.state := by
        refine schedulerScheduleCpu_drift (r := (w'.state, resumed)) ?_ scheduled
        rfl
      exact ⟨_, drift.effect (goesOn rfl) fun t _ _ =>
        schedulerScheduleCpu_preserves steady_assignedCpu sound.core online scheduled t⟩
  | stops stops current running id rests moved =>
      rw [moved]
      refine ⟨_, stop_effect _ id fun u => ?_⟩
      rw [Action.stops_iff, stops]
      simp [current, eq_comm]
  | wakes woke moves =>
      refine ⟨_, (schedulerWakeChannel_drift woke).effect (goesOn rfl) fun t ready _ => ?_⟩
      have stays : ¬ Waiting w.state t := by
        intro blocked
        rcases ready with state | state <;> cases state.symm.trans blocked
      exact congrArg Task.assignedCpu (moves.untouched t stays)
  | changes changed =>
      rw [changed]
      exact ⟨_, (schedulerSetTaskPriority_drift ..).effect (goesOn rfl) fun t _ _ =>
        schedulerSetTaskPriority_preserves steady_assignedCpu sound.core _ _ _ t⟩
  | reaps hands asked detached reaped =>
      exact ⟨_, reaped.effect (goesOn (by cases action <;> first | rfl | cases hands))⟩
  | looks looks hands same =>
      rw [same]
      exact ⟨_, (Drift.refl _).effect (goesOn (by rcases looks with ⟨_, rfl⟩ | rfl <;> rfl))
        fun _ _ _ => rfl⟩

end

end Dfos.Scheduler
