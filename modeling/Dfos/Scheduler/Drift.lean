import Dfos.Scheduler.RunQueue

/-!
# What becomes of a task nobody stops

Every function of the scheduler that queues, wakes, migrates or dispatches
leaves a task in its state, or makes it ready to run.  Only the tasks' own calls
put one to sleep, block it or end it, and only a slot's creation and release
change its id.  This holds of each function as it stands, whatever the lists
look like.
-/

namespace Dfos.Scheduler

open Dfos.Lib

/-- Queued to run, or running. -/
def Task.Ready (t : Task) : Prop :=
  t.state = .runnable ∨ t.state = .running

/-- The task keeps its id, and its state and channel unless it becomes ready. -/
structure Task.Drifts (t t' : Task) : Prop where
  id : t'.id = t.id
  state : t'.state = t.state ∧ t'.waitChannel = t.waitChannel ∨ t'.Ready

/-- Every task drifts, only CPUs of `switching` change their current task, and no
id is given out. -/
structure Drift (switching : Nat → Prop) (s s' : State) : Prop where
  tasks : ∀ t, (s.tasks t).Drifts (s'.tasks t)
  current : ∀ c, ¬ switching c → (s'.cpus c).current = (s.cpus c).current
  nextTaskId : s'.nextTaskId = s.nextTaskId

/-- The same, while `t` is on its way to a run queue. -/
structure DriftBut (switching : Nat → Prop) (t : TaskId) (s s' : State) : Prop where
  others : ∀ u, u ≠ t → (s.tasks u).Drifts (s'.tasks u)
  id : (s'.tasks t).id = (s.tasks t).id
  current : ∀ c, ¬ switching c → (s'.cpus c).current = (s.cpus c).current
  nextTaskId : s'.nextTaskId = s.nextTaskId

theorem Task.Drifts.refl (t : Task) : t.Drifts t :=
  ⟨rfl, .inl ⟨rfl, rfl⟩⟩

theorem Task.Drifts.trans {t m t' : Task} (first : t.Drifts m) (second : m.Drifts t') :
    t.Drifts t' := by
  refine ⟨second.id.trans first.id, ?_⟩
  rcases second.state with ⟨state, channel⟩ | ready
  · rcases first.state with ⟨before, waiting⟩ | ready
    · exact .inl ⟨state.trans before, channel.trans waiting⟩
    · exact .inr (by unfold Task.Ready at ready ⊢; rwa [state])
  · exact .inr ready

section

variable {switching : Nat → Prop} {s m s' : State} {t : TaskId}

theorem Drift.refl (s : State) : Drift switching s s :=
  ⟨fun _ => .refl _, fun _ _ => rfl, rfl⟩

theorem Drift.trans (first : Drift switching s m) (second : Drift switching m s') :
    Drift switching s s' :=
  ⟨fun t => (first.tasks t).trans (second.tasks t),
    fun c stays => (second.current c stays).trans (first.current c stays),
    second.nextTaskId.trans first.nextTaskId⟩

theorem Drift.same (tasks : s'.tasks = s.tasks)
    (current : ∀ c, (s'.cpus c).current = (s.cpus c).current)
    (nextTaskId : s'.nextTaskId = s.nextTaskId) : Drift switching s s' :=
  ⟨fun _ => tasks ▸ .refl _, fun c _ => current c, nextTaskId⟩

theorem Drift.setTask {f : Task → Task} (drifts : (s.tasks t).Drifts (f (s.tasks t))) :
    Drift switching s (s.setTask t f) := by
  refine ⟨fun u => ?_, fun _ _ => rfl, rfl⟩
  rcases eq_or_ne u t with rfl | other
  · rw [State.setTask_same]
    exact drifts
  · rw [State.setTask_other s f other]
    exact .refl _

theorem Drift.but (drift : Drift switching s s') : DriftBut switching t s s' :=
  ⟨fun u _ => drift.tasks u, (drift.tasks t).id, drift.current, drift.nextTaskId⟩

theorem DriftBut.setTask {f : Task → Task} (drift : DriftBut switching t s m)
    (id : (f (m.tasks t)).id = (m.tasks t).id) : DriftBut switching t s (m.setTask t f) := by
  refine ⟨fun u other => ?_, ?_, drift.current, drift.nextTaskId⟩
  · rw [State.setTask_other m f other]
    exact drift.others u other
  · rw [State.setTask_same, id]
    exact drift.id

theorem DriftBut.then (drift : DriftBut switching t s m) (next : Drift switching m s') :
    DriftBut switching t s s' :=
  ⟨fun u other => (drift.others u other).trans (next.tasks u),
    (next.tasks t).id.trans drift.id,
    fun c stays => (next.current c stays).trans (drift.current c stays),
    next.nextTaskId.trans drift.nextTaskId⟩

theorem DriftBut.ready (drift : DriftBut switching t s s') (ready : (s'.tasks t).Ready) :
    Drift switching s s' := by
  refine ⟨fun u => ?_, drift.current, drift.nextTaskId⟩
  rcases eq_or_ne u t with rfl | other
  · exact ⟨drift.id, .inr ready⟩
  · exact drift.others u other

/-! ## Run queues -/

theorem taskListPushBack_drift (s : State) (r : ListRef) (t : TaskId) (kind : ListKind) :
    Drift switching s (taskListPushBack s r t kind) := by
  refine ⟨fun u => ?_, fun _ _ => rfl, rfl⟩
  rcases eq_or_ne u t with rfl | other
  · rw [taskListPushBack_same]
    exact ⟨rfl, .inl ⟨rfl, rfl⟩⟩
  · rw [taskListPushBack_other s r kind other]
    exact .refl _

theorem taskListRemove_drift (s : State) (r : ListRef) (t : TaskId) :
    Drift switching s (taskListRemove s r t) := by
  refine ⟨fun u => ?_, fun _ _ => rfl, rfl⟩
  rcases eq_or_ne u t with rfl | other
  · rw [taskListRemove_same]
    exact ⟨rfl, .inl ⟨rfl, rfl⟩⟩
  · rw [taskListRemove_other s r other]
    exact .refl _

/-- Counting a task on or off a run queue. -/
theorem recount_drift (s : State) (cpu : Nat) (count : Cpu → Nat) :
    Drift switching s (s.setCpu cpu fun c => { c with runnableCount := count c }) := by
  refine .same rfl (fun c => ?_) rfl
  rcases eq_or_ne c cpu with rfl | other
  · rw [State.setCpu_same]
  · rw [State.setCpu_other _ _ other]

theorem addRunnable_drift (s : State) (cpu priority : Nat) (t : TaskId) :
    Drift switching s (addRunnable s cpu priority t) :=
  (taskListPushBack_drift ..).trans (recount_drift ..)

theorem dropRunnable_drift (s : State) (cpu priority : Nat) (t : TaskId) :
    Drift switching s (dropRunnable s cpu priority t) :=
  (taskListRemove_drift ..).trans (recount_drift ..)

theorem schedulerNotifyRemoteRunnable_drift (s : State) (executing cpu : Nat)
    (reason : EnqueueReason) :
    Drift switching s (schedulerNotifyRemoteRunnable s executing cpu reason) := by
  unfold schedulerNotifyRemoteRunnable
  split
  · exact .refl s
  · split
    · exact .refl s
    · exact .same rfl (fun _ => rfl) rfl

/-- Whatever a task has been through, on a run queue it is ready. -/
theorem DriftBut.enqueueLocal (drift : DriftBut switching t s m) (cpu : Nat) :
    Drift switching s (schedulerCpuEnqueueRunnableLocal m cpu t) := by
  have queued : DriftBut switching t s (schedulerCpuEnqueueRunnableLocal m cpu t) :=
    (drift.setTask (f := enqueuedTask m cpu) rfl).then (addRunnable_drift ..)
  refine queued.ready (.inl ?_)
  rw [schedulerCpuEnqueueRunnableLocal_same]
  rfl

theorem DriftBut.enqueue (drift : DriftBut switching t s m) (executing cpu : Nat)
    (reason : EnqueueReason) :
    Drift switching s (schedulerCpuEnqueueRunnable m executing cpu t reason) :=
  (drift.enqueueLocal cpu).trans (schedulerNotifyRemoteRunnable_drift ..)

theorem schedulerCpuEnqueueRunnable_drift (s : State) (executing cpu : Nat) (t : TaskId)
    (reason : EnqueueReason) :
    Drift switching s (schedulerCpuEnqueueRunnable s executing cpu t reason) :=
  (Drift.refl s).but.enqueue executing cpu reason

theorem schedulerMigrateRunnableTask_drift (s : State) (executing source target : Nat)
    (t : TaskId) (notify : Bool) :
    Drift switching s (schedulerMigrateRunnableTask s executing source target t notify).1 := by
  unfold schedulerMigrateRunnableTask
  split
  · exact .refl s
  split
  · exact .refl s
  split
  · exact .refl s
  split
  · exact .refl s
  split
  · exact .refl s
  split
  · exact (dropRunnable_drift ..).but.enqueue executing target .reschedule
  · exact (dropRunnable_drift ..).but.enqueueLocal target

/-! ## Sweeps -/

theorem endWait_drift (s : State) (executing : Nat) (t : TaskId) (result : Bool) :
    Drift switching s (endWait s executing t result) :=
  ((taskListRemove_drift s .blocked t).but.setTask rfl).enqueue executing _ .wakeup

theorem schedulerAdvanceTimers_drift {executing : Nat}
    (advanced : schedulerAdvanceTimers s executing = some s') : Drift switching s s' := by
  obtain ⟨m, slept, waited⟩ := Option.bind_eq_some_iff.mp advanced
  have first : Drift switching s m := by
    refine walk_keeps (P := Drift switching s) (fun t now drift => drift.trans ?_) (.refl s) slept
    unfold expireSleep
    split
    · exact (taskListRemove_drift now .sleeping t).but.enqueue executing _ .wakeup
    · exact .refl now
  refine first.trans (walk_keeps (P := Drift switching m) (fun t now drift => drift.trans ?_)
    (.refl m) waited)
  unfold expireWait
  split
  · exact endWait_drift ..
  · exact .refl now

theorem schedulerWakeChannel_drift {executing : Nat} {channel : Option Nat} {maxCount : Nat}
    {w : State × Nat} (woke : schedulerWakeChannel s executing channel maxCount = some w) :
    Drift switching s w.1 := by
  unfold schedulerWakeChannel at woke
  cases channel with
  | none =>
      cases woke
      exact .refl s
  | some channel =>
      refine walk_keeps (P := fun w : State × Nat => Drift switching s w.1)
        (fun t now drift => drift.trans ?_) (.refl s) woke
      unfold wakeTask
      split
      · exact endWait_drift ..
      · exact .refl now.1

theorem schedulerBalancePeriodic_drift {executing : Nat}
    (balanced : schedulerBalancePeriodic s executing = some s') : Drift switching s s' := by
  refine schedulerBalancePeriodic_keeps (P := Drift switching s)
    (fun {now next source target t} drift migrated => drift.trans ?_) (.refl s) balanced
  have moved : Drift switching now _ :=
    schedulerMigrateRunnableTask_drift now executing source target t true
  rwa [migrated] at moved

/-! ## Interrupts -/

theorem tickTimers_drift {executing : Nat} (ticked : tickTimers s executing = .ok s') :
    Drift switching s s' := by
  unfold tickTimers at ticked
  cases advanced : schedulerAdvanceTimers s.countTick executing with
  | none =>
      rw [advanced] at ticked
      cases ticked
  | some m =>
      rw [advanced] at ticked
      have counted : Drift switching s s.countTick := .same rfl (fun _ => rfl) rfl
      have timers := counted.trans (schedulerAdvanceTimers_drift advanced)
      have recorded : Drift switching m (schedulerShouldBalanceNow m).1 := by
        unfold schedulerShouldBalanceNow
        split
        · exact .refl m
        · split
          · exact .refl m
          · exact .same rfl (fun _ => rfl) rfl
      change (if _ then _ else _) = _ at ticked
      split at ticked
      · split at ticked
        · next balances =>
            rw [balances] at recorded
            exact (timers.trans recorded).trans
              (schedulerBalancePeriodic_drift (walked_eq_ok ticked))
        · next stays =>
            cases ticked
            rw [stays] at recorded
            exact timers.trans recorded
      · cases ticked
        exact timers

theorem dequeueFrom_drift (s : State) (cpu : Nat) :
    ∀ left priority, Drift switching s (dequeueFrom s cpu left priority).1 := by
  intro left
  induction left with
  | zero => exact fun _ => .refl s
  | succ left ih =>
      intro priority
      unfold dequeueFrom
      split
      · exact dropRunnable_drift ..
      · exact ih _

theorem saveFrame_drift (s : State) (cpu : Nat) (frame : Option Nat) :
    Drift switching s (saveFrame s cpu frame) := by
  unfold saveFrame
  split
  · exact .setTask ⟨rfl, .inl ⟨rfl, rfl⟩⟩
  · exact .refl s

theorem schedulerSwitchToTask_drift {executing cpu : Nat} {next : Option TaskId}
    {frame : Option Nat} {r : State × Option Nat} (here : switching cpu)
    (switched : schedulerSwitchToTask s executing cpu next frame = .ok r) :
    Drift switching s r.1 := by
  unfold schedulerSwitchToTask at switched
  split at switched
  · split at switched
    · cases switched
    · split at switched
      · cases switched
        exact .same rfl (fun _ => rfl) rfl
      · cases switched
  · next t =>
      cases switched
      have runs : Drift switching s
          (s.setTask t fun t => { t with state := .running, ticksInSlice := 0 }) :=
        .setTask ⟨rfl, .inr (.inr rfl)⟩
      refine runs.trans ⟨fun _ => .refl _, fun c stays => ?_, rfl⟩
      have other : c ≠ cpu := by
        rintro rfl
        exact stays here
      simp only [makeCurrent, State.setCpu_other _ _ other]

theorem reschedule_drift {executing cpu : Nat} {frame : Option Nat} {r : State × Option Nat}
    (here : switching cpu) (switched : reschedule s executing cpu frame = .ok r) :
    Drift switching s r.1 := by
  have requeued : Drift switching s (requeueCurrent s executing cpu) := by
    unfold requeueCurrent
    split
    · split
      · exact schedulerCpuEnqueueRunnable_drift ..
      · exact .refl s
    · exact .refl s
  have taken := requeued.trans (dequeueFrom_drift _ cpu schedulerPriorityCount 0)
  unfold reschedule schedulerCpuDequeueNextRunnable at switched
  exact taken.trans (schedulerSwitchToTask_drift here switched)

theorem schedulerScheduleCpu_drift {executing cpu : Nat} {frame : Option Nat} {force : Bool}
    {r : State × Option Nat} (here : switching cpu)
    (scheduled : schedulerScheduleCpu s executing cpu frame force = .ok r) :
    Drift switching s r.1 := by
  have saved : Drift switching s (saveFrame s cpu frame) := saveFrame_drift ..
  unfold schedulerScheduleCpu at scheduled
  dsimp only at scheduled
  split at scheduled
  · split at scheduled
    · cases scheduled
      exact saved
    · exact saved.trans (reschedule_drift here scheduled)
  · exact saved.trans (reschedule_drift here scheduled)

theorem tickCurrent_drift {executing : Nat} {frame : Option Nat} {r : State × Option Nat}
    (here : switching (schedulerCurrentCpuState s executing))
    (ticked : tickCurrent s executing frame = .ok r) : Drift switching s r.1 := by
  unfold tickCurrent at ticked
  dsimp only at ticked
  split at ticked
  · exact schedulerScheduleCpu_drift here ticked
  · next t _ =>
      split at ticked
      · exact schedulerScheduleCpu_drift here ticked
      · have charged : Drift switching s
            (s.setTask t fun t => { t with ticksInSlice := u32Add t.ticksInSlice 1 }) :=
          .setTask ⟨rfl, .inl ⟨rfl, rfl⟩⟩
        split at ticked
        · exact charged.trans (schedulerScheduleCpu_drift here ticked)
        · cases ticked
          exact charged.trans (.setTask (t := t) (f := fun u => { u with frame := frame })
            ⟨rfl, .inl ⟨rfl, rfl⟩⟩)

/-! ## Priorities -/

theorem schedulerSetTaskPriority_drift (s : State) (executing taskId priority : Nat) :
    Drift switching s (schedulerSetTaskPriority s executing taskId priority).1 := by
  unfold schedulerSetTaskPriority
  split
  · exact .refl s
  · next t _ =>
      dsimp only
      split
      · exact .refl s
      · have taken : Drift switching s (unqueue s t) := by
          unfold unqueue schedulerRemoveRunnable
          split
          · split
            · exact .refl s
            · exact dropRunnable_drift ..
          · exact .refl s
        have renewed : ∀ m : State, Drift switching m (renewSlice m t) := by
          intro m
          unfold renewSlice
          split
          · exact .setTask ⟨rfl, .inl ⟨rfl, rfl⟩⟩
          · exact .refl m
        have back : ∀ m : State, Drift switching m (requeue m executing t) := by
          intro m
          unfold requeue
          split
          · exact schedulerCpuEnqueueRunnable_drift ..
          · exact .refl m
        have changed : Drift switching (unqueue s t) ((unqueue s t).setTask t
            fun t => { t with priority := schedulerPrioritySanitize priority }) :=
          .setTask ⟨rfl, .inl ⟨rfl, rfl⟩⟩
        exact ((taken.trans changed).trans (back _)).trans (renewed _)

end

end Dfos.Scheduler
