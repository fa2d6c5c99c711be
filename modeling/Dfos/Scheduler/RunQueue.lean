import Dfos.Scheduler.Invariant

/-!
# Run queues keep the invariant

One lemma for each function that puts tasks on run queues or takes them off.
-/

namespace Dfos.Scheduler

open Dfos.Lib

theorem walked_eq_ok {α : Type} {o : Option α} {a : α} (ok : walked o = .ok a) : o = some a := by
  cases o with
  | none => cases ok
  | some _ =>
      cases ok
      rfl

/-- The run queue of the task's priority on its CPU. -/
def State.queueOf (s : State) (t : TaskId) : ListRef :=
  .runnable (s.tasks t).assignedCpu (s.tasks t).priority

/-- What the lists hold once `t` has left `r` for the end of `q`. -/
def relist (contents : ListRef → List TaskId) (r q : ListRef) (t : TaskId) :
    ListRef → List TaskId :=
  Function.update (Function.update contents r ((contents r).erase t)) q (contents q ++ [t])

section

variable {s : State} {contents : ListRef → List TaskId} {held : Finset TaskId}

/-! ## CPUs -/

theorem Topology.cpuById (topology : Topology s) {c : Nat} (online : (s.cpus c).online) :
    schedulerCpuById s c = c :=
  if_neg (by simp [topology.online c online, online])

theorem Topology.currentCpu (topology : Topology s) (executing : Nat) :
    (s.cpus (schedulerCurrentCpuState s executing)).online := by
  have configured := topology.online _ topology.boot
  unfold schedulerCurrentCpuState
  split_ifs with empty off
  · omega
  · exact topology.boot
  · rw [not_or, not_not] at off
    exact off.2

theorem Topology.id_currentCpu (topology : Topology s) (executing : Nat) :
    (s.cpus (schedulerCurrentCpuState s executing)).id = schedulerCurrentCpuState s executing :=
  topology.id _ (topology.currentCpu executing)

/-! ## Enqueueing -/

theorem schedulerNotifyRemoteRunnable_core (core : Core s contents held) (executing cpu : Nat)
    (reason : EnqueueReason) :
    Core (schedulerNotifyRemoteRunnable s executing cpu reason) contents held := by
  unfold schedulerNotifyRemoteRunnable
  split
  · exact core
  · split
    · exact core
    · exact core.transport rfl rfl rfl rfl rfl rfl

/-- A task in hand joins the run queue of an online CPU its mask allows.  If it
is current anywhere, then there. -/
theorem schedulerCpuEnqueueRunnableLocal_core {t : TaskId} {cpu : Nat}
    (core : Core s contents held) (inHand : t ∈ held) (online : (s.cpus cpu).online)
    (affinity : (s.tasks t).cpuAffinityMask.testBit cpu)
    (current : ∀ c, (s.cpus c).current = some t → c = cpu) :
    Core (schedulerCpuEnqueueRunnableLocal s cpu t)
      (Function.update contents
        (.runnable cpu (schedulerPrioritySanitize (s.tasks t).priority))
        (contents (.runnable cpu (schedulerPrioritySanitize (s.tasks t).priority)) ++ [t]))
      (held.erase t) := by
  have id := core.topology.id cpu online
  have seated : Seated s (enqueuedTask s cpu (s.tasks t)) := by
    refine ⟨?_, ?_, schedulerPrioritySanitize_lt _⟩
    · rwa [enqueuedTask, id]
    · rwa [enqueuedTask, id]
  have rewritten := core.setHeld inHand (f := enqueuedTask s cpu) (core.placed.held_kind inHand)
    ⟨fun _ => seated, nofun, fun c here => ⟨nofun, id.trans (current c here).symm⟩⟩
  refine rewritten.add inHand ?_
  rw [State.setTask_same]
  change some (ListRef.runnable (s.cpus cpu).id _) = _
  rw [id]
  rfl

theorem schedulerCpuEnqueueRunnableLocal_moves {t : TaskId} (cpu : Nat)
    (live : (s.tasks t).state ≠ .unused) :
    Moves (· = t) s (schedulerCpuEnqueueRunnableLocal s cpu t) := by
  have rewritten : Moves (· = t) s (s.setTask t (enqueuedTask s cpu)) :=
    .setTask (iff_of_false nofun live) rfl rfl
  exact rewritten.trans (addRunnable_moves ..)

theorem schedulerCpuEnqueueRunnable_core {t : TaskId} {cpu : Nat}
    (core : Core s contents held) (inHand : t ∈ held) (online : (s.cpus cpu).online)
    (affinity : (s.tasks t).cpuAffinityMask.testBit cpu)
    (current : ∀ c, (s.cpus c).current = some t → c = cpu) (executing : Nat)
    (reason : EnqueueReason) :
    Core (schedulerCpuEnqueueRunnable s executing cpu t reason)
      (Function.update contents
        (.runnable cpu (schedulerPrioritySanitize (s.tasks t).priority))
        (contents (.runnable cpu (schedulerPrioritySanitize (s.tasks t).priority)) ++ [t]))
      (held.erase t) :=
  schedulerNotifyRemoteRunnable_core
    (schedulerCpuEnqueueRunnableLocal_core core inHand online affinity current) ..

theorem schedulerCpuEnqueueRunnable_moves {t : TaskId} (executing cpu : Nat)
    (reason : EnqueueReason) (live : (s.tasks t).state ≠ .unused) :
    Moves (· = t) s (schedulerCpuEnqueueRunnable s executing cpu t reason) :=
  (schedulerCpuEnqueueRunnableLocal_moves cpu live).trans
    (schedulerNotifyRemoteRunnable_moves ..)

theorem schedulerCpuEnqueueRunnableLocal_same (s : State) (cpu : Nat) (t : TaskId) :
    (schedulerCpuEnqueueRunnableLocal s cpu t).tasks t =
      { enqueuedTask s cpu (s.tasks t) with listKind := .runnable } := by
  change (taskListPushBack (s.setTask t (enqueuedTask s cpu)) _ t _).tasks t = _
  rw [taskListPushBack_same, State.setTask_same]

theorem schedulerCpuEnqueueRunnable_same (s : State) (executing cpu : Nat) (t : TaskId)
    (reason : EnqueueReason) :
    (schedulerCpuEnqueueRunnable s executing cpu t reason).tasks t =
      { enqueuedTask s cpu (s.tasks t) with listKind := .runnable } := by
  have notified := schedulerNotifyRemoteRunnable_moves (fun _ => False)
    (schedulerCpuEnqueueRunnableLocal s cpu t) executing cpu reason
  rw [schedulerCpuEnqueueRunnable, notified.untouched t id, schedulerCpuEnqueueRunnableLocal_same]

theorem schedulerCpuEnqueueRunnable_state (s : State) (executing cpu : Nat) (t : TaskId)
    (reason : EnqueueReason) :
    ((schedulerCpuEnqueueRunnable s executing cpu t reason).tasks t).state = .runnable := by
  rw [schedulerCpuEnqueueRunnable_same]
  rfl

/-- A live task in hand goes back to its CPU, to the end of its run queue. -/
theorem schedulerEnqueueRunnable_core {t : TaskId} (core : Core s contents held)
    (inHand : t ∈ held) (live : (s.tasks t).state ≠ .unused) (executing : Nat)
    (reason : EnqueueReason) :
    Core (schedulerEnqueueRunnable s executing t reason)
      (Function.update contents (s.queueOf t) (contents (s.queueOf t) ++ [t])) (held.erase t) := by
  have seated := (core.allowed t).seated live
  have queued := schedulerCpuEnqueueRunnable_core core inHand seated.online seated.affinity
    (fun c here => ((core.allowed t).current c here).2.symm) executing reason
  rw [schedulerPrioritySanitize_of_lt seated.priority] at queued
  unfold schedulerEnqueueRunnable
  rw [core.topology.cpuById seated.online]
  exact queued

theorem schedulerEnqueueRunnable_moves {t : TaskId} (executing : Nat) (reason : EnqueueReason)
    (live : (s.tasks t).state ≠ .unused) :
    Moves (· = t) s (schedulerEnqueueRunnable s executing t reason) :=
  schedulerCpuEnqueueRunnable_moves executing _ reason live

/-! ## Migration -/

/-- A migration is refused, or the task goes to the end of the run queue of its
priority on the target. -/
theorem schedulerMigrateRunnableTask_relist {t : TaskId} (core : Core s contents held)
    (idle : (s.tasks t).state = .runnable → ∀ c, (s.cpus c).current ≠ some t)
    (executing source target : Nat) (notify : Bool) :
    schedulerMigrateRunnableTask s executing source target t notify = (s, false) ∨
      ∃ s', schedulerMigrateRunnableTask s executing source target t notify = (s', true) ∧
        Core s' (relist contents (s.queueOf t) (.runnable target (s.tasks t).priority) t) held ∧
        Moves (· = t) s s' ∧ (s.tasks t).state = .runnable ∧ t ∈ contents (s.queueOf t) ∧
        (s.tasks t).assignedCpu ≠ target := by
  unfold schedulerMigrateRunnableTask
  split
  · exact Or.inl rfl
  split
  · exact Or.inl rfl
  split
  · exact Or.inl rfl
  split
  · exact Or.inl rfl
  split
  · exact Or.inl rfl
  next apart online listed seat mask =>
    right
    rw [not_or, not_not, not_not] at online listed
    rw [not_not, core.topology.id source online.1] at seat
    rw [core.topology.id target online.2] at mask
    have live : (s.tasks t).state ≠ .unused := by simp [listed.1]
    have off : t ∉ held := by
      intro inHand
      have kind := core.placed.held_kind inHand
      rw [listed.2] at kind
      cases kind
    have queue : s.queueOf t = .runnable source (s.tasks t).priority := by
      rw [State.queueOf, seat]
    have member : t ∈ contents (.runnable source (s.tasks t).priority) :=
      core.placed.mem_of_home off (by rw [Task.home, listed.1, seat])
    have sane := schedulerPrioritySanitize_of_lt ((core.allowed t).seated live).priority
    have other : ListRef.runnable target (s.tasks t).priority ≠
        .runnable source (s.tasks t).priority := by
      intro same
      injection same with sameCpu
      exact apart sameCpu.symm
    rw [queue, sane]
    have dropped := core.drop member
    have moves := dropRunnable_moves s source (s.tasks t).priority t
    have rank : ((dropRunnable s source (s.tasks t).priority t).tasks t).priority =
        (s.tasks t).priority := by
      have same : (dropRunnable s source (s.tasks t).priority t).tasks t =
          { s.tasks t with listKind := .none } := taskListRemove_same ..
      rw [same]
    generalize dropRunnable s source (s.tasks t).priority t = m at dropped moves rank ⊢
    have liveM : (m.tasks t).state ≠ .unused := fun dead => live ((moves.unused t).mp dead)
    have onlineM : (m.cpus target).online := by rw [moves.machine.online, online.2]
    have affinityM : (m.tasks t).cpuAffinityMask.testBit target := by
      rw [moves.affinity]
      exact (and_bit_ne_zero _ _).mp mask
    have queued := schedulerCpuEnqueueRunnableLocal_core dropped (Finset.mem_insert_self ..)
      onlineM affinityM fun c here => by
        rw [moves.machine.current] at here
        exact absurd here (idle listed.1 c)
    rw [Finset.erase_insert off, rank, sane, Function.update_of_ne other] at queued
    have away : (s.tasks t).assignedCpu ≠ target := fun same => apart (seat.symm.trans same)
    split
    · exact ⟨_, rfl, schedulerNotifyRemoteRunnable_core queued .., moves.trans
        (schedulerCpuEnqueueRunnable_moves executing target .reschedule liveM), listed.1, member,
        away⟩
    · exact ⟨_, rfl, queued, moves.trans (schedulerCpuEnqueueRunnableLocal_moves target liveM),
        listed.1, member, away⟩

theorem schedulerMigrateRunnableTask_core {t : TaskId} {source target : Nat}
    (core : Core s contents held)
    (idle : (s.tasks t).state = .runnable → ∀ c, (s.cpus c).current ≠ some t)
    (executing : Nat) (notify : Bool) :
    (∃ contents',
      Core (schedulerMigrateRunnableTask s executing source target t notify).1 contents' held) ∧
      Moves (fun u => u = t ∧ (s.tasks t).state = .runnable) s
        (schedulerMigrateRunnableTask s executing source target t notify).1 := by
  rcases schedulerMigrateRunnableTask_relist core idle executing source target notify with
    refused | ⟨s', migrated, core', moves, state, -⟩
  · rw [refused]
    exact ⟨⟨contents, core⟩, .refl _ s⟩
  · rw [migrated]
    exact ⟨⟨_, core'⟩, moves.mono fun u here => ⟨here, state⟩⟩

end

/-! ## Load balancing -/

/-- The state of the balancer is as it was, or one migration on. -/
def Balance.Once (executing : Nat) (notify : Bool) (b b' : Balance) : Prop :=
  b' = b ∨ b'.moved = true ∧ ∃ source target t,
    schedulerMigrateRunnableTask b.state executing source target t notify = (b'.state, true)

section

variable {executing : Nat} {notify : Bool} {view : CpuView} {b b' : Balance}

theorem balanceTask_once (executing source : Nat) (view : CpuView) (notify : Bool) (t : TaskId)
    (b : Balance) :
    b.Once executing notify (balanceTask executing source view notify t b).1 ∧
      ((balanceTask executing source view notify t b).2 = false →
        (balanceTask executing source view notify t b).1 = b) := by
  unfold balanceTask
  dsimp only
  split
  · exact ⟨Or.inl rfl, fun _ => rfl⟩
  split
  · exact ⟨Or.inl rfl, fun _ => rfl⟩
  split
  · exact ⟨Or.inl rfl, fun _ => rfl⟩
  split
  · exact ⟨Or.inl rfl, fun _ => rfl⟩
  · next moved => exact ⟨Or.inr ⟨rfl, _, _, t, moved⟩, nofun⟩

theorem balancePriorities_once {source : Nat} : ∀ {left : Nat},
    balancePriorities executing source view notify left b = some b' →
      b.Once executing notify b' := by
  intro left
  induction left with
  | zero =>
      intro ended
      cases ended
      exact Or.inl rfl
  | succ left ih =>
      intro ended
      obtain ⟨m, queue, rest⟩ := Option.bind_eq_some_iff.mp ended
      have walked : b.Once executing notify m := walk_ends (P := (· = b))
        (Q := b.Once executing notify) (fun t now same goesOn => by
          subst same
          exact (balanceTask_once executing source view notify t now).2 goesOn)
        (fun t now same _ => by
          subst same
          exact (balanceTask_once executing source view notify t now).1)
        (fun now same => Or.inl same) rfl queue
      split at rest
      · cases rest
        exact walked
      · next still =>
          rcases walked with rfl | ⟨moved, -⟩
          · exact ih rest
          · exact absurd moved still

theorem balanceSources_once : ∀ {left source : Nat},
    balanceSources executing view notify left source b = some b' → b.Once executing notify b' := by
  intro left
  induction left with
  | zero =>
      intro source ended
      cases ended
      exact Or.inl rfl
  | succ left ih =>
      intro source ended
      unfold balanceSources at ended
      split at ended
      · exact ih ended
      · obtain ⟨m, priorities, rest⟩ := Option.bind_eq_some_iff.mp ended
        have walked := balancePriorities_once priorities
        split at rest
        · cases rest
          exact walked
        · next still =>
            rcases walked with rfl | ⟨moved, -⟩
            · exact ih rest
            · exact absurd moved still

/-- One call moves one task at most. -/
theorem schedulerBalanceOnceFromView_once
    (once : schedulerBalanceOnceFromView executing view notify b = some b') :
    Balance.Once executing notify { b with moved := false } b' := by
  unfold schedulerBalanceOnceFromView at once
  split at once
  · cases once
    exact Or.inl rfl
  · exact balanceSources_once once

/-- Whatever a migration keeps, the loop of the load balancer keeps. -/
theorem balanceLoop_keeps {P : State → Prop}
    (step : ∀ {s s' source target t}, P s →
      schedulerMigrateRunnableTask s executing source target t notify = (s', true) → P s') :
    ∀ {left : Nat} {b b' : Balance}, P b.state →
      balanceLoop executing view notify left b = some b' → P b'.state := by
  intro left
  induction left with
  | zero =>
      intro b b' holds ended
      cases ended
      exact holds
  | succ left ih =>
      intro b b' holds ended
      obtain ⟨m, once, rest⟩ := Option.bind_eq_some_iff.mp ended
      have kept : P m.state := by
        rcases schedulerBalanceOnceFromView_once once with rfl | ⟨-, source, target, t, migrated⟩
        · exact holds
        · exact step holds migrated
      split at rest
      · exact ih kept rest
      · cases rest
        exact kept

theorem schedulerBalancePeriodic_keeps {P : State → Prop} {s s' : State}
    (step : ∀ {s s' source target t}, P s →
      schedulerMigrateRunnableTask s executing source target t true = (s', true) → P s')
    (holds : P s) (balanced : schedulerBalancePeriodic s executing = some s') : P s' := by
  obtain ⟨b, looped, ended⟩ := Option.bind_eq_some_iff.mp balanced
  cases ended
  exact balanceLoop_keeps step (b := ⟨s, s.view.cpuLoad, false⟩) holds looped

end

end Dfos.Scheduler
