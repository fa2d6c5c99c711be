import Dfos.Scheduler.IdleTasks
import Dfos.Scheduler.Join
import Dfos.Scheduler.Lifetimes

/-!
# Task ids

`next_task_id` counts in 32 bits and its value is given out unseen.  Ids identify
tasks until 2^32 tasks have been created, however many of them are left: the last
gets the id zero.  A task that creates its successor and exits, over and over,
brings the counter there.
-/

namespace Dfos.Scheduler

open Dfos.Lib

/-- The ids of the tasks that are there are different and not zero, so that a
lookup finds the task the id was issued to. -/
structure State.IdsIdentify (s : State) : Prop where
  nonzero : ∀ t, (s.tasks t).state ≠ .unused → (s.tasks t).id ≠ 0
  distinct : ∀ t u, (s.tasks t).state ≠ .unused → (s.tasks u).state ≠ .unused →
    (s.tasks t).id = (s.tasks u).id → t = u
  found : ∀ t, (s.tasks t).state ≠ .unused → schedulerFindTaskById s (s.tasks t).id = some t

/-- Ids identify tasks in every state of the run. -/
def World.IdentifyAlong (w : World) : List Action → Prop
  | [] => w.state.IdsIdentify
  | action :: actions =>
      w.state.IdsIdentify ∧ ∀ w', w.step action = some w' → w'.IdentifyAlong actions

section Steps

variable {s : State} {w w' : TaskLog} {action : Action} {actions : List Action}

theorem State.IdsIdentify.of_distinct
    (nonzero : ∀ t, (s.tasks t).state ≠ .unused → (s.tasks t).id ≠ 0)
    (distinct : ∀ t u, (s.tasks t).state ≠ .unused → (s.tasks u).state ≠ .unused →
      (s.tasks t).id = (s.tasks u).id → t = u) : s.IdsIdentify := by
  refine ⟨nonzero, distinct, fun t live => ?_⟩
  unfold schedulerFindTaskById
  cases found : (List.finRange 32).find? fun u =>
      (s.tasks u).state ≠ .unused && (s.tasks u).id = (s.tasks t).id with
  | none =>
      have missing := List.find?_eq_none.mp found t (List.mem_finRange t)
      simp [live] at missing
  | some u =>
      have hit := List.find?_some found
      simp only [Bool.and_eq_true, decide_eq_true_eq] at hit
      rw [distinct u t hit.1 live hit.2]

theorem TaskLog.Inv.identify (inv : w.Inv) : w.world.state.IdsIdentify := by
  refine .of_distinct (fun t live => ?_) inv.distinct
  have positive := (inv.known t live).1
  omega

/-- **One step.**  Ids go on identifying exactly as long as the count does not wrap. -/
theorem TaskLog.Recorded.identify_iff (recorded : w.Recorded) (few : w.created < 2 ^ 32)
    (calm : w.world.Calm action) (stepped : w.step action = some w') :
    w'.world.state.IdsIdentify ↔ w'.created < 2 ^ 32 := by
  refine ⟨fun identify => ?_, fun still => (recorded.step calm still stepped).1.identify⟩
  obtain ⟨inv, contents, held, sound⟩ := recorded
  rcases TaskLog.step_cases sound calm stepped with
    ⟨-, -, -, same⟩ | ⟨t, -, starts, same⟩ | ⟨t, resources, -, -, -, same⟩
  · rw [same]
    exact few
  · -- the new task has the id that the count gives
    have nonzero := identify.nonzero t starts.ready.live.1
    rw [starts.id, inv.nextTaskId, u32Add] at nonzero
    rw [same]
    dsimp only
    omega
  · rw [same]
    exact few

theorem World.IdentifyAlong.now {w : World} (along : w.IdentifyAlong actions) :
    w.state.IdsIdentify := by
  cases actions with
  | nil => exact along
  | cons action actions => exact along.1

/-- By induction on the run, with the log of the tasks made. -/
theorem TaskLog.Recorded.identifyAlong_iff {last : World} (recorded : w.Recorded)
    (few : w.created < 2 ^ 32) (calm : w.world.CalmAlong actions)
    (ran : w.world.run actions = some last) :
    w.world.IdentifyAlong actions ↔ w.created + actions.countP Action.isCreation < 2 ^ 32 := by
  induction actions generalizing w with
  | nil => exact iff_of_true recorded.1.identify few
  | cons action actions ih =>
      rw [World.run] at ran
      cases stepped : w.world.step action with
      | none =>
          rw [stepped] at ran
          cases ran
      | some m =>
          rw [stepped] at ran
          obtain ⟨w', logged, rfl, counted⟩ : ∃ w', w.step action = some w' ∧ w'.world = m ∧
              w'.created = w.created + action.isCreation.toNat := by
            rw [TaskLog.step, stepped]
            exact ⟨_, rfl, rfl, rfl⟩
          have next (still : w'.created < 2 ^ 32) :=
            ih (recorded.step calm.1 still logged) still (calm.2 _ stepped) ran
          have total : w.created + (action :: actions).countP Action.isCreation =
              w'.created + actions.countP Action.isCreation := by
            rw [counted, List.countP_cons]
            cases action.isCreation <;> simp only [Bool.toNat] <;> grind
          rw [total]
          constructor
          · intro along
            have after := along.2 _ stepped
            exact (next ((recorded.identify_iff few calm.1 logged).mp after.now)).mp after
          · intro all
            refine ⟨recorded.1.identify, fun v again => ?_⟩
            obtain rfl := Option.some.inj (stepped.symm.trans again)
            exact (next (by omega)).mpr all

end Steps

/-- **Task ids.**  In every state of a run the ids identify the tasks exactly when
the run creates fewer than `2^32` tasks. -/
theorem task_ids_identify_iff {spaces : Paging.AddressSpaces} {smpAvailable : Bool}
    {config : TopologyConfig} {start w : World} {actions : List Action}
    (started : World.start spaces smpAvailable config = some start)
    (calm : start.CalmAlong actions) (ran : start.run actions = some w) :
    start.IdentifyAlong actions ↔ actions.countP Action.isCreation < 2 ^ 32 := by
  have logs : TaskLog.start spaces smpAvailable config = some ⟨start, 0, [], []⟩ := by
    rw [TaskLog.start, started]
    rfl
  rw [(TaskLog.start_recorded logs).1.identifyAlong_iff (Nat.two_pow_pos 32) calm ran,
    Nat.zero_add]

/-- A task is created in slot `b`. -/
def successor (b : TaskId) : List Action :=
  [.createReserve 0 (taskFor 1).config, .createEnqueue 0 b (taskFor 1) 0 0]

/-- The first task creates another and exits, and that one reaps it and creates a third. -/
def successors : List Action :=
  [.bootstrapCurrent 0x9000 none] ++ successor (TaskId.ofNat 1) ++
    [.exitCurrent 0, .yield 0 0, .reapZombie] ++ successor (TaskId.ofNat 2)

theorem task_ids_identify_iff_successors :
    ∃ start w, World.start kernelOnly false oneCpu = some start ∧
      start.run successors = some w ∧ (w.state.tasks 2).id = 3 ∧
      start.IdentifyAlong successors := by
  have whole : ((World.start kernelOnly false oneCpu).bind (·.run successors)).map
      (fun w => (w.state.tasks 2).id) = some 3 := by
    decide +kernel
  obtain ⟨w, ran, third⟩ := Option.map_eq_some_iff.mp whole
  obtain ⟨start, started, ran⟩ := Option.bind_eq_some_iff.mp ran
  have calm : start.CalmAlong successors := by
    simp [successors, successor, World.CalmAlong, World.Calm]
  exact ⟨start, w, started, ran, third, (task_ids_identify_iff started calm ran).mpr (by decide)⟩

/-! ## Two to the thirty-second tasks -/

section Cycle

variable {s : State} {t b : TaskId} {w : World} {contents : ListRef → List TaskId}
  {held : Finset TaskId} {k : Nat}

theorem Core.online_zero (core : Core s contents held) (one : s.configuredCpuCount = 1) :
    (s.cpus 0).online := by
  have boot := core.topology.boot
  have low := core.topology.online _ boot
  rwa [show s.bootCpuId = 0 by omega] at boot

theorem Core.seat_zero (core : Core s contents held) (one : s.configuredCpuCount = 1)
    (live : (s.tasks t).state ≠ .unused) : (s.tasks t).assignedCpu = 0 := by
  have low := core.topology.online _ ((core.allowed t).seated live).online
  omega

theorem Core.currentTask_zero (core : Core s contents held) (one : s.configuredCpuCount = 1) :
    schedulerCurrentTask s 0 = (s.cpus 0).current := by
  rw [schedulerCurrentTask, core.topology.currentCpu_eq (core.online_zero one)]

/-- A zombie that makes way stays one. -/
theorem schedulerScheduleCpu_zombie {executing cpu : Nat} {frame : Option Nat}
    {r : State × Option Nat} (core : Core s contents held)
    (current : (s.cpus cpu).current = some t) (zombie : (s.tasks t).state = .zombie)
    (scheduled : schedulerScheduleCpu s executing cpu frame true = .ok r) :
    (r.1.tasks t).state = .zombie := by
  have saved := saveFrame_core core cpu frame
  have dead := (saveFrame_state s cpu frame t).trans zombie
  have here : ((saveFrame s cpu frame).cpus cpu).current = some t := by rwa [saveFrame_cpus]
  rw [schedulerScheduleCpu_forced] at scheduled
  generalize saveFrame s cpu frame = m at *
  have stays : requeueCurrent m executing cpu = m := by
    rw [requeueCurrent, here]
    exact if_neg (by simp [dead])
  rw [reschedule, stays] at scheduled
  rcases schedulerCpuDequeueNextRunnable_core saved cpu with
    ⟨n, next, rest, taken, -, -, moves, state, -, -⟩ | empty
  · rw [taken] at scheduled
    have other : t ≠ next := by
      rintro rfl
      cases dead.symm.trans state
    cases scheduled
    change ((makeCurrent n cpu next).tasks t).state = _
    rw [makeCurrent_other n cpu other, moves.untouched t other]
    exact dead
  · rw [empty] at scheduled
    unfold schedulerSwitchToTask at scheduled
    dsimp only at scheduled
    rw [here] at scheduled
    dsimp only at scheduled
    rw [if_neg (by simp [dead])] at scheduled
    cases scheduled

/-- There is one CPU, and it runs `t`. -/
structure World.Runs (w : World) (t : TaskId) : Prop where
  sound : ∃ contents, w.Sound contents ∅
  one : w.state.configuredCpuCount = 1
  current : (w.state.cpus 0).current = some t
  running : (w.state.tasks t).state = .running

/-- It is the only task; the next gets id `k`. -/
structure World.Solo (w : World) (t : TaskId) (k : Nat) : Prop extends w.Runs t where
  others : ∀ u, u ≠ t → (w.state.tasks u).state = .unused
  nextTaskId : w.state.nextTaskId = k

/-- It has created another, `b`, with id `k`. -/
structure World.Pair (w : World) (t b : TaskId) (k : Nat) : Prop extends w.Runs t where
  other : b ≠ t
  ready : (w.state.tasks b).Ready
  id : (w.state.tasks b).id = k
  others : ∀ u, u ≠ t → u ≠ b → (w.state.tasks u).state = .unused
  nextTaskId : w.state.nextTaskId = u32Add k 1

/-- A slot is found while the free list is not empty. -/
theorem createReserve_ne_none {u : TaskId} {executing : Nat} {config : TaskConfig}
    (core : Core s contents held) (unused : (s.tasks u).state = .unused) (off : u ∉ held) :
    createReserve s executing config ≠ (s, none) := by
  have member : u ∈ contents .free := core.placed.mem_of_home off (by rw [Task.home, unused])
  have head := (core.placed.holds.list .free).head
  have configured := core.topology.online _ core.topology.boot
  intro full
  unfold createReserve schedulerAllocateTaskSlot taskListPopFront at full
  rw [if_neg (by omega)] at full
  cases first : (s.lists .free).head with
  | none =>
      rw [first, eq_comm, List.head?_eq_none_iff] at head
      rw [head] at member
      cases member
  | some x =>
      rw [first] at full
      cases congrArg Prod.snd full

theorem World.Solo.creates (solo : w.Solo t k) :
    ∃ b w', w.run (successor b) = some w' ∧ w'.Pair t b k := by
  obtain ⟨contents, sound⟩ := solo.sound
  obtain ⟨u, away⟩ := exists_ne t
  rcases createReserve_core sound.core 0 (taskFor 1).config with
    full | ⟨s, b, effective, node, taken, core, -, slot, fresh, unused, checked⟩
  · exact absurd full (createReserve_ne_none sound.core (solo.others u away) (Finset.notMem_empty u))
  have inHand : b ∈ insert b (∅ : Finset TaskId) := Finset.mem_insert_self ..
  have other : b ≠ t := by
    rintro rfl
    cases fresh.symm.trans solo.running
  have first : w.step (.createReserve 0 (taskFor 1).config) = some { w with
      state := s, pending := Function.update w.pending b (some effective) } := by
    rw [World.step, taken]
  have calm : w.Calm (.createReserve 0 (taskFor 1).config) := trivial
  have keeps := sound.keeps calm first rfl rfl
  have sound₁ := sound.reserve core slot unused checked
  obtain ⟨⟨q, core₂⟩, slot₂, -, frame⟩ :=
    createEnqueue_core core inHand unused checked 0 (taskFor 1) 0 0
  have starts := createEnqueue_starts core inHand unused checked 0 (taskFor 1) 0 0
  have sound₂ := sound₁.finish core₂ slot₂ (fun u other => Function.update_of_ne other ..)
    fun _ => ⟨_, frame, Function.update_self ..⟩
  rw [Finset.erase_insert (Finset.notMem_empty b)] at sound₂
  have same (u : TaskId) (off : u ≠ b) := (slot₂.others u off).trans (slot.others u off)
  refine ⟨b, _, ?_, ⟨⟨_, sound₂⟩, ?_, ?_, ?_⟩, other, starts.ready, ?_, fun u off off' => ?_, ?_⟩
  · rw [successor, World.run, first]
    dsimp only
    rw [World.run, World.step]
    dsimp only
    rw [Function.update_self]
    rfl
  · exact slot₂.machine.configuredCpuCount.trans (slot.machine.configuredCpuCount.trans solo.one)
  · exact (slot₂.machine.current 0).trans ((slot.machine.current 0).trans solo.current)
  · exact (congrArg Task.state (same t other.symm)).trans solo.running
  · exact starts.id.trans (keeps.nextTaskId.trans solo.nextTaskId)
  · exact (congrArg Task.state (same u off')).trans (solo.others u off)
  · rw [starts.nextTaskId]
    exact congrArg (u32Add · 1) (keeps.nextTaskId.trans solo.nextTaskId)

/-- The exited task's slot is given back once another task runs. -/
theorem reapLocked_only (core : Core s contents held) (off : t ∉ held)
    (zombie : (s.tasks t).state = .zombie)
    (only : ∀ u, (s.tasks u).state = .zombie → u = t) (away : ∀ c, (s.cpus c).current ≠ some t) :
    ∃ s' resources, reapLocked s = some (s', some resources) ∧
      schedulerDetachZombieTaskLocked s t = some (s', resources) := by
  have home : (s.tasks t).home = some .zombie := by rw [Task.home, zombie]
  have kind : (s.tasks t).listKind = .zombie := by
    rw [core.placed.kind, State.whereabouts_home off, home]
    rfl
  have nowhere : schedulerTaskIsCurrentOnAnyCpuLocked s t = false := by
    rw [schedulerTaskIsCurrentOnAnyCpuLocked, List.any_eq_false]
    intro c _
    simp [away c]
  have head : (s.lists .zombie).head = some t := by
    rw [(core.placed.holds.list .zombie).head]
    have member := core.placed.mem_of_home off home
    cases listed : contents .zombie with
    | nil =>
        rw [listed] at member
        cases member
    | cons u rest =>
        have first : u ∈ contents .zombie := by simp [listed]
        obtain dead := core.placed.home first
        refine congrArg some (only u ?_)
        unfold Task.home at dead
        split at dead <;> first | assumption | cases dead
  obtain ⟨s', resources, detached⟩ :
      ∃ s' resources, schedulerDetachZombieTaskLocked s t = some (s', resources) := by
    rw [schedulerDetachZombieTaskLocked, if_neg (by simp [zombie, kind]), nowhere]
    exact ⟨_, _, rfl⟩
  refine ⟨s', resources, ?_, detached⟩
  rw [reapLocked, head, show schedulerMaxThreads = 31 + 1 from rfl, walk]
  dsimp only
  rw [reapTask, detached]

theorem World.Pair.hands_over (pair : w.Pair t b k) :
    ∃ w', w.run [.exitCurrent 0, .yield 0 0, .reapZombie] = some w' ∧ w'.Solo b (u32Add k 1) := by
  obtain ⟨contents, sound⟩ := pair.sound
  have exits : w.step (.exitCurrent 0) = some { w with state := exitLocked w.state t } := by
    rw [World.step, World.call, sound.core.currentTask_zero pair.one, pair.current]
    exact if_pos pair.running
  have calm : w.Calm (.exitCurrent 0) := trivial
  have keeps := sound.keeps calm exits rfl rfl
  obtain ⟨core₁, moves⟩ :=
    exitLocked_listed sound.core (Finset.notMem_empty t) pair.running
  have sound₁ := sound.stir core₁ moves.stirs
  have zombie : ((exitLocked w.state t).tasks t).state = .zombie := by
    rw [exitLocked, taskListPushBack_same, State.setTask_same]
  have same := moves.untouched b pair.other
  have one₁ := moves.machine.configuredCpuCount.trans pair.one
  have current₁ := (moves.machine.current 0).trans pair.current
  have online := core₁.online_zero one₁
  have ready : ((exitLocked w.state t).tasks b).Ready := same ▸ pair.ready
  rcases schedulerScheduleCpu_core core₁ sound₁.reserved online 0 (some 0) with
    ⟨id, panics⟩ | ⟨s₂, next, contents₂, switched, core₂, dispatched⟩
  · exact absurd panics (schedulerScheduleCpu_not_starved core₁ sound₁.reserved online ready
      (core₁.seat_zero one₁ ready.live.1) 0 (some 0) id)
  rcases schedule_interrupted core₁ sound₁.reserved online sound₁.framed 0 0 with
    ⟨fault, panics⟩ | ⟨s₃, resumed, switched', after⟩
  · cases panics.symm.trans switched
  cases switched.symm.trans switched'
  obtain ⟨w₂, contents₃, interrupted, sound₂⟩ := sound₁.interrupted after
  obtain ⟨_, handled, -⟩ := World.interrupt_ok interrupted
  obtain rfl := congrArg Prod.fst (Except.ok.inj handled)
  have yields : World.step { w with state := exitLocked w.state t } (.yield 0 0) = some w₂ := by
    rw [World.step, if_pos online, schedulerOnYield, core₁.topology.currentCpu_eq online, switched]
    exact interrupted
  have calm₁ : World.Calm { w with state := exitLocked w.state t } (.yield 0 0) := trivial
  have keeps₂ := sound₁.keeps calm₁ yields rfl rfl
  have gone (u : TaskId) (off : u ≠ t) (off' : u ≠ b) :
      ((exitLocked w.state t).tasks u).state = .unused := by
    rw [moves.untouched u off]
    exact pair.others u off off'
  have dead := schedulerScheduleCpu_zombie core₁ current₁ zombie switched
  have one₂ := after.topology.configuredCpuCount.trans one₁
  -- the only task that is left runs
  have chosen : next = b := by
    by_contra off'
    refine dispatched.live ?_
    rw [saveFrame_state]
    refine gone next ?_ off'
    rintro rfl
    cases dead.symm.trans dispatched.running
  subst chosen
  have now : (w₂.state.cpus 0).current = some next := by rw [dispatched.current, if_pos rfl]
  have away (c : Nat) : (w₂.state.cpus c).current ≠ some t := by
    intro here
    obtain ⟨live, seat⟩ := (core₂.allowed t).current c here
    rw [← seat, core₂.seat_zero one₂ live, now] at here
    exact pair.other (Option.some.inj here)
  have only (u : TaskId) (zombie : (w₂.state.tasks u).state = .zombie) : u = t := by
    by_contra off
    by_cases here : u = next
    · rw [here, dispatched.running] at zombie
      cases zombie
    · rw [(keeps₂.unused u).mpr (gone u off here)] at zombie
      cases zombie
  obtain ⟨s₄, resources, swept, detached⟩ :=
    reapLocked_only core₂ (Finset.notMem_empty t) dead only away
  obtain ⟨reaped, -, nextTaskId, -⟩ := schedulerDetachZombieTaskLocked_reaped core₂ detached
  have same₄ := reaped.slot.others
  rcases schedulerDetachZombieTaskLocked_core core₂ t with kept | ⟨_, _, again, core₄, -⟩
  · cases kept.symm.trans detached
  cases detached.symm.trans again
  refine ⟨{ w₂ with state := s₄ }, ?_, ⟨⟨_, sound₂.reap core₄ reaped⟩, ?_, ?_, ?_⟩,
    fun u off => ?_, ?_⟩
  · rw [World.run, exits]
    dsimp only
    rw [World.run, yields]
    dsimp only
    rw [World.run, World.step, swept]
    rfl
  · exact reaped.slot.machine.configuredCpuCount.trans one₂
  · exact (reaped.slot.machine.current 0).trans now
  · exact (congrArg Task.state (same₄ next pair.other)).trans dispatched.running
  · by_cases here : u = t
    · rw [here]
      exact reaped.unused
    · exact (congrArg Task.state (same₄ u here)).trans ((keeps₂.unused u).mpr (gone u here off))
  · exact nextTaskId.trans (keeps₂.nextTaskId.trans (keeps.nextTaskId.trans pair.nextTaskId))

theorem World.run_append (w : World) (first second : List Action) :
    w.run (first ++ second) = (w.run first).bind (·.run second) := by
  induction first generalizing w with
  | nil => rfl
  | cons action actions ih =>
      rw [List.cons_append, World.run, World.run]
      cases w.step action with
      | none => rfl
      | some w' => exact ih w'

/-- By induction on the number of tasks. -/
theorem World.Solo.cycles (solo : w.Solo t k) (low : k < 2 ^ 32) (n : Nat) :
    ∃ actions t' w', w.run actions = some w' ∧ w'.Solo t' ((k + n) % 2 ^ 32) := by
  induction n with
  | zero => exact ⟨[], t, w, rfl, by rwa [Nat.add_zero, Nat.mod_eq_of_lt low]⟩
  | succ n ih =>
      obtain ⟨actions, t', w', ran, after⟩ := ih
      obtain ⟨b, v, created, pair⟩ := after.creates
      obtain ⟨v', handed, solo'⟩ := pair.hands_over
      refine ⟨(actions ++ successor b) ++ [.exitCurrent 0, .yield 0 0, .reapZombie], b, v', ?_, ?_⟩
      · rw [World.run_append, World.run_append, ran, Option.bind_some, created, Option.bind_some,
          handed]
      · rwa [u32Add, Nat.mod_add_mod, Nat.add_assoc] at solo'

end Cycle

/-- From `scheduler_init` on one CPU, a run reaches a task with id zero. -/
theorem task_id_zero_issued :
    ∃ start w actions t, World.start kernelOnly false oneCpu = some start ∧
      start.run actions = some w ∧ (w.state.tasks t).state ≠ .unused ∧
      (w.state.tasks t).id = 0 := by
  have boots : ((World.start kernelOnly false oneCpu).bind
      (·.run [.bootstrapCurrent 0x9000 none])).map (fun w =>
        (w.state.configuredCpuCount, (w.state.cpus 0).current, (w.state.tasks 0).state,
          decide (∀ u, u ≠ 0 → (w.state.tasks u).state = .unused), w.state.nextTaskId)) =
      some (1, some 0, .running, true, 2) := by
    decide +kernel
  obtain ⟨w, ran, facts⟩ := Option.map_eq_some_iff.mp boots
  obtain ⟨start, started, ran⟩ := Option.bind_eq_some_iff.mp ran
  simp only [Prod.mk.injEq, decide_eq_true_eq] at facts
  obtain ⟨one, current, running, others, nextTaskId⟩ := facts
  obtain ⟨contents, sound⟩ := World.start_sound started
  have stepped : start.step (.bootstrapCurrent 0x9000 none) = some w := by
    rw [World.run] at ran
    cases stepped : start.step (.bootstrapCurrent 0x9000 none) with
    | none =>
        rw [stepped] at ran
        cases ran
    | some v =>
        rw [stepped] at ran
        exact ran
  have solo : w.Solo 0 2 :=
    ⟨⟨(sound.bootstrapCurrent stepped).1, one, current, running⟩, others, nextTaskId⟩
  obtain ⟨actions, t, w', cycled, last⟩ := solo.cycles (by decide) (2 ^ 32 - 2)
  obtain ⟨b, v, created, pair⟩ := last.creates
  refine ⟨start, v, ([.bootstrapCurrent 0x9000 none] ++ actions) ++ successor b, b, started, ?_,
    pair.ready.live.1, pair.id⟩
  rw [World.run_append, World.run_append, ran, Option.bind_some, cycled, Option.bind_some, created]

end Dfos.Scheduler
