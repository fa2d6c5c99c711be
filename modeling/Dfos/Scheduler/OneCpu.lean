import Dfos.Scheduler.Readers
import Dfos.Scheduler.Sections

/-!
# One CPU for a task

Whether a task can be the current task of two CPUs, over all interleavings of
critical sections and interrupts.  The current task of a CPU is assigned to that
CPU, and only the load balancer moves a task to another CPU.  Unless it finds a
current task on a run queue, no task runs twice and every interrupt resumes the
frame its task was suspended with.
-/

namespace Dfos.Scheduler

open Dfos.Lib

/-- No task is current on two online CPUs. -/
def World.SoleCurrent (w : World) : Prop :=
  ∀ c d t, (w.state.cpus c).online → (w.state.cpus d).online →
    (w.state.cpus c).current = some t → (w.state.cpus d).current = some t → c = d

/-- Every interrupt has resumed the frame its task was last suspended with. -/
def World.FramesKept (w : World) : Prop :=
  ∀ r ∈ w.resumptions, ∃ frame, r.frame = some frame ∧ r.suspended = some frame

/-- A tick that runs the load balancer finds no current task queued, and reaches
the deadline of none. -/
def World.Calm (w : World) : Action → Prop
  | .timerTick cpu _ =>
      Balances w.state cpu → ∀ c t, (w.state.cpus c).current = some t → ¬ TickMoves w.state t
  | _ => True

/-- Every step of the run is calm where it is taken. -/
def World.CalmAlong (w : World) : List Action → Prop
  | [] => True
  | action :: actions =>
      w.Calm action ∧ ∀ w', w.step action = some w' → w'.CalmAlong actions

/-- The tasks no CPU runs have the frame they were suspended with. -/
def Framed (s : State) (suspended : TaskId → Option Nat) : Prop :=
  ∀ t, (s.tasks t).state ≠ .unused → (∀ c, (s.cpus c).current ≠ some t) →
    ∃ frame, (s.tasks t).frame = some frame ∧ suspended t = some frame

/-- The invariant of the interleavings. -/
structure World.Sound (w : World) (contents : ListRef → List TaskId) (held : Finset TaskId) :
    Prop where
  core : Core w.state contents held
  reserved : Reserved w.state held
  pending : ∀ t config, w.pending t = some config → t ∈ held ∧ Effective w.state config
  framed : Framed w.state w.suspended
  kept : w.FramesKept
  /-- A slot that is on no list is in a creation's hands. -/
  hands : ∀ t ∈ held, w.pending t ≠ none

section

variable {s s' : State} {contents : ListRef → List TaskId} {held : Finset TaskId}
  {suspended : TaskId → Option Nat}

theorem Stirs.framed {touched : TaskId → Prop} (stirs : Stirs touched s s')
    (framed : Framed s suspended) : Framed s' suspended := by
  intro t live idle
  rw [Ne, stirs.unused] at live
  rw [stirs.frame]
  exact framed t live fun c => by rw [← stirs.current]; exact idle c

/-- A slot that is free, or current, or has its first frame. -/
theorem OnlySlot.framed {t : TaskId} (slot : OnlySlot t s s') (framed : Framed s suspended)
    {suspended' : TaskId → Option Nat} (same : ∀ u, u ≠ t → suspended' u = suspended u)
    (here : (s'.tasks t).state ≠ .unused →
      ∃ frame, (s'.tasks t).frame = some frame ∧ suspended' t = some frame) :
    Framed s' suspended' := by
  intro u live idle
  by_cases own : u = t
  · subst own
    exact here live
  · rw [slot.others u own] at live ⊢
    rw [same u own]
    exact framed u live fun c => by rw [← slot.machine.current]; exact idle c

/-! ## Interrupts -/

/-- What an interrupt on `cpu` leaves. -/
structure Interrupted (s s' : State) (held : Finset TaskId) (cpu frame : Nat)
    (suspended : TaskId → Option Nat) (resumed : Option Nat) : Prop where
  core : ∃ contents', Core s' contents' held
  reserved : Reserved s' held
  topology : SameTopology s s'
  framed : Framed s' (suspend s suspended cpu frame)
  resumes : ∃ next f, (s'.cpus cpu).current = some next ∧ resumed = some f ∧
    suspend s suspended cpu frame next = some f

theorem suspend_current {cpu : Nat} {t : TaskId} (current : (s.cpus cpu).current = some t)
    (frame : Nat) : suspend s suspended cpu frame t = some frame := by
  unfold suspend
  rw [current]
  exact Function.update_self ..

theorem suspend_other {cpu : Nat} {t : TaskId} (other : (s.cpus cpu).current ≠ some t)
    (frame : Nat) : suspend s suspended cpu frame t = suspended t := by
  unfold suspend
  cases current : (s.cpus cpu).current with
  | none => rfl
  | some u =>
      refine Function.update_of_ne ?_ ..
      rintro rfl
      exact other current

theorem saveFrame_frame_current {cpu : Nat} {t : TaskId}
    (current : (s.cpus cpu).current = some t) (frame : Option Nat) :
    ((saveFrame s cpu frame).tasks t).frame = frame := by
  unfold saveFrame
  rw [current]
  dsimp only
  rw [State.setTask_same]

theorem saveFrame_other {cpu : Nat} {t : TaskId} (other : (s.cpus cpu).current ≠ some t)
    (frame : Option Nat) : (saveFrame s cpu frame).tasks t = s.tasks t := by
  unfold saveFrame
  split
  · next u current =>
      refine State.setTask_other s _ ?_
      rintro rfl
      exact other current
  · rfl

theorem saveFrame_topology (s : State) (cpu : Nat) (frame : Option Nat) :
    SameTopology s (saveFrame s cpu frame) := by
  unfold saveFrame
  cases (s.cpus cpu).current <;> exact ⟨fun _ => rfl, fun _ => rfl, rfl, rfl⟩

/-- Once the frame of the interrupt is saved, it is what the task was suspended
with. -/
theorem saveFrame_framed {cpu : Nat} (framed : Framed s suspended) (frame : Nat) (t : TaskId)
    (live : (s.tasks t).state ≠ .unused)
    (idle : ∀ c, c ≠ cpu → (s.cpus c).current ≠ some t) :
    ∃ f, ((saveFrame s cpu (some frame)).tasks t).frame = some f ∧
      suspend s suspended cpu frame t = some f := by
  by_cases current : (s.cpus cpu).current = some t
  · exact ⟨frame, saveFrame_frame_current current _, suspend_current current frame⟩
  · rw [saveFrame_other current, suspend_other current]
    refine framed t live fun c => ?_
    by_cases here : c = cpu
    · rwa [here]
    · exact idle c here

/-- A task only one CPU may run is current on no other. -/
theorem Core.idle_elsewhere {cpu : Nat} {t : TaskId} (core : Core s contents held)
    (assigned : (s.tasks t).assignedCpu = cpu) (c : Nat) (other : c ≠ cpu) :
    (s.cpus c).current ≠ some t :=
  fun here => other (((core.allowed t).current c here).2.symm.trans assigned)

theorem schedule_interrupted {cpu : Nat} (core : Core s contents held)
    (reserved : Reserved s held) (online : (s.cpus cpu).online) (framed : Framed s suspended)
    (executing frame : Nat) :
    (∃ fault, schedulerScheduleCpu s executing cpu (some frame) true = .error fault) ∨
      ∃ s' resumed, schedulerScheduleCpu s executing cpu (some frame) true = .ok (s', resumed) ∧
        Interrupted s s' held cpu frame suspended resumed := by
  rcases schedulerScheduleCpu_core core reserved online executing (some frame) with
    ⟨id, panics⟩ | ⟨s', next, contents', switched, core', dispatched⟩
  · exact Or.inl ⟨_, panics⟩
  · have saved := saveFrame_core core cpu (some frame)
    have cpus := saveFrame_cpus s cpu (some frame)
    have unused : ∀ t, (s'.tasks t).state = .unused ↔ (s.tasks t).state = .unused := by
      intro t
      rw [dispatched.unused, saveFrame_state]
    refine Or.inr ⟨s', _, switched, ⟨contents', core'⟩,
      fun t inHand => (unused t).mpr (reserved t inHand),
      (saveFrame_topology s cpu _).trans dispatched.topology, fun t live idle => ?_, next, ?_⟩
    · rw [dispatched.frame]
      refine saveFrame_framed framed frame t (fun dead => live ((unused t).mpr dead)) fun c away => ?_
      have now := idle c
      rw [dispatched.current, if_neg away, cpus] at now
      exact now
    · obtain ⟨f, frameSaved, frameSuspended⟩ := saveFrame_framed framed frame next
        (by rw [← saveFrame_state s cpu (some frame)]; exact dispatched.live)
        (fun c away => by
          have elsewhere := saved.idle_elsewhere dispatched.assigned c away
          rwa [cpus] at elsewhere)
      refine ⟨f, ?_, ?_, frameSuspended⟩
      · rw [dispatched.current, if_pos rfl]
      · rw [dispatched.frame, frameSaved]

/-- The interrupted task goes on. -/
theorem saveFrame_interrupted {cpu : Nat} {t : TaskId} (core : Core s contents held)
    (reserved : Reserved s held) (framed : Framed s suspended)
    (current : (s.cpus cpu).current = some t) (frame : Nat) :
    Interrupted s (saveFrame s cpu (some frame)) held cpu frame suspended (some frame) := by
  have cpus := saveFrame_cpus s cpu (some frame)
  refine ⟨⟨contents, saveFrame_core core cpu _⟩, fun u inHand => ?_, saveFrame_topology s cpu _,
    fun u live idle => ?_, t, frame, ?_, rfl, suspend_current current frame⟩
  · rw [saveFrame_state]
    exact reserved u inHand
  · rw [saveFrame_state] at live
    refine saveFrame_framed framed frame u live fun c _ => ?_
    rw [← cpus]
    exact idle c
  · rwa [cpus]

theorem Interrupted.after_stirs {m : State} {cpu frame : Nat} {resumed : Option Nat}
    {touched : TaskId → Prop} (interrupted : Interrupted m s' held cpu frame suspended resumed)
    (stirs : Stirs touched s m) : Interrupted s s' held cpu frame suspended resumed := by
  have same : suspend m suspended cpu frame = suspend s suspended cpu frame := by
    unfold suspend
    rw [stirs.current]
  obtain ⟨core, reserved, topology, framed, resumes⟩ := interrupted
  rw [same] at framed resumes
  exact ⟨core, reserved, stirs.topology.trans topology, framed, resumes⟩

theorem Topology.currentCpu_eq {cpu : Nat} (topology : Topology s) (online : (s.cpus cpu).online) :
    schedulerCurrentCpuState s cpu = cpu := by
  have below := topology.online cpu online
  unfold schedulerCurrentCpuState
  rw [if_neg (by omega), if_neg (by simp [below, online])]

theorem schedulerOnTimerTick_interrupted {cpu : Nat} (core : Core s contents held)
    (reserved : Reserved s held) (online : (s.cpus cpu).online) (framed : Framed s suspended)
    (calm : Balances s cpu → ∀ c t, (s.cpus c).current = some t → ¬ TickMoves s t) (frame : Nat) :
    (∃ fault, schedulerOnTimerTick s cpu (some frame) = .error fault) ∨
      ∃ s' resumed, schedulerOnTimerTick s cpu (some frame) = .ok (s', resumed) ∧
        Interrupted s s' held cpu frame suspended resumed := by
  obtain ⟨m, ticked, ⟨queues, coreM⟩, stirs⟩ := tickTimers_core core calm
  have reservedM := stirs.reserved reserved
  have framedM := stirs.framed framed
  have onlineM : (m.cpus cpu).online := by rwa [stirs.topology.online]
  have second : schedulerOnTimerTick s cpu (some frame) = tickCurrent m cpu (some frame) := by
    unfold schedulerOnTimerTick
    rw [ticked]
    rfl
  rw [second]
  have cases' := tickCurrent_cases m cpu (some frame)
  rw [coreM.topology.currentCpu_eq onlineM] at cases'
  rcases cases' with scheduled | ⟨t, current, -, scheduled | resumed⟩
  · rw [scheduled]
    rcases schedule_interrupted coreM reservedM onlineM framedM cpu frame with
      panics | ⟨s', resumed, switched, interrupted⟩
    · exact Or.inl panics
    · exact Or.inr ⟨s', resumed, switched, interrupted.after_stirs stirs⟩
  · rw [scheduled]
    obtain ⟨charged, chargeStirs⟩ := charge_core coreM t
    rcases schedule_interrupted charged (chargeStirs.reserved reservedM) onlineM
        (chargeStirs.framed framedM) cpu frame with
      panics | ⟨s', resumed, switched, interrupted⟩
    · exact Or.inl panics
    · exact Or.inr ⟨s', resumed, switched,
        (interrupted.after_stirs chargeStirs).after_stirs stirs⟩
  · rw [resumed]
    obtain ⟨charged, chargeStirs⟩ := charge_core coreM t
    have interrupted := saveFrame_interrupted charged (chargeStirs.reserved reservedM)
      (chargeStirs.framed framedM) current frame
    exact Or.inr ⟨_, _, rfl, (interrupted.after_stirs chargeStirs).after_stirs stirs⟩

end

/-! ## Steps -/

namespace World.Sound

variable {w : World} {contents contents' : ListRef → List TaskId} {held : Finset TaskId}
  {s : State}

section

variable (sound : w.Sound contents held)
include sound

theorem effective (same : SameTopology w.state s) (t : TaskId)
    (config : TaskConfig) (creating : w.pending t = some config) :
    t ∈ held ∧ Effective s config :=
  ⟨(sound.pending t config creating).1, (sound.pending t config creating).2.congr same⟩

/-- A critical section that makes no task and switches to none. -/
theorem stir {touched : TaskId → Prop}
    (core : Core s contents' held) (stirs : Stirs touched w.state s) :
    Sound { w with state := s } contents' held :=
  ⟨core, stirs.reserved sound.reserved, sound.effective stirs.topology,
    stirs.framed sound.framed, sound.kept, sound.hands⟩

theorem reap {t : TaskId} (core : Core s contents' held)
    (reaped : Reaped w.state s t) : Sound { w with state := s } contents' held where
  core := core
  reserved u inHand := by
    by_cases here : u = t
    · rw [here]
      exact reaped.unused
    · rw [reaped.slot.others u here]
      exact sound.reserved u inHand
  pending := sound.effective reaped.slot.machine.topology
  framed := reaped.slot.framed sound.framed (fun _ _ => rfl)
    fun live => absurd reaped.unused live
  kept := sound.kept
  hands := sound.hands

theorem interrupted {cpu frame : Nat} {resumed : Option Nat}
    (after : Interrupted w.state s held cpu frame w.suspended resumed) :
    ∃ w' contents', w.interrupt cpu frame (.ok (s, resumed)) = some w' ∧
      w'.Sound contents' held := by
  obtain ⟨⟨contents', core⟩, reserved, topology, framed, next, f, current, resumes, saved⟩ := after
  unfold World.interrupt
  dsimp only
  rw [current]
  refine ⟨_, contents', rfl, core, reserved, sound.effective topology, framed, fun r member => ?_,
    sound.hands⟩
  rcases List.mem_cons.mp member with rfl | earlier
  · exact ⟨f, resumes, saved⟩
  · exact sound.kept r earlier

theorem boot {cpu : Nat} {t : TaskId}
    (core : Core s contents' held) (booted : Booted w.state s cpu t) (off : t ∉ held) :
    Sound (w.bootstrapped s (some t)) contents' held where
  core := core
  reserved u inHand := by
    have other : u ≠ t := fun same => off (same ▸ inHand)
    change (s.tasks u).state = .unused
    rw [booted.others u other]
    exact sound.reserved u inHand
  pending := sound.effective booted.topology
  framed u live idle := by
    have other : u ≠ t := by
      rintro rfl
      refine idle cpu ?_
      rw [World.bootstrapped, booted.current, if_pos rfl]
    change ∃ frame, (s.tasks u).frame = _ ∧ Function.update w.suspended t none u = _
    rw [Function.update_of_ne other, booted.others u other]
    change (s.tasks u).state ≠ _ at live
    rw [booted.others u other] at live
    refine sound.framed u live fun c => ?_
    by_cases here : c = cpu
    · rw [here, booted.free]
      nofun
    · have now : (s.cpus c).current ≠ some u := idle c
      rwa [booted.current, if_neg here] at now
  kept := sound.kept
  hands := sound.hands

theorem reserve {t : TaskId} {config : TaskConfig}
    (core : Core s contents' (insert t held)) (slot : OnlySlot t w.state s)
    (unused : (s.tasks t).state = .unused) (checked : Effective s config) :
    Sound { w with state := s, pending := Function.update w.pending t (some config) } contents'
      (insert t held) where
  core := core
  reserved u inHand := by
    by_cases here : u = t
    · rw [here]
      exact unused
    · rw [slot.others u here]
      exact sound.reserved u (Finset.mem_of_mem_insert_of_ne inHand here)
  pending u other creating := by
    dsimp only at creating
    by_cases here : u = t
    · subst here
      rw [Function.update_self] at creating
      obtain rfl := Option.some.inj creating
      exact ⟨Finset.mem_insert_self .., checked⟩
    · rw [Function.update_of_ne here] at creating
      obtain ⟨inHand, effective⟩ := sound.effective slot.machine.topology u other creating
      exact ⟨Finset.mem_insert_of_mem inHand, effective⟩
  framed := slot.framed sound.framed (fun _ _ => rfl) fun live => absurd unused live
  kept := sound.kept
  hands u inHand := by
    dsimp only
    by_cases here : u = t
    · rw [here, Function.update_self]
      simp
    · rw [Function.update_of_ne here]
      exact sound.hands u (Finset.mem_of_mem_insert_of_ne inHand here)

/-- A creation ends, with a task or without. -/
theorem finish {t : TaskId} {suspended : TaskId → Option Nat}
    (core : Core s contents' (held.erase t)) (slot : OnlySlot t w.state s)
    (same : ∀ u, u ≠ t → suspended u = w.suspended u)
    (here : (s.tasks t).state ≠ .unused →
      ∃ frame, (s.tasks t).frame = some frame ∧ suspended t = some frame) :
    Sound { w with
      state := s, pending := Function.update w.pending t none, suspended := suspended }
      contents' (held.erase t) where
  core := core
  reserved u inHand := by
    obtain ⟨other, inHand⟩ := Finset.mem_erase.mp inHand
    rw [slot.others u other]
    exact sound.reserved u inHand
  pending u config creating := by
    dsimp only at creating
    by_cases own : u = t
    · rw [own, Function.update_self] at creating
      cases creating
    · rw [Function.update_of_ne own] at creating
      obtain ⟨inHand, effective⟩ := sound.effective slot.machine.topology u config creating
      exact ⟨Finset.mem_erase.mpr ⟨own, inHand⟩, effective⟩
  framed := slot.framed sound.framed same here
  kept := sound.kept
  hands u inHand := by
    obtain ⟨other, inHand⟩ := Finset.mem_erase.mp inHand
    dsimp only
    rw [Function.update_of_ne other]
    exact sound.hands u inHand

theorem bootstrapCurrent {stackTop : Nat} {name : Option String} {w' : World}
    (stepped : w.step (.bootstrapCurrent stackTop name) = some w') :
    (∃ contents', w'.Sound contents' held) ∧
      ∃ t, Booted w.state w'.state w.state.bootCpuId t := by
  rw [World.step] at stepped
  rcases schedulerBootstrapCurrent_core sound.core stackTop name with
    ⟨reason, panics⟩ | ⟨s, t, started, core, booted, off⟩
  · rw [panics] at stepped
    cases stepped
  · rw [started] at stepped
    dsimp only at stepped
    rw [booted.topology.bootCpuId, booted.current, if_pos rfl] at stepped
    obtain rfl := Option.some.inj stepped
    exact ⟨⟨_, sound.boot core booted off⟩, t, booted⟩

theorem bootstrapSecondary {cpu kernelStackTop : Nat} {name : Option String} {w' : World}
    (stepped : w.step (.bootstrapSecondary cpu kernelStackTop name) = some w') :
    (∃ contents', w'.Sound contents' held) ∧ ∃ t, Booted w.state w'.state cpu t := by
  rw [World.step] at stepped
  rcases schedulerBootstrapSecondaryCurrent_core sound.core cpu kernelStackTop name with
    refused | ⟨s, t, started, core, booted, off⟩
  · rw [refused] at stepped
    cases stepped
  · rw [started] at stepped
    dsimp only at stepped
    rw [booted.current, if_pos rfl] at stepped
    obtain rfl := Option.some.inj stepped
    exact ⟨⟨_, sound.boot core booted off⟩, t, booted⟩

/-- The locked part of a blocking call. -/
theorem call {cpu : Nat} {section_ : TaskId → State} {r : ListRef} {w' : World}
    (stops : ∀ t, t ∉ held → (w.state.tasks t).state = .running →
      Core (section_ t) (Function.update contents r (contents r ++ [t])) held ∧
        Moves (· = t) w.state (section_ t))
    (called : w.call cpu section_ = some w') : ∃ contents', w'.Sound contents' held := by
  unfold World.call at called
  cases current : schedulerCurrentTask w.state cpu with
  | none =>
      rw [current] at called
      cases called
  | some t =>
      rw [current] at called
      dsimp only at called
      split at called
      · next running =>
          obtain rfl := Option.some.inj called
          obtain ⟨core, moves⟩ :=
            stops t (sound.core.current_notHeld sound.reserved current) running
          exact ⟨_, sound.stir core moves.stirs⟩
      · cases called

/-- **One step.**  A calm step keeps the invariant. -/
theorem step {action : Action} {w' : World}
    (calm : w.Calm action) (stepped : w.step action = some w') :
    ∃ contents' held', w'.Sound contents' held' := by
  cases action with
  | bootstrapCurrent stackTop name =>
      obtain ⟨⟨contents', sound'⟩, -⟩ := sound.bootstrapCurrent stepped
      exact ⟨contents', held, sound'⟩
  | bootstrapSecondary cpuId kernelStackTop name =>
      obtain ⟨⟨contents', sound'⟩, -⟩ := sound.bootstrapSecondary stepped
      exact ⟨contents', held, sound'⟩
  | createReserve cpu config =>
      rw [World.step] at stepped
      rcases createReserve_core sound.core cpu config with
        full | ⟨s, t, effective, node, taken, core, -, slot, -, unused, checked⟩
      · rw [full] at stepped
        cases stepped
      · rw [taken] at stepped
        obtain rfl := Option.some.inj stepped
        exact ⟨_, _, sound.reserve core slot unused checked⟩
  | createEnqueue cpu t request space stack =>
      rw [World.step] at stepped
      cases creating : w.pending t with
      | none =>
          rw [creating] at stepped
          cases stepped
      | some effective =>
          rw [creating] at stepped
          obtain rfl := Option.some.inj stepped
          obtain ⟨inHand, checked⟩ := sound.pending t effective creating
          obtain ⟨⟨q, core⟩, slot, -, frame⟩ := createEnqueue_core sound.core inHand
            (sound.reserved t inHand) checked cpu request space stack
          exact ⟨_, _, sound.finish core slot
            (fun u other => Function.update_of_ne other ..)
            fun _ => ⟨_, frame, Function.update_self ..⟩⟩
  | createRelease t =>
      rw [World.step] at stepped
      cases creating : w.pending t with
      | none =>
          rw [creating] at stepped
          cases stepped
      | some effective =>
          rw [creating] at stepped
          obtain rfl := Option.some.inj stepped
          have inHand := (sound.pending t effective creating).1
          have core := schedulerReleaseTaskSlot_core sound.core inHand
            (sound.core.unused_idle (sound.reserved t inHand))
          exact ⟨_, _, sound.finish core (schedulerReleaseTaskSlot_onlySlot _ t)
            (fun _ _ => rfl) fun live => absurd (schedulerReleaseTaskSlot_unused _ t) live⟩
  | timerTick cpu frame =>
      rw [World.step] at stepped
      split at stepped
      · next online =>
          rcases schedulerOnTimerTick_interrupted sound.core sound.reserved online sound.framed
              calm frame with
            ⟨fault, panics⟩ | ⟨s, resumed, ticked, after⟩
          · rw [panics] at stepped
            cases stepped
          · rw [ticked] at stepped
            obtain ⟨w'', contents', interrupted, sound'⟩ := sound.interrupted after
            obtain rfl := Option.some.inj (stepped.symm.trans interrupted)
            exact ⟨contents', held, sound'⟩
      · cases stepped
  | yield cpu frame =>
      rw [World.step] at stepped
      split at stepped
      · next online =>
          have scheduled := schedule_interrupted sound.core sound.reserved online sound.framed
            cpu frame
          unfold schedulerOnYield at stepped
          rw [sound.core.topology.currentCpu_eq online] at stepped
          rcases scheduled with ⟨fault, panics⟩ | ⟨s, resumed, switched, after⟩
          · rw [panics] at stepped
            cases stepped
          · rw [switched] at stepped
            obtain ⟨w'', contents', interrupted, sound'⟩ := sound.interrupted after
            obtain rfl := Option.some.inj (stepped.symm.trans interrupted)
            exact ⟨contents', held, sound'⟩
      · cases stepped
  | sleep cpu ticks =>
      rw [World.step] at stepped
      split at stepped
      · cases stepped
      · obtain ⟨contents', sound'⟩ := sound.call
          (fun t off running => sleepLocked_listed sound.core off running ticks) stepped
        exact ⟨contents', held, sound'⟩
  | waitChannel cpu channel timeoutTicks =>
      rw [World.step] at stepped
      split at stepped
      · cases stepped
      · obtain ⟨contents', sound'⟩ := sound.call
          (fun t off running => waitLocked_listed sound.core off running channel timeoutTicks) stepped
        exact ⟨contents', held, sound'⟩
  | exitCurrent cpu =>
      obtain ⟨contents', sound'⟩ := sound.call
        (fun t off running => exitLocked_listed sound.core off running) stepped
      exact ⟨contents', held, sound'⟩
  | wakeChannel cpu channel maxCount =>
      rw [World.step] at stepped
      obtain ⟨woken, woke, ⟨contents', core⟩, moves⟩ :=
        schedulerWakeChannel_core sound.core cpu (some channel) maxCount
      rw [woke] at stepped
      obtain rfl := Option.some.inj stepped
      exact ⟨contents', held, sound.stir core moves.stirs⟩
  | setTaskPriority cpu taskId priority =>
      obtain ⟨⟨contents', core⟩, stirs, -⟩ :=
        schedulerSetTaskPriority_core sound.core sound.reserved cpu taskId priority
      obtain rfl := Option.some.inj stepped
      exact ⟨contents', held, sound.stir core stirs⟩
  | joinTask taskId =>
      obtain rfl := Option.some.inj stepped
      rcases joinLocked_core sound.core taskId with kept | ⟨t, core, reaped⟩
      · rw [kept]
        exact ⟨contents, held, sound⟩
      · exact ⟨_, held, sound.reap core reaped⟩
  | reapZombie =>
      rw [World.step] at stepped
      obtain ⟨r, swept, kept | ⟨t, core, reaped⟩⟩ := reapLocked_core sound.core
      · rw [swept] at stepped
        obtain rfl := Option.some.inj stepped
        rw [kept]
        exact ⟨contents, held, sound⟩
      · rw [swept] at stepped
        obtain rfl := Option.some.inj stepped
        exact ⟨_, held, sound.reap core reaped⟩

end

/-- A run of calm steps keeps the invariant. -/
theorem run : ∀ (actions : List Action) {w w' : World} {contents : ListRef → List TaskId}
    {held : Finset TaskId}, w.Sound contents held → w.CalmAlong actions →
    w.run actions = some w' → ∃ contents' held', w'.Sound contents' held' := by
  intro actions
  induction actions with
  | nil =>
      intro w w' contents held sound _ ran
      obtain rfl := Option.some.inj ran
      exact ⟨contents, held, sound⟩
  | cons action actions ih =>
      intro w w' contents held sound calm ran
      unfold World.run at ran
      cases stepped : w.step action with
      | none =>
          rw [stepped] at ran
          cases ran
      | some m =>
          rw [stepped] at ran
          obtain ⟨contents', held', soundM⟩ := sound.step calm.1 stepped
          exact ih soundM (calm.2 m stepped) ran

theorem readRun {start : World} {w : Reading World} {steps : List (ReadStep Action)}
    {contents : ListRef → List TaskId} {held : Finset TaskId} (sound : start.Sound contents held)
    (calm : worldCallers.Along World.Calm (.start start) steps)
    (ran : worldCallers.readRun (.start start) steps = some w) :
    ∃ contents' held', w.inner.Sound contents' held' :=
  Callers.invariant (I := fun w => ∃ contents held, World.Sound w contents held)
    (by rintro _ _ _ ⟨_, _, sound⟩ calm stepped; exact sound.step calm stepped)
    (Callers.honest_start start) calm ran ⟨_, _, sound⟩

end World.Sound

theorem World.start_unused {spaces : Paging.AddressSpaces} {smpAvailable : Bool}
    {config : TopologyConfig} {w : World} (started : World.start spaces smpAvailable config = some w)
    (t : TaskId) : (w.state.tasks t).state = .unused := by
  unfold World.start at started
  rcases schedulerInit_consistent spaces smpAvailable true with ⟨s, up, -, unused⟩ | panics
  · rw [up] at started
    obtain rfl := Option.some.inj started
    dsimp only
    rw [schedulerConfigureTopology_tasks]
    exact unused t
  · rw [panics] at started
    cases started

theorem World.start_sound {spaces : Paging.AddressSpaces} {smpAvailable : Bool}
    {config : TopologyConfig} {w : World} (started : World.start spaces smpAvailable config = some w) :
    ∃ contents, w.Sound contents ∅ := by
  have free := World.start_unused started
  unfold World.start at started
  rcases schedulerInit_consistent spaces smpAvailable true with ⟨s, up, consistent, -⟩ | panics
  · rw [up] at started
    obtain rfl := Option.some.inj started
    obtain ⟨⟨contents, core⟩, -⟩ := schedulerConfigureTopology_consistent consistent config true
    exact ⟨contents, core, fun t inHand => absurd inHand (Finset.notMem_empty t), nofun,
      fun t live => absurd (free t) live, nofun, fun t inHand => absurd inHand (Finset.notMem_empty t)⟩
  · rw [panics] at started
    cases started

theorem World.Sound.soleCurrent {w : World} {contents : ListRef → List TaskId}
    {held : Finset TaskId} (sound : w.Sound contents held) : w.SoleCurrent :=
  fun c d t _ _ first second => ((sound.core.allowed t).current c first).2.symm.trans
    ((sound.core.allowed t).current d second).2

/-- **One CPU for a task.**  Over any topology and any interleaving whose ticks
are calm, no task is current on two CPUs, and every interrupt resumes the frame
its task was last suspended with. -/
theorem task_on_one_cpu {spaces : Paging.AddressSpaces} {smpAvailable : Bool}
    {config : TopologyConfig} {start w : World} {actions : List Action}
    (started : World.start spaces smpAvailable config = some start)
    (calm : start.CalmAlong actions) (ran : start.run actions = some w) :
    w.SoleCurrent ∧ w.FramesKept := by
  obtain ⟨contents, sound⟩ := World.start_sound started
  obtain ⟨contents', held, after⟩ := World.Sound.run actions sound calm ran
  exact ⟨after.soleCurrent, after.kept⟩

/-- **The lists between critical sections** are those the states say, but for the
slots that a creation has in hand: these are UNUSED and on no list, and every
other UNUSED slot is on the free list. -/
theorem lists_interleaved {spaces : Paging.AddressSpaces} {smp : Bool}
    {config : TopologyConfig} {start : World} {w : Reading World} {steps : List (ReadStep Action)}
    (started : World.start spaces smp config = some start)
    (calm : worldCallers.Along World.Calm (.start start) steps)
    (ran : worldCallers.readRun (.start start) steps = some w) :
    ∃ contents held, Core w.inner.state contents held ∧
      (∀ t, t ∈ held ↔ w.inner.pending t ≠ none) ∧
      (∀ t, w.inner.pending t ≠ none →
        (w.inner.state.tasks t).state = .unused ∧ ∀ r, t ∉ contents r) ∧
      ∀ t, w.inner.pending t = none →
        ∀ r, t ∈ contents r ↔ (w.inner.state.tasks t).home = some r := by
  obtain ⟨_, sound⟩ := World.start_sound started
  obtain ⟨contents, held, after⟩ := sound.readRun calm ran
  have hands (t : TaskId) : t ∈ held ↔ w.inner.pending t ≠ none := by
    refine ⟨after.hands t, fun creating => ?_⟩
    obtain ⟨config, creating⟩ := Option.ne_none_iff_exists'.mp creating
    exact (after.pending t config creating).1
  refine ⟨contents, held, after.core, hands, fun t creating => ?_, fun t free r => ?_⟩
  · have inHand := (hands t).mpr creating
    refine ⟨after.reserved t inHand, fun r here => ?_⟩
    rw [after.core.placed.member, State.whereabouts, if_pos inHand] at here
    cases here
  · rw [after.core.placed.member, State.whereabouts_home fun inHand => (hands t).mp inHand free]

/-! ## Two CPUs -/

/-- One CPU on one node. -/
def oneCpu : TopologyConfig where
  cpuCount := 1
  bootCpuId := 0
  nodeCount := 1
  cpuToNode _ := 0
  cpuOnline _ := true

/-- Two CPUs on one node, both online. -/
def twoCpus : TopologyConfig where
  cpuCount := 2
  bootCpuId := 0
  nodeCount := 1
  cpuToNode _ := 0
  cpuOnline _ := true

/-- A machine on which every task uses the kernel's space. -/
def kernelOnly : Paging.AddressSpaces where
  pagingSpaces _ := { inUse := true, rootPhysical := 0x1000, preferredNumaNode := 0 }
  kernelSpace := some 0
  currentSpace := some 0
  cr3 _ := 0x1000

/-- A task of normal priority for the CPUs of `mask`. -/
def taskFor (mask : Nat) : TaskRequest where
  name := none
  entry := some 0x2000
  arg := 0
  config := ⟨schedulerPriorityNormal, mask, schedulerNumaNodeAny⟩

/-- The `n`th slot. -/
def TaskId.ofNat (n : Nat) : TaskId := Fin.ofNat 32 n

/-- CPU 1 creates a task for the CPUs of `mask` in slot `t`. -/
def create (t mask stack : Nat) : List Action :=
  [.createReserve 1 (taskFor mask).config,
    .createEnqueue 1 (TaskId.ofNat t) (taskFor mask) 0 stack]

/-- Both CPUs come up, and CPU 1 runs a task of its own. -/
def bringUp : List Action :=
  [.bootstrapCurrent 0x9000 none, .bootstrapSecondary 1 0xA000 none] ++
    create 2 3 0x100000 ++ [.yield 1 0x9F00]

/-- The task waits and is woken before its `int 48`. -/
def wokenInWindow : List Action :=
  bringUp ++ [.waitChannel 1 7 10, .wakeChannel 0 7 1, .yield 1 0x103000]

theorem World.calmAlong_append {w : World} {first second : List Action} :
    w.CalmAlong first → (∀ w', w.run first = some w' → w'.CalmAlong second) →
      w.CalmAlong (first ++ second) := by
  induction first generalizing w with
  | nil => exact fun _ rest => rest w rfl
  | cons action first ih =>
      intro calm rest
      refine ⟨calm.1, fun m stepped => ih (calm.2 m stepped) fun w' ran => rest w' ?_⟩
      unfold World.run
      rw [stepped]
      exact ran

theorem task_on_one_cpu_wokenInWindow :
    ∃ start w, World.start kernelOnly true twoCpus = some start ∧
      start.CalmAlong (wokenInWindow ++ [.timerTick 0 0x8F00]) ∧
      start.run (wokenInWindow ++ [.timerTick 0 0x8F00]) = some w ∧ w.resumptions.length = 3 ∧
      w.SoleCurrent ∧ w.FramesKept := by
  have whole : ((World.start kernelOnly true twoCpus).bind fun start =>
      start.run (wokenInWindow ++ [.timerTick 0 0x8F00])).map (·.resumptions.length) = some 3 := by
    decide +kernel
  have early : ((World.start kernelOnly true twoCpus).bind fun start =>
      start.run wokenInWindow).map (fun m => (schedulerShouldBalanceNow m.state.countTick).2) =
        some false := by
    decide +kernel
  obtain ⟨w, ran, resumed⟩ := Option.map_eq_some_iff.mp whole
  obtain ⟨start, started, ran⟩ := Option.bind_eq_some_iff.mp ran
  rw [started, Option.bind_some] at early
  have calm : start.CalmAlong (wokenInWindow ++ [.timerTick 0 0x8F00]) := by
    refine World.calmAlong_append ?_ fun m before => ⟨fun balances => ?_, fun _ _ => trivial⟩
    · simp [wokenInWindow, bringUp, create, World.CalmAlong, World.Calm]
    · rw [before, Option.map_some, balances.2] at early
      cases early
  exact ⟨start, w, started, calm, ran, resumed, task_on_one_cpu started calm ran⟩

/-- A task waits, while another one is in the making. -/
def waitsInCreation : List Action :=
  bringUp ++ [.createReserve 0 (taskFor 3).config, .waitChannel 1 7 10]

theorem lists_interleaved_waitsInCreation :
    ∃ start w contents held, World.start kernelOnly true twoCpus = some start ∧
      worldCallers.readRun (.start start) (worldCallers.whole waitsInCreation) = some w ∧
      Core w.inner.state contents held ∧ 3 ∈ held := by
  have whole : ((World.start kernelOnly true twoCpus).bind fun start => worldCallers.readRun
      (.start start) (worldCallers.whole waitsInCreation)).map (fun w => (w.inner.pending 3).isSome) =
        some true := by
    decide +kernel
  obtain ⟨w, ran, creating⟩ := Option.map_eq_some_iff.mp whole
  obtain ⟨start, started, ran⟩ := Option.bind_eq_some_iff.mp ran
  have calm : worldCallers.Along World.Calm (.start start) (worldCallers.whole waitsInCreation) :=
    Callers.along_whole (by simp [waitsInCreation, bringUp, create, World.Calm]) _
  obtain ⟨contents, held, core, hands, -⟩ := lists_interleaved started calm ran
  exact ⟨start, w, contents, held, started, ran, core,
    (hands 3).mpr (Option.isSome_iff_ne_none.mp creating)⟩

/-- Three more tasks for CPU 1 only, and fifteen ticks on CPU 0.  Then the task
of CPU 1 sleeps for one tick; before its `int 48` that tick comes on CPU 0, which
wakes it and balances, and CPU 0 yields twice. -/
def migratedInWindow : List Action :=
  [.bootstrapCurrent 0x9000 none, .bootstrapSecondary 1 0xA000 none] ++
    create 2 3 0x100000 ++ create 3 2 0x110000 ++ create 4 2 0x120000 ++ create 5 2 0x130000 ++
    [.yield 1 0x9F00] ++ List.replicate 15 (.timerTick 0 0x8F00) ++
    [.sleep 1 1, .timerTick 0 0x8F00, .yield 0 0x8F00, .yield 0 0x8F00]

/-- The load balancer moves the current task of CPU 1 to CPU 0, which
dispatches it as well. -/
theorem task_on_two_cpus :
    ∃ start w, World.start kernelOnly true twoCpus = some start ∧
      start.run migratedInWindow = some w ∧ ¬ w.SoleCurrent := by
  have whole : ((World.start kernelOnly true twoCpus).bind fun start =>
      start.run migratedInWindow).map (fun w => ((w.state.cpus 0).online, (w.state.cpus 1).online,
        (w.state.cpus 0).current, (w.state.cpus 1).current)) =
      some (true, true, some 2, some 2) := by
    decide +kernel
  obtain ⟨w, ran, ends⟩ := Option.map_eq_some_iff.mp whole
  obtain ⟨start, started, ran⟩ := Option.bind_eq_some_iff.mp ran
  simp only [Prod.mk.injEq] at ends
  obtain ⟨online0, online1, current0, current1⟩ := ends
  refine ⟨start, w, started, ran, fun sole => ?_⟩
  have same := sole 0 1 2 online0 online1 current0 current1
  cases same

end Dfos.Scheduler
