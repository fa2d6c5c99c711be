import Dfos.Scheduler.Dispatch

/-!
# Sweeps over the task lists

The loops that walk a list while they move its tasks: timer expiry,
`scheduler_wake_channel` and the load balancer.  Each reads the link to the next
task before it moves the present one, and the rest of the list is what the loop
has still ahead.
-/

namespace Dfos.Scheduler

open Dfos.Lib

section

variable {s : State} {contents : ListRef → List TaskId} {held : Finset TaskId}

/-- The state of the tasks on a list. -/
def ListRef.state : ListRef → TaskState
  | .free => .unused
  | .runnable _ _ => .runnable
  | .sleeping => .sleeping
  | .blocked => .blocked
  | .zombie => .zombie

theorem Task.home_state {task : Task} {r : ListRef} (home : task.home = some r) :
    task.state = r.state := by
  unfold Task.home at home
  split at home <;> cases home <;> assumption

theorem State.setTask_id (s : State) (t : TaskId) : s.setTask t (fun u => u) = s := by
  unfold State.setTask
  rw [Function.update_eq_self]

/-! ## Waking one task -/

/-- What ends with the sleep of a task, or with its wait and a result. -/
def Task.endRest : Option Bool → Task → Task
  | none, t => t
  | some result, t => { t with waitChannel := none, waitResult := result, wakeupTick := 0 }

/-- The task leaves the list `r` for its run queue. -/
def wakeUp (s : State) (executing : Nat) (r : ListRef) (t : TaskId) (result : Option Bool) : State :=
  schedulerEnqueueRunnable ((taskListRemove s r t).setTask t (Task.endRest result)) executing t
    .wakeup

/-- The task is queued on its CPU at its priority, and its rest has ended. -/
structure Task.Wakes (result : Option Bool) (t t' : Task) : Prop where
  state : t'.state = .runnable
  kind : t'.listKind = .runnable
  assignedCpu : t'.assignedCpu = t.assignedCpu
  priority : t'.priority = t.priority
  waitChannel : t'.waitChannel = (t.endRest result).waitChannel
  waitResult : t'.waitResult = (t.endRest result).waitResult
  wakeupTick : t'.wakeupTick = (t.endRest result).wakeupTick

theorem wakeUp_core {t : TaskId} {r : ListRef} (core : Core s contents held)
    (member : t ∈ contents r) (live : r.state ≠ .unused) (noQueue : ∀ c p, r ≠ .runnable c p)
    (executing : Nat) (result : Option Bool) :
    Core (wakeUp s executing r t result) (relist contents r (s.queueOf t) t) held ∧
      Moves (· = t) s (wakeUp s executing r t result) ∧
      (s.tasks t).Wakes result ((wakeUp s executing r t result).tasks t) := by
  have home := core.placed.home member
  have alive : (s.tasks t).state ≠ .unused := by
    rw [Task.home_state home]
    exact live
  have seated := (core.allowed t).seated alive
  have sane := schedulerPrioritySanitize_of_lt seated.priority
  have taken : Core ((taskListRemove s r t).setTask t (Task.endRest result)) _ (insert t held) :=
    (core.take member noQueue).setDetails (by cases result <;> rfl) (by cases result <;> rfl)
      (by cases result <;> rfl) (by cases result <;> rfl) (by cases result <;> rfl)
  have moves : Moves (· = t) s ((taskListRemove s r t).setTask t (Task.endRest result)) :=
    (taskListRemove_moves s r t).trans
      (.setTask (by cases result <;> rfl) (by cases result <;> rfl) (by cases result <;> rfl))
  have task : ((taskListRemove s r t).setTask t (Task.endRest result)).tasks t =
      Task.endRest result { s.tasks t with listKind := .none } := by
    rw [State.setTask_same, taskListRemove_same]
  have fields : (Task.endRest result { s.tasks t with listKind := .none }).assignedCpu =
        (s.tasks t).assignedCpu ∧
      (Task.endRest result { s.tasks t with listKind := .none }).priority =
        (s.tasks t).priority := by
    cases result <;> exact ⟨rfl, rfl⟩
  unfold wakeUp
  generalize (taskListRemove s r t).setTask t (Task.endRest result) = m at taken moves task ⊢
  have aliveM : (m.tasks t).state ≠ .unused := by rwa [Ne, moves.unused]
  have queue : m.queueOf t = s.queueOf t := by
    rw [State.queueOf, State.queueOf, task, fields.1, fields.2]
  have queued := schedulerEnqueueRunnable_core taken (Finset.mem_insert_self ..) aliveM executing
    .wakeup
  have apart : s.queueOf t ≠ r := (noQueue _ _).symm
  rw [Finset.erase_insert (core.placed.notHeld member), queue, Function.update_of_ne apart]
    at queued
  refine ⟨queued, moves.trans (schedulerEnqueueRunnable_moves executing .wakeup aliveM), ?_⟩
  have onlineM : (m.cpus (m.tasks t).assignedCpu).online := by
    rw [task, fields.1, moves.machine.online]
    exact seated.online
  unfold schedulerEnqueueRunnable
  rw [taken.topology.cpuById onlineM, schedulerCpuEnqueueRunnable_same, task]
  refine ⟨rfl, rfl, ?_, ?_, ?_, ?_, ?_⟩
  · rw [task] at onlineM
    exact (taken.topology.id _ onlineM).trans fields.1
  · exact (congrArg _ fields.2).trans sane
  all_goals cases result <;> rfl

/-! ## Waking tasks of a list -/

/-- The tasks of `chosen` have been woken, one after the other, and no others. -/
structure Woken (s : State) (contents : ListRef → List TaskId) (held : Finset TaskId)
    (r : ListRef) (result : Option Bool) (chosen : List TaskId) (now : State)
    (contents' : ListRef → List TaskId) : Prop where
  core : Core now contents' held
  moves : Moves (· ∈ chosen) s now
  left : contents' r = (contents r).filter (· ∉ chosen)
  joined : ∀ q, q ≠ r → contents' q = contents q ++ chosen.filter (s.queueOf · = q)
  tasks : ∀ t ∈ chosen, (s.tasks t).Wakes result (now.tasks t)

section Woken

variable {r : ListRef} {result : Option Bool} {chosen front rest : List TaskId} {now s' : State}
  {contents' : ListRef → List TaskId} {t : TaskId}

theorem Woken.start (core : Core s contents held) : Woken s contents held r result [] s contents :=
  ⟨core, .refl _ s, by simp, by simp, by simp⟩

theorem Woken.next (woken : Woken s contents held r result chosen now contents')
    (member : t ∈ contents r) (away : t ∉ chosen) (live : r.state ≠ .unused)
    (noQueue : ∀ c p, r ≠ .runnable c p) (executing : Nat) :
    Woken s contents held r result (chosen ++ [t]) (wakeUp now executing r t result)
      (relist contents' r (s.queueOf t) t) := by
  have same : now.tasks t = s.tasks t := woken.moves.untouched t away
  have queue : now.queueOf t = s.queueOf t := by rw [State.queueOf, same, State.queueOf]
  have here : t ∈ contents' r := by
    rw [woken.left]
    exact List.mem_filter.mpr ⟨member, by simpa using away⟩
  obtain ⟨core, moves, wakes⟩ := wakeUp_core woken.core here live noQueue executing result
  rw [queue] at core
  rw [same] at wakes
  have apart : r ≠ s.queueOf t := noQueue _ _
  refine ⟨core, ?_, ?_, fun q other => ?_, fun u chosen' => ?_⟩
  · exact (woken.moves.mono fun u early => List.mem_append_left _ early).trans
      (moves.mono fun u this => by simp [this])
  · unfold relist
    rw [Function.update_of_ne apart, Function.update_self,
      (woken.core.placed.holds.list r).nodup.erase_eq_filter t, woken.left, List.filter_filter]
    refine List.filter_congr fun u _ => ?_
    rw [Bool.eq_iff_iff]
    simp [and_comm]
  · unfold relist
    rw [List.filter_append, ← List.append_assoc, ← woken.joined q other]
    by_cases target : s.queueOf t = q
    · rw [target, Function.update_self, List.filter_cons_of_pos (by simpa using target),
        List.filter_nil]
    · rw [Function.update_of_ne (Ne.symm target), Function.update_of_ne other,
        List.filter_cons_of_neg (by simpa using target), List.filter_nil, List.append_nil]
  · rcases List.mem_append.mp chosen' with early | last
    · have earlier : u ≠ t := fun same => away (same ▸ early)
      rw [moves.untouched u earlier]
      exact woken.tasks u early
    · rw [List.mem_singleton.mp last]
      exact wakes

/-- A walk that has woken tasks of `front` finds the rest of the list as it was. -/
theorem Woken.ahead (woken : Woken s contents held r result chosen now contents')
    (core : Core s contents held) (split : contents r = front ++ t :: rest)
    (behind : chosen ⊆ front) :
    t ∉ chosen ∧ now.links.next t = rest.head? ∧ now.tasks t = s.tasks t := by
  have nodup := (core.placed.holds.list r).nodup
  rw [split] at nodup
  have apart : ∀ u ∈ t :: rest, u ∉ chosen := fun u later early =>
    List.disjoint_of_nodup_append nodup (behind early) later
  have away := apart t List.mem_cons_self
  refine ⟨away, ?_, woken.moves.untouched t away⟩
  have left := woken.left
  have kept : (t :: rest).filter (· ∉ chosen) = t :: rest :=
    List.filter_eq_self.mpr fun u later => by simpa using apart u later
  rw [split, List.filter_append, kept] at left
  exact (woken.core.placed.holds.list r).next_of_suffix ⟨_, left.symm⟩

/-- A loop over the list that wakes the tasks of which `P` holds. -/
theorem walk_wakes {P : TaskId → Prop} [DecidablePred P] {executing : Nat}
    {body : TaskId → State → State × Bool} (r : ListRef) (result : Option Bool)
    (core : Core s contents held) (live : r.state ≠ .unused) (noQueue : ∀ c p, r ≠ .runnable c p)
    (does : ∀ {t now}, t ∈ contents r → now.tasks t = s.tasks t →
      now.systemTicks = s.systemTicks →
      body t now = (if P t then wakeUp now executing r t result else now, false)) :
    ∃ s' contents', walk (fun s t => s.links.next t) body schedulerMaxThreads (s.lists r).head s =
      some s' ∧ Woken s contents held r result ((contents r).filter P) s' contents' := by
  rw [(core.placed.holds.list r).head]
  have passes : ∀ {t : TaskId} {front rest : List TaskId} {now : State}
      {contents' : ListRef → List TaskId}, contents r = front ++ t :: rest →
      Woken s contents held r result (front.filter P) now contents' →
      (body t now).2 = false ∧ ∃ contents'', Woken s contents held r result
        ((front ++ [t]).filter P) (body t now).1 contents'' := by
    intro t front rest now contents' split woken
    have member : t ∈ contents r := by simp [split]
    obtain ⟨away, -, same⟩ := woken.ahead core split (List.filter_subset_self _)
    rw [does member same woken.moves.machine.systemTicks, List.filter_append]
    refine ⟨rfl, ?_⟩
    by_cases picked : P t
    · rw [if_pos picked, List.filter_cons_of_pos (by simpa using picked), List.filter_nil]
      exact ⟨_, woken.next member away live noQueue executing⟩
    · rw [if_neg picked, List.filter_cons_of_neg (by simpa using picked), List.filter_nil,
        List.append_nil]
      exact ⟨contents', woken⟩
  have ends : ∃ s', walk (fun s t => s.links.next t) body schedulerMaxThreads (contents r).head? s =
      some s' ∧ ∃ contents', Woken s contents held r result ((contents r).filter P) s' contents' :=
    walk_rule
    (I := fun rest now => ∃ front contents', contents r = front ++ rest ∧
      Woken s contents held r result (front.filter P) now contents')
    (fun {t rest now} holds => by
      obtain ⟨front, contents', split, woken⟩ := holds
      exact (woken.ahead core split (List.filter_subset_self _)).2.1)
    (fun {t rest now} holds _ => by
      obtain ⟨front, contents', split, woken⟩ := holds
      obtain ⟨-, contents'', after⟩ := passes split woken
      exact ⟨front ++ [t], contents'', by rw [split, List.append_assoc]; rfl, after⟩)
    (fun {t rest now} holds stops => by
      obtain ⟨front, contents', split, woken⟩ := holds
      rw [(passes split woken).1] at stops
      cases stops)
    (fun {now} holds => by
      obtain ⟨front, contents', split, woken⟩ := holds
      rw [List.append_nil] at split
      exact ⟨contents', split ▸ woken⟩)
    ⟨[], contents, rfl, Woken.start core⟩ (core.placed.length_le r)
  obtain ⟨s', walked, contents', woken⟩ := ends
  exact ⟨s', contents', walked, woken⟩

/-- The lists that no woken task leaves or joins. -/
theorem Woken.elsewhere (woken : Woken s contents held r result chosen now contents')
    {q : ListRef} (other : q ≠ r) (noQueue : ∀ c p, q ≠ .runnable c p) :
    contents' q = contents q := by
  have none : chosen.filter (s.queueOf · = q) = [] :=
    List.filter_eq_nil_iff.mpr fun t _ => by
      rw [decide_eq_true_eq]
      exact (noQueue _ _).symm
  rw [woken.joined q other, none, List.append_nil]

end Woken

/-- A state that a sweep has reached which moves tasks of `touched` only. -/
def Swept (s : State) (held : Finset TaskId) (touched : TaskId → Prop) (now : State) : Prop :=
  (∃ contents, Core now contents held) ∧ Moves touched s now

/-! ## Timers -/

/-- The deadline of the task has come. -/
def Due (s : State) (t : TaskId) : Prop :=
  (s.tasks t).wakeupTick ≤ s.systemTicks ∧
    ((s.tasks t).state = .sleeping ∨
      (s.tasks t).state = .blocked ∧ (s.tasks t).wakeupTick ≠ 0)

instance (s : State) : DecidablePred (Due s) :=
  fun _ => inferInstanceAs (Decidable (_ ∧ _))

theorem expireSleep_eq {now : State} {t : TaskId} (asleep : (s.tasks t).state = .sleeping)
    (same : now.tasks t = s.tasks t) (clock : now.systemTicks = s.systemTicks) (executing : Nat) :
    expireSleep executing t now =
      (if Due s t then wakeUp now executing .sleeping t none else now, false) := by
  have due : Due s t ↔ (now.tasks t).wakeupTick ≤ now.systemTicks := by
    rw [same, clock, Due, asleep]
    simp
  have wakes : wakeUp now executing .sleeping t none =
      schedulerEnqueueRunnable (taskListRemove now .sleeping t) executing t .wakeup :=
    congrArg (schedulerEnqueueRunnable · executing t .wakeup) (State.setTask_id _ t)
  unfold expireSleep
  by_cases expired : (now.tasks t).wakeupTick ≤ now.systemTicks
  · rw [if_pos expired, if_pos (due.mpr expired), wakes]
  · rw [if_neg expired, if_neg fun here => expired (due.mp here)]

theorem expireWait_eq {now : State} {t : TaskId} (blocked : (s.tasks t).state = .blocked)
    (same : now.tasks t = s.tasks t) (clock : now.systemTicks = s.systemTicks) (executing : Nat) :
    expireWait executing t now =
      (if Due s t then wakeUp now executing .blocked t (some false) else now, false) := by
  have due : Due s t ↔
      (now.tasks t).wakeupTick ≠ 0 ∧ (now.tasks t).wakeupTick ≤ now.systemTicks := by
    rw [same, clock, Due, blocked]
    simp [and_comm]
  unfold expireWait
  by_cases expired : (now.tasks t).wakeupTick ≠ 0 ∧ (now.tasks t).wakeupTick ≤ now.systemTicks
  · rw [if_pos expired, if_pos (due.mpr expired)]
    rfl
  · rw [if_neg expired, if_neg fun here => expired (due.mp here)]

/-- **Timer expiry** wakes the sleepers and then the waiters that are due, each
in the order of their list. -/
theorem schedulerAdvanceTimers_woken (core : Core s contents held) (executing : Nat) :
    ∃ m s' contents₁ contents₂, schedulerAdvanceTimers s executing = some s' ∧
      Woken s contents held .sleeping none ((contents .sleeping).filter (Due s)) m contents₁ ∧
      Woken m contents₁ held .blocked (some false) ((contents .blocked).filter (Due s)) s'
        contents₂ := by
  obtain ⟨m, contents₁, slept, first⟩ := walk_wakes (P := Due s) .sleeping none core nofun nofun
    fun member same clock =>
      expireSleep_eq (Task.home_state (core.placed.home member)) same clock executing
  have waiting : contents₁ .blocked = contents .blocked := first.elsewhere nofun nofun
  -- the first loop leaves the blocked tasks alone
  have same : ∀ t ∈ contents₁ .blocked, m.tasks t = s.tasks t := by
    intro t member
    refine first.moves.untouched t fun picked => ?_
    have there := core.placed.unique (List.mem_of_mem_filter picked) (waiting ▸ member)
    cases there
  obtain ⟨s', contents₂, waited, second⟩ := walk_wakes (P := Due s) .blocked (some false)
    first.core nofun nofun fun {t now} member there clock => by
      have blocked := Task.home_state (core.placed.home (waiting ▸ member))
      exact expireWait_eq blocked (there.trans (same t member))
        (clock.trans first.moves.machine.systemTicks) executing
  rw [waiting] at second
  refine ⟨m, s', contents₁, contents₂, ?_, first, second⟩
  unfold schedulerAdvanceTimers
  rw [slept]
  exact waited

/-- Timer expiry ends and moves due tasks only. -/
theorem schedulerAdvanceTimers_core (core : Core s contents held) (executing : Nat) :
    ∃ s', schedulerAdvanceTimers s executing = some s' ∧ Swept s held (Due s) s' := by
  obtain ⟨m, s', contents₁, contents₂, advanced, first, second⟩ :=
    schedulerAdvanceTimers_woken core executing
  have due : ∀ r t, t ∈ (contents r).filter (Due s) → Due s t := fun r t picked => by
    simpa using (List.mem_filter.mp picked).2
  exact ⟨s', advanced, ⟨contents₂, second.core⟩,
    (first.moves.mono (due .sleeping)).trans (second.moves.mono (due .blocked))⟩

/-! ## Waking a channel -/

/-- The tasks that wait. -/
def Waiting (s : State) (t : TaskId) : Prop :=
  (s.tasks t).state = .blocked

/-- The tasks of the list that wait on the channel. -/
def State.waitersOn (s : State) (channel : Nat) (list : List TaskId) : List TaskId :=
  list.filter fun t => (s.tasks t).waitChannel = some channel

theorem State.waitersOn_append (s : State) (channel : Nat) (front rest : List TaskId) :
    s.waitersOn channel (front ++ rest) = s.waitersOn channel front ++ s.waitersOn channel rest :=
  List.filter_append ..

/-- One pass of the loop of `scheduler_wake_channel`. -/
theorem wakeTask_woken {channel : Nat} {front rest : List TaskId} {t : TaskId}
    {w : State × Nat} {contents' : ListRef → List TaskId} (core : Core s contents held)
    (split : contents .blocked = front ++ t :: rest)
    (woken : Woken s contents held .blocked (some true) (s.waitersOn channel front) w.1 contents')
    (count : w.2 = (s.waitersOn channel front).length) (executing limit : Nat) :
    (∃ contents'', Woken s contents held .blocked (some true) (s.waitersOn channel (front ++ [t]))
        (wakeTask executing channel limit t w).1.1 contents'') ∧
      (wakeTask executing channel limit t w).1.2 = (s.waitersOn channel (front ++ [t])).length ∧
      ((wakeTask executing channel limit t w).2 = true ↔
        limit ≤ (wakeTask executing channel limit t w).1.2) := by
  have member : t ∈ contents .blocked := by simp [split]
  obtain ⟨away, -, same⟩ := woken.ahead core split (List.filter_subset_self _)
  unfold wakeTask
  rw [same]
  by_cases here : (s.tasks t).waitChannel = some channel
  · have joins : s.waitersOn channel [t] = [t] := List.filter_cons_of_pos (by simpa using here)
    rw [if_pos here, State.waitersOn_append, joins]
    refine ⟨⟨_, woken.next member away nofun nofun executing⟩, ?_, by simp⟩
    rw [count, List.length_append, List.length_singleton]
  · have passed : s.waitersOn channel [t] = [] := List.filter_cons_of_neg (by simpa using here)
    rw [if_neg here, State.waitersOn_append, passed, List.append_nil]
    exact ⟨⟨contents', woken⟩, count, by simp⟩

/-- **`scheduler_wake_channel`** wakes the first of those that wait on the
channel, up to its limit, and returns how many. -/
theorem schedulerWakeChannel_woken (core : Core s contents held) (executing channel maxCount : Nat) :
    let limit := if maxCount = 0 then 0xFFFFFFFF else maxCount
    let chosen := (s.waitersOn channel (contents .blocked)).take limit
    ∃ s' contents', schedulerWakeChannel s executing (some channel) maxCount =
        some (s', chosen.length) ∧
      Woken s contents held .blocked (some true) chosen s' contents' := by
  intro limit chosen
  have positive : 0 < limit := by
    simp only [limit]
    split <;> omega
  have list := core.placed.holds.list .blocked
  have ends : ∃ w, walk (fun w t => w.1.links.next t) (wakeTask executing channel limit)
      schedulerMaxThreads (contents .blocked).head? (s, 0) = some w ∧
      (∃ contents', Woken s contents held .blocked (some true) chosen w.1 contents') ∧
        w.2 = chosen.length := walk_rule
    (I := fun rest w => ∃ front contents', contents .blocked = front ++ rest ∧
      Woken s contents held .blocked (some true) (s.waitersOn channel front) w.1 contents' ∧
      w.2 = (s.waitersOn channel front).length ∧ w.2 < limit)
    (fun {t rest w} holds => by
      obtain ⟨front, contents', split, woken, -⟩ := holds
      exact (woken.ahead core split (List.filter_subset_self _)).2.1)
    (fun {t rest w} holds goesOn => by
      obtain ⟨front, contents', split, woken, count, -⟩ := holds
      obtain ⟨⟨contents'', after⟩, count', stops⟩ :=
        wakeTask_woken core split woken count executing limit
      refine ⟨front ++ [t], contents'', by rw [split, List.append_assoc]; rfl, after, count', ?_⟩
      by_contra enough
      rw [stops.mpr (Nat.not_lt.mp enough)] at goesOn
      cases goesOn)
    (fun {t rest w} holds stopped => by
      obtain ⟨front, contents', split, woken, count, below⟩ := holds
      obtain ⟨⟨contents'', after⟩, count', stops⟩ :=
        wakeTask_woken core split woken count executing limit
      -- the limit is reached with this task
      have full : (s.waitersOn channel (front ++ [t])).length = limit := by
        have reached := stops.mp stopped
        have grows : (s.waitersOn channel (front ++ [t])).length ≤
            (s.waitersOn channel front).length + 1 := by
          rw [State.waitersOn_append, List.length_append]
          exact Nat.add_le_add_left (List.length_filter_le _ [t]) _
        omega
      have first : chosen = s.waitersOn channel (front ++ [t]) := by
        simp only [chosen]
        rw [split, List.append_cons, State.waitersOn_append, ← full, List.take_left]
      rw [first]
      exact ⟨⟨contents'', after⟩, count'⟩)
    (fun {w} holds => by
      obtain ⟨front, contents', split, woken, count, below⟩ := holds
      rw [List.append_nil] at split
      have all : chosen = s.waitersOn channel front := by
        simp only [chosen]
        rw [split, List.take_of_length_le (by omega)]
      rw [all]
      exact ⟨⟨contents', woken⟩, count⟩)
    ⟨[], contents, rfl, Woken.start core, rfl, positive⟩ (core.placed.length_le .blocked)
  obtain ⟨w, walked, ⟨contents', woken⟩, count⟩ := ends
  refine ⟨w.1, contents', ?_, woken⟩
  unfold schedulerWakeChannel
  dsimp only
  rw [list.head, ← count]
  exact walked

/-- `scheduler_wake_channel` ends and moves waiting tasks only. -/
theorem schedulerWakeChannel_core (core : Core s contents held) (executing : Nat)
    (channel : Option Nat) (maxCount : Nat) :
    ∃ w, schedulerWakeChannel s executing channel maxCount = some w ∧
      Swept s held (Waiting s) w.1 := by
  cases channel with
  | none => exact ⟨(s, 0), rfl, ⟨contents, core⟩, .refl _ s⟩
  | some channel =>
      obtain ⟨s', contents', woke, woken⟩ :=
        schedulerWakeChannel_woken core executing channel maxCount
      refine ⟨_, woke, ⟨contents', woken.core⟩, woken.moves.mono fun t picked => ?_⟩
      have member := List.mem_of_mem_filter (List.mem_of_mem_take picked)
      exact Task.home_state (core.placed.home member)

/-- A wake without a limit leaves nobody waiting on the channel. -/
theorem schedulerWakeChannel_all (core : Core s contents held) (reserved : Reserved s held)
    {executing channel : Nat} {w : State × Nat}
    (woke : schedulerWakeChannel s executing (some channel) 0 = some w) (t : TaskId)
    (blocked : (w.1.tasks t).state = .blocked) : (w.1.tasks t).waitChannel ≠ some channel := by
  obtain ⟨s', contents', again, woken⟩ := schedulerWakeChannel_woken core executing channel 0
  cases woke.symm.trans again
  -- the limit is far above the number of tasks
  have few : (s.waitersOn channel (contents .blocked)).length ≤ 32 :=
    (List.length_filter_le ..).trans (core.placed.length_le .blocked)
  rw [if_pos rfl, List.take_of_length_le (by omega)] at woken
  have off : t ∉ held := fun inHand => by
    rw [(woken.moves.unused t).mpr (reserved t inHand)] at blocked
    cases blocked
  have home : (s'.tasks t).home = some .blocked := by rw [Task.home, blocked]
  have stays := woken.core.placed.mem_of_home off home
  rw [woken.left, List.mem_filter, decide_eq_true_eq] at stays
  rw [woken.moves.untouched t stays.2]
  intro waits
  exact stays.2 (List.mem_filter.mpr ⟨stays.1, by simpa using waits⟩)

/-! ## Load balancing -/

/-- No CPU has a current task that is queued to run. -/
def Settled (s : State) : Prop :=
  ∀ c t, (s.cpus c).current = some t → (s.tasks t).state ≠ .runnable

/-- The tasks that are queued to run. -/
def Queued (s : State) (t : TaskId) : Prop :=
  (s.tasks t).state = .runnable

/-- A migration in a state the balancer has reached. -/
theorem Swept.migrate {now : State} (settled : Settled s) (swept : Swept s held (Queued s) now)
    (executing source target : Nat) (t : TaskId) (notify : Bool) :
    Swept s held (Queued s) (schedulerMigrateRunnableTask now executing source target t notify).1 := by
  obtain ⟨⟨contents, core⟩, moves⟩ := swept
  have queued : (now.tasks t).state = .runnable → Queued s t := by
    intro state
    by_contra off
    rw [moves.untouched t off] at state
    exact off state
  have idle : (now.tasks t).state = .runnable → ∀ c, (now.cpus c).current ≠ some t := by
    intro state c current
    rw [moves.machine.current] at current
    exact settled c t current (queued state)
  obtain ⟨after, moved⟩ := schedulerMigrateRunnableTask_core core idle executing notify
  exact ⟨after, moves.trans (moved.mono fun u here => here.1 ▸ queued here.2)⟩

theorem balanceTask_swept {b : Balance} (settled : Settled s)
    (swept : Swept s held (Queued s) b.state) (executing source : Nat) (view : CpuView)
    (notify : Bool) (t : TaskId) :
    Swept s held (Queued s) (balanceTask executing source view notify t b).1.state := by
  unfold balanceTask
  dsimp only
  split_ifs
  · exact swept
  · exact swept
  · exact swept
  · have migrated := swept.migrate settled executing source
      (schedulerSelectBestCpuFromView { view with cpuLoad := b.cpuLoad }
        (b.state.tasks t).cpuAffinityMask (b.state.tasks t).preferredNumaNode
        (b.state.cpus source).id) t notify
    split
    · exact swept
    · next moved =>
        rw [moved] at migrated
        exact migrated

/-- The loop goes on only when the task has stayed. -/
theorem balanceTask_stays {executing source : Nat} {view : CpuView} {notify : Bool} {t : TaskId}
    {b : Balance}
    (more : (balanceTask executing source view notify t b).2 = false) :
    (balanceTask executing source view notify t b).1 = b := by
  unfold balanceTask at more ⊢
  dsimp only at more ⊢
  split_ifs at more ⊢
  · rfl
  · rfl
  · rfl
  · split at more
    · rfl
    · cases more

theorem balanceQueue_swept {b : Balance} (settled : Settled s)
    (swept : Swept s held (Queued s) b.state) (executing source : Nat) (view : CpuView)
    (notify : Bool) (priority : Nat) :
    ∃ b', balanceQueue executing source view notify priority b = some b' ∧
      Swept s held (Queued s) b'.state := by
  obtain ⟨contents, core⟩ := swept.1
  have list := core.placed.holds.list (.runnable source priority)
  unfold balanceQueue
  rw [list.head]
  refine walk_rule
    (I := fun rest now => now = b ∧ rest <:+ contents (.runnable source priority))
    ?_ ?_ ?_ ?_ ⟨rfl, List.suffix_rfl⟩ (core.placed.length_le _)
  · rintro t rest now ⟨rfl, ahead⟩
    exact list.next_of_suffix ahead
  · rintro t rest now ⟨rfl, ahead⟩ more
    exact ⟨balanceTask_stays more, (List.suffix_cons t rest).trans ahead⟩
  · rintro t rest now ⟨rfl, -⟩ -
    exact balanceTask_swept settled swept executing source view notify t
  · rintro now ⟨rfl, -⟩
    exact swept

theorem balancePriorities_swept (settled : Settled s) (executing source : Nat) (view : CpuView)
    (notify : Bool) :
    ∀ left {b : Balance}, Swept s held (Queued s) b.state →
      ∃ b', balancePriorities executing source view notify left b = some b' ∧
        Swept s held (Queued s) b'.state := by
  intro left
  induction left with
  | zero => exact fun swept => ⟨_, rfl, swept⟩
  | succ left ih =>
      intro b swept
      obtain ⟨b', walked, swept'⟩ :=
        balanceQueue_swept settled swept executing source view notify left
      unfold balancePriorities
      rw [walked]
      dsimp only [Option.bind_eq_bind, Option.bind_some]
      split
      · exact ⟨b', rfl, swept'⟩
      · exact ih swept'

theorem balanceSources_swept (settled : Settled s) (executing : Nat) (view : CpuView)
    (notify : Bool) :
    ∀ left {source : Nat} {b : Balance}, Swept s held (Queued s) b.state →
      ∃ b', balanceSources executing view notify left source b = some b' ∧
        Swept s held (Queued s) b'.state := by
  intro left
  induction left with
  | zero => exact fun swept => ⟨_, rfl, swept⟩
  | succ left ih =>
      intro source b swept
      unfold balanceSources
      split
      · exact ih swept
      · obtain ⟨b', walked, swept'⟩ := balancePriorities_swept settled executing source view notify
          schedulerPriorityCount swept
        rw [walked]
        dsimp only [Option.bind_eq_bind, Option.bind_some]
        split
        · exact ⟨b', rfl, swept'⟩
        · exact ih swept'

theorem balanceLoop_swept (settled : Settled s) (executing : Nat) (view : CpuView)
    (notify : Bool) :
    ∀ left {b : Balance}, Swept s held (Queued s) b.state →
      ∃ b', balanceLoop executing view notify left b = some b' ∧ Swept s held (Queued s) b'.state := by
  intro left
  induction left with
  | zero => exact fun swept => ⟨_, rfl, swept⟩
  | succ left ih =>
      intro b swept
      have once : ∃ b', schedulerBalanceOnceFromView executing view notify b = some b' ∧
          Swept s held (Queued s) b'.state := by
        unfold schedulerBalanceOnceFromView
        split
        · exact ⟨_, rfl, swept⟩
        · exact balanceSources_swept settled executing view notify view.cpuCount swept
      obtain ⟨b', balanced, swept'⟩ := once
      unfold balanceLoop
      rw [balanced]
      dsimp only [Option.bind_eq_bind, Option.bind_some]
      split
      · exact ih swept'
      · exact ⟨b', rfl, swept'⟩

/-- The balancer ends and moves queued tasks only, if none of them is current. -/
theorem schedulerBalancePeriodic_core (core : Core s contents held) (settled : Settled s)
    (executing : Nat) :
    ∃ s', schedulerBalancePeriodic s executing = some s' ∧ Swept s held (Queued s) s' := by
  have start : Swept s held (Queued s)
      (Balance.mk s s.view.cpuLoad false).state := ⟨⟨contents, core⟩, .refl _ s⟩
  obtain ⟨b, balanced, swept⟩ := balanceLoop_swept settled executing s.view true 2 start
  refine ⟨b.state, ?_, swept⟩
  unfold schedulerBalancePeriodic
  rw [balanced]
  rfl

end

end Dfos.Scheduler
