import Mathlib.Data.List.Nodup
import Dfos.Sync.Exclusion

/-!
# Wakeups of the sleeping mutex

A waiter drops the spinlock, compares the sequence and only then enters
`scheduler_wait_channel`.  An unlock that runs in between signals nobody, and the
waiter blocks on a free mutex.  This module shows the run, and that it is the only
way to strand a waiter: as long as each waiter blocks while the mutex is locked,
before the unlock's wakeup, or beside another task that is awake in the lock
path, no state has a free mutex, a blocked task and nobody left to wake it.
-/

namespace Dfos.Sync

open Dfos.Lib

/-- In `kmutex_lock` or `kmutex_lock_timeout`, and not on the blocked list. -/
def Pc.awake : Pc → Bool
  | .lockSpin _ | .lockLocked _ | .lockOwner _ | .lockRecursion _ | .lockElapsed _
  | .lockTimedOut _ | .waitObserve _ _ | .waitUnlock _ _ | .waitCheck _ _ | .waitCount _ _
  | .waitBlock _ _ | .waitUncount _ _ _ | .waitExpired _ _ | .waitRelock _ _
  | .lockAfterWait _ _ | .lockStoreLocked _ | .lockStoreOwner _ | .lockDone _ => true
  | _ => false

/-- In `kmutex_unlock`, between freeing the mutex and the wakeup. -/
def Pc.beforeWake : Pc → Bool
  | .unlockSignal | .unlockWake => true
  | _ => false

def Pc.isBlocked : Pc → Bool
  | .blocked _ _ => true
  | _ => false

theorem Pc.isBlocked_iff {p : Pc} :
    p.isBlocked = true ↔ ∃ call wait, p = .blocked call wait := by
  constructor
  · intro blocked
    cases p with
    | blocked call wait => exact ⟨call, wait, rfl⟩
    | _ => cases blocked
  · rintro ⟨call, wait, rfl⟩
    rfl

def Pc.isPanicked : Pc → Bool
  | .panicked _ => true
  | _ => false

/-- A task is blocked without a timeout on a free mutex, and every other task is
outside the mutex functions. -/
def World.Missed (w : World) : Prop :=
  w.mutex.locked = false ∧ ∃ t, (∃ call wait, w.pc t = .blocked call wait ∧
    wait.waitTicks = kwaitForever) ∧ ∀ u, u ≠ t → w.pc u = .outside

/-- A task is blocked on a free mutex, and every task is blocked or outside the
mutex functions. -/
def World.Stranded (w : World) : Prop :=
  w.mutex.locked = false ∧ (∃ t, (w.pc t).isBlocked = true) ∧
    ∀ u, w.pc u = .outside ∨ (w.pc u).isBlocked = true

theorem World.Missed.stranded {w : World} (missed : w.Missed) : w.Stranded := by
  obtain ⟨free, t, ⟨call, wait, at_, -⟩, others⟩ := missed
  refine ⟨free, ⟨t, by rw [at_]; rfl⟩, fun u => ?_⟩
  by_cases self : u = t
  · right
    rw [self, at_]
    rfl
  · exact Or.inl (others u self)

/-- When a waiter enters `scheduler_wait_channel`, the mutex is still locked, or
the unlock that freed it has not run its wakeup yet, or another task is awake in
the lock path. -/
def World.BlocksInTime (w : World) : Act → Prop
  | .go t => ∀ call wait, w.pc t = .waitBlock call wait →
    w.mutex.locked = true ∨ (∃ u, (w.pc u).beforeWake = true) ∨
      ∃ u, u ≠ t ∧ (w.pc u).awake = true
  | _ => True

/-- Every step of the run meets the condition. -/
def World.RunsInTime (w : World) : List Act → Prop
  | [] => True
  | act :: acts => w.BlocksInTime act ∧ (w.step act).RunsInTime acts

/-! ## The invariant -/

/-- Somebody will free the mutex, wake a waiter or take the mutex. -/
def Pc.busy (p : Pc) : Bool := p.awake || p.beforeWake || p.isPanicked

structure World.Served (w : World) : Prop where
  inv : w.Inv
  nodup : w.queue.Nodup
  queued : ∀ t, t ∈ w.queue ↔ (w.pc t).isBlocked = true
  served : w.queue ≠ [] → w.mutex.locked = true ∨ ∃ u, (w.pc u).busy = true

section Served

variable {w w' : World} {t : Nat} {p : Pc}

theorem World.Served.not_stranded (served : w.Served) : ¬ w.Stranded := by
  rintro ⟨free, ⟨t, blocked⟩, idle⟩
  have waiting : w.queue ≠ [] := List.ne_nil_of_mem ((served.queued t).mpr blocked)
  rcases served.served waiting with locked | ⟨u, busy⟩
  · rw [free] at locked
    cases locked
  · rcases idle u with outside | blocked'
    · rw [outside] at busy
      cases busy
    · obtain ⟨call, wait, at_⟩ := Pc.isBlocked_iff.mp blocked'
      rw [at_] at busy
      cases busy

/-- Task `t` moves from `q` to `p`, neither of them the blocked list.  Either it
is still busy, or the mutex is locked, or it was not counted on before. -/
theorem World.Served.move {q : Pc} (served : w.Served) (inv : w'.Inv) (at_ : w.pc t = q)
    (moved : w'.pc = (w.goto t p).pc) (queue : w'.queue = w.queue)
    (start : q.isBlocked = false) (stop : p.isBlocked = false)
    (good : p.busy = true ∨ w'.mutex.locked = true ∨
      (q.busy = false ∧ w'.mutex.locked = w.mutex.locked)) : w'.Served where
  inv := inv
  nodup := by
    rw [queue]
    exact served.nodup
  queued u := by
    rw [queue, served.queued u, moved]
    by_cases self : u = t
    · rw [self, at_, goto_pc_self, start, stop]
    · rw [goto_pc_other self]
  served waiting := by
    rw [queue] at waiting
    rcases good with busy | locked | ⟨idle, same⟩
    · exact Or.inr ⟨t, by rw [moved, goto_pc_self]; exact busy⟩
    · exact Or.inl locked
    · rcases served.served waiting with locked | ⟨u, busy⟩
      · exact Or.inl (same.trans locked)
      · have other : u ≠ t := by
          intro self
          rw [self, at_, idle] at busy
          cases busy
        exact Or.inr ⟨u, by rw [moved, goto_pc_other other]; exact busy⟩

theorem World.Served.acquire {q : Pc} (served : w.Served) (inv : (w.acquire t p).Inv)
    (at_ : w.pc t = q) (start : q.isBlocked = false) (stop : p.isBlocked = false)
    (good : p.busy = true ∨ q.busy = false) : (w.acquire t p).Served := by
  unfold World.acquire at inv ⊢
  split
  · next free =>
    rw [if_pos free] at inv
    exact served.move inv at_ rfl rfl start stop
      (good.imp id fun idle => Or.inr ⟨idle, rfl⟩)
  · exact served

/-- The wakeup of an unlock: the oldest waiter is awake now. -/
theorem World.Served.wake (served : w.Served) (at_ : w.pc t = .unlockWake)
    (inv : ((w.wakeOne).goto t .unlockDone).Inv) : ((w.wakeOne).goto t .unlockDone).Served := by
  cases queue : w.queue with
  | nil =>
    have same : w.wakeOne = w := by
      unfold World.wakeOne
      rw [queue]
    rw [same] at inv ⊢
    refine ⟨inv, served.nodup, fun u => ?_, fun waiting => absurd queue waiting⟩
    rw [show (w.goto t .unlockDone).queue = w.queue from rfl, served.queued u]
    by_cases self : u = t
    · rw [self, goto_pc_self, at_]
      rfl
    · rw [goto_pc_other self]
  | cons u rest =>
    have blocked := (served.queued u).mp (by rw [queue]; exact List.mem_cons_self)
    obtain ⟨call, wait, at'⟩ := Pc.isBlocked_iff.mp blocked
    have woken : w.wakeOne =
        { w.goto u (.waitUncount call wait true) with queue := rest } := by
      unfold World.wakeOne
      rw [queue]
      dsimp only
      rw [at']
    have other : u ≠ t := by
      intro self
      rw [self, at_] at at'
      cases at'
    have distinct : u ∉ rest ∧ rest.Nodup := by
      have nodup := served.nodup
      rw [queue] at nodup
      exact List.nodup_cons.mp nodup
    have pcU : ((w.wakeOne).goto t .unlockDone).pc u = .waitUncount call wait true := by
      rw [goto_pc_other other, woken]
      exact goto_pc_self
    refine ⟨inv, ?_, fun v => ?_, fun _ => Or.inr ⟨u, by rw [pcU]; rfl⟩⟩
    · rw [woken]
      exact distinct.2
    · rw [show ((w.wakeOne).goto t .unlockDone).queue = w.wakeOne.queue from rfl, woken]
      show v ∈ rest ↔ _
      by_cases selfU : v = u
      · rw [selfU]
        rw [woken] at pcU
        rw [pcU]
        exact ⟨fun member => absurd member distinct.1, nofun⟩
      · have before := served.queued v
        rw [queue, List.mem_cons] at before
        by_cases selfT : v = t
        · rw [selfT, goto_pc_self]
          rw [selfT, at_] at before
          exact ⟨fun member => absurd (before.mp (Or.inr member)) nofun, nofun⟩
        · rw [goto_pc_other selfT]
          show v ∈ rest ↔ ((w.goto u _).pc v).isBlocked = true
          rw [goto_pc_other selfU, ← before]
          exact ⟨Or.inr, fun member => member.resolve_left selfU⟩

/-- A waiter joins the queue in time. -/
theorem World.Served.block {call : LockCall} {wait : WaitCall} (served : w.Served)
    (at_ : w.pc t = .waitBlock call wait)
    (inTime : w.mutex.locked = true ∨ (∃ u, (w.pc u).beforeWake = true) ∨
      ∃ u, u ≠ t ∧ (w.pc u).awake = true)
    (inv : World.Inv { w.goto t (.blocked call wait) with queue := w.queue ++ [t] }) :
    World.Served { w.goto t (.blocked call wait) with queue := w.queue ++ [t] } where
  inv := inv
  nodup := by
    have absent : t ∉ w.queue := by
      intro member
      have blocked := (served.queued t).mp member
      rw [at_] at blocked
      cases blocked
    show (w.queue ++ [t]).Nodup
    rw [← List.concat_eq_append]
    exact served.nodup.concat absent
  queued u := by
    show u ∈ w.queue ++ [t] ↔ ((w.goto t _).pc u).isBlocked = true
    rw [List.mem_append, List.mem_singleton]
    by_cases self : u = t
    · rw [self, goto_pc_self]
      exact ⟨fun _ => rfl, fun _ => Or.inr rfl⟩
    · rw [goto_pc_other self, ← served.queued u]
      exact ⟨fun member => member.resolve_right self, Or.inl⟩
  served _ := by
    have still {u : Nat} (other : u ≠ t) (busy : (w.pc u).busy = true) :
        ∃ v, ((w.goto t (.blocked call wait)).pc v).busy = true :=
      ⟨u, by rw [goto_pc_other other]; exact busy⟩
    rcases inTime with locked | ⟨u, before⟩ | ⟨u, other, awake⟩
    · exact Or.inl locked
    · have other : u ≠ t := by
        intro self
        rw [self, at_] at before
        cases before
      exact Or.inr (still other (by simp only [Pc.busy, before, Bool.or_true, Bool.true_or]))
    · exact Or.inr (still other (by simp only [Pc.busy, awake, Bool.true_or]))

theorem write_goto_pc (m : KMutex) (p : Pc) : ((w.write t m).goto t p).pc = (w.goto t p).pc := rfl

theorem write_goto_queue (m : KMutex) (p : Pc) : ((w.write t m).goto t p).queue = w.queue := rfl

/-- **Every step of a task's code keeps the waiters served**, if a task that is
about to block does so in time. -/
theorem World.Served.go (served : w.Served) (inTime : w.BlocksInTime (.go t)) :
    (w.go t).Served := by
  have inv := served.inv.go t
  have held := fun start => served.inv.inside t ((served.inv.spin t).mp start)
  have blocks := inTime
  unfold World.go at inv ⊢
  generalize at_ : w.pc t = p at inv ⊢
  cases p with
  | outside | panicked panic | blocked call wait => exact served
  | tryLockSpin | unlockSpin =>
    exact served.acquire inv at_ rfl rfl (Or.inr rfl)
  | tryLockLocked | tryLockOwner | unlockLocked | unlockOwner =>
    refine served.move inv at_ rfl rfl rfl ?_ (Or.inr (Or.inr ⟨rfl, rfl⟩))
    split <;> rfl
  | tryLockRecursion | lockRecursion call | waitObserve call waitTicks | waitUnlock call wait
  | waitCount call wait | waitExpired call wait | lockStoreLocked call | lockStoreOwner call
  | unlockUnlocked | unlockMismatch owner | unlockSignal =>
    exact served.move inv at_ rfl rfl rfl rfl (Or.inl rfl)
  | tryLockBusy | tryLockStoreOwner | tryLockDone | unlockStoreOwner | unlockDone =>
    exact served.move inv at_ rfl rfl rfl rfl (Or.inr (Or.inr ⟨rfl, rfl⟩))
  | tryLockStoreLocked =>
    exact served.move inv at_ rfl rfl rfl rfl (Or.inr (Or.inl rfl))
  | lockSpin call | waitRelock call signaled =>
    exact served.acquire inv at_ rfl rfl (Or.inl rfl)
  | lockLocked call | lockOwner call | waitCheck call wait =>
    refine served.move inv at_ rfl rfl rfl ?_ (Or.inl ?_)
    · split <;> rfl
    · split <;> rfl
  | lockElapsed call =>
    dsimp only at inv ⊢
    split at inv
    · next forever =>
      rw [if_pos forever]
      exact served.move inv at_ rfl rfl rfl rfl (Or.inl rfl)
    next timed =>
    rw [if_neg timed]
    split at inv
    · next late =>
      rw [if_pos late]
      exact served.move inv at_ rfl rfl rfl rfl (Or.inl rfl)
    · next early =>
      rw [if_neg early]
      exact served.move inv at_ rfl rfl rfl rfl (Or.inl rfl)
  | lockTimedOut call =>
    -- a call times out only while the mutex is locked
    have locked := (held (by rw [at_]; rfl))
    rw [at_] at locked
    dsimp only at inv ⊢
    split at inv
    · next must =>
      rw [if_pos must]
      exact served.move inv at_ rfl rfl rfl rfl (Or.inl rfl)
    · next may =>
      rw [if_neg may]
      exact served.move inv at_ rfl rfl rfl rfl (Or.inr (Or.inl locked.2))
  | waitBlock call wait =>
    dsimp only at inv ⊢
    split at inv
    · next zero =>
      rw [if_pos zero]
      exact served.move inv at_ rfl rfl rfl rfl (Or.inl rfl)
    · next some =>
      rw [if_neg some]
      exact served.block at_ (blocks call wait at_) inv
  | waitUncount call wait woke =>
    dsimp only at inv ⊢
    split at inv
    · next under =>
      rw [if_pos under]
      exact served.move inv at_ (write_goto_pc _ _) (write_goto_queue _ _) rfl rfl
        (Or.inl rfl)
    next counted =>
    rw [if_neg counted]
    refine served.move inv at_ (write_goto_pc _ _) (write_goto_queue _ _) rfl ?_
      (Or.inl ?_)
    · split <;> rfl
    · split <;> rfl
  | lockAfterWait call signaled =>
    dsimp only at inv ⊢
    split at inv
    · next timed =>
      rw [if_pos timed]
      refine served.move inv at_ rfl rfl rfl ?_ (Or.inl ?_)
      · split <;> rfl
      · split <;> rfl
    · next signaled' =>
      rw [if_neg signaled']
      exact served.move inv at_ rfl rfl rfl rfl (Or.inl rfl)
  | lockDone call =>
    have locked := (held (by rw [at_]; rfl))
    rw [at_] at locked
    exact served.move inv at_ rfl rfl rfl rfl (Or.inr (Or.inl locked.1))
  | unlockStoreLocked =>
    -- the mutex becomes free, and its wakeup is still to come
    exact served.move inv at_ rfl rfl rfl rfl (Or.inl rfl)
  | unlockWake =>
    exact served.wake at_ inv

theorem World.Served.call (served : w.Served) (t : Nat) (c : MutexCall) :
    (w.call t c).Served := by
  have inv := served.inv.call t c
  unfold World.call at inv ⊢
  split
  · next outside =>
    rw [if_pos outside] at inv
    refine served.move inv outside rfl rfl rfl ?_
      (Or.inr (Or.inr ⟨rfl, rfl⟩))
    cases c <;> rfl
  · exact served

theorem World.Served.expire (served : w.Served) (t : Nat) : (w.expire t).Served := by
  have inv := served.inv.expire t
  unfold World.expire at inv ⊢
  split
  · next call wait at_ =>
    rw [at_] at inv
    dsimp only at inv
    split
    · exact served
    · next timed =>
      rw [if_neg timed] at inv
      have here : (w.goto t (.waitUncount call wait false)).pc t = .waitUncount call wait false :=
        goto_pc_self
      refine ⟨inv, served.nodup.erase t, fun u => ?_, fun _ => Or.inr ⟨t, ?_⟩⟩
      · show u ∈ w.queue.erase t ↔ ((w.goto t _).pc u).isBlocked = true
        rw [served.nodup.mem_erase_iff, served.queued u]
        by_cases self : u = t
        · rw [self, here]
          exact ⟨fun member => absurd rfl member.1, nofun⟩
        · rw [goto_pc_other self]
          exact ⟨fun member => member.2, fun blocked => ⟨self, blocked⟩⟩
      · show ((w.goto t _).pc t).busy = true
        rw [here]
        rfl
  · exact served

theorem World.Served.step (served : w.Served) {act : Act} (inTime : w.BlocksInTime act) :
    (w.step act).Served := by
  cases act with
  | call t c => exact served.call t c
  | go t => exact served.go inTime
  | expire t => exact served.expire t
  | tick => exact ⟨served.inv.step .tick, served.nodup, served.queued, served.served⟩

theorem World.Served.run (served : w.Served) {acts : List Act} (inTime : w.RunsInTime acts) :
    (w.run acts).Served := by
  induction acts generalizing w with
  | nil => exact served
  | cons act acts ih => exact ih (served.step inTime.1) inTime.2

theorem World.init_served : World.init.Served where
  inv := World.init_inv
  nodup := List.nodup_nil
  queued _ := ⟨nofun, nofun⟩
  served waiting := absurd rfl waiting

theorem World.RunsInTime.left {before after : List Act}
    (inTime : w.RunsInTime (before ++ after)) : w.RunsInTime before := by
  induction before generalizing w with
  | nil => trivial
  | cons act before ih => exact ⟨inTime.1, ih inTime.2⟩

end Served

/-- **Wakeups reach their waiters.**  In a run in which every waiter blocks in
time, no state reached has a waiter stranded on a free mutex. -/
theorem kmutex_no_missed_wakeup {acts before after : List Act}
    (inTime : World.init.RunsInTime acts) (reached : acts = before ++ after) :
    ¬ (World.init.run before).Missed ∧ ¬ (World.init.run before).Stranded := by
  rw [reached] at inTime
  have served := World.init_served.run inTime.left
  exact ⟨fun missed => served.not_stranded missed.stranded, served.not_stranded⟩

/-! ## Two runs -/

/-- The task is about to enter `scheduler_wait_channel`. -/
def Pc.isWaitBlock : Pc → Bool
  | .waitBlock _ _ => true
  | _ => false

/-- A waiter that blocks in this step does so while the mutex is locked. -/
def World.blocksLockedAt (w : World) : Act → Bool
  | .go t => !(w.pc t).isWaitBlock || w.mutex.locked
  | _ => true

def World.blocksLocked (w : World) : List Act → Bool
  | [] => true
  | act :: acts => w.blocksLockedAt act && (w.step act).blocksLocked acts

theorem World.runsInTime_of_blocksLocked {w : World} {acts : List Act}
    (locked : w.blocksLocked acts = true) : w.RunsInTime acts := by
  induction acts generalizing w with
  | nil => trivial
  | cons act acts ih =>
    obtain ⟨here, later⟩ := (Bool.and_eq_true _ _).mp locked
    refine ⟨?_, ih later⟩
    cases act with
    | go t =>
      intro call wait at_
      left
      have here' : (!(w.pc t).isWaitBlock || w.mutex.locked) = true := here
      rw [at_] at here'
      exact here'
    | call t c => trivial
    | expire t => trivial
    | tick => trivial

/-- `n` steps of task `t`. -/
def steps (t n : Nat) : List Act := List.replicate n (.go t)

/-- Task 2 takes the mutex, task 1 blocks on it, and the unlock of task 2 wakes
task 1. -/
def handover : List Act :=
  .call 2 .lock :: steps 2 5 ++ .call 1 .lock :: steps 1 9 ++ .call 2 .unlock :: steps 2 9

theorem kmutex_no_missed_wakeup_handover :
    World.init.RunsInTime handover ∧ ¬ (World.init.run handover).Missed := by
  have inTime : World.init.RunsInTime handover :=
    World.runsInTime_of_blocksLocked (by decide +kernel)
  exact ⟨inTime, (kmutex_no_missed_wakeup inTime (List.append_nil handover).symm).1⟩

/-- As `handover`, with the unlock of task 2 between the sequence check and the
wait of task 1. -/
def missedHandover : List Act :=
  .call 2 .lock :: steps 2 5 ++ .call 1 .lock :: steps 1 8 ++ .call 2 .unlock :: steps 2 9 ++
    steps 1 1

theorem acquire_pc_other {w : World} {t u : Nat} {p : Pc} (other : u ≠ t) :
    (w.acquire t p).pc u = w.pc u := by
  unfold World.acquire
  split
  · exact if_neg other
  · rfl

/-- A step of `t` moves no other task but the blocked one it wakes. -/
theorem go_pc_other {w : World} {t u : Nat} (other : u ≠ t)
    (awake : ∀ call wait, w.pc u ≠ .blocked call wait) : (w.go t).pc u = w.pc u := by
  unfold World.go
  cases w.pc t with
  | unlockWake => exact (goto_pc_other other).trans (wakeOne_pc awake)
  | lockElapsed call =>
    dsimp only
    split
    · exact if_neg other
    · split <;> exact if_neg other
  | lockTimedOut call | waitBlock call wait | lockAfterWait call signaled =>
    dsimp only
    split <;> exact if_neg other
  | _ => first | rfl | exact if_neg other | exact acquire_pc_other other

/-- The task an act belongs to. -/
def Act.task : Act → Option Nat
  | .call t _ | .go t | .expire t => some t
  | .tick => none

theorem step_outside {w : World} {u : Nat} {act : Act} (unnamed : act.task ≠ some u)
    (outside : w.pc u = .outside) : (w.step act).pc u = .outside := by
  cases act with
  | call t c =>
    have other : u ≠ t := fun same => unnamed (congrArg some same.symm)
    show (w.call t c).pc u = _
    unfold World.call
    split
    · exact (if_neg other).trans outside
    · exact outside
  | go t =>
    have other : u ≠ t := fun same => unnamed (congrArg some same.symm)
    exact (go_pc_other other (by rw [outside]; exact nofun)).trans outside
  | expire t =>
    have other : u ≠ t := fun same => unnamed (congrArg some same.symm)
    show (w.expire t).pc u = _
    unfold World.expire
    split
    · split
      · exact outside
      · exact (if_neg other).trans outside
    · exact outside
  | tick => exact outside

/-- A task that no act of the run belongs to stays outside. -/
theorem run_outside {w : World} {u : Nat} {acts : List Act} (outside : w.pc u = .outside)
    (unnamed : ∀ act ∈ acts, act.task ≠ some u) : (w.run acts).pc u = .outside := by
  induction acts generalizing w with
  | nil => exact outside
  | cons act acts ih =>
    apply ih (step_outside (unnamed act List.mem_cons_self) outside)
    intro act' member
    exact unnamed act' (List.mem_cons_of_mem _ member)

/-- **A wakeup is missed.**  The unlock of task 2 runs between the sequence check
and the wait of task 1, so task 1 blocks on a free mutex with nobody to wake it. -/
theorem kmutex_missed_wakeup : (World.init.run missedHandover).Missed := by
  refine ⟨by decide +kernel, 1, ⟨⟨kwaitForever, 0, true⟩, ⟨kwaitForever, 0⟩,
    by decide +kernel, rfl⟩, ?_⟩
  intro u first
  by_cases second : u = 2
  · rw [second]
    decide +kernel
  · have two : ∀ act ∈ missedHandover, act.task = some 1 ∨ act.task = some 2 := by decide
    apply run_outside rfl
    intro act member same
    rcases two act member with one' | two'
    · exact first (Option.some.inj (same.symm.trans one'))
    · exact second (Option.some.inj (same.symm.trans two'))

end Dfos.Sync
