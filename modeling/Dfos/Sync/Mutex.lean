import Dfos.Lib.Word

/-!
# The sleeping mutex

A model of `kmutex` in `sync.c` as a system of tasks that share one mutex.  A
step is one exchange on the spinlock, one load or store of `locked`,
`owner_task_id`, `sequence` or `waiter_count`, or one critical section of
`scheduler_wait_channel` or `scheduler_wake_channel`.  The steps of different
tasks interleave freely, a timed wait may expire at any moment, and a task that
panics takes no further step.

Tasks are named by their ids.  Besides what the code keeps, a `World` records
who holds the spinlock, which tasks are between a successful acquire and the
matching unlock, and what each task's last call saw and changed.
-/

namespace Dfos.Sync

open Dfos.Lib

/-- `KWAIT_FOREVER`. -/
def kwaitForever : Nat := 0xFFFFFFFF

/-- `kmutex_t`: the spinlock's `value`, the condition's `waiter_count` and
`sequence`, `locked` and `owner_task_id`. -/
structure KMutex where
  value : Nat
  waiterCount : Nat
  sequence : Nat
  locked : Bool
  ownerTaskId : Nat
  deriving Repr, DecidableEq

/-- `kmutex_init`. -/
def kmutexInit : KMutex := ⟨0, 0, 0, false, 0⟩

/-- The panics of `kmutex` and `kwait_wait`, with what they print. -/
inductive MutexPanic where
  | tryLockRecursion (task : Nat)
  | lockRecursion (task : Nat)
  | lockTimedOut
  | unlockUnlocked
  | unlockMismatch (owner current : Nat)
  | waiterCountUnderflow
  deriving Repr, DecidableEq

/-- An activation of `kmutex_lock_timeout`.  `must` marks the one inside
`kmutex_lock`, which panics when it returns false. -/
structure LockCall where
  timeoutTicks : Nat
  startTick : Nat
  must : Bool
  deriving Repr, DecidableEq

/-- An activation of `kcondition_wait`. -/
structure WaitCall where
  waitTicks : Nat
  observed : Nat
  deriving Repr, DecidableEq

/-- What a task does next. -/
inductive Pc where
  /-- Not in a mutex function. -/
  | outside
  /-- `kmutex_try_lock`: take the spinlock. -/
  | tryLockSpin
  /-- Load `locked`. -/
  | tryLockLocked
  /-- Load `owner_task_id`. -/
  | tryLockOwner
  /-- Drop the spinlock and panic. -/
  | tryLockRecursion
  /-- Drop the spinlock and return false. -/
  | tryLockBusy
  | tryLockStoreLocked
  | tryLockStoreOwner
  /-- Drop the spinlock and return true. -/
  | tryLockDone
  /-- `kmutex_lock_timeout`: take the spinlock. -/
  | lockSpin (call : LockCall)
  /-- The loop condition `mutex->locked`. -/
  | lockLocked (call : LockCall)
  | lockOwner (call : LockCall)
  | lockRecursion (call : LockCall)
  /-- Compute how long to wait. -/
  | lockElapsed (call : LockCall)
  /-- Drop the spinlock and return false. -/
  | lockTimedOut (call : LockCall)
  /-- `kcondition_wait`: load `sequence`. -/
  | waitObserve (call : LockCall) (waitTicks : Nat)
  /-- Drop the spinlock. -/
  | waitUnlock (call : LockCall) (wait : WaitCall)
  /-- Compare `sequence` with what was observed. -/
  | waitCheck (call : LockCall) (wait : WaitCall)
  /-- `kwait_wait`: count the waiter. -/
  | waitCount (call : LockCall) (wait : WaitCall)
  /-- Enter `scheduler_wait_channel`. -/
  | waitBlock (call : LockCall) (wait : WaitCall)
  /-- On the blocked list. -/
  | blocked (call : LockCall) (wait : WaitCall)
  /-- Back in `kwait_wait` with the result of the wait. -/
  | waitUncount (call : LockCall) (wait : WaitCall) (woke : Bool)
  /-- The last look at `sequence` after a wait that was not woken. -/
  | waitExpired (call : LockCall) (wait : WaitCall)
  /-- Take the spinlock again. -/
  | waitRelock (call : LockCall) (signaled : Bool)
  /-- Back in the loop of `kmutex_lock_timeout`. -/
  | lockAfterWait (call : LockCall) (signaled : Bool)
  | lockStoreLocked (call : LockCall)
  | lockStoreOwner (call : LockCall)
  /-- Drop the spinlock and return true. -/
  | lockDone (call : LockCall)
  /-- `kmutex_unlock`: take the spinlock. -/
  | unlockSpin
  | unlockLocked
  | unlockOwner
  /-- Drop the spinlock and panic. -/
  | unlockUnlocked
  /-- Drop the spinlock and panic, naming the owner that was read. -/
  | unlockMismatch (owner : Nat)
  | unlockStoreOwner
  | unlockStoreLocked
  /-- `kcondition_signal`: advance `sequence`. -/
  | unlockSignal
  /-- Enter `scheduler_wake_channel`. -/
  | unlockWake
  /-- Drop the spinlock and return. -/
  | unlockDone
  | panicked (panic : MutexPanic)
  deriving Repr, DecidableEq

/-- What is known of a task's current or last call. -/
structure CallLog where
  /-- The result, once the call returned one. -/
  returned : Option Bool
  /-- A step of the call changed `locked` or `owner_task_id`. -/
  changed : Bool
  /-- The call loaded `locked` as true while another task held the mutex. -/
  sawHeld : Bool
  deriving Repr, DecidableEq

structure World where
  mutex : KMutex
  ticks : Nat
  /-- The tasks on the blocked list with this mutex's queue, oldest first. -/
  queue : List Nat
  pc : Nat → Pc
  /-- Who took the spinlock last and has not dropped it. -/
  spinHolder : Option Nat
  /-- The tasks between a successful acquire and the matching unlock. -/
  holders : List Nat
  log : Nat → CallLog

namespace World

def init : World where
  mutex := kmutexInit
  ticks := 0
  queue := []
  pc := fun _ => .outside
  spinHolder := none
  holders := []
  log := fun _ => ⟨none, false, false⟩

/-- Task `t` goes on at `p`. -/
def goto (w : World) (t : Nat) (p : Pc) : World :=
  { w with pc := fun u => if u = t then p else w.pc u }

def setLog (w : World) (t : Nat) (l : CallLog) : World :=
  { w with log := fun u => if u = t then l else w.log u }

/-- Task `t` leaves the mutex as `m`. -/
def write (w : World) (t : Nat) (m : KMutex) : World :=
  let changed := m.locked != w.mutex.locked || m.ownerTaskId != w.mutex.ownerTaskId
  { w.setLog t { w.log t with changed := (w.log t).changed || changed } with mutex := m }

/-- The exchange of `kspin_lock`: a task that finds the lock taken tries again. -/
def acquire (w : World) (t : Nat) (p : Pc) : World :=
  if w.mutex.value = 0 then
    { (w.write t { w.mutex with value := 1 }).goto t p with spinHolder := some t }
  else w

/-- `kspin_unlock`. -/
def release (w : World) (t : Nat) (p : Pc) : World :=
  { (w.write t { w.mutex with value := 0 }).goto t p with spinHolder := none }

/-- A load of `locked`, after which the task goes on at `p`. -/
def loadLocked (w : World) (t : Nat) (p : Pc) : World :=
  let saw := w.mutex.locked && w.holders.any (· != t)
  (w.setLog t { w.log t with sawHeld := (w.log t).sawHeld || saw }).goto t p

/-- The call of `t` returned `result`. -/
def logReturn (w : World) (t : Nat) (result : Bool) : World :=
  w.setLog t { w.log t with returned := some result }

/-- The call of `t` returned true: it holds the mutex. -/
def acquired (w : World) (t : Nat) : World :=
  { w.logReturn t true with holders := t :: w.holders }

/-- `scheduler_wake_channel` with a limit of one: the oldest waiter goes on. -/
def wakeOne (w : World) : World :=
  match w.queue with
  | [] => w
  | u :: rest =>
    match w.pc u with
    | .blocked call wait => { w.goto u (.waitUncount call wait true) with queue := rest }
    | _ => { w with queue := rest }

/-- One step of the code of task `t`. -/
def go (w : World) (t : Nat) : World :=
  match w.pc t with
  | .outside => w
  | .tryLockSpin => w.acquire t .tryLockLocked
  | .tryLockLocked =>
    w.loadLocked t (if w.mutex.locked then .tryLockOwner else .tryLockStoreLocked)
  | .tryLockOwner =>
    w.goto t (if w.mutex.ownerTaskId = t then .tryLockRecursion else .tryLockBusy)
  | .tryLockRecursion => w.release t (.panicked (.tryLockRecursion t))
  | .tryLockBusy => (w.release t .outside).logReturn t false
  | .tryLockStoreLocked =>
    (w.write t { w.mutex with locked := true }).goto t .tryLockStoreOwner
  | .tryLockStoreOwner => (w.write t { w.mutex with ownerTaskId := t }).goto t .tryLockDone
  | .tryLockDone => (w.release t .outside).acquired t
  | .lockSpin call => w.acquire t (.lockLocked call)
  | .lockLocked call =>
    w.loadLocked t (if w.mutex.locked then .lockOwner call else .lockStoreLocked call)
  | .lockOwner call =>
    w.goto t (if w.mutex.ownerTaskId = t then .lockRecursion call else .lockElapsed call)
  | .lockRecursion _ => w.release t (.panicked (.lockRecursion t))
  | .lockElapsed call =>
    if call.timeoutTicks = kwaitForever then w.goto t (.waitObserve call kwaitForever)
    else
      let elapsed := u32Sub w.ticks call.startTick
      if call.timeoutTicks ≤ elapsed then w.goto t (.lockTimedOut call)
      else w.goto t (.waitObserve call (call.timeoutTicks - elapsed))
  | .lockTimedOut call =>
    if call.must then w.release t (.panicked .lockTimedOut)
    else (w.release t .outside).logReturn t false
  | .waitObserve call waitTicks =>
    w.goto t (.waitUnlock call ⟨waitTicks, w.mutex.sequence⟩)
  | .waitUnlock call wait => w.release t (.waitCheck call wait)
  | .waitCheck call wait =>
    w.goto t (if w.mutex.sequence = wait.observed then .waitCount call wait
      else .waitRelock call true)
  | .waitCount call wait =>
    (w.write t { w.mutex with waiterCount := u32Add w.mutex.waiterCount 1 }).goto t
      (.waitBlock call wait)
  | .waitBlock call wait =>
    if wait.waitTicks = 0 then w.goto t (.waitUncount call wait false)
    else { w.goto t (.blocked call wait) with queue := w.queue ++ [t] }
  | .blocked _ _ => w
  | .waitUncount call wait woke =>
    let after := u32Sub w.mutex.waiterCount 1
    (w.write t { w.mutex with waiterCount := after }).goto t
      (if after = 2 ^ 32 - 1 then .panicked .waiterCountUnderflow
        else if woke then .waitCheck call wait else .waitExpired call wait)
  | .waitExpired call wait =>
    w.goto t (.waitRelock call (decide (w.mutex.sequence ≠ wait.observed)))
  | .waitRelock call signaled => w.acquire t (.lockAfterWait call signaled)
  | .lockAfterWait call signaled =>
    if signaled = false ∧ call.timeoutTicks ≠ kwaitForever then
      w.loadLocked t (if w.mutex.locked then .lockTimedOut call else .lockLocked call)
    else w.goto t (.lockLocked call)
  | .lockStoreLocked call =>
    (w.write t { w.mutex with locked := true }).goto t (.lockStoreOwner call)
  | .lockStoreOwner call => (w.write t { w.mutex with ownerTaskId := t }).goto t (.lockDone call)
  | .lockDone _ => (w.release t .outside).acquired t
  | .unlockSpin => w.acquire t .unlockLocked
  | .unlockLocked =>
    w.loadLocked t (if w.mutex.locked then .unlockOwner else .unlockUnlocked)
  | .unlockOwner =>
    w.goto t (if w.mutex.ownerTaskId = t then .unlockStoreOwner
      else .unlockMismatch w.mutex.ownerTaskId)
  | .unlockUnlocked => w.release t (.panicked .unlockUnlocked)
  | .unlockMismatch owner => w.release t (.panicked (.unlockMismatch owner t))
  | .unlockStoreOwner => (w.write t { w.mutex with ownerTaskId := 0 }).goto t .unlockStoreLocked
  | .unlockStoreLocked =>
    { (w.write t { w.mutex with locked := false }).goto t .unlockSignal with
      holders := w.holders.erase t }
  | .unlockSignal =>
    (w.write t { w.mutex with sequence := u32Add w.mutex.sequence 1 }).goto t .unlockWake
  | .unlockWake => (w.wakeOne).goto t .unlockDone
  | .unlockDone => w.release t .outside
  | .panicked _ => w

end World

/-- The calls a task can make. -/
inductive MutexCall where
  | tryLock
  | lock
  | lockTimeout (timeoutTicks : Nat)
  | unlock
  deriving Repr, DecidableEq

/-- What can happen next in a world. -/
inductive Act where
  /-- Task `t`, outside the mutex functions, calls one. -/
  | call (t : Nat) (call : MutexCall)
  /-- Task `t` takes the next step of its code. -/
  | go (t : Nat)
  /-- The timer ends the timed wait of task `t`. -/
  | expire (t : Nat)
  | tick
  deriving Repr, DecidableEq

namespace World

/-- Where a call starts. -/
def entry (w : World) : MutexCall → Pc
  | .tryLock => .tryLockSpin
  | .lock => .lockSpin ⟨kwaitForever, w.ticks, true⟩
  | .lockTimeout timeoutTicks => .lockSpin ⟨timeoutTicks, w.ticks, false⟩
  | .unlock => .unlockSpin

def call (w : World) (t : Nat) (c : MutexCall) : World :=
  if w.pc t = .outside then (w.setLog t ⟨none, false, false⟩).goto t (w.entry c) else w

def expire (w : World) (t : Nat) : World :=
  match w.pc t with
  | .blocked call wait =>
    if wait.waitTicks = kwaitForever then w
    else { w.goto t (.waitUncount call wait false) with queue := w.queue.erase t }
  | _ => w

def step (w : World) : Act → World
  | .call t c => w.call t c
  | .go t => w.go t
  | .expire t => w.expire t
  | .tick => { w with ticks := u32Add w.ticks 1 }

def run (w : World) : List Act → World
  | [] => w
  | act :: acts => (w.step act).run acts

end World

end Dfos.Sync
