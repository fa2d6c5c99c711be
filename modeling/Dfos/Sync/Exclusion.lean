import Dfos.Sync.Mutex

/-!
# Mutual exclusion of the sleeping mutex

The invariant says who is inside the spinlock, what the mutex fields are while
nobody is and at each point of a critical section, and what a task outside the
spinlock has already seen.  Every step of every task keeps it, whatever the
other tasks do.
-/

namespace Dfos.Sync

open Dfos.Lib

/-- The task is between taking and dropping the spinlock. -/
def Pc.inSpin : Pc → Bool
  | .tryLockLocked | .tryLockOwner | .tryLockRecursion | .tryLockBusy
  | .tryLockStoreLocked | .tryLockStoreOwner | .tryLockDone
  | .lockLocked _ | .lockOwner _ | .lockRecursion _ | .lockElapsed _ | .lockTimedOut _
  | .waitObserve _ _ | .waitUnlock _ _ | .lockAfterWait _ _
  | .lockStoreLocked _ | .lockStoreOwner _ | .lockDone _
  | .unlockLocked | .unlockOwner | .unlockUnlocked | .unlockMismatch _
  | .unlockStoreOwner | .unlockStoreLocked | .unlockSignal | .unlockWake | .unlockDone => true
  | _ => false

/-- The fields agree with the one task that holds the mutex, or with none. -/
def Normal (m : KMutex) (holders : List Nat) : Prop :=
  (m.locked = true ∧ holders = [m.ownerTaskId]) ∨
    (m.locked = false ∧ holders = [] ∧ m.ownerTaskId = 0)

/-- The fields while task `t`, at the given point, is inside the spinlock. -/
def Inside (m : KMutex) (holders : List Nat) (t : Nat) : Pc → Prop
  | .tryLockOwner | .lockOwner _ | .lockElapsed _ | .lockTimedOut _ | .unlockOwner =>
    Normal m holders ∧ m.locked = true
  | .tryLockStoreLocked | .lockStoreLocked _ => m.locked = false ∧ holders = [] ∧ m.ownerTaskId = 0
  | .tryLockStoreOwner | .lockStoreOwner _ => m.locked = true ∧ holders = [] ∧ m.ownerTaskId = 0
  | .tryLockDone | .lockDone _ => m.locked = true ∧ holders = [] ∧ m.ownerTaskId = t
  | .unlockStoreOwner => m.locked = true ∧ holders = [t] ∧ m.ownerTaskId = t
  | .unlockStoreLocked => m.locked = true ∧ holders = [t] ∧ m.ownerTaskId = 0
  | _ => Normal m holders

/-- What the call of task `t` has seen and done when it is at the given point. -/
def Local (holders : List Nat) (log : CallLog) (t : Nat) : Pc → Prop
  | .outside => log.returned = some false → log.changed = false ∧ log.sawHeld = true
  | .tryLockSpin | .tryLockLocked | .lockSpin _ | .lockLocked _ => log.changed = false
  | .tryLockOwner | .lockOwner _ =>
    log.changed = false ∧ (log.sawHeld = true ∨ t ∈ holders)
  | .tryLockBusy => log.changed = false ∧ log.sawHeld = true
  | .lockElapsed _ | .lockTimedOut _ | .waitObserve _ _ | .waitUnlock _ _ | .waitCheck _ _
  | .waitCount _ _ | .waitBlock _ _ | .blocked _ _ | .waitUncount _ _ _ | .waitExpired _ _
  | .waitRelock _ _ | .lockAfterWait _ _ => log.changed = false ∧ log.sawHeld = true ∧ t ∉ holders
  | .unlockSpin | .unlockLocked | .unlockOwner | .unlockStoreOwner | .unlockStoreLocked
  | .unlockSignal | .unlockWake | .unlockDone => log.returned = none
  | _ => True

structure World.Inv (w : World) : Prop where
  spin : ∀ t, (w.pc t).inSpin = true ↔ w.spinHolder = some t
  value : w.mutex.value = if w.spinHolder.isSome then 1 else 0
  free : w.spinHolder = none → Normal w.mutex w.holders
  inside : ∀ t, w.spinHolder = some t → Inside w.mutex w.holders t (w.pc t)
  calls : ∀ t, Local w.holders (w.log t) t (w.pc t)

/-! ## Frame -/

section Frame

variable {m m' : KMutex} {holders holders' : List Nat} {t : Nat} {p : Pc} {log : CallLog}

/-- The spinlock word, the sequence and the waiter count do not matter here. -/
theorem Normal.congr (locked : m'.locked = m.locked) (owner : m'.ownerTaskId = m.ownerTaskId)
    (normal : Normal m holders) : Normal m' holders := by
  unfold Normal at normal ⊢
  rw [locked, owner]
  exact normal

theorem Inside.congr (locked : m'.locked = m.locked) (owner : m'.ownerTaskId = m.ownerTaskId)
    (inside : Inside m holders t p) : Inside m' holders t p := by
  cases p <;> simp only [Inside, Normal, locked, owner] at inside ⊢ <;> exact inside

/-- A call's knowledge survives when no new holder but another task appears. -/
theorem Local.mono (fewer : t ∈ holders' ↔ t ∈ holders) (known : Local holders log t p) :
    Local holders' log t p := by
  cases p <;> simp only [Local, fewer] at known ⊢ <;> exact known

end Frame

section Steps

variable {w w' : World} {t : Nat} {p : Pc}

/-- **One task moves.**  The others keep their place and their knowledge, and
while one of them is inside the spinlock nothing it relies on changes. -/
theorem World.Inv.update (inv : w.Inv)
    (others : ∀ u, u ≠ t → w'.pc u = w.pc u ∧ w'.log u = w.log u)
    (holders : ∀ u, u ≠ t → (u ∈ w'.holders ↔ u ∈ w.holders))
    (spinOthers : ∀ u, u ≠ t → (w'.spinHolder = some u ↔ w.spinHolder = some u))
    (spinSelf : (w'.pc t).inSpin = true ↔ w'.spinHolder = some t)
    (value : w'.mutex.value = if w'.spinHolder.isSome then 1 else 0)
    (free : w'.spinHolder = none → Normal w'.mutex w'.holders)
    (inside : w'.spinHolder = some t → Inside w'.mutex w'.holders t (w'.pc t))
    (frame : ∀ u, u ≠ t → w.spinHolder = some u → w'.mutex.locked = w.mutex.locked ∧
      w'.mutex.ownerTaskId = w.mutex.ownerTaskId ∧ w'.holders = w.holders)
    (known : Local w'.holders (w'.log t) t (w'.pc t)) : w'.Inv where
  spin u := by
    by_cases self : u = t
    · rw [self]
      exact spinSelf
    · rw [(others u self).1, spinOthers u self]
      exact inv.spin u
  value := value
  free := free
  inside u holds := by
    by_cases self : u = t
    · rw [self] at holds ⊢
      exact inside holds
    · have before := (spinOthers u self).mp holds
      obtain ⟨locked, owner, same⟩ := frame u self before
      rw [same, (others u self).1]
      exact (inv.inside u before).congr locked owner
  calls u := by
    by_cases self : u = t
    · rw [self]
      exact known
    · rw [(others u self).1, (others u self).2]
      exact (inv.calls u).mono (holders u self)

theorem goto_pc_self : (w.goto t p).pc t = p := if_pos rfl

theorem goto_pc_other {u : Nat} (other : u ≠ t) : (w.goto t p).pc u = w.pc u := if_neg other

/-- A step outside the spinlock that leaves `locked` and the owner alone. -/
theorem World.Inv.outer (inv : w.Inv) (start : (w.pc t).inSpin = false) (stop : p.inSpin = false)
    {m : KMutex} (value : m.value = w.mutex.value) (locked : m.locked = w.mutex.locked)
    (owner : m.ownerTaskId = w.mutex.ownerTaskId) {log : CallLog}
    (known : Local w.holders log t p) (queue : List Nat) :
    World.Inv { w with
      mutex := m
      queue := queue
      pc := (w.goto t p).pc
      log := (w.setLog t log).log } := by
  have notHolder : w.spinHolder ≠ some t := by
    intro holds
    rw [(inv.spin t).mpr holds] at start
    cases start
  apply inv.update (t := t)
  · intro u other
    exact ⟨goto_pc_other other, if_neg other⟩
  · intro u _
    rfl
  · intro u _
    rfl
  · dsimp only
    rw [goto_pc_self, stop]
    exact ⟨nofun, fun h => absurd h notHolder⟩
  · exact value.trans inv.value
  · intro none
    exact (inv.free none).congr locked owner
  · intro holds
    exact absurd holds notHolder
  · intro u _ _
    exact ⟨locked, owner, rfl⟩
  · dsimp only
    rw [goto_pc_self, show (w.setLog t log).log t = log from if_pos rfl]
    exact known

/-- A step inside the spinlock. -/
theorem World.Inv.inner (inv : w.Inv) (start : (w.pc t).inSpin = true) (stop : p.inSpin = true)
    {m : KMutex} (value : m.value = w.mutex.value) {held : List Nat}
    (holders : ∀ u, u ≠ t → (u ∈ held ↔ u ∈ w.holders))
    (inside : Inside m held t p) {log : CallLog} (known : Local held log t p) :
    World.Inv { w with
      mutex := m
      pc := (w.goto t p).pc
      holders := held
      log := (w.setLog t log).log } := by
  have holds := (inv.spin t).mp start
  apply inv.update (t := t)
  · intro u other
    exact ⟨goto_pc_other other, if_neg other⟩
  · exact holders
  · intro u _
    rfl
  · dsimp only
    rw [goto_pc_self, stop]
    exact ⟨fun _ => holds, fun _ => rfl⟩
  · exact value.trans inv.value
  · intro none
    rw [holds] at none
    cases none
  · intro _
    dsimp only
    rw [goto_pc_self]
    exact inside
  · intro u other holds'
    rw [holds] at holds'
    exact absurd (Option.some.inj holds').symm other
  · dsimp only
    rw [goto_pc_self, show (w.setLog t log).log t = log from if_pos rfl]
    exact known

theorem setLog_self : w.setLog t (w.log t) = w := by
  have same : (fun u => if u = t then w.log t else w.log u) = w.log := by
    funext u
    split
    · next here => rw [here]
    · rfl
  unfold World.setLog
  rw [same]

/-- A write that leaves `locked` and the owner alone is not logged as a change. -/
theorem write_keep {m : KMutex} (locked : m.locked = w.mutex.locked)
    (owner : m.ownerTaskId = w.mutex.ownerTaskId) : w.write t m = { w with mutex := m } := by
  unfold World.write
  simp only [locked, owner, bne_self_eq_false, Bool.or_false]
  rw [setLog_self]

theorem write_value (v : Nat) : w.write t { w.mutex with value := v } =
    { w with mutex := { w.mutex with value := v } } :=
  write_keep rfl rfl

section

variable (inv : w.Inv)
include inv

theorem World.Inv.goto_outer (start : (w.pc t).inSpin = false)
    (stop : p.inSpin = false) (known : Local w.holders (w.log t) t p) : (w.goto t p).Inv := by
  have moved := inv.outer start stop rfl rfl rfl known w.queue
  rw [setLog_self] at moved
  exact moved

theorem World.Inv.goto_inner (start : (w.pc t).inSpin = true)
    (stop : p.inSpin = true) (inside : Inside w.mutex w.holders t p)
    (known : Local w.holders (w.log t) t p) : (w.goto t p).Inv := by
  have moved := inv.inner start stop rfl (fun _ _ => Iff.rfl) inside known
  rw [setLog_self] at moved
  exact moved

theorem World.Inv.write_inner (start : (w.pc t).inSpin = true)
    (stop : p.inSpin = true) {m : KMutex} (value : m.value = w.mutex.value)
    (inside : Inside m w.holders t p) (known : Local w.holders ((w.write t m).log t) t p) :
    ((w.write t m).goto t p).Inv := by
  rw [show (w.write t m).log t = _ from if_pos rfl] at known
  exact inv.inner start stop value (fun _ _ => Iff.rfl) inside known

theorem World.Inv.loadLocked_inner (start : (w.pc t).inSpin = true)
    (stop : p.inSpin = true) (inside : Inside w.mutex w.holders t p)
    (known : Local w.holders { w.log t with
      sawHeld := (w.log t).sawHeld || (w.mutex.locked && w.holders.any (· != t)) } t p) :
    (w.loadLocked t p).Inv :=
  inv.inner start stop rfl (fun _ _ => Iff.rfl) inside known

theorem World.Inv.acquire (stop : p.inSpin = true)
    (inside : Normal w.mutex w.holders → Inside w.mutex w.holders t p)
    (known : Local w.holders (w.log t) t p) : (w.acquire t p).Inv := by
  unfold World.acquire
  split
  · next unlocked =>
    have nobody : w.spinHolder = none := by
      cases holder : w.spinHolder with
      | none => rfl
      | some u =>
        have value := inv.value
        rw [holder, unlocked] at value
        cases value
    rw [write_value]
    apply inv.update (t := t)
    · intro u other
      exact ⟨goto_pc_other other, rfl⟩
    · intro u _
      rfl
    · intro u other
      dsimp only
      rw [nobody]
      exact ⟨fun h => absurd (Option.some.inj h).symm other, nofun⟩
    · dsimp only
      rw [goto_pc_self, stop]
      exact ⟨fun _ => rfl, fun _ => rfl⟩
    · rfl
    · intro none
      cases none
    · intro _
      dsimp only
      rw [goto_pc_self]
      exact (inside (inv.free nobody)).congr rfl rfl
    · intro u _ holds
      rw [nobody] at holds
      cases holds
    · dsimp only
      rw [goto_pc_self]
      exact known
  · exact inv

/-- Dropping the spinlock, with what the return of the call adds. -/
theorem World.Inv.drop (start : (w.pc t).inSpin = true) (stop : p.inSpin = false)
    {held : List Nat} (holders : ∀ u, u ≠ t → (u ∈ held ↔ u ∈ w.holders))
    (normal : Normal w.mutex held) (log : CallLog) (known : Local held log t p) :
    World.Inv { w with
      mutex := { w.mutex with value := 0 }
      pc := (w.goto t p).pc
      spinHolder := none
      holders := held
      log := (w.setLog t log).log } := by
  have holds := (inv.spin t).mp start
  apply inv.update (t := t)
  · intro u other
    exact ⟨goto_pc_other other, if_neg other⟩
  · exact holders
  · intro u other
    dsimp only
    rw [holds]
    exact ⟨nofun, fun h => absurd (Option.some.inj h).symm other⟩
  · dsimp only
    rw [goto_pc_self, stop]
    exact ⟨nofun, nofun⟩
  · rfl
  · intro _
    exact normal.congr rfl rfl
  · intro none
    cases none
  · intro u other holds'
    rw [holds] at holds'
    exact absurd (Option.some.inj holds').symm other
  · dsimp only
    rw [goto_pc_self, show (w.setLog t log).log t = log from if_pos rfl]
    exact known

theorem World.Inv.release (start : (w.pc t).inSpin = true)
    (stop : p.inSpin = false) (normal : Normal w.mutex w.holders)
    (known : Local w.holders (w.log t) t p) : (w.release t p).Inv := by
  have dropped := inv.drop start stop (fun _ _ => Iff.rfl) normal (w.log t) known
  rw [setLog_self] at dropped
  unfold World.release
  rw [write_value]
  exact dropped

/-- A call that returns false. -/
theorem World.Inv.returnFalse (start : (w.pc t).inSpin = true)
    (normal : Normal w.mutex w.holders)
    (known : (w.log t).changed = false ∧ (w.log t).sawHeld = true) :
    ((w.release t .outside).logReturn t false).Inv := by
  unfold World.release
  rw [write_value]
  exact inv.drop start rfl (fun _ _ => Iff.rfl) normal { w.log t with returned := some false }
    fun _ => known

/-- A call that returns true, and with it the mutex. -/
theorem World.Inv.returnTrue (start : (w.pc t).inSpin = true)
    (done : w.mutex.locked = true ∧ w.holders = [] ∧ w.mutex.ownerTaskId = t) :
    ((w.release t .outside).acquired t).Inv := by
  obtain ⟨locked, empty, owner⟩ := done
  unfold World.release
  rw [write_value]
  refine inv.drop start rfl ?_ ?_ { w.log t with returned := some true } nofun
  · intro u other
    show u ∈ t :: w.holders ↔ _
    rw [List.mem_cons]
    exact ⟨fun h => h.resolve_left other, Or.inr⟩
  · exact Or.inl ⟨locked, by rw [empty, owner]; rfl⟩

theorem World.Inv.write_outer (start : (w.pc t).inSpin = false)
    (stop : p.inSpin = false) (count : Nat) (known : Local w.holders (w.log t) t p) :
    ((w.write t { w.mutex with waiterCount := count }).goto t p).Inv := by
  have moved := inv.outer (m := { w.mutex with waiterCount := count }) start stop rfl rfl rfl
    known w.queue
  rw [setLog_self] at moved
  rw [show w.write t { w.mutex with waiterCount := count } =
    { w with mutex := { w.mutex with waiterCount := count } } from write_keep rfl rfl]
  exact moved

/-- The wakeup moves a blocked task on, inside nobody's spinlock section. -/
theorem World.Inv.wakeOne : w.wakeOne.Inv := by
  unfold World.wakeOne
  split
  · exact inv
  next u rest _ =>
  split
  · next call wait at_ =>
    have known := inv.calls u
    rw [at_] at known
    have moved := inv.outer (p := .waitUncount call wait true) (by rw [at_]; rfl) rfl rfl rfl rfl
      known rest
    rw [setLog_self] at moved
    exact moved
  · exact ⟨inv.spin, inv.value, inv.free, inv.inside, inv.calls⟩

end

theorem wakeOne_pc (awake : ∀ call wait, w.pc t ≠ .blocked call wait) :
    w.wakeOne.pc t = w.pc t := by
  unfold World.wakeOne
  split
  · rfl
  next u rest _ =>
  split
  · next call wait at_ =>
    have other : t ≠ u := by
      intro same
      rw [← same] at at_
      exact awake call wait at_
    exact goto_pc_other other
  · rfl

theorem wakeOne_kept : w.wakeOne.mutex = w.mutex ∧ w.wakeOne.holders = w.holders ∧
    w.wakeOne.log = w.log := by
  unfold World.wakeOne
  split
  · exact ⟨rfl, rfl, rfl⟩
  · split <;> exact ⟨rfl, rfl, rfl⟩

end Steps

/-! ## Every step keeps the invariant -/

section Go

variable {w : World} {t : Nat}

theorem Normal.held {m : KMutex} {holders : List Nat} (normal : Normal m holders)
    (locked : m.locked = true) : holders = [m.ownerTaskId] := by
  rcases normal with ⟨-, held⟩ | ⟨unlocked, -⟩
  · exact held
  · rw [locked] at unlocked
    cases unlocked

theorem Normal.empty {m : KMutex} {holders : List Nat} (normal : Normal m holders)
    (unlocked : m.locked = false) : m.locked = false ∧ holders = [] ∧ m.ownerTaskId = 0 := by
  rcases normal with ⟨locked, -⟩ | free
  · rw [unlocked] at locked
    cases locked
  · exact free

/-- A load of `locked` that returns true saw another holder, unless the task
itself is the holder. -/
theorem sawHeld_of_load {m : KMutex} {holders : List Nat} (normal : Normal m holders)
    (locked : m.locked = true) (saw : Bool) :
    (saw || (m.locked && holders.any (· != t))) = true ∨ t ∈ holders := by
  rw [normal.held locked, locked]
  by_cases same : m.ownerTaskId = t
  · right
    simp [same]
  · left
    simp [same]

/-- **Every step of a task's code keeps the invariant.** -/
theorem World.Inv.go (inv : w.Inv) (t : Nat) : (w.go t).Inv := by
  have known := inv.calls t
  have held := fun start => inv.inside t ((inv.spin t).mp start)
  unfold World.go
  generalize at_ : w.pc t = p at known held ⊢
  have start (inSpin : p.inSpin = true) : (w.pc t).inSpin = true := by rwa [at_]
  have out (off : p.inSpin = false) : (w.pc t).inSpin = false := by rwa [at_]
  cases p with
  | outside | panicked panic | blocked call wait => exact inv
  | tryLockSpin | lockSpin call | waitRelock call signaled | unlockSpin =>
    exact inv.acquire rfl id known
  | tryLockLocked | lockLocked call =>
    have normal : Normal w.mutex w.holders := held rfl
    cases locked : w.mutex.locked with
    | true =>
      refine inv.loadLocked_inner (start rfl) rfl ⟨normal, locked⟩ ⟨known, ?_⟩
      exact sawHeld_of_load normal locked _
    | false => exact inv.loadLocked_inner (start rfl) rfl (normal.empty locked) trivial
  | tryLockOwner =>
    obtain ⟨normal, locked⟩ := held rfl
    dsimp only
    split
    · exact inv.goto_inner (start rfl) rfl normal trivial
    · next other =>
      refine inv.goto_inner (start rfl) rfl normal ⟨known.1, known.2.resolve_right ?_⟩
      rw [normal.held locked, List.mem_singleton]
      exact fun same => other same.symm
  | tryLockRecursion | lockRecursion call | unlockUnlocked | unlockMismatch owner =>
    exact inv.release (start rfl) rfl (held rfl) trivial
  | tryLockBusy =>
    exact inv.returnFalse (start rfl) (held rfl) known
  | tryLockStoreLocked | lockStoreLocked call =>
    obtain ⟨-, empty, owner⟩ := held rfl
    exact inv.write_inner (start rfl) rfl rfl ⟨rfl, empty, owner⟩ trivial
  | tryLockStoreOwner | lockStoreOwner call =>
    obtain ⟨locked, empty, -⟩ := held rfl
    exact inv.write_inner (start rfl) rfl rfl ⟨locked, empty, rfl⟩ trivial
  | tryLockDone | lockDone call =>
    exact inv.returnTrue (start rfl) (held rfl)
  | lockOwner call =>
    obtain ⟨normal, locked⟩ := held rfl
    dsimp only
    split
    · exact inv.goto_inner (start rfl) rfl normal trivial
    · next other =>
      have absent : t ∉ w.holders := by
        rw [normal.held locked, List.mem_singleton]
        exact fun same => other same.symm
      exact inv.goto_inner (start rfl) rfl ⟨normal, locked⟩
        ⟨known.1, known.2.resolve_right absent, absent⟩
  | lockElapsed call =>
    dsimp only
    split
    · exact inv.goto_inner (start rfl) rfl (held rfl).1 known
    · split
      · exact inv.goto_inner (start rfl) rfl (held rfl) known
      · exact inv.goto_inner (start rfl) rfl (held rfl).1 known
  | lockTimedOut call =>
    dsimp only
    split
    · exact inv.release (start rfl) rfl (held rfl).1 trivial
    · exact inv.returnFalse (start rfl) (held rfl).1 ⟨known.1, known.2.1⟩
  | waitObserve call waitTicks =>
    exact inv.goto_inner (start rfl) rfl (held rfl) known
  | waitUnlock call wait =>
    exact inv.release (start rfl) rfl (held rfl) known
  | waitCheck call wait =>
    dsimp only
    split
    · exact inv.goto_outer (out rfl) rfl known
    · exact inv.goto_outer (out rfl) rfl known
  | waitCount call wait =>
    exact inv.write_outer (out rfl) rfl _ known
  | waitBlock call wait =>
    dsimp only
    split
    · exact inv.goto_outer (out rfl) rfl known
    · have moved := inv.outer (p := .blocked call wait) (out rfl) rfl rfl rfl rfl known
        (w.queue ++ [t])
      rw [setLog_self] at moved
      exact moved
  | waitUncount call wait woke =>
    dsimp only
    split
    · exact inv.write_outer (out rfl) rfl _ trivial
    · split
      · exact inv.write_outer (out rfl) rfl _ known
      · exact inv.write_outer (out rfl) rfl _ known
  | waitExpired call wait =>
    exact inv.goto_outer (out rfl) rfl known
  | lockAfterWait call signaled =>
    have normal : Normal w.mutex w.holders := held rfl
    dsimp only
    split
    · split
      · next locked =>
        refine inv.loadLocked_inner (start rfl) rfl ⟨normal, locked⟩ ⟨known.1, ?_, known.2.2⟩
        rw [known.2.1]
        rfl
      · exact inv.loadLocked_inner (start rfl) rfl normal known.1
    · exact inv.goto_inner (start rfl) rfl normal known.1
  | unlockLocked =>
    have normal : Normal w.mutex w.holders := held rfl
    cases locked : w.mutex.locked with
    | true => exact inv.loadLocked_inner (start rfl) rfl ⟨normal, locked⟩ known
    | false => exact inv.loadLocked_inner (start rfl) rfl normal trivial
  | unlockOwner =>
    obtain ⟨normal, locked⟩ := held rfl
    dsimp only
    split
    · next owner =>
      exact inv.goto_inner (start rfl) rfl ⟨locked, owner ▸ normal.held locked, owner⟩ known
    · exact inv.goto_inner (start rfl) rfl normal trivial
  | unlockStoreOwner =>
    obtain ⟨locked, mine, -⟩ := held rfl
    refine inv.write_inner (start rfl) rfl rfl ⟨locked, mine, rfl⟩ ?_
    rw [show (w.write t _).log t = _ from if_pos rfl]
    exact known
  | unlockStoreLocked =>
    obtain ⟨locked, mine, owner⟩ := held rfl
    have gone : w.holders.erase t = [] := by rw [mine, List.erase_cons_head]
    have after : Inside { w.mutex with locked := false } (w.holders.erase t) t .unlockSignal :=
      Or.inr ⟨rfl, gone, owner⟩
    refine inv.inner (m := { w.mutex with locked := false }) (start rfl) rfl rfl ?_ after known
    intro u other
    rw [gone, mine]
    simp [other]
  | unlockSignal =>
    have normal : Normal w.mutex w.holders := held rfl
    refine inv.write_inner (start rfl) rfl rfl (normal.congr rfl rfl) ?_
    rw [show (w.write t _).log t = _ from if_pos rfl]
    exact known
  | unlockWake =>
    obtain ⟨mutex, holders, log⟩ := wakeOne_kept (w := w)
    have pc : w.wakeOne.pc t = w.pc t := wakeOne_pc (by rw [at_]; exact nofun)
    rw [at_] at pc
    refine inv.wakeOne.goto_inner (by rw [pc]; rfl) rfl ?_ ?_
    · rw [mutex, holders]
      exact held rfl
    · rw [log]
      exact known
  | unlockDone =>
    refine inv.release (start rfl) rfl (held rfl) ?_
    intro returned
    rw [show (w.log t).returned = none from known] at returned
    cases returned

theorem World.Inv.call (inv : w.Inv) (t : Nat) (c : MutexCall) : (w.call t c).Inv := by
  unfold World.call
  split
  · next outside =>
    have start : (w.pc t).inSpin = false := by rw [outside]; rfl
    -- a fresh call has changed nothing and returned nothing
    have enter {p : Pc} (stop : p.inSpin = false)
        (known : Local w.holders ⟨none, false, false⟩ t p) :
        ((w.setLog t ⟨none, false, false⟩).goto t p).Inv :=
      inv.outer start stop rfl rfl rfl known w.queue
    cases c with
    | tryLock | lock | lockTimeout timeoutTicks | unlock => exact enter rfl rfl
  · exact inv

theorem World.Inv.expire (inv : w.Inv) (t : Nat) : (w.expire t).Inv := by
  unfold World.expire
  split
  · next call wait at_ =>
    split
    · exact inv
    · have known := inv.calls t
      rw [at_] at known
      have moved := inv.outer (p := .waitUncount call wait false) (by rw [at_]; rfl) rfl rfl rfl
        rfl known (w.queue.erase t)
      rw [setLog_self] at moved
      exact moved
  · exact inv

theorem World.Inv.step (inv : w.Inv) (act : Act) : (w.step act).Inv := by
  cases act with
  | call t c => exact inv.call t c
  | go t => exact inv.go t
  | expire t => exact inv.expire t
  | tick => exact ⟨inv.spin, inv.value, inv.free, inv.inside, inv.calls⟩

theorem World.Inv.run (inv : w.Inv) (acts : List Act) : (w.run acts).Inv := by
  induction acts generalizing w with
  | nil => exact inv
  | cons act acts ih => exact ih (inv.step act)

theorem World.init_inv : World.init.Inv where
  spin t := ⟨nofun, nofun⟩
  value := rfl
  free _ := Or.inr ⟨rfl, rfl, rfl⟩
  inside t holds := by cases holds
  calls t returned := by cases returned

theorem Normal.length_le {m : KMutex} {holders : List Nat} (normal : Normal m holders) :
    holders.length ≤ 1 := by
  rcases normal with ⟨-, held⟩ | ⟨-, empty, -⟩
  · rw [held]
    exact le_refl 1
  · rw [empty]
    exact Nat.zero_le 1

theorem Inside.length_le {m : KMutex} {holders : List Nat} {p : Pc}
    (inside : Inside m holders t p) : holders.length ≤ 1 := by
  cases p <;> first
    | exact Normal.length_le inside
    | exact Normal.length_le inside.1
    | exact (congrArg List.length inside.2.1).le.trans (Nat.le_refl 1)
    | exact (congrArg List.length inside.2.1).le.trans (Nat.zero_le 1)

theorem World.Inv.value_zero (inv : w.Inv) : w.mutex.value = 0 ↔ w.spinHolder = none := by
  rw [inv.value]
  cases w.spinHolder with
  | none => exact ⟨fun _ => rfl, fun _ => rfl⟩
  | some t => exact ⟨nofun, nofun⟩

end Go

/-- **Mutual exclusion of the mutex.**  In every interleaving at most one task
holds the mutex, and whenever the spinlock is free the fields name exactly that
task.  A call that returned false changed neither field and loaded `locked` while
another task held the mutex, and a task whose call returned does not hold the
spinlock. -/
theorem kmutex_mutual_exclusion (acts : List Act) :
    let w := World.init.run acts
    w.holders.length ≤ 1 ∧
    (w.mutex.value = 0 → (w.mutex.locked = true ↔ ∃ t, t ∈ w.holders) ∧
      (∀ t ∈ w.holders, w.mutex.ownerTaskId = t) ∧
      (w.holders = [] → w.mutex.ownerTaskId = 0)) ∧
    (∀ t, w.pc t = .outside → (w.log t).returned = some false →
      (w.log t).changed = false ∧ (w.log t).sawHeld = true) ∧
    (w.mutex.value = 0 ↔ w.spinHolder = none) ∧
    ∀ t, w.pc t = .outside → w.spinHolder ≠ some t := by
  intro w
  have inv : w.Inv := World.init_inv.run acts
  refine ⟨?_, fun unlocked => ?_, fun t outside => ?_, inv.value_zero, fun t outside holds => ?_⟩
  · cases holder : w.spinHolder with
    | none => exact (inv.free holder).length_le
    | some t => exact (inv.inside t holder).length_le
  · rcases inv.free (inv.value_zero.mp unlocked) with ⟨locked, held⟩ | ⟨free, empty, owner⟩
    · rw [held, locked]
      refine ⟨⟨fun _ => ⟨_, List.mem_singleton_self _⟩, fun _ => rfl⟩, ?_, nofun⟩
      intro t member
      exact (List.mem_singleton.mp member).symm
    · rw [empty, free]
      exact ⟨⟨nofun, nofun⟩, nofun, fun _ => owner⟩
  · have known := inv.calls t
    rw [outside] at known
    exact known
  · have inside := (inv.spin t).mpr holds
    rw [outside] at inside
    cases inside

end Dfos.Sync
