import Dfos.Lib.Ring
import Dfos.Panic.Message

/-!
# The panic log

`kernel/kernel/panic.c`: eight records that are overwritten in turn, with the slot
to write next, the number of records and the number of captures each in a
variable of its own.  Captures, reads and clears run with interrupts disabled.
-/

namespace Dfos.Panic

open Dfos.Lib Dfos.Libc

/-- `PANIC_LOG_CAPACITY`. -/
def panicLogCapacity : Nat := 8

/-- `PANIC_LOG_MESSAGE_MAX`. -/
def panicLogMessageMax : Nat := 160

/-- `PANIC_LOG_TASK_NAME_MAX`. -/
def panicLogTaskNameMax : Nat := 24

/-- `panic_record_t`. -/
structure PanicRecord where
  sequence : Nat
  tick : Nat
  taskId : Nat
  taskName : Nat → Char
  message : Nat → Char
  truncated : Bool

/-- A record of zeros. -/
def PanicRecord.zero : PanicRecord where
  sequence := 0
  tick := 0
  taskId := 0
  taskName _ := nul
  message _ := nul
  truncated := false

/-- The static data. -/
structure PanicLog where
  records : Nat → PanicRecord
  nextSlot : Nat
  recordCount : Nat
  sequence : Nat

/-- What a capture finds: the tick, the current task with its name, and the
message to format. -/
structure Capture where
  tick : Nat
  taskId : Nat
  taskName : Option (List Char)
  format : Option (List Char)
  args : VaList

/-- The loop of `panic_copy_string`. -/
def copyFrom (capacity : Nat) : Nat → (Nat → Char) → List Char → Nat → Char
  | i, destination, c :: source =>
      if i + 1 < capacity then copyFrom capacity (i + 1) (Function.update destination i c) source
      else Function.update destination i nul
  | i, destination, [] => Function.update destination i nul

/-- `panic_copy_string`. -/
def panicCopyString (destination : Nat → Char) (capacity : Nat) (source : Option (List Char)) :
    Nat → Char :=
  if capacity = 0 then destination else copyFrom capacity 0 destination (source.getD [])

/-- `panic_log_append`. -/
def panicLogAppend (log : PanicLog) (template : PanicRecord) : PanicLog :=
  let sequence := u32Add log.sequence 1
  { records := Function.update log.records log.nextSlot { template with sequence := sequence }
    nextSlot := u32Add log.nextSlot 1 % panicLogCapacity
    recordCount :=
      if log.recordCount < panicLogCapacity then u32Add log.recordCount 1 else log.recordCount
    sequence := sequence }

section Code

variable (strings : UInt32 → List Char) (scratch : Nat → Char)

/-- The record that `panic_log_capture_v` fills in. -/
def panicRecord (capture : Capture) : Except Fault PanicRecord := do
  let taskName := panicCopyString PanicRecord.zero.taskName panicLogTaskNameMax
    (some (capture.taskName.getD "none".toList))
  let (message, truncated) ← panicFormatMessage strings scratch PanicRecord.zero.message
    panicLogMessageMax capture.format capture.args
  return { PanicRecord.zero with
    tick := capture.tick
    taskId := capture.taskId
    taskName := taskName
    message := message
    truncated := truncated }

/-- `panic_log_capture`. -/
def panicLogCapture (log : PanicLog) (capture : Capture) : Except Fault PanicLog := do
  let record ← panicRecord strings scratch capture
  return panicLogAppend log record

/-- `panic_log_count`. -/
def panicLogCount (log : PanicLog) : Nat := log.recordCount

/-- `panic_log_read`, with the record that it copies out. -/
def panicLogRead (log : PanicLog) (newestIndex : Nat) : Option PanicRecord :=
  if newestIndex ≥ log.recordCount then none
  else
    let newestSlot := u32Sub (u32Add log.nextSlot panicLogCapacity) 1 % panicLogCapacity
    let slot := u32Sub (u32Add newestSlot panicLogCapacity) newestIndex % panicLogCapacity
    some (log.records slot)

/-- `panic_log_clear`; the log is in this state at boot too. -/
def panicLogClear : PanicLog where
  records _ := .zero
  nextSlot := 0
  recordCount := 0
  sequence := 0

inductive LogOp where
  | capture (found : Capture)
  | clear

def LogOp.exec (log : PanicLog) : LogOp → Except Fault PanicLog
  | .capture found => panicLogCapture strings scratch log found
  | .clear => .ok panicLogClear

/-- A sequence of calls. -/
def runLog (log : PanicLog) : List LogOp → Except Fault PanicLog
  | [] => .ok log
  | op :: ops => do
      let log ← op.exec strings scratch log
      runLog log ops

end Code

/-- The captures since the last clear, the oldest first. -/
def sinceClear (captures : List Capture) : List LogOp → List Capture
  | [] => captures
  | .capture capture :: ops => sinceClear (captures ++ [capture]) ops
  | .clear :: ops => sinceClear [] ops

/-! ## The log is a window of the captures -/

section Window

variable {strings : UInt32 → List Char} {scratch : Nat → Char} {log : PanicLog}
  {captures : List Capture}

/-- The records of the captures since the last clear, numbered, and the log that
keeps the newest eight of them. -/
structure PanicLog.Keeps (strings : UInt32 → List Char) (scratch : Nat → Char) (log : PanicLog)
    (captures : List Capture) (history : List PanicRecord) : Prop where
  records : ∀ j capture, captures[j]? = some capture → ∃ record,
    panicRecord strings scratch capture = .ok record ∧
      history[j]? = some { record with sequence := (j + 1) % 2 ^ 32 }
  all : history.length = captures.length
  window : Window panicLogCapacity log.records history (history.length - panicLogCapacity)
  slot : log.nextSlot = history.length % panicLogCapacity
  count : log.recordCount = min history.length panicLogCapacity
  sequence : log.sequence = history.length % 2 ^ 32

theorem PanicLog.Keeps.clear (strings : UInt32 → List Char) (scratch : Nat → Char) :
    PanicLog.Keeps strings scratch panicLogClear [] [] where
  records j capture found := by simp at found
  all := rfl
  window := .empty _ _
  slot := rfl
  count := rfl
  sequence := rfl

/-- The message fits its array, so a record is always built. -/
theorem exists_panicRecord (strings : UInt32 → List Char) (scratch : Nat → Char)
    (capture : Capture) : ∃ record, panicRecord strings scratch capture = .ok record := by
  obtain ⟨state, done, -⟩ := panicFormatMessage_shows strings scratch PanicRecord.zero.message
    (show 1 ≤ panicLogMessageMax by decide) capture.format capture.args
  unfold panicRecord
  rw [done]
  exact ⟨_, rfl⟩

/-- One capture moves the window on by one. -/
theorem PanicLog.Keeps.capture {history : List PanicRecord}
    (keeps : log.Keeps strings scratch captures history) (capture : Capture) :
    ∃ log' history', panicLogCapture strings scratch log capture = .ok log' ∧
      log'.Keeps strings scratch (captures ++ [capture]) history' := by
  obtain ⟨record, built⟩ := exists_panicRecord strings scratch capture
  obtain ⟨records, all, window, slot, count, sequence⟩ := keeps
  have number : u32Add log.sequence 1 = (history.length + 1) % 2 ^ 32 := by
    rw [sequence, u32Add, Nat.mod_add_mod]
  refine ⟨panicLogAppend log record,
    history ++ [{ record with sequence := u32Add log.sequence 1 }], ?_, ?_⟩
  · rw [panicLogCapture, built]
    rfl
  have longer (x : PanicRecord) : (history ++ [x]).length = history.length + 1 := by simp
  refine ⟨?_, ?_, ?_, ?_, ?_, ?_⟩
  · intro j entry found
    rcases Nat.lt_or_ge j captures.length with old | new
    · rw [List.getElem?_append_left old] at found
      rw [List.getElem?_append_left (all ▸ old)]
      exact records j entry found
    · have last : j = captures.length := by
        have := (List.getElem?_eq_some_iff.mp found).1
        rw [List.length_append, List.length_singleton] at this
        omega
      subst last
      rw [List.getElem?_concat_length] at found
      cases found
      refine ⟨record, built, ?_⟩
      rw [← all, List.getElem?_concat_length, number]
  · rw [longer, List.length_append, List.length_singleton, all]
  · rw [longer]
    change Window _ (Function.update log.records log.nextSlot _) _ _
    rw [slot]
    refine (window.mono ?_).push ?_ _
    · omega
    · unfold panicLogCapacity
      omega
  · rw [longer]
    change u32Add log.nextSlot 1 % panicLogCapacity = _
    rw [slot]
    unfold u32Add panicLogCapacity
    omega
  · rw [longer]
    change (if log.recordCount < panicLogCapacity then _ else _) = _
    rw [count]
    unfold u32Add panicLogCapacity
    split <;> omega
  · rw [longer]
    exact number

theorem PanicLog.Keeps.run {history : List PanicRecord}
    (keeps : log.Keeps strings scratch captures history) (ops : List LogOp) :
    ∃ log' history', runLog strings scratch log ops = .ok log' ∧
      log'.Keeps strings scratch (sinceClear captures ops) history' := by
  induction ops generalizing log captures history with
  | nil => exact ⟨log, history, rfl, keeps⟩
  | cons op ops ih =>
    cases op with
    | capture capture =>
      obtain ⟨log', history', done, keeps'⟩ := keeps.capture capture
      obtain ⟨log'', history'', ran, keeps''⟩ := ih keeps'
      refine ⟨log'', history'', ?_, keeps''⟩
      rw [runLog, LogOp.exec, done]
      exact ran
    | clear => exact ih (PanicLog.Keeps.clear strings scratch)

/-- What a read finds: entry `c - 1 - i` of the history. -/
theorem PanicLog.Keeps.read {history : List PanicRecord}
    (keeps : log.Keeps strings scratch captures history) (i : Nat) :
    panicLogRead log i =
      if i < min history.length panicLogCapacity then history[history.length - 1 - i]?
      else none := by
  unfold panicLogRead
  rw [keeps.count]
  by_cases inside : i < min history.length panicLogCapacity
  · rw [if_neg (by omega), if_pos inside]
    have place : history.length - 1 - i < history.length := by omega
    have found := List.getElem?_eq_getElem place
    have cell := keeps.window.entry _ _ (by omega) found
    rw [found, ← cell, keeps.slot]
    dsimp only
    congr 2
    unfold u32Sub u32Add panicLogCapacity at *
    omega
  · rw [if_pos (by omega), if_neg inside]

end Window

/-- **The log is the newest-first window of the captures.**  After any calls, with
`c` captures since the last clear, there are `min c 8` records, and record `i` is
that of the `(i + 1)`-th most recent capture, numbered `c - i`. -/
theorem panic_log_is_window (strings : UInt32 → List Char) (scratch : Nat → Char)
    (ops : List LogOp) (few : (sinceClear [] ops).length < 2 ^ 32) :
    ∃ log, runLog strings scratch panicLogClear ops = .ok log ∧
      panicLogCount log = min (sinceClear [] ops).length 8 ∧
      (∀ i, (panicLogRead log i).isSome ↔ i < min (sinceClear [] ops).length 8) ∧
      ∀ i < min (sinceClear [] ops).length 8, ∃ capture record,
        (sinceClear [] ops).reverse[i]? = some capture ∧
        panicRecord strings scratch capture = .ok record ∧
        panicLogRead log i =
          some { record with sequence := (sinceClear [] ops).length - i } := by
  obtain ⟨log, history, ran, keeps⟩ := (PanicLog.Keeps.clear strings scratch).run ops
  have read := keeps.read
  have count := keeps.count
  rw [keeps.all] at read count
  have found (i : Nat) (inside : i < min (sinceClear [] ops).length 8) : ∃ capture record,
      (sinceClear [] ops).reverse[i]? = some capture ∧
      panicRecord strings scratch capture = .ok record ∧
      panicLogRead log i =
        some { record with sequence := (sinceClear [] ops).length - i } := by
    have place : (sinceClear [] ops).length - 1 - i < (sinceClear [] ops).length := by omega
    obtain ⟨record, built, kept⟩ := keeps.records _ _ (List.getElem?_eq_getElem place)
    refine ⟨_, record, ?_, built, ?_⟩
    · rw [List.getElem?_reverse (by omega)]
      exact List.getElem?_eq_getElem place
    · rw [read i, if_pos (by unfold panicLogCapacity; exact inside), kept,
        Nat.mod_eq_of_lt (by omega)]
      congr 2
      omega
  refine ⟨log, ran, count, ?_, found⟩
  intro i
  constructor
  · intro some
    by_contra beyond
    rw [read i, if_neg (by unfold panicLogCapacity; exact beyond)] at some
    cases some
  · intro inside
    obtain ⟨capture, record, -, -, got⟩ := found i inside
    rw [got]
    rfl

/-- Ten captures after a clear: the last eight are kept. -/
theorem panic_log_is_window_ten :
    ∃ log, runLog (fun _ => []) (fun _ => ' ') panicLogClear
      (.clear :: List.replicate 10 (.capture ⟨7, 1, none, some ['x'], ⟨fun _ => 0, 0⟩⟩)) = .ok log ∧
      panicLogCount log = 8 ∧ ∃ record, panicLogRead log 7 = some record ∧ record.sequence = 3 := by
  obtain ⟨log, ran, count, -, read⟩ := panic_log_is_window (fun _ => []) (fun _ => ' ')
    (.clear :: List.replicate 10 (.capture ⟨7, 1, none, some ['x'], ⟨fun _ => 0, 0⟩⟩)) (by decide)
  obtain ⟨-, record, -, -, oldest⟩ := read 7 (by decide)
  exact ⟨log, ran, count, _, oldest, rfl⟩

end Dfos.Panic
