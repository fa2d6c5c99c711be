import Dfos.Libc.Expansion

/-!
# Panic messages

The formatter of `kernel/kernel/panic.c`.  As in `Dfos.Libc.Printf` a format is
the list of its characters before the terminating NUL, and a pointer into it is
the rest of that list, or `none` one past the NUL.

Every access is checked: a call goes wrong when it reads the format behind its
NUL, writes the output at or behind its capacity, or runs over the local digits.
-/

namespace Dfos.Panic

open Dfos.Lib Dfos.Libc

/-- `panic_format_buffer_t`. -/
structure PanicFormatBuffer where
  buffer : Nat → Char
  capacity : Nat
  length : Nat
  truncated : Bool

/-- `state->buffer[index] = c`. -/
def PanicFormatBuffer.store (state : PanicFormatBuffer) (index : Nat) (c : Char) :
    Except Fault PanicFormatBuffer :=
  if index < state.capacity then
    .ok { state with buffer := Function.update state.buffer index c }
  else .error .overrun

/-- `panic_format_append_char`.  The length stays below the capacity, so the sum
does not wrap. -/
def panicFormatAppendChar (state : PanicFormatBuffer) (c : Char) :
    Except Fault PanicFormatBuffer :=
  if state.capacity = 0 then .ok state
  else if state.length + 1 ≥ state.capacity then .ok { state with truncated := true }
  else do
    let state ← state.store state.length c
    let state := { state with length := state.length + 1 }
    state.store state.length nul

/-- The loop of `panic_format_append_string`. -/
def appendText (state : PanicFormatBuffer) : List Char → Except Fault PanicFormatBuffer
  | [] => .ok state
  | c :: text => do
      let state ← panicFormatAppendChar state c
      appendText state text

/-- `panic_format_append_string`; `none` is `NULL`. -/
def panicFormatAppendString (state : PanicFormatBuffer) (text : Option (List Char)) :
    Except Fault PanicFormatBuffer :=
  appendText state (text.getD "(null)".toList)

/-- The loop that appends the digits from the last one written to the first. -/
def appendDigits (digits : Nat → Char) :
    Nat → PanicFormatBuffer → Except Fault PanicFormatBuffer
  | 0, state => .ok state
  | index + 1, state => do
      let state ← panicFormatAppendChar state (digits index)
      appendDigits digits index state

section Code

-- the strings in memory, and what the local array of digits held
variable (strings : UInt32 → List Char) (scratch : Nat → Char)

/-- `panic_format_append_unsigned`. -/
def panicFormatAppendUnsigned (state : PanicFormatBuffer) (value base : Nat) (prefixed : Bool) :
    Except Fault PanicFormatBuffer := do
  let state ← (if prefixed ∧ base = 16 then panicFormatAppendString state (some "0x".toList)
    else .ok state)
  if value = 0 then panicFormatAppendChar state '0'
  else
    let (digits, index) ← divideLoop base false 16 value scratch 0
    appendDigits digits index state

/-- The switch of `panic_format_message`; `none` is the NUL. -/
def panicConvert (state : PanicFormatBuffer) (conversion : Option Char) (args : VaList) :
    Except Fault (PanicFormatBuffer × VaList) :=
  let (word, rest) := vaArg args
  match conversion with
  | none => do return (← panicFormatAppendChar state '%', args)
  | some c =>
      if c = 's' then do
        let text := if word = 0 then none else some (strings word)
        return (← panicFormatAppendString state text, rest)
      else if c = 'u' then do
        return (← panicFormatAppendUnsigned scratch state word.toNat 10 false, rest)
      else if c = 'x' ∨ c = 'p' then do
        return (← panicFormatAppendUnsigned scratch state word.toNat 16 true, rest)
      else if c = '%' then do return (← panicFormatAppendChar state '%', args)
      else do
        let state ← panicFormatAppendChar state '%'
        return (← panicFormatAppendChar state c, args)

/-- `*format`; `none` is the NUL. -/
def peek : Option (List Char) → Except Fault (Option Char)
  | none => .error .overread
  | some format => .ok format.head?

/-- `format++`. -/
def advance : Option (List Char) → Option (List Char)
  | some (_ :: format) => some format
  | _ => none

/-- The loop of `panic_format_message`, in at most `rounds` rounds. -/
def panicFormatLoop :
    Nat → PanicFormatBuffer → Option (List Char) → VaList → Except Fault PanicFormatBuffer
  | 0, _, _, _ => .error .unfinished
  | rounds + 1, state, format, args => do
      match ← peek format with
      | none => return state
      | some c =>
        if c ≠ '%' then
          let state ← panicFormatAppendChar state c
          panicFormatLoop rounds state (advance format) args
        else
          let format := advance format
          let conversion ← peek format
          let (state, args) ← panicConvert strings scratch state conversion args
          if conversion = none then return state
          else panicFormatLoop rounds state (advance format) args

/-- `panic_format_message`, with the output and `*truncated_out` after it; a
format that is `none` is `NULL`. -/
def panicFormatMessage (output : Nat → Char) (capacity : Nat) (format : Option (List Char))
    (args : VaList) : Except Fault ((Nat → Char) × Bool) := do
  let state : PanicFormatBuffer :=
    { buffer := output, capacity := capacity, length := 0, truncated := false }
  let state ← (if capacity > 0 then state.store 0 nul else .ok state)
  let format := format.getD "(null panic message)".toList
  let state ← panicFormatLoop strings scratch (format.length + 1) state (some format) args
  return (state.buffer, state.truncated)

/-! ## What a format expands to -/

/-- The text of a conversion, and the arguments behind it. -/
def conversionText (conversion : Char) (args : VaList) : List Char × VaList :=
  let (word, rest) := vaArg args
  if conversion = 's' then (if word = 0 then "(null)".toList else strings word, rest)
  else if conversion = 'u' then (numeral (digitChar false) 10 word.toNat, rest)
  else if conversion = 'x' ∨ conversion = 'p' then
    ("0x".toList ++ numeral (digitChar false) 16 word.toNat, rest)
  else if conversion = '%' then (['%'], args)
  else (['%', conversion], args)

/-- The full expansion of a format. -/
def expansion : List Char → VaList → List Char
  | [], _ => []
  | c :: format, args =>
      if c ≠ '%' then c :: expansion format args
      else
        match format with
        | [] => ['%']
        | conversion :: format =>
            (conversionText strings conversion args).1 ++
              expansion format (conversionText strings conversion args).2

end Code

/-! ## The output shows the text -/

/-- The buffer holds as much of `text` as fits before a NUL, and the output
behind the capacity is as it was. -/
structure Shows (output : Nat → Char) (capacity : Nat) (text : List Char)
    (state : PanicFormatBuffer) : Prop where
  size : state.capacity = capacity
  length : state.length = min text.length (capacity - 1)
  chars : (List.range state.length).map state.buffer = text.take (capacity - 1)
  terminated : state.buffer state.length = nul
  truncated : state.truncated = true ↔ capacity - 1 < text.length
  outside : ∀ k, capacity ≤ k → state.buffer k = output k

section Shows

variable {output : Nat → Char} {capacity : Nat} {text : List Char} {state : PanicFormatBuffer}

/-- A call that appends `added`. -/
def Appends (output : Nat → Char) (capacity : Nat) (text added : List Char)
    (result : Except Fault PanicFormatBuffer) : Prop :=
  ∃ state', result = .ok state' ∧ Shows output capacity (text ++ added) state'

theorem Shows.appendChar (shows : Shows output capacity text state) (positive : 1 ≤ capacity)
    (c : Char) : Appends output capacity text [c] (panicFormatAppendChar state c) := by
  obtain ⟨size, length, chars, terminated, truncated, outside⟩ := shows
  unfold panicFormatAppendChar
  rw [if_neg (by omega)]
  split
  · -- no room for the character and the NUL behind it
    next full =>
    refine ⟨_, rfl, size, ?_, ?_, terminated, ?_, outside⟩
    · rw [List.length_append, List.length_singleton]
      dsimp only
      omega
    · rw [List.take_append_of_le_length (by omega)]
      exact chars
    · rw [List.length_append, List.length_singleton]
      exact ⟨fun _ => by omega, fun _ => rfl⟩
  · next room =>
    have short : state.length = text.length := by omega
    have stores : (state.store state.length c >>= fun state =>
        ({ state with length := state.length + 1 } : PanicFormatBuffer).store
          (state.length + 1) nul) =
        .ok { state with
          buffer := Function.update (Function.update state.buffer state.length c)
            (state.length + 1) nul
          length := state.length + 1 } := by
      rw [PanicFormatBuffer.store, if_pos (by omega)]
      change PanicFormatBuffer.store _ _ _ = _
      rw [PanicFormatBuffer.store, if_pos (by dsimp only; omega)]
    refine ⟨_, stores, size, ?_, ?_, Function.update_self _ _ _, ?_, ?_⟩
    · rw [List.length_append, List.length_singleton]
      dsimp only
      omega
    · rw [List.take_of_length_le (by omega)] at chars
      rw [List.take_of_length_le (by rw [List.length_append, List.length_singleton]; omega),
        List.range_succ, List.map_append, List.map_singleton]
      dsimp only
      rw [Function.update_of_ne (by omega), Function.update_self]
      congr 1
      rw [← chars]
      refine List.map_congr_left fun i hi => ?_
      rw [List.mem_range] at hi
      rw [Function.update_of_ne (by omega), Function.update_of_ne (by omega)]
    · rw [List.length_append, List.length_singleton]
      dsimp only
      rw [truncated]
      omega
    · intro k beyond
      dsimp only
      rw [Function.update_of_ne (by omega), Function.update_of_ne (by omega)]
      exact outside k beyond

/-- Appending one text after another. -/
theorem Appends.bind {added more : List Char} {result : Except Fault PanicFormatBuffer}
    {next : PanicFormatBuffer → Except Fault PanicFormatBuffer}
    (first : Appends output capacity text added result)
    (second : ∀ state, Shows output capacity (text ++ added) state →
      Appends output capacity (text ++ added) more (next state)) :
    Appends output capacity text (added ++ more) (result >>= next) := by
  obtain ⟨state, done, shows⟩ := first
  obtain ⟨state', done', shows'⟩ := second state shows
  refine ⟨state', ?_, ?_⟩
  · rw [done]
    exact done'
  · rw [← List.append_assoc]
    exact shows'

theorem Shows.appendText (shows : Shows output capacity text state) (positive : 1 ≤ capacity)
    (added : List Char) :
    Appends output capacity text added (Panic.appendText state added) := by
  induction added generalizing text state with
  | nil =>
    refine ⟨state, rfl, ?_⟩
    rw [List.append_nil]
    exact shows
  | cons c added ih =>
    exact (shows.appendChar positive c).bind fun state' shows' => ih shows'

theorem Shows.appendDigits (shows : Shows output capacity text state) (positive : 1 ≤ capacity)
    (digits : Nat → Char) (index : Nat) :
    Appends output capacity text ((List.range index).map digits).reverse
      (Panic.appendDigits digits index state) := by
  induction index generalizing text state with
  | zero =>
    refine ⟨state, rfl, ?_⟩
    simpa using shows
  | succ index ih =>
    rw [List.range_succ, List.map_append, List.map_singleton, List.reverse_append,
      List.reverse_singleton]
    exact (shows.appendChar positive (digits index)).bind fun state' shows' => ih shows'

/-- **Numbers.**  The digits come out of the local array in the order of the
numeral, after the base if that is asked for. -/
theorem Shows.appendUnsigned (shows : Shows output capacity text state) (positive : 1 ≤ capacity)
    (scratch : Nat → Char) {value base : Nat} (small : value < 2 ^ 32) (ten : 10 ≤ base)
    (prefixed : Bool) :
    Appends output capacity text
      ((if prefixed ∧ base = 16 then "0x".toList else []) ++ numeral (digitChar false) base value)
      (panicFormatAppendUnsigned scratch state value base prefixed) := by
  unfold panicFormatAppendUnsigned
  refine Appends.bind ?_ fun state' shows' => ?_
  · split
    · exact shows.appendText positive _
    · refine ⟨state, rfl, ?_⟩
      rw [List.append_nil]
      exact shows
  by_cases zero : value = 0
  · rw [if_pos zero, zero, numeral_zero]
    exact shows'.appendChar positive '0'
  · have few : (Nat.digits base value).length ≤ 16 := by
      refine (Nat.digits_length_le_iff (by omega) value).mpr (small.trans_le ?_)
      calc 2 ^ 32 ≤ 10 ^ 16 := by norm_num
        _ ≤ base ^ 16 := Nat.pow_le_pow_left ten _
    obtain ⟨digits, divided, -, written⟩ := divideLoop_ok (by omega) false few scratch 0
    have map : (List.range (Nat.digits base value).length).map digits =
        (Nat.digits base value).map (digitChar false) := by
      refine List.ext_getElem (by simp) fun j hj hj' => ?_
      rw [List.length_map, List.length_range] at hj
      have := written j hj
      rw [Nat.zero_add] at this
      rw [List.getElem_map, List.getElem_range, List.getElem_map, this]
    rw [if_neg zero, divided, numeral_pos zero, List.map_reverse, ← map, Nat.zero_add]
    exact shows'.appendDigits positive digits _

variable (strings : UInt32 → List Char) (scratch : Nat → Char)

/-- **The switch** appends the text of the conversion and takes its argument. -/
theorem Shows.convert (shows : Shows output capacity text state) (positive : 1 ≤ capacity)
    (c : Char) (args : VaList) :
    ∃ state', panicConvert strings scratch state (some c) args =
        .ok (state', (conversionText strings c args).2) ∧
      Shows output capacity (text ++ (conversionText strings c args).1) state' := by
  have number (base : Nat) (ten : 10 ≤ base) (prefixed : Bool) :=
    shows.appendUnsigned positive scratch (vaArg args).1.toNat_lt ten prefixed
  unfold panicConvert conversionText
  dsimp only
  split
  · obtain ⟨state', done, shows'⟩ := shows.appendText positive
      (if (vaArg args).1 = 0 then "(null)".toList else strings (vaArg args).1)
    have string : panicFormatAppendString state
        (if (vaArg args).1 = 0 then none else some (strings (vaArg args).1)) = .ok state' := by
      rw [← done, panicFormatAppendString]
      split <;> rfl
    refine ⟨state', ?_, shows'⟩
    rw [string]
    rfl
  split
  · obtain ⟨state', done, shows'⟩ := number 10 (le_refl _) false
    refine ⟨state', ?_, shows'⟩
    rw [done]
    rfl
  split
  · obtain ⟨state', done, shows'⟩ := number 16 (by omega) true
    refine ⟨state', ?_, shows'⟩
    rw [done]
    rfl
  split
  · obtain ⟨state', done, shows'⟩ := shows.appendChar positive '%'
    refine ⟨state', ?_, shows'⟩
    rw [done]
    rfl
  · obtain ⟨state', done, shows'⟩ := (shows.appendChar positive '%').bind
      fun state' shows' => shows'.appendChar positive c
    refine ⟨state', ?_, shows'⟩
    rw [← bind_assoc, done]
    rfl

/-- **The loop** appends the expansion of the rest of the format.  Each round
leaves a shorter rest. -/
theorem Shows.loop (shows : Shows output capacity text state) (positive : 1 ≤ capacity)
    {rounds : Nat} {format : List Char} (enough : format.length < rounds) (args : VaList) :
    Appends output capacity text (expansion strings format args)
      (panicFormatLoop strings scratch rounds state (some format) args) := by
  induction rounds generalizing format text state args with
  | zero => omega
  | succ rounds ih =>
    cases format with
    | nil =>
      refine ⟨state, rfl, ?_⟩
      rw [expansion, List.append_nil]
      exact shows
    | cons c format =>
      rw [List.length_cons] at enough
      by_cases literal : c ≠ '%'
      · rw [expansion.eq_def]
        dsimp only
        rw [if_pos literal]
        have code : panicFormatLoop strings scratch (rounds + 1) state (some (c :: format)) args =
            panicFormatAppendChar state c >>= fun state =>
              panicFormatLoop strings scratch rounds state (some format) args := if_pos literal
        rw [code]
        exact (shows.appendChar positive c).bind fun state' shows' =>
          ih shows' (by omega) args
      · rw [expansion.eq_def]
        dsimp only
        rw [if_neg literal]
        cases format with
        | nil =>
          obtain ⟨state', done, shows'⟩ := shows.appendChar positive '%'
          refine ⟨state', ?_, shows'⟩
          refine Eq.trans (if_neg literal) ?_
          simp only [advance, peek, List.head?_nil, panicConvert, done]
          rfl
        | cons conversion format =>
          rw [List.length_cons] at enough
          obtain ⟨state', done, shows'⟩ := shows.convert strings scratch positive
            conversion args
          obtain ⟨state'', done', shows''⟩ := ih shows' (show format.length < rounds by omega)
            (conversionText strings conversion args).2
          refine ⟨state'', ?_, ?_⟩
          · refine Eq.trans (if_neg literal) ?_
            simp only [advance, peek, List.head?_cons, bind, Except.bind, done]
            exact done'
          · rw [← List.append_assoc]
            exact shows''

/-- The whole call: the output shows the expansion. -/
theorem panicFormatMessage_shows (output : Nat → Char) (positive : 1 ≤ capacity) (format : Option (List Char))
    (args : VaList) :
    ∃ state, panicFormatMessage strings scratch output capacity format args =
        .ok (state.buffer, state.truncated) ∧
      Shows output capacity
        (expansion strings (format.getD "(null panic message)".toList) args) state := by
  have start : Shows output capacity []
      { buffer := Function.update output 0 nul, capacity := capacity, length := 0,
        truncated := false } := by
    refine ⟨rfl, by simp, by simp, by simp, by simp, ?_⟩
    intro k beyond
    exact Function.update_of_ne (by omega) _ _
  unfold panicFormatMessage
  dsimp only
  generalize format.getD "(null panic message)".toList = format
  obtain ⟨state, done, shows⟩ := start.loop strings scratch positive
    (Nat.lt_succ_self format.length) args
  refine ⟨state, ?_, shows⟩
  rw [if_pos (by omega), PanicFormatBuffer.store, if_pos (by dsimp only; omega)]
  simp only [bind, Except.bind, done]
  rfl

end Shows

/-- **Panic messages are faithfully truncated.**  The call makes no access outside
the output or behind the format's NUL; the output holds the first characters of
the expansion, as many as fit before the NUL, and the flag says whether some did
not. -/
theorem panic_message_truncated (strings : UInt32 → List Char) (scratch output : Nat → Char)
    (capacity : Nat) (format : List Char) (args : VaList) (positive : 1 ≤ capacity) :
    ∃ buffer truncated,
      panicFormatMessage strings scratch output capacity (some format) args =
        .ok (buffer, truncated) ∧
      (List.range (min (expansion strings format args).length (capacity - 1))).map buffer =
        (expansion strings format args).take (capacity - 1) ∧
      buffer (min (expansion strings format args).length (capacity - 1)) = nul ∧
      (truncated = true ↔ capacity - 1 < (expansion strings format args).length) ∧
      ∀ k, capacity ≤ k → buffer k = output k := by
  obtain ⟨state, done, shows⟩ := panicFormatMessage_shows strings scratch output
    positive (some format) args
  rw [Option.getD_some] at shows
  refine ⟨state.buffer, state.truncated, done, ?_, ?_, shows.truncated, shows.outside⟩
  · rw [← shows.length]
    exact shows.chars
  · rw [← shows.length]
    exact shows.terminated

/-- `%x` into five bytes. -/
theorem panic_message_truncated_inNumber :
    ∃ buffer truncated, panicFormatMessage (fun _ => []) (fun _ => ' ') (fun _ => ' ') 5
      (some ['a', '%', 'x', '%']) ⟨fun _ => 0xBEEF, 0⟩ = .ok (buffer, truncated) := by
  obtain ⟨buffer, truncated, done, -⟩ := panic_message_truncated (fun _ => []) (fun _ => ' ')
    (fun _ => ' ') 5 ['a', '%', 'x', '%'] ⟨fun _ => 0xBEEF, 0⟩ (by decide)
  exact ⟨buffer, truncated, done⟩

end Dfos.Panic
