import Dfos.Lib.Word
import Mathlib.Logic.Function.Basic

/-!
# Formatted output

`libc/stdio/printf.c`.  A format is the list of its characters before the
terminating NUL, and a pointer into it is the rest of that list, or `none` one
past the NUL.  A `va_list` is a sequence of 32-bit words with a cursor; `strings`
gives the string at an address.  A local array is a function on indices with the
size it was declared with.

A call goes wrong when it reads the format past its NUL or writes a local array
past its end; what it has put into the sink by then is kept.
-/

namespace Dfos.Libc

open Dfos.Lib

def nul : Char := Char.ofNat 0

/-- `INT_MAX`. -/
def intMax : Nat := 2 ^ 31 - 1

/-- `EOF`. -/
def eof : Int := -1

/-- How a call goes wrong.  `unfinished` is a loop that has not ended within the
rounds it was given. -/
inductive Fault where
  | overread
  | overrun
  | unfinished
  deriving DecidableEq, Repr

/-! ## The sink -/

/-- `putchar` of the kernel's library, with the characters the console has been
given so far. -/
def putchar (console : List Char) (c : Char) : List Char × Int := (console ++ [c], c.toNat)

/-- `format_sink_t`, and the console it prints to when it has no buffer. -/
structure FormatSink where
  buffer : Option (Nat → Char)
  capacity : Nat
  length : Nat
  failed : Bool
  console : List Char

/-- `sink_putc`. -/
def sinkPutc (sink : FormatSink) (c : Char) : FormatSink :=
  match sink.buffer with
  | some buffer =>
      { sink with
        buffer := some (if sink.capacity ≠ 0 ∧ u32Add sink.length 1 < sink.capacity then
          Function.update buffer sink.length c else buffer)
        length := u32Add sink.length 1 }
  | none =>
      let (console, result) := putchar sink.console c
      { sink with
        failed := sink.failed || result = eof
        length := u32Add sink.length 1
        console := console }

/-- `sink_write`. -/
def sinkWrite (sink : FormatSink) (data : Nat → Char) : Nat → FormatSink
  | 0 => sink
  | length + 1 => sinkPutc (sinkWrite sink data length) (data length)

/-- The loops that write `padding` times one character. -/
def sinkPad (sink : FormatSink) (c : Char) : Nat → FormatSink
  | 0 => sink
  | padding + 1 => sinkPutc (sinkPad sink c padding) c

/-! ## Numbers -/

/-- `digits[d]`. -/
def digitChar (upper : Bool) (d : Nat) : Char :=
  (if upper then "0123456789ABCDEF" else "0123456789abcdef").toList.getD d nul

/-- The division loop of `uint_to_string`; `room` is what is left of the
buffer behind `index`. -/
def divideLoop (base : Nat) (upper : Bool) :
    Nat → Nat → (Nat → Char) → Nat → Except Fault ((Nat → Char) × Nat)
  | room, value, buffer, index =>
      if value = 0 then .ok (buffer, index)
      else
        match room with
        | 0 => .error .overrun
        | room + 1 => divideLoop base upper room (value / base)
            (Function.update buffer index (digitChar upper (value % base))) (index + 1)

/-- The loop of `uint_to_string` that turns the digits round, in at most
`rounds` rounds. -/
def swapLoop : Nat → (Nat → Char) → Nat → Nat → (Nat → Char)
  | 0, buffer, _, _ => buffer
  | rounds + 1, buffer, left, right =>
      if left < right then
        let tmp := buffer left
        swapLoop rounds (Function.update (Function.update buffer left (buffer right)) right tmp)
          (left + 1) (right - 1)
      else buffer

/-- `uint_to_string`, with the buffer after it. -/
def uintToString (value base : Nat) (upper : Bool) (buffer : Nat → Char) (bufferSize : Nat) :
    Except Fault ((Nat → Char) × Nat) :=
  if bufferSize = 0 then .ok (buffer, 0)
  else if value = 0 then .ok (Function.update buffer 0 '0', 1)
  else do
    let (buffer, index) ← divideLoop base upper bufferSize value buffer 0
    return (swapLoop index buffer 0 (if index = 0 then 0 else index - 1), index)

/-! ## Conversion specifications -/

/-- The locals that the flags and the width set. -/
structure FormatSpec where
  leftJustify : Bool
  zeroPad : Bool
  alternate : Bool
  signChar : Char
  width : Nat

def FormatSpec.init : FormatSpec where
  leftJustify := false
  zeroPad := false
  alternate := false
  signChar := nul
  width := 0

/-- The loop over the flags, with the pointer behind them. -/
def scanFlags : FormatSpec → List Char → FormatSpec × List Char
  | spec, [] => (spec, [])
  | spec, c :: rest =>
      if c = '-' then scanFlags { spec with leftJustify := true } rest
      else if c = '0' then scanFlags { spec with zeroPad := true } rest
      else if c = '#' then scanFlags { spec with alternate := true } rest
      else if c = '+' then scanFlags { spec with signChar := '+' } rest
      else if c = ' ' then
        scanFlags { spec with signChar := if spec.signChar = nul then ' ' else spec.signChar } rest
      else (spec, c :: rest)

/-- The loop over the width. -/
def scanWidth : Nat → List Char → Nat × List Char
  | width, [] => (width, [])
  | width, c :: rest =>
      if '0' ≤ c ∧ c ≤ '9' then
        scanWidth (u32Add (width * 10 % 2 ^ 32) (c.toNat - '0'.toNat)) rest
      else (width, c :: rest)

/-- `*format++` at a pointer that is not past the NUL. -/
def consume : List Char → Char × Option (List Char)
  | [] => (nul, none)
  | c :: rest => (c, some rest)

/-! ## Arguments -/

/-- `va_list`. -/
structure VaList where
  words : Nat → UInt32
  next : Nat

/-- `va_arg` of a word. -/
def vaArg (args : VaList) : UInt32 × VaList := (args.words args.next, { args with next := args.next + 1 })

/-! ## Conversions -/

/-- `prefix_buffer`, `text` and `length` after the switch. -/
structure Converted where
  prefixBuffer : List Char
  text : Nat → Char
  length : Nat

/-- `sizeof(number_buffer)`. -/
def numberBufferSize : Nat := 32

/-- A string as what a pointer to it reads. -/
def textOf (string : List Char) : Nat → Char := fun i => string.getD i nul

variable (strings : UInt32 → List Char)

/-- `int value = va_arg(parameters, int)`. -/
def intOf (word : UInt32) : Int := word.toBitVec.toInt

/-- The switch over the conversion; `none` is its default branch.  The digits go
through `number_buffer`, whatever it held before. -/
def convert (numberBuffer : Nat → Char) (spec : FormatSpec) (conversion : Char) (args : VaList) :
    Except Fault (Option (Converted × VaList)) :=
  let (word, rest) := vaArg args
  if conversion = 'c' then
    return some (⟨[], Function.update numberBuffer 0 (Char.ofNat (word.toNat % 256)), 1⟩, rest)
  else if conversion = 's' then
    let text := if word = 0 then "(null)".toList else strings word
    return some (⟨[], textOf text, text.length⟩, rest)
  else if conversion = 'd' ∨ conversion = 'i' then do
    let value := intOf word
    let (sign, magnitude) :=
      if value < 0 then (['-'], u32Add (-(value + 1)).toNat 1)
      else (if spec.signChar ≠ nul then [spec.signChar] else [], value.toNat)
    let (text, length) ← uintToString magnitude 10 false numberBuffer numberBufferSize
    return some (⟨sign, text, length⟩, rest)
  else if conversion = 'u' then do
    let (text, length) ← uintToString word.toNat 10 false numberBuffer numberBufferSize
    return some (⟨[], text, length⟩, rest)
  else if conversion = 'o' then do
    let (text, length) ← uintToString word.toNat 8 false numberBuffer numberBufferSize
    return some (⟨if spec.alternate ∧ text 0 ≠ '0' then ['0'] else [], text, length⟩, rest)
  else if conversion = 'x' ∨ conversion = 'X' then do
    let (text, length) ← uintToString word.toNat 16 (conversion = 'X') numberBuffer numberBufferSize
    return some (⟨if spec.alternate ∧ word.toNat ≠ 0 then ['0', conversion] else [], text, length⟩,
      rest)
  else if conversion = 'p' then do
    let (text, length) ← uintToString word.toNat 16 false numberBuffer numberBufferSize
    return some (⟨['0', 'x'], text, length⟩, rest)
  else return none

/-- What is written after the switch: padding, prefix and text. -/
def writeConverted (sink : FormatSink) (spec : FormatSpec) (converted : Converted) : FormatSink :=
  let totalLength := u32Add converted.prefixBuffer.length converted.length
  let padChar := if spec.zeroPad && !spec.leftJustify then '0' else ' '
  let padding := if spec.width > totalLength then spec.width - totalLength else 0
  let sink := if !spec.leftJustify && padChar = ' ' then sinkPad sink ' ' padding else sink
  let sink := sinkWrite sink (textOf converted.prefixBuffer) converted.prefixBuffer.length
  let sink := if !spec.leftJustify && padChar = '0' then sinkPad sink '0' padding else sink
  let sink := sinkWrite sink converted.text converted.length
  if spec.leftJustify then sinkPad sink ' ' padding else sink

/-! ## The formatter -/

/-- The terminator that ends a buffer. -/
def terminate (sink : FormatSink) : FormatSink :=
  match sink.buffer with
  | some buffer =>
      if sink.capacity ≠ 0 then
        let last := if sink.length < sink.capacity then sink.length else sink.capacity - 1
        { sink with buffer := some (Function.update buffer last nul) }
      else sink
  | none => sink

/-- The end of `format_string`. -/
def formatEnd (sink : FormatSink) : FormatSink × Except Fault Int :=
  let sink := terminate sink
  (sink, .ok (if sink.failed || sink.length > intMax then -1 else sink.length))

/-- The loop of `format_string`, with what the stack happens to hold in
`number_buffer`. -/
def formatLoop (numberBuffer : Nat → Char) :
    Nat → FormatSink → Option (List Char) → VaList → FormatSink × Except Fault Int
  | 0, sink, _, _ => (sink, .error .unfinished)
  | _ + 1, sink, none, _ => (sink, .error .overread)
  | _ + 1, sink, some [], _ => formatEnd sink
  | rounds + 1, sink, some (c :: format), args =>
      if c ≠ '%' then formatLoop numberBuffer rounds (sinkPutc sink c) (some format) args
      else if format.head? = some '%' then
        formatLoop numberBuffer rounds (sinkPutc sink '%') (some format.tail) args
      else
        let (spec, format) := scanFlags .init format
        let (width, format) := scanWidth spec.width format
        let spec := { spec with width := width }
        let (conversion, format) := consume format
        match convert strings numberBuffer spec conversion args with
        | .error fault => (sink, .error fault)
        | .ok none =>
            formatLoop numberBuffer rounds (sinkPutc (sinkPutc sink '%') conversion) format args
        | .ok (some (converted, args)) =>
            let sink := writeConverted sink spec converted
            if sink.failed then (sink, .ok (-1))
            else formatLoop numberBuffer rounds sink format args

/-- `format_string`; every round consumes a character. -/
def formatString (numberBuffer : Nat → Char) (sink : FormatSink) (format : List Char)
    (args : VaList) : FormatSink × Except Fault Int :=
  formatLoop strings numberBuffer (format.length + 1) sink (some format) args

/-- `vprintf`, with what the console has been given after it. -/
def vprintf (numberBuffer : Nat → Char) (console : List Char) (format : List Char)
    (args : VaList) : List Char × Except Fault Int :=
  let (sink, result) := formatString strings numberBuffer
    { buffer := none, capacity := 0, length := 0, failed := false, console := console } format args
  (sink.console, result)

/-- `vsnprintf` into a buffer that is there, with what the memory from the
buffer on holds after it. -/
def vsnprintf (numberBuffer : Nat → Char) (buffer : Nat → Char) (bufferSize : Nat)
    (format : List Char) (args : VaList) : (Nat → Char) × Except Fault Int :=
  let (sink, result) := formatString strings numberBuffer
    { buffer := some buffer, capacity := bufferSize, length := 0, failed := false, console := [] }
    format args
  (sink.buffer.getD buffer, result)

end Dfos.Libc
