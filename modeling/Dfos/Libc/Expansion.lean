import Dfos.Lib.Numeral
import Dfos.Libc.Printf
import Mathlib.Data.List.TakeWhile

/-!
# What a format expands to

A format is read as pieces: characters that stand for themselves, `%%`, and
conversions.  `expand` is the text that the pieces stand for, which does not
depend on the sink.  `formatString_complete` says that the formatter puts exactly
that text into its sink; `formatString_unfinished` says what it does with a
conversion that the end of the format cuts off.
-/

namespace Dfos.Libc

open Dfos.Lib

/-! ## Characters put into a sink -/

/-- A text put into a sink, character by character. -/
def FormatSink.put (sink : FormatSink) (text : List Char) : FormatSink := text.foldl sinkPutc sink

namespace FormatSink

variable {sink : FormatSink} {text : List Char}

@[simp] theorem put_nil : sink.put [] = sink := rfl

@[simp] theorem put_cons {c : Char} : sink.put (c :: text) = (sinkPutc sink c).put text := rfl

theorem put_append {more : List Char} : sink.put (text ++ more) = (sink.put text).put more :=
  List.foldl_append

theorem sinkWrite_eq (data : Nat → Char) (length : Nat) :
    sinkWrite sink data length = sink.put ((List.range length).map data) := by
  induction length with
  | zero => rfl
  | succ length ih =>
    rw [sinkWrite, ih, List.range_succ, List.map_append, put_append]
    rfl

theorem sinkPad_eq (c : Char) (padding : Nat) :
    sinkPad sink c padding = sink.put (List.replicate padding c) := by
  induction padding with
  | zero => rfl
  | succ padding ih =>
    rw [sinkPad, ih, List.replicate_succ', put_append]
    rfl

/-- The kernel's `putchar` does not return `EOF`. -/
theorem failed_sinkPutc (c : Char) : (sinkPutc sink c).failed = sink.failed := by
  have positive : ((c.toNat : Int) = eof) = False := by
    rw [eof, eq_iff_iff, iff_false]
    omega
  unfold sinkPutc
  cases sink.buffer with
  | some buffer => rfl
  | none => simp only [putchar, positive, decide_false, Bool.or_false]

@[simp] theorem failed_put : (sink.put text).failed = sink.failed := by
  induction text generalizing sink with
  | nil => rfl
  | cons c text ih => rw [put_cons, ih, failed_sinkPutc]

end FormatSink

/-! ## Numbers -/

/-- What the division loop writes: the digits from the last to the first, behind
what is there. -/
theorem divideLoop_ok {base : Nat} (two : 2 ≤ base) (upper : Bool) {room value : Nat}
    (fits : (Nat.digits base value).length ≤ room) (buffer : Nat → Char) (index : Nat) :
    ∃ buffer', divideLoop base upper room value buffer index =
        .ok (buffer', index + (Nat.digits base value).length) ∧
      (∀ j < index, buffer' j = buffer j) ∧
      ∀ j (hj : j < (Nat.digits base value).length),
        buffer' (index + j) = digitChar upper (Nat.digits base value)[j] := by
  induction room generalizing value buffer index with
  | zero =>
    have zero : value = 0 := Nat.digits_eq_nil_iff_eq_zero.mp
      (List.length_eq_zero_iff.mp (Nat.le_zero.mp fits))
    subst zero
    refine ⟨buffer, ?_, fun _ _ => rfl, fun j hj => ?_⟩
    · rw [divideLoop, if_pos rfl, Nat.digits_zero]
      rfl
    · simp at hj
  | succ room ih =>
    by_cases zero : value = 0
    · subst zero
      refine ⟨buffer, ?_, fun _ _ => rfl, fun j hj => ?_⟩
      · rw [divideLoop, if_pos rfl, Nat.digits_zero]
        rfl
      · simp at hj
    · have digits := Nat.digits_def' (b := base) (by omega) (Nat.pos_of_ne_zero zero)
      rw [digits, List.length_cons] at fits
      obtain ⟨buffer', done, before, after⟩ := ih (Nat.le_of_succ_le_succ fits)
        (Function.update buffer index (digitChar upper (value % base))) (index + 1)
      refine ⟨buffer', ?_, ?_, ?_⟩
      · rw [divideLoop, if_neg zero, digits, List.length_cons, done]
        congr 2
        omega
      · intro j hj
        rw [before j (by omega), Function.update_of_ne (by omega)]
      · intro j hj
        simp only [digits] at hj ⊢
        cases j with
        | zero =>
          rw [Nat.add_zero, before index (by omega), Function.update_self]
          rfl
        | succ j =>
          rw [List.length_cons] at hj
          have := after j (by omega)
          rw [show index + (j + 1) = index + 1 + j by omega, this]
          rfl

/-- The swaps turn the part between the two indices round. -/
theorem swapLoop_eq {rounds : Nat} (buffer : Nat → Char) {left right : Nat}
    (enough : right ≤ left + 2 * rounds) (j : Nat) :
    swapLoop rounds buffer left right j =
      if left ≤ j ∧ j ≤ right then buffer (left + right - j) else buffer j := by
  induction rounds generalizing buffer left right with
  | zero =>
    rw [swapLoop]
    split
    · congr 1
      omega
    · rfl
  | succ rounds ih =>
    rw [swapLoop]
    split
    · rename_i crossing
      rw [ih _ (by omega)]
      by_cases first : j = left
      · subst first
        rw [if_neg (by omega), Function.update_of_ne (by omega), Function.update_self,
          if_pos ⟨le_refl _, by omega⟩]
        congr 1
        omega
      by_cases last : j = right
      · subst last
        rw [if_neg (by omega), Function.update_self, if_pos ⟨by omega, le_refl _⟩]
        congr 1
        omega
      by_cases inside : left ≤ j ∧ j ≤ right
      · rw [if_pos (by omega), if_pos inside, Function.update_of_ne (by omega),
          Function.update_of_ne (by omega)]
        congr 1
        omega
      · rw [if_neg (by omega), if_neg inside, Function.update_of_ne (by omega),
          Function.update_of_ne (by omega)]
    · split
      · congr 1
        omega
      · rfl

/-- **`uint_to_string` writes the numeral.**  A 32-bit value in one of the bases
of the formatter has at most eleven digits. -/
theorem uintToString_ok {value base : Nat} (upper : Bool) (buffer : Nat → Char)
    (eight : 8 ≤ base) (small : value < 2 ^ 32) :
    ∃ buffer', uintToString value base upper buffer numberBufferSize =
        .ok (buffer', (numeral (digitChar upper) base value).length) ∧
      (List.range (numeral (digitChar upper) base value).length).map buffer' =
        numeral (digitChar upper) base value := by
  have zeroDigit : digitChar upper 0 = '0' := by cases upper <;> decide
  rw [uintToString, if_neg (by decide)]
  by_cases zero : value = 0
  · subst zero
    rw [if_pos rfl, numeral_zero, zeroDigit]
    exact ⟨_, rfl, by simp⟩
  · have few : (Nat.digits base value).length ≤ numberBufferSize := by
      refine (Nat.digits_length_le_iff (by omega) value).mpr (small.trans_le ?_)
      calc 2 ^ 32 ≤ 8 ^ 32 := Nat.pow_le_pow_left (by omega) _
        _ ≤ base ^ 32 := Nat.pow_le_pow_left eight _
    obtain ⟨buffer', done, -, digits⟩ := divideLoop_ok (by omega) upper few buffer 0
    have some : (Nat.digits base value).length ≠ 0 := by
      rw [ne_eq, List.length_eq_zero_iff]
      exact Nat.digits_ne_nil_iff_ne_zero.mpr zero
    rw [if_neg zero, done, numeral_pos zero, Nat.zero_add, List.length_map, List.length_reverse]
    generalize count : (Nat.digits base value).length = n at few done some
    refine ⟨swapLoop n buffer' 0 (if n = 0 then 0 else n - 1), rfl, ?_⟩
    refine List.ext_getElem ?_ fun j hj hj' => ?_
    · rw [List.length_map, List.length_range, List.length_map, List.length_reverse, count]
    · rw [List.length_map, List.length_range] at hj
      rw [List.getElem_map, List.getElem_range, List.getElem_map, List.getElem_reverse,
        if_neg some, swapLoop_eq _ (by omega), if_pos (by omega)]
      have turned := digits ((Nat.digits base value).length - 1 - j) (by omega)
      rw [← turned]
      congr 1
      omega

/-! ## Conversion specifications -/

def IsFlag (c : Char) : Prop := c = '-' ∨ c = '0' ∨ c = '#' ∨ c = '+' ∨ c = ' '

instance (c : Char) : Decidable (IsFlag c) := inferInstanceAs (Decidable (_ ∨ _))

def IsDigit (c : Char) : Prop := '0' ≤ c ∧ c ≤ '9'

instance (c : Char) : Decidable (IsDigit c) := inferInstanceAs (Decidable (_ ∧ _))

/-- The flags and the width of a conversion.  A width starts with another digit
than zero, which is a flag. -/
structure Directive where
  flags : List Char
  width : List Char
  flags_only : ∀ c ∈ flags, IsFlag c
  digits_only : ∀ c ∈ width, IsDigit c
  first : width.head? ≠ some '0'

/-- The value of a decimal digit. -/
def decimalValue (c : Char) : Nat := c.toNat - '0'.toNat

/-- What a directive asks for. -/
def Directive.spec (d : Directive) : FormatSpec where
  leftJustify := '-' ∈ d.flags
  zeroPad := '0' ∈ d.flags
  alternate := '#' ∈ d.flags
  signChar := if '+' ∈ d.flags then '+' else if ' ' ∈ d.flags then ' ' else nul
  width := readNumeral decimalValue 10 d.width % 2 ^ 32

theorem scanFlags_append {flags rest : List Char} (only : ∀ c ∈ flags, IsFlag c)
    (stop : ∀ c ∈ rest.head?, ¬ IsFlag c) (spec : FormatSpec) :
    scanFlags spec (flags ++ rest) =
      ({ leftJustify := spec.leftJustify || decide ('-' ∈ flags)
         zeroPad := spec.zeroPad || decide ('0' ∈ flags)
         alternate := spec.alternate || decide ('#' ∈ flags)
         signChar := if '+' ∈ flags then '+'
           else if spec.signChar = nul then (if ' ' ∈ flags then ' ' else nul)
           else spec.signChar
         width := spec.width }, rest) := by
  induction flags generalizing spec with
  | nil =>
    have unchanged : scanFlags spec rest = (spec, rest) := by
      cases rest with
      | nil => rfl
      | cons c rest =>
        have := stop c rfl
        simp only [IsFlag, not_or] at this
        simp only [scanFlags, this, if_false]
    rw [List.nil_append, unchanged]
    cases spec with
    | mk leftJustify zeroPad alternate signChar width =>
      by_cases unset : signChar = nul <;> simp [unset]
  | cons c flags ih =>
    have next := ih fun d hd => only d (List.mem_cons_of_mem _ hd)
    have plus : '+' ≠ nul := by decide
    have blank : ' ' ≠ nul := by decide
    rcases only c List.mem_cons_self with rfl | rfl | rfl | rfl | rfl
    · simp [scanFlags, next]
    · simp [scanFlags, next]
    · simp [scanFlags, next]
    · simp [scanFlags, next, plus]
    · by_cases unset : spec.signChar = nul <;> simp [scanFlags, next, unset, blank]

theorem foldl_width (width : List Char) (n : Nat) :
    width.foldl (fun w c => u32Add (w * 10 % 2 ^ 32) (decimalValue c)) (n % 2 ^ 32) =
      width.foldl (fun n c => n * 10 + decimalValue c) n % 2 ^ 32 := by
  induction width generalizing n with
  | nil => rfl
  | cons c width ih =>
    have step : u32Add (n % 2 ^ 32 * 10 % 2 ^ 32) (decimalValue c) =
        (n * 10 + decimalValue c) % 2 ^ 32 := by
      unfold u32Add
      omega
    rw [List.foldl_cons, List.foldl_cons, step, ih]

theorem scanWidth_append {width rest : List Char} (only : ∀ c ∈ width, IsDigit c)
    (stop : ∀ c ∈ rest.head?, ¬ IsDigit c) (n : Nat) :
    scanWidth n (width ++ rest) =
      (width.foldl (fun w c => u32Add (w * 10 % 2 ^ 32) (decimalValue c)) n, rest) := by
  induction width generalizing n with
  | nil =>
    cases rest with
    | nil => rfl
    | cons c rest =>
      have other : ¬ ('0' ≤ c ∧ c ≤ '9') := stop c rfl
      rw [List.nil_append, scanWidth, if_neg other]
      rfl
  | cons c width ih =>
    have digit : '0' ≤ c ∧ c ≤ '9' := only c List.mem_cons_self
    rw [List.cons_append, scanWidth, if_pos digit, ih fun d hd => only d (List.mem_cons_of_mem _ hd)]
    rfl

/-- Neither a flag nor a digit follows, so the loops stop behind the directive. -/
def Directive.StopsAt (d : Directive) (rest : List Char) : Prop :=
  ∀ c ∈ rest.head?, ¬ IsDigit c ∧ (d.width = [] → ¬ IsFlag c)

/-- **The scanning loops read a directive.** -/
theorem Directive.scan (d : Directive) {rest : List Char} (stop : d.StopsAt rest) :
    ∃ spec, scanFlags .init (d.flags ++ d.width ++ rest) = (spec, d.width ++ rest) ∧
      ∃ width, scanWidth spec.width (d.width ++ rest) = (width, rest) ∧
        { spec with width := width } = d.spec := by
  have flagsStop : ∀ c ∈ (d.width ++ rest).head?, ¬ IsFlag c := by
    intro c hc
    cases width : d.width with
    | nil =>
      rw [width, List.nil_append] at hc
      exact (stop c hc).2 width
    | cons w more =>
      rw [width, List.cons_append, List.head?_cons, Option.mem_some_iff] at hc
      subst hc
      have digit := d.digits_only w (width ▸ List.mem_cons_self)
      have first := d.first
      rw [width, List.head?_cons, ne_eq, Option.some.injEq] at first
      rintro (rfl | rfl | rfl | rfl | rfl)
      · revert digit; decide
      · exact first rfl
      · revert digit; decide
      · revert digit; decide
      · revert digit; decide
  refine ⟨_, (by rw [List.append_assoc, scanFlags_append d.flags_only flagsStop]), _,
    scanWidth_append d.digits_only (fun c hc => (stop c hc).1) _, ?_⟩
  have value := foldl_width d.width 0
  rw [Nat.zero_mod] at value
  simp only [FormatSpec.init, Directive.spec, Bool.false_or, if_true, value, readNumeral]

/-- The directive is not a second `%`. -/
theorem Directive.head_ne (d : Directive) {rest : List Char}
    (other : d.flags = [] → d.width = [] → rest.head? ≠ some '%') :
    (d.flags ++ d.width ++ rest).head? ≠ some '%' := by
  cases flags : d.flags with
  | cons c more =>
    have flag := d.flags_only c (flags ▸ List.mem_cons_self)
    rw [List.cons_append, List.cons_append, List.head?_cons]
    rintro ⟨⟩
    revert flag
    decide
  | nil =>
    cases width : d.width with
    | cons c more =>
      have digit := d.digits_only c (width ▸ List.mem_cons_self)
      rw [List.nil_append, List.cons_append, List.head?_cons]
      rintro ⟨⟩
      revert digit
      decide
    | nil => exact other flags width

/-! ## Conversions -/

section Conversions

variable (strings : UInt32 → List Char)

/-- What a conversion stands for: what goes in front of any zeros, the text, and
the arguments that are left. -/
def conversionText (spec : FormatSpec) (conversion : Char) (args : VaList) :
    Option (List Char × List Char × VaList) :=
  let (word, rest) := vaArg args
  if conversion = 'c' then some ([], [Char.ofNat (word.toNat % 256)], rest)
  else if conversion = 's' then
    some ([], if word = 0 then "(null)".toList else strings word, rest)
  else if conversion = 'd' ∨ conversion = 'i' then
    some (if intOf word < 0 then ['-'] else if spec.signChar ≠ nul then [spec.signChar] else [],
      numeral (digitChar false) 10 (intOf word).natAbs, rest)
  else if conversion = 'u' then some ([], numeral (digitChar false) 10 word.toNat, rest)
  else if conversion = 'o' then
    some (if spec.alternate ∧ word.toNat ≠ 0 then ['0'] else [],
      numeral (digitChar false) 8 word.toNat, rest)
  else if conversion = 'x' ∨ conversion = 'X' then
    some (if spec.alternate ∧ word.toNat ≠ 0 then ['0', conversion] else [],
      numeral (digitChar (conversion = 'X')) 16 word.toNat, rest)
  else if conversion = 'p' then
    some (['0', 'x'], numeral (digitChar false) 16 word.toNat, rest)
  else none

theorem conversionText_nul (spec : FormatSpec) (args : VaList) :
    conversionText strings spec nul args = none := by
  simp [conversionText, nul]

/-- The padded text. -/
def layout (spec : FormatSpec) (lead body : List Char) : List Char :=
  let padding := spec.width - u32Add lead.length body.length
  if spec.leftJustify then lead ++ body ++ List.replicate padding ' '
  else if spec.zeroPad then lead ++ List.replicate padding '0' ++ body
  else List.replicate padding ' ' ++ lead ++ body

/-- The digits of a hexadecimal numeral. -/
def hexValue (c : Char) : Nat :=
  if c ≤ '9' then c.toNat - '0'.toNat
  else if c ≤ 'F' then c.toNat - 'A'.toNat + 10
  else c.toNat - 'a'.toNat + 10

theorem hexValue_digitChar (upper : Bool) : ∀ d < 16, hexValue (digitChar upper d) = d := by
  cases upper <;> decide

theorem digitChar_zero (upper : Bool) : digitChar upper 0 = '0' := by
  cases upper <;> decide

theorem range_map_textOf (string : List Char) :
    (List.range string.length).map (textOf string) = string := by
  refine List.ext_getElem (by rw [List.length_map, List.length_range]) fun j hj hj' => ?_
  rw [List.getElem_map, List.getElem_range, textOf, List.getD_eq_getElem _ _ hj']

/-- A numeral starts with a zero only if it is zero. -/
theorem first_digit_iff {upper : Bool} {base value : Nat} (two : 2 ≤ base) (hex : base ≤ 16)
    {data : Nat → Char} (reads : (List.range (numeral (digitChar upper) base value).length).map data =
      numeral (digitChar upper) base value) : data 0 = '0' ↔ value = 0 := by
  have head : (numeral (digitChar upper) base value).head? = some (data 0) := by
    have some : (numeral (digitChar upper) base value).length ≠ 0 := by
      rw [ne_eq, List.length_eq_zero_iff]
      exact numeral_ne_nil
    obtain ⟨n, count⟩ := Nat.exists_eq_succ_of_ne_zero some
    rw [← reads, count, List.range_succ_eq_map, List.map_cons, List.head?_cons]
  constructor
  · intro zero
    by_contra pos
    refine head_numeral_ne two (fun d hd => hexValue_digitChar upper d (by omega)) pos ?_
    rw [head, zero, digitChar_zero]
  · rintro rfl
    rw [numeral_zero, digitChar_zero, List.head?_cons, Option.some.injEq] at head
    exact head.symm

/-- How the switch of `format_string` ends. -/
inductive ConvertOutcome (text : Option (List Char × List Char × VaList)) :
    Except Fault (Option (Converted × VaList)) → Prop
  | unsupported (missing : text = none) : ConvertOutcome text (.ok none)
  | supported {lead body : List Char} {rest : VaList} {data : Nat → Char}
    (found : text = some (lead, body, rest)) (reads : (List.range body.length).map data = body) :
    ConvertOutcome text (.ok (some (⟨lead, data, body.length⟩, rest)))

/-- A numeral through `number_buffer`. -/
theorem uintToString_outcome {value base : Nat} (upper : Bool) (buffer : Nat → Char)
    (eight : 8 ≤ base) (small : value < 2 ^ 32) (lead : (Nat → Char) → List Char) (rest : VaList)
    {text : Option (List Char × List Char × VaList)}
    (found : ∀ data, (List.range (numeral (digitChar upper) base value).length).map data =
        numeral (digitChar upper) base value →
      text = some (lead data, numeral (digitChar upper) base value, rest)) :
    ConvertOutcome text (do
      let (text, length) ← uintToString value base upper buffer numberBufferSize
      return some (⟨lead text, text, length⟩, rest)) := by
  obtain ⟨data, written, reads⟩ := uintToString_ok upper buffer eight small
  rw [written]
  exact .supported (found data reads) reads

theorem intOf_bounds (word : UInt32) : -2 ^ 31 ≤ intOf word ∧ intOf word < 2 ^ 31 := by
  have low := BitVec.le_toInt word.toBitVec
  have high := BitVec.toInt_lt (x := word.toBitVec)
  simp only [intOf]
  omega

theorem convert_outcome (numberBuffer : Nat → Char) (spec : FormatSpec) (conversion : Char)
    (args : VaList) :
    ConvertOutcome (conversionText strings spec conversion args)
      (convert strings numberBuffer spec conversion args) := by
  unfold convert conversionText
  generalize vaArg args = taken
  obtain ⟨word, rest⟩ := taken
  have small : word.toNat < 2 ^ 32 := word.toNat_lt
  dsimp only
  by_cases isC : conversion = 'c'
  · rw [if_pos isC, if_pos isC]
    exact .supported rfl (by simp)
  rw [if_neg isC, if_neg isC]
  by_cases isS : conversion = 's'
  · rw [if_pos isS, if_pos isS]
    exact .supported rfl (range_map_textOf _)
  rw [if_neg isS, if_neg isS]
  by_cases isD : conversion = 'd' ∨ conversion = 'i'
  · rw [if_pos isD, if_pos isD]
    have bounds := intOf_bounds word
    by_cases negative : intOf word < 0
    · have magnitude : u32Add (-(intOf word + 1)).toNat 1 = (intOf word).natAbs := by
        unfold u32Add
        omega
      rw [if_pos negative, if_pos negative]
      dsimp only
      rw [magnitude]
      exact uintToString_outcome false numberBuffer (by omega) (by omega) (fun _ => ['-']) rest
        fun _ _ => rfl
    · have magnitude : (intOf word).toNat = (intOf word).natAbs := by omega
      rw [if_neg negative, if_neg negative]
      dsimp only
      rw [magnitude]
      exact uintToString_outcome false numberBuffer (by omega) (by omega)
        (fun _ => if spec.signChar ≠ nul then [spec.signChar] else []) rest fun _ _ => rfl
  rw [if_neg isD, if_neg isD]
  by_cases isU : conversion = 'u'
  · rw [if_pos isU, if_pos isU]
    exact uintToString_outcome false numberBuffer (by omega) small (fun _ => []) rest fun _ _ => rfl
  rw [if_neg isU, if_neg isU]
  by_cases isO : conversion = 'o'
  · rw [if_pos isO, if_pos isO]
    refine uintToString_outcome false numberBuffer (by omega) small
      (fun text => if spec.alternate ∧ text 0 ≠ '0' then ['0'] else []) rest fun data reads => ?_
    -- the numeral starts with a zero only if the value is zero
    have first : data 0 ≠ '0' ↔ word.toNat ≠ 0 :=
      not_congr (first_digit_iff (by omega) (by omega) reads)
    simp only [first]
  rw [if_neg isO, if_neg isO]
  by_cases isX : conversion = 'x' ∨ conversion = 'X'
  · rw [if_pos isX, if_pos isX]
    exact uintToString_outcome _ numberBuffer (by omega) small
      (fun _ => if spec.alternate ∧ word.toNat ≠ 0 then ['0', conversion] else []) rest
      fun _ _ => rfl
  rw [if_neg isX, if_neg isX]
  by_cases isP : conversion = 'p'
  · rw [if_pos isP, if_pos isP]
    exact uintToString_outcome false numberBuffer (by omega) small (fun _ => ['0', 'x']) rest
      fun _ _ => rfl
  rw [if_neg isP, if_neg isP]
  exact .unsupported rfl

theorem writeConverted_eq {sink : FormatSink} (spec : FormatSpec) {lead body : List Char}
    {data : Nat → Char} (reads : (List.range body.length).map data = body) :
    writeConverted sink spec ⟨lead, data, body.length⟩ = sink.put (layout spec lead body) := by
  have padding : (if spec.width > u32Add lead.length body.length then
      spec.width - u32Add lead.length body.length else 0) =
        spec.width - u32Add lead.length body.length := by
    split <;> omega
  unfold writeConverted layout
  simp only [padding, FormatSink.sinkWrite_eq, FormatSink.sinkPad_eq, range_map_textOf, reads]
  cases left : spec.leftJustify <;> cases zero : spec.zeroPad <;>
    simp [FormatSink.put_append]

/-- A piece of a format. -/
inductive Piece where
  | literal (c : Char) (plain : c ≠ '%')
  | percent
  | conversion (directive : Directive) (c : Char) (stops : directive.StopsAt [c])
    (other : directive.flags = [] → directive.width = [] → c ≠ '%')

/-- The characters of a piece. -/
def Piece.chars : Piece → List Char
  | .literal c _ => [c]
  | .percent => ['%', '%']
  | .conversion d c _ _ => '%' :: (d.flags ++ d.width ++ [c])

/-- The format that the pieces spell. -/
def spell (pieces : List Piece) : List Char := pieces.flatMap Piece.chars

theorem spell_cons (piece : Piece) (pieces : List Piece) :
    spell (piece :: pieces) = piece.chars ++ spell pieces := List.flatMap_cons

/-- What a piece stands for, and the arguments that are left. -/
def Piece.expand (args : VaList) : Piece → List Char × VaList
  | .literal c _ => ([c], args)
  | .percent => (['%'], args)
  | .conversion d c _ _ =>
      match conversionText strings d.spec c args with
      | none => (['%', c], args)
      | some (lead, body, rest) => (layout d.spec lead body, rest)

/-- What the pieces stand for. -/
def expand : List Piece → VaList → List Char × VaList
  | [], args => ([], args)
  | piece :: pieces, args =>
      let (text, rest) := piece.expand strings args
      let (more, rest) := expand pieces rest
      (text ++ more, rest)

/-- One round of the loop on a piece. -/
theorem formatLoop_piece (numberBuffer : Nat → Char) {sink : FormatSink}
    (fine : sink.failed = false) (piece : Piece) (format : List Char) (args : VaList)
    (rounds : Nat) :
    formatLoop strings numberBuffer (rounds + 1) sink (some (piece.chars ++ format)) args =
      formatLoop strings numberBuffer rounds (sink.put (piece.expand strings args).1) (some format)
        (piece.expand strings args).2 := by
  cases piece with
  | literal c plain =>
    rw [Piece.chars, List.singleton_append, formatLoop, if_pos plain]
    rfl
  | percent =>
    rw [Piece.chars, List.cons_append, List.singleton_append, formatLoop, if_neg (by simp),
      if_pos List.head?_cons]
    rfl
  | conversion d c stops other =>
    have stop : d.StopsAt (c :: format) := stops
    obtain ⟨spec, flags, width, digits, whole⟩ := d.scan stop
    have noPercent : (d.flags ++ d.width ++ c :: format).head? ≠ some '%' :=
      d.head_ne fun noFlags noWidth same => other noFlags noWidth (Option.some.inj same)
    rw [Piece.chars, List.cons_append, List.append_assoc, List.singleton_append, formatLoop,
      if_neg (by simp), if_neg noPercent]
    simp only [flags, digits, whole, consume, Piece.expand]
    have outcome := convert_outcome strings numberBuffer d.spec c args
    generalize converted : convert strings numberBuffer d.spec c args = result at outcome
    cases outcome with
    | unsupported missing => rw [missing]; rfl
    | supported found reads =>
      rw [found]
      simp only [writeConverted_eq d.spec reads, FormatSink.failed_put, fine, if_false,
        Bool.false_eq_true]

/-- **The loop on pieces** puts what they stand for into the sink, one round for
each. -/
theorem formatLoop_pieces (numberBuffer : Nat → Char) {sink : FormatSink}
    (fine : sink.failed = false) (pieces : List Piece) (format : List Char) (args : VaList)
    (rounds : Nat) :
    formatLoop strings numberBuffer (rounds + pieces.length) sink (some (spell pieces ++ format))
        args =
      formatLoop strings numberBuffer rounds (sink.put (expand strings pieces args).1) (some format)
        (expand strings pieces args).2 := by
  induction pieces generalizing sink args with
  | nil => rfl
  | cons piece pieces ih =>
    have here := formatLoop_piece strings numberBuffer fine piece (spell pieces ++ format) args
      (rounds + pieces.length)
    rw [spell_cons, List.append_assoc, List.length_cons, ← Nat.add_assoc,
      here, ih (by rw [FormatSink.failed_put, fine])]
    simp only [expand, FormatSink.put_append]

theorem Piece.length_chars_pos (piece : Piece) : 0 < piece.chars.length := by
  cases piece <;> simp [Piece.chars]

theorem length_le_spell (pieces : List Piece) : pieces.length ≤ (spell pieces).length := by
  induction pieces with
  | nil => exact Nat.le_refl _
  | cons piece pieces ih =>
    have some := piece.length_chars_pos
    rw [spell_cons, List.length_append, List.length_cons]
    omega

/-- **A complete format** is expanded into the sink, and the call ends at its
NUL. -/
theorem formatString_complete (numberBuffer : Nat → Char) {sink : FormatSink}
    (fine : sink.failed = false) (pieces : List Piece) (args : VaList) :
    formatString strings numberBuffer sink (spell pieces) args =
      formatEnd (sink.put (expand strings pieces args).1) := by
  have enough := length_le_spell pieces
  have rounds : (spell pieces).length + 1 =
      (spell pieces).length - pieces.length + 1 + pieces.length := by omega
  have loop := formatLoop_pieces strings numberBuffer fine pieces [] args
    ((spell pieces).length - pieces.length + 1)
  rw [List.append_nil] at loop
  rw [formatString, rounds, loop]
  rfl

/-- **A format cut off in a conversion.**  The NUL is taken for the conversion
and put into the sink, and the next round reads past it. -/
theorem formatString_unfinished (numberBuffer : Nat → Char) {sink : FormatSink}
    (fine : sink.failed = false) (pieces : List Piece) (d : Directive) (args : VaList) :
    formatString strings numberBuffer sink (spell pieces ++ '%' :: (d.flags ++ d.width)) args =
      (sink.put ((expand strings pieces args).1 ++ ['%', nul]), .error .overread) := by
  have enough := length_le_spell pieces
  have rounds : (spell pieces ++ '%' :: (d.flags ++ d.width)).length + 1 =
      (spell pieces).length - pieces.length + (d.flags ++ d.width).length + 2 + pieces.length := by
    rw [List.length_append, List.length_cons]
    omega
  rw [formatString, rounds, formatLoop_pieces strings numberBuffer fine]
  have stop : d.StopsAt [] := nofun
  obtain ⟨spec, flags, width, digits, whole⟩ := d.scan stop
  have noPercent : (d.flags ++ d.width ++ []).head? ≠ some '%' := d.head_ne fun _ _ => nofun
  have unsupported : convert strings numberBuffer d.spec nul (expand strings pieces args).2 =
      .ok none := by
    have outcome := convert_outcome strings numberBuffer d.spec nul (expand strings pieces args).2
    rw [conversionText_nul] at outcome
    generalize convert strings numberBuffer d.spec nul (expand strings pieces args).2 = result
      at outcome
    cases outcome with
    | unsupported => rfl
    | supported found => cases found
  rw [List.append_nil] at flags noPercent
  rw [List.append_nil] at flags digits
  rw [formatLoop, if_neg (by simp), if_neg noPercent]
  simp only [flags, digits, whole, consume, unsupported, formatLoop, FormatSink.put_append]
  rfl

end Conversions

/-! ## Every format -/

/-- Every `%` of the format starts a conversion that ends before the NUL. -/
def Complete (format : List Char) : Prop := ∃ pieces, format = spell pieces

/-- The format ends in a `%` with flags and a width but no conversion. -/
def Unfinished (format : List Char) : Prop :=
  ∃ pieces, ∃ d : Directive, format = spell pieces ++ '%' :: (d.flags ++ d.width)

/-- The longest front part of a text with a property. -/
theorem exists_span (p : Char → Prop) [DecidablePred p] (text : List Char) :
    ∃ front back, text = front ++ back ∧ (∀ c ∈ front, p c) ∧ ∀ c ∈ back.head?, ¬ p c := by
  refine ⟨text.takeWhile p, text.dropWhile p, List.takeWhile_append_dropWhile.symm, ?_, ?_⟩
  · intro c hc
    simpa using List.mem_takeWhile_imp hc
  · intro c hc
    rw [← List.find?_not_eq_head?_dropWhile] at hc
    simpa using List.find?_some hc

/-- The directive at the start of a text, up to where the scanning loops stop. -/
theorem exists_directive (text : List Char) :
    ∃ d : Directive, ∃ rest, text = d.flags ++ d.width ++ rest ∧ d.StopsAt rest := by
  obtain ⟨flags, afterFlags, rfl, flags_only, flagStop⟩ := exists_span IsFlag text
  obtain ⟨width, rest, rfl, digits_only, digitStop⟩ := exists_span IsDigit afterFlags
  have first : width.head? ≠ some '0' := by
    -- a leading zero would have been taken for a flag
    intro zero
    refine flagStop '0' ?_ (by decide)
    rw [List.head?_append, zero, Option.some_or, Option.mem_some_iff]
  refine ⟨⟨flags, width, flags_only, digits_only, first⟩, rest, by rw [List.append_assoc],
    fun c hc => ⟨digitStop c hc, fun empty => flagStop c ?_⟩⟩
  rw [show width = [] from empty, List.nil_append]
  exact hc

theorem Complete.cons (piece : Piece) {format : List Char} (complete : Complete format) :
    Complete (piece.chars ++ format) := by
  obtain ⟨pieces, rfl⟩ := complete
  exact ⟨piece :: pieces, rfl⟩

theorem Unfinished.cons (piece : Piece) {format : List Char} (unfinished : Unfinished format) :
    Unfinished (piece.chars ++ format) := by
  obtain ⟨pieces, d, rfl⟩ := unfinished
  refine ⟨piece :: pieces, d, ?_⟩
  rw [spell_cons, List.append_assoc]

/-- A format starts with a piece, is cut off in a conversion, or is empty. -/
theorem format_cases (format : List Char) :
    format = [] ∨ (∃ d : Directive, format = '%' :: (d.flags ++ d.width)) ∨
      ∃ piece : Piece, ∃ rest, format = piece.chars ++ rest := by
  cases format with
  | nil => exact Or.inl rfl
  | cons c format =>
    by_cases plain : c = '%'
    · subst plain
      obtain ⟨d, rest, rfl, stops⟩ := exists_directive format
      cases rest with
      | nil =>
        refine Or.inr (Or.inl ⟨d, ?_⟩)
        rw [List.append_nil]
      | cons c rest =>
        refine Or.inr (Or.inr ?_)
        by_cases second : d.flags = [] ∧ d.width = [] ∧ c = '%'
        · obtain ⟨noFlags, noWidth, rfl⟩ := second
          refine ⟨.percent, rest, ?_⟩
          rw [noFlags, noWidth]
          rfl
        · have other : d.flags = [] → d.width = [] → c ≠ '%' := fun noFlags noWidth same =>
            second ⟨noFlags, noWidth, same⟩
          have alone : d.StopsAt [c] := stops
          refine ⟨.conversion d c alone other, rest, ?_⟩
          simp only [Piece.chars, List.cons_append, List.append_assoc, List.nil_append]
    · exact Or.inr (Or.inr ⟨.literal c plain, format, rfl⟩)

theorem complete_or_unfinished (format : List Char) : Complete format ∨ Unfinished format := by
  induction size : format.length using Nat.strong_induction_on generalizing format with
  | _ n ih =>
    rcases format_cases format with rfl | ⟨d, rfl⟩ | ⟨piece, rest, rfl⟩
    · exact Or.inl ⟨[], rfl⟩
    · exact Or.inr ⟨[], d, rfl⟩
    · have some := piece.length_chars_pos
      rw [List.length_append] at size
      rcases ih rest.length (by omega) rest rfl with complete | unfinished
      · exact Or.inl (complete.cons piece)
      · exact Or.inr (unfinished.cons piece)

end Dfos.Libc
