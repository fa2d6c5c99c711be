import Dfos.Libc.Formatting

/-!
# The integer conversions

What ISO C asks of `d`, `i`, `u`, `o`, `x` and `X` without a precision, said of
the text alone: a sign or base in front, digits that read back as the value, and
padding up to the width.  `integer_conversion_iso` says that the formatter prints
that text.
-/

namespace Dfos.Libc

open Dfos.Lib

/-- The integer conversions. -/
inductive IntegerConversion where
  | d
  | i
  | u
  | o
  | x
  | X
  deriving DecidableEq, Repr

namespace IntegerConversion

/-- The conversion character. -/
def letter : IntegerConversion → Char
  | d => 'd'
  | i => 'i'
  | u => 'u'
  | o => 'o'
  | x => 'x'
  | X => 'X'

/-- The digits of the base, in order. -/
def digits : IntegerConversion → List Char
  | d | i | u => "0123456789".toList
  | o => "01234567".toList
  | x => "0123456789abcdef".toList
  | X => "0123456789ABCDEF".toList

def base : IntegerConversion → Nat
  | d | i | u => 10
  | o => 8
  | x | X => 16

/-- The argument as a number. -/
def value (word : UInt32) : IntegerConversion → Int
  | d | i => intOf word
  | u | o | x | X => word.toNat

/-- The sign or the base in front of the digits. -/
def lead (flags : List Char) (word : UInt32) : IntegerConversion → List Char
  | d | i =>
      if intOf word < 0 then ['-']
      else if '+' ∈ flags then ['+']
      else if ' ' ∈ flags then [' ']
      else []
  | u => []
  | o => if '#' ∈ flags ∧ word ≠ 0 then ['0'] else []
  | x => if '#' ∈ flags ∧ word ≠ 0 then ['0', 'x'] else []
  | X => if '#' ∈ flags ∧ word ≠ 0 then ['0', 'X'] else []

/-- A text of the conversion's digits that reads back as the number and has no
superfluous leading zero. -/
structure Spells (conversion : IntegerConversion) (text : List Char) (n : Nat) : Prop where
  nonempty : text ≠ []
  digits_only : ∀ c ∈ text, c ∈ conversion.digits
  no_leading_zero : text.head? = some '0' → text = ['0']
  reads : readNumeral (conversion.digits.idxOf ·) conversion.base text = n

end IntegerConversion

/-- A field of at least `width` characters. -/
def isoField (flags : List Char) (width : Nat) (lead digits : List Char) : List Char :=
  let padding := width - (lead.length + digits.length)
  if '-' ∈ flags then lead ++ digits ++ List.replicate padding ' '
  else if '0' ∈ flags then lead ++ List.replicate padding '0' ++ digits
  else List.replicate padding ' ' ++ lead ++ digits

theorem length_isoField (flags : List Char) (width : Nat) (lead digits : List Char) :
    (isoField flags width lead digits).length = max width (lead.length + digits.length) := by
  unfold isoField
  dsimp only
  split
  · simp only [List.length_append, List.length_replicate]
    omega
  · split
    · simp only [List.length_append, List.length_replicate]
      omega
    · simp only [List.length_append, List.length_replicate]
      omega

/-- The formatter lays a field out as the standard has it. -/
theorem layout_eq_isoField (directive : Directive) {lead digits : List Char}
    (width : readNumeral decimalValue 10 directive.width < 2 ^ 32)
    (fits : lead.length + digits.length < 2 ^ 32) :
    layout directive.spec lead digits =
      isoField directive.flags (readNumeral decimalValue 10 directive.width) lead digits := by
  unfold layout isoField
  simp only [Directive.spec, Nat.mod_eq_of_lt width, u32Add_eq fits, decide_eq_true_eq]

namespace IntegerConversion

/-- The case of the digits. -/
def upper (conversion : IntegerConversion) : Bool := conversion = X

theorem digits_eq (conversion : IntegerConversion) :
    ∀ k < conversion.base, digitChar conversion.upper k ∈ conversion.digits ∧
      conversion.digits.idxOf (digitChar conversion.upper k) = k := by
  cases conversion <;> decide

theorem base_bounds (conversion : IntegerConversion) :
    8 ≤ conversion.base ∧ conversion.base ≤ 16 := by
  cases conversion <;> decide

/-- The numeral that the formatter writes spells the number. -/
theorem spells_numeral (conversion : IntegerConversion) (n : Nat) :
    conversion.Spells (numeral (digitChar conversion.upper) conversion.base n) n := by
  have bounds := conversion.base_bounds
  have two : 2 ≤ conversion.base := by omega
  have inverse : ∀ k < conversion.base,
      conversion.digits.idxOf (digitChar conversion.upper k) = k :=
    fun k hk => (conversion.digits_eq k hk).2
  refine ⟨numeral_ne_nil, ?_, ?_, readNumeral_numeral two inverse n⟩
  · intro c member
    obtain ⟨k, small, rfl⟩ := mem_numeral two member
    exact (conversion.digits_eq k small).1
  · intro zero
    have isZero : n = 0 := by
      by_contra pos
      refine head_numeral_ne two (fun k hk => hexValue_digitChar conversion.upper k (by omega)) pos ?_
      rw [zero, digitChar_zero]
    rw [isZero, numeral_zero, digitChar_zero]

/-- The switch of `format_string` on an integer conversion. -/
theorem conversionText_eq (strings : UInt32 → List Char) (conversion : IntegerConversion)
    (directive : Directive) (args : VaList) :
    conversionText strings directive.spec conversion.letter args =
      some (conversion.lead directive.flags (vaArg args).1,
        numeral (digitChar conversion.upper) conversion.base
          (conversion.value (vaArg args).1).natAbs, (vaArg args).2) := by
  have sign : (if directive.spec.signChar ≠ nul then [directive.spec.signChar] else []) =
      if '+' ∈ directive.flags then ['+'] else if ' ' ∈ directive.flags then [' '] else [] := by
    have plus : '+' ≠ nul := by decide
    have blank : ' ' ≠ nul := by decide
    unfold Directive.spec
    dsimp only
    by_cases withPlus : '+' ∈ directive.flags
    · rw [if_pos withPlus, if_pos withPlus, if_pos plus]
    by_cases withBlank : ' ' ∈ directive.flags
    · rw [if_neg withPlus, if_neg withPlus, if_pos withBlank, if_pos withBlank, if_pos blank]
    · rw [if_neg withPlus, if_neg withPlus, if_neg withBlank, if_neg withBlank,
        if_neg (not_not.mpr rfl)]
  have nonzero (word : UInt32) : word.toNat ≠ 0 ↔ word ≠ 0 := by
    rw [ne_eq, ne_eq, ← UInt32.toNat_inj]
    rfl
  have alternate : directive.spec.alternate = true ↔ '#' ∈ directive.flags := decide_eq_true_iff
  cases conversion with
  | d | i =>
    simp only [conversionText, letter, lead, value, upper, base, ← sign]
    rfl
  | u =>
    simp only [conversionText, letter, lead, value, upper, base]
    rfl
  | o | x | X =>
    simp only [conversionText, letter, lead, value, upper, base, nonzero, alternate]
    rfl

theorem letter_stops (conversion : IntegerConversion) :
    ¬ IsDigit conversion.letter ∧ ¬ IsFlag conversion.letter ∧ conversion.letter ≠ '%' := by
  cases conversion <;> decide

theorem length_lead_le (conversion : IntegerConversion) (flags : List Char) (word : UInt32) :
    (conversion.lead flags word).length ≤ 2 := by
  unfold lead
  split
  · split_ifs <;> decide
  · split_ifs <;> decide
  · decide
  · split_ifs <;> decide
  · split_ifs <;> decide
  · split_ifs <;> decide

theorem natAbs_value_lt (conversion : IntegerConversion) (word : UInt32) :
    (conversion.value word).natAbs < 2 ^ 32 := by
  have unsigned := word.toNat_lt
  have signed := intOf_bounds word
  cases conversion <;> simp only [value] <;> omega

end IntegerConversion

/-- **The integer conversions print what ISO C specifies**, for every argument,
flags and width, and the digits fit their buffer. -/
theorem integer_conversion_iso (strings : UInt32 → List Char) (numberBuffer : Nat → Char)
    (console : List Char) (conversion : IntegerConversion) (directive : Directive)
    (width : readNumeral decimalValue 10 directive.width < 2 ^ 31) (args : VaList) :
    ∃ digits, conversion.Spells digits (conversion.value (args.words args.next)).natAbs ∧
      ∃ field, field = isoField directive.flags (readNumeral decimalValue 10 directive.width)
          (conversion.lead directive.flags (args.words args.next)) digits ∧
        field.length = max (readNumeral decimalValue 10 directive.width)
          ((conversion.lead directive.flags (args.words args.next)).length + digits.length) ∧
        vprintf strings numberBuffer console
            ('%' :: (directive.flags ++ directive.width ++ [conversion.letter])) args =
          (console ++ field, .ok field.length) := by
  have stops := conversion.letter_stops
  have base := conversion.base_bounds
  let piece : Piece := .conversion directive conversion.letter
    (by rintro c ⟨⟩; exact ⟨stops.1, fun _ => stops.2.1⟩) (fun _ _ => stops.2.2)
  have format : '%' :: (directive.flags ++ directive.width ++ [conversion.letter]) =
      spell [piece] := (List.append_nil _).symm
  have spelled := conversion.spells_numeral (conversion.value (args.words args.next)).natAbs
  have few : (numeral (digitChar conversion.upper) conversion.base
      (conversion.value (args.words args.next)).natAbs).length ≤ numberBufferSize := by
    refine length_numeral_le (by omega) ((conversion.natAbs_value_lt _).trans_le ?_) (by decide)
    exact Nat.pow_le_pow_left (by omega) _
  have short := conversion.length_lead_le directive.flags (args.words args.next)
  have text : (expand strings [piece] args).1 = layout directive.spec
      (conversion.lead directive.flags (args.words args.next))
      (numeral (digitChar conversion.upper) conversion.base
        (conversion.value (args.words args.next)).natAbs) := by
    simp only [expand, Piece.expand, piece, conversion.conversionText_eq strings directive args,
      List.append_nil]
    rfl
  generalize numeral (digitChar conversion.upper) conversion.base
    (conversion.value (args.words args.next)).natAbs = digits at spelled few text
  generalize conversion.lead directive.flags (args.words args.next) = lead at short text
  unfold numberBufferSize at few
  rw [layout_eq_isoField directive (by omega) (by omega)] at text
  have length := length_isoField directive.flags (readNumeral decimalValue 10 directive.width)
    lead digits
  refine ⟨digits, spelled, _, rfl, length, ?_⟩
  have bounded : (isoField directive.flags (readNumeral decimalValue 10 directive.width) lead
      digits).length ≤ intMax := by
    unfold intMax
    omega
  have word : intMax < 2 ^ 32 := by decide
  rw [format, vprintf_complete, text, Nat.mod_eq_of_lt (by omega), if_neg (by omega)]

/-- `%+06d` of the least integer: a width that the number exceeds. -/
theorem integer_conversion_least :
    ∃ digits, IntegerConversion.d.Spells digits 2147483648 ∧
      ∃ field, field = isoField ['+', '0'] 6 ['-'] digits ∧
        vprintf (fun _ => []) (fun _ => ' ') [] ['%', '+', '0', '6', 'd']
          ⟨fun _ => 0x80000000, 0⟩ = (field, .ok field.length) := by
  obtain ⟨digits, spelled, field, laid, -, printed⟩ := integer_conversion_iso (fun _ => [])
    (fun _ => ' ') [] .d ⟨['+', '0'], ['6'], by simp [IsFlag], by simp [IsDigit], by decide⟩ (by decide)
    ⟨fun _ => 0x80000000, 0⟩
  exact ⟨digits, spelled, field, laid, printed⟩

end Dfos.Libc
