import Dfos.Libc.Formatting

/-!
# Formats of the debugger

The formats that `kdebug.c` passes to `printf`: text, `%u`, `%s`, `%x`, `%llu` and
`%llx`, each with its argument; a 64-bit argument takes two words, the low one
first.  The formatter has no length modifiers.  It takes `%l` for a conversion
that it does not know, prints the four characters as they stand and leaves the
two words for the conversions behind it.
-/

namespace Dfos.Libc

open Dfos.Lib

/-- A part of a format, with its argument. -/
inductive DebugItem where
  | text (c : Char) (plain : c ≠ '%')
  | u (word : UInt32)
  | s (address : UInt32)
  | x (word : UInt32)
  | llu (value : UInt64)
  | llx (value : UInt64)

namespace DebugItem

variable (strings : UInt32 → List Char)

/-- The characters of the format. -/
def format : DebugItem → List Char
  | text c _ => [c]
  | u _ => ['%', 'u']
  | s _ => ['%', 's']
  | x _ => ['%', 'x']
  | llu _ => ['%', 'l', 'l', 'u']
  | llx _ => ['%', 'l', 'l', 'x']

/-- The two words of a 64-bit argument. -/
def halves (value : UInt64) : List UInt32 :=
  [UInt32.ofNat (value.toNat % 2 ^ 32), UInt32.ofNat (value.toNat / 2 ^ 32)]

/-- The words that the argument takes. -/
def arguments : DebugItem → List UInt32
  | text _ _ => []
  | u word | s word | x word => [word]
  | llu value | llx value => halves value

/-- What is meant to be printed. -/
def meant : DebugItem → List Char
  | text c _ => [c]
  | u word => numeral (digitChar false) 10 word.toNat
  | s address => if address = 0 then "(null)".toList else strings address
  | x word => numeral (digitChar false) 16 word.toNat
  | llu value => numeral (digitChar false) 10 value.toNat
  | llx value => numeral (digitChar false) 16 value.toNat

/-- The argument has 64 bits. -/
def Wide : DebugItem → Prop
  | llu _ | llx _ => True
  | _ => False

instance : DecidablePred Wide := fun item => by
  cases item <;> unfold Wide <;> infer_instance

/-- A conversion without flags and width. -/
def plain (c : Char) (letter : ¬ IsDigit c ∧ ¬ IsFlag c ∧ c ≠ '%') : Piece :=
  .conversion ⟨[], [], nofun, nofun, nofun⟩ c
    (by rintro c ⟨⟩; exact ⟨letter.1, fun _ => letter.2.1⟩) fun _ _ => letter.2.2

/-- The format as the formatter reads it. -/
def pieces : DebugItem → List Piece
  | text c plain => [.literal c plain]
  | u _ => [plain 'u' (by decide)]
  | s _ => [plain 's' (by decide)]
  | x _ => [plain 'x' (by decide)]
  | llu _ => [plain 'l' (by decide), .literal 'l' (by decide), .literal 'u' (by decide)]
  | llx _ => [plain 'l' (by decide), .literal 'l' (by decide), .literal 'x' (by decide)]

theorem spell_pieces (item : DebugItem) : spell item.pieces = item.format := by
  cases item <;> rfl

/-- The list of arguments starts with these words. -/
def Passes (args : VaList) (words : List UInt32) : Prop :=
  ∀ i (bound : i < words.length), args.words (args.next + i) = words[i]

/-- The list behind the first `count` words. -/
def advance (args : VaList) (count : Nat) : VaList := { args with next := args.next + count }

theorem Passes.append {args : VaList} {words more : List UInt32} (all : Passes args (words ++ more)) :
    Passes args words ∧ Passes (advance args words.length) more := by
  refine ⟨fun i bound => ?_, fun i bound => ?_⟩
  · rw [all i (by rw [List.length_append]; omega), List.getElem_append_left bound]
  · have here := all (words.length + i) (by rw [List.length_append]; omega)
    rw [List.getElem_append_right (Nat.le_add_right _ _)] at here
    simp only [advance, Nat.add_assoc, here, Nat.add_sub_cancel_left]

theorem layout_plain (body : List Char) :
    layout (Directive.spec ⟨[], [], nofun, nofun, nofun⟩) [] body = body := by
  have padding : (Directive.spec ⟨[], [], nofun, nofun, nofun⟩).width -
      u32Add ([] : List Char).length body.length = 0 := Nat.zero_sub _
  unfold layout
  simp only [padding, List.replicate_zero, List.append_nil, List.nil_append, ite_self]

/-- A conversion of one word, without flags and width. -/
theorem expand_plain {c : Char} (letter : ¬ IsDigit c ∧ ¬ IsFlag c ∧ c ≠ '%') {args : VaList}
    {body : List Char}
    (found : conversionText strings (Directive.spec ⟨[], [], nofun, nofun, nofun⟩) c args =
      some ([], body, (vaArg args).2)) :
    expand strings [plain c letter] args = (body, advance args 1) := by
  simp only [expand, plain, Piece.expand, found, layout_plain, List.append_nil]
  rfl

/-- An item without a 64-bit argument prints what is meant and takes its
argument. -/
theorem expand_narrow {item : DebugItem} (narrow : ¬ item.Wide) {args : VaList}
    (passed : Passes args item.arguments) :
    expand strings item.pieces args =
      (item.meant strings, advance args item.arguments.length) := by
  cases item with
  | text c other => rfl
  | u word | s word | x word =>
    have same : args.words args.next = word := passed 0 Nat.one_pos
    subst same
    exact expand_plain strings _ rfl
  | llu value | llx value => exact (narrow trivial).elim

/-- An item with a 64-bit argument starts with the percent sign itself. -/
theorem expand_wide {item : DebugItem} (wide : item.Wide) (args : VaList) :
    ∃ more rest, expand strings item.pieces args = ('%' :: more, rest) := by
  cases item with
  | text | u | s | x => exact wide.elim
  | llu value | llx value => exact ⟨_, _, rfl⟩

/-- A number never starts with a percent sign. -/
theorem meant_wide {item : DebugItem} (wide : item.Wide) :
    ∃ c more, item.meant strings = c :: more ∧ c ≠ '%' := by
  have digit : ∀ d < 16, digitChar false d ≠ '%' := by decide
  have numeral (base n : Nat) (two : 2 ≤ base) (hex : base ≤ 16) :
      ∃ c more, numeral (digitChar false) base n = c :: more ∧ c ≠ '%' := by
    have nonempty : numeral (digitChar false) base n ≠ [] := numeral_ne_nil
    obtain ⟨c, more, same⟩ := List.exists_cons_of_ne_nil nonempty
    obtain ⟨d, small, rfl⟩ := mem_numeral two (same ▸ List.mem_cons_self)
    exact ⟨_, more, same, digit d (by omega)⟩
  cases item with
  | text | u | s | x => exact wide.elim
  | llu value => exact numeral 10 _ (by omega) (by omega)
  | llx value => exact numeral 16 _ (by omega) (by omega)

end DebugItem

theorem expand_append (strings : UInt32 → List Char) (front back : List Piece) (args : VaList) :
    expand strings (front ++ back) args =
      ((expand strings front args).1 ++ (expand strings back (expand strings front args).2).1,
        (expand strings back (expand strings front args).2).2) := by
  induction front generalizing args with
  | nil => rfl
  | cons piece front ih => simp only [List.cons_append, expand, ih, List.append_assoc]

open DebugItem

variable (strings : UInt32 → List Char)

/-- The format of the items, the words passed for them, and what is meant. -/
def debugFormat (items : List DebugItem) : List Char := items.flatMap DebugItem.format

def debugArguments (items : List DebugItem) : List UInt32 := items.flatMap DebugItem.arguments

def debugMeant (items : List DebugItem) : List Char := items.flatMap (DebugItem.meant strings)

theorem spell_debugFormat (items : List DebugItem) :
    spell (items.flatMap DebugItem.pieces) = debugFormat items := by
  induction items with
  | nil => rfl
  | cons item items ih =>
    have front : spell (item.pieces ++ items.flatMap DebugItem.pieces) =
        spell item.pieces ++ spell (items.flatMap DebugItem.pieces) := List.flatMap_append
    rw [List.flatMap_cons, front, item.spell_pieces, ih]
    rfl

/-- **What the formatter makes of the items**: what is meant, if none of them
has a 64-bit argument, and another text otherwise. -/
theorem expand_items (items : List DebugItem) {args : VaList}
    (passed : Passes args (debugArguments items)) :
    (expand strings (items.flatMap DebugItem.pieces) args).1 = debugMeant strings items ↔
      ∀ item ∈ items, ¬ item.Wide := by
  induction items generalizing args with
  | nil => exact ⟨fun _ => nofun, fun _ => rfl⟩
  | cons item items ih =>
    obtain ⟨here, later⟩ := Passes.append passed
    rw [List.flatMap_cons, expand_append, debugMeant, List.flatMap_cons, List.forall_mem_cons]
    by_cases wide : item.Wide
    · -- the first characters differ
      obtain ⟨more, rest, printed⟩ := expand_wide strings wide args
      obtain ⟨c, digits, meant, other⟩ := meant_wide strings wide
      rw [printed, meant]
      refine ⟨fun same => ?_, fun narrow => (narrow.1 wide).elim⟩
      exact (other (List.cons.inj same).1.symm).elim
    · rw [expand_narrow strings wide here, List.append_cancel_left_eq]
      refine (ih later).trans ⟨fun narrow => ⟨wide, narrow⟩, fun narrow => narrow.2⟩

/-- **The debugger's formats print their arguments if none has 64 bits**, and
otherwise never do. -/
theorem debug_format_iff (numberBuffer : Nat → Char) (console : List Char)
    {items : List DebugItem} {args : VaList} (passed : Passes args (debugArguments items)) :
    (vprintf strings numberBuffer console (debugFormat items) args).1 =
        console ++ debugMeant strings items ↔
      ∀ item ∈ items, ¬ item.Wide := by
  rw [← spell_debugFormat, vprintf_complete, List.append_cancel_left_eq]
  exact expand_items strings items passed

theorem debug_format_number :
    (vprintf (fun _ => []) (fun _ => ' ') [] (debugFormat [.u 7, .text '!' (by decide)])
      ⟨fun _ => 7, 0⟩).1 = ['7', '!'] :=
  (debug_format_iff (fun _ => []) (fun _ => ' ') []
    (show Passes ⟨fun _ => 7, 0⟩ (debugArguments [.u 7, .text '!' (by decide)]) by
      intro i bound
      obtain rfl : i = 0 := Nat.lt_one_iff.mp bound
      rfl)).mpr (by decide)

/-- `%llu,%u` with 5 and 7: the format itself, and the low word of the first
argument for the second. -/
theorem wide_argument_shifts :
    Passes ⟨fun i => [5, 0, 7].getD i 0, 0⟩ (debugArguments [.llu 5, .text ',' (by decide), .u 7]) ∧
      debugMeant (fun _ => []) [.llu 5, .text ',' (by decide), .u 7] = ['5', ',', '7'] ∧
      vprintf (fun _ => []) (fun _ => ' ') []
          (debugFormat [.llu 5, .text ',' (by decide), .u 7])
          ⟨fun i => [5, 0, 7].getD i 0, 0⟩ =
        (['%', 'l', 'l', 'u', ',', '5'], .ok 6) := by
  refine ⟨fun i bound => ?_, ?_, rfl⟩
  · have three : i < 3 := bound
    interval_cases i <;> rfl
  · simp [debugMeant, DebugItem.meant, numeral, digitChar]

end Dfos.Libc
