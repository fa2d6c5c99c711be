import Dfos.Libc.Expansion
import Mathlib.Tactic.Common

/-!
# Where formatting stops and what a buffer gets

Both entry points of the formatter expand the format the same way and differ in
their sink only: the console is given the whole text, a buffer as much of it as
it has room for.
-/

namespace Dfos.Libc

open Dfos.Lib

variable (strings : UInt32 → List Char)

/-! ## The end of the format -/

/-- A NUL in a conversion's text is an argument of `%c` or in a string. -/
theorem nul_not_mem_numeral (upper : Bool) {base : Nat} (two : 2 ≤ base) (hex : base ≤ 16)
    (n : Nat) : nul ∉ numeral (digitChar upper) base n := by
  have digit : ∀ d < 16, digitChar upper d ≠ nul := by cases upper <;> decide
  intro member
  obtain ⟨d, small, same⟩ := mem_numeral two member
  exact digit d (by omega) same.symm

theorem mem_layout {spec : FormatSpec} {lead body : List Char} (member : nul ∈ layout spec lead body) :
    nul ∈ lead ∨ nul ∈ body := by
  have blank : nul ≠ ' ' := by decide
  have zero : nul ≠ '0' := by decide
  unfold layout at member
  dsimp only at member
  split at member
  · simpa [List.mem_replicate, blank] using member
  · split at member
    · simpa [List.mem_replicate, zero] using member
    · simpa [List.mem_replicate, blank] using member

theorem eq_zero_of_ofNat {n : Nat} (small : n < 256) (same : nul = Char.ofNat n) : n = 0 := by
  have valid : n.isValidChar := Or.inl (by omega)
  have code : (Char.ofNat n).toNat = n := by
    rw [Char.ofNat, dif_pos valid]
    rfl
  rw [← code, ← same]
  rfl

theorem nul_mem_conversion (textual : ∀ address, nul ∉ strings address) {spec : FormatSpec}
    {c : Char} {args rest : VaList} {lead body : List Char}
    (found : conversionText strings spec c args = some (lead, body, rest))
    (member : nul ∈ lead ∨ nul ∈ body) : c = 'c' ∧ (vaArg args).1.toNat % 256 = 0 := by
  have noLead (absent : nul ∉ lead) : nul ∈ body := member.resolve_left absent
  have decimal (n : Nat) : nul ∉ numeral (digitChar false) 10 n :=
    nul_not_mem_numeral false (by omega) (by omega) n
  have octal (n : Nat) : nul ∉ numeral (digitChar false) 8 n :=
    nul_not_mem_numeral false (by omega) (by omega) n
  have hex (upper : Bool) (n : Nat) : nul ∉ numeral (digitChar upper) 16 n :=
    nul_not_mem_numeral upper (by omega) (by omega) n
  unfold conversionText at found
  dsimp only [vaArg] at found
  split at found
  · next letter =>
    cases found
    exact ⟨letter, eq_zero_of_ofNat (Nat.mod_lt _ (by omega))
      (List.mem_singleton.mp (noLead List.not_mem_nil))⟩
  split at found
  · cases found
    have body := noLead List.not_mem_nil
    have null : nul ∉ "(null)".toList := by decide
    split at body
    · exact (null body).elim
    · exact (textual _ body).elim
  split at found
  · cases found
    refine (decimal _ (noLead ?_)).elim
    split
    · decide
    · split
      · rename_i sign
        exact fun same => sign (List.mem_singleton.mp same).symm
      · exact List.not_mem_nil
  split at found
  · cases found
    exact (decimal _ (noLead List.not_mem_nil)).elim
  split at found
  · cases found
    refine (octal _ (noLead ?_)).elim
    split
    · decide
    · exact List.not_mem_nil
  split at found
  · rename_i letter
    cases found
    refine (hex _ _ (noLead ?_)).elim
    split
    · rcases letter with rfl | rfl <;> decide
    · exact List.not_mem_nil
  split at found
  · cases found
    exact (hex _ _ (noLead (by decide))).elim
  · cases found

/-- A `%c` of the format is given a zero byte; the pieces before it take the
arguments before its own. -/
def NulArgument (format : List Char) (args : VaList) : Prop :=
  ∃ before d stops other after, format = spell (before ++ .conversion d 'c' stops other :: after) ∧
    (vaArg (expand strings before args).2).1.toNat % 256 = 0

/-- A NUL in what a piece stands for is the argument of a `%c`. -/
theorem nul_mem_piece (textual : ∀ address, nul ∉ strings address) {piece : Piece}
    (cstring : nul ∉ piece.chars) {args : VaList} (member : nul ∈ (piece.expand strings args).1) :
    (∃ d stops other, piece = .conversion d 'c' stops other) ∧ (vaArg args).1.toNat % 256 = 0 := by
  cases piece with
  | literal c => exact (cstring member).elim
  | percent => exact (cstring (List.mem_cons_of_mem _ member)).elim
  | conversion d c stops other =>
    cases found : conversionText strings d.spec c args with
    | none =>
      simp only [Piece.expand, found, List.mem_cons, List.not_mem_nil, or_false] at member
      refine (cstring ?_).elim
      rcases member with same | same
      · exact same ▸ List.mem_cons_self
      · simp [Piece.chars, same]
    | some converted =>
      obtain ⟨lead, body, rest⟩ := converted
      simp only [Piece.expand, found] at member
      obtain ⟨rfl, zero⟩ := nul_mem_conversion strings textual found (mem_layout member)
      exact ⟨⟨d, stops, other, rfl⟩, zero⟩

/-- A NUL in what a format stands for is the argument of a `%c`. -/
theorem nul_mem_expand (textual : ∀ address, nul ∉ strings address) {pieces : List Piece}
    (cstring : nul ∉ spell pieces) {args : VaList}
    (member : nul ∈ (expand strings pieces args).1) :
    NulArgument strings (spell pieces) args := by
  induction pieces generalizing args with
  | nil => cases member
  | cons piece pieces ih =>
    rw [spell_cons, List.mem_append, not_or] at cstring
    simp only [expand, List.mem_append] at member
    rcases member with here | later
    · obtain ⟨⟨d, stops, other, rfl⟩, zero⟩ := nul_mem_piece strings textual cstring.1 here
      exact ⟨[], d, stops, other, pieces, rfl, zero⟩
    · obtain ⟨before, d, stops, other, after, same, zero⟩ := ih cstring.2 later
      refine ⟨piece :: before, d, stops, other, after, ?_, zero⟩
      rw [spell_cons, same, List.cons_append, spell_cons]

/-- **Formatting stops at the NUL of its format, unless that cuts off a
conversion.**  The text that has gone into the sink has a NUL only if a `%c` is
given a zero byte; a format that is cut off makes the call read past its NUL. -/
theorem format_stops_at_nul_iff (textual : ∀ address, nul ∉ strings address)
    (numberBuffer : Nat → Char) {sink : FormatSink} (fine : sink.failed = false)
    {format : List Char} (cstring : nul ∉ format) (args : VaList) :
    (∃ text, formatString strings numberBuffer sink format args = formatEnd (sink.put text) ∧
        (nul ∈ text → NulArgument strings format args)) ↔
      ¬ Unfinished format := by
  constructor
  · rintro ⟨text, stopped, -⟩ ⟨pieces, d, rfl⟩
    rw [formatString_unfinished strings numberBuffer fine] at stopped
    cases congrArg Prod.snd stopped
  · intro finished
    rcases complete_or_unfinished format with ⟨pieces, rfl⟩ | unfinished
    · exact ⟨_, formatString_complete strings numberBuffer fine pieces args,
        nul_mem_expand strings textual cstring⟩
    · exact (finished unfinished).elim

/-- `%d` ends before its NUL. -/
theorem number_not_unfinished : nul ∉ ['%', 'd'] ∧ ¬ Unfinished ['%', 'd'] :=
  ⟨by decide, (format_stops_at_nul_iff (fun _ => []) (fun _ => List.not_mem_nil) (fun _ => ' ')
    (show (FormatSink.mk none 0 0 false []).failed = false from rfl) (by decide)
    ⟨fun _ => 7, 0⟩).mp
      ⟨['7'], rfl, fun member => absurd member (by decide)⟩⟩

/-- `%` alone: the NUL is printed and the next character read. -/
theorem percent_overreads :
    vprintf (fun _ => []) (fun _ => ' ') [] ['%'] ⟨fun _ => 1, 0⟩ =
      (['%', nul], .error .overread) := by
  rfl

/-! ## A buffer -/

namespace FormatSink

/-- What the console is given, and the count that wraps. -/
theorem put_console {sink : FormatSink} (unbuffered : sink.buffer = none)
    (word : sink.length < 2 ^ 32) (text : List Char) :
    sink.put text = { sink with
      length := (sink.length + text.length) % 2 ^ 32, console := sink.console ++ text } := by
  induction text generalizing sink with
  | nil =>
    rw [put_nil, List.length_nil, Nat.add_zero, Nat.mod_eq_of_lt word, List.append_nil]
  | cons c text ih =>
    have step : sinkPutc sink c = { sink with
        length := u32Add sink.length 1, console := sink.console ++ [c] } := by
      have positive : ((c.toNat : Int) = eof) = False := by
        rw [eof, eq_iff_iff, iff_false]
        omega
      simp only [sinkPutc, unbuffered, putchar, positive, decide_false, Bool.or_false]
    have still : (sinkPutc sink c).buffer = none := by rw [step, unbuffered]
    have bounded : (sinkPutc sink c).length < 2 ^ 32 := by
      rw [step]
      exact u32Add_lt _ _
    rw [put_cons, ih still bounded, step]
    simp only [u32Add, List.length_cons, Nat.mod_add_mod, List.append_assoc, List.singleton_append]
    congr 2
    omega

/-- What a buffer holds: the text from where the sink was, as far as there is
room for it and a terminator. -/
theorem put_buffer {sink : FormatSink} {buffer : Nat → Char} (buffered : sink.buffer = some buffer)
    {text : List Char} (fits : sink.length + text.length < 2 ^ 32) :
    ∃ buffer', sink.put text =
        { sink with buffer := some buffer', length := sink.length + text.length } ∧
      ∀ i, buffer' i = if sink.length ≤ i ∧ i + 1 < sink.capacity then
        text.getD (i - sink.length) (buffer i) else buffer i := by
  induction text generalizing sink buffer with
  | nil =>
    refine ⟨buffer, ?_, fun i => ?_⟩
    · rw [put_nil, List.length_nil, Nat.add_zero, ← buffered]
    · rw [List.getD_nil, ite_self]
  | cons c text ih =>
    rw [List.length_cons] at fits
    have counted : u32Add sink.length 1 = sink.length + 1 := u32Add_eq (by omega)
    have step : sinkPutc sink c = { sink with
        buffer := some (if sink.length + 1 < sink.capacity then
          Function.update buffer sink.length c else buffer)
        length := sink.length + 1 } := by
      have room : (sink.capacity ≠ 0 ∧ sink.length + 1 < sink.capacity) ↔
          sink.length + 1 < sink.capacity := by omega
      simp only [sinkPutc, buffered, counted, room]
    have still : (sinkPutc sink c).buffer = some (if sink.length + 1 < sink.capacity then
        Function.update buffer sink.length c else buffer) := by rw [step]
    obtain ⟨buffer', result, contents⟩ := ih still (by rw [step]; dsimp only; omega)
    rw [step] at result contents
    refine ⟨buffer', ?_, fun i => ?_⟩
    · rw [put_cons, step, result, List.length_cons]
      dsimp only
      congr 1
      omega
    · rw [contents i]
      dsimp only
      by_cases here : i = sink.length
      · subst here
        rw [if_neg (by omega), Nat.sub_self, List.getD_cons_zero]
        by_cases room : sink.length + 1 < sink.capacity
        · rw [if_pos room, if_pos ⟨le_refl _, room⟩, Function.update_self]
        · rw [if_neg room, if_neg (fun both => room both.2)]
      · have other : (if sink.length + 1 < sink.capacity then
            Function.update buffer sink.length c else buffer) i = buffer i := by
          split
          · exact Function.update_of_ne here _ _
          · rfl
        rw [other]
        by_cases inside : sink.length + 1 ≤ i ∧ i + 1 < sink.capacity
        · rw [if_pos inside, if_pos (by omega),
            show i - sink.length = i - (sink.length + 1) + 1 by omega, List.getD_cons_succ]
        · rw [if_neg inside, if_neg (by omega)]

end FormatSink

/-- What `vprintf` prints for a complete format and what it returns. -/
theorem vprintf_complete (numberBuffer : Nat → Char) (console : List Char) (pieces : List Piece)
    (args : VaList) :
    vprintf strings numberBuffer console (spell pieces) args =
      (console ++ (expand strings pieces args).1,
        .ok (if (expand strings pieces args).1.length % 2 ^ 32 > intMax then -1
          else ((expand strings pieces args).1.length % 2 ^ 32 : Nat))) := by
  rw [vprintf, formatString_complete strings numberBuffer rfl,
    FormatSink.put_console rfl (Nat.two_pow_pos 32)]
  simp only [formatEnd, terminate, Nat.zero_add, Bool.false_or, decide_eq_true_eq]

/-- **Bounded formatting is a front part of unbounded formatting.**  The two
calls may find different contents in their number buffers. -/
theorem vsnprintf_eq_take_vprintf (numberBuffer numberBuffer' : Nat → Char) {format : List Char}
    (complete : Complete format) (args : VaList) {text : List Char} {printed : Except Fault Int}
    (unbounded : vprintf strings numberBuffer [] format args = (text, printed))
    (short : text.length ≤ intMax) (buffer : Nat → Char) {n : Nat} (word : n < 2 ^ 32) :
    ∃ buffer', vsnprintf strings numberBuffer' buffer n format args = (buffer', .ok text.length) ∧
      (∀ i, n ≤ i → buffer' i = buffer i) ∧
      (0 < n →
        (List.range (min text.length (n - 1))).map buffer' = text.take (n - 1) ∧
        buffer' (min text.length (n - 1)) = nul) := by
  obtain ⟨pieces, rfl⟩ := complete
  have emitted : (expand strings pieces args).1 = text := by
    have printing := vprintf_complete strings numberBuffer [] pieces args
    rw [unbounded] at printing
    exact (congrArg Prod.fst printing).symm
  have fits : 0 + text.length < 2 ^ 32 := by
    unfold intMax at short
    omega
  obtain ⟨stored, put, contents⟩ := FormatSink.put_buffer
    (show (FormatSink.mk (some buffer) n 0 false []).buffer = some buffer from rfl) fits
  have call : vsnprintf strings numberBuffer' buffer n (spell pieces) args =
      (if n ≠ 0 then Function.update stored (if text.length < n then text.length else n - 1) nul
        else stored, .ok text.length) := by
    rw [vsnprintf, formatString_complete strings numberBuffer' rfl, emitted, put]
    dsimp only [formatEnd, terminate]
    have small : ¬ text.length > intMax := Nat.not_lt.mpr short
    by_cases empty : n = 0
    · simp [empty, small]
    · simp [empty, small]
  have position : (if text.length < n then text.length else n - 1) =  min text.length (n - 1) := by
    split <;> omega
  refine ⟨_, call, ?_, ?_⟩
  · intro i beyond
    have kept : stored i = buffer i := by
      rw [contents i, if_neg (by dsimp only; omega)]
    split
    · rw [Function.update_of_ne (by split <;> omega), kept]
    · exact kept
  · intro positive
    rw [if_pos (by omega), position, Function.update_self]
    refine ⟨List.ext_getElem (by simp; omega) fun i hi hi' => ?_, rfl⟩
    rw [List.length_map, List.length_range] at hi
    rw [List.getElem_map, List.getElem_range, Function.update_of_ne (by omega), contents i,
      if_pos (by dsimp only; omega), List.getElem_take]
    dsimp only
    rw [Nat.sub_zero, List.getD_eq_getElem _ _ (by omega)]

theorem complete_number : Complete ['%', 'd'] :=
  ⟨[.conversion ⟨[], [], nofun, nofun, nofun⟩ 'd' (by rintro c ⟨⟩; decide) (by decide)], rfl⟩

/-- `1234` into three bytes. -/
theorem vsnprintf_number :
    ∃ buffer', vsnprintf (fun _ => []) (fun _ => ' ') (fun _ => '?') 3 ['%', 'd']
        ⟨fun _ => 1234, 0⟩ = (buffer', .ok 4) ∧
      (∀ i, 3 ≤ i → buffer' i = '?') ∧ (List.range 2).map buffer' = ['1', '2'] ∧ buffer' 2 = nul := by
  have front := vsnprintf_eq_take_vprintf (fun _ => []) (fun _ => ' ') (fun _ => ' ')
    complete_number ⟨fun _ => 1234, 0⟩
    (show vprintf (fun _ => []) (fun _ => ' ') [] ['%', 'd'] ⟨fun _ => 1234, 0⟩ =
      (['1', '2', '3', '4'], .ok 4) from rfl)
    (by decide) (fun _ => '?') (show 3 < 2 ^ 32 by decide)
  obtain ⟨buffer', call, beyond, inside⟩ := front
  exact ⟨buffer', call, beyond, inside (by decide)⟩

end Dfos.Libc
