import Dfos.Lib.Ring

/-!
# The keyboard ring

`kernel/arch/i386/ps2_keyboard.c`: the interrupt handler translates scancodes and
pushes characters into a ring of 256 cells, a reader takes them out.

The reader is followed through its three accesses (the comparison of the indices,
the load of the character, the update of the tail), and the interrupt may fall
between any two of them.  What pushes and reads did is recorded as a list of
events.
-/

namespace Dfos.Drivers

open Dfos.Lib

/-- `KEYBOARD_BUFFER_SIZE`. -/
def keyboardBufferSize : Nat := 256

/-- `normal_map`, up to its last non-zero entry. -/
def normalMap : List Char :=
  "\x00\x1b1234567890-=\x08\tqwertyuiop[]\n\x00asdfghjkl;'`\x00\\zxcvbnm,./\x00*\x00 ".toList

/-- `shifted_map`. -/
def shiftedMap : List Char :=
  "\x00\x1b!@#$%^&*()_+\x08\tQWERTYUIOP\x7b\x7d\n\x00ASDFGHJKL:\"~\x00|ZXCVBNM<>?\x00*\x00 ".toList

/-- The static data of the driver. -/
structure Keyboard where
  bufferHead : Nat
  bufferTail : Nat
  buffer : Nat → Char
  shiftDown : Bool
  capsLock : Bool
  debuggerRequested : Bool

/-- What happened to a character, or to a read. -/
inductive Event where
  | accepted (c : Char)
  | dropped (c : Char)
  | returned (c : Char)
  | returnedFalse
  deriving DecidableEq, Repr

/-- `keyboard_push_char`. -/
def keyboardPushChar (k : Keyboard) (c : Char) : Keyboard × Event :=
  let next := (k.bufferHead + 1) % keyboardBufferSize
  if next = k.bufferTail then (k, .dropped c)
  else
    ({ k with buffer := Function.update k.buffer k.bufferHead c, bufferHead := next }, .accepted c)

/-- `translate_scancode`. -/
def translateScancode (k : Keyboard) (scancode : UInt8) : Char :=
  let c := (if k.shiftDown then shiftedMap else normalMap).getD scancode.toNat '\x00'
  if 'a' ≤ c ∧ c ≤ 'z' ∧ k.capsLock then Char.ofNat (c.toNat - 'a'.toNat + 'A'.toNat)
  else if 'A' ≤ c ∧ c ≤ 'Z' ∧ k.capsLock then Char.ofNat (c.toNat - 'A'.toNat + 'a'.toNat)
  else c

/-- `ps2_keyboard_interrupt`. -/
def ps2KeyboardInterrupt (k : Keyboard) (scancode : UInt8) : Keyboard × Option Event :=
  if scancode = 0x2A ∨ scancode = 0x36 then ({ k with shiftDown := true }, none)
  else if scancode = 0xAA ∨ scancode = 0xB6 then ({ k with shiftDown := false }, none)
  else if scancode = 0x3A then ({ k with capsLock := !k.capsLock }, none)
  else if scancode = 0x3B then ({ k with debuggerRequested := true }, none)
  else if scancode &&& 0x80 ≠ 0 then (k, none)
  else if scancode.toNat < 128 then
    let c := translateScancode k scancode
    if c ≠ '\x00' then
      let (k, event) := keyboardPushChar k c
      (k, some event)
    else (k, none)
  else (k, none)

/-- `ps2_keyboard_init`, whatever the cells held. -/
def ps2KeyboardInit (buffer : Nat → Char) : Keyboard where
  bufferHead := 0
  bufferTail := 0
  buffer := buffer
  shiftDown := false
  capsLock := false
  debuggerRequested := false

/-! ## The reader and the interrupt -/

/-- How far a call of `ps2_keyboard_read_char_nonblocking` has come. -/
inductive ReaderPc where
  | idle
  | checked
  | loaded (c : Char)
  deriving DecidableEq, Repr

structure World where
  keyboard : Keyboard
  reader : ReaderPc

inductive Action where
  | interrupt (scancode : UInt8)
  | read

/-- One access of `ps2_keyboard_read_char_nonblocking`. -/
def ps2KeyboardReadCharNonblocking (w : World) : World × Option Event :=
  let k := w.keyboard
  match w.reader with
  | .idle =>
      if k.bufferTail = k.bufferHead then (w, some .returnedFalse)
      else ({ w with reader := .checked }, none)
  | .checked => ({ w with reader := .loaded (k.buffer k.bufferTail) }, none)
  | .loaded c =>
      ({ keyboard := { k with bufferTail := (k.bufferTail + 1) % keyboardBufferSize }
         reader := .idle }, some (.returned c))

def World.step (w : World) : Action → World × Option Event
  | .interrupt scancode =>
      let (keyboard, event) := ps2KeyboardInterrupt w.keyboard scancode
      ({ w with keyboard := keyboard }, event)
  | .read => ps2KeyboardReadCharNonblocking w

/-- A run, with the events it adds to those before it. -/
def World.run (w : World) (events : List Event) : List Action → World × List Event
  | [] => (w, events)
  | action :: actions =>
      let (w, event) := w.step action
      w.run (events ++ event.toList) actions

/-- After `ps2_keyboard_init`, with no read under way. -/
def World.start (buffer : Nat → Char) : World where
  keyboard := ps2KeyboardInit buffer
  reader := .idle

/-- The pushes that were not dropped. -/
def accepted (events : List Event) : List Char :=
  events.filterMap fun
    | .accepted c => some c
    | _ => none

/-- What the reads returned. -/
def returned (events : List Event) : List Char :=
  events.filterMap fun
    | .returned c => some c
    | _ => none

/-! ## The invariant -/

/-- The ring holds the accepted characters that have not been returned, each at
its number modulo 256; a reader that has passed the comparison has one before it. -/
structure World.Inv (w : World) (events : List Event) : Prop where
  window : Window keyboardBufferSize w.keyboard.buffer (accepted events) (returned events).length
  head : w.keyboard.bufferHead = (accepted events).length % keyboardBufferSize
  tail : w.keyboard.bufferTail = (returned events).length % keyboardBufferSize
  order : returned events <+: accepted events
  room : (accepted events).length < (returned events).length + keyboardBufferSize
  checked : w.reader = .checked → (returned events).length < (accepted events).length
  loaded : ∀ c, w.reader = .loaded c → (accepted events)[(returned events).length]? = some c

section Steps

variable {w : World} {events : List Event}

/-- Only the accepted and the returned characters matter. -/
theorem World.Inv.congr (inv : w.Inv events) {events' : List Event}
    (same : accepted events' = accepted events) (same' : returned events' = returned events) :
    w.Inv events' := by
  obtain ⟨window, head, tail, order, room, checked, loaded⟩ := inv
  rw [← same, ← same'] at window order room loaded
  rw [← same] at head
  rw [← same'] at tail
  refine ⟨window, head, tail, order, room, ?_, loaded⟩
  rw [same, same']
  exact checked

/-- The indices are apart exactly if a character is unread. -/
theorem World.Inv.empty_iff (inv : w.Inv events) :
    w.keyboard.bufferTail = w.keyboard.bufferHead ↔ returned events = accepted events := by
  have le := inv.order.length_le
  have room := inv.room
  rw [inv.head, inv.tail]
  constructor
  · intro same
    refine inv.order.eq_of_length ?_
    by_contra apart
    exact mod_ne_of_near (by omega) room same
  · intro same
    rw [same]

/-- The cell before the tail is reached exactly if 255 characters are unread. -/
theorem World.Inv.full_iff (inv : w.Inv events) :
    (w.keyboard.bufferHead + 1) % keyboardBufferSize = w.keyboard.bufferTail ↔
      (accepted events).length = (returned events).length + 255 := by
  have le := inv.order.length_le
  have room := inv.room
  rw [inv.head, inv.tail]
  unfold keyboardBufferSize at room ⊢
  omega

theorem World.Inv.push (inv : w.Inv events) (c : Char) :
    World.Inv { w with keyboard := (keyboardPushChar w.keyboard c).1 }
      (events ++ [(keyboardPushChar w.keyboard c).2]) := by
  have full := inv.full_iff
  unfold keyboardPushChar
  dsimp only
  split
  · -- dropped: neither list of characters grows
    exact inv.congr (by simp [accepted]) (by simp [returned])
  next free =>
  have acceptedEq : accepted (events ++ [.accepted c]) = accepted events ++ [c] := by
    simp [accepted]
  have returnedEq : returned (events ++ [.accepted c]) = returned events := by simp [returned]
  have le := inv.order.length_le
  have room := inv.room
  have apart : (accepted events).length ≠ (returned events).length + 255 := fun same =>
    free (full.mpr same)
  refine ⟨?_, ?_, ?_, ?_, ?_, ?_, ?_⟩
  · rw [acceptedEq, returnedEq, inv.head]
    exact inv.window.push room c
  · rw [acceptedEq, List.length_append, List.length_singleton, inv.head, Nat.mod_add_mod]
  · rw [returnedEq]
    exact inv.tail
  · rw [acceptedEq, returnedEq]
    exact inv.order.trans (List.prefix_append _ _)
  · rw [acceptedEq, returnedEq, List.length_append, List.length_singleton]
    unfold keyboardBufferSize at room ⊢
    omega
  · rw [acceptedEq, returnedEq, List.length_append, List.length_singleton]
    intro checked
    have := inv.checked checked
    omega
  · intro d loaded
    have found := inv.loaded d loaded
    rw [acceptedEq, returnedEq]
    rwa [List.getElem?_append_left (List.getElem?_eq_some_iff.mp found).1]

/-- The handler pushes one character, or leaves the ring as it was. -/
theorem ps2KeyboardInterrupt_cases (k : Keyboard) (scancode : UInt8) :
    (∃ c, ps2KeyboardInterrupt k scancode =
      ((keyboardPushChar k c).1, some (keyboardPushChar k c).2)) ∨
    ∃ k', ps2KeyboardInterrupt k scancode = (k', none) ∧ k'.bufferHead = k.bufferHead ∧
      k'.bufferTail = k.bufferTail ∧ k'.buffer = k.buffer := by
  unfold ps2KeyboardInterrupt
  dsimp only
  repeat' split
  all_goals first
    | exact .inl ⟨_, rfl⟩
    | exact .inr ⟨_, rfl, rfl, rfl, rfl⟩

theorem World.Inv.interrupt (inv : w.Inv events) (scancode : UInt8) :
    World.Inv (w.step (.interrupt scancode)).1
      (events ++ (w.step (.interrupt scancode)).2.toList) := by
  simp only [World.step]
  rcases ps2KeyboardInterrupt_cases w.keyboard scancode with ⟨c, pushed⟩ | ⟨k', kept, head, tail, buffer⟩
  · rw [pushed]
    exact inv.push c
  · rw [kept, Option.toList_none, List.append_nil]
    refine ⟨?_, head.trans inv.head, tail.trans inv.tail, inv.order, inv.room, inv.checked,
      inv.loaded⟩
    rw [buffer]
    exact inv.window

/-- The update of the tail returns the next character in order. -/
theorem World.Inv.advance (inv : w.Inv events) {c : Char} (loaded : w.reader = .loaded c) :
    World.Inv
      { keyboard :=
          { w.keyboard with bufferTail := (w.keyboard.bufferTail + 1) % keyboardBufferSize }
        reader := .idle }
      (events ++ [.returned c]) := by
  have found := inv.loaded c loaded
  obtain ⟨inside, same⟩ := List.getElem?_eq_some_iff.mp found
  have acceptedEq : accepted (events ++ [.returned c]) = accepted events := by simp [accepted]
  have returnedEq : returned (events ++ [.returned c]) = returned events ++ [c] := by
    simp [returned]
  have room := inv.room
  refine ⟨?_, ?_, ?_, ?_, ?_, nofun, nofun⟩
  · rw [acceptedEq, returnedEq, List.length_append, List.length_singleton]
    exact inv.window.mono (by omega)
  · rw [acceptedEq]
    exact inv.head
  · rw [returnedEq, List.length_append, List.length_singleton, inv.tail, Nat.mod_add_mod]
  · rw [acceptedEq, returnedEq]
    obtain ⟨rest, whole⟩ := inv.order
    cases rest with
    | nil =>
      rw [List.append_nil] at whole
      rw [whole] at inside
      omega
    | cons d rest =>
      rw [← whole, List.getElem?_append_right (le_refl _), Nat.sub_self] at found
      cases found
      rw [← whole, List.append_cons _ c rest]
      exact List.prefix_append _ _
  · rw [acceptedEq, returnedEq, List.length_append, List.length_singleton]
    omega

theorem World.Inv.read (inv : w.Inv events) :
    World.Inv (w.step .read).1 (events ++ (w.step .read).2.toList) := by
  simp only [World.step, ps2KeyboardReadCharNonblocking]
  cases reader : w.reader with
  | idle =>
    dsimp only
    split
    · exact inv.congr (by simp [accepted]) (by simp [returned])
    · next apart =>
      have some : returned events ≠ accepted events := fun same => apart (inv.empty_iff.mpr same)
      rw [Option.toList_none, List.append_nil]
      refine ⟨inv.window, inv.head, inv.tail, inv.order, inv.room, fun _ => ?_, nofun⟩
      exact lt_of_le_of_ne inv.order.length_le fun same => some (inv.order.eq_of_length same)
  | checked =>
    rw [Option.toList_none, List.append_nil]
    refine ⟨inv.window, inv.head, inv.tail, inv.order, inv.room, nofun, ?_⟩
    intro c loaded
    have unread := inv.checked reader
    have found := List.getElem?_eq_getElem unread
    have cell := inv.window.entry _ _ (le_refl _) found
    cases loaded
    rw [inv.tail, cell]
    exact found
  | loaded c => exact inv.advance reader

theorem World.Inv.step (inv : w.Inv events) (action : Action) :
    World.Inv (w.step action).1 (events ++ (w.step action).2.toList) := by
  cases action with
  | interrupt scancode => exact inv.interrupt scancode
  | read => exact inv.read

theorem World.Inv.run (inv : w.Inv events) (actions : List Action) :
    World.Inv (w.run events actions).1 (w.run events actions).2 := by
  induction actions generalizing w events with
  | nil => exact inv
  | cons action actions ih => exact ih (inv.step action)

theorem World.Inv.start (buffer : Nat → Char) : World.Inv (World.start buffer) [] where
  window := .empty _ _
  head := rfl
  tail := rfl
  order := List.prefix_refl _
  room := by decide
  checked := nofun
  loaded := nofun

theorem ps2KeyboardInterrupt_returns (k : Keyboard) (scancode : UInt8) :
    (ps2KeyboardInterrupt k scancode).2 ≠ some .returnedFalse := by
  rcases ps2KeyboardInterrupt_cases k scancode with ⟨c, pushed⟩ | ⟨k', kept, -⟩
  · rw [pushed]
    unfold keyboardPushChar
    dsimp only
    split <;> simp
  · rw [kept]
    nofun

/-- A push is dropped in a full ring only. -/
theorem World.Inv.of_dropped (inv : w.Inv events) {action : Action} {c : Char}
    (event : (w.step action).2 = some (.dropped c)) :
    (accepted events).length = (returned events).length + 255 := by
  cases action with
  | interrupt scancode =>
    simp only [World.step] at event
    rcases ps2KeyboardInterrupt_cases w.keyboard scancode with ⟨d, pushed⟩ | ⟨k', kept, -⟩
    · rw [pushed] at event
      unfold keyboardPushChar at event
      dsimp only at event
      split at event
      · next full => exact inv.full_iff.mp full
      · cases event
    · rw [kept] at event
      cases event
  | read =>
    simp only [World.step, ps2KeyboardReadCharNonblocking] at event
    repeat' split at event
    all_goals cases event

/-- A read fails on an empty ring only. -/
theorem World.Inv.of_returnedFalse (inv : w.Inv events) {action : Action}
    (event : (w.step action).2 = some .returnedFalse) : returned events = accepted events := by
  cases action with
  | interrupt scancode => exact absurd event (ps2KeyboardInterrupt_returns _ _)
  | read =>
    simp only [World.step, ps2KeyboardReadCharNonblocking] at event
    split at event
    · split at event
      · next same => exact inv.empty_iff.mp same
      · cases event
    · cases event
    · cases event

end Steps

/-- **The keyboard ring is a lossless queue.**  In every run, wherever the
interrupts fall, the characters that the reads have returned are the first of the
accepted ones; a push that comes next is dropped only if 255 characters are
unread; a read that comes next fails only if every accepted character has been
returned. -/
theorem keyboard_ring_lossless (buffer : Nat → Char) (actions : List Action) (w : World)
    (events : List Event) (ran : (World.start buffer).run [] actions = (w, events)) :
    returned events <+: accepted events ∧
      (∀ action c, (w.step action).2 = some (.dropped c) →
        (accepted events).length = (returned events).length + 255) ∧
      ∀ action, (w.step action).2 = some .returnedFalse → returned events = accepted events := by
  have inv := (World.Inv.start buffer).run actions
  rw [ran] at inv
  exact ⟨inv.order, fun _ _ => inv.of_dropped, fun _ => inv.of_returnedFalse⟩

/-- The interrupt pushes `b` between the load of `a` and the update of the tail. -/
theorem keyboard_ring_lossless_between :
    returned [.accepted 'a', .accepted 'b', .returned 'a'] <+:
      accepted [.accepted 'a', .accepted 'b', .returned 'a'] :=
  (keyboard_ring_lossless (fun _ => ' ')
    [.interrupt 0x1E, .read, .read, .interrupt 0x30, .read] _ _ rfl).1

end Dfos.Drivers
