import Mathlib.Logic.Function.Basic
import Mathlib.Order.Nat

/-!
# The VGA console

`kernel/arch/i386/vga_console.c`: a text buffer of 25 rows of 80 cells, scrolled in
place.  It is compared with a page of unbounded height that is never scrolled.
-/

namespace Dfos.Drivers

/-- `VGA_WIDTH`. -/
def vgaWidth : Nat := 80

/-- `VGA_HEIGHT`. -/
def vgaHeight : Nat := 25

/-- `vga_entry`. -/
def vgaEntry (uc color : UInt8) : UInt16 := uc.toUInt16 ||| (color.toUInt16 <<< 8)

/-- The static data of the console. -/
structure Terminal where
  row : Nat
  column : Nat
  color : UInt8
  buffer : Nat → UInt16

/-- `vga_entry(' ', terminal_color)`. -/
def Terminal.blank (t : Terminal) : UInt16 := vgaEntry 0x20 t.color

/-! ## Scrolling and clearing -/

/-- The inner loop of `terminal_scroll` over the first cells of row `y`. -/
def copyRow (y : Nat) (buffer : Nat → UInt16) : Nat → Nat → UInt16
  | 0 => buffer
  | x + 1 =>
      let buffer := copyRow y buffer x
      Function.update buffer ((y - 1) * vgaWidth + x) (buffer (y * vgaWidth + x))

/-- The outer loop over the rows from 1 to `rows`. -/
def copyRows (buffer : Nat → UInt16) : Nat → Nat → UInt16
  | 0 => buffer
  | rows + 1 => copyRow (rows + 1) (copyRows buffer rows) vgaWidth

/-- The loop that blanks the first cells of row `y`. -/
def blankRow (entry : UInt16) (y : Nat) (buffer : Nat → UInt16) : Nat → Nat → UInt16
  | 0 => buffer
  | x + 1 => Function.update (blankRow entry y buffer x) (y * vgaWidth + x) entry

/-- The loop of `vga_console_clear` over the first rows. -/
def blankRows (entry : UInt16) (buffer : Nat → UInt16) : Nat → Nat → UInt16
  | 0 => buffer
  | rows + 1 => blankRow entry rows (blankRows entry buffer rows) vgaWidth

/-- `terminal_scroll`. -/
def terminalScroll (t : Terminal) : Terminal :=
  { t with
    buffer := blankRow t.blank (vgaHeight - 1) (copyRows t.buffer (vgaHeight - 1)) vgaWidth }

/-- `vga_console_clear`. -/
def vgaConsoleClear (t : Terminal) : Terminal :=
  { t with buffer := blankRows t.blank t.buffer vgaHeight, row := 0, column := 0 }

/-! ## Output -/

/-- `terminal_putentryat`. -/
def terminalPutentryat (t : Terminal) (c : UInt8) (color : UInt8) (x y : Nat) : Terminal :=
  { t with buffer := Function.update t.buffer (y * vgaWidth + x) (vgaEntry c color) }

/-- The start of the next row, which scrolls at the bottom: the statements that
`vga_console_putchar` has in two places. -/
def nextRow (t : Terminal) : Terminal :=
  let t := { t with column := 0, row := t.row + 1 }
  if t.row = vgaHeight then terminalScroll { t with row := vgaHeight - 1 } else t

/-- The cursor one cell back, but not before the first one. -/
def stepBack (t : Terminal) : Terminal :=
  if t.column > 0 then { t with column := t.column - 1 }
  else if t.row > 0 then { t with row := t.row - 1, column := vgaWidth - 1 }
  else t

/-- `vga_console_putchar`. -/
def vgaConsolePutchar (t : Terminal) (c : UInt8) : Terminal :=
  if c = 0x08 then
    let t := stepBack t
    terminalPutentryat t 0x20 t.color t.column t.row
  else if c = 0x0A then nextRow t
  else
    let t := terminalPutentryat t c t.color t.column t.row
    let t := { t with column := t.column + 1 }
    if t.column = vgaWidth then nextRow t else t

/-- `vga_console_write`. -/
def vgaConsoleWrite (t : Terminal) (data : List UInt8) : Terminal := data.foldl vgaConsolePutchar t

/-! ## The page of unbounded height -/

structure Page where
  row : Nat
  column : Nat
  cells : Nat → Nat → UInt16

def Page.empty (blank : UInt16) : Page where
  row := 0
  column := 0
  cells _ _ := blank

def Page.nextRow (page : Page) : Page := { page with row := page.row + 1, column := 0 }

/-- A character goes to the cursor; a newline starts the next row, and so does the
character in the last column. -/
def Page.put (color : UInt8) (page : Page) (c : UInt8) : Page :=
  if c = 0x0A then page.nextRow
  else
    let cells := Function.update page.cells page.row
      (Function.update (page.cells page.row) page.column (vgaEntry c color))
    let page := { page with cells := cells, column := page.column + 1 }
    if page.column = vgaWidth then page.nextRow else page

def Page.write (color : UInt8) (page : Page) (data : List UInt8) : Page :=
  data.foldl (Page.put color) page

/-- The first of the last 25 rows. -/
def Page.top (page : Page) : Nat := page.row - (vgaHeight - 1)

/-! ## The loops -/

section Loops

variable {buffer : Nat → UInt16} {entry : UInt16}

theorem copyRow_eq {y n : Nat} (below : 0 < y) (narrow : n ≤ vgaWidth) (k : Nat) :
    copyRow y buffer n k =
      if (y - 1) * vgaWidth ≤ k ∧ k < (y - 1) * vgaWidth + n then buffer (k + vgaWidth)
      else buffer k := by
  induction n generalizing k with
  | zero => rw [copyRow, if_neg (by omega)]
  | succ n ih =>
    have up : (y - 1) * vgaWidth + vgaWidth = y * vgaWidth := by
      obtain ⟨z, rfl⟩ := Nat.exists_eq_succ_of_ne_zero (Nat.pos_iff_ne_zero.mp below)
      rw [Nat.succ_sub_one, Nat.succ_mul]
    rw [copyRow]
    by_cases here : k = (y - 1) * vgaWidth + n
    · -- row `y` is read before the loop over it writes there
      rw [here, Function.update_self, ih (by omega), if_neg (by omega), if_pos (by omega)]
      congr 1
      omega
    · rw [Function.update_of_ne here, ih (by omega)]
      by_cases inside : (y - 1) * vgaWidth ≤ k ∧ k < (y - 1) * vgaWidth + n
      · rw [if_pos inside, if_pos (by omega)]
      · rw [if_neg inside, if_neg (by omega)]

theorem copyRows_eq (rows k : Nat) :
    copyRows buffer rows k = if k < rows * vgaWidth then buffer (k + vgaWidth) else buffer k := by
  induction rows generalizing k with
  | zero => rw [copyRows, if_neg (by omega)]
  | succ rows ih =>
    have width : (rows + 1) * vgaWidth = rows * vgaWidth + vgaWidth := Nat.succ_mul _ _
    rw [copyRows, copyRow_eq (Nat.succ_pos rows) (le_refl _), Nat.succ_sub_one]
    by_cases inside : rows * vgaWidth ≤ k ∧ k < rows * vgaWidth + vgaWidth
    · rw [if_pos inside, ih, if_neg (by omega), if_pos (by omega)]
    · rw [if_neg inside, ih]
      by_cases above : k < rows * vgaWidth
      · rw [if_pos above, if_pos (by omega)]
      · rw [if_neg above, if_neg (by omega)]

theorem blankRow_eq (y n k : Nat) :
    blankRow entry y buffer n k =
      if y * vgaWidth ≤ k ∧ k < y * vgaWidth + n then entry else buffer k := by
  induction n with
  | zero => rw [blankRow, if_neg (by omega)]
  | succ n ih =>
    rw [blankRow]
    by_cases here : k = y * vgaWidth + n
    · rw [here, Function.update_self, if_pos (by omega)]
    · rw [Function.update_of_ne here, ih]
      by_cases inside : y * vgaWidth ≤ k ∧ k < y * vgaWidth + n
      · rw [if_pos inside, if_pos (by omega)]
      · rw [if_neg inside, if_neg (by omega)]

theorem blankRows_eq (rows k : Nat) :
    blankRows entry buffer rows k = if k < rows * vgaWidth then entry else buffer k := by
  induction rows with
  | zero => rw [blankRows, if_neg (by omega)]
  | succ rows ih =>
    have width : (rows + 1) * vgaWidth = rows * vgaWidth + vgaWidth := Nat.succ_mul _ _
    rw [blankRows, blankRow_eq, ih]
    by_cases inside : rows * vgaWidth ≤ k ∧ k < rows * vgaWidth + vgaWidth
    · rw [if_pos inside, if_pos (by omega)]
    · rw [if_neg inside]
      by_cases above : k < rows * vgaWidth
      · rw [if_pos above, if_pos (by omega)]
      · rw [if_neg above, if_neg (by omega)]

/-- **One scroll**: every row moves up by one, and the last one is blank. -/
theorem terminalScroll_buffer (t : Terminal) (k : Nat) :
    (terminalScroll t).buffer k =
      if k < 24 * vgaWidth then t.buffer (k + vgaWidth)
      else if k < 25 * vgaWidth then t.blank else t.buffer k := by
  change blankRow t.blank 24 (copyRows t.buffer 24) vgaWidth k = _
  rw [blankRow_eq, copyRows_eq]
  by_cases upper : k < 24 * vgaWidth
  · rw [if_neg (by omega), if_pos upper, if_pos upper]
  · rw [if_neg upper, if_neg upper]
    by_cases last : k < 25 * vgaWidth
    · rw [if_pos ⟨by omega, by omega⟩, if_pos last]
    · rw [if_neg (by omega), if_neg last]

end Loops

/-! ## The cursor stays on the screen -/

/-- The cursor is on the screen, and nothing behind the 2000 cells has changed. -/
structure Terminal.InBounds (t : Terminal) (behind : Nat → UInt16) : Prop where
  row : t.row < vgaHeight
  column : t.column < vgaWidth
  outside : ∀ k, 2000 ≤ k → t.buffer k = behind k

section Bounds

variable {t : Terminal} {behind : Nat → UInt16}

theorem cell_lt {x y : Nat} (row : y < vgaHeight) (column : x < vgaWidth) :
    y * vgaWidth + x < 2000 := by
  unfold vgaHeight vgaWidth at *
  omega

theorem Terminal.InBounds.putentryat (inside : t.InBounds behind) (c color : UInt8) :
    (terminalPutentryat t c color t.column t.row).InBounds behind where
  row := inside.row
  column := inside.column
  outside k beyond := by
    have := cell_lt inside.row inside.column
    exact (Function.update_of_ne (by omega) _ _).trans (inside.outside k beyond)

theorem nextRow_inBounds (row : t.row < vgaHeight) (outside : ∀ k, 2000 ≤ k → t.buffer k = behind k) :
    (nextRow t).InBounds behind := by
  unfold nextRow
  dsimp only
  split
  · refine ⟨by change 24 < vgaHeight; decide, by change 0 < vgaWidth; decide, fun k beyond => ?_⟩
    rw [terminalScroll_buffer, if_neg (by unfold vgaWidth; omega), if_neg (by unfold vgaWidth; omega)]
    exact outside k beyond
  · next other => exact ⟨by dsimp only; omega, by dsimp only; decide, outside⟩

theorem Terminal.InBounds.putchar (inside : t.InBounds behind) (c : UInt8) :
    (vgaConsolePutchar t c).InBounds behind := by
  have row := inside.row
  have column := inside.column
  unfold vgaConsolePutchar
  split
  · -- a step back, and a blank there
    refine Terminal.InBounds.putentryat ?_ _ _
    unfold stepBack
    split
    · exact ⟨row, by dsimp only; omega, inside.outside⟩
    split
    · exact ⟨by dsimp only; omega, by dsimp only; decide, inside.outside⟩
    · exact inside
  split
  · exact nextRow_inBounds row inside.outside
  · have put := inside.putentryat c t.color
    dsimp only
    split
    · exact nextRow_inBounds put.row put.outside
    · next other => exact ⟨put.row, lt_of_le_of_ne put.column other, put.outside⟩

theorem Terminal.InBounds.write (inside : t.InBounds behind) (data : List UInt8) :
    (vgaConsoleWrite t data).InBounds behind := by
  induction data generalizing t with
  | nil => exact inside
  | cons c data ih => exact ih (inside.putchar c)

theorem vgaConsoleClear_inBounds (t : Terminal) : (vgaConsoleClear t).InBounds t.buffer where
  row := by change 0 < vgaHeight; decide
  column := by change 0 < vgaWidth; decide
  outside k beyond := by
    change blankRows t.blank t.buffer vgaHeight k = t.buffer k
    rw [blankRows_eq, if_neg (by unfold vgaHeight vgaWidth; omega)]

end Bounds

/-! ## The screen shows the end of the page -/

/-- The buffer is the last 25 rows of the page, and the cursors agree. -/
structure Terminal.Shows (t : Terminal) (page : Page) : Prop where
  row : t.row = page.row - page.top
  column : t.column = page.column
  narrow : page.column < vgaWidth
  cells : ∀ y < vgaHeight, ∀ x < vgaWidth, t.buffer (y * vgaWidth + x) = page.cells (page.top + y) x
  below : ∀ y > page.row, page.cells y = fun _ => t.blank

section Shows

variable {t : Terminal} {page : Page}

theorem cell_inj {x y x' y' : Nat} (narrow : x < vgaWidth) (narrow' : x' < vgaWidth)
    (same : y * vgaWidth + x = y' * vgaWidth + x') : y = y' ∧ x = x' := by
  unfold vgaWidth at *
  omega

/-- The next row: before the bottom the window stays, at the bottom it moves down
by one with the scroll. -/
theorem nextRow_shows (row : t.row = page.row - page.top)
    (cells : ∀ y < vgaHeight, ∀ x < vgaWidth,
      t.buffer (y * vgaWidth + x) = page.cells (page.top + y) x)
    (below : ∀ y > page.row, page.cells y = fun _ => t.blank) :
    (nextRow t).Shows page.nextRow := by
  have top : page.top = page.row - 24 := rfl
  unfold nextRow
  dsimp only
  split
  · next bottom =>
    have top' : page.nextRow.top = page.top + 1 := by
      change page.row + 1 - 24 = page.row - 24 + 1
      unfold vgaHeight at bottom
      omega
    refine ⟨?_, rfl, by change 0 < vgaWidth; decide, ?_, ?_⟩
    · rw [top']
      change 24 = page.row + 1 - (page.top + 1)
      unfold vgaHeight at bottom
      omega
    · intro y low x narrow
      rw [terminalScroll_buffer, top']
      unfold vgaHeight at low bottom
      by_cases last : y = 24
      · -- the row that came in at the bottom
        subst last
        rw [if_neg (by omega), if_pos (by omega)]
        change _ = page.cells (page.top + 1 + 24) x
        rw [below _ (by omega)]
        rfl
      · have upper : y * vgaWidth + x < 24 * vgaWidth := by
          unfold vgaWidth at *
          omega
        rw [if_pos upper]
        have moved := cells (y + 1) (by unfold vgaHeight; omega) x narrow
        rw [Nat.succ_mul] at moved
        change t.buffer (y * vgaWidth + x + vgaWidth) = page.cells (page.top + 1 + y) x
        rw [show y * vgaWidth + x + vgaWidth = y * vgaWidth + vgaWidth + x by omega, moved]
        congr 1
        omega
    · intro y beyond
      exact below y (Nat.lt_of_succ_lt beyond)
  · next other =>
    have small : t.row < 24 ∨ 24 < t.row := by
      unfold vgaHeight at other
      omega
    have top' : page.nextRow.top = page.top := by
      change page.row + 1 - 24 = page.row - 24
      omega
    refine ⟨?_, rfl, by change 0 < vgaWidth; decide, ?_, ?_⟩
    · rw [top']
      change t.row + 1 = page.row + 1 - page.top
      omega
    · rw [top']
      exact cells
    · intro y beyond
      exact below y (Nat.lt_of_succ_lt beyond)

theorem Terminal.Shows.put (shows : t.Shows page) {c : UInt8} (back : c ≠ 0x08) :
    (vgaConsolePutchar t c).Shows (page.put t.color c) := by
  obtain ⟨row, column, narrow, cells, below⟩ := shows
  unfold vgaConsolePutchar Page.put
  rw [if_neg back]
  split
  · exact nextRow_shows row cells below
  · -- the character is written at the cursor of both
    have top : page.top = page.row - 24 := rfl
    have place : page.top + t.row = page.row := by omega
    have written : ∀ y < vgaHeight, ∀ x < vgaWidth,
        Function.update t.buffer (t.row * vgaWidth + t.column) (vgaEntry c t.color)
          (y * vgaWidth + x) =
        Function.update page.cells page.row
          (Function.update (page.cells page.row) page.column (vgaEntry c t.color))
          (page.top + y) x := by
      intro y low x small
      by_cases sameRow : y = t.row
      · rw [sameRow, place, Function.update_self]
        by_cases sameColumn : x = t.column
        · rw [sameColumn, Function.update_self, column, Function.update_self]
        · rw [Function.update_of_ne (by omega), Function.update_of_ne (by rwa [← column]),
            ← place]
          exact cells t.row (sameRow ▸ low) x small
      · rw [Function.update_of_ne (fun same => sameRow (cell_inj small (by omega) same).1),
          Function.update_of_ne (by omega)]
        exact cells y low x small
    have blank : ∀ y > page.row, Function.update page.cells page.row
        (Function.update (page.cells page.row) page.column (vgaEntry c t.color)) y =
          fun _ => t.blank := by
      intro y beyond
      rw [Function.update_of_ne (by omega)]
      exact below y beyond
    unfold terminalPutentryat
    dsimp only
    rw [← column] at written blank narrow ⊢
    by_cases last : t.column + 1 = vgaWidth
    · rw [if_pos last, if_pos last]
      exact nextRow_shows row written blank
    · rw [if_neg last, if_neg last]
      exact ⟨row, rfl, lt_of_le_of_ne narrow last, written, blank⟩

theorem Terminal.color_putchar (t : Terminal) (c : UInt8) : (vgaConsolePutchar t c).color = t.color := by
  unfold vgaConsolePutchar nextRow terminalPutentryat terminalScroll stepBack
  dsimp only
  repeat' split
  all_goals rfl

theorem Terminal.Shows.write (shows : t.Shows page) {data : List UInt8} (back : 0x08 ∉ data) :
    (vgaConsoleWrite t data).Shows (page.write t.color data) := by
  induction data generalizing t page with
  | nil => exact shows
  | cons c data ih =>
    have other : c ≠ 0x08 := fun same => back (same ▸ List.mem_cons_self)
    have rest := ih (shows.put other) fun later => back (List.mem_cons_of_mem _ later)
    rw [t.color_putchar] at rest
    exact rest

theorem vgaConsoleClear_shows (t : Terminal) : (vgaConsoleClear t).Shows (.empty t.blank) where
  row := rfl
  column := rfl
  narrow := by change 0 < vgaWidth; decide
  cells y low x narrow := by
    change blankRows t.blank t.buffer vgaHeight _ = t.blank
    rw [blankRows_eq, if_pos]
    unfold vgaHeight vgaWidth at *
    omega
  below _ _ := rfl

end Shows

/-- **The console shows the tail of an unbounded page.**  After a clear and any
text without backspaces the buffer is the last 25 rows of the page and the cursor
is the page's within them; after any text at all the cursor is on the screen and
no cell behind the 2000 has been written. -/
theorem console_shows_page (t : Terminal) (data : List UInt8) :
    (0x08 ∉ data →
      let page := (Page.empty t.blank).write t.color data
      let shown := vgaConsoleWrite (vgaConsoleClear t) data
      (∀ y < 25, ∀ x < 80, shown.buffer (y * 80 + x) = page.cells (page.row - 24 + y) x) ∧
        shown.row = page.row - (page.row - 24) ∧ shown.column = page.column) ∧
    (vgaConsoleWrite (vgaConsoleClear t) data).row < 25 ∧
    (vgaConsoleWrite (vgaConsoleClear t) data).column < 80 ∧
    ∀ k, 2000 ≤ k → (vgaConsoleWrite (vgaConsoleClear t) data).buffer k = t.buffer k := by
  have inside := (vgaConsoleClear_inBounds t).write data
  refine ⟨?_, inside.row, inside.column, inside.outside⟩
  intro back
  have shows := (vgaConsoleClear_shows t).write back
  exact ⟨shows.cells, shows.row, shows.column⟩

/-- Two rows of a screen that was not cleared before. -/
theorem console_shows_page_twoRows :
    (vgaConsoleWrite (vgaConsoleClear ⟨3, 7, 0, fun _ => 0⟩) [0x61, 0x0A, 0x62]).row = 1 :=
  ((console_shows_page ⟨3, 7, 0, fun _ => 0⟩ [0x61, 0x0A, 0x62]).1 (by decide)).2.1.trans rfl

end Dfos.Drivers
