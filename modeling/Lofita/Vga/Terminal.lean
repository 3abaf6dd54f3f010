import Lofita.Vga.Model

/-! # The screen shows the tail of an unbounded terminal

`Terminal` is what the driver is for: an unlimited sheet of rows of 80 cells on
which bytes are typed, with no scrolling. `Shows` relates the driver to it: the
screen is the window of 25 rows that ends at the last row reached. One byte keeps
the relation (`Shows.putChar`), hence every sequence of bytes does
(`print_shows`).
-/

namespace Lofita.Vga

open Lofita.Foundation

/-- A sheet of rows of cells and the position typed at. -/
structure Terminal where
  cells : Nat → Nat → U16
  row : Nat
  col : Nat

namespace Terminal

/-- The blank sheet. -/
def blank (attr : U8) : Terminal := { cells := fun _ _ => cell 0x20 attr, row := 0, col := 0 }

/-- Write a cell of the row typed at. -/
def write (col : Nat) (value : U16) (terminal : Terminal) : Terminal :=
  { terminal with
    cells := fun r c => if r = terminal.row ∧ c = col then value else terminal.cells r c }

/-- Move on to the next row at the end of a row. -/
def wrap (terminal : Terminal) : Terminal :=
  if terminal.col < vgaWidth then terminal
  else { terminal with row := terminal.row + 1, col := 0 }

/-- What one byte does within its row. -/
def press (attr char : U8) (terminal : Terminal) : Terminal :=
  if char = 0x0A then { terminal with row := terminal.row + 1, col := 0 }
  else if char = 0x0D then { terminal with col := 0 }
  else if char = 0x09 then { terminal with col := (terminal.col / 8 + 1) * 8 }
  else if char = 0x08 then
    if 0 < terminal.col then
      { terminal.write (terminal.col - 1) (cell 0x20 attr) with col := terminal.col - 1 }
    else terminal
  else { terminal.write terminal.col (cell char attr) with col := terminal.col + 1 }

/-- The first of the last 25 rows reached, or row 0 while there are fewer. -/
def firstVisible (terminal : Terminal) : Nat := terminal.row - (vgaHeight - 1)

/-- Type a sequence of bytes. -/
def type (attr : U8) (msg : List U8) (terminal : Terminal) : Terminal :=
  msg.foldl (fun terminal char => (terminal.press attr char).wrap) terminal

end Terminal

/-! ### Loops over cells -/

/-- The cells after a part of a row was cleared. -/
theorem clearRow_cells (row : Nat) (attr : U8) {remaining c : Nat} (buffer : TextBuffer)
    (index : Nat) :
    (clearRow row attr remaining c buffer).cells index =
      if row * vgaWidth + c ≤ index ∧ index < row * vgaWidth + c + remaining then cell 0x20 attr
      else buffer.cells index := by
  induction remaining generalizing c buffer with
  | zero => rw [if_neg (by omega)]; rfl
  | succ remaining ih =>
      rw [clearRow, ih]
      simp only [putCharAt, TextBuffer.store]
      split_ifs <;> first | rfl | omega

/-- The cells after a part of a row was moved up. -/
theorem moveRow_cells {r : Nat} (positive : 1 ≤ r) {remaining c : Nat} (buffer : TextBuffer)
    (within : c + remaining ≤ vgaWidth) (index : Nat) :
    (moveRow r remaining c buffer).cells index =
      if (r - 1) * vgaWidth + c ≤ index ∧ index < (r - 1) * vgaWidth + c + remaining then
        buffer.cells (index + vgaWidth)
      else buffer.cells index := by
  have above : r * vgaWidth = (r - 1) * vgaWidth + vgaWidth := by
    rw [← Nat.succ_mul, Nat.succ_eq_add_one, Nat.sub_add_cancel positive]
  induction remaining generalizing c buffer with
  | zero => rw [if_neg (by omega)]; rfl
  | succ remaining ih =>
      rw [moveRow, ih _ (by omega)]
      simp only [TextBuffer.store]
      by_cases here : index = (r - 1) * vgaWidth + c
      · subst here
        have source : r * vgaWidth + c = (r - 1) * vgaWidth + c + vgaWidth := by omega
        rw [if_neg (by omega), if_pos rfl, if_pos (by omega), source]
      · by_cases rest : (r - 1) * vgaWidth + (c + 1) ≤ index ∧
            index < (r - 1) * vgaWidth + (c + 1) + remaining
        · rw [if_pos rest, if_neg (by omega), if_pos (by omega)]
        · rw [if_neg rest, if_neg here, if_neg (by omega)]

/-- Moving rows up from row `r` on moves each cell by the width of a row. -/
theorem moveRows_cells {remaining r : Nat} (positive : 1 ≤ r) (buffer : TextBuffer) (index : Nat) :
    (moveRows remaining r buffer).cells index =
      if (r - 1) * vgaWidth ≤ index ∧ index < (r - 1) * vgaWidth + remaining * vgaWidth then
        buffer.cells (index + vgaWidth)
      else buffer.cells index := by
  have width : vgaWidth = 80 := rfl
  induction remaining generalizing r buffer with
  | zero => rw [if_neg (by omega)]; rfl
  | succ remaining ih =>
      have row : (r + 1 - 1) * vgaWidth = (r - 1) * vgaWidth + vgaWidth := by
        rw [← Nat.succ_mul, Nat.succ_eq_add_one, Nat.sub_add_cancel positive, Nat.add_sub_cancel]
      have size : (remaining + 1) * vgaWidth = remaining * vgaWidth + vgaWidth :=
        Nat.succ_mul remaining vgaWidth
      rw [moveRows, ih (by omega), moveRow_cells positive buffer (by omega),
        moveRow_cells positive buffer (by omega), row, size]
      by_cases here : (r - 1) * vgaWidth ≤ index ∧ index < (r - 1) * vgaWidth + vgaWidth
      · rw [if_neg (by omega), if_pos (by omega), if_pos (by omega)]
      · by_cases rest : (r - 1) * vgaWidth + vgaWidth ≤ index ∧
            index < (r - 1) * vgaWidth + vgaWidth + remaining * vgaWidth
        · rw [if_pos rest, if_neg (by omega), if_pos (by omega)]
        · rw [if_neg rest, if_neg (by omega), if_neg (by omega)]

/-- The cells after rows were cleared. -/
theorem clearRows_cells (attr : U8) {remaining r : Nat} (buffer : TextBuffer) (index : Nat) :
    (clearRows attr remaining r buffer).cells index =
      if r * vgaWidth ≤ index ∧ index < r * vgaWidth + remaining * vgaWidth then cell 0x20 attr
      else buffer.cells index := by
  have width : vgaWidth = 80 := rfl
  induction remaining generalizing r buffer with
  | zero => rw [if_neg (by omega)]; rfl
  | succ remaining ih =>
      have row : (r + 1) * vgaWidth = r * vgaWidth + vgaWidth := Nat.succ_mul r vgaWidth
      have size : (remaining + 1) * vgaWidth = remaining * vgaWidth + vgaWidth :=
        Nat.succ_mul remaining vgaWidth
      rw [clearRows, ih, clearRow_cells, row, size]
      split_ifs <;> first | rfl | omega

/-! ### Where the loops write -/

/-- Every store went to a cell of the screen. -/
def TextBuffer.Inside (buffer : TextBuffer) : Prop :=
  ∀ index ∈ buffer.stores, index < vgaHeight * vgaWidth

/-- A store on the screen stays inside. -/
theorem TextBuffer.Inside.store {buffer : TextBuffer} (inside : buffer.Inside) {index : Nat}
    (below : index < vgaHeight * vgaWidth) (value : U16) : (buffer.store index value).Inside := by
  intro other member
  rcases List.mem_cons.mp member with rfl | earlier
  · exact below
  · exact inside other earlier

/-- A position on the screen names a cell of the screen. -/
theorem position_lt {row col : Nat} (rowBelow : row < vgaHeight) (colBelow : col < vgaWidth) :
    row * vgaWidth + col < vgaHeight * vgaWidth := by
  simp only [vgaHeight, vgaWidth] at *
  omega

/-- Clearing a row stays inside. -/
theorem clearRow_inside {row : Nat} (rowBelow : row < vgaHeight) (attr : U8) {remaining c : Nat}
    {buffer : TextBuffer} (inside : buffer.Inside) (within : c + remaining ≤ vgaWidth) :
    (clearRow row attr remaining c buffer).Inside := by
  induction remaining generalizing c buffer with
  | zero => exact inside
  | succ remaining ih =>
      exact ih (inside.store (position_lt rowBelow (by omega)) _) (by omega)

theorem clearRows_inside (attr : U8) {remaining r : Nat} {buffer : TextBuffer}
    (inside : buffer.Inside) (within : r + remaining ≤ vgaHeight) :
    (clearRows attr remaining r buffer).Inside := by
  induction remaining generalizing r buffer with
  | zero => exact inside
  | succ remaining ih =>
      exact ih (clearRow_inside (by omega) attr inside (by omega)) (by omega)

theorem moveRow_inside {r : Nat} (rowBelow : r < vgaHeight) {remaining c : Nat}
    {buffer : TextBuffer} (inside : buffer.Inside) (within : c + remaining ≤ vgaWidth) :
    (moveRow r remaining c buffer).Inside := by
  induction remaining generalizing c buffer with
  | zero => exact inside
  | succ remaining ih =>
      exact ih (inside.store (position_lt (by omega) (by omega)) _) (by omega)

theorem moveRows_inside {remaining r : Nat} {buffer : TextBuffer} (inside : buffer.Inside)
    (within : r + remaining ≤ vgaHeight) : (moveRows remaining r buffer).Inside := by
  induction remaining generalizing r buffer with
  | zero => exact inside
  | succ remaining ih =>
      exact ih (moveRow_inside (by omega) inside (by omega)) (by omega)

/-! ### The window on the sheet -/

/-- The screen is the window of rows from `top` on, the cursor is at the position
typed at, and no row below the window has been written. -/
structure Window (attr : U8) (top : Nat) (vga : VgaState) (terminal : Terminal) : Prop where
  cells : ∀ r, r < vgaHeight → ∀ c, c < vgaWidth →
    vga.buffer.cells (r * vgaWidth + c) = terminal.cells (top + r) c
  row : top + vga.cursorRow = terminal.row
  col : vga.cursorCol = terminal.col
  colour : vga.defaultAttr = attr
  fresh : ∀ r, top + vgaHeight ≤ r → ∀ c, terminal.cells r c = cell 0x20 attr
  inside : vga.buffer.Inside

variable {attr : U8} {top : Nat} {vga : VgaState} {terminal : Terminal}

/-- Writing a cell in the row of the cursor writes the cell typed at. -/
theorem Window.write (window : Window attr top vga terminal) (rowBelow : vga.cursorRow < vgaHeight)
    {col : Nat} (colBelow : col < vgaWidth) (char : U8) (cursorCol : Nat) :
    Window attr top
      { vga with
        buffer := putCharAt col vga.cursorRow char vga.defaultAttr vga.buffer
        cursorCol := cursorCol }
      { terminal.write col (cell char attr) with col := cursorCol } where
  cells := by
    intro r rBelow c cBelow
    have position : r * vgaWidth + c = vga.cursorRow * vgaWidth + col ↔
        top + r = terminal.row ∧ c = col := by
      rw [← window.row]
      simp only [vgaWidth] at *
      omega
    simp only [putCharAt, TextBuffer.store, Terminal.write, position, window.colour]
    rw [window.cells r rBelow c cBelow]
  row := window.row
  col := rfl
  colour := window.colour
  fresh := by
    intro r below c
    have elsewhere : ¬ (r = terminal.row ∧ c = col) := by
      rintro ⟨rfl, _⟩
      have := window.row
      omega
    simp only [Terminal.write, elsewhere, ↓reduceIte]
    exact window.fresh r below c
  inside := window.inside.store (position_lt rowBelow colBelow) _

/-- The next multiple of eight. -/
theorem tabStop_eq {col : Nat} (below : col < vgaWidth) : tabStop col = (col / 8 + 1) * 8 := by
  have every : ∀ col < vgaWidth, tabStop col = (col / 8 + 1) * 8 := by decide
  exact every col below

/-- One byte has the same effect within its row on the screen and on the sheet. -/
theorem Window.press (window : Window attr top vga terminal) (rowBelow : vga.cursorRow < vgaHeight)
    (colBelow : vga.cursorCol < vgaWidth) (char : U8) :
    Window attr top (typed char vga) (terminal.press attr char) := by
  have colIs := window.col
  unfold typed Terminal.press
  split_ifs with newline carriageReturn tab backspace behind atStart atStart
  · have row := window.row
    exact { window with row := by simp only; omega, col := rfl }
  · exact { window with col := rfl }
  · exact { window with col := (tabStop_eq colBelow).trans (by rw [colIs]) }
  · rw [← colIs]
    exact window.write rowBelow (by omega) 0x20 _
  · omega
  · omega
  · exact window
  · rw [← colIs]
    exact window.write rowBelow colBelow char _

/-- A byte moves the cursor at most to the start of the row below the screen. -/
theorem typed_bounds (rowBelow : vga.cursorRow < vgaHeight) (char : U8) :
    vga.cursorRow ≤ (typed char vga).cursorRow ∧
      ((typed char vga).cursorRow < vgaHeight ∨
        (typed char vga).cursorRow = vgaHeight ∧ (typed char vga).cursorCol = 0) := by
  unfold typed
  split_ifs with newline carriageReturn tab backspace behind
  · exact ⟨Nat.le_succ _, (Nat.lt_or_eq_of_le rowBelow).imp_right fun full => ⟨full, rfl⟩⟩
  all_goals exact ⟨le_rfl, Or.inl rowBelow⟩

/-- Going to the next row keeps the window. -/
theorem Window.wrap (window : Window attr top vga terminal) :
    Window attr top (wrapColumns vga) terminal.wrap := by
  have row := window.row
  have col := window.col
  unfold wrapColumns Terminal.wrap
  split_ifs
  · omega
  · exact { window with row := by simp only; omega, col := rfl }
  · exact window
  · omega

/-- It leaves the cursor on the screen or just below it. -/
theorem wrapColumns_bounds (bounds : vga.cursorRow < vgaHeight ∨
      vga.cursorRow = vgaHeight ∧ vga.cursorCol = 0) :
    vga.cursorRow ≤ (wrapColumns vga).cursorRow ∧ (wrapColumns vga).cursorRow ≤ vgaHeight ∧
      (wrapColumns vga).cursorCol < vgaWidth := by
  have width : vgaWidth = 80 := rfl
  unfold wrapColumns
  split_ifs with full
  · have row : vga.cursorRow + 1 ≤ vgaHeight := by omega
    exact ⟨Nat.le_succ _, row, (by decide : 0 < vgaWidth)⟩
  · omega

/-- The hardware cursor is no part of the window. -/
theorem Window.updateCursor (window : Window attr top vga terminal) (col row : Nat) :
    Window attr top (updateCursor col row vga) terminal :=
  { window with }

/-- Scrolling moves the window down by one row. -/
theorem Window.scroll (window : Window attr top vga terminal) (below : vga.cursorRow = vgaHeight) :
    Window attr (top + 1) (scroll vga) terminal ∧ (scroll vga).cursorRow = vgaHeight - 1 := by
  have height : vgaHeight = 25 := rfl
  have width : vgaWidth = 80 := rfl
  have lastRow : (Vga.scroll vga).cursorRow = vgaHeight - 1 := by
    simp only [Vga.scroll, Vga.updateCursor]
    split_ifs <;> omega
  have row := window.row
  refine ⟨⟨?_, ?_, window.col, window.colour, ?_, ?_⟩, lastRow⟩
  · intro r rBelow c cBelow
    simp only [Vga.scroll, Vga.updateCursor]
    rw [clearRow_cells, moveRows_cells le_rfl]
    by_cases last : r = vgaHeight - 1
    · subst last
      rw [if_pos (by omega), window.colour, window.fresh _ (by omega)]
    · have position : r * vgaWidth = r * 80 := by rw [width]
      have bottom : (vgaHeight - 1) * vgaWidth = 1920 := rfl
      have next : r * vgaWidth + c + vgaWidth = (r + 1) * vgaWidth + c := by
        rw [Nat.succ_mul]
        omega
      rw [if_neg (by omega), if_pos (by omega), next, window.cells _ (by omega) c cBelow]
      congr 1
      omega
  · rw [lastRow]
    omega
  · intro r rBelow
    exact window.fresh r (by omega)
  · exact clearRow_inside (by decide) _ (moveRows_inside window.inside (by decide)) (by decide)

/-! ### One byte and every sequence of bytes -/

/-- The screen shows the last rows reached, the cursors are at the position typed
at, and no cell outside the screen has been written. -/
structure Shows (vga : VgaState) (terminal : Terminal) : Prop where
  cells : ∀ r, r < vgaHeight → ∀ c, c < vgaWidth →
    vga.buffer.cells (r * vgaWidth + c) = terminal.cells (terminal.firstVisible + r) c
  row : terminal.firstVisible + vga.cursorRow = terminal.row
  col : vga.cursorCol = terminal.col
  rowBelow : vga.cursorRow < vgaHeight
  colBelow : vga.cursorCol < vgaWidth
  location : vga.location.1.toNat + 256 * vga.location.2.toNat =
    vga.cursorRow * vgaWidth + vga.cursorCol
  stores : ∀ index ∈ vga.buffer.stores, index < 2000

/-- The screen shows the window at the bottom of the rows reached, with the cursor on
the last row unless all rows reached fit. -/
structure Tail (attr : U8) (vga : VgaState) (terminal : Terminal) : Prop where
  window : Window attr terminal.firstVisible vga terminal
  rowBelow : vga.cursorRow < vgaHeight
  colBelow : vga.cursorCol < vgaWidth
  location : vga.location.1.toNat + 256 * vga.location.2.toNat =
    vga.cursorRow * vgaWidth + vga.cursorCol

/-- A screen that has the end of the text shows it. -/
theorem Tail.shows (tail : Tail attr vga terminal) : Shows vga terminal where
  cells := tail.window.cells
  row := tail.window.row
  col := tail.window.col
  rowBelow := tail.rowBelow
  colBelow := tail.colBelow
  location := tail.location
  stores := tail.window.inside

/-- The hardware cursor is told its place. -/
theorem updateCursor_location {row col : Nat} (rowBelow : row < vgaHeight)
    (colBelow : col < vgaWidth) (vga : VgaState) :
    (updateCursor col row vga).location.1.toNat +
      256 * (updateCursor col row vga).location.2.toNat = row * vgaWidth + col := by
  have small : row * vgaWidth + col < 2000 := position_lt rowBelow colBelow
  have low (pos : U16) : ((pos &&& 0xFF).setWidth 8).toNat = pos.toNat % 256 := by
    rw [BitVec.toNat_setWidth, BitVec.toNat_and]
    exact (congrArg (· % 256) (Nat.and_two_pow_sub_one_eq_mod pos.toNat 8)).trans
      (Nat.mod_mod _ _)
  simp only [updateCursor, low, BitVec.toNat_ushiftRight, BitVec.toNat_ofNat,
    Nat.shiftRight_eq_div_pow]
  omega

/-- Moving the hardware cursor to a cursor on the screen completes a byte. -/
theorem Window.tail (window : Window attr top vga terminal) (isTop : terminal.firstVisible = top)
    (rowBelow : vga.cursorRow < vgaHeight) (colBelow : vga.cursorCol < vgaWidth) :
    Tail attr (Vga.updateCursor vga.cursorCol vga.cursorRow vga) terminal where
  window := isTop ▸ window.updateCursor _ _
  rowBelow := rowBelow
  colBelow := colBelow
  location := updateCursor_location rowBelow colBelow vga

/-- A character keeps the screen at the end of the text. -/
theorem Tail.putChar (tail : Tail attr vga terminal) (char : U8) :
    Tail attr (putChar char vga) (terminal.press attr char).wrap := by
  have height : vgaHeight = 25 := rfl
  obtain ⟨window, rowBelow, colBelow, _⟩ := tail
  have pressed := (window.press rowBelow colBelow char).wrap
  obtain ⟨onward, within⟩ := typed_bounds rowBelow char
  obtain ⟨onwardToo, rowWithin, colWithin⟩ := wrapColumns_bounds within
  have oldRow := window.row
  have newRow := pressed.row
  unfold Vga.putChar
  dsimp only
  split_ifs with below
  · obtain ⟨scrolled, lastRow⟩ := pressed.scroll (by omega)
    have moved : ((terminal.press attr char).wrap).firstVisible = terminal.firstVisible + 1 := by
      unfold Terminal.firstVisible at *
      omega
    exact scrolled.tail moved (by omega) colWithin
  · have still : ((terminal.press attr char).wrap).firstVisible = terminal.firstVisible := by
      unfold Terminal.firstVisible at *
      omega
    exact pressed.tail still (by omega) colWithin

/-- Clearing the screen starts a blank sheet. -/
theorem tail_clear (vga : VgaState) (unwritten : vga.buffer.stores = []) :
    Tail vga.defaultAttr (clear vga) (.blank vga.defaultAttr) := by
  have width : vgaWidth = 80 := rfl
  have window : Window vga.defaultAttr 0
      { vga with
        buffer := clearRows vga.defaultAttr vgaHeight 0 vga.buffer, cursorCol := 0, cursorRow := 0 }
      (.blank vga.defaultAttr) := by
    refine ⟨?_, rfl, rfl, rfl, fun _ _ _ => rfl, ?_⟩
    · intro r rBelow c cBelow
      have inside := position_lt rBelow cBelow
      simp only [Terminal.blank]
      rw [clearRows_cells, if_pos (by omega)]
    · refine clearRows_inside _ ?_ (by decide)
      intro index member
      rw [unwritten] at member
      cases member
  exact window.tail rfl (by decide : 0 < vgaHeight) (by decide : 0 < vgaWidth)

theorem Tail.print (tail : Tail attr vga terminal) (msg : List U8) :
    Tail attr (print msg vga) (terminal.type attr msg) := by
  induction msg generalizing vga terminal with
  | nil => exact tail
  | cons char msg ih => exact ih (tail.putChar char)

/-- **The screen shows the tail of an unbounded terminal.** After clearing the screen
and any sequence of bytes, the screen shows the last 25 rows reached of a terminal on
which the same bytes are typed, with the cursor at the same position; no byte has
been written outside the screen. -/
theorem print_shows (vga : VgaState) (msg : List U8) :
    Shows (print msg (clear { vga with buffer := { vga.buffer with stores := [] } }))
      ((Terminal.blank vga.defaultAttr).type vga.defaultAttr msg) :=
  ((tail_clear { vga with buffer := { vga.buffer with stores := [] } } rfl).print msg).shows

end Lofita.Vga
