import Lofita.Foundation.Run
import Lofita.Vga.Numbers
import Lofita.Vga.Terminal

/-! # The line of the shell

The line editor of the shell (`shell.zig`) keeps the typed line in a buffer and echoes it on
the text screen. A backspace takes a byte off the buffer and asks the screen to step back
over it, which the screen refuses at the start of a row. The two stay in step exactly as long
as no byte is erased that ends a row of the screen (`echo_matches_iff`).
-/

namespace Lofita.Vga

open Lofita.Foundation

/-- The bytes of the prompt. -/
def promptText : List U8 := text "lorifa$ "

/-- The prompt, in its colours. -/
def printPrompt (vga : VgaState) : VgaState :=
  setColor .white .black (print promptText (setColor .lightGreen .black vga))

/-- The screen, `line_buf` and `line_len`. -/
structure Shell where
  vga : VgaState
  lineBuf : Vector U8 256
  lineLen : Nat

/-- The bytes `line_buf[0..line_len]`. -/
def Shell.line (shell : Shell) : List U8 := shell.lineBuf.toList.take shell.lineLen

/-- What the loop of `shell_main` does with a key; `executeLine` runs a command. -/
def handleKey (executeLine : List U8 → VgaState → VgaState) (ch : U8) (shell : Shell) : Shell :=
  if ch = 0x0A then
    { shell with
      vga := printPrompt (executeLine shell.line (putChar 0x0A shell.vga)), lineLen := 0 }
  else if ch = 0x08 then
    if shell.lineLen > 0 then
      { shell with
        lineLen := shell.lineLen - 1
        vga := putChar 0x08 (putChar 0x20 (putChar 0x08 shell.vga)) }
    else shell
  else if ch = 0x09 then shell
  else if within : shell.lineLen < 256 - 1 then
    { lineBuf := shell.lineBuf.set shell.lineLen ch (Nat.lt_of_lt_pred within)
      lineLen := shell.lineLen + 1
      vga := putChar ch shell.vga }
  else shell

/-- The line editor, handling one key after the other. -/
def lineEditor (executeLine : List U8 → VgaState → VgaState) : System Shell U8 where
  step := fun shell key => handleKey executeLine key shell

/-- The prompt on a cleared screen, before the first key; nothing has been written to the
line buffer. -/
def prompted (undefined : Vector U8 256) (vga : VgaState) : Shell where
  vga := printPrompt (clear vga)
  lineBuf := undefined
  lineLen := 0

namespace VgaState

/-- The cells before the cursor, row after row. -/
def offset (vga : VgaState) : Nat := vga.cursorRow * vgaWidth + vga.cursorCol

/-- The character in a cell of the screen. -/
def charAt (vga : VgaState) (index : Nat) : U8 := (vga.buffer.cells index).setWidth 8

end VgaState

/-- The screen shows a text from its first cell up to the cursor, and spaces after it. -/
structure Displays (vga : VgaState) (content : List U8) : Prop where
  row : vga.cursorRow < vgaHeight
  col : vga.cursorCol < vgaWidth
  shown : (List.range vga.offset).map vga.charAt = content
  blank : ∀ index, vga.offset ≤ index → index < vgaHeight * vgaWidth → vga.charAt index = 0x20

/-- The bytes that `put_char` writes into the cell of the cursor. -/
def IsPlain (char : U8) : Prop := char ≠ 0x0A ∧ char ≠ 0x0D ∧ char ≠ 0x09 ∧ char ≠ 0x08

instance decidableIsPlain (char : U8) : Decidable (IsPlain char) :=
  inferInstanceAs (Decidable (char ≠ 0x0A ∧ char ≠ 0x0D ∧ char ≠ 0x09 ∧ char ≠ 0x08))

/-! ### One byte on the screen -/

variable {vga : VgaState} {content : List U8} {char : U8}

/-- The character of a cell. -/
theorem setWidth_cell (char attr : U8) : (cell char attr).setWidth 8 = char := by
  unfold cell
  ext i below
  simp

/-- The character at a place after a store. -/
theorem charAt_store (vga : VgaState) (buffer : TextBuffer) (char attr : U8) (position index : Nat)
    (stored : vga.buffer = buffer.store position (cell char attr)) :
    vga.charAt index = if index = position then char else (buffer.cells index).setWidth 8 := by
  unfold VgaState.charAt
  rw [stored]
  simp only [TextBuffer.store]
  split_ifs
  · exact setWidth_cell char attr
  · rfl

/-- A plain byte is written at the cursor, and the cursor moves on by one cell. -/
theorem putChar_plain (plain : IsPlain char) (row : vga.cursorRow < vgaHeight)
    (col : vga.cursorCol < vgaWidth) (room : vga.offset + 1 < vgaHeight * vgaWidth) :
    (putChar char vga).cursorRow < vgaHeight ∧ (putChar char vga).cursorCol < vgaWidth ∧
      (putChar char vga).offset = vga.offset + 1 ∧
      (putChar char vga).buffer = vga.buffer.store vga.offset (cell char vga.defaultAttr) := by
  obtain ⟨newline, carriageReturn, tab, backspace⟩ := plain
  simp only [VgaState.offset, vgaHeight, vgaWidth] at row col room ⊢
  simp only [putChar, wrapColumns, typed, newline, carriageReturn, tab, backspace, ↓reduceIte,
    vgaHeight, vgaWidth]
  by_cases last : vga.cursorCol + 1 ≥ 80
  · simp only [if_pos last]
    rw [if_neg (by omega)]
    exact ⟨by simp only [updateCursor]; omega, by simp only [updateCursor]; omega,
      by simp only [updateCursor]; omega, rfl⟩
  · simp only [if_neg last]
    rw [if_neg (by omega)]
    exact ⟨row, Nat.lt_of_not_le last, rfl, rfl⟩

/-- A plain byte in the last cell makes the screen scroll. -/
theorem offset_putChar_of_last (plain : IsPlain char) (col : vga.cursorCol < vgaWidth)
    (last : vga.offset + 1 = vgaHeight * vgaWidth) :
    (putChar char vga).cursorRow < vgaHeight ∧ (putChar char vga).cursorCol < vgaWidth ∧
      (putChar char vga).offset = 1920 := by
  obtain ⟨newline, carriageReturn, tab, backspace⟩ := plain
  simp only [VgaState.offset, vgaHeight, vgaWidth] at col last ⊢
  have corner : vga.cursorRow = 24 ∧ vga.cursorCol = 79 := by omega
  simp only [putChar, wrapColumns, typed, newline, carriageReturn, tab, backspace, ↓reduceIte,
    vgaHeight, vgaWidth, corner.1, corner.2, Nat.reduceAdd, ge_iff_le, Nat.le_refl, scroll,
    updateCursor]
  decide

/-- Away from the start of a row a backspace steps back over a cell and blanks it. -/
theorem putChar_backspace (row : vga.cursorRow < vgaHeight) (col : vga.cursorCol < vgaWidth)
    (behind : 0 < vga.cursorCol) :
    (putChar 0x08 vga).cursorRow < vgaHeight ∧
      (putChar 0x08 vga).cursorCol = vga.cursorCol - 1 ∧
      (putChar 0x08 vga).offset = vga.offset - 1 ∧
      (putChar 0x08 vga).buffer =
        vga.buffer.store (vga.offset - 1) (cell 0x20 vga.defaultAttr) := by
  have cell : vga.cursorRow * 80 + vga.cursorCol - 1 =
      vga.cursorRow * 80 + (vga.cursorCol - 1) := Nat.add_sub_assoc behind _
  simp only [VgaState.offset, vgaHeight, vgaWidth] at row col ⊢
  have inside : ¬ vga.cursorCol - 1 ≥ 80 := by omega
  have above : ¬ vga.cursorRow ≥ 25 := by omega
  have step : typed 0x08 vga =
      { vga with
        cursorCol := vga.cursorCol - 1
        buffer := putCharAt (vga.cursorCol - 1) vga.cursorRow 0x20 vga.defaultAttr vga.buffer } :=
    if_pos behind
  simp only [putChar, wrapColumns, step, vgaHeight, vgaWidth, if_neg inside, if_neg above,
    updateCursor, putCharAt, cell, and_self, and_true]
  exact row

/-- At the start of a row a backspace does nothing. -/
theorem putChar_backspace_of_start (row : vga.cursorRow < vgaHeight) (start : vga.cursorCol = 0) :
    (putChar 0x08 vga).cursorRow = vga.cursorRow ∧ (putChar 0x08 vga).cursorCol = 0 := by
  have step : typed 0x08 vga = vga := if_neg (Nat.not_lt_of_le (Nat.le_of_eq start))
  have inside : ¬ vga.cursorCol ≥ vgaWidth := by
    rw [start]
    decide
  simp only [putChar, wrapColumns, step, if_neg inside, if_neg (Nat.not_le_of_lt row),
    updateCursor, true_and]
  exact start

/-- Stepping back over a cell, writing a space and stepping back again leaves the cursor a
cell further back, or where it is at the start of a row. -/
theorem offset_erase (row : vga.cursorRow < vgaHeight) (col : vga.cursorCol < vgaWidth) :
    (putChar 0x08 (putChar 0x20 (putChar 0x08 vga))).cursorRow < vgaHeight ∧
      (putChar 0x08 (putChar 0x20 (putChar 0x08 vga))).cursorCol < vgaWidth ∧
      (putChar 0x08 (putChar 0x20 (putChar 0x08 vga))).offset =
        if vga.cursorCol = 0 then vga.offset else vga.offset - 1 := by
  -- the step back, which leaves a cell free in the row
  obtain ⟨backRow, backCol, back⟩ : (putChar 0x08 vga).cursorRow < vgaHeight ∧
      (putChar 0x08 vga).cursorCol + 1 < vgaWidth ∧
      (putChar 0x08 vga).offset = if vga.cursorCol = 0 then vga.offset else vga.offset - 1 := by
    by_cases start : vga.cursorCol = 0
    · obtain ⟨sameRow, sameCol⟩ := putChar_backspace_of_start row start
      rw [if_pos start, VgaState.offset, sameRow, sameCol, VgaState.offset, start]
      exact ⟨row, by decide, rfl⟩
    · obtain ⟨newRow, newCol, offset, -⟩ :=
        putChar_backspace row col (Nat.pos_of_ne_zero start)
      rw [if_neg start]
      exact ⟨newRow, by omega, offset⟩
  have room : (putChar 0x08 vga).offset + 1 < vgaHeight * vgaWidth := by
    rw [VgaState.offset, Nat.add_assoc]
    exact position_lt backRow backCol
  obtain ⟨spaceRow, spaceCol, space, -⟩ :=
    putChar_plain (by decide : IsPlain 0x20) backRow (Nat.lt_of_succ_lt backCol) room
  have behind : 0 < (putChar 0x20 (putChar 0x08 vga)).cursorCol := by
    simp only [VgaState.offset, vgaWidth] at space spaceCol backCol
    omega
  obtain ⟨lastRow, lastCol, last, -⟩ := putChar_backspace spaceRow spaceCol behind
  refine ⟨lastRow, ?_, ?_⟩
  · rw [lastCol]
    exact Nat.lt_of_le_of_lt (Nat.sub_le _ 1) spaceCol
  · rw [last, space, Nat.add_sub_cancel, back]

/-! ### Texts on the screen -/

namespace Displays

/-- The cursor stands behind what is displayed. -/
theorem offset_eq (displays : Displays vga content) : vga.offset = content.length := by
  rw [← displays.shown, List.length_map, List.length_range]

/-- The column of the cursor follows from the length of the text. -/
theorem cursorCol_eq (displays : Displays vga content) :
    vga.cursorCol = content.length % vgaWidth := by
  rw [← displays.offset_eq, VgaState.offset, Nat.mul_add_mod_self_right,
    Nat.mod_eq_of_lt displays.col]

/-- What is displayed fits on the screen. -/
theorem length_lt (displays : Displays vga content) : content.length < vgaHeight * vgaWidth := by
  rw [← displays.offset_eq]
  exact position_lt displays.row displays.col

/-- A plain byte is added to the text. -/
theorem putChar (displays : Displays vga content) (plain : IsPlain char)
    (room : content.length + 1 < vgaHeight * vgaWidth) :
    Displays (putChar char vga) (content ++ [char]) := by
  have offset := displays.offset_eq
  obtain ⟨row, col, next, stored⟩ := putChar_plain plain displays.row displays.col (offset ▸ room)
  have char_at (index : Nat) : (Vga.putChar char vga).charAt index =
      if index = vga.offset then char else vga.charAt index :=
    charAt_store _ _ _ _ _ _ stored
  refine ⟨row, col, ?_, ?_⟩
  · rw [next, List.range_succ, List.map_append, List.map_singleton, char_at, if_pos rfl,
      ← displays.shown]
    congr 1
    refine List.map_congr_left fun index before => ?_
    rw [char_at, if_neg (Nat.ne_of_lt (List.mem_range.mp before))]
  · intro index behind inside
    rw [next] at behind
    rw [char_at, if_neg (by omega)]
    exact displays.blank index (by omega) inside

/-- Plain text is displayed behind the rest. -/
theorem print (displays : Displays vga content) {msg : List U8} (plain : ∀ char ∈ msg, IsPlain char)
    (room : content.length + msg.length < vgaHeight * vgaWidth) :
    Displays (print msg vga) (content ++ msg) := by
  induction msg generalizing vga content with
  | nil => rwa [List.append_nil]
  | cons char msg ih =>
      rw [List.length_cons] at room
      have next := displays.putChar (plain char List.mem_cons_self) (by omega)
      have rest := ih next (fun other member => plain other (List.mem_cons_of_mem char member))
        (by rw [List.length_append, List.length_singleton]; omega)
      rwa [List.append_assoc, List.singleton_append] at rest

/-- Away from the start of a row a backspace takes the last byte off the text. -/
theorem backspace (displays : Displays vga (content ++ [char])) (behind : 0 < vga.cursorCol) :
    Displays (Vga.putChar 0x08 vga) content := by
  have offset := displays.offset_eq
  rw [List.length_append, List.length_singleton] at offset
  obtain ⟨row, col, before, stored⟩ := putChar_backspace displays.row displays.col behind
  rw [offset, Nat.add_sub_cancel] at before stored
  have char_at (index : Nat) : (Vga.putChar 0x08 vga).charAt index =
      if index = content.length then 0x20 else vga.charAt index :=
    charAt_store _ _ _ _ _ _ stored
  refine ⟨row, by have := displays.col; omega, ?_, ?_⟩
  · have shown := displays.shown
    rw [offset, List.range_succ, List.map_append, List.map_singleton] at shown
    have shorter := List.append_inj_left' shown rfl
    rw [before]
    refine Eq.trans (List.map_congr_left fun index inside => ?_) shorter
    rw [char_at, if_neg (Nat.ne_of_lt (List.mem_range.mp inside))]
  · intro index after inside
    rw [before] at after
    rw [char_at]
    split_ifs with erased
    · rfl
    · exact displays.blank index (by omega) inside

/-- The three bytes that erase a cell: step back, write a space, step back again. -/
theorem erase (displays : Displays vga (content ++ [char])) (behind : 0 < vga.cursorCol) :
    Displays (Vga.putChar 0x08 (Vga.putChar 0x20 (Vga.putChar 0x08 vga))) content := by
  have room := displays.length_lt
  rw [displays.cursorCol_eq] at behind
  rw [List.length_append, List.length_singleton] at room behind
  have erased := displays.backspace (displays.cursorCol_eq ▸ by simpa using behind)
  have space := erased.putChar (by decide : IsPlain 0x20) room
  refine space.backspace ?_
  rw [space.cursorCol_eq, List.length_append, List.length_singleton]
  exact behind

/-- Colours change neither characters nor the cursor. -/
theorem setColor (displays : Displays vga content) (fg bg : Color) :
    Displays (setColor fg bg vga) content :=
  ⟨displays.row, displays.col, displays.shown, displays.blank⟩

/-- Clearing the screen leaves the empty text. -/
theorem clear (vga : VgaState) : Displays (clear vga) [] := by
  refine ⟨(by decide : 0 < vgaHeight), (by decide : 0 < vgaWidth), rfl, fun index _ inside => ?_⟩
  have blank : (Vga.clear vga).buffer.cells index = cell 0x20 vga.defaultAttr := by
    change (clearRows vga.defaultAttr vgaHeight 0 vga.buffer).cells index = _
    rw [clearRows_cells, if_pos (by omega)]
  rw [VgaState.charAt, blank, setWidth_cell]

end Displays

/-! ### The line and the screen -/

/-- The screen shows the prompt and the line up to the cursor, and spaces after it. -/
def Echoes (shell : Shell) : Prop :=
  (List.range shell.vga.offset).map shell.vga.charAt = promptText ++ shell.line ∧
    ∀ index, shell.vga.offset ≤ index → index < vgaHeight * vgaWidth →
      shell.vga.charAt index = 0x20

/-- No byte is erased that ends a row of the screen. -/
def Erasable (shell : Shell) (key : U8) : Prop :=
  key = 0x08 → 0 < shell.lineLen → (8 + shell.lineLen) % 80 ≠ 0

instance decidableErasable (shell : Shell) (key : U8) : Decidable (Erasable shell key) :=
  inferInstanceAs (Decidable (key = 0x08 → 0 < shell.lineLen → (8 + shell.lineLen) % 80 ≠ 0))

/-- The screen and the line are in step. -/
structure InStep (shell : Shell) : Prop where
  short : shell.lineLen ≤ 255
  displays : Displays shell.vga (promptText ++ shell.line)

/-- The cursor is further than the line is long. -/
structure Ahead (shell : Shell) : Prop where
  short : shell.lineLen ≤ 255
  row : shell.vga.cursorRow < vgaHeight
  col : shell.vga.cursorCol < vgaWidth
  further : 8 + shell.lineLen < shell.vga.offset

/-- A line within the buffer has its length. -/
theorem length_line {shell : Shell} (short : shell.lineLen ≤ 255) :
    (promptText ++ shell.line).length = 8 + shell.lineLen := by
  have fits : shell.lineLen ≤ 256 := by omega
  rw [List.length_append, Shell.line, List.length_take, Vector.length_toList,
    Nat.min_eq_left fits]
  rfl

/-- A line that is not empty is the line without its last byte, and that byte. -/
theorem exists_line_eq {shell : Shell} (short : shell.lineLen ≤ 255) (some : 0 < shell.lineLen) :
    ∃ last, shell.line = shell.lineBuf.toList.take (shell.lineLen - 1) ++ [last] := by
  have inside : shell.lineLen - 1 < shell.lineBuf.toList.length := by
    rw [Vector.length_toList]
    omega
  refine ⟨shell.lineBuf.toList[shell.lineLen - 1], ?_⟩
  rw [← List.take_succ_eq_append_getElem inside, Nat.sub_add_cancel some, Shell.line]

/-- A display in step shows the line. -/
theorem InStep.echoes {shell : Shell} (inStep : InStep shell) : Echoes shell :=
  ⟨inStep.displays.shown, inStep.displays.blank⟩

/-- A display that is ahead does not. -/
theorem Ahead.not_echoes {shell : Shell} (ahead : Ahead shell) : ¬ Echoes shell := by
  rintro ⟨shown, -⟩
  have length := congrArg List.length shown
  rw [List.length_map, List.length_range, length_line ahead.short] at length
  exact absurd length (Nat.ne_of_gt ahead.further)

/-- After the prompt the display is in step. -/
theorem inStep_prompted (undefined : Vector U8 256) (vga : VgaState) :
    InStep (prompted undefined vga) where
  short := Nat.zero_le 255
  displays := by
    have plain : ∀ char ∈ promptText, IsPlain char := by decide
    have shown := ((Displays.clear vga).setColor .lightGreen .black).print plain (by decide)
    have line : (prompted undefined vga).line = [] := List.take_zero
    rw [List.nil_append] at shown
    rw [line, List.append_nil]
    exact shown.setColor .white .black

/-! ### One key -/

section Key

variable (executeLine : List U8 → VgaState → VgaState) {shell : Shell} {key : U8}

/-- A backspace takes the last byte of the line. -/
theorem handleKey_backspace (some : 0 < shell.lineLen) :
    handleKey executeLine 0x08 shell =
      { shell with
        lineLen := shell.lineLen - 1
        vga := putChar 0x08 (putChar 0x20 (putChar 0x08 shell.vga)) } := by
  unfold handleKey
  rw [if_neg (by decide), if_pos rfl, if_pos some]

/-- A byte for the line is stored and echoed while the buffer has room. -/
theorem handleKey_plain (plain : IsPlain key) (room : shell.lineLen < 255) :
    (handleKey executeLine key shell).lineLen = shell.lineLen + 1 ∧
      (handleKey executeLine key shell).line = shell.line ++ [key] ∧
      (handleKey executeLine key shell).vga = putChar key shell.vga := by
  obtain ⟨newline, -, tab, backspace⟩ := plain
  unfold handleKey
  rw [if_neg newline, if_neg backspace, if_neg tab, dif_pos room]
  exact ⟨rfl, take_set shell.lineBuf (Nat.lt_succ_of_lt room) key, rfl⟩

variable (shell) in
/-- A key that ends no line changes nothing, erases the last byte or is stored. -/
theorem handleKey_cases (typed : key ≠ 0x0A ∧ key ≠ 0x0D) :
    handleKey executeLine key shell = shell ∨ (key = 0x08 ∧ 0 < shell.lineLen) ∨
      (IsPlain key ∧ shell.lineLen < 255) := by
  by_cases backspace : key = 0x08
  · by_cases some : 0 < shell.lineLen
    · exact .inr (.inl ⟨backspace, some⟩)
    · left
      unfold handleKey
      rw [if_neg typed.1, if_pos backspace, if_neg some]
  · by_cases tab : key = 0x09
    · left
      unfold handleKey
      rw [if_neg typed.1, if_neg backspace, if_pos tab]
    · by_cases room : shell.lineLen < 255
      · exact .inr (.inr ⟨⟨typed.1, typed.2, tab, backspace⟩, room⟩)
      · left
        unfold handleKey
        rw [if_neg typed.1, if_neg backspace, if_neg tab, dif_neg room]

end Key

/-! ### Keeping in step, and getting ahead -/

section Step

variable (executeLine : List U8 → VgaState → VgaState) {shell : Shell} {key : U8}
  (typed : key ≠ 0x0A ∧ key ≠ 0x0D)
include typed

/-- A key that can be erased keeps the display in step. -/
theorem InStep.handleKey (inStep : InStep shell) (erasable : Erasable shell key) :
    InStep (handleKey executeLine key shell) := by
  obtain ⟨short, displays⟩ := inStep
  rcases handleKey_cases executeLine shell typed with same | ⟨rfl, some⟩ | ⟨plain, room⟩
  · rw [same]
    exact ⟨short, displays⟩
  · rw [handleKey_backspace executeLine some]
    refine ⟨(Nat.sub_le _ 1).trans short, ?_⟩
    obtain ⟨last, line⟩ := exists_line_eq short some
    rw [line, ← List.append_assoc] at displays
    refine displays.erase (Nat.pos_of_ne_zero ?_)
    rw [displays.cursorCol_eq, List.append_assoc, ← line, length_line short]
    exact erasable rfl some
  · obtain ⟨length, line, screen⟩ := handleKey_plain executeLine plain room
    refine ⟨length ▸ room, ?_⟩
    have stored := displays.putChar plain (by
      rw [length_line short]
      exact Nat.lt_of_lt_of_le (by omega : 8 + shell.lineLen + 1 < 300) (by decide))
    rw [line, screen, ← List.append_assoc]
    exact stored

/-- One that cannot leaves it ahead. -/
theorem InStep.ahead (inStep : InStep shell) (stuck : ¬ Erasable shell key) :
    Ahead (Vga.handleKey executeLine key shell) := by
  obtain ⟨short, displays⟩ := inStep
  simp only [Erasable, not_forall, not_not] at stuck
  obtain ⟨rfl, some, full⟩ := stuck
  have offset := displays.offset_eq
  have col := displays.cursorCol_eq
  rw [length_line short] at offset col
  obtain ⟨erasedRow, erasedCol, erased⟩ := offset_erase displays.row displays.col
  rw [handleKey_backspace executeLine some]
  refine ⟨(Nat.sub_le _ 1).trans short, erasedRow, erasedCol, ?_⟩
  rw [erased, if_pos (col.trans full), offset]
  exact Nat.add_lt_add_left (Nat.sub_lt some Nat.one_pos) 8

/-- It stays ahead from then on. -/
theorem Ahead.handleKey (ahead : Ahead shell) : Ahead (handleKey executeLine key shell) := by
  obtain ⟨short, row, col, further⟩ := ahead
  rcases handleKey_cases executeLine shell typed with same | ⟨rfl, some⟩ | ⟨plain, room⟩
  · rw [same]
    exact ⟨short, row, col, further⟩
  · obtain ⟨erasedRow, erasedCol, erased⟩ := offset_erase row col
    rw [handleKey_backspace executeLine some]
    refine ⟨(Nat.sub_le _ 1).trans short, erasedRow, erasedCol, ?_⟩
    rw [erased]
    dsimp only
    split_ifs <;> omega
  · obtain ⟨length, -, screen⟩ := handleKey_plain executeLine plain room
    have inside : shell.vga.offset < vgaHeight * vgaWidth := position_lt row col
    rcases Nat.lt_or_eq_of_le inside with next | last
    · obtain ⟨nextRow, nextCol, offset, -⟩ := putChar_plain plain row col next
      refine ⟨length ▸ room, screen ▸ nextRow, screen ▸ nextCol, ?_⟩
      rw [length, screen, offset]
      omega
    · -- the screen scrolls, and the cursor is far below any line
      obtain ⟨nextRow, nextCol, offset⟩ := offset_putChar_of_last plain col last
      refine ⟨length ▸ room, screen ▸ nextRow, screen ▸ nextCol, ?_⟩
      rw [length, screen, offset]
      omega

end Step

/-! ### Runs -/

variable (executeLine : List U8 → VgaState → VgaState)

/-- The display shows the line after a run exactly when each backspace could erase. -/
theorem echoes_run_iff {shell : Shell} (inStep : InStep shell) {keys : List U8}
    (typed : ∀ key ∈ keys, key ≠ 0x0A ∧ key ≠ 0x0D) :
    Echoes ((lineEditor executeLine).run shell keys) ↔
      (lineEditor executeLine).Along Erasable shell keys := by
  induction keys generalizing shell with
  | nil => exact iff_of_true inStep.echoes trivial
  | cons key rest ih =>
      obtain ⟨first, later⟩ := List.forall_mem_cons.mp typed
      by_cases erasable : Erasable shell key
      · have next := inStep.handleKey executeLine first erasable
        exact (ih next later).trans (and_iff_right erasable).symm
      · have stuck := inStep.ahead executeLine first erasable
        have guarded : (lineEditor executeLine).Along
            (fun _ key => key ≠ 0x0A ∧ key ≠ 0x0D) (handleKey executeLine key shell) rest :=
          System.along_of_forall fun key member _ => later key member
        have ahead := System.invariant_run Ahead
          (fun shell key ahead typed => ahead.handleKey executeLine typed) stuck guarded
        exact iff_of_false ahead.not_echoes fun along => erasable along.1

/-- **The echo of the line.** After the prompt on a cleared screen and any keys that end no
line, the screen shows the prompt and the line buffer up to the cursor and spaces after it
exactly if no backspace was handled while the prompt and a line that was not empty filled
whole rows of the screen. -/
theorem echo_matches_iff (undefined : Vector U8 256) (vga : VgaState) {keys : List U8}
    (typed : ∀ key ∈ keys, key ≠ 0x0A ∧ key ≠ 0x0D) :
    Echoes ((lineEditor executeLine).run (prompted undefined vga) keys) ↔
      (lineEditor executeLine).Along Erasable (prompted undefined vga) keys :=
  echoes_run_iff executeLine (inStep_prompted undefined vga) typed

/-- A dark screen. -/
def dark : VgaState where
  buffer := { cells := fun _ => 0, stores := [] }
  cursorCol := 0
  cursorRow := 0
  defaultAttr := 0x0F
  location := (0, 0)

/-- Two letters, of which the second is erased. -/
theorem echo_matches_iff_letters :
    Echoes ((lineEditor fun _ vga => vga).run (prompted (Vector.replicate 256 0) dark)
      [0x6C, 0x73, 0x08]) :=
  (echo_matches_iff (fun _ vga => vga) (Vector.replicate 256 0) dark (by decide)).mpr (by decide)

/-- The line that fills the first row of the screen, and a backspace. -/
theorem echo_lost_at_row_end :
    ¬ ∀ keys : List U8, (∀ key ∈ keys, key ≠ 0x0A ∧ key ≠ 0x0D) →
      Echoes ((lineEditor fun _ vga => vga).run (prompted (Vector.replicate 256 0) dark) keys) := by
  intro echoes
  have wrong := echoes (List.replicate 72 0x61 ++ [0x08]) (by decide)
  rw [echoes_run_iff _ (inStep_prompted _ _) (by decide)] at wrong
  revert wrong
  decide +kernel

end Lofita.Vga
