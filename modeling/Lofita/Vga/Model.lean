import Mathlib.Data.Nat.Basic
import Lofita.Foundation.Word

/-! # The VGA text screen

The text mode driver (`drivers/vga.zig`): a buffer of 25 rows of 80 cells behind a
pointer, and a cursor. `putChar` interprets one byte and wraps, scrolls and moves
the hardware cursor. Rows and columns are far below the range of their type, so
they are natural numbers.
-/

namespace Lofita.Vga

open Lofita.Foundation

def vgaWidth : Nat := 80

def vgaHeight : Nat := 25

/-- The memory behind `vga_ptr`, and the indices stored to, the latest first. -/
structure TextBuffer where
  cells : Nat → U16
  stores : List Nat

def TextBuffer.store (index : Nat) (cell : U16) (buffer : TextBuffer) : TextBuffer where
  cells := fun other => if other = index then cell else buffer.cells other
  stores := index :: buffer.stores

structure VgaState where
  buffer : TextBuffer
  cursorCol : Nat
  cursorRow : Nat
  defaultAttr : U8
  /-- The cursor location registers of the display controller, low and high. -/
  location : U8 × U8

/-- A character and its attribute as one cell. -/
def cell (char attr : U8) : U16 := char.setWidth 16 ||| (attr.setWidth 16 <<< 8)

def updateCursor (col row : Nat) (vga : VgaState) : VgaState :=
  let pos : U16 := BitVec.ofNat 16 (row * vgaWidth + col)
  { vga with location := ((pos &&& 0xFF).setWidth 8, ((pos >>> 8) &&& 0xFF).setWidth 8) }

def putCharAt (col row : Nat) (char attr : U8) (buffer : TextBuffer) : TextBuffer :=
  buffer.store (row * vgaWidth + col) (cell char attr)

/-- The loop over the columns of a row that writes spaces. -/
def clearRow (row : Nat) (attr : U8) : (remaining c : Nat) → TextBuffer → TextBuffer
  | 0, _, buffer => buffer
  | remaining + 1, c, buffer =>
      clearRow row attr remaining (c + 1) (putCharAt c row 0x20 attr buffer)

/-- The loop over the rows in `clear`. -/
def clearRows (attr : U8) : (remaining r : Nat) → TextBuffer → TextBuffer
  | 0, _, buffer => buffer
  | remaining + 1, r, buffer => clearRows attr remaining (r + 1) (clearRow r attr vgaWidth 0 buffer)

def clear (vga : VgaState) : VgaState :=
  updateCursor 0 0
    { vga with
      buffer := clearRows vga.defaultAttr vgaHeight 0 vga.buffer, cursorCol := 0, cursorRow := 0 }

/-- The loop over the columns of a row that copies it to the row above. -/
def moveRow (r : Nat) : (remaining c : Nat) → TextBuffer → TextBuffer
  | 0, _, buffer => buffer
  | remaining + 1, c, buffer =>
      let src := r * vgaWidth + c
      let dst := (r - 1) * vgaWidth + c
      moveRow r remaining (c + 1) (buffer.store dst (buffer.cells src))

/-- The loop over the rows in `scroll`. -/
def moveRows : (remaining r : Nat) → TextBuffer → TextBuffer
  | 0, _, buffer => buffer
  | remaining + 1, r, buffer => moveRows remaining (r + 1) (moveRow r vgaWidth 0 buffer)

def scroll (vga : VgaState) : VgaState :=
  let moved := moveRows (vgaHeight - 1) 1 vga.buffer
  let cleared := clearRow (vgaHeight - 1) vga.defaultAttr vgaWidth 0 moved
  let row := if vga.cursorRow > 0 then vga.cursorRow - 1 else vga.cursorRow
  updateCursor vga.cursorCol row { vga with buffer := cleared, cursorRow := row }

/-- `(col + 8) & ~7`. -/
def tabStop (col : Nat) : Nat := (col + 8) &&& (2 ^ 64 - 1 - 7)

/-- The `switch` of `put_char`. -/
def typed (char : U8) (vga : VgaState) : VgaState :=
  if char = 0x0A then { vga with cursorCol := 0, cursorRow := vga.cursorRow + 1 }
  else if char = 0x0D then { vga with cursorCol := 0 }
  else if char = 0x09 then { vga with cursorCol := tabStop vga.cursorCol }
  else if char = 0x08 then
    if vga.cursorCol > 0 then
      { vga with
        cursorCol := vga.cursorCol - 1
        buffer := putCharAt (vga.cursorCol - 1) vga.cursorRow 0x20 vga.defaultAttr vga.buffer }
    else vga
  else
    { vga with
      buffer := putCharAt vga.cursorCol vga.cursorRow char vga.defaultAttr vga.buffer
      cursorCol := vga.cursorCol + 1 }

/-- The step of `put_char` that wraps columns. -/
def wrapColumns (vga : VgaState) : VgaState :=
  if vga.cursorCol ≥ vgaWidth then { vga with cursorCol := 0, cursorRow := vga.cursorRow + 1 }
  else vga

def putChar (char : U8) (vga : VgaState) : VgaState :=
  let vga := wrapColumns (typed char vga)
  let vga := if vga.cursorRow ≥ vgaHeight then scroll vga else vga
  updateCursor vga.cursorCol vga.cursorRow vga

/-- `print`. -/
def print (msg : List U8) (vga : VgaState) : VgaState :=
  msg.foldl (fun vga char => putChar char vga) vga

inductive Color where
  | black | blue | green | cyan | red | magenta | brown | lightGrey
  | darkGrey | lightBlue | lightGreen | lightCyan | lightRed | lightMagenta | yellow | white
deriving DecidableEq, Repr

def makeAttr (fg bg : Color) : U8 := BitVec.ofNat 8 fg.ctorIdx ||| (BitVec.ofNat 8 bg.ctorIdx <<< 4)

def setColor (fg bg : Color) (vga : VgaState) : VgaState :=
  { vga with defaultAttr := makeAttr fg bg }

/-- The bytes of a text of ASCII characters. -/
def text (chars : String) : List U8 := chars.toList.map fun char => BitVec.ofNat 8 char.toNat

end Lofita.Vga
