import Mathlib.Data.List.DropRight

/-! # Lines of a text

A text is a list of characters, cut at its line feeds. A line loses the carriage
return before its line feed; what follows the last line feed is a line if it is not
empty. A part of a text that ends in a line feed can be cut on its own
(`linesFrom_append`).
-/

namespace Lofita.Foundation

/-- A line without a carriage return at its end. -/
def stripReturn (line : List Char) : List Char :=
  if line.getLast? = some '\r' then line.dropLast else line

/-- The lines of a text, after the characters read of the current line. -/
def linesFrom (current : List Char) : (text : List Char) → List (List Char)
  | [] => if current = [] then [] else [current]
  | char :: text =>
      if char = '\n' then stripReturn current :: linesFrom [] text
      else linesFrom (current ++ [char]) text

def lines (text : List Char) : List (List Char) := linesFrom [] text

/-- The Unicode property of white space. -/
def isWhitespace (char : Char) : Bool :=
  let code := char.toNat
  (9 ≤ code ∧ code ≤ 13) ∨ code = 0x20 ∨ code = 0x85 ∨ code = 0xA0 ∨ code = 0x1680 ∨
    (0x2000 ≤ code ∧ code ≤ 0x200A) ∨ code = 0x2028 ∨ code = 0x2029 ∨ code = 0x202F ∨
    code = 0x205F ∨ code = 0x3000

/-- A text without the white space around it. -/
def trim (text : List Char) : List Char :=
  (text.dropWhile isWhitespace).rdropWhile isWhitespace

variable {current line text : List Char}

theorem stripReturn_eq_self (plain : line.getLast? ≠ some '\r') : stripReturn line = line :=
  if_neg plain

theorem linesFrom_newline (current text : List Char) :
    linesFrom current ('\n' :: text) = stripReturn current :: lines text :=
  if_pos rfl

theorem linesFrom_cons {char : Char} (inLine : char ≠ '\n') (current text : List Char) :
    linesFrom current (char :: text) = linesFrom (current ++ [char]) text :=
  if_neg inLine

/-- Characters before the next line feed are read into the current line. -/
theorem linesFrom_line (inLine : '\n' ∉ line) (current text : List Char) :
    linesFrom current (line ++ '\n' :: text) = stripReturn (current ++ line) :: lines text := by
  induction line generalizing current with
  | nil => rw [List.nil_append, List.append_nil, linesFrom_newline]
  | cons char line ih =>
      have other : char ≠ '\n' := fun same => inLine (List.mem_cons.mpr (.inl same.symm))
      have inRest : '\n' ∉ line := fun bad => inLine (List.mem_cons_of_mem _ bad)
      rw [List.cons_append, linesFrom_cons other, ih inRest, List.append_assoc,
        List.singleton_append]

/-- **A line feed ends the lines before it.** -/
theorem linesFrom_append (current text rest : List Char) :
    linesFrom current (text ++ '\n' :: rest) =
      linesFrom current (text ++ ['\n']) ++ lines rest := by
  induction text generalizing current with
  | nil => rw [List.nil_append, List.nil_append, linesFrom_newline, linesFrom_newline]; rfl
  | cons char text ih =>
      rw [List.cons_append, List.cons_append]
      by_cases newline : char = '\n'
      · rw [newline, linesFrom_newline, linesFrom_newline, List.cons_append, lines, ih]; rfl
      · rw [linesFrom_cons newline, linesFrom_cons newline, ih]

/-- A line feed at the end adds at most an empty line. -/
theorem mem_linesFrom_concat (noReturn : '\r' ∉ current ++ text)
    (isLine : line ∈ linesFrom current (text ++ ['\n'])) :
    line ∈ linesFrom current text ∨ line = [] := by
  induction text generalizing current with
  | nil =>
      rw [List.append_nil] at noReturn
      rw [List.nil_append, linesFrom_newline,
        stripReturn_eq_self fun last => noReturn (List.mem_of_getLast? last)] at isLine
      cases List.mem_singleton.mp isLine
      by_cases none : line = []
      · exact .inr none
      · refine .inl ?_
        rw [linesFrom, if_neg none]
        exact List.mem_singleton_self _
  | cons char text ih =>
      rw [List.cons_append] at isLine
      by_cases newline : char = '\n'
      · subst newline
        rw [linesFrom_newline] at isLine ⊢
        rcases List.mem_cons.mp isLine with first | later
        · exact .inl (List.mem_cons.mpr (.inl first))
        · have plain : '\r' ∉ [] ++ text := fun bad =>
            noReturn (List.mem_append_right _ (List.mem_cons_of_mem _ bad))
          exact (ih plain later).imp_left (List.mem_cons_of_mem _)
      · rw [linesFrom_cons newline] at isLine ⊢
        exact ih (by rwa [List.append_assoc, List.singleton_append]) isLine

/-- A trimmed text does not end in white space. -/
theorem not_whitespace_of_trimmed (trimmed : trim text = text) {last : Char}
    (isLast : text.getLast? = some last) : isWhitespace last = false := by
  rw [← trimmed] at isLast
  have kept : trim text ≠ [] := by
    intro none
    rw [none] at isLast
    cases isLast
  rw [List.getLast?_eq_some_getLast kept] at isLast
  have clean := List.rdropWhile_last_not isWhitespace (text.dropWhile isWhitespace) kept
  rwa [← Option.some.inj isLast, ← Bool.not_eq_true]

end Lofita.Foundation
