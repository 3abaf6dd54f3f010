import Mathlib.Data.List.GetD

/-! # Windows of a function on numbers

The values of a function on an interval, as a list, and a function given the values of
a list on an interval. Splices that follow each other are one splice
(`splice_append`), and splicing a window back in which some values are replaced splices
those values only (`splice_replace`).
-/

namespace Lofita.Foundation

variable {α : Type}

/-- The `count` values of a sequence from position `first` on. -/
def window (f : Nat → α) (first count : Nat) : List α :=
  (List.range count).map fun i => f (first + i)

/-- A sequence with the values from `first` on replaced by a list. -/
def splice (f : Nat → α) (first : Nat) (values : List α) (index : Nat) : α :=
  if first ≤ index then values.getD (index - first) (f index) else f index

variable {f : Nat → α} {first count index : Nat} {values more : List α}

@[simp] theorem length_window : (window f first count).length = count :=
  (List.length_map _).trans List.length_range

theorem window_append (f : Nat → α) (first count more : Nat) :
    window f first count ++ window f (first + count) more = window f first (count + more) := by
  unfold window
  rw [List.range_add, List.map_append, List.map_map]
  congr 2
  funext i
  rw [Function.comp_apply, Nat.add_assoc]

/-- The start of a window is a shorter window. -/
theorem take_window (le : index ≤ count) :
    (window f first count).take index = window f first index := by
  unfold window
  rw [← List.map_take, List.take_range, Nat.min_eq_left le]

/-- The rest of a window is the window further on. -/
theorem drop_window (le : index ≤ count) :
    (window f first count).drop index = window f (first + index) (count - index) := by
  have split := window_append f first index (count - index)
  rw [Nat.add_sub_cancel' le] at split
  rw [← split, List.drop_left' length_window]

/-- The values of a splice where it is made. -/
theorem splice_inside (below : index < values.length) :
    splice f first values (first + index) = values[index] := by
  unfold splice
  rw [if_pos (Nat.le_add_right _ _), Nat.add_sub_cancel_left, List.getD_eq_getElem _ _ below]

/-- Outside the replaced places nothing changes. -/
theorem splice_outside (outside : index < first ∨ first + values.length ≤ index) :
    splice f first values index = f index := by
  unfold splice
  split
  · exact List.getD_eq_default _ _ (by omega)
  · rfl

theorem splice_nil : splice f first [] = f :=
  funext fun _ => splice_outside (by simp only [List.length_nil]; omega)

/-- **Splices that follow each other** are one splice. -/
theorem splice_append (f : Nat → α) (first : Nat) (values more : List α) :
    splice (splice f first values) (first + values.length) more =
      splice f first (values ++ more) := by
  funext index
  unfold splice
  by_cases before : index < first
  · rw [if_neg (by omega), if_neg (by omega), if_neg (by omega)]
  · rw [if_pos (by omega : first ≤ index)]
    by_cases earlier : index < first + values.length
    · rw [if_neg (by omega), if_pos (by omega : first ≤ index),
        List.getD_append _ _ _ _ (by omega)]
    · rw [if_pos (by omega), if_pos (by omega : first ≤ index),
        List.getD_append_right _ _ _ _ (by omega), List.getD_eq_default values _ (by omega),
        Nat.sub_add_eq]

/-- Replacing a window by itself changes nothing. -/
theorem splice_window : splice f first (window f first count) = f := by
  funext index
  by_cases inside : first ≤ index ∧ index < first + count
  · obtain ⟨i, rfl⟩ := Nat.exists_eq_add_of_le inside.1
    rw [splice_inside (by rw [length_window]; omega)]
    exact List.getElem_map _ |>.trans (by rw [List.getElem_range])
  · exact splice_outside (by rw [length_window]; omega)

/-- **A window in which some values are replaced** splices those values only. -/
theorem splice_replace (fits : index + values.length ≤ count) :
    splice f first ((window f first count).take index ++ values ++
        (window f first count).drop (index + values.length)) =
      splice f (first + index) values := by
  have rest : (window f first count).drop (index + values.length) =
      window (splice f (first + index) values) (first + (index + values.length))
        (count - (index + values.length)) := by
    rw [drop_window fits]
    exact List.map_congr_left fun i _ => (splice_outside (.inr (by omega))).symm
  have here : ((window f first count).take index ++ values).length = index + values.length := by
    rw [List.length_append, take_window (by omega), length_window]
  have earlier : splice f first ((window f first count).take index ++ values) =
      splice f (first + index) values := by
    rw [take_window (by omega), ← splice_append, splice_window, length_window]
  rw [rest, ← splice_append, here, earlier, splice_window]

end Lofita.Foundation
