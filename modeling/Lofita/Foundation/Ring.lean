import Mathlib.Data.Nat.Basic
import Mathlib.Logic.Function.Basic

/-! # Circular buffers

A buffer whose cells are written at one position, the head, and read at another, the
tail, each moving on by one and from the last cell to the first. What it holds are the
cells from the tail up to the head (`queued`). One cell stays free: the buffer is full
when the next head would be the tail. Writing appends an item to what is held
(`queued_put`) and moving the tail takes the first item off (`queued_take`).
-/

namespace Lofita.Foundation.Circular

variable {α : Type*}

/-- The cells of a circular buffer from a position on. -/
def window (cells : Nat → α) (size : Nat) : (first count : Nat) → List α
  | _, 0 => []
  | first, count + 1 => cells first :: window cells size ((first + 1) % size) count

/-- How many cells there are from the tail up to the head. -/
def occupied (size head tail : Nat) : Nat := (head + size - tail) % size

/-- What a circular buffer holds, the oldest item first. -/
def queued (cells : Nat → α) (size head tail : Nat) : List α :=
  window cells size tail (occupied size head tail)

/-! ### Positions -/

/-- The next position, without the remainder. -/
theorem next_eq {size position : Nat} (below : position < size) :
    (position + 1) % size = if position + 1 = size then 0 else position + 1 := by
  split_ifs with last
  · rw [last, Nat.mod_self]
  · exact Nat.mod_eq_of_lt (by omega)

/-- It is a position again. -/
theorem next_lt {size position : Nat} (below : position < size) : (position + 1) % size < size :=
  Nat.mod_lt _ (Nat.zero_lt_of_lt below)

/-- How many places lie between the positions. -/
theorem occupied_eq {size head tail : Nat} (headBelow : head < size) (tailBelow : tail < size) :
    occupied size head tail = if tail ≤ head then head - tail else head + size - tail := by
  unfold occupied
  split_ifs with ahead
  · have sum : head + size - tail = head - tail + size := by omega
    rw [sum, Nat.add_mod_right, Nat.mod_eq_of_lt (by omega)]
  · exact Nat.mod_eq_of_lt (by omega)

/-- They are fewer than all. -/
theorem occupied_lt {size head : Nat} (headBelow : head < size) (tail : Nat) :
    occupied size head tail < size :=
  Nat.mod_lt _ (Nat.zero_lt_of_lt headBelow)

section Positions

variable {size head tail : Nat} (headBelow : head < size) (tailBelow : tail < size)
include headBelow tailBelow

/-- The head stands as far behind the tail as there are cells between. -/
theorem add_occupied : (tail + occupied size head tail) % size = head := by
  rw [occupied_eq headBelow tailBelow]
  split_ifs with ahead
  · rw [Nat.add_sub_cancel' ahead, Nat.mod_eq_of_lt headBelow]
  · have sum : tail + (head + size - tail) = head + size := by omega
    rw [sum, Nat.add_mod_right, Nat.mod_eq_of_lt headBelow]

theorem occupied_eq_zero_iff : occupied size head tail = 0 ↔ head = tail := by
  rw [occupied_eq headBelow tailBelow]
  split_ifs <;> omega

/-- The next head is the tail exactly if all cells but one are occupied. -/
theorem next_eq_iff_full : (head + 1) % size = tail ↔ occupied size head tail = size - 1 := by
  rw [next_eq headBelow, occupied_eq headBelow tailBelow]
  split_ifs <;> omega

/-- A value put takes one place. -/
theorem occupied_put (room : (head + 1) % size ≠ tail) :
    occupied size ((head + 1) % size) tail = occupied size head tail + 1 := by
  rw [occupied_eq (next_lt headBelow) tailBelow, occupied_eq headBelow tailBelow]
  rw [next_eq headBelow] at room ⊢
  split_ifs at room ⊢ <;> omega

/-- A value taken frees one. -/
theorem occupied_take (some : head ≠ tail) :
    occupied size head tail = occupied size head ((tail + 1) % size) + 1 := by
  rw [occupied_eq headBelow (next_lt tailBelow), occupied_eq headBelow tailBelow,
    next_eq tailBelow]
  split_ifs <;> omega

end Positions

/-! ### Windows -/

@[simp] theorem length_window (cells : Nat → α) (size first count : Nat) :
    (window cells size first count).length = count := by
  induction count generalizing first with
  | zero => rfl
  | succ count ih => rw [window, List.length_cons, ih]

/-- Writing the cell behind a window makes the window longer by it. -/
theorem window_update (cells : Nat → α) {size first count : Nat} (item : α)
    (below : first < size) (room : count < size) :
    window (Function.update cells ((first + count) % size) item) size first (count + 1) =
      window cells size first count ++ [item] := by
  induction count generalizing first with
  | zero =>
      rw [Nat.add_zero, Nat.mod_eq_of_lt below]
      exact congrArg (fun written => [written]) (Function.update_self first item cells)
  | succ count ih =>
      have index : (first + (count + 1)) % size = ((first + 1) % size + count) % size := by
        rw [Nat.mod_add_mod]
        congr 1
        omega
      have apart : first ≠ (first + (count + 1)) % size := by
        by_cases wraps : first + (count + 1) < size
        · rw [Nat.mod_eq_of_lt wraps]
          omega
        · rw [Nat.mod_eq_sub_mod (Nat.le_of_not_lt wraps), Nat.mod_eq_of_lt (by omega)]
          omega
      rw [window, Function.update_of_ne apart, index, ih (next_lt below) (Nat.lt_of_succ_lt room)]
      rfl

/-! ### The queue -/

section Queue

variable {cells : Nat → α} {size head tail : Nat} (headBelow : head < size)
  (tailBelow : tail < size)
include headBelow tailBelow

theorem queued_eq_nil_iff : queued cells size head tail = [] ↔ head = tail := by
  rw [← List.length_eq_zero_iff, queued, length_window, occupied_eq_zero_iff headBelow tailBelow]

/-- A circular buffer is full with all cells but one occupied. -/
theorem length_queued_of_full (full : (head + 1) % size = tail) :
    (queued cells size head tail).length = size - 1 := by
  rw [queued, length_window]
  exact (next_eq_iff_full headBelow tailBelow).mp full

/-- **Writing at the head appends.** -/
theorem queued_put (item : α) (room : (head + 1) % size ≠ tail) :
    queued (Function.update cells head item) size ((head + 1) % size) tail =
      queued cells size head tail ++ [item] := by
  have written := window_update cells item tailBelow (occupied_lt headBelow tail)
  rw [add_occupied headBelow tailBelow] at written
  rw [queued, occupied_put headBelow tailBelow room, written, queued]

/-- **Moving the tail takes the first item off.** -/
theorem queued_take (some : head ≠ tail) :
    queued cells size head tail = cells tail :: queued cells size head ((tail + 1) % size) := by
  rw [queued, occupied_take headBelow tailBelow some, window, queued]

end Queue

end Lofita.Foundation.Circular
