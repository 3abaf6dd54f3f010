import Mathlib.Logic.Function.Basic

/-! # Shared cells

An arena is a growing store of cells. A reference is the number of a cell, so
two places that hold the same reference see each other's writes, as two handles
on one reference-counted lock do. Cells are never reused: a reference keeps
naming its cell for as long as anybody holds it.
-/

namespace Lofita.Foundation

abbrev Ref := Nat

/-- A growing store of cells, numbered in the order of their creation. -/
structure Arena (α : Type*) where
  size : Nat
  cell : Ref → α

namespace Arena

variable {α : Type*} (arena : Arena α)

/-- The value a reference names. -/
def read (ref : Ref) : α := arena.cell ref

/-- The reference the next cell will get. -/
def next : Ref := arena.size

/-- The next cell gets the value. -/
def alloc (value : α) : Arena α where
  size := arena.size + 1
  cell := Function.update arena.cell arena.size value

def modify (ref : Ref) (change : α → α) : Arena α where
  size := arena.size
  cell := Function.update arena.cell ref (change (arena.cell ref))

/-- An arena without cells; reading it gives a default. -/
def empty (default : α) : Arena α where
  size := 0
  cell := fun _ => default

@[simp] theorem size_alloc (value : α) : (arena.alloc value).size = arena.size + 1 := rfl

@[simp] theorem next_alloc (value : α) : (arena.alloc value).next = arena.next + 1 := rfl

@[simp] theorem size_modify (ref : Ref) (change : α → α) :
    (arena.modify ref change).size = arena.size := rfl

@[simp] theorem next_modify (ref : Ref) (change : α → α) :
    (arena.modify ref change).next = arena.next := rfl

/-- A fresh reference names the value given. -/
@[simp] theorem read_alloc_next (value : α) : (arena.alloc value).read arena.next = value := by
  simp only [read, alloc, next, Function.update_self]

/-- Allocation leaves the other cells alone. -/
theorem read_alloc_of_ne {ref : Ref} (different : ref ≠ arena.next) (value : α) :
    (arena.alloc value).read ref = arena.read ref := by
  simp only [read, alloc]
  exact Function.update_of_ne different value arena.cell

/-- Allocation leaves the cells given out before alone. -/
theorem read_alloc_of_lt {ref : Ref} (older : ref < arena.next) (value : α) :
    (arena.alloc value).read ref = arena.read ref :=
  arena.read_alloc_of_ne (Nat.ne_of_lt older) value

/-- The changed cell holds its changed value. -/
@[simp] theorem read_modify_self (ref : Ref) (change : α → α) :
    (arena.modify ref change).read ref = change (arena.read ref) := by
  simp only [read, modify, Function.update_self]

/-- The other cells keep theirs. -/
theorem read_modify_of_ne {ref other : Ref} (different : other ≠ ref) (change : α → α) :
    (arena.modify ref change).read other = arena.read other := by
  simp only [read, modify, Function.update_of_ne different]

/-- What a change leaves alone in one cell it leaves alone in every cell. -/
theorem read_modify_of_eq {β : Type*} (view : α → β) {change : α → α}
    (keeps : ∀ value, view (change value) = view value) (ref other : Ref) :
    view ((arena.modify ref change).read other) = view (arena.read other) := by
  by_cases same : other = ref
  · subst same
    rw [read_modify_self, keeps]
  · rw [arena.read_modify_of_ne same]

/-- A change that does nothing to the value of a cell does nothing. -/
theorem modify_eq_self {ref : Ref} (change : α → α)
    (idle : change (arena.read ref) = arena.read ref) : arena.modify ref change = arena := by
  unfold modify
  change change (arena.cell ref) = arena.cell ref at idle
  rw [idle, Function.update_eq_self]

end Arena

end Lofita.Foundation
