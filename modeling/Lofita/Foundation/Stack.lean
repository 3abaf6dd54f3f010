import Mathlib.Data.List.Induction
import Mathlib.Logic.Function.Basic
import Lofita.Foundation.Word

/-! # A descending stack

Words in a memory below a stack pointer, eight addresses apart. A list of words
that is pushed stands in the memory in reverse order from the new stack pointer
on (`Stack.wordsAt_pushAll`), and nothing else has changed
(`Stack.memory_pushAll_of_apart`).
-/

namespace Lofita.Foundation

/-- A stack that grows downwards in memory. -/
structure Stack (α : Type*) where
  pointer : U64
  memory : U64 → α

namespace Stack

variable {α : Type*}

/-- A value below the top. -/
def push (value : α) (stack : Stack α) : Stack α where
  pointer := stack.pointer - 8
  memory := Function.update stack.memory (stack.pointer - 8) value

/-- Push one value after the other. -/
def pushAll (values : List α) (stack : Stack α) : Stack α :=
  values.foldl (fun stack value => stack.push value) stack

/-- The word at the stack pointer. -/
def top (stack : Stack α) : α := stack.memory stack.pointer

/-- Take words off the stack, or leave room for them. -/
def drop (words : Nat) (stack : Stack α) : Stack α :=
  { stack with pointer := stack.pointer + 8 * BitVec.ofNat 64 words }

/-- A number of words from an address upwards. -/
def wordsAt (memory : U64 → α) : Nat → U64 → List α
  | 0, _ => []
  | count + 1, address => memory address :: wordsAt memory count (address + 8)

@[simp] theorem pointer_push (value : α) (stack : Stack α) :
    (stack.push value).pointer = stack.pointer - 8 := rfl

@[simp] theorem top_push (value : α) (stack : Stack α) : (stack.push value).top = value :=
  Function.update_self _ _ _

/-- A push writes its own place alone. -/
theorem memory_push_of_ne {value : α} {stack : Stack α} {address : U64}
    (apart : address ≠ stack.pointer - 8) :
    (stack.push value).memory address = stack.memory address :=
  Function.update_of_ne apart _ _

/-- Rows pushed one after the other. -/
theorem pushAll_append (first second : List α) (stack : Stack α) :
    stack.pushAll (first ++ second) = (stack.pushAll first).pushAll second :=
  List.foldl_append

/-- The last value of a row is pushed last. -/
theorem pushAll_concat (values : List α) (last : α) (stack : Stack α) :
    stack.pushAll (values ++ [last]) = (stack.pushAll values).push last :=
  pushAll_append values [last] stack

/-- How far a row moves the pointer. -/
theorem pointer_pushAll (values : List α) (stack : Stack α) :
    (stack.pushAll values).pointer = stack.pointer - 8 * BitVec.ofNat 64 values.length := by
  induction values using List.reverseRecOn with
  | nil => exact (BitVec.sub_zero _).symm
  | append_singleton values last ih =>
      rw [pushAll_concat, pointer_push, ih, List.length_append, List.length_singleton]
      bv_omega

/-- Memories that agree on the words of a range have the same words there. -/
theorem wordsAt_congr {first second : U64 → α} {count : Nat} {address : U64}
    (same : ∀ index < count,
      first (address + 8 * BitVec.ofNat 64 index) = second (address + 8 * BitVec.ofNat 64 index)) :
    wordsAt first count address = wordsAt second count address := by
  induction count generalizing address with
  | zero => rfl
  | succ count ih =>
      have here : first address = second address := by
        simpa using same 0 (Nat.succ_pos count)
      unfold wordsAt
      rw [here]
      congr 1
      refine ih fun index below => ?_
      have next : address + 8 + 8 * BitVec.ofNat 64 index =
          address + 8 * BitVec.ofNat 64 (index + 1) := by bv_omega
      rw [next]
      exact same (index + 1) (Nat.succ_lt_succ below)

/-- **Pushed words** stand above the new stack pointer, the last one first. -/
theorem wordsAt_pushAll {values : List α} (short : 8 * values.length ≤ 2 ^ 64) (stack : Stack α) :
    wordsAt (stack.pushAll values).memory values.length (stack.pushAll values).pointer =
      values.reverse := by
  induction values using List.reverseRecOn with
  | nil => rfl
  | append_singleton values last ih =>
      rw [List.length_append, List.length_singleton] at short ⊢
      rw [pushAll_concat, List.reverse_concat, ← ih (by omega)]
      refine congrArg₂ List.cons (top_push last _) ?_
      rw [pointer_push, BitVec.sub_add_cancel]
      refine wordsAt_congr fun index below => memory_push_of_ne ?_
      bv_omega

/-- The memory that the pushed words do not take is unchanged. -/
theorem memory_pushAll_of_apart {values : List α} {stack : Stack α} {address : U64}
    (apart : ∀ index < values.length,
      address ≠ stack.pointer - 8 * BitVec.ofNat 64 (index + 1)) :
    (stack.pushAll values).memory address = stack.memory address := by
  induction values using List.reverseRecOn with
  | nil => rfl
  | append_singleton values last ih =>
      rw [List.length_append, List.length_singleton] at apart
      have last_apart := apart values.length (Nat.lt_succ_self _)
      rw [pushAll_concat, memory_push_of_ne,
        ih fun index below => apart index (Nat.lt_succ_of_lt below)]
      rw [pointer_pushAll]
      intro same
      exact last_apart (same.trans (by bv_omega))

end Stack

end Lofita.Foundation
