import Mathlib.Algebra.GroupWithZero.Nat
import Mathlib.Data.Nat.Basic

/-! # Machine words

Unsigned words of 64, 32, 16 and 8 bits. Addition, subtraction and multiplication wrap,
comparison is unsigned.
-/

namespace Lofita.Foundation

abbrev U64 := BitVec 64

abbrev U32 := BitVec 32

abbrev U16 := BitVec 16

abbrev U8 := BitVec 8

/-- The largest 64-bit word. -/
def U64.max : U64 := 0xFFFF_FFFF_FFFF_FFFF

/-- A counter below its largest value counts on without wrapping. -/
theorem toNat_add_one {counter : U64} (below : counter ≠ U64.max) :
    (counter + 1).toNat = counter.toNat + 1 := by
  unfold U64.max at below
  bv_omega

/-- Addition that stays below `2 ^ 64` does not wrap. -/
theorem toNat_add_of_lt {first second : U64} (fits : first.toNat + second.toNat < 2 ^ 64) :
    (first + second).toNat = first.toNat + second.toNat := by
  rw [BitVec.toNat_add, Nat.mod_eq_of_lt fits]

/-- Addition that stops at the largest word instead of wrapping. -/
def saturatingAdd (first second : U64) : U64 :=
  if first.toNat + second.toNat < 2 ^ 64 then first + second else U64.max

end Lofita.Foundation
