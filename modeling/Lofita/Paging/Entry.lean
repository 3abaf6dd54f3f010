import Lofita.Foundation.Word

/-! # Page-table entries

The entry words of `paging.zig` and the flag word of its C interface. The bits
`presentBit`, `writableBit`, `userBit`, `pageSizeBit` and `noExecuteBit` are
those of the processor.
-/

namespace Lofita.Paging

open Lofita.Foundation

/-- The bits of an entry. -/
def pfPresent : U64 := 1 <<< 0
def pfWritable : U64 := 1 <<< 1
def pfUser : U64 := 1 <<< 2
def pfNoExecute : U64 := 1 <<< 63

/-- The bit of a directory entry that makes it a leaf for a huge page. -/
def pageSizeBit : U64 := 1 <<< 7

/-- The address of an entry. -/
def physAddrMask : U64 := 0x000F_FFFF_FFFF_F000

/-- The flags `page_table_map` derives from the flag word of its caller. -/
def pteFlags (flags : U32) : U64 :=
  (if flags &&& 1 ≠ 0 then pfWritable else 0) |||
    (if flags &&& 2 ≠ 0 then pfUser else 0) |||
    (if flags &&& 4 = 0 then pfNoExecute else 0)

/-- The entry `PagingContext.map` writes for a page. -/
def leafEntry (physicalAddr flags : U64) : U64 :=
  (physicalAddr &&& physAddrMask) ||| flags ||| pfPresent

/-- The entry `ensure_table` writes for a new table. -/
def tableEntry (table : Nat) : U64 := BitVec.ofNat 64 table ||| pfPresent ||| pfWritable ||| pfUser

/-- An entry's bits, read off. -/
def present (entry : U64) : Bool := entry &&& pfPresent ≠ 0
def writable (entry : U64) : Bool := entry &&& pfWritable ≠ 0
def user (entry : U64) : Bool := entry &&& pfUser ≠ 0
def executable (entry : U64) : Bool := entry &&& pfNoExecute = 0
def huge (entry : U64) : Bool := entry &&& pageSizeBit ≠ 0

/-- The address an entry holds. -/
def address (entry : U64) : Nat := (entry &&& physAddrMask).toNat

/-- The table an entry refers to: a present entry without the page-size bit does. -/
def child (entry : U64) : Option Nat :=
  if present entry && !huge entry then some (address entry) else none

/-- A flag bit outside the address field and the present bit is that of the flags. -/
theorem leafEntry_and {bit : U64} (outside : physAddrMask &&& bit = 0#64)
    (other : pfPresent &&& bit = 0#64) (physicalAddr flags : U64) :
    leafEntry physicalAddr flags &&& bit = flags &&& bit := by
  unfold leafEntry
  rw [BitVec.and_or_distrib_right, BitVec.and_or_distrib_right, BitVec.and_assoc, outside, other,
    BitVec.and_zero, BitVec.zero_or, BitVec.or_zero]

@[simp] theorem present_leafEntry (physicalAddr flags : U64) :
    present (leafEntry physicalAddr flags) = true := by
  unfold present leafEntry
  rw [decide_eq_true_eq, BitVec.and_or_distrib_right, BitVec.and_self]
  intro zero
  have bit := congrArg (fun word : U64 => word.getLsbD 0) zero
  simp [pfPresent] at bit

@[simp] theorem writable_leafEntry (physicalAddr flags : U64) :
    writable (leafEntry physicalAddr flags) = writable flags := by
  unfold writable
  rw [leafEntry_and (by decide) (by decide)]

@[simp] theorem user_leafEntry (physicalAddr flags : U64) :
    user (leafEntry physicalAddr flags) = user flags := by
  unfold user
  rw [leafEntry_and (by decide) (by decide)]

@[simp] theorem executable_leafEntry (physicalAddr flags : U64) :
    executable (leafEntry physicalAddr flags) = executable flags := by
  unfold executable
  rw [leafEntry_and (by decide) (by decide)]

/-! ### Addresses in entries -/

/-- The address field is bits 12 to 51. -/
theorem getLsbD_physAddrMask (i : Nat) :
    physAddrMask.getLsbD i = (decide (12 ≤ i) && decide (i < 52)) := by
  have mask : physAddrMask = (BitVec.allOnes 40).setWidth 64 <<< 12 := by decide
  rw [mask, BitVec.getLsbD_shiftLeft, BitVec.getLsbD_setWidth, BitVec.getLsbD_allOnes]
  by_cases low : i < 12
  · simp [low, Nat.not_le.mpr low]
  · have : 12 ≤ i := Nat.le_of_not_lt low
    by_cases high : i < 52
    · simp [low, high, this]
      omega
    · simp [low, high, this]
      omega

/-- The address of a page fits the address field. -/
theorem ofNat_and_physAddrMask {page : Nat} (aligned : 4096 ∣ page) (small : page < 2 ^ 52) :
    BitVec.ofNat 64 page &&& physAddrMask = BitVec.ofNat 64 page := by
  obtain ⟨frame, rfl⟩ := aligned
  apply BitVec.eq_of_getLsbD_eq
  intro i below
  rw [BitVec.getLsbD_and, getLsbD_physAddrMask, BitVec.getLsbD_ofNat]
  have bits : (4096 * frame).testBit i = (decide (12 ≤ i) && frame.testBit (i - 12)) := by
    rw [show 4096 * frame = 2 ^ 12 * frame from rfl, Nat.testBit_two_pow_mul]
  have top (high : 52 ≤ i) : frame.testBit (i - 12) = false := by
    have bound : frame < 2 ^ 40 := by omega
    exact Nat.testBit_lt_two_pow
      (Nat.lt_of_lt_of_le bound (Nat.pow_le_pow_right Nat.two_pos (Nat.le_sub_of_add_le high)))
  rw [bits]
  by_cases low : 12 ≤ i
  · by_cases high : i < 52
    · simp [low, high]
    · simp [top (Nat.le_of_not_lt high)]
  · simp [low]

/-- A bit outside the address field is clear in the address of a page. -/
theorem ofNat_and_eq_zero {page : Nat} (aligned : 4096 ∣ page) (small : page < 2 ^ 52) {bit : U64}
    (outside : physAddrMask &&& bit = 0#64) : BitVec.ofNat 64 page &&& bit = 0#64 := by
  rw [← ofNat_and_physAddrMask aligned small, BitVec.and_assoc, outside, BitVec.and_zero]

/-- A bit outside the address field of an entry made of the address of a page and flags
is that of the flags. -/
theorem ofNat_or_and {page : Nat} (aligned : 4096 ∣ page) (small : page < 2 ^ 52) {bit : U64}
    (outside : physAddrMask &&& bit = 0#64) (flags : U64) :
    (BitVec.ofNat 64 page ||| flags) &&& bit = flags &&& bit := by
  rw [BitVec.and_or_distrib_right, ofNat_and_eq_zero aligned small outside, BitVec.zero_or]

/-- An entry made of the address of a page and present flags without the
page-size bit refers to the page. -/
theorem child_ofNat_or {table : Nat} (aligned : 4096 ∣ table) (small : table < 2 ^ 52) {flags : U64}
    (isPresent : present flags = true) (notHuge : huge flags = false)
    (outside : flags &&& physAddrMask = 0#64) :
    child (BitVec.ofNat 64 table ||| flags) = some table := by
  have presentToo : present (BitVec.ofNat 64 table ||| flags) = present flags := by
    unfold present
    rw [ofNat_or_and aligned small (by decide)]
  have hugeToo : huge (BitVec.ofNat 64 table ||| flags) = huge flags := by
    unfold huge
    rw [ofNat_or_and aligned small (by decide)]
  have refers : address (BitVec.ofNat 64 table ||| flags) = table := by
    unfold address
    rw [BitVec.and_or_distrib_right, ofNat_and_physAddrMask aligned small, outside,
      BitVec.or_zero, BitVec.toNat_ofNat]
    exact Nat.mod_eq_of_lt (by omega)
  unfold child
  rw [presentToo, hugeToo, refers, isPresent, notHuge]
  rfl

/-- What refers to a table is present and not huge. -/
theorem child_eq_some {entry : U64} {table : Nat} :
    child entry = some table ↔
      present entry = true ∧ huge entry = false ∧ address entry = table := by
  unfold child
  cases present entry <;> cases huge entry <;> simp

/-- An absent entry leads nowhere. -/
theorem child_eq_none_of_absent {entry : U64} (absent : present entry = false) :
    child entry = none := by
  unfold child
  rw [absent]
  rfl

/-- An entry made for a table leads to it. -/
theorem child_tableEntry {table : Nat} (aligned : 4096 ∣ table) (small : table < 2 ^ 52) :
    child (tableEntry table) = some table := by
  unfold tableEntry
  rw [BitVec.or_assoc, BitVec.or_assoc]
  exact child_ofNat_or aligned small (by decide) (by decide) (by decide)

/-- The flags of `page_table_map` lie outside the address field. -/
theorem pteFlags_and_physAddrMask (flags : U32) : pteFlags flags &&& physAddrMask = 0#64 := by
  unfold pteFlags
  split_ifs <;> decide

/-- The rights of the flags of `page_table_map` are those of the flag word. -/
theorem rights_pteFlags (flags : U32) :
    writable (pteFlags flags) = decide (flags &&& 1 ≠ 0) ∧
      user (pteFlags flags) = decide (flags &&& 2 ≠ 0) ∧
      executable (pteFlags flags) = decide (flags &&& 4 ≠ 0) := by
  unfold pteFlags
  by_cases readOnly : flags &&& 1 = 0 <;> by_cases kernelOnly : flags &&& 2 = 0 <;>
    by_cases dataOnly : flags &&& 4 = 0 <;>
    simp only [readOnly, kernelOnly, dataOnly, ne_eq, not_true_eq_false, not_false_eq_true,
      if_true, if_false] <;>
    decide

/-- A leaf entry holds the page it was made for. -/
theorem address_leafEntry {flags : U64} (outside : flags &&& physAddrMask = 0#64)
    (physicalAddr : U64) :
    address (leafEntry physicalAddr flags) = (physicalAddr &&& physAddrMask).toNat := by
  unfold address leafEntry
  rw [BitVec.and_or_distrib_right, BitVec.and_or_distrib_right, outside, BitVec.and_assoc,
    BitVec.and_self, show pfPresent &&& physAddrMask = 0#64 by decide, BitVec.or_zero,
    BitVec.or_zero]

end Lofita.Paging
