import Lofita.Foundation.Numerals
import Lofita.Vga.Model

/-! # Printing numbers

`print_dec` and `print_hex` of the text mode driver. An access past an array stops
the function without a result, so that a result says that there was none. Both
functions print a numeral of their argument: digits that stand for it, without
leading zeros.
-/

namespace Lofita.Vga

open Lofita.Foundation

/-- The loop of `print_dec` that writes the digits of `v` from `buf[len]` on, the
lowest first. -/
def decDigits (v : U64) (buf : Vector U8 20) (len : Nat) : Option (Vector U8 20 × Nat) :=
  if v = 0 then some (buf, len)
  else if inside : len < 20 then
    decDigits (v / 10) (buf.set len ((v % 10 + 0x30).setWidth 8) inside) (len + 1)
  else none
termination_by v.toNat
decreasing_by
  have positive := BitVec.toNat_pos_of_ne_zero ‹¬v = 0›
  rw [BitVec.toNat_udiv]
  exact Nat.div_lt_self positive (by decide)

/-- The loop of `print_dec` that prints the buffer in reverse. -/
def printBack (buf : Vector U8 20) : (len : Nat) → VgaState → Option VgaState
  | 0, vga => some vga
  | len + 1, vga => if inside : len < 20 then printBack buf len (putChar buf[len] vga) else none

/-- `print_dec`, on a buffer whose bytes nothing has been written to. -/
def printDec (undefined : Vector U8 20) (value : U64) (vga : VgaState) : Option VgaState :=
  if value = 0 then some (putChar 0x30 vga)
  else
    match decDigits value undefined 0 with
    | none => none
    | some (buf, len) => printBack buf len vga

/-- The string `"0123456789ABCDEF"`. -/
def hexDigits : List U8 :=
  [0x30, 0x31, 0x32, 0x33, 0x34, 0x35, 0x36, 0x37, 0x38, 0x39, 0x41, 0x42, 0x43, 0x44, 0x45, 0x46]

/-- The loop of `print_hex`; the shift is a signed byte that ends below zero. -/
def hexLoop (value : U64) (shift : BitVec 8) (started : Bool) (vga : VgaState) :
    Option VgaState :=
  if 0 ≤ shift.toInt then
    let nibble : U8 := ((value >>> shift.toNat) &&& 0xF).setWidth 8
    if nibble ≠ 0 ∨ started ∨ shift = 0 then
      match hexDigits[nibble.toNat]? with
      | none => none
      | some char => hexLoop value (shift - 4) true (putChar char vga)
    else hexLoop value (shift - 4) started vga
  else some vga
termination_by (shift.toInt + 4).toNat
decreasing_by
  all_goals
    have lower : (shift - 4).toInt = shift.toInt - 4 := by
      rw [BitVec.toInt_sub]
      have high : shift.toInt < 128 := BitVec.toInt_lt
      have four : (4 : BitVec 8).toInt = 4 := rfl
      rw [four, Int.bmod_eq_of_le (by omega) (by omega)]
    omega

/-- `print_hex`. -/
def printHex (value : U64) (vga : VgaState) : Option VgaState :=
  hexLoop value 60 false (print [0x30, 0x78] vga)

/-- The character of a decimal digit. -/
def decimalSymbol (digit : Nat) : U8 := BitVec.ofNat 8 (0x30 + digit)

/-- The character of a hexadecimal digit, upper case. -/
def hexSymbol (digit : Nat) : U8 :=
  if digit < 10 then decimalSymbol digit else BitVec.ofNat 8 (0x41 + (digit - 10))

/-! ### Decimal -/

theorem length_digits_le (v : U64) : (Nat.digits 10 v.toNat).length ≤ 20 := by
  rw [Nat.digits_length_le_iff (by decide)]
  have bound := v.isLt
  omega

theorem decimalSymbol_mod (v : U64) :
    (v % 10 + 0x30).setWidth 8 = decimalSymbol (v.toNat % 10) := by
  apply BitVec.eq_of_toNat_eq
  have digit : v.toNat % 10 < 10 := Nat.mod_lt _ (by decide)
  rw [BitVec.toNat_setWidth, decimalSymbol, BitVec.toNat_ofNat, BitVec.toNat_add,
    BitVec.toNat_umod]
  change (v.toNat % 10 + 48) % 2 ^ 64 % 2 ^ 8 = (48 + v.toNat % 10) % 2 ^ 8
  omega

/-- Writing behind the bytes written so far. -/
theorem take_set {size : Nat} (buf : Vector U8 size) {len : Nat} (inside : len < size)
    (byte : U8) :
    (buf.set len byte inside).toList.take (len + 1) = buf.toList.take len ++ [byte] := by
  have length : len < buf.toList.length := by rwa [Vector.length_toList]
  rw [Vector.toList_set, List.take_succ_eq_append_getElem (by rwa [List.length_set]),
    List.getElem_set_self, List.take_set_of_le (Nat.le_refl len)]

/-- The first loop leaves the digits of its argument behind what was written before,
the lowest first. -/
theorem decDigits_eq {v : U64} {buf : Vector U8 20} {len : Nat}
    (room : len + (Nat.digits 10 v.toNat).length ≤ 20) :
    ∃ filled : Vector U8 20,
      decDigits v buf len = some (filled, len + (Nat.digits 10 v.toNat).length) ∧
      filled.toList.take (len + (Nat.digits 10 v.toNat).length) =
        buf.toList.take len ++ (Nat.digits 10 v.toNat).map decimalSymbol := by
  fun_induction decDigits v buf len with
  | case1 buf len =>
      refine ⟨buf, rfl, ?_⟩
      have none : Nat.digits 10 (0 : U64).toNat = [] := Nat.digits_zero 10
      rw [none, List.map_nil, List.append_nil, List.length_nil, Nat.add_zero]
  | case2 v buf len positive inside ih =>
      have value : v.toNat ≠ 0 := fun zero => positive (BitVec.eq_of_toNat_eq zero)
      have digits : Nat.digits 10 v.toNat = v.toNat % 10 :: Nat.digits 10 (v / 10).toNat :=
        Nat.digits_eq_cons_digits_div (by decide) value
      have count : len + (Nat.digits 10 v.toNat).length =
          len + 1 + (Nat.digits 10 (v / 10).toNat).length := by
        rw [digits, List.length_cons]
        omega
      obtain ⟨filled, run, written⟩ := ih (count ▸ room)
      refine ⟨filled, by rw [count, run], ?_⟩
      rw [count, written, digits, List.map_cons, decimalSymbol_mod, take_set, List.append_assoc,
        List.singleton_append]
  | case3 v buf len positive full =>
      have some : Nat.digits 10 v.toNat ≠ [] :=
        Nat.digits_ne_nil_iff_ne_zero.mpr fun zero => positive (BitVec.eq_of_toNat_eq zero)
      have := List.length_pos_of_ne_nil some
      omega

theorem printBack_eq (buf : Vector U8 20) {len : Nat} (inside : len ≤ 20) (vga : VgaState) :
    printBack buf len vga = some (print (buf.toList.take len).reverse vga) := by
  induction len generalizing vga with
  | zero => rfl
  | succ len ih =>
      have last : len < buf.toList.length := by rwa [Vector.length_toList]
      rw [printBack, dif_pos (Nat.lt_of_succ_le inside), ih (Nat.le_of_succ_le inside),
        List.take_succ_eq_append_getElem last, List.reverse_append]
      rfl

/-- `print_dec` prints a decimal numeral of its argument. -/
theorem printDec_eq (value : U64) :
    ∃ digits : List Nat, Numeral 10 value.toNat digits ∧
      ∀ (undefined : Vector U8 20) (vga : VgaState),
        printDec undefined value vga = some (print (digits.map decimalSymbol) vga) := by
  by_cases zero : value = 0
  · subst zero
    exact ⟨[0], Numeral.singleton (by decide), fun _ _ => rfl⟩
  · have positive : value.toNat ≠ 0 := fun none => zero (BitVec.eq_of_toNat_eq none)
    refine ⟨_, numeral_digits (by decide) positive, fun undefined vga => ?_⟩
    have room : 0 + (Nat.digits 10 value.toNat).length ≤ 20 := by
      rw [Nat.zero_add]
      exact length_digits_le value
    obtain ⟨filled, run, written⟩ := @decDigits_eq value undefined 0 room
    rw [printDec, if_neg zero, run]
    dsimp only
    rw [printBack_eq filled room, written, List.take_zero, List.nil_append, List.map_reverse]

/-! ### Hexadecimal -/

theorem hexDigits_eq {digit : Nat} (below : digit < 16) :
    hexDigits[digit]? = some (hexSymbol digit) := by
  interval_cases digit <;> rfl

/-- The shift of `print_hex` at which a number of digits are still to come. -/
def shiftFor (count : Nat) : BitVec 8 := BitVec.ofNat 8 (4 * count) - 4

theorem shiftFor_succ {count : Nat} (within : count < 16) :
    shiftFor (count + 1) = BitVec.ofNat 8 (4 * count) ∧
      (shiftFor (count + 1)).toNat = 4 * count ∧ 0 ≤ (shiftFor (count + 1)).toInt ∧
      shiftFor (count + 1) - 4 = shiftFor count := by
  interval_cases count <;> decide

theorem toNat_nibble (value : U64) (count : Nat) :
    (((value >>> (4 * count)) &&& 0xF).setWidth 8 : U8).toNat =
      value.toNat / 16 ^ count % 16 := by
  have mask : (0xF : U64).toNat = 2 ^ 4 - 1 := rfl
  have base : 16 ^ count = 2 ^ (4 * count) := (Nat.pow_mul 2 4 count).symm
  have small : value.toNat / 16 ^ count % 16 < 2 ^ 8 :=
    Nat.lt_trans (Nat.mod_lt _ (by decide)) (by decide)
  rw [BitVec.toNat_setWidth, BitVec.toNat_and, mask, BitVec.toNat_ushiftRight,
    Nat.and_two_pow_sub_one_eq_mod, Nat.shiftRight_eq_div_pow, ← base, Nat.mod_eq_of_lt small]

/-- One round of the loop of `print_hex`. -/
theorem hexLoop_succ (value : U64) {count : Nat} (within : count < 16) (started : Bool)
    (vga : VgaState) :
    hexLoop value (shiftFor (count + 1)) started vga =
      if value.toNat / 16 ^ count % 16 ≠ 0 ∨ started ∨ count = 0 then
        hexLoop value (shiftFor count) true
          (putChar (hexSymbol (value.toNat / 16 ^ count % 16)) vga)
      else hexLoop value (shiftFor count) started vga := by
  obtain ⟨shift, amount, again, next⟩ := shiftFor_succ within
  have last : shiftFor (count + 1) = 0 ↔ count = 0 := by
    rw [shift]
    interval_cases count <;> decide
  have digit := toNat_nibble value count
  have zero : ((value >>> (4 * count)) &&& 0xF).setWidth 8 ≠ (0 : U8) ↔
      value.toNat / 16 ^ count % 16 ≠ 0 := by
    rw [← digit, not_iff_not]
    exact ⟨fun equal => congrArg BitVec.toNat equal, fun equal => BitVec.eq_of_toNat_eq equal⟩
  rw [hexLoop, if_pos again]
  dsimp only
  rw [amount, next, digit, hexDigits_eq (Nat.mod_lt _ (by decide))]
  simp only [zero, last]

theorem hexLoop_zero (value : U64) (started : Bool) (vga : VgaState) :
    hexLoop value (shiftFor 0) started vga = some vga := by
  rw [hexLoop, if_neg (by decide)]

/-- Once started the loop prints all the digits still to come. -/
theorem hexLoop_started (value : U64) {count : Nat} (within : count ≤ 16) (vga : VgaState) :
    hexLoop value (shiftFor count) true vga =
      some (print ((lowDigits 16 count value.toNat).map hexSymbol) vga) := by
  induction count generalizing vga with
  | zero => exact hexLoop_zero value true vga
  | succ count ih =>
      rw [hexLoop_succ value within, if_pos (.inr (.inl rfl)), ih (Nat.le_of_succ_le within)]
      rfl

/-- Before it has started the loop prints a numeral of what the digits still to come
stand for. -/
theorem hexLoop_leading (value : U64) {count : Nat} (within : count < 16) :
    ∃ digits : List Nat, Numeral 16 (value.toNat % 16 ^ (count + 1)) digits ∧
      ∀ vga : VgaState, hexLoop value (shiftFor (count + 1)) false vga =
        some (print (digits.map hexSymbol) vga) := by
  induction count with
  | zero =>
      refine ⟨[value.toNat % 16], Numeral.singleton (Nat.mod_lt _ (by decide)), fun vga => ?_⟩
      rw [hexLoop_succ value within, if_pos (.inr (.inr rfl)), hexLoop_zero, Nat.pow_zero,
        Nat.div_one]
      rfl
  | succ count ih =>
      have digit := Nat.mod_lt (value.toNat / 16 ^ (count + 1)) (show 0 < 16 by decide)
      by_cases leading : value.toNat / 16 ^ (count + 1) % 16 = 0
      · obtain ⟨digits, numeral, printed⟩ := ih (Nat.lt_of_succ_lt within)
        have same : value.toNat % 16 ^ (count + 1 + 1) = value.toNat % 16 ^ (count + 1) := by
          rw [Nat.mod_pow_succ, leading, Nat.mul_zero, Nat.add_zero]
        refine ⟨digits, same ▸ numeral, fun vga => ?_⟩
        rw [hexLoop_succ value within, if_neg, printed]
        rintro (other | started | last)
        · exact other leading
        · exact Bool.noConfusion started
        · exact Nat.succ_ne_zero count last
      · have numeral := Numeral.of_first digit leading
          (lowDigits_lt (by decide) (count + 1) value.toNat)
        have number : 16 ^ (lowDigits 16 (count + 1) value.toNat).length *
              (value.toNat / 16 ^ (count + 1) % 16) +
            numberOf 16 (lowDigits 16 (count + 1) value.toNat) =
              value.toNat % 16 ^ (count + 1 + 1) := by
          rw [length_lowDigits, numberOf_lowDigits, Nat.add_comm,
            ← Nat.mod_pow_succ]
        refine ⟨_, number ▸ numeral, fun vga => ?_⟩
        rw [hexLoop_succ value within, if_pos (.inl leading),
          hexLoop_started value (Nat.le_of_lt within)]
        rfl

/-- `print_hex` prints `0x` and a hexadecimal numeral of its argument. -/
theorem printHex_eq (value : U64) :
    ∃ digits : List Nat, Numeral 16 value.toNat digits ∧
      ∀ vga : VgaState, printHex value vga =
        some (print ([0x30, 0x78] ++ digits.map hexSymbol) vga) := by
  obtain ⟨digits, numeral, printed⟩ := hexLoop_leading value (show 15 < 16 by decide)
  have whole : value.toNat % 16 ^ (15 + 1) = value.toNat := Nat.mod_eq_of_lt value.isLt
  refine ⟨digits, whole ▸ numeral, fun vga => ?_⟩
  have first : shiftFor (15 + 1) = 60 := by decide
  rw [printHex, ← first, printed, print, print, print, List.foldl_append]

/-- **Numbers are printed exactly.** `print_dec` never writes past its buffer,
whatever the buffer holds at first, and prints decimal digits without a leading zero
that stand for its argument; `print_hex` prints `0x` and such hexadecimal digits,
the fewest that stand for the argument. -/
theorem number_printing_exact (value : U64) :
    (∃ digits : List Nat, Numeral 10 value.toNat digits ∧
      ∀ (undefined : Vector U8 20) (vga : VgaState),
        printDec undefined value vga = some (print (digits.map decimalSymbol) vga)) ∧
    ∃ digits : List Nat, Numeral 16 value.toNat digits ∧
      (∀ other : List Nat, other ≠ [] → (∀ digit ∈ other, digit < 16) →
        numberOf 16 other = value.toNat → digits.length ≤ other.length) ∧
      ∀ vga : VgaState, printHex value vga =
        some (print ([0x30, 0x78] ++ digits.map hexSymbol) vga) := by
  obtain ⟨digits, numeral, printed⟩ := printHex_eq value
  refine ⟨printDec_eq value, digits, numeral, ?_, printed⟩
  intro other nonempty below same
  exact numeral.length_le (by decide) nonempty below same

end Lofita.Vga
