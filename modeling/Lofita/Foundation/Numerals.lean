import Mathlib.Data.Nat.Digits.Lemmas

/-! # Numerals

A number written in a base with the most significant digit first. A numeral has no
leading zero, unless it is the digit 0 alone, and so no other string of digits for
the same number is shorter (`Numeral.length_le`). Numerals come from the digits of
a number read backwards (`numeral_digits`), and from a first digit other than zero
and the digits below it (`Numeral.of_first`).
-/

namespace Lofita.Foundation

/-- The number that digits stand for, the most significant one first. -/
def numberOf (base : Nat) (digits : List Nat) : Nat := Nat.ofDigits base digits.reverse

@[simp] theorem numberOf_nil (base : Nat) : numberOf base [] = 0 := rfl

/-- The first digit counts most. -/
theorem numberOf_cons (base digit : Nat) (rest : List Nat) :
    numberOf base (digit :: rest) = base ^ rest.length * digit + numberOf base rest := by
  unfold numberOf
  rw [List.reverse_cons, Nat.ofDigits_append, Nat.ofDigits_singleton, List.length_reverse,
    Nat.add_comm]

/-- A number with so many digits is below that power of the base. -/
theorem numberOf_lt {base : Nat} {digits : List Nat} (large : 1 < base)
    (below : ∀ digit ∈ digits, digit < base) : numberOf base digits < base ^ digits.length := by
  rw [← List.length_reverse]
  exact Nat.ofDigits_lt_base_pow_length large
    fun digit member => below digit (List.mem_reverse.mp member)

/-- Digits that write a number in a base, without leading zeros. -/
structure Numeral (base n : Nat) (digits : List Nat) : Prop where
  nonempty : digits ≠ []
  below : ∀ digit ∈ digits, digit < base
  leading : digits.head? = some 0 → digits = [0]
  number : numberOf base digits = n

/-- One digit is a numeral. -/
theorem Numeral.singleton {base digit : Nat} (below : digit < base) :
    Numeral base digit [digit] where
  nonempty := List.cons_ne_nil digit []
  below := fun other member => List.mem_singleton.mp member ▸ below
  leading := fun zero => by rw [Option.some.inj zero]
  number := Nat.ofDigits_singleton

/-- A first digit other than zero makes any digits after it a numeral. -/
theorem Numeral.of_first {base first : Nat} {rest : List Nat} (small : first < base)
    (positive : first ≠ 0) (below : ∀ digit ∈ rest, digit < base) :
    Numeral base (base ^ rest.length * first + numberOf base rest) (first :: rest) where
  nonempty := List.cons_ne_nil first rest
  below := List.forall_mem_cons.mpr ⟨small, below⟩
  leading := fun zero => absurd (Option.some.inj zero) positive
  number := numberOf_cons base first rest

/-- The digits of a positive number, read backwards, are a numeral of it. -/
theorem numeral_digits {base n : Nat} (large : 1 < base) (positive : n ≠ 0) :
    Numeral base n (base.digits n).reverse where
  nonempty := fun empty =>
    positive (Nat.digits_eq_nil_iff_eq_zero.mp (List.reverse_eq_nil_iff.mp empty))
  below := fun digit member => Nat.digits_lt_base large (List.mem_reverse.mp member)
  leading := fun zero => by
    have nonempty : base.digits n ≠ [] := Nat.digits_ne_nil_iff_ne_zero.mpr positive
    rw [List.head?_reverse, List.getLast?_eq_some_getLast nonempty] at zero
    exact absurd (Option.some.inj zero) (Nat.getLast_digit_ne_zero base positive)
  number := by
    unfold numberOf
    rw [List.reverse_reverse, Nat.ofDigits_digits]

/-- **Numerals are shortest.** No digits that stand for the number of a numeral
are fewer, unless there are none. -/
theorem Numeral.length_le {base n : Nat} {digits other : List Nat} (large : 1 < base)
    (numeral : Numeral base n digits) (nonempty : other ≠ [])
    (below : ∀ digit ∈ other, digit < base) (same : numberOf base other = n) :
    digits.length ≤ other.length := by
  obtain ⟨first, rest, rfl⟩ := List.exists_cons_of_ne_nil numeral.nonempty
  by_cases zero : first = 0
  · have alone := numeral.leading (congrArg some zero)
    rw [alone]
    exact List.length_pos_of_ne_nil nonempty
  · have least : base ^ rest.length ≤ n := by
      rw [← numeral.number, numberOf_cons]
      exact (Nat.le_mul_of_pos_right _ (Nat.pos_of_ne_zero zero)).trans (Nat.le_add_right _ _)
    have most : n < base ^ other.length := same ▸ numberOf_lt large below
    exact (Nat.pow_lt_pow_iff_right large).mp (Nat.lt_of_le_of_lt least most)

/-! ### The low digits of a number -/

/-- The lowest digits of a number, as many as asked for, the most significant one
of them first. -/
def lowDigits (base : Nat) : (count n : Nat) → List Nat
  | 0, _ => []
  | count + 1, n => n / base ^ count % base :: lowDigits base count n

@[simp] theorem length_lowDigits (base count n : Nat) :
    (lowDigits base count n).length = count := by
  induction count with
  | zero => rfl
  | succ count ih => rw [lowDigits, List.length_cons, ih]

theorem lowDigits_lt {base : Nat} (positive : 0 < base) (count n : Nat) :
    ∀ digit ∈ lowDigits base count n, digit < base := by
  induction count with
  | zero => exact List.forall_mem_nil _
  | succ count ih => exact List.forall_mem_cons.mpr ⟨Nat.mod_lt _ positive, ih⟩

/-- The low digits make up the number, apart from what lies above them. -/
theorem numberOf_lowDigits (base count n : Nat) :
    numberOf base (lowDigits base count n) = n % base ^ count := by
  induction count with
  | zero => rw [lowDigits, numberOf_nil, Nat.pow_zero, Nat.mod_one]
  | succ count ih =>
      rw [lowDigits, numberOf_cons, length_lowDigits, ih, Nat.mod_pow_succ, Nat.add_comm]

end Lofita.Foundation
