import Mathlib.Data.Nat.Basic
import Mathlib.Logic.Function.Basic
import Mathlib.Tactic.Ring

/-! # Tilings by aligned power-of-two blocks

A block of order `k` is a run of `2 ^ k` consecutive pages that starts at a
multiple of its size. A tiling cuts an initial segment of the pages into such
blocks. It is given by the orders of its blocks at their first pages, so that
splitting a block into its two halves (`Tiling.split`) and joining two buddies
(`Tiling.merge`) are updates of one function, and the structure itself carries
the fact that no page belongs to two blocks.
-/

namespace Lofita.Foundation

/-- Flipping bit `k` of an aligned start moves to the buddy on the right when
the start is aligned to the doubled block, and to the buddy on the left
otherwise. -/
theorem xor_two_pow_of_dvd {start k : Nat} (aligned : 2 ^ k ∣ start) :
    start ^^^ 2 ^ k = if 2 ^ (k + 1) ∣ start then start + 2 ^ k else start - 2 ^ k := by
  obtain ⟨quotient, rfl⟩ := aligned
  have halves : (quotient ^^^ 1) / 2 = quotient / 2 := by
    rw [Nat.xor_div_two, Nat.div_eq_of_lt (by decide : 1 < 2), Nat.xor_zero]
  have parity : (quotient ^^^ 1) % 2 = 1 ↔ ¬ quotient % 2 = 1 := by
    rw [Nat.xor_mod_two_eq_one]
    omega
  have flipped : 2 ^ k * quotient ^^^ 2 ^ k = 2 ^ k * (quotient ^^^ 1) := by
    have shifted := Nat.shiftLeft_xor_distrib (a := quotient) (b := 1) (i := k)
    simpa only [Nat.shiftLeft_eq, Nat.one_mul, Nat.mul_comm] using shifted.symm
  have doubled : 2 ^ (k + 1) ∣ 2 ^ k * quotient ↔ 2 ∣ quotient := by
    rw [Nat.pow_succ]
    exact Nat.mul_dvd_mul_iff_left (Nat.two_pow_pos k)
  rw [flipped]
  by_cases even : 2 ∣ quotient
  · have next : quotient ^^^ 1 = quotient + 1 := by omega
    rw [if_pos (doubled.mpr even), next]
    ring
  · have previous : quotient ^^^ 1 = quotient - 1 := by omega
    rw [if_neg (mt doubled.mp even), previous, Nat.mul_sub, Nat.mul_one]

/-- A start aligned to a block but not to the doubled block has room for a
buddy on its left. -/
theorem two_pow_le_of_not_dvd {start k : Nat} (aligned : 2 ^ k ∣ start)
    (odd : ¬ 2 ^ (k + 1) ∣ start) : 2 ^ k ≤ start := by
  obtain ⟨quotient, rfl⟩ := aligned
  rcases Nat.eq_zero_or_pos quotient with rfl | positive
  · exact absurd (Dvd.intro 0 rfl) odd
  · exact Nat.le_mul_of_pos_right _ positive

/-- A partition of the pages below `bound` into aligned blocks, given by the
order of the block that starts at a page. -/
structure Tiling (bound : Nat) where
  order : Nat → Option Nat
  aligned : ∀ {start k}, order start = some k → 2 ^ k ∣ start
  inside : ∀ {start k}, order start = some k → start + 2 ^ k ≤ bound
  apart : ∀ {start k next l}, order start = some k → order next = some l → start < next →
    start + 2 ^ k ≤ next
  covers : ∀ page, page < bound →
    ∃ start k, order start = some k ∧ start ≤ page ∧ page < start + 2 ^ k

namespace Tiling

variable {bound : Nat}

/-- The tiling by blocks of one order. -/
def uniform (bound k : Nat) (multiple : 2 ^ k ∣ bound) : Tiling bound where
  order page := if page < bound ∧ 2 ^ k ∣ page then some k else none
  aligned := by
    intro start l found
    split_ifs at found with holds
    cases found
    exact holds.2
  inside := by
    intro start l found
    split_ifs at found with holds
    cases found
    obtain ⟨⟨below, quotient, rfl⟩, total, rfl⟩ := holds, multiple
    have := Nat.lt_of_mul_lt_mul_left below
    calc 2 ^ k * quotient + 2 ^ k = 2 ^ k * (quotient + 1) := by ring
      _ ≤ 2 ^ k * total := Nat.mul_le_mul_left _ this
  apart := by
    intro start l next m found foundNext before
    split_ifs at found foundNext with holds holdsNext
    cases found
    cases foundNext
    obtain ⟨⟨_, quotient, rfl⟩, _, quotientNext, rfl⟩ := holds, holdsNext
    have := Nat.lt_of_mul_lt_mul_left before
    calc 2 ^ k * quotient + 2 ^ k = 2 ^ k * (quotient + 1) := by ring
      _ ≤ 2 ^ k * quotientNext := Nat.mul_le_mul_left _ this
  covers := by
    intro page below
    refine ⟨2 ^ k * (page / 2 ^ k), k, ?_, Nat.mul_div_le page (2 ^ k), ?_⟩
    · have small : 2 ^ k * (page / 2 ^ k) < bound := (Nat.mul_div_le page (2 ^ k)).trans_lt below
      exact if_pos ⟨small, Dvd.intro _ rfl⟩
    · exact Nat.lt_mul_div_succ page (Nat.two_pow_pos k)

/-- No block starts strictly inside another. -/
theorem order_eq_none_of_inside (tiling : Tiling bound) {start k page : Nat}
    (found : tiling.order start = some k) (after : start < page) (before : page < start + 2 ^ k) :
    tiling.order page = none := by
  cases other : tiling.order page with
  | none => rfl
  | some l =>
      have := tiling.apart found other after
      omega

private theorem update_update_cases {order : Nat → Option Nat} {left right page l : Nat}
    {leftValue rightValue : Option Nat}
    (lookup : Function.update (Function.update order left leftValue) right rightValue page =
      some l) :
    (page = right ∧ rightValue = some l) ∨ (page = left ∧ leftValue = some l) ∨
      (page ≠ right ∧ page ≠ left ∧ order page = some l) := by
  simp only [Function.update_apply] at lookup
  split_ifs at lookup with isRight isLeft
  · exact Or.inl ⟨isRight, lookup⟩
  · exact Or.inr (Or.inl ⟨isLeft, lookup⟩)
  · exact Or.inr (Or.inr ⟨isRight, isLeft, lookup⟩)

/-- Cut a block into its two halves. -/
def split (tiling : Tiling bound) {start k : Nat} (found : tiling.order start = some (k + 1)) :
    Tiling bound where
  order := Function.update (Function.update tiling.order start (some k)) (start + 2 ^ k) (some k)
  aligned := by
    intro page l lookup
    have whole : 2 ^ k ∣ start := (Nat.pow_dvd_pow 2 k.le_succ).trans (tiling.aligned found)
    rcases update_update_cases lookup with ⟨rfl, lIs⟩ | ⟨rfl, lIs⟩ | ⟨_, _, kept⟩
    · cases lIs
      exact Nat.dvd_add whole dvd_rfl
    · cases lIs
      exact whole
    · exact tiling.aligned kept
  inside := by
    intro page l lookup
    have whole := tiling.inside found
    have double := Nat.pow_succ 2 k
    rcases update_update_cases lookup with ⟨rfl, lIs⟩ | ⟨rfl, lIs⟩ | ⟨_, _, kept⟩
    · cases lIs
      omega
    · cases lIs
      omega
    · exact tiling.inside kept
  apart := by
    intro page l next m lookup lookupNext before
    have double := Nat.pow_succ 2 k
    rcases update_update_cases lookup with ⟨rfl, lIs⟩ | ⟨rfl, lIs⟩ | ⟨right, left, kept⟩ <;>
      rcases update_update_cases lookupNext with
        ⟨rfl, mIs⟩ | ⟨rfl, mIs⟩ | ⟨rightNext, leftNext, keptNext⟩
    · omega
    · omega
    · cases lIs
      have := tiling.apart found keptNext (by omega)
      omega
    · cases lIs
      exact le_rfl
    · omega
    · cases lIs
      have := tiling.apart found keptNext before
      omega
    · rcases Nat.lt_or_gt_of_ne left with earlier | later
      · have := tiling.apart kept found earlier
        omega
      · have := tiling.apart found kept later
        omega
    · exact tiling.apart kept found before
    · exact tiling.apart kept keptNext before
  covers := by
    intro page below
    have double := Nat.pow_succ 2 k
    obtain ⟨first, l, lookup, lower, upper⟩ := tiling.covers page below
    by_cases same : first = start
    · subst same
      cases found.symm.trans lookup
      by_cases half : page < first + 2 ^ k
      · have proper : first ≠ first + 2 ^ k := by have := Nat.two_pow_pos k; omega
        exact ⟨first, k, by simp only [Function.update_of_ne proper, Function.update_self], lower,
          half⟩
      · exact ⟨first + 2 ^ k, k, by simp only [Function.update_self], by omega, by omega⟩
    · have outside : first ≠ start + 2 ^ k := by
        rintro rfl
        have := tiling.apart found lookup (by have := Nat.two_pow_pos k; omega)
        have := Nat.two_pow_pos k
        omega
      exact ⟨first, l, by simpa only [Function.update_of_ne outside, Function.update_of_ne same],
        lower, upper⟩

/-- Join a block and the buddy on its right into one block. -/
def merge (tiling : Tiling bound) {start k : Nat} (found : tiling.order start = some k)
    (buddy : tiling.order (start + 2 ^ k) = some k) (double : 2 ^ (k + 1) ∣ start) :
    Tiling bound where
  order := Function.update (Function.update tiling.order start (some (k + 1))) (start + 2 ^ k) none
  aligned := by
    intro page l lookup
    rcases update_update_cases lookup with ⟨rfl, lIs⟩ | ⟨rfl, lIs⟩ | ⟨_, _, kept⟩
    · cases lIs
    · cases lIs
      exact double
    · exact tiling.aligned kept
  inside := by
    intro page l lookup
    have size := Nat.pow_succ 2 k
    have whole := tiling.inside buddy
    rcases update_update_cases lookup with ⟨rfl, lIs⟩ | ⟨rfl, lIs⟩ | ⟨_, _, kept⟩
    · cases lIs
    · cases lIs
      omega
    · exact tiling.inside kept
  apart := by
    intro page l next m lookup lookupNext before
    have size := Nat.pow_succ 2 k
    rcases update_update_cases lookup with ⟨rfl, lIs⟩ | ⟨rfl, lIs⟩ | ⟨right, left, kept⟩ <;>
      rcases update_update_cases lookupNext with
        ⟨rfl, mIs⟩ | ⟨rfl, mIs⟩ | ⟨rightNext, leftNext, keptNext⟩
    · omega
    · omega
    · cases lIs
    · cases mIs
    · omega
    · cases lIs
      have first := tiling.apart found keptNext before
      have second := tiling.apart buddy keptNext (by omega)
      omega
    · cases mIs
    · exact tiling.apart kept found before
    · exact tiling.apart kept keptNext before
  covers := by
    intro page below
    have size := Nat.pow_succ 2 k
    have proper : start ≠ start + 2 ^ k := by have := Nat.two_pow_pos k; omega
    have joined : Function.update (Function.update tiling.order start (some (k + 1)))
        (start + 2 ^ k) none start = some (k + 1) := by
      simp only [Function.update_of_ne proper, Function.update_self]
    obtain ⟨first, l, lookup, lower, upper⟩ := tiling.covers page below
    by_cases right : first = start + 2 ^ k
    · subst right
      cases buddy.symm.trans lookup
      exact ⟨start, k + 1, joined, by omega, by omega⟩
    · by_cases left : first = start
      · subst left
        cases found.symm.trans lookup
        exact ⟨first, k + 1, joined, lower, by omega⟩
      · exact ⟨first, l, by simpa only [Function.update_of_ne right, Function.update_of_ne left],
          lower, upper⟩

end Tiling

end Lofita.Foundation
