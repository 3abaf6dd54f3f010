import Mathlib.Data.Nat.Bitwise
import Lofita.Ppa.Representation

/-! # The coalescing loop

What a whole run of the loop does to `page_meta`, whatever the array holds. The
loop joins the block at `idx` as long as its buddy is free and of the same order
(`Joins`). It writes only entries outside the pages the block started with, apart
from the block's own first page (`coalesce_inside`), and the first page keeps its
free bit (`coalesce_isFree_start`): when the block is joined with a buddy on its
left, that page is inside the joined block and still marked free
(`coalesce_stale`).
-/

namespace Lofita.Ppa

/-- The block at `idx` is joined with its buddy. -/
def Joins (pageMeta : PageMeta) (idx order : Nat) : Prop :=
  order < maxOrder - 1 ∧ idx ^^^ 2 ^ order < totalPages ∧
    (pageMeta (idx ^^^ 2 ^ order)).isFree = true ∧ (pageMeta (idx ^^^ 2 ^ order)).order = order

instance (pageMeta : PageMeta) (idx order : Nat) : Decidable (Joins pageMeta idx order) :=
  inferInstanceAs (Decidable (_ ∧ _))

/-- The first page of the joined block. -/
def joinedHead (idx order : Nat) : Nat :=
  if idx ^^^ 2 ^ order < idx then idx ^^^ 2 ^ order else idx

/-- The array after one round of the loop. -/
def joined (pageMeta : PageMeta) (idx order : Nat) : PageMeta :=
  Function.update
    (Function.update pageMeta (idx ^^^ 2 ^ order)
      { pageMeta (idx ^^^ 2 ^ order) with isFree := false })
    (joinedHead idx order) { order := order + 1, isFree := true }

variable {pageMeta : PageMeta} {fuel idx order : Nat}

theorem coalesce_of_joins (joins : Joins pageMeta idx order) :
    coalesce (fuel + 1) pageMeta idx order =
      coalesce fuel (joined pageMeta idx order) (joinedHead idx order) (order + 1) := by
  obtain ⟨room, inside, free, same⟩ := joins
  simp only [coalesce, room, not_le.mpr inside, free, same, and_self, ↓reduceIte, joined,
    joinedHead]

theorem coalesce_of_not_joins (alone : ¬ Joins pageMeta idx order) :
    coalesce fuel pageMeta idx order = pageMeta := by
  cases fuel with
  | zero => rfl
  | succ fuel =>
      simp only [coalesce]
      split_ifs with room outside joins left
      · rfl
      · exact absurd ⟨room, not_le.mp outside, joins⟩ alone
      · exact absurd ⟨room, not_le.mp outside, joins⟩ alone
      · rfl
      · rfl

@[simp] theorem joined_head : joined pageMeta idx order (joinedHead idx order) =
    { order := order + 1, isFree := true } := Function.update_self ..

/-- A round leaves alone every entry but those of the two halves. -/
theorem joined_of_ne {page : Nat} (notIdx : page ≠ idx) (notBuddy : page ≠ idx ^^^ 2 ^ order) :
    joined pageMeta idx order page = pageMeta page := by
  unfold joined joinedHead
  split_ifs
  · rw [Function.update_of_ne notBuddy, Function.update_of_ne notBuddy]
  · rw [Function.update_of_ne notIdx, Function.update_of_ne notBuddy]

theorem joinedHead_of_right (notLeft : ¬ idx ^^^ 2 ^ order < idx) : joinedHead idx order = idx :=
  if_neg notLeft

/-- A round to the right keeps the head. -/
theorem joined_self (notLeft : ¬ idx ^^^ 2 ^ order < idx) :
    joined pageMeta idx order idx = { order := order + 1, isFree := true } := by
  unfold joined
  rw [joinedHead_of_right notLeft, Function.update_self]

/-- A round to the right retires the buddy. -/
theorem joined_buddy (notLeft : ¬ idx ^^^ 2 ^ order < idx) :
    (joined pageMeta idx order (idx ^^^ 2 ^ order)).isFree = false := by
  unfold joined
  rw [joinedHead_of_right notLeft, Function.update_of_ne (xor_two_pow_ne idx order),
    Function.update_self]

/-- The two halves of a block lie in the same block of the doubled size. -/
theorem xor_two_pow_div (idx order : Nat) :
    (idx ^^^ 2 ^ order) / 2 ^ (order + 1) = idx / 2 ^ (order + 1) := by
  have vanishes : 2 ^ order / 2 ^ (order + 1) = 0 :=
    Nat.div_eq_of_lt (Nat.pow_lt_pow_right (by decide) order.lt_succ_self)
  rw [Nat.xor_div_two_pow, vanishes, Nat.xor_zero]

theorem xor_two_pow_div_ne (idx order : Nat) :
    (idx ^^^ 2 ^ order) / 2 ^ order ≠ idx / 2 ^ order := by
  rw [Nat.xor_div_two_pow, Nat.div_self (Nat.two_pow_pos order)]
  intro same
  exact absurd (Nat.xor_right_inj.mp (same.trans (Nat.xor_zero _).symm)) Nat.one_ne_zero

theorem joinedHead_div (idx order : Nat) :
    joinedHead idx order / 2 ^ (order + 1) = idx / 2 ^ (order + 1) := by
  unfold joinedHead
  split_ifs
  · exact xor_two_pow_div idx order
  · rfl

theorem div_two_pow_succ {first second order : Nat}
    (same : first / 2 ^ order = second / 2 ^ order) :
    first / 2 ^ (order + 1) = second / 2 ^ (order + 1) := by
  rw [Nat.pow_succ, ← Nat.div_div_eq_div_mul, same, Nat.div_div_eq_div_mul]

/-- Inside the block it starts from, the loop writes at most the first page. -/
theorem coalesce_inside {page : Nat} (inside : page / 2 ^ order = idx / 2 ^ order)
    (notIdx : page ≠ idx) : coalesce fuel pageMeta idx order page = pageMeta page := by
  induction fuel generalizing pageMeta idx order with
  | zero => rfl
  | succ fuel ih =>
      by_cases joins : Joins pageMeta idx order
      · have notBuddy : page ≠ idx ^^^ 2 ^ order := by
          rintro rfl
          exact xor_two_pow_div_ne idx order inside
        have notHead : page ≠ joinedHead idx order := by
          unfold joinedHead
          split_ifs
          · exact notBuddy
          · exact notIdx
        rw [coalesce_of_joins joins, ih _ notHead, joined_of_ne notIdx notBuddy]
        exact (div_two_pow_succ inside).trans (joinedHead_div idx order).symm
      · rw [coalesce_of_not_joins joins]

/-- A first page that is left behind by a join to the left keeps its entry. -/
theorem coalesce_left (left : idx ^^^ 2 ^ order < idx) :
    coalesce fuel (joined pageMeta idx order) (joinedHead idx order) (order + 1) idx =
      pageMeta idx := by
  have headIs : joinedHead idx order = idx ^^^ 2 ^ order := if_pos left
  have notHead : idx ≠ joinedHead idx order := by omega
  rw [coalesce_inside (joinedHead_div idx order).symm notHead]
  unfold joined
  rw [Function.update_of_ne notHead, Function.update_of_ne (by omega)]

/-- The page the loop starts from keeps its free bit. -/
theorem coalesce_isFree_start (free : (pageMeta idx).isFree = true) :
    (coalesce fuel pageMeta idx order idx).isFree = true := by
  induction fuel generalizing pageMeta order with
  | zero => exact free
  | succ fuel ih =>
      by_cases joins : Joins pageMeta idx order
      · rw [coalesce_of_joins joins]
        by_cases left : idx ^^^ 2 ^ order < idx
        · rw [coalesce_left left, free]
        · rw [joinedHead_of_right left]
          apply ih
          rw [joined_self left]
      · rw [coalesce_of_not_joins joins, free]

/-! ### Aligned blocks -/

/-- A round starts from an aligned block and leaves an aligned block around it. -/
theorem joinedHead_aligned (aligned : 2 ^ order ∣ idx) :
    2 ^ (order + 1) ∣ joinedHead idx order ∧ joinedHead idx order ≤ idx ∧
      idx + 2 ^ order ≤ joinedHead idx order + 2 ^ (order + 1) := by
  have double := Nat.pow_succ 2 order
  have positive := Nat.two_pow_pos order
  unfold joinedHead
  rw [Foundation.xor_two_pow_of_dvd aligned]
  by_cases even : 2 ^ (order + 1) ∣ idx
  · rw [if_pos even, if_neg (by omega)]
    exact ⟨even, le_rfl, by omega⟩
  · have room := Foundation.two_pow_le_of_not_dvd aligned even
    rw [if_neg even, if_pos (by omega)]
    refine ⟨?_, by omega, by omega⟩
    obtain ⟨quotient, rfl⟩ := aligned
    have odd : ¬ 2 ∣ quotient := by
      rintro ⟨half, rfl⟩
      exact even ⟨half, by rw [double]; ring⟩
    obtain ⟨half, rfl⟩ : ∃ half, quotient = 2 * half + 1 := ⟨quotient / 2, by omega⟩
    exact ⟨half, by rw [Nat.mul_add, Nat.mul_one, Nat.add_sub_cancel, double]; ring⟩

/-- The loop ends with a free block around the one it started from. -/
theorem exists_coalesce_head (aligned : 2 ^ order ∣ idx)
    (entry : pageMeta idx = { order, isFree := true }) :
    ∃ head final, coalesce fuel pageMeta idx order head = { order := final, isFree := true } ∧
      head ≤ idx ∧ idx + 2 ^ order ≤ head + 2 ^ final := by
  induction fuel generalizing pageMeta idx order with
  | zero => exact ⟨idx, order, entry, le_rfl, le_rfl⟩
  | succ fuel ih =>
      by_cases joins : Joins pageMeta idx order
      · obtain ⟨alignedHead, before, after⟩ := joinedHead_aligned aligned
        obtain ⟨head, final, found, lower, upper⟩ := ih alignedHead joined_head
        rw [coalesce_of_joins joins]
        exact ⟨head, final, found, by omega, by omega⟩
      · rw [coalesce_of_not_joins joins]
        exact ⟨idx, order, entry, le_rfl, le_rfl⟩

theorem mergesLeft_succ : mergesLeft pageMeta (fuel + 1) idx order = true ↔
    Joins pageMeta idx order ∧
      (idx ^^^ 2 ^ order < idx ∨ mergesLeft pageMeta fuel idx (order + 1) = true) := by
  simp only [mergesLeft, Bool.and_eq_true, Bool.or_eq_true, decide_eq_true_eq, Joins]

/-- A round to the right writes nothing that the test for the later rounds reads. -/
theorem mergesLeft_round (pageMeta : PageMeta) (fuel : Nat) {idx order : Nat}
    (notLeft : ¬ idx ^^^ 2 ^ order < idx) :
    mergesLeft (joined pageMeta idx order) fuel idx (order + 1) =
      mergesLeft pageMeta fuel idx (order + 1) := by
  unfold joined
  rw [joinedHead_of_right notLeft]
  exact mergesLeft_joined pageMeta fuel idx order _ _

/-- **A join to the left leaves a stale bit.** The page the loop starts from, which
is still marked free, lies strictly inside the free block the loop ends with. -/
theorem coalesce_stale (aligned : 2 ^ order ∣ idx)
    (entry : pageMeta idx = { order, isFree := true })
    (left : mergesLeft pageMeta fuel idx order = true) :
    ∃ head final,
      coalesce fuel pageMeta idx order head = { order := final, isFree := true } ∧
        head < idx ∧ idx < head + 2 ^ final := by
  induction fuel generalizing pageMeta order with
  | zero => cases left
  | succ fuel ih =>
      obtain ⟨joins, step⟩ := mergesLeft_succ.mp left
      obtain ⟨alignedHead, _, after⟩ := joinedHead_aligned aligned
      have positive := Nat.two_pow_pos order
      rw [coalesce_of_joins joins]
      by_cases here : idx ^^^ 2 ^ order < idx
      · obtain ⟨head, final, found, lower, upper⟩ := exists_coalesce_head alignedHead joined_head
        have headIs : joinedHead idx order = idx ^^^ 2 ^ order := if_pos here
        exact ⟨head, final, found, by omega, by omega⟩
      · have unread := mergesLeft_round pageMeta fuel here
        rw [joinedHead_of_right here] at alignedHead ⊢
        exact ih alignedHead (joined_self here) (unread.trans (step.resolve_left here))

end Lofita.Ppa
