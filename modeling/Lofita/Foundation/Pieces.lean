import Mathlib.Data.List.Infix
import Mathlib.Data.List.TakeDrop

/-! # Strings put together from pieces

A string that agrees with a function from a place on (`AgreesFrom`), up to a size. A
concatenation agrees if its parts do, each from its own place on (`agreesFrom_append`,
`agreesFrom_flatMap`); and a string cut to the size is a prefix of the values of the
function exactly if it agrees with them from the start (`take_prefix_iff`). Numbers in rows of
one width (`range_mul`) name the pieces of a tree.
-/

namespace Lofita.Foundation

variable {α β : Type*} {content : Nat → β} {size base width : Nat} {first second : List β}

/-- The string has the values of the function from a place on, as far as they are below
the size. -/
def AgreesFrom (content : Nat → β) (size base : Nat) (string : List β) : Prop :=
  ∀ k (below : k < string.length), base + k < size → string[k] = content (base + k)

theorem agreesFrom_nil : AgreesFrom content size base [] :=
  fun _ below => absurd below (Nat.not_lt_zero _)

theorem agreesFrom_append :
    AgreesFrom content size base (first ++ second) ↔
      AgreesFrom content size base first ∧
        AgreesFrom content size (base + first.length) second := by
  constructor
  · intro agrees
    constructor
    · intro k below inSize
      have inBoth : k < (first ++ second).length := by
        rw [List.length_append]
        omega
      have here := agrees k inBoth inSize
      rwa [List.getElem_append_left below] at here
    · intro k below inSize
      have inBoth : first.length + k < (first ++ second).length := by
        rw [List.length_append]
        omega
      have here := agrees (first.length + k) inBoth (by omega)
      rw [List.getElem_append_right (Nat.le_add_right _ _), ← Nat.add_assoc] at here
      simpa only [Nat.add_sub_cancel_left] using here
  · rintro ⟨left, right⟩ k below inSize
    by_cases inFirst : k < first.length
    · rw [List.getElem_append_left inFirst]
      exact left k inFirst inSize
    · obtain ⟨j, rfl⟩ := Nat.exists_eq_add_of_le (Nat.le_of_not_lt inFirst)
      rw [List.length_append] at below
      have here := right j (by omega) (by omega)
      rw [List.getElem_append_right (Nat.le_add_right _ _), ← Nat.add_assoc]
      simpa only [Nat.add_sub_cancel_left] using here

theorem length_flatMap_uniform {parts : List α} {piece : α → List β}
    (uniform : ∀ part ∈ parts, (piece part).length = width) :
    (parts.flatMap piece).length = parts.length * width := by
  induction parts with
  | nil => exact (Nat.zero_mul width).symm
  | cons part rest ih =>
      rw [List.flatMap_cons, List.length_append, uniform part List.mem_cons_self,
        ih fun other member => uniform other (List.mem_cons_of_mem part member), List.length_cons,
        Nat.succ_mul, Nat.add_comm]

/-- Of numbered pieces of one width some are left out. What remains agrees exactly if each piece
does at its place, which is after those that remain before it. -/
theorem agreesFrom_flatMap {piece : Nat → List β} {kept : Nat → Bool} {count : Nat}
    (uniform : ∀ n, (piece n).length = width) :
    AgreesFrom content size base (((List.range count).filter kept).flatMap piece) ↔
      ∀ n < count, kept n = true →
        AgreesFrom content size (base + ((List.range n).filter kept).length * width)
          (piece n) := by
  induction count with
  | zero => exact iff_of_true agreesFrom_nil fun _ below => absurd below (Nat.not_lt_zero _)
  | succ count ih =>
      rw [List.range_succ, List.filter_append, List.flatMap_append, agreesFrom_append, ih,
        length_flatMap_uniform fun n _ => uniform n]
      constructor
      · rintro ⟨before, last⟩ n below isKept
        rcases Nat.lt_succ_iff_lt_or_eq.mp below with earlier | rfl
        · exact before n earlier isKept
        · rwa [List.filter_singleton, isKept, cond_true, List.flatMap_singleton] at last
      · intro each
        refine ⟨fun n below => each n (Nat.lt_succ_of_lt below), ?_⟩
        cases isKept : kept count with
        | false =>
            rw [List.filter_singleton, isKept, cond_false]
            exact agreesFrom_nil
        | true =>
            rw [List.filter_singleton, isKept, cond_true, List.flatMap_singleton]
            exact each count (Nat.lt_succ_self count) isKept

/-- A string cut to the size is a prefix of the values exactly if it agrees with
them. -/
theorem take_prefix_iff {string : List β} :
    string.take size <+: (List.range size).map content ↔ AgreesFrom content size 0 string := by
  rw [List.prefix_iff_getElem]
  simp only [List.length_take, List.length_map, List.length_range, List.getElem_take,
    List.getElem_map, List.getElem_range]
  constructor
  · rintro ⟨_, same⟩ k below inSize
    rw [Nat.zero_add] at inSize ⊢
    exact same k (Nat.lt_min.mpr ⟨inSize, below⟩)
  · intro agrees
    refine ⟨Nat.min_le_left _ _, fun k below => ?_⟩
    obtain ⟨inSize, inString⟩ := Nat.lt_min.mp below
    have here := agrees k inString (by rwa [Nat.zero_add])
    rwa [Nat.zero_add] at here

/-! ### Rows of numbers -/

/-- The numbers below a product, row by row. -/
theorem range_mul (rows width : Nat) :
    List.range (rows * width) =
      (List.range rows).flatMap fun j => (List.range width).map (j * width + ·) := by
  induction rows with
  | zero => rw [Nat.zero_mul, List.range_zero, List.flatMap_nil]
  | succ rows ih =>
      rw [Nat.succ_mul, List.range_add, ih, List.range_succ, List.flatMap_append,
        List.flatMap_singleton]

theorem row_div {width j i : Nat} (below : i < width) : (j * width + i) / width = j := by
  rw [Nat.add_comm, Nat.add_mul_div_right _ _ (by omega), Nat.div_eq_of_lt below, Nat.zero_add]

theorem row_mod {width j i : Nat} (below : i < width) : (j * width + i) % width = i := by
  rw [Nat.add_comm, Nat.add_mul_mod_self_right, Nat.mod_eq_of_lt below]

/-- A list, followed by defaults that give nothing. -/
theorem flatMap_getD {list : List α} {count : Nat} (few : list.length ≤ count) {default : α}
    {piece : α → List β} (nothing : piece default = []) :
    ((List.range count).flatMap fun j => piece (list.getD j default)) = list.flatMap piece := by
  induction list generalizing count with
  | nil =>
      refine List.flatMap_eq_nil_iff.mpr fun j _ => ?_
      rw [List.getD_nil, nothing]
  | cons head rest ih =>
      obtain ⟨less, rfl⟩ := Nat.exists_eq_add_of_le' (Nat.zero_lt_of_lt few)
      rw [List.range_succ_eq_map, List.flatMap_cons, List.flatMap_map, List.flatMap_cons,
        ← ih (Nat.le_of_succ_le_succ few)]
      rfl

end Lofita.Foundation
