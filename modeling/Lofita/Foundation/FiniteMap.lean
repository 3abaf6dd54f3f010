import Std.Data.TreeMap
import Mathlib.Algebra.BigOperators.Group.List.Lemmas
import Mathlib.Algebra.GroupWithZero.Nat

/-! # Totals over finite maps

The sum of a size over the values of an ordered finite map, and how inserting an
entry changes it: the new size comes in and the size of the entry it replaces,
if there is one, goes out (`total_insert`).
-/

namespace Lofita.Foundation

open Std

variable {κ β : Type*} [Ord κ]

/-- The sum of the sizes of the values. -/
def total (size : β → Nat) (map : TreeMap κ β) : Nat :=
  (map.toList.map fun entry => size entry.2).sum

/-- The size of the value at a key, nothing for an absent key. -/
def sizeAt (size : β → Nat) (map : TreeMap κ β) (key : κ) : Nat :=
  (map[key]?.map size).getD 0

theorem total_of_isEmpty (size : β → Nat) {map : TreeMap κ β} (empty : map.isEmpty = true) :
    total size map = 0 := by
  have none : map.toList = [] := by
    rw [TreeMap.isEmpty_toList.symm, List.isEmpty_iff] at empty
    exact empty
  rw [total, none, List.map_nil, List.sum_nil]

omit [Ord κ] in
/-- Among entries with distinct keys, those at one key add up to the size found
there. -/
private theorem sum_filter_key [DecidableEq κ] (size : β → Nat) (key : κ) (found : Option β) :
    ∀ {entries : List (κ × β)}, entries.Pairwise (fun first second => first.1 ≠ second.1) →
      (∀ value, (key, value) ∈ entries ↔ found = some value) →
      ((entries.filter fun entry => decide (entry.1 = key)).map fun entry => size entry.2).sum =
        (found.map size).getD 0
  | [], _, spec => by
      cases found with
      | none => rfl
      | some value => exact absurd ((spec value).mpr rfl) List.not_mem_nil
  | (other, value) :: rest, distinct, spec => by
      obtain ⟨fresh, distinct⟩ := List.pairwise_cons.mp distinct
      by_cases here : other = key
      · subst here
        cases (spec value).mp List.mem_cons_self
        have none : (rest.filter fun entry => decide (entry.1 = other)) = [] := by
          rw [List.filter_eq_nil_iff]
          intro entry member
          simpa using Ne.symm (fresh entry member)
        rw [List.filter_cons_of_pos (by simp), none]
        simp
      · rw [List.filter_cons_of_neg (by simpa using here)]
        refine sum_filter_key size key found distinct fun candidate => ?_
        rw [← spec candidate, List.mem_cons]
        have different : (key, candidate) ≠ (other, value) := by
          intro same
          exact here (congrArg Prod.fst same).symm
        simp only [different, false_or]

variable [TransOrd κ] [LawfulEqOrd κ]

/-- Inserting an entry brings in its size and takes out that of the entry it
replaces. -/
theorem total_insert [DecidableEq κ] (size : β → Nat) (map : TreeMap κ β) (key : κ) (value : β) :
    total size (map.insert key value) + sizeAt size map key = total size map + size value := by
  have replaced : ((map.toList.filter fun entry => decide (entry.1 = key)).map
      fun entry => size entry.2).sum = sizeAt size map key := by
    refine sum_filter_key size key map[key]? ?_ fun candidate =>
      TreeMap.mem_toList_iff_getElem?_eq_some
    exact TreeMap.distinct_keys_toList.imp fun different same =>
      different (compare_eq_iff_eq.mpr same)
  have kept := (TreeMap.toList_insert_perm (t := map) (k := key) (v := value)).map
    fun entry => size entry.2
  have split := List.sum_map_filter_add_sum_map_filter_not (fun entry : κ × β => entry.1 = key)
    (fun entry => size entry.2) map.toList
  have rest : (map.toList.filter fun entry => decide ¬(key == entry.1) = true) =
      map.toList.filter fun entry => decide ¬entry.1 = key := by
    apply List.filter_congr
    intro entry _
    rw [decide_eq_decide, beq_iff_eq, eq_comm]
  rw [rest] at kept
  rw [← replaced]
  unfold total
  rw [kept.sum_eq, ← split]
  simp only [List.map_cons, List.sum_cons]
  omega

end Lofita.Foundation
