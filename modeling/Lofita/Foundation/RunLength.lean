import Mathlib.Data.List.TakeWhile

/-! # Run-length coding

A list is cut greedily into runs, a run being a number of copies of one item; no
run is longer than a given limit. Writing the copies of the runs one after the
other gives the list back (`expand_runs`), and there are no more runs than items
(`length_runs_le`), nor more than in any other code of the list within the limit
(`length_runs_le_of_expand`).
-/

namespace Lofita.Foundation

variable {α : Type*}

/-- The copies of the runs, one run after the other. -/
def expand (runs : List (Nat × α)) : List α :=
  runs.flatMap fun run => List.replicate run.1 run.2

@[simp] theorem expand_nil : expand ([] : List (Nat × α)) = [] := rfl

@[simp] theorem expand_cons (count : Nat) (item : α) (rest : List (Nat × α)) :
    expand ((count, item) :: rest) = List.replicate count item ++ expand rest := rfl

variable [DecidableEq α]

/-- How many copies of an item a list starts with, counted up to a limit. -/
def copies (item : α) : (limit : Nat) → List α → Nat
  | limit + 1, next :: rest => if next = item then copies item limit rest + 1 else 0
  | _, _ => 0

theorem copies_le_limit (item : α) (limit : Nat) (list : List α) :
    copies item limit list ≤ limit := by
  induction limit generalizing list with
  | zero => exact Nat.le_of_eq (by cases list <;> rfl)
  | succ limit ih =>
      cases list with
      | nil => exact Nat.zero_le _
      | cons next rest =>
          unfold copies
          split_ifs
          · exact Nat.succ_le_succ (ih rest)
          · exact Nat.zero_le _

/-- A list is its leading copies of an item and what comes after them. -/
theorem replicate_copies_append (item : α) (limit : Nat) (list : List α) :
    List.replicate (copies item limit list) item ++ list.drop (copies item limit list) = list := by
  induction limit generalizing list with
  | zero => cases list <;> rfl
  | succ limit ih =>
      cases list with
      | nil => rfl
      | cons next rest =>
          unfold copies
          split_ifs with same
          · rw [List.replicate_succ, List.drop_succ_cons, List.cons_append, ih, same]
          · rfl

/-- The runs of a list, each of at most `limit + 1` copies. -/
def runs (limit : Nat) : List α → List (Nat × α)
  | [] => []
  | item :: rest =>
      (copies item limit rest + 1, item) :: runs limit (rest.drop (copies item limit rest))
termination_by list => list.length
decreasing_by
  rw [List.length_drop, List.length_cons]
  omega

/-- **Decoding the runs of a list gives the list.** -/
theorem expand_runs (limit : Nat) (list : List α) : expand (runs limit list) = list := by
  fun_induction runs limit list with
  | case1 => exact expand_nil
  | case2 item rest ih =>
      rw [expand_cons, ih, List.replicate_succ, List.cons_append, replicate_copies_append]

theorem count_of_mem_runs {limit : Nat} {list : List α} {run : Nat × α}
    (member : run ∈ runs limit list) : 1 ≤ run.1 ∧ run.1 ≤ limit + 1 := by
  fun_induction runs limit list with
  | case1 => exact absurd member List.not_mem_nil
  | case2 item rest ih =>
      rcases List.mem_cons.mp member with rfl | later
      · exact ⟨Nat.le_add_left 1 _, Nat.succ_le_succ (copies_le_limit item limit rest)⟩
      · exact ih later

theorem length_runs_le (limit : Nat) (list : List α) : (runs limit list).length ≤ list.length := by
  fun_induction runs limit list with
  | case1 => exact Nat.le_refl _
  | case2 item rest ih =>
      rw [List.length_cons, List.length_cons]
      refine Nat.succ_le_succ (ih.trans ?_)
      rw [List.length_drop]
      exact Nat.sub_le _ _

/-! ### Greedy runs are as few as possible -/

theorem le_copies_replicate (item : α) {count limit : Nat} (within : count ≤ limit)
    (rest : List α) : count ≤ copies item limit (List.replicate count item ++ rest) := by
  induction limit generalizing count with
  | zero =>
      rw [Nat.le_zero.mp within]
      exact Nat.zero_le _
  | succ limit ih =>
      cases count with
      | zero => exact Nat.zero_le _
      | succ count =>
          rw [List.replicate_succ, List.cons_append, copies, if_pos rfl]
          exact Nat.succ_le_succ (ih (Nat.le_of_succ_le_succ within))

/-- Copies of one item before a list cost at most one run more, given that taking
items off the list never costs a run. -/
theorem length_runs_replicate_append {limit count : Nat} (item : α) {rest : List α}
    (within : count ≤ limit + 1)
    (shorter : ∀ n, (runs limit (rest.drop n)).length ≤ (runs limit rest).length) :
    (runs limit (List.replicate count item ++ rest)).length ≤ (runs limit rest).length + 1 := by
  cases count with
  | zero => exact Nat.le_succ _
  | succ count =>
      have taken := le_copies_replicate item (Nat.le_of_succ_le_succ within) rest
      rw [List.replicate_succ, List.cons_append, runs, List.length_cons]
      generalize copies item limit (List.replicate count item ++ rest) = run at taken ⊢
      rw [List.drop_append, List.drop_of_length_le (by rwa [List.length_replicate]),
        List.nil_append]
      exact Nat.succ_le_succ (shorter _)

/-- Taking items off the front of a list never costs a run. -/
theorem length_runs_drop (limit : Nat) (list : List α) (n : Nat) :
    (runs limit (list.drop n)).length ≤ (runs limit list).length := by
  fun_induction runs limit list generalizing n with
  | case1 => rw [List.drop_nil, runs]
  | case2 item rest ih =>
      cases n with
      | zero => rw [List.drop_zero, runs]
      | succ n =>
          have whole := replicate_copies_append item limit rest
          have within := copies_le_limit item limit rest
          rw [List.drop_succ_cons, List.length_cons]
          generalize copies item limit rest = run at whole within ih ⊢
          by_cases past : run ≤ n
          · have later : rest.drop n = (rest.drop run).drop (n - run) := by
              rw [List.drop_drop, Nat.add_sub_cancel' past]
            rw [later]
            exact (ih (n - run)).trans (Nat.le_succ _)
          · -- what is left of the first run can still be taken as one run
            have left : rest.drop n = List.replicate (run - n) item ++ rest.drop run := by
              have split := congrArg (List.drop n) whole
              rwa [List.drop_append, List.drop_replicate, List.length_replicate,
                Nat.sub_eq_zero_of_le (Nat.le_of_not_le past), List.drop_zero, eq_comm] at split
            rw [left]
            exact length_runs_replicate_append item (by omega) ih

/-- **Greedy runs are fewest.** Any list of counts and items that expands to a
list, with no count over the limit, is at least as long as the runs of the list. -/
theorem length_runs_le_of_expand {limit : Nat} {code : List (Nat × α)}
    (within : ∀ run ∈ code, run.1 ≤ limit + 1) :
    (runs limit (expand code)).length ≤ code.length := by
  induction code with
  | nil => rw [expand_nil, runs]
  | cons run rest ih =>
      have rests := ih fun other member => within other (List.mem_cons_of_mem run member)
      rw [expand_cons, List.length_cons]
      exact (length_runs_replicate_append run.2 (within run List.mem_cons_self)
        (length_runs_drop limit (expand rest))).trans (Nat.succ_le_succ rests)

end Lofita.Foundation
