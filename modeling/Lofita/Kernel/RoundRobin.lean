import Lofita.Kernel.Sched

/-! # Round robin

While no thread changes its state, scheduling only turns the queue. As many calls as there
are ready threads return each of them once, in the order of the queue
(`round_robin`).
-/

namespace Lofita.Kernel.Scheduler

open Lofita.Foundation

/-- What a number of calls of `schedule_next` return, and the scheduler after them. -/
def schedules : Nat → Scheduler → List (Option Ref) × Scheduler
  | 0, sched => ([], sched)
  | count + 1, sched =>
      let (result, next) := sched.scheduleNext
      let (results, last) := schedules count next
      (result :: results, last)

/-- The ready threads in the order of the queue. -/
def readyThreads (sched : Scheduler) : List Ref := sched.threads.filter sched.isReady

variable {sched : Scheduler}

/-- A ready thread behind idle ones is returned and goes to the back with them. -/
theorem scheduleNext_of_append {thread : Ref} {before after : List Ref}
    (queue : sched.threads = before ++ thread :: after)
    (idle : ∀ other ∈ before, sched.isReady other = false) (ready : sched.isReady thread = true) :
    sched.scheduleNext = (some thread, { sched with
      threads := after ++ before ++ [thread]
      activeThread := some thread }) := by
  have nonempty : ¬ sched.threads.isEmpty = true := by
    rw [queue, List.isEmpty_iff]
    exact List.append_ne_nil_of_right_ne_nil _ (List.cons_ne_nil _ _)
  have enough : before.length < sched.threads.length := by
    rw [queue, List.length_append, List.length_cons]
    omega
  have rotated := rotate_of_ready sched ready before after sched.threads.length idle enough
  rw [← queue] at rotated
  rw [scheduleNext, if_neg nonempty]
  exact rotated

/-- Scheduling turns the queue. -/
theorem exists_threads_scheduleNext (sched : Scheduler) :
    ∃ places, sched.scheduleNext.2.threads = sched.threads.rotate places := by
  cases first : sched.firstReady with
  | none => exact ⟨0, by rw [scheduleNext_of_none first, List.rotate_zero]⟩
  | some thread =>
      obtain ⟨before, after, queue, _, result⟩ := scheduleNext_of_some first
      refine ⟨(before ++ [thread]).length, ?_⟩
      rw [queue, List.append_cons, List.rotate_append_length_eq, ← List.append_assoc, result]

theorem exists_threads_schedules (count : Nat) (sched : Scheduler) :
    ∃ places, (schedules count sched).2.threads = sched.threads.rotate places := by
  induction count generalizing sched with
  | zero => exact ⟨0, (List.rotate_zero _).symm⟩
  | succ count ih =>
      obtain ⟨first, once⟩ := exists_threads_scheduleNext sched
      obtain ⟨rest, others⟩ := ih sched.scheduleNext.2
      refine ⟨first + rest, ?_⟩
      rw [← List.rotate_rotate, ← once]
      exact others

theorem cells_schedules (count : Nat) (sched : Scheduler) :
    (schedules count sched).2.cells = sched.cells := by
  induction count generalizing sched with
  | zero => rfl
  | succ count ih => exact (ih _).trans (cells_scheduleNext sched)

theorem isReady_schedules (count : Nat) (sched : Scheduler) :
    (schedules count sched).2.isReady = sched.isReady := by
  unfold isReady
  rw [cells_schedules]

/-- As many calls as there are ready threads in the front part of the queue return these, in
order: each call returns the first of them and moves the part before it to the back. -/
theorem schedules_front (sched : Scheduler) {front back : List Ref}
    (queue : sched.threads = front ++ back) :
    (schedules (front.filter sched.isReady).length sched).1 =
      (front.filter sched.isReady).map some := by
  obtain ⟨ready, isReady⟩ : ∃ ready, front.filter sched.isReady = ready := ⟨_, rfl⟩
  rw [isReady]
  induction ready generalizing sched front back with
  | nil => rfl
  | cons thread ready ih =>
      obtain ⟨before, after, split, idle, isThread, rest⟩ := List.filter_eq_cons_iff.mp isReady
      have quiet : ∀ other ∈ before, sched.isReady other = false := fun other member =>
        Bool.not_eq_true _ ▸ idle other member
      have here : sched.threads = before ++ thread :: (after ++ back) := by
        rw [queue, split, List.append_assoc, List.cons_append]
      have once := scheduleNext_of_append here quiet isThread
      simp only [List.length_cons, schedules, once, List.map_cons]
      have turned :
          after ++ back ++ before ++ [thread] = after ++ (back ++ before ++ [thread]) := by
        simp only [List.append_assoc]
      exact congrArg _ (ih _ turned rest)

/-- **Round robin.** After any number of calls of `schedule_next` the queue is a rotation of
what it was and every thread has its state. The next calls, as many as there are ready
threads, return the ready threads in the order of the queue, each as often as it was in the
queue at first. Without a ready thread nothing is returned and nothing changes. -/
theorem round_robin (sched : Scheduler) (count : Nat) :
    (∃ places, (schedules count sched).2.threads = sched.threads.rotate places) ∧
      (schedules count sched).2.cells = sched.cells ∧
      (schedules sched.readyThreads.length (schedules count sched).2).1 =
        (schedules count sched).2.readyThreads.map some ∧
      (schedules count sched).2.readyThreads.Perm sched.readyThreads ∧
      (sched.readyThreads = [] → sched.scheduleNext = (none, sched)) := by
  obtain ⟨places, turned⟩ := exists_threads_schedules count sched
  have same : (schedules count sched).2.readyThreads.Perm sched.readyThreads := by
    unfold readyThreads
    rw [isReady_schedules, turned]
    exact (List.rotate_perm _ _).filter _
  refine ⟨⟨places, turned⟩, cells_schedules count sched, ?_, same, fun idle => ?_⟩
  · rw [← same.length_eq]
    exact schedules_front _ (List.append_nil _).symm
  · refine scheduleNext_of_none (List.find?_eq_none.mpr fun thread member ready => ?_)
    have listed : thread ∈ sched.readyThreads := List.mem_filter.mpr ⟨member, ready⟩
    rw [idle] at listed
    exact List.not_mem_nil listed

end Lofita.Kernel.Scheduler
