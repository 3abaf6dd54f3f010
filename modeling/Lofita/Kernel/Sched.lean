import Mathlib.Data.List.Rotate
import Lofita.Foundation.Arena
import Lofita.Foundation.Word

/-! # The thread scheduler

Round-robin scheduling (`sched.rs`). The queue and `activeThread` hold
references to thread cells, so a thread that has left the queue may still be the
active one. `Scheduler.scheduleNext` takes the first ready thread of the queue
(`scheduleNext_of_some`) and puts everything it passed at the back.
-/

namespace Lofita.Kernel

open Lofita.Foundation

/-- The states of a thread. -/
inductive ThreadState where
  | ready
  | running
  | blocked
  | zombie
deriving DecidableEq, Repr

/-- The registers a thread is started with. -/
structure RegistersContext where
  rip : U64 := 0
  rsp : U64 := 0
  rbp : U64 := 0
  rflags : U64 := 0
  rax : U64 := 0
  rdi : U64 := 0
  rsi : U64 := 0
  cs : U64 := 0
  ss : U64 := 0
deriving DecidableEq, Repr

/-- A thread of the kernel. -/
structure Thread where
  id : U32
  sessionId : U64
  name : String
  state : ThreadState
  context : RegistersContext
deriving DecidableEq, Repr

/-- A thread in another state. -/
def Thread.setState (state : ThreadState) (thread : Thread) : Thread := { thread with state }

@[simp] theorem Thread.id_setState (state : ThreadState) (thread : Thread) :
    (thread.setState state).id = thread.id := rfl

@[simp] theorem Thread.sessionId_setState (state : ThreadState) (thread : Thread) :
    (thread.setState state).sessionId = thread.sessionId := rfl

@[simp] theorem Thread.context_setState (state : ThreadState) (thread : Thread) :
    (thread.setState state).context = thread.context := rfl

@[simp] theorem Thread.state_setState (state : ThreadState) (thread : Thread) :
    (thread.setState state).state = state := rfl

/-- The threads in their queue. -/
structure Scheduler where
  cells : Arena Thread
  threads : List Ref
  nextThreadId : U32
  activeThread : Option Ref

namespace Scheduler

def new : Scheduler where
  cells := .empty { id := 0, sessionId := 0, name := "", state := .zombie, context := {} }
  threads := []
  nextThreadId := 1
  activeThread := none

/-- The context of a fresh thread: user stack and segments, interrupts on. -/
def initialContext (entryPoint : U64) : RegistersContext where
  rip := entryPoint
  rsp := 0x7FFFFFFF0000
  cs := 0x1B
  ss := 0x23
  rflags := 0x202

def spawn (sched : Scheduler) (sessionId : U64) (name : String) (entryPoint : U64) :
    U32 × Scheduler :=
  let thread : Thread := { id := sched.nextThreadId, sessionId, name, state := .ready,
                           context := initialContext entryPoint }
  (sched.nextThreadId,
    { sched with
      cells := sched.cells.alloc thread
      threads := sched.threads ++ [sched.cells.next]
      nextThreadId := sched.nextThreadId + 1 })

def isReady (sched : Scheduler) (thread : Ref) : Bool :=
  (sched.cells.read thread).state = .ready

/-- The loop of `schedule_next`: rotate the queue to the first ready thread. -/
def rotate : (rounds : Nat) → Scheduler → Option Ref × Scheduler
  | 0, sched => (none, sched)
  | rounds + 1, sched =>
      match sched.threads with
      | [] => (none, sched)
      | thread :: rest =>
          if sched.isReady thread then
            -- Marked running for the message only, and ready again at once.
            let cells := (sched.cells.modify thread (Thread.setState .running)).modify thread
              (Thread.setState .ready)
            (some thread,
              { sched with cells, threads := rest ++ [thread], activeThread := some thread })
          else rotate rounds { sched with threads := rest ++ [thread] }

def scheduleNext (sched : Scheduler) : Option Ref × Scheduler :=
  if sched.threads.isEmpty then (none, sched) else rotate sched.threads.length sched

/-- Set the state of every queued thread with a thread id. -/
def setStateOf (sched : Scheduler) (id : U32) (state : ThreadState) : Scheduler :=
  { sched with
    cells := sched.threads.foldl
      (fun cells thread =>
        if (cells.read thread).id = id then cells.modify thread (Thread.setState state) else cells)
      sched.cells }

def terminateThread (sched : Scheduler) (id : U32) : Scheduler :=
  let marked := sched.setStateOf id .zombie
  { marked with
    threads := marked.threads.filter fun thread => (marked.cells.read thread).state ≠ .zombie }

/-! ### What a schedule does -/

/-- The first ready thread of the queue. -/
def firstReady (sched : Scheduler) : Option Ref := sched.threads.find? sched.isReady

/-- A ready thread is returned, made active and put behind the threads passed on
the way to it; its cell ends as it was. -/
theorem rotate_of_ready (sched : Scheduler) {thread : Ref} (ready : sched.isReady thread = true) :
    ∀ (before after : List Ref) (rounds : Nat), (∀ other ∈ before, sched.isReady other = false) →
      before.length < rounds →
      rotate rounds { sched with threads := before ++ thread :: after } =
        (some thread, { sched with
          threads := after ++ before ++ [thread]
          activeThread := some thread })
  | [], after, rounds + 1, _, _ => by
      have state : (sched.cells.read thread).state = .ready := of_decide_eq_true ready
      have restored : (sched.cells.modify thread (Thread.setState .running)).modify thread
          (Thread.setState .ready) = sched.cells := by
        unfold Arena.modify
        simp only [Function.update_self, Function.update_idem]
        have same : Thread.setState .ready (Thread.setState .running (sched.cells.cell thread)) =
            sched.cells.cell thread := by
          change { sched.cells.cell thread with state := ThreadState.ready } = _
          rw [← state]
          rfl
        rw [same, Function.update_eq_self]
      unfold rotate
      change (if sched.isReady thread = true then _ else _) = _
      simp only [ready, restored, ↓reduceIte, List.append_nil]
  | other :: before, after, rounds + 1, idle, enough => by
      have skipped := idle other List.mem_cons_self
      unfold rotate
      change (if sched.isReady other = true then _ else _) = _
      simp only [skipped, Bool.false_eq_true, ↓reduceIte]
      have later := rotate_of_ready sched ready before (after ++ [other])
        rounds (fun next member => idle next (List.mem_cons_of_mem _ member))
        (Nat.lt_of_succ_lt_succ enough)
      have queue :
          before ++ thread :: (after ++ [other]) = before ++ thread :: after ++ [other] := by
        rw [List.append_assoc, List.cons_append]
      have passed : after ++ [other] ++ before ++ [thread] =
          after ++ (other :: before) ++ [thread] := by
        simp only [List.append_assoc, List.cons_append, List.nil_append]
      rw [queue, passed] at later
      exact later

/-- Without a ready thread the loop only rotates the queue. -/
theorem rotate_of_idle (sched : Scheduler) :
    ∀ {rounds : Nat} {queue : List Ref}, (∀ thread ∈ queue, sched.isReady thread = false) →
      rotate rounds { sched with threads := queue } =
        (none, { sched with threads := queue.rotate rounds })
  | 0, queue, _ => by rw [rotate, List.rotate_zero]
  | rounds + 1, [], _ => by
      unfold rotate
      rw [List.rotate_nil]
  | rounds + 1, thread :: rest, idle => by
      unfold rotate
      change (if sched.isReady thread = true then _ else _) = _
      simp only [idle thread List.mem_cons_self, Bool.false_eq_true, ↓reduceIte]
      rw [List.rotate_cons_succ]
      apply rotate_of_idle
      intro other member
      rcases List.mem_append.mp member with later | last
      · exact idle other (List.mem_cons_of_mem _ later)
      · exact List.mem_singleton.mp last ▸ idle thread List.mem_cons_self

/-- Without a ready thread `schedule_next` leaves the scheduler as it is. -/
theorem scheduleNext_of_none {sched : Scheduler} (none_ready : sched.firstReady = none) :
    sched.scheduleNext = (none, sched) := by
  have idle : ∀ thread ∈ sched.threads, sched.isReady thread = false := by
    intro thread member
    simpa using List.find?_eq_none.mp none_ready thread member
  unfold scheduleNext
  split
  · rfl
  · exact (rotate_of_idle sched idle).trans (by rw [List.rotate_length])

/-- Otherwise it returns the first ready thread and rotates the queue past it. -/
theorem scheduleNext_of_some {sched : Scheduler} {thread : Ref}
    (first : sched.firstReady = some thread) :
    ∃ before after, sched.threads = before ++ thread :: after ∧
      (∀ other ∈ before, sched.isReady other = false) ∧
      sched.scheduleNext = (some thread, { sched with
        threads := after ++ before ++ [thread]
        activeThread := some thread }) := by
  obtain ⟨ready, before, after, queue, idle⟩ := List.find?_eq_some_iff_append.mp first
  have quiet : ∀ other ∈ before, sched.isReady other = false := by
    intro other member
    simpa using idle other member
  refine ⟨before, after, queue, quiet, ?_⟩
  unfold scheduleNext
  rw [if_neg (by simp [queue])]
  have rotated := rotate_of_ready sched ready before after sched.threads.length
    quiet (by simp [queue])
  rw [← queue] at rotated
  exact rotated

/-- Scheduling changes the queue and the active thread only. -/
theorem exists_scheduleNext_eq (sched : Scheduler) : ∃ threads activeThread,
    sched.scheduleNext = (sched.firstReady, { sched with threads, activeThread }) := by
  cases first : sched.firstReady with
  | none => exact ⟨sched.threads, sched.activeThread, scheduleNext_of_none first⟩
  | some thread =>
      obtain ⟨before, after, _, _, result⟩ := scheduleNext_of_some first
      exact ⟨after ++ before ++ [thread], some thread, result⟩

@[simp] theorem cells_scheduleNext (sched : Scheduler) :
    sched.scheduleNext.2.cells = sched.cells := by
  obtain ⟨_, _, result⟩ := exists_scheduleNext_eq sched
  rw [result]

@[simp] theorem nextThreadId_scheduleNext (sched : Scheduler) :
    sched.scheduleNext.2.nextThreadId = sched.nextThreadId := by
  obtain ⟨_, _, result⟩ := exists_scheduleNext_eq sched
  rw [result]

@[simp] theorem scheduleNext_fst (sched : Scheduler) :
    sched.scheduleNext.1 = sched.firstReady := by
  obtain ⟨_, _, result⟩ := exists_scheduleNext_eq sched
  rw [result]

/-- Scheduling keeps the threads in the queue. -/
theorem mem_threads_scheduleNext (sched : Scheduler) (thread : Ref) :
    thread ∈ sched.scheduleNext.2.threads ↔ thread ∈ sched.threads := by
  cases first : sched.firstReady with
  | none => rw [scheduleNext_of_none first]
  | some next =>
      obtain ⟨before, after, queue, _, result⟩ := scheduleNext_of_some first
      rw [result, queue]
      simp only [List.mem_append, List.mem_cons, List.not_mem_nil, or_false]
      tauto

/-- Setting states reaches exactly the queued threads with the id. -/
theorem read_setStateOf (sched : Scheduler) (id : U32) (state : ThreadState) (ref : Ref) :
    (sched.setStateOf id state).cells.read ref =
      if ref ∈ sched.threads ∧ (sched.cells.read ref).id = id then
        (sched.cells.read ref).setState state
      else sched.cells.read ref := by
  change (sched.threads.foldl _ sched.cells).read ref = _
  generalize sched.cells = cells
  induction sched.threads generalizing cells with
  | nil => rw [List.foldl_nil, if_neg fun both => List.not_mem_nil both.1]
  | cons thread rest ih =>
      rw [List.foldl_cons, ih]
      by_cases here : ref = thread
      · subst here
        by_cases named : (cells.read ref).id = id
        · have again : ((cells.read ref).setState state).setState state =
              (cells.read ref).setState state := rfl
          simp only [named, ↓reduceIte, Arena.read_modify_self, Thread.id_setState, again,
            and_true, ite_self, List.mem_cons_self]
        · simp only [named, ↓reduceIte, and_false]
      · have other : (if (cells.read thread).id = id then
            cells.modify thread (Thread.setState state) else cells).read ref = cells.read ref := by
          split_ifs
          · exact cells.read_modify_of_ne here _
          · rfl
        rw [other]
        simp only [List.mem_cons, here, false_or]

end Scheduler

end Lofita.Kernel
