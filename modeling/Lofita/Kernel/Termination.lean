import Lofita.Kernel.WaitQueues

/-! # Terminated threads

A thread is referred to from the queue of the scheduler, as the active thread, and from the
queues of the ports. Termination clears the first of these only. After it the id stays away
exactly if the thread was not active and waited nowhere, and nobody takes up the id again
(`noTrace_iff_clears`).
-/

namespace Lofita.Kernel

open Lofita.Foundation

/-- The calls that touch threads or wait queues, and `terminate_thread`. -/
inductive TerminationCall where
  | thread (call : ThreadCall)
  | terminateThread (threadId : U32)
deriving DecidableEq, Repr

/-- A kernel state with the ids that have been terminated. -/
structure Terminated where
  state : KernelState
  gone : List U32

namespace Terminated

/-- The threads after a call, and those that were terminated. -/
def after (terminated : Terminated) : TerminationCall → Terminated
  | .thread call => { terminated with state := terminated.state.afterThread call }
  | .terminateThread threadId =>
      { state := { terminated.state with
          scheduler := terminated.state.scheduler.terminateThread threadId }
        gone := threadId :: terminated.gone }

/-- A terminated id is not in the thread queue, not that of the active thread, and waits on
no port. -/
structure NoTrace (terminated : Terminated) : Prop where
  queued : ∀ ref ∈ terminated.state.scheduler.threads,
    (terminated.state.thread ref).id ∉ terminated.gone
  active : ∀ ref, terminated.state.scheduler.activeThread = some ref →
    (terminated.state.thread ref).id ∉ terminated.gone
  waiting : ∀ portId, ∀ id ∈ terminated.state.ipc.waiting portId, id ∉ terminated.gone

/-- The thread that is terminated is not the active one and waits on no port; a terminated
id is not given to a new thread, and asks no empty port for a message. -/
def Clears (terminated : Terminated) : TerminationCall → Prop
  | .terminateThread threadId =>
      (∀ ref, terminated.state.scheduler.activeThread = some ref →
        (terminated.state.thread ref).id ≠ threadId) ∧
      ∀ portId, threadId ∉ terminated.state.ipc.waiting portId
  | .thread (.spawn _ _ _) => terminated.state.scheduler.nextThreadId ∉ terminated.gone
  | .thread (.ipcRecv portId receiverThreadId) =>
      receiverThreadId ∈ terminated.gone → terminated.state.ipc.queued portId ≠ []
  | .thread .scheduleNext | .thread (.ipcSend _ _ _) => True

end Terminated

/-- The threads under these calls. -/
def terminations : System Terminated TerminationCall := ⟨Terminated.after⟩

/-! ### Threads and their cells -/

namespace Scheduler

/-- The threads of the queue and the active one have cells. -/
def Allocated (sched : Scheduler) : Prop :=
  ∀ ref, ref ∈ sched.threads ∨ sched.activeThread = some ref → ref < sched.cells.next

variable {sched : Scheduler}

/-- Setting a state leaves the threads their cells. -/
theorem Allocated.setStateOf (allocated : sched.Allocated) (id : U32) (state : ThreadState) :
    (sched.setStateOf id state).Allocated := by
  intro ref held
  rw [next_setStateOf]
  exact allocated ref held

theorem id_terminateThread (sched : Scheduler) (id : U32) (ref : Ref) :
    ((sched.terminateThread id).cells.read ref).id = (sched.cells.read ref).id :=
  sched.id_setStateOf id .zombie ref

/-- Termination takes the threads with the id out of the queue. -/
theorem mem_threads_terminateThread {id : U32} {ref : Ref}
    (queued : ref ∈ (sched.terminateThread id).threads) :
    ref ∈ sched.threads ∧ (sched.cells.read ref).id ≠ id := by
  obtain ⟨member, alive⟩ := List.mem_filter.mp queued
  refine ⟨member, fun named => ?_⟩
  rw [read_setStateOf, if_pos ⟨member, named⟩] at alive
  exact absurd rfl (of_decide_eq_true alive)

/-- Termination leaves the other threads theirs. -/
theorem Allocated.terminateThread (allocated : sched.Allocated) (id : U32) :
    (sched.terminateThread id).Allocated := by
  intro ref held
  change ref < (sched.setStateOf id .zombie).cells.next
  rw [next_setStateOf]
  exact allocated ref (held.imp_left fun queued => (mem_threads_terminateThread queued).1)

/-- A new thread gets the next cell. -/
theorem Allocated.spawn (allocated : sched.Allocated) (sessionId : U64) (name : String)
    (entryPoint : U64) : (sched.spawn sessionId name entryPoint).2.Allocated := by
  rintro ref (queued | active)
  · rcases List.mem_append.mp queued with old | new
    · exact Nat.lt_succ_of_lt (allocated ref (.inl old))
    · cases List.mem_singleton.mp new
      exact Nat.lt_succ_self _
  · exact Nat.lt_succ_of_lt (allocated ref (.inr active))

/-- The active thread after scheduling comes from the queue, or was active before. -/
theorem active_scheduleNext {ref : Ref} (active : sched.scheduleNext.2.activeThread = some ref) :
    ref ∈ sched.threads ∨ sched.activeThread = some ref := by
  cases first : sched.firstReady with
  | none =>
      rw [scheduleNext_of_none first] at active
      exact .inr active
  | some thread =>
      obtain ⟨before, after, queue, _, result⟩ := scheduleNext_of_some first
      rw [result] at active
      cases active
      rw [queue]
      exact .inl (List.mem_append_right _ List.mem_cons_self)

/-- Scheduling leaves the threads their cells. -/
theorem Allocated.scheduleNext (allocated : sched.Allocated) : sched.scheduleNext.2.Allocated := by
  intro ref held
  rw [cells_scheduleNext]
  rcases held with queued | active
  · exact allocated ref (.inl ((sched.mem_threads_scheduleNext ref).mp queued))
  · exact allocated ref (active_scheduleNext active)

end Scheduler

namespace Terminated

variable {terminated : Terminated}

/-- Every call leaves the threads their cells. -/
theorem allocated_after (allocated : terminated.state.scheduler.Allocated)
    (call : TerminationCall) : (terminated.after call).state.scheduler.Allocated := by
  cases call with
  | terminateThread threadId => exact allocated.terminateThread threadId
  | thread call =>
      cases call with
      | spawn sessionId name entryPoint => exact allocated.spawn sessionId name entryPoint
      | scheduleNext => exact allocated.scheduleNext
      | ipcSend portId sessionId msg =>
          change (terminated.state.ipcSend portId sessionId msg).state.scheduler.Allocated
          rcases terminated.state.ipcSend_cases portId sessionId msg with
            ⟨same, _⟩ | ⟨id, _, _, threads, _⟩
          · rw [same]
            exact allocated
          · rw [threads]
            exact allocated.setStateOf id .ready
      | ipcRecv portId receiver =>
          change (terminated.state.ipcRecv portId receiver).state.scheduler.Allocated
          rcases terminated.state.ipcRecv_cases portId receiver with
            ⟨_, same, _⟩ | ⟨_, threads, _⟩
          · rw [same]
            exact allocated
          · rw [threads]
            exact allocated.setStateOf receiver .blocked

/-! ### What the calls leave -/

/-- Where no queue grows, no cell changes its id, and the active thread is one that was
held, no trace appears. -/
theorem NoTrace.of_held (noTrace : terminated.NoTrace) {next : KernelState}
    (ids : ∀ ref, (next.thread ref).id = (terminated.state.thread ref).id)
    (queued : ∀ ref ∈ next.scheduler.threads, ref ∈ terminated.state.scheduler.threads)
    (active : ∀ ref, next.scheduler.activeThread = some ref →
      ref ∈ terminated.state.scheduler.threads ∨
        terminated.state.scheduler.activeThread = some ref)
    (waiting : ∀ portId, ∀ id ∈ next.ipc.waiting portId,
      id ∈ terminated.state.ipc.waiting portId ∨ id ∉ terminated.gone) :
    NoTrace { terminated with state := next } where
  queued ref member := by
    rw [ids]
    exact noTrace.queued ref (queued ref member)
  active ref isActive := by
    rw [ids]
    exact (active ref isActive).elim (noTrace.queued ref) (noTrace.active ref)
  waiting portId id member :=
    (waiting portId id member).elim (noTrace.waiting portId id) fun away => away

/-- Scheduling brings no terminated thread back. -/
theorem noTrace_scheduleNext (noTrace : terminated.NoTrace) :
    (terminated.after (.thread .scheduleNext)).NoTrace := by
  refine noTrace.of_held (fun ref => ?_) (fun ref => ?_) (fun ref => ?_) fun _ _ => .inl
  · exact congrArg (fun cells : Arena Thread => (cells.read ref).id)
      terminated.state.scheduler.cells_scheduleNext
  · exact (terminated.state.scheduler.mem_threads_scheduleNext ref).mp
  · exact Scheduler.active_scheduleNext

/-- Setting the state of threads touches neither ids nor queues. -/
theorem noTrace_setStateOf (noTrace : terminated.NoTrace) {next : KernelState}
    (threads : next.scheduler = terminated.state.scheduler ∨ ∃ id threadState,
      next.scheduler = terminated.state.scheduler.setStateOf id threadState)
    (waiting : ∀ portId, ∀ id ∈ next.ipc.waiting portId,
      id ∈ terminated.state.ipc.waiting portId ∨ id ∉ terminated.gone) :
    NoTrace { terminated with state := next } := by
  rcases threads with same | ⟨id, threadState, set⟩
  · refine noTrace.of_held (fun ref => ?_) (fun ref => ?_) (fun ref => ?_) waiting
    · unfold KernelState.thread
      rw [same]
    · rw [same]
      exact fun queued => queued
    · rw [same]
      exact .inr
  · refine noTrace.of_held (fun ref => ?_) (fun ref => ?_) (fun ref => ?_) waiting
    · unfold KernelState.thread
      rw [set, Scheduler.id_setStateOf]
    · rw [set]
      exact fun queued => queued
    · rw [set]
      exact .inr

theorem noTrace_ipcSend (noTrace : terminated.NoTrace) (portId : U32) (sessionId : U64)
    (msg : Option String) :
    (terminated.after (.thread (.ipcSend portId sessionId msg))).NoTrace := by
  rcases terminated.state.ipcSend_cases portId sessionId msg with
    ⟨same, queues⟩ | ⟨id, rest, queue, threads, queues⟩
  · refine noTrace_setStateOf noTrace (.inl same) fun other id member => .inl ?_
    exact queues other ▸ member
  · refine noTrace_setStateOf noTrace (.inr ⟨_, _, threads⟩) fun other next member => .inl ?_
    have left : next ∈ if portId = other then rest else terminated.state.ipc.waiting other :=
      queues other ▸ member
    split_ifs at left with here
    · rw [← here, queue]
      exact List.mem_cons_of_mem id left
    · exact left

/-- A receive leaves no trace exactly if the receiver was not terminated or gets a message. -/
theorem noTrace_ipcRecv_iff (noTrace : terminated.NoTrace) (portId receiver : U32) :
    (terminated.after (.thread (.ipcRecv portId receiver))).NoTrace ↔
      (receiver ∈ terminated.gone → terminated.state.ipc.queued portId ≠ []) := by
  rcases terminated.state.ipcRecv_cases portId receiver with
    ⟨messages, same, queues⟩ | ⟨empty, threads, queues⟩
  · refine iff_of_true ?_ fun _ => messages
    refine noTrace_setStateOf noTrace (.inl same) fun other id member => .inl ?_
    exact queues other ▸ member
  · constructor
    · intro noTraceAfter gone
      refine absurd gone (noTraceAfter.waiting portId receiver ?_)
      change receiver ∈ (terminated.state.ipcRecv portId receiver).state.ipc.waiting portId
      rw [queues portId, if_pos rfl]
      exact List.mem_append_right _ (List.mem_singleton_self receiver)
    · intro away
      refine noTrace_setStateOf noTrace (.inr ⟨_, _, threads⟩) fun other next member => ?_
      have joined : next ∈ if portId = other then terminated.state.ipc.waiting portId ++ [receiver]
          else terminated.state.ipc.waiting other := queues other ▸ member
      split_ifs at joined with here
      · rcases List.mem_append.mp joined with old | new
        · exact .inl (here ▸ old)
        · rw [List.mem_singleton.mp new]
          exact .inr fun gone => away gone empty
      · exact .inl joined

/-- A spawn leaves no trace exactly if the new id was not terminated. -/
theorem noTrace_spawn_iff (noTrace : terminated.NoTrace)
    (allocated : terminated.state.scheduler.Allocated) (sessionId : U64) (name : String)
    (entryPoint : U64) :
    (terminated.after (.thread (.spawn sessionId name entryPoint))).NoTrace ↔
      terminated.state.scheduler.nextThreadId ∉ terminated.gone := by
  let sched := terminated.state.scheduler
  have fresh : ((sched.spawn sessionId name entryPoint).2.cells.read sched.cells.next).id =
      sched.nextThreadId := congrArg Thread.id (sched.cells.read_alloc_next _)
  have kept {ref : Ref} (held : ref ∈ sched.threads ∨ sched.activeThread = some ref) :
      ((sched.spawn sessionId name entryPoint).2.cells.read ref).id = (sched.cells.read ref).id :=
    congrArg Thread.id
      (KernelState.read_spawn_of_lt (allocated ref held) sessionId name entryPoint)
  constructor
  · intro noTraceAfter
    have away := noTraceAfter.queued sched.cells.next
      (List.mem_append_right _ (List.mem_singleton_self _))
    exact fresh ▸ away
  · intro away
    refine ⟨fun ref queued => ?_, fun ref active => ?_, noTrace.waiting⟩
    · rcases List.mem_append.mp queued with old | new
      · exact (kept (.inl old)).symm ▸ noTrace.queued ref old
      · cases List.mem_singleton.mp new
        exact fresh.symm ▸ away
    · exact (kept (.inr active)).symm ▸ noTrace.active ref active

/-- A termination leaves no trace exactly if the thread was not active and waited nowhere. -/
theorem noTrace_terminateThread_iff (noTrace : terminated.NoTrace) (threadId : U32) :
    (terminated.after (.terminateThread threadId)).NoTrace ↔
      terminated.Clears (.terminateThread threadId) := by
  have ids := terminated.state.scheduler.id_terminateThread threadId
  constructor
  · intro noTraceAfter
    constructor
    · intro ref active named
      refine noTraceAfter.active ref active ?_
      change ((terminated.state.scheduler.terminateThread threadId).cells.read ref).id ∈ _
      rw [ids]
      exact named ▸ List.mem_cons_self
    · intro portId member
      exact noTraceAfter.waiting portId threadId member List.mem_cons_self
  · rintro ⟨notActive, waitsNowhere⟩
    refine ⟨fun ref queued => ?_, fun ref active => ?_, fun portId id member => ?_⟩
    · obtain ⟨old, different⟩ := Scheduler.mem_threads_terminateThread queued
      change ((terminated.state.scheduler.terminateThread threadId).cells.read ref).id ∉ _
      rw [ids]
      exact List.not_mem_cons_of_ne_of_not_mem different (noTrace.queued ref old)
    · change ((terminated.state.scheduler.terminateThread threadId).cells.read ref).id ∉ _
      rw [ids]
      exact List.not_mem_cons_of_ne_of_not_mem (notActive ref active) (noTrace.active ref active)
    · refine List.not_mem_cons_of_ne_of_not_mem (fun named => ?_) (noTrace.waiting portId id member)
      exact waitsNowhere portId (named ▸ member)

/-- When a call leaves no trace of the terminated threads. -/
theorem noTrace_after_iff (noTrace : terminated.NoTrace)
    (allocated : terminated.state.scheduler.Allocated) (call : TerminationCall) :
    (terminated.after call).NoTrace ↔ terminated.Clears call := by
  cases call with
  | terminateThread threadId => exact noTrace_terminateThread_iff noTrace threadId
  | thread call =>
      cases call with
      | spawn sessionId name entryPoint =>
          exact noTrace_spawn_iff noTrace allocated sessionId name entryPoint
      | scheduleNext => exact iff_of_true (noTrace_scheduleNext noTrace) trivial
      | ipcSend portId sessionId msg =>
          exact iff_of_true (noTrace_ipcSend noTrace portId sessionId msg) trivial
      | ipcRecv portId receiver => exact noTrace_ipcRecv_iff noTrace portId receiver

/-- No thread, no port in use, and nothing terminated. -/
def start (state : KernelState) : Terminated where
  state := { state with scheduler := .new, ipc := .new }
  gone := []

/-- At first none has been terminated. -/
theorem noTrace_start (state : KernelState) : (start state).NoTrace where
  queued _ _ := List.not_mem_nil
  active _ _ := List.not_mem_nil
  waiting _ _ _ := List.not_mem_nil

/-- At first there is no thread. -/
theorem allocated_start (state : KernelState) : (start state).state.scheduler.Allocated := by
  rintro ref (queued | active)
  · exact absurd queued List.not_mem_nil
  · cases active

end Terminated

/-- **When termination leaves no trace.** Start without threads and with unused ports, and
let spawns, schedules, terminations, sends and receives follow in any order. In every state
no terminated id is in the thread queue, that of the active thread or waiting on a port,
exactly if no thread was terminated while it was active or waited, and no terminated id was
given to a new thread or asked an empty port for a message. -/
theorem noTrace_iff_clears (state : KernelState) (calls : List TerminationCall) :
    terminations.Always Terminated.NoTrace (.start state) calls ↔
      terminations.Along Terminated.Clears (.start state) calls := by
  have allocated : terminations.Along
      (fun terminated _ => terminated.state.scheduler.Allocated) (.start state) calls :=
    System.along_of_invariant
      (fun _ call (allocated : Scheduler.Allocated _) (_ : True) =>
        Terminated.allocated_after allocated call)
      (fun _ _ allocated _ => allocated) (Terminated.allocated_start state)
      (System.along_of_forall fun _ _ _ => trivial)
  exact System.always_iff_along
    (fun _ call noTrace allocated => Terminated.noTrace_after_iff noTrace allocated call)
    (Terminated.noTrace_start state) allocated

/-- A thread is terminated while it is active, or while it waits on port 7: it stays the
active thread, or in the queue of the port. -/
theorem not_noTrace_boot :
    ¬ terminations.Always Terminated.NoTrace (.start .boot)
        [.thread (.spawn 1 "shell" 0x1000_0000), .thread .scheduleNext, .terminateThread 1] ∧
      ¬ terminations.Always Terminated.NoTrace (.start .boot)
        [.thread (.spawn 1 "shell" 0x1000_0000), .thread (.ipcRecv 7 1), .terminateThread 1] := by
  constructor
  · rintro ⟨_, _, _, noTrace⟩
    exact noTrace.active 0 (by decide) (by decide)
  · rintro ⟨_, _, _, noTrace⟩
    exact noTrace.waiting 7 1 (by decide) (by decide)

end Lofita.Kernel
