import Lofita.Kernel.Wakeup

/-! # Thread states and wait queues

That a thread waits is recorded twice: in the state of the thread and in the
queue of a port. `Recorded` is the invariant of all calls that touch either
record; it implies that the two agree (`queues_agree`).
-/

namespace Lofita.Kernel

open Lofita.Foundation

/-- The calls that touch threads or wait queues. -/
inductive ThreadCall where
  | spawn (sessionId : U64) (name : String) (entryPoint : U64)
  | scheduleNext
  | ipcSend (portId : U32) (sessionId : U64) (msg : Option String)
  | ipcRecv (portId receiverThreadId : U32)
deriving DecidableEq, Repr

/-- The call starts a thread. -/
def ThreadCall.isSpawn : ThreadCall → Bool
  | .spawn _ _ _ => true
  | _ => false

namespace KernelState

/-- The state a call leaves. -/
def afterThread (state : KernelState) : ThreadCall → KernelState
  | .spawn sessionId name entryPoint =>
      { state with scheduler := (state.scheduler.spawn sessionId name entryPoint).2 }
  | .scheduleNext => { state with scheduler := state.scheduler.scheduleNext.2 }
  | .ipcSend portId sessionId msg => (state.ipcSend portId sessionId msg).state
  | .ipcRecv portId receiverThreadId => (state.ipcRecv portId receiverThreadId).state

/-- A receive is made by a thread of the scheduler that is not blocked, under its
own id. -/
def ByRunningThread (state : KernelState) : ThreadCall → Prop
  | .ipcRecv _ receiverThreadId => state.awake receiverThreadId
  | _ => True

instance decidableByRunningThread (state : KernelState) :
    ∀ call, Decidable (state.ByRunningThread call)
  | .ipcRecv _ receiverThreadId => state.decidableAwake receiverThreadId
  | .spawn _ _ _ | .scheduleNext | .ipcSend _ _ _ => .isTrue trivial

/-- The id occurs once among the threads waiting on one port and on no other port. -/
def WaitsOnce (state : KernelState) (id : U32) : Prop :=
  ∃ portId, (state.ipc.waiting portId).count id = 1 ∧
    ∀ other, other ≠ portId → id ∉ state.ipc.waiting other

/-- A thread is blocked exactly if it waits once on one port, and a send wakes only
threads that are blocked. -/
def QueuesAgree (state : KernelState) : Prop :=
  (∀ ref ∈ state.scheduler.threads,
    (state.thread ref).state = .blocked ↔ state.WaitsOnce (state.thread ref).id) ∧
  ∀ portId sessionId payload id, (state.ipc.send portId sessionId payload).1 = some id →
    ∃ ref ∈ state.scheduler.threads,
      (state.thread ref).id = id ∧ (state.thread ref).state = .blocked

/-- A blocked thread is in a queue; every id in a queue belongs to a thread; cells
and ids in use are below the next ones. -/
structure Listed (sched : Scheduler) (waiting : U32 → List U32) : Prop where
  waits : ∀ ref ∈ sched.threads, (sched.cells.read ref).state = .blocked →
    ∃ portId, (sched.cells.read ref).id ∈ waiting portId
  known : ∀ portId, ∀ id ∈ waiting portId, ∃ ref ∈ sched.threads, (sched.cells.read ref).id = id
  older : ∀ ref ∈ sched.threads, ref < sched.cells.next ∧
    (sched.cells.read ref).id.toNat < sched.nextThreadId.toNat

/-- The waiting threads sleep and wait at one place each, and both records list the
same threads. -/
structure Recorded (state : KernelState) : Prop where
  attended : ∃ woken, Watched.Attended ⟨state, woken⟩
  listed : Listed state.scheduler fun portId => state.ipc.waiting portId

end KernelState

/-- The threads and the ports under their calls. -/
def waitQueues : System KernelState ThreadCall := ⟨KernelState.afterThread⟩

/-! ### The two records agree -/

namespace KernelState

variable {state : KernelState}

/-- A thread that waits at a port waits there once, and at no other. -/
theorem Recorded.waitsOnce_iff (recorded : state.Recorded) (id : U32) :
    state.WaitsOnce id ↔ ∃ portId, id ∈ state.ipc.waiting portId := by
  obtain ⟨woken, attended⟩ := recorded.attended
  constructor
  · rintro ⟨portId, once, _⟩
    exact ⟨portId, List.count_pos_iff.mp (once ▸ Nat.zero_lt_one)⟩
  · rintro ⟨portId, member⟩
    refine ⟨portId, List.count_eq_one_of_mem (attended.nodup portId) member, ?_⟩
    intro other different there
    exact different (attended.apart other portId id there member)

theorem Recorded.queuesAgree (recorded : state.Recorded) : state.QueuesAgree := by
  obtain ⟨woken, attended⟩ := recorded.attended
  have blocked {portId id : U32} (member : id ∈ state.ipc.waiting portId) :
      ∀ ref ∈ state.scheduler.threads, (state.thread ref).id = id →
        (state.thread ref).state = .blocked := attended.sleeping portId id member
  constructor
  · intro ref queued
    rw [recorded.waitsOnce_iff]
    constructor
    · exact recorded.listed.waits ref queued
    · rintro ⟨portId, member⟩
      exact blocked member ref queued rfl
  · intro portId sessionId payload id woke
    have member : id ∈ state.ipc.waiting portId := by
      by_cases room : (state.ipc.queued portId).length < 1024
      · rw [IpcSubsystem.send_of_room room] at woke
        exact List.mem_of_mem_head? woke
      · have nobody := (IpcSubsystem.send_of_full (Nat.le_of_not_lt room) sessionId payload).1
        rw [nobody] at woke
        cases woke
    obtain ⟨ref, queued, named⟩ := recorded.listed.known portId id member
    exact ⟨ref, queued, named, blocked member ref queued named⟩

/-! ### What the calls do to the two records -/

/-- A send leaves both records alone, or takes the first waiting thread off the queue
of the port and makes it ready. -/
theorem ipcSend_cases (state : KernelState) (portId : U32) (sessionId : U64)
    (msg : Option String) :
    ((state.ipcSend portId sessionId msg).state.scheduler = state.scheduler ∧
      ∀ other, (state.ipcSend portId sessionId msg).state.ipc.waiting other =
        state.ipc.waiting other) ∨
    ∃ id rest, state.ipc.waiting portId = id :: rest ∧
      (state.ipcSend portId sessionId msg).state.scheduler =
        state.scheduler.setStateOf id .ready ∧
      ∀ other, (state.ipcSend portId sessionId msg).state.ipc.waiting other =
        if portId = other then rest else state.ipc.waiting other := by
  by_cases room : (state.ipc.queued portId).length < 1024
  · simp only [ipcSend, IpcSubsystem.send_of_room room]
    have tail (other : U32) : (state.ipc.setChannel portId (IpcSubsystem.sent
        (state.ipc.channel portId) { senderSession := sessionId, payload := msg.getD "" })).waiting
          other =
        if portId = other then (state.ipc.waiting portId).tail else state.ipc.waiting other :=
      state.ipc.waiting_setChannel portId other _
    cases queue : state.ipc.waiting portId with
    | nil =>
        have first : (state.ipc.channel portId).blockedThreads.head? = none := by
          rw [List.head?_eq_none_iff]
          exact queue
        simp only [first]
        refine Or.inl ⟨trivial, fun other => (tail other).trans ?_⟩
        split_ifs with same
        · rw [← same, queue, List.tail_nil]
        · rfl
    | cons id rest =>
        have first : (state.ipc.channel portId).blockedThreads.head? = some id := by
          change (state.ipc.waiting portId).head? = some id
          rw [queue, List.head?_cons]
        simp only [first]
        refine Or.inr ⟨id, rest, rfl, rfl, fun other => (tail other).trans ?_⟩
        rw [queue, List.tail_cons]
  · obtain ⟨nobody, same⟩ :=
      IpcSubsystem.send_of_full (Nat.le_of_not_lt room) sessionId (msg.getD "")
    simp only [ipcSend, nobody]
    exact Or.inl ⟨trivial, fun other => congrArg IpcChannel.blockedThreads (same other)⟩

/-- A receive from a port with messages leaves both records alone, and one from an empty port
puts the receiver at the end of the queue and blocks it. -/
theorem ipcRecv_cases (state : KernelState) (portId receiver : U32) :
    (state.ipc.queued portId ≠ [] ∧
      (state.ipcRecv portId receiver).state.scheduler = state.scheduler ∧
      ∀ other, (state.ipcRecv portId receiver).state.ipc.waiting other =
        state.ipc.waiting other) ∨
    (state.ipc.queued portId = [] ∧
      (state.ipcRecv portId receiver).state.scheduler =
        state.scheduler.setStateOf receiver .blocked ∧
      ∀ other, (state.ipcRecv portId receiver).state.ipc.waiting other =
        if portId = other then state.ipc.waiting portId ++ [receiver]
        else state.ipc.waiting other) := by
  cases queue : state.ipc.queued portId with
  | nil =>
      simp only [ipcRecv, IpcSubsystem.recv_of_empty queue]
      exact Or.inr ⟨trivial, trivial, fun other => state.ipc.waiting_setChannel portId other _⟩
  | cons message rest =>
      simp only [ipcRecv, IpcSubsystem.recv_of_queued queue]
      refine Or.inl ⟨List.cons_ne_nil _ _, trivial, fun other =>
        (state.ipc.waiting_setChannel portId other _).trans ?_⟩
      split_ifs with same
      · subst same
        rfl
      · rfl

end KernelState

namespace Scheduler

/-- Setting a state allocates no thread. -/
theorem next_setStateOf (sched : Scheduler) (id : U32) (state : ThreadState) :
    (sched.setStateOf id state).cells.next = sched.cells.next := by
  change (sched.threads.foldl _ sched.cells).next = _
  generalize sched.cells = cells
  induction sched.threads generalizing cells with
  | nil => rfl
  | cons thread rest ih =>
      rw [List.foldl_cons, ih]
      split_ifs
      · exact cells.next_modify thread _
      · rfl

/-- Setting a state keeps the numbers. -/
theorem id_setStateOf (sched : Scheduler) (id : U32) (state : ThreadState) (ref : Ref) :
    ((sched.setStateOf id state).cells.read ref).id = (sched.cells.read ref).id := by
  rw [read_setStateOf]
  split_ifs <;> rfl

end Scheduler

namespace KernelState

variable {sched : Scheduler} {waiting : U32 → List U32} {state : KernelState}

/-- Setting the state of a thread leaves the states of the others alone. -/
theorem state_setStateOf_of_ne {id : U32} {ref : Ref} (other : (sched.cells.read ref).id ≠ id)
    (threadState : ThreadState) :
    ((sched.setStateOf id threadState).cells.read ref).state = (sched.cells.read ref).state := by
  rw [Scheduler.read_setStateOf, if_neg fun both => other both.2]

/-- Setting states makes no thread and changes no id. -/
theorem Listed.older_setStateOf (listed : Listed sched waiting) (id : U32)
    (threadState : ThreadState) :
    ∀ ref ∈ (sched.setStateOf id threadState).threads,
      ref < (sched.setStateOf id threadState).cells.next ∧
        ((sched.setStateOf id threadState).cells.read ref).id.toNat <
          (sched.setStateOf id threadState).nextThreadId.toNat := by
  intro ref queued
  rw [Scheduler.next_setStateOf, Scheduler.id_setStateOf]
  exact listed.older ref queued

/-- The first thread of a queue leaves it and becomes ready. -/
theorem Listed.wake (listed : Listed sched waiting) {portId id : U32} {rest : List U32}
    (queue : waiting portId = id :: rest) :
    Listed (sched.setStateOf id .ready) fun other =>
      if portId = other then rest else waiting other where
  waits := by
    intro ref queued blocked
    rw [Scheduler.id_setStateOf]
    have other : (sched.cells.read ref).id ≠ id := by
      intro same
      rw [Scheduler.read_setStateOf, if_pos ⟨queued, same⟩] at blocked
      cases blocked
    rw [state_setStateOf_of_ne other] at blocked
    obtain ⟨port, member⟩ := listed.waits ref queued blocked
    refine ⟨port, ?_⟩
    split_ifs with same
    · subst same
      rw [queue] at member
      exact (List.mem_cons.mp member).resolve_left other
    · exact member
  known := by
    intro port next member
    have before : next ∈ waiting port := by
      split_ifs at member with same
      · rw [← same, queue]
        exact List.mem_cons_of_mem id member
      · exact member
    obtain ⟨ref, queued, named⟩ := listed.known port next before
    exact ⟨ref, queued, by rwa [Scheduler.id_setStateOf]⟩
  older := listed.older_setStateOf id .ready

/-- A thread of the scheduler joins a queue and is blocked. -/
theorem Listed.block (listed : Listed sched waiting) {portId receiver : U32}
    (present : ∃ ref ∈ sched.threads, (sched.cells.read ref).id = receiver) :
    Listed (sched.setStateOf receiver .blocked) fun other =>
      if portId = other then waiting portId ++ [receiver] else waiting other where
  waits := by
    intro ref queued blocked
    rw [Scheduler.id_setStateOf]
    by_cases same : (sched.cells.read ref).id = receiver
    · refine ⟨portId, ?_⟩
      rw [if_pos rfl, same]
      exact List.mem_append_right _ List.mem_cons_self
    · rw [state_setStateOf_of_ne same] at blocked
      obtain ⟨port, member⟩ := listed.waits ref queued blocked
      refine ⟨port, ?_⟩
      split_ifs with here
      · exact List.mem_append_left _ (here ▸ member)
      · exact member
  known := by
    intro port next member
    have before : next ∈ waiting port ∨ next = receiver := by
      split_ifs at member with same
      · rw [List.mem_append, List.mem_singleton, same] at member
        exact member
      · exact Or.inl member
    rcases before with member | rfl
    · obtain ⟨ref, queued, named⟩ := listed.known port next member
      exact ⟨ref, queued, by rwa [Scheduler.id_setStateOf]⟩
    · obtain ⟨ref, queued, named⟩ := present
      exact ⟨ref, queued, by rwa [Scheduler.id_setStateOf]⟩
  older := listed.older_setStateOf receiver .blocked

/-- What the queue of threads and the cells of a spawn are. -/
theorem read_spawn_of_lt {ref : Ref} (older : ref < sched.cells.next) (sessionId : U64)
    (name : String) (entryPoint : U64) :
    (sched.spawn sessionId name entryPoint).2.cells.read ref = sched.cells.read ref :=
  sched.cells.read_alloc_of_lt older _

/-- A new thread is ready and takes an id that is in no queue. -/
theorem Listed.spawn (listed : Listed sched waiting)
    (room : sched.nextThreadId.toNat + 1 < 2 ^ 32) (sessionId : U64) (name : String)
    (entryPoint : U64) : Listed (sched.spawn sessionId name entryPoint).2 waiting := by
  have next : (sched.nextThreadId + 1).toNat = sched.nextThreadId.toNat + 1 := by
    rw [BitVec.toNat_add]
    exact Nat.mod_eq_of_lt room
  have grown : sched.nextThreadId.toNat <
      (sched.spawn sessionId name entryPoint).2.nextThreadId.toNat := by
    change _ < (sched.nextThreadId + 1).toNat
    rw [next]
    exact Nat.lt_succ_self _
  have fresh : (sched.spawn sessionId name entryPoint).2.cells.read sched.cells.next =
      { id := sched.nextThreadId, sessionId, name, state := .ready,
        context := Scheduler.initialContext entryPoint } := sched.cells.read_alloc_next _
  constructor
  · intro ref queued blocked
    rcases List.mem_append.mp queued with old | new
    · rw [read_spawn_of_lt (listed.older ref old).1] at blocked ⊢
      exact listed.waits ref old blocked
    · cases List.mem_singleton.mp new
      rw [fresh] at blocked
      cases blocked
  · intro portId id member
    obtain ⟨ref, queued, named⟩ := listed.known portId id member
    refine ⟨ref, List.mem_append_left _ queued, ?_⟩
    rw [read_spawn_of_lt (listed.older ref queued).1, named]
  · intro ref queued
    rcases List.mem_append.mp queued with old | new
    · obtain ⟨older, below⟩ := listed.older ref old
      rw [read_spawn_of_lt older]
      exact ⟨Nat.lt_succ_of_lt older, below.trans grown⟩
    · cases List.mem_singleton.mp new
      rw [fresh]
      exact ⟨Nat.lt_succ_self _, grown⟩

/-- Sending wakes the thread it takes off the queue. -/
theorem Recorded.send (recorded : state.Recorded) (portId : U32) (sessionId : U64)
    (msg : Option String) : (state.ipcSend portId sessionId msg).state.Recorded := by
  obtain ⟨⟨woken, attended⟩, listed⟩ := recorded
  refine ⟨⟨_, Watched.attended_send attended portId sessionId msg⟩, ?_⟩
  rcases state.ipcSend_cases portId sessionId msg with
    ⟨sameThreads, sameQueues⟩ | ⟨id, rest, queue, threads, queues⟩
  · simp only [sameThreads, sameQueues]
    exact listed
  · simp only [threads, queues]
    exact listed.wake queue

/-- Receiving blocks the thread it puts on the queue. -/
theorem Recorded.recv (recorded : state.Recorded) {portId receiver : U32}
    (awake : state.awake receiver) : (state.ipcRecv portId receiver).state.Recorded := by
  obtain ⟨⟨woken, attended⟩, listed⟩ := recorded
  refine ⟨⟨_, Watched.attended_recv attended awake⟩, ?_⟩
  rcases state.ipcRecv_cases portId receiver with
    ⟨_, sameThreads, sameQueues⟩ | ⟨_, threads, queues⟩
  · simp only [sameThreads, sameQueues]
    exact listed
  · obtain ⟨ref, queued, named, _⟩ := awake
    simp only [threads, queues]
    exact listed.block ⟨ref, queued, named⟩

/-- Scheduling changes who runs, not who waits. -/
theorem Recorded.scheduleNext (recorded : state.Recorded) :
    Recorded { state with scheduler := state.scheduler.scheduleNext.2 } := by
  obtain ⟨⟨woken, attended⟩, listed⟩ := recorded
  have members := state.scheduler.mem_threads_scheduleNext
  have cells := state.scheduler.cells_scheduleNext
  refine ⟨⟨woken, Watched.attended_of_same attended rfl members fun ref => ?_⟩, ?_, ?_, ?_⟩
  · unfold thread
    rw [cells]
  · simp only [members, cells]
    exact listed.waits
  · simp only [members, cells]
    exact listed.known
  · simp only [members, cells, Scheduler.nextThreadId_scheduleNext]
    exact listed.older

/-- A spawn keeps the sleepers, as long as the new id is none of theirs. -/
theorem asleep_spawn (listed : Listed state.scheduler waiting) {id : U32}
    (used : id ≠ state.scheduler.nextThreadId) (asleep : state.asleep id) (sessionId : U64)
    (name : String) (entryPoint : U64) :
    KernelState.asleep
      { state with scheduler := (state.scheduler.spawn sessionId name entryPoint).2 } id := by
  intro ref queued named
  rcases List.mem_append.mp queued with old | new
  · have same := read_spawn_of_lt (listed.older ref old).1 sessionId name entryPoint
    unfold thread at named ⊢
    rw [same] at named ⊢
    exact asleep ref old named
  · cases List.mem_singleton.mp new
    unfold thread at named
    rw [Scheduler.spawn, Arena.read_alloc_next] at named
    exact absurd named.symm used

/-- A new thread waits nowhere. -/
theorem Recorded.spawn (recorded : state.Recorded)
    (room : state.scheduler.nextThreadId.toNat + 1 < 2 ^ 32) (sessionId : U64) (name : String)
    (entryPoint : U64) :
    Recorded { state with scheduler := (state.scheduler.spawn sessionId name entryPoint).2 } := by
  obtain ⟨⟨woken, attended⟩, listed⟩ := recorded
  refine ⟨⟨woken, ?_⟩, listed.spawn room sessionId name entryPoint⟩
  refine IpcSubsystem.Attended.of_sublist attended (fun _ => List.Sublist.refl _)
    (fun portId id member asleep => ?_) attended.notWoken attended.enough
  obtain ⟨ref, queued, named⟩ := listed.known portId id member
  have used : id ≠ state.scheduler.nextThreadId := by
    rintro rfl
    have below := (listed.older ref queued).2
    rw [named] at below
    exact lt_irrefl _ below
  exact asleep_spawn listed used asleep sessionId name entryPoint

/-- There is an id left for a spawn. -/
def RoomToSpawn (state : KernelState) (call : ThreadCall) : Prop :=
  call.isSpawn = true → state.scheduler.nextThreadId.toNat + 1 < 2 ^ 32

/-- **Every call keeps the invariant.** -/
theorem Recorded.afterThread (recorded : state.Recorded) {call : ThreadCall}
    (running : state.ByRunningThread call) (room : state.RoomToSpawn call) :
    (state.afterThread call).Recorded := by
  cases call with
  | spawn sessionId name entryPoint => exact recorded.spawn (room rfl) sessionId name entryPoint
  | scheduleNext => exact recorded.scheduleNext
  | ipcSend portId sessionId msg => exact recorded.send portId sessionId msg
  | ipcRecv portId receiver => exact recorded.recv running

/-- Only starting a thread uses up a number. -/
theorem nextThreadId_afterThread (state : KernelState) (call : ThreadCall) :
    (state.afterThread call).scheduler.nextThreadId =
      if call.isSpawn then state.scheduler.nextThreadId + 1 else state.scheduler.nextThreadId := by
  cases call with
  | spawn sessionId name entryPoint => rfl
  | scheduleNext => exact state.scheduler.nextThreadId_scheduleNext
  | ipcSend portId sessionId msg =>
      rcases state.ipcSend_cases portId sessionId msg with ⟨same, _⟩ | ⟨id, _, _, threads, _⟩
      · exact congrArg Scheduler.nextThreadId same
      · exact (congrArg Scheduler.nextThreadId threads).trans rfl
  | ipcRecv portId receiver =>
      rcases state.ipcRecv_cases portId receiver with ⟨_, same, _⟩ | ⟨_, threads, _⟩
      · exact congrArg Scheduler.nextThreadId same
      · exact (congrArg Scheduler.nextThreadId threads).trans rfl

/-- A run with few spawns has an id left for each of them. -/
theorem along_roomToSpawn {calls : List ThreadCall}
    (few : state.scheduler.nextThreadId.toNat + calls.countP ThreadCall.isSpawn < 2 ^ 32) :
    waitQueues.Along RoomToSpawn state calls := by
  induction calls generalizing state with
  | nil => trivial
  | cons call rest ih =>
      rw [List.countP_cons] at few
      refine ⟨fun spawns => ?_, ih ?_⟩
      · rw [if_pos spawns] at few
        omega
      · change (state.afterThread call).scheduler.nextThreadId.toNat + _ < _
        rw [nextThreadId_afterThread]
        split_ifs at few ⊢ with spawns
        · rw [BitVec.toNat_add]
          exact lt_of_le_of_lt (Nat.add_le_add_right (Nat.mod_le _ _) _) (by
            change state.scheduler.nextThreadId.toNat + 1 + _ < _
            omega)
        · exact few

theorem recorded_start (start : KernelState) :
    Recorded { start with scheduler := .new, ipc := .new } where
  attended := ⟨fun _ => ∅, IpcSubsystem.Attended.new _⟩
  listed := by
    constructor
    · exact fun ref queued => absurd queued List.not_mem_nil
    · exact fun portId id member => absurd member List.not_mem_nil
    · exact fun ref queued => absurd queued List.not_mem_nil

end KernelState

/-- **Thread states and wait queues agree.** Start without threads and with unused
ports, and let spawns, schedules, sends and receives follow in any order, with fewer
than `2 ^ 32 - 1` spawns and every receive made by a thread that is not blocked. In
every state a thread is blocked exactly if its id is once in the queue of one port, and
a send wakes only blocked threads. -/
theorem queues_agree (start : KernelState) (calls : List ThreadCall)
    (few : calls.countP ThreadCall.isSpawn < 2 ^ 32 - 1)
    (running : waitQueues.Along KernelState.ByRunningThread
      { start with scheduler := .new, ipc := .new } calls) :
    waitQueues.Always KernelState.QueuesAgree
      { start with scheduler := .new, ipc := .new } calls := by
  have room := @KernelState.along_roomToSpawn { start with scheduler := .new, ipc := .new } calls
    (by change 1 + _ < _; omega)
  refine System.always_of_invariant KernelState.Recorded ?_ ?_
    (KernelState.recorded_start start) (System.along_and.mpr ⟨running, room⟩)
  · rintro state call recorded ⟨running, room⟩
    exact recorded.afterThread running room
  · exact fun _ recorded => recorded.queuesAgree

/-- Two threads wait on two ports, and a send wakes the first. -/
theorem queues_agree_sample : waitQueues.Always KernelState.QueuesAgree
    { KernelState.boot with scheduler := .new, ipc := .new }
    [.spawn 1 "shell" 0x1000_0000, .spawn 1 "editor" 0x1000_0000, .ipcRecv 7 1, .ipcRecv 8 2,
      .scheduleNext, .ipcSend 7 1 (some "wake"), .scheduleNext] := by
  apply queues_agree
  · decide
  · decide

end Lofita.Kernel
