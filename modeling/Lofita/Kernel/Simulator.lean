import Lofita.Kernel.RoundRobin
import Lofita.Kernel.WaitQueues

/-! # The simulator of threads and ports

`Scheduler` and `IpcSubsystem` of `run_simulation.py` keep the threads in the queue itself and
give numbers no width and ports no bound. They answer every call as `sched.rs` and `ipc.rs` do,
as long as the thread ids last and no message is sent to a port that is full in the kernel
(`answers_alike`).
-/

namespace Lofita.Kernel

open Lofita.Foundation

/-- A thread of the simulator. -/
structure SimThread where
  id : Nat
  sessionId : Nat
  name : String
  rip : Nat
  rsp : Nat
  state : ThreadState
deriving DecidableEq, Repr

/-- A message of the simulator. -/
structure SimMessage where
  senderSession : Nat
  payload : String
deriving DecidableEq, Repr

/-- A port of the simulator. -/
structure SimChannel where
  messages : List SimMessage
  blockedThreads : List Nat
deriving DecidableEq, Repr

/-- The threads and ports of the simulator; a port that was not used yet has an empty
channel. -/
structure Simulator where
  threads : List SimThread
  nextThreadId : Nat
  channels : Nat → SimChannel

namespace Simulator

/-- No threads, and no ports yet. -/
def init : Simulator where
  threads := []
  nextThreadId := 1
  channels _ := { messages := [], blockedThreads := [] }

def spawn (sessionId : Nat) (name : String) (rip : Nat) (self : Simulator) : Nat × Simulator :=
  (self.nextThreadId,
    { self with
      nextThreadId := self.nextThreadId + 1
      threads := self.threads ++
        [{ id := self.nextThreadId, sessionId, name, rip, rsp := 0x7FFFFFFF0000,
           state := .ready }] })

/-- The loop of `schedule_next`. -/
def rotate : (rounds : Nat) → List SimThread → Option SimThread × List SimThread
  | 0, threads => (none, threads)
  | _ + 1, [] => (none, [])
  | rounds + 1, thread :: rest =>
      if thread.state = .ready then
        let thread := { { thread with state := .running } with state := .ready }
        (some thread, rest ++ [thread])
      else rotate rounds (rest ++ [thread])

def scheduleNext (self : Simulator) : Option SimThread × Simulator :=
  if self.threads.isEmpty then (none, self)
  else
    let (thread, threads) := rotate self.threads.length self.threads
    (thread, { self with threads })

/-- A port gets a new channel. -/
def setChannel (portId : Nat) (channel : SimChannel) (self : Simulator) : Simulator :=
  { self with channels := Function.update self.channels portId channel }

/-- The loop of `send`, which stops at the thread that it wakes. -/
def wake (id : Nat) : List SimThread → Option (List SimThread)
  | [] => none
  | thread :: rest =>
      if thread.id = id then some ({ thread with state := .ready } :: rest)
      else (thread :: ·) <$> wake id rest

def send (portId senderSession : Nat) (payload : String) (self : Simulator) :
    Option Nat × Simulator :=
  let channel := self.channels portId
  let messages := channel.messages ++ [{ senderSession, payload }]
  match channel.blockedThreads with
  | [] => (none, self.setChannel portId { channel with messages })
  | id :: blockedThreads =>
      let self := self.setChannel portId { messages, blockedThreads }
      match wake id self.threads with
      | some threads => (some id, { self with threads })
      | none => (none, self)

def recv (portId threadId : Nat) (self : Simulator) : Option SimMessage × Simulator :=
  let channel := self.channels portId
  match channel.messages with
  | message :: messages => (some message, self.setChannel portId { channel with messages })
  | [] =>
      let self := self.setChannel portId
        { channel with blockedThreads := channel.blockedThreads ++ [threadId] }
      (none, { self with
        threads := self.threads.map fun thread =>
          if thread.id = threadId then { thread with state := .blocked } else thread })

end Simulator

/-! ### The same calls on both -/

/-- A kernel thread as the simulator has it. -/
def SimThread.of (thread : Thread) : SimThread where
  id := thread.id.toNat
  sessionId := thread.sessionId.toNat
  name := thread.name
  rip := thread.context.rip.toNat
  rsp := thread.context.rsp.toNat
  state := thread.state

/-- A kernel message as the simulator has it. -/
def SimMessage.of (message : IpcMessage) : SimMessage where
  senderSession := message.senderSession.toNat
  payload := message.payload

/-- A kernel channel as the simulator has it. -/
def SimChannel.of (channel : IpcChannel) : SimChannel where
  messages := channel.messages.map .of
  blockedThreads := channel.blockedThreads.map BitVec.toNat

/-- What a call answers. -/
inductive ThreadAnswer where
  | spawned (id : Nat)
  | scheduled (thread : Option SimThread)
  | woken (id : Option Nat)
  | received (message : Option SimMessage)
deriving DecidableEq, Repr

/-- What the kernel answers. -/
def KernelState.answer (state : KernelState) : ThreadCall → ThreadAnswer
  | .spawn sessionId name entryPoint =>
      .spawned (state.scheduler.spawn sessionId name entryPoint).1.toNat
  | .scheduleNext =>
      .scheduled (state.scheduler.scheduleNext.1.map fun ref => .of (state.thread ref))
  | .ipcSend portId sessionId msg =>
      .woken ((state.ipc.send portId sessionId (msg.getD "")).1.map BitVec.toNat)
  | .ipcRecv portId receiver => .received ((state.ipc.recv portId receiver).1.map .of)

/-- What the simulator answers, and the simulator after the call. -/
def Simulator.serve (self : Simulator) : ThreadCall → ThreadAnswer × Simulator
  | .spawn sessionId name entryPoint =>
      let (id, self) := self.spawn sessionId.toNat name entryPoint.toNat
      (.spawned id, self)
  | .scheduleNext =>
      let (thread, self) := self.scheduleNext
      (.scheduled thread, self)
  | .ipcSend portId sessionId msg =>
      let (id, self) := self.send portId.toNat sessionId.toNat (msg.getD "")
      (.woken id, self)
  | .ipcRecv portId receiver =>
      let (message, self) := self.recv portId.toNat receiver.toNat
      (.received message, self)

/-- The kernel and the simulator. -/
structure Twins where
  kernel : KernelState
  simulator : Simulator

/-- Each call is made to both. -/
def twins : System Twins ThreadCall where
  step twins call :=
    { kernel := twins.kernel.afterThread call, simulator := (twins.simulator.serve call).2 }

/-- Both answer the call alike. -/
def AnswersAlike (twins : Twins) (call : ThreadCall) : Prop :=
  twins.kernel.answer call = (twins.simulator.serve call).1

/-- A message is sent to a port with room, and received under the id of a thread. -/
def Simulated (twins : Twins) : ThreadCall → Prop
  | .ipcSend portId _ _ => (twins.kernel.ipc.queued portId).length < 1024
  | .ipcRecv _ receiver =>
      ∃ ref ∈ twins.kernel.scheduler.threads, (twins.kernel.thread ref).id = receiver
  | _ => True

instance decidableSimulated (twins : Twins) : ∀ call, Decidable (Simulated twins call)
  | .ipcSend portId _ _ =>
      inferInstanceAs (Decidable ((twins.kernel.ipc.queued portId).length < 1024))
  | .ipcRecv _ _ => inferInstanceAs (Decidable (∃ ref ∈ twins.kernel.scheduler.threads, _))
  | .spawn _ _ _ | .scheduleNext => .isTrue trivial

/-- The threads of a queue, as the simulator has them. -/
def simThreads (sched : Scheduler) (queue : List Ref) : List SimThread :=
  queue.map fun ref => .of (sched.cells.read ref)

/-- The simulator has the threads and channels of the kernel. -/
structure Mirrors (simulator : Simulator) (sched : Scheduler) (ipc : IpcSubsystem) : Prop where
  threads : simulator.threads = simThreads sched sched.threads
  nextThreadId : simulator.nextThreadId = sched.nextThreadId.toNat
  channels : ∀ portId : U32, simulator.channels portId.toNat = .of (ipc.channel portId)

/-- The threads have different ids below the next one, and only threads wait. -/
structure WellNumbered (sched : Scheduler) (ipc : IpcSubsystem) : Prop where
  distinct : (sched.threads.map fun ref => (sched.cells.read ref).id).Nodup
  older : ∀ ref ∈ sched.threads, ref < sched.cells.next ∧
    (sched.cells.read ref).id.toNat < sched.nextThreadId.toNat
  known : ∀ portId, ∀ id ∈ ipc.waiting portId, ∃ ref ∈ sched.threads, (sched.cells.read ref).id = id

variable {simulator : Simulator} {sched : Scheduler} {ipc : IpcSubsystem}

/-! ### Schedules -/

namespace Simulator

/-- The queue is rotated up to and past the first ready thread. -/
theorem rotate_of_ready {thread : SimThread} (ready : thread.state = .ready) :
    ∀ (before after : List SimThread) (rounds : Nat), (∀ other ∈ before, other.state ≠ .ready) →
      before.length < rounds →
      rotate rounds (before ++ thread :: after) = (some thread, after ++ before ++ [thread])
  | [], after, rounds + 1, _, _ => by
      have same : { thread with state := .ready } = thread := by
        rw [← ready]
      simp only [List.nil_append, rotate, ready, ↓reduceIte, same, List.append_nil]
  | other :: before, after, rounds + 1, idle, enough => by
      have later := rotate_of_ready ready before (after ++ [other]) rounds
        (fun next member => idle next (List.mem_cons_of_mem other member))
        (Nat.lt_of_succ_lt_succ enough)
      have queue : before ++ thread :: after ++ [other] =
          before ++ thread :: (after ++ [other]) := by
        rw [List.append_assoc, List.cons_append]
      have passed : after ++ [other] ++ before ++ [thread] =
          after ++ (other :: before) ++ [thread] := by
        simp only [List.append_assoc, List.cons_append, List.nil_append]
      rw [List.cons_append, rotate, if_neg (idle other List.mem_cons_self), queue, later, passed]

/-- Without a ready thread the rounds rotate the queue and find none. -/
theorem rotate_of_idle {threads : List SimThread} (rounds : Nat)
    (idle : ∀ thread ∈ threads, thread.state ≠ .ready) :
    rotate rounds threads = (none, threads.rotate rounds) := by
  induction rounds generalizing threads with
  | zero => rw [rotate, List.rotate_zero]
  | succ rounds ih =>
      cases threads with
      | nil => rw [rotate, List.rotate_nil]
      | cons thread rest =>
          rw [rotate, if_neg (idle thread List.mem_cons_self), List.rotate_cons_succ]
          refine ih fun other member => ?_
          rcases List.mem_append.mp member with later | last
          · exact idle other (List.mem_cons_of_mem thread later)
          · exact List.mem_singleton.mp last ▸ idle thread List.mem_cons_self

end Simulator

/-- A queue without a ready thread has none in the simulator. -/
theorem simThreads_idle {queue : List Ref}
    (idle : ∀ ref ∈ queue, sched.isReady ref = false) :
    ∀ thread ∈ simThreads sched queue, thread.state ≠ .ready := by
  intro thread member
  obtain ⟨ref, queued, rfl⟩ := List.mem_map.mp member
  exact of_decide_eq_false (idle ref queued)

/-- A schedule of the simulator is one of the kernel. -/
theorem scheduleNext_mirrors (threads : simulator.threads = simThreads sched sched.threads) :
    simulator.scheduleNext =
      (sched.scheduleNext.1.map fun ref => SimThread.of (sched.cells.read ref),
        { simulator with threads := simThreads sched sched.scheduleNext.2.threads }) := by
  cases first : sched.firstReady with
  | none =>
      have idle : ∀ ref ∈ sched.threads, sched.isReady ref = false := by
        intro ref queued
        simpa using List.find?_eq_none.mp first ref queued
      rw [Scheduler.scheduleNext_of_none first]
      unfold Simulator.scheduleNext
      split_ifs with empty
      · rw [← threads]
        rfl
      · rw [threads, Simulator.rotate_of_idle _ (simThreads_idle idle), List.rotate_length]
        rfl
  | some thread =>
      obtain ⟨before, after, queue, idle, result⟩ := Scheduler.scheduleNext_of_some first
      have ready : (sched.cells.read thread).state = .ready :=
        of_decide_eq_true (List.find?_eq_some_iff_append.mp first).1
      have split : simThreads sched sched.threads = simThreads sched before ++
          SimThread.of (sched.cells.read thread) :: simThreads sched after := by
        rw [queue]
        exact List.map_append
      have rotated := Simulator.rotate_of_ready
        (show (SimThread.of (sched.cells.read thread)).state = .ready from ready)
        (simThreads sched before) (simThreads sched after) (simThreads sched sched.threads).length
        (simThreads_idle idle) (by simp [simThreads, queue])
      have some : ¬ (simThreads sched sched.threads).isEmpty = true := by
        rw [split]
        simp
      rw [← split] at rotated
      rw [result]
      unfold Simulator.scheduleNext
      simp only [threads, if_neg some, rotated, Option.map_some]
      simp only [simThreads, List.map_append, List.map_cons, List.map_nil]

/-! ### States of threads -/

/-- Setting the state of the threads with an id. -/
def setSimState (id : Nat) (state : ThreadState) (threads : List SimThread) : List SimThread :=
  threads.map fun thread => if thread.id = id then { thread with state } else thread

/-- The state of a thread is set alike on both sides. -/
theorem setSimState_mirrors (sched : Scheduler) (id : U32) (state : ThreadState) :
    setSimState id.toNat state (simThreads sched sched.threads) =
      simThreads (sched.setStateOf id state) sched.threads := by
  unfold setSimState simThreads
  rw [List.map_map]
  refine List.map_congr_left fun ref queued => ?_
  have sameId : (SimThread.of (sched.cells.read ref)).id = id.toNat ↔
      (sched.cells.read ref).id = id := BitVec.toNat_inj
  simp only [Function.comp_apply, Scheduler.read_setStateOf, sameId, queued, true_and]
  split_ifs <;> rfl

/-- Setting a state goes through the queue thread by thread. -/
theorem setSimState_cons (id : Nat) (state : ThreadState) (thread : SimThread)
    (rest : List SimThread) : setSimState id state (thread :: rest) =
      (if thread.id = id then { thread with state } else thread) :: setSimState id state rest :=
  rfl

/-- Without the id nothing is set. -/
theorem setSimState_of_notMem {id : Nat} (state : ThreadState) {threads : List SimThread}
    (absent : id ∉ threads.map SimThread.id) : setSimState id state threads = threads := by
  unfold setSimState
  refine (List.map_congr_left fun thread member => if_neg fun same => ?_).trans
    (List.map_id threads)
  exact absent (List.mem_map.mpr ⟨thread, member, same⟩)

/-- The loop of `send` sets the state of the only thread with the id. -/
theorem wake_eq_some {id : Nat} {threads : List SimThread}
    (distinct : (threads.map SimThread.id).Nodup) (present : ∃ thread ∈ threads, thread.id = id) :
    Simulator.wake id threads = some (setSimState id .ready threads) := by
  induction threads with
  | nil =>
      obtain ⟨thread, member, _⟩ := present
      cases member
  | cons thread rest ih =>
      rw [List.map_cons, List.nodup_cons] at distinct
      rw [setSimState_cons]
      unfold Simulator.wake
      split_ifs with here
      · rw [setSimState_of_notMem .ready (here ▸ distinct.1)]
      · have later : ∃ other ∈ rest, other.id = id := by
          obtain ⟨other, member, named⟩ := present
          rcases List.mem_cons.mp member with rfl | later
          · exact absurd named here
          · exact ⟨other, later, named⟩
        rw [ih distinct.2 later]
        rfl

/-! ### One call -/

/-- The same channel is set in both. -/
theorem setChannel_mirrors
    (channels : ∀ portId : U32, simulator.channels portId.toNat = .of (ipc.channel portId))
    (portId : U32) (channel : IpcChannel) (other : U32) :
    (simulator.setChannel portId.toNat (.of channel)).channels other.toNat =
      .of ((ipc.setChannel portId channel).channel other) := by
  rw [IpcSubsystem.channel_setChannel]
  change Function.update _ _ _ _ = _
  by_cases same : portId = other
  · rw [if_pos same, same, Function.update_self]
  · rw [if_neg same, Function.update_of_ne (fun alike => same (BitVec.eq_of_toNat_eq alike.symm)),
      channels]

namespace Simulator

variable {portId : Nat} {self : Simulator}

/-- A send to a port where nobody waits. -/
theorem send_of_alone (alone : (self.channels portId).blockedThreads = []) (senderSession : Nat)
    (payload : String) :
    self.send portId senderSession payload = (none, self.setChannel portId
      { messages := (self.channels portId).messages ++ [{ senderSession, payload }]
        blockedThreads := [] }) := by
  unfold send
  simp only [alone]

/-- A send to a port where a thread waits wakes the thread. -/
theorem send_of_waiting {id : Nat} {rest : List Nat}
    (waiting : (self.channels portId).blockedThreads = id :: rest)
    (distinct : (self.threads.map SimThread.id).Nodup)
    (present : ∃ thread ∈ self.threads, thread.id = id) (senderSession : Nat) (payload : String) :
    self.send portId senderSession payload = (some id,
      { self.setChannel portId
          { messages := (self.channels portId).messages ++ [{ senderSession, payload }]
            blockedThreads := rest } with
        threads := setSimState id .ready self.threads }) := by
  have woken := wake_eq_some distinct present
  unfold send
  simp only [waiting, setChannel, woken]

end Simulator

/-- The ids of the simulator's threads are those of the kernel's. -/
theorem Mirrors.distinct (mirrors : Mirrors simulator sched ipc)
    (numbered : WellNumbered sched ipc) :
    (simulator.threads.map SimThread.id).Nodup := by
  have ids : simulator.threads.map SimThread.id =
      (sched.threads.map fun ref => (sched.cells.read ref).id).map BitVec.toNat := by
    rw [mirrors.threads, simThreads, List.map_map, List.map_map]
    rfl
  rw [ids]
  exact numbered.distinct.map fun _ _ same => BitVec.eq_of_toNat_eq same

/-- A thread that waits is one of the simulator's threads. -/
theorem Mirrors.present (mirrors : Mirrors simulator sched ipc) (numbered : WellNumbered sched ipc)
    {portId id : U32} (waits : id ∈ ipc.waiting portId) :
    ∃ thread ∈ simulator.threads, thread.id = id.toNat := by
  obtain ⟨ref, queued, named⟩ := numbered.known portId id waits
  refine ⟨.of (sched.cells.read ref), ?_, congrArg BitVec.toNat named⟩
  rw [mirrors.threads]
  exact List.mem_map_of_mem queued

/-- A sent message arrives alike on both sides. -/
theorem of_sent (channel : IpcChannel) (senderSession : U64) (payload : String) :
    SimChannel.of (IpcSubsystem.sent channel { senderSession, payload }) =
      { messages := (SimChannel.of channel).messages ++
          [{ senderSession := senderSession.toNat, payload }]
        blockedThreads := (SimChannel.of channel).blockedThreads.tail } := by
  simp only [SimChannel.of, IpcSubsystem.sent, List.map_append, List.map_cons, List.map_nil,
    List.map_tail]
  rfl

/-- A send to a port with room. -/
theorem Mirrors.send (mirrors : Mirrors simulator sched ipc) (numbered : WellNumbered sched ipc)
    {portId : U32} (room : (ipc.queued portId).length < 1024) (sessionId : U64)
    (payload : String) :
    ∃ after, simulator.send portId.toNat sessionId.toNat payload =
        ((ipc.send portId sessionId payload).1.map BitVec.toNat, after) ∧
      Mirrors after
        ((ipc.send portId sessionId payload).1.elim sched fun id => sched.setStateOf id .ready)
        (ipc.send portId sessionId payload).2 := by
  have channel := mirrors.channels portId
  rw [IpcSubsystem.send_of_room room]
  have channels := setChannel_mirrors mirrors.channels portId
    (IpcSubsystem.sent (ipc.channel portId) { senderSession := sessionId, payload })
  rw [of_sent, ← channel] at channels
  cases queue : (ipc.channel portId).blockedThreads with
  | nil =>
      have alone : (simulator.channels portId.toNat).blockedThreads = [] := by
        rw [channel, SimChannel.of, queue]
        rfl
      rw [alone] at channels
      exact ⟨_, Simulator.send_of_alone alone _ payload, mirrors.threads, mirrors.nextThreadId,
        channels⟩
  | cons id rest =>
      have waiting : (simulator.channels portId.toNat).blockedThreads =
          id.toNat :: rest.map BitVec.toNat := by
        rw [channel, SimChannel.of, queue]
        rfl
      have waits : id ∈ ipc.waiting portId := by
        change id ∈ (ipc.channel portId).blockedThreads
        rw [queue]
        exact List.mem_cons_self
      rw [waiting] at channels
      refine ⟨_, Simulator.send_of_waiting waiting (mirrors.distinct numbered)
        (mirrors.present numbered waits) _ payload, ?_, mirrors.nextThreadId, channels⟩
      simp only [mirrors.threads, setSimState_mirrors]
      rfl

/-- A receive. -/
theorem Mirrors.recv (mirrors : Mirrors simulator sched ipc) (portId receiver : U32) :
    ∃ after, simulator.recv portId.toNat receiver.toNat =
        ((ipc.recv portId receiver).1.map .of, after) ∧
      Mirrors after
        ((ipc.recv portId receiver).1.elim (sched.setStateOf receiver .blocked) fun _ => sched)
        (ipc.recv portId receiver).2 := by
  have channel := mirrors.channels portId
  unfold Simulator.recv
  cases queue : ipc.queued portId with
  | nil =>
      have empty : (simulator.channels portId.toNat).messages = [] := by
        rw [channel, SimChannel.of, show (ipc.channel portId).messages = [] from queue]
        rfl
      have channels := setChannel_mirrors mirrors.channels portId { ipc.channel portId with
        blockedThreads := (ipc.channel portId).blockedThreads ++ [receiver] }
      have blocked : SimChannel.of { ipc.channel portId with
            blockedThreads := (ipc.channel portId).blockedThreads ++ [receiver] } =
          { simulator.channels portId.toNat with
            blockedThreads :=
              (simulator.channels portId.toNat).blockedThreads ++ [receiver.toNat] } := by
        rw [channel]
        simp only [SimChannel.of, List.map_append, List.map_cons, List.map_nil]
      rw [blocked] at channels
      rw [IpcSubsystem.recv_of_empty queue]
      simp only [empty]
      refine ⟨_, rfl, ?_, mirrors.nextThreadId, ?_⟩
      · exact (congrArg (setSimState receiver.toNat .blocked) mirrors.threads).trans
          (setSimState_mirrors sched receiver .blocked)
      · simpa only [empty] using channels
  | cons message rest =>
      have some : (simulator.channels portId.toNat).messages =
          SimMessage.of message :: rest.map .of := by
        rw [channel, SimChannel.of, show (ipc.channel portId).messages = message :: rest from queue]
        rfl
      have channels := setChannel_mirrors mirrors.channels portId
        { ipc.channel portId with messages := rest }
      have taken : SimChannel.of { ipc.channel portId with messages := rest } =
          { simulator.channels portId.toNat with messages := rest.map .of } := by
        rw [channel]
        rfl
      rw [taken] at channels
      rw [IpcSubsystem.recv_of_queued queue]
      simp only [some]
      exact ⟨_, rfl, mirrors.threads, mirrors.nextThreadId, channels⟩

/-- A spawn that takes an id below the largest. -/
theorem Mirrors.spawn (mirrors : Mirrors simulator sched ipc) (numbered : WellNumbered sched ipc)
    (room : sched.nextThreadId.toNat + 1 < 2 ^ 32) (sessionId : U64) (name : String)
    (entryPoint : U64) :
    (simulator.spawn sessionId.toNat name entryPoint.toNat).1 =
        (sched.spawn sessionId name entryPoint).1.toNat ∧
      Mirrors (simulator.spawn sessionId.toNat name entryPoint.toNat).2
        (sched.spawn sessionId name entryPoint).2 ipc := by
  refine ⟨mirrors.nextThreadId, ?_, ?_, mirrors.channels⟩
  · have others : simThreads (sched.spawn sessionId name entryPoint).2 sched.threads =
        simThreads sched sched.threads := by
      refine List.map_congr_left fun ref queued => ?_
      rw [KernelState.read_spawn_of_lt (numbered.older ref queued).1]
    have fresh : (sched.spawn sessionId name entryPoint).2.cells.read sched.cells.next =
        { id := sched.nextThreadId, sessionId, name, state := .ready,
          context := Scheduler.initialContext entryPoint } := sched.cells.read_alloc_next _
    change simulator.threads ++ _ = List.map _ (sched.threads ++ [sched.cells.next])
    rw [List.map_append, ← simThreads, others, ← mirrors.threads, List.map_singleton, fresh,
      mirrors.nextThreadId]
    rfl
  · change simulator.nextThreadId + 1 = (sched.nextThreadId + 1).toNat
    rw [mirrors.nextThreadId, BitVec.toNat_add]
    exact (Nat.mod_eq_of_lt room).symm

/-! ### Ids -/

/-- Ids stay as they are when states are set. -/
theorem WellNumbered.setStateOf (numbered : WellNumbered sched ipc) (id : U32)
    (state : ThreadState) : WellNumbered (sched.setStateOf id state) ipc where
  distinct := by
    simp only [Scheduler.id_setStateOf]
    exact numbered.distinct
  older := by
    intro ref queued
    rw [Scheduler.next_setStateOf, Scheduler.id_setStateOf]
    exact numbered.older ref queued
  known := by
    intro portId waits member
    obtain ⟨ref, queued, named⟩ := numbered.known portId waits member
    exact ⟨ref, queued, by rwa [Scheduler.id_setStateOf]⟩

/-- The numbering stays if only known threads wait. -/
theorem WellNumbered.waits (numbered : WellNumbered sched ipc) {after : IpcSubsystem}
    (known : ∀ portId, ∀ id ∈ after.waiting portId,
      id ∈ ipc.waiting portId ∨ ∃ ref ∈ sched.threads, (sched.cells.read ref).id = id) :
    WellNumbered sched after :=
  ⟨numbered.distinct, numbered.older, fun portId id member =>
    (known portId id member).elim (numbered.known portId id) fun found => found⟩

theorem WellNumbered.scheduleNext (numbered : WellNumbered sched ipc) :
    WellNumbered sched.scheduleNext.2 ipc := by
  have members := sched.mem_threads_scheduleNext
  obtain ⟨places, turned⟩ := sched.exists_threads_scheduleNext
  refine ⟨?_, ?_, ?_⟩
  · rw [sched.cells_scheduleNext, turned, List.map_rotate, List.nodup_rotate]
    exact numbered.distinct
  · simp only [members, Scheduler.cells_scheduleNext, Scheduler.nextThreadId_scheduleNext]
    exact numbered.older
  · simp only [members, Scheduler.cells_scheduleNext]
    exact numbered.known

/-- A new thread has a new number, while there are any. -/
theorem WellNumbered.spawn (numbered : WellNumbered sched ipc)
    (room : sched.nextThreadId.toNat + 1 < 2 ^ 32) (sessionId : U64) (name : String)
    (entryPoint : U64) : WellNumbered (sched.spawn sessionId name entryPoint).2 ipc := by
  have next : (sched.nextThreadId + 1).toNat = sched.nextThreadId.toNat + 1 := by
    rw [BitVec.toNat_add]
    exact Nat.mod_eq_of_lt room
  have old {ref : Ref} (queued : ref ∈ sched.threads) :
      (sched.spawn sessionId name entryPoint).2.cells.read ref = sched.cells.read ref :=
    KernelState.read_spawn_of_lt (numbered.older ref queued).1 sessionId name entryPoint
  have fresh : ((sched.spawn sessionId name entryPoint).2.cells.read sched.cells.next).id =
      sched.nextThreadId := congrArg Thread.id (sched.cells.read_alloc_next _)
  have ids : (sched.threads.map fun ref =>
      ((sched.spawn sessionId name entryPoint).2.cells.read ref).id) =
      sched.threads.map fun ref => (sched.cells.read ref).id :=
    List.map_congr_left fun ref queued => congrArg Thread.id (old queued)
  refine ⟨?_, fun ref queued => ?_, fun portId id member => ?_⟩
  · change (List.map _ (sched.threads ++ [sched.cells.next])).Nodup
    rw [List.map_append, ids, List.map_singleton, fresh, ← List.concat_eq_append,
      List.nodup_concat]
    refine ⟨fun member => ?_, numbered.distinct⟩
    obtain ⟨ref, queued, same⟩ := List.mem_map.mp member
    exact absurd (congrArg BitVec.toNat same) (Nat.ne_of_lt (numbered.older ref queued).2)
  · change ref < sched.cells.next + 1 ∧ _ < (sched.nextThreadId + 1).toNat
    rw [next]
    rcases List.mem_append.mp queued with before | last
    · obtain ⟨older, below⟩ := numbered.older ref before
      rw [old before]
      exact ⟨Nat.lt_succ_of_lt older, Nat.lt_succ_of_lt below⟩
    · rw [List.mem_singleton.mp last, fresh]
      exact ⟨Nat.lt_succ_self _, Nat.lt_succ_self _⟩
  · obtain ⟨ref, queued, named⟩ := numbered.known portId id member
    exact ⟨ref, List.mem_append_left _ queued, by rw [old queued, named]⟩

theorem WellNumbered.send {state : KernelState} (numbered : WellNumbered state.scheduler state.ipc)
    (portId : U32) (sessionId : U64) (msg : Option String) :
    WellNumbered (state.ipcSend portId sessionId msg).state.scheduler
      (state.ipcSend portId sessionId msg).state.ipc := by
  rcases state.ipcSend_cases portId sessionId msg with
    ⟨threads, queues⟩ | ⟨id, rest, queue, threads, queues⟩
  · rw [threads]
    exact numbered.waits fun port waits member => .inl (queues port ▸ member)
  · rw [threads]
    refine (numbered.setStateOf id .ready).waits fun port waits member => .inl ?_
    rw [queues] at member
    split_ifs at member with same
    · rw [← same, queue]
      exact List.mem_cons_of_mem id member
    · exact member

/-- A receiver with a number may wait. -/
theorem WellNumbered.recv {state : KernelState} (numbered : WellNumbered state.scheduler state.ipc)
    (portId : U32) {receiver : U32}
    (present : ∃ ref ∈ state.scheduler.threads, (state.thread ref).id = receiver) :
    WellNumbered (state.ipcRecv portId receiver).state.scheduler
      (state.ipcRecv portId receiver).state.ipc := by
  rcases state.ipcRecv_cases portId receiver with
    ⟨_, threads, queues⟩ | ⟨_, threads, queues⟩
  · rw [threads]
    exact numbered.waits fun port waits member => .inl (queues port ▸ member)
  · rw [threads]
    refine (numbered.setStateOf receiver .blocked).waits fun port waits member => ?_
    rw [queues] at member
    split_ifs at member with same
    · rcases List.mem_append.mp member with before | last
      · exact .inl (same ▸ before)
      · obtain ⟨ref, queued, named⟩ := present
        refine .inr ⟨ref, queued, ?_⟩
        rw [Scheduler.id_setStateOf, List.mem_singleton.mp last]
        exact named
    · exact .inl member

/-! ### Runs -/

/-- The simulator mirrors the kernel, whose threads are numbered. -/
structure AlikeSoFar (twins : Twins) : Prop where
  mirrors : Mirrors twins.simulator twins.kernel.scheduler twins.kernel.ipc
  numbered : WellNumbered twins.kernel.scheduler twins.kernel.ipc

/-- The kernel's send, as one update. -/
theorem ipcSend_state (state : KernelState) (portId : U32) (sessionId : U64) (msg : Option String) :
    (state.ipcSend portId sessionId msg).state =
      { state with
        ipc := (state.ipc.send portId sessionId (msg.getD "")).2
        scheduler := (state.ipc.send portId sessionId (msg.getD "")).1.elim state.scheduler
          fun id => state.scheduler.setStateOf id .ready } := by
  unfold KernelState.ipcSend
  rcases state.ipc.send portId sessionId (msg.getD "") with ⟨_ | id, ipc⟩ <;> rfl

/-- The kernel's receive, as one update. -/
theorem ipcRecv_state (state : KernelState) (portId receiver : U32) :
    (state.ipcRecv portId receiver).state =
      { state with
        ipc := (state.ipc.recv portId receiver).2
        scheduler := (state.ipc.recv portId receiver).1.elim
          (state.scheduler.setStateOf receiver .blocked) fun _ => state.scheduler } := by
  unfold KernelState.ipcRecv
  rcases state.ipc.recv portId receiver with ⟨_ | message, ipc⟩ <;> rfl

/-- One call to both: they answer alike, and stay alike. -/
theorem AlikeSoFar.step {twins : Twins} (alike : AlikeSoFar twins) {call : ThreadCall}
    (simulated : Simulated twins call) (room : twins.kernel.RoomToSpawn call) :
    AnswersAlike twins call ∧ AlikeSoFar (Kernel.twins.step twins call) := by
  obtain ⟨kernel, simulator⟩ := twins
  obtain ⟨mirrors, numbered⟩ := alike
  cases call with
  | spawn sessionId name entryPoint =>
      obtain ⟨answer, spawned⟩ := mirrors.spawn numbered (room rfl) sessionId name entryPoint
      exact ⟨congrArg ThreadAnswer.spawned answer.symm, spawned,
        numbered.spawn (room rfl) sessionId name entryPoint⟩
  | scheduleNext =>
      have scheduled := scheduleNext_mirrors mirrors.threads
      have served : simulator.serve .scheduleNext =
          (.scheduled simulator.scheduleNext.1, simulator.scheduleNext.2) := rfl
      rw [scheduled] at served
      refine ⟨(congrArg Prod.fst served).symm, ?_, numbered.scheduleNext⟩
      change Mirrors (simulator.serve .scheduleNext).2 kernel.scheduler.scheduleNext.2 kernel.ipc
      rw [served]
      refine ⟨?_, ?_, mirrors.channels⟩
      · simp only [simThreads, Scheduler.cells_scheduleNext]
      · rw [Scheduler.nextThreadId_scheduleNext]
        exact mirrors.nextThreadId
  | ipcSend portId sessionId msg =>
      obtain ⟨after, sent, next⟩ := mirrors.send numbered simulated sessionId (msg.getD "")
      have served : simulator.serve (.ipcSend portId sessionId msg) =
          (.woken (simulator.send portId.toNat sessionId.toNat (msg.getD "")).1,
            (simulator.send portId.toNat sessionId.toNat (msg.getD "")).2) := rfl
      rw [sent] at served
      refine ⟨(congrArg Prod.fst served).symm, ?_, ?_⟩
      · change Mirrors (simulator.serve (.ipcSend portId sessionId msg)).2
          (kernel.ipcSend portId sessionId msg).state.scheduler
          (kernel.ipcSend portId sessionId msg).state.ipc
        rw [served, ipcSend_state]
        exact next
      · exact numbered.send portId sessionId msg
  | ipcRecv portId receiver =>
      obtain ⟨after, received, next⟩ := mirrors.recv portId receiver
      have served : simulator.serve (.ipcRecv portId receiver) =
          (.received (simulator.recv portId.toNat receiver.toNat).1,
            (simulator.recv portId.toNat receiver.toNat).2) := rfl
      rw [received] at served
      refine ⟨(congrArg Prod.fst served).symm, ?_, ?_⟩
      · change Mirrors (simulator.serve (.ipcRecv portId receiver)).2
          (kernel.ipcRecv portId receiver).state.scheduler
          (kernel.ipcRecv portId receiver).state.ipc
        rw [served, ipcRecv_state]
        exact next
      · exact numbered.recv portId simulated

theorem alikeSoFar_start (start : KernelState) :
    AlikeSoFar ⟨{ start with scheduler := .new, ipc := .new }, .init⟩ where
  mirrors := ⟨rfl, rfl, fun _ => rfl⟩
  numbered := by
    refine ⟨List.nodup_nil, fun ref queued => absurd queued List.not_mem_nil, ?_⟩
    exact fun portId id member => absurd member List.not_mem_nil

/-- **The simulator answers like the kernel.** Start without threads and with unused ports, and
let spawns, schedules, sends and receives follow in any order, with fewer than `2 ^ 32 - 1`
spawns, every message sent to a port with room and every receive made under the id of a
thread. Every call gets the same answer from the kernel and from the simulator. -/
theorem answers_alike (start : KernelState) (calls : List ThreadCall)
    (few : calls.countP ThreadCall.isSpawn < 2 ^ 32 - 1)
    (simulated : twins.Along Simulated
      ⟨{ start with scheduler := .new, ipc := .new }, .init⟩ calls) :
    twins.Along AnswersAlike ⟨{ start with scheduler := .new, ipc := .new }, .init⟩ calls := by
  have room : twins.Along (fun twins call => twins.kernel.RoomToSpawn call)
      ⟨{ start with scheduler := .new, ipc := .new }, .init⟩ calls :=
    (System.along_part Twins.kernel fun _ _ => rfl).mpr
      (KernelState.along_roomToSpawn (by change 1 + _ < _; omega))
  refine System.along_of_invariant ?_ ?_ (alikeSoFar_start start)
    (System.along_and.mpr ⟨simulated, room⟩)
  · exact fun _ _ alike guarded => (alike.step guarded.1 guarded.2).2
  · exact fun _ _ alike guarded => (alike.step guarded.1 guarded.2).1

/-- Two threads, one of which waits for a message and is woken by it. -/
theorem answers_alike_sample :
    twins.Along AnswersAlike ⟨{ KernelState.boot with scheduler := .new, ipc := .new }, .init⟩
      [.spawn 1 "shell" 0x1000_0000, .spawn 1 "editor" 0x1000_0000, .ipcRecv 7 1, .scheduleNext,
        .ipcSend 7 1 (some "wake"), .scheduleNext, .ipcRecv 7 1] := by
  apply answers_alike
  · decide
  · decide

end Lofita.Kernel
