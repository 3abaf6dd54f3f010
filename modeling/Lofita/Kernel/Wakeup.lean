import Mathlib.Data.Finset.Card
import Lofita.Kernel.Calls
import Lofita.Kernel.Ports

/-! # Wake-ups

A send to a port wakes the thread that waits longest, but does not hand it the
message: the woken thread has to ask again, and any other receiver may take the
message before. No wake-up is lost all the same (`no_lost_wakeup`): while a
thread waits on a port, the port has no more messages than threads that were
woken on it and have not asked since.
-/

namespace Lofita.Kernel

open Lofita.Foundation

namespace KernelState

/-- Every thread of the scheduler with this id is blocked. -/
def asleep (state : KernelState) (id : U32) : Prop :=
  ∀ ref ∈ state.scheduler.threads, (state.thread ref).id = id → (state.thread ref).state = .blocked

/-- The scheduler has a thread with this id that is not blocked. -/
def awake (state : KernelState) (id : U32) : Prop :=
  ∃ ref ∈ state.scheduler.threads, (state.thread ref).id = id ∧ (state.thread ref).state ≠ .blocked

instance decidableAwake (state : KernelState) (id : U32) : Decidable (state.awake id) :=
  inferInstanceAs (Decidable (∃ ref ∈ state.scheduler.threads, _))

theorem not_asleep_of_awake {state : KernelState} {id : U32} (awake : state.awake id) :
    ¬ state.asleep id := by
  obtain ⟨ref, member, named, running⟩ := awake
  exact fun asleep => running (asleep ref member named)

end KernelState

/-- A kernel state and, for each port, the threads woken on it that have not
asked it for a message since. -/
structure Watched where
  state : KernelState
  woken : U32 → Finset U32

namespace Watched

def after (watched : Watched) (call : KernelCall) : Watched where
  state := watched.state.after call
  woken :=
    match call with
    | .ipcSend portId sessionId msg =>
        match (watched.state.ipc.send portId sessionId (msg.getD "")).1 with
        | some id => Function.update watched.woken portId (insert id (watched.woken portId))
        | none => watched.woken
    | .ipcRecv portId receiverThreadId =>
        Function.update watched.woken portId ((watched.woken portId).erase receiverThreadId)
    | _ => watched.woken

/-- A receive is made by a thread of the scheduler that is not blocked, under its
own id; no thread is made. -/
def ByLiveThread (watched : Watched) : KernelCall → Prop
  | .ipcRecv _ receiverThreadId => watched.state.awake receiverThreadId
  | .runProcess _ _ => False
  | _ => True

instance decidableByLiveThread (watched : Watched) :
    ∀ call, Decidable (watched.ByLiveThread call)
  | .ipcRecv _ receiverThreadId => watched.state.decidableAwake receiverThreadId
  | .runProcess _ _ => .isFalse id
  | .createChildToken _ | .kernelTick _ | .ipcSend _ _ _ | .memAlloc _ _ _ _
  | .allocateMemory _ _ _ _ _ | .handlePageFault _ _ _ | .cleanup _ => .isTrue trivial

/-- While a thread waits on a port, the port has no more messages than woken
threads. -/
def NoLostWakeup (watched : Watched) : Prop :=
  ∀ portId, (watched.state.ipc.channel portId).blockedThreads ≠ [] →
    (watched.state.ipc.channel portId).messages.length ≤ (watched.woken portId).card

end Watched

def watchedKernel : System Watched KernelCall := ⟨Watched.after⟩

/-! ### The invariant -/

namespace IpcSubsystem

/-- The threads that wait on a port. -/
def waiting (portId : U32) (ipc : IpcSubsystem) : List U32 := (ipc.channel portId).blockedThreads

theorem waiting_setChannel (ipc : IpcSubsystem) (portId other : U32) (channel : IpcChannel) :
    (ipc.setChannel portId channel).waiting other =
      if portId = other then channel.blockedThreads else ipc.waiting other := by
  unfold waiting
  rw [channel_setChannel]
  split_ifs <;> rfl

/-- The waiting threads sleep, each at one place of one port and none of them
woken there; a port somebody waits on has a woken thread for each message. -/
structure Attended (ipc : IpcSubsystem) (asleep : U32 → Prop) (woken : U32 → Finset U32) :
    Prop where
  sleeping : ∀ portId, ∀ id ∈ ipc.waiting portId, asleep id
  nodup : ∀ portId, (ipc.waiting portId).Nodup
  apart : ∀ first second, ∀ id ∈ ipc.waiting first, id ∈ ipc.waiting second → first = second
  notWoken : ∀ portId, ∀ id ∈ ipc.waiting portId, id ∉ woken portId
  enough : ∀ portId, ipc.waiting portId ≠ [] →
    (ipc.queued portId).length ≤ (woken portId).card

variable {ipc : IpcSubsystem} {asleep asleep' : U32 → Prop} {woken : U32 → Finset U32}

/-- Nobody waits at unused ports. -/
theorem Attended.new (asleep : U32 → Prop) : IpcSubsystem.new.Attended asleep fun _ => ∅ := by
  have nobody (portId id : U32) : id ∉ IpcSubsystem.new.waiting portId := List.not_mem_nil
  constructor
  · exact fun portId id member => absurd member (nobody portId id)
  · exact fun portId => List.nodup_nil
  · exact fun first _ id member => absurd member (nobody first id)
  · exact fun portId id member => absurd member (nobody portId id)
  · exact fun portId somebody => absurd rfl somebody

/-- Where nobody starts to wait, only what is woken and what is queued has to be
looked at. -/
theorem Attended.of_sublist (attended : ipc.Attended asleep woken) {ipc' : IpcSubsystem}
    {woken' : U32 → Finset U32}
    (waits : ∀ portId, (ipc'.waiting portId).Sublist (ipc.waiting portId))
    (kept : ∀ portId, ∀ id ∈ ipc'.waiting portId, asleep id → asleep' id)
    (notWoken : ∀ portId, ∀ id ∈ ipc'.waiting portId, id ∉ woken' portId)
    (enough : ∀ portId, ipc'.waiting portId ≠ [] →
      (ipc'.queued portId).length ≤ (woken' portId).card) : ipc'.Attended asleep' woken' where
  sleeping portId id member :=
    kept portId id member (attended.sleeping portId id ((waits portId).subset member))
  nodup portId := (attended.nodup portId).sublist (waits portId)
  apart first second id here there :=
    attended.apart first second id ((waits first).subset here) ((waits second).subset there)
  notWoken := notWoken
  enough := enough

/-- The invariant reads only the channels. -/
theorem Attended.congr (attended : ipc.Attended asleep woken) {ipc' : IpcSubsystem}
    (same : ∀ portId, ipc'.channel portId = ipc.channel portId)
    (kept : ∀ id, asleep id → asleep' id) : ipc'.Attended asleep' woken := by
  have waiting (portId : U32) : ipc'.waiting portId = ipc.waiting portId :=
    congrArg IpcChannel.blockedThreads (same portId)
  have queued (portId : U32) : ipc'.queued portId = ipc.queued portId :=
    congrArg IpcChannel.messages (same portId)
  refine attended.of_sublist (fun portId => ?_) (fun _ id _ => kept id) ?_ ?_
  · rw [waiting]
  · intro portId id member
    exact attended.notWoken portId id (waiting portId ▸ member)
  · intro portId somebody
    rw [queued]
    exact attended.enough portId (waiting portId ▸ somebody)

/-- A send that finds nobody waiting. -/
theorem Attended.send_unheard (attended : ipc.Attended asleep woken) {portId : U32}
    {message : IpcMessage} (nobody : ipc.waiting portId = []) :
    (ipc.setChannel portId (sent (ipc.channel portId) message)).Attended asleep woken := by
  have waiting (other : U32) :
      (ipc.setChannel portId (sent (ipc.channel portId) message)).waiting other =
        ipc.waiting other := by
    rw [waiting_setChannel]
    split_ifs with same
    · subst same
      change (ipc.waiting portId).tail = ipc.waiting portId
      rw [nobody]
      rfl
    · rfl
  refine attended.of_sublist (fun other => ?_) (fun _ _ _ => id) ?_ ?_
  · rw [waiting]
  · simpa only [waiting] using attended.notWoken
  · intro other somebody
    rw [waiting] at somebody
    have elsewhere : portId ≠ other := by
      rintro rfl
      exact somebody nobody
    rw [queued_setChannel, if_neg elsewhere]
    exact attended.enough other somebody

/-- A send that wakes the first waiting thread. -/
theorem Attended.send_heard (attended : ipc.Attended asleep woken) {portId id : U32}
    {message : IpcMessage} {rest : List U32} (queue : ipc.waiting portId = id :: rest)
    (kept : ∀ other, other ≠ id → asleep other → asleep' other) :
    (ipc.setChannel portId (sent (ipc.channel portId) message)).Attended asleep'
      (Function.update woken portId (insert id (woken portId))) := by
  have first : id ∈ ipc.waiting portId := queue ▸ List.mem_cons_self
  have waiting (other : U32) :
      (ipc.setChannel portId (sent (ipc.channel portId) message)).waiting other =
        if portId = other then rest else ipc.waiting other := by
    rw [waiting_setChannel]
    change (if portId = other then (ipc.waiting portId).tail else _) = _
    rw [queue, List.tail_cons]
  have unique : id ∉ rest := by
    have nodup := attended.nodup portId
    rw [queue] at nodup
    exact (List.nodup_cons.mp nodup).1
  have waits (other : U32) : ((ipc.setChannel portId
      (sent (ipc.channel portId) message)).waiting other).Sublist (ipc.waiting other) := by
    rw [waiting]
    split_ifs with same
    · subst same
      rw [queue]
      exact List.sublist_cons_self id rest
    · exact List.Sublist.refl _
  have different {other next : U32} (member : next ∈ (ipc.setChannel portId
      (sent (ipc.channel portId) message)).waiting other) : next ≠ id := by
    rintro rfl
    rw [waiting] at member
    split_ifs at member with same
    · exact unique member
    · exact same (attended.apart portId other next first member)
  refine attended.of_sublist waits (fun _ next member => kept next (different member)) ?_ ?_
  · intro other next member
    have before := attended.notWoken other next ((waits other).subset member)
    by_cases same : other = portId
    · subst same
      rw [Function.update_self, Finset.mem_insert]
      exact not_or.mpr ⟨different member, before⟩
    · rwa [Function.update_of_ne same]
  · intro other somebody
    rw [waiting] at somebody
    rw [queued_setChannel]
    by_cases same : portId = other
    · subst same
      have enough := attended.enough portId (by rw [queue]; exact List.cons_ne_nil id rest)
      rw [if_pos rfl, Function.update_self,
        Finset.card_insert_of_notMem (attended.notWoken portId id first)]
      change (ipc.queued portId ++ [message]).length ≤ _
      rw [List.length_append, List.length_singleton]
      exact Nat.succ_le_succ enough
    · rw [if_neg same] at somebody
      rw [if_neg same, Function.update_of_ne (Ne.symm same)]
      exact attended.enough other somebody

/-- A receive that takes a message. -/
theorem Attended.recv_queued (attended : ipc.Attended asleep woken) {portId : U32}
    {message : IpcMessage} {rest : List IpcMessage} (queue : ipc.queued portId = message :: rest)
    (receiver : U32) :
    (ipc.setChannel portId { ipc.channel portId with messages := rest }).Attended asleep
      (Function.update woken portId ((woken portId).erase receiver)) := by
  have waiting (other : U32) :
      (ipc.setChannel portId { ipc.channel portId with messages := rest }).waiting other =
        ipc.waiting other := by
    rw [waiting_setChannel]
    split_ifs with same
    · subst same
      rfl
    · rfl
  refine attended.of_sublist (fun other => ?_) (fun _ _ _ => id) ?_ ?_
  · rw [waiting]
  · intro other id member
    rw [waiting] at member
    have before := attended.notWoken other id member
    by_cases same : other = portId
    · subst same
      rw [Function.update_self]
      exact fun still => before (Finset.mem_of_mem_erase still)
    · rwa [Function.update_of_ne same]
  · intro other somebody
    rw [waiting] at somebody
    have enough := attended.enough other somebody
    rw [queued_setChannel]
    by_cases same : portId = other
    · subst same
      rw [if_pos rfl, Function.update_self]
      rw [queue, List.length_cons] at enough
      have erased := (woken portId).pred_card_le_card_erase (a := receiver)
      change rest.length ≤ _
      omega
    · rw [if_neg same, Function.update_of_ne (Ne.symm same)]
      exact enough

/-- A receive that has to wait. -/
theorem Attended.recv_empty (attended : ipc.Attended asleep woken) {portId receiver : U32}
    (empty : ipc.queued portId = []) (waking : ¬ asleep receiver)
    (kept : ∀ id, asleep id → asleep' id) (blocked : asleep' receiver) :
    (ipc.setChannel portId { ipc.channel portId with
      blockedThreads := (ipc.channel portId).blockedThreads ++ [receiver] }).Attended asleep'
      (Function.update woken portId ((woken portId).erase receiver)) := by
  have absent (other : U32) : receiver ∉ ipc.waiting other :=
    fun member => waking (attended.sleeping other receiver member)
  have waiting (other : U32) :
      (ipc.setChannel portId { ipc.channel portId with
        blockedThreads := (ipc.channel portId).blockedThreads ++ [receiver] }).waiting other =
        if portId = other then ipc.waiting portId ++ [receiver] else ipc.waiting other :=
    ipc.waiting_setChannel portId other _
  have mem {other id : U32} (member : id ∈ (ipc.setChannel portId { ipc.channel portId with
      blockedThreads := (ipc.channel portId).blockedThreads ++ [receiver] }).waiting other) :
      id ∈ ipc.waiting other ∨ (id = receiver ∧ other = portId) := by
    rw [waiting] at member
    split_ifs at member with same
    · subst same
      rcases List.mem_append.mp member with old | new
      · exact .inl old
      · exact .inr ⟨List.mem_singleton.mp new, rfl⟩
    · exact .inl member
  constructor
  · intro other id member
    rcases mem member with old | ⟨rfl, _⟩
    · exact kept id (attended.sleeping other id old)
    · exact blocked
  · intro other
    rw [waiting]
    split_ifs with same
    · refine List.nodup_append.mpr ⟨attended.nodup portId, List.nodup_singleton receiver, ?_⟩
      rintro id old new last rfl
      exact absent portId (List.mem_singleton.mp last ▸ old)
    · exact attended.nodup other
  · intro one another id here there
    rcases mem here with old | ⟨rfl, rfl⟩
    · rcases mem there with before | ⟨rfl, rfl⟩
      · exact attended.apart one another id old before
      · exact absurd old (absent one)
    · rcases mem there with before | ⟨_, rfl⟩
      · exact absurd before (absent another)
      · rfl
  · intro other id member
    by_cases same : other = portId
    · subst same
      rw [Function.update_self, Finset.mem_erase]
      rcases mem member with old | ⟨rfl, _⟩
      · exact fun still => attended.notWoken other id old still.2
      · exact fun still => still.1 rfl
    · rw [Function.update_of_ne same]
      rcases mem member with old | ⟨_, rfl⟩
      · exact attended.notWoken other id old
      · exact absurd rfl same
  · intro other somebody
    rw [waiting] at somebody
    rw [queued_setChannel]
    by_cases same : portId = other
    · subst same
      rw [if_pos rfl]
      change (ipc.queued portId).length ≤ _
      rw [empty]
      exact Nat.zero_le _
    · rw [if_neg same] at somebody
      rw [if_neg same, Function.update_of_ne (Ne.symm same)]
      exact attended.enough other somebody

end IpcSubsystem

/-! ### Sleeping threads -/

namespace KernelState

/-- Calls that keep the threads and their queue keep the sleepers. -/
theorem asleep_of_sameThreads {before after : KernelState}
    (queue : ∀ ref, ref ∈ after.scheduler.threads ↔ ref ∈ before.scheduler.threads)
    (cells : ∀ ref, after.thread ref = before.thread ref) {id : U32} (asleep : before.asleep id) :
    after.asleep id := by
  intro ref member named
  rw [cells] at named ⊢
  exact asleep ref ((queue ref).mp member) named

theorem thread_setStateOf (state : KernelState) (ipc : IpcSubsystem) (id : U32)
    (threadState : ThreadState) (ref : Ref) :
    KernelState.thread { state with
        ipc, scheduler := state.scheduler.setStateOf id threadState } ref =
      if ref ∈ state.scheduler.threads ∧ (state.thread ref).id = id then
        (state.thread ref).setState threadState
      else state.thread ref :=
  state.scheduler.read_setStateOf id threadState ref

/-- Waking one thread leaves every other thread asleep. -/
theorem asleep_wake {state : KernelState} {ipc : IpcSubsystem} {woken id : U32}
    (other : id ≠ woken) (asleep : state.asleep id) :
    KernelState.asleep { state with
      ipc, scheduler := state.scheduler.setStateOf woken .ready } id := by
  intro ref member named
  rw [thread_setStateOf] at named ⊢
  split_ifs at named ⊢ with reached
  · exact absurd (named.symm.trans reached.2) other
  · exact asleep ref member named

/-- Blocking a thread keeps the others asleep and puts it to sleep. -/
theorem asleep_block (state : KernelState) (ipc : IpcSubsystem) {receiver id : U32}
    (asleep : id = receiver ∨ state.asleep id) :
    KernelState.asleep { state with
      ipc, scheduler := state.scheduler.setStateOf receiver .blocked } id := by
  intro ref member named
  rw [thread_setStateOf] at named ⊢
  split_ifs at named ⊢ with reached
  · rfl
  · rcases asleep with rfl | asleep
    · exact absurd ⟨member, named⟩ reached
    · exact asleep ref member named

end KernelState

namespace Watched

open IpcSubsystem

/-- The invariant of a watched kernel. -/
def Attended (watched : Watched) : Prop :=
  watched.state.ipc.Attended watched.state.asleep watched.woken

theorem attended_send {watched : Watched} (attended : watched.Attended) (portId : U32)
    (sessionId : U64) (msg : Option String) :
    (watched.after (.ipcSend portId sessionId msg)).Attended := by
  change IpcSubsystem.Attended (watched.state.ipcSend portId sessionId msg).state.ipc
    (watched.state.ipcSend portId sessionId msg).state.asleep _
  by_cases room : (watched.state.ipc.queued portId).length < 1024
  · simp only [after, KernelState.ipcSend, send_of_room room]
    cases queue : watched.state.ipc.waiting portId with
    | nil =>
        have first : (watched.state.ipc.channel portId).blockedThreads.head? = none := by
          rw [List.head?_eq_none_iff]
          exact queue
        simp only [first]
        exact Attended.send_unheard attended queue
    | cons id rest =>
        have first : (watched.state.ipc.channel portId).blockedThreads.head? = some id := by
          change (watched.state.ipc.waiting portId).head? = some id
          rw [queue, List.head?_cons]
        simp only [first]
        exact Attended.send_heard attended queue fun other different asleep =>
          KernelState.asleep_wake different asleep
  · obtain ⟨nobody, same⟩ := send_of_full (Nat.le_of_not_lt room) sessionId (msg.getD "")
    simp only [after, KernelState.ipcSend]
    rw [nobody]
    exact Attended.congr attended same fun _ asleep => asleep

theorem attended_recv {watched : Watched} (attended : watched.Attended) {portId receiver : U32}
    (awake : watched.state.awake receiver) :
    (watched.after (.ipcRecv portId receiver)).Attended := by
  change IpcSubsystem.Attended (watched.state.ipcRecv portId receiver).state.ipc
    (watched.state.ipcRecv portId receiver).state.asleep _
  cases queue : watched.state.ipc.queued portId with
  | nil =>
      simp only [after, KernelState.ipcRecv, recv_of_empty queue]
      refine Attended.recv_empty attended queue (KernelState.not_asleep_of_awake awake) ?_ ?_
      · exact fun id asleep => watched.state.asleep_block _ (.inr asleep)
      · exact watched.state.asleep_block _ (.inl rfl)
  | cons message rest =>
      simp only [after, KernelState.ipcRecv, recv_of_queued queue]
      exact Attended.recv_queued attended queue receiver

/-- A call that keeps the ports and the threads keeps the invariant. -/
theorem attended_of_same {watched : Watched} (attended : watched.Attended) {state : KernelState}
    (ports : state.ipc = watched.state.ipc)
    (queue : ∀ ref, ref ∈ state.scheduler.threads ↔ ref ∈ watched.state.scheduler.threads)
    (cells : ∀ ref, state.thread ref = watched.state.thread ref) :
    Attended ⟨state, watched.woken⟩ := by
  refine IpcSubsystem.Attended.congr attended ?_ ?_
  · intro portId
    exact congrArg (fun ipc => ipc.channel portId) ports
  · exact fun id asleep => KernelState.asleep_of_sameThreads queue cells asleep

theorem attended_onlyMemory {watched : Watched} (attended : watched.Attended) {call : KernelCall}
    (memory : call.onlyMemory) : Attended ⟨watched.state.after call, watched.woken⟩ := by
  obtain ⟨ref, token, _, next⟩ := watched.state.after_of_onlyMemory memory
  rw [next]
  exact attended_of_same attended rfl (fun _ => Iff.rfl) fun _ => rfl

/-- **Every call keeps the invariant.** -/
theorem attended_after {watched : Watched} {call : KernelCall} (attended : watched.Attended)
    (live : watched.ByLiveThread call) : (watched.after call).Attended := by
  cases call with
  | ipcSend portId sessionId msg => exact attended_send attended portId sessionId msg
  | ipcRecv portId receiver => exact attended_recv attended live
  | runProcess _ _ => exact live.elim
  | createChildToken request =>
      have next := watched.state.createChildToken_cases request
      have same : (watched.state.addChild request).ipc = watched.state.ipc ∧
          (watched.state.addChild request).scheduler = watched.state.scheduler := ⟨rfl, rfl⟩
      rcases next with ⟨_, next⟩ | ⟨_, next⟩
      · refine attended_of_same attended ?_ ?_ ?_ <;>
          simp only [KernelState.after, next, implies_true]
      · refine attended_of_same attended ?_ ?_ ?_
        · simp only [KernelState.after, next, same]
        · simp only [KernelState.after, next, same, implies_true]
        · simp only [KernelState.after, KernelState.thread, next, same, implies_true]
  | kernelTick frame =>
      refine attended_of_same attended ?_ ?_ ?_
      · exact KernelState.tick_eq_of_eq KernelState.ipc (fun _ _ => rfl) (fun _ _ => rfl)
          (fun _ _ => rfl) (fun _ _ _ _ => rfl) watched.state frame
      · intro ref
        simp only [KernelState.after, KernelState.scheduler_tick]
        exact watched.state.scheduler.mem_threads_scheduleNext ref
      · exact fun ref => watched.state.thread_tick frame ref
  | memAlloc _ _ _ _ => exact attended_onlyMemory attended trivial
  | allocateMemory _ _ _ _ _ => exact attended_onlyMemory attended trivial
  | handlePageFault _ _ _ => exact attended_onlyMemory attended trivial
  | cleanup _ => exact attended_onlyMemory attended trivial

end Watched

/-- **No lost wake-up.** Start with any threads and unused ports, and let the
calls of the kernel follow in any order, every receive being made by a thread
that is not blocked under its own id and no thread being made or terminated. In
every state, a port on which somebody waits has no more messages queued than
threads that a send to it has woken and that have not asked it since. -/
theorem no_lost_wakeup (start : KernelState) (calls : List KernelCall)
    (live :
      watchedKernel.Along Watched.ByLiveThread ⟨{ start with ipc := .new }, fun _ => ∅⟩ calls) :
    watchedKernel.Always Watched.NoLostWakeup ⟨{ start with ipc := .new }, fun _ => ∅⟩ calls := by
  refine System.always_of_invariant Watched.Attended ?_ ?_ ?_ live
  · exact fun _ _ attended live => Watched.attended_after attended live
  · exact fun _ attended portId somebody => attended.enough portId somebody
  · exact IpcSubsystem.Attended.new _

/-- Two threads wait on port 7 and two messages wake them; the second thread takes
both messages before the first asks again. -/
theorem no_lost_wakeup_stolen : watchedKernel.Always Watched.NoLostWakeup
    ⟨{ kernel.run .boot [.runProcess 1 100, .runProcess 1 100] with ipc := .new }, fun _ => ∅⟩
    [.ipcRecv 7 1, .ipcRecv 7 2, .ipcSend 7 1 (some "first"), .ipcSend 7 1 (some "second"),
      .ipcRecv 7 2, .ipcRecv 7 2, .ipcRecv 7 1] := by
  apply no_lost_wakeup
  decide

end Lofita.Kernel
