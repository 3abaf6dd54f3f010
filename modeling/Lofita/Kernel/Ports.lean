import Lofita.Foundation.Flow
import Lofita.Kernel.Ipc

/-! # The message order of a port

Any number of senders and receivers use the ports in any order. The messages a
port accepts come out of it once each and in the order they were accepted
(`exactly_once_fifo`); a port holds at most 1024 of them, and what a full port
rejects leaves no trace.
-/

namespace Lofita.Kernel

open Lofita.Foundation

inductive PortCall where
  | send (portId : U32) (senderSession : U64) (payload : String)
  | recv (portId receiverThreadId : U32)
deriving DecidableEq, Repr

namespace IpcSubsystem

def after (ipc : IpcSubsystem) : PortCall → IpcSubsystem
  | .send portId senderSession payload => (ipc.send portId senderSession payload).2
  | .recv portId receiverThreadId => (ipc.recv portId receiverThreadId).2

/-- The messages queued on a port. -/
def queued (portId : U32) (ipc : IpcSubsystem) : List IpcMessage := (ipc.channel portId).messages

/-- The message a call enters on a port: that of a send made when fewer than 1024
messages are queued there. -/
def accepted (portId : U32) (ipc : IpcSubsystem) : PortCall → List IpcMessage
  | .send port senderSession payload =>
      if port = portId ∧ (ipc.queued portId).length < 1024 then [{ senderSession, payload }] else []
  | .recv _ _ => []

/-- The message a call returns from a port. -/
def received (portId : U32) (ipc : IpcSubsystem) : PortCall → List IpcMessage
  | .send _ _ _ => []
  | .recv port receiverThreadId =>
      if port = portId then (ipc.recv port receiverThreadId).1.toList else []

/-! ### What a send and a receive do to the channels -/

/-- The channel a send leaves behind. -/
def sent (channel : IpcChannel) (message : IpcMessage) : IpcChannel :=
  { channel with
    messages := channel.messages ++ [message]
    blockedThreads := channel.blockedThreads.tail }

/-- A send to a full port wakes nobody and leaves every channel alone. -/
theorem send_of_full {ipc : IpcSubsystem} {portId : U32}
    (full : 1024 ≤ (ipc.queued portId).length) (senderSession : U64) (payload : String) :
    (ipc.send portId senderSession payload).1 = none ∧
      ∀ other, (ipc.send portId senderSession payload).2.channel other = ipc.channel other := by
  have dropped : ipc.send portId senderSession payload =
      (none, ipc.setChannel portId (ipc.channel portId)) := if_pos full
  rw [dropped]
  exact ⟨rfl, ipc.channel_setChannel_channel portId⟩

/-- A send to a port with room queues its message and takes the longest waiting
thread off the channel. -/
theorem send_of_room {ipc : IpcSubsystem} {portId : U32}
    (room : (ipc.queued portId).length < 1024) (senderSession : U64) (payload : String) :
    ipc.send portId senderSession payload =
      ((ipc.channel portId).blockedThreads.head?,
        ipc.setChannel portId (sent (ipc.channel portId) { senderSession, payload })) :=
  if_neg (Nat.not_le_of_lt room)

/-- A receive from a port with messages takes the first one. -/
theorem recv_of_queued {ipc : IpcSubsystem} {portId : U32} {message : IpcMessage}
    {rest : List IpcMessage} (queue : ipc.queued portId = message :: rest)
    (receiverThreadId : U32) :
    ipc.recv portId receiverThreadId =
      (some message, ipc.setChannel portId { ipc.channel portId with messages := rest }) := by
  change (ipc.channel portId).messages = message :: rest at queue
  unfold recv
  simp only [queue]

/-- A receive from an empty port puts the thread at the end of those waiting. -/
theorem recv_of_empty {ipc : IpcSubsystem} {portId : U32} (empty : ipc.queued portId = [])
    (receiverThreadId : U32) :
    ipc.recv portId receiverThreadId =
      (none, ipc.setChannel portId { ipc.channel portId with
        blockedThreads := (ipc.channel portId).blockedThreads ++ [receiverThreadId] }) := by
  change (ipc.channel portId).messages = [] at empty
  unfold recv
  simp only [empty]

/-! ### Conservation of messages -/

theorem queued_setChannel (ipc : IpcSubsystem) (portId other : U32) (channel : IpcChannel) :
    (ipc.setChannel portId channel).queued other =
      if portId = other then channel.messages else ipc.queued other := by
  unfold queued
  rw [channel_setChannel]
  split_ifs <;> rfl

/-- One call keeps the messages of a port in order: what was queued and what it
accepts is what it delivers and what is queued then. -/
theorem queued_after (ipc : IpcSubsystem) (portId : U32) (call : PortCall) :
    ipc.queued portId ++ ipc.accepted portId call =
      ipc.received portId call ++ (ipc.after call).queued portId := by
  cases call with
  | send port senderSession payload =>
      simp only [accepted, received, after, List.nil_append]
      by_cases room : (ipc.queued port).length < 1024
      · rw [send_of_room room, queued_setChannel]
        by_cases here : port = portId
        · subst here
          rw [if_pos ⟨rfl, room⟩, if_pos rfl]
          rfl
        · rw [if_neg fun both => here both.1, if_neg here, List.append_nil]
      · have same := (send_of_full (Nat.le_of_not_lt room) senderSession payload).2 portId
        have rejected : ¬(port = portId ∧ (ipc.queued portId).length < 1024) := by
          rintro ⟨rfl, less⟩
          exact room less
        rw [if_neg rejected, List.append_nil]
        exact (congrArg IpcChannel.messages same).symm
  | recv port receiverThreadId =>
      simp only [accepted, received, after, List.append_nil]
      cases queue : ipc.queued port with
      | nil =>
          rw [recv_of_empty queue, queued_setChannel]
          by_cases here : port = portId
          · subst here
            rw [if_pos rfl, if_pos rfl]
            rfl
          · rw [if_neg here, if_neg here, List.nil_append]
      | cons message rest =>
          rw [recv_of_queued queue, queued_setChannel]
          by_cases here : port = portId
          · subst here
            rw [if_pos rfl, if_pos rfl, queue]
            rfl
          · rw [if_neg here, if_neg here, List.nil_append]

/-- No call takes a port beyond 1024 messages. -/
theorem length_queued_after {ipc : IpcSubsystem} {portId : U32}
    (within : (ipc.queued portId).length ≤ 1024) (call : PortCall) :
    ((ipc.after call).queued portId).length ≤ 1024 := by
  have kept := congrArg List.length (ipc.queued_after portId call)
  simp only [List.length_append] at kept
  have limited : (ipc.queued portId).length + (ipc.accepted portId call).length ≤ 1024 := by
    cases call with
    | send port senderSession payload =>
        simp only [accepted]
        split_ifs with enters
        · exact enters.2
        · exact within
    | recv port receiverThreadId => exact within
  omega

end IpcSubsystem

def ports : System IpcSubsystem PortCall := ⟨IpcSubsystem.after⟩

/-- **Exactly-once delivery in order.** In every run of sends and receives over
any ports, the messages a port has accepted are those received from it followed
by those still queued; at most 1024 are queued; and a send that finds 1024
messages queued wakes nobody and changes the messages of no port. -/
theorem exactly_once_fifo (calls : List PortCall) (portId : U32) :
    (ports.emitted (IpcSubsystem.accepted portId) .new calls =
      ports.emitted (IpcSubsystem.received portId) .new calls ++
        (ports.run .new calls).queued portId) ∧
    ((ports.run .new calls).queued portId).length ≤ 1024 ∧
    (1024 ≤ ((ports.run .new calls).queued portId).length →
      ∀ senderSession payload,
        ((ports.run .new calls).send portId senderSession payload).1 = none ∧
        ∀ other, ((ports.run .new calls).send portId senderSession payload).2.queued other =
          (ports.run .new calls).queued other) := by
  refine ⟨?_, ?_, ?_⟩
  · have balanced (ipc : IpcSubsystem) (call : PortCall) := ipc.queued_after portId call
    exact ports.conservation balanced .new calls
  · have unguarded : ports.Along (fun _ _ => True) .new calls :=
      System.along_of_forall fun _ _ _ => trivial
    refine System.invariant_run (fun ipc => (ipc.queued portId).length ≤ 1024) ?_ ?_ unguarded
    · exact fun _ call within _ => IpcSubsystem.length_queued_after within call
    · exact Nat.zero_le _
  · intro full senderSession payload
    obtain ⟨nobody, same⟩ := IpcSubsystem.send_of_full full senderSession payload
    exact ⟨nobody, fun other => congrArg IpcChannel.messages (same other)⟩

end Lofita.Kernel
