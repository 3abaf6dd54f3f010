import Mathlib.Tactic.SplitIfs
import Std.Data.TreeMap
import Lofita.Foundation.Word

/-! # Message ports

Ports with a bounded message queue and a queue of waiting threads (`ipc.rs`). A
send wakes the thread at the head of the waiting queue; the woken thread has to
ask for the message again.
-/

namespace Lofita.Kernel

open Lofita.Foundation Std

/-- A message with its sender. -/
structure IpcMessage where
  senderSession : U64
  payload : String
deriving DecidableEq, Repr

/-- A port: its messages and the threads that wait there. -/
structure IpcChannel where
  portId : U32
  messages : List IpcMessage
  blockedThreads : List U32
deriving DecidableEq, Repr

structure IpcSubsystem where
  channels : TreeMap U32 IpcChannel

namespace IpcSubsystem

def new : IpcSubsystem := { channels := ∅ }

/-- The channel of a port, a fresh one for a port not used before. -/
def channel (ipc : IpcSubsystem) (portId : U32) : IpcChannel :=
  ipc.channels[portId]?.getD { portId, messages := [], blockedThreads := [] }

/-- A port gets a new channel. -/
def setChannel (ipc : IpcSubsystem) (portId : U32) (channel : IpcChannel) : IpcSubsystem :=
  { ipc with channels := ipc.channels.insert portId channel }

/-- The channels after one was replaced. -/
theorem channel_setChannel (ipc : IpcSubsystem) (portId other : U32) (channel : IpcChannel) :
    (ipc.setChannel portId channel).channel other =
      if portId = other then channel else ipc.channel other := by
  unfold setChannel IpcSubsystem.channel
  rw [TreeMap.getElem?_insert]
  simp only [Std.compare_eq_iff_eq]
  split_ifs <;> rfl

@[simp] theorem channel_setChannel_self (ipc : IpcSubsystem) (portId : U32) (channel : IpcChannel) :
    (ipc.setChannel portId channel).channel portId = channel := by
  rw [channel_setChannel, if_pos rfl]

/-- Entering a channel that is there already changes no channel. -/
theorem channel_setChannel_channel (ipc : IpcSubsystem) (portId other : U32) :
    (ipc.setChannel portId (ipc.channel portId)).channel other = ipc.channel other := by
  rw [channel_setChannel]
  split_ifs with same
  · rw [same]
  · rfl

@[simp] theorem messages_channel_new (portId : U32) : (new.channel portId).messages = [] := rfl

@[simp] theorem blockedThreads_channel_new (portId : U32) :
    (new.channel portId).blockedThreads = [] := rfl

/-- Queue a message; the thread to wake, if one waits. A full queue drops the
message. -/
def send (ipc : IpcSubsystem) (portId : U32) (senderSession : U64) (payload : String) :
    Option U32 × IpcSubsystem :=
  let channel := ipc.channel portId
  if channel.messages.length ≥ 1024 then (none, ipc.setChannel portId channel)
  else
    (channel.blockedThreads.head?,
      ipc.setChannel portId { channel with
        messages := channel.messages ++ [{ senderSession, payload }]
        blockedThreads := channel.blockedThreads.tail })

/-- Take the oldest message, or join the waiting threads. -/
def recv (ipc : IpcSubsystem) (portId : U32) (receiverThreadId : U32) :
    Option IpcMessage × IpcSubsystem :=
  let channel := ipc.channel portId
  match channel.messages with
  | message :: rest => (some message, ipc.setChannel portId { channel with messages := rest })
  | [] =>
      (none, ipc.setChannel portId { channel with
        blockedThreads := channel.blockedThreads ++ [receiverThreadId] })

end IpcSubsystem

end Lofita.Kernel
