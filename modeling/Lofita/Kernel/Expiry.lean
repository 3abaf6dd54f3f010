import Lofita.Kernel.Registry

/-! # Expired work

The tick removes expired tokens from the table but neither their sessions nor
their threads, and it dispatches the first ready thread without looking at the
session's expiry or at the token (`dispatches_removed_token`). A run dispatches live
work only if sessions and tokens last longer than their threads are ready:
`dispatches_live_of_ready_live`. A history keeps, beside the kernel state, the tokens
that ticks have removed.
-/

namespace Lofita.Kernel

open Lofita.Foundation Std

/-- A kernel state and the tokens that ticks have removed from the table so far. -/
structure History where
  state : KernelState
  removed : List Ref

/-- The tokens a call removes: those the reclaim loop of a tick finds expired. -/
def KernelState.removedBy (state : KernelState) : KernelCall → List Ref
  | .kernelTick _ =>
      (state.expired (state.tickCount + 1)).filterMap fun tokenId => state.tokens[tokenId]?
  | _ => []

def History.after (history : History) (call : KernelCall) : History where
  state := history.state.after call
  removed := history.removed ++ history.state.removedBy call

def recorded : System History KernelCall := ⟨History.after⟩

/-- The history of a kernel that has just booted. -/
def History.boot : History := ⟨.boot, []⟩

/-- A session that has not passed its expiry and whose token no tick has removed. -/
def History.Live (history : History) (session : Session) : Prop :=
  history.state.tickCount ≤ session.expiryTick ∧ session.token ∉ history.removed

instance decidableLive (history : History) (session : Session) :
    Decidable (history.Live session) :=
  inferInstanceAs (Decidable (_ ∧ _))

/-- A tick dispatches no thread and activates no session but of live sessions. -/
def DispatchesLive (history : History) (call : KernelCall) : Prop :=
  match call with
  | .kernelTick frame =>
      let next := history.after call
      (∀ ref ∈ (history.state.tick frame).value.thread,
        ∀ session ∈ next.state.sessions[(next.state.thread ref).sessionId]?, next.Live session) ∧
      ∀ sessionId ∈ (history.state.tick frame).value.activated,
        ∀ session ∈ next.state.sessions[sessionId]?, next.Live session
  | _ => True

instance decidableDispatchesLive (history : History) :
    ∀ call, Decidable (DispatchesLive history call)
  | .kernelTick _ => inferInstanceAs (Decidable (_ ∧ _))
  | .createChildToken _ | .runProcess _ _ | .ipcSend _ _ _ | .ipcRecv _ _
  | .memAlloc _ _ _ _ | .allocateMemory _ _ _ _ _ | .handlePageFault _ _ _ | .cleanup _ =>
      .isTrue trivial

/-- At a tick, no session with a ready thread has come to its end, nor has its token come to the
end of its lifetime; and the counters of ticks and tokens do not wrap. -/
def ReadyLive (history : History) : KernelCall → Prop
  | .kernelTick _ =>
      history.state.tickCount ≠ U64.max ∧
      ∀ ref ∈ history.state.scheduler.threads, history.state.scheduler.isReady ref = true →
        ∀ session ∈ history.state.sessions[(history.state.thread ref).sessionId]?,
          history.state.tickCount + 1 ≤ session.expiryTick ∧
          (history.state.token session.token).isExpired (history.state.tickCount + 1) = false
  | call => CountsOn history.state call

instance decidableReadyLive (history : History) : ∀ call, Decidable (ReadyLive history call)
  | .kernelTick _ => inferInstanceAs (Decidable (_ ∧ _))
  | .createChildToken request =>
      inferInstanceAs (Decidable (CountsOn history.state (.createChildToken request)))
  | .runProcess _ _ | .ipcSend _ _ _ | .ipcRecv _ _ | .memAlloc _ _ _ _
  | .allocateMemory _ _ _ _ _ | .handlePageFault _ _ _ | .cleanup _ => .isTrue trivial

theorem ReadyLive.counts {history : History} {call : KernelCall}
    (ready : ReadyLive history call) : CountsOn history.state call := by
  cases call with
  | kernelTick _ => exact trivial
  | _ => exact ready

theorem ReadyLive.ticks {history : History} {call : KernelCall}
    (ready : ReadyLive history call) : TicksOn history.state call := by
  cases call with
  | kernelTick _ => exact ready.1
  | _ => exact trivial

/-- A removed token is an old one and has no entry in the table, while every unexpired token
has one. -/
structure Gone (history : History) : Prop extends Listing history.state where
  gone : ∀ ref ∈ history.removed, ref < history.state.tokenCells.next ∧
    ∀ id : U64, history.state.tokens[id]? ≠ some ref

theorem mem_removedBy_tick {state : KernelState} (registered : Registered state)
    {frame : Option TrapFrame} {ref : Ref} (member : ref ∈ state.removedBy (.kernelTick frame)) :
    ref < state.tokenCells.next ∧ (state.token ref).isExpired (state.tickCount + 1) = true := by
  obtain ⟨tokenId, expired, found⟩ := List.mem_filterMap.mp member
  obtain ⟨other, known, old⟩ := (state.mem_expired _ _).mp expired
  cases found.symm.trans known
  exact ⟨(registered.table known).1, old⟩

namespace Gone

variable {history : History}

theorem boot : Gone .boot where
  toListing := .boot
  gone := fun _ member => absurd member List.not_mem_nil

theorem after (gone : Gone history) {call : KernelCall} (counts : CountsOn history.state call)
    (ticks : TicksOn history.state call) : Gone (history.after call) := by
  refine { gone.toListing.after counts ticks with gone := ?_ }
  intro ref member
  rcases List.mem_append.mp member with before | now
  · obtain ⟨older, absent⟩ := gone.gone ref before
    refine ⟨older.trans_le (history.state.next_le_after call), fun id found => ?_⟩
    rcases history.state.tokens_after found with old | new
    · exact absent id old
    · exact absurd new (Nat.ne_of_lt older)
  · cases call with
    | kernelTick frame =>
        obtain ⟨older, expired⟩ := mem_removedBy_tick gone.toRegistered now
        refine ⟨older.trans_le (history.state.next_le_after _), fun id found => ?_⟩
        have young := ((history.state.tokens_tick frame id ref).mp found).2
        exact Bool.false_ne_true (young.symm.trans expired)
    | _ => exact absurd now List.not_mem_nil

end Gone

/-- Where no session of a ready thread has come to its end, the thread that is dispatched has a
live session. -/
theorem dispatchesLive_of_readyLive {history : History} (gone : Gone history) {call : KernelCall}
    (ready : ReadyLive history call) : DispatchesLive history call := by
  cases call with
  | kernelTick frame =>
      have live : ∀ ref ∈ history.state.scheduler.firstReady,
          ∀ session ∈ (history.after (.kernelTick frame)).state.sessions[
            (history.state.thread ref).sessionId]?,
            (history.after (.kernelTick frame)).Live session := by
        intro ref first session found
        obtain ⟨old, before, token, expiry⟩ := KernelState.session_tick found
        obtain ⟨lasting, young⟩ := ready.2 ref (List.mem_of_find?_eq_some first)
          (List.find?_some first) old before
        -- a token that lasts beyond the tick is still in the table
        have listed := gone.listed (gone.bound before) (eq_false_of_ne_true fun old =>
          Bool.false_ne_true (young.symm.trans (Token.isExpired_mono ready.1 old)))
        have kept := (history.state.tokens_tick frame _ _).mpr ⟨listed, young⟩
        refine ⟨?_, fun removed => ?_⟩
        · rw [expiry]
          exact (history.state.tickCount_tick frame).symm ▸ lasting
        · rw [token] at removed
          exact ((gone.after ready.counts ready.ticks).gone _ removed).2 _ kept
      constructor
      · intro ref dispatched session found
        rw [KernelState.dispatched_tick] at dispatched
        refine live ref dispatched session ?_
        rw [← history.state.thread_tick frame ref]
        exact found
      · intro sessionId activated session found
        obtain ⟨ref, first, same⟩ := KernelState.activated_tick activated
        exact live ref first session (same ▸ found)
  | _ => trivial

/-- **Live work only.** In every run from boot in which sessions and tokens last as long as
there are ready threads of theirs, no tick dispatches a thread or activates a session that has
passed its expiry or whose token a tick has removed. -/
theorem dispatches_live_of_ready_live (calls : List KernelCall)
    (along : recorded.Along ReadyLive .boot calls) :
    recorded.Along DispatchesLive .boot calls :=
  System.along_of_invariant (fun _ _ gone ready => Gone.after gone ready.counts ready.ticks)
    (fun _ _ gone ready => dispatchesLive_of_readyLive gone ready) Gone.boot along

/-- A session of five ticks runs for two of them while another token goes. -/
theorem dispatches_live_of_ready_live_sample : recorded.Along DispatchesLive .boot
    [.runProcess 1 5, .createChildToken (childOf 1 1 3 0 0), .kernelTick none, .ipcRecv 7 2,
      .kernelTick none] :=
  dispatches_live_of_ready_live _ (by decide)

/-- A session of no ticks is dispatched and activated by the next one. -/
example : ¬ recorded.Along DispatchesLive .boot [.runProcess 1 0, .kernelTick none] := by
  decide

/-- A tick dispatches the thread of a token that it has just removed. -/
theorem dispatches_removed_token : ¬ recorded.Along DispatchesLive .boot
    [.runProcess 1 0, .createChildToken (childOf 1 1 3 0 0), .runProcess 2 100, .ipcRecv 7 1,
      .kernelTick none] := by
  decide

end Lofita.Kernel
