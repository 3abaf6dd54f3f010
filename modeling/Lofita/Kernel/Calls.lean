import Lofita.Foundation.Run
import Lofita.Kernel.Memory
import Lofita.Kernel.Tick

/-! # Runs of the kernel

The entry points as the calls of one system, so that a run interleaves them in
any order. A call that asks the allocator for pages carries the answer. This
module says once what a call can do to the token table, the token cells and the
sessions; the invariants over runs are derived from these lemmas.
-/

namespace Lofita.Kernel

open Lofita.Foundation Std

/-- The calls that change tokens, sessions, threads or messages. -/
inductive KernelCall where
  | createChildToken (request : ChildRequest)
  | runProcess (tokenId sessionTicks : U64)
  | kernelTick (frame : Option TrapFrame)
  | ipcSend (portId : U32) (sessionId : U64) (msg : Option String)
  | ipcRecv (portId receiverThreadId : U32)
  | memAlloc (tokenId : U64) (reqCap : Capability) (size vaddr : U64)
  | allocateMemory (tokenId size : U64) (isWriteable isExecutable : Bool) (phys : U64)
  | handlePageFault (faultAddr : U64) (errorCode : U32) (phys : U64)
  | cleanup (tokenId : U64)
deriving DecidableEq

/-- The state a call leaves. -/
def KernelState.after (state : KernelState) : KernelCall → KernelState
  | .createChildToken request => (state.createChildToken request).state
  | .runProcess tokenId sessionTicks => (state.runProcess tokenId sessionTicks).state
  | .kernelTick frame => (state.tick frame).state
  | .ipcSend portId sessionId msg => (state.ipcSend portId sessionId msg).state
  | .ipcRecv portId receiverThreadId => (state.ipcRecv portId receiverThreadId).state
  | .memAlloc tokenId reqCap size vaddr => (state.memAlloc tokenId reqCap size vaddr).state
  | .allocateMemory tokenId size isWriteable isExecutable phys =>
      (state.allocateMemory tokenId size isWriteable isExecutable phys).state
  | .handlePageFault faultAddr errorCode phys =>
      (state.handlePageFault faultAddr errorCode phys).state
  | .cleanup tokenId => (state.cleanup tokenId).state

/-- The kernel under its calls. -/
def kernel : System KernelState KernelCall := ⟨KernelState.after⟩

/-- A request for a token with the given level, capabilities and lifetime. -/
def childOf (callerSessionId parentId : U64) (privilegeVal capFlags : U32) (lifetimeTicks : U64) :
    ChildRequest where
  callerSessionId := callerSessionId
  name := some "child"
  privilegeVal := privilegeVal
  parentId := parentId
  memLimit := 0
  capFlags := capFlags
  lifetimeTicks := lifetimeTicks

/-- The root token starts a session, which creates the tokens 2 to 98. The windows of the tokens
from 96 on lie above the first 2 GB, where the page tables have room for them. -/
def createTokens : List KernelCall :=
  .runProcess 1 100 :: List.replicate 97 (.createChildToken (childOf 1 1 3 0 100))

/-- The kernel after the sample tokens have been created. -/
def populated : KernelState := kernel.run .boot createTokens

/-! ### The terms of a token -/

/-- The terms a token is created on; no call changes them. -/
structure Charter where
  id : U64
  privilege : PrivilegeLevel
  memoryLimit : U64
  isPermanent : Bool
  expiryTick : U64
  capabilities : Capability

/-- The terms a token was issued on. -/
def Token.charter (token : Token) : Charter where
  id := token.id
  privilege := token.privilege
  memoryLimit := token.memoryLimit
  isPermanent := token.isPermanent
  expiryTick := token.expiryTick
  capabilities := token.capabilities

/-- The terms say whose they are. -/
theorem Token.id_of_charter_eq {first second : Token} (same : first.charter = second.charter) :
    first.id = second.id :=
  congrArg Charter.id same

/-- They say when the token expires. -/
theorem Token.isExpired_of_charter_eq {first second : Token}
    (same : first.charter = second.charter) (currentTick : U64) :
    first.isExpired currentTick = second.isExpired currentTick := by
  unfold Token.isExpired
  rw [show first.isPermanent = second.isPermanent from congrArg Charter.isPermanent same,
    show first.expiryTick = second.expiryTick from congrArg Charter.expiryTick same]

/-- The calls that only give a token memory or take it away. -/
def KernelCall.onlyMemory : KernelCall → Prop
  | .memAlloc .. | .allocateMemory .. | .handlePageFault .. | .cleanup .. => True
  | _ => False

namespace KernelState

/-- Writing a cell a token with the same terms changes no terms. -/
theorem charter_setToken {state : KernelState} {ref : Ref} {token : Token}
    (same : token.charter = (state.token ref).charter) (other : Ref) :
    ((state.setToken ref token).token other).charter = (state.token other).charter := by
  by_cases here : other = ref
  · subst here
    change ((state.tokenCells.modify other fun _ => token).read other).charter = _
    rw [Arena.read_modify_self, same]
  · change ((state.tokenCells.modify ref fun _ => token).read other).charter = _
    rw [Arena.read_modify_of_ne _ here]
    rfl

/-- A memory call writes one token cell, and keeps the terms of the token. -/
theorem after_of_onlyMemory (state : KernelState) {call : KernelCall} (memory : call.onlyMemory) :
    ∃ ref token, token.charter = (state.token ref).charter ∧
      state.after call = state.setToken ref token := by
  have unchanged (same : state.after call = state) : ∃ ref token,
      token.charter = (state.token ref).charter ∧ state.after call = state.setToken ref token :=
    ⟨0, _, rfl, same.trans (state.setToken_self 0).symm⟩
  cases call with
  | memAlloc tokenId reqCap size vaddr =>
      rcases state.memAlloc_cases tokenId reqCap size vaddr with same | ⟨ref, _, _, next⟩
      · exact unchanged same
      · exact ⟨ref, _, by rfl, next⟩
  | allocateMemory tokenId size isWriteable isExecutable phys =>
      rcases state.allocateMemory_cases tokenId size isWriteable isExecutable phys with
        ⟨_, same, _⟩ | ⟨ref, _, _, _, reply⟩
      · exact unchanged same
      · exact ⟨ref, _, by rfl, congrArg Reply.state reply⟩
  | handlePageFault faultAddr errorCode phys =>
      rcases state.handlePageFault_cases faultAddr errorCode phys with
        ⟨_, same, _⟩ | ⟨ref, _, _, _, _, _, reply⟩
      · exact unchanged same
      · exact ⟨ref, _, by rfl, congrArg Reply.state reply⟩
  | cleanup tokenId =>
      rcases state.cleanup_cases tokenId with same | ⟨ref, _, next⟩
      · exact unchanged same
      · exact ⟨ref, _, by rfl, next⟩
  | createChildToken _ => exact memory.elim
  | runProcess _ _ => exact memory.elim
  | kernelTick _ => exact memory.elim
  | ipcSend _ _ _ => exact memory.elim
  | ipcRecv _ _ => exact memory.elim

/-- A child request leaves the state alone or enters the new token. -/
theorem createChildToken_cases (state : KernelState) (request : ChildRequest) :
    (state.grants request = false ∧ (state.createChildToken request).state = state) ∨
      (state.grants request = true ∧
        (state.createChildToken request).state = state.addChild request) := by
  unfold createChildToken
  cases granted : state.grants request with
  | false => exact .inl ⟨rfl, rfl⟩
  | true => exact .inr ⟨rfl, rfl⟩

/-- A process start fails and leaves the state as it is, or starts a session for a token of
the table that has been run less than twice. -/
theorem runProcess_eq (state : KernelState) (tokenId sessionTicks : U64) :
    state.runProcess tokenId sessionTicks = { value := 0, state } ∨
      ∃ ref, state.tokens[tokenId]? = some ref ∧ (state.token ref).runCount < 2 ∧
        state.runProcess tokenId sessionTicks =
          { value := state.nextSessionId, state := state.startSession ref sessionTicks } := by
  unfold runProcess
  cases found : state.tokens[tokenId]? with
  | none => exact .inl rfl
  | some ref =>
      simp only
      split_ifs with spent
      · exact .inl rfl
      · exact .inr ⟨ref, rfl, BitVec.not_le.mp spent, rfl⟩

/-- A process start leaves the state alone or starts a session for a token of
the table. -/
theorem runProcess_cases (state : KernelState) (tokenId sessionTicks : U64) :
    (state.runProcess tokenId sessionTicks).state = state ∨
      ∃ ref, state.tokens[tokenId]? = some ref ∧ (state.token ref).runCount < 2 ∧
        (state.runProcess tokenId sessionTicks).state = state.startSession ref sessionTicks := by
  rcases state.runProcess_eq tokenId sessionTicks with failed | ⟨ref, found, runs, started⟩
  · exact .inl (congrArg Reply.state failed)
  · exact .inr ⟨ref, found, runs, congrArg Reply.state started⟩

/-! ### The token cells -/

/-- Entering a child writes the new cell, and only the list of children in any
other. -/
theorem token_addChild_of_eq {β : Type*} (view : Token → β)
    (keeps : ∀ (token : Token) children, view { token with children } = view token)
    (state : KernelState) (request : ChildRequest) (ref : Ref) :
    view ((state.addChild request).token ref) =
      view ((state.tokenCells.alloc (request.newToken state)).read ref) := by
  simp only [addChild, token]
  cases state.tokens[request.parentId]? with
  | none => rfl
  | some parent =>
      refine Arena.read_modify_of_eq _ view ?_ parent ref
      exact fun _ => keeps _ _

/-- A new token has the terms asked for. -/
theorem charter_addChild_next (state : KernelState) (request : ChildRequest) :
    ((state.addChild request).token state.tokenCells.next).charter =
      (request.newToken state).charter := by
  rw [token_addChild_of_eq Token.charter fun _ _ => rfl, Arena.read_alloc_next]

/-- The older tokens keep theirs. -/
theorem charter_addChild_of_lt (state : KernelState) (request : ChildRequest) {ref : Ref}
    (older : ref < state.tokenCells.next) :
    ((state.addChild request).token ref).charter = (state.token ref).charter := by
  rw [token_addChild_of_eq Token.charter fun _ _ => rfl, Arena.read_alloc_of_lt _ older]
  rfl

@[simp] theorem next_addChild (state : KernelState) (request : ChildRequest) :
    (state.addChild request).tokenCells.next = state.tokenCells.next + 1 := by
  unfold addChild
  cases state.tokens[request.parentId]? <;> rfl

/-- Starting a session writes only the run count of a cell. -/
theorem token_startSession_of_eq {β : Type*} (view : Token → β)
    (keeps : ∀ (token : Token) runCount, view { token with runCount } = view token)
    (state : KernelState) (owner : Ref) (sessionTicks : U64) (ref : Ref) :
    view ((state.startSession owner sessionTicks).token ref) = view (state.token ref) := by
  simp only [startSession, token]
  refine Arena.read_modify_of_eq _ view ?_ owner ref
  exact fun _ => keeps _ _

/-- Starting a session changes no terms. -/
theorem charter_startSession (state : KernelState) (owner : Ref) (sessionTicks : U64) (ref : Ref) :
    ((state.startSession owner sessionTicks).token ref).charter = (state.token ref).charter :=
  token_startSession_of_eq Token.charter (fun _ _ => rfl) state owner sessionTicks ref

/-! ### The tick, in parts -/

/-- A dispatch changes nothing but the sessions. -/
theorem dispatch_of_eq {β : Type*} (view : KernelState → β)
    (dispatching : ∀ (state : KernelState) sessions, view { state with sessions } = view state)
    (state : KernelState) (ref : Ref) (frame : Option TrapFrame) :
    view (state.dispatch ref frame).state = view state := by
  simp only [dispatch]
  split
  · rfl
  · exact dispatching _ _

/-- Whatever scheduling and dispatching leave alone, a tick changes only by
reclaiming tokens. -/
theorem tick_of_eq {β : Type*} (view : KernelState → β)
    (scheduling : ∀ (state : KernelState) scheduler, view { state with scheduler } = view state)
    (dispatching : ∀ (state : KernelState) sessions, view { state with sessions } = view state)
    (state : KernelState) (frame : Option TrapFrame) :
    view (state.tick frame).state = view state.reclaimed.1 := by
  simp only [tick]
  cases state.reclaimed.1.scheduler.scheduleNext.1 with
  | none => exact scheduling _ _
  | some ref => exact (dispatch_of_eq view dispatching _ ref frame).trans (scheduling _ _)

/-- A tick changes no terms. -/
theorem charter_tick (state : KernelState) (frame : Option TrapFrame) (ref : Ref) :
    ((state.tick frame).state.token ref).charter = (state.token ref).charter :=
  (tick_of_eq (fun state => (state.token ref).charter) (fun _ _ => rfl) (fun _ _ => rfl) state
    frame).trans (token_reclaimed_of_eq Token.charter (fun _ => rfl) state ref)

/-- What each reclamation leaves alone, all of a tick's reclamations do. -/
theorem reclaimed_of_eq {β : Type*} (view : KernelState → β)
    (counting : ∀ (state : KernelState) tickCount, view { state with tickCount } = view state)
    (keeps : ∀ state tokenId, view (state.reclaim tokenId).1 = view state)
    (state : KernelState) : view state.reclaimed.1 = view state :=
  (reclaimAll_of_eq view keeps _ _).trans (counting _ _)

/-- What reads only the size of the cell store, the sessions and the counters is
left alone by reclaiming a token. -/
theorem reclaim_of_eq {β : Type*} (view : KernelState → β)
    (keeps : ∀ (state : KernelState) tokens ref change,
      view { state with tokens, tokenCells := state.tokenCells.modify ref change } = view state)
    (state : KernelState) (tokenId : U64) : view (state.reclaim tokenId).1 = view state := by
  unfold reclaim
  cases state.tokens[tokenId]? with
  | none => rfl
  | some ref => exact keeps _ _ _ _

/-- What reads only the size of the cell store and the token and session
counters is left alone by a tick. -/
theorem tick_eq_of_eq {β : Type*} (view : KernelState → β)
    (scheduling : ∀ (state : KernelState) scheduler, view { state with scheduler } = view state)
    (dispatching : ∀ (state : KernelState) sessions, view { state with sessions } = view state)
    (counting : ∀ (state : KernelState) tickCount, view { state with tickCount } = view state)
    (keeps : ∀ (state : KernelState) tokens ref change,
      view { state with tokens, tokenCells := state.tokenCells.modify ref change } = view state)
    (state : KernelState) (frame : Option TrapFrame) :
    view (state.tick frame).state = view state :=
  (tick_of_eq view scheduling dispatching state frame).trans
    (reclaimed_of_eq view counting (reclaim_of_eq view keeps) state)

@[simp] theorem next_tick (state : KernelState) (frame : Option TrapFrame) :
    (state.tick frame).state.tokenCells.next = state.tokenCells.next :=
  tick_eq_of_eq (fun state => state.tokenCells.next) (fun _ _ => rfl) (fun _ _ => rfl)
    (fun _ _ => rfl) (fun _ _ _ _ => rfl) state frame

@[simp] theorem nextTokenId_tick (state : KernelState) (frame : Option TrapFrame) :
    (state.tick frame).state.nextTokenId = state.nextTokenId :=
  tick_eq_of_eq KernelState.nextTokenId (fun _ _ => rfl) (fun _ _ => rfl) (fun _ _ => rfl)
    (fun _ _ _ _ => rfl) state frame

@[simp] theorem nextSessionId_tick (state : KernelState) (frame : Option TrapFrame) :
    (state.tick frame).state.nextSessionId = state.nextSessionId :=
  tick_eq_of_eq KernelState.nextSessionId (fun _ _ => rfl) (fun _ _ => rfl) (fun _ _ => rfl)
    (fun _ _ _ _ => rfl) state frame

@[simp] theorem tickCount_tick (state : KernelState) (frame : Option TrapFrame) :
    (state.tick frame).state.tickCount = state.tickCount + 1 :=
  (tick_of_eq KernelState.tickCount (fun _ _ => rfl) (fun _ _ => rfl) state frame).trans
    (reclaimAll_of_eq KernelState.tickCount
      (reclaim_of_eq KernelState.tickCount fun _ _ _ _ => rfl) _ _)

/-- After a tick the table holds exactly the unexpired tokens. -/
theorem tokens_tick (state : KernelState) (frame : Option TrapFrame) (id : U64) (ref : Ref) :
    (state.tick frame).state.tokens[id]? = some ref ↔
      state.tokens[id]? = some ref ∧
        (state.token ref).isExpired (state.tickCount + 1) = false := by
  rw [show (state.tick frame).state.tokens = state.reclaimed.1.tokens from
    tick_of_eq KernelState.tokens (fun _ _ => rfl) (fun _ _ => rfl) state frame]
  exact tokens_reclaimed state id ref

/-- Reclaiming touches neither sessions nor threads. -/
theorem sessions_reclaimed (state : KernelState) : state.reclaimed.1.sessions = state.sessions :=
  reclaimed_of_eq KernelState.sessions (fun _ _ => rfl) (reclaim_of_eq _ fun _ _ _ _ => rfl) state

/-- Reclaiming leaves the scheduler alone. -/
theorem scheduler_reclaimed (state : KernelState) :
    state.reclaimed.1.scheduler = state.scheduler :=
  reclaimed_of_eq KernelState.scheduler (fun _ _ => rfl) (reclaim_of_eq _ fun _ _ _ _ => rfl) state

/-- A dispatch binds no session anew. -/
theorem session_dispatch {state : KernelState} {ref : Ref} {frame : Option TrapFrame}
    {sessionId : U64} {session : Session}
    (found : (state.dispatch ref frame).state.sessions[sessionId]? = some session) :
    ∃ old, state.sessions[sessionId]? = some old ∧ session.token = old.token ∧
      session.expiryTick = old.expiryTick := by
  simp only [dispatch] at found
  split at found
  · exact ⟨session, found, rfl, rfl⟩
  next active bound =>
    simp only [Session.activate, TreeMap.getElem?_insert, Std.compare_eq_iff_eq] at found
    split_ifs at found with same
    · cases found
      exact ⟨active, same ▸ bound, rfl, rfl⟩
    · exact ⟨session, found, rfl, rfl⟩

/-- A tick invents no session. -/
theorem session_tick {state : KernelState} {frame : Option TrapFrame} {sessionId : U64}
    {session : Session} (found : (state.tick frame).state.sessions[sessionId]? = some session) :
    ∃ old, state.sessions[sessionId]? = some old ∧ session.token = old.token ∧
      session.expiryTick = old.expiryTick := by
  rw [← sessions_reclaimed state]
  simp only [tick] at found
  revert found
  cases state.reclaimed.1.scheduler.scheduleNext.1 with
  | none => exact fun found => ⟨session, found, rfl, rfl⟩
  | some ref => exact session_dispatch

/-- A dispatch activates a session, and keeps all. -/
theorem mem_sessions_dispatch {state : KernelState} {ref : Ref} {frame : Option TrapFrame}
    {id : U64} (there : id ∈ state.sessions) : id ∈ (state.dispatch ref frame).state.sessions := by
  simp only [dispatch]
  split
  · exact there
  · exact TreeMap.mem_insert.mpr (.inr there)

/-- A tick forgets no session. -/
theorem mem_sessions_tick {state : KernelState} {frame : Option TrapFrame} {id : U64}
    (there : id ∈ state.sessions) : id ∈ (state.tick frame).state.sessions := by
  rw [← sessions_reclaimed state] at there
  simp only [tick]
  cases state.reclaimed.1.scheduler.scheduleNext.1 with
  | none => exact there
  | some ref => exact mem_sessions_dispatch there

/-- A tick schedules: the queue is rotated past the first ready thread. -/
theorem scheduler_tick (state : KernelState) (frame : Option TrapFrame) :
    (state.tick frame).state.scheduler = state.scheduler.scheduleNext.2 := by
  rw [← scheduler_reclaimed state]
  simp only [tick]
  cases state.reclaimed.1.scheduler.scheduleNext.1 with
  | none => rfl
  | some ref => exact dispatch_of_eq KernelState.scheduler (fun _ _ => rfl) _ ref frame

/-- A tick leaves the threads themselves alone. -/
@[simp] theorem thread_tick (state : KernelState) (frame : Option TrapFrame) (ref : Ref) :
    (state.tick frame).state.thread ref = state.thread ref := by
  unfold thread
  rw [scheduler_tick, Scheduler.cells_scheduleNext]

/-- A tick dispatches the first ready thread, if there is one: it activates the
thread's session and loads the thread's context into the frame. -/
theorem value_tick (state : KernelState) (frame : Option TrapFrame) :
    (state.tick frame).value =
      match state.scheduler.firstReady with
      | none => ⟨none, none, frame⟩
      | some ref =>
          ⟨some ref,
            state.sessions[(state.thread ref).sessionId]?.map fun _ => (state.thread ref).sessionId,
            frame.map fun frame => frame.load (state.thread ref).context⟩ := by
  rw [← Scheduler.scheduleNext_fst, ← sessions_reclaimed state, ← scheduler_reclaimed state]
  simp only [tick]
  cases state.reclaimed.1.scheduler.scheduleNext.1 with
  | none => rfl
  | some ref =>
      have same : KernelState.thread { state.reclaimed.1 with
          scheduler := state.reclaimed.1.scheduler.scheduleNext.2 } ref = state.thread ref := by
        unfold thread
        rw [Scheduler.cells_scheduleNext, scheduler_reclaimed]
      simp only [dispatch, same]
      cases state.reclaimed.1.sessions[(state.thread ref).sessionId]? <;> rfl

/-- A tick dispatches the first ready thread. -/
theorem dispatched_tick (state : KernelState) (frame : Option TrapFrame) :
    (state.tick frame).value.thread = state.scheduler.firstReady := by
  rw [value_tick]
  cases state.scheduler.firstReady <;> rfl

/-- The session a tick activates is that of the first ready thread. -/
theorem activated_tick {state : KernelState} {frame : Option TrapFrame} {sessionId : U64}
    (activated : (state.tick frame).value.activated = some sessionId) :
    ∃ ref, state.scheduler.firstReady = some ref ∧ (state.thread ref).sessionId = sessionId := by
  rw [value_tick] at activated
  cases first : state.scheduler.firstReady with
  | none =>
      rw [first] at activated
      cases activated
  | some ref =>
      rw [first] at activated
      obtain ⟨_, _, same⟩ := Option.map_eq_some_iff.mp activated
      exact ⟨ref, rfl, same⟩

end KernelState

/-! ### What one call can do -/

/-- Two states with the same tokens, up to their memory, and the same sessions. -/
structure SameRegistry (before after : KernelState) : Prop where
  tokens : after.tokens = before.tokens
  next : after.tokenCells.next = before.tokenCells.next
  charter : ∀ ref, (after.token ref).charter = (before.token ref).charter
  sessions : after.sessions = before.sessions
  nextTokenId : after.nextTokenId = before.nextTokenId
  nextSessionId : after.nextSessionId = before.nextSessionId
  tickCount : after.tickCount = before.tickCount

/-- A step that does nothing keeps the registry. -/
theorem SameRegistry.refl (state : KernelState) : SameRegistry state state :=
  ⟨rfl, rfl, fun _ => rfl, rfl, rfl, rfl, rfl⟩

namespace KernelState

variable (state : KernelState)

/-- A token that keeps its terms may change. -/
theorem sameRegistry_setToken {ref : Ref} {token : Token}
    (terms : token.charter = (state.token ref).charter) :
    SameRegistry state (state.setToken ref token) :=
  ⟨rfl, rfl, charter_setToken terms, rfl, rfl, rfl, rfl⟩

theorem sameRegistry_ipcSend (portId : U32) (sessionId : U64) (msg : Option String) :
    SameRegistry state (state.ipcSend portId sessionId msg).state := by
  simp only [ipcSend]
  split <;> exact ⟨rfl, rfl, fun _ => rfl, rfl, rfl, rfl, rfl⟩

theorem sameRegistry_ipcRecv (portId receiverThreadId : U32) :
    SameRegistry state (state.ipcRecv portId receiverThreadId).state := by
  simp only [ipcRecv]
  split <;> exact ⟨rfl, rfl, fun _ => rfl, rfl, rfl, rfl, rfl⟩

/-- **What a call can do to the registry of tokens and sessions.** It leaves the
registry alone, enters a child token, starts a session, or is a tick. -/
theorem after_cases (call : KernelCall) :
    SameRegistry state (state.after call) ∨
      (∃ request, call = .createChildToken request ∧ state.grants request = true ∧
        state.after call = state.addChild request) ∨
      (∃ tokenId sessionTicks ref, call = .runProcess tokenId sessionTicks ∧
        state.tokens[tokenId]? = some ref ∧ (state.token ref).runCount < 2 ∧
        state.after call = state.startSession ref sessionTicks) ∨
      ∃ frame, call = .kernelTick frame := by
  have memory (only : call.onlyMemory) : SameRegistry state (state.after call) := by
    obtain ⟨ref, token, terms, next⟩ := state.after_of_onlyMemory only
    exact next ▸ state.sameRegistry_setToken terms
  have unchanged (same : state.after call = state) : SameRegistry state (state.after call) := by
    rw [same]
    exact .refl state
  cases call with
  | createChildToken request =>
      rcases state.createChildToken_cases request with ⟨_, same⟩ | ⟨granted, next⟩
      · exact .inl (unchanged same)
      · exact .inr (.inl ⟨request, rfl, granted, next⟩)
  | runProcess tokenId sessionTicks =>
      rcases state.runProcess_cases tokenId sessionTicks with same | ⟨ref, found, runs, next⟩
      · exact .inl (unchanged same)
      · exact .inr (.inr (.inl ⟨tokenId, sessionTicks, ref, rfl, found, runs, next⟩))
  | kernelTick frame => exact .inr (.inr (.inr ⟨frame, rfl⟩))
  | ipcSend portId sessionId msg => exact .inl (state.sameRegistry_ipcSend portId sessionId msg)
  | ipcRecv portId receiver => exact .inl (state.sameRegistry_ipcRecv portId receiver)
  | memAlloc _ _ _ _ => exact .inl (memory trivial)
  | allocateMemory _ _ _ _ _ => exact .inl (memory trivial)
  | handlePageFault _ _ _ => exact .inl (memory trivial)
  | cleanup _ => exact .inl (memory trivial)

/-- No call takes a token cell away. -/
theorem next_le_after (call : KernelCall) :
    state.tokenCells.next ≤ (state.after call).tokenCells.next := by
  rcases state.after_cases call with
    same | ⟨request, rfl, _, next⟩ | ⟨_, _, _, rfl, _, _, next⟩ | ⟨frame, rfl⟩
  · exact same.next.ge
  · rw [next, next_addChild]
    exact Nat.le_succ _
  · rw [next]
    exact le_rfl
  · exact (state.next_tick frame).ge

/-- No call takes a session away. -/
theorem mem_sessions_after {call : KernelCall} {id : U64} (there : id ∈ state.sessions) :
    id ∈ (state.after call).sessions := by
  rcases state.after_cases call with
    same | ⟨request, rfl, _, next⟩ | ⟨_, _, _, rfl, _, _, next⟩ | ⟨frame, rfl⟩
  · rw [same.sessions]
    exact there
  · rw [next]
    exact there
  · rw [next]
    exact TreeMap.mem_insert.mpr (.inr there)
  · exact mem_sessions_tick there

/-- A table entry was there before the call, or it refers to a new cell. -/
theorem tokens_after {call : KernelCall} {id : U64} {ref : Ref}
    (found : (state.after call).tokens[id]? = some ref) :
    state.tokens[id]? = some ref ∨ ref = state.tokenCells.next := by
  rcases state.after_cases call with
    same | ⟨request, rfl, _, next⟩ | ⟨_, _, _, rfl, _, _, next⟩ | ⟨frame, rfl⟩
  · exact .inl (same.tokens ▸ found)
  · rw [next] at found
    change (state.tokens.insert state.nextTokenId state.tokenCells.next)[id]? = some ref at found
    rw [TreeMap.getElem?_insert] at found
    split_ifs at found
    · exact .inr (Option.some.inj found).symm
    · exact .inl found
  · rw [next] at found
    exact .inl found
  · exact .inl ((state.tokens_tick frame id ref).mp found).1

end KernelState

/-! ### The regions of tokens -/

/-- The region a call registers, and the token it is charged to. -/
def KernelState.registers (state : KernelState) : KernelCall → Option (Ref × Vma)
  | .memAlloc tokenId reqCap size vaddr => do
      let ref ← state.tokens[tokenId]?
      if (state.token ref).admits reqCap size then return (ref, lazyVma size vaddr) else none
  | .allocateMemory tokenId size isWriteable isExecutable phys => do
      let ref ← state.tokens[tokenId]?
      if !(isWriteable && isExecutable) && phys ≠ 0 then
        return (ref, (state.token ref).eagerVma size isWriteable isExecutable phys)
      else none
  | _ => none

namespace KernelState

/-- A tick keeps the regions of a token or takes them all away. -/
theorem vmas_tick (state : KernelState) (frame : Option TrapFrame) (ref : Ref) :
    ((state.tick frame).state.token ref).vmas = (state.token ref).vmas ∨
      ((state.tick frame).state.token ref).vmas = ∅ := by
  have scheduled : ((state.tick frame).state.token ref).vmas = (state.reclaimed.1.token ref).vmas :=
    tick_of_eq (fun state => (state.token ref).vmas) (fun _ _ => rfl) (fun _ _ => rfl) state frame
  rw [scheduled]
  exact vmas_reclaimAll _ _ ref

/-- Writing one cell changes no region of the others, and its terms stay. -/
theorem region_setToken {state : KernelState} {owner ref : Ref} {token : Token} {key : U64}
    {vma : Vma} (terms : token.charter = (state.token owner).charter)
    (found : ((state.setToken owner token).token ref).vmas[key]? = some vma) :
    ((state.setToken owner token).token ref).charter = (state.token ref).charter ∧
      ((state.token ref).vmas[key]? = some vma ∨ (ref = owner ∧ token.vmas[key]? = some vma)) := by
  refine ⟨charter_setToken terms ref, ?_⟩
  by_cases same : ref = owner
  · subst same
    rw [token_setToken_self] at found
    exact .inr ⟨rfl, found⟩
  · rw [state.token_setToken_of_ne same] at found
    exact .inl found

/-- A region of a token that has registered one was there before or is the new
one. -/
theorem region_register {token : Token} {vma found : Vma} {key : U64}
    (lookup : (token.register vma).vmas[key]? = some found) :
    token.vmas[key]? = some found ∨ found = vma := by
  change (token.vmas.insert vma.startAddr vma)[key]? = some found at lookup
  rw [TreeMap.getElem?_insert] at lookup
  split_ifs at lookup
  · exact .inr (Option.some.inj lookup).symm
  · exact .inl lookup

/-- Where a region comes from: it was there before, up to its backing, or the
call has registered it. -/
def RegionOrigin (state : KernelState) (call : KernelCall) (ref : Ref) (vma : Vma) : Prop :=
  (∃ (key : U64) (old : Vma), (state.token ref).vmas[key]? = some old ∧
    old.startAddr = vma.startAddr ∧ old.size = vma.size) ∨
    state.registers call = some (ref, vma)

/-- A region found after one was registered is that one, or was there before. -/
theorem regionOrigin_register {state : KernelState} {call : KernelCall} {owner ref : Ref}
    {vma new : Vma} {key : U64} (registers : state.registers call = some (owner, new))
    (next : state.after call = state.setToken owner ((state.token owner).register new))
    (found : ((state.after call).token ref).vmas[key]? = some vma) :
    ((state.after call).token ref).charter = (state.token ref).charter ∧
      state.RegionOrigin call ref vma := by
  rw [next] at found ⊢
  obtain ⟨terms, before | ⟨rfl, entered⟩⟩ := region_setToken (by rfl) found
  · exact ⟨terms, .inl ⟨key, vma, before, rfl, rfl⟩⟩
  · rcases region_register entered with before | rfl
    · exact ⟨terms, .inl ⟨key, vma, before, rfl, rfl⟩⟩
    · exact ⟨terms, .inr registers⟩

/-- A call that leaves a token alone leaves its regions and terms alone. -/
theorem regionOrigin_of_token_eq {state : KernelState} {call : KernelCall} {ref : Ref} {key : U64}
    {vma : Vma} (same : (state.after call).token ref = state.token ref)
    (found : ((state.after call).token ref).vmas[key]? = some vma) :
    ((state.after call).token ref).charter = (state.token ref).charter ∧
      state.RegionOrigin call ref vma := by
  rw [same] at found ⊢
  exact ⟨rfl, .inl ⟨key, vma, found, rfl, rfl⟩⟩

/-- A new token has no regions. -/
theorem regionOrigin_addChild {state : KernelState} {request : ChildRequest} {ref : Ref} {key : U64}
    {vma : Vma} (next : (state.createChildToken request).state = state.addChild request)
    (found : ((state.after (.createChildToken request)).token ref).vmas[key]? = some vma) :
    ((state.after (.createChildToken request)).token ref).charter = (state.token ref).charter ∧
      state.RegionOrigin (.createChildToken request) ref vma := by
  change ((state.createChildToken request).state.token ref).vmas[key]? = some vma at found
  rw [next, token_addChild_of_eq Token.vmas fun _ _ => rfl] at found
  by_cases new : ref = state.tokenCells.next
  · rw [new, Arena.read_alloc_next] at found
    exact absurd found (by simp [ChildRequest.newToken])
  · rw [Arena.read_alloc_of_ne _ new] at found
    refine ⟨?_, .inl ⟨key, vma, found, rfl, rfl⟩⟩
    change ((state.createChildToken request).state.token ref).charter = _
    rw [next, token_addChild_of_eq Token.charter fun _ _ => rfl, Arena.read_alloc_of_ne _ new]
    rfl

/-- A fault replaces a region by the same one with its backing. -/
theorem regionOrigin_backed {state : KernelState} {faultAddr phys start : U64} {errorCode : U32}
    {owner ref : Ref} {key : U64} {old vma : Vma}
    (faulted : state.faultVma faultAddr = some (owner, start, old))
    (next : (state.handlePageFault faultAddr errorCode phys).state = state.setToken owner
      { state.token owner with
        vmas := (state.token owner).vmas.insert start { old with physPtr := phys } })
    (found : ((state.after (.handlePageFault faultAddr errorCode phys)).token ref).vmas[key]? =
      some vma) :
    ((state.after (.handlePageFault faultAddr errorCode phys)).token ref).charter =
        (state.token ref).charter ∧
      state.RegionOrigin (.handlePageFault faultAddr errorCode phys) ref vma := by
  change ((state.handlePageFault faultAddr errorCode phys).state.token ref).vmas[key]? = _ at found
  change ((state.handlePageFault faultAddr errorCode phys).state.token ref).charter = _ ∧ _
  rw [next] at found ⊢
  obtain ⟨terms, before | ⟨rfl, entered⟩⟩ := region_setToken (by rfl) found
  · exact ⟨terms, .inl ⟨key, vma, before, rfl, rfl⟩⟩
  · refine ⟨terms, .inl ?_⟩
    rw [TreeMap.getElem?_insert] at entered
    split_ifs at entered
    · cases entered
      exact ⟨start, old, vma_of_faultVma faulted, rfl, rfl⟩
    · exact ⟨key, vma, entered, rfl, rfl⟩

/-- **What a call can do to the regions of a token.** Every region after the
call was there before or is registered by it, and its token keeps its terms. -/
theorem regionOrigin_after {state : KernelState} {call : KernelCall} {ref : Ref} {key : U64}
    {vma : Vma} (found : ((state.after call).token ref).vmas[key]? = some vma) :
    ((state.after call).token ref).charter = (state.token ref).charter ∧
      state.RegionOrigin call ref vma := by
  have unchanged (same : state.after call = state) :=
    regionOrigin_of_token_eq (congrArg (·.token ref) same) found
  cases call with
  | createChildToken request =>
      rcases state.createChildToken_cases request with ⟨_, same⟩ | ⟨_, next⟩
      · exact unchanged same
      · exact regionOrigin_addChild next found
  | runProcess tokenId sessionTicks =>
      rcases state.runProcess_cases tokenId sessionTicks with same | ⟨owner, _, _, next⟩
      · exact unchanged same
      · change ((state.runProcess tokenId sessionTicks).state.token ref).vmas[key]? = _ at found
        rw [next, token_startSession_of_eq Token.vmas fun _ _ => rfl] at found
        refine ⟨?_, .inl ⟨key, vma, found, rfl, rfl⟩⟩
        change ((state.runProcess tokenId sessionTicks).state.token ref).charter = _
        rw [next, charter_startSession]
  | kernelTick frame =>
      refine ⟨state.charter_tick frame ref, .inl ⟨key, vma, ?_, rfl, rfl⟩⟩
      change ((state.tick frame).state.token ref).vmas[key]? = some vma at found
      rcases state.vmas_tick frame ref with kept | taken
      · exact kept ▸ found
      · rw [taken] at found
        exact absurd found (by simp)
  | ipcSend portId sessionId msg =>
      refine regionOrigin_of_token_eq ?_ found
      simp only [after, ipcSend]
      split <;> rfl
  | ipcRecv portId receiver =>
      refine regionOrigin_of_token_eq ?_ found
      simp only [after, ipcRecv]
      split <;> rfl
  | memAlloc tokenId reqCap size vaddr =>
      rcases state.memAlloc_cases tokenId reqCap size vaddr with
        same | ⟨owner, known, admitted, next⟩
      · exact unchanged same
      · refine regionOrigin_register ?_ next found
        simp only [registers, known, admitted, Option.bind_eq_bind, Option.bind_some, ↓reduceIte]
        rfl
  | allocateMemory tokenId size isWriteable isExecutable phys =>
      rcases state.allocateMemory_cases tokenId size isWriteable isExecutable phys with
        ⟨_, same, _⟩ | ⟨owner, known, notBoth, backed, reply⟩
      · exact unchanged same
      · refine regionOrigin_register ?_ (congrArg Reply.state reply) found
        simp only [registers, known, notBoth, backed, Option.bind_eq_bind, Option.bind_some, ne_eq,
          not_false_eq_true, decide_true, Bool.not_false, Bool.and_self, ↓reduceIte]
        rfl
  | handlePageFault faultAddr errorCode phys =>
      rcases state.handlePageFault_cases faultAddr errorCode phys with
        ⟨_, same, _⟩ | ⟨owner, start, old, faulted, _, _, reply⟩
      · exact unchanged same
      · exact regionOrigin_backed faulted (congrArg Reply.state reply) found
  | cleanup tokenId =>
      rcases state.cleanup_cases tokenId with same | ⟨owner, _, next⟩
      · exact unchanged same
      · change ((state.cleanup tokenId).state.token ref).vmas[key]? = some vma at found
        change ((state.cleanup tokenId).state.token ref).charter = _ ∧ _
        rw [next] at found ⊢
        obtain ⟨terms, before | ⟨_, entered⟩⟩ := region_setToken (by rfl) found
        · exact ⟨terms, .inl ⟨key, vma, before, rfl, rfl⟩⟩
        · exact absurd entered (by simp)

/-- No token has a region at boot. -/
theorem vmas_boot (ref : Ref) : (boot.token ref).vmas.isEmpty = true := by
  by_cases first : ref = 0
  · subst first
    rfl
  · have older : boot.token ref = rootToken 0 := Arena.read_alloc_of_ne _ first _
    rw [older]
    rfl

/-- No token has a region as long as none is registered. -/
theorem vmas_run {state : KernelState} {calls : List KernelCall}
    (without : ∀ ref, (state.token ref).vmas.isEmpty = true)
    (silent : ∀ call ∈ calls, ∀ state : KernelState, state.registers call = none) (ref : Ref) :
    ((kernel.run state calls).token ref).vmas.isEmpty = true := by
  have along : kernel.Along (fun state call => state.registers call = none) state calls :=
    System.along_of_forall silent
  refine System.invariant_run (fun state : KernelState =>
    ∀ ref, (state.token ref).vmas.isEmpty = true) (fun state call without none ref => ?_) without
    along ref
  refine TreeMap.isEmpty_iff_forall_not_mem.mpr fun key member => ?_
  obtain ⟨vma, found⟩ := Option.isSome_iff_exists.mp (TreeMap.isSome_getElem?_iff_mem.mpr member)
  obtain ⟨_, ⟨oldKey, old, before, _⟩ | registers⟩ := regionOrigin_after found
  · rw [TreeMap.getElem?_of_isEmpty (without ref)] at before
    cases before
  · cases none.symm.trans registers

/-- The sample tokens have no regions. -/
theorem vmas_populated (ref : Ref) : (populated.token ref).vmas.isEmpty = true := by
  refine vmas_run vmas_boot (fun call member state => ?_) ref
  rcases List.mem_cons.mp member with rfl | later
  · rfl
  · rw [List.eq_of_mem_replicate later]
    rfl

end KernelState

end Lofita.Kernel
