import Lofita.Kernel.Ipc
import Lofita.Kernel.Sched
import Lofita.Kernel.Token

/-! # The kernel state and its tokens

The state behind the kernel lock (`lib.rs`) and the entry points that create
tokens and sessions and answer capability queries. Hash maps are ordered maps
here; no entry point depends on the order of a hash map. A name that is not
UTF-8 arrives as `none`.
-/

namespace Lofita.Kernel

open Lofita.Foundation Std

structure KernelState where
  tokenCells : Arena Token
  tokens : TreeMap U64 Ref
  sessions : TreeMap U64 Session
  scheduler : Scheduler
  ipc : IpcSubsystem
  nextTokenId : U64
  nextSessionId : U64
  tickCount : U64

/-- What an entry point returns, the state it leaves and the calls it makes into
the memory managers, in order. -/
structure Reply (α : Type) where
  value : α
  state : KernelState
  ffi : List FfiCall := []

/-- The token all authority descends from. -/
def rootToken (id : U64) : Token where
  id := id
  name := "RootSystem"
  privilege := .root
  parent := none
  children := []
  vmas := ∅
  pml4PhysAddr := 0
  memoryLimit := U64.max
  memoryUsed := 0
  isPermanent := true
  expiryTick := U64.max
  capabilities := .all
  runCount := 0
  isDeprecated := false

namespace KernelState

/-- The state before `rust_kernel_init`. -/
def new : KernelState where
  tokenCells := .empty (rootToken 0)
  tokens := ∅
  sessions := ∅
  scheduler := .new
  ipc := .new
  nextTokenId := 1
  nextSessionId := 1
  tickCount := 0

/-- The part of `rust_kernel_init` that creates the root token. -/
def init (state : KernelState) : KernelState :=
  { state with
    tokenCells := state.tokenCells.alloc (rootToken state.nextTokenId)
    tokens := state.tokens.insert state.nextTokenId state.tokenCells.next
    nextTokenId := state.nextTokenId + 1 }

/-- The state the kernel boots into. -/
def boot : KernelState := new.init

/-- The token cell behind a reference. -/
def token (state : KernelState) (ref : Ref) : Token := state.tokenCells.read ref

/-- The thread cell behind a reference. -/
def thread (state : KernelState) (ref : Ref) : Thread := state.scheduler.cells.read ref

end KernelState

/-- The arguments of `rust_create_child_token`. -/
structure ChildRequest where
  callerSessionId : U64
  name : Option String
  privilegeVal : U32
  parentId : U64
  memLimit : U64
  capFlags : U32
  lifetimeTicks : U64
deriving DecidableEq, Repr

namespace ChildRequest

/-- The session that makes the request is bound to a token with the parent's id. -/
def callerValid (request : ChildRequest) (state : KernelState) : Bool :=
  match state.sessions[request.callerSessionId]? with
  | some session => (state.token session.token).id = request.parentId
  | none => false

/-- The inheritance checks against a parent found in the token table. -/
def permitted (request : ChildRequest) (parent : Token) : Bool :=
  ¬ parent.privilege.asU32 > request.privilegeVal ∧
    parent.capabilities.bits &&& request.capFlags = request.capFlags

/-- The token a granted request creates. -/
def newToken (request : ChildRequest) (state : KernelState) : Token where
  id := state.nextTokenId
  name := request.name.getD "unknown"
  privilege := .ofVal request.privilegeVal
  parent := state.tokens[request.parentId]?
  children := []
  vmas := ∅
  pml4PhysAddr := 0
  memoryLimit := request.memLimit
  memoryUsed := 0
  isPermanent := false
  expiryTick := state.tickCount + request.lifetimeTicks
  capabilities := .fromBitsTruncate request.capFlags
  runCount := 0
  isDeprecated := false

end ChildRequest

namespace KernelState

/-- Enter a new token in the token table, and with the parent if there is one. -/
def addChild (state : KernelState) (request : ChildRequest) : KernelState :=
  let ref := state.tokenCells.next
  let created := state.tokenCells.alloc (request.newToken state)
  { state with
    tokenCells :=
      match state.tokens[request.parentId]? with
      | some parent =>
          created.modify parent fun token => { token with children := token.children ++ [ref] }
      | none => created
    tokens := state.tokens.insert state.nextTokenId ref
    nextTokenId := state.nextTokenId + 1 }

/-- A request is granted to a caller that owns the parent; the inheritance checks
are made only against a parent that is in the token table. -/
def grants (state : KernelState) (request : ChildRequest) : Bool :=
  request.callerValid state &&
    match state.tokens[request.parentId]? with
    | some parent => request.permitted (state.token parent)
    | none => true

/-- `rust_create_child_token`. -/
def createChildToken (state : KernelState) (request : ChildRequest) : Reply U64 :=
  if state.grants request then
    { value := state.nextTokenId, state := state.addChild request }
  else { value := 0, state }

/-- The session `rust_run_process` starts. -/
def newSession (state : KernelState) (token : Ref) (sessionTicks : U64) : Session where
  id := state.nextSessionId
  token := token
  expiryTick := state.tickCount + sessionTicks
  isActive := true

/-- Start a session and a thread for a token. -/
def startSession (state : KernelState) (token : Ref) (sessionTicks : U64) : KernelState :=
  { state with
    tokenCells := state.tokenCells.modify token fun cell =>
      { cell with runCount := cell.runCount + 1 }
    sessions := state.sessions.insert state.nextSessionId (state.newSession token sessionTicks)
    scheduler :=
      (state.scheduler.spawn state.nextSessionId (state.token token).name 0x1000_0000).2
    nextSessionId := state.nextSessionId + 1 }

/-- `rust_run_process`: a token may be run twice. -/
def runProcess (state : KernelState) (tokenId sessionTicks : U64) : Reply U64 :=
  match state.tokens[tokenId]? with
  | none => { value := 0, state }
  | some token =>
      if (state.token token).runCount ≥ 2 then { value := 0, state }
      else { value := state.nextSessionId, state := state.startSession token sessionTicks }

/-- `rust_check_capability`. -/
def checkCapability (state : KernelState) (sessionId : U64) (capVal : U32) : Bool :=
  match state.sessions[sessionId]? with
  | none => false
  | some session =>
      if !session.isActive || state.tickCount > session.expiryTick then false
      else (state.token session.token).capabilities.contains (.fromBitsTruncate capVal)

/-- `rust_ipc_send`: the id of the woken thread, or 0. A payload that is not
UTF-8 is sent as the empty string. -/
def ipcSend (state : KernelState) (portId : U32) (sessionId : U64) (msg : Option String) :
    Reply U32 :=
  let (woken, ipc) := state.ipc.send portId sessionId (msg.getD "")
  match woken with
  | some id =>
      { value := id
        state := { state with ipc, scheduler := state.scheduler.setStateOf id .ready } }
  | none => { value := 0, state := { state with ipc } }

/-- `rust_ipc_recv`: 1 for a message, 0 when the caller now waits. -/
def ipcRecv (state : KernelState) (portId receiverThreadId : U32) : Reply U32 :=
  let (message, ipc) := state.ipc.recv portId receiverThreadId
  match message with
  | some _ => { value := 1, state := { state with ipc } }
  | none =>
      { value := 0
        state := { state with
          ipc
          scheduler := state.scheduler.setStateOf receiverThreadId .blocked } }

end KernelState

end Lofita.Kernel
