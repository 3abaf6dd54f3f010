import Lofita.Kernel.Simulator
import Lofita.Ppa.Simulator
import Mathlib.Order.Defs.LinearOrder
import Mathlib.Data.Int.Bitwise

/-! # The simulated kernel

`LorifaKernelSimulation` of `run_simulation.py`: tokens, sessions and regions whose numbers have
no width, over the simulated allocator, a dictionary for the page tables and the simulated
scheduler. The readings of the clock come from outside; a call takes as many as the source makes.
A call that raises an exception answers its text.
-/

namespace Lofita.Kernel

open Lofita.Foundation Lofita.Ppa

/-! ### The page dictionary and the allocator -/

/-- `PagingContext.mappings`. -/
abbrev SimPaging := Int → Option Nat

namespace SimPaging

/-- The pages of a size; a negative size has none. -/
def pageCount (size : Int) : Nat := ((size + pageSize - 1) / pageSize).toNat

/-- The pages of a range lead to the frames from an address on. -/
def map (virtualAddr : Int) (physicalAddr : Nat) (size : Int) (self : SimPaging) : SimPaging :=
  (List.range (pageCount size)).foldl
    (fun mappings (i : Nat) =>
      Function.update mappings (virtualAddr + i * pageSize) (some (physicalAddr + i * pageSize)))
    self

/-- The pages of a range lead nowhere. -/
def unmap (virtualAddr size : Int) (self : SimPaging) : SimPaging :=
  (List.range (pageCount size)).foldl
    (fun mappings (i : Nat) => Function.update mappings (virtualAddr + i * pageSize) none) self

end SimPaging

/-- A call of the block allocator, with its answer. -/
inductive PoolCall where
  | alloc (pages : Int) (answer : Option Nat)
  | free (addr : Nat) (pages : Int)
deriving DecidableEq, Repr

/-- The allocator, and the calls made of it so far, the latest first. -/
structure SimPool where
  allocator : BuddyAllocator
  calls : List PoolCall

namespace SimPool

/-- A negative number of pages is less than the least block, and gets one. -/
def alloc (pages : Int) (self : SimPool) : Option Nat × SimPool :=
  let (answer, allocator) := self.allocator.alloc (if pages < 0 then 1 else pages.toNat)
  (answer, { allocator, calls := .alloc pages answer :: self.calls })

/-- A call that gives a block back is written down. -/
def free (addr : Nat) (pages : Int) (self : SimPool) : SimPool where
  allocator := self.allocator.free (some addr) pages.toNat
  calls := .free addr pages :: self.calls

end SimPool

/-! ### Tokens and sessions -/

/-- Times in an order: a time that is not a number, which compares with nothing, is left out.
Their sums and differences may be rounded, and no law of them is used. -/
class Clock (Time : Type) extends LinearOrder Time, Zero Time, Add Time, Sub Time

instance : Clock Int where

namespace SimCapability

/-- The capabilities that the simulator asks for. -/
def memAlloc : Nat := 1 <<< 0

def sysAdmin : Nat := 1 <<< 6

def drvMmio : Nat := 1 <<< 7

def wineBridge : Nat := 1 <<< 8

/-- What a user's token cannot delegate. -/
def dangerous : Nat := sysAdmin ||| drvMmio ||| wineBridge

end SimCapability

/-- A region of a token. -/
structure SimVma where
  startAddr : Int
  size : Int
  physPtr : Nat
deriving DecidableEq, Repr

/-- A token of the simulator, over its kind of time. -/
structure SimToken (Time : Type) where
  name : String
  privilege : PrivilegeLevel
  parentId : Option Nat
  memoryLimit : Int
  memoryUsed : Int
  isPermanent : Bool
  expiry : Time
  capabilities : Nat
  vmas : List SimVma
  runCount : Nat

/-- A session refers to its token, which may have left the token table. -/
structure SimSession (Time : Type) where
  id : Nat
  token : Nat
  expiry : Time
  isActive : Bool

/-- The arguments of `create_token`. -/
structure SimTokenRequest (Time : Type) where
  name : String
  privilege : PrivilegeLevel
  parentId : Option Nat
  memoryLimit : Int
  isPermanent : Bool
  lifetimeSeconds : Time
  capabilities : Nat

/-- The simulated kernel: the token objects by their ids, which are never used again, the ids in
the token table, and the sessions, both in the order of their creation. -/
structure KernelSimulation (Time : Type) where
  pool : SimPool
  paging : SimPaging
  scheduler : Simulator
  object : Nat → SimToken Time
  tokens : List Nat
  sessions : List (SimSession Time)
  nextTokenId : Nat
  nextSessionId : Nat
  simulatedTimeOffset : Time

namespace KernelSimulation

variable {Time : Type} [Clock Time]

/-- `tokens.get`. -/
def token? (tokenId : Nat) (self : KernelSimulation Time) : Option (SimToken Time) :=
  if tokenId ∈ self.tokens then some (self.object tokenId) else none

/-- `sessions.get`. -/
def session? (sessionId : Nat) (self : KernelSimulation Time) : Option (SimSession Time) :=
  self.sessions.find? fun session => session.id = sessionId

/-- The record of a token is replaced. -/
def setToken (tokenId : Nat) (token : SimToken Time) (self : KernelSimulation Time) :
    KernelSimulation Time :=
  { self with object := Function.update self.object tokenId token }

/-- `current_time`, for a reading of the clock. -/
def currentTime (clock : Time) (self : KernelSimulation Time) : Time :=
  clock + self.simulatedTimeOffset

/-- What the parent of a new token does not permit. -/
def refusal (self : KernelSimulation Time) (request : SimTokenRequest Time) : Option String :=
  match request.parentId with
  | none =>
      if request.privilege ≠ .root ∧ 0 < self.tokens.length then
        some "Only Root token can be spawned without parent"
      else none
  | some parentId =>
      match self.token? parentId with
      | none => some "Parent token not found"
      | some parent =>
          match parent.privilege with
          | .process => some "Process token cannot spawn child tokens"
          | .user =>
              if request.privilege ≠ .process then some "User token can only spawn Process tokens"
              else if request.capabilities &&& SimCapability.dangerous ≠ 0 then
                some "User cannot delegate administrative/dangerous capabilities"
              else none
          | .admin =>
              if request.privilege = .root then some "Admin cannot spawn Root tokens" else none
          | .root => none

/-- The token that a request asks for. -/
def newToken (request : SimTokenRequest Time) (clock : Time) : SimToken Time where
  name := request.name
  privilege := request.privilege
  parentId := request.parentId
  memoryLimit := request.memoryLimit
  memoryUsed := 0
  isPermanent := request.isPermanent
  expiry := clock + request.lifetimeSeconds
  capabilities := request.capabilities
  vmas := []
  runCount := 0

/-- The token with the next id enters the table. -/
def addToken (token : SimToken Time) (self : KernelSimulation Time) : KernelSimulation Time :=
  { self.setToken self.nextTokenId token with
    tokens := self.tokens ++ [self.nextTokenId]
    nextTokenId := self.nextTokenId + 1 }

/-- `create_token`. -/
def createToken (request : SimTokenRequest Time) (clock : Time) (self : KernelSimulation Time) :
    Except String (Nat × KernelSimulation Time) :=
  match self.refusal request with
  | some text => .error text
  | none => .ok (self.nextTokenId, self.addToken (newToken request clock))

/-- `get_random_aslr_offset`, a page offset made from the seed. -/
def getRandomAslrOffset (seed : Int) : Int :=
  let rand := (1_103_515_245 * seed + 12_345) % (1 <<< 31)
  (rand % 1024) * pageSize

/-- Where the next region of a token starts. -/
def nextVirtualAddr (tokenId : Nat) (memoryUsed : Int) : Int :=
  0x2000_0000 + tokenId * 0x100_0000 + memoryUsed + getRandomAslrOffset (Int.xor tokenId memoryUsed)

/-- The region is mapped and charged to the token. -/
def register (tokenId : Nat) (vma : SimVma) (self : KernelSimulation Time) :
    KernelSimulation Time :=
  let token := self.object tokenId
  { self.setToken tokenId
      { token with vmas := token.vmas ++ [vma], memoryUsed := token.memoryUsed + vma.size } with
    paging := self.paging.map vma.startAddr vma.physPtr vma.size }

/-- `allocate_memory`. -/
def allocateMemory (tokenId : Nat) (size : Int) (isWriteable isExecutable : Bool)
    (self : KernelSimulation Time) : Except String Int × KernelSimulation Time :=
  match self.token? tokenId with
  | none => (.error "Token not found", self)
  | some token =>
      if token.capabilities &&& SimCapability.memAlloc = 0 then
        (.error "Token lacks MEM_ALLOC capability", self)
      else if token.memoryLimit < token.memoryUsed + size then
        (.error s!"Memory limit exceeded for Token {tokenId}", self)
      else if isWriteable ∧ isExecutable then (.error "W^X violation", self)
      else
        let pagesNeeded := (size + pageSize - 1) / pageSize
        match self.pool.alloc pagesNeeded with
        | (none, pool) => (.error "Physical memory exhausted", { self with pool })
        | (some physPtr, pool) =>
            let startAddr := nextVirtualAddr tokenId token.memoryUsed
            (.ok startAddr,
              { self with pool }.register tokenId ⟨startAddr, pagesNeeded * pageSize, physPtr⟩)

/-- A thread of a session starts. -/
def spawn (sessionId : Nat) (name : String) (rip : Nat) (self : KernelSimulation Time) :
    KernelSimulation Time :=
  { self with scheduler := (self.scheduler.spawn sessionId name rip).2 }

/-- The next session starts, with its first thread. -/
def startSession (tokenId : Nat) (expiry : Time) (self : KernelSimulation Time) :
    KernelSimulation Time :=
  let token := self.object tokenId
  let self := self.setToken tokenId { token with runCount := token.runCount + 1 }
  let session : SimSession Time :=
    { id := self.nextSessionId, token := tokenId, expiry, isActive := true }
  { self with
    sessions := self.sessions ++ [session]
    nextSessionId := self.nextSessionId + 1 }.spawn session.id token.name 0x1000_0000

/-- `run_process`; the clock is read to check the token and again for the session. -/
def runProcess (tokenId : Nat) (sessionLifetime checked created : Time)
    (self : KernelSimulation Time) : Except String (Nat × KernelSimulation Time) :=
  match self.token? tokenId with
  | none => .error "Token not found"
  | some token =>
      if ¬ token.isPermanent ∧ token.expiry < self.currentTime checked then
        .error "Cannot run process: Token has expired"
      else if 2 ≤ token.runCount then
        .error s!"Token {tokenId} usage exceeded limit (2 runs max). Relaunch rejected."
      else .ok (self.nextSessionId, self.startSession tokenId (created + sessionLifetime))

/-- `check_capability`; the clock is read for the session and again for the token. -/
def checkCapability (sessionId capBit : Nat) (forSession forToken : Time)
    (self : KernelSimulation Time) : Bool :=
  match self.session? sessionId with
  | none => false
  | some session =>
      if ¬ session.isActive then false
      else if session.expiry < self.currentTime forSession then false
      else
        let token := self.object session.token
        if ¬ token.isPermanent ∧ token.expiry < self.currentTime forToken then false
        else token.capabilities &&& capBit ≠ 0

/-! ### The tick -/

/-- `terminate_session_threads`. -/
def terminateSessionThreads (sessionId : Nat) (self : KernelSimulation Time) :
    KernelSimulation Time :=
  { self with
    scheduler := { self.scheduler with
      threads := self.scheduler.threads.filter fun thread => thread.sessionId ≠ sessionId } }

/-- A session ends, with its threads. -/
def endSession (self : KernelSimulation Time) (sessionId : Nat) : KernelSimulation Time :=
  let sessions := self.sessions.map fun session =>
    if session.id = sessionId then { session with isActive := false } else session
  { self with sessions }.terminateSessionThreads sessionId

/-- The region is unmapped and its block freed. -/
def reclaimRegion (self : KernelSimulation Time) (vma : SimVma) : KernelSimulation Time :=
  { self with
    paging := self.paging.unmap vma.startAddr vma.size
    pool := self.pool.free vma.physPtr (vma.size / pageSize) }

/-- The token leaves the table with its sessions and regions. -/
def reclaimToken (self : KernelSimulation Time) (tokenId : Nat) : KernelSimulation Time :=
  let ended := self.sessions.filter fun session => session.token = tokenId
  let self := { self with tokens := self.tokens.erase tokenId }
  let self := (ended.map SimSession.id).foldl endSession self
  let token := self.object tokenId
  let self := token.vmas.foldl reclaimRegion self
  self.setToken tokenId { token with vmas := [] }

/-- The token has run out at a time. -/
def tokenExpired (now : Time) (token : SimToken Time) : Bool :=
  ¬ token.isPermanent ∧ token.expiry - now ≤ 0

/-- `tick`: the thread that runs next. -/
def tick (clock : Time) (self : KernelSimulation Time) :
    Option SimThread × KernelSimulation Time :=
  let now := self.currentTime clock
  let expiredTokens := self.tokens.filter fun tokenId => tokenExpired now (self.object tokenId)
  let self := expiredTokens.foldl reclaimToken self
  let timedOut := self.sessions.filter fun session => session.isActive ∧ session.expiry < now
  let self := (timedOut.map SimSession.id).foldl endSession self
  let (thread, scheduler) := self.scheduler.scheduleNext
  (thread, { self with scheduler })

/-- `LorifaKernelSimulation()` at a reading of the clock: the root token alone, with the lifetime
that it is given. -/
def init (clock lifetimeSeconds : Time) : KernelSimulation Time :=
  let root : SimToken Time := newToken
    { name := "RootSystem", privilege := .root, parentId := none, memoryLimit := 2 ^ 64
      isPermanent := true, lifetimeSeconds, capabilities := 0x1FF } clock
  { pool := { allocator := .init, calls := [] }
    paging := fun _ => none
    scheduler := .init
    object := fun _ => root
    tokens := [1]
    sessions := []
    nextTokenId := 2
    nextSessionId := 1
    simulatedTimeOffset := 0 }

end KernelSimulation

/-! ### The commands of the shell -/

/-- `WineSyscallTranslator`, for a session. -/
structure SimTranslator where
  sessionId : Nat
  heapBrk : Int
  heapLimit : Int

namespace SimTranslator

variable {Time : Type} [Clock Time]

/-- A translator as it is made for a session. -/
def new (sessionId : Nat) : SimTranslator where
  sessionId := sessionId
  heapBrk := 0x4000_0000
  heapLimit := 0x4000_0000

/-- `allocate_memory` for the token of the session. -/
def allocate (length : Int) (self : SimTranslator) (kernel : KernelSimulation Time) :
    Except String Int × KernelSimulation Time :=
  match kernel.session? self.sessionId with
  | none => (.error "KeyError", kernel)
  | some session => kernel.allocateMemory session.token length true false

def sysBrk (newBrk : Int) (forSession forToken : Time) (self : SimTranslator)
    (kernel : KernelSimulation Time) : Int × SimTranslator × KernelSimulation Time :=
  if newBrk = 0 then (self.heapBrk, self, kernel)
  else if ¬ kernel.checkCapability self.sessionId SimCapability.memAlloc forSession forToken then
    (-12, self, kernel)
  else if newBrk < self.heapBrk then (-22, self, kernel)
  else if self.heapLimit < newBrk then
    let needed := newBrk - self.heapLimit
    match self.allocate needed kernel with
    | (.error _, kernel) => (-12, self, kernel)
    | (.ok allocated, kernel) =>
        (newBrk, { self with heapLimit := allocated + needed, heapBrk := newBrk }, kernel)
  else (newBrk, { self with heapBrk := newBrk }, kernel)

def sysMmap (length : Int) (forSession forToken : Time) (self : SimTranslator)
    (kernel : KernelSimulation Time) : Int × KernelSimulation Time :=
  if ¬ kernel.checkCapability self.sessionId SimCapability.memAlloc forSession forToken then
    (-12, kernel)
  else
    match self.allocate length kernel with
    | (.error _, kernel) => (-12, kernel)
    | (.ok virtualAddr, kernel) => (virtualAddr, kernel)

end SimTranslator

namespace KernelSimulation

variable {Time : Type} [Clock Time]

/-- `run-exe`, up to the calls on files and sockets: the readings of the clock are numbered. -/
def runExe (sessionId : Nat) (clock : Nat → Time) (self : KernelSimulation Time) :
    KernelSimulation Time :=
  match self.session? sessionId with
  | none => self
  | some session =>
      if ¬ session.isActive ∨ session.expiry < self.currentTime (clock 0) then self
      else if (self.object session.token).capabilities &&& SimCapability.wineBridge = 0 then self
      else
        let translator := SimTranslator.new sessionId
        let self := self.spawn sessionId "WineLoaderMain" 0x3000_0000
        let (_, translator, self) := translator.sysBrk 0x4000_8000 (clock 1) (clock 2) self
        (translator.sysMmap (4096 * 4) (clock 3) (clock 4) self).2

/-- `webview open`. -/
def webview (sessionId : Nat) (forSession forToken : Time) (self : KernelSimulation Time) :
    KernelSimulation Time :=
  if self.checkCapability sessionId SimCapability.memAlloc forSession forToken then
    self.spawn sessionId "WebKitRenderTask" 0xD000_0000
  else self

end KernelSimulation

/-- What the shell does with the kernel. -/
inductive SimCall (Time : Type) where
  | createToken (request : SimTokenRequest Time) (clock : Time)
  | allocateMemory (tokenId : Nat) (size : Int) (isWriteable isExecutable : Bool)
  | runProcess (tokenId : Nat) (sessionLifetime checked created : Time)
  | send (portId senderSession : Nat) (payload : String)
  | recv (portId threadId : Nat)
  | runExe (sessionId : Nat) (clock : Nat → Time)
  | webview (sessionId : Nat) (forSession forToken : Time)
  | tick (seconds clock : Time)

/-- The simulated kernel under the calls of the shell. -/
def simulation (Time : Type) [Clock Time] :
    System (KernelSimulation Time) (SimCall Time) where
  step self
    | .createToken request clock =>
        match self.createToken request clock with
        | .error _ => self
        | .ok (_, after) => after
    | .allocateMemory tokenId size isWriteable isExecutable =>
        (self.allocateMemory tokenId size isWriteable isExecutable).2
    | .runProcess tokenId sessionLifetime checked created =>
        match self.runProcess tokenId sessionLifetime checked created with
        | .error _ => self
        | .ok (_, after) => after
    | .send portId senderSession payload =>
        { self with scheduler := (self.scheduler.send portId senderSession payload).2 }
    | .recv portId threadId => { self with scheduler := (self.scheduler.recv portId threadId).2 }
    | .runExe sessionId clock => self.runExe sessionId clock
    | .webview sessionId forSession forToken => self.webview sessionId forSession forToken
    | .tick seconds clock =>
        ({ self with simulatedTimeOffset := self.simulatedTimeOffset + seconds }.tick clock).2

end Lofita.Kernel
