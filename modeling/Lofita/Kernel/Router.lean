import Lofita.Kernel.Heap
import Lofita.Kernel.Syscall

/-! # The router of the compatibility layer

`SyscallRouter::route` (`compat/linux/src/syscall/mod.rs`) translates system calls to calls
of the kernel, which report a failure by returning 0. The translations beside it, `sys_open`
and `sys_mmap`, turn this 0 into an error number; the router hands it on as the result. A
failure is therefore reported as an error exactly where there is none, or where the router
refuses the call itself (`route_reports_iff`).
-/

namespace Lofita.Kernel

open Lofita.Foundation Lofita.Foundation.Fallible Lofita.Fs Std

namespace Syscall

/-- `rust_allocate_memory`, with the answer of `phys_alloc`. -/
def allocateMemory (tokenId size : U64) (isWriteable isExecutable : Bool) (phys : U64) :
    Syscall U64 := do
  let machine ← get
  let reply := machine.kernel.allocateMemory tokenId size isWriteable isExecutable phys
  set { machine with kernel := reply.state }
  return reply.value

/-- `rust_create_child_token`. -/
def createChildToken (request : ChildRequest) : Syscall U64 := do
  let machine ← get
  let reply := machine.kernel.createChildToken request
  set { machine with kernel := reply.state }
  return reply.value

end Syscall

/-- `FsSyscalls::sys_open`; a string is its pointer and its length. -/
def FsSyscalls.sysOpen (sessionId pathPtr pathLen : U64) (isWrite : Bool) : Syscall Int := do
  let fd ← Syscall.vfsOpen sessionId pathPtr pathLen (if isWrite then 1 else 0)
  if fd = 0 then return -2 else return fd.toNat

/-- `MemorySyscalls::sys_mmap`. -/
def MemorySyscalls.sysMmap (tokenId length phys : U64) : Syscall Int := do
  let allocated ← Syscall.allocateMemory tokenId length true false phys
  if allocated = 0 then return -12 else return allocated.toInt

def NetSyscalls.sysSocket (processId : U32) (hasNetConnect : Bool) : Int :=
  if !hasNetConnect then -13 else (200 + processId).toNat

def ProcessSyscalls.sysExit (_processId : U32) (_code : U64) : Int := 0

/-- The routines a router calls keep the heap of `sys_brk` only. -/
structure SyscallRouter where
  memory : MemorySyscalls

/-- The request that `fork` makes. -/
def forkRequest (sessionId tokenId : U64) : ChildRequest where
  callerSessionId := sessionId
  name := some "fork-child"
  privilegeVal := 3
  parentId := tokenId
  memLimit := 64 * 1024 * 1024
  capFlags := 0b0001_1111
  lifetimeTicks := 100_000

namespace SyscallRouter

/-- A router as it is made. -/
def new : SyscallRouter := { memory := .new }

/-- `open`: the flags are in the third argument, and the length of the path in the second. -/
def routeOpen (args : Vector U64 6) (sessionId : U64) : Syscall Int := do
  if args[0] = 0 ∨ args[0] < 0x1000 then
    return -14
  let isWrite : Bool := (args[2] &&& (1 ||| 2)) ≠ 0
  return (← Syscall.vfsOpen sessionId args[0] args[1] (if isWrite then 1 else 0)).toNat

def routeMmap (args : Vector U64 6) (tokenId phys : U64) : Syscall Int := do
  let prot := args[2]
  let isWrite : Bool := (prot &&& 2) ≠ 0
  let isExec : Bool := (prot &&& 4) ≠ 0
  return (← Syscall.allocateMemory tokenId args[1] isWrite isExec phys).toInt

def routeFork (sessionId tokenId : U64) : Syscall Int := do
  return (← Syscall.createChildToken (forkRequest sessionId tokenId)).toInt

def routeBrk (router : SyscallRouter) (args : Vector U64 6) (tokenId phys : U64) :
    Syscall (Int × SyscallRouter) := do
  let machine ← get
  let reply := router.memory.sysBrk machine.kernel tokenId args[0] phys
  set { machine with kernel := reply.state }
  return (reply.value.1, { memory := reply.value.2 })

def routeConnect (sessionId : U64) : Syscall Int := do
  if !(← Syscall.checkCapability sessionId (1 <<< 4)) then
    return -1
  return -38

/-- `SyscallRouter::route`, with the answer of `phys_alloc`. -/
def route (fuel : Nat) (router : SyscallRouter) (nr : U64) (args : Vector U64 6)
    (sessionId tokenId phys : U64) : Syscall (Int × SyscallRouter) := do
  if nr = 0 then
    return ((← Syscall.vfsRead fuel sessionId (args[0].setWidth 32) args[1] args[2]).toInt, router)
  else if nr = 1 then
    return ((← Syscall.vfsWrite sessionId (args[0].setWidth 32) args[1] args[2]).toInt, router)
  else if nr = 2 then
    return (← routeOpen args sessionId, router)
  else if nr = 3 then
    return ((← Syscall.vfsClose sessionId (args[0].setWidth 32)).toInt, router)
  else if nr = 9 then
    return (← routeMmap args tokenId phys, router)
  else if nr = 11 then
    return (0, router)
  else if nr = 12 then
    router.routeBrk args tokenId phys
  else if nr = 57 then
    return (← routeFork sessionId tokenId, router)
  else if nr = 59 then
    return (-38, router)
  else if nr = 60 ∨ nr = 231 then
    return (ProcessSyscalls.sysExit 0 args[0], router)
  else if nr = 41 then
    return (NetSyscalls.sysSocket 0 (← Syscall.checkCapability sessionId (1 <<< 4)), router)
  else if nr = 42 then
    return (← routeConnect sessionId, router)
  else if nr = 228 then
    return (0, router)
  else if nr = 39 then
    return (1, router)
  else if nr = 102 ∨ nr = 104 ∨ nr = 107 ∨ nr = 108 then
    return (0, router)
  else if nr = 16 then
    return (-25, router)
  else
    return (-38, router)

/-- What the router returns for a call. -/
def result (fuel : Nat) (router : SyscallRouter) (nr : U64) (args : Vector U64 6)
    (sessionId tokenId phys : U64) : Syscall Int :=
  Prod.fst <$> router.route fuel nr args sessionId tokenId phys

end SyscallRouter

/-! ### What a failure looks like -/

namespace Machine

variable (machine : Machine)

/-- The path behind a pointer, as `rust_vfs_open` reads it. -/
def path (ptr len : U64) : String :=
  (fromUtf8 ((List.range len.toNat).map fun i =>
    machine.memory (ptr + BitVec.ofNat 64 i))).getD "unknown"

/-- The session may open the path, and the path can be opened. -/
def MayOpen (sessionId ptr len : U64) (isWrite : Bool) : Prop :=
  machine.kernel.checkCapability sessionId
      (if isWrite then Capability.fsWrite else .fsRead).bits = true ∧
    machine.vfs.Accepts (machine.path ptr len) isWrite

instance (sessionId ptr len : U64) (isWrite : Bool) :
    Decidable (machine.MayOpen sessionId ptr len isWrite) :=
  inferInstanceAs (Decidable (_ ∧ _))

end Machine

namespace Syscall

variable {sessionId ptr len : U64} {isWrite : Bool} {machine : Machine}

/-- A call on descriptors that ends is written down. -/
theorem onDescriptors_ok {α : Type}
    {operation : VfsState → DriverManager → Checked (Except String α × VfsState)}
    {result : Except String α} {vfs : VfsState}
    (done : operation machine.vfs machine.driver = .ok (result, vfs)) :
    onDescriptors sessionId operation machine =
      .ok result { machine with vfs, accesses := .descriptors sessionId :: machine.accesses } := by
  refine ok_bind.mpr
    ⟨(), { machine with accesses := .descriptors sessionId :: machine.accesses }, rfl, ?_⟩
  rw [get_bind]
  simp only [done]
  rfl

/-- A path that can be opened gives the next descriptor, and any other gives 0. -/
theorem openPath_ok (sessionId : U64) (path : String) (isWrite : Bool) (machine : Machine) :
    ∃ final, openPath sessionId path isWrite machine =
      .ok (if machine.vfs.Accepts path isWrite then machine.vfs.nextFd else 0) final := by
  have opens {result : Except String U32} {vfs : VfsState}
      (done : machine.vfs.openFile sessionId path isWrite = (result, vfs)) :=
    @onDescriptors_ok sessionId machine U32 (fun vfs _ => .ok (vfs.openFile sessionId path isWrite))
      result vfs (congrArg Except.ok done)
  split_ifs with accepted
  · obtain ⟨created, _, _, opened⟩ := VfsState.openFile_of_accepts sessionId accepted
    exact ⟨_, ok_bind.mpr ⟨_, _, opens opened, rfl⟩⟩
  · obtain ⟨error, refused⟩ := VfsState.openFile_of_not_accepts sessionId accepted
    exact ⟨_, ok_bind.mpr ⟨_, _, opens refused, rfl⟩⟩

/-- The capability is checked after the path has been read. -/
theorem vfsOpen_eq (sessionId ptr len : U64) (isWrite : Bool) (machine : Machine) :
    vfsOpen sessionId ptr len (if isWrite then 1 else 0) machine =
      (if machine.kernel.checkCapability sessionId
          (if isWrite then Capability.fsWrite else .fsRead).bits then
        openPath sessionId (machine.path ptr len) isWrite
      else return 0)
        { machine with
          accesses := .capabilities sessionId :: .memory ptr len :: machine.accesses } := by
  cases isWrite with
  | false => rfl
  | true => rfl

/-- What `rust_vfs_open` returns. -/
theorem vfsOpen_ok (sessionId ptr len : U64) (isWrite : Bool) (machine : Machine) :
    ∃ final, vfsOpen sessionId ptr len (if isWrite then 1 else 0) machine =
      .ok (if machine.MayOpen sessionId ptr len isWrite then machine.vfs.nextFd else 0) final := by
  rw [vfsOpen_eq]
  by_cases capable : machine.kernel.checkCapability sessionId
      (if isWrite then Capability.fsWrite else .fsRead).bits = true
  · have opens : machine.MayOpen sessionId ptr len isWrite ↔
        machine.vfs.Accepts (machine.path ptr len) isWrite := and_iff_right capable
    obtain ⟨final, opened⟩ := openPath_ok sessionId (machine.path ptr len) isWrite
      { machine with accesses := .capabilities sessionId :: .memory ptr len :: machine.accesses }
    rw [if_pos capable, if_congr opens rfl rfl]
    exact ⟨final, opened⟩
  · rw [if_neg capable, if_neg fun mayOpen : machine.MayOpen _ _ _ _ => capable mayOpen.1]
    exact ⟨_, rfl⟩

end Syscall

/-! ### The answers of the router

`run'` gives the value that a call returns. -/

/-- If the service returns 0, the call returns a negative value. -/
def ReportsFailure {width : Nat} (service : Syscall (BitVec width)) (call : Syscall Int)
    (machine : Machine) : Prop :=
  service.run' machine = some 0 → ∃ value, call.run' machine = some value ∧ value < 0

/-- Both calls return the same value. -/
def AgreesWith (call other : Syscall Int) (machine : Machine) : Prop :=
  call.run' machine = other.run' machine

namespace SyscallRouter

/-- The mode in which the router opens a path. -/
def opensForWriting (args : Vector U64 6) : Bool := (args[2] &&& (1 ||| 2)) ≠ 0

/-- The protection asks for a writable mapping. -/
def asksToWrite (args : Vector U64 6) : Bool := (args[2] &&& 2) ≠ 0

/-- The protection asks for an executable one. -/
def asksToExecute (args : Vector U64 6) : Bool := (args[2] &&& 4) ≠ 0

end SyscallRouter

open SyscallRouter

/-- The token is in the table, the request passes W^X, and the allocator has a block for it
that does not go to address 0. -/
def KernelState.Allocates (state : KernelState) (args : Vector U64 6) (tokenId phys : U64) :
    Prop :=
  ∃ ref, state.tokens[tokenId]? = some ref ∧ ¬ (asksToWrite args ∧ asksToExecute args) ∧
    phys ≠ 0 ∧ (state.token ref).nextAddr ≠ 0

section Translations

variable {width : Nat} {service : Syscall (BitVec width)} {call other : Syscall Int}
  {machine : Machine} {answer : BitVec width} {value error : Int}

/-- Two calls in a row, by what each returns. -/
theorem Syscall.run'_bind {α β : Type} {first : Syscall α} {next : α → Syscall β} {given : α}
    {returned : β} (gives : first.run' machine = some given)
    (returns : ∀ middle, (next given).run' middle = some returned) :
    (first >>= next).run' machine = some returned := by
  obtain ⟨middle, done⟩ := run'_eq_some.mp gives
  obtain ⟨final, ended⟩ := run'_eq_some.mp (returns middle)
  exact run'_eq_some.mpr ⟨final, ok_bind.mpr ⟨given, middle, done, ended⟩⟩

/-- A failed call that returns 0 is not reported. -/
theorem not_reportsFailure_of_zero (failed : service.run' machine = some 0)
    (returned : call.run' machine = some 0) : ¬ ReportsFailure service call machine := by
  intro reports
  obtain ⟨value, isValue, negative⟩ := reports failed
  cases returned.symm.trans isValue
  exact absurd negative (Int.lt_irrefl 0)

/-- A call that hands the 0 on reports a failure only where there is none. -/
theorem reportsFailure_iff_of_handed_on (answers : service.run' machine = some answer)
    (handsOn : answer = 0 → call.run' machine = some 0) :
    ReportsFailure service call machine ↔ answer ≠ 0 := by
  constructor
  · rintro reports rfl
    exact not_reportsFailure_of_zero answers (handsOn rfl) reports
  · intro nonzero failed
    cases answers.symm.trans failed
    exact absurd rfl nonzero

/-- A call that hands the answer on agrees with one that turns 0 into an error number only
where the answer is not 0. -/
theorem agreesWith_iff_of_coded (handsOn : call.run' machine = some value)
    (codes : other.run' machine = some (if answer = 0 then error else value))
    (differs : answer = 0 → value ≠ error) : AgreesWith call other machine ↔ answer ≠ 0 := by
  unfold AgreesWith
  rw [handsOn, codes, Option.some.injEq]
  split_ifs with zero
  · exact iff_of_false (differs zero) (not_not_intro zero)
  · exact iff_of_true rfl zero

end Translations

section Answers

variable (fuel : Nat) (router : SyscallRouter) (args : Vector U64 6) (sessionId tokenId phys : U64)
  (machine : Machine)

/-- What `rust_vfs_open` answers the router. -/
def Machine.opened : U32 :=
  if machine.MayOpen sessionId args[0] args[1] (opensForWriting args) then machine.vfs.nextFd else 0

/-- The kernel's `open` returns what it opened. -/
theorem run'_vfsOpen :
    (Syscall.vfsOpen sessionId args[0] args[1] (if opensForWriting args then 1 else 0)).run'
      machine = some (machine.opened args sessionId) := by
  exact run'_eq_some.mpr
    (Syscall.vfsOpen_ok sessionId args[0] args[1] (opensForWriting args) machine)

/-- The kernel's allocation returns its address. -/
theorem run'_allocateMemory (size : U64) (isWriteable isExecutable : Bool) :
    (Syscall.allocateMemory tokenId size isWriteable isExecutable phys).run' machine =
      some (machine.kernel.allocateMemory tokenId size isWriteable isExecutable phys).value :=
  rfl

/-- The kernel's token call returns the child's number. -/
theorem run'_createChildToken (request : ChildRequest) :
    (Syscall.createChildToken request).run' machine =
      some (machine.kernel.createChildToken request).value :=
  rfl

theorem result_open :
    router.result fuel 2 args sessionId tokenId phys = routeOpen args sessionId := by
  change Prod.fst <$> (do return (← routeOpen args sessionId, router)) = _
  simp only [map_bind, map_pure, bind_pure]

theorem result_mmap :
    router.result fuel 9 args sessionId tokenId phys = routeMmap args tokenId phys := by
  change Prod.fst <$> (do return (← routeMmap args tokenId phys, router)) = _
  simp only [map_bind, map_pure, bind_pure]

theorem result_fork :
    router.result fuel 57 args sessionId tokenId phys = routeFork sessionId tokenId := by
  change Prod.fst <$> (do return (← routeFork sessionId tokenId, router)) = _
  simp only [map_bind, map_pure, bind_pure]

/-- A pointer into the first page is refused. -/
theorem run'_routeOpen_of_lt (low : args[0] < 0x1000) :
    (routeOpen args sessionId).run' machine = some (-14) := by
  unfold routeOpen
  rw [if_pos (.inr low)]
  rfl

/-- The descriptor is handed on. -/
theorem run'_routeOpen_of_le (high : 0x1000 ≤ args[0]) :
    (routeOpen args sessionId).run' machine = some (machine.opened args sessionId).toNat := by
  have accepted : ¬ (args[0] = 0 ∨ args[0] < 0x1000) := by
    rintro (null | low)
    · rw [null] at high
      exact absurd high (by decide)
    · exact absurd low (BitVec.not_lt.mpr high)
  unfold routeOpen
  rw [if_neg accepted]
  exact Syscall.run'_bind (run'_vfsOpen args sessionId machine) fun _ => rfl

/-- The error of `sys_open` takes the place of the descriptor 0. -/
theorem run'_sysOpen :
    (FsSyscalls.sysOpen sessionId args[0] args[1] (opensForWriting args)).run' machine =
      some (if machine.opened args sessionId = 0 then -2
        else ((machine.opened args sessionId).toNat : Int)) := by
  refine Syscall.run'_bind (run'_vfsOpen args sessionId machine) fun middle => ?_
  split_ifs with failed
  · rfl
  · rfl

/-- The routed `mmap` returns the kernel's address as it is. -/
theorem run'_routeMmap :
    (routeMmap args tokenId phys).run' machine =
      some (machine.kernel.allocateMemory tokenId args[1] (asksToWrite args) (asksToExecute args)
        phys).value.toInt :=
  rfl

/-- `sys_mmap` turns a failure into an error number. -/
theorem run'_sysMmap :
    (MemorySyscalls.sysMmap tokenId args[1] phys).run' machine =
      some (if (machine.kernel.allocateMemory tokenId args[1] true false phys).value = 0 then -12
        else (machine.kernel.allocateMemory tokenId args[1] true false phys).value.toInt) := by
  refine Syscall.run'_bind (run'_allocateMemory tokenId phys machine args[1] true false)
    fun middle => ?_
  split_ifs with failed
  · rfl
  · rfl

/-- The routed `fork` returns the kernel's number as it is. -/
theorem run'_routeFork :
    (routeFork sessionId tokenId).run' machine =
      some (machine.kernel.createChildToken (forkRequest sessionId tokenId)).value.toInt :=
  rfl

/-! ### When the services succeed -/

/-- When an `open` returns a descriptor. -/
theorem opened_ne_zero_iff :
    machine.opened args sessionId ≠ 0 ↔
      machine.MayOpen sessionId args[0] args[1] (opensForWriting args) ∧
        machine.vfs.nextFd ≠ 0 := by
  unfold Machine.opened
  split_ifs with mayOpen
  · exact (and_iff_right mayOpen).symm
  · exact iff_of_false (not_not_intro rfl) fun both => mayOpen both.1

/-- When an allocation returns an address. -/
theorem allocateMemory_ne_zero_iff :
    (machine.kernel.allocateMemory tokenId args[1] (asksToWrite args) (asksToExecute args)
        phys).value ≠ 0 ↔ machine.kernel.Allocates args tokenId phys := by
  unfold KernelState.allocateMemory KernelState.Allocates
  cases found : machine.kernel.tokens[tokenId]? with
  | none =>
      refine iff_of_false (not_not_intro rfl) ?_
      rintro ⟨_, isRef, _⟩
      cases isRef
  | some ref =>
      simp only [Option.some.injEq, exists_eq_left', Bool.and_eq_true]
      split_ifs with both exhausted
      · exact iff_of_false (not_not_intro rfl) fun allocates => allocates.1 both
      · exact iff_of_false (not_not_intro rfl) fun allocates => allocates.2.1 exhausted
      · exact ((and_iff_right both).trans (and_iff_right exhausted)).symm

/-- When a token call returns a number. -/
theorem createChildToken_ne_zero_iff (request : ChildRequest) :
    (machine.kernel.createChildToken request).value ≠ 0 ↔
      machine.kernel.grants request = true ∧ machine.kernel.nextTokenId ≠ 0 := by
  unfold KernelState.createChildToken
  split_ifs with granted
  · exact (and_iff_right granted).symm
  · exact iff_of_false (not_not_intro rfl) fun both => granted both.1

end Answers

/-- **When the router reports failures.** `open`, `mmap` and `fork` return a negative value
for a service that returns 0 exactly if the service does not return 0, or the router refuses
the pointer itself; and `open` and `mmap` agree with `sys_open` and `sys_mmap` exactly if
the service succeeds. -/
theorem route_reports_iff (fuel : Nat) (router : SyscallRouter) (args : Vector U64 6)
    (sessionId tokenId phys : U64) (machine : Machine) :
    let result nr := router.result fuel nr args sessionId tokenId phys
    let isWrite := opensForWriting args
    let opens := machine.MayOpen sessionId args[0] args[1] isWrite ∧ machine.vfs.nextFd ≠ 0
    let allocates := machine.kernel.Allocates args tokenId phys
    let asksForData := asksToWrite args = true ∧ asksToExecute args = false
    (ReportsFailure (Syscall.vfsOpen sessionId args[0] args[1] (if isWrite then 1 else 0))
        (result 2) machine ↔ args[0] < 0x1000 ∨ opens) ∧
      (AgreesWith (result 2) (FsSyscalls.sysOpen sessionId args[0] args[1] isWrite) machine ↔
        0x1000 ≤ args[0] ∧ opens) ∧
      (ReportsFailure (Syscall.allocateMemory tokenId args[1] (asksToWrite args)
          (asksToExecute args) phys) (result 9) machine ↔ allocates) ∧
      ((asksForData → AgreesWith (result 9) (MemorySyscalls.sysMmap tokenId args[1] phys) machine) ↔
        (asksForData → allocates)) ∧
      (ReportsFailure (Syscall.createChildToken (forkRequest sessionId tokenId)) (result 57)
          machine ↔
        machine.kernel.grants (forkRequest sessionId tokenId) = true ∧
          machine.kernel.nextTokenId ≠ 0) := by
  simp only [result_open, result_mmap, result_fork]
  refine ⟨?_, ?_, ?_, ?_, ?_⟩
  · by_cases low : args[0] < 0x1000
    · refine iff_of_true (fun _ => ?_) (.inl low)
      exact ⟨-14, run'_routeOpen_of_lt args sessionId machine low, by decide⟩
    · have high : 0x1000 ≤ args[0] := BitVec.not_lt.mp low
      rw [or_iff_right low, ← opened_ne_zero_iff]
      refine reportsFailure_iff_of_handed_on (run'_vfsOpen args sessionId machine) fun failed => ?_
      rw [run'_routeOpen_of_le args sessionId machine high, failed]
      rfl
  · by_cases low : args[0] < 0x1000
    · refine iff_of_false (fun agrees => ?_) fun both => absurd low (BitVec.not_lt.mpr both.1)
      have same := (run'_routeOpen_of_lt args sessionId machine low).symm.trans
        (agrees.trans (run'_sysOpen args sessionId machine))
      rw [Option.some.injEq] at same
      split_ifs at same
      cases same
    · have high : 0x1000 ≤ args[0] := BitVec.not_lt.mp low
      rw [and_iff_right high, ← opened_ne_zero_iff]
      refine agreesWith_iff_of_coded (run'_routeOpen_of_le args sessionId machine high)
        (run'_sysOpen args sessionId machine) fun failed => ?_
      rw [failed]
      decide
  · rw [← allocateMemory_ne_zero_iff]
    refine reportsFailure_iff_of_handed_on
      (run'_allocateMemory tokenId phys machine args[1] _ _) fun failed => ?_
    rw [run'_routeMmap, failed]
    rfl
  · refine forall_congr' fun asks => ?_
    have values := run'_routeMmap args tokenId phys machine
    rw [← allocateMemory_ne_zero_iff, asks.1, asks.2]
    rw [asks.1, asks.2] at values
    refine agreesWith_iff_of_coded values (run'_sysMmap args tokenId phys machine) fun failed => ?_
    rw [failed]
    decide
  · rw [← createChildToken_ne_zero_iff]
    refine reportsFailure_iff_of_handed_on (run'_createChildToken machine _) fun failed => ?_
    rw [run'_routeFork, failed]
    rfl

/-- A session of the root token. -/
def rootSession : Machine where
  kernel := kernel.run .boot [.runProcess 1 100]
  vfs := .new
  driver := ⟨∅⟩
  memory _ := 0

/-- The empty path, an allocator without a free block and a token of another session: each
failure is returned as 0. -/
theorem failures_returned_as_zero :
    let path : Vector U64 6 := #v[0x2000_0000, 0, 0, 0, 0, 0]
    let data : Vector U64 6 := #v[0, 0x1000, 3, 0, 0, 0]
    ¬ ReportsFailure (Syscall.vfsOpen 1 path[0] path[1] 0)
        (SyscallRouter.new.result 0 2 path 1 1 0) rootSession ∧
      ¬ AgreesWith (SyscallRouter.new.result 0 2 path 1 1 0)
        (FsSyscalls.sysOpen 1 path[0] path[1] false) rootSession ∧
      ¬ ReportsFailure (Syscall.allocateMemory 1 data[1] true false 0)
        (SyscallRouter.new.result 0 9 data 1 1 0) rootSession ∧
      ¬ AgreesWith (SyscallRouter.new.result 0 9 data 1 1 0)
        (MemorySyscalls.sysMmap 1 data[1] 0) rootSession ∧
      ¬ ReportsFailure (Syscall.createChildToken (forkRequest 1 2))
        (SyscallRouter.new.result 0 57 data 1 2 0) rootSession := by
  refine ⟨not_reportsFailure_of_zero (by decide +kernel) (by decide +kernel), ?_,
    not_reportsFailure_of_zero (by decide +kernel) (by decide +kernel), ?_,
    not_reportsFailure_of_zero (by decide +kernel) (by decide +kernel)⟩
  · unfold AgreesWith
    decide +kernel
  · unfold AgreesWith
    decide +kernel

end Lofita.Kernel
