import Lofita.Elf.Steps
import Lofita.Fs.ReadYourWrites
import Lofita.Kernel.Calls

/-! # Starting a program from a file

`rust_spawn_process` reads a file of the Ext2 volume, makes sure that there is a session 1,
loads the file and starts a thread for it. The token of a session 1 made here becomes a
child of token 0, which is looked up with `unwrap`; the ids of tokens start at 1. From boot
on, the call therefore returns exactly where a process has been started before
(`spawn_returns_iff_along`).
-/

namespace Lofita

open Foundation Foundation.Fallible Std

namespace Fs.Ext2Fs

/-! ### The size of a file -/

variable {fs : Ext2Fs} {dm : DriverManager} {size : Nat}

/-- What has been read and what is left to read is not more than the size. -/
def Progress.Within (size : Nat) (progress : Progress) : Prop :=
  progress.data.length + progress.remaining ≤ size

/-- Copying a block keeps to the size. -/
theorem copyBlock_within (blockData : List U8) {progress : Progress}
    (within : progress.Within size) :
    Outcome.Ensures (Progress.Within size) (fs.copyBlock blockData progress) := by
  have part : Outcome.Ensures (fun part : List U8 => part.length ≤
      min progress.remaining fs.blockSize.toNat)
      (slice blockData 0 (min progress.remaining fs.blockSize.toNat)) := by
    unfold slice
    split_ifs
    · exact .pure (List.length_take_le _ _)
    · exact .throw _ _
  refine .bind part fun part short => .pure ?_
  have sum : progress.data.length + progress.remaining ≤ size := within
  change (progress.data ++ part).length +
    (progress.remaining - min progress.remaining fs.blockSize.toNat) ≤ size
  rw [List.length_append]
  omega

theorem withBlock_within {use : List U8 → Progress → Checked Progress}
    (uses : ∀ blockData progress, progress.Within size →
      Outcome.Ensures (Progress.Within size) (use blockData progress))
    (block : U32) {progress : Progress} (within : progress.Within size) :
    Outcome.Ensures (Progress.Within size) (fs.withBlock dm use block progress) := by
  refine .bind (fun _ _ => trivial) fun found (_ : True) => ?_
  cases found with
  | none => exact .pure within
  | some blockData => exact uses blockData progress within

theorem forPointers_within {body : U32 → Progress → Checked Progress}
    (bodies : ∀ block progress, progress.Within size →
      Outcome.Ensures (Progress.Within size) (body block progress))
    (pointers : List U32) {progress : Progress} (within : progress.Within size) :
    Outcome.Ensures (Progress.Within size) (forPointers body pointers progress) := by
  induction pointers generalizing progress with
  | nil => exact .pure within
  | cons block rest ih =>
      unfold forPointers
      split_ifs
      · exact .pure within
      · exact .bind (bodies block progress within) fun _ next => ih next

theorem readTree_within (depth : Nat) (block : U32) (progress : Progress)
    (within : progress.Within size) :
    Outcome.Ensures (Progress.Within size) (fs.readTree dm depth block progress) := by
  induction depth generalizing block progress with
  | zero => exact withBlock_within (fun blockData _ => copyBlock_within blockData) block within
  | succ depth ih =>
      unfold readTree throughBlock
      refine withBlock_within (fun blockData progress within => ?_) block within
      exact .bind (fun _ _ => trivial) fun pointers (_ : True) =>
        forPointers_within ih pointers within

theorem readDirect_within (pointers : List U32) {progress : Progress}
    (within : progress.Within size) :
    Outcome.Ensures (Progress.Within size) (fs.readDirect dm pointers progress) := by
  induction pointers generalizing progress with
  | nil => exact .pure within
  | cons block rest ih =>
      unfold readDirect
      split_ifs
      · exact .pure within
      · refine .bind (fun _ _ => trivial) fun found (_ : True) => ?_
        cases found with
        | none => exact .pure within
        | some blockData => exact .bind (copyBlock_within blockData within) fun _ next => ih next

theorem readIndirect_within (depth : Nat) (block : U32) {progress : Progress}
    (within : progress.Within size) :
    Outcome.Ensures (Progress.Within size)
      (readIndirect (fs.readTree dm depth) block progress) := by
  unfold readIndirect
  split_ifs
  · exact readTree_within depth block progress within
  · exact .pure within

/-- No more bytes are read than the inode says there are. -/
theorem length_readInodeData_le (inode : Ext2Inode) :
    Outcome.Ensures (fun data : List U8 => data.length ≤ inode.iSize.toNat)
      (fs.readInodeData dm inode) := by
  have start : ({ remaining := inode.iSize.toNat, data := [] } : Progress).Within
      inode.iSize.toNat := (Nat.zero_add _).le
  refine .bind (readDirect_within _ start) fun _ direct => ?_
  refine .bind (readIndirect_within 1 _ direct) fun _ singly => ?_
  refine .bind (readIndirect_within 2 _ singly) fun _ doubly => ?_
  refine .bind (readIndirect_within 3 _ doubly) fun _ triply => .pure ?_
  exact (Nat.le_add_right _ _).trans triply

/-- The bytes of a file as a slice. -/
def readSlice (fs : Ext2Fs) (dm : DriverManager) (inode : Ext2Inode) : Checked Elf.Slice :=
  match read : fs.readInodeData dm inode with
  | .error fault => .error fault
  | .ok bytes =>
      .ok ⟨bytes, by
        have size := length_readInodeData_le inode bytes read
        have small := inode.iSize.isLt
        omega⟩

end Fs.Ext2Fs

namespace Kernel

open Fs

/-! ### The call -/

/-- The kernel with its files and devices, and the memory that programs are loaded into. -/
structure SpawnState where
  kernel : KernelState
  vfs : VfsState
  driver : DriverManager
  loader : Elf.LoaderState

/-- The state after `rust_kernel_init`. -/
def SpawnState.boot (vfs : VfsState) (driver : DriverManager) (loader : Elf.LoaderState) :
    SpawnState where
  kernel := .boot
  vfs := vfs
  driver := driver
  loader := loader

/-- The path of the file, what `phys_alloc` answers for a page table, what the platform
answers to the loader, and what each page table maps. -/
structure SpawnRequest where
  path : String
  pml4 : U64
  platform : Elf.Platform
  pageMaps : U64 → Nat → Option Nat

/-- How the call ends other than by returning. -/
inductive SpawnPanic where
  | file (fault : Fault)
  | noRootToken
  | noThread
  | loader
deriving DecidableEq, Repr

/-- A run of the kernel that may panic. -/
abbrev Spawning := EStateM SpawnPanic SpawnState

/-- The file at a path of the volume, looked up from its root: the inode and the bytes. -/
def readProgram (vfs : VfsState) (fuel : Nat) (dm : DriverManager) (path : String) :
    Checked (Option (U32 × Elf.Slice)) := do
  let some ext2 := vfs.ext2Fs | return none
  let some inodeIdx ← ext2.resolvePath dm fuel path | return none
  let some inode ← ext2.getInode inodeIdx dm | return none
  return some (inodeIdx, ← ext2.readSlice dm inode)

/-- The token of a session 1 that is made for the first program. -/
def firstToken (state : KernelState) (request : SpawnRequest) (parent : Ref) : Token where
  id := 1
  name := request.path
  privilege := .process
  parent := some parent
  children := []
  vmas := ∅
  pml4PhysAddr := request.pml4
  memoryLimit := 64 * 1024 * 1024
  memoryUsed := 0
  isPermanent := false
  expiryTick := state.tickCount + 1000000
  capabilities := .fromBitsTruncate (Capability.memAlloc.bits ||| Capability.fsRead.bits)
  runCount := 0
  isDeprecated := false

/-- Enter token 1 and session 1. -/
def KernelState.enterFirst (state : KernelState) (token : Token) : KernelState :=
  { state with
    tokenCells := state.tokenCells.alloc token
    tokens := state.tokens.insert 1 state.tokenCells.next
    sessions := state.sessions.insert 1
      { id := 1
        token := state.tokenCells.next
        expiryTick := state.tickCount + 1000000
        isActive := false } }

/-- Copy a page of physical memory. -/
def copyPage (source target : U64) (memory : Nat → U8) : Nat → U8 :=
  fun addr =>
    if target.toNat ≤ addr ∧ addr < target.toNat + 4096 then
      memory (source.toNat + (addr - target.toNat))
    else memory addr

/-- Make a session 1, with a copy of the page table of token 0. -/
def createFirst (request : SpawnRequest) : Spawning Unit := do
  let machine ← get
  match machine.kernel.tokens[(0 : U64)]? with
  | none => throw .noRootToken
  | some root =>
      let source := (machine.kernel.token root).pml4PhysAddr
      set { machine with
        kernel := machine.kernel.enterFirst (firstToken machine.kernel request root)
        loader := { machine.loader with
          memory := copyPage source request.pml4 machine.loader.memory } }

/-- Activate session 1, so that the loader maps pages into its page table. -/
def activateFirst (request : SpawnRequest) : Spawning Unit :=
  modify fun machine =>
    match machine.kernel.sessions[(1 : U64)]? with
    | none => machine
    | some session =>
        let token := machine.kernel.token session.token
        { machine with
          kernel := { machine.kernel with
            sessions := machine.kernel.sessions.insert 1 (session.activate token).1 }
          loader := { machine.loader with
            pageMap :=
              if token.pml4PhysAddr ≠ 0 then request.pageMaps token.pml4PhysAddr
              else machine.loader.pageMap } }

/-- What is done before the file is loaded. -/
def prepare (request : SpawnRequest) : Spawning Unit := do
  if 1 ∉ (← get).kernel.sessions then
    createFirst request
  activateFirst request

/-- Start a thread of session 1 with the stack of a loaded program. -/
def startThread (path : String) (process : Elf.LoadedProcess) : Spawning Unit := do
  let machine ← get
  let scheduler := (machine.kernel.scheduler.spawn 1 path process.entryPoint).2
  match scheduler.threads.getLast? with
  | none => throw .noThread
  | some last =>
      let cells := scheduler.cells.modify last fun thread =>
        { thread with context := { thread.context with rsp := process.initialRsp } }
      set { machine with
        kernel := { machine.kernel with scheduler := { scheduler with cells } } }

/-- Load a file; an error of the loader is only printed. -/
def loadProgram (request : SpawnRequest) (data : Elf.Slice) : Spawning Unit := do
  let machine ← get
  match Elf.loadElf request.platform data machine.loader with
  | .error .panic loader =>
      set { machine with loader }
      throw .loader
  | .error (.err _) loader => set { machine with loader }
  | .ok process loader =>
      set { machine with loader }
      startThread request.path process

/-- `rust_spawn_process`. -/
def spawnProcess (fuel : Nat) (request : SpawnRequest) : Spawning Unit := do
  let machine ← get
  match readProgram machine.vfs fuel machine.driver request.path with
  | .error fault => throw (.file fault)
  | .ok none => return ()
  | .ok (some (_, data)) =>
      if data.bytes = [] then
        return ()
      prepare request
      loadProgram request data

/-! ### When the call returns -/

variable {fuel : Nat} {request : SpawnRequest} {machine : SpawnState}

/-- The loader does not panic on the file. It does not look at the memory or at what is mapped,
so that what is done before does not matter. -/
def Survives (machine : SpawnState) (request : SpawnRequest) (data : Elf.Slice) : Prop :=
  ∀ after, Elf.loadElf request.platform data machine.loader ≠ .error .panic after

/-- If the path leads to a non-empty file, and `load_elf` does not panic on it, the call
returns. -/
def Returns (fuel : Nat) (machine : SpawnState) (request : SpawnRequest) : Prop :=
  ∀ inodeIdx data,
    readProgram machine.vfs fuel machine.driver request.path = .ok (some (inodeIdx, data)) →
    data.bytes ≠ [] → Survives machine request data →
    ∃ final, spawnProcess fuel request machine = .ok () final

/-- The path leads to a non-empty file on which the loader does not panic. -/
def LeadsToProgram (fuel : Nat) (machine : SpawnState) (request : SpawnRequest) : Prop :=
  ∃ inodeIdx data,
    readProgram machine.vfs fuel machine.driver request.path = .ok (some (inodeIdx, data)) ∧
      data.bytes ≠ [] ∧ Survives machine request data

/-- The path leads to a non-empty file. -/
def LeadsToFile (fuel : Nat) (machine : SpawnState) (request : SpawnRequest) : Prop :=
  ∃ inodeIdx data,
    readProgram machine.vfs fuel machine.driver request.path = .ok (some (inodeIdx, data)) ∧
      data.bytes ≠ []

/-- The thread started last is at the end of the queue. -/
theorem startThread_ok (path : String) (process : Elf.LoadedProcess) (machine : SpawnState) :
    ∃ final, startThread path process machine = .ok () final := by
  have last : (machine.kernel.scheduler.spawn 1 path process.entryPoint).2.threads.getLast? =
      some machine.kernel.scheduler.cells.next := List.getLast?_concat
  unfold startThread
  rw [get_bind]
  simp only [last]
  exact ⟨_, rfl⟩

/-- Loading returns unless the loader panics. -/
theorem loadProgram_ok {data : Elf.Slice}
    (survives : ∀ loader, Elf.loadElf request.platform data machine.loader ≠ .error .panic loader) :
    ∃ final, loadProgram request data machine = .ok () final := by
  unfold loadProgram
  rw [get_bind]
  cases loaded : Elf.loadElf request.platform data machine.loader with
  | ok process loader =>
      simp only
      rw [set_bind]
      exact startThread_ok request.path process { machine with loader }
  | error stop loader =>
      cases stop with
      | panic => exact absurd loaded (survives loader)
      | err error => exact ⟨_, rfl⟩

/-- The lookup of token 0 in a table without it. -/
theorem createFirst_of_not_mem (missing : (0 : U64) ∉ machine.kernel.tokens) :
    createFirst request machine = .error .noRootToken machine := by
  unfold createFirst
  rw [get_bind]
  simp only [TreeMap.getElem?_eq_none missing]
  rfl

/-- With a token 0 the first session can be made. -/
theorem createFirst_of_mem (known : (0 : U64) ∈ machine.kernel.tokens) :
    ∃ made, createFirst request machine = .ok () made := by
  unfold createFirst
  rw [get_bind]
  simp only [TreeMap.getElem?_eq_some_getElem known]
  exact ⟨_, rfl⟩

/-- A session 1 that is there is only activated. -/
theorem prepare_of_mem (started : (1 : U64) ∈ machine.kernel.sessions) :
    prepare request machine = activateFirst request machine := by
  unfold prepare
  rw [get_bind, if_neg (not_not_intro started)]

/-- One that is not is made first. -/
theorem prepare_of_not_mem (missing : (1 : U64) ∉ machine.kernel.sessions) :
    prepare request machine =
      (createFirst request >>= fun _ => activateFirst request) machine := by
  unfold prepare
  rw [get_bind, if_pos missing]

/-- The preparation returns exactly if there is a session 1, or a token 0 to make it under;
otherwise it changes nothing. -/
theorem prepare_cases (request : SpawnRequest) (machine : SpawnState) :
    (((1 : U64) ∈ machine.kernel.sessions ∨ (0 : U64) ∈ machine.kernel.tokens) ∧
        ∃ before, prepare request machine = .ok () before) ∨
      (((1 : U64) ∉ machine.kernel.sessions ∧ (0 : U64) ∉ machine.kernel.tokens) ∧
        prepare request machine = .error .noRootToken machine) := by
  by_cases started : (1 : U64) ∈ machine.kernel.sessions
  · exact .inl ⟨.inl started, _, (prepare_of_mem started).trans rfl⟩
  rw [prepare_of_not_mem started]
  by_cases known : (0 : U64) ∈ machine.kernel.tokens
  · obtain ⟨made, creates⟩ := @createFirst_of_mem request machine known
    exact .inl ⟨.inr known, _, ok_bind.mpr ⟨(), made, creates, rfl⟩⟩
  · exact .inr ⟨⟨started, known⟩, error_bind (createFirst_of_not_mem known) _⟩

/-- What the call does with a non-empty file. -/
theorem spawnProcess_of_file {inodeIdx : U32} {data : Elf.Slice}
    (read : readProgram machine.vfs fuel machine.driver request.path = .ok (some (inodeIdx, data)))
    (nonempty : data.bytes ≠ []) :
    spawnProcess fuel request machine =
      (prepare request >>= fun _ => loadProgram request data) machine := by
  unfold spawnProcess
  rw [get_bind]
  simp only [read]
  rw [if_neg nonempty]

/-- The call changes nothing where the path does not lead to a file with a content. -/
theorem spawnProcess_of_not_leads (elsewhere : ¬ LeadsToFile fuel machine request) :
    finalState (spawnProcess fuel request machine) = machine := by
  unfold spawnProcess
  rw [get_bind]
  rcases read : readProgram machine.vfs fuel machine.driver request.path with
    fault | (_ | ⟨inodeIdx, data⟩)
  · rfl
  · rfl
  · have empty : data.bytes = [] := by
      by_contra nonempty
      exact elsewhere ⟨inodeIdx, data, read, nonempty⟩
    simp only
    rw [if_pos empty]
    rfl

/-- The preparation makes no call that the loader's platform numbers. -/
theorem prepare_keeps_calls (request : SpawnRequest) (calls : List Elf.PlatformCall) :
    Keeps (fun machine : SpawnState => machine.loader.calls = calls) (prepare request) := by
  have activates : Keeps (fun machine : SpawnState => machine.loader.calls = calls)
      (activateFirst request) := by
    refine .modify fun machine same => ?_
    cases machine.kernel.sessions[(1 : U64)]? with
    | none => exact same
    | some session => exact same
  have creates : Keeps (fun machine : SpawnState => machine.loader.calls = calls)
      (createFirst request) := by
    refine .get_bind fun machine same => ?_
    cases machine.kernel.tokens[(0 : U64)]? with
    | none => exact same
    | some root => exact same
  intro machine same
  by_cases started : (1 : U64) ∈ machine.kernel.sessions
  · rw [prepare_of_mem started]
    exact activates machine same
  · rw [prepare_of_not_mem started]
    exact creates.bind (fun _ => activates) machine same

/-- What is done before the file is loaded does not make the loader panic. -/
theorem survives_prepared {data : Elf.Slice} {before : SpawnState}
    (survives : Survives machine request data) (prepared : prepare request machine = .ok () before)
    (loader : Elf.LoaderState) :
    Elf.loadElf request.platform data before.loader ≠ .error .panic loader := by
  intro panics
  have sameCalls : before.loader.calls = machine.loader.calls := by
    have kept := prepare_keeps_calls request machine.loader.calls machine rfl
    rw [prepared] at kept
    exact kept
  have same := @Elf.respects_loadElf request.platform data before.loader machine.loader sameCalls
  rw [panics] at same
  cases loaded : Elf.loadElf request.platform data machine.loader with
  | ok process after =>
      rw [loaded] at same
      exact same
  | error stop after =>
      rw [loaded] at same
      obtain ⟨rfl, _⟩ := same
      exact survives after loaded

/-- **When a program can be started.** The call returns exactly if the path does not lead to
a file with a content, or there is a session 1, or a token 0. -/
theorem returns_iff :
    Returns fuel machine request ↔
      (LeadsToProgram fuel machine request →
        (1 : U64) ∈ machine.kernel.sessions ∨ (0 : U64) ∈ machine.kernel.tokens) := by
  rcases prepare_cases request machine with ⟨possible, before, prepared⟩ | ⟨impossible, panics⟩
  · refine iff_of_true (fun inodeIdx data read nonempty survives => ?_) fun _ => possible
    rw [spawnProcess_of_file read nonempty]
    obtain ⟨final, loaded⟩ := loadProgram_ok (survives_prepared survives prepared)
    exact ⟨final, ok_bind.mpr ⟨(), before, prepared, loaded⟩⟩
  · constructor
    · rintro returns ⟨inodeIdx, data, read, nonempty, survives⟩
      obtain ⟨final, done⟩ := returns inodeIdx data read nonempty survives
      rw [spawnProcess_of_file read nonempty] at done
      cases (error_bind panics _).symm.trans done
    · intro required inodeIdx data read nonempty survives
      rcases required ⟨inodeIdx, data, read, nonempty, survives⟩ with started | known
      · exact absurd started impossible.1
      · exact absurd known impossible.2

/-! ### Runs from boot -/

/-- A call of the kernel or the start of a program. -/
inductive SpawnCall where
  | kernel (call : KernelCall)
  | spawn (request : SpawnRequest)

/-- Calls of the kernel and starts of programs, in any order. -/
def programs (fuel : Nat) : System SpawnState SpawnCall where
  step machine
    | .kernel call => { machine with kernel := machine.kernel.after call }
    | .spawn request => finalState (spawnProcess fuel request machine)

namespace SpawnCall

/-- The start of a program returns. -/
def Returns (fuel : Nat) (machine : SpawnState) : SpawnCall → Prop
  | .kernel _ => True
  | .spawn request => Kernel.Returns fuel machine request

/-- A program is started from a file only when there is a session 1. -/
def FindsSession (fuel : Nat) (machine : SpawnState) : SpawnCall → Prop
  | .kernel _ => True
  | .spawn request => LeadsToProgram fuel machine request → (1 : U64) ∈ machine.kernel.sessions

end SpawnCall

/-- Nothing has been started yet: there is no session, the next one is session 1, and the
table of tokens has no token 0. -/
structure Waiting (state : KernelState) : Prop where
  sessions : ∀ id : U64, id ∉ state.sessions
  nextSessionId : state.nextSessionId = 1
  tokens : (0 : U64) ∉ state.tokens

/-- At boot nothing has been started. -/
theorem Waiting.boot : Waiting .boot where
  sessions _ := TreeMap.not_mem_emptyc
  nextSessionId := rfl
  tokens := by decide

/-- There is a session 1, or nothing has been started. -/
def FirstOrWaiting (machine : SpawnState) : Prop :=
  (1 : U64) ∈ machine.kernel.sessions ∨ Waiting machine.kernel

namespace KernelState

variable {state : KernelState}

/-- Before anything is started a token can be created for nobody. -/
theorem not_grants_of_waiting (waiting : Waiting state) (request : ChildRequest) :
    state.grants request = false := by
  unfold grants ChildRequest.callerValid
  rw [TreeMap.getElem?_eq_none (waiting.sessions request.callerSessionId)]
  rfl

theorem waiting_tick (waiting : Waiting state) (frame : Option TrapFrame) :
    Waiting (state.tick frame).state where
  sessions id there := by
    obtain ⟨old, found, _⟩ := session_tick (TreeMap.getElem?_eq_some_getElem there)
    rw [TreeMap.getElem?_eq_none (waiting.sessions id)] at found
    cases found
  nextSessionId := (state.nextSessionId_tick frame).trans waiting.nextSessionId
  tokens there := by
    have kept := (state.tokens_tick frame 0 _).mp (TreeMap.getElem?_eq_some_getElem there)
    rw [TreeMap.getElem?_eq_none waiting.tokens] at kept
    cases kept.1

/-- The first session that is started is session 1. -/
theorem firstOrWaiting_after (waiting : Waiting state) (call : KernelCall) :
    (1 : U64) ∈ (state.after call).sessions ∨ Waiting (state.after call) := by
  rcases state.after_cases call with
    same | ⟨request, rfl, granted, _⟩ | ⟨_, _, _, rfl, _, _, next⟩ | ⟨frame, rfl⟩
  · refine .inr ⟨fun id => ?_, same.nextSessionId.trans waiting.nextSessionId, ?_⟩
    · rw [same.sessions]
      exact waiting.sessions id
    · rw [same.tokens]
      exact waiting.tokens
  · rw [not_grants_of_waiting waiting request] at granted
    cases granted
  · rw [next]
    change (1 : U64) ∈ state.sessions.insert state.nextSessionId _ ∨ _
    rw [waiting.nextSessionId]
    exact .inl TreeMap.mem_insert_self
  · exact .inr (waiting_tick waiting frame)

end KernelState

/-! ### Starting programs keeps the sessions -/

/-- There is a session 1. -/
def HasFirst (machine : SpawnState) : Prop := (1 : U64) ∈ machine.kernel.sessions

/-- Starting a thread keeps session 1. -/
theorem startThread_keeps (path : String) (process : Elf.LoadedProcess) :
    Keeps HasFirst (startThread path process) := by
  refine .get_bind fun machine first => ?_
  simp only
  cases (machine.kernel.scheduler.spawn 1 path process.entryPoint).2.threads.getLast? with
  | none => exact first
  | some last => exact first

theorem loadProgram_keeps (request : SpawnRequest) (data : Elf.Slice) :
    Keeps HasFirst (loadProgram request data) := by
  refine .get_bind fun machine first => ?_
  cases Elf.loadElf request.platform data machine.loader with
  | ok process loader => exact startThread_keeps request.path process { machine with loader } first
  | error stop loader =>
      cases stop with
      | panic => exact first
      | err error => exact first

theorem activateFirst_keeps (request : SpawnRequest) :
    Keeps HasFirst (activateFirst request) := by
  refine .modify fun machine first => ?_
  unfold HasFirst
  split
  · exact first
  · exact TreeMap.mem_insert_self

theorem spawnProcess_keeps (request : SpawnRequest) :
    Keeps HasFirst (spawnProcess fuel request) := by
  intro machine first
  by_cases leads : LeadsToFile fuel machine request
  · obtain ⟨inodeIdx, data, read, nonempty⟩ := leads
    rw [spawnProcess_of_file read nonempty]
    refine finalState_bind ?_ fun _ => loadProgram_keeps request data
    rw [prepare_of_mem first]
    exact activateFirst_keeps request machine first
  · rw [spawnProcess_of_not_leads leads]
    exact first

/-- Before anything is started, the start of a program changes nothing. -/
theorem spawnProcess_of_waiting (waiting : Waiting machine.kernel) (request : SpawnRequest) :
    finalState (spawnProcess fuel request machine) = machine := by
  by_cases leads : LeadsToFile fuel machine request
  · obtain ⟨inodeIdx, data, read, nonempty⟩ := leads
    have panics : prepare request machine = .error .noRootToken machine :=
      (prepare_of_not_mem (waiting.sessions 1)).trans
        (error_bind (createFirst_of_not_mem waiting.tokens) _)
    rw [spawnProcess_of_file read nonempty, error_bind panics]
    rfl
  · exact spawnProcess_of_not_leads leads

/-- One call keeps the alternative. -/
theorem firstOrWaiting_step {fuel : Nat} {machine : SpawnState} (start : FirstOrWaiting machine)
    (call : SpawnCall) : FirstOrWaiting ((programs fuel).step machine call) := by
  cases call with
  | kernel call =>
      rcases start with first | waiting
      · exact .inl (machine.kernel.mem_sessions_after first)
      · exact KernelState.firstOrWaiting_after waiting call
  | spawn request =>
      rcases start with first | waiting
      · exact .inl (spawnProcess_keeps request machine first)
      · change FirstOrWaiting (finalState (spawnProcess fuel request machine))
        rw [spawnProcess_of_waiting waiting]
        exact .inr waiting

/-- **When starting programs never panics.** In a run from boot of calls of the kernel and
starts of programs, every start from a non-empty file that the loader survives returns if and
only if there is a session 1 at each of these starts. Session 1 is the first one that
`rust_run_process` makes. -/
theorem spawn_returns_iff_along (fuel : Nat) (vfs : VfsState) (driver : DriverManager)
    (loader : Elf.LoaderState) (calls : List SpawnCall) :
    (programs fuel).Along (SpawnCall.Returns fuel) (.boot vfs driver loader) calls ↔
      (programs fuel).Along (SpawnCall.FindsSession fuel) (.boot vfs driver loader) calls := by
  have start : FirstOrWaiting (.boot vfs driver loader) := .inr .boot
  have free : (programs fuel).Along (fun _ _ => True) (.boot vfs driver loader) calls :=
    System.along_of_forall fun _ _ _ => trivial
  refine System.along_congr FirstOrWaiting (fun _ call first _ => firstOrWaiting_step first call)
    (fun machine call first _ => ?_) start free
  cases call with
  | kernel call => exact Iff.rfl
  | spawn request =>
      refine returns_iff.trans (forall_congr' fun leads => ?_)
      rcases first with first | waiting
      · exact iff_of_true (.inl first) first
      · exact ⟨fun one => one.resolve_right waiting.tokens, .inl⟩

/-- A file of one byte, on a platform that has no memory to give. -/
def oneByteProgram : SpawnRequest where
  path := "a"
  pml4 := 0
  platform := { physAlloc := fun _ _ => 0, pageTableMap := fun _ => false }
  pageMaps _ _ := none

/-- The first program is started before any process: the lookup of token 0 panics. -/
theorem spawn_panics_after_boot :
    ¬ (programs 2).Along (SpawnCall.Returns 2)
      (.boot .shadowed (Ext2Fs.diskManager VfsState.shadowDisk) ⟨fun _ => 0, fun _ => none, []⟩)
      [.spawn oneByteProgram] := by
  rintro ⟨returns, _⟩
  have bytes : (readProgram .shadowed 2 (Ext2Fs.diskManager VfsState.shadowDisk) "a").map
      (Option.map fun found => found.2.bytes) = .ok (some [0x78]) := by
    decide +kernel
  obtain ⟨found, read, isFound⟩ := Outcome.ok_map.mp bytes
  obtain ⟨⟨inodeIdx, data⟩, rfl, isData⟩ := Option.map_eq_some_iff.mp isFound
  have oneByte : data.bytes = [0x78] := isData
  have leads : data.bytes ≠ [] := by
    rw [oneByte]
    exact List.cons_ne_nil _ _
  have refused : Survives (.boot .shadowed (Ext2Fs.diskManager VfsState.shadowDisk)
      ⟨fun _ => 0, fun _ => none, []⟩) oneByteProgram data := by
    have tooShort : Elf.loadElf oneByteProgram.platform data ⟨fun _ => 0, fun _ => none, []⟩ =
        .error (.err .tooShort) ⟨fun _ => 0, fun _ => none, []⟩ := by
      refine error_bind (error_bind ?_ _) _
      rw [oneByte]
      rfl
    intro after panics
    cases tooShort.symm.trans panics
  have required := returns_iff.mp returns ⟨inodeIdx, data, read, leads, refused⟩
  revert required
  decide

end Kernel

end Lofita
