import Lofita.Foundation.Fallible
import Lofita.Fs.Vfs
import Lofita.Kernel.State

/-! # System calls

`rust_syscall_dispatch` and the file system entry points it leads to (`lib.rs`). A
call records what it accesses: the session whose capabilities are checked, the
session whose descriptor table is used, and the ranges of memory that are read or
written through a pointer from its arguments.
-/

namespace Lofita.Kernel

open Lofita.Foundation Lofita.Foundation.Fallible Lofita.Fs

inductive Access where
  | capabilities (sessionId : U64)
  | descriptors (sessionId : U64)
  | memory (ptr len : U64)
deriving DecidableEq, Repr

/-- The session whose capabilities or descriptors are accessed. -/
def Access.session : Access → Option U64
  | .capabilities sessionId | .descriptors sessionId => some sessionId
  | .memory _ _ => none

/-- The kernel with its files and devices, the memory by address, and the accesses
made so far, the latest first. -/
structure Machine where
  kernel : KernelState
  vfs : VfsState
  driver : DriverManager
  memory : U64 → U8
  accesses : List Access := []

abbrev Syscall := EStateM Fault Machine

namespace Syscall

def record (access : Access) : Syscall Unit :=
  modify fun machine => { machine with accesses := access :: machine.accesses }

def checkCapability (sessionId : U64) (capVal : U32) : Syscall Bool := do
  record (.capabilities sessionId)
  return (← get).kernel.checkCapability sessionId capVal

/-- Act for a session that has a capability, or return a refusal. -/
def withCapability (sessionId : U64) (capability : Capability) (refusal : U32)
    (body : Syscall U32) : Syscall U32 := do
  if ← checkCapability sessionId capability.bits then body else return refusal

/-- The bytes behind a pointer. -/
def readMemory (ptr len : U64) : Syscall (List U8) := do
  record (.memory ptr len)
  let machine ← get
  return (List.range len.toNat).map fun i => machine.memory (ptr + BitVec.ofNat 64 i)

def writeMemory (ptr : U64) (data : List U8) : Syscall Unit := do
  record (.memory ptr (BitVec.ofNat 64 data.length))
  modify fun machine =>
    { machine with
      memory := fun addr => data.getD (addr - ptr).toNat (machine.memory addr) }

/-- Run an operation of the file system on the descriptors of a session. -/
def onDescriptors {α : Type} (sessionId : U64)
    (operation : VfsState → DriverManager → Checked (Except String α × VfsState)) :
    Syscall (Except String α) := do
  record (.descriptors sessionId)
  let machine ← get
  match operation machine.vfs machine.driver with
  | .error fault => throw fault
  | .ok (result, vfs) =>
      set { machine with vfs }
      return result

/-- The check on a buffer of a user program. -/
def inUserRange (ptr len : U64) : Bool :=
  ptr ≠ 0 ∧ 0x2000_0000 ≤ ptr.toNat ∧ ptr.toNat + len.toNat < 2 ^ 64 ∧
    ptr.toNat + len.toNat ≤ 0x8000_0000

def openPath (sessionId : U64) (path : String) (isWrite : Bool) : Syscall U32 := do
  match ← onDescriptors sessionId fun vfs _ => .ok (vfs.openFile sessionId path isWrite) with
  | .ok fd => return fd
  | .error _ => return 0

/-- `rust_vfs_open`: the descriptor, or 0. A path that is not UTF-8 is "unknown". -/
def vfsOpen (sessionId pathPtr pathLen : U64) (writeVal : U32) : Syscall U32 := do
  let pathSlice ← readMemory pathPtr pathLen
  let path := (fromUtf8 pathSlice).getD "unknown"
  let isWrite := writeVal ≠ 0
  withCapability sessionId (if isWrite then .fsWrite else .fsRead) 0
    (openPath sessionId path isWrite)

/-- `rust_vfs_close`. -/
def vfsClose (sessionId : U64) (fd : U32) : Syscall U32 := do
  match ← onDescriptors sessionId fun vfs _ => .ok (vfs.close sessionId fd) with
  | .ok _ => return 0
  | .error _ => return -1

variable (fuel : Nat)

def readInto (sessionId : U64) (fd : U32) (bufPtr bufLen : U64) : Syscall U32 := do
  if ¬ inUserRange bufPtr bufLen then
    return -14
  match ← onDescriptors sessionId fun vfs dm => vfs.read fuel dm sessionId fd bufLen with
  | .ok data =>
      let copyLen := min data.length bufLen.toNat
      writeMemory bufPtr (data.take copyLen)
      return BitVec.ofNat 32 copyLen
  | .error _ => return -1

/-- `rust_vfs_read`. -/
def vfsRead (sessionId : U64) (fd : U32) (bufPtr bufLen : U64) : Syscall U32 :=
  withCapability sessionId .fsRead (-13) (readInto fuel sessionId fd bufPtr bufLen)

def writeFrom (sessionId : U64) (fd : U32) (dataPtr dataLen : U64) : Syscall U32 := do
  if ¬ inUserRange dataPtr dataLen then
    return -14
  let data ← readMemory dataPtr dataLen
  match ← onDescriptors sessionId fun vfs dm => vfs.write dm sessionId fd data with
  | .ok count => return count.setWidth 32
  | .error _ => return -1

/-- `rust_vfs_write`. -/
def vfsWrite (sessionId : U64) (fd : U32) (dataPtr dataLen : U64) : Syscall U32 :=
  withCapability sessionId .fsWrite (-13) (writeFrom sessionId fd dataPtr dataLen)

/-- `rust_syscall_dispatch`. -/
def dispatch (nr a1 a2 a3 a4 _a5 _a6 : U64) : Syscall U64 := do
  if nr = 0 then
    return (← vfsRead fuel a1 (a2.setWidth 32) a3 a4).signExtend 64
  else if nr = 1 then
    return (← vfsWrite a1 (a2.setWidth 32) a3 a4).signExtend 64
  else if nr = 2 then
    return (← vfsOpen 0 a1 a2 (a3.setWidth 32)).setWidth 64
  else if nr = 3 then
    return (← vfsClose a1 (a2.setWidth 32)).signExtend 64
  else if nr = 60 ∨ nr = 231 then
    return -1
  else
    return -38

end Syscall

end Lofita.Kernel
