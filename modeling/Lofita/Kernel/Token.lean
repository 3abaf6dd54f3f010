import Std.Data.TreeMap
import Lofita.Foundation.Arena
import Lofita.Foundation.Word

/-! # Tokens, capabilities and sessions

The authority of the kernel (`capability.rs`, `token.rs`, `session.rs` and the
region record of `vasm.rs`): a token carries a privilege level, a capability set
and the memory regions charged to it; a session binds a token to a time window.
Tokens are shared cells, so a session keeps its token after the token table has
dropped it. Calls into the memory managers, which are written in the other
language of the kernel, are recorded as `FfiCall`s.
-/

namespace Lofita.Kernel

open Lofita.Foundation Std

/-- A call out of the kernel core into the allocator, the page tables or CR3. -/
inductive FfiCall where
  | physAlloc (pages : U64) (answer : U64)
  | physFree (ptr pages : U64)
  | pageTableMap (virtualAddr physicalAddr : U64) (flags : U32)
  | pageTableUnmap (virtualAddr : U64)
  | switchPageDirectory (physAddr : U64)
deriving DecidableEq, Repr

/-! ### Capabilities -/

/-- The defined capability bits. -/
def Capability.allBits : U32 := 0x1FF

/-- A set of defined capabilities. -/
structure Capability where
  bits : U32
  defined : bits &&& Capability.allBits = bits
deriving DecidableEq

namespace Capability

def memAlloc : Capability := ⟨1 <<< 0, by decide⟩
def fsRead : Capability := ⟨1 <<< 2, by decide⟩
def fsWrite : Capability := ⟨1 <<< 3, by decide⟩
def sysAdmin : Capability := ⟨1 <<< 6, by decide⟩
def drvMmio : Capability := ⟨1 <<< 7, by decide⟩
def wineBridge : Capability := ⟨1 <<< 8, by decide⟩

def all : Capability := ⟨allBits, by decide⟩

/-- Keep the defined bits of a word. -/
def fromBitsTruncate (word : U32) : Capability :=
  ⟨word &&& allBits, by rw [BitVec.and_assoc, BitVec.and_self]⟩

def contains (self other : Capability) : Bool := self.bits &&& other.bits == other.bits

@[simp] theorem bits_fromBitsTruncate (word : U32) :
    (fromBitsTruncate word).bits = word &&& allBits := rfl

theorem contains_eq_true {self other : Capability} :
    self.contains other = true ↔ self.bits &&& other.bits = other.bits := beq_iff_eq

/-- A word without undefined bits is its own truncation. -/
theorem bits_fromBitsTruncate_of_defined {word : U32} (defined : word &&& allBits = word) :
    (fromBitsTruncate word).bits = word := defined

end Capability

inductive PrivilegeLevel where
  | root
  | admin
  | user
  | process
deriving DecidableEq, Repr

/-- The number of a level; a higher privilege has a smaller number. -/
def PrivilegeLevel.asU32 : PrivilegeLevel → U32
  | .root => 0
  | .admin => 1
  | .user => 2
  | .process => 3

/-- The level a privilege word asks for. -/
def PrivilegeLevel.ofVal (privilegeVal : U32) : PrivilegeLevel :=
  if privilegeVal = 0 then .root
  else if privilegeVal = 1 then .admin
  else if privilegeVal = 2 then .user
  else .process

/-- A level whose number is at most a privilege word is at most the number of
the level the word asks for. -/
theorem PrivilegeLevel.asU32_le_ofVal {level : PrivilegeLevel} {privilegeVal : U32}
    (below : ¬ level.asU32 > privilegeVal) : level.asU32 ≤ (ofVal privilegeVal).asU32 := by
  unfold ofVal
  split_ifs with isRoot isAdmin isUser
  · subst isRoot
    exact BitVec.not_lt.mp below
  · subst isAdmin
    exact BitVec.not_lt.mp below
  · subst isUser
    exact BitVec.not_lt.mp below
  · cases level <;> decide

/-! ### Memory regions and tokens -/

/-- A virtual memory region; `physPtr` is null until it is backed by pages. -/
structure Vma where
  startAddr : U64
  size : U64
  isWriteable : Bool
  isExecutable : Bool
  physPtr : U64
deriving DecidableEq, Repr

structure Token where
  id : U64
  name : String
  privilege : PrivilegeLevel
  parent : Option Ref
  children : List Ref
  vmas : TreeMap U64 Vma
  pml4PhysAddr : U64
  memoryLimit : U64
  memoryUsed : U64
  isPermanent : Bool
  expiryTick : U64
  capabilities : Capability
  runCount : U32
  isDeprecated : Bool

namespace Token

/-- A token is expired once the tick count has passed its expiry tick, unless it
is permanent. -/
def isExpired (token : Token) (currentTick : U64) : Bool :=
  if token.isPermanent then false else currentTick > token.expiryTick

def checkQuota (token : Token) (size : U64) : Bool :=
  saturatingAdd token.memoryUsed size ≤ token.memoryLimit

/-- Release the memory of a token: the token afterwards, and the calls made. Of
each region only the page at its start address is unmapped. -/
def cleanup (token : Token) : Token × List FfiCall :=
  ({ token with vmas := ∅, memoryUsed := 0 },
    token.vmas.toList.flatMap fun (_, vma) =>
      if vma.physPtr ≠ 0 ∧ vma.size > 0 then
        [.physFree vma.physPtr ((vma.size + 4095) / 4096), .pageTableUnmap vma.startAddr]
      else [])

end Token

/-! ### Sessions -/

structure Session where
  id : U64
  token : Ref
  expiryTick : U64
  isActive : Bool
deriving DecidableEq, Repr

/-- `Session::activate`, given the token cell the session is bound to. -/
def Session.activate (session : Session) (token : Token) : Session × List FfiCall :=
  ({ session with isActive := true },
    if token.pml4PhysAddr ≠ 0 then [.switchPageDirectory token.pml4PhysAddr] else [])

end Lofita.Kernel
