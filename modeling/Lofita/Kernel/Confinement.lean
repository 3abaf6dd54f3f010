import Lofita.Kernel.Calls
import Lofita.Kernel.Syscall

/-! # What system calls access

The session of a system call is taken from its arguments: read, write and close
name it in the first one, and open is made for session 0. A call is therefore made
for the thread that runs exactly if its arguments say so (`acts_for_caller_iff`).
The buffers of read and write are checked before they are used; the path of open is
read as it is given (`user_memory_confined_iff`).
-/

namespace Lofita.Kernel

open Lofita.Foundation Lofita.Foundation.Fallible Lofita.Fs Std

/-- The session of the thread that was scheduled last. -/
def KernelState.activeSession (state : KernelState) : Option U64 :=
  state.scheduler.activeThread.map fun thread => (state.thread thread).sessionId

namespace Syscall

/-- The state a system call leaves, with the accesses of this call only. -/
def stateAfter {α : Type} (call : Syscall α) (machine : Machine) : Machine :=
  finalState (call { machine with accesses := [] })

/-- What a system call accesses. -/
def accessesOf {α : Type} (call : Syscall α) (machine : Machine) : List Access :=
  (stateAfter call machine).accesses

/-! ### Invariants of the entry points -/

section Entry

variable {invariant : Machine → Prop} {sessionId : U64} {fd : U32} {ptr len : U64} {fuel : Nat}

/-- The operation changes no descriptor table but that of a session. -/
def StaysWith {α : Type} (sessionId : U64)
    (operation : VfsState → DriverManager → Checked (Except String α × VfsState)) : Prop :=
  ∀ vfs dm result after, operation vfs dm = .ok (result, after) →
    VfsState.OthersUnchanged sessionId vfs after

/-- A call on descriptors alone stays with its session. -/
theorem staysWith_ok {α : Type} {operation : VfsState → Except String α × VfsState}
    (stays : ∀ vfs, VfsState.OthersUnchanged sessionId vfs (operation vfs).2) :
    StaysWith sessionId fun vfs _ => .ok (operation vfs) := by
  intro vfs _ result after done
  have same : (operation vfs).2 = after := congrArg Prod.snd (Except.ok.inj done)
  rw [← same]
  exact stays vfs

/-- A guarded call keeps what its check and its body keep. -/
theorem keeps_withCapability {capability : Capability} {refusal : U32} {body : Syscall U32}
    (check : Keeps invariant (checkCapability sessionId capability.bits))
    (acts : Keeps invariant body) :
    Keeps invariant (withCapability sessionId capability refusal body) := by
  refine check.bind fun granted => ?_
  split
  · exact acts
  · exact .pure refusal

/-- What the check ensures, the guarded call does. -/
theorem ensures_withCapability {capability : Capability} {refusal : U32} {body : Syscall U32}
    (check : Ensures invariant (checkCapability sessionId capability.bits))
    (acts : Keeps invariant body) :
    Ensures invariant (withCapability sessionId capability refusal body) := by
  refine check.bind fun granted => ?_
  split
  · exact acts
  · exact .pure refusal

/-- Opening keeps what its step on the descriptors keeps. -/
theorem keeps_openPath {path : String} {isWrite : Bool}
    (files : Keeps invariant
      (onDescriptors sessionId fun vfs _ => .ok (vfs.openFile sessionId path isWrite))) :
    Keeps invariant (openPath sessionId path isWrite) := by
  refine files.bind fun result => ?_
  cases result with
  | ok fd => exact .pure fd
  | error _ => exact .pure 0

/-- Closing keeps what its step on the descriptors keeps. -/
theorem keeps_vfsClose
    (files : Keeps invariant
      (onDescriptors sessionId fun vfs _ => .ok (vfs.close sessionId fd))) :
    Keeps invariant (vfsClose sessionId fd) := by
  refine files.bind fun result => ?_
  cases result with
  | ok _ => exact .pure 0
  | error _ => exact .pure (-1)

/-- Closing ensures what its step on the descriptors ensures. -/
theorem ensures_vfsClose
    (files : Ensures invariant
      (onDescriptors sessionId fun vfs _ => .ok (vfs.close sessionId fd))) :
    Ensures invariant (vfsClose sessionId fd) := by
  refine files.bind fun result => ?_
  cases result with
  | ok _ => exact .pure 0
  | error _ => exact .pure (-1)

/-- Reading keeps what its steps on descriptors and buffer keep. -/
theorem keeps_readInto
    (files : Keeps invariant
      (onDescriptors sessionId fun vfs dm => vfs.read fuel dm sessionId fd len))
    (buffer : inUserRange ptr len → ∀ data : List U8, data.length ≤ len.toNat →
      Keeps invariant (writeMemory ptr data)) :
    Keeps invariant (readInto fuel sessionId fd ptr len) := by
  unfold readInto
  split
  next => exact .pure (-14)
  next inRange =>
    refine files.bind fun result => ?_
    cases result with
    | ok data =>
        refine (buffer (not_not.mp inRange) _ ?_).bind fun _ => .pure _
        rw [List.length_take]
        omega
    | error _ => exact .pure (-1)

/-- Writing keeps what its steps on descriptors and buffer keep. -/
theorem keeps_writeFrom
    (files : ∀ data, Keeps invariant
      (onDescriptors sessionId fun vfs dm => vfs.write dm sessionId fd data))
    (buffer : inUserRange ptr len → Keeps invariant (readMemory ptr len)) :
    Keeps invariant (writeFrom sessionId fd ptr len) := by
  unfold writeFrom
  split
  next => exact .pure (-14)
  next inRange =>
    refine (buffer (not_not.mp inRange)).bind fun data => (files data).bind fun result => ?_
    cases result with
    | ok count => exact .pure _
    | error _ => exact .pure (-1)

/-- The session that a system call is made for, by its number and first argument. -/
def callSession (nr a1 : U64) : Option U64 :=
  if nr = 0 ∨ nr = 1 ∨ nr = 3 then some a1 else if nr = 2 then some 0 else none

/-- **Invariants of a system call** are kept by the checks and the operations on the
descriptors of the session that the call is made for, by reading the path of open
and by the use of checked buffers. -/
theorem keeps_dispatch {nr a1 a2 a3 a4 a5 a6 : U64}
    (check : ∀ sessionId, callSession nr a1 = some sessionId →
      ∀ capVal, Keeps invariant (checkCapability sessionId capVal))
    (files : ∀ sessionId, callSession nr a1 = some sessionId →
      ∀ {α : Type}
        (operation : VfsState → DriverManager → Checked (Except String α × VfsState)),
        StaysWith sessionId operation → Keeps invariant (onDescriptors sessionId operation))
    (path : nr = 2 → Keeps invariant (readMemory a1 a2))
    (source : inUserRange a3 a4 → Keeps invariant (readMemory a3 a4))
    (target : inUserRange a3 a4 → ∀ data : List U8, data.length ≤ a4.toNat →
      Keeps invariant (writeMemory a3 data)) :
    Keeps invariant (dispatch fuel nr a1 a2 a3 a4 a5 a6) := by
  unfold dispatch
  split
  next isRead =>
    have session : callSession nr a1 = some a1 := if_pos (.inl isRead)
    refine Keeps.bind (keeps_withCapability (check a1 session _) ?_) fun _ => .pure _
    refine keeps_readInto (files a1 session _ fun _ _ _ _ => ?_) target
    exact VfsState.othersUnchanged_read
  next =>
    split
    next isWrite =>
      have session : callSession nr a1 = some a1 := if_pos (.inr (.inl isWrite))
      refine Keeps.bind (keeps_withCapability (check a1 session _) ?_) fun _ => .pure _
      refine keeps_writeFrom (fun _ => files a1 session _ fun _ _ _ _ => ?_) source
      exact VfsState.othersUnchanged_write
    next =>
      split
      next isOpen =>
        have session : callSession nr a1 = some 0 := by
          subst isOpen
          rfl
        refine Keeps.bind (Keeps.bind (path isOpen) fun pathSlice => ?_) fun _ => .pure _
        refine keeps_withCapability (check 0 session _) (keeps_openPath (files 0 session _ ?_))
        exact staysWith_ok fun _ => VfsState.othersUnchanged_openFile _ _
      next =>
        split
        next isClose =>
          have session : callSession nr a1 = some a1 := if_pos (.inr (.inr isClose))
          refine Keeps.bind (keeps_vfsClose (files a1 session _ ?_)) fun _ => .pure _
          exact staysWith_ok fun _ => VfsState.othersUnchanged_close
        next => split <;> exact .pure _

end Entry

/-! ### Accesses -/

/-- What holds of the accesses made so far. -/
def Recorded (property : List Access → Prop) (machine : Machine) : Prop :=
  property machine.accesses

section Recorded

variable {property : List Access → Prop} {sessionId : U64}

theorem succeeds_readMemory (ptr len : U64) : Succeeds (readMemory ptr len) :=
  fun _ => ⟨_, _, rfl⟩

/-- The property is not lost by an access. -/
def Admits (property : List Access → Prop) (access : Access) : Prop :=
  ∀ accesses, property accesses → property (access :: accesses)

/-- An admitted access may be recorded. -/
theorem keeps_record {access : Access} (admits : Admits property access) :
    Keeps (Recorded property) (record access) :=
  .modify fun machine holds => admits machine.accesses holds

/-- A check is one access to capabilities. -/
theorem keeps_checkCapability (admits : Admits property (.capabilities sessionId)) (capVal : U32) :
    Keeps (Recorded property) (checkCapability sessionId capVal) :=
  (keeps_record admits).bind fun _ => Keeps.get_bind fun _ holds => holds

/-- A read is one access to memory. -/
theorem keeps_readMemory {ptr len : U64} (admits : Admits property (.memory ptr len)) :
    Keeps (Recorded property) (readMemory ptr len) :=
  (keeps_record admits).bind fun _ => Keeps.get_bind fun _ holds => holds

/-- A write is one access to memory. -/
theorem keeps_writeMemory {ptr : U64} {data : List U8}
    (admits : Admits property (.memory ptr (BitVec.ofNat 64 data.length))) :
    Keeps (Recorded property) (writeMemory ptr data) :=
  (keeps_record admits).bind fun _ => .modify fun _ holds => holds

/-- A call on descriptors is one access to them. -/
theorem keeps_onDescriptors {α : Type}
    {operation : VfsState → DriverManager → Checked (Except String α × VfsState)}
    (admits : Admits property (.descriptors sessionId)) :
    Keeps (Recorded property) (onDescriptors sessionId operation) := by
  refine (keeps_record admits).bind fun _ => Keeps.get_bind fun machine holds => ?_
  cases operation machine.vfs machine.driver with
  | error fault => exact holds
  | ok result => exact holds

/-- What a recorded access adds is there. -/
theorem ensures_record {access : Access} (adds : ∀ accesses, property (access :: accesses)) :
    Ensures (Recorded property) (record access) :=
  fun machine => adds machine.accesses

/-- What a check adds is there. -/
theorem ensures_checkCapability
    (adds : ∀ accesses, property (.capabilities sessionId :: accesses)) (capVal : U32) :
    Ensures (Recorded property) (checkCapability sessionId capVal) :=
  (ensures_record adds).bind fun _ => Keeps.get_bind fun _ holds => holds

/-- What a read adds is there. -/
theorem ensures_readMemory {ptr len : U64}
    (adds : ∀ accesses, property (.memory ptr len :: accesses)) :
    Ensures (Recorded property) (readMemory ptr len) :=
  (ensures_record adds).bind fun _ => Keeps.get_bind fun _ holds => holds

/-- What a call on descriptors adds is there. -/
theorem ensures_onDescriptors {α : Type}
    {operation : VfsState → DriverManager → Checked (Except String α × VfsState)}
    (adds : ∀ accesses, property (.descriptors sessionId :: accesses)) :
    Ensures (Recorded property) (onDescriptors sessionId operation) := by
  refine (ensures_record adds).bind fun _ => Keeps.get_bind fun machine holds => ?_
  cases operation machine.vfs machine.driver with
  | error fault => exact holds
  | ok result => exact holds

end Recorded

/-! ### What a system call records -/

variable {nr a1 a2 a3 a4 a5 a6 sessionId : U64} {fuel : Nat} {property : List Access → Prop}
  {machine : Machine}

/-- A property of the accesses holds after a system call if it admits the session the
call is made for, the path of open, and checked buffers. -/
theorem keeps_recorded
    (session : ∀ sessionId, callSession nr a1 = some sessionId →
      Admits property (.capabilities sessionId) ∧ Admits property (.descriptors sessionId))
    (path : nr = 2 → Admits property (.memory a1 a2))
    (buffer : inUserRange a3 a4 → ∀ len : U64, len.toNat ≤ a4.toNat →
      Admits property (.memory a3 len)) :
    Keeps (Recorded property) (dispatch fuel nr a1 a2 a3 a4 a5 a6) := by
  refine keeps_dispatch (fun sessionId made => keeps_checkCapability (session sessionId made).1)
    (fun sessionId made _ _ _ => keeps_onDescriptors (session sessionId made).2)
    (fun isOpen => keeps_readMemory (path isOpen))
    (fun checked => keeps_readMemory (buffer checked a4 (Nat.le_refl _)))
    fun checked data short => keeps_writeMemory (buffer checked _ ?_)
  rw [BitVec.toNat_ofNat]
  exact Nat.le_trans (Nat.mod_le _ _) short

/-- The capabilities of a session are checked, or its descriptors are consulted or
changed. -/
def Uses (sessionId : U64) (accesses : List Access) : Prop :=
  ∃ access ∈ accesses, access.session = some sessionId

/-- A session is used by the last access or by an earlier one. -/
theorem uses_cons {access : Access} {accesses : List Access} :
    Uses sessionId (access :: accesses) ↔
      access.session = some sessionId ∨ Uses sessionId accesses := by
  simp [Uses]

/-- Accesses only add to the sessions used. -/
theorem admits_uses {access : Access} : Admits (Uses sessionId) access :=
  fun _ uses => uses_cons.mpr (.inr uses)

/-- A call uses the session that it is made for. -/
theorem ensures_uses (made : callSession nr a1 = some sessionId) :
    Ensures (Recorded (Uses sessionId)) (dispatch fuel nr a1 a2 a3 a4 a5 a6) := by
  have check : ∀ capVal,
      Ensures (Recorded (Uses sessionId)) (checkCapability sessionId capVal) :=
    ensures_checkCapability fun _ => uses_cons.mpr (.inl rfl)
  have close : ∀ fd, Ensures (Recorded (Uses sessionId)) (vfsClose sessionId fd) :=
    fun _ => ensures_vfsClose (ensures_onDescriptors fun _ => uses_cons.mpr (.inl rfl))
  unfold callSession at made
  split_ifs at made with byArgument isOpen
  · cases made
    rcases byArgument with rfl | rfl | rfl
    · refine Ensures.bind (ensures_withCapability (check _) ?_) fun _ => .pure _
      exact keeps_readInto (keeps_onDescriptors admits_uses)
        fun _ _ _ => keeps_writeMemory admits_uses
    · refine Ensures.bind (ensures_withCapability (check _) ?_) fun _ => .pure _
      exact keeps_writeFrom (fun _ => keeps_onDescriptors admits_uses)
        fun _ => keeps_readMemory admits_uses
    · exact (close _).bind fun _ => .pure _
  · cases made
    subst isOpen
    refine Ensures.bind (Ensures.after (succeeds_readMemory _ _) fun pathSlice => ?_)
      fun _ => .pure _
    exact ensures_withCapability (check _) (keeps_openPath (keeps_onDescriptors admits_uses))

/-- A call uses no session but the one it is made for. -/
theorem keeps_unused (other : callSession nr a1 ≠ some sessionId) :
    Keeps (Recorded fun accesses => ¬ Uses sessionId accesses)
      (dispatch fuel nr a1 a2 a3 a4 a5 a6) := by
  have admits : ∀ access : Access, access.session ≠ some sessionId →
      Admits (fun accesses => ¬ Uses sessionId accesses) access :=
    fun access different accesses unused uses => (uses_cons.mp uses).elim different unused
  refine keeps_recorded (fun made same => ⟨admits _ ?_, admits _ ?_⟩)
    (fun _ => admits _ nofun) fun _ _ _ => admits _ nofun
  · exact fun isOther => other (same.trans isOther)
  · exact fun isOther => other (same.trans isOther)

/-- **The session of a system call** is the one that its number and its first
argument name. -/
theorem uses_iff :
    Uses sessionId (accessesOf (dispatch fuel nr a1 a2 a3 a4 a5 a6) machine) ↔
      callSession nr a1 = some sessionId := by
  constructor
  · intro uses
    by_contra other
    exact keeps_unused other { machine with accesses := [] } (fun none => by
      obtain ⟨_, member, _⟩ := none
      cases member) uses
  · exact fun made => ensures_uses made _

/-! ### Acting for the caller -/

/-- **System calls act for their caller** exactly if read, write and close name the
session of the thread that runs, and open is called by session 0. -/
theorem acts_for_caller_iff {caller : U64}
    (active : machine.kernel.activeSession = some caller) :
    (∀ sessionId, Uses sessionId (accessesOf (dispatch fuel nr a1 a2 a3 a4 a5 a6) machine) →
        machine.kernel.activeSession = some sessionId) ↔
      (nr = 0 ∨ nr = 1 ∨ nr = 3 → a1 = caller) ∧ (nr = 2 → caller = 0) := by
  simp only [uses_iff, active, Option.some_inj]
  constructor
  · intro same
    constructor
    · exact fun byArgument => (same a1 (if_pos byArgument)).symm
    · rintro rfl
      exact same 0 rfl
  · rintro ⟨byArgument, isOpen⟩ sessionId made
    unfold callSession at made
    split_ifs at made with named opens
    · cases made
      exact (byArgument named).symm
    · cases made
      exact isOpen opens

/-- Two sessions, the first one running, and a descriptor of the second one. -/
def twoSessions : Machine where
  kernel := kernel.run .boot [.runProcess 1 100, .runProcess 1 100, .kernelTick none]
  vfs := (VfsState.new.openFile 2 "/dev/null" false).2
  driver := ⟨∅⟩
  memory _ := 0

theorem acts_for_caller_iff_close :
    (∀ sessionId, Uses sessionId (accessesOf (dispatch 0 3 1 3 0 0 0 0) twoSessions) →
        twoSessions.kernel.activeSession = some sessionId) ↔
      ((3 : U64) = 0 ∨ (3 : U64) = 1 ∨ (3 : U64) = 3 → (1 : U64) = 1) ∧
        ((3 : U64) = 2 → (1 : U64) = 0) :=
  acts_for_caller_iff (by decide)

/-- The first session closes the descriptor of the second one. -/
theorem closes_for_other_session :
    twoSessions.kernel.activeSession = some 1 ∧
      (twoSessions.vfs.descriptor 2 3).isSome ∧
      ((stateAfter (dispatch 0 3 2 3 0 0 0 0) twoSessions).vfs.descriptor 2 3).isNone ∧
      ¬ ∀ sessionId, Uses sessionId (accessesOf (dispatch 0 3 2 3 0 0 0 0) twoSessions) →
        twoSessions.kernel.activeSession = some sessionId := by
  have active : twoSessions.kernel.activeSession = some 1 := by decide
  refine ⟨active, by decide, by decide, fun acts => ?_⟩
  have same := acts 2 (uses_iff.mpr rfl)
  rw [active] at same
  exact absurd same (by decide)

/-! ### User memory -/

/-- A range of bytes lies in the memory of user programs, without wrapping. -/
def InUserMemory (ptr len : U64) : Prop :=
  len = 0 ∨ 0x2000_0000 ≤ ptr.toNat ∧ ptr.toNat + len.toNat ≤ 0x8000_0000

/-- All memory that is accessed is user memory. -/
def Confined (accesses : List Access) : Prop :=
  ∀ ptr len, .memory ptr len ∈ accesses → InUserMemory ptr len

/-- A part of a checked range lies in user memory. -/
theorem inUserMemory_of_inUserRange {ptr whole len : U64} (checked : inUserRange ptr whole)
    (part : len.toNat ≤ whole.toNat) : InUserMemory ptr len := by
  unfold inUserRange at checked
  obtain ⟨_, low, _, high⟩ := of_decide_eq_true checked
  exact .inr ⟨low, by omega⟩

/-- An access is admitted if its memory is the user's. -/
theorem admits_confined {access : Access}
    (inside : ∀ ptr len, access = .memory ptr len → InUserMemory ptr len) :
    Admits Confined access := by
  intro accesses confined ptr len member
  rcases List.mem_cons.mp member with same | earlier
  · exact inside ptr len same.symm
  · exact confined ptr len earlier

/-- **User pointers are confined** exactly if the path of an open lies in user memory. -/
theorem user_memory_confined_iff :
    Confined (accessesOf (dispatch fuel nr a1 a2 a3 a4 a5 a6) machine) ↔
      (nr = 2 → InUserMemory a1 a2) := by
  constructor
  · rintro confined rfl
    have admits : ∀ {access : Access}, Admits (.memory a1 a2 ∈ ·) access :=
      fun _ => List.mem_cons_of_mem _
    have reads : Ensures (Recorded (.memory a1 a2 ∈ ·))
        (dispatch fuel 2 a1 a2 a3 a4 a5 a6) := by
      refine Ensures.bind (Ensures.bind (ensures_readMemory fun _ => List.mem_cons_self)
        fun pathSlice => ?_) fun _ => .pure _
      exact keeps_withCapability (keeps_checkCapability admits _)
        (keeps_openPath (keeps_onDescriptors admits))
    exact confined a1 a2 (reads _)
  · intro path
    refine keeps_recorded (fun made same => ⟨admits_confined nofun, admits_confined nofun⟩)
      (fun isOpen => admits_confined ?_) (fun checked len part => admits_confined ?_)
      { machine with accesses := [] } fun _ _ none => ?_
    · rintro _ _ ⟨⟩
      exact path isOpen
    · rintro _ _ ⟨⟩
      exact inUserMemory_of_inUserRange checked part
    · cases none

/-- The path of an open is read from the memory of the kernel. -/
theorem reads_kernel_memory :
    ¬ Confined (accessesOf (dispatch 0 2 0x1000 8 0 0 0 0) twoSessions) := by
  intro confined
  have inside := confined 0x1000 8 (by decide +kernel)
  unfold InUserMemory at inside
  exact absurd inside (by decide)

/-! ### The tables of other sessions -/

/-- **The record of a system call is complete**: the descriptor table of a session
whose descriptors are not recorded is unchanged. -/
theorem fdTables_of_not_recorded
    (unrecorded : .descriptors sessionId ∉
      accessesOf (dispatch fuel nr a1 a2 a3 a4 a5 a6) machine) :
    (stateAfter (dispatch fuel nr a1 a2 a3 a4 a5 a6) machine).vfs.fdTables[sessionId]? =
      machine.vfs.fdTables[sessionId]? := by
  let invariant (state : Machine) : Prop := .descriptors sessionId ∈ state.accesses ∨
    state.vfs.fdTables[sessionId]? = machine.vfs.fdTables[sessionId]?
  have recorded : ∀ access, Keeps invariant (record access) :=
    fun access => .modify fun _ => Or.imp_left (List.mem_cons_of_mem access)
  have kept : Keeps invariant (dispatch fuel nr a1 a2 a3 a4 a5 a6) := by
    refine keeps_dispatch
      (fun _ _ _ => (recorded _).bind fun _ => Keeps.get_bind fun _ holds => holds)
      (fun other _ _ operation stays => ?_)
      (fun _ => (recorded _).bind fun _ => Keeps.get_bind fun _ holds => holds)
      (fun _ => (recorded _).bind fun _ => Keeps.get_bind fun _ holds => holds)
      fun _ _ _ => (recorded _).bind fun _ => .modify fun _ holds => holds
    by_cases same : other = sessionId
    · subst same
      exact fun start _ => .inl (ensures_onDescriptors (fun _ => List.mem_cons_self) start)
    · refine (recorded _).bind fun _ => Keeps.get_bind fun state holds => ?_
      cases done : operation state.vfs state.driver with
      | error fault => exact holds
      | ok result =>
          exact holds.imp_right fun unchanged =>
            (stays _ _ _ _ done sessionId (Ne.symm same)).trans unchanged
  exact (kept { machine with accesses := [] } (.inr rfl)).resolve_left unrecorded

end Syscall

end Lofita.Kernel
