import Mathlib.Data.List.Infix
import Lofita.Fs.Ext2

/-! # The virtual file system

`VfsState` of `vfs.rs`: files in memory, a mounted Ext2 volume, and one descriptor
table for each session. Offsets wrap at 64 bits, as the release profile has no
overflow checks; a slice whose bounds are out of order is a fault.
-/

namespace Lofita.Fs

open Lofita.Foundation Std

/-- An open file of a session. -/
structure FileDescriptor where
  fd : U32
  path : String
  isWriteable : Bool
  offset : U64
deriving DecidableEq, Repr

/-- A file kept in memory. -/
structure RamFile where
  path : String
  content : List U8
deriving DecidableEq, Repr

/-- The files, the descriptors of each session, and the mounted volume. -/
structure VfsState where
  fdTables : TreeMap U64 (TreeMap U32 FileDescriptor)
  ramfs : TreeMap String RamFile
  ext2Fs : Option Ext2Fs
  nextFd : U32

/-- The path starts with a prefix. -/
def hasPrefix (start path : String) : Bool := start.toList.isPrefixOf path.toList

/-- A path of the device directory. -/
def isDevicePath (path : String) : Bool := hasPrefix "/dev/" path

/-- The guard against path traversal. -/
def isInvalidPath (path : String) : Bool :=
  "..".toList <:+: path.toList ∨ '\x00' ∈ path.toList

/-- The bytes of a file from an offset on, as far as a size goes. -/
def readAt (content : List U8) (offset size : U64) : Checked (List U8) :=
  if content.length ≤ offset.toNat then return []
  else slice content offset.toNat (min (offset + size).toNat content.length)

/-- Reading gives the bytes from the offset on. -/
theorem readAt_eq {content : List U8} {offset size : U64}
    (fits : offset.toNat + size.toNat < 2 ^ 64) :
    readAt content offset size = .ok ((content.drop offset.toNat).take size.toNat) := by
  have last : (offset + size).toNat = offset.toNat + size.toNat := toNat_add_of_lt fits
  unfold readAt
  rw [last]
  split
  · next past =>
      rw [List.drop_eq_nil_of_le past, List.take_nil]
      rfl
  · next inside =>
      have count : min (offset.toNat + size.toNat) content.length - offset.toNat =
          min size.toNat (content.drop offset.toNat).length := by
        rw [List.length_drop]
        omega
      unfold slice
      rw [if_pos ⟨by omega, Nat.min_le_right _ _⟩, count, ← List.take_eq_take_min]
      rfl

namespace VfsState

/-- No files, no descriptors, no volume. -/
def new : VfsState where
  fdTables := ∅
  ramfs := ∅
  ext2Fs := none
  nextFd := 3

variable (vfs : VfsState)

/-- The descriptors of a session. -/
def table (sessionId : U64) : TreeMap U32 FileDescriptor := vfs.fdTables.getD sessionId ∅

/-- The open file behind a number of a session. -/
def descriptor (sessionId : U64) (fd : U32) : Option FileDescriptor :=
  (vfs.table sessionId)[fd]?

/-- Enter a descriptor in the table of a session. -/
def setDescriptor (sessionId : U64) (fd : U32) (desc : FileDescriptor) : VfsState :=
  { vfs with
    fdTables := vfs.fdTables.insert sessionId ((vfs.table sessionId).insert fd desc) }

/-- Create an empty file. -/
def createFile (path : String) : VfsState :=
  { vfs with ramfs := vfs.ramfs.insert path { path, content := [] } }

/-- `open`: only paths of devices and of files in memory are found. -/
def openFile (sessionId : U64) (path : String) (isWrite : Bool) : Except String U32 × VfsState :=
  if isInvalidPath path then (.error "Invalid path", vfs)
  else
    let created :=
      if isWrite ∧ ¬ isDevicePath path ∧ path ∉ vfs.ramfs then vfs.createFile path else vfs
    if ¬ isDevicePath path ∧ path ∉ created.ramfs then (.error "File not found", created)
    else
      let desc : FileDescriptor :=
        { fd := created.nextFd, path, isWriteable := isWrite, offset := 0 }
      (.ok created.nextFd,
        { created.setDescriptor sessionId created.nextFd desc with nextFd := created.nextFd + 1 })

def close (sessionId : U64) (fd : U32) : Except String Unit × VfsState :=
  match vfs.fdTables[sessionId]? with
  | none => (.error "Invalid file descriptor", vfs)
  | some table =>
      if fd ∈ table then
        (.ok (), { vfs with fdTables := vfs.fdTables.insert sessionId (table.erase fd) })
      else (.error "Invalid file descriptor", vfs)

variable (fuel : Nat) (dm : DriverManager)

/-- Read a file of the Ext2 volume, if the path leads to one. -/
def readMounted (desc : FileDescriptor) (size : U64) : Checked (Option (List U8)) := do
  if ¬ hasPrefix "/mnt/ext2/" desc.path then
    return none
  let some ext2 := vfs.ext2Fs | return none
  let relPath := String.ofList (desc.path.toList.drop "/mnt/ext2/".length)
  let some inodeNum ← ext2.resolvePath dm fuel relPath | return none
  let some inode ← ext2.getInode inodeNum dm | return none
  if inode.isDirectory then
    return none
  let fileData ← ext2.readInodeData dm inode
  some <$> readAt fileData desc.offset size

/-- Read a file in memory. -/
def readRamfs (desc : FileDescriptor) (size : U64) : Checked (Option (List U8)) :=
  match vfs.ramfs[desc.path]? with
  | some file => some <$> readAt file.content desc.offset size
  | none => return none

/-- What a descriptor gives: a device first, then the Ext2 volume, then the files in
memory. -/
def readContent (desc : FileDescriptor) (size : U64) : Checked (Option (List U8)) := do
  if isDevicePath desc.path then
    if let some data ← dm.readDevice desc.path desc.offset size then
      return some data
  if let some data ← vfs.readMounted fuel dm desc size then
    return some data
  vfs.readRamfs desc size

/-- Move a descriptor on by the bytes read or written. -/
def advance (sessionId : U64) (fd : U32) (desc : FileDescriptor) (count : U64) : VfsState :=
  vfs.setDescriptor sessionId fd { desc with offset := desc.offset + count }

/-- `read`, which moves the offset by what it read. -/
def read (sessionId : U64) (fd : U32) (size : U64) :
    Checked (Except String (List U8) × VfsState) :=
  match vfs.fdTables[sessionId]? with
  | none => return (.error "Session not found", vfs)
  | some table =>
      match table[fd]? with
      | none => return (.error "Invalid file descriptor", vfs)
      | some desc => do
          let some data ← vfs.readContent fuel dm desc size
            | return (.error "File not found in RAMFS", vfs)
          return (.ok data, vfs.advance sessionId fd desc (BitVec.ofNat 64 data.length))

/-- Overwrite the bytes of a file from an offset on, with zeros where it was too
short. -/
def writeAt (content : List U8) (offset : U64) (data : List U8) : Checked (List U8) := do
  let last := offset + BitVec.ofNat 64 data.length
  let resized := content ++ List.replicate (last.toNat - content.length) 0
  let _ ← slice resized offset.toNat last.toNat
  return resized.take offset.toNat ++ data ++ resized.drop last.toNat

/-- Writing within the content, or right after it, replaces bytes and appends the rest. -/
theorem writeAt_eq {content data : List U8} {offset : U64} (inside : offset.toNat ≤ content.length)
    (fits : offset.toNat + data.length < 2 ^ 64) :
    writeAt content offset data =
      .ok (content.take offset.toNat ++ data ++ content.drop (offset.toNat + data.length)) := by
  have last : (offset + BitVec.ofNat 64 data.length).toNat = offset.toNat + data.length := by
    have size : (BitVec.ofNat 64 data.length).toNat = data.length := Nat.mod_eq_of_lt (by omega)
    rw [toNat_add_of_lt (by rwa [size]), size]
  have beyond : (content ++ List.replicate (offset.toNat + data.length - content.length)
      (0 : U8)).drop (offset.toNat + data.length) = content.drop (offset.toNat + data.length) := by
    rw [List.drop_append, List.drop_replicate, Nat.sub_self, List.replicate_zero, List.append_nil]
  have enough : offset.toNat + data.length ≤ (content ++
      List.replicate (offset.toNat + data.length - content.length) (0 : U8)).length := by
    rw [List.length_append, List.length_replicate]
    omega
  simp only [writeAt, last, slice, Nat.le_add_right, enough, and_self, ↓reduceIte, beyond,
    List.take_append_of_le_length inside]
  rfl

/-- Write through a descriptor: the number of bytes written and the state without
the new offset. -/
def writeContent (desc : FileDescriptor) (data : List U8) :
    Checked (Except String U64 × VfsState) :=
  if isDevicePath desc.path then do
    match ← dm.writeDevice desc.path desc.offset data with
    | some written => return (.ok written, vfs)
    | none => return (.error "Device write failed", vfs)
  else
    match vfs.ramfs[desc.path]? with
    | none => return (.error "File not found in RAMFS", vfs)
    | some file => do
        let content ← writeAt file.content desc.offset data
        return (.ok (BitVec.ofNat 64 data.length),
          { vfs with ramfs := vfs.ramfs.insert desc.path { file with content } })

/-- `write`, which moves the offset by what it wrote. -/
def write (sessionId : U64) (fd : U32) (data : List U8) :
    Checked (Except String U64 × VfsState) :=
  match vfs.fdTables[sessionId]? with
  | none => return (.error "Session not found", vfs)
  | some table =>
      match table[fd]? with
      | none => return (.error "Invalid file descriptor", vfs)
      | some desc => do
          if ¬ desc.isWriteable then
            return (.error "FD not writable", vfs)
          let (result, written) ← vfs.writeContent dm desc data
          match result with
          | .error error => return (.error error, written)
          | .ok count => return (.ok count, written.advance sessionId fd desc count)

/-! ### What the calls leave

Every call either fails and leaves the state as it is, or replaces one descriptor of
its session. -/

/-- The conditions under which a path is opened. -/
def Accepts (vfs : VfsState) (path : String) (isWrite : Bool) : Prop :=
  isInvalidPath path = false ∧ (isDevicePath path = true ∨ isWrite = true ∨ path ∈ vfs.ramfs)

instance (vfs : VfsState) (path : String) (isWrite : Bool) : Decidable (vfs.Accepts path isWrite) :=
  inferInstanceAs (Decidable (_ ∧ _))

variable {vfs fuel dm} {sessionId : U64} {fd : U32} {after : VfsState} {path : String}
  {isWrite : Bool}

/-- A path that is not accepted is refused, and nothing changes. -/
theorem openFile_of_not_accepts (sessionId : U64) (refused : ¬ vfs.Accepts path isWrite) :
    ∃ error, vfs.openFile sessionId path isWrite = (.error error, vfs) := by
  by_cases invalid : isInvalidPath path = true
  · exact ⟨"Invalid path", by simp only [openFile, invalid, ↓reduceIte]⟩
  · rw [Bool.not_eq_true] at invalid
    obtain ⟨notDevice, others⟩ := not_or.mp (not_and.mp refused invalid)
    obtain ⟨notWrite, missing⟩ := not_or.mp others
    refine ⟨"File not found", ?_⟩
    simp only [openFile, invalid, notDevice, notWrite, missing, Bool.false_eq_true, false_and,
      not_false_eq_true, and_self, ↓reduceIte]

/-- An open that succeeds uses the next number for a descriptor at the start. -/
theorem openFile_of_accepts (sessionId : U64) (accepted : vfs.Accepts path isWrite) :
    ∃ created : VfsState, created.fdTables = vfs.fdTables ∧ created.nextFd = vfs.nextFd ∧
      vfs.openFile sessionId path isWrite = (.ok vfs.nextFd,
        { created.setDescriptor sessionId vfs.nextFd
            { fd := vfs.nextFd, path, isWriteable := isWrite, offset := 0 } with
          nextFd := vfs.nextFd + 1 }) := by
  obtain ⟨valid, present⟩ := accepted
  by_cases creates : isWrite = true ∧ ¬ isDevicePath path = true ∧ path ∉ vfs.ramfs
  · have found : path ∈ (vfs.createFile path).ramfs := TreeMap.mem_insert_self
    refine ⟨vfs.createFile path, rfl, rfl, ?_⟩
    simp only [openFile, valid, creates, found, Bool.false_eq_true, not_true_eq_false,
      not_false_eq_true, and_self, and_false, ↓reduceIte]
    rfl
  · have found : ¬ (¬ isDevicePath path = true ∧ path ∉ vfs.ramfs) := by
      rintro ⟨notDevice, missing⟩
      rcases present with device | writes | inMemory
      · exact notDevice device
      · exact creates ⟨writes, notDevice, missing⟩
      · exact missing inMemory
    refine ⟨vfs, rfl, rfl, ?_⟩
    simp only [openFile, valid, Bool.false_eq_true, ↓reduceIte]
    rw [if_neg creates, if_neg found]

/-- A read that fails changes nothing, and one that succeeds replaces the descriptor. -/
theorem read_outcome {size : U64} {result : Except String (List U8)}
    (done : vfs.read fuel dm sessionId fd size = .ok (result, after)) :
    (∃ error, result = .error error ∧ after = vfs) ∨
      ∃ data desc, result = .ok data ∧ after = vfs.setDescriptor sessionId fd desc := by
  unfold read at done
  split at done
  · cases done
    exact .inl ⟨_, rfl, rfl⟩
  · split at done
    · cases done
      exact .inl ⟨_, rfl, rfl⟩
    · obtain ⟨answer, _, done⟩ := Outcome.ok_bind.mp done
      cases answer with
      | none =>
          cases done
          exact .inl ⟨_, rfl, rfl⟩
      | some data =>
          cases done
          exact .inr ⟨data, _, rfl, rfl⟩

/-- Writing a file leaves the descriptors alone, and nothing is written when it fails. -/
theorem writeContent_outcome {desc : FileDescriptor} {data : List U8}
    {result : Except String U64} (done : vfs.writeContent dm desc data = .ok (result, after)) :
    after.fdTables = vfs.fdTables ∧ ∀ error, result = .error error → after = vfs := by
  unfold writeContent at done
  split at done
  · obtain ⟨answer, _, done⟩ := Outcome.ok_bind.mp done
    cases answer <;> cases done <;> exact ⟨rfl, fun _ _ => rfl⟩
  · split at done
    · cases done
      exact ⟨rfl, fun _ _ => rfl⟩
    · obtain ⟨_, _, done⟩ := Outcome.ok_bind.mp done
      cases done
      exact ⟨rfl, fun _ failed => by cases failed⟩

/-- A write that fails changes nothing, and one that succeeds replaces the descriptor. -/
theorem write_outcome {data : List U8} {result : Except String U64}
    (done : vfs.write dm sessionId fd data = .ok (result, after)) :
    (∃ error, result = .error error ∧ after = vfs) ∨
      ∃ count desc, ∃ written : VfsState, result = .ok count ∧ written.fdTables = vfs.fdTables ∧
        after = written.setDescriptor sessionId fd desc := by
  unfold write at done
  split at done
  · cases done
    exact .inl ⟨_, rfl, rfl⟩
  · split at done
    · cases done
      exact .inl ⟨_, rfl, rfl⟩
    · split at done
      · cases done
        exact .inl ⟨_, rfl, rfl⟩
      · obtain ⟨⟨answer, written⟩, content, done⟩ := Outcome.ok_bind.mp done
        obtain ⟨same, failed⟩ := writeContent_outcome content
        cases answer with
        | error error =>
            cases done
            exact .inl ⟨error, rfl, failed error rfl⟩
        | ok count =>
            cases done
            exact .inr ⟨count, _, written, rfl, same, rfl⟩

/-! ### The tables of other sessions -/

/-- No descriptor table but that of a session differs. -/
def OthersUnchanged (sessionId : U64) (before after : VfsState) : Prop :=
  ∀ other ≠ sessionId, after.fdTables[other]? = before.fdTables[other]?

/-- A state leaves itself alone. -/
theorem OthersUnchanged.refl (vfs : VfsState) : OthersUnchanged sessionId vfs vfs :=
  fun _ _ => rfl

/-- A new table of one session leaves the others alone. -/
theorem othersUnchanged_insert (table : TreeMap U32 FileDescriptor) :
    OthersUnchanged sessionId vfs { vfs with fdTables := vfs.fdTables.insert sessionId table } := by
  intro other different
  change (vfs.fdTables.insert sessionId table)[other]? = _
  rw [TreeMap.getElem?_insert, if_neg]
  exact fun same => different (Std.compare_eq_iff_eq.mp same).symm

/-- A descriptor entered in the table of a session, with the other tables as before. -/
theorem othersUnchanged_setDescriptor {written : VfsState} (same : written.fdTables = vfs.fdTables)
    (desc : FileDescriptor) :
    OthersUnchanged sessionId vfs (written.setDescriptor sessionId fd desc) := by
  intro other different
  exact (othersUnchanged_insert _ other different).trans (congrArg (·[other]?) same)

/-- Opening leaves the other sessions alone. -/
theorem othersUnchanged_openFile (path : String) (isWrite : Bool) :
    OthersUnchanged sessionId vfs (vfs.openFile sessionId path isWrite).2 := by
  by_cases accepted : vfs.Accepts path isWrite
  · obtain ⟨created, same, _, opens⟩ := openFile_of_accepts sessionId accepted
    rw [opens]
    exact othersUnchanged_setDescriptor same _
  · obtain ⟨error, fails⟩ := openFile_of_not_accepts sessionId accepted
    rw [fails]
    exact .refl vfs

theorem othersUnchanged_close : OthersUnchanged sessionId vfs (vfs.close sessionId fd).2 := by
  unfold close
  split
  · exact .refl vfs
  · split
    · exact othersUnchanged_insert _
    · exact .refl vfs

theorem othersUnchanged_read {size : U64} {result : Except String (List U8)}
    (done : vfs.read fuel dm sessionId fd size = .ok (result, after)) :
    OthersUnchanged sessionId vfs after := by
  rcases read_outcome done with ⟨_, _, rfl⟩ | ⟨_, desc, _, rfl⟩
  · exact .refl after
  · exact othersUnchanged_setDescriptor rfl desc

theorem othersUnchanged_write {data : List U8} {result : Except String U64}
    (done : vfs.write dm sessionId fd data = .ok (result, after)) :
    OthersUnchanged sessionId vfs after := by
  rcases write_outcome done with ⟨_, _, rfl⟩ | ⟨_, desc, written, _, same, rfl⟩
  · exact .refl after
  · exact othersUnchanged_setDescriptor same desc

end VfsState

end Lofita.Fs
