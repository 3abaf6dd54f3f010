import Lofita.Fs.BlockMap
import Lofita.Fs.Vfs

/-! # Reading back what was written

A write goes to a file in memory; a read looks at the Ext2 volume first. What one
session writes another reads back exactly if no file of the volume with other bytes
is found at the path (`reads_writes_iff`).
-/

namespace Lofita.Fs

open Lofita.Foundation Std

namespace VfsState

/-- One session opens a path and writes, then another opens the path and reads: the
bytes read, if all four calls succeed. -/
def writeThenRead (vfs : VfsState) (fuel : Nat) (dm : DriverManager) (writer reader : U64)
    (path : String) (data : List U8) (isWrite : Bool) (size : U64) :
    Checked (Option (List U8)) :=
  match vfs.openFile writer path true with
  | (.error _, _) => return none
  | (.ok fd, opened) => do
      match ← opened.write dm writer fd data with
      | (.error _, _) => return none
      | (.ok _, stored) =>
          match stored.openFile reader path isWrite with
          | (.error _, _) => return none
          | (.ok fd, reopened) =>
              match ← reopened.read fuel dm reader fd size with
              | (.error _, _) => return none
              | (.ok bytes, _) => return some bytes

/-- The bytes of the file of the Ext2 volume at a path, if there is one. -/
def shadow (vfs : VfsState) (fuel : Nat) (dm : DriverManager) (path : String) :
    Checked (Option (List U8)) := do
  if ¬ hasPrefix "/mnt/ext2/" path then
    return none
  let some ext2 := vfs.ext2Fs | return none
  let some inodeNum ← ext2.resolvePath dm fuel
    (String.ofList (path.toList.drop "/mnt/ext2/".length)) | return none
  let some inode ← ext2.getInode inodeNum dm | return none
  if inode.isDirectory then
    return none
  some <$> ext2.readInodeData dm inode

/-- A session holds a descriptor. -/
def Describes (vfs : VfsState) (sessionId : U64) (fd : U32) (desc : FileDescriptor) : Prop :=
  ∃ table, vfs.fdTables[sessionId]? = some table ∧ table[fd]? = some desc

variable {vfs : VfsState} {fuel : Nat} {dm : DriverManager} {sessionId : U64} {fd : U32}
  {path : String} {desc : FileDescriptor} {file : RamFile} {size : U64}

/-! ### Opening -/

theorem describes_setDescriptor (vfs : VfsState) (sessionId : U64) (fd : U32)
    (desc : FileDescriptor) :
    (vfs.setDescriptor sessionId fd desc).Describes sessionId fd desc :=
  ⟨_, TreeMap.getElem?_insert_self, TreeMap.getElem?_insert_self⟩

/-- Opening a file in memory enters a descriptor at its start, and keeps the content
of the file if it was there. -/
theorem openFile_spec (vfs : VfsState) {path : String} (accepted : isInvalidPath path = false)
    (notDevice : isDevicePath path = false) (isWrite : Bool)
    (present : isWrite = true ∨ path ∈ vfs.ramfs) (sessionId : U64) :
    ∃ fd opened file, vfs.openFile sessionId path isWrite = (.ok fd, opened) ∧
      opened.Describes sessionId fd { fd, path, isWriteable := isWrite, offset := 0 } ∧
      opened.ramfs[path]? = some file ∧ opened.ext2Fs = vfs.ext2Fs ∧
      file = (vfs.ramfs[path]?).getD { path, content := [] } := by
  let desc (created : VfsState) : FileDescriptor :=
    { fd := created.nextFd, path, isWriteable := isWrite, offset := 0 }
  by_cases inMemory : path ∈ vfs.ramfs
  · have found := TreeMap.getElem?_eq_some_getElem inMemory
    refine ⟨vfs.nextFd,
      { vfs.setDescriptor sessionId vfs.nextFd (desc vfs) with nextFd := vfs.nextFd + 1 },
      vfs.ramfs[path], ?_, describes_setDescriptor vfs sessionId vfs.nextFd (desc vfs), found, rfl,
      by rw [found, Option.getD_some]⟩
    simp only [openFile, accepted, notDevice, inMemory, Bool.false_eq_true, not_true_eq_false,
      and_false, ↓reduceIte]
    rfl
  · cases present.resolve_right inMemory
    have created : path ∈ (vfs.createFile path).ramfs := TreeMap.mem_insert_self
    refine ⟨vfs.nextFd,
      { (vfs.createFile path).setDescriptor sessionId vfs.nextFd (desc vfs) with
        nextFd := vfs.nextFd + 1 },
      { path, content := [] }, ?_,
      describes_setDescriptor (vfs.createFile path) sessionId vfs.nextFd (desc vfs),
      TreeMap.getElem?_insert_self, rfl, ?_⟩
    · simp only [openFile, accepted, notDevice, inMemory, created, Bool.false_eq_true,
        not_true_eq_false, not_false_eq_true, and_self, and_false, ↓reduceIte]
      rfl
    · rw [TreeMap.getElem?_eq_none inMemory]
      rfl

/-! ### Writing -/

/-- Writing to a file in memory replaces the bytes from the offset on. -/
theorem write_at {data : List U8} (described : vfs.Describes sessionId fd desc)
    (writeable : desc.isWriteable = true) (notDevice : isDevicePath desc.path = false)
    (found : vfs.ramfs[desc.path]? = some file) (inside : desc.offset.toNat ≤ file.content.length)
    (fits : desc.offset.toNat + data.length < 2 ^ 64) :
    ∃ content, content = file.content.take desc.offset.toNat ++ data ++
        file.content.drop (desc.offset.toNat + data.length) ∧
      vfs.write dm sessionId fd data = .ok (.ok (BitVec.ofNat 64 data.length),
        { vfs with ramfs := vfs.ramfs.insert desc.path { file with content } }.advance sessionId fd
          desc (BitVec.ofNat 64 data.length)) := by
  obtain ⟨table, tableIs, descIs⟩ := described
  refine ⟨_, rfl, ?_⟩
  simp only [write, tableIs, descIs, writeable, not_true_eq_false, ↓reduceIte, writeContent,
    notDevice, Bool.false_eq_true, found, writeAt_eq inside fits, Outcome.bind_ok]
  rfl

theorem write_spec {data : List U8} (described : vfs.Describes sessionId fd desc)
    (writeable : desc.isWriteable = true) (start : desc.offset = 0)
    (notDevice : isDevicePath desc.path = false) (found : vfs.ramfs[desc.path]? = some file)
    (short : data.length < 2 ^ 64) :
    ∃ count stored rest, vfs.write dm sessionId fd data = .ok (.ok count, stored) ∧
      stored.ramfs[desc.path]? = some { file with content := data ++ rest } ∧
      stored.ext2Fs = vfs.ext2Fs := by
  have first : desc.offset.toNat = 0 := congrArg BitVec.toNat start
  obtain ⟨content, replaced, done⟩ := @write_at _ dm _ _ _ _ data described writeable notDevice
    found (by omega) (by omega)
  rw [first, Nat.zero_add, List.take_zero, List.nil_append] at replaced
  subst replaced
  exact ⟨_, _, _, done, TreeMap.getElem?_insert_self, rfl⟩

/-! ### Reading -/

/-- What a read of the volume gives is part of the file at the path. -/
theorem readMounted_eq (vfs : VfsState) (fuel : Nat) (dm : DriverManager) (desc : FileDescriptor)
    (size : U64) :
    vfs.readMounted fuel dm desc size =
      (vfs.shadow fuel dm desc.path >>= fun found =>
        match found with
        | some content => some <$> readAt content desc.offset size
        | none => return none) := by
  unfold readMounted shadow
  by_cases elsewhere : hasPrefix "/mnt/ext2/" desc.path = true
  · cases vfs.ext2Fs with
    | none =>
        simp only [elsewhere, not_true_eq_false, ↓reduceIte]
        rfl
    | some ext2 =>
        simp only [elsewhere, not_true_eq_false, ↓reduceIte]
        rcases ext2.resolvePath dm fuel
          (String.ofList (desc.path.toList.drop "/mnt/ext2/".length)) with _ | (_ | inodeNum)
        · rfl
        · rfl
        · simp only [Outcome.bind_ok]
          rcases ext2.getInode inodeNum dm with _ | (_ | inode)
          · rfl
          · rfl
          · simp only [Outcome.bind_ok]
            split_ifs
            · rfl
            · rcases ext2.readInodeData dm inode with _ | content <;> rfl
  · simp only [elsewhere]
    rfl

/-- Reading from the start gives the first bytes. -/
theorem readAt_start (content : List U8) (size : U64) :
    readAt content 0 size = .ok (content.take size.toNat) := by
  have first : (0 : U64).toNat = 0 := rfl
  rw [readAt_eq (by rw [first, Nat.zero_add]; exact size.isLt), first]
  rfl

/-- What a read through a descriptor answers. -/
theorem read_spec (described : vfs.Describes sessionId fd desc) {bytes : List U8} :
    (∃ after, vfs.read fuel dm sessionId fd size = .ok (.ok bytes, after)) ↔
      vfs.readContent fuel dm desc size = .ok (some bytes) := by
  obtain ⟨table, tableIs, descIs⟩ := described
  simp only [read, tableIs, descIs]
  rcases vfs.readContent fuel dm desc size with _ | (_ | found)
  · exact iff_of_false nofun nofun
  · exact iff_of_false nofun nofun
  · constructor
    · rintro ⟨after, ⟨⟩⟩
      rfl
    · rintro ⟨⟩
      exact ⟨_, rfl⟩

/-- A read from the start of a file in memory gives its first bytes, unless the volume
has a file at the path. -/
theorem readContent_spec (start : desc.offset = 0) (notDevice : isDevicePath desc.path = false)
    (found : vfs.ramfs[desc.path]? = some file) {bytes : List U8} :
    vfs.readContent fuel dm desc size = .ok (some bytes) ↔
      vfs.shadow fuel dm desc.path = .ok none ∧ file.content.take size.toNat = bytes ∨
      ∃ content, vfs.shadow fuel dm desc.path = .ok (some content) ∧
        content.take size.toNat = bytes := by
  have memory : vfs.readRamfs desc size = .ok (some (file.content.take size.toNat)) := by
    simp only [readRamfs, found, start, readAt_start]
    rfl
  simp only [readContent, notDevice, Bool.false_eq_true, ↓reduceIte, readMounted_eq, start,
    readAt_start, memory]
  rcases vfs.shadow fuel dm desc.path with fault | (_ | content)
  · refine iff_of_false nofun ?_
    rintro (⟨⟨⟩, _⟩ | ⟨_, ⟨⟩, _⟩)
  · constructor
    · rintro ⟨⟩
      exact Or.inl ⟨rfl, rfl⟩
    · rintro (⟨_, rfl⟩ | ⟨_, ⟨⟩, _⟩)
      rfl
  · constructor
    · rintro ⟨⟩
      exact Or.inr ⟨content, rfl, rfl⟩
    · rintro (⟨⟨⟩, _⟩ | ⟨_, ⟨⟩, rfl⟩)
      rfl

/-! ### All four calls -/

/-- What the reader gets: the start of the file of the volume at the path, or else of
the data followed by what was left of the file in memory. -/
theorem writeThenRead_spec (vfs : VfsState) (fuel : Nat) (dm : DriverManager)
    (writer reader : U64) {path : String} (accepted : isInvalidPath path = false)
    (notDevice : isDevicePath path = false) {data : List U8} (isWrite : Bool) {size : U64}
    (short : data.length < 2 ^ 64) :
    ∃ rest, ∀ bytes,
      vfs.writeThenRead fuel dm writer reader path data isWrite size = .ok (some bytes) ↔
        vfs.shadow fuel dm path = .ok none ∧ (data ++ rest).take size.toNat = bytes ∨
        ∃ content, vfs.shadow fuel dm path = .ok (some content) ∧
          content.take size.toNat = bytes := by
  obtain ⟨fd, opened, file, opens, described, found, sameVolume, _⟩ :=
    vfs.openFile_spec accepted notDevice true (Or.inl rfl) writer
  obtain ⟨count, stored, rest, writes, foundStored, sameToo⟩ :=
    @write_spec _ dm writer fd _ _ data described rfl rfl notDevice found short
  have present : path ∈ stored.ramfs := by
    rw [TreeMap.mem_iff_isSome_getElem?, foundStored]
    rfl
  obtain ⟨fdRead, reopened, fileRead, reopens, describedRead, foundRead, sameLast, kept⟩ :=
    stored.openFile_spec accepted notDevice isWrite (Or.inr present) reader
  have volume : reopened.shadow fuel dm path = vfs.shadow fuel dm path := by
    unfold shadow
    rw [sameLast, sameToo, sameVolume]
  rw [foundStored, Option.getD_some] at kept
  subst kept
  refine ⟨rest, fun bytes => ?_⟩
  have content := @readContent_spec reopened fuel dm
    { fd := fdRead, path, isWriteable := isWrite, offset := 0 } _ size rfl notDevice foundRead bytes
  have answer := @read_spec reopened fuel dm reader fdRead _ size describedRead bytes
  rw [volume] at content
  rw [← content, ← answer]
  simp only [writeThenRead, opens, writes, reopens, Outcome.bind_ok]
  rcases reopened.read fuel dm reader fdRead size with _ | ⟨_ | got, after⟩
  · exact iff_of_false nofun nofun
  · exact iff_of_false nofun nofun
  · constructor
    · rintro ⟨⟩
      exact ⟨after, rfl⟩
    · rintro ⟨_, ⟨⟩⟩
      rfl

/-- **When sessions read what they write.** If a path outside the devices can be
opened, one session writes to it from the start and another opens it and reads at
least as many bytes, then bytes are read that begin with the bytes written exactly if the
mounted volume has no file at that path, or one that begins with them. -/
theorem reads_writes_iff (vfs : VfsState) (fuel : Nat) (dm : DriverManager)
    (writer reader : U64) {path : String} (accepted : isInvalidPath path = false)
    (notDevice : isDevicePath path = false) {data : List U8} (isWrite : Bool) {size : U64}
    (enough : data.length ≤ size.toNat) :
    (∃ bytes, vfs.writeThenRead fuel dm writer reader path data isWrite size = .ok (some bytes) ∧
      data <+: bytes) ↔
      vfs.shadow fuel dm path = .ok none ∨
        ∃ content, vfs.shadow fuel dm path = .ok (some content) ∧ data <+: content := by
  have short : data.length < 2 ^ 64 :=
    Nat.lt_of_le_of_lt enough size.isLt
  obtain ⟨rest, answers⟩ :=
    vfs.writeThenRead_spec fuel dm writer reader accepted notDevice isWrite short
  constructor
  · rintro ⟨bytes, got, begins⟩
    rcases (answers bytes).mp got with ⟨unshadowed, _⟩ | ⟨content, shadowed, rfl⟩
    · exact .inl unshadowed
    · exact .inr ⟨content, shadowed, begins.trans (List.take_prefix _ _)⟩
  · rintro (unshadowed | ⟨content, shadowed, begins⟩)
    · exact ⟨_, (answers _).mpr (.inl ⟨unshadowed, rfl⟩),
        List.prefix_take_iff.mpr ⟨List.prefix_append data rest, enough⟩⟩
    · exact ⟨_, (answers _).mpr (.inr ⟨content, shadowed, rfl⟩),
        List.prefix_take_iff.mpr ⟨begins, enough⟩⟩

/-- A disk whose root directory has one file `a` with the content `x`: inode 2 and
inode 3 in the table at block 3, the directory in block 5 and the file in block 6. -/
def shadowDisk (addr : Nat) : U8 :=
  match addr with
  | 3201 => 0x40
  | 3204 => 12
  | 3240 => 5
  | 3329 => 0x80
  | 3332 => 1
  | 3368 => 6
  | 5120 => 3
  | 5124 => 12
  | 5126 => 1
  | 5128 => 0x61
  | 6144 => 0x78
  | _ => 0

/-- Nothing in memory, and the disk mounted. -/
def shadowed : VfsState := { new with ext2Fs := some Ext2Fs.filledFs }

theorem shadow_shadowed :
    shadowed.shadow 2 (Ext2Fs.diskManager shadowDisk) "/mnt/ext2/a" = .ok (some [0x78]) := by
  decide +kernel

theorem reads_writes_iff_shadowed :
    (∃ bytes, shadowed.writeThenRead 2 (Ext2Fs.diskManager shadowDisk) 1 2 "/mnt/ext2/a" [0x78]
      false 1 = .ok (some bytes) ∧ [0x78] <+: bytes) ↔
      shadowed.shadow 2 (Ext2Fs.diskManager shadowDisk) "/mnt/ext2/a" = .ok none ∨
        ∃ content, shadowed.shadow 2 (Ext2Fs.diskManager shadowDisk) "/mnt/ext2/a" =
          .ok (some content) ∧ [0x78] <+: content :=
  reads_writes_iff shadowed 2 _ 1 2 (by decide) (by decide) false (by decide)

/-- Session 2 reads the file of the volume instead of what session 1 wrote. -/
theorem not_reads_writes_shadowed :
    isInvalidPath "/mnt/ext2/a" = false ∧ isDevicePath "/mnt/ext2/a" = false ∧
      ¬ ∃ bytes, shadowed.writeThenRead 2 (Ext2Fs.diskManager shadowDisk) 1 2 "/mnt/ext2/a" [0x79]
        false 1 = .ok (some bytes) ∧ [0x79] <+: bytes := by
  have accepted : isInvalidPath "/mnt/ext2/a" = false := by decide
  have notDevice : isDevicePath "/mnt/ext2/a" = false := by decide
  have short : [(0x79 : U8)].length < 2 ^ 64 := by decide
  refine ⟨accepted, notDevice, ?_⟩
  rintro ⟨bytes, got, begins⟩
  obtain ⟨rest, answers⟩ := shadowed.writeThenRead_spec 2 (Ext2Fs.diskManager shadowDisk) 1 2
    accepted notDevice false short
  rcases (answers bytes).mp got with ⟨unshadowed, _⟩ | ⟨content, isShadow, rfl⟩
  · cases shadow_shadowed.symm.trans unshadowed
  · cases shadow_shadowed.symm.trans isShadow
    revert begins
    decide

end VfsState

end Lofita.Fs
