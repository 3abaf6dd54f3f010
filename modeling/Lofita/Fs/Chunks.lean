import Lofita.Fs.ReadYourWrites

/-! # Reading and writing in pieces

Reads through one descriptor of a file in memory give the parts of its content one after
the other, whatever is read in between through other descriptors, and writing the pieces
of a byte string one after the other is writing it at once (`pieces_make_whole`).
-/

namespace Lofita.Fs

open Lofita.Foundation Std

namespace VfsState

/-- The bytes of the file in memory at a path, none if there is no file. -/
def contentOf (vfs : VfsState) (path : String) : List U8 :=
  ((vfs.ramfs[path]?).map RamFile.content).getD []

/-- Reads through a descriptor with the sizes requested and the bytes returned, among
reads through other descriptors. The devices may differ from read to read. -/
inductive Reads (opened : VfsState) (sessionId : U64) (fd : U32) :
    List U64 → List (List U8) → VfsState → Prop where
  | start : Reads opened sessionId fd [] [] opened
  | own {sizes : List U64} {results : List (List U8)} {vfs after : VfsState}
      {desc : FileDescriptor} {fuel : Nat} {dm : DriverManager} {size : U64} {data : List U8}
      (earlier : Reads opened sessionId fd sizes results vfs)
      (described : vfs.Describes sessionId fd desc)
      (fits : desc.offset.toNat + size.toNat < 2 ^ 64)
      (done : vfs.read fuel dm sessionId fd size = .ok (.ok data, after)) :
      Reads opened sessionId fd (sizes ++ [size]) (results ++ [data]) after
  | other {sizes : List U64} {results : List (List U8)} {vfs after : VfsState}
      {fuel : Nat} {dm : DriverManager} {otherId : U64} {otherFd : U32} {size : U64}
      {answer : Except String (List U8)} (earlier : Reads opened sessionId fd sizes results vfs)
      (different : otherId ≠ sessionId ∨ otherFd ≠ fd)
      (done : vfs.read fuel dm otherId otherFd size = .ok (answer, after)) :
      Reads opened sessionId fd sizes results after

/-- Write pieces one after the other through a descriptor. -/
def writePieces (dm : DriverManager) (sessionId : U64) (fd : U32) :
    VfsState → List (List U8) → Checked (Except String VfsState)
  | vfs, [] => return .ok vfs
  | vfs, piece :: pieces => do
      match ← vfs.write dm sessionId fd piece with
      | (.error error, _) => return .error error
      | (.ok _, written) => writePieces dm sessionId fd written pieces

variable {vfs after : VfsState} {fuel : Nat} {dm : DriverManager} {sessionId otherId : U64}
  {fd otherFd : U32} {path : String} {desc other : FileDescriptor} {file : RamFile} {size : U64}

/-! ### Descriptors -/

theorem Describes.unique (described : vfs.Describes sessionId fd desc)
    (too : vfs.Describes sessionId fd other) : desc = other := by
  obtain ⟨table, tableIs, descIs⟩ := described
  obtain ⟨sameTable, tableIsToo, otherIs⟩ := too
  cases tableIs.symm.trans tableIsToo
  exact Option.some.inj (descIs.symm.trans otherIs)

/-- Entering a descriptor keeps the other ones. -/
theorem Describes.setDescriptor (described : vfs.Describes sessionId fd desc)
    (different : otherId ≠ sessionId ∨ otherFd ≠ fd) :
    (vfs.setDescriptor otherId otherFd other).Describes sessionId fd desc := by
  obtain ⟨table, tableIs, descIs⟩ := described
  by_cases same : otherId = sessionId
  · subst same
    have otherNumber := different.resolve_left (not_not_intro rfl)
    refine ⟨_, TreeMap.getElem?_insert_self, ?_⟩
    have tableHere : vfs.table otherId = table := by
      unfold VfsState.table
      rw [TreeMap.getD_eq_getD_getElem?, tableIs, Option.getD_some]
    rw [TreeMap.getElem?_insert, if_neg fun equal => otherNumber (Std.compare_eq_iff_eq.mp equal),
      tableHere, descIs]
  · refine ⟨table, ?_, descIs⟩
    change (vfs.fdTables.insert otherId _)[sessionId]? = _
    rw [TreeMap.getElem?_insert, if_neg fun equal => same (Std.compare_eq_iff_eq.mp equal), tableIs]

/-! ### Files in memory -/

/-- A descriptor of a file in memory, at a path that leads neither to a device nor into the
mounted volume. -/
structure InMemory (vfs : VfsState) (sessionId : U64) (fd : U32) (desc : FileDescriptor)
    (file : RamFile) : Prop where
  described : vfs.Describes sessionId fd desc
  notDevice : isDevicePath desc.path = false
  notMounted : hasPrefix "/mnt/ext2/" desc.path = false
  found : vfs.ramfs[desc.path]? = some file

theorem InMemory.contentOf (memory : vfs.InMemory sessionId fd desc file) :
    vfs.contentOf desc.path = file.content := by
  unfold VfsState.contentOf
  rw [memory.found]
  rfl

/-- The descriptor moved on by some bytes. -/
def moved (desc : FileDescriptor) (count : Nat) : FileDescriptor :=
  { desc with offset := desc.offset + BitVec.ofNat 64 count }

theorem toNat_moved {count : Nat} (fits : desc.offset.toNat + count < 2 ^ 64) :
    (moved desc count).offset.toNat = desc.offset.toNat + count := by
  have word : (BitVec.ofNat 64 count).toNat = count := Nat.mod_eq_of_lt (by omega)
  unfold moved
  rw [toNat_add_of_lt (by rwa [word]), word]

/-- A read of a file in memory gives the bytes from the offset on and moves the descriptor. -/
theorem InMemory.read (memory : vfs.InMemory sessionId fd desc file) (fuel : Nat)
    (dm : DriverManager) (fits : desc.offset.toNat + size.toNat < 2 ^ 64) :
    ∃ data after, data = (file.content.drop desc.offset.toNat).take size.toNat ∧
      vfs.read fuel dm sessionId fd size = .ok (.ok data, after) ∧
      after.InMemory sessionId fd (moved desc data.length) file := by
  obtain ⟨⟨table, tableIs, descIs⟩, notDevice, notMounted, found⟩ := memory
  have content : vfs.readContent fuel dm desc size =
      .ok (some ((file.content.drop desc.offset.toNat).take size.toNat)) := by
    simp only [readContent, notDevice, Bool.false_eq_true, ↓reduceIte, readMounted, notMounted,
      not_false_eq_true, readRamfs, found, readAt_eq fits]
    rfl
  refine ⟨_, _, rfl, ?_, describes_setDescriptor vfs sessionId fd _, notDevice, notMounted, found⟩
  simp only [VfsState.read, tableIs, descIs, content, Outcome.bind_ok]
  rfl

/-- A write to a file in memory replaces the bytes from the offset on and moves the
descriptor. -/
theorem InMemory.write (memory : vfs.InMemory sessionId fd desc file) (dm : DriverManager)
    (writeable : desc.isWriteable = true) {data : List U8}
    (inside : desc.offset.toNat ≤ file.content.length)
    (fits : desc.offset.toNat + data.length < 2 ^ 64) :
    ∃ content after, content = file.content.take desc.offset.toNat ++ data ++
        file.content.drop (desc.offset.toNat + data.length) ∧
      vfs.write dm sessionId fd data = .ok (.ok (BitVec.ofNat 64 data.length), after) ∧
      after.InMemory sessionId fd (moved desc data.length) { file with content } := by
  obtain ⟨content, replaced, done⟩ :=
    write_at memory.described writeable memory.notDevice memory.found inside fits
  exact ⟨content, _, replaced, done, describes_setDescriptor _ sessionId fd _, memory.notDevice,
    memory.notMounted, TreeMap.getElem?_insert_self⟩

/-- A descriptor that has just been opened is at the start of the file. -/
theorem openFile_inMemory {isWrite : Bool} {opened : VfsState}
    (opens : vfs.openFile sessionId path isWrite = (.ok fd, opened))
    (notDevice : isDevicePath path = false) (notMounted : hasPrefix "/mnt/ext2/" path = false) :
    ∃ file, file.content = vfs.contentOf path ∧ opened.InMemory sessionId fd
      { fd, path, isWriteable := isWrite, offset := 0 } file := by
  have accepted : isInvalidPath path = false := by
    by_contra invalid
    simp only [openFile, Bool.not_eq_false] at opens invalid
    rw [if_pos invalid] at opens
    cases opens
  have present : isWrite = true ∨ path ∈ vfs.ramfs := by
    by_contra absent
    obtain ⟨notWrite, missing⟩ := not_or.mp absent
    simp only [openFile, accepted, notWrite, notDevice, missing, Bool.false_eq_true,
      false_and, not_false_eq_true, and_self, ↓reduceIte] at opens
    cases opens
  obtain ⟨_, _, file, opensToo, described, found, _, kept⟩ :=
    vfs.openFile_spec accepted notDevice isWrite present sessionId
  cases opens.symm.trans opensToo
  refine ⟨file, ?_, described, notDevice, notMounted, found⟩
  rw [kept, contentOf]
  cases vfs.ramfs[path]? with
  | none => rfl
  | some old => rfl

/-! ### Reading in pieces -/

/-- After some reads the descriptor is at the end of what they returned. -/
structure Reading (path : String) (file : RamFile) (sessionId : U64) (fd : U32)
    (sizes : List U64) (results : List (List U8)) (vfs : VfsState) : Prop where
  memory : ∃ desc, vfs.InMemory sessionId fd desc file ∧ desc.path = path ∧
    desc.offset.toNat = results.flatten.length
  read : results.flatten = file.content.take (sizes.map BitVec.toNat).sum

/-- What is left of a list after its first elements. -/
theorem drop_length_take {content : List U8} (count : Nat) :
    content.drop (content.take count).length = content.drop count := by
  rw [List.length_take]
  rcases Nat.le_total count content.length with within | past
  · rw [Nat.min_eq_left within]
  · rw [Nat.min_eq_right past, List.drop_length, List.drop_eq_nil_of_le past]

theorem Reading.own {sizes : List U64} {results : List (List U8)} {data : List U8}
    (reading : Reading path file sessionId fd sizes results vfs)
    (described : vfs.Describes sessionId fd desc)
    (fits : desc.offset.toNat + size.toNat < 2 ^ 64)
    (done : vfs.read fuel dm sessionId fd size = .ok (.ok data, after)) :
    Reading path file sessionId fd (sizes ++ [size]) (results ++ [data]) after := by
  obtain ⟨⟨here, memory, atPath, atEnd⟩, read⟩ := reading
  cases described.unique memory.described
  obtain ⟨part, _, isPart, answer, memoryAfter⟩ := memory.read fuel dm fits
  cases done.symm.trans answer
  have short : data.length ≤ size.toNat := by
    rw [isPart]
    exact List.length_take_le _ _
  refine ⟨⟨_, memoryAfter, atPath, ?_⟩, ?_⟩
  · rw [toNat_moved (by omega), atEnd, List.flatten_append, List.length_append,
      List.flatten_singleton]
  · rw [List.flatten_append, List.flatten_singleton, isPart, atEnd, read, drop_length_take,
      List.map_append, List.sum_append, List.take_add]
    rfl

theorem reading_of_reads {opened : VfsState} {sizes : List U64} {results : List (List U8)}
    (start : Reading path file sessionId fd [] [] opened)
    (reads : Reads opened sessionId fd sizes results vfs) :
    Reading path file sessionId fd sizes results vfs := by
  induction reads with
  | start => exact start
  | own _ described fits done ih => exact ih.own described fits done
  | other _ different done ih =>
      rcases read_outcome done with ⟨_, _, rfl⟩ | ⟨_, other, _, rfl⟩
      · exact ih
      · obtain ⟨⟨desc, memory, atPath, atEnd⟩, read⟩ := ih
        exact ⟨⟨desc, ⟨memory.described.setDescriptor different, memory.notDevice,
          memory.notMounted, memory.found⟩, atPath, atEnd⟩, read⟩

/-! ### Writing in pieces -/

/-- After some bytes have been written in front of what is left of the content, writing
pieces goes on with them. -/
theorem InMemory.writePieces {pieces : List (List U8)} {written : List U8} (old : List U8)
    (memory : vfs.InMemory sessionId fd desc file) (dm : DriverManager)
    (writeable : desc.isWriteable = true) (atEnd : desc.offset.toNat = written.length)
    (content : file.content = written ++ old.drop written.length)
    (short : (written ++ pieces.flatten).length < 2 ^ 64) :
    ∃ stored, VfsState.writePieces dm sessionId fd vfs pieces = .ok (.ok stored) ∧
      stored.contentOf desc.path =
        written ++ pieces.flatten ++ old.drop (written ++ pieces.flatten).length := by
  induction pieces generalizing vfs desc file written with
  | nil =>
      refine ⟨vfs, rfl, ?_⟩
      rw [memory.contentOf, List.flatten_nil, List.append_nil]
      exact content
  | cons piece pieces ih =>
      rw [List.flatten_cons, ← List.append_assoc] at short ⊢
      have room : written.length + piece.length + pieces.flatten.length < 2 ^ 64 := by
        rwa [List.length_append, List.length_append] at short
      have inside : desc.offset.toNat ≤ file.content.length := by
        rw [content, List.length_append]
        omega
      have fits : desc.offset.toNat + piece.length < 2 ^ 64 := by omega
      obtain ⟨whole, after, isWhole, answer, memoryAfter⟩ := memory.write dm writeable inside fits
      have replaced : whole = written ++ piece ++ old.drop (written ++ piece).length := by
        rw [isWhole, content, atEnd, List.take_left', List.drop_append, List.length_append,
          List.drop_eq_nil_of_le (Nat.le_add_right _ _), List.nil_append, List.drop_drop]
        · congr 2
          omega
        · rfl
      have atEndAfter : (moved desc piece.length).offset.toNat = (written ++ piece).length := by
        rw [toNat_moved fits, atEnd, List.length_append]
      obtain ⟨stored, others, stays⟩ := ih memoryAfter writeable atEndAfter replaced short
      refine ⟨stored, ?_, stays⟩
      rw [VfsState.writePieces, answer]
      exact others

/-! ### Both -/

/-- **Pieces make the whole.** Through a descriptor of a file in memory that has just been
opened, reads return the bytes of the content in order, whatever is read in between through
other descriptors, and they always return; and pieces written one after the other leave
the content that the whole string leaves. -/
theorem pieces_make_whole {isWrite : Bool} {opened : VfsState}
    (opens : vfs.openFile sessionId path isWrite = (.ok fd, opened))
    (notDevice : isDevicePath path = false) (notMounted : hasPrefix "/mnt/ext2/" path = false) :
    (∀ sizes results final, Reads opened sessionId fd sizes results final →
      results.flatten = (vfs.contentOf path).take (sizes.map BitVec.toNat).sum ∧
        ∃ desc, final.Describes sessionId fd desc ∧
          ∀ fuel dm size, desc.offset.toNat + size.toNat < 2 ^ 64 →
            ∃ data after, final.read fuel dm sessionId fd size = .ok (.ok data, after)) ∧
    (isWrite = true → ∀ dm pieces, pieces.flatten.length < 2 ^ 64 →
      ∃ stored count whole,
        writePieces dm sessionId fd opened pieces = .ok (.ok stored) ∧
          opened.write dm sessionId fd pieces.flatten = .ok (.ok count, whole) ∧
          stored.contentOf path =
            pieces.flatten ++ (vfs.contentOf path).drop pieces.flatten.length ∧
          whole.contentOf path = stored.contentOf path) := by
  obtain ⟨file, content, memory⟩ := openFile_inMemory opens notDevice notMounted
  constructor
  · intro sizes results final reads
    have start : Reading path file sessionId fd [] [] opened := ⟨⟨_, memory, rfl, rfl⟩, rfl⟩
    obtain ⟨⟨desc, memoryLast, _, _⟩, read⟩ := reading_of_reads start reads
    refine ⟨content ▸ read, desc, memoryLast.described, fun fuel dm size fits => ?_⟩
    obtain ⟨data, after, _, answer, _⟩ := memoryLast.read fuel dm fits
    exact ⟨data, after, answer⟩
  · intro writes dm pieces short
    obtain ⟨stored, others, stays⟩ :=
      InMemory.writePieces file.content memory dm writes (List.length_nil).symm rfl short
    obtain ⟨bytes, whole, isBytes, answer, memoryWhole⟩ := memory.write dm writes (Nat.zero_le _)
      (show 0 + pieces.flatten.length < 2 ^ 64 by rwa [Nat.zero_add])
    refine ⟨stored, _, whole, others, answer, content ▸ stays, ?_⟩
    refine memoryWhole.contentOf.trans (isBytes.trans ?_)
    rw [stays]
    change [] ++ _ ++ file.content.drop (0 + _) = _
    rw [Nat.zero_add]
    rfl

/-- One file with the content 1, 2, 3. -/
def oneFile : VfsState :=
  { new with
    ramfs := (∅ : TreeMap String RamFile).insert "/a" { path := "/a", content := [1, 2, 3] } }

theorem pieces_make_whole_oneFile :
    ∃ fd opened, oneFile.openFile 1 "/a" true = (.ok fd, opened) ∧
      (∀ sizes results final, Reads opened 1 fd sizes results final →
        results.flatten = (oneFile.contentOf "/a").take (sizes.map BitVec.toNat).sum ∧
          ∃ desc, final.Describes 1 fd desc ∧
            ∀ fuel dm size, desc.offset.toNat + size.toNat < 2 ^ 64 →
              ∃ data after, final.read fuel dm 1 fd size = .ok (.ok data, after)) ∧
      (true = true → ∀ dm pieces, pieces.flatten.length < 2 ^ 64 →
        ∃ stored count whole,
          writePieces dm 1 fd opened pieces = .ok (.ok stored) ∧
            opened.write dm 1 fd pieces.flatten = .ok (.ok count, whole) ∧
            stored.contentOf "/a" =
              pieces.flatten ++ (oneFile.contentOf "/a").drop pieces.flatten.length ∧
            whole.contentOf "/a" = stored.contentOf "/a") := by
  have accepted : isInvalidPath "/a" = false := by decide
  have notDevice : isDevicePath "/a" = false := by decide
  obtain ⟨fd, opened, _, opens, _⟩ :=
    oneFile.openFile_spec accepted notDevice true (Or.inl rfl) 1
  exact ⟨fd, opened, opens, pieces_make_whole opens notDevice (by decide)⟩

end VfsState

end Lofita.Fs
