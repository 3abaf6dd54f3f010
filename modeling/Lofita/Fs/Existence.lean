import Lofita.Fs.ReadYourWrites

/-! # What exists

Opening looks at the beginning of a path and at the files in memory; a read looks at the
devices, the mounted volume and the files in memory. The two agree about a path that is
not the name of a file in memory exactly if it is a registered device under `/dev/`, or
is elsewhere and neither a device nor a file of the volume (`opens_iff_present_iff`).
-/

namespace Lofita.Fs

open Lofita.Foundation Std

namespace VfsState

variable {vfs : VfsState} {fuel : Nat} {dm : DriverManager} {sessionId : U64} {fd : U32}
  {path : String} {desc : FileDescriptor} {size : U64}

/-- A file of the mounted volume can be read at the path. -/
def OnVolume (vfs : VfsState) (dm : DriverManager) (path : String) : Prop :=
  ∃ fuel content, vfs.shadow fuel dm path = .ok (some content)

/-- The path is that of a device, a file in memory or a file of the mounted volume. -/
def Present (vfs : VfsState) (dm : DriverManager) (path : String) : Prop :=
  path ∈ dm.drivers ∨ path ∈ vfs.ramfs ∨ vfs.OnVolume dm path

/-- No path of a device leads into the mounted volume. -/
theorem shadow_of_device (vfs : VfsState) (fuel : Nat) (dm : DriverManager)
    (device : isDevicePath path = true) : vfs.shadow fuel dm path = .ok none := by
  have elsewhere : hasPrefix "/mnt/ext2/" path = false := by
    refine Bool.eq_false_iff.mpr fun mounted => ?_
    have one : "/dev/".toList <+: path.toList := List.isPrefixOf_iff_prefix.mp device
    have two : "/mnt/ext2/".toList <+: path.toList := List.isPrefixOf_iff_prefix.mp mounted
    have nested := List.prefix_of_prefix_length_le one two (by decide)
    revert nested
    decide
  simp only [shadow, elsewhere, Bool.false_eq_true, not_false_eq_true, ↓reduceIte]
  rfl

theorem opens_iff_accepts {isWrite : Bool} :
    (∃ fd, (vfs.openFile sessionId path isWrite).1 = .ok fd) ↔ vfs.Accepts path isWrite := by
  by_cases accepted : vfs.Accepts path isWrite
  · obtain ⟨created, _, _, opens⟩ := openFile_of_accepts sessionId accepted
    exact iff_of_true ⟨vfs.nextFd, by rw [opens]⟩ accepted
  · obtain ⟨error, fails⟩ := openFile_of_not_accepts sessionId accepted
    refine iff_of_false ?_ accepted
    rintro ⟨fd, opened⟩
    rw [fails] at opened
    cases opened

/-- Reading from the start of a file in memory. -/
theorem readRamfs_start (start : desc.offset = 0) :
    (∃ bytes, vfs.readRamfs desc size = .ok (some bytes)) ↔ desc.path ∈ vfs.ramfs := by
  unfold readRamfs
  by_cases inMemory : desc.path ∈ vfs.ramfs
  · refine iff_of_true ?_ inMemory
    simp only [TreeMap.getElem?_eq_some_getElem inMemory, start, readAt_start]
    exact ⟨_, rfl⟩
  · refine iff_of_false ?_ inMemory
    rw [TreeMap.getElem?_eq_none inMemory]
    rintro ⟨bytes, ⟨⟩⟩

/-- A read at the path of a device that answers. -/
theorem readContent_device (device : isDevicePath desc.path = true) {driver : CharDriver}
    (registered : dm.drivers[desc.path]? = some driver) {data : List U8}
    (answer : driver.read desc.offset size = .ok data) :
    vfs.readContent fuel dm desc size = .ok (some data) := by
  simp only [readContent, device, ↓reduceIte, DriverManager.readDevice, registered, answer]
  rfl

/-- A read at a path under `/dev/` that is not registered goes to the files in memory. -/
theorem readContent_unregistered (device : isDevicePath desc.path = true)
    (missing : desc.path ∉ dm.drivers) :
    vfs.readContent fuel dm desc size = vfs.readRamfs desc size := by
  simp only [readContent, device, ↓reduceIte, DriverManager.readDevice,
    TreeMap.getElem?_eq_none missing, readMounted_eq, vfs.shadow_of_device fuel dm device]
  rfl

/-- A read from the start at another path. -/
theorem readContent_elsewhere (start : desc.offset = 0)
    (notDevice : isDevicePath desc.path = false) :
    vfs.readContent fuel dm desc size = (vfs.shadow fuel dm desc.path >>= fun found =>
      match found with
      | some content => return some (content.take size.toNat)
      | none => vfs.readRamfs desc size) := by
  simp only [readContent, notDevice, Bool.false_eq_true, ↓reduceIte, readMounted_eq, start,
    readAt_start]
  rcases vfs.shadow fuel dm desc.path with _ | (_ | content) <;> rfl

/-- A read from the start of a path finds something exactly if the path is present, when
devices have paths under `/dev/` and answer, and the search of the volume ends. -/
theorem read_iff_present (start : desc.offset = 0) (described : vfs.Describes sessionId fd desc)
    (devices : ∀ path ∈ dm.drivers, isDevicePath path = true)
    (answers : ∀ (path : String) (driver : CharDriver), dm.drivers[path]? = some driver →
      ∀ offset size, ∃ data, driver.read offset size = .ok data)
    (ends : ∃ fuel found, vfs.shadow fuel dm desc.path = .ok found) :
    (∃ fuel bytes after, vfs.read fuel dm sessionId fd size = .ok (.ok bytes, after)) ↔
      vfs.Present dm desc.path := by
  simp only [read_spec described]
  cases device : isDevicePath desc.path with
  | true =>
      have notMounted : ¬ vfs.OnVolume dm desc.path := by
        rintro ⟨fuel, content, found⟩
        rw [vfs.shadow_of_device fuel dm device] at found
        cases found
      by_cases registered : desc.path ∈ dm.drivers
      · have driver := TreeMap.getElem?_eq_some_getElem registered
        obtain ⟨data, answer⟩ := answers _ _ driver desc.offset size
        exact iff_of_true ⟨0, data, readContent_device device driver answer⟩ (.inl registered)
      · simp only [readContent_unregistered device registered, readRamfs_start start, exists_const,
          Present, registered, notMounted, or_false, false_or]
  | false =>
      have missing : desc.path ∉ dm.drivers := fun registered => by
        rw [devices _ registered] at device
        cases device
      simp only [readContent_elsewhere start device]
      constructor
      · rintro ⟨fuel, bytes, done⟩
        obtain ⟨found, looked, done⟩ := Outcome.ok_bind.mp done
        cases found with
        | none => exact .inr (.inl ((readRamfs_start start).mp ⟨bytes, done⟩))
        | some content => exact .inr (.inr ⟨fuel, content, looked⟩)
      · rintro (registered | inMemory | ⟨fuel, content, found⟩)
        · exact absurd registered missing
        · obtain ⟨fuel, found, looked⟩ := ends
          cases found with
          | none =>
              obtain ⟨bytes, read⟩ := (readRamfs_start start).mpr inMemory
              exact ⟨fuel, bytes, by rw [looked]; exact read⟩
          | some content => exact ⟨fuel, _, by rw [looked]; rfl⟩
        · exact ⟨fuel, _, by rw [found]; rfl⟩

/-- **When opening and reading agree.** Opening a valid path for reading succeeds exactly
when the path is present, if and only if it is a file in memory, or a device under
`/dev/`, or a path outside of `/dev/` that is neither a device nor a file of the volume. -/
theorem opens_iff_present_iff (vfs : VfsState) (dm : DriverManager) (sessionId : U64)
    (valid : isInvalidPath path = false) :
    ((∃ fd, (vfs.openFile sessionId path false).1 = .ok fd) ↔ vfs.Present dm path) ↔
      path ∈ vfs.ramfs ∨ isDevicePath path = true ∧ path ∈ dm.drivers ∨
        isDevicePath path = false ∧ path ∉ dm.drivers ∧ ¬ vfs.OnVolume dm path := by
  have opens : (∃ fd, (vfs.openFile sessionId path false).1 = .ok fd) ↔
      isDevicePath path = true ∨ path ∈ vfs.ramfs := by
    refine opens_iff_accepts.trans ((and_iff_right valid).trans ?_)
    simp only [Bool.false_eq_true, false_or]
  rw [opens, Present]
  by_cases inMemory : path ∈ vfs.ramfs
  · simp only [inMemory, or_true, true_or]
  · simp only [inMemory, or_false, false_or]
    cases device : isDevicePath path with
    | true =>
        have notMounted : ¬ vfs.OnVolume dm path := by
          rintro ⟨fuel, content, found⟩
          rw [vfs.shadow_of_device fuel dm device] at found
          cases found
        simp only [notMounted, or_false, true_iff, true_and, Bool.true_eq_false, false_and]
    | false =>
        simp only [Bool.false_eq_true, false_iff, false_and, false_or, true_and, not_or]

theorem opens_iff_present_iff_shadowed :
    ((∃ fd, (shadowed.openFile 1 "/mnt/ext2/a" false).1 = .ok fd) ↔
      shadowed.Present (Ext2Fs.diskManager shadowDisk) "/mnt/ext2/a") ↔
      "/mnt/ext2/a" ∈ shadowed.ramfs ∨ isDevicePath "/mnt/ext2/a" = true ∧
        "/mnt/ext2/a" ∈ (Ext2Fs.diskManager shadowDisk).drivers ∨
        isDevicePath "/mnt/ext2/a" = false ∧
          "/mnt/ext2/a" ∉ (Ext2Fs.diskManager shadowDisk).drivers ∧
          ¬ shadowed.OnVolume (Ext2Fs.diskManager shadowDisk) "/mnt/ext2/a" :=
  opens_iff_present_iff shadowed _ 1 (by decide)

/-- A path under `/dev/` that is not registered is opened, and a file of the volume is
not. -/
theorem not_opens_iff_present_shadowed :
    ¬ ((∃ fd, (shadowed.openFile 1 "/dev/tty" false).1 = .ok fd) ↔
      shadowed.Present (Ext2Fs.diskManager shadowDisk) "/dev/tty") ∧
    ¬ ((∃ fd, (shadowed.openFile 1 "/mnt/ext2/a" false).1 = .ok fd) ↔
      shadowed.Present (Ext2Fs.diskManager shadowDisk) "/mnt/ext2/a") := by
  have nothing (path : String) : path ∉ shadowed.ramfs := TreeMap.not_mem_emptyc
  constructor
  · intro agree
    have device : isDevicePath "/dev/tty" = true := by decide
    have accepted : shadowed.Accepts "/dev/tty" false := ⟨by decide, .inl device⟩
    rcases agree.mp (opens_iff_accepts.mpr accepted) with registered | inMemory |
      ⟨fuel, content, found⟩
    · rcases TreeMap.mem_insert.mp registered with same | other
      · revert same
        decide
      · exact absurd other TreeMap.not_mem_emptyc
    · exact nothing _ inMemory
    · rw [shadowed.shadow_of_device fuel _ device] at found
      cases found
  · intro agree
    obtain ⟨_, device | writes | inMemory⟩ :=
      opens_iff_accepts.mp (agree.mpr (.inr (.inr ⟨2, _, shadow_shadowed⟩)))
    · revert device
      decide
    · cases writes
    · exact nothing _ inMemory

end VfsState

end Lofita.Fs
