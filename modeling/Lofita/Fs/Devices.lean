import Lofita.Fs.Chunks
import Lofita.Fs.Descriptors

/-! # The devices in memory

`NullDriver`, `UrandomDriver` and `Fb0Driver` (`driver.rs`) under the descriptors of `vfs.rs`. The
framebuffer keeps its size, and each of its descriptors a position in it; from there a read gives
bytes and a write replaces bytes, up to the end of the buffer (`framebuffer_exact`).
-/

namespace Lofita.Fs

open Lofita.Foundation Std

/-! ### The drivers -/

def nullDriver : CharDriver where
  read _ _ := return []
  write _ data := return BitVec.ofNat 64 data.length

/-- The bytes of the generator of `UrandomDriver::read`. -/
def randomBytes : (count : Nat) → (state : U64) → List U8
  | 0, _ => []
  | count + 1, state =>
      let state := state * 6364136223846793005 + 1442695040888963407
      (state >>> 33).setWidth 8 :: randomBytes count state

/-- `UrandomDriver`, whose bytes depend on the size alone. -/
def urandomDriver : CharDriver where
  read _ size := return randomBytes size.toNat (size ^^^ 0xDEADBEEFCAFEBABE)
  write _ data := return BitVec.ofNat 64 data.length

namespace Fb0Driver

/-- `Fb0Driver::read`, with the bounds of the files in memory. -/
def read (buffer : List U8) (offset size : U64) : Checked (List U8) := readAt buffer offset size

/-- `Fb0Driver::write`: how many bytes are written, and the buffer after it. -/
def write (buffer : List U8) (offset : U64) (data : List U8) : Checked (U64 × List U8) :=
  if buffer.length ≤ offset.toNat then return (0, buffer)
  else do
    let limit := min (offset + BitVec.ofNat 64 data.length).toNat buffer.length
    let _ ← slice buffer offset.toNat limit
    let part ← slice data 0 (limit - offset.toNat)
    return (BitVec.ofNat 64 (limit - offset.toNat),
      buffer.take offset.toNat ++ part ++ buffer.drop limit)

/-- The driver in its present state. -/
def driver (buffer : List U8) : CharDriver where
  read := read buffer
  write offset data := Prod.fst <$> write buffer offset data

variable {buffer data after : List U8} {offset count : U64}

/-- A write keeps the size of the buffer and ends in it. -/
theorem write_within (inside : offset.toNat ≤ buffer.length) (small : buffer.length < 2 ^ 64)
    (done : write buffer offset data = .ok (count, after)) :
    after.length = buffer.length ∧ (offset + count).toNat ≤ buffer.length := by
  unfold write at done
  split at done
  · cases done
    have same : offset + 0 = offset := BitVec.add_zero offset
    exact ⟨rfl, by rwa [same]⟩
  · set limit := min (offset + BitVec.ofNat 64 data.length).toNat buffer.length
    obtain ⟨_, room, done⟩ := Outcome.ok_bind.mp done
    obtain ⟨part, taken, done⟩ := Outcome.ok_bind.mp done
    cases done
    unfold slice at room taken
    split at room
    · next bounds =>
        split at taken
        · next enough =>
            cases taken
            have word : (BitVec.ofNat 64 (limit - offset.toNat)).toNat = limit - offset.toNat :=
              Nat.mod_eq_of_lt (by omega)
            refine ⟨?_, ?_⟩
            · simp only [List.length_append, List.length_take, List.length_drop]
              omega
            · rw [toNat_add_of_lt (by omega), word]
              omega
        · cases taken
    · cases room

/-- A write replaces the bytes from the offset on, up to the end of the buffer. -/
theorem write_eq (inside : offset.toNat ≤ buffer.length)
    (fits : offset.toNat + data.length < 2 ^ 64) :
    let part := data.take (buffer.length - offset.toNat)
    write buffer offset data = .ok (BitVec.ofNat 64 part.length,
      buffer.take offset.toNat ++ part ++ buffer.drop (offset.toNat + part.length)) := by
  intro part
  have length : part.length = min (buffer.length - offset.toNat) data.length :=
    List.length_take
  unfold write
  split
  · next past =>
      have nothing : part = [] := List.take_eq_nil_iff.mpr (.inl (by omega))
      rw [nothing, List.append_nil, List.length_nil, Nat.add_zero, List.take_append_drop]
      rfl
  · have word : (BitVec.ofNat 64 data.length).toNat = data.length := Nat.mod_eq_of_lt (by omega)
    have last : (offset + BitVec.ofNat 64 data.length).toNat = offset.toNat + data.length := by
      rw [toNat_add_of_lt (by rwa [word]), word]
    have limit : min (offset + BitVec.ofNat 64 data.length).toNat buffer.length =
        offset.toNat + part.length := by
      rw [last, length]
      omega
    have taken : data.take part.length = part := by
      rw [length, List.take_eq_take_iff]
      omega
    have room : slice buffer offset.toNat (offset.toNat + part.length) =
        .ok ((buffer.drop offset.toNat).take part.length) := by
      rw [slice, if_pos ⟨Nat.le_add_right _ _, by omega⟩, Nat.add_sub_cancel_left]
      rfl
    have source : slice data 0 part.length = .ok part := by
      rw [slice, if_pos ⟨Nat.zero_le _, by omega⟩, Nat.sub_zero, List.drop_zero, taken]
      rfl
    simp only [limit, Nat.add_sub_cancel_left, room, source, Outcome.bind_ok]
    rfl

end Fb0Driver

/-- `DriverManager::new`, with a framebuffer and the driver of the disk. -/
def DriverManager.new (buffer : List U8) (hda : CharDriver) : DriverManager where
  drivers := ((((∅ : TreeMap String CharDriver).insert "/dev/null" nullDriver).insert
    "/dev/urandom" urandomDriver).insert "/dev/fb0" (Fb0Driver.driver buffer)).insert "/dev/hda" hda

/-- The screen is one of the drivers. -/
theorem DriverManager.new_fb0 (buffer : List U8) (hda : CharDriver) :
    (DriverManager.new buffer hda).drivers["/dev/fb0"]? = some (Fb0Driver.driver buffer) := by
  unfold DriverManager.new
  have different : compare "/dev/hda" "/dev/fb0" ≠ .eq := fun same =>
    absurd (Std.compare_eq_iff_eq.mp same) (by decide)
  rw [TreeMap.getElem?_insert, if_neg different, TreeMap.getElem?_insert_self]

/-! ### Calls on descriptors -/

section Descriptors

variable {vfs after : VfsState} {fuel : Nat} {dm : DriverManager} {sessionId : U64} {fd : U32}
  {desc : FileDescriptor}

/-- An open file, as a relation. -/
theorem descriptor_eq_some_iff :
    vfs.descriptor sessionId fd = some desc ↔ vfs.Describes sessionId fd desc := by
  unfold VfsState.descriptor VfsState.table VfsState.Describes
  rw [TreeMap.getD_eq_getD_getElem?]
  cases vfs.fdTables[sessionId]? with
  | none => simp
  | some table => simp

/-- A read that succeeds reads what its descriptor gives, and moves it on. -/
theorem described_of_read {size : U64} {data : List U8}
    (done : vfs.read fuel dm sessionId fd size = .ok (.ok data, after)) :
    ∃ desc, vfs.descriptor sessionId fd = some desc ∧
      vfs.readContent fuel dm desc size = .ok (some data) ∧
      after = vfs.advance sessionId fd desc (BitVec.ofNat 64 data.length) := by
  unfold VfsState.read at done
  split at done
  · cases done
  · next table found =>
      split at done
      · cases done
      · next desc described =>
          obtain ⟨answer, content, done⟩ := Outcome.ok_bind.mp done
          cases answer with
          | none => cases done
          | some bytes =>
              cases done
              exact ⟨desc, descriptor_eq_some_iff.mpr ⟨table, found, described⟩, content, rfl⟩

/-- A write that succeeds writes through its descriptor, and moves it on. -/
theorem described_of_write {data : List U8} {count : U64}
    (done : vfs.write dm sessionId fd data = .ok (.ok count, after)) :
    ∃ desc written, vfs.descriptor sessionId fd = some desc ∧ desc.isWriteable = true ∧
      vfs.writeContent dm desc data = .ok (.ok count, written) ∧
      written.fdTables = vfs.fdTables ∧ after = written.advance sessionId fd desc count := by
  unfold VfsState.write at done
  split at done
  · cases done
  · next table found =>
      split at done
      · cases done
      · next desc described =>
          split at done
          · cases done
          · next writeable =>
              obtain ⟨⟨answer, written⟩, content, done⟩ := Outcome.ok_bind.mp done
              cases answer with
              | error error => cases done
              | ok bytes =>
                  cases done
                  exact ⟨desc, written, descriptor_eq_some_iff.mpr ⟨table, found, described⟩,
                    not_not.mp writeable, content, (VfsState.writeContent_outcome content).1, rfl⟩

end Descriptors

/-! ### The framebuffer behind descriptors -/

/-- The files, and the buffer of the framebuffer. -/
structure Screen where
  vfs : VfsState
  buffer : List U8

/-- A call of a session, and what the driver of the disk answers at that time. -/
structure ScreenCall where
  sessionId : U64
  hda : CharDriver
  call : VfsState.FileCall

namespace Screen

variable (fuel : Nat) (screen : Screen) (request : ScreenCall)

/-- The buffer after a call: `/dev/fb0` is written through its descriptors. -/
def bufferAfter : Checked (List U8) :=
  match request.call with
  | .write fd data =>
      match screen.vfs.descriptor request.sessionId fd with
      | some desc =>
          if desc.isWriteable ∧ desc.path = "/dev/fb0" then
            Prod.snd <$> Fb0Driver.write screen.buffer desc.offset data
          else return screen.buffer
      | none => return screen.buffer
  | _ => return screen.buffer

/-- A call on a file, with the screen behind its device. -/
def perform : Checked (Except String VfsState.FileReply × Screen) := do
  let (reply, vfs) ←
    screen.vfs.perform fuel (.new screen.buffer request.hda) request.sessionId request.call
  let buffer ← screen.bufferAfter request
  return (reply, { vfs, buffer })

/-- The files and devices at boot: a black framebuffer, and no descriptors. -/
def boot (ramfs : TreeMap String RamFile) (ext2Fs : Option Ext2Fs) : Screen where
  vfs := { VfsState.new with ramfs, ext2Fs }
  buffer := List.replicate 4096 0

end Screen

/-- Calls one after the other; nothing comes after one that panics. -/
def screens (fuel : Nat) : System Screen ScreenCall where
  step screen request :=
    match screen.perform fuel request with
    | .ok (_, after) => after
    | .error _ => screen

/-- The framebuffer has its size, and its descriptors are in it. -/
structure InBounds (screen : Screen) : Prop where
  size : screen.buffer.length = 4096
  positions : ∀ session fd desc, screen.vfs.descriptor session fd = some desc →
    desc.path = "/dev/fb0" → desc.offset.toNat ≤ 4096

/-- What a call does to a descriptor of the framebuffer. A read gives the bytes from its position
on; it panics if it asks from inside for bytes past the end of the address space. A write of a
slice replaces the bytes from its position on, as far as there are any. -/
def ActsExactly (fuel : Nat) (screen : Screen) (request : ScreenCall) : Prop :=
  ∀ desc : FileDescriptor, desc.path = "/dev/fb0" →
    match request.call with
    | .read fd size =>
        screen.vfs.descriptor request.sessionId fd = some desc →
          let data := (screen.buffer.drop desc.offset.toNat).take size.toNat
          screen.perform fuel request =
            if desc.offset = 4096 ∨ desc.offset.toNat + size.toNat < 2 ^ 64 then
              .ok (.ok (.data data), { screen with
                vfs := screen.vfs.setDescriptor request.sessionId fd
                  (VfsState.moved desc data.length) })
            else .error .indexOutOfRange
    | .write fd data =>
        screen.vfs.descriptor request.sessionId fd = some desc → desc.isWriteable = true →
          data.length < 2 ^ 63 →
          let part := data.take (4096 - desc.offset.toNat)
          screen.perform fuel request =
            .ok (.ok (.written (BitVec.ofNat 64 part.length)), {
              vfs := screen.vfs.setDescriptor request.sessionId fd
                (VfsState.moved desc part.length)
              buffer := screen.buffer.take desc.offset.toNat ++ part ++
                screen.buffer.drop (desc.offset.toNat + part.length) })
    | _ => True

section Framebuffer

variable {fuel : Nat} {screen : Screen} {request : ScreenCall} {vfs : VfsState}
  {desc : FileDescriptor} {buffer : List U8} {hda : CharDriver}

/-- Reading the device reads the screen. -/
theorem readContent_fb0 (named : desc.path = "/dev/fb0") (size : U64) :
    vfs.readContent fuel (.new buffer hda) desc size =
      some <$> Fb0Driver.read buffer desc.offset size := by
  have device : isDevicePath "/dev/fb0" = true := by decide
  unfold VfsState.readContent DriverManager.readDevice
  rw [named, device, DriverManager.new_fb0]
  simp only [↓reduceIte, Fb0Driver.driver]
  cases Fb0Driver.read buffer desc.offset size <;> rfl

/-- Writing the device writes the screen. -/
theorem writeContent_fb0 (named : desc.path = "/dev/fb0") (data : List U8) :
    vfs.writeContent (.new buffer hda) desc data =
      (fun written => (.ok written.1, vfs)) <$> Fb0Driver.write buffer desc.offset data := by
  have device : isDevicePath "/dev/fb0" = true := by decide
  unfold VfsState.writeContent DriverManager.writeDevice
  rw [named, device, DriverManager.new_fb0]
  simp only [↓reduceIte, Fb0Driver.driver]
  cases Fb0Driver.write buffer desc.offset data <;> rfl

/-- Reading from inside the buffer. -/
theorem read_fb0 {offset size : U64} (inside : offset.toNat ≤ 4096)
    (length : buffer.length = 4096) :
    Fb0Driver.read buffer offset size =
      if offset = 4096 ∨ offset.toNat + size.toNat < 2 ^ 64 then
        .ok ((buffer.drop offset.toNat).take size.toNat)
      else .error .indexOutOfRange := by
  by_cases fits : offset.toNat + size.toNat < 2 ^ 64
  · rw [if_pos (.inr fits)]
    exact readAt_eq fits
  · by_cases atEnd : offset = 4096
    · rw [if_pos (.inl atEnd), atEnd]
      have nothing : buffer.drop (4096 : U64).toNat = [] :=
        List.drop_eq_nil_of_le (by rw [length]; decide)
      rw [nothing, List.take_nil]
      exact if_pos (by rw [length]; decide)
    · -- the end wraps, and lies before the offset
      have before : offset.toNat < 4096 := by
        refine Nat.lt_of_le_of_ne inside fun same => atEnd ?_
        exact BitVec.eq_of_toNat_eq same
      have wrapped : (offset + size).toNat < offset.toNat := by
        rw [BitVec.toNat_add]
        omega
      rw [if_neg (not_or.mpr ⟨atEnd, fits⟩)]
      unfold Fb0Driver.read readAt
      rw [if_neg (by omega)]
      exact if_neg (by omega)

/-- Within its bounds the device does what a file does. -/
theorem InBounds.acts_exactly (inBounds : InBounds screen) : ActsExactly fuel screen request := by
  obtain ⟨sessionId, hda, call⟩ := request
  intro desc named
  cases call with
  | openFile path isWrite => trivial
  | close fd => trivial
  | read fd size =>
      intro described data
      have inside := inBounds.positions sessionId fd desc described named
      obtain ⟨table, tableIs, descIs⟩ := descriptor_eq_some_iff.mp described
      have content := @read_fb0 screen.buffer desc.offset size inside inBounds.size
      simp only [Screen.perform, VfsState.perform, VfsState.read, tableIs, descIs,
        readContent_fb0 named, content]
      split
      · rfl
      · rfl
  | write fd data =>
      intro described writeable small part
      have inside := inBounds.positions sessionId fd desc described named
      obtain ⟨table, tableIs, descIs⟩ := descriptor_eq_some_iff.mp described
      have written := @Fb0Driver.write_eq screen.buffer data desc.offset
        (inBounds.size ▸ inside) (by omega)
      rw [inBounds.size] at written
      simp only [Screen.perform, VfsState.perform, VfsState.write, tableIs, descIs, writeable,
        writeContent_fb0 named, written, Screen.bufferAfter, described, named]
      rfl

namespace InBounds

/-- A write through a descriptor of the framebuffer keeps the size, and ends in the buffer. -/
theorem write_within (inBounds : InBounds screen) {sessionId : U64} {fd : U32} {data : List U8}
    {count : U64} (described : screen.vfs.descriptor sessionId fd = some desc)
    (named : desc.path = "/dev/fb0")
    (done : Fb0Driver.write screen.buffer desc.offset data = .ok (count, buffer)) :
    buffer.length = 4096 ∧ (desc.offset + count).toNat ≤ 4096 := by
  have inside := inBounds.positions sessionId fd desc described named
  have small : screen.buffer.length < 2 ^ 64 := by
    rw [inBounds.size]
    decide
  rw [← inBounds.size] at inside ⊢
  exact Fb0Driver.write_within inside small done

/-- The screen keeps its size. -/
theorem bufferAfter (inBounds : InBounds screen) {after : List U8}
    (done : screen.bufferAfter request = .ok after) : after.length = 4096 := by
  obtain ⟨sessionId, hda, call⟩ := request
  unfold Screen.bufferAfter at done
  cases call with
  | openFile path isWrite => exact Except.ok.inj done ▸ inBounds.size
  | close fd => exact Except.ok.inj done ▸ inBounds.size
  | read fd size => exact Except.ok.inj done ▸ inBounds.size
  | write fd data =>
      simp only at done
      split at done
      · next desc described =>
          split at done
          · next writes =>
              obtain ⟨⟨count, buffer⟩, written, rfl⟩ := Outcome.ok_map.mp done
              exact (inBounds.write_within described writes.2 written).1
          · exact Except.ok.inj done ▸ inBounds.size
      · exact Except.ok.inj done ▸ inBounds.size

/-- A descriptor is entered that is in the buffer, if it is one of the framebuffer. -/
theorem setDescriptor (inBounds : InBounds screen) {written : VfsState}
    (same : written.fdTables = screen.vfs.fdTables) (sessionId : U64) (fd : U32)
    (inside : desc.path = "/dev/fb0" → desc.offset.toNat ≤ 4096) (size : buffer.length = 4096) :
    InBounds ⟨written.setDescriptor sessionId fd desc, buffer⟩ := by
  refine ⟨size, fun session number other described named => ?_⟩
  rw [VfsState.descriptor_setDescriptor] at described
  split at described
  · cases described
    exact inside named
  · rw [VfsState.descriptor_congr same] at described
    exact inBounds.positions session number other described named

/-- Opening stays within the bounds. -/
theorem openFile (inBounds : InBounds screen) (sessionId : U64) (path : String) (isWrite : Bool) :
    InBounds ⟨(screen.vfs.openFile sessionId path isWrite).2, screen.buffer⟩ := by
  by_cases accepted : screen.vfs.Accepts path isWrite
  · obtain ⟨created, same, -, opens⟩ := VfsState.openFile_of_accepts sessionId accepted
    rw [opens]
    let desc : FileDescriptor :=
      { fd := screen.vfs.nextFd, path, isWriteable := isWrite, offset := 0 }
    have atStart : desc.path = "/dev/fb0" → desc.offset.toNat ≤ 4096 := fun _ => Nat.zero_le _
    have entered := inBounds.setDescriptor same sessionId screen.vfs.nextFd atStart inBounds.size
    exact ⟨entered.size, entered.positions⟩
  · obtain ⟨error, fails⟩ := VfsState.openFile_of_not_accepts sessionId accepted
    rw [fails]
    exact inBounds

theorem close (inBounds : InBounds screen) (sessionId : U64) (fd : U32) :
    InBounds ⟨(screen.vfs.close sessionId fd).2, screen.buffer⟩ := by
  refine ⟨inBounds.size, fun session number desc described named => ?_⟩
  rw [VfsState.descriptor_close] at described
  split at described
  · cases described
  · exact inBounds.positions session number desc described named

theorem read (inBounds : InBounds screen) {sessionId : U64} {fd : U32} {size : U64}
    {result : Except String (List U8)} {after : VfsState}
    (done : screen.vfs.read fuel (.new screen.buffer hda) sessionId fd size =
      .ok (result, after)) : InBounds ⟨after, screen.buffer⟩ := by
  cases result with
  | error error =>
      rcases VfsState.read_outcome done with ⟨-, -, rfl⟩ | ⟨_, _, isOk, -⟩
      · exact inBounds
      · cases isOk
  | ok data =>
      obtain ⟨desc, described, content, rfl⟩ := described_of_read done
      refine inBounds.setDescriptor rfl sessionId fd (fun named => ?_) inBounds.size
      have named : desc.path = "/dev/fb0" := named
      have inside := inBounds.positions sessionId fd desc described named
      rw [readContent_fb0 named, read_fb0 inside inBounds.size] at content
      split at content
      · cases content
        have length : ((screen.buffer.drop desc.offset.toNat).take size.toNat).length ≤
            4096 - desc.offset.toNat := by
          rw [List.length_take, List.length_drop, inBounds.size]
          exact Nat.min_le_right _ _
        change (VfsState.moved desc _).offset.toNat ≤ 4096
        rw [VfsState.toNat_moved (by omega)]
        omega
      · cases content

theorem write (inBounds : InBounds screen) {sessionId : U64} {fd : U32} {data : List U8}
    {result : Except String U64} {after : VfsState} (size : buffer.length = 4096)
    (done : screen.vfs.write (.new screen.buffer hda) sessionId fd data = .ok (result, after)) :
    InBounds ⟨after, buffer⟩ := by
  cases result with
  | error error =>
      rcases VfsState.write_outcome done with ⟨-, -, rfl⟩ | ⟨_, _, _, isOk, -⟩
      · exact ⟨size, inBounds.positions⟩
      · cases isOk
  | ok count =>
      obtain ⟨desc, written, described, -, content, same, rfl⟩ := described_of_write done
      refine inBounds.setDescriptor same sessionId fd (fun named => ?_) size
      have named : desc.path = "/dev/fb0" := named
      rw [writeContent_fb0 named] at content
      obtain ⟨⟨moved, left⟩, wrote, answer⟩ := Outcome.ok_map.mp content
      cases answer
      exact (inBounds.write_within described named wrote).2

/-- A call that is answered leaves the framebuffer its size, and its descriptors in it. -/
theorem perform (inBounds : InBounds screen) {reply : Except String VfsState.FileReply}
    {after : Screen} (done : screen.perform fuel request = .ok (reply, after)) :
    InBounds after := by
  obtain ⟨⟨answer, vfs⟩, answered, done⟩ := Outcome.ok_bind.mp done
  obtain ⟨buffer, kept, done⟩ := Outcome.ok_bind.mp done
  cases done
  have size := inBounds.bufferAfter kept
  obtain ⟨sessionId, hda, call⟩ := request
  cases call with
  | openFile path isWrite =>
      cases answered
      cases kept
      exact inBounds.openFile sessionId path isWrite
  | close fd =>
      cases answered
      cases kept
      exact inBounds.close sessionId fd
  | read fd size =>
      obtain ⟨⟨result, left⟩, found, answered⟩ := Outcome.ok_bind.mp answered
      cases answered
      cases kept
      exact inBounds.read found
  | write fd data =>
      obtain ⟨⟨result, left⟩, wrote, answered⟩ := Outcome.ok_bind.mp answered
      cases answered
      exact inBounds.write size wrote

theorem step (inBounds : InBounds screen) (request : ScreenCall) :
    InBounds ((screens fuel).step screen request) := by
  unfold screens
  cases performed : screen.perform fuel request with
  | error fault => simpa only [performed] using inBounds
  | ok answer => simpa only [performed] using inBounds.perform performed

/-- At first nothing is open. -/
theorem boot (ramfs : TreeMap String RamFile) (ext2Fs : Option Ext2Fs) :
    InBounds (.boot ramfs ext2Fs) where
  size := List.length_replicate
  positions := fun session fd _ described =>
    nomatch (VfsState.descriptor_new session fd).symm.trans described

end InBounds

/-- **The framebuffer is exact.** In every run of calls of any sessions on any files, whatever the
disk answers, the framebuffer keeps its 4096 bytes and its descriptors stay in them; and every
read and write of one of its descriptors does to it what it does to a file of that size. -/
theorem framebuffer_exact (fuel : Nat) (ramfs : TreeMap String RamFile) (ext2Fs : Option Ext2Fs)
    (requests : List ScreenCall) :
    (screens fuel).Always InBounds (.boot ramfs ext2Fs) requests ∧
      (screens fuel).Along (ActsExactly fuel) (.boot ramfs ext2Fs) requests := by
  have unguarded : (screens fuel).Along (fun _ _ => True) (.boot ramfs ext2Fs) requests :=
    System.along_of_forall fun _ _ _ => trivial
  have booted := InBounds.boot ramfs ext2Fs
  constructor
  · exact System.always_of_invariant InBounds (fun _ request inBounds _ => inBounds.step request)
      (fun _ inBounds => inBounds) booted unguarded
  · exact System.along_of_invariant (fun _ request inBounds _ => inBounds.step request)
      (fun _ _ inBounds _ => inBounds.acts_exactly) booted unguarded

-- two sessions write from positions of their own into one buffer
example :
    ((screens 0).run (.boot ∅ none)
      [⟨1, nullDriver, .openFile "/dev/fb0" true⟩, ⟨2, nullDriver, .openFile "/dev/fb0" true⟩,
        ⟨1, nullDriver, .write 3 [1, 2]⟩, ⟨2, nullDriver, .write 4 [3]⟩,
        ⟨1, nullDriver, .write 3 [4]⟩]).buffer.take 4 = [3, 2, 4, 0] := by
  decide +kernel

end Framebuffer

end Lofita.Fs
