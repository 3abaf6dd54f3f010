import Lofita.Fs.Pio

/-! # Bytes of the disk through the ports

`AtaDriver::read` and `AtaDriver::write` on the port accesses of `ata.zig`. A list of calls
within the reach of the ports, none of them before the drive is done with the write before it,
is served like calls to a store of bytes (`serves_bytes`).
-/

namespace Lofita.Fs.Pio

open Lofita.Foundation Lofita.Foundation.Outcome AtaDriver

variable (hw : AtaHardware)

/-- `AtaDriver::read`. -/
def read (fuel : Nat) (block : HeapBlock) (offset size : U64) (ata : Ata) :
    Checked (List U8 × Ata) := do
  let sectorCount := sectorCount offset size
  let (buf, ata) ← ataReadSectors hw fuel (startLba offset) sectorCount
    (bufferPtr block sectorCount) ata
  let data ← slice buf (startIdx offset).toNat (endIdx offset size).toNat
  return (data, ata)

/-- `AtaDriver::write`. -/
def write (fuel : Nat) (block : HeapBlock) (offset : U64) (data : List U8) (ata : Ata) :
    Checked (U64 × Ata) := do
  let size := BitVec.ofNat 64 data.length
  let sectorCount := sectorCount offset size
  let ptr := bufferPtr block sectorCount
  let (buf, ata) ← ataReadSectors hw fuel (startLba offset) sectorCount ptr ata
  let buf ← copyFromSlice buf (startIdx offset).toNat (endIdx offset size).toNat data
  let ata ← ataWriteSectors hw fuel (startLba offset) sectorCount ptr buf ata
  return (size, ata)

/-- A call to the driver, or some time that passes. -/
inductive Call where
  | pause (polls : Nat)
  | read (offset size : U64)
  | write (offset : U64) (data : List U8)
deriving DecidableEq, Repr

inductive Answer where
  | none
  | bytes (data : List U8)
  | written (size : U64)
deriving DecidableEq, Repr

/-- The time of so many status reads passes. -/
def AtaDrive.elapseFor (drive : AtaDrive) : Nat → AtaDrive
  | 0 => drive
  | polls + 1 => (drive.elapse hw).elapseFor polls

/-- A call whose buffer is in a block of the heap. -/
def serve (fuel : Nat) (block : HeapBlock) (ata : Ata) : Call → Checked (Answer × Ata)
  | .pause polls => return (.none, { ata with drive := ata.drive.elapseFor hw polls })
  | .read offset size => do
      let (data, ata) ← read hw fuel block offset size ata
      return (.bytes data, ata)
  | .write offset data => do
      let (size, ata) ← write hw fuel block offset data ata
      return (.written size, ata)

/-- Calls one after the other; the heap gives each a block of its own choice. -/
def serveAll (fuel : Nat) (heap : Nat → HeapBlock) :
    List Call → Ata → Checked (List Answer × Ata)
  | [], ata => return ([], ata)
  | call :: rest, ata => do
      let (answer, ata) ← serve hw fuel (heap rest.length) ata call
      let (answers, ata) ← serveAll fuel heap rest ata
      return (answer :: answers, ata)

/-! ### A store of bytes -/

namespace Store

/-- What a store of bytes answers, and the bytes after the call. -/
def serve (disk : Disk) : Call → Answer × Disk
  | .pause _ => (.none, disk)
  | .read offset size => (.bytes (window disk offset.toNat size.toNat), disk)
  | .write offset data =>
      (.written (BitVec.ofNat 64 data.length), splice disk offset.toNat data)

/-- Calls one after the other. -/
def serveAll : List Call → Disk → List Answer × Disk
  | [], disk => ([], disk)
  | call :: rest, disk =>
      ((serve disk call).1 :: (serveAll rest (serve disk call).2).1,
        (serveAll rest (serve disk call).2).2)

end Store

/-! ### Calls in reach and in time -/

/-- At least one byte, in at most 255 sectors below sector `2 ^ 28`, none of them out of
reach. -/
structure InReach (hw : AtaHardware) (offset size : Nat) : Prop where
  some : 0 < size
  few : covering offset size ≤ 255
  low : (offset + size + 511) / 512 ≤ 2 ^ 28
  sound : ∀ sector, offset / 512 ≤ sector → sector < (offset + size + 511) / 512 →
    hw.damaged sector = false

/-- The bytes of a call are in reach; time always is. -/
def Call.InReach (hw : AtaHardware) : Call → Prop
  | .pause _ => True
  | .read offset size => Pio.InReach hw offset.toNat size.toNat
  | .write offset data => Pio.InReach hw offset.toNat data.length

/-- Time enough passes after each write; `due` is how long the drive may still be busy. -/
def InTime (longest : Nat) : Nat → List Call → Prop
  | _, [] => True
  | due, .pause polls :: rest => InTime longest (due - polls) rest
  | due, .read .. :: rest => due = 0 ∧ InTime longest 0 rest
  | due, .write .. :: rest => due = 0 ∧ InTime longest longest rest

/-- The drive is idle, or will be soon. -/
def Due (hw : AtaHardware) (due : Nat) (drive : AtaDrive) : Prop :=
  Idle drive ∨ ∃ lba, ∃ delay ≤ due, drive.activity = wait hw drive.disk ⟨true, lba, 0⟩ delay

variable {hw} {ata : Ata} {drive : AtaDrive} {offset size : U64} {data : List U8}

/-- A drive that is due now is idle. -/
theorem Due.idle (due : Due hw 0 drive) : Idle drive := by
  rcases due with idle | ⟨lba, delay, le, activity⟩
  · exact idle
  · have done : wait hw drive.disk ⟨true, lba, 0⟩ 0 = .idle false := by
      unfold wait prepare
      rw [if_pos rfl]
    rw [Nat.le_zero.mp le] at activity
    exact ⟨false, activity.trans done⟩

/-- A drive that will finish is due within the longest wait. -/
theorem due_of_finishing (finishing : Finishing hw drive) : Due hw hw.longest drive :=
  .inr finishing

/-- Time that passes leaves the sectors as they are. -/
theorem due_elapse {left : Nat} (due : Due hw left drive) :
    (drive.elapse hw).disk = drive.disk ∧ Due hw (left - 1) (drive.elapse hw) := by
  rcases due with ⟨failed, idle⟩ | ⟨lba, delay, le, activity⟩
  · have settled : Settled drive := fun delay other busy => nomatch idle.symm.trans busy
    rw [settled.elapse]
    exact ⟨rfl, .inl ⟨failed, idle⟩⟩
  · cases delay with
    | zero =>
        have settled : Settled drive := fun delay other busy =>
          prepare_ne_busy delay other (activity.symm.trans busy)
        rw [settled.elapse]
        exact ⟨rfl, .inr ⟨lba, 0, Nat.zero_le _, activity⟩⟩
    | succ delay =>
        have passed : drive.elapse hw =
            { drive with activity := wait hw drive.disk ⟨true, lba, 0⟩ delay } := by
          unfold AtaDrive.elapse
          rw [show drive.activity = .busy delay ⟨true, lba, 0⟩ from activity]
        rw [passed]
        exact ⟨rfl, .inr ⟨lba, delay, by omega, rfl⟩⟩

/-- Time brings the drive nearer to being idle, and leaves the disk alone. -/
theorem due_elapseFor {left : Nat} (polls : Nat) (due : Due hw left drive) :
    (drive.elapseFor hw polls).disk = drive.disk ∧
      Due hw (left - polls) (drive.elapseFor hw polls) := by
  induction polls generalizing drive left with
  | zero => exact ⟨rfl, due⟩
  | succ polls ih =>
      obtain ⟨disk, due⟩ := due_elapse due
      obtain ⟨later, due⟩ := ih due
      rw [Nat.sub_sub, Nat.add_comm 1] at due
      exact ⟨later.trans disk, due⟩

/-! ### One call -/

namespace InReach

/-- What is in reach is within the driver's. -/
theorem within (inReach : InReach hw offset.toNat size.toNat) :
    WithinReach offset.toNat size.toNat := fun _ => ⟨inReach.few, inReach.low⟩

/-- The sectors are those that cover the bytes. -/
theorem count (inReach : InReach hw offset.toNat size.toNat) :
    (sectorCount offset size).toNat = covering offset.toNat size.toNat := by
  have few := inReach.few
  rw [toNat_sectorCount]
  omega

/-- There is at least one. -/
theorem sectorCount_ne (inReach : InReach hw offset.toNat size.toNat) :
    sectorCount offset size ≠ 0 := by
  intro none
  have count := inReach.count
  have some := inReach.some
  rw [none] at count
  change 0 = _ at count
  unfold covering at count
  omega

/-- The sector selected is the first of them. -/
theorem selected_eq (offset size : U64) : selected (startLba offset) = firstSector offset size :=
  (AtaPorts.lba_select _ _).symm

/-- Every sector of the call is reached. -/
theorem transferred_eq (inReach : InReach hw offset.toNat size.toNat) :
    transferred hw (startLba offset) (sectorCount offset size) =
      (sectorCount offset size).toNat := by
  have some := inReach.some
  have low := inReach.low
  have first : selected (startLba offset) = offset.toNat / 512 := by
    rw [selected_eq offset size, firstSector_eq]
    omega
  unfold transferred
  refine reached_eq fun sector above below => ?_
  rw [first] at above below
  rw [inReach.count] at below
  unfold covering at below
  exact inReach.sound sector above (by omega)

/-- The sectors of a call are read from an idle drive. -/
theorem reads_sectors (inReach : InReach hw offset.toNat size.toNat) (idle : Idle ata.drive)
    (block : HeapBlock) :
    ∃ after, Gives (fun fuel => ataReadSectors hw fuel (startLba offset)
        (sectorCount offset size) (bufferPtr block (sectorCount offset size)) ata)
        (window ata.drive.disk (512 * firstSector offset size)
          (512 * (sectorCount offset size).toNat), after) ∧
      after.drive.disk = ata.drive.disk ∧ Idle after.drive := by
  obtain ⟨after, bytes, disk, idle, -⟩ :=
    ataReadSectors_gives hw ata idle (startLba offset) inReach.sectorCount_ne block
  rw [missed, inReach.transferred_eq, Nat.sub_self, selected_eq offset size] at bytes
  exact ⟨after, List.append_nil (window _ _ _) ▸ bytes, disk, idle⟩

/-- Sectors in reach are written. -/
theorem writes_sectors (inReach : InReach hw offset.toNat size.toNat) (idle : Idle ata.drive)
    (block : HeapBlock) {src : List U8}
    (length : src.length = 512 * (sectorCount offset size).toNat) :
    ∃ after, Gives (fun fuel => ataWriteSectors hw fuel (startLba offset)
        (sectorCount offset size) (bufferPtr block (sectorCount offset size)) src ata) after ∧
      after.drive.disk = splice ata.drive.disk (512 * firstSector offset size) src ∧
      Due hw hw.longest after.drive := by
  obtain ⟨after, written, disk, finished, -⟩ :=
    ataWriteSectors_gives hw ata idle (startLba offset) inReach.sectorCount_ne block length
  rw [inReach.transferred_eq, ← length, List.take_length, selected_eq offset size] at disk
  exact ⟨after, written, disk, finished.elim .inl due_of_finishing⟩

end InReach

/-- A read within reach of an idle drive gives the bytes at the offset. -/
theorem read_gives (inReach : InReach hw offset.toNat size.toNat) (idle : Idle ata.drive)
    (block : HeapBlock) :
    ∃ after, Gives (fun fuel => read hw fuel block offset size ata)
        (window ata.drive.disk offset.toNat size.toNat, after) ∧
      after.drive.disk = ata.drive.disk ∧ Idle after.drive := by
  obtain ⟨after, buf, disk, idle⟩ := inReach.reads_sectors idle block
  refine ⟨after, buf.bind ?_, disk, idle⟩
  have fits := inReach.within.fits
  have sliced : slice (window ata.drive.disk (512 * firstSector offset size)
      (512 * (sectorCount offset size).toNat)) (startIdx offset).toNat (endIdx offset size).toNat =
      .ok (window ata.drive.disk offset.toNat size.toNat) := by
    rw [toNat_startIdx, toNat_endIdx fits, slice_window fits, inReach.within.first inReach.some]
  simp only [sliced, bind_ok]
  exact .const _

/-- A write within reach of an idle drive replaces the bytes at the offset. -/
theorem write_gives (inReach : InReach hw offset.toNat data.length) (idle : Idle ata.drive)
    (block : HeapBlock) :
    ∃ after, Gives (fun fuel => write hw fuel block offset data ata)
        (BitVec.ofNat 64 data.length, after) ∧
      after.drive.disk = splice ata.drive.disk offset.toNat data ∧
      Due hw hw.longest after.drive := by
  have short : data.length < 2 ^ 64 := by
    have few := inReach.few
    unfold covering at few
    omega
  have size : (BitVec.ofNat 64 data.length).toNat = data.length := Nat.mod_eq_of_lt short
  rw [← size] at inReach
  have fits := inReach.within.fits
  have inBuffer := fits
  unfold Fits at inBuffer
  rw [size] at inBuffer
  obtain ⟨ready, read, disk, idle⟩ := inReach.reads_sectors idle block
  let sectors := window ata.drive.disk (512 * firstSector offset (BitVec.ofNat 64 data.length))
    (512 * (sectorCount offset (BitVec.ofNat 64 data.length)).toNat)
  let buf := sectors.take (offset.toNat % 512) ++ data ++
    sectors.drop (offset.toNat % 512 + data.length)
  have copied : copyFromSlice sectors (startIdx offset).toNat
      (endIdx offset (BitVec.ofNat 64 data.length)).toNat data = .ok buf := by
    rw [toNat_startIdx, toNat_endIdx fits, size, copyFromSlice_window inBuffer]
  have length : buf.length = 512 * (sectorCount offset (BitVec.ofNat 64 data.length)).toNat := by
    simp only [buf, sectors, List.length_append, List.length_take, List.length_drop,
      length_window]
    omega
  obtain ⟨after, written, final, later⟩ := inReach.writes_sectors idle block length
  refine ⟨after, read.bind ?_, ?_, later⟩
  · simp only [show copyFromSlice (window _ _ _) _ _ data = .ok buf from copied, bind_ok]
    exact written.bind (.const _)
  · rw [final, disk, splice_replace inBuffer, inReach.within.first inReach.some]

/-! ### Lists of calls -/

/-- One call, from a drive that is idle when it has to be. -/
theorem serve_gives {call : Call} {rest : List Call} {due : Nat}
    (isDue : Due hw due ata.drive) (inReach : call.InReach hw)
    (inTime : InTime hw.longest due (call :: rest)) (block : HeapBlock) :
    ∃ after, Gives (fun fuel => serve hw fuel block ata call)
        ((Store.serve ata.drive.disk call).1, after) ∧
      after.drive.disk = (Store.serve ata.drive.disk call).2 ∧
      ∃ left, Due hw left after.drive ∧ InTime hw.longest left rest := by
  cases call with
  | pause polls =>
      obtain ⟨disk, later⟩ := due_elapseFor polls isDue
      exact ⟨_, .const _, disk, _, later, inTime⟩
  | read offset size =>
      obtain ⟨rfl, inTime⟩ := inTime
      obtain ⟨after, data, disk, idle⟩ := read_gives inReach isDue.idle block
      exact ⟨after, data.bind (.const _), disk, 0, .inl idle, inTime⟩
  | write offset data =>
      obtain ⟨rfl, inTime⟩ := inTime
      obtain ⟨after, written, disk, later⟩ := write_gives inReach isDue.idle block
      exact ⟨after, written.bind (.const _), disk, _, later, inTime⟩

/-- Calls in reach and in time are answered as by a store. -/
theorem serveAll_gives {calls : List Call} {due : Nat} (isDue : Due hw due ata.drive)
    (inReach : ∀ call ∈ calls, call.InReach hw) (inTime : InTime hw.longest due calls)
    (heap : Nat → HeapBlock) :
    ∃ after, Gives (fun fuel => serveAll hw fuel heap calls ata)
        ((Store.serveAll calls ata.drive.disk).1, after) ∧
      after.drive.disk = (Store.serveAll calls ata.drive.disk).2 := by
  induction calls generalizing ata due with
  | nil => exact ⟨ata, .const _, rfl⟩
  | cons call rest ih =>
      obtain ⟨next, answer, disk, left, later, inTime⟩ :=
        serve_gives isDue (inReach call List.mem_cons_self) inTime (heap rest.length)
      obtain ⟨after, answers, final⟩ :=
        ih later (fun other member => inReach other (List.mem_cons_of_mem call member)) inTime
      rw [disk] at answers final
      exact ⟨after, answer.bind (answers.bind (.const _)), final⟩

/-- **Bytes through the ports.** On an idle drive, any list of calls within reach, each made
when the drive can be done with the write before it, is answered as by a store of bytes, and
leaves the disk with the bytes of the store. -/
theorem serves_bytes (hw : AtaHardware) (ata : Ata) (idle : Idle ata.drive) (calls : List Call)
    (inReach : ∀ call ∈ calls, call.InReach hw) (inTime : InTime hw.longest 0 calls)
    (heap : Nat → HeapBlock) :
    ∃ after, Gives (fun fuel => serveAll hw fuel heap calls ata)
        ((Store.serveAll calls ata.drive.disk).1, after) ∧
      after.drive.disk = (Store.serveAll calls ata.drive.disk).2 :=
  serveAll_gives (.inl idle) inReach inTime heap

/-- A byte is written, which keeps the drive busy, and read back. -/
theorem serves_bytes_worn :
    ∃ after, Gives (fun fuel => serveAll wornHardware fuel (fun _ => ⟨0x11_0000, rfl⟩)
        [.write 5 [42], .pause 1, .pause 1, .read 4 3] (atRest fun _ => 7))
        ((Store.serveAll [.write 5 [42], .pause 1, .pause 1, .read 4 3] fun _ => 7).1, after) ∧
      after.drive.disk =
        (Store.serveAll [.write 5 [42], .pause 1, .pause 1, .read 4 3] fun _ => 7).2 := by
  have sound : ∀ sector, sector < 1 → wornHardware.damaged sector = false := by
    intro sector below
    exact beq_eq_false_iff_ne.mpr (by omega)
  refine serves_bytes wornHardware (atRest fun _ => 7) ⟨false, rfl⟩ _ ?_ ?_ _
  · intro call member
    simp only [List.mem_cons, List.not_mem_nil, or_false] at member
    rcases member with rfl | rfl | rfl | rfl
    · exact ⟨by decide, by decide, by decide, fun sector _ below => sound sector below⟩
    · exact trivial
    · exact trivial
    · exact ⟨by decide, by decide, by decide, fun sector _ below => sound sector below⟩
  · exact ⟨rfl, rfl, trivial⟩

example : (Store.serveAll [.write 5 [42], .read 4 3] fun _ => 7).1 =
    [.written 1, .bytes [7, 42, 7]] := by
  decide

end Lofita.Fs.Pio
