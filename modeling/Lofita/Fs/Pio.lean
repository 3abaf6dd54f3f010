import Lofita.Foundation.Fuel
import Lofita.Fs.Ata

/-! # The ATA drive behind its ports

The port accesses of `ata.zig`, and the drive they talk to. The drive takes a command into its
registers, is busy for a while before each sector, asks for the words of the sector one by one
and goes on to the next; a sector that it cannot reach ends the command with an error. A read
and a write transfer the sectors up to the first one that cannot be reached
(`transfers_up_to_damage`). They do so on an idle drive only: the driver does not wait for the
last sector of a write, and what is sent to a busy drive is lost (`returns_iff_idle`); and a
sector count of zero stands for 256, of which the driver takes none (`shifted_after_none`).
-/

namespace Lofita.Fs.Pio

open Lofita.Foundation Lofita.Foundation.Outcome

/-! ### The drive -/

/-- What the driver cannot know of a drive: the sectors out of reach, for how many polls it is
busy each time, which has a bound, and the word that its data port gives when none is due. -/
structure AtaHardware where
  damaged : Nat → Bool
  delay : Nat → Nat
  longest : Nat
  delay_le : ∀ waits, delay waits ≤ longest
  floating : U16

/-- The sectors of a command that are left, the next one first. -/
structure Transfer where
  writes : Bool
  lba : Nat
  left : Nat
deriving DecidableEq, Repr

/-- The transfer after its first sector. -/
def Transfer.next (transfer : Transfer) : Transfer :=
  { transfer with lba := transfer.lba + 1, left := transfer.left - 1 }

/-- What the drive does. Of a sector that it is ready for, the buffer holds the bytes still to
be read, or those written so far. -/
inductive Activity where
  | idle (failed : Bool)
  | busy (delay : Nat) (transfer : Transfer)
  | ready (transfer : Transfer) (buffer : List U8)
deriving DecidableEq, Repr

/-- The sectors, the registers behind the ports, and how often the drive has been busy. -/
structure AtaDrive where
  disk : Disk
  ports : AtaPorts
  activity : Activity
  waits : Nat

/-- The ports, commands and status bits of the driver. -/
def sectCountPort : U16 := 0x1F2
def lbaLoPort : U16 := 0x1F3
def lbaMidPort : U16 := 0x1F4
def lbaHiPort : U16 := 0x1F5
def drivePort : U16 := 0x1F6
def commandPort : U16 := 0x1F7
def cmdReadPio : U8 := 0x20
def cmdWritePio : U8 := 0x30
def statusBsy : U8 := 0x80
def statusDrq : U8 := 0x08
def statusErr : U8 := 0x01

variable (hw : AtaHardware)

/-- What the drive does when it is no longer busy. -/
def prepare (disk : Disk) (transfer : Transfer) : Activity :=
  if transfer.left = 0 then .idle false
  else if hw.damaged transfer.lba then .idle true
  else .ready transfer (if transfer.writes then [] else window disk (512 * transfer.lba) 512)

/-- What the drive does with some polls left for which it is busy. -/
def wait (disk : Disk) (transfer : Transfer) : Nat → Activity
  | 0 => prepare hw disk transfer
  | delay + 1 => .busy delay transfer

/-- The number of sectors that a sector count stands for. -/
def sectorsNamed (sectorCount : U8) : Nat := if sectorCount = 0 then 256 else sectorCount.toNat

namespace AtaDrive

/-- The drive turns to what is left of a transfer. -/
def goOn (transfer : Transfer) (drive : AtaDrive) : AtaDrive :=
  { drive with
    activity := wait hw drive.disk transfer (hw.delay drive.waits)
    waits := drive.waits + 1 }

/-- Some time passes. -/
def elapse (drive : AtaDrive) : AtaDrive :=
  match drive.activity with
  | .busy delay transfer => { drive with activity := wait hw drive.disk transfer delay }
  | _ => drive

/-- The status byte, as its activity has it. -/
def status (drive : AtaDrive) : U8 :=
  match drive.activity with
  | .idle false => 0x40
  | .idle true => 0x41
  | .busy .. => 0x80
  | .ready .. => 0x48

/-- `inb` on the status port. -/
def inbStatus (drive : AtaDrive) : U8 × AtaDrive := (drive.status, drive.elapse hw)

/-- A command on the sectors that the registers name. -/
def command (value : U8) (drive : AtaDrive) : AtaDrive :=
  let left := sectorsNamed drive.ports.sectCountPort
  if value = cmdReadPio then drive.goOn hw ⟨false, drive.ports.lba, left⟩
  else if value = cmdWritePio then drive.goOn hw ⟨true, drive.ports.lba, left⟩
  else drive

/-- `outb`. Only an idle drive takes what is written to its ports. -/
def outb (drive : AtaDrive) (port : U16) (value : U8) : AtaDrive :=
  match drive.activity with
  | .idle _ =>
      if port = drivePort then { drive with ports := { drive.ports with drivePort := value } }
      else if port = sectCountPort then
        { drive with ports := { drive.ports with sectCountPort := value } }
      else if port = lbaLoPort then
        { drive with ports := { drive.ports with lbaLoPort := value } }
      else if port = lbaMidPort then
        { drive with ports := { drive.ports with lbaMidPort := value } }
      else if port = lbaHiPort then
        { drive with ports := { drive.ports with lbaHiPort := value } }
      else if port = commandPort then drive.command hw value
      else drive
  | _ => drive

/-- The last word of a sector has been read. -/
def sectorRead (transfer : Transfer) (drive : AtaDrive) : AtaDrive :=
  if transfer.left = 1 then { drive with activity := .idle false }
  else drive.goOn hw transfer.next

/-- `inw` on the data port. -/
def inw (drive : AtaDrive) : U16 × AtaDrive :=
  match drive.activity with
  | .ready transfer (low :: high :: rest) =>
      if transfer.writes then (hw.floating, drive)
      else
        (high ++ low,
          if rest = [] then drive.sectorRead hw transfer
          else { drive with activity := .ready transfer rest })
  | _ => (hw.floating, drive)

/-- `outw` on the data port. -/
def outw (low high : U8) (drive : AtaDrive) : AtaDrive :=
  match drive.activity with
  | .ready transfer buffer =>
      if transfer.writes then
        if (buffer ++ [low, high]).length = 512 then
          { drive with
            disk := splice drive.disk (512 * transfer.lba) (buffer ++ [low, high]) }.goOn hw
              transfer.next
        else { drive with activity := .ready transfer (buffer ++ [low, high]) }
      else drive
  | _ => drive

end AtaDrive

/-! ### The driver -/

/-- The drive, and the messages that the driver has printed. -/
structure Ata where
  drive : AtaDrive
  messages : List String

/-- What the driver prints when a wait ends in an error. -/
def errorMessage : String := "[ATA] Error during DRQ wait!\n"

/-- The status is read until the drive is not busy. -/
def ataWaitBsy : Nat → Ata → Checked Ata
  | 0, _ => throw .outOfFuel
  | fuel + 1, ata =>
      let (status, drive) := ata.drive.inbStatus hw
      if status &&& statusBsy ≠ 0 then ataWaitBsy fuel { ata with drive }
      else return { ata with drive }

/-- The status is read until data is there, or an error is seen and reported. -/
def ataWaitDrq : Nat → Ata → Checked Ata
  | 0, _ => throw .outOfFuel
  | fuel + 1, ata =>
      let (status, drive) := ata.drive.inbStatus hw
      if status &&& (statusBsy ||| statusDrq) ≠ statusDrq then
        let (status, drive) := drive.inbStatus hw
        if status &&& statusErr ≠ 0 then
          return { drive, messages := ata.messages ++ [errorMessage] }
        else ataWaitDrq fuel { ata with drive }
      else return { ata with drive }

/-- Select the sectors and send the command. -/
def send (command : U8) (lba : U32) (sectorCount : U8) (drive : AtaDrive) : AtaDrive :=
  let ports := AtaPorts.select lba sectorCount
  let drive := drive.outb hw drivePort ports.drivePort
  let drive := drive.outb hw sectCountPort ports.sectCountPort
  let drive := drive.outb hw lbaLoPort ports.lbaLoPort
  let drive := drive.outb hw lbaMidPort ports.lbaMidPort
  let drive := drive.outb hw lbaHiPort ports.lbaHiPort
  drive.outb hw commandPort command

/-- The bytes of a word in memory. -/
def wordBytes (word : U16) : List U8 := [word.setWidth 8, (word >>> 8).setWidth 8]

/-- Words from the data port, as they are stored in memory. -/
def readWords : Nat → AtaDrive → List U8 × AtaDrive
  | 0, drive => ([], drive)
  | count + 1, drive =>
      let (word, drive) := drive.inw hw
      let (rest, drive) := readWords count drive
      (wordBytes word ++ rest, drive)

/-- Words from memory to the data port. -/
def writeWords : Nat → List U8 → AtaDrive → AtaDrive
  | count + 1, low :: high :: rest, drive => writeWords count rest (drive.outw hw low high)
  | _, _, drive => drive

/-- Sector by sector, each waited for. -/
def readLoop (fuel : Nat) : Nat → Ata → Checked (List U8 × Ata)
  | 0, ata => return ([], ata)
  | left + 1, ata => do
      let ata ← ataWaitBsy hw fuel ata
      let ata ← ataWaitDrq hw fuel ata
      let (sector, drive) := readWords hw 256 ata.drive
      let (rest, ata) ← readLoop fuel left { ata with drive }
      return (sector ++ rest, ata)

/-- Sector by sector, each waited for. -/
def writeLoop (fuel : Nat) : Nat → List U8 → Ata → Checked Ata
  | 0, _, ata => return ata
  | left + 1, src, ata => do
      let ata ← ataWaitBsy hw fuel ata
      let ata ← ataWaitDrq hw fuel ata
      let drive := writeWords hw 256 (src.take 512) ata.drive
      writeLoop fuel left (src.drop 512) { ata with drive }

/-- `ata_read_sectors`, with the bytes it stores at `dest`. -/
def ataReadSectors (fuel : Nat) (lba : U32) (sectorCount : U8) (dest : Nat) (ata : Ata) :
    Checked (List U8 × Ata) := do
  let drive := send hw cmdReadPio lba sectorCount ata.drive
  alignCast dest
  readLoop hw fuel sectorCount.toNat { ata with drive }

/-- `ata_write_sectors`, with the bytes it loads from `ptr`. -/
def ataWriteSectors (fuel : Nat) (lba : U32) (sectorCount : U8) (ptr : Nat) (src : List U8)
    (ata : Ata) : Checked Ata := do
  let drive := send hw cmdWritePio lba sectorCount ata.drive
  alignCast ptr
  writeLoop hw fuel sectorCount.toNat src { ata with drive }

/-! ### Polling -/

/-- The drive goes on with a transfer, if it is not at it yet. -/
def Awaits (transfer : Transfer) (drive : AtaDrive) : Prop :=
  ∃ delay ≤ hw.longest, drive.activity = wait hw drive.disk transfer delay

variable {hw} {ata : Ata} {drive : AtaDrive} {transfer : Transfer} {disk : Disk}

/-- A drive that goes on will be ready for its transfer. -/
theorem awaits_goOn : Awaits hw transfer (drive.goOn hw transfer) := ⟨_, hw.delay_le _, rfl⟩

/-- The drive is not busy. -/
def Settled (drive : AtaDrive) : Prop := ∀ delay transfer, drive.activity ≠ .busy delay transfer

/-- A prepared sector is there at once. -/
theorem prepare_ne_busy (delay : Nat) (other : Transfer) :
    prepare hw disk transfer ≠ .busy delay other := by
  unfold prepare
  split_ifs <;> nofun

/-- Time changes nothing in a drive that is not busy. -/
theorem Settled.elapse (settled : Settled drive) : drive.elapse hw = drive := by
  unfold AtaDrive.elapse
  split
  · next busy => exact absurd busy (settled _ _)
  · rfl

/-- Such a drive does not report that it is busy. -/
theorem Settled.status (settled : Settled drive) : drive.status &&& statusBsy = 0 := by
  unfold AtaDrive.status
  split
  · decide
  · decide
  · next busy => exact absurd busy (settled _ _)
  · decide

/-- A drive that is not busy is not waited for. -/
theorem ataWaitBsy_settled (settled : Settled ata.drive) (fuel : Nat) :
    ataWaitBsy hw (fuel + 1) ata = .ok ata := by
  have clear : ¬ ata.drive.status &&& statusBsy ≠ 0 := not_not.mpr settled.status
  simp only [ataWaitBsy, AtaDrive.inbStatus, clear, ↓reduceIte, settled.elapse]
  rfl

/-- The drive becomes ready for the next sector, or fails to. -/
theorem ataWaitBsy_gives (awaits : Awaits hw transfer ata.drive) :
    Gives (fun fuel => ataWaitBsy hw fuel ata)
      { ata with
        drive := { ata.drive with activity := prepare hw ata.drive.disk transfer } } := by
  obtain ⟨delay, -, activity⟩ := awaits
  induction delay generalizing ata with
  | zero =>
      have settled : Settled ata.drive := fun delay other busy =>
        prepare_ne_busy delay other (activity.symm.trans busy)
      refine ⟨1, fun fuel le => ?_⟩
      obtain ⟨less, rfl⟩ := Nat.exists_eq_add_of_le' le
      change ataWaitBsy hw (less + 1) ata = _
      have prepared : ata.drive.activity = prepare hw ata.drive.disk transfer := activity
      rw [ataWaitBsy_settled settled, ← prepared]
  | succ delay ih =>
      have passed : ata.drive.elapse hw =
          { ata.drive with activity := wait hw ata.drive.disk transfer delay } := by
        unfold AtaDrive.elapse
        rw [show ata.drive.activity = .busy delay transfer from activity]
      have later : Gives (fun fuel => ataWaitBsy hw fuel
          { ata with
            drive := { ata.drive with activity := wait hw ata.drive.disk transfer delay } })
          { ata with
            drive := { ata.drive with activity := prepare hw ata.drive.disk transfer } } := ih rfl
      refine later.step fun fuel => ?_
      have busy : ata.drive.status = 0x80 := by
        unfold AtaDrive.status
        rw [show ata.drive.activity = .busy delay transfer from activity]
      simp only [ataWaitBsy, AtaDrive.inbStatus, passed, busy]
      rfl

/-- What a driver finds that waits for a sector. -/
theorem ataWaitDrq_ready {buffer : List U8} (ready : ata.drive.activity = .ready transfer buffer) :
    Gives (fun fuel => ataWaitDrq hw fuel ata) ata := by
  refine ⟨1, fun fuel le => ?_⟩
  obtain ⟨less, rfl⟩ := Nat.exists_eq_add_of_le' le
  have settled : Settled ata.drive := fun delay other busy => nomatch ready.symm.trans busy
  have status : ata.drive.status = 0x48 := by
    unfold AtaDrive.status
    rw [ready]
  simp only [ataWaitDrq, AtaDrive.inbStatus, settled.elapse, status]
  rfl

/-- A failed transfer is reported and the wait ends. -/
theorem ataWaitDrq_failed (failed : ata.drive.activity = .idle true) :
    Gives (fun fuel => ataWaitDrq hw fuel ata)
      { ata with messages := ata.messages ++ [errorMessage] } := by
  refine ⟨1, fun fuel le => ?_⟩
  obtain ⟨less, rfl⟩ := Nat.exists_eq_add_of_le' le
  have settled : Settled ata.drive := fun delay other busy => nomatch failed.symm.trans busy
  have status : ata.drive.status = 0x41 := by
    unfold AtaDrive.status
    rw [failed]
  simp only [ataWaitDrq, AtaDrive.inbStatus, settled.elapse, status]
  rfl

/-- A drive with nothing to transfer is polled for ever. -/
theorem ataWaitDrq_never (hw : AtaHardware) (ata : Ata)
    (done : ata.drive.activity = .idle false) (fuel : Nat) :
    ataWaitDrq hw fuel ata = .error .outOfFuel := by
  induction fuel with
  | zero => rfl
  | succ fuel ih =>
      have settled : Settled ata.drive := fun delay other busy => nomatch done.symm.trans busy
      have status : ata.drive.status = 0x40 := by
        unfold AtaDrive.status
        rw [done]
      rw [← ih]
      simp only [ataWaitDrq, AtaDrive.inbStatus, settled.elapse, status]
      rfl

/-! ### The words of a sector -/

/-- A word is its two bytes, the low one first. -/
theorem wordBytes_append (low high : U8) : wordBytes (high ++ low) = [low, high] := by
  have first : (high ++ low).setWidth 8 = low := by
    refine BitVec.eq_of_getLsbD_eq fun i below => ?_
    rw [BitVec.getLsbD_setWidth, BitVec.getLsbD_append, if_pos below, decide_eq_true below,
      Bool.true_and]
  have second : ((high ++ low) >>> 8).setWidth 8 = high := by
    refine BitVec.eq_of_getLsbD_eq fun i below => ?_
    rw [BitVec.getLsbD_setWidth, BitVec.getLsbD_ushiftRight, BitVec.getLsbD_append,
      if_neg (by omega), Nat.add_sub_cancel_left, decide_eq_true below, Bool.true_and]
  unfold wordBytes
  rw [first, second]

/-- The next word of a sector. -/
theorem inw_ready {low high : U8} {rest : List U8} (reads : transfer.writes = false)
    (ready : drive.activity = .ready transfer (low :: high :: rest)) :
    drive.inw hw = (high ++ low, if rest = [] then drive.sectorRead hw transfer
      else { drive with activity := .ready transfer rest }) := by
  unfold AtaDrive.inw
  simp only [ready, reads, Bool.false_eq_true, ↓reduceIte]

/-- The words of a sector are the bytes that are left of it. -/
theorem readWords_ready {count : Nat} {buffer : List U8} (reads : transfer.writes = false)
    (ready : drive.activity = .ready transfer buffer) (length : buffer.length = 2 * (count + 1)) :
    readWords hw (count + 1) drive = (buffer, drive.sectorRead hw transfer) := by
  induction count generalizing drive buffer with
  | zero =>
      match buffer, length with
      | [low, high], _ => simp only [readWords, inw_ready reads ready, wordBytes_append,
          ↓reduceIte, List.append_nil]
  | succ count ih =>
      match buffer, length with
      | low :: high :: rest, length =>
          have shorter : rest.length = 2 * (count + 1) := by
            simp only [List.length_cons] at length
            omega
          have more : rest ≠ [] := by
            rintro rfl
            simp only [List.length_nil] at shorter
            omega
          have later : readWords hw (count + 1) { drive with activity := .ready transfer rest } =
              (rest, drive.sectorRead hw transfer) := ih rfl shorter
          rw [readWords, inw_ready reads ready, if_neg more]
          simp only [later, wordBytes_append]
          rfl

/-- A drive with no sector due gives the same word each time. -/
theorem readWords_floating (failed : drive.activity = .idle true) (count : Nat) :
    readWords hw count drive = ((List.replicate count (wordBytes hw.floating)).flatten, drive) := by
  have word : drive.inw hw = (hw.floating, drive) := by
    unfold AtaDrive.inw
    rw [failed]
  induction count with
  | zero => rfl
  | succ count ih =>
      rw [readWords, word]
      simp only [ih]
      rfl

/-- The bytes for a sector are stored with its last word. -/
theorem writeWords_ready {count : Nat} {buffer src : List U8} (writes : transfer.writes = true)
    (ready : drive.activity = .ready transfer buffer)
    (length : src.length = 2 * (count + 1)) (full : buffer.length + src.length = 512) :
    writeWords hw (count + 1) src drive =
      { drive with disk := splice drive.disk (512 * transfer.lba) (buffer ++ src) }.goOn hw
        transfer.next := by
  induction count generalizing drive buffer src with
  | zero =>
      match src, length with
      | [low, high], _ =>
          have last : (buffer ++ [low, high]).length = 512 := by
            rw [List.length_append]
            exact full
          simp only [writeWords, AtaDrive.outw, ready, writes, last, ↓reduceIte]
  | succ count ih =>
      match src, length with
      | low :: high :: rest, length =>
          simp only [List.length_cons] at length full
          have inside : ¬ (buffer ++ [low, high]).length = 512 := by
            rw [List.length_append, List.length_cons, List.length_cons, List.length_nil]
            omega
          have shorter : (buffer ++ [low, high]).length + rest.length = 512 := by
            rw [List.length_append, List.length_cons, List.length_cons, List.length_nil]
            omega
          have later : writeWords hw (count + 1) rest
              { drive with activity := .ready transfer (buffer ++ [low, high]) } =
              AtaDrive.goOn hw transfer.next
                { drive with
                  disk := splice drive.disk (512 * transfer.lba)
                    (buffer ++ [low, high] ++ rest) } := ih rfl (by omega) shorter
          have split : buffer ++ low :: high :: rest = buffer ++ [low, high] ++ rest := by
            rw [List.append_assoc]
            rfl
          simp only [writeWords, AtaDrive.outw, ready, writes, inside, ↓reduceIte]
          rw [split, later]
          rfl

/-- Words written after a failure are lost. -/
theorem writeWords_failed (failed : drive.activity = .idle true) (count : Nat) (src : List U8) :
    writeWords hw count src drive = drive := by
  have ignored (low high : U8) : drive.outw hw low high = drive := by
    unfold AtaDrive.outw
    rw [failed]
  fun_induction writeWords hw count src drive with
  | case1 count low high rest drive ih =>
      rw [ignored] at ih ⊢
      exact ih failed ignored
  | case2 => rfl

/-! ### Transfers of sectors -/

/-- The sectors that a transfer gets to: those before the first one out of reach. -/
def reached (hw : AtaHardware) : Nat → Nat → Nat
  | _, 0 => 0
  | lba, count + 1 => if hw.damaged lba then 0 else reached hw (lba + 1) count + 1

/-- No more sectors are transferred than were asked for. -/
theorem reached_le (lba count : Nat) : reached hw lba count ≤ count := by
  induction count generalizing lba with
  | zero => exact Nat.le_refl 0
  | succ count ih =>
      unfold reached
      split_ifs
      · exact Nat.zero_le _
      · exact Nat.succ_le_succ (ih (lba + 1))

/-- All sectors are reached if none is damaged. -/
theorem reached_eq {lba count : Nat}
    (sound : ∀ sector, lba ≤ sector → sector < lba + count → hw.damaged sector = false) :
    reached hw lba count = count := by
  induction count generalizing lba with
  | zero => rfl
  | succ count ih =>
      unfold reached
      rw [sound lba (Nat.le_refl _) (by omega), if_neg Bool.false_ne_true,
        ih fun sector above below => sound sector (by omega) (by omega)]

/-- The two waits before each sector. -/
def awaitSector (hw : AtaHardware) (fuel : Nat) (ata : Ata) : Checked Ata := do
  let ata ← ataWaitBsy hw fuel ata
  ataWaitDrq hw fuel ata

/-- One round of the reading loop. -/
theorem readLoop_succ (fuel left : Nat) : readLoop hw fuel (left + 1) ata =
    awaitSector hw fuel ata >>= fun ata =>
      readLoop hw fuel left { ata with drive := (readWords hw 256 ata.drive).2 } >>= fun later =>
        pure ((readWords hw 256 ata.drive).1 ++ later.1, later.2) := by
  conv =>
    lhs
    unfold readLoop
  generalize readWords hw 256 = words
  rw [awaitSector, bind_assoc]

/-- One round of the writing loop. -/
theorem writeLoop_succ (fuel left : Nat) (src : List U8) : writeLoop hw fuel (left + 1) src ata =
    awaitSector hw fuel ata >>= fun ata => writeLoop hw fuel left (src.drop 512)
      { ata with drive := writeWords hw 256 (src.take 512) ata.drive } := by
  rw [awaitSector, bind_assoc]
  rfl

/-- One sector, and then the others. -/
theorem readLoop_step {ready after : Ata} {left : Nat} {sector rest : List U8}
    (waited : Gives (fun fuel => awaitSector hw fuel ata) ready)
    (words : readWords hw 256 ready.drive = (sector, drive))
    (others : Gives (fun fuel => readLoop hw fuel left { ready with drive }) (rest, after)) :
    Gives (fun fuel => readLoop hw fuel (left + 1) ata) (sector ++ rest, after) := by
  simp only [readLoop_succ]
  refine waited.bind ?_
  rw [words]
  exact others.bind (.const _)

/-- A round of the writing loop, by what its parts give. -/
theorem writeLoop_step {ready after : Ata} {left : Nat} {src : List U8}
    (waited : Gives (fun fuel => awaitSector hw fuel ata) ready)
    (words : writeWords hw 256 (src.take 512) ready.drive = drive)
    (others :
      Gives (fun fuel => writeLoop hw fuel left (src.drop 512) { ready with drive }) after) :
    Gives (fun fuel => writeLoop hw fuel (left + 1) src ata) after := by
  simp only [writeLoop_succ]
  refine waited.bind ?_
  rw [words]
  exact others

/-- The drive gives up at a sector out of reach. -/
theorem awaitSector_damaged (awaits : Awaits hw transfer ata.drive) (more : transfer.left ≠ 0)
    (damaged : hw.damaged transfer.lba = true) :
    Gives (fun fuel => awaitSector hw fuel ata)
      { drive := { ata.drive with activity := .idle true }
        messages := ata.messages ++ [errorMessage] } := by
  have settles := ataWaitBsy_gives awaits
  rw [show prepare hw ata.drive.disk transfer = .idle true from
    (if_neg more).trans (if_pos damaged)] at settles
  exact settles.bind (ataWaitDrq_failed rfl)

/-- The drive gets ready for any other sector. -/
theorem awaitSector_sound (awaits : Awaits hw transfer ata.drive) (more : transfer.left ≠ 0)
    (sound : ¬ hw.damaged transfer.lba = true) :
    Gives (fun fuel => awaitSector hw fuel ata)
      { ata with
        drive :=
          { ata.drive with
            activity := .ready transfer
              (if transfer.writes then []
              else window ata.drive.disk (512 * transfer.lba) 512) } } := by
  have settles := ataWaitBsy_gives awaits
  rw [show prepare hw ata.drive.disk transfer = .ready transfer _ from
    (if_neg more).trans (if_neg sound)] at settles
  exact settles.bind (ataWaitDrq_ready rfl)

/-- A drive that has given up fails again for the next sector. -/
theorem awaitSector_failed (failed : ata.drive.activity = .idle true) :
    Gives (fun fuel => awaitSector hw fuel ata)
      { ata with messages := ata.messages ++ [errorMessage] } := by
  have settled : Settled ata.drive := fun delay other busy => nomatch failed.symm.trans busy
  refine Gives.bind ⟨1, fun fuel le => ?_⟩ (ataWaitDrq_failed failed)
  obtain ⟨less, rfl⟩ := Nat.exists_eq_add_of_le' le
  exact ataWaitBsy_settled settled less

/-- The bytes of words that no sector is behind. -/
def floatingBytes (hw : AtaHardware) (count : Nat) : List U8 :=
  (List.replicate count (wordBytes hw.floating)).flatten

/-- The floating bus read on. -/
theorem floatingBytes_add (first second : Nat) :
    floatingBytes hw (first + second) = floatingBytes hw first ++ floatingBytes hw second := by
  unfold floatingBytes
  rw [← List.replicate_append_replicate, List.flatten_append]

/-- The driver goes on reading from a drive that has given up. -/
theorem readLoop_failed (hw : AtaHardware) (ata : Ata) (failed : ata.drive.activity = .idle true)
    (count : Nat) :
    Gives (fun fuel => readLoop hw fuel count ata) (floatingBytes hw (256 * count),
      { ata with messages := ata.messages ++ List.replicate count errorMessage }) := by
  induction count generalizing ata with
  | zero =>
      rw [List.replicate_zero, List.append_nil]
      exact .const _
  | succ count ih =>
      rw [Nat.mul_succ, Nat.add_comm (256 * count), floatingBytes_add, List.replicate_succ,
        List.append_cons]
      exact readLoop_step (awaitSector_failed failed) (readWords_floating failed 256) (ih _ failed)

/-- After a failure every sector of a write is reported and lost. -/
theorem writeLoop_failed (hw : AtaHardware) (ata : Ata) (failed : ata.drive.activity = .idle true)
    (count : Nat) (src : List U8) :
    Gives (fun fuel => writeLoop hw fuel count src ata)
      { ata with messages := ata.messages ++ List.replicate count errorMessage } := by
  induction count generalizing ata src with
  | zero =>
      rw [List.replicate_zero, List.append_nil]
      exact .const _
  | succ count ih =>
      rw [List.replicate_succ, List.append_cons]
      exact writeLoop_step (awaitSector_failed failed) (writeWords_failed failed 256 _)
        (ih { ata with messages := ata.messages ++ [errorMessage] } failed _)

/-- Reading a sector leaves the disk alone. -/
theorem disk_sectorRead : (drive.sectorRead hw transfer).disk = drive.disk := by
  unfold AtaDrive.sectorRead
  split_ifs <;> rfl

/-- What is left of a transfer when some sectors have been read or written. -/
structure Leaves (hw : AtaHardware) (writes : Bool) (lba more : Nat) (drive : AtaDrive) : Prop where
  done : writes = false → more = 0 → drive.activity = .idle false
  awaits : writes = true ∨ 0 < more → Awaits hw ⟨writes, lba, more⟩ drive

/-- After a sector the drive is on its way to the next. -/
theorem leaves_sectorRead {lba more : Nat} :
    Leaves hw false (lba + 1) more (drive.sectorRead hw ⟨false, lba, more + 1⟩) := by
  unfold AtaDrive.sectorRead
  constructor
  · rintro - rfl
    rfl
  · rintro (writes | some)
    · cases writes
    · rw [if_neg (by simp only; omega)]
      exact awaits_goOn

/-- The sectors before the first one out of reach are read, and something else for the
others. -/
theorem readLoop_gives {lba count more : Nat}
    (leaves : Leaves hw false lba (count + more) ata.drive) :
    ∃ after, Gives (fun fuel => readLoop hw fuel count ata)
        (window ata.drive.disk (512 * lba) (512 * reached hw lba count) ++
          floatingBytes hw (256 * (count - reached hw lba count)), after) ∧
      after.drive.disk = ata.drive.disk ∧
      after.messages =
        ata.messages ++ List.replicate (count - reached hw lba count) errorMessage ∧
      (reached hw lba count < count → after.drive.activity = .idle true) ∧
      (reached hw lba count = count → Leaves hw false (lba + count) more after.drive) := by
  induction count generalizing ata lba with
  | zero =>
      refine ⟨ata, .const _, rfl, (List.append_nil _).symm, ?_, fun _ => ?_⟩
      · exact fun short => absurd short (Nat.lt_irrefl 0)
      · rwa [Nat.zero_add] at leaves
  | succ count ih =>
      have some : 0 < count + 1 + more := by omega
      have awaits := leaves.awaits (.inr some)
      by_cases damaged : hw.damaged lba = true
      · -- the drive gives up, and the driver takes what its data port gives
        have none_reached : reached hw lba (count + 1) = 0 := if_pos damaged
        have waited := awaitSector_damaged awaits (Nat.ne_of_gt some) damaged
        have bytes : window ata.drive.disk (512 * lba) (512 * 0) ++
            floatingBytes hw (256 * (count + 1 - 0)) =
            floatingBytes hw 256 ++ floatingBytes hw (256 * count) := by
          rw [Nat.sub_zero, Nat.mul_succ, Nat.add_comm (256 * count), floatingBytes_add]
          rfl
        rw [none_reached, bytes]
        refine ⟨{ drive := { ata.drive with activity := .idle true }
                  messages := ata.messages ++ [errorMessage] ++ List.replicate count errorMessage },
          ?_, rfl, ?_, fun _ => rfl, fun all => absurd all (Nat.succ_ne_zero count).symm⟩
        · exact readLoop_step waited (readWords_floating rfl 256) (readLoop_failed hw _ rfl count)
        · rw [Nat.sub_zero, List.replicate_succ, List.append_assoc]
          rfl
      · have one_more : reached hw lba (count + 1) = reached hw (lba + 1) count + 1 :=
          if_neg damaged
        have waited := awaitSector_sound awaits (Nat.ne_of_gt some) damaged
        have left : count + 1 + more = count + more + 1 := Nat.add_right_comm count 1 more
        rw [left] at waited
        have words : readWords hw 256
            { ata.drive with
              activity := .ready ⟨false, lba, count + more + 1⟩
                (window ata.drive.disk (512 * lba) 512) } =
            (window ata.drive.disk (512 * lba) 512,
              ata.drive.sectorRead hw ⟨false, lba, count + more + 1⟩) :=
          readWords_ready rfl rfl length_window
        -- the first sector, and the others by induction
        obtain ⟨after, rest, disk, messages, gaveUp, leaves⟩ := @ih
          { ata with drive := ata.drive.sectorRead hw ⟨false, lba, count + more + 1⟩ } (lba + 1)
          leaves_sectorRead
        simp only [disk_sectorRead] at rest disk
        have bytes : window ata.drive.disk (512 * lba) (512 * (reached hw (lba + 1) count + 1)) =
            window ata.drive.disk (512 * lba) 512 ++
              window ata.drive.disk (512 * (lba + 1)) (512 * reached hw (lba + 1) count) := by
          rw [Nat.mul_succ 512 lba, window_append, Nat.mul_succ, Nat.add_comm 512]
        rw [one_more, Nat.add_sub_add_right, bytes, List.append_assoc]
        refine ⟨after, ?_, disk, messages, ?_, ?_⟩
        · exact readLoop_step waited words rest
        · exact fun short => gaveUp (Nat.lt_of_succ_lt_succ short)
        · intro all
          have next := leaves (Nat.succ.inj all)
          rwa [Nat.add_right_comm lba 1 count] at next

/-- The sectors before the first one out of reach are written, and nothing else. -/
theorem writeLoop_gives {lba count more : Nat} {src : List U8}
    (leaves : Leaves hw true lba (count + more) ata.drive) (length : src.length = 512 * count) :
    ∃ after, Gives (fun fuel => writeLoop hw fuel count src ata) after ∧
      after.drive.disk =
        splice ata.drive.disk (512 * lba) (src.take (512 * reached hw lba count)) ∧
      after.messages =
        ata.messages ++ List.replicate (count - reached hw lba count) errorMessage ∧
      (reached hw lba count < count → after.drive.activity = .idle true) ∧
      (reached hw lba count = count → Leaves hw true (lba + count) more after.drive) := by
  induction count generalizing ata lba src with
  | zero =>
      refine ⟨ata, .const _, ?_, (List.append_nil _).symm, ?_, fun _ => ?_⟩
      · rw [reached, Nat.mul_zero, List.take_zero, splice_nil]
      · exact fun short => absurd short (Nat.lt_irrefl 0)
      · rwa [Nat.zero_add] at leaves
  | succ count ih =>
      have some : 0 < count + 1 + more := by omega
      have awaits := leaves.awaits (.inl rfl)
      have others : (src.drop 512).length = 512 * count := by
        rw [List.length_drop, length]
        omega
      by_cases damaged : hw.damaged lba = true
      · have none_reached : reached hw lba (count + 1) = 0 := if_pos damaged
        have waited := awaitSector_damaged awaits (Nat.ne_of_gt some) damaged
        rw [none_reached]
        refine ⟨{ drive := { ata.drive with activity := .idle true }
                  messages := ata.messages ++ [errorMessage] ++ List.replicate count errorMessage },
          ?_, ?_, ?_, fun _ => rfl, fun all => absurd all (Nat.succ_ne_zero count).symm⟩
        · exact writeLoop_step waited (writeWords_failed rfl 256 _)
            (writeLoop_failed hw _ rfl count _)
        · rw [Nat.mul_zero, List.take_zero, splice_nil]
        · rw [Nat.sub_zero, List.replicate_succ, List.append_assoc]
          rfl
      · have one_more : reached hw lba (count + 1) = reached hw (lba + 1) count + 1 :=
          if_neg damaged
        have waited := awaitSector_sound awaits (Nat.ne_of_gt some) damaged
        have sector : (src.take 512).length = 512 := by
          rw [List.length_take, length]
          omega
        have left : count + 1 + more = count + more + 1 := Nat.add_right_comm count 1 more
        rw [left] at waited
        have full : ([] : List U8).length + (src.take 512).length = 512 := by
          rw [List.length_nil, Nat.zero_add, sector]
        let next := AtaDrive.goOn hw ⟨true, lba + 1, count + more⟩
          { ata.drive with disk := splice ata.drive.disk (512 * lba) (src.take 512) }
        have words : writeWords hw 256 (src.take 512)
            { ata.drive with activity := .ready ⟨true, lba, count + more + 1⟩ [] } = next :=
          (writeWords_ready rfl rfl sector full).trans rfl
        obtain ⟨after, rest, disk, messages, gaveUp, leaves⟩ := @ih { ata with drive := next }
          (lba + 1) (src.drop 512) ⟨nofun, fun _ => awaits_goOn⟩ others
        rw [one_more, Nat.add_sub_add_right]
        refine ⟨after, writeLoop_step waited words rest, ?_, messages, ?_, ?_⟩
        · have bytes : src.take (512 * (reached hw (lba + 1) count + 1)) =
              src.take 512 ++ (src.drop 512).take (512 * reached hw (lba + 1) count) := by
            rw [Nat.mul_succ, Nat.add_comm, List.take_add]
          rw [disk, bytes, ← splice_append, sector]
          rfl
        · exact fun short => gaveUp (Nat.lt_of_succ_lt_succ short)
        · intro all
          have next := leaves (Nat.succ.inj all)
          rwa [Nat.add_right_comm lba 1 count] at next

/-! ### Commands -/

/-- The drive takes a command. -/
def Idle (drive : AtaDrive) : Prop := ∃ failed, drive.activity = .idle failed

/-- A command sent to an idle drive reaches it with the sectors selected. -/
theorem send_idle (idle : Idle drive) (command : U8) (lba : U32) (sectorCount : U8) :
    send hw command lba sectorCount drive =
      { drive with ports := .select lba sectorCount }.command hw command := by
  obtain ⟨failed, activity⟩ := idle
  simp [send, AtaDrive.outb, activity, drivePort, sectCountPort, lbaLoPort, lbaMidPort, lbaHiPort,
    commandPort]

/-- The sector that the drive gets, which has 28 bits of the number. -/
def selected (lba : U32) : Nat := lba.toNat % 2 ^ 28

/-- An idle drive starts to read the sectors that are selected. -/
theorem send_read (idle : Idle drive) (lba : U32) (sectorCount : U8) :
    send hw cmdReadPio lba sectorCount drive =
      AtaDrive.goOn hw ⟨false, selected lba, sectorsNamed sectorCount⟩
        { drive with ports := .select lba sectorCount } := by
  rw [send_idle idle, selected, ← AtaPorts.lba_select lba sectorCount]
  rfl

/-- A write command starts a transfer. -/
theorem send_write (idle : Idle drive) (lba : U32) (sectorCount : U8) :
    send hw cmdWritePio lba sectorCount drive =
      AtaDrive.goOn hw ⟨true, selected lba, sectorsNamed sectorCount⟩
        { drive with ports := .select lba sectorCount } := by
  rw [send_idle idle, selected, ← AtaPorts.lba_select lba sectorCount]
  rfl

/-- A drive at work takes no command. -/
theorem send_ignored (notIdle : ¬ Idle drive) (command : U8) (lba : U32) (sectorCount : U8) :
    send hw command lba sectorCount drive = drive := by
  have ignored (port : U16) (value : U8) : drive.outb hw port value = drive := by
    unfold AtaDrive.outb
    split
    · next failed idle => exact absurd ⟨failed, idle⟩ notIdle
    · rfl
  simp only [send, ignored]

/-- A count that is not zero names that many sectors. -/
theorem sectorsNamed_of_some {sectorCount : U8} (some : sectorCount ≠ 0) :
    sectorsNamed sectorCount = sectorCount.toNat := if_neg some

/-- How many sectors of a call are reached. -/
def transferred (hw : AtaHardware) (lba : U32) (sectorCount : U8) : Nat :=
  reached hw (selected lba) sectorCount.toNat

/-- How many are not. -/
def missed (hw : AtaHardware) (lba : U32) (sectorCount : U8) : Nat :=
  sectorCount.toNat - transferred hw lba sectorCount

/-- No more sectors are transferred than named. -/
theorem transferred_le (lba : U32) (sectorCount : U8) :
    transferred hw lba sectorCount ≤ sectorCount.toNat := reached_le _ _

/-- For a buffer of the driver with at least one sector the pointer is even. -/
theorem ataReadSectors_buffer (hw : AtaHardware) (fuel : Nat) (lba : U32) {sectorCount : U8}
    (some : sectorCount.toNat ≠ 0) (block : HeapBlock) (ata : Ata) :
    ataReadSectors hw fuel lba sectorCount (bufferPtr block sectorCount) ata =
      readLoop hw fuel sectorCount.toNat
        { ata with drive := send hw cmdReadPio lba sectorCount ata.drive } := by
  simp only [ataReadSectors]
  rw [alignCast_bufferPtr block some, bind_ok]

/-- With a buffer of its own the call is the command and its loop. -/
theorem ataWriteSectors_buffer (hw : AtaHardware) (fuel : Nat) (lba : U32) {sectorCount : U8}
    (some : sectorCount.toNat ≠ 0) (block : HeapBlock) (src : List U8) (ata : Ata) :
    ataWriteSectors hw fuel lba sectorCount (bufferPtr block sectorCount) src ata =
      writeLoop hw fuel sectorCount.toNat src
        { ata with drive := send hw cmdWritePio lba sectorCount ata.drive } := by
  simp only [ataWriteSectors]
  rw [alignCast_bufferPtr block some, bind_ok]

/-- A count that is not zero, as a number. -/
theorem toNat_ne_zero {count : U8} (some : count ≠ 0) : count.toNat ≠ 0 :=
  fun zero => some (BitVec.eq_of_toNat_eq zero)

/-- A read of an idle drive ends, and the drive is idle again. -/
theorem ataReadSectors_gives (hw : AtaHardware) (ata : Ata) (idle : Idle ata.drive) (lba : U32)
    {sectorCount : U8} (some : sectorCount ≠ 0) (block : HeapBlock) :
    ∃ after,
      Gives (fun fuel => ataReadSectors hw fuel lba sectorCount (bufferPtr block sectorCount) ata)
        (window ata.drive.disk (512 * selected lba) (512 * transferred hw lba sectorCount) ++
          floatingBytes hw (256 * missed hw lba sectorCount), after) ∧
      after.drive.disk = ata.drive.disk ∧ Idle after.drive ∧
      after.messages =
        ata.messages ++ List.replicate (missed hw lba sectorCount) errorMessage := by
  have leaves : Leaves hw false (selected lba) (sectorCount.toNat + 0)
      (send hw cmdReadPio lba sectorCount ata.drive) := by
    rw [send_read idle, sectorsNamed_of_some some]
    exact ⟨fun _ none => absurd (BitVec.eq_of_toNat_eq none) some, fun _ => awaits_goOn⟩
  obtain ⟨after, result, disk, messages, gaveUp, done⟩ := @readLoop_gives hw
    { ata with drive := send hw cmdReadPio lba sectorCount ata.drive } _ _ _ leaves
  have same : (send hw cmdReadPio lba sectorCount ata.drive).disk = ata.drive.disk := by
    rw [send_read idle]
    rfl
  rw [same] at disk result
  simp only [ataReadSectors_buffer hw _ lba (toNat_ne_zero some) block ata]
  refine ⟨after, result, disk, ?_, messages⟩
  rcases Nat.lt_or_eq_of_le (transferred_le lba sectorCount) with short | all
  · exact ⟨true, gaveUp short⟩
  · exact ⟨false, (done all).done rfl rfl⟩

/-- The drive is done with the sectors of a write, but may still be busy. -/
def Finishing (hw : AtaHardware) (drive : AtaDrive) : Prop :=
  ∃ lba, Awaits hw ⟨true, lba, 0⟩ drive

/-- A write to an idle drive ends; the drive may be busy with the last sector. -/
theorem ataWriteSectors_gives (hw : AtaHardware) (ata : Ata) (idle : Idle ata.drive) (lba : U32)
    {sectorCount : U8} (some : sectorCount ≠ 0) (block : HeapBlock) {src : List U8}
    (length : src.length = 512 * sectorCount.toNat) :
    ∃ after,
      Gives (fun fuel =>
        ataWriteSectors hw fuel lba sectorCount (bufferPtr block sectorCount) src ata) after ∧
      after.drive.disk = splice ata.drive.disk (512 * selected lba)
        (src.take (512 * transferred hw lba sectorCount)) ∧
      (Idle after.drive ∨ Finishing hw after.drive) ∧
      after.messages =
        ata.messages ++ List.replicate (missed hw lba sectorCount) errorMessage := by
  have leaves : Leaves hw true (selected lba) (sectorCount.toNat + 0)
      (send hw cmdWritePio lba sectorCount ata.drive) := by
    rw [send_write idle, sectorsNamed_of_some some]
    exact ⟨nofun, fun _ => awaits_goOn⟩
  obtain ⟨after, result, disk, messages, gaveUp, done⟩ := @writeLoop_gives hw
    { ata with drive := send hw cmdWritePio lba sectorCount ata.drive } _ _ _ _ leaves length
  have same : (send hw cmdWritePio lba sectorCount ata.drive).disk = ata.drive.disk := by
    rw [send_write idle]
    rfl
  rw [same] at disk
  simp only [ataWriteSectors_buffer hw _ lba (toNat_ne_zero some) block src ata]
  refine ⟨after, result, disk, ?_, messages⟩
  rcases Nat.lt_or_eq_of_le (transferred_le lba sectorCount) with short | all
  · exact .inl ⟨true, gaveUp short⟩
  · exact .inr ⟨_, (done all).awaits (.inl rfl)⟩

/-- **Transfers up to damage.** On an idle drive, however long it is busy, a call for some
sectors ends with a message for each sector from the first one out of reach on. A read gives
the sectors of the disk before that one, and the words of an idle data port for the others; a
write replaces the sectors before that one and nothing else. -/
theorem transfers_up_to_damage (hw : AtaHardware) (ata : Ata) (idle : Idle ata.drive) (lba : U32)
    {sectorCount : U8} (some : sectorCount ≠ 0) (block : HeapBlock) {src : List U8}
    (length : src.length = 512 * sectorCount.toNat) :
    (∃ after,
      Gives (fun fuel => ataReadSectors hw fuel lba sectorCount (bufferPtr block sectorCount) ata)
        (window ata.drive.disk (512 * selected lba) (512 * transferred hw lba sectorCount) ++
          floatingBytes hw (256 * missed hw lba sectorCount), after) ∧
      after.drive.disk = ata.drive.disk ∧
      after.messages =
        ata.messages ++ List.replicate (missed hw lba sectorCount) errorMessage) ∧
    ∃ after,
      Gives (fun fuel =>
        ataWriteSectors hw fuel lba sectorCount (bufferPtr block sectorCount) src ata) after ∧
      after.drive.disk = splice ata.drive.disk (512 * selected lba)
        (src.take (512 * transferred hw lba sectorCount)) ∧
      after.messages =
        ata.messages ++ List.replicate (missed hw lba sectorCount) errorMessage := by
  obtain ⟨after, read, disk, -, messages⟩ := ataReadSectors_gives hw ata idle lba some block
  obtain ⟨later, write, laterDisk, -, laterMessages⟩ :=
    ataWriteSectors_gives hw ata idle lba some block length
  exact ⟨⟨after, read, disk, messages⟩, later, write, laterDisk, laterMessages⟩

/-- A drive that is busy for a while before each sector and cannot reach the second one. -/
def wornHardware : AtaHardware where
  damaged sector := sector == 1
  delay waits := waits % 3
  longest := 2
  delay_le waits := Nat.le_of_lt_succ (Nat.mod_lt waits (by decide))
  floating := 0xFFFF

/-- An idle drive with a disk. -/
def atRest (disk : Disk) : Ata where
  drive := { disk, ports := .select 0 0, activity := .idle false, waits := 0 }
  messages := []

/-- Two sectors of a disk whose second one is out of reach. -/
theorem transfers_up_to_damage_worn :
    (∃ after,
      Gives (fun fuel => ataReadSectors wornHardware fuel 0 2 (bufferPtr ⟨0x11_0000, rfl⟩ 2)
        (atRest fun _ => 7))
        (window (fun _ => 7) (512 * selected 0) (512 * transferred wornHardware 0 2) ++
          floatingBytes wornHardware (256 * missed wornHardware 0 2), after) ∧
      after.drive.disk = (fun _ => 7) ∧
      after.messages = [] ++ List.replicate (missed wornHardware 0 2) errorMessage) ∧
    ∃ after,
      Gives (fun fuel => ataWriteSectors wornHardware fuel 0 2 (bufferPtr ⟨0x11_0000, rfl⟩ 2)
        (List.replicate 1024 1) (atRest fun _ => 7)) after ∧
      after.drive.disk = splice (fun _ => 7) (512 * selected 0)
        ((List.replicate 1024 1).take (512 * transferred wornHardware 0 2)) ∧
      after.messages = [] ++ List.replicate (missed wornHardware 0 2) errorMessage :=
  transfers_up_to_damage wornHardware (atRest fun _ => 7) ⟨false, rfl⟩ 0 (by decide)
    ⟨0x11_0000, rfl⟩ List.length_replicate

/-! ### Calls that go wrong -/

/-- The driver waits in vain for a sector of a drive that is done. -/
theorem awaitSector_finishing (finishing : Finishing hw ata.drive) :
    Fails (fun fuel => awaitSector hw fuel ata) .outOfFuel := by
  obtain ⟨lba, awaits⟩ := finishing
  have none_left : prepare hw ata.drive.disk ⟨true, lba, 0⟩ = .idle false := if_pos rfl
  exact (ataWaitBsy_gives awaits).bind_fails
    ⟨0, fun fuel _ => ataWaitDrq_never hw _ none_left fuel⟩

/-- A drive that is never ready again keeps a reader waiting. -/
theorem readLoop_finishing (finishing : Finishing hw ata.drive) {count : Nat} (some : count ≠ 0) :
    Fails (fun fuel => readLoop hw fuel count ata) .outOfFuel := by
  obtain ⟨left, rfl⟩ := Nat.exists_eq_add_of_le' (Nat.pos_of_ne_zero some)
  simp only [readLoop_succ]
  exact (awaitSector_finishing finishing).bind

/-- It keeps a writer waiting as well. -/
theorem writeLoop_finishing (finishing : Finishing hw ata.drive) {count : Nat} (some : count ≠ 0)
    (src : List U8) : Fails (fun fuel => writeLoop hw fuel count src ata) .outOfFuel := by
  obtain ⟨left, rfl⟩ := Nat.exists_eq_add_of_le' (Nat.pos_of_ne_zero some)
  simp only [writeLoop_succ]
  exact (awaitSector_finishing finishing).bind

/-- **A call needs an idle drive.** Where a drive may still be busy with the last sector of a
write, a call that transfers sectors returns exactly if it is not: its command gets lost
otherwise, and it waits for sectors of nothing. -/
theorem returns_iff_idle (hw : AtaHardware) (ata : Ata)
    (between : Idle ata.drive ∨ Finishing hw ata.drive) (lba : U32) {sectorCount : U8}
    (some : sectorCount ≠ 0) (block : HeapBlock) {src : List U8}
    (length : src.length = 512 * sectorCount.toNat) :
    ((∃ result, Gives (fun fuel =>
        ataReadSectors hw fuel lba sectorCount (bufferPtr block sectorCount) ata) result) ↔
        Idle ata.drive) ∧
      ((∃ after, Gives (fun fuel =>
        ataWriteSectors hw fuel lba sectorCount (bufferPtr block sectorCount) src ata) after) ↔
        Idle ata.drive) := by
  by_cases idle : Idle ata.drive
  · obtain ⟨after, read, -⟩ := ataReadSectors_gives hw ata idle lba some block
    obtain ⟨later, write, -⟩ := ataWriteSectors_gives hw ata idle lba some block length
    exact ⟨iff_of_true ⟨_, read⟩ idle, iff_of_true ⟨_, write⟩ idle⟩
  · have count := toNat_ne_zero some
    have finishing := between.resolve_left idle
    refine ⟨iff_of_false ?_ idle, iff_of_false ?_ idle⟩
    · rintro ⟨result, ends⟩
      simp only [ataReadSectors_buffer hw _ lba count block ata, send_ignored idle] at ends
      exact (readLoop_finishing finishing count).not_gives ends
    · rintro ⟨result, ends⟩
      simp only [ataWriteSectors_buffer hw _ lba count block src ata, send_ignored idle] at ends
      exact (writeLoop_finishing finishing count src).not_gives ends

/-- A drive that is still busy. -/
def stillBusy : Ata where
  drive :=
    { disk := fun _ => 0, ports := .select 0 1, activity := .busy 1 ⟨true, 1, 0⟩, waits := 1 }
  messages := []

theorem returns_iff_idle_busy :
    ((∃ result, Gives (fun fuel => ataReadSectors wornHardware fuel 0 1
        (bufferPtr ⟨0x11_0000, rfl⟩ 1) stillBusy) result) ↔ Idle stillBusy.drive) ∧
      ((∃ after, Gives (fun fuel => ataWriteSectors wornHardware fuel 0 1
        (bufferPtr ⟨0x11_0000, rfl⟩ 1) (List.replicate 512 0) stillBusy) after) ↔
        Idle stillBusy.drive) :=
  returns_iff_idle wornHardware stillBusy (.inr ⟨1, 2, Nat.le_refl 2, rfl⟩) 0 (by decide)
    ⟨0x11_0000, rfl⟩ List.length_replicate

/-- **A call for no sectors** traps for the buffer of the driver. With an even pointer it starts
a command all the same, and the next call gets its sectors, whatever it asked for. -/
theorem shifted_after_none (hw : AtaHardware) (ata : Ata) (idle : Idle ata.drive)
    (lba other : U32) {sectorCount : U8} (some : sectorCount ≠ 0) (block : HeapBlock)
    {dest : Nat} (even : dest % 2 = 0)
    (sound : ∀ sector, selected lba ≤ sector → sector < selected lba + sectorCount.toNat →
      hw.damaged sector = false) :
    (∀ fuel, ataReadSectors hw fuel lba 0 (bufferPtr block 0) ata =
        .error .incorrectAlignment) ∧
      ∃ next after,
        Gives (fun fuel => ataReadSectors hw fuel lba 0 dest ata) ([], next) ∧
        Gives (fun fuel =>
          ataReadSectors hw fuel other sectorCount (bufferPtr block sectorCount) next)
          (window ata.drive.disk (512 * selected lba) (512 * sectorCount.toNat), after) := by
  let next : Ata := { ata with drive := send hw cmdReadPio lba 0 ata.drive }
  have started : next.drive = AtaDrive.goOn hw ⟨false, selected lba, 256⟩
      { ata.drive with ports := .select lba 0 } := send_read idle lba 0
  have positive : 0 < sectorCount.toNat := Nat.pos_of_ne_zero (toNat_ne_zero some)
  have atWork : ¬ Idle next.drive := by
    rintro ⟨failed, activity⟩
    rw [started] at activity
    simp only [AtaDrive.goOn] at activity
    revert activity
    cases hw.delay ata.drive.waits with
    | zero =>
        simp [wait, prepare, sound _ (Nat.le_refl _) (Nat.lt_add_of_pos_right positive)]
    | succ delay => nofun
  have leaves : Leaves hw false (selected lba) (sectorCount.toNat + (256 - sectorCount.toNat))
      next.drive := by
    rw [started, Nat.add_sub_cancel' (Nat.le_of_lt sectorCount.isLt)]
    exact ⟨fun _ none => absurd none (by decide), fun _ => awaits_goOn⟩
  obtain ⟨after, read, -⟩ := readLoop_gives leaves
  have disk : next.drive.disk = ata.drive.disk := by
    rw [started]
    rfl
  rw [reached_eq sound, Nat.sub_self, disk] at read
  refine ⟨fun fuel => rfl, next, after, ?_, ?_⟩
  · simp only [ataReadSectors, alignCast_even even, bind_ok]
    exact .const _
  · simp only [ataReadSectors_buffer hw _ other (toNat_ne_zero some) block next,
      send_ignored atWork]
    exact List.append_nil (window _ _ _) ▸ read

/-- A call for no sectors at sector 8, and one for sector 0. -/
theorem shifted_after_none_worn :
    (∀ fuel, ataReadSectors wornHardware fuel 8 0 (bufferPtr ⟨0x11_0000, rfl⟩ 0)
        (atRest fun index => .ofNat 8 (index / 512)) = .error .incorrectAlignment) ∧
      ∃ next after,
        Gives (fun fuel => ataReadSectors wornHardware fuel 8 0 0x11_0000
          (atRest fun index => .ofNat 8 (index / 512))) ([], next) ∧
        Gives (fun fuel =>
          ataReadSectors wornHardware fuel 0 1 (bufferPtr ⟨0x11_0000, rfl⟩ 1) next)
          (window (fun index => .ofNat 8 (index / 512)) (512 * selected 8)
            (512 * (1 : U8).toNat), after) :=
  shifted_after_none wornHardware (atRest fun index => .ofNat 8 (index / 512)) ⟨false, rfl⟩ 8 0
    (by decide) ⟨0x11_0000, rfl⟩ (by decide) fun sector above _ => by
      have eighth : 8 ≤ sector := above
      exact beq_eq_false_iff_ne.mpr (by omega)

end Lofita.Fs.Pio
