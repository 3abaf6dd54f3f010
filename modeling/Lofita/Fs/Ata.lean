import Lofita.Foundation.Outcome
import Lofita.Foundation.Splice
import Lofita.Fs.Driver

/-! # The ATA driver

`ata_read_sectors` and `ata_write_sectors` of `ata.zig`, and `AtaDriver` of `driver.rs`,
which reads and writes bytes of a disk sector by sector. The controller transfers the
sectors from the one on that its ports name, which have 28 bits for it; the number of
sectors has 8 bits. A call with an odd pointer traps, which the driver makes for a buffer of
no bytes. Where the calls transfer exactly the sectors that they are given, a transfer of
bytes whose sectors fit is exact (`reads_and_writes_bytes`); the calls of `ata.zig` transfer
the right sectors exactly if these fit and there are some (`transfers_exactly_iff`).
-/

namespace Lofita.Fs

open Lofita.Foundation Lofita.Foundation.Outcome

/-- The bytes of a disk by address. -/
abbrev Disk := Nat → U8

/-! ### Sectors -/

/-- The ports that select the sectors of a transfer. -/
structure AtaPorts where
  drivePort : U8
  sectCountPort : U8
  lbaLoPort : U8
  lbaMidPort : U8
  lbaHiPort : U8
deriving DecidableEq, Repr

namespace AtaPorts

/-- The address and the count as they are written to the ports. -/
def select (lba : U32) (sectorCount : U8) : AtaPorts where
  drivePort := 0xE0 ||| ((lba >>> 24) &&& 0x0F).setWidth 8
  sectCountPort := sectorCount
  lbaLoPort := (lba &&& 0xFF).setWidth 8
  lbaMidPort := ((lba >>> 8) &&& 0xFF).setWidth 8
  lbaHiPort := ((lba >>> 16) &&& 0xFF).setWidth 8

/-- The first sector of a transfer, as the controller takes it from the ports. -/
def lba (ports : AtaPorts) : Nat :=
  ports.drivePort.toNat % 16 * 2 ^ 24 + ports.lbaHiPort.toNat * 2 ^ 16 +
    ports.lbaMidPort.toNat * 2 ^ 8 + ports.lbaLoPort.toNat

/-- The controller gets the low 28 bits. -/
theorem lba_select (lba : U32) (sectorCount : U8) :
    (select lba sectorCount).lba = lba.toNat % 2 ^ 28 := by
  have word := lba.isLt
  have low (value : Nat) : value &&& (0xFF : U32).toNat = value % 256 :=
    Nat.and_two_pow_sub_one_eq_mod value 8
  have four (value : Nat) : value &&& 15 = value % 16 := Nat.and_two_pow_sub_one_eq_mod value 4
  have drive : (0xE0 ||| ((lba >>> 24) &&& 0x0F).setWidth 8 : U8).toNat % 16 =
      lba.toNat / 2 ^ 24 % 16 := by
    rw [BitVec.toNat_or, Nat.or_mod_two_pow (n := 4), BitVec.toNat_setWidth, BitVec.toNat_and,
      BitVec.toNat_ushiftRight, Nat.shiftRight_eq_div_pow]
    change 0 ||| (lba.toNat / 2 ^ 24 &&& 15) % 2 ^ 8 % 2 ^ 4 = _
    rw [Nat.zero_or, four]
    omega
  simp only [AtaPorts.lba, select, drive, BitVec.toNat_setWidth, BitVec.toNat_and,
    BitVec.toNat_ushiftRight, Nat.shiftRight_eq_div_pow, low]
  omega

end AtaPorts

/-- The sectors one after the other. -/
def readSectors (disk : Disk) : Nat → Nat → List U8
  | _, 0 => []
  | lba, count + 1 => window disk (512 * lba) 512 ++ readSectors disk (lba + 1) count

/-- Sectors written one after the other. -/
def writeSectors : Disk → Nat → Nat → List U8 → Disk
  | disk, _, 0, _ => disk
  | disk, lba, count + 1, src =>
      writeSectors (splice disk (512 * lba) (src.take 512)) (lba + 1) count (src.drop 512)

/-- Sectors read one after the other are a window of the disk. -/
theorem readSectors_eq (disk : Disk) (lba count : Nat) :
    readSectors disk lba count = window disk (512 * lba) (512 * count) := by
  induction count generalizing lba with
  | zero => rfl
  | succ count ih =>
      rw [readSectors, ih, Nat.mul_succ 512 lba, window_append, Nat.mul_succ, Nat.add_comm 512]

/-- Sectors written one after the other replace a window of the disk. -/
theorem writeSectors_eq {disk : Disk} {lba count : Nat} {src : List U8}
    (length : src.length = 512 * count) :
    writeSectors disk lba count src = splice disk (512 * lba) src := by
  induction count generalizing disk lba src with
  | zero =>
      rw [List.eq_nil_of_length_eq_zero length, splice_nil]
      rfl
  | succ count ih =>
      have sector : (src.take 512).length = 512 := by
        rw [List.length_take]
        omega
      rw [writeSectors, ih (by rw [List.length_drop]; omega)]
      have split := splice_append disk (512 * lba) (src.take 512) (src.drop 512)
      rwa [sector, List.take_append_drop] at split

/-! ### Pointers to buffers -/

/-- A block of the heap, whose blocks begin at multiples of eight. -/
structure HeapBlock where
  addr : Nat
  aligned : addr % 8 = 0

/-- `as_mut_ptr` of a vector of bytes. A vector of no bytes has no block, and its pointer
dangles at the alignment of a byte. -/
def asMutPtr (block : HeapBlock) (size : Nat) : Nat := if size = 0 then 1 else block.addr

/-- The check of `@alignCast` for a pointer to words. -/
def alignCast (ptr : Nat) : Checked Unit :=
  if ptr % 2 = 0 then return () else throw .incorrectAlignment

/-- An even address passes the check. -/
theorem alignCast_even {ptr : Nat} (even : ptr % 2 = 0) : alignCast ptr = .ok () := if_pos even

/-- The pointer that the driver passes for a number of sectors. -/
def bufferPtr (block : HeapBlock) (sectorCount : U8) : Nat :=
  asMutPtr block (512 * sectorCount.toNat)

theorem alignCast_bufferPtr (block : HeapBlock) {sectorCount : U8}
    (some : sectorCount.toNat ≠ 0) : alignCast (bufferPtr block sectorCount) = .ok () := by
  have aligned := block.aligned
  refine alignCast_even ?_
  rw [bufferPtr, asMutPtr, if_neg (by omega)]
  omega

/-- An empty buffer has the address 1, which does not. -/
theorem alignCast_bufferPtr_none (block : HeapBlock) {sectorCount : U8}
    (none : sectorCount.toNat = 0) :
    alignCast (bufferPtr block sectorCount) = .error .incorrectAlignment := by
  rw [bufferPtr, none]
  rfl

/-! ### The calls for sectors -/

/-- The driver takes `sectorCount` sectors, none at all for a count of zero. By the time that
the pointer is checked, the command has been sent. -/
def ataReadSectors (disk : Disk) (lba : U32) (sectorCount : U8) (dest : Nat) :
    Checked (List U8) := do
  alignCast dest
  return readSectors disk (AtaPorts.select lba sectorCount).lba sectorCount.toNat

/-- `ata_write_sectors` on the sectors that its ports name. -/
def ataWriteSectors (disk : Disk) (lba : U32) (sectorCount : U8) (ptr : Nat) (src : List U8) :
    Checked Disk := do
  alignCast ptr
  return writeSectors disk (AtaPorts.select lba sectorCount).lba sectorCount.toNat src

/-- What the driver calls: a read gives the bytes that it stores at the pointer, a write takes
those that it loads there. -/
structure AtaCalls where
  ataReadSectors : Disk → U32 → U8 → Nat → Checked (List U8)
  ataWriteSectors : Disk → U32 → U8 → Nat → List U8 → Checked Disk

namespace AtaCalls

/-- The calls of `ata.zig`. -/
def zig : AtaCalls := ⟨Fs.ataReadSectors, Fs.ataWriteSectors⟩

/-- Calls that transfer exactly the sectors that they are given, whatever the pointer. -/
def exact : AtaCalls where
  ataReadSectors disk lba sectorCount _ := .ok (readSectors disk lba.toNat sectorCount.toNat)
  ataWriteSectors disk lba sectorCount _ src :=
    .ok (writeSectors disk lba.toNat sectorCount.toNat src)

/-- The calls for a buffer of the driver transfer its sectors, from the sector `first` on. -/
structure Transfers (calls : AtaCalls) (block : HeapBlock) (lba : U32) (sectorCount : U8)
    (first : Nat) : Prop where
  reads : ∀ disk, calls.ataReadSectors disk lba sectorCount (bufferPtr block sectorCount) =
    .ok (window disk (512 * first) (512 * sectorCount.toNat))
  writes : ∀ disk src, src.length = 512 * sectorCount.toNat →
    calls.ataWriteSectors disk lba sectorCount (bufferPtr block sectorCount) src =
      .ok (splice disk (512 * first) src)

/-- Exact transfers meet the assumption about transfers. -/
theorem exact_transfers (block : HeapBlock) (lba : U32) (sectorCount : U8) :
    exact.Transfers block lba sectorCount lba.toNat where
  reads _ := congrArg Except.ok (readSectors_eq ..)
  writes _ _ length := congrArg Except.ok (writeSectors_eq length)

theorem zig_transfers (block : HeapBlock) (lba : U32) {sectorCount : U8}
    (some : sectorCount.toNat ≠ 0) :
    zig.Transfers block lba sectorCount (AtaPorts.select lba sectorCount).lba where
  reads disk := by
    simp only [zig, Fs.ataReadSectors]
    rw [alignCast_bufferPtr block some, bind_ok, readSectors_eq]
    rfl
  writes disk src length := by
    simp only [zig, Fs.ataWriteSectors]
    rw [alignCast_bufferPtr block some, bind_ok, writeSectors_eq length]
    rfl

/-- Without a sector the buffer has no block. -/
theorem zig_reads_none (block : HeapBlock) (disk : Disk) (lba : U32) {sectorCount : U8}
    (none : sectorCount.toNat = 0) :
    zig.ataReadSectors disk lba sectorCount (bufferPtr block sectorCount) =
      .error .incorrectAlignment := by
  simp only [zig, Fs.ataReadSectors]
  rw [alignCast_bufferPtr_none block none, bind_error]

end AtaCalls

/-! ### Slices of a buffer -/

/-- A slice of a window is a window. -/
theorem slice_window {disk : Disk} {first count start size : Nat} (fits : start + size ≤ count) :
    slice (window disk first count) start (start + size) =
      .ok (window disk (first + start) size) := by
  unfold slice
  rw [length_window, if_pos ⟨Nat.le_add_right _ _, fits⟩, Nat.add_sub_cancel_left,
    drop_window (by omega), take_window (by omega)]
  rfl

/-- Copy a byte string over a slice of its length. -/
def copyFromSlice (buf : List U8) (first last : Nat) (data : List U8) : Checked (List U8) := do
  let part ← slice buf first last
  if part.length = data.length then return buf.take first ++ data ++ buf.drop last
  else throw .indexOutOfRange

/-- Bytes copied into a window leave the rest of it. -/
theorem copyFromSlice_window {disk : Disk} {first count start : Nat} {data : List U8}
    (fits : start + data.length ≤ count) :
    copyFromSlice (window disk first count) start (start + data.length) data =
      .ok ((window disk first count).take start ++ data ++
        (window disk first count).drop (start + data.length)) := by
  unfold copyFromSlice
  rw [slice_window fits, bind_ok, if_pos length_window]
  rfl

/-! ### The driver -/

namespace AtaDriver

/-- The first sector of a range. -/
def startLba (offset : U64) : U32 := (offset / 512).setWidth 32

/-- The sector behind the range. -/
def endLba (offset size : U64) : U32 := ((offset + size + 511) / 512).setWidth 32

/-- The number of sectors, cut to a byte. -/
def sectorCount (offset size : U64) : U8 := (endLba offset size - startLba offset).setWidth 8

/-- Where the range starts in its first sector. -/
def startIdx (offset : U64) : U64 := offset % 512

/-- Where it ends, counted from the start of its first sector. -/
def endIdx (offset size : U64) : U64 := startIdx offset + size

/-- A read, with the buffer in a block of the heap. -/
def read (calls : AtaCalls) (block : HeapBlock) (disk : Disk) (offset size : U64) :
    Checked (List U8) := do
  let sectorCount := sectorCount offset size
  let buf ← calls.ataReadSectors disk (startLba offset) sectorCount (bufferPtr block sectorCount)
  slice buf (startIdx offset).toNat (endIdx offset size).toNat

/-- The disk after a write, and the number of bytes written. -/
def write (calls : AtaCalls) (block : HeapBlock) (disk : Disk) (offset : U64)
    (data : List U8) : Checked (Disk × U64) := do
  let size := BitVec.ofNat 64 data.length
  let sectorCount := sectorCount offset size
  let ptr := bufferPtr block sectorCount
  let buf ← calls.ataReadSectors disk (startLba offset) sectorCount ptr
  let buf ← copyFromSlice buf (startIdx offset).toNat (endIdx offset size).toNat data
  let disk ← calls.ataWriteSectors disk (startLba offset) sectorCount ptr buf
  return (disk, size)

/-! ### Transfers that fit in the buffer -/

/-- The first sector of a transfer, as the controller gets it. -/
def firstSector (offset size : U64) : Nat :=
  (AtaPorts.select (startLba offset) (sectorCount offset size)).lba

/-- The bytes from an offset on lie in the sectors that are transferred. -/
def Fits (offset size : U64) : Prop :=
  offset.toNat % 512 + size.toNat ≤ 512 * (sectorCount offset size).toNat

variable {calls : AtaCalls} {block : HeapBlock} {disk : Disk} {offset size : U64}
  {data : List U8} {sector : Nat}

/-- The start as a number. -/
theorem toNat_startIdx : (startIdx offset).toNat = offset.toNat % 512 := BitVec.toNat_umod

/-- The end as a number. -/
theorem toNat_endIdx (fits : Fits offset size) :
    (endIdx offset size).toNat = offset.toNat % 512 + size.toNat := by
  have count := (sectorCount offset size).isLt
  unfold Fits at fits
  unfold endIdx
  rw [toNat_add_of_lt (by rw [toNat_startIdx]; omega), toNat_startIdx]

/-- What is read, if it fits, is a window of the disk. -/
theorem read_eq (fits : Fits offset size)
    (transfers : calls.Transfers block (startLba offset) (sectorCount offset size) sector) :
    read calls block disk offset size =
      .ok (window disk (512 * sector + offset.toNat % 512) size.toNat) := by
  unfold read
  simp only
  rw [transfers.reads, bind_ok, toNat_startIdx, toNat_endIdx fits, slice_window fits]

/-- What is written, if it fits, is spliced into the disk: the bytes around it are
written back as they were read. -/
theorem write_eq (fits : Fits offset (BitVec.ofNat 64 data.length))
    (short : data.length < 2 ^ 64)
    (transfers : calls.Transfers block (startLba offset)
      (sectorCount offset (BitVec.ofNat 64 data.length)) sector) :
    write calls block disk offset data =
      .ok (splice disk (512 * sector + offset.toNat % 512) data,
        BitVec.ofNat 64 data.length) := by
  have size : (BitVec.ofNat 64 data.length).toNat = data.length :=
    Nat.mod_eq_of_lt short
  have inBuffer := fits
  unfold Fits at inBuffer
  rw [size] at inBuffer
  unfold write
  simp only
  rw [transfers.reads, bind_ok, toNat_startIdx, toNat_endIdx fits, size,
    copyFromSlice_window inBuffer, bind_ok, transfers.writes, bind_ok, splice_replace inBuffer]
  · rfl
  · rw [List.length_append, List.length_append, List.length_take, List.length_drop, length_window]
    omega

/-! ### The sectors that are transferred -/

/-- The number of sectors that a range of bytes takes up. -/
def covering (offset size : Nat) : Nat := (offset + size + 511) / 512 - offset / 512

/-- The first sector as a number, cut to 32 bits. -/
theorem toNat_startLba (offset : U64) : (startLba offset).toNat = offset.toNat / 512 % 2 ^ 32 := by
  unfold startLba
  rw [BitVec.toNat_setWidth, BitVec.toNat_udiv]
  rfl

/-- The sum wraps at a multiple of the last sector that is kept. -/
theorem toNat_endLba (offset size : U64) :
    (endLba offset size).toNat = (offset.toNat + size.toNat + 511) / 512 % 2 ^ 32 := by
  have wraps : 2 ^ 64 = 512 * 2 ^ 55 := by decide
  unfold endLba
  rw [BitVec.toNat_setWidth, BitVec.toNat_udiv, BitVec.toNat_add, BitVec.toNat_add]
  change ((offset.toNat + size.toNat) % 2 ^ 64 + 511) % 2 ^ 64 / 512 % 2 ^ 32 = _
  rw [Nat.mod_add_mod, wraps, Nat.mod_mul_right_div_self, Nat.mod_mod_of_dvd _ (by decide)]

/-- Eight bits are kept of the number of sectors. -/
theorem toNat_sectorCount (offset size : U64) :
    (sectorCount offset size).toNat = covering offset.toNat size.toNat % 256 := by
  have ordered : offset.toNat / 512 ≤ (offset.toNat + size.toNat + 511) / 512 := by omega
  unfold sectorCount covering
  rw [BitVec.toNat_setWidth, BitVec.toNat_sub, toNat_startLba, toNat_endLba]
  generalize offset.toNat / 512 = start at ordered ⊢
  generalize (offset.toNat + size.toNat + 511) / 512 = last at ordered ⊢
  omega

/-- The first sector that the ports name, cut to 28 bits. -/
theorem firstSector_eq (offset size : U64) :
    firstSector offset size = offset.toNat / 512 % 2 ^ 28 := by
  unfold firstSector
  rw [AtaPorts.lba_select, toNat_startLba]
  omega

/-- The sectors that a range of bytes takes up, if any, are at most 255 and lie below
sector `2 ^ 28`. -/
def WithinReach (offset size : Nat) : Prop :=
  0 < size → covering offset size ≤ 255 ∧ (offset + size + 511) / 512 ≤ 2 ^ 28

/-- A range within reach does not wrap. -/
theorem WithinReach.fits (within : WithinReach offset.toNat size.toNat) : Fits offset size := by
  unfold Fits
  rw [toNat_sectorCount]
  unfold WithinReach at within
  unfold covering at within ⊢
  omega

/-- Its first sector is where it starts. -/
theorem WithinReach.start (within : WithinReach offset.toNat size.toNat)
    (positive : 0 < size.toNat) :
    512 * (startLba offset).toNat + offset.toNat % 512 = offset.toNat := by
  have reach := (within positive).2
  rw [toNat_startLba]
  omega

/-- The controller gets the whole number of the first sector. -/
theorem WithinReach.first (within : WithinReach offset.toNat size.toNat)
    (positive : 0 < size.toNat) :
    512 * firstSector offset size + offset.toNat % 512 = offset.toNat := by
  have reach := (within positive).2
  rw [firstSector_eq]
  omega

/-- **Bytes over sectors.** Within reach a read returns the bytes of the disk at an offset,
and a write replaces them and nothing else, if the calls transfer exactly the sectors that
they are given. -/
theorem reads_and_writes_bytes (block : HeapBlock) (disk : Disk) (offset : U64) :
    (∀ size : U64, WithinReach offset.toNat size.toNat →
      read .exact block disk offset size =
        .ok ((List.range size.toNat).map fun i => disk (offset.toNat + i))) ∧
    ∀ data : List U8, WithinReach offset.toNat data.length →
      ∃ after size, write .exact block disk offset data = .ok (after, size) ∧
        size.toNat = data.length ∧
        (∀ i (inside : i < data.length), after (offset.toNat + i) = data[i]) ∧
        ∀ addr, addr < offset.toNat ∨ offset.toNat + data.length ≤ addr →
          after addr = disk addr := by
  constructor
  · intro size within
    rw [read_eq within.fits (AtaCalls.exact_transfers ..)]
    rcases Nat.eq_zero_or_pos size.toNat with zero | positive
    · rw [zero]
      rfl
    · rw [within.start positive]
      rfl
  · intro data within
    have short : data.length < 2 ^ 64 := by
      unfold WithinReach covering at within
      omega
    have size : (BitVec.ofNat 64 data.length).toNat = data.length := Nat.mod_eq_of_lt short
    rw [← size] at within
    refine ⟨_, _, write_eq within.fits short (AtaCalls.exact_transfers ..), size, ?_, ?_⟩
    · intro i inside
      rw [within.start (by omega)]
      exact splice_inside inside
    · intro addr outside
      rcases Nat.eq_zero_or_pos data.length with zero | positive
      · rw [List.eq_nil_of_length_eq_zero zero, splice_nil]
      · rw [within.start (by omega)]
        exact splice_outside outside

theorem reads_and_writes_bytes_unaligned :
    read .exact ⟨0x11_0000, rfl⟩ (fun addr => BitVec.ofNat 8 addr) 510 3 =
        .ok ((List.range 3).map fun i => BitVec.ofNat 8 (510 + i)) ∧
      ∃ after size, write .exact ⟨0x11_0000, rfl⟩ (fun _ => 0) 510 [1, 2, 3] = .ok (after, size) ∧
        size.toNat = 3 ∧
        (∀ i (inside : i < 3), after (510 + i) = [1, 2, 3][i]) ∧
        ∀ addr, addr < 510 ∨ 510 + 3 ≤ addr → after addr = 0 :=
  ⟨(reads_and_writes_bytes _ _ 510).1 3 fun _ => by decide,
    (reads_and_writes_bytes _ _ 510).2 [1, 2, 3] fun _ => by decide⟩

/-- The sectors that the calls of `ata.zig` transfer for a range of bytes are those that it
takes up, and it lies in the buffer, whose pointer they take. -/
structure TransfersExactly (offset size : U64) : Prop where
  count : (sectorCount offset size).toNat = covering offset.toNat size.toNat
  first : 0 < covering offset.toNat size.toNat → firstSector offset size = offset.toNat / 512
  reads : ∀ block disk, Completes (read .zig block disk offset size)
  writes : ∀ block disk data, data.length = size.toNat →
    Completes (write .zig block disk offset data)

/-- A range that takes up no sector has a buffer of no bytes. -/
theorem read_none (block : HeapBlock) (disk : Disk)
    (none : (sectorCount offset size).toNat = 0) :
    read .zig block disk offset size = .error .incorrectAlignment := by
  unfold read
  simp only
  rw [AtaCalls.zig_reads_none block disk _ none, bind_error]

/-- **The right sectors** are transferred exactly if there are some, at most 255 of them, and
the first one is below sector `2 ^ 28`. -/
theorem transfers_exactly_iff (offset size : U64) :
    TransfersExactly offset size ↔
      0 < covering offset.toNat size.toNat ∧ covering offset.toNat size.toNat ≤ 255 ∧
        offset.toNat / 512 < 2 ^ 28 := by
  constructor
  · rintro ⟨count, first, reads, _⟩
    have few := (sectorCount offset size).isLt
    rw [count] at few
    have some : 0 < covering offset.toNat size.toNat := by
      refine Nat.pos_of_ne_zero fun none => ?_
      have completes := reads ⟨0, rfl⟩ fun _ => 0
      rw [read_none _ _ (count.trans none)] at completes
      exact not_completes_throw _ completes
    refine ⟨some, by omega, ?_⟩
    rw [← first some, firstSector_eq]
    exact Nat.mod_lt _ (by decide)
  · rintro ⟨some, few, low⟩
    have count : (sectorCount offset size).toNat = covering offset.toNat size.toNat := by
      rw [toNat_sectorCount]
      omega
    have fits : Fits offset size := by
      unfold Fits
      rw [count]
      unfold covering
      omega
    have transfers (block : HeapBlock) := AtaCalls.zig_transfers block (startLba offset)
      (show (sectorCount offset size).toNat ≠ 0 by omega)
    refine ⟨count, fun _ => ?_, fun block disk => ⟨_, read_eq fits (transfers block)⟩,
      fun block disk data length => ?_⟩
    · rw [firstSector_eq, Nat.mod_eq_of_lt low]
    · have same : BitVec.ofNat 64 data.length = size := by
        rw [length, BitVec.ofNat_toNat, BitVec.setWidth_eq]
      have short : data.length < 2 ^ 64 := by omega
      rw [← same] at fits transfers
      exact ⟨_, write_eq fits short (transfers block)⟩

/-- For a read of 256 sectors the count is zero, and the buffer has no bytes. -/
theorem truncates_count :
    0 + 131072 + 511 < 2 ^ 64 ∧ ¬ TransfersExactly 0 131072 ∧
      read .zig ⟨0x11_0000, rfl⟩ (fun _ => 0) 0 131072 = .error .incorrectAlignment := by
  refine ⟨by decide, fun exact => ?_, by decide⟩
  have count := exact.count
  rw [toNat_sectorCount] at count
  exact absurd count (by decide)

end AtaDriver

end Lofita.Fs
