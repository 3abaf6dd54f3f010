import Lofita.Foundation.Word

/-! # ELF64 files

The fields that `elf_loader.rs` reads from a file, by byte offset. Reading past
the end is a panic of the source; here it gives nothing.
-/

namespace Lofita.Elf

open Lofita.Foundation

abbrev U8 := BitVec 8

abbrev U16 := BitVec 16

/-- A byte slice. Its length fits `isize`. -/
structure Slice where
  bytes : List U8
  short : bytes.length < 2 ^ 63

namespace Slice

def len (data : Slice) : U64 := BitVec.ofNat 64 data.bytes.length

/-- The length of a file as a number. -/
@[simp] theorem toNat_len (data : Slice) : data.len.toNat = data.bytes.length := by
  have short := data.short
  unfold len
  rw [BitVec.toNat_ofNat]
  omega

/-- Index a slice. -/
def byte (data : Slice) (off : U64) : Option U8 := data.bytes[off.toNat]?

end Slice

/-! ### Little-endian byte readers -/

/-- Two bytes of the file, the low one first; nothing past its end. -/
def readU16Le (data : Slice) (off : U64) : Option U16 := do
  let b0 ← data.byte off
  let b1 ← data.byte (off + 1)
  return b1 ++ b0

/-- Four bytes of the file, the low one first. -/
def readU32Le (data : Slice) (off : U64) : Option U32 := do
  let b0 ← data.byte off
  let b1 ← data.byte (off + 1)
  let b2 ← data.byte (off + 2)
  let b3 ← data.byte (off + 3)
  return b3 ++ b2 ++ b1 ++ b0

/-- Eight bytes of the file, the low one first. -/
def readU64Le (data : Slice) (off : U64) : Option U64 := do
  let b0 ← data.byte off
  let b1 ← data.byte (off + 1)
  let b2 ← data.byte (off + 2)
  let b3 ← data.byte (off + 3)
  let b4 ← data.byte (off + 4)
  let b5 ← data.byte (off + 5)
  let b6 ← data.byte (off + 6)
  let b7 ← data.byte (off + 7)
  return b7 ++ b6 ++ b5 ++ b4 ++ b3 ++ b2 ++ b1 ++ b0

/-! ### Headers -/

/-- The values `parse_header` compares with. -/
def elfMagic : List U8 := [0x7F, 0x45, 0x4C, 0x46]
def elfClass64 : U8 := 2
def elfData2Lsb : U8 := 1
def etExec : U16 := 2
def etDyn : U16 := 3
def emX86_64 : U16 := 62

/-- The type of a segment that is loaded. -/
def ptLoad : U32 := 1

/-- The size of the file header. -/
def headerSize : Nat := 64

/-- The fields of the file header that the loader reads. -/
structure Elf64Header where
  eType : U16
  eMachine : U16
  eEntry : U64
  ePhoff : U64
  ePhentsize : U64
  ePhnum : U64
deriving DecidableEq, Repr

/-- The header at the start of the file, each field at its offset. -/
def readHeader (data : Slice) : Option Elf64Header := do
  let eType ← readU16Le data 16
  let eMachine ← readU16Le data 18
  let eEntry ← readU64Le data 24
  let ePhoff ← readU64Le data 32
  let ePhentsize ← readU16Le data 54
  let ePhnum ← readU16Le data 56
  return { eType, eMachine, eEntry, ePhoff, ePhentsize := ePhentsize.setWidth 64,
           ePhnum := ePhnum.setWidth 64 }

/-- The offset of a program header. -/
def Elf64Header.phOff (header : Elf64Header) (i : Nat) : U64 :=
  header.ePhoff + BitVec.ofNat 64 i * header.ePhentsize

/-- An entry of the program header table. -/
structure Elf64ProgramHeader where
  pFlags : U32
  pOffset : U64
  pVaddr : U64
  pFilesz : U64
  pMemsz : U64
deriving DecidableEq, Repr

/-- The bits of `p_flags` that the loader looks at. -/
def pfExec : U32 := 1
def pfWrite : U32 := 2

/-- The segment asks to be executable. -/
def Elf64ProgramHeader.isExec (segment : Elf64ProgramHeader) : Bool := segment.pFlags &&& pfExec ≠ 0

/-- The segment asks to be writable. -/
def Elf64ProgramHeader.isWrite (segment : Elf64ProgramHeader) : Bool :=
  segment.pFlags &&& pfWrite ≠ 0

/-- The fields of a program header other than its type. -/
def readProgramHeader (data : Slice) (phOff : U64) : Option Elf64ProgramHeader := do
  let pFlags ← readU32Le data (phOff + 4)
  let pOffset ← readU64Le data (phOff + 8)
  let pVaddr ← readU64Le data (phOff + 16)
  let pFilesz ← readU64Le data (phOff + 32)
  let pMemsz ← readU64Le data (phOff + 40)
  return { pFlags, pOffset, pVaddr, pFilesz, pMemsz }

/-- The number of pages a segment asks for. -/
def Elf64ProgramHeader.pages (segment : Elf64ProgramHeader) : U64 := (segment.pMemsz + 4095) / 4096

/-- The file has a PT_LOAD segment at a place in its program header table. -/
structure IsSegment (data : Slice) (header : Elf64Header) (i : Nat) (segment : Elf64ProgramHeader) :
    Prop where
  below : i < header.ePhnum.toNat
  load : readU32Le data (header.phOff i) = some ptLoad
  fields : readProgramHeader data (header.phOff i) = some segment

/-- An entry of the table is one segment. -/
theorem IsSegment.unique {data : Slice} {header : Elf64Header} {i : Nat}
    {first second : Elf64ProgramHeader} (left : IsSegment data header i first)
    (right : IsSegment data header i second) : first = second :=
  Option.some.inj (left.fields.symm.trans right.fields)

end Lofita.Elf
