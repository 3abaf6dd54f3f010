import Lofita.Elf.Loader

/-! # The loader of the compatibility layer

The Linux compatibility layer has its own copy of `load_elf`. It looks at what
`page_table_map` returns for the pages of a segment, and maps the stack with other
flags; all else is the same (`loadElf_eq_loadWith`).
-/

namespace Lofita.Elf

open Lofita.Foundation Lofita.Foundation.Fallible

/-- How a copy of the loader maps a run of pages: their first virtual and physical
address, their flags and their number. -/
abbrev Mapper := U64 → U64 → U32 → Nat → Loader Unit

variable (platform : Platform)

/-! ### What the copies share -/

/-- Allocate and fill one PT_LOAD segment, and map it. -/
def installWith (mapper : Mapper) (data : Slice) (loadBase : U64) (segment : Elf64ProgramHeader) :
    Loader Unit := do
  let virtBase := loadBase + segment.pVaddr
  let phys ← physAlloc platform segment.pages
  refuseIf (phys = 0) .allocFailed
  let end' := segment.pOffset + segment.pFilesz
  let fileEnd := if end' ≤ data.len then end' else data.len
  let copyLen := fileEnd - segment.pOffset
  panicUnless (copyLen ≤ segment.pMemsz)
  panicUnless (segment.pOffset ≤ fileEnd ∧ fileEnd ≤ data.len)
  writeMemory (copyFile data phys.toNat segment.pOffset.toNat fileEnd.toNat)
  writeMemory (zeroFill (phys.toNat + copyLen.toNat) (phys.toNat + segment.pMemsz.toNat))
  mapper virtBase phys segment.pteFlags segment.pages.toNat

/-- One iteration of the second pass. -/
def loadSegmentWith (mapper : Mapper) (data : Slice) (header : Elf64Header) (loadBase : U64)
    (i : Nat) (_ : Unit) : Loader Unit := do
  let pType ← orPanic (readU32Le data (header.phOff i))
  if pType = ptLoad then
    let segment ← orPanic (readProgramHeader data (header.phOff i))
    installWith platform mapper data loadBase segment
  else return ()

/-- What follows the first pass. -/
def finishWith (mapper : Mapper) (stack : Loader Unit) (data : Slice) (header : Elf64Header)
    (range : U64 × U64) : Loader LoadedProcess := do
  let loadBase := loadBaseOf header range.1
  foldRange (loadSegmentWith platform mapper data header loadBase) () header.ePhnum.toNat
  stack
  return {
    entryPoint := loadBase + header.eEntry
    loadBase
    initialRsp := stackVirt + BitVec.ofNat 64 stackPages * 4096 - 8 }

def loadWith (mapper : Mapper) (stack : Loader Unit) (data : Slice) : Loader LoadedProcess := do
  let header ← parseHeader data
  let range ← foldRange (scanSegment data header) (U64.max, 0) header.ePhnum.toNat
  finishWith platform mapper stack data header range

/-- The loader of the kernel, in these terms. -/
theorem loadElf_eq_loadWith (data : Slice) :
    loadElf platform data = loadWith platform (mapPages platform) (mapStack platform) data := rfl

namespace Compat

/-! ### The copy of the compatibility layer -/

/-- Map pages one after the other, up to the first one that fails. -/
def mapPages (virtBase phys : U64) (flags : U32) (pages : Nat) : Loader Unit :=
  foldRange
    (fun pageI _ => do
      let mapped ← pageTableMap platform (virtBase + BitVec.ofNat 64 pageI * 4096)
        (phys + BitVec.ofNat 64 pageI * 4096) flags
      refuseIf (¬ mapped) .mapFailed)
    () pages

/-- Map the initial user stack, readable and writable. What the platform answers is
not looked at. -/
def mapStack : Loader Unit := do
  let stackPhys ← physAlloc platform (BitVec.ofNat 64 stackPages)
  Elf.mapPages platform stackVirt stackPhys 0x3 stackPages

def loadElf (data : Slice) : Loader LoadedProcess :=
  loadWith platform (mapPages platform) (mapStack platform) data

end Compat

/-- The two copies of the loader. -/
inductive LoaderCopy where
  | kernel
  | compat
deriving DecidableEq, Repr

namespace LoaderCopy

def loadElf : LoaderCopy → Slice → Loader LoadedProcess
  | kernel => Elf.loadElf platform
  | compat => Compat.loadElf platform

def mapper : LoaderCopy → Mapper
  | kernel => mapPages platform
  | compat => Compat.mapPages platform

def mapStack : LoaderCopy → Loader Unit
  | kernel => Elf.mapStack platform
  | compat => Compat.mapStack platform

theorem loadElf_eq (copy : LoaderCopy) (data : Slice) :
    copy.loadElf platform data =
      loadWith platform (copy.mapper platform) (copy.mapStack platform) data := by
  cases copy with
  | kernel => rfl
  | compat => rfl

end LoaderCopy

end Lofita.Elf
