import Mathlib.Logic.Function.Basic
import Lofita.Foundation.Fallible
import Lofita.Elf.Format

/-! # The ELF loader

`load_elf` of `elf_loader.rs`, over a physical memory of bytes and a map from
virtual pages to physical pages. What `phys_alloc` and `page_table_map` answer is
a parameter, numbered by the calls made before. A load that fails keeps what it
has done so far. Sums and products wrap: the release profile has no overflow
checks.
-/

namespace Lofita.Elf

open Lofita.Foundation Lofita.Foundation.Fallible

inductive ElfError where
  | tooShort
  | badMagic
  | notElf64
  | notLittleEndian
  | notExecutable
  | wrongArch
  | badProgramHeader
  | allocFailed
  | mapFailed
deriving DecidableEq, Repr

/-- How a load ends early: by an error it returns or by a panic. -/
inductive Stop where
  | err (error : ElfError)
  | panic
deriving DecidableEq, Repr

/-- A call of the platform, with its answer. -/
inductive PlatformCall where
  | physAlloc (pages answer : U64)
  | pageTableMap (virtualAddr physicalAddr : U64) (flags : U32) (mapped : Bool)
deriving DecidableEq, Repr

/-- The answers of the platform: the block `phys_alloc` returns for a number of
pages, 0 when it is null, and whether `page_table_map` returns 0. Answers are
given by the number of calls made before. -/
structure Platform where
  physAlloc : Nat → U64 → U64
  pageTableMap : Nat → Bool

/-- Physical memory by byte, the physical page of each virtual page, and the calls
made so far, the latest first. -/
structure LoaderState where
  memory : Nat → U8
  pageMap : Nat → Option Nat
  calls : List PlatformCall

/-- The page of a virtual address. -/
def virtualPage (vaddr : U64) : Nat := vaddr.toNat / 4096

/-- The byte found by translating a virtual address. -/
def LoaderState.translated (state : LoaderState) (vaddr : U64) : Option U8 :=
  (state.pageMap (virtualPage vaddr)).map fun page =>
    state.memory (page * 4096 + vaddr.toNat % 4096)

/-- A run of the loader, which may stop. -/
abbrev Loader := EStateM Stop LoaderState

/-- A check of the loader. -/
def refuseIf (refused : Bool) (error : ElfError) : Loader Unit :=
  if refused then throw (.err error) else pure ()

/-- A bound that the compiled code checks. -/
def panicUnless (holds : Bool) : Loader Unit :=
  if holds then pure () else throw .panic

/-- Use what was read; reading out of range panics. -/
def orPanic {α : Type} : Option α → Loader α
  | some value => pure value
  | none => throw .panic

def writeMemory (write : (Nat → U8) → Nat → U8) : Loader Unit := fun state =>
  .ok () { state with memory := write state.memory }

variable (platform : Platform)

/-- The platform is asked for a block. -/
def physAlloc (pages : U64) : Loader U64 := fun state =>
  let answer := platform.physAlloc state.calls.length pages
  .ok answer { state with calls := .physAlloc pages answer :: state.calls }

/-- The platform is asked to map a page. -/
def pageTableMap (virtualAddr physicalAddr : U64) (flags : U32) : Loader Bool := fun state =>
  let mapped := platform.pageTableMap state.calls.length
  .ok mapped
    { state with
      pageMap :=
        if mapped then
          Function.update state.pageMap (virtualPage virtualAddr)
            (some (physicalAddr.toNat / 4096))
        else state.pageMap
      calls := .pageTableMap virtualAddr physicalAddr flags mapped :: state.calls }

/-- Map pages one after the other. What `page_table_map` returns is not looked at. -/
def mapPages (virtBase phys : U64) (flags : U32) (pages : Nat) : Loader Unit :=
  foldRange
    (fun pageI _ => do
      let _ ← pageTableMap platform (virtBase + BitVec.ofNat 64 pageI * 4096)
        (phys + BitVec.ofNat 64 pageI * 4096) flags
      return ())
    () pages

/-- Copy a part of the file to a physical address. -/
def copyFile (data : Slice) (phys pOffset fileEnd : Nat) (memory : Nat → U8) : Nat → U8 :=
  fun addr =>
    if phys ≤ addr ∧ addr < phys + (fileEnd - pOffset) then
      data.bytes.getD (pOffset + (addr - phys)) 0
    else memory addr

/-- The bytes of a range become zero. -/
def zeroFill (first last : Nat) (memory : Nat → U8) : Nat → U8 :=
  fun addr => if first ≤ addr ∧ addr < last then 0 else memory addr

/-- The page flags of a segment. -/
def Elf64ProgramHeader.pteFlags (segment : Elf64ProgramHeader) : U32 :=
  (1 <<< 1) ||| (if segment.isWrite then 1 <<< 0 else 0) |||
    (if segment.isExec then 1 <<< 2 else 0)

/-- Allocate, fill and map one PT_LOAD segment. -/
def installSegment (data : Slice) (loadBase : U64) (segment : Elf64ProgramHeader) :
    Loader Unit := do
  let virtBase := loadBase + segment.pVaddr
  let phys ← physAlloc platform segment.pages
  refuseIf (phys = 0) .allocFailed
  let end' := segment.pOffset + segment.pFilesz
  let fileEnd := if end' ≤ data.len then end' else data.len
  let copyLen := fileEnd - segment.pOffset
  panicUnless (copyLen ≤ segment.pMemsz)
  panicUnless (segment.pOffset ≤ fileEnd ∧ fileEnd ≤ data.len)
  writeMemory (copyFile data phys.toNat segment.pOffset.toNat fileEnd.toNat)
  writeMemory (zeroFill (phys.toNat + copyLen.toNat) (phys.toNat + segment.pMemsz.toNat))
  mapPages platform virtBase phys segment.pteFlags segment.pages.toNat

/-- One iteration of the second pass. -/
def loadSegment (data : Slice) (header : Elf64Header) (loadBase : U64) (i : Nat) (_ : Unit) :
    Loader Unit := do
  let pType ← orPanic (readU32Le data (header.phOff i))
  if pType = ptLoad then
    let segment ← orPanic (readProgramHeader data (header.phOff i))
    installSegment platform data loadBase segment
  else return ()

/-- One iteration of the first pass: the range of virtual addresses so far. -/
def scanSegment (data : Slice) (header : Elf64Header) (i : Nat) (range : U64 × U64) :
    Loader (U64 × U64) := do
  refuseIf (data.len < header.phOff i + header.ePhentsize) .badProgramHeader
  let pType ← orPanic (readU32Le data (header.phOff i))
  let pVaddr ← orPanic (readU64Le data (header.phOff i + 16))
  let pMemsz ← orPanic (readU64Le data (header.phOff i + 40))
  if pType = ptLoad then
    return (if pVaddr < range.1 then pVaddr else range.1,
      if range.2 < pVaddr + pMemsz then pVaddr + pMemsz else range.2)
  else return range

/-- A position-independent file is loaded at 1 GB. -/
def loadBaseOf (header : Elf64Header) (minVaddr : U64) : U64 :=
  if header.eType = etDyn ∧ minVaddr = 0 then 0x4000_0000 else 0

/-- Validate the file header. -/
def parseHeader (data : Slice) : Loader Elf64Header := do
  refuseIf (data.bytes.length < headerSize) .tooShort
  refuseIf (data.bytes.take 4 ≠ elfMagic) .badMagic
  let class' ← orPanic (data.byte 4)
  refuseIf (class' ≠ elfClass64) .notElf64
  let encoding ← orPanic (data.byte 5)
  refuseIf (encoding ≠ elfData2Lsb) .notLittleEndian
  let header ← orPanic (readHeader data)
  refuseIf (header.eType ≠ etExec ∧ header.eType ≠ etDyn) .notExecutable
  refuseIf (header.eMachine ≠ emX86_64) .wrongArch
  return header

/-- The stack of a program. -/
def stackPages : Nat := 2

def stackVirt : U64 := 0x7FFF_F000 - 2 * 4096

structure LoadedProcess where
  entryPoint : U64
  loadBase : U64
  initialRsp : U64
deriving DecidableEq, Repr

/-- Map the initial user stack; a failed allocation is not noticed. -/
def mapStack : Loader Unit := do
  let stackPhys ← physAlloc platform (BitVec.ofNat 64 stackPages)
  mapPages platform stackVirt stackPhys 0x7 stackPages

def loadElf (data : Slice) : Loader LoadedProcess := do
  let header ← parseHeader data
  let range ← foldRange (scanSegment data header) (U64.max, 0) header.ePhnum.toNat
  let loadBase := loadBaseOf header range.1
  foldRange (loadSegment platform data header loadBase) () header.ePhnum.toNat
  mapStack platform
  return {
    entryPoint := loadBase + header.eEntry
    loadBase
    initialRsp := stackVirt + BitVec.ofNat 64 stackPages * 4096 - 8 }

end Lofita.Elf
