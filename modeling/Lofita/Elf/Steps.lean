import Lofita.Foundation.Overlay
import Lofita.Elf.Loader

/-! # What the steps of a load do

A successful installation of a segment overwrites the bytes of one block and the
map of one run of pages (`installSegment_ok`). The whole load depends on the calls
made before only (`respects_loadElf`).
-/

namespace Lofita.Elf

open Lofita.Foundation Lofita.Foundation.Fallible

/-! ### Primitive steps -/

/-- A check that went through did not refuse. -/
theorem refuseIf_ok {refused : Bool} {error : ElfError} {start final : LoaderState}
    {result : Unit} :
    refuseIf refused error start = .ok result final ↔ refused = false ∧ start = final := by
  cases refused with
  | false => exact ok_pure.trans (and_congr_left fun _ => iff_of_true rfl rfl)
  | true => exact ⟨fun failed => (nomatch failed), fun both => (nomatch both.1)⟩

/-- A bound that went through holds. -/
theorem panicUnless_ok {holds : Bool} {start final : LoaderState} {result : Unit} :
    panicUnless holds start = .ok result final ↔ holds = true ∧ start = final := by
  cases holds with
  | false => exact ⟨fun failed => (nomatch failed), fun both => (nomatch both.1)⟩
  | true => exact ok_pure.trans (and_congr_left fun _ => iff_of_true rfl rfl)

/-- A read that went through has its value. -/
theorem orPanic_ok {α : Type} {read : Option α} {start final : LoaderState} {value : α} :
    orPanic read start = .ok value final ↔ read = some value ∧ start = final := by
  cases read with
  | none => exact ⟨fun failed => (nomatch failed), fun both => (nomatch both.1)⟩
  | some _ => exact ok_pure.trans (and_congr_left fun _ => (Option.some_inj).symm)

/-- The view that decides the course of a load. -/
def callsOf (state : LoaderState) : List PlatformCall := state.calls

/-- A check depends on no call. -/
theorem respects_refuseIf (refused : Bool) (error : ElfError) :
    Respects callsOf (refuseIf refused error) := by
  cases refused with
  | false => exact .pure ()
  | true => exact .throw _

theorem respects_panicUnless (holds : Bool) : Respects callsOf (panicUnless holds) := by
  cases holds with
  | false => exact .throw _
  | true => exact .pure ()

theorem respects_orPanic {α : Type} (read : Option α) : Respects callsOf (orPanic read) := by
  cases read with
  | none => exact .throw _
  | some value => exact .pure value

theorem respects_writeMemory (write : (Nat → U8) → Nat → U8) :
    Respects callsOf (writeMemory write) :=
  fun _ _ same => ⟨rfl, same⟩

variable {platform : Platform} {data : Slice} {header : Elf64Header}

/-- A request depends on the calls before it alone. -/
theorem respects_physAlloc (pages : U64) : Respects callsOf (physAlloc platform pages) := by
  intro first second same
  change first.calls = second.calls at same
  refine ⟨?_, ?_⟩
  · rw [same]
  · change PlatformCall.physAlloc _ _ :: _ = PlatformCall.physAlloc _ _ :: _
    rw [same]

theorem respects_pageTableMap (virtualAddr physicalAddr : U64) (flags : U32) :
    Respects callsOf (pageTableMap platform virtualAddr physicalAddr flags) := by
  intro first second same
  change first.calls = second.calls at same
  refine ⟨?_, ?_⟩
  · rw [same]
  · change PlatformCall.pageTableMap _ _ _ _ :: _ = PlatformCall.pageTableMap _ _ _ _ :: _
    rw [same]

theorem respects_mapPages (virtBase phys : U64) (flags : U32) (pages : Nat) :
    Respects callsOf (mapPages platform virtBase phys flags pages) :=
  Respects.foldRange
    (fun _ _ => (respects_pageTableMap _ _ _).bind fun _ => Respects.pure ()) () pages

theorem respects_installSegment (loadBase : U64) (segment : Elf64ProgramHeader) :
    Respects callsOf (installSegment platform data loadBase segment) :=
  (respects_physAlloc _).bind fun _ => (respects_refuseIf _ _).bind fun _ =>
    (respects_panicUnless _).bind fun _ => (respects_panicUnless _).bind fun _ =>
    (respects_writeMemory _).bind fun _ => (respects_writeMemory _).bind fun _ =>
    respects_mapPages _ _ _ _

theorem respects_loadSegment (loadBase : U64) (i : Nat) (last : Unit) :
    Respects callsOf (loadSegment platform data header loadBase i last) := by
  refine (respects_orPanic _).bind fun pType => ?_
  split_ifs
  · exact (respects_orPanic _).bind fun _ => respects_installSegment _ _
  · exact .pure ()

/-- A scanned entry makes no call. -/
theorem respects_scanSegment (i : Nat) (range : U64 × U64) :
    Respects callsOf (scanSegment data header i range) := by
  refine (respects_refuseIf _ _).bind fun _ => (respects_orPanic _).bind fun _ =>
    (respects_orPanic _).bind fun _ => (respects_orPanic _).bind fun _ => ?_
  split_ifs <;> exact .pure _

theorem respects_parseHeader : Respects callsOf (parseHeader data) :=
  (respects_refuseIf _ _).bind fun _ => (respects_refuseIf _ _).bind fun _ =>
    (respects_orPanic _).bind fun _ => (respects_refuseIf _ _).bind fun _ =>
    (respects_orPanic _).bind fun _ => (respects_refuseIf _ _).bind fun _ =>
    (respects_orPanic _).bind fun _ => (respects_refuseIf _ _).bind fun _ =>
    (respects_refuseIf _ _).bind fun _ => .pure _

/-- The course of a load depends on the calls made before only. -/
theorem respects_loadElf : Respects callsOf (loadElf platform data) :=
  respects_parseHeader.bind fun _ =>
    (Respects.foldRange respects_scanSegment _ _).bind fun _ =>
    (Respects.foldRange (respects_loadSegment _) _ _).bind fun _ =>
    ((respects_physAlloc _).bind fun _ => respects_mapPages _ _ _ _).bind fun _ => .pure _

/-! ### Runs of pages -/

/-- How many pages a page lies above the page of an address. -/
def pageIndex (virtBase : U64) (page : Nat) : Nat :=
  (page + 2 ^ 52 - virtualPage virtBase) % 2 ^ 52

/-- Page numbers have 52 bits. -/
theorem virtualPage_lt (vaddr : U64) : virtualPage vaddr < 2 ^ 52 := by
  have small := vaddr.isLt
  unfold virtualPage
  omega

/-- The page of an address some bytes above another. -/
theorem pageIndex_add (virtBase : U64) {k : Nat} (small : k < 2 ^ 64 - 4096) :
    pageIndex virtBase (virtualPage (virtBase + BitVec.ofNat 64 k)) =
      (virtBase.toNat % 4096 + k) / 4096 := by
  have bound := virtBase.isLt
  unfold pageIndex virtualPage
  rw [BitVec.toNat_add, BitVec.toNat_ofNat]
  omega

/-- The address of a page. -/
theorem ofNat_mul_pageSize (pageI : Nat) :
    BitVec.ofNat 64 pageI * 4096 = BitVec.ofNat 64 (pageI * 4096) := by
  apply BitVec.eq_of_toNat_eq
  rw [BitVec.toNat_mul, BitVec.toNat_ofNat, BitVec.toNat_ofNat]
  exact Nat.mod_mul_mod _ _ _

/-- The page some pages above that of an address. -/
theorem eq_virtualPage_iff (virtBase : U64) {page : Nat} (pageI : Nat) (small : page < 2 ^ 52)
    (below : pageI < 2 ^ 52 - 1) :
    page = virtualPage (virtBase + BitVec.ofNat 64 (pageI * 4096)) ↔
      pageIndex virtBase page = pageI := by
  have bound := virtBase.isLt
  unfold pageIndex virtualPage
  rw [BitVec.toNat_add, BitVec.toNat_ofNat]
  omega

/-- Pages in a row, at frames in a row. -/
def pagePatch (virtBase : U64) (frame count : Nat) : Patch Nat (Option Nat) where
  region := {page | page < 2 ^ 52 ∧ pageIndex virtBase page < count}
  value page := some (frame + pageIndex virtBase page)

/-- The pages mapped are those of the block, and nothing else changes. -/
theorem mapPages_ok {virtBase phys : U64} {flags : U32} {pages : Nat} {start final : LoaderState}
    {result : Unit} (succeeds : ∀ count, platform.pageTableMap count = true)
    (aligned : 4096 ∣ phys.toNat) (few : pages < 2 ^ 52)
    (fits : phys.toNat + pages * 4096 ≤ 2 ^ 64)
    (done : mapPages platform virtBase phys flags pages start = .ok result final) :
    Overlay (pagePatch virtBase (phys.toNat / 4096) pages) start.pageMap final.pageMap ∧
      final.memory = start.memory ∧ final.calls.length = start.calls.length + pages := by
  refine foldRange_ok
    (fun count _ state => Overlay (pagePatch virtBase (phys.toNat / 4096) count) start.pageMap
      state.pageMap ∧ state.memory = start.memory ∧
        state.calls.length = start.calls.length + count)
    ⟨⟨fun page inside => absurd inside.2 (Nat.not_lt_zero _), fun _ _ => rfl⟩, rfl,
      rfl⟩ ?_ done
  rintro count _ before _ after below ⟨overlay, memory, calls⟩ iteration
  obtain ⟨mapped, middle, call, last⟩ := ok_bind.mp iteration
  obtain ⟨_, rfl⟩ := ok_pure.mp last
  cases call
  refine ⟨?_, memory, congrArg Nat.succ calls⟩
  simp only [succeeds, if_true, ofNat_mul_pageSize]
  have frame : (phys + BitVec.ofNat 64 (count * 4096)).toNat / 4096 =
      phys.toNat / 4096 + count := by
    rw [BitVec.toNat_add, BitVec.toNat_ofNat]
    omega
  have key (page : Nat) (small : page < 2 ^ 52) :=
    eq_virtualPage_iff virtBase count small (by omega)
  constructor
  · rintro page ⟨small, index⟩
    change pageIndex virtBase page < count + 1 at index
    by_cases here : pageIndex virtBase page = count
    · have isKey := (key page small).mpr here
      rw [isKey, Function.update_self, frame]
      change some (phys.toNat / 4096 + count) = some (phys.toNat / 4096 + pageIndex virtBase _)
      rw [← isKey, here]
    · rw [Function.update_of_ne (mt (key page small).mp here)]
      exact overlay.inside ⟨small, Nat.lt_of_le_of_ne (Nat.le_of_lt_succ index) here⟩
  · intro page outside
    have notKey : page ≠ virtualPage (virtBase + BitVec.ofNat 64 (count * 4096)) := by
      intro isKey
      have small : page < 2 ^ 52 := isKey ▸ virtualPage_lt _
      exact outside ⟨small, Nat.lt_succ_of_le (Nat.le_of_eq ((key page small).mp isKey))⟩
    rw [Function.update_of_ne notKey]
    exact overlay.outside fun inside => outside ⟨inside.1, Nat.lt_succ_of_lt inside.2⟩

/-! ### Segments -/

/-- What `phys_alloc` promises: blocks of whole pages inside the address space, and none for no
pages. -/
structure AllocatesBlocks (platform : Platform) : Prop where
  none : ∀ count, platform.physAlloc count 0 = 0
  aligned : ∀ count pages, 4096 ∣ (platform.physAlloc count pages).toNat
  fits : ∀ count pages, platform.physAlloc count pages ≠ 0 →
    (platform.physAlloc count pages).toNat + pages.toNat * 4096 ≤ 2 ^ 64

namespace Elf64ProgramHeader

/-- The byte a segment has at an offset. -/
def content (data : Slice) (segment : Elf64ProgramHeader) (k : Nat) : U8 :=
  if k < segment.pFilesz.toNat then data.bytes.getD (segment.pOffset.toNat + k) 0 else 0

/-- The bytes of a segment, at an address. -/
def bytePatch (data : Slice) (segment : Elf64ProgramHeader) (phys : Nat) : Patch Nat U8 where
  region := {addr | phys ≤ addr ∧ addr < phys + segment.pMemsz.toNat}
  value addr := segment.content data (addr - phys)

/-- A segment that asks for pages asks for as many as hold its bytes. -/
theorem pages_bounds {segment : Elf64ProgramHeader} (some : segment.pages ≠ 0) :
    0 < segment.pMemsz.toNat ∧ segment.pMemsz.toNat ≤ segment.pages.toNat * 4096 ∧
      segment.pages.toNat * 4096 < segment.pMemsz.toNat + 4096 ∧ segment.pages.toNat < 2 ^ 52 := by
  have bound := segment.pMemsz.isLt
  have pages : segment.pages.toNat = (segment.pMemsz.toNat + 4095) % 2 ^ 64 / 4096 := by
    unfold Elf64ProgramHeader.pages
    rw [BitVec.toNat_udiv, BitVec.toNat_add]
    rfl
  have positive : segment.pages.toNat ≠ 0 := by
    intro zero
    exact some (BitVec.eq_of_toNat_eq zero)
  omega

end Elf64ProgramHeader

/-- A segment that fits the file is copied and filled up. -/
theorem fill_overlay {segment : Elf64ProgramHeader} (filesz : segment.pFilesz.toNat ≤
      segment.pMemsz.toNat) (phys : Nat) (memory : Nat → U8) :
    Overlay (segment.bytePatch data phys) memory
      (zeroFill (phys + segment.pFilesz.toNat) (phys + segment.pMemsz.toNat)
        (copyFile data phys segment.pOffset.toNat (segment.pOffset.toNat + segment.pFilesz.toNat)
          memory)) := by
  constructor
  · rintro addr ⟨above, below⟩
    unfold zeroFill copyFile Elf64ProgramHeader.bytePatch Elf64ProgramHeader.content
    simp only
    split_ifs <;> first | rfl | omega
  · intro addr outside
    have apart : ¬ (phys ≤ addr ∧ addr < phys + segment.pMemsz.toNat) := outside
    unfold zeroFill copyFile
    rw [if_neg, if_neg] <;> omega

/-! ### The calls before a segment -/

variable {segment : Elf64ProgramHeader} {i : Nat}

/-- The PT_LOAD segment at a place in the program header table, if it has one. -/
def segmentAt (data : Slice) (header : Elf64Header) (i : Nat) : Option Elf64ProgramHeader :=
  if readU32Le data (header.phOff i) = some ptLoad then readProgramHeader data (header.phOff i)
  else none

/-- The segment of an entry, found and specified. -/
theorem segmentAt_eq_some (below : i < header.ePhnum.toNat) :
    segmentAt data header i = some segment ↔ IsSegment data header i segment := by
  unfold segmentAt
  constructor
  · intro found
    split at found
    next load => exact ⟨below, load, found⟩
    next => cases found
  · intro isSegment
    rw [if_pos isSegment.load]
    exact isSegment.fields

/-- A segment that is there is found. -/
theorem IsSegment.segmentAt (isSegment : IsSegment data header i segment) :
    segmentAt data header i = some segment :=
  (segmentAt_eq_some isSegment.below).mpr isSegment

/-- The calls that the second pass makes before it comes to a program header: one for
a block, and one for each page, of every PT_LOAD segment. -/
def callsBefore (data : Slice) (header : Elf64Header) : Nat → Nat
  | 0 => 0
  | i + 1 => callsBefore data header i +
      match segmentAt data header i with
      | some segment => 1 + segment.pages.toNat
      | none => 0

/-- The calls of one segment more. -/
theorem callsBefore_succ (found : segmentAt data header i = some segment) :
    callsBefore data header (i + 1) = callsBefore data header i + (1 + segment.pages.toNat) := by
  rw [callsBefore, found]

/-- An entry that is no segment makes no calls. -/
theorem callsBefore_skip (none : segmentAt data header i = none) :
    callsBefore data header (i + 1) = callsBefore data header i := by
  rw [callsBefore, none, Nat.add_zero]

/-! ### One segment -/

/-- **One segment** that fits the file fills one block and maps its pages. -/
theorem installSegment_ok (allocates : AllocatesBlocks platform)
    (succeeds : ∀ count, platform.pageTableMap count = true) {segment : Elf64ProgramHeader}
    (filesz : segment.pFilesz.toNat ≤ segment.pMemsz.toNat)
    (inFile : segment.pOffset.toNat + segment.pFilesz.toNat ≤ data.bytes.length)
    {loadBase : U64} {start final : LoaderState} {result : Unit}
    (done : installSegment platform data loadBase segment start = .ok result final) :
    let phys := platform.physAlloc start.calls.length segment.pages
    phys ≠ 0 ∧ Overlay (segment.bytePatch data phys.toNat) start.memory final.memory ∧
      Overlay (pagePatch (loadBase + segment.pVaddr) (phys.toNat / 4096) segment.pages.toNat)
        start.pageMap final.pageMap ∧
      final.calls.length = start.calls.length + (1 + segment.pages.toNat) := by
  intro phys
  simp only [installSegment] at done
  obtain ⟨_, _, call, done⟩ := ok_bind.mp done
  cases call
  obtain ⟨_, _, step, done⟩ := ok_bind.mp done
  obtain ⟨notNull, rfl⟩ := refuseIf_ok.mp step
  have end' : (segment.pOffset + segment.pFilesz).toNat =
      segment.pOffset.toNat + segment.pFilesz.toNat :=
    toNat_add_of_lt (Nat.lt_of_le_of_lt inFile (Nat.lt_trans data.short (by decide)))
  have noCut : segment.pOffset + segment.pFilesz ≤ data.len := by
    rw [BitVec.le_def, end', data.toNat_len]
    exact inFile
  have copyLen : segment.pOffset + segment.pFilesz - segment.pOffset = segment.pFilesz := by
    rw [BitVec.add_comm, BitVec.add_sub_cancel]
  rw [if_pos noCut, copyLen] at done
  obtain ⟨_, _, step, done⟩ := ok_bind.mp done
  obtain ⟨_, rfl⟩ := panicUnless_ok.mp step
  obtain ⟨_, _, step, done⟩ := ok_bind.mp done
  obtain ⟨_, rfl⟩ := panicUnless_ok.mp step
  obtain ⟨_, _, call, done⟩ := ok_bind.mp done
  cases call
  obtain ⟨_, _, call, done⟩ := ok_bind.mp done
  cases call
  have isBlock : phys ≠ 0 := of_decide_eq_false notNull
  have somePages : segment.pages ≠ 0 := by
    intro none
    apply isBlock
    change platform.physAlloc start.calls.length segment.pages = 0
    rw [none]
    exact allocates.none _
  obtain ⟨_, _, _, few⟩ := Elf64ProgramHeader.pages_bounds somePages
  obtain ⟨mapped, memory, calls⟩ := mapPages_ok succeeds (allocates.aligned _ _) few
    (allocates.fits _ _ isBlock) done
  refine ⟨isBlock, ?_, mapped, calls.trans (by rw [List.length_cons, Nat.add_assoc])⟩
  rw [memory, end']
  exact fill_overlay filesz _ _

end Lofita.Elf
