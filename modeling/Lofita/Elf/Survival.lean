import Lofita.Elf.Image

/-! # Files the loader survives

A load panics when it indexes or slices out of range, and a panic halts the
kernel. The checks of `load_elf` on the program headers use sums that wrap and
bound the end of an entry, not the fields read from it; the slices of a segment
are not checked at all. The files on which no load can panic are therefore the
ones that `Survives` describes (`never_panics_iff`).
-/

namespace Lofita.Elf

open Lofita.Foundation Lofita.Foundation.Fallible

/-- What each call of `phys_alloc` answers: a block of whole pages inside the address
space, or null, and null for no pages. -/
structure AnswersBlocks (platform : Platform) : Prop where
  none : ∀ count, platform.physAlloc count 0 = 0
  aligned : ∀ count pages, 4096 ∣ (platform.physAlloc count pages).toNat
  fits : ∀ count pages, platform.physAlloc count pages ≠ 0 →
    (platform.physAlloc count pages).toNat + pages.toNat * 4096 ≤ 2 ^ 64

/-- No behaviour of the platform makes the load of a file panic. -/
def NeverPanics (data : Slice) : Prop :=
  ∀ platform, AnswersBlocks platform → Avoids Stop.panic (loadElf platform data)

/-- The check of the first pass on a program header, in wrapping arithmetic. -/
def EntryAccepted (data : Slice) (header : Elf64Header) (i : Nat) : Prop :=
  header.phOff i + header.ePhentsize ≤ data.len

/-- The fields of a program header that are read lie in the file. -/
def EntryInFile (data : Slice) (header : Elf64Header) (i : Nat) : Prop :=
  (header.phOff i).toNat + 48 ≤ data.bytes.length

/-- Where the part of a segment that is in the file ends. -/
def fileEnd (data : Slice) (segment : Elf64ProgramHeader) : U64 :=
  if segment.pOffset + segment.pFilesz ≤ data.len then segment.pOffset + segment.pFilesz
  else data.len

/-- The part of a segment that is in the file starts before it ends, and fits the
memory of the segment. -/
structure Copyable (data : Slice) (segment : Elf64ProgramHeader) : Prop where
  starts : segment.pOffset ≤ fileEnd data segment
  fits : fileEnd data segment - segment.pOffset ≤ segment.pMemsz

/-- The PT_LOAD segments up to a program header all ask for pages. A load ends
without a panic at the first one that asks for none. -/
def AskForPages (data : Slice) (header : Elf64Header) (i : Nat) : Prop :=
  ∀ j ≤ i, ∀ segment, IsSegment data header j segment → segment.pages ≠ 0

/-- As far as the program headers are accepted, the fields that are read lie in
the file; and if all of them are accepted, the PT_LOAD segments can be copied, as
far as all of them ask for pages. -/
structure SurvivesHeader (data : Slice) (header : Elf64Header) : Prop where
  entries : ∀ i < header.ePhnum.toNat, (∀ j ≤ i, EntryAccepted data header j) →
    EntryInFile data header i
  segments : (∀ i < header.ePhnum.toNat, EntryAccepted data header i) →
    ∀ i segment, IsSegment data header i segment → AskForPages data header i →
      Copyable data segment

def Survives (data : Slice) : Prop :=
  ∀ header, HeaderAccepted data header → SurvivesHeader data header

variable {platform : Platform} {data : Slice} {header : Elf64Header} {loadBase : U64} {i : Nat}

/-! ### Reads in range -/

/-- An offset that does not wrap, as a number. -/
theorem toNat_add_ofNat {off : U64} {k : Nat} (fits : off.toNat + k < 2 ^ 64) :
    (off + BitVec.ofNat 64 k).toNat = off.toNat + k := by
  rw [BitVec.toNat_add, BitVec.toNat_ofNat, Nat.mod_eq_of_lt (by omega : k < 2 ^ 64),
    Nat.mod_eq_of_lt fits]

/-- A byte is read exactly within the file. -/
@[simp] theorem isSome_byte {off : U64} :
    (data.byte off).isSome ↔ off.toNat < data.bytes.length := by
  simp [Slice.byte]

/-- The bytes from an offset on are in the file exactly if the last of them is, as
an offset in the file does not wrap. -/
theorem isSome_bytes {off : U64} {count : Nat} (positive : 0 < count) (few : count ≤ 8) :
    (∀ k < count, (data.byte (off + BitVec.ofNat 64 k)).isSome) ↔
      off.toNat + count ≤ data.bytes.length := by
  have short := data.short
  constructor
  · intro inFile
    have first : off.toNat < data.bytes.length := by
      simpa using inFile 0 positive
    have last := isSome_byte.mp (inFile (count - 1) (by omega))
    rw [toNat_add_ofNat (by omega)] at last
    omega
  · intro inFile k below
    rw [isSome_byte, toNat_add_ofNat (by omega)]
    omega

/-- A composition whose second part succeeds or not, whatever its input is. -/
theorem isSome_bind {α β : Type} {first : Option α} {next : α → Option β} {holds : Prop}
    (each : ∀ value, (next value).isSome ↔ holds) :
    (first >>= next).isSome ↔ first.isSome ∧ holds := by
  cases first with
  | none => exact ⟨fun impossible => (nomatch impossible), fun both => (nomatch both.1)⟩
  | some value => exact (each value).trans (and_iff_right rfl).symm

/-- Two bytes are read exactly when both are in the file. -/
theorem isSome_readU16Le {off : U64} :
    (readU16Le data off).isSome ↔ off.toNat + 2 ≤ data.bytes.length := by
  rw [← isSome_bytes (by decide) (by decide)]
  refine (isSome_bind fun _ => isSome_bind fun _ => iff_true_intro rfl).trans ?_
  simp only [Nat.forall_lt_succ_left, Nat.not_lt_zero, IsEmpty.forall_iff, implies_true, and_true,
    Nat.zero_add, BitVec.ofNat_eq_ofNat, BitVec.add_zero]

/-- Four bytes are read exactly when all are in the file. -/
theorem isSome_readU32Le {off : U64} :
    (readU32Le data off).isSome ↔ off.toNat + 4 ≤ data.bytes.length := by
  rw [← isSome_bytes (by decide) (by decide)]
  refine (isSome_bind fun _ => isSome_bind fun _ => isSome_bind fun _ => isSome_bind fun _ =>
    iff_true_intro rfl).trans ?_
  simp only [Nat.forall_lt_succ_left, Nat.not_lt_zero, IsEmpty.forall_iff, implies_true, and_true,
    Nat.zero_add, Nat.reduceAdd, BitVec.ofNat_eq_ofNat, BitVec.add_zero]

/-- Eight bytes are read exactly when all are in the file. -/
theorem isSome_readU64Le {off : U64} :
    (readU64Le data off).isSome ↔ off.toNat + 8 ≤ data.bytes.length := by
  rw [← isSome_bytes (by decide) (by decide)]
  refine (isSome_bind fun _ => isSome_bind fun _ => isSome_bind fun _ => isSome_bind fun _ =>
    isSome_bind fun _ => isSome_bind fun _ => isSome_bind fun _ => isSome_bind fun _ =>
    iff_true_intro rfl).trans ?_
  simp only [Nat.forall_lt_succ_left, Nat.not_lt_zero, IsEmpty.forall_iff, implies_true, and_true,
    Nat.zero_add, Nat.reduceAdd, BitVec.ofNat_eq_ofNat, BitVec.add_zero]

/-- A file of header size has a readable header. -/
theorem isSome_readHeader (long : headerSize ≤ data.bytes.length) : (readHeader data).isSome := by
  unfold headerSize at long
  refine (isSome_bind fun _ => isSome_bind fun _ => isSome_bind fun _ => isSome_bind fun _ =>
    isSome_bind fun _ => isSome_bind fun _ => iff_true_intro rfl).mpr ?_
  simp only [isSome_readU16Le, isSome_readU64Le]
  simp
  omega

/-- A field of a program header whose fields lie in the file. -/
theorem EntryInFile.field (inFile : EntryInFile data header i) {k size : Nat}
    (within : k + size ≤ 48) :
    (header.phOff i + BitVec.ofNat 64 k).toNat + size ≤ data.bytes.length := by
  have short := data.short
  unfold EntryInFile at inFile
  rw [toNat_add_ofNat (by omega)]
  omega

/-- The type of an entry within the file is readable. -/
theorem EntryInFile.isSome_type (inFile : EntryInFile data header i) :
    (readU32Le data (header.phOff i)).isSome :=
  isSome_readU32Le.mpr (Nat.le_trans (Nat.add_le_add_left (by decide) _) inFile)

theorem EntryInFile.isSome_fields (inFile : EntryInFile data header i) :
    (readProgramHeader data (header.phOff i)).isSome := by
  refine (isSome_bind fun _ => isSome_bind fun _ => isSome_bind fun _ => isSome_bind fun _ =>
    isSome_bind fun _ => iff_true_intro rfl).mpr ?_
  simp only [isSome_readU32Le, isSome_readU64Le, and_true]
  exact ⟨inFile.field (k := 4) (by decide), inFile.field (k := 8) (by decide),
    inFile.field (k := 16) (by decide), inFile.field (k := 32) (by decide),
    inFile.field (k := 40) (by decide)⟩

/-- The reads of the first pass stay in the file exactly if the fields do. -/
theorem entryInFile_iff :
    EntryInFile data header i ↔ (readU32Le data (header.phOff i)).isSome ∧
      (readU64Le data (header.phOff i + 16)).isSome ∧
      (readU64Le data (header.phOff i + 40)).isSome := by
  constructor
  · intro inFile
    simp only [isSome_readU64Le]
    exact ⟨inFile.isSome_type, inFile.field (k := 16) (by decide),
      inFile.field (k := 40) (by decide)⟩
  · rintro ⟨type, _, memsz⟩
    have short := data.short
    rw [isSome_readU32Le] at type
    have last : (header.phOff i + 40).toNat = (header.phOff i).toNat + 40 :=
      toNat_add_ofNat (k := 40) (by omega)
    rw [isSome_readU64Le, last] at memsz
    exact memsz

/-! ### How the steps end -/

variable {error : ElfError} {refused holds : Bool} {α : Type} {read : Option α}

/-- A refusal is no panic. -/
theorem avoids_refuseIf : Avoids Stop.panic (refuseIf refused error) := by
  cases refused with
  | false => exact .pure ()
  | true => exact .throw (fun same => (nomatch same))

/-- A check that passes lets the loader go on. -/
theorem succeeds_refuseIf (accepted : refused = false) : Succeeds (refuseIf refused error) := by
  subst accepted
  exact .pure ()

/-- Where the loader went on, the check passed. -/
theorem gives_refuseIf {result : Unit} (gives : Gives (refuseIf refused error) result) :
    refused = false := by
  obtain ⟨_, _, done⟩ := gives
  exact (refuseIf_ok.mp done).1

/-- A bound that holds lets the loader go on. -/
theorem succeeds_panicUnless (good : holds = true) : Succeeds (panicUnless holds) := by
  subst good
  exact .pure ()

/-- A bound that fails is a panic. -/
theorem fails_panicUnless (bad : holds = false) : Fails Stop.panic (panicUnless holds) := by
  subst bad
  exact .throw _

/-- A read within the file lets the loader go on. -/
theorem succeeds_orPanic (found : read.isSome) : Succeeds (orPanic read) := by
  obtain ⟨value, rfl⟩ := Option.isSome_iff_exists.mp found
  exact .pure value

/-- A read past the file is a panic. -/
theorem fails_orPanic (missing : ¬ read.isSome) : Fails Stop.panic (orPanic read) := by
  rw [Option.not_isSome_iff_eq_none.mp missing]
  exact .throw _

/-- Where the loader went on, the value is the one read. -/
theorem gives_orPanic {value : α} (gives : Gives (orPanic read) value) : read = some value := by
  obtain ⟨_, _, done⟩ := gives
  exact (orPanic_ok.mp done).1

/-! ### The file header -/

/-- Reading the header never panics: the length is checked first. -/
theorem avoids_parseHeader : Avoids Stop.panic (parseHeader data) := by
  unfold parseHeader
  refine avoids_refuseIf.bind fun _ accepted => ?_
  have long : headerSize ≤ data.bytes.length := by simpa using gives_refuseIf accepted
  have inHeader : ∀ off : U64, off.toNat < headerSize → (data.byte off).isSome :=
    fun off below => isSome_byte.mpr (Nat.lt_of_lt_of_le below long)
  refine avoids_refuseIf.bind fun _ _ => ?_
  refine (succeeds_orPanic (inHeader 4 (by decide))).avoids.bind fun _ _ => ?_
  refine avoids_refuseIf.bind fun _ _ => ?_
  refine (succeeds_orPanic (inHeader 5 (by decide))).avoids.bind fun _ _ => ?_
  refine avoids_refuseIf.bind fun _ _ => ?_
  refine (succeeds_orPanic (isSome_readHeader long)).avoids.bind fun _ _ => ?_
  refine avoids_refuseIf.bind fun _ _ => ?_
  exact avoids_refuseIf.bind fun _ _ => .pure _

/-- A header that was parsed passed all checks. -/
theorem gives_parseHeader (gives : Gives (parseHeader data) header) :
    HeaderAccepted data header := by
  obtain ⟨_, _, done⟩ := gives
  exact (parseHeader_ok done).1

/-- A header that passes all checks is parsed. -/
theorem succeeds_parseHeader (accepted : HeaderAccepted data header) :
    Succeeds (parseHeader data) := by
  unfold parseHeader
  refine (succeeds_refuseIf ?_).bind fun _ _ => ?_
  · simpa using accepted.long
  refine (succeeds_refuseIf ?_).bind fun _ _ => ?_
  · simpa using accepted.magic
  refine (succeeds_orPanic (Option.isSome_of_eq_some accepted.class64)).bind fun class64 gives => ?_
  cases accepted.class64.symm.trans (gives_orPanic gives)
  refine (succeeds_refuseIf ?_).bind fun _ _ => ?_
  · decide
  refine (succeeds_orPanic (Option.isSome_of_eq_some accepted.encoding)).bind
    fun encoding gives => ?_
  cases accepted.encoding.symm.trans (gives_orPanic gives)
  refine (succeeds_refuseIf ?_).bind fun _ _ => ?_
  · decide
  refine (succeeds_orPanic (Option.isSome_of_eq_some accepted.fields)).bind fun fields gives => ?_
  cases accepted.fields.symm.trans (gives_orPanic gives)
  refine (succeeds_refuseIf ?_).bind fun _ _ => ?_
  · simpa [or_iff_not_imp_left] using accepted.type
  refine (succeeds_refuseIf ?_).bind fun _ _ => .pure _
  simpa using accepted.machine

/-! ### The first pass -/

variable {range : U64 × U64}

/-- An entry that was scanned passed the checks of the first pass. -/
theorem gives_scanSegment {result : U64 × U64}
    (gives : Gives (scanSegment data header i range) result) : EntryAccepted data header i := by
  obtain ⟨_, _, done⟩ := gives
  unfold scanSegment at done
  obtain ⟨_, _, step, _⟩ := ok_bind.mp done
  simpa [EntryAccepted] using (refuseIf_ok.mp step).1

/-- An entry within the file that passes the checks is scanned. -/
theorem succeeds_scanSegment (accepted : EntryAccepted data header i)
    (inFile : EntryInFile data header i) : Succeeds (scanSegment data header i range) := by
  unfold scanSegment
  obtain ⟨type, vaddr, memsz⟩ := entryInFile_iff.mp inFile
  refine (succeeds_refuseIf ?_).bind fun _ _ => ?_
  · simpa [EntryAccepted] using accepted
  refine (succeeds_orPanic type).bind fun _ _ => ?_
  refine (succeeds_orPanic vaddr).bind fun _ _ => ?_
  refine (succeeds_orPanic memsz).bind fun _ _ => ?_
  split
  · exact .pure _
  · exact .pure _

/-- The first pass panics at no entry that is within the file once it passes the checks. -/
theorem avoids_scanSegment (inFile : EntryAccepted data header i → EntryInFile data header i) :
    Avoids Stop.panic (scanSegment data header i range) := by
  by_cases accepted : EntryAccepted data header i
  · exact (succeeds_scanSegment accepted (inFile accepted)).avoids
  · unfold scanSegment
    refine avoids_refuseIf.bind fun _ gives => absurd ?_ accepted
    simpa [EntryAccepted] using gives_refuseIf gives

/-- An accepted entry whose fields do not lie in the file makes the pass panic at
the first field that does not. -/
theorem fails_scanSegment (accepted : EntryAccepted data header i)
    (past : ¬ EntryInFile data header i) : Fails Stop.panic (scanSegment data header i range) := by
  unfold scanSegment
  refine (succeeds_refuseIf ?_).bind_fails fun _ _ => ?_
  · simpa [EntryAccepted] using accepted
  by_cases type : (readU32Le data (header.phOff i)).isSome
  · refine (succeeds_orPanic type).bind_fails fun _ _ => ?_
    by_cases vaddr : (readU64Le data (header.phOff i + 16)).isSome
    · refine (succeeds_orPanic vaddr).bind_fails fun _ _ => ?_
      exact (fails_orPanic fun memsz => past (entryInFile_iff.mpr ⟨type, vaddr, memsz⟩)).bind _
    · exact (fails_orPanic vaddr).bind _
  · exact (fails_orPanic type).bind _

/-! ### The second pass -/

/-- Mapping the pages of a segment does not stop the loader here, whatever is answered. -/
theorem succeeds_mapPages (virtBase phys : U64) (flags : U32) (pages : Nat) :
    Succeeds (mapPages platform virtBase phys flags pages) :=
  .foldRange fun _ _ _ => Succeeds.bind (fun _ => ⟨_, _, rfl⟩) fun _ _ => .pure ()

theorem succeeds_mapStack : Succeeds (mapStack platform) :=
  Succeeds.bind (fun _ => ⟨_, _, rfl⟩) fun _ _ => succeeds_mapPages _ _ _ _

/-- The two checks on the slices of a segment. -/
theorem copyable_iff {segment : Elf64ProgramHeader} :
    Copyable data segment ↔ fileEnd data segment - segment.pOffset ≤ segment.pMemsz ∧
      segment.pOffset ≤ fileEnd data segment ∧ fileEnd data segment ≤ data.len := by
  constructor
  · rintro ⟨starts, fits⟩
    refine ⟨fits, starts, ?_⟩
    unfold fileEnd
    split_ifs with cut
    · exact cut
    · exact BitVec.le_refl _
  · rintro ⟨fits, starts, _⟩
    exact ⟨starts, fits⟩

variable {segment : Elf64ProgramHeader}

/-- A request for memory is always answered. -/
theorem succeeds_physAlloc (pages : U64) : Succeeds (physAlloc platform pages) :=
  fun _ => ⟨_, _, rfl⟩

/-- The block is the platform's answer to some request for so many pages. -/
theorem gives_physAlloc {pages phys : U64} (gives : Gives (physAlloc platform pages) phys) :
    ∃ count, phys = platform.physAlloc count pages := by
  obtain ⟨_, _, done⟩ := gives
  cases done
  exact ⟨_, rfl⟩

/-- Writing memory never stops the loader. -/
theorem succeeds_writeMemory (write : (Nat → U8) → Nat → U8) : Succeeds (writeMemory write) :=
  fun _ => ⟨_, _, rfl⟩

/-- A segment that was granted a block asked for some pages. -/
theorem asks_of_granted (answers : AnswersBlocks platform) {phys : U64} {result : Unit}
    (call : Gives (physAlloc platform segment.pages) phys)
    (granted : Gives (refuseIf (phys = 0) .allocFailed) result) : segment.pages ≠ 0 := by
  intro none
  obtain ⟨count, rfl⟩ := gives_physAlloc call
  have notNull := gives_refuseIf granted
  rw [none, answers.none] at notNull
  exact absurd notNull (by decide)

/-- A segment whose bytes can be copied is installed without a panic. -/
theorem avoids_installSegment (answers : AnswersBlocks platform)
    (copyable : segment.pages ≠ 0 → Copyable data segment) :
    Avoids Stop.panic (installSegment platform data loadBase segment) := by
  simp only [installSegment]
  refine (succeeds_physAlloc _).avoids.bind fun phys call => ?_
  refine avoids_refuseIf.bind fun _ granted => ?_
  obtain ⟨fits, starts, inFile⟩ := copyable_iff.mp (copyable (asks_of_granted answers call granted))
  refine (succeeds_panicUnless (decide_eq_true fits)).avoids.bind fun _ _ => ?_
  refine (succeeds_panicUnless (decide_eq_true ⟨starts, inFile⟩)).avoids.bind fun _ _ => ?_
  refine (succeeds_writeMemory _).avoids.bind fun _ _ => ?_
  refine (succeeds_writeMemory _).avoids.bind fun _ _ => ?_
  exact (succeeds_mapPages _ _ _ _).avoids

/-- A load goes on after a PT_LOAD segment only if the segment asks for pages. -/
theorem gives_loadSegment (answers : AnswersBlocks platform) {last result : Unit}
    (gives : Gives (loadSegment platform data header loadBase i last) result)
    (isSegment : IsSegment data header i segment) : segment.pages ≠ 0 := by
  obtain ⟨start, _, done⟩ := gives
  obtain ⟨_, _, read, done⟩ := ok_bind.mp done
  cases (orPanic_ok.mp read).1.symm.trans isSegment.load
  rw [if_pos rfl] at done
  obtain ⟨_, _, read, done⟩ := ok_bind.mp done
  cases (orPanic_ok.mp read).1.symm.trans isSegment.fields
  simp only [installSegment] at done
  obtain ⟨_, _, call, done⟩ := ok_bind.mp done
  obtain ⟨_, _, granted, _⟩ := ok_bind.mp done
  exact asks_of_granted answers ⟨_, _, call⟩ ⟨_, _, granted⟩

/-- An entry within the file is loaded without a panic if its bytes can be copied. -/
theorem avoids_loadSegment (answers : AnswersBlocks platform) {last : Unit}
    (inFile : EntryInFile data header i) (below : i < header.ePhnum.toNat)
    (copyable : ∀ segment, IsSegment data header i segment → segment.pages ≠ 0 →
      Copyable data segment) :
    Avoids Stop.panic (loadSegment platform data header loadBase i last) := by
  unfold loadSegment
  refine (succeeds_orPanic inFile.isSome_type).avoids.bind fun pType typed => ?_
  split
  next load =>
    refine (succeeds_orPanic inFile.isSome_fields).avoids.bind fun segment fields => ?_
    exact avoids_installSegment answers
      (copyable segment ⟨below, load ▸ gives_orPanic typed, gives_orPanic fields⟩)
  next => exact .pure ()

/-! ### A platform that grants every block -/

/-- Every block that fits above the first page is granted there. -/
def grantingPlatform : Platform where
  physAlloc _ pages := if pages ≠ 0 ∧ pages.toNat < 2 ^ 52 then 4096 else 0
  pageTableMap _ := true

/-- The granting platform answers every request with a block. -/
theorem answersBlocks_grantingPlatform : AnswersBlocks grantingPlatform where
  none _ := rfl
  aligned := by
    intro count pages
    change 4096 ∣ (if _ then (4096 : U64) else 0).toNat
    split <;> decide
  fits := by
    intro count pages isBlock
    change (if _ then (4096 : U64) else 0) ≠ 0 at isBlock
    change (if _ then (4096 : U64) else 0).toNat + _ ≤ _
    split at isBlock
    next few =>
      rw [if_pos few]
      change 4096 + pages.toNat * 4096 ≤ 2 ^ 64
      omega
    next => exact absurd rfl isBlock

/-- The block for a segment is granted. -/
theorem granted_segment (asks : segment.pages ≠ 0) {phys : U64}
    (call : Gives (physAlloc grantingPlatform segment.pages) phys) : decide (phys = 0) = false := by
  obtain ⟨count, rfl⟩ := gives_physAlloc call
  have few : segment.pages.toNat < 2 ^ 52 := by
    unfold Elf64ProgramHeader.pages
    rw [BitVec.toNat_udiv]
    exact Nat.div_lt_of_lt_mul (segment.pMemsz + 4095).isLt
  change decide ((if _ then (4096 : U64) else 0) = 0) = false
  rw [if_pos ⟨asks, few⟩]
  decide

/-- The granting platform installs a segment whose bytes can be copied. -/
theorem succeeds_installSegment (asks : segment.pages ≠ 0) (copyable : Copyable data segment) :
    Succeeds (installSegment grantingPlatform data loadBase segment) := by
  simp only [installSegment]
  obtain ⟨fits, starts, inFile⟩ := copyable_iff.mp copyable
  refine (succeeds_physAlloc _).bind fun phys call => ?_
  refine (succeeds_refuseIf (granted_segment asks call)).bind fun _ _ => ?_
  refine (succeeds_panicUnless (decide_eq_true fits)).bind fun _ _ => ?_
  refine (succeeds_panicUnless (decide_eq_true ⟨starts, inFile⟩)).bind fun _ _ => ?_
  refine (succeeds_writeMemory _).bind fun _ _ => ?_
  refine (succeeds_writeMemory _).bind fun _ _ => ?_
  exact succeeds_mapPages _ _ _ _

/-- It panics at one whose bytes cannot. -/
theorem fails_installSegment (asks : segment.pages ≠ 0) (outside : ¬ Copyable data segment) :
    Fails Stop.panic (installSegment grantingPlatform data loadBase segment) := by
  simp only [installSegment]
  refine (succeeds_physAlloc _).bind_fails fun phys call => ?_
  refine (succeeds_refuseIf (granted_segment asks call)).bind_fails fun _ _ => ?_
  by_cases fits : fileEnd data segment - segment.pOffset ≤ segment.pMemsz
  · refine (succeeds_panicUnless (decide_eq_true fits)).bind_fails fun _ _ => ?_
    refine (fails_panicUnless (decide_eq_false fun slice => ?_)).bind _
    exact outside (copyable_iff.mpr ⟨fits, slice⟩)
  · exact (fails_panicUnless (decide_eq_false fits)).bind _

/-- The granting platform loads an entry whose bytes can be copied. -/
theorem succeeds_loadSegment {last : Unit} (inFile : EntryInFile data header i)
    (below : i < header.ePhnum.toNat)
    (loads : ∀ segment, IsSegment data header i segment →
      segment.pages ≠ 0 ∧ Copyable data segment) :
    Succeeds (loadSegment grantingPlatform data header loadBase i last) := by
  unfold loadSegment
  refine (succeeds_orPanic inFile.isSome_type).bind fun pType typed => ?_
  split
  next load =>
    refine (succeeds_orPanic inFile.isSome_fields).bind fun segment fields => ?_
    obtain ⟨asks, copyable⟩ :=
      loads segment ⟨below, load ▸ gives_orPanic typed, gives_orPanic fields⟩
    exact succeeds_installSegment asks copyable
  next => exact .pure ()

/-- It panics at an entry whose bytes cannot. -/
theorem fails_loadSegment {last : Unit} (isSegment : IsSegment data header i segment)
    (asks : segment.pages ≠ 0) (outside : ¬ Copyable data segment) :
    Fails Stop.panic (loadSegment grantingPlatform data header loadBase i last) := by
  unfold loadSegment
  refine (succeeds_orPanic (Option.isSome_of_eq_some isSegment.load)).bind_fails fun _ typed => ?_
  cases isSegment.load.symm.trans (gives_orPanic typed)
  rw [if_pos rfl]
  refine (succeeds_orPanic (Option.isSome_of_eq_some isSegment.fields)).bind_fails
    fun _ fields => ?_
  cases isSegment.fields.symm.trans (gives_orPanic fields)
  exact fails_installSegment asks outside

/-! ### A whole load -/

/-- After the first pass every entry has passed the checks. -/
theorem gives_firstPass {count : Nat} {initial range : U64 × U64}
    (gives : Gives (foldRange (scanSegment data header) initial count) range) :
    ∀ j < count, EntryAccepted data header j := by
  obtain ⟨start, final, done⟩ := gives
  refine foldRange_ok (fun reached _ _ => ∀ j < reached, EntryAccepted data header j)
    (fun _ none => absurd none (Nat.not_lt_zero _)) (fun _ earlier iteration j before => ?_) done
  rcases Nat.lt_succ_iff_lt_or_eq.mp before with below | rfl
  · exact earlier j below
  · exact gives_scanSegment ⟨_, _, iteration⟩

/-- After the second pass every segment asked for at least a page. -/
theorem gives_secondPass (answers : AnswersBlocks platform) {count : Nat} {result : Unit}
    (gives : Gives (foldRange (loadSegment platform data header loadBase) () count) result) :
    ∀ j < count, ∀ segment, IsSegment data header j segment → segment.pages ≠ 0 := by
  obtain ⟨start, final, done⟩ := gives
  refine foldRange_ok
    (fun reached _ _ => ∀ j < reached, ∀ segment, IsSegment data header j segment →
      segment.pages ≠ 0)
    (fun _ none => absurd none (Nat.not_lt_zero _)) (fun _ earlier iteration j before => ?_) done
  rcases Nat.lt_succ_iff_lt_or_eq.mp before with below | rfl
  · exact earlier j below
  · exact fun segment isSegment => gives_loadSegment answers ⟨_, _, iteration⟩ isSegment

/-- **No panic.** Every load of a file that `Survives` ends with a result or an error. -/
theorem never_panics_of_survives (survives : Survives data) : NeverPanics data := by
  intro platform answers
  simp only [loadElf]
  refine avoids_parseHeader.bind fun header parsed => ?_
  obtain ⟨entries, segments⟩ := survives header (gives_parseHeader parsed)
  refine (Avoids.foldRange fun i below range scanned => ?_).bind fun range scanned => ?_
  · refine avoids_scanSegment fun accepted => entries i below fun j before => ?_
    rcases Nat.lt_or_eq_of_le before with earlier | rfl
    · exact gives_firstPass scanned j earlier
    · exact accepted
  · have accepted := gives_firstPass scanned
    refine (Avoids.foldRange fun i below _ loaded => ?_).bind fun _ _ => ?_
    · refine avoids_loadSegment answers
        (entries i below fun j before => accepted j (Nat.lt_of_le_of_lt before below)) below
        fun segment isSegment asks => segments accepted i segment isSegment fun j before => ?_
      rcases Nat.lt_or_eq_of_le before with earlier | rfl
      · exact gives_secondPass answers loaded j earlier
      · intro other isOther
        rw [isOther.unique isSegment]
        exact asks
    · exact succeeds_mapStack.avoids.bind fun _ _ => .pure _

/-- The first pass succeeds as far as the entries are accepted and in the file. -/
theorem succeeds_firstPass {count : Nat} {initial : U64 × U64}
    (accepted : ∀ i < count, EntryAccepted data header i)
    (inFile : ∀ i < count, EntryInFile data header i) :
    Succeeds (foldRange (scanSegment data header) initial count) :=
  .foldRange fun i below _ => succeeds_scanSegment (accepted i below) (inFile i below)

/-- The header parsed is the accepted one. -/
theorem HeaderAccepted.parsed (accepted : HeaderAccepted data header) {parsed : Elf64Header}
    (gives : Gives (parseHeader data) parsed) : parsed = header :=
  Option.some.inj ((gives_parseHeader gives).fields.symm.trans accepted.fields)

/-- A panic of the first pass is a panic of the loader. -/
theorem fails_of_firstPass (accepted : HeaderAccepted data header)
    (fails : Fails Stop.panic
      (foldRange (scanSegment data header) (U64.max, 0) header.ePhnum.toNat)) :
    Fails Stop.panic (loadElf platform data) := by
  simp only [loadElf]
  refine (succeeds_parseHeader accepted).bind_fails fun parsed gives => ?_
  rw [accepted.parsed gives]
  exact fails.bind _

theorem fails_of_secondPass (accepted : HeaderAccepted data header)
    (succeeds : Succeeds (foldRange (scanSegment data header) (U64.max, 0) header.ePhnum.toNat))
    (fails : ∀ loadBase, Fails Stop.panic
      (foldRange (loadSegment platform data header loadBase) () header.ePhnum.toNat)) :
    Fails Stop.panic (loadElf platform data) := by
  simp only [loadElf]
  refine (succeeds_parseHeader accepted).bind_fails fun parsed gives => ?_
  rw [accepted.parsed gives]
  exact succeeds.bind_fails fun range _ => (fails _).bind _

variable (never : NeverPanics data) (accepted : HeaderAccepted data header)
include never accepted

/-- A file without panics passes no check on an entry with a field outside the file:
the first such entry ends the first pass. -/
theorem entryInFile_of_never_panics : ∀ i < header.ePhnum.toNat,
    (∀ j ≤ i, EntryAccepted data header j) → EntryInFile data header i := by
  intro i
  induction i using Nat.strong_induction_on with
  | h i ih =>
      intro below checked
      by_contra past
      have before : Succeeds (foldRange (scanSegment data header) (U64.max, 0) i) :=
        succeeds_firstPass (fun j earlier => checked j (Nat.le_of_lt earlier))
          fun j earlier => ih j earlier (Nat.lt_trans earlier below)
            fun k early => checked k (Nat.le_trans early (Nat.le_of_lt earlier))
      have fails : Fails Stop.panic
          (foldRange (scanSegment data header) (U64.max, 0) header.ePhnum.toNat) :=
        .foldRange before (fun _ => fails_scanSegment (checked i (Nat.le_refl i)) past) below
      exact (fails_of_firstPass accepted fails).not_avoids blankState
        (never _ answersBlocks_grantingPlatform)

/-- A file without panics has no segment that cannot be copied where all segments
so far ask for pages: the first such segment ends the second pass. -/
theorem copyable_of_never_panics
    (checked : ∀ i < header.ePhnum.toNat, EntryAccepted data header i) :
    ∀ i segment, IsSegment data header i segment → AskForPages data header i →
      Copyable data segment := by
  have inFile : ∀ i < header.ePhnum.toNat, EntryInFile data header i :=
    fun i below => entryInFile_of_never_panics never accepted i below
      fun j before => checked j (Nat.lt_of_le_of_lt before below)
  intro i
  induction i using Nat.strong_induction_on with
  | h i ih =>
      intro segment isSegment asks
      by_contra outside
      have before : ∀ loadBase,
          Succeeds (foldRange (loadSegment grantingPlatform data header loadBase) () i) := by
        refine fun loadBase => .foldRange fun j earlier _ => ?_
        have below : j < header.ePhnum.toNat := Nat.lt_trans earlier isSegment.below
        refine succeeds_loadSegment (inFile j below) below fun other isOther => ?_
        exact ⟨asks j (Nat.le_of_lt earlier) other isOther, ih j earlier other isOther
          fun k early => asks k (Nat.le_trans early (Nat.le_of_lt earlier))⟩
      have fails : Fails Stop.panic (loadElf grantingPlatform data) :=
        fails_of_secondPass accepted (succeeds_firstPass checked inFile) fun loadBase =>
          .foldRange (before loadBase)
            (fun _ =>
              fails_loadSegment isSegment (asks i (Nat.le_refl i) segment isSegment) outside)
            isSegment.below
      exact fails.not_avoids blankState
        (never _ answersBlocks_grantingPlatform)

omit never accepted

/-- **The files the loader survives** are those whose accepted program headers lie in
the file and whose segments can be copied. -/
theorem never_panics_iff : NeverPanics data ↔ Survives data := by
  refine ⟨fun never header accepted => ⟨?_, ?_⟩, never_panics_of_survives⟩
  · exact entryInFile_of_never_panics never accepted
  · exact copyable_of_never_panics never accepted

/-! ### A file the loader does not survive -/

/-- A file whose only segment starts past its end. -/
def truncatedFile : Slice where
  bytes :=
    [0x7F, 0x45, 0x4C, 0x46, 2, 1, 1, 0, 0, 0, 0, 0, 0, 0, 0, 0,
      2, 0, 62, 0, 1, 0, 0, 0, 0, 0, 0, 0, 0, 0, 0, 0,
      64, 0, 0, 0, 0, 0, 0, 0, 0, 0, 0, 0, 0, 0, 0, 0,
      0, 0, 0, 0, 64, 0, 56, 0, 1, 0, 0, 0, 0, 0, 0, 0] ++
    [1, 0, 0, 0, 4, 0, 0, 0, 200, 0, 0, 0, 0, 0, 0, 0, 0, 0, 0x40, 0, 0, 0, 0, 0,
      0, 0, 0, 0, 0, 0, 0, 0, 1, 0, 0, 0, 0, 0, 0, 0, 1, 0, 0, 0, 0, 0, 0, 0,
      0, 0, 0, 0, 0, 0, 0, 0]
  short := by simp

/-- A file cut off in its program header table makes the loader panic. -/
theorem panics_on_truncated_file : ¬ NeverPanics truncatedFile := by
  intro never
  have allocates := allocatesBlocks_samplePlatform
  have avoids := never _ ⟨allocates.none, allocates.aligned, allocates.fits⟩
  exact avoids.stopOf_ne blankState (by decide +kernel)

end Lofita.Elf
