import Mathlib.Data.List.Pairwise
import Lofita.Elf.Steps

/-! # The loaded image

The second pass of `load_elf` places every PT_LOAD segment at the start of the block that
`phys_alloc` answers for it (`Layout`). The bytes are then found at their virtual addresses
exactly if no later segment is placed over them and, in blocks that are apart, every segment
starts at a page (`loads_image_iff`).
-/

namespace Lofita.Elf

open Lofita.Foundation Lofita.Foundation.Fallible

/-- The pages that the bytes of a segment occupy. -/
def occupied (loadBase : U64) (segment : Elf64ProgramHeader) : Set Nat :=
  {page | ∃ k < segment.pMemsz.toNat,
    page = virtualPage (loadBase + segment.pVaddr + BitVec.ofNat 64 k)}

/-- The pages of the initial user stack. -/
def stackRegion : Set Nat :=
  {page | ∃ k < stackPages, page = virtualPage (stackVirt + BitVec.ofNat 64 (k * 4096))}

/-- A file whose PT_LOAD segments lie in the file, on pages of their own. -/
structure Loadable (data : Slice) (header : Elf64Header) (loadBase : U64) : Prop where
  filesz : ∀ {i segment}, IsSegment data header i segment →
    segment.pFilesz.toNat ≤ segment.pMemsz.toNat
  inFile : ∀ {i segment}, IsSegment data header i segment →
    segment.pOffset.toNat + segment.pFilesz.toNat ≤ data.bytes.length
  apart : ∀ {i j first second}, i ≠ j → IsSegment data header i first →
    IsSegment data header j second → Disjoint (occupied loadBase first) (occupied loadBase second)
  clear : ∀ {i segment}, IsSegment data header i segment →
    Disjoint (occupied loadBase segment) stackRegion

/-- Every byte of every PT_LOAD segment is found at its virtual address. -/
def ImageCorrect (data : Slice) (header : Elf64Header) (loadBase : U64) (state : LoaderState) :
    Prop :=
  ∀ i segment, IsSegment data header i segment → ∀ k < segment.pMemsz.toNat,
    state.translated (loadBase + segment.pVaddr + BitVec.ofNat 64 k) =
      if k < segment.pFilesz.toNat then data.bytes[segment.pOffset.toNat + k]? else some 0

/-! ### Where the bytes have to be -/

section Places

variable (platform : Platform) (data : Slice) (header : Elf64Header) (number : Nat)

/-- The block that `phys_alloc` answers for a PT_LOAD segment, after as many calls before the
load. -/
def blockOf (i : Nat) (segment : Elf64ProgramHeader) : Nat :=
  (platform.physAlloc (number + callsBefore data header i) segment.pages).toNat

/-- The bytes of a segment, from the start of its block on, cover an address. -/
def Covers (i : Nat) (segment : Elf64ProgramHeader) (addr : Nat) : Prop :=
  blockOf platform data header number i segment ≤ addr ∧
    addr < blockOf platform data header number i segment + segment.pMemsz.toNat

/-- The last segment in the table whose bytes cover an address has this byte there. -/
def Puts (addr : Nat) (byte : U8) : Prop :=
  ∃ i segment, IsSegment data header i segment ∧
    Covers platform data header number i segment addr ∧
    segment.content data (addr - blockOf platform data header number i segment) = byte ∧
    ∀ later other, i < later → IsSegment data header later other →
      ¬ Covers platform data header number later other addr

/-- Where a segment starts at an offset in its page, the page table has its bytes at that offset
from the start of the block. There, inside the block, the segments have to put them. -/
def BytesInPlace : Prop :=
  ∀ i segment, IsSegment data header i segment → ∀ k < segment.pMemsz.toNat,
    segment.pVaddr.toNat % 4096 + k < segment.pages.toNat * 4096 ∧
      Puts platform data header number
        (blockOf platform data header number i segment + (segment.pVaddr.toNat % 4096 + k))
        (segment.content data k)

/-- The blocks answered for different segments do not overlap. -/
def BlocksApart : Prop :=
  ∀ i j first second, i < j → IsSegment data header i first → IsSegment data header j second →
    blockOf platform data header number i first + first.pages.toNat * 4096 ≤
        blockOf platform data header number j second ∨
      blockOf platform data header number j second + second.pages.toNat * 4096 ≤
        blockOf platform data header number i first

/-- Segments whose bytes cover the same address have the same byte there. -/
def BytesAgree : Prop :=
  ∀ i j first second addr, IsSegment data header i first → IsSegment data header j second →
    Covers platform data header number i first addr →
    Covers platform data header number j second addr →
    first.content data (addr - blockOf platform data header number i first) =
      second.content data (addr - blockOf platform data header number j second)

end Places

/-- Every PT_LOAD segment starts at a page. -/
def StartAtPages (data : Slice) (header : Elf64Header) : Prop :=
  ∀ i segment, IsSegment data header i segment → 4096 ∣ segment.pVaddr.toNat

/-! ### Where the segments are placed -/

/-- A segment and the number of the call that allocated its block. -/
structure Placement where
  index : Nat
  segment : Elf64ProgramHeader
  number : Nat

variable {platform : Platform} {data : Slice} {header : Elf64Header} {loadBase : U64}

namespace Placement

/-- The block of a segment. -/
def phys (platform : Platform) (placement : Placement) : U64 :=
  platform.physAlloc placement.number placement.segment.pages

/-- The bytes of a segment, in its block. -/
def bytePatch (platform : Platform) (data : Slice) (placement : Placement) : Patch Nat U8 :=
  placement.segment.bytePatch data (placement.phys platform).toNat

/-- The pages of a segment, mapped to its block. -/
def pagePatch (platform : Platform) (loadBase : U64) (placement : Placement) :
    Patch Nat (Option Nat) :=
  Elf.pagePatch (loadBase + placement.segment.pVaddr) ((placement.phys platform).toNat / 4096)
    placement.segment.pages.toNat

end Placement

/-- The segments among the first program headers are placed, and nothing else has
changed. -/
structure Layout (platform : Platform) (data : Slice) (header : Elf64Header) (loadBase : U64)
    (start : LoaderState) (placements : List Placement) (count : Nat) (state : LoaderState) :
    Prop where
  placed : ∀ placement ∈ placements, placement.index < count ∧
    IsSegment data header placement.index placement.segment ∧
    placement.number = start.calls.length + callsBefore data header placement.index ∧
    placement.phys platform ≠ 0
  all : ∀ {i segment}, i < count → IsSegment data header i segment →
    ∃ placement ∈ placements, placement.index = i ∧ placement.segment = segment
  ordered : placements.Pairwise fun later earlier => earlier.index < later.index
  calls : state.calls.length = start.calls.length + callsBefore data header count
  memory : Overlays start.memory (placements.map (Placement.bytePatch platform data)) state.memory
  pageMap : Overlays start.pageMap (placements.map (Placement.pagePatch platform loadBase))
    state.pageMap

/-- Nothing is placed at first. -/
theorem Layout.initial (start : LoaderState) :
    Layout platform data header loadBase start [] 0 start where
  placed := fun _ member => (nomatch member)
  all := fun below => absurd below (Nat.not_lt_zero _)
  ordered := .nil
  calls := rfl
  memory := .nil
  pageMap := .nil

/-- One iteration of the second pass places one segment at most. -/
theorem Layout.step (allocates : AllocatesBlocks platform)
    (succeeds : ∀ count, platform.pageTableMap count = true)
    (loadable : Loadable data header loadBase) {start before after : LoaderState}
    {placements : List Placement} {count : Nat} {last result : Unit}
    (below : count < header.ePhnum.toNat)
    (layout : Layout platform data header loadBase start placements count before)
    (done : loadSegment platform data header loadBase count last before = .ok result after) :
    ∃ placements, Layout platform data header loadBase start placements (count + 1) after := by
  obtain ⟨pType, _, read, done⟩ := ok_bind.mp done
  obtain ⟨typed, rfl⟩ := orPanic_ok.mp read
  by_cases load : pType = ptLoad
  · rw [if_pos load] at done
    obtain ⟨segment, _, read, done⟩ := ok_bind.mp done
    obtain ⟨fields, rfl⟩ := orPanic_ok.mp read
    have isSegment : IsSegment data header count segment := ⟨below, load ▸ typed, fields⟩
    obtain ⟨isBlock, memory, pageMap, calls⟩ := installSegment_ok allocates succeeds
      (loadable.filesz isSegment) (loadable.inFile isSegment) done
    refine ⟨⟨count, segment, _⟩ :: placements, ?_, ?_, ?_, ?_, .cons layout.memory memory,
      .cons layout.pageMap pageMap⟩
    · intro placement member
      rcases List.mem_cons.mp member with rfl | earlier
      · exact ⟨Nat.lt_succ_self count, isSegment, layout.calls, isBlock⟩
      · obtain ⟨index, rest⟩ := layout.placed placement earlier
        exact ⟨Nat.lt_succ_of_lt index, rest⟩
    · intro i other before isOther
      rcases Nat.lt_succ_iff_lt_or_eq.mp before with earlier | rfl
      · obtain ⟨placement, member, same⟩ := layout.all earlier isOther
        exact ⟨placement, List.mem_cons_of_mem _ member, same⟩
      · exact ⟨_, List.mem_cons_self, rfl, isSegment.unique isOther⟩
    · exact List.pairwise_cons.mpr
        ⟨fun placement member => (layout.placed placement member).1, layout.ordered⟩
    · rw [calls, layout.calls, callsBefore_succ isSegment.segmentAt, Nat.add_assoc]
  · rw [if_neg load] at done
    obtain ⟨_, rfl⟩ := ok_pure.mp done
    have none : segmentAt data header count = none := by
      rw [segmentAt, typed]
      exact if_neg (mt Option.some.inj load)
    refine ⟨placements, ?_, ?_, layout.ordered, ?_, layout.memory, layout.pageMap⟩
    · intro placement member
      obtain ⟨index, rest⟩ := layout.placed placement member
      exact ⟨Nat.lt_succ_of_lt index, rest⟩
    · intro i other before isOther
      rcases Nat.lt_succ_iff_lt_or_eq.mp before with earlier | rfl
      · exact layout.all earlier isOther
      · exact absurd (Option.some.inj (typed.symm.trans isOther.load)) load
    · rw [callsBefore_skip none, layout.calls]

/-! ### A whole load -/

/-- The file passes the checks of the file header, which has these fields. -/
structure HeaderAccepted (data : Slice) (header : Elf64Header) : Prop where
  long : headerSize ≤ data.bytes.length
  magic : data.bytes.take 4 = elfMagic
  class64 : data.byte 4 = some elfClass64
  encoding : data.byte 5 = some elfData2Lsb
  fields : readHeader data = some header
  type : header.eType = etExec ∨ header.eType = etDyn
  machine : header.eMachine = emX86_64

/-- A header that was parsed passed all checks, and changed nothing. -/
theorem parseHeader_ok {start final : LoaderState} {header : Elf64Header}
    (done : parseHeader data start = .ok header final) :
    HeaderAccepted data header ∧ final = start := by
  unfold parseHeader at done
  obtain ⟨_, _, step, done⟩ := ok_bind.mp done
  obtain ⟨long, rfl⟩ := refuseIf_ok.mp step
  obtain ⟨_, _, step, done⟩ := ok_bind.mp done
  obtain ⟨magic, rfl⟩ := refuseIf_ok.mp step
  obtain ⟨_, _, step, done⟩ := ok_bind.mp done
  obtain ⟨byte4, rfl⟩ := orPanic_ok.mp step
  obtain ⟨_, _, step, done⟩ := ok_bind.mp done
  obtain ⟨class64, rfl⟩ := refuseIf_ok.mp step
  obtain ⟨_, _, step, done⟩ := ok_bind.mp done
  obtain ⟨byte5, rfl⟩ := orPanic_ok.mp step
  obtain ⟨_, _, step, done⟩ := ok_bind.mp done
  obtain ⟨encoding, rfl⟩ := refuseIf_ok.mp step
  obtain ⟨_, _, step, done⟩ := ok_bind.mp done
  obtain ⟨fields, rfl⟩ := orPanic_ok.mp step
  obtain ⟨_, _, step, done⟩ := ok_bind.mp done
  obtain ⟨type, rfl⟩ := refuseIf_ok.mp step
  obtain ⟨_, _, step, done⟩ := ok_bind.mp done
  obtain ⟨machine, rfl⟩ := refuseIf_ok.mp step
  obtain ⟨rfl, rfl⟩ := ok_pure.mp done
  simp only [decide_eq_false_iff_not, not_lt] at long
  simp only [decide_eq_false_iff_not, ne_eq, not_not] at magic class64 encoding machine
  simp only [decide_eq_false_iff_not, ne_eq, not_and_or, not_not] at type
  exact ⟨⟨long, magic, class64 ▸ byte4, encoding ▸ byte5, fields, type, machine⟩, rfl⟩

theorem scanSegment_ok {i : Nat} {range range' : U64 × U64} {start final : LoaderState}
    (done : scanSegment data header i range start = .ok range' final) : final = start := by
  unfold scanSegment at done
  obtain ⟨_, _, step, done⟩ := ok_bind.mp done
  obtain ⟨_, rfl⟩ := refuseIf_ok.mp step
  obtain ⟨_, _, step, done⟩ := ok_bind.mp done
  obtain ⟨_, rfl⟩ := orPanic_ok.mp step
  obtain ⟨_, _, step, done⟩ := ok_bind.mp done
  obtain ⟨_, rfl⟩ := orPanic_ok.mp step
  obtain ⟨_, _, step, done⟩ := ok_bind.mp done
  obtain ⟨_, rfl⟩ := orPanic_ok.mp step
  split_ifs at done
  all_goals
    obtain ⟨_, rfl⟩ := ok_pure.mp done
    rfl

/-- The base is on a page boundary. -/
theorem loadBaseOf_aligned (header : Elf64Header) (minVaddr : U64) :
    4096 ∣ (loadBaseOf header minVaddr).toNat := by
  unfold loadBaseOf
  split_ifs <;> decide

/-- The pages mapped for the stack are its pages. -/
theorem stackPatch_subset (frame : Nat) :
    (pagePatch stackVirt frame stackPages).region ⊆ stackRegion := by
  rintro page ⟨small, index⟩
  have below : pageIndex stackVirt page < stackPages := index
  exact ⟨_, below, (eq_virtualPage_iff _ _ small (Nat.lt_trans below (by decide))).mpr rfl⟩

/-- The segments of a file are placed, with the stack above them. -/
structure Loaded (platform : Platform) (data : Slice) (header : Elf64Header) (loadBase : U64)
    (start : LoaderState) (placements : List Placement) (final : LoaderState) : Prop where
  loadable : Loadable data header loadBase
  allocates : AllocatesBlocks platform
  placed : ∀ placement ∈ placements, IsSegment data header placement.index placement.segment ∧
    placement.number = start.calls.length + callsBefore data header placement.index ∧
    placement.phys platform ≠ 0
  all : ∀ {i segment}, IsSegment data header i segment →
    ∃ placement ∈ placements, placement.index = i ∧ placement.segment = segment
  ordered : placements.Pairwise fun later earlier => earlier.index < later.index
  memory : Overlays start.memory (placements.map (Placement.bytePatch platform data)) final.memory
  pageMap : ∃ frame, Overlays start.pageMap
    (pagePatch stackVirt frame stackPages :: placements.map (Placement.pagePatch platform loadBase))
    final.pageMap

/-- **A successful load** places all segments. -/
theorem loadElf_ok (allocates : AllocatesBlocks platform)
    (succeeds : ∀ count, platform.pageTableMap count = true) (read : readHeader data = some header)
    {start final : LoaderState} {process : LoadedProcess}
    (loadable : Loadable data header process.loadBase)
    (done : loadElf platform data start = .ok process final) :
    4096 ∣ process.loadBase.toNat ∧
      ∃ placements, Loaded platform data header process.loadBase start placements final := by
  simp only [loadElf] at done
  obtain ⟨parsed, _, step, passes⟩ := ok_bind.mp done
  obtain ⟨accepted, rfl⟩ := parseHeader_ok step
  cases accepted.fields.symm.trans read
  obtain ⟨range, middle, scan, secondPass⟩ := ok_bind.mp passes
  have scanned : middle = _ := foldRange_ok (fun _ _ state => state = _) rfl
    (fun _ same iteration => (scanSegment_ok iteration).trans same) scan
  rw [scanned] at secondPass
  obtain ⟨_, placedState, segments, stackPass⟩ := ok_bind.mp secondPass
  obtain ⟨_, _, stack, last⟩ := ok_bind.mp stackPass
  obtain ⟨rfl, rfl⟩ := ok_pure.mp last
  have isLoadable : Loadable data header (loadBaseOf header range.1) := loadable
  refine ⟨loadBaseOf_aligned _ _, ?_⟩
  obtain ⟨placements, layout⟩ := foldRange_ok
    (fun count _ state => ∃ placements,
      Layout platform data header (loadBaseOf header range.1) _ placements count state)
    ⟨[], .initial _⟩
    (fun below reached iteration => by
      obtain ⟨_, layout⟩ := reached
      exact layout.step allocates succeeds isLoadable below iteration)
    segments
  obtain ⟨stackPhys, _, call, stack⟩ := ok_bind.mp stack
  cases call
  have fits : (platform.physAlloc placedState.calls.length (BitVec.ofNat 64 stackPages)).toNat +
      stackPages * 4096 ≤ 2 ^ 64 := by
    by_cases null : platform.physAlloc placedState.calls.length (BitVec.ofNat 64 stackPages) = 0
    · rw [null]
      decide
    · exact allocates.fits _ _ null
  obtain ⟨mapped, memory, _⟩ := mapPages_ok succeeds (allocates.aligned _ _) (by decide) fits stack
  exact ⟨placements, {
    loadable, allocates
    placed := fun placement member => (layout.placed placement member).2
    all := fun isSegment => layout.all isSegment.below isSegment
    ordered := layout.ordered
    memory := memory ▸ layout.memory
    pageMap := ⟨_, .cons layout.pageMap mapped⟩ }⟩

/-- The base does not move an address within its page. -/
theorem add_mod_page (baseAligned : 4096 ∣ loadBase.toNat) (vaddr : U64) :
    (loadBase + vaddr).toNat % 4096 = vaddr.toNat % 4096 := by
  rw [BitVec.toNat_add]
  omega

/-- A byte differs from the next one. -/
theorem add_one_ne (byte : U8) : byte + 1 ≠ byte := by
  revert byte
  decide

/-- The byte a segment that lies in the file has at an offset. -/
theorem some_content {segment : Elf64ProgramHeader}
    (inFile : segment.pOffset.toNat + segment.pFilesz.toNat ≤ data.bytes.length) (k : Nat) :
    some (segment.content data k) =
      if k < segment.pFilesz.toNat then data.bytes[segment.pOffset.toNat + k]? else some 0 := by
  unfold Elf64ProgramHeader.content
  split_ifs with below
  · rw [List.getD_eq_getElem?_getD, List.getElem?_eq_getElem (by omega), Option.getD_some]
  · rfl

namespace Loaded

variable {start final : LoaderState} {placements : List Placement}
  (loaded : Loaded platform data header loadBase start placements final)

include loaded

/-- The size of the block of a segment. -/
theorem bounds {placement : Placement} (member : placement ∈ placements) :
    0 < placement.segment.pMemsz.toNat ∧
      placement.segment.pMemsz.toNat ≤ placement.segment.pages.toNat * 4096 ∧
      placement.segment.pages.toNat * 4096 < placement.segment.pMemsz.toNat + 4096 ∧
      placement.segment.pages.toNat < 2 ^ 52 := by
  apply Elf64ProgramHeader.pages_bounds
  intro none
  apply (loaded.placed placement member).2.2
  unfold Placement.phys
  rw [none]
  exact loaded.allocates.none _

/-- The pages mapped for a segment are among those it occupies. -/
theorem pagePatch_subset {placement : Placement} (member : placement ∈ placements) :
    (placement.pagePatch platform loadBase).region ⊆ occupied loadBase placement.segment := by
  rintro page ⟨small, index⟩
  obtain ⟨_, _, tight, few⟩ := loaded.bounds member
  have below : pageIndex (loadBase + placement.segment.pVaddr) page <
      placement.segment.pages.toNat := index
  generalize counted : pageIndex (loadBase + placement.segment.pVaddr) page = pageI at below
  have isPage := (eq_virtualPage_iff (loadBase + placement.segment.pVaddr) pageI small
    (Nat.lt_of_lt_of_le below (Nat.le_sub_one_of_lt few))).mpr counted
  have whole : pageI * 4096 + 4096 ≤ placement.segment.pages.toNat * 4096 :=
    Nat.succ_mul pageI 4096 ▸ Nat.mul_le_mul_right 4096 (Nat.succ_le_of_lt below)
  exact ⟨pageI * 4096, Nat.lt_of_add_lt_add_right (Nat.lt_of_le_of_lt whole tight), isPage⟩

/-- The pages of the stack and of the segments are apart. -/
theorem disjoint_pages (frame : Nat) :
    (pagePatch stackVirt frame stackPages ::
        placements.map (Placement.pagePatch platform loadBase)).Pairwise
      fun later earlier => Disjoint later.region earlier.region := by
  refine List.pairwise_cons.mpr ⟨?_, List.pairwise_map.mpr (loaded.ordered.imp_of_mem ?_)⟩
  · intro patch isPatch
    obtain ⟨placement, member, rfl⟩ := List.mem_map.mp isPatch
    have clear := loaded.loadable.clear (loaded.placed placement member).1
    exact (clear.mono (loaded.pagePatch_subset member) (stackPatch_subset frame)).symm
  · intro later earlier isLater isEarlier before
    exact (loaded.loadable.apart (Nat.ne_of_gt before) (loaded.placed later isLater).1
      (loaded.placed earlier isEarlier).1).mono (loaded.pagePatch_subset isLater)
        (loaded.pagePatch_subset isEarlier)

/-- A placement is at the block that is answered for its segment. -/
theorem phys_eq {placement : Placement} (member : placement ∈ placements) :
    (placement.phys platform).toNat =
      blockOf platform data header start.calls.length placement.index placement.segment := by
  rw [Placement.phys, (loaded.placed placement member).2.1]
  rfl

/-- The bytes of a placed segment are those it covers. -/
theorem mem_region {placement : Placement} (member : placement ∈ placements) {addr : Nat} :
    addr ∈ (placement.bytePatch platform data).region ↔
      Covers platform data header start.calls.length placement.index placement.segment addr := by
  unfold Covers
  rw [← loaded.phys_eq member]
  exact Iff.rfl

/-- The byte that is put at an address is there in the end. -/
theorem memory_of_puts {addr : Nat} {byte : U8}
    (puts : Puts platform data header start.calls.length addr byte) :
    final.memory addr = byte := by
  obtain ⟨i, segment, isSegment, covers, content, last⟩ := puts
  obtain ⟨placement, member, rfl, rfl⟩ := loaded.all isSegment
  obtain ⟨newer, older, split⟩ := List.append_of_mem member
  have memory := loaded.memory
  have ordered := loaded.ordered
  rw [split] at memory ordered
  rw [List.map_append, List.map_cons] at memory
  rw [memory.eq_latest ?_ ((loaded.mem_region member).mpr covers), ← content,
    ← loaded.phys_eq member]
  · rfl
  · intro patch isPatch
    obtain ⟨later, isLater, rfl⟩ := List.mem_map.mp isPatch
    have laterMember : later ∈ placements := split ▸ List.mem_append_left _ isLater
    have after := (List.pairwise_append.mp ordered).2.2 later isLater placement
      List.mem_cons_self
    exact mt (loaded.mem_region laterMember).mp
      (last _ _ after (loaded.placed later laterMember).1)

/-- An address that some segment covers has the byte that is put there. -/
theorem puts_memory {addr : Nat} {i : Nat} {segment : Elf64ProgramHeader}
    (isSegment : IsSegment data header i segment)
    (covers : Covers platform data header start.calls.length i segment addr) :
    Puts platform data header start.calls.length addr (final.memory addr) := by
  classical
  obtain ⟨placement, member, rfl, rfl⟩ := loaded.all isSegment
  -- of the placements that cover the address, the first one in the list is the latest
  let covering := placements.filter fun placement =>
    decide (Covers platform data header start.calls.length placement.index placement.segment addr)
  have isCovering : placement ∈ covering := List.mem_filter.mpr ⟨member, decide_eq_true covers⟩
  have ordered : covering.Pairwise fun later earlier => earlier.index < later.index :=
    loaded.ordered.filter _
  rcases found : covering with _ | ⟨latest, rest⟩
  · rw [found] at isCovering
    cases isCovering
  · have isLatest : latest ∈ covering := found ▸ List.mem_cons_self
    obtain ⟨latestMember, latestCovers⟩ := List.mem_filter.mp isLatest
    have puts : Puts platform data header start.calls.length addr
        (latest.segment.content data (addr -
          blockOf platform data header start.calls.length latest.index latest.segment)) := by
      refine ⟨_, _, (loaded.placed latest latestMember).1, of_decide_eq_true latestCovers, rfl, ?_⟩
      intro later other after isOther otherCovers
      obtain ⟨newer, newerMember, rfl, rfl⟩ := loaded.all isOther
      have newerCovering : newer ∈ covering :=
        List.mem_filter.mpr ⟨newerMember, decide_eq_true otherCovers⟩
      rw [found] at newerCovering ordered
      rcases List.mem_cons.mp newerCovering with rfl | earlier
      · exact absurd after (Nat.lt_irrefl _)
      · exact absurd after (Nat.lt_asymm ((List.pairwise_cons.mp ordered).1 newer earlier))
    rwa [loaded.memory_of_puts puts]

/-- An address that no segment covers is as before. -/
theorem memory_uncovered {addr : Nat} (uncovered : ∀ i segment, IsSegment data header i segment →
      ¬ Covers platform data header start.calls.length i segment addr) :
    final.memory addr = start.memory addr := by
  apply loaded.memory.eq_outside
  intro patch isPatch
  obtain ⟨placement, member, rfl⟩ := List.mem_map.mp isPatch
  exact mt (loaded.mem_region member).mp (uncovered _ _ (loaded.placed placement member).1)

/-- Where a byte of a mapped page is found. -/
theorem translated {placement : Placement} (member : placement ∈ placements) {k : Nat}
    (below : k < placement.segment.pMemsz.toNat)
    (mapped : ((loadBase + placement.segment.pVaddr).toNat % 4096 + k) / 4096 <
      placement.segment.pages.toNat) :
    final.translated (loadBase + placement.segment.pVaddr + BitVec.ofNat 64 k) =
      some (final.memory ((placement.phys platform).toNat +
        ((loadBase + placement.segment.pVaddr).toNat % 4096 + k))) := by
  obtain ⟨_, size, _, few⟩ := loaded.bounds member
  have aligned : 4096 ∣ (placement.phys platform).toNat := loaded.allocates.aligned _ _
  have index := pageIndex_add (loadBase + placement.segment.pVaddr) (k := k) (by omega)
  obtain ⟨frame, overlays⟩ := loaded.pageMap
  have covered : virtualPage (loadBase + placement.segment.pVaddr + BitVec.ofNat 64 k) ∈
      (placement.pagePatch platform loadBase).region := by
    refine ⟨virtualPage_lt _, ?_⟩
    rw [index]
    exact mapped
  have found := overlays.eqOn (loaded.disjoint_pages frame)
    (List.mem_cons_of_mem _ (List.mem_map_of_mem member)) covered
  unfold LoaderState.translated
  rw [found]
  change some (final.memory (((placement.phys platform).toNat / 4096 +
    pageIndex _ (virtualPage _)) * 4096 + _)) = _
  have offset : (loadBase + placement.segment.pVaddr + BitVec.ofNat 64 k).toNat % 4096 =
      ((loadBase + placement.segment.pVaddr).toNat % 4096 + k) % 4096 := by
    rw [BitVec.toNat_add, BitVec.toNat_ofNat]
    omega
  rw [index, offset]
  congr 2
  omega

/-- A page of a segment beyond those mapped for it is as before. -/
theorem unmapped {placement : Placement} (member : placement ∈ placements) {k : Nat}
    (below : k < placement.segment.pMemsz.toNat)
    (beyond : placement.segment.pages.toNat ≤
      ((loadBase + placement.segment.pVaddr).toNat % 4096 + k) / 4096) :
    final.pageMap (virtualPage (loadBase + placement.segment.pVaddr + BitVec.ofNat 64 k)) =
      start.pageMap
        (virtualPage (loadBase + placement.segment.pVaddr + BitVec.ofNat 64 k)) := by
  obtain ⟨_, size, _, few⟩ := loaded.bounds member
  have index := pageIndex_add (loadBase + placement.segment.pVaddr) (k := k) (by omega)
  have isOccupied : virtualPage (loadBase + placement.segment.pVaddr + BitVec.ofNat 64 k) ∈
      occupied loadBase placement.segment := ⟨k, below, rfl⟩
  obtain ⟨frame, overlays⟩ := loaded.pageMap
  apply overlays.eq_outside
  intro patch isPatch covered
  rcases List.mem_cons.mp isPatch with rfl | isMapped
  · have clear := loaded.loadable.clear (loaded.placed placement member).1
    exact Set.disjoint_left.mp clear isOccupied (stackPatch_subset frame covered)
  · obtain ⟨other, isOther, rfl⟩ := List.mem_map.mp isMapped
    by_cases same : placement.index = other.index
    · have segment := (loaded.placed other isOther).1
      rw [← same] at segment
      have mapped : pageIndex (loadBase + other.segment.pVaddr) _ < other.segment.pages.toNat :=
        covered.2
      rw [segment.unique (loaded.placed placement member).1, index] at mapped
      exact absurd mapped (Nat.not_lt.mpr beyond)
    · have disjoint := loaded.loadable.apart same
        (loaded.placed placement member).1 (loaded.placed other isOther).1
      exact Set.disjoint_left.mp disjoint isOccupied (loaded.pagePatch_subset isOther covered)

/-- Bytes that are put where they have to be are found. -/
theorem imageCorrect (baseAligned : 4096 ∣ loadBase.toNat)
    (inPlace : BytesInPlace platform data header start.calls.length) :
    ImageCorrect data header loadBase final := by
  intro i segment isSegment k below
  obtain ⟨inBlock, puts⟩ := inPlace i segment isSegment k below
  obtain ⟨placement, member, rfl, rfl⟩ := loaded.all isSegment
  have offset := add_mod_page baseAligned placement.segment.pVaddr
  rw [loaded.translated member below (by rw [offset]; omega), offset, loaded.phys_eq member,
    loaded.memory_of_puts puts]
  exact some_content (loaded.loadable.inFile isSegment) k

/-- A byte that is not put where it has to be is not found, from a memory without it and a page
map without a page. -/
theorem puts_of_found (baseAligned : 4096 ∣ loadBase.toNat) {i : Nat}
    {segment : Elf64ProgramHeader} (isSegment : IsSegment data header i segment) {k : Nat}
    (below : k < segment.pMemsz.toNat) {byte : U8} (different : byte ≠ segment.content data k)
    (memory : ∀ addr, start.memory addr = byte) (pageMap : ∀ page, start.pageMap page = none)
    (found : final.translated (loadBase + segment.pVaddr + BitVec.ofNat 64 k) =
      some (segment.content data k)) :
    segment.pVaddr.toNat % 4096 + k < segment.pages.toNat * 4096 ∧
      Puts platform data header start.calls.length
        (blockOf platform data header start.calls.length i segment +
          (segment.pVaddr.toNat % 4096 + k))
        (segment.content data k) := by
  obtain ⟨placement, member, rfl, rfl⟩ := loaded.all isSegment
  have offset := add_mod_page baseAligned placement.segment.pVaddr
  have inBlock : placement.segment.pVaddr.toNat % 4096 + k <
      placement.segment.pages.toNat * 4096 := by
    by_contra beyond
    have isUnmapped := loaded.unmapped member below (by rw [offset]; omega)
    unfold LoaderState.translated at found
    rw [isUnmapped, pageMap] at found
    cases found
  rw [loaded.translated member below (by rw [offset]; omega), offset,
    loaded.phys_eq member] at found
  have there := Option.some.inj found
  refine ⟨inBlock, ?_⟩
  by_cases covered : ∃ i segment, IsSegment data header i segment ∧
      Covers platform data header start.calls.length i segment
        (blockOf platform data header start.calls.length placement.index placement.segment +
          (placement.segment.pVaddr.toNat % 4096 + k))
  · obtain ⟨_, _, isOther, covers⟩ := covered
    have puts := loaded.puts_memory isOther covers
    rwa [there] at puts
  · rw [loaded.memory_uncovered fun i segment isSegment covers =>
      covered ⟨i, segment, isSegment, covers⟩, memory] at there
    exact absurd there different

end Loaded

/-! ### Which bytes are in place -/

section Readings

variable {number : Nat}

/-- Only the last segment that covers an address puts a byte there. -/
theorem Puts.unique {addr : Nat} {byte other : U8}
    (puts : Puts platform data header number addr byte)
    (putsToo : Puts platform data header number addr other) : byte = other := by
  obtain ⟨i, first, isFirst, coversFirst, rfl, lastFirst⟩ := puts
  obtain ⟨j, second, isSecond, coversSecond, rfl, lastSecond⟩ := putsToo
  rcases Nat.lt_trichotomy i j with before | rfl | after
  · exact absurd coversSecond (lastFirst j second before isSecond)
  · rw [isFirst.unique isSecond]
  · exact absurd coversFirst (lastSecond i first after isFirst)

/-- The blocks of the segments hold their bytes, with less than a page to spare. -/
def Sized (data : Slice) (header : Elf64Header) : Prop :=
  ∀ i segment, IsSegment data header i segment → 0 < segment.pMemsz.toNat ∧
    segment.pMemsz.toNat ≤ segment.pages.toNat * 4096

/-- In blocks that are apart an address of one block is covered by its own segment at most. -/
theorem BlocksApart.eq (apart : BlocksApart platform data header number)
    (sized : Sized data header) {i j addr : Nat} {first second : Elf64ProgramHeader}
    (isFirst : IsSegment data header i first) (isSecond : IsSegment data header j second)
    (above : blockOf platform data header number i first ≤ addr)
    (below : addr < blockOf platform data header number i first + first.pages.toNat * 4096)
    (covers : Covers platform data header number j second addr) : i = j := by
  have size := (sized j second isSecond).2
  obtain ⟨start, finish⟩ := covers
  by_contra different
  rcases Nat.lt_or_gt_of_ne different with before | after
  · have blocks := apart i j first second before isFirst isSecond
    omega
  · have blocks := apart j i second first after isSecond isFirst
    omega

/-- In blocks that are apart nothing can be found behind the bytes of a segment. -/
theorem bytesInPlace_of_apart (sized : Sized data header)
    (apart : BlocksApart platform data header number) :
    BytesInPlace platform data header number ↔ StartAtPages data header := by
  constructor
  · intro inPlace i segment isSegment
    by_contra misaligned
    have positive := (sized i segment isSegment).1
    have offset : segment.pVaddr.toNat % 4096 ≠ 0 := fun zero =>
      misaligned (Nat.dvd_of_mod_eq_zero zero)
    -- the last byte has to be behind the bytes in the block
    obtain ⟨inBlock, j, other, isOther, covers, -, -⟩ :=
      inPlace i segment isSegment (segment.pMemsz.toNat - 1) (Nat.sub_lt positive Nat.one_pos)
    have same := apart.eq sized isSegment isOther (Nat.le_add_right _ _)
      (Nat.add_lt_add_left inBlock _) covers
    subst same
    rw [isOther.unique isSegment] at covers
    have below := covers.2
    omega
  · intro aligned i segment isSegment k below
    have size := (sized i segment isSegment).2
    rw [Nat.mod_eq_zero_of_dvd (aligned i segment isSegment), Nat.zero_add]
    refine ⟨Nat.lt_of_lt_of_le below size, i, segment, isSegment,
      ⟨Nat.le_add_right _ _, Nat.add_lt_add_left below _⟩, ?_, ?_⟩
    · rw [Nat.add_sub_cancel_left]
    · intro later other after isOther covers
      have same := apart.eq sized isSegment isOther (Nat.le_add_right _ k) (by omega) covers
      exact absurd same (Nat.ne_of_lt after)

/-- Bytes of segments that start at a page are in place if no other byte is put over them. -/
theorem bytesInPlace_of_aligned (sized : Sized data header)
    (puts : ∀ i segment addr, IsSegment data header i segment →
      Covers platform data header number i segment addr →
      ∃ byte, Puts platform data header number addr byte)
    (aligned : StartAtPages data header) :
    BytesInPlace platform data header number ↔ BytesAgree platform data header number := by
  have atStart {i : Nat} {segment : Elf64ProgramHeader}
      (isSegment : IsSegment data header i segment) : segment.pVaddr.toNat % 4096 = 0 :=
    Nat.mod_eq_zero_of_dvd (aligned i segment isSegment)
  constructor
  · intro inPlace
    have own {i addr : Nat} {segment : Elf64ProgramHeader}
        (isSegment : IsSegment data header i segment)
        (covers : Covers platform data header number i segment addr) :
        Puts platform data header number addr
          (segment.content data (addr - blockOf platform data header number i segment)) := by
      have putsOwn := (inPlace i segment isSegment
        (addr - blockOf platform data header number i segment) (by
          have below := covers.2
          have above := covers.1
          omega)).2
      rwa [atStart isSegment, Nat.zero_add, Nat.add_sub_cancel' covers.1] at putsOwn
    intro i j first second addr isFirst isSecond coversFirst coversSecond
    exact (own isFirst coversFirst).unique (own isSecond coversSecond)
  · intro agree i segment isSegment k below
    have covers : Covers platform data header number i segment
        (blockOf platform data header number i segment + k) :=
      ⟨Nat.le_add_right _ _, Nat.add_lt_add_left below _⟩
    rw [atStart isSegment, Nat.zero_add]
    refine ⟨Nat.lt_of_lt_of_le below (sized i segment isSegment).2, ?_⟩
    obtain ⟨byte, j, other, isOther, coversToo, content, last⟩ := puts i segment _ isSegment covers
    have same := agree i j segment other _ isSegment isOther covers coversToo
    rw [Nat.add_sub_cancel_left] at same
    exact ⟨j, other, isOther, coversToo, same.symm, last⟩

end Readings

/-- **Loaded image.** The image of a file is right from every memory and page map exactly if the
last segment that is placed over the place of a byte has that byte. In blocks that are apart this
says that every PT_LOAD segment starts at a page, and of segments that start at a page it says
that they agree where they cover the same address. -/
theorem loads_image_iff (allocates : AllocatesBlocks platform)
    (succeeds : ∀ count, platform.pageTableMap count = true) (read : readHeader data = some header)
    {start final : LoaderState} {process : LoadedProcess}
    (done : loadElf platform data start = .ok process final)
    (loadable : Loadable data header process.loadBase) :
    ((∀ memory pageMap after,
        loadElf platform data { start with memory, pageMap } = .ok process after →
        ImageCorrect data header process.loadBase after) ↔
      BytesInPlace platform data header start.calls.length) ∧
    (BlocksApart platform data header start.calls.length →
      (BytesInPlace platform data header start.calls.length ↔ StartAtPages data header)) ∧
    (StartAtPages data header →
      (BytesInPlace platform data header start.calls.length ↔
        BytesAgree platform data header start.calls.length)) := by
  obtain ⟨_, _, loaded⟩ := loadElf_ok allocates succeeds read loadable done
  have sized : Sized data header := by
    intro i segment isSegment
    obtain ⟨placement, member, rfl, rfl⟩ := loaded.all isSegment
    exact ⟨(loaded.bounds member).1, (loaded.bounds member).2.1⟩
  refine ⟨⟨?_, ?_⟩, bytesInPlace_of_apart sized, bytesInPlace_of_aligned sized
    fun i segment addr isSegment covers => ⟨_, loaded.puts_memory isSegment covers⟩⟩
  · intro correct i segment isSegment k below
    -- from a memory that is full of another byte
    let wrong : U8 := segment.content data k + 1
    have sameCalls : callsOf start = callsOf
        { start with memory := fun _ => wrong, pageMap := fun _ => none } := rfl
    obtain ⟨after, doneToo, _⟩ := respects_loadElf.ok sameCalls done
    obtain ⟨baseAligned, _, loaded⟩ := loadElf_ok allocates succeeds read loadable doneToo
    have found := correct _ _ after doneToo _ _ isSegment k below
    rw [← some_content (loadable.inFile isSegment)] at found
    exact loaded.puts_of_found baseAligned isSegment below (add_one_ne _) (fun _ => rfl)
      (fun _ => rfl) found
  · intro inPlace memory pageMap after doneToo
    obtain ⟨baseAligned, _, loaded⟩ := loadElf_ok allocates succeeds read loadable doneToo
    exact loaded.imageCorrect baseAligned inPlace

/-! ### Samples -/

/-- Blocks of sixteen pages from 1 MB on. -/
def samplePlatform : Platform where
  physAlloc count pages :=
    if pages ≠ 0 ∧ pages ≤ 16 ∧ count < 1000 then BitVec.ofNat 64 (0x10_0000 + count * 0x1_0000)
    else 0
  pageTableMap _ := true

/-- The blocks of the sample allocator lie 64 KB apart. -/
theorem toNat_samplePlatform {count : Nat} {pages : U64}
    (isBlock : samplePlatform.physAlloc count pages ≠ 0) :
    pages.toNat ≤ 16 ∧
      (samplePlatform.physAlloc count pages).toNat = 0x10_0000 + count * 0x1_0000 ∧
      count < 1000 := by
  unfold samplePlatform at isBlock ⊢
  simp only at isBlock ⊢
  split_ifs at isBlock ⊢ with granted
  · obtain ⟨_, few, early⟩ := granted
    refine ⟨few, ?_, early⟩
    rw [BitVec.toNat_ofNat]
    omega
  · exact absurd rfl isBlock

/-- They are blocks of pages. -/
theorem allocatesBlocks_samplePlatform : AllocatesBlocks samplePlatform where
  none _ := rfl
  aligned := by
    intro count pages
    by_cases null : samplePlatform.physAlloc count pages = 0
    · rw [null]
      decide
    · rw [(toNat_samplePlatform null).2.1]
      omega
  fits := by
    intro count pages isBlock
    obtain ⟨_, start, _⟩ := toNat_samplePlatform isBlock
    omega

/-- A file with one segment of one byte, 4 MB up and at an offset in its page. -/
def sampleFile (offset : U8) : Slice where
  bytes :=
    [0x7F, 0x45, 0x4C, 0x46, 2, 1, 1, 0, 0, 0, 0, 0, 0, 0, 0, 0,
      2, 0, 62, 0, 1, 0, 0, 0, 0, 0, 0, 0, 0, 0, 0, 0,
      64, 0, 0, 0, 0, 0, 0, 0, 0, 0, 0, 0, 0, 0, 0, 0,
      0, 0, 0, 0, 64, 0, 56, 0, 1, 0, 0, 0, 0, 0, 0, 0] ++
    [1, 0, 0, 0, 4, 0, 0, 0, 120, 0, 0, 0, 0, 0, 0, 0, offset, 0, 0x40, 0, 0, 0, 0, 0,
      0, 0, 0, 0, 0, 0, 0, 0, 1, 0, 0, 0, 0, 0, 0, 0, 1, 0, 0, 0, 0, 0, 0, 0,
      0, 0, 0, 0, 0, 0, 0, 0] ++
    [0xAA]
  short := by simp

/-- The header of the sample file. -/
def sampleHeader : Elf64Header where
  eType := etExec
  eMachine := emX86_64
  eEntry := 0
  ePhoff := 64
  ePhentsize := 56
  ePhnum := 1

def sampleSegment (offset : U8) : Elf64ProgramHeader where
  pFlags := 4
  pOffset := 120
  pVaddr := 0x40_0000 + offset.setWidth 64
  pFilesz := 1
  pMemsz := 1

/-- The process it is loaded as. -/
def sampleProcess : LoadedProcess where
  entryPoint := 0
  loadBase := 0
  initialRsp := 0x7FFF_EFF8

/-- The state before any call. -/
def blankState : LoaderState := ⟨fun _ => 0, fun _ => none, []⟩

/-- The sample file has one segment. -/
theorem isSegment_sampleFile {offset : U8}
    (fields : readProgramHeader (sampleFile offset) 64 = some (sampleSegment offset)) {i : Nat}
    {segment : Elf64ProgramHeader}
    (isSegment : IsSegment (sampleFile offset) sampleHeader i segment) :
    i = 0 ∧ segment = sampleSegment offset := by
  have first : i = 0 := Nat.lt_one_iff.mp isSegment.below
  subst first
  exact ⟨rfl, Option.some.inj (isSegment.fields.symm.trans fields)⟩

/-- It meets the conditions of a loadable file. -/
theorem loadable_sampleFile {offset : U8}
    (fields : readProgramHeader (sampleFile offset) 64 = some (sampleSegment offset))
    (page : virtualPage (0 + (sampleSegment offset).pVaddr + BitVec.ofNat 64 0) = 0x400) :
    Loadable (sampleFile offset) sampleHeader 0 where
  filesz := by
    intro i segment isSegment
    rw [(isSegment_sampleFile fields isSegment).2]
    exact Nat.le_refl 1
  inFile := by
    intro i segment isSegment
    rw [(isSegment_sampleFile fields isSegment).2]
    exact Nat.le_refl 121
  apart := by
    intro i j first second different isFirst isSecond
    exact absurd ((isSegment_sampleFile fields isFirst).1.trans
      (isSegment_sampleFile fields isSecond).1.symm) different
  clear := by
    intro i segment isSegment
    rw [(isSegment_sampleFile fields isSegment).2, Set.disjoint_left]
    rintro _ ⟨k, below, rfl⟩ ⟨j, few, same⟩
    have only : k = 0 := Nat.lt_one_iff.mp below
    rw [only, page] at same
    revert same few
    revert j
    decide

theorem loads_image_iff_sample :
    ((∀ memory pageMap after,
        loadElf samplePlatform (sampleFile 0) { blankState with memory, pageMap } =
          .ok sampleProcess after →
        ImageCorrect (sampleFile 0) sampleHeader 0 after) ↔
      BytesInPlace samplePlatform (sampleFile 0) sampleHeader 0) ∧
    (BlocksApart samplePlatform (sampleFile 0) sampleHeader 0 →
      (BytesInPlace samplePlatform (sampleFile 0) sampleHeader 0 ↔
        StartAtPages (sampleFile 0) sampleHeader)) ∧
    (StartAtPages (sampleFile 0) sampleHeader →
      (BytesInPlace samplePlatform (sampleFile 0) sampleHeader 0 ↔
        BytesAgree samplePlatform (sampleFile 0) sampleHeader 0)) := by
  have ran : readOk (fun process _ => process)
      (loadElf samplePlatform (sampleFile 0) blankState) = some sampleProcess := by decide +kernel
  obtain ⟨_, _, done, rfl⟩ := ok_of_readOk ran
  exact loads_image_iff allocatesBlocks_samplePlatform (fun _ => rfl) rfl done
    (loadable_sampleFile rfl (by decide))

/-- The byte of a segment at offset 16 of its page is found at offset 0. -/
theorem misplaces_unaligned_segment :
    readHeader (sampleFile 16) = some sampleHeader ∧ Loadable (sampleFile 16) sampleHeader 0 ∧
      ∃ final, loadElf samplePlatform (sampleFile 16) blankState = .ok sampleProcess final ∧
        ¬ ImageCorrect (sampleFile 16) sampleHeader 0 final := by
  have ran : readOk (fun process final => (process, final.translated 0x40_0010))
      (loadElf samplePlatform (sampleFile 16) blankState) = some (sampleProcess, some 0) := by
    decide +kernel
  obtain ⟨process, final, done, same⟩ := ok_of_readOk ran
  obtain ⟨rfl, translated⟩ := Prod.mk.inj same
  refine ⟨rfl, loadable_sampleFile rfl (by decide), final, done, fun correct => ?_⟩
  have isSegment : IsSegment (sampleFile 16) sampleHeader 0 (sampleSegment 16) :=
    ⟨by decide, rfl, rfl⟩
  have found : final.translated 0x40_0010 = some 0xAA := correct 0 _ isSegment 0 (by decide)
  exact absurd (translated.symm.trans found) (by decide)

end Lofita.Elf
