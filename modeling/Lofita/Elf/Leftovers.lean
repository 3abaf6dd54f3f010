import Lofita.Elf.Course

/-! # What a failed load leaves behind

A load that fails returns its error at once: the blocks it was given stay allocated
and the pages it mapped stay mapped. It leaves nothing behind exactly if it fails
before it is given a block (`nothing_left_iff`), which it is for its first PT_LOAD
segment.
-/

namespace Lofita.Elf

open Lofita.Foundation Lofita.Foundation.Fallible

/-- The calls made between two states, the latest first. -/
def callsSince (start final : LoaderState) : List PlatformCall :=
  final.calls.take (final.calls.length - start.calls.length)

/-- The blocks obtained between two states. They are still allocated, as neither
loader ever calls `phys_free`. -/
def blocksKept (start final : LoaderState) : List U64 :=
  (callsSince start final).filterMap fun call =>
    match call with
    | .physAlloc _ block => if block = 0 then none else some block
    | .pageTableMap _ _ _ _ => none

/-- No block is still allocated, and every page has its old translation. -/
structure NothingLeft (start final : LoaderState) : Prop where
  blocks : blocksKept start final = []
  pageMap : final.pageMap = start.pageMap

/-- The first PT_LOAD segment of the program header table. -/
structure FirstSegment (data : Slice) (header : Elf64Header) (i : Nat)
    (segment : Elf64ProgramHeader) : Prop where
  isSegment : IsSegment data header i segment
  none : ∀ j < i, segmentAt data header j = none

/-- The checks of the tables stop the load, or there is no block for the first PT_LOAD
segment. -/
def NoFirstBlock (platform : Platform) (data : Slice) (start : LoaderState) : Prop :=
  ∀ header i segment, TablesAccepted data header → FirstSegment data header i segment →
    platform.physAlloc start.calls.length segment.pages = 0

variable {platform : Platform} {data : Slice} {header : Elf64Header} {loadBase : U64}
  {segment : Elf64ProgramHeader} {start final : LoaderState} {i : Nat} {copy : LoaderCopy}

theorem FirstSegment.unique {j : Nat} {other : Elf64ProgramHeader}
    (first : FirstSegment data header i segment) (firstToo : FirstSegment data header j other) :
    segment = other := by
  rcases Nat.lt_trichotomy i j with before | rfl | after
  · cases (firstToo.none i before).symm.trans first.isSegment.segmentAt
  · exact first.isSegment.unique firstToo.isSegment
  · cases (first.none j after).symm.trans firstToo.isSegment.segmentAt

/-! ### Calls and blocks -/

theorem callsSince_of_append (made : List PlatformCall)
    (same : final.calls = made ++ start.calls) : callsSince start final = made := by
  unfold callsSince
  rw [same, List.length_append, Nat.add_sub_cancel]
  exact List.take_left

theorem NothingLeft.refl (start : LoaderState) : NothingLeft start start where
  blocks := by
    unfold blocksKept
    rw [callsSince_of_append [] rfl]
    rfl
  pageMap := rfl

/-- Asking for a block in vain leaves nothing behind. -/
theorem NothingLeft.asked {pages : U64} (null : platform.physAlloc start.calls.length pages = 0) :
    NothingLeft start (start.asked platform pages) where
  blocks := by
    unfold blocksKept
    rw [callsSince_of_append [.physAlloc pages 0] (by rw [← null]; rfl)]
    rfl
  pageMap := rfl

/-- A block that was given is left behind. -/
theorem not_nothingLeft {pages : U64}
    (granted : platform.physAlloc start.calls.length pages ≠ 0)
    (later : (start.asked platform pages).calls <:+ final.calls) : ¬ NothingLeft start final := by
  obtain ⟨made, same⟩ := later
  intro left
  have since : callsSince start final =
      made ++ [.physAlloc pages (platform.physAlloc start.calls.length pages)] :=
    callsSince_of_append _ (by rw [← same, List.append_assoc]; rfl)
  have none := left.blocks
  unfold blocksKept at none
  rw [since, List.filterMap_append, List.append_eq_nil_iff] at none
  have last := none.2
  simp only [List.filterMap_cons, if_neg granted] at last
  cases last

/-! ### The course of a failed load -/

/-- The second pass skips the program headers before the first PT_LOAD segment. -/
theorem secondPass_skips {mapper : Mapper} {count : Nat}
    (inFile : ∀ j < count, EntryInFile data header j)
    (none : ∀ j < count, segmentAt data header j = none) :
    foldRange (loadSegmentWith platform mapper data header loadBase) () count start =
      .ok () start := by
  induction count with
  | zero => rfl
  | succ count ih =>
      rw [foldRange_succ_of_ok (ih (fun j below => inFile j (Nat.lt_succ_of_lt below))
          fun j below => none j (Nat.lt_succ_of_lt below)),
        loadSegmentWith_eq (inFile count (Nat.lt_succ_self count)),
        none count (Nat.lt_succ_self count)]
      rfl

theorem succeeds_stack (copy : LoaderCopy) : Succeeds (copy.mapStack platform) := by
  cases copy with
  | kernel => exact succeeds_mapStack
  | compat => exact Succeeds.bind (fun _ => ⟨_, _, rfl⟩) fun _ _ => succeeds_mapPages _ _ _ _

/-- A failed load has come to a first PT_LOAD segment. -/
theorem exists_firstSegment (tables : TablesAccepted data header) {range : U64 × U64} {stop : Stop}
    (failed : finishWith platform (copy.mapper platform) (copy.mapStack platform) data header range
      start = .error stop final) :
    ∃ i segment, FirstSegment data header i segment := by
  by_contra absent
  have none : ∀ j < header.ePhnum.toNat, segmentAt data header j = none := by
    intro j
    induction j using Nat.strong_induction_on with
    | h j ih =>
        intro below
        cases found : segmentAt data header j with
        | none => rfl
        | some segment =>
            refine absurd ⟨j, segment, (segmentAt_eq_some below).mp found, fun k earlier => ?_⟩
              absent
            exact ih k earlier (Nat.lt_trans earlier below)
  obtain ⟨_, _, done⟩ := @succeeds_stack platform copy start
  unfold finishWith at failed
  rw [bind_of_ok (secondPass_skips (fun j below => (tables.entries j below).2) none),
    bind_of_ok done] at failed
  cases failed

/-- Without a block for the first PT_LOAD segment, the load fails there. -/
theorem fails_at_firstSegment (tables : TablesAccepted data header) {range : U64 × U64}
    (first : FirstSegment data header i segment)
    (null : platform.physAlloc start.calls.length segment.pages = 0) :
    finishWith platform (copy.mapper platform) (copy.mapStack platform) data header range start =
      .error (.err .allocFailed) (start.asked platform segment.pages) := by
  have inFile : ∀ j ≤ i, EntryInFile data header j := fun j before =>
    (tables.entries j (Nat.lt_of_le_of_lt before first.isSegment.below)).2
  have here : foldRange (loadSegmentWith platform (copy.mapper platform) data header
      (loadBaseOf header range.1)) () (i + 1) start =
        .error (.err .allocFailed) (start.asked platform segment.pages) := by
    rw [foldRange_succ_of_ok (secondPass_skips (fun j earlier => inFile j (Nat.le_of_lt earlier))
      first.none), loadSegmentWith_eq (inFile i (Nat.le_refl i)), first.isSegment.segmentAt]
    exact installWith_null null
  exact bind_of_error (foldRange_of_error here first.isSegment.below)

/-- Once asked for, the block of the first PT_LOAD segment stays among the calls. -/
theorem asks_for_firstSegment (copy : LoaderCopy) (platform : Platform) (start : LoaderState)
    (range : U64 × U64) (tables : TablesAccepted data header)
    (first : FirstSegment data header i segment) :
    (start.asked platform segment.pages).calls <:+
      (finalState (finishWith platform (copy.mapper platform) (copy.mapStack platform) data header
        range start)).calls := by
  have inFile : ∀ j ≤ i, EntryInFile data header j := fun j before =>
    (tables.entries j (Nat.lt_of_le_of_lt before first.isSegment.below)).2
  have here : (start.asked platform segment.pages).calls <:+
      (finalState (foldRange (loadSegmentWith platform (copy.mapper platform) data header
        (loadBaseOf header range.1)) () (i + 1) start)).calls := by
    rw [foldRange_succ_of_ok (secondPass_skips (fun j earlier => inFile j (Nat.le_of_lt earlier))
      first.none), loadSegmentWith_eq (inFile i (Nat.le_refl i)), first.isSegment.segmentAt]
    exact asked_installWith copy _ segment start
  refine finalState_bind (finalState_foldRange here (fun index last =>
    onlyAdds_loadSegmentWith copy _ index last _) first.isSegment.below) fun _ => ?_
  exact (onlyAdds_mapStack copy _).bind fun _ => .pure _

/-- **Failed loads.** A load that fails leaves nothing behind exactly if the checks of
the tables stop it, or it gets no block for its first PT_LOAD segment. -/
theorem nothing_left_iff (copy : LoaderCopy) {error : ElfError}
    (failed : copy.loadElf platform data start = .error (.err error) final) :
    NothingLeft start final ↔ NoFirstBlock platform data start := by
  rw [copy.loadElf_eq] at failed
  rcases load_stages data with ⟨stop, refused, stops⟩ | ⟨header, range, tables, goesOn⟩
  · rw [stops] at failed
    cases failed
    exact iff_of_true (.refl start) fun header _ _ tables => absurd tables (refused header)
  · rw [goesOn] at failed
    obtain ⟨i, segment, first⟩ := exists_firstSegment tables failed
    by_cases null : platform.physAlloc start.calls.length segment.pages = 0
    · rw [fails_at_firstSegment tables first null] at failed
      cases failed
      refine iff_of_true (.asked null) fun other _ _ tablesToo firstToo => ?_
      cases tables.unique tablesToo
      rw [first.unique firstToo] at null
      exact null
    · have later := asks_for_firstSegment copy platform start range tables first
      rw [failed] at later
      exact iff_of_false (not_nothingLeft null later) fun noBlock =>
        null (noBlock header i segment tables first)

/-! ### A load that fails at its second segment -/

/-- A file with two segments of one byte, 4 MB and 5 MB up. -/
def twoSegments : Slice where
  bytes :=
    [0x7F, 0x45, 0x4C, 0x46, 2, 1, 1, 0, 0, 0, 0, 0, 0, 0, 0, 0,
      2, 0, 62, 0, 1, 0, 0, 0, 0, 0, 0, 0, 0, 0, 0, 0,
      64, 0, 0, 0, 0, 0, 0, 0, 0, 0, 0, 0, 0, 0, 0, 0,
      0, 0, 0, 0, 64, 0, 56, 0, 2, 0, 0, 0, 0, 0, 0, 0] ++
    [1, 0, 0, 0, 4, 0, 0, 0, 176, 0, 0, 0, 0, 0, 0, 0, 0, 0, 0x40, 0, 0, 0, 0, 0,
      0, 0, 0, 0, 0, 0, 0, 0, 1, 0, 0, 0, 0, 0, 0, 0, 1, 0, 0, 0, 0, 0, 0, 0,
      0, 0, 0, 0, 0, 0, 0, 0] ++
    [1, 0, 0, 0, 4, 0, 0, 0, 176, 0, 0, 0, 0, 0, 0, 0, 0, 0, 0x50, 0, 0, 0, 0, 0,
      0, 0, 0, 0, 0, 0, 0, 0, 1, 0, 0, 0, 0, 0, 0, 0, 1, 0, 0, 0, 0, 0, 0, 0,
      0, 0, 0, 0, 0, 0, 0, 0] ++
    [0xAA]
  short := by decide +kernel

theorem stops_twoSegments :
    stopOf (LoaderCopy.kernel.loadElf oneBlock twoSegments blankState) =
      some (.err .allocFailed) := by
  decide +kernel

theorem nothing_left_iff_twoSegments :
    NothingLeft blankState
        (finalState (LoaderCopy.kernel.loadElf oneBlock twoSegments blankState)) ↔
      NoFirstBlock oneBlock twoSegments blankState :=
  nothing_left_iff .kernel (error_of_stopOf stops_twoSegments)

/-- The block and the mapping of the first segment stay when there is no block for the
second one. -/
theorem leaves_first_segment :
    ∃ final, LoaderCopy.kernel.loadElf oneBlock twoSegments blankState =
        .error (.err .allocFailed) final ∧
      ¬ NothingLeft blankState final := by
  refine ⟨_, error_of_stopOf stops_twoSegments, fun left => ?_⟩
  have kept : blocksKept blankState
      (finalState (LoaderCopy.kernel.loadElf oneBlock twoSegments blankState)) =
        [0x10_0000] := by
    decide +kernel
  cases kept.symm.trans left.blocks

end Lofita.Elf
