import Lofita.Elf.Course

/-! # Loads that succeed

The kernel's loader looks at no result of `page_table_map`, and not at the block for
the stack. That it returns a process means that everything was granted exactly if the
platform grants what the loader does not look at (`everything_granted_iff`).
-/

namespace Lofita.Elf

open Lofita.Foundation Lofita.Foundation.Fallible

/-- From a call on, a block was asked for and given, and as many pages were mapped to
it with success. -/
def MappedBy (final : LoaderState) (number : Nat) (pages virtBase : U64) (flags : U32) : Prop :=
  ∃ block ≠ 0, final.call number = some (.physAlloc pages block) ∧
    ∀ k < pages.toNat, final.call (number + 1 + k) =
      some (.pageTableMap (virtBase + BitVec.ofNat 64 k * 4096)
        (block + BitVec.ofNat 64 k * 4096) flags true)

/-- Every page of every PT_LOAD segment and both pages of the stack were mapped with
success, to the pages of a block that was given for them. -/
structure EverythingGranted (data : Slice) (header : Elf64Header) (loadBase : U64)
    (start final : LoaderState) : Prop where
  segments : ∀ i segment, IsSegment data header i segment →
    MappedBy final (start.calls.length + callsBefore data header i) segment.pages
      (loadBase + segment.pVaddr) segment.pteFlags
  stack : MappedBy final (start.calls.length + callsBefore data header header.ePhnum.toNat)
    (BitVec.ofNat 64 stackPages) stackVirt 0x7

/-- The platform grants what the kernel's loader does not look at: the pages of the
segments, the block for the stack, and its pages. -/
structure GrantsUnchecked (platform : Platform) (data : Slice) (header : Elf64Header)
    (number : Nat) : Prop where
  segments : ∀ i segment, IsSegment data header i segment →
    MapsPages platform (number + callsBefore data header i + 1) segment.pages
  stackBlock : platform.physAlloc (number + callsBefore data header header.ePhnum.toNat)
    (BitVec.ofNat 64 stackPages) ≠ 0
  stack : MapsPages platform (number + callsBefore data header header.ePhnum.toNat + 1)
    (BitVec.ofNat 64 stackPages)

variable {platform : Platform} {data : Slice} {header : Elf64Header} {loadBase : U64}
  {segment : Elf64ProgramHeader} {start middle final : LoaderState} {number : Nat}
  {pages virtBase : U64} {flags : U32}

/-! ### What the platform answered -/

/-- From a call on, a block was asked for and pages were mapped to it, with the answers
of the platform. -/
structure Served (platform : Platform) (final : LoaderState) (number : Nat) (pages virtBase : U64)
    (flags : U32) : Prop where
  block : final.call number = some (.physAlloc pages (platform.physAlloc number pages))
  mapped : ∀ k < pages.toNat, final.call (number + 1 + k) =
    some (.pageTableMap (virtBase + BitVec.ofNat 64 k * 4096)
      (platform.physAlloc number pages + BitVec.ofNat 64 k * 4096) flags
      (platform.pageTableMap (number + 1 + k)))

theorem Served.mono (served : Served platform middle number pages virtBase flags)
    (later : middle.calls <:+ final.calls) : Served platform final number pages virtBase flags where
  block := call_mono later served.block
  mapped k below := call_mono later (served.mapped k below)

/-- The pages were mapped with success exactly if the platform said so. -/
theorem Served.mappedBy_iff (served : Served platform final number pages virtBase flags) :
    MappedBy final number pages virtBase flags ↔
      platform.physAlloc number pages ≠ 0 ∧ MapsPages platform (number + 1) pages := by
  constructor
  · rintro ⟨block, notNull, asked, mapped⟩
    cases served.block.symm.trans asked
    refine ⟨notNull, fun k below => ?_⟩
    have answers := (served.mapped k below).symm.trans (mapped k below)
    exact (PlatformCall.pageTableMap.inj (Option.some.inj answers)).2.2.2
  · rintro ⟨notNull, maps⟩
    refine ⟨_, notNull, served.block, fun k below => ?_⟩
    rw [served.mapped k below, maps k below]

/-- Asking for a block and mapping pages to it. -/
theorem served_mapPages (memory : Nat → U8)
    (done : mapPages platform virtBase (platform.physAlloc start.calls.length pages) flags
      pages.toNat { start.asked platform pages with memory } = .ok () final) :
    Served platform final start.calls.length pages virtBase flags ∧
      start.calls <:+ final.calls ∧
      final.calls.length = start.calls.length + (1 + pages.toNat) := by
  obtain ⟨other, mapped, later, length, calls⟩ := mapPages_spec platform virtBase
    (platform.physAlloc start.calls.length pages) flags pages.toNat
    { start.asked platform pages with memory }
  cases done.symm.trans mapped
  refine ⟨⟨call_mono later ?_, fun k below => calls k below⟩,
    (List.suffix_cons _ _).trans later, ?_⟩
  · exact call_last
  · rw [length, ← Nat.add_assoc]
    rfl

/-! ### The second pass and the stack -/

theorem served_installWith
    (done : installWith platform (mapPages platform) data loadBase segment start = .ok () final) :
    platform.physAlloc start.calls.length segment.pages ≠ 0 ∧
      Served platform final start.calls.length segment.pages (loadBase + segment.pVaddr)
        segment.pteFlags ∧
      start.calls <:+ final.calls ∧
      final.calls.length = start.calls.length + (1 + segment.pages.toNat) := by
  by_cases null : platform.physAlloc start.calls.length segment.pages = 0
  · rw [installWith_null null] at done
    cases done
  · by_cases copyable : Copyable data segment
    · obtain ⟨memory, maps⟩ := installWith_maps loadBase null copyable
      rw [maps] at done
      exact ⟨null, served_mapPages memory done⟩
    · rw [installWith_panics null copyable] at done
      cases done

/-- **The second pass** asks for a block for every PT_LOAD segment and maps its pages. -/
theorem served_secondPass {count : Nat} {result : Unit}
    (inFile : ∀ j < count, EntryInFile data header j)
    (done : foldRange (loadSegmentWith platform (mapPages platform) data header loadBase) () count
      start = .ok result final) :
    final.calls.length = start.calls.length + callsBefore data header count ∧
      ∀ i < count, ∀ segment, segmentAt data header i = some segment →
        platform.physAlloc (start.calls.length + callsBefore data header i) segment.pages ≠ 0 ∧
        Served platform final (start.calls.length + callsBefore data header i) segment.pages
          (loadBase + segment.pVaddr) segment.pteFlags := by
  refine foldRange_ok
    (fun reached _ state => state.calls.length = start.calls.length +
        callsBefore data header reached ∧
      ∀ i < reached, ∀ segment, segmentAt data header i = some segment →
        platform.physAlloc (start.calls.length + callsBefore data header i) segment.pages ≠ 0 ∧
        Served platform state (start.calls.length + callsBefore data header i) segment.pages
          (loadBase + segment.pVaddr) segment.pteFlags)
    ⟨rfl, fun _ none => absurd none (Nat.not_lt_zero _)⟩ ?_ done
  rintro reached _ before _ after below ⟨length, earlier⟩ iteration
  rw [loadSegmentWith_eq (inFile reached below)] at iteration
  cases found : segmentAt data header reached with
  | none =>
      rw [found] at iteration
      cases iteration
      refine ⟨by rw [length, callsBefore_skip found], fun i bound segment isHere => ?_⟩
      rcases Nat.lt_succ_iff_lt_or_eq.mp bound with smaller | rfl
      · exact earlier i smaller segment isHere
      · cases found.symm.trans isHere
  | some segment =>
      rw [found] at iteration
      obtain ⟨notNull, served, later, grown⟩ := served_installWith iteration
      refine ⟨by rw [grown, length, callsBefore_succ found, Nat.add_assoc],
        fun i bound other isHere => ?_⟩
      rcases Nat.lt_succ_iff_lt_or_eq.mp bound with smaller | rfl
      · obtain ⟨notNull, served⟩ := earlier i smaller other isHere
        exact ⟨notNull, served.mono later⟩
      · cases found.symm.trans isHere
        rw [← length]
        exact ⟨notNull, served⟩

/-- A load that succeeds was served everything it asks for, and was given a block for
every PT_LOAD segment. -/
theorem served_loadElf {process : LoadedProcess}
    (done : loadElf platform data start = .ok process final) :
    ∃ header, TablesAccepted data header ∧
      (∀ i segment, IsSegment data header i segment →
        platform.physAlloc (start.calls.length + callsBefore data header i) segment.pages ≠ 0 ∧
        Served platform final (start.calls.length + callsBefore data header i) segment.pages
          (process.loadBase + segment.pVaddr) segment.pteFlags) ∧
      Served platform final (start.calls.length + callsBefore data header header.ePhnum.toNat)
        (BitVec.ofNat 64 stackPages) stackVirt 0x7 := by
  rw [loadElf_eq_loadWith] at done
  rcases load_stages data with ⟨stop, _, stops⟩ | ⟨header, range, tables, goesOn⟩
  · rw [stops] at done
    cases done
  · rw [goesOn] at done
    obtain ⟨_, middle, passed, done⟩ := ok_bind.mp done
    obtain ⟨_, _, stack, done⟩ := ok_bind.mp done
    obtain ⟨rfl, rfl⟩ := ok_pure.mp done
    obtain ⟨length, segments⟩ :=
      served_secondPass (fun j below => (tables.entries j below).2) passed
    obtain ⟨served, later, _⟩ := served_mapPages middle.memory stack
    rw [length] at served
    refine ⟨header, tables, fun i segment isSegment => ?_, served⟩
    obtain ⟨notNull, servedHere⟩ := segments i isSegment.below segment isSegment.segmentAt
    exact ⟨notNull, servedHere.mono later⟩

/-- **What success means.** If the kernel's loader returns a process, then everything
it asked for was granted exactly if the platform granted what the loader does not look
at. -/
theorem everything_granted_iff {process : LoadedProcess} (read : readHeader data = some header)
    (done : loadElf platform data start = .ok process final) :
    EverythingGranted data header process.loadBase start final ↔
      GrantsUnchecked platform data header start.calls.length := by
  obtain ⟨other, tables, segments, stack⟩ := served_loadElf done
  cases read.symm.trans tables.accepted.fields
  constructor
  · intro granted
    have stackGranted := stack.mappedBy_iff.mp granted.stack
    refine ⟨fun i segment isSegment => ?_, stackGranted.1, stackGranted.2⟩
    have served := (segments i segment isSegment).2
    exact (served.mappedBy_iff.mp (granted.segments i segment isSegment)).2
  · intro grants
    refine ⟨fun i segment isSegment => ?_, ?_⟩
    · obtain ⟨notNull, served⟩ := segments i segment isSegment
      exact served.mappedBy_iff.mpr ⟨notNull, grants.segments i segment isSegment⟩
    · exact stack.mappedBy_iff.mpr ⟨grants.stackBlock, grants.stack⟩

/-! ### A load that succeeds without a stack -/

theorem loads_without_stack :
    ∃ final, loadElf oneBlock (sampleFile 0) blankState = .ok sampleProcess final ∧
      final.call 2 = some (.physAlloc 2 0) := by
  have ran : readOk (fun process final => (process, final.call 2))
      (loadElf oneBlock (sampleFile 0) blankState) =
        some (sampleProcess, some (.physAlloc 2 0)) := by
    decide +kernel
  obtain ⟨process, final, done, same⟩ := ok_of_readOk ran
  obtain ⟨rfl, call⟩ := Prod.mk.inj same
  exact ⟨final, done, call⟩

theorem everything_granted_iff_sample :
    EverythingGranted (sampleFile 0) sampleHeader 0 blankState
        (finalState (loadElf oneBlock (sampleFile 0) blankState)) ↔
      GrantsUnchecked oneBlock (sampleFile 0) sampleHeader 0 := by
  obtain ⟨final, done, _⟩ := loads_without_stack
  rw [done]
  exact everything_granted_iff rfl done

/-- Without a block for the stack the load succeeds, and maps the stack to address 0. -/
theorem succeeds_without_stack :
    readHeader (sampleFile 0) = some sampleHeader ∧
      ∃ final, loadElf oneBlock (sampleFile 0) blankState = .ok sampleProcess final ∧
        ¬ EverythingGranted (sampleFile 0) sampleHeader 0 blankState final := by
  obtain ⟨final, done, null⟩ := loads_without_stack
  refine ⟨rfl, final, done, fun granted => ?_⟩
  obtain ⟨block, notNull, asked, _⟩ := granted.stack
  have number : blankState.calls.length +
      callsBefore (sampleFile 0) sampleHeader sampleHeader.ePhnum.toNat = 2 := by
    decide +kernel
  rw [number] at asked
  cases null.symm.trans asked
  exact notNull rfl

end Lofita.Elf
