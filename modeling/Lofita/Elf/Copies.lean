import Lofita.Elf.Grants

/-! # The two copies of the loader

The copies take the same course as long as the pages of the segments are mapped with
success. They differ at the first page that is not, where only the compatibility layer
gives up, and at the stack, which the kernel maps with other flags. The copies
therefore agree exactly if the load ends before either (`same_run_iff`).
-/

namespace Lofita.Elf

open Lofita.Foundation Lofita.Foundation.Fallible

open EStateM (Result)

/-- The result of a load and the calls made. -/
def observed {α : Type} : Result Stop LoaderState α → Except Stop α × List PlatformCall
  | .ok value final => (.ok value, final.calls)
  | .error stop final => (.error stop, final.calls)

/-- The copies return the same result and make the same calls. -/
def SameRun (platform : Platform) (data : Slice) (start : LoaderState) : Prop :=
  observed (loadElf platform data start) = observed (Compat.loadElf platform data start)

/-- There is no block for the segment at a program header, or it cannot be copied. -/
def StopsAt (platform : Platform) (data : Slice) (header : Elf64Header) (number i : Nat) : Prop :=
  ∃ segment, IsSegment data header i segment ∧
    (platform.physAlloc (number + callsBefore data header i) segment.pages = 0 ∨
      ¬ Copyable data segment)

/-- The pages of all segments before a program header are mapped with success. -/
def MapsBefore (platform : Platform) (data : Slice) (header : Elf64Header) (number i : Nat) :
    Prop :=
  ∀ j < i, ∀ segment, IsSegment data header j segment →
    MapsPages platform (number + callsBefore data header j + 1) segment.pages

/-- The load ends in the checks of the tables, or at a segment before which all pages
are mapped with success. -/
def EndsEarly (platform : Platform) (data : Slice) (number : Nat) : Prop :=
  ∀ header, TablesAccepted data header →
    ∃ i, StopsAt platform data header number i ∧ MapsBefore platform data header number i

variable {platform : Platform} {data : Slice} {header : Elf64Header} {loadBase : U64}
  {segment : Elf64ProgramHeader} {start middle final : LoaderState} {i : Nat}

theorem MapsBefore.mono {j number : Nat} (maps : MapsBefore platform data header number i)
    (le : j ≤ i) : MapsBefore platform data header number j :=
  fun k below => maps k (Nat.lt_of_lt_of_le below le)

/-- The first segment with a page that is not mapped. -/
theorem exists_refused {number : Nat} (refused : ¬ MapsBefore platform data header number i) :
    ∃ j segment, IsSegment data header j segment ∧ MapsBefore platform data header number j ∧
      ¬ MapsPages platform (number + callsBefore data header j + 1) segment.pages := by
  induction i with
  | zero => exact absurd (fun _ none => absurd none (Nat.not_lt_zero _)) refused
  | succ i ih =>
      by_cases earlier : MapsBefore platform data header number i
      · by_contra all
        refine refused fun j below segment isSegment => ?_
        by_contra here
        refine all ⟨j, segment, isSegment, earlier.mono (Nat.le_of_lt_succ below), here⟩
      · exact ih earlier

/-! ### Runs of pages -/

variable {virtBase phys : U64} {flags : U32}

/-- A page mapped with success is mapped alike by both copies. -/
theorem checkedPage_ok {virtualAddr physicalAddr : U64}
    (mapped : platform.pageTableMap start.calls.length = true) :
    (pageTableMap platform virtualAddr physicalAddr flags >>= fun mapped =>
        refuseIf (¬ mapped) .mapFailed) start =
      (pageTableMap platform virtualAddr physicalAddr flags >>= fun _ => pure ()) start := by
  have passes : refuseIf (¬ platform.pageTableMap start.calls.length) .mapFailed = pure () := by
    rw [mapped]
    rfl
  refine (bind_of_ok rfl).trans ?_
  rw [passes]
  exact (bind_of_ok rfl).symm

theorem checkedPage_fails (virtualAddr physicalAddr : U64) (flags : U32)
    (refused : platform.pageTableMap start.calls.length = false) :
    ∃ final, (pageTableMap platform virtualAddr physicalAddr flags >>= fun mapped =>
        refuseIf (¬ mapped) .mapFailed) start = .error (.err .mapFailed) final := by
  have stops : ∀ state, refuseIf (¬ platform.pageTableMap start.calls.length) .mapFailed state =
      .error (.err .mapFailed) state := by
    intro state
    rw [refused]
    rfl
  exact ⟨_, (bind_of_ok rfl).trans (stops _)⟩

/-- Where all pages are mapped with success, looking at the results changes nothing. -/
theorem Compat.mapPages_eq {pages : Nat}
    (maps : ∀ k < pages, platform.pageTableMap (start.calls.length + k) = true) :
    Compat.mapPages platform virtBase phys flags pages start =
      Elf.mapPages platform virtBase phys flags pages start := by
  induction pages with
  | zero => rfl
  | succ pages ih =>
      have same := ih fun k below => maps k (Nat.lt_succ_of_lt below)
      obtain ⟨middle, done, _, length, _⟩ :=
        mapPages_spec platform virtBase phys flags pages start
      have here := maps pages (Nat.lt_succ_self pages)
      rw [← length] at here
      calc Compat.mapPages platform virtBase phys flags (pages + 1) start
          = _ := foldRange_succ_of_ok (same.trans done)
        _ = _ := checkedPage_ok here
        _ = Elf.mapPages platform virtBase phys flags (pages + 1) start :=
            (foldRange_succ_of_ok done).symm

/-- A page that is not mapped ends the run. -/
theorem Compat.mapPages_fails {pages : Nat}
    (refused : ¬ ∀ k < pages, platform.pageTableMap (start.calls.length + k) = true) :
    ∃ final, Compat.mapPages platform virtBase phys flags pages start =
      .error (.err .mapFailed) final := by
  induction pages with
  | zero => exact absurd (fun _ none => absurd none (Nat.not_lt_zero _)) refused
  | succ pages ih =>
      by_cases maps : ∀ k < pages, platform.pageTableMap (start.calls.length + k) = true
      · obtain ⟨middle, done, _, length, _⟩ :=
          mapPages_spec platform virtBase phys flags pages start
        have here : platform.pageTableMap middle.calls.length = false := by
          rw [length]
          by_contra mapped
          refine refused fun k below => ?_
          rcases Nat.lt_succ_iff_lt_or_eq.mp below with earlier | rfl
          · exact maps k earlier
          · exact Bool.eq_true_of_not_eq_false mapped
        obtain ⟨final, failed⟩ := checkedPage_fails
          (virtBase + BitVec.ofNat 64 pages * 4096) (phys + BitVec.ofNat 64 pages * 4096) flags
          here
        exact ⟨final, (foldRange_succ_of_ok ((mapPages_eq maps).trans done)).trans failed⟩
      · obtain ⟨final, failed⟩ := ih maps
        exact ⟨final, bind_of_error failed⟩

/-! ### Segments -/

/-- A segment stops both copies alike. -/
theorem installWith_stops (loadBase : U64)
    (stops : platform.physAlloc start.calls.length segment.pages = 0 ∨ ¬ Copyable data segment) :
    ∃ stop final, ∀ mapper,
      installWith platform mapper data loadBase segment start = .error stop final := by
  by_cases null : platform.physAlloc start.calls.length segment.pages = 0
  · exact ⟨_, _, fun mapper => installWith_null null⟩
  · exact ⟨_, _, fun mapper => installWith_panics null (stops.resolve_left null)⟩

/-- A segment whose pages are mapped with success is installed alike by both copies. -/
theorem installWith_same
    (maps : MapsPages platform (start.calls.length + 1) segment.pages) :
    installWith platform (Compat.mapPages platform) data loadBase segment start =
      installWith platform (mapPages platform) data loadBase segment start := by
  by_cases stops :
      platform.physAlloc start.calls.length segment.pages = 0 ∨ ¬ Copyable data segment
  · obtain ⟨stop, final, fails⟩ := installWith_stops loadBase stops
    rw [fails, fails]
  · obtain ⟨granted, copyable⟩ := not_or.mp stops
    obtain ⟨memory, installs⟩ :=
      installWith_maps loadBase granted (not_not.mp copyable)
    rw [installs, installs]
    exact Compat.mapPages_eq maps

/-- A segment that does not stop the copies is installed by the kernel. -/
theorem installWith_succeeds (loadBase : U64)
    (goesOn : ¬ (platform.physAlloc start.calls.length segment.pages = 0 ∨
      ¬ Copyable data segment)) :
    ∃ final, installWith platform (mapPages platform) data loadBase segment start =
      .ok () final := by
  obtain ⟨granted, copyable⟩ := not_or.mp goesOn
  obtain ⟨memory, installs⟩ := installWith_maps loadBase granted (not_not.mp copyable)
  obtain ⟨final, done, _⟩ := mapPages_spec platform _ _ _ _ _
  exact ⟨final, (installs _).trans done⟩

/-- A page that is not mapped ends the load of the compatibility layer. -/
theorem installWith_fails (loadBase : U64)
    (goesOn : ¬ (platform.physAlloc start.calls.length segment.pages = 0 ∨
      ¬ Copyable data segment))
    (refused : ¬ MapsPages platform (start.calls.length + 1) segment.pages) :
    ∃ final, installWith platform (Compat.mapPages platform) data loadBase segment start =
      .error (.err .mapFailed) final := by
  obtain ⟨granted, copyable⟩ := not_or.mp goesOn
  obtain ⟨memory, installs⟩ := installWith_maps loadBase granted (not_not.mp copyable)
  rw [installs]
  exact Compat.mapPages_fails refused

/-- The kernel never notices that a page is not mapped. -/
theorem avoids_mapFailed_installWith :
    Avoids (.err .mapFailed)
      (installWith platform (mapPages platform) data loadBase segment) := by
  intro start final failed
  by_cases null : platform.physAlloc start.calls.length segment.pages = 0
  · rw [installWith_null null] at failed
    cases failed
  · by_cases copyable : Copyable data segment
    · obtain ⟨after, done⟩ := installWith_succeeds loadBase
        (not_or.mpr ⟨null, not_not.mpr copyable⟩)
      cases failed.symm.trans done
    · rw [installWith_panics null copyable] at failed
      cases failed

/-! ### The second pass -/

/-- The second pass up to a program header. -/
def secondPass (platform : Platform) (mapper : Mapper) (data : Slice) (header : Elf64Header)
    (loadBase : U64) (count : Nat) : Loader Unit :=
  foldRange (loadSegmentWith platform mapper data header loadBase) () count

variable {count : Nat}

/-- One more iteration, at a PT_LOAD segment. -/
theorem secondPass_segment {mapper : Mapper} (inFile : EntryInFile data header i)
    (isSegment : IsSegment data header i segment)
    (done : secondPass platform mapper data header loadBase i start = .ok () middle) :
    secondPass platform mapper data header loadBase (i + 1) start =
      installWith platform mapper data loadBase segment middle := by
  refine (foldRange_succ_of_ok done).trans ?_
  rw [loadSegmentWith_eq inFile, isSegment.segmentAt]

/-- Where all pages are mapped with success, the copies take the same course. -/
theorem secondPass_same (loadBase : U64)
    (inFile : ∀ j < count, EntryInFile data header j)
    (le : count ≤ header.ePhnum.toNat)
    (maps : MapsBefore platform data header start.calls.length count) :
    secondPass platform (Compat.mapPages platform) data header loadBase count start =
      secondPass platform (mapPages platform) data header loadBase count start := by
  induction count with
  | zero => rfl
  | succ count ih =>
      have same := ih (fun j below => inFile j (Nat.lt_succ_of_lt below)) (Nat.le_of_succ_le le)
        (maps.mono (Nat.le_succ count))
      cases passed : secondPass platform (mapPages platform) data header loadBase count start with
      | error stop final =>
          exact (bind_of_error (same.trans passed)).trans (bind_of_error passed).symm
      | ok result middle =>
          refine (foldRange_succ_of_ok (same.trans passed)).trans ?_
          refine Eq.trans ?_ (foldRange_succ_of_ok passed).symm
          obtain ⟨length, _⟩ :=
            served_secondPass (fun j below => inFile j (Nat.lt_succ_of_lt below)) passed
          rw [loadSegmentWith_eq (inFile count (Nat.lt_succ_self count)),
            loadSegmentWith_eq (inFile count (Nat.lt_succ_self count))]
          cases found : segmentAt data header count with
          | none => rfl
          | some segment =>
              refine installWith_same ?_
              rw [length]
              exact maps count (Nat.lt_succ_self count) segment ((segmentAt_eq_some le).mp found)

/-- Where no segment stops it, the kernel's second pass goes on. -/
theorem secondPass_succeeds (loadBase : U64)
    (inFile : ∀ j < count, EntryInFile data header j)
    (le : count ≤ header.ePhnum.toNat)
    (goesOn : ∀ j < count, ¬ StopsAt platform data header start.calls.length j) :
    ∃ final, secondPass platform (mapPages platform) data header loadBase count start =
      .ok () final := by
  induction count with
  | zero => exact ⟨start, rfl⟩
  | succ count ih =>
      obtain ⟨middle, passed⟩ := ih (fun j below => inFile j (Nat.lt_succ_of_lt below))
        (Nat.le_of_succ_le le) fun j below => goesOn j (Nat.lt_succ_of_lt below)
      obtain ⟨length, _⟩ :=
        served_secondPass (fun j below => inFile j (Nat.lt_succ_of_lt below)) passed
      cases found : segmentAt data header count with
      | none =>
          refine ⟨middle, (foldRange_succ_of_ok passed).trans ?_⟩
          rw [loadSegmentWith_eq (inFile count (Nat.lt_succ_self count)), found]
          rfl
      | some segment =>
          have isSegment := (segmentAt_eq_some le).mp found
          have here : ¬ (platform.physAlloc middle.calls.length segment.pages = 0 ∨
              ¬ Copyable data segment) := by
            rw [length]
            exact fun stops => goesOn count (Nat.lt_succ_self count) ⟨segment, isSegment, stops⟩
          obtain ⟨final, installed⟩ := installWith_succeeds loadBase here
          exact ⟨final, (secondPass_segment (inFile count (Nat.lt_succ_self count)) isSegment
            passed).trans installed⟩

/-- A segment that stops both copies after the same course ends both loads alike. -/
theorem secondPass_stops (loadBase : U64)
    (inFile : ∀ j < header.ePhnum.toNat, EntryInFile data header j)
    (stops : StopsAt platform data header start.calls.length i)
    (maps : MapsBefore platform data header start.calls.length i) :
    ∃ stop final,
      secondPass platform (mapPages platform) data header loadBase header.ePhnum.toNat start =
        .error stop final ∧
      secondPass platform (Compat.mapPages platform) data header loadBase header.ePhnum.toNat
        start = .error stop final := by
  obtain ⟨segment, isSegment, stops⟩ := stops
  have before : ∀ j < i, EntryInFile data header j := fun j earlier =>
    inFile j (Nat.lt_trans earlier isSegment.below)
  have same := secondPass_same loadBase before (Nat.le_of_lt isSegment.below) maps
  cases passed : secondPass platform (mapPages platform) data header loadBase i start with
  | error stop final =>
      exact ⟨stop, final, foldRange_of_error passed (Nat.le_of_lt isSegment.below),
        foldRange_of_error (same.trans passed) (Nat.le_of_lt isSegment.below)⟩
  | ok result middle =>
      obtain ⟨length, _⟩ := served_secondPass before passed
      rw [← length] at stops
      obtain ⟨stop, final, fails⟩ := installWith_stops loadBase stops
      have here := inFile i isSegment.below
      exact ⟨stop, final,
        foldRange_of_error ((secondPass_segment here isSegment passed).trans (fails _))
          isSegment.below,
        foldRange_of_error ((secondPass_segment here isSegment (same.trans passed)).trans (fails _))
          isSegment.below⟩

/-! ### Where the copies differ -/

/-- Mapping the stack succeeds, with the flags given. -/
theorem stack_flags (flags : U32) (start : LoaderState) :
    ∃ final, (physAlloc platform (BitVec.ofNat 64 stackPages) >>= fun stackPhys =>
        mapPages platform stackVirt stackPhys flags stackPages) start = .ok () final ∧
      ∃ virtualAddr physicalAddr mapped,
        final.call (start.calls.length + 1) =
          some (.pageTableMap virtualAddr physicalAddr flags mapped) := by
  obtain ⟨final, done, _, _, calls⟩ := mapPages_spec platform stackVirt
    (platform.physAlloc start.calls.length (BitVec.ofNat 64 stackPages)) flags stackPages
    (start.asked platform (BitVec.ofNat 64 stackPages))
  exact ⟨final, (bind_of_ok rfl).trans done, _, _, _, calls 0 (by decide)⟩

/-- Loads that come to the stack differ in its flags. -/
theorem differ_at_stack {range : U64 × U64}
    (inFile : ∀ j < header.ePhnum.toNat, EntryInFile data header j)
    (goesOn : ∀ j < header.ePhnum.toNat, ¬ StopsAt platform data header start.calls.length j)
    (maps : MapsBefore platform data header start.calls.length header.ePhnum.toNat) :
    observed (finishWith platform (mapPages platform) (mapStack platform) data header range start) ≠
      observed (finishWith platform (Compat.mapPages platform) (Compat.mapStack platform) data
        header range start) := by
  obtain ⟨middle, passed⟩ := secondPass_succeeds (loadBaseOf header range.1) inFile
    (Nat.le_refl _) goesOn
  have passedToo := (secondPass_same _ inFile (Nat.le_refl _) maps).trans passed
  obtain ⟨kernel, stack, _, _, _, kernelCall⟩ := @stack_flags platform 0x7 middle
  obtain ⟨compat, stackToo, _, _, _, compatCall⟩ := @stack_flags platform 0x3 middle
  have kernelRun : finishWith platform (mapPages platform) (mapStack platform) data header range
      start = .ok _ kernel := (bind_of_ok passed).trans (bind_of_ok stack)
  have compatRun : finishWith platform (Compat.mapPages platform) (Compat.mapStack platform) data
      header range start = .ok _ compat := (bind_of_ok passedToo).trans (bind_of_ok stackToo)
  rw [kernelRun, compatRun]
  intro same
  have calls : kernel.calls = compat.calls := (Prod.mk.inj same).2
  unfold LoaderState.call at kernelCall compatCall
  rw [calls, compatCall] at kernelCall
  exact absurd (PlatformCall.pageTableMap.inj (Option.some.inj kernelCall)).2.2.1 (by decide)

/-- Loads that come to a page that is not mapped differ in their results. -/
theorem differ_at_page {range : U64 × U64}
    (inFile : ∀ j < header.ePhnum.toNat, EntryInFile data header j)
    (isSegment : IsSegment data header i segment)
    (goesOn : ∀ j ≤ i, ¬ StopsAt platform data header start.calls.length j)
    (maps : MapsBefore platform data header start.calls.length i)
    (refused : ¬ MapsPages platform (start.calls.length + callsBefore data header i + 1)
      segment.pages) :
    observed (finishWith platform (mapPages platform) (mapStack platform) data header range start) ≠
      observed (finishWith platform (Compat.mapPages platform) (Compat.mapStack platform) data
        header range start) := by
  have before : ∀ j < i, EntryInFile data header j := fun j earlier =>
    inFile j (Nat.lt_trans earlier isSegment.below)
  obtain ⟨middle, passed⟩ := secondPass_succeeds (loadBaseOf header range.1) before
    (Nat.le_of_lt isSegment.below) fun j earlier => goesOn j (Nat.le_of_lt earlier)
  have passedToo := (secondPass_same _ before (Nat.le_of_lt isSegment.below) maps).trans passed
  obtain ⟨length, _⟩ := served_secondPass before passed
  have goesOnHere : ¬ (platform.physAlloc middle.calls.length segment.pages = 0 ∨
      ¬ Copyable data segment) := by
    rw [length]
    exact fun stops => goesOn i (Nat.le_refl i) ⟨segment, isSegment, stops⟩
  rw [← length] at refused
  obtain ⟨final, failed⟩ := installWith_fails (loadBaseOf header range.1) goesOnHere
    refused
  have compatRun : finishWith platform (Compat.mapPages platform) (Compat.mapStack platform) data
      header range start = .error (.err .mapFailed) final :=
    bind_of_error (foldRange_of_error
      ((secondPass_segment (inFile i isSegment.below) isSegment passedToo).trans failed)
      isSegment.below)
  have kernelAvoids : Avoids (.err .mapFailed)
      (finishWith platform (mapPages platform) (mapStack platform) data header range) := by
    refine (Avoids.foldRange fun j below last _ => ?_).bind fun _ _ =>
      succeeds_mapStack.avoids.bind fun _ _ => .pure _
    rw [loadSegmentWith_eq (inFile j below)]
    cases segmentAt data header j with
    | none => exact .pure ()
    | some other => exact avoids_mapFailed_installWith
  rw [compatRun]
  cases kernelRun : finishWith platform (mapPages platform) (mapStack platform) data header range
      start with
  | ok process final => exact fun same => absurd (Prod.mk.inj same).1 (by rintro ⟨⟩)
  | error stop final =>
      intro same
      cases (Prod.mk.inj same).1
      exact kernelAvoids start final kernelRun

/-- **The two copies.** The loaders return the same result and make the same calls
exactly if the load ends in the checks of the tables, or at a segment before which all
pages are mapped with success. -/
theorem same_run_iff :
    SameRun platform data start ↔ EndsEarly platform data start.calls.length := by
  unfold SameRun Compat.loadElf
  rw [loadElf_eq_loadWith]
  rcases load_stages data with ⟨stop, refused, stops⟩ | ⟨header, range, tables, passes⟩
  · rw [stops, stops]
    exact iff_of_true rfl fun header tables => absurd tables (refused header)
  · rw [passes, passes]
    have inFile : ∀ j < header.ePhnum.toNat, EntryInFile data header j := fun j below =>
      (tables.entries j below).2
    constructor
    · intro same other tablesToo
      cases tables.unique tablesToo
      by_contra never
      have goesOn : ∀ i, MapsBefore platform data header start.calls.length i →
          ¬ StopsAt platform data header start.calls.length i :=
        fun i maps stops => never ⟨i, stops, maps⟩
      by_cases all : MapsBefore platform data header start.calls.length header.ePhnum.toNat
      · exact differ_at_stack inFile (fun j below => goesOn j (all.mono (Nat.le_of_lt below))) all
          same
      · obtain ⟨i, segment, isSegment, maps, refused⟩ := exists_refused all
        exact differ_at_page inFile isSegment (fun j le => goesOn j (maps.mono le)) maps refused
          same
    · intro early
      obtain ⟨i, stopsHere, maps⟩ := early header tables
      obtain ⟨stop, final, kernel, compat⟩ := secondPass_stops
        (loadBaseOf header range.1) inFile stopsHere maps
      exact congrArg observed ((bind_of_error kernel).trans (bind_of_error compat).symm)

/-- A platform that gives blocks but maps no page. -/
def noPages : Platform where
  physAlloc := samplePlatform.physAlloc
  pageTableMap _ := false

theorem stopOf_eq_of_observed {α : Type} {first second : Result Stop LoaderState α}
    (same : observed first = observed second) : stopOf first = stopOf second := by
  cases first with
  | ok _ _ =>
      cases second with
      | ok _ _ => rfl
      | error _ _ => cases (Prod.mk.inj same).1
  | error _ _ =>
      cases second with
      | ok _ _ => cases (Prod.mk.inj same).1
      | error _ _ =>
          cases (Prod.mk.inj same).1
          rfl

/-- Only the compatibility layer notices that the page of the segment is not mapped. -/
theorem not_same_run_noPages : ¬ SameRun noPages (sampleFile 0) blankState := by
  intro same
  have kernel : stopOf (loadElf noPages (sampleFile 0) blankState) = none := by decide +kernel
  have compat : stopOf (Compat.loadElf noPages (sampleFile 0) blankState) =
      some (.err .mapFailed) := by
    decide +kernel
  cases kernel.symm.trans ((stopOf_eq_of_observed same).trans compat)

end Lofita.Elf
