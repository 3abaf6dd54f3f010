import Lofita.Elf.Compat
import Lofita.Elf.Survival

/-! # The course of a load

The file header and the table of program headers are checked before the platform is
called (`load_stages`). The second pass then asks for a block for each PT_LOAD
segment in turn and maps its pages, so that the number of calls made before a
segment depends on the table only (`callsBefore`). Both copies of the loader take
this course as long as the platform grants what they look at.
-/

namespace Lofita.Elf

open Lofita.Foundation Lofita.Foundation.Fallible

variable {platform : Platform} {mapper : Mapper} {data : Slice} {header : Elf64Header}
  {loadBase : U64} {segment : Elf64ProgramHeader} {start final : LoaderState} {i : Nat}

/-! ### Before the platform is called -/

/-- The file header and every entry of the program header table pass the checks, and
the fields of the entries lie in the file. -/
structure TablesAccepted (data : Slice) (header : Elf64Header) : Prop where
  accepted : HeaderAccepted data header
  entries : ∀ i < header.ePhnum.toNat, EntryAccepted data header i ∧ EntryInFile data header i

/-- The accepted header is one header. -/
theorem TablesAccepted.unique {other : Elf64Header} (tables : TablesAccepted data header)
    (tablesToo : TablesAccepted data other) : header = other :=
  Option.some.inj (tables.accepted.fields.symm.trans tablesToo.accepted.fields)

/-- A check makes no call. -/
theorem silent_refuseIf (refused : Bool) (error : ElfError) : Silent (refuseIf refused error) := by
  cases refused with
  | false => exact .pure ()
  | true => exact .throw _

theorem silent_orPanic {α : Type} (read : Option α) : Silent (orPanic read) := by
  cases read with
  | none => exact .throw _
  | some value => exact .pure value

theorem silent_parseHeader (data : Slice) : Silent (parseHeader data) :=
  (silent_refuseIf _ _).bind fun _ => (silent_refuseIf _ _).bind fun _ =>
    (silent_orPanic _).bind fun _ => (silent_refuseIf _ _).bind fun _ =>
    (silent_orPanic _).bind fun _ => (silent_refuseIf _ _).bind fun _ =>
    (silent_orPanic _).bind fun _ => (silent_refuseIf _ _).bind fun _ =>
    (silent_refuseIf _ _).bind fun _ => .pure _

theorem silent_scanSegment (data : Slice) (header : Elf64Header) (i : Nat)
    (range : U64 × U64) : Silent (scanSegment data header i range) := by
  refine (silent_refuseIf _ _).bind fun _ => (silent_orPanic _).bind fun _ =>
    (silent_orPanic _).bind fun _ => (silent_orPanic _).bind fun _ => ?_
  split
  · exact .pure _
  · exact .pure _

/-- A scanned entry lies in the file. -/
theorem inFile_of_scanSegment {range result : U64 × U64}
    (gives : Gives (scanSegment data header i range) result) : EntryInFile data header i := by
  obtain ⟨_, _, done⟩ := gives
  unfold scanSegment at done
  obtain ⟨_, _, _, done⟩ := ok_bind.mp done
  obtain ⟨_, _, type, done⟩ := ok_bind.mp done
  obtain ⟨_, _, vaddr, done⟩ := ok_bind.mp done
  obtain ⟨_, _, memsz, _⟩ := ok_bind.mp done
  exact entryInFile_iff.mpr ⟨Option.isSome_of_eq_some (orPanic_ok.mp type).1,
    Option.isSome_of_eq_some (orPanic_ok.mp vaddr).1,
    Option.isSome_of_eq_some (orPanic_ok.mp memsz).1⟩

/-- After the first pass all entries do. -/
theorem inFile_of_firstPass {count : Nat} {initial range : U64 × U64}
    (gives : Gives (foldRange (scanSegment data header) initial count) range) :
    ∀ j < count, EntryInFile data header j := by
  obtain ⟨_, _, done⟩ := gives
  refine foldRange_ok (fun reached _ _ => ∀ j < reached, EntryInFile data header j)
    (fun _ none => absurd none (Nat.not_lt_zero _)) (fun _ earlier iteration j before => ?_) done
  rcases Nat.lt_succ_iff_lt_or_eq.mp before with below | rfl
  · exact earlier j below
  · exact inFile_of_scanSegment ⟨_, _, iteration⟩

/-- **The stages of a load.** Either the checks stop it, whatever the platform does,
or it goes on with the header and the range of addresses that the first pass found. -/
theorem load_stages (data : Slice) :
    (∃ stop, (∀ header, ¬ TablesAccepted data header) ∧
      ∀ platform mapper stack, loadWith platform mapper stack data = lift (.error stop)) ∨
    ∃ header range, TablesAccepted data header ∧
      ∀ platform mapper stack, loadWith platform mapper stack data =
        finishWith platform mapper stack data header range := by
  obtain ⟨outcome, parse⟩ := silent_parseHeader data
  cases outcome with
  | error stop =>
      refine .inl ⟨stop, fun header tables => ?_, fun platform mapper stack => ?_⟩
      · obtain ⟨_, _, done⟩ := succeeds_parseHeader tables.accepted blankState
        rw [parse] at done
        cases done
      · unfold loadWith
        rw [parse]
        rfl
  | ok header =>
      have parsed : HeaderAccepted data header :=
        gives_parseHeader ⟨blankState, blankState, by rw [parse]; rfl⟩
      obtain ⟨outcome, scan⟩ := Silent.foldRange (silent_scanSegment data header) (U64.max, 0)
        header.ePhnum.toNat
      cases outcome with
      | error stop =>
          refine .inl ⟨stop, fun other tables => ?_, fun platform mapper stack => ?_⟩
          · cases Option.some.inj (tables.accepted.fields.symm.trans parsed.fields)
            obtain ⟨_, _, done⟩ := @succeeds_firstPass data header _ (U64.max, 0)
              (fun i below => (tables.entries i below).1)
              (fun i below => (tables.entries i below).2) blankState
            rw [scan] at done
            cases done
          · unfold loadWith
            rw [parse]
            change (foldRange (scanSegment data header) (U64.max, 0) header.ePhnum.toNat >>= _) = _
            rw [scan]
            rfl
      | ok range =>
          have scanned : Gives (foldRange (scanSegment data header) (U64.max, 0)
              header.ePhnum.toNat) range := ⟨blankState, blankState, by rw [scan]; rfl⟩
          refine .inr ⟨header, range, ⟨parsed, fun i below =>
            ⟨gives_firstPass scanned i below, inFile_of_firstPass scanned i below⟩⟩,
            fun platform mapper stack => ?_⟩
          unfold loadWith
          rw [parse]
          change (foldRange (scanSegment data header) (U64.max, 0) header.ePhnum.toNat >>= _) = _
          rw [scan]
          rfl

/-! ### The segments of the second pass -/

/-- One iteration of the second pass, where the fields lie in the file. -/
theorem loadSegmentWith_eq (inFile : EntryInFile data header i) (last : Unit) :
    loadSegmentWith platform mapper data header loadBase i last =
      match segmentAt data header i with
      | some segment => installWith platform mapper data loadBase segment
      | none => pure () := by
  obtain ⟨pType, typed⟩ := Option.isSome_iff_exists.mp inFile.isSome_type
  obtain ⟨segment, fields⟩ := Option.isSome_iff_exists.mp inFile.isSome_fields
  unfold loadSegmentWith segmentAt
  rw [typed, fields]
  by_cases load : pType = ptLoad
  · rw [if_pos (congrArg some load)]
    change (if pType = ptLoad then _ else _) = _
    rw [if_pos load]
    rfl
  · rw [if_neg (mt Option.some.inj load)]
    change (if pType = ptLoad then _ else _) = _
    rw [if_neg load]

/-- The state after the block of a segment has been asked for. -/
def LoaderState.asked (platform : Platform) (start : LoaderState) (pages : U64) : LoaderState :=
  let answer := platform.physAlloc start.calls.length pages
  { start with calls := .physAlloc pages answer :: start.calls }

section Steps

variable {condition : Prop} [Decidable condition] {error : ElfError} {next : Unit → Loader Unit}

/-- A check that passes is over. -/
theorem refuseIf_pass (accepted : ¬ condition) :
    (refuseIf condition error >>= next) start = next () start := by
  rw [refuseIf, decide_eq_false accepted]
  rfl

/-- A check that refuses stops the loader. -/
theorem refuseIf_stop (refused : condition) :
    (refuseIf condition error >>= next) start = .error (.err error) start := by
  rw [refuseIf, decide_eq_true refused]
  rfl

/-- A bound that holds is over. -/
theorem panicUnless_pass (holds : condition) :
    (panicUnless condition >>= next) start = next () start := by
  rw [panicUnless, decide_eq_true holds]
  rfl

/-- A bound that fails stops the loader. -/
theorem panicUnless_stop (fails : ¬ condition) :
    (panicUnless condition >>= next) start = .error .panic start := by
  rw [panicUnless, decide_eq_false fails]
  rfl

end Steps

/-- Without a block the load fails. -/
theorem installWith_null (null : platform.physAlloc start.calls.length segment.pages = 0) :
    installWith platform mapper data loadBase segment start =
      .error (.err .allocFailed) (start.asked platform segment.pages) :=
  refuseIf_stop null

/-- A segment that cannot be copied makes the load panic. -/
theorem installWith_panics (granted : platform.physAlloc start.calls.length segment.pages ≠ 0)
    (outside : ¬ Copyable data segment) :
    installWith platform mapper data loadBase segment start =
      .error .panic (start.asked platform segment.pages) := by
  refine (refuseIf_pass granted).trans ?_
  by_cases fits : fileEnd data segment - segment.pOffset ≤ segment.pMemsz
  · refine (panicUnless_pass fits).trans ?_
    exact panicUnless_stop fun slices => outside (copyable_iff.mpr ⟨fits, slices⟩)
  · exact panicUnless_stop fits

/-- A segment that can be copied is copied to its block and then mapped. -/
theorem installWith_maps (loadBase : U64)
    (granted : platform.physAlloc start.calls.length segment.pages ≠ 0)
    (copyable : Copyable data segment) :
    ∃ memory, ∀ mapper, installWith platform mapper data loadBase segment start =
      mapper (loadBase + segment.pVaddr) (platform.physAlloc start.calls.length segment.pages)
        segment.pteFlags segment.pages.toNat
        { start.asked platform segment.pages with memory } := by
  obtain ⟨fits, slices⟩ := copyable_iff.mp copyable
  let phys := (platform.physAlloc start.calls.length segment.pages).toNat
  refine ⟨zeroFill (phys + (fileEnd data segment - segment.pOffset).toNat)
    (phys + segment.pMemsz.toNat)
    (copyFile data phys segment.pOffset.toNat (fileEnd data segment).toNat start.memory),
    fun mapper => ?_⟩
  refine (refuseIf_pass granted).trans ?_
  refine (panicUnless_pass fits).trans ?_
  exact (panicUnless_pass slices).trans rfl

/-! ### The calls made -/

/-- The call with a number. -/
def LoaderState.call (state : LoaderState) (number : Nat) : Option PlatformCall :=
  state.calls.reverse[number]?

/-- Earlier calls keep their numbers. -/
theorem call_of_suffix (later : start.calls <:+ final.calls) {number : Nat}
    (below : number < start.calls.length) : final.call number = start.call number := by
  obtain ⟨made, same⟩ := later
  unfold LoaderState.call
  rw [← same, List.reverse_append]
  exact List.getElem?_append_left (by rwa [List.length_reverse])

/-- A call made stays made. -/
theorem call_mono (later : start.calls <:+ final.calls) {number : Nat} {call : PlatformCall}
    (made : start.call number = some call) : final.call number = some call := by
  refine (call_of_suffix later ?_).trans made
  have below := (List.getElem?_eq_some_iff.mp made).1
  rwa [List.length_reverse] at below

/-- The last call has the last number. -/
theorem call_last {state : LoaderState} {call : PlatformCall} :
    { state with calls := call :: state.calls }.call state.calls.length = some call := by
  unfold LoaderState.call
  rw [List.reverse_cons, ← List.length_reverse, List.getElem?_concat_length]

section OnlyAdds

/-- The computation takes no call back. -/
def OnlyAdds {α : Type} (computation : Loader α) : Prop :=
  ∀ calls, Keeps (fun state : LoaderState => calls <:+ state.calls) computation

/-- A request adds a call. -/
theorem onlyAdds_physAlloc (pages : U64) : OnlyAdds (physAlloc platform pages) :=
  fun _ _ suffix => suffix.trans (List.suffix_cons _ _)

/-- A mapping adds a call. -/
theorem onlyAdds_pageTableMap (virtualAddr physicalAddr : U64) (flags : U32) :
    OnlyAdds (pageTableMap platform virtualAddr physicalAddr flags) :=
  fun _ _ suffix => suffix.trans (List.suffix_cons _ _)

/-- A run of mappings only adds calls. -/
theorem onlyAdds_mapPages (virtBase phys : U64) (flags : U32) (pages : Nat) :
    OnlyAdds (mapPages platform virtBase phys flags pages) :=
  fun calls => Keeps.foldRange
    (fun _ _ => (onlyAdds_pageTableMap _ _ _ calls).bind fun _ => .pure ()) () pages

theorem onlyAdds_mapper (copy : LoaderCopy) (virtBase phys : U64) (flags : U32) (pages : Nat) :
    OnlyAdds (copy.mapper platform virtBase phys flags pages) := by
  cases copy with
  | kernel => exact onlyAdds_mapPages virtBase phys flags pages
  | compat =>
      exact fun calls => Keeps.foldRange
        (fun _ _ => (onlyAdds_pageTableMap _ _ _ calls).bind fun _ =>
          (silent_refuseIf _ _).keeps) () pages

theorem onlyAdds_mapStack (copy : LoaderCopy) : OnlyAdds (copy.mapStack platform) := by
  cases copy with
  | kernel =>
      exact fun calls => (onlyAdds_physAlloc _ calls).bind fun _ => onlyAdds_mapPages _ _ _ _ calls
  | compat =>
      exact fun calls => (onlyAdds_physAlloc _ calls).bind fun _ => onlyAdds_mapPages _ _ _ _ calls

/-- Installing a segment asks for its block, and then only adds calls. -/
theorem asked_installWith (copy : LoaderCopy) (loadBase : U64) (segment : Elf64ProgramHeader)
    (start : LoaderState) :
    (start.asked platform segment.pages).calls <:+
      (finalState
        (installWith platform (copy.mapper platform) data loadBase segment start)).calls := by
  by_cases null : platform.physAlloc start.calls.length segment.pages = 0
  · rw [installWith_null null]
    exact List.suffix_refl _
  · by_cases copyable : Copyable data segment
    · obtain ⟨memory, maps⟩ := installWith_maps loadBase null copyable
      rw [maps]
      exact onlyAdds_mapper copy _ _ _ _ _ _ (List.suffix_refl _)
    · rw [installWith_panics null copyable]
      exact List.suffix_refl _

theorem onlyAdds_loadSegmentWith (copy : LoaderCopy) (loadBase : U64) (i : Nat) (last : Unit) :
    OnlyAdds (loadSegmentWith platform (copy.mapper platform) data header loadBase i last) := by
  intro calls
  refine (silent_orPanic _).keeps.bind fun pType => ?_
  split
  · refine (silent_orPanic _).keeps.bind fun segment start suffix => ?_
    exact (suffix.trans (List.suffix_cons _ _)).trans
      (asked_installWith copy loadBase segment start)
  · exact .pure ()

end OnlyAdds

/-- **A run of pages.** The kernel maps its pages one after the other, with one call
for each. -/
theorem mapPages_spec (platform : Platform) (virtBase phys : U64) (flags : U32) (pages : Nat)
    (start : LoaderState) :
    ∃ final, mapPages platform virtBase phys flags pages start = .ok () final ∧
      start.calls <:+ final.calls ∧ final.calls.length = start.calls.length + pages ∧
      ∀ k < pages, final.call (start.calls.length + k) =
        some (.pageTableMap (virtBase + BitVec.ofNat 64 k * 4096)
          (phys + BitVec.ofNat 64 k * 4096) flags
          (platform.pageTableMap (start.calls.length + k))) := by
  induction pages with
  | zero =>
      exact ⟨start, rfl, List.suffix_refl _, rfl, fun _ none => absurd none (Nat.not_lt_zero _)⟩
  | succ pages ih =>
      obtain ⟨middle, done, later, length, calls⟩ := ih
      refine ⟨_, foldRange_succ_of_ok done, later.trans (List.suffix_cons _ _), ?_, ?_⟩
      · exact congrArg Nat.succ length
      · intro k below
        rcases Nat.lt_succ_iff_lt_or_eq.mp below with earlier | rfl
        · rw [← calls k earlier]
          exact call_of_suffix (List.suffix_cons _ _) (by omega)
        · rw [← length]
          exact call_last

/-- The platform maps this many pages from a call on. -/
def MapsPages (platform : Platform) (number : Nat) (pages : U64) : Prop :=
  ∀ k < pages.toNat, platform.pageTableMap (number + k) = true

/-- A platform with memory for the first block only. -/
def oneBlock : Platform where
  physAlloc count _ := if count = 0 then 0x10_0000 else 0
  pageTableMap _ := true

end Lofita.Elf
