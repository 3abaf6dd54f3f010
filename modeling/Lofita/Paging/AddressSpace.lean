import Std.Data.TreeMap
import Lofita.Paging.Refinement

/-! # An address space implements a finite map

The pages mapped in an address space of `PagingContext.create` are a finite map
from virtual pages to physical pages and rights. The walk of the processor reads
exactly this map (`address_space_implements_map`): every table restricts no
right, so the rights of a page are those of its leaf, and a `map` that runs out
of memory has added only tables.
-/

namespace Lofita.Paging

open Lofita.Foundation Lofita.Foundation.TableTree Std

/-! ### The abstract address space -/

/-- A physical address and the rights to it. -/
structure Access where
  phys : Nat
  writable : Bool
  user : Bool
  noExecute : Bool
deriving DecidableEq, Repr

/-- The mapped pages, by the number of the virtual page. -/
abbrev PageMap := TreeMap Nat Access

/-- The access to a virtual address. -/
def PageMap.access (pages : PageMap) (vaddr : U64) : Option Access :=
  pages[pageOf vaddr]?.map fun page => { page with phys := page.phys + vaddr.toNat % 4096 }

/-- The access that a `map` call asks for. -/
def requested (physicalAddr flags : U64) : Access where
  phys := physicalAddr.toNat
  writable := writable flags
  user := user flags
  noExecute := flags &&& pfNoExecute ≠ 0

/-! ### The calls of one address space -/

inductive SpaceCall where
  | map (virtualAddr physicalAddr flags : U64)
  | unmap (virtualAddr : U64)
deriving DecidableEq, Repr

/-- The flags a caller of `map` combines. -/
def mapFlags : U64 := pfPresent ||| pfWritable ||| pfUser ||| pfNoExecute

/-- The physical address is that of a page, and the flags are map flags. -/
def SpaceCall.WellFormed : SpaceCall → Prop
  | .map _ physicalAddr flags =>
      4096 ∣ physicalAddr.toNat ∧ physicalAddr.toNat < 2 ^ 52 ∧ flags &&& ~~~mapFlags = 0
  | .unmap _ => True

instance : ∀ call : SpaceCall, Decidable call.WellFormed
  | .map _ _ _ => inferInstanceAs (Decidable (_ ∧ _ ∧ _))
  | .unmap _ => .isTrue trivial

/-- The tables of an address space together with the finite map: the last
successful `map` of a page counts, and `unmap` deletes the page. -/
structure TracedSpace where
  memory : PhysMemory
  pages : PageMap

def addressSpace (alloc : Allocator) (context : PagingContext) : System TracedSpace SpaceCall where
  step state
    | .map virtualAddr physicalAddr flags =>
        match context.map alloc virtualAddr physicalAddr flags state.memory with
        | (.mapped, memory) =>
            { memory
              pages := state.pages.insert (pageOf virtualAddr) (requested physicalAddr flags) }
        | (_, memory) => { state with memory }
    | .unmap virtualAddr =>
        match context.unmap virtualAddr state.memory with
        | some memory => { memory, pages := state.pages.erase (pageOf virtualAddr) }
        | none => state

/-- Where a walk ends and with which rights, over all the entries passed. -/
def Translation.access (translation : Translation) : Access where
  phys := translation.phys
  writable := translation.writable
  user := translation.user
  noExecute := !translation.executable

/-- What the processor finds at a virtual address. -/
def translate (memory : PhysMemory) (context : PagingContext) (vaddr : U64) : Option Access :=
  (walk memory.word context.pml4 vaddr).map Translation.access

/-- The walk of every address gives what the finite map gives. -/
def Implements (context : PagingContext) (state : TracedSpace) : Prop :=
  ∀ vaddr, translate state.memory context vaddr = state.pages.access vaddr

/-- A call returns, and a `map` call that fails changes the translation of no address. -/
def FailsCleanly (alloc : Allocator) (context : PagingContext) (state : TracedSpace) :
    SpaceCall → Prop
  | .map virtualAddr physicalAddr flags =>
      let result := context.map alloc virtualAddr physicalAddr flags state.memory
      result.1 ≠ .trap ∧ (result.1 = .failed →
        ∀ vaddr, translate result.2 context vaddr = translate state.memory context vaddr)
  | .unmap virtualAddr => context.unmap virtualAddr state.memory ≠ none

/-! ### The tables represent the map -/

/-- The access a leaf gives when nothing above it restricts it. -/
def leafAccess (leaf : U64) : Access where
  phys := address leaf
  writable := writable leaf
  user := user leaf
  noExecute := !executable leaf

/-- The tables are sound, restrict no right and have the pages as their leaves. -/
structure Represents (alloc : Allocator) (root : Nat) (state : TracedSpace) : Prop where
  sound : Sound alloc root state.memory
  tables : ∀ path entry, path.length ≤ 3 → InRange path →
    entryAt state.memory.word root path = some entry → present entry = true →
    huge entry = false ∧ unrestricted entry = true
  leaves : ∀ vaddr, (leafAt state.memory.word root (pathOf vaddr)).map leafAccess =
    state.pages[pageOf vaddr]?

variable {alloc : Allocator} {root : Nat} {memory : PhysMemory} {state : TracedSpace}

theorem Represents.clear (represents : Represents alloc root state) (vaddr : U64) :
    Clear state.memory.word root (pathOf vaddr) :=
  fun upper entry short isSuffix found isPresent =>
    (represents.tables upper entry short (InRange.suffix (inRange_pathOf vaddr) isSuffix) found
      isPresent).1

/-- Under entries that restrict nothing the rights are those of the leaf. -/
theorem access_of_unrestricted {upper : List U64} (phys : Nat) (leaf : U64)
    (isOpen : ∀ entry ∈ upper, unrestricted entry = true) :
    Translation.access { phys, entries := upper ++ [leaf] } = { leafAccess leaf with phys } := by
  have rights : ∀ entry ∈ upper,
      writable entry = true ∧ user entry = true ∧ executable entry = true :=
    fun entry member => unrestricted_iff.mp (isOpen entry member)
  unfold Translation.access Translation.writable Translation.user Translation.executable leafAccess
  rw [all_append_leaf leaf fun entry member => (rights entry member).1,
    all_append_leaf leaf fun entry member => (rights entry member).2.1,
    all_append_leaf leaf fun entry member => (rights entry member).2.2]

/-- **What the tables represent, the walk reads.** -/
theorem Represents.implements (represents : Represents alloc root state) :
    Implements ⟨root⟩ state := by
  intro vaddr
  have leaf := represents.leaves vaddr
  unfold translate PageMap.access
  rcases walk_cases vaddr (represents.clear vaddr) with
    ⟨noLeaf, stuck⟩ | ⟨upper, entry, found, ends, passed⟩
  · rw [noLeaf, Option.map_none] at leaf
    rw [stuck, ← leaf]
    rfl
  · rw [found, Option.map_some] at leaf
    rw [ends, ← leaf, Option.map_some, Option.map_some, access_of_unrestricted]
    · rfl
    · intro other member
      obtain ⟨isPresent, path, short, isSuffix, here⟩ := passed other member
      exact (represents.tables path other short (InRange.suffix (inRange_pathOf vaddr) isSuffix)
        here isPresent).2

/-- A change that keeps the upper entries, up to new tables, and answers the
pages at its leaves. -/
theorem Represents.change (represents : Represents alloc root state) {after : PhysMemory}
    {pages : PageMap} (sound : Sound alloc root after)
    (extension : Extends root state.memory after) (adds : AddsOpen root state.memory after)
    (leaves : ∀ vaddr, (leafAt after.word root (pathOf vaddr)).map leafAccess =
      pages[pageOf vaddr]?) : Represents alloc root ⟨after, pages⟩ where
  sound := sound
  tables := by
    intro path entry short inRange found isPresent
    constructor
    · rcases extension.new short inRange found isPresent with earlier | notHuge
      · exact (represents.tables path entry short inRange earlier isPresent).1
      · exact notHuge
    · rcases adds path entry short inRange found isPresent with earlier | isOpen
      · exact (represents.tables path entry short inRange earlier isPresent).2
      · exact isOpen
  leaves := leaves

/-- Flags drawn from the map flags lie outside the address field. -/
theorem and_physAddrMask_of_mapFlags {flags : U64} (drawn : flags &&& ~~~mapFlags = 0) :
    flags &&& physAddrMask = 0#64 := by
  have inside : physAddrMask = ~~~mapFlags &&& physAddrMask := by decide
  rw [inside, ← BitVec.and_assoc, drawn]
  exact BitVec.zero_and

/-- A leaf written by `map` gives the access asked for. -/
theorem leafAccess_leafEntry {physicalAddr flags : U64} (aligned : 4096 ∣ physicalAddr.toNat)
    (small : physicalAddr.toNat < 2 ^ 52) (drawn : flags &&& ~~~mapFlags = 0) :
    leafAccess (leafEntry physicalAddr flags) = requested physicalAddr flags := by
  have page : physicalAddr &&& physAddrMask = physicalAddr := by
    have masked := ofNat_and_physAddrMask aligned small
    rwa [BitVec.ofNat_toNat, BitVec.setWidth_eq] at masked
  unfold leafAccess requested
  rw [address_leafEntry (and_physAddrMask_of_mapFlags drawn), page, writable_leafEntry,
    user_leafEntry, executable_leafEntry]
  unfold executable
  simp only [ne_eq, decide_not]

/-- A call keeps the representation. -/
theorem Represents.step (fresh : FreshPages alloc) (represents : Represents alloc root state)
    {call : SpaceCall} (wellFormed : call.WellFormed) :
    Represents alloc root ((addressSpace alloc ⟨root⟩).step state call) := by
  cases call with
  | map virtualAddr physicalAddr flags =>
      obtain ⟨aligned, small, drawn⟩ := wellFormed
      obtain ⟨returns, sound, extension, adds, leaves⟩ := map_spec fresh represents.sound
        virtualAddr (represents.clear virtualAddr) physicalAddr flags
      simp only [addressSpace]
      generalize PagingContext.map alloc ⟨root⟩ virtualAddr physicalAddr flags state.memory = result
        at returns sound extension adds leaves ⊢
      obtain ⟨answer, after⟩ := result
      cases answer with
      | trap => exact absurd rfl returns
      | failed =>
          refine represents.change sound extension adds fun vaddr => ?_
          rw [leaves rfl (inRange_pathOf vaddr), if_neg fun both => nomatch both.1]
          exact represents.leaves vaddr
      | mapped =>
          refine represents.change sound extension adds fun vaddr => ?_
          rw [leaves rfl (inRange_pathOf vaddr), TreeMap.getElem?_insert]
          simp only [true_and, pathOf_eq_iff, Std.compare_eq_iff_eq]
          by_cases here : pageOf vaddr = pageOf virtualAddr
          · rw [if_pos here, if_pos here.symm, Option.map_some,
              leafAccess_leafEntry aligned small drawn]
          · rw [if_neg here, if_neg (Ne.symm here), represents.leaves vaddr]
  | unmap virtualAddr =>
      obtain ⟨after, returns, sound, extension, adds, leaves⟩ := unmap_spec fresh represents.sound
        virtualAddr (represents.clear virtualAddr)
      simp only [addressSpace, returns]
      refine represents.change sound extension adds fun vaddr => ?_
      rw [leaves rfl (inRange_pathOf vaddr), TreeMap.getElem?_erase]
      simp only [pathOf_eq_iff, Std.compare_eq_iff_eq]
      by_cases here : pageOf vaddr = pageOf virtualAddr
      · rw [if_pos here, if_pos here.symm, Option.map_none]
      · rw [if_neg here, if_neg (Ne.symm here), represents.leaves vaddr]

/-- A call returns, and a failed `map` changes no translation. -/
theorem Represents.failsCleanly (fresh : FreshPages alloc)
    (represents : Represents alloc root state) {call : SpaceCall} (wellFormed : call.WellFormed) :
    FailsCleanly alloc ⟨root⟩ state call := by
  cases call with
  | unmap virtualAddr =>
      obtain ⟨after, returns, _⟩ := unmap_spec fresh represents.sound virtualAddr
        (represents.clear virtualAddr)
      exact Option.ne_none_iff_exists'.mpr ⟨after, returns⟩
  | map virtualAddr physicalAddr flags =>
      have returns := (map_spec fresh represents.sound virtualAddr (represents.clear virtualAddr)
        physicalAddr flags).1
      refine ⟨returns, fun failed vaddr => ?_⟩
      have next := (represents.step fresh wellFormed).implements vaddr
      simp only [addressSpace] at next
      generalize PagingContext.map alloc ⟨root⟩ virtualAddr physicalAddr flags state.memory = result
        at failed next ⊢
      obtain ⟨answer, after⟩ := result
      subst failed
      exact next.trans (represents.implements vaddr).symm

/-! ### A new address space -/

/-- A root table without entries leads to no other table. -/
theorem tableAt_of_blank {word : Nat → U64} (blank : ∀ index < 512, word (slot root index) = 0) :
    ∀ {path : List Nat}, path ≠ [] → InRange path → tableAt child word root path = none
  | [], nonempty, _ => absurd rfl nonempty
  | [index], _, inRange => by
      rw [tableAt_of_found child index rfl, blank index inRange.head]
      decide
  | index :: next :: rest, _, inRange =>
      tableAt_of_missing child (tableAt_of_blank blank (List.cons_ne_nil next rest) inRange.tail)

/-- The address space of `PagingContext.create` represents the empty map. -/
theorem represents_created (fresh : FreshPages alloc) {context : PagingContext} {after : PhysMemory}
    (created : PagingContext.create alloc memory = (some context, after)) :
    Represents alloc context.pml4 ⟨after, ∅⟩ := by
  simp only [PagingContext.create, PhysMemory.newTable] at created
  cases answer : alloc memory.requests with
  | none =>
      rw [answer] at created
      cases created
  | some page =>
      rw [answer] at created
      cases created
      have blank : ∀ index < 512, cleared memory.word page 0 (slot page index) = 0 :=
        fun index below => cleared_of_onTable (onTable_slot below) 0
      have missing {path : List Nat} (nonempty : path ≠ []) (inRange : InRange path) :
          tableAt child (cleared memory.word page 0) page path = none :=
        tableAt_of_blank blank nonempty inRange
      constructor
      · constructor
        · exact fresh.answered_aligned
        · intro path table _ inRange found
          cases path with
          | nil =>
              cases found
              exact ⟨memory.requests, Nat.lt_succ_self _, answer⟩
          | cons index rest =>
              cases (missing (List.cons_ne_nil index rest) inRange).symm.trans found
        · intro first second table _ firstRange _ secondRange firstFound secondFound
          cases first with
          | cons index rest =>
              cases (missing (List.cons_ne_nil index rest) firstRange).symm.trans firstFound
          | nil =>
              cases second with
              | nil => rfl
              | cons index rest =>
                  cases (missing (List.cons_ne_nil index rest) secondRange).symm.trans secondFound
      · intro path entry _ inRange found isPresent
        cases path with
        | nil => cases found
        | cons index rest =>
            obtain ⟨table, here, rfl⟩ := entryAt_cons.mp found
            cases rest with
            | nil =>
                cases here
                change present (cleared memory.word page 0 (slot page index)) = true at isPresent
                rw [blank index inRange.head] at isPresent
                exact absurd isPresent (by decide)
            | cons next rest =>
                cases (missing (List.cons_ne_nil next rest) inRange.tail).symm.trans here
      · intro vaddr
        have noLeaf : leafAt (cleared memory.word page 0) page (pathOf vaddr) = none :=
          leafAt_of_missing (missing (List.cons_ne_nil _ _) (inRange_pathOf vaddr).tail)
        change (leafAt (cleared memory.word page 0) page (pathOf vaddr)).map leafAccess = _
        rw [noLeaf]
        rfl

/-- **Page tables implement a map.** From the address space of `create`, under any
calls of `map` with the addresses of physical pages and map flags and of `unmap`,
the walk of every virtual address gives the page, with the effective rights, that
a finite map keyed by the virtual page gives; and every call returns, where a `map` that runs
out of memory changes the translation of no address. -/
theorem address_space_implements_map (fresh : FreshPages alloc) {context : PagingContext}
    {after : PhysMemory} (created : PagingContext.create alloc memory = (some context, after))
    {calls : List SpaceCall} (wellFormed : ∀ call ∈ calls, call.WellFormed) :
    (addressSpace alloc context).Always (Implements context) ⟨after, ∅⟩ calls ∧
      (addressSpace alloc context).Along (FailsCleanly alloc context) ⟨after, ∅⟩ calls := by
  have along : (addressSpace alloc context).Along (fun _ call => call.WellFormed) ⟨after, ∅⟩
      calls :=
    System.along_of_forall fun call member _ => wellFormed call member
  have initial := represents_created fresh created
  constructor
  · exact System.always_of_invariant (Represents alloc context.pml4)
      (fun _ _ represents called => represents.step fresh called)
      (fun _ represents => represents.implements) initial along
  · exact System.along_of_invariant
      (fun _ _ represents called => represents.step fresh called)
      (fun _ _ represents called => represents.failsCleanly fresh called) initial along

/-- The address space made when the sample allocator has four pages left. -/
def lastSpace : PagingContext × PhysMemory :=
  ((PagingContext.create sampleAllocator { blankMemory with requests := 296 }).1.getD ⟨0⟩,
    (PagingContext.create sampleAllocator { blankMemory with requests := 296 }).2)

/-- A page is mapped read-only, mapped anew, and unmapped; a page of another
region finds no table any more. -/
def lastCalls : List SpaceCall :=
  [.map 0x4000_0000 0x50_0000 (pfPresent ||| pfUser ||| pfNoExecute),
    .map 0x4000_0000 0x51_0000 (pfPresent ||| pfWritable),
    .map 0x80_0000_0000 0x52_0000 pfPresent, .unmap 0x4000_0000]

theorem address_space_implements_map_sample :
    (addressSpace sampleAllocator lastSpace.1).Always (Implements lastSpace.1) ⟨lastSpace.2, ∅⟩
        lastCalls ∧
      (addressSpace sampleAllocator lastSpace.1).Along (FailsCleanly sampleAllocator lastSpace.1)
        ⟨lastSpace.2, ∅⟩ lastCalls := by
  have created : PagingContext.create sampleAllocator { blankMemory with requests := 296 } =
      (some lastSpace.1, lastSpace.2) := rfl
  exact address_space_implements_map freshPages_sampleAllocator created (by decide)

end Lofita.Paging
