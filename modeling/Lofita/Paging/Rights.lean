import Lofita.Paging.Answers
import Lofita.Paging.Refinement

/-! # Rights in the kernel address space

Every table that `ensure_table` makes leaves the rights to the leaves, but the entry
for the first 512 GB that `paging_global_init` makes keeps user code out. So a page
has the rights asked for if and only if it is not asked for user code or lies above
512 GB (`rights_as_asked_iff`), as long as the tables are fresh pages and no call below
2 GB, which takes a huge page for a table or traps, writes into them.
-/

namespace Lofita.Paging

open Lofita.Foundation Lofita.Foundation.TableTree

/-- The arguments of a mapping. -/
structure MapCall where
  virtualAddr : U64
  physicalAddr : U64
  flags : U32
deriving DecidableEq, Repr

/-- The calls of `page_table_map`; a kernel that halted answers nothing more. -/
def mapping (alloc : Allocator) : System PagingState MapCall where
  step paging call :=
    match pageTableMap alloc call.virtualAddr call.physicalAddr call.flags paging with
    | some (_, paging) => paging
    | none => paging

/-- The walk of an address ends with exactly the rights that a flag word asks for. -/
def RightsAsAsked (paging : PagingState) (vaddr : U64) (flags : U32) : Prop :=
  ∃ context translation, paging.kernelPaging = some context ∧
    walk paging.memory.word context.pml4 vaddr = some translation ∧
    translation.writable = decide (flags &&& 1 ≠ 0) ∧
    translation.user = decide (flags &&& 2 ≠ 0) ∧
    translation.executable = decide (flags &&& 4 ≠ 0)

/-- The word that a call below 2 GB takes for an entry of a page directory: a word of
the memory that the huge page stands for. -/
def mistakenEntry (vaddr : U64) : Nat :=
  slot ((vaSplit vaddr).pdpt * 2 ^ 30) (vaSplit vaddr).pd

/-- The word that a call below 2 GB finds in place of a table and writes. -/
def mistakenWord (word : Nat → U64) (vaddr : U64) : Nat :=
  let entry := mistakenEntry vaddr
  if present (word entry) then slot (address (word entry)) (vaSplit vaddr).pt else entry

/-- The call is made above 2 GB, or what it takes for a table is none. -/
def SparesTables (paging : PagingState) (call : MapCall) : Prop :=
  Above call.virtualAddr ∨ ∀ context, paging.kernelPaging = some context →
    ¬ InTables paging.memory.word context.pml4 (mistakenWord paging.memory.word call.virtualAddr)

variable {alloc : Allocator} {root : Nat} {memory : PhysMemory}

/-! ### Writing outside of the tables -/

/-- No word of a table changes. -/
def Untouched (root : Nat) (before after : PhysMemory) : Prop :=
  ∀ addr, InTables before.word root addr → after.word addr = before.word addr

namespace Untouched

variable {before after : PhysMemory}

/-- An untouched memory has the same tables. -/
theorem tableAt_eq (untouched : Untouched root before after) {path : List Nat}
    (short : path.length ≤ 3) (inRange : InRange path) :
    tableAt child after.word root path = tableAt child before.word root path := by
  refine tableAt_congr (fun {other table index} otherShort otherRange below found => ?_) short
    inRange
  rw [untouched _ ⟨other, table, Nat.le_of_lt otherShort, otherRange, found, onTable_slot below⟩]

/-- It has the same entries. -/
theorem entryAt_eq (untouched : Untouched root before after) {path : List Nat}
    (short : path.length ≤ 4) (inRange : InRange path) :
    entryAt after.word root path = entryAt before.word root path := by
  cases path with
  | nil => rfl
  | cons index path =>
      have upper : path.length ≤ 3 := Nat.le_of_succ_le_succ short
      simp only [entryAt]
      rw [untouched.tableAt_eq upper inRange.tail]
      cases found : tableAt child before.word root path with
      | none => rfl
      | some table =>
          exact congrArg some
            (untouched _ ⟨path, table, upper, inRange.tail, found, onTable_slot inRange.head⟩)

/-- A word stored outside the tables touches none of them. -/
theorem store (untouched : Untouched root before after) {addr : Nat}
    (outside : ¬ InTables before.word root addr) (entry : U64) :
    Untouched root before (after.store addr entry) := by
  intro other inside
  have apart : other ≠ addr := fun same => outside (same ▸ inside)
  exact (Function.update_of_ne apart _ _).trans (untouched other inside)

/-- Tables that are not touched stay sound. -/
theorem sound (fresh : FreshPages alloc) (untouched : Untouched root before after)
    (sound : Sound alloc root before) (requests : before.requests ≤ after.requests) :
    Sound alloc root after :=
  { Placed.congr sound untouched.tableAt_eq with
    aligned := fresh.answered_aligned
    owned_of := fun short inRange found =>
      (sound.owned_of short inRange (untouched.tableAt_eq short inRange ▸ found)).mono requests }

end Untouched

/-- A page that the allocator has not answered yet holds no table. -/
theorem not_inTables_of_next (fresh : FreshPages alloc) (sound : Sound alloc root memory)
    {page addr : Nat} (next : alloc memory.requests = some page) (onPage : OnTable page addr) :
    ¬ InTables memory.word root addr := by
  rintro ⟨path, table, short, inRange, found, onTable⟩
  have answered := sound.owned_of short inRange found
  have same := eq_of_onTable (fresh.aligned next) (fresh.answered_aligned answered) onPage onTable
  exact fresh.not_answered next (same ▸ answered)

/-- `ensure_table` at a word outside of the tables: a word that is present stands for a
table, and otherwise a page that holds no table becomes one. -/
theorem ensureTable_outside (fresh : FreshPages alloc) (sound : Sound alloc root memory)
    (addr : Nat)
    (outside : present (memory.word addr) = false → ¬ InTables memory.word root addr) :
    let result := memory.ensureTable alloc addr
    Untouched root memory result.2 ∧ memory.requests ≤ result.2.requests ∧
      ∀ table, result.1 = .table table →
        present (memory.word addr) = true ∧ table = address (memory.word addr) ∨
          present (memory.word addr) = false ∧ alloc memory.requests = some table := by
  cases there : present (memory.word addr) with
  | true =>
      rw [ensureTable_of_present there]
      refine ⟨fun _ _ => rfl, Nat.le_refl _, fun _ same => .inl ⟨rfl, ?_⟩⟩
      unfold TableAnswer.pointer at same
      split_ifs at same
      exact (TableAnswer.table.inj same).symm
  | false =>
      simp only [PhysMemory.ensureTable, PhysMemory.newTable]
      rw [if_neg (of_decide_eq_false there)]
      cases next : alloc memory.requests with
      | none => exact ⟨fun _ _ => rfl, Nat.le_succ _, fun _ answer => by cases answer⟩
      | some page =>
          have cleared : Untouched root memory
              { memory.clear page with requests := memory.requests + 1 } := fun other inside =>
            cleared_of_not_onTable
              (fun onPage => not_inTables_of_next fresh sound next onPage inside) 0
          exact ⟨cleared.store (outside there) _, Nat.le_succ _, fun _ same =>
            .inr ⟨trivial, congrArg some (TableAnswer.table.inj same)⟩⟩

/-- **A call below 2 GB** writes outside of the page tables if what it takes for a table is
none. -/
theorem KernelSpace.map_low (fresh : FreshPages alloc) (space : KernelSpace alloc root memory)
    {vaddr : U64} (low : ¬ Above vaddr)
    (spares : ¬ InTables memory.word root (mistakenWord memory.word vaddr))
    (physicalAddr flags : U64) :
    let result := PagingContext.map alloc ⟨root⟩ vaddr physicalAddr flags memory
    Untouched root memory result.2 ∧ memory.requests ≤ result.2.requests := by
  obtain ⟨pdpt, first, toPdpt, value, _, below⟩ := space.low fresh low
  have second := present_identityEntry below
  simp only [PagingContext.map]
  rw [ensureTable_of_present first, toPdpt]
  simp only
  rw [ensureTable_of_present (value.symm ▸ second.1), value, address_identityEntry below]
  by_cases trapped : (vaSplit vaddr).pdpt * 2 ^ 30 = 0
  · rw [trapped]
    exact ⟨fun _ _ => rfl, Nat.le_refl _⟩
  have entry : slot ((vaSplit vaddr).pdpt * 2 ^ 30) (vaSplit vaddr).pd = mistakenEntry vaddr := rfl
  rw [pointer_of_ne_zero trapped]
  simp only [entry]
  have third := ensureTable_outside fresh space.sound (mistakenEntry vaddr) fun absent => by
    rwa [mistakenWord, if_neg (absent ▸ Bool.false_ne_true)] at spares
  generalize memory.ensureTable alloc (mistakenEntry vaddr) = result at third ⊢
  obtain ⟨answer, grown⟩ := result
  obtain ⟨untouched, requests, answers⟩ := third
  cases answer with
  | trap => exact ⟨untouched, requests⟩
  | outOfMemory => exact ⟨untouched, requests⟩
  | table pt =>
      refine ⟨untouched.store ?_ _, requests⟩
      rcases answers pt rfl with ⟨there, rfl⟩ | ⟨_, next⟩
      · rwa [mistakenWord, if_pos there] at spares
      · have below : (vaSplit vaddr).pt < 512 := (inRange_pathOf vaddr).head
        exact not_inTables_of_next fresh space.sound next (onTable_slot below)

/-- **Unmapping below 2 GB** writes outside of the page tables, too, if it does not trap. -/
theorem KernelSpace.unmap_low (fresh : FreshPages alloc) (space : KernelSpace alloc root memory)
    {vaddr : U64} (low : ¬ Above vaddr)
    (spares : ¬ InTables memory.word root (mistakenWord memory.word vaddr)) {after : PhysMemory}
    (returns : PagingContext.unmap ⟨root⟩ vaddr memory = some after) :
    Untouched root memory after ∧ memory.requests ≤ after.requests := by
  obtain ⟨pdpt, first, toPdpt, value, _, below⟩ := space.low fresh low
  have second := present_identityEntry below
  have same : Untouched root memory memory ∧ memory.requests ≤ memory.requests :=
    ⟨fun _ _ => rfl, Nat.le_refl _⟩
  simp only [PagingContext.unmap] at returns
  rw [if_neg (of_decide_eq_true first), toPdpt] at returns
  simp only at returns
  rw [value, if_neg (of_decide_eq_true second.1), address_identityEntry below] at returns
  by_cases trapped : (vaSplit vaddr).pdpt * 2 ^ 30 = 0
  · rw [trapped] at returns
    cases returns
  have entry : slot ((vaSplit vaddr).pdpt * 2 ^ 30) (vaSplit vaddr).pd = mistakenEntry vaddr := rfl
  rw [pointer_of_ne_zero trapped] at returns
  simp only [entry] at returns
  split_ifs at returns with absent
  · cases returns
    exact same
  · unfold TableAnswer.pointer at returns
    split_ifs at returns with null
    cases returns
    have there : present (memory.word (mistakenEntry vaddr)) = true := decide_eq_true absent
    rw [mistakenWord, if_pos there] at spares
    exact ⟨same.1.store spares 0, same.2⟩

/-! ### The entries above the leaves -/

/-- The entry for the first 512 GB keeps user code out; every other entry that names a
table leaves all rights to what is below. -/
structure RightsSpace (alloc : Allocator) (root : Nat) (memory : PhysMemory) : Prop
    extends KernelSpace alloc root memory where
  first : ∃ entry, entryAt memory.word root [0] = some entry ∧ present entry = true ∧
    writable entry = true ∧ executable entry = true ∧ user entry = false
  others : ∀ path entry, path.length ≤ 3 → InRange path → path ≠ [0] →
    entryAt memory.word root path = some entry → present entry = true → Paging.huge entry = false →
    unrestricted entry = true

/-- Index 0 is in range. -/
theorem inRange_first : InRange [0] := inRange_identity (by decide : 0 < 2) |>.tail

/-- New tables leave all rights to what is below. -/
theorem RightsSpace.extends (space : RightsSpace alloc root memory) {after : PhysMemory}
    (sound : Sound alloc root after) (extension : Extends root memory after)
    (adds : AddsOpen root memory after) : RightsSpace alloc root after where
  toKernelSpace := space.toKernelSpace.extends sound extension
  first := by
    obtain ⟨entry, found, isPresent, rights⟩ := space.first
    exact ⟨entry, extension.kept (by decide : 1 ≤ 3) inRange_first found isPresent, isPresent,
      rights⟩
  others := by
    intro path entry short inRange other found isPresent notHuge
    rcases adds path entry short inRange found isPresent with earlier | isOpen
    · exact space.others path entry short inRange other earlier isPresent notHuge
    · exact isOpen

/-- Nothing changes with the words outside of the tables. -/
theorem RightsSpace.untouched (fresh : FreshPages alloc) (space : RightsSpace alloc root memory)
    {after : PhysMemory} (untouched : Untouched root memory after)
    (requests : memory.requests ≤ after.requests) : RightsSpace alloc root after where
  sound := untouched.sound fresh space.sound requests
  identity := by
    intro index below
    rw [untouched.entryAt_eq (by simp) (inRange_identity below)]
    exact space.identity index below
  huge := by
    intro path entry short inRange found
    rw [untouched.entryAt_eq (Nat.le_succ_of_le short) inRange] at found
    exact space.huge short inRange found
  first := by
    rw [untouched.entryAt_eq (by simp) inRange_first]
    exact space.first
  others := by
    intro path entry short inRange other found
    rw [untouched.entryAt_eq (Nat.le_succ_of_le short) inRange] at found
    exact space.others path entry short inRange other found

/-- The entries of the first two tables. -/
theorem IdentityTables.rightsSpace {pml4 pdpt : Nat} (space : KernelSpace alloc pml4 memory)
    (tables : IdentityTables memory.word pml4 pdpt) (aligned : 4096 ∣ pdpt)
    (small : pdpt < 2 ^ 52) : RightsSpace alloc pml4 memory where
  toKernelSpace := space
  first := by
    have value := (tables.root 0 (by decide)).trans (if_pos rfl)
    have named := (tables.tableAt_single aligned small (by decide : 0 < 512)).trans (if_pos rfl)
    rw [tableAt_of_found child 0 rfl] at named
    refine ⟨_, entryAt_cons.mpr ⟨pml4, rfl, rfl⟩, (child_eq_some.mp named).1, ?_⟩
    rw [value, BitVec.or_assoc]
    unfold writable executable user
    rw [ofNat_or_and aligned small (by decide), ofNat_or_and aligned small (by decide),
      ofNat_or_and aligned small (by decide)]
    decide
  others := by
    intro path entry _ inRange other found isPresent notHuge
    cases path with
    | nil => cases found
    | cons index rest =>
        obtain ⟨table, tableFound, rfl⟩ := entryAt_cons.mp found
        exfalso
        rcases tables.cases_of_tableAt aligned small inRange.tail tableFound with
          ⟨rfl, rfl⟩ | ⟨rfl, rfl⟩
        · have later : index ≠ 0 := fun zero => other (congrArg (fun i => [i]) zero)
          rw [tables.root index inRange.head, if_neg later] at isPresent
          exact absurd isPresent (by decide)
        · rw [tables.second index inRange.head] at isPresent notHuge
          have none := child_identityEntry index
          rw [child, isPresent, notHuge] at none
          cases none

/-! ### Runs -/

/-- The kernel has its address space. -/
structure Booted (root : Nat) (paging : PagingState) : Prop where
  context : paging.kernelPaging = some ⟨root⟩
  initialized : paging.pagingInitialized = true

/-- The kernel has its address space, in tables as `RightsSpace` has them. -/
structure Running (alloc : Allocator) (root : Nat) (paging : PagingState) : Prop
    extends Booted root paging where
  space : RightsSpace alloc root paging.memory

/-- It has them from the start. -/
theorem running_boot (fresh : FreshPages alloc) {paging : PagingState}
    (booted : pagingGlobalInit alloc ⟨memory, none, false⟩ = some paging) :
    ∃ root, Running alloc root paging := by
  obtain ⟨root, context, initialized, space, _, _⟩ := kernelSpace_init fresh booted
  obtain ⟨pml4, pdpt, first, second, rfl⟩ := pagingGlobalInit_eq_some booted
  obtain rfl : pml4 = root := congrArg PagingContext.pml4 (Option.some.inj context)
  exact ⟨pml4, ⟨context, initialized⟩, (fresh.identityTables first second).rightsSpace space
    (fresh.aligned second) (fresh.small second)⟩

variable {paging : PagingState}

/-- With an address space the call maps in its tables. -/
theorem Booted.pageTableMap_eq (booted : Booted root paging) (virtualAddr physicalAddr : U64)
    (flags : U32) : pageTableMap alloc virtualAddr physicalAddr flags paging =
      let result := PagingContext.map alloc ⟨root⟩ virtualAddr physicalAddr (pteFlags flags)
        paging.memory
      some (result.1, { paging with memory := result.2 }) :=
  pageTableMap_of_initialized booted.initialized booted.context virtualAddr physicalAddr flags

/-- One call of a run, on the memory alone. -/
theorem Booted.step_eq (booted : Booted root paging) (call : MapCall) :
    (mapping alloc).step paging call =
      { paging with
        memory := (PagingContext.map alloc ⟨root⟩ call.virtualAddr call.physicalAddr
          (pteFlags call.flags) paging.memory).2 } := by
  simp only [mapping, booted.pageTableMap_eq]

/-- A call keeps the address space. -/
theorem Booted.step (booted : Booted root paging) (call : MapCall) :
    Booted root ((mapping alloc).step paging call) := by
  rw [booted.step_eq]
  exact ⟨booted.context, booted.initialized⟩

/-- A call that spares the tables keeps the entries above the leaves. -/
theorem Running.step (fresh : FreshPages alloc) (running : Running alloc root paging)
    {call : MapCall} (spares : SparesTables paging call) :
    Running alloc root ((mapping alloc).step paging call) := by
  rw [running.step_eq]
  refine ⟨⟨running.context, running.initialized⟩, ?_⟩
  by_cases above : Above call.virtualAddr
  · obtain ⟨_, sound, extension, adds, _⟩ := map_spec fresh running.space.sound
      call.virtualAddr (running.space.clear above) call.physicalAddr (pteFlags call.flags)
    exact running.space.extends sound extension adds
  · obtain ⟨untouched, requests⟩ := running.space.map_low fresh above
      (spares.resolve_left above ⟨root⟩ running.context) call.physicalAddr (pteFlags call.flags)
    exact running.space.untouched fresh untouched requests

/-! ### The answers a run sees -/

/-- The kernel has its address space once the tables are built. -/
theorem booted_init (booted : pagingGlobalInit alloc ⟨memory, none, false⟩ = some paging) :
    ∃ root, Booted root paging := by
  obtain ⟨pml4, pdpt, _, _, rfl⟩ := pagingGlobalInit_eq_some booted
  exact ⟨pml4, rfl, rfl⟩

/-- The tables are built alike with the allocator cut off later. -/
theorem pagingGlobalInit_upTo {requests : Nat}
    (booted : pagingGlobalInit alloc ⟨memory, none, false⟩ = some paging)
    (within : paging.memory.requests ≤ requests) :
    pagingGlobalInit (alloc.upTo requests) ⟨memory, none, false⟩ = some paging := by
  obtain ⟨pml4, pdpt, first, second, rfl⟩ := pagingGlobalInit_eq_some booted
  have below : memory.requests + 2 ≤ requests := within
  have firstToo := (alloc.upTo_of_lt (show memory.requests < requests by omega)).trans first
  have secondToo := (alloc.upTo_of_lt (show memory.requests + 1 < requests by omega)).trans second
  simp only [pagingGlobalInit, PagingContext.create, PhysMemory.newTable, PhysMemory.clear,
    Bool.false_eq_true, if_false, firstToo, secondToo]
  rfl

namespace Booted

/-- A run keeps the address space. -/
theorem run (booted : Booted root paging) (calls : List MapCall) :
    Booted root ((mapping alloc).run paging calls) :=
  System.invariant_run (Booted root) (fun _ call holds _ => holds.step call) booted
    (System.along_of_forall fun _ _ _ => trivial)

/-- A call never takes a request back. -/
theorem requests_le_step (booted : Booted root paging) (call : MapCall) :
    paging.memory.requests ≤ ((mapping alloc).step paging call).memory.requests := by
  rw [booted.step_eq]
  exact requests_map_le _ _ _ _ _

theorem requests_le_run (booted : Booted root paging) (calls : List MapCall) :
    paging.memory.requests ≤ ((mapping alloc).run paging calls).memory.requests := by
  induction calls generalizing paging with
  | nil => exact Nat.le_refl _
  | cons call calls ih =>
      exact Nat.le_trans (booted.requests_le_step call) (ih (booted.step call))

/-- A run sees only the answers to the requests it makes. -/
theorem run_upTo (booted : Booted root paging) {calls : List MapCall} {requests : Nat}
    (within : ((mapping alloc).run paging calls).memory.requests ≤ requests)
    {guard : PagingState → MapCall → Prop} (along : (mapping alloc).Along guard paging calls) :
    (mapping (alloc.upTo requests)).run paging calls = (mapping alloc).run paging calls ∧
      (mapping (alloc.upTo requests)).Along guard paging calls := by
  induction calls generalizing paging with
  | nil => exact ⟨rfl, trivial⟩
  | cons call calls ih =>
      have next := @Booted.step alloc root paging booted call
      have step : (mapping (alloc.upTo requests)).step paging call =
          (mapping alloc).step paging call := by
        have stepWithin := Nat.le_trans (next.requests_le_run calls) within
        rw [booted.step_eq] at stepWithin
        rw [booted.step_eq, booted.step_eq, map_upTo stepWithin]
      obtain ⟨same, rest⟩ := ih next within along.2
      rw [System.run_cons, step]
      exact ⟨same, along.1, step ▸ rest⟩

/-- A call that returns never takes a request back. -/
theorem requests_le_mapped (booted : Booted root paging) {vaddr physicalAddr : U64} {flags : U32}
    {answer : MapAnswer} {after : PagingState}
    (mapped : pageTableMap alloc vaddr physicalAddr flags paging = some (answer, after)) :
    paging.memory.requests ≤ after.memory.requests := by
  rw [booted.pageTableMap_eq] at mapped
  cases mapped
  exact requests_map_le _ _ _ _ _

/-- It returns alike with the allocator cut off later. -/
theorem mapped_upTo (booted : Booted root paging) {vaddr physicalAddr : U64} {flags : U32}
    {answer : MapAnswer} {after : PagingState}
    (mapped : pageTableMap alloc vaddr physicalAddr flags paging = some (answer, after)) :
    pageTableMap (alloc.upTo after.memory.requests) vaddr physicalAddr flags paging =
      some (answer, after) := by
  have isMapped := mapped
  rw [booted.pageTableMap_eq] at isMapped
  cases isMapped
  rw [booted.pageTableMap_eq, map_upTo (Nat.le_refl _)]

end Booted

/-! ### The rights of a page -/

/-- The walk starts with an entry of the root. -/
theorem mem_entries_of_walk {word : Nat → U64} {vaddr : U64} {translation : Translation}
    (ends : walk word root vaddr = some translation) :
    word (slot root (vaSplit vaddr).pml4) ∈ translation.entries := by
  simp only [walk, Option.bind_eq_bind] at ends
  obtain ⟨pdpt, _, ends⟩ := Option.bind_eq_some_iff.mp ends
  split_ifs at ends with large
  · cases ends
    exact List.mem_cons_self
  · obtain ⟨pd, _, ends⟩ := Option.bind_eq_some_iff.mp ends
    split_ifs at ends with large
    · cases ends
      exact List.mem_cons_self
    · obtain ⟨pt, _, ends⟩ := Option.bind_eq_some_iff.mp ends
      split_ifs at ends
      cases ends
      exact List.mem_cons_self

/-- An entry on the way to a page restricts no right, or is the one for the first 512 GB. -/
theorem RightsSpace.passed (space : RightsSpace alloc root memory) {vaddr : U64}
    (above : Above vaddr) {path : List Nat} {entry : U64} (short : path.length ≤ 3)
    (isSuffix : path <:+ pathOf vaddr) (found : entryAt memory.word root path = some entry)
    (isPresent : present entry = true) :
    writable entry = true ∧ executable entry = true ∧
      ((vaSplit vaddr).pml4 ≠ 0 → user entry = true) := by
  by_cases isFirst : path = [0]
  · subst isFirst
    obtain ⟨first, same, _, writes, executes, _⟩ := space.first
    cases found.symm.trans same
    refine ⟨writes, executes, fun other => absurd ?_ other⟩
    simp only [pathOf, List.suffix_cons_iff, List.cons.injEq, List.cons_ne_nil, List.suffix_nil,
      reduceCtorEq, and_false, and_true, false_or, or_false] at isSuffix
    exact isSuffix.symm
  · have isOpen := unrestricted_iff.mp (space.others path entry short
      (InRange.suffix (inRange_pathOf vaddr) isSuffix) isFirst found isPresent
      (space.clear above path entry short isSuffix found isPresent))
    exact ⟨isOpen.1, isOpen.2.2, fun _ => isOpen.2.1⟩

/-- **The rights of a page** above 2 GB are those of its leaf, but that no page of the first
512 GB is for user code. -/
theorem RightsSpace.rights (space : RightsSpace alloc root memory) {vaddr : U64}
    (above : Above vaddr) {leaf : U64}
    (isLeaf : leafAt memory.word root (pathOf vaddr) = some leaf) :
    ∃ translation, walk memory.word root vaddr = some translation ∧
      translation.writable = writable leaf ∧ translation.executable = executable leaf ∧
      translation.user = (user leaf && decide ((vaSplit vaddr).pml4 ≠ 0)) := by
  rcases walk_cases vaddr (space.clear above) with ⟨noLeaf, _⟩ | ⟨upper, other, found, ends, passed⟩
  · cases isLeaf.symm.trans noLeaf
  cases isLeaf.symm.trans found
  have rights : ∀ entry ∈ upper, writable entry = true ∧ executable entry = true ∧
      ((vaSplit vaddr).pml4 ≠ 0 → user entry = true) := by
    intro entry member
    obtain ⟨isPresent, path, short, isSuffix, here⟩ := passed entry member
    exact space.passed above short isSuffix here isPresent
  refine ⟨_, ends, all_append_leaf leaf fun entry member => (rights entry member).1,
    all_append_leaf leaf fun entry member => (rights entry member).2.1, ?_⟩
  by_cases isFirst : (vaSplit vaddr).pml4 = 0
  · obtain ⟨first, same, _, _, _, kernelOnly⟩ := space.first
    obtain ⟨table, isRoot, rfl⟩ := entryAt_cons.mp same
    cases isRoot
    have member := mem_entries_of_walk ends
    rw [isFirst] at member
    rw [decide_eq_false (not_not.mpr isFirst), Bool.and_false]
    exact List.all_eq_false.mpr ⟨_, member, Bool.not_eq_true _ ▸ kernelOnly⟩
  · rw [decide_eq_true isFirst, Bool.and_true]
    exact all_append_leaf leaf fun entry member => (rights entry member).2.2 isFirst

/-- The leaf that `page_table_map` writes. -/
theorem Running.mapped (fresh : FreshPages alloc) (running : Running alloc root paging)
    {vaddr physicalAddr : U64} {flags : U32} {after : PagingState} (above : Above vaddr)
    (mapped : pageTableMap alloc vaddr physicalAddr flags paging = some (.mapped, after)) :
    after.kernelPaging = some ⟨root⟩ ∧ RightsSpace alloc root after.memory ∧
      leafAt after.memory.word root (pathOf vaddr) =
        some (leafEntry physicalAddr (pteFlags flags)) := by
  obtain ⟨_, sound, extension, adds, leaves⟩ := map_spec fresh running.space.sound vaddr
    (running.space.clear above) physicalAddr (pteFlags flags)
  rw [running.pageTableMap_eq] at mapped
  obtain ⟨isMapped, rfl⟩ := Prod.mk.inj (Option.some.inj mapped)
  refine ⟨running.context, running.space.extends sound extension adds, ?_⟩
  exact (leaves rfl (inRange_pathOf vaddr)).trans (if_pos ⟨isMapped, rfl⟩)

/-- The rights of a page just mapped when all pages of the allocator are fresh. -/
theorem rights_iff_of_freshPages (fresh : FreshPages alloc) {memory : PhysMemory}
    {paging : PagingState}
    (booted : pagingGlobalInit alloc ⟨memory, none, false⟩ = some paging) {calls : List MapCall}
    (spares : (mapping alloc).Along SparesTables paging calls) {vaddr physicalAddr : U64}
    {flags : U32} (high : 2 ^ 31 ≤ vaddr.toNat) (small : vaddr.toNat < 2 ^ 48) {after : PagingState}
    (mapped : pageTableMap alloc vaddr physicalAddr flags ((mapping alloc).run paging calls) =
      some (.mapped, after)) :
    RightsAsAsked after vaddr flags ↔ flags &&& 2 = 0 ∨ 2 ^ 39 ≤ vaddr.toNat := by
  obtain ⟨root, initial⟩ := running_boot fresh booted
  have running : Running alloc root ((mapping alloc).run paging calls) :=
    System.invariant_run (Running alloc root)
      (fun _ _ holds spared => holds.step fresh spared) initial spares
  have above : Above vaddr := by
    unfold Above
    omega
  obtain ⟨context, space, isLeaf⟩ := running.mapped fresh above mapped
  obtain ⟨translation, ends, writes, executes, uses⟩ := space.rights above isLeaf
  obtain ⟨asksWrite, asksUser, asksExecute⟩ := rights_pteFlags flags
  rw [writable_leafEntry, asksWrite] at writes
  rw [executable_leafEntry, asksExecute] at executes
  rw [user_leafEntry, asksUser] at uses
  have index : (vaSplit vaddr).pml4 = vaddr.toNat / 2 ^ 39 % 512 := toNat_shiftRight_and vaddr 39
  have beyond : (vaSplit vaddr).pml4 ≠ 0 ↔ 2 ^ 39 ≤ vaddr.toNat := by omega
  have exactly : RightsAsAsked after vaddr flags ↔
      translation.user = decide (flags &&& 2 ≠ 0) := by
    constructor
    · rintro ⟨other, found, isContext, walked, _, granted, _⟩
      cases isContext.symm.trans context
      cases walked.symm.trans ends
      exact granted
    · exact fun granted => ⟨⟨root⟩, translation, context, ends, writes, granted, executes⟩
  rw [exactly, uses, ← beyond]
  by_cases kernelOnly : flags &&& 2 = 0 <;> by_cases lower : (vaSplit vaddr).pml4 = 0 <;>
    simp only [kernelOnly, lower, ne_eq, not_true_eq_false, not_false_eq_true, decide_true,
      decide_false, Bool.and_true, Bool.and_false, Bool.false_eq_true, or_true, or_false]

/-- **Requested rights take effect if and only if** user code is not asked for or the page
lies above the first 512 GB, after any calls since boot that spare the page tables and are
answered fresh pages. -/
theorem rights_as_asked_iff {memory : PhysMemory} {paging : PagingState}
    (booted : pagingGlobalInit alloc ⟨memory, none, false⟩ = some paging) {calls : List MapCall}
    (spares : (mapping alloc).Along SparesTables paging calls) {vaddr physicalAddr : U64}
    {flags : U32} (high : 2 ^ 31 ≤ vaddr.toNat) (small : vaddr.toNat < 2 ^ 48) {after : PagingState}
    (mapped : pageTableMap alloc vaddr physicalAddr flags ((mapping alloc).run paging calls) =
      some (.mapped, after))
    (fresh : FreshBelow alloc after.memory.requests) :
    RightsAsAsked after vaddr flags ↔ flags &&& 2 = 0 ∨ 2 ^ 39 ≤ vaddr.toNat := by
  obtain ⟨root, start⟩ := booted_init booted
  have last : Booted root ((mapping alloc).run paging calls) := start.run calls
  have within : ((mapping alloc).run paging calls).memory.requests ≤ after.memory.requests :=
    last.requests_le_mapped mapped
  obtain ⟨sameRun, sameSpares⟩ := start.run_upTo within spares
  have bootedToo := pagingGlobalInit_upTo booted (Nat.le_trans (start.requests_le_run calls) within)
  have mappedToo := last.mapped_upTo mapped
  rw [← sameRun] at mappedToo
  exact rights_iff_of_freshPages fresh.freshPages bootedToo sameSpares high small mappedToo

/-- The sample kernel after a page for user code at an address was mapped behind one for
the kernel. -/
def sampleUserPage (vaddr : U64) : PagingState :=
  let paging := (mapping sampleAllocator).run samplePaging [⟨0x8000_0000, 0x50_0000, 1⟩]
  ((pageTableMap sampleAllocator vaddr 0x51_0000 3 paging).getD (.failed, paging)).2

/-- A page at the bottom of the second 512 GB has the rights asked for. -/
theorem rights_as_asked_iff_sample :
    RightsAsAsked (sampleUserPage 0x80_0000_0000) 0x80_0000_0000 3 :=
  (@rights_as_asked_iff _ _ _ booted_samplePaging [⟨0x8000_0000, 0x50_0000, 1⟩]
    ⟨.inl (by decide), trivial⟩ 0x80_0000_0000 0x51_0000 3 (by decide) (by decide) _ rfl
    (freshPages_sampleAllocator.below _)).mpr (.inr (by decide))

/-- A page of the first 512 GB is not for user code although that was asked for. -/
theorem not_rights_as_asked :
    FreshPages sampleAllocator ∧
      pagingGlobalInit sampleAllocator ⟨blankMemory, none, false⟩ = some samplePaging ∧
      pageTableMap sampleAllocator 0x8000_0000 0x50_0000 3 samplePaging =
        some (.mapped, (mapping sampleAllocator).step samplePaging ⟨0x8000_0000, 0x50_0000, 3⟩) ∧
      ¬ RightsAsAsked ((mapping sampleAllocator).step samplePaging ⟨0x8000_0000, 0x50_0000, 3⟩)
        0x8000_0000 3 := by
  refine ⟨freshPages_sampleAllocator, booted_samplePaging, rfl, ?_⟩
  rintro ⟨context, translation, isContext, ends, _, granted, _⟩
  obtain rfl : context = ⟨0x20_0000⟩ := (Option.some.inj isContext).symm
  have denied : (walk ((mapping sampleAllocator).step samplePaging
      ⟨0x8000_0000, 0x50_0000, 3⟩).memory.word 0x20_0000 0x8000_0000).map Translation.user =
        some false := by decide
  rw [ends] at denied
  exact absurd (granted.symm.trans (Option.some.inj denied)) (by decide)

end Lofita.Paging
