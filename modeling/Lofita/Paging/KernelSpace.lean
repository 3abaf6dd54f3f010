import Lofita.Foundation.Run
import Mathlib.Tactic.IntervalCases
import Lofita.Paging.Operations

/-! # The kernel address space

`paging_global_init` builds a tree of two tables, whose two huge pages identify
the first 2 GB (`kernelSpace_init`). Every call above 2 GB leaves these in place,
so that the walk follows the calls (`walks_follow_calls`). A call below 2 GB takes
a huge page for a table.
-/

namespace Lofita.Paging

open Lofita.Foundation Lofita.Foundation.TableTree

/-- The entries of the second table: two huge pages. -/
def identityEntry (index : Nat) : U64 :=
  if index = 0 then hugeFlags else if index = 1 then 0x4000_0000 ||| hugeFlags else 0

/-- The words of the tables that `paging_global_init` builds. -/
structure IdentityTables (word : Nat → U64) (pml4 pdpt : Nat) : Prop where
  root : ∀ index < 512, word (slot pml4 index) =
    if index = 0 then BitVec.ofNat 64 pdpt ||| pfPresent ||| pfWritable else 0
  second : ∀ index < 512, word (slot pdpt index) = identityEntry index

theorem child_identityEntry (index : Nat) : child (identityEntry index) = none := by
  unfold identityEntry
  split_ifs <;> decide

namespace IdentityTables

variable {word : Nat → U64} {pml4 pdpt : Nat} (tables : IdentityTables word pml4 pdpt)
  (aligned : 4096 ∣ pdpt) (small : pdpt < 2 ^ 52)

include tables aligned small

/-- The table behind a first index. -/
theorem tableAt_single {index : Nat} (below : index < 512) :
    tableAt child word pml4 [index] = if index = 0 then some pdpt else none := by
  rw [tableAt_of_found child index rfl, tables.root index below]
  split_ifs
  · rw [BitVec.or_assoc]
    exact child_ofNat_or aligned small (by decide) (by decide) (by decide)
  · decide

/-- There are two tables. -/
theorem tableAt_eq : ∀ {path : List Nat}, InRange path →
    tableAt child word pml4 path =
      if path = [] then some pml4 else if path = [0] then some pdpt else none
  | [], _ => rfl
  | [index], inRange => by
      rw [tables.tableAt_single aligned small inRange.head]
      simp
  | index :: next :: rest, inRange => by
      have missing : tableAt child word pml4 (index :: next :: rest) = none := by
        by_cases only : next :: rest = [0]
        · obtain ⟨rfl, rfl⟩ := List.cons.inj only
          have found := (tables.tableAt_single aligned small (by decide)).trans (if_pos rfl)
          rw [tableAt_of_found child index found, tables.second index inRange.head]
          exact child_identityEntry index
        · apply tableAt_of_missing
          rw [tableAt_eq inRange.tail, if_neg (List.cons_ne_nil _ _), if_neg only]
      rw [missing]
      simp

/-- The tables of the identity map are its two. -/
theorem cases_of_tableAt {path : List Nat} {table : Nat} (inRange : InRange path)
    (found : tableAt child word pml4 path = some table) :
    path = [] ∧ table = pml4 ∨ path = [0] ∧ table = pdpt := by
  rw [tableAt_eq tables aligned small inRange] at found
  split_ifs at found with isRoot isSecond
  · exact .inl ⟨isRoot, (Option.some.inj found).symm⟩
  · exact .inr ⟨isSecond, (Option.some.inj found).symm⟩

end IdentityTables

/-- The kernel address space, with its two huge pages and no others. -/
structure KernelSpace (alloc : Allocator) (root : Nat) (memory : PhysMemory) : Prop where
  sound : Sound alloc root memory
  identity : ∀ index < 2, entryAt memory.word root [index, 0] = some (identityEntry index)
  huge : ∀ {path : List Nat} {entry : U64}, path.length ≤ 3 → InRange path →
    entryAt memory.word root path = some entry → present entry = true → huge entry = true →
    ∃ index < 2, path = [index, 0]

variable {alloc : Allocator} {root : Nat} {memory : PhysMemory}

theorem inRange_identity {index : Nat} (below : index < 2) : InRange [index, 0] := by
  intro other member
  simp only [List.mem_cons, List.not_mem_nil, or_false] at member
  omega

/-- The two gigabytes are present. -/
theorem present_identityEntry {index : Nat} (below : index < 2) :
    present (identityEntry index) = true ∧ huge (identityEntry index) = true := by
  interval_cases index <;> decide

/-- An extension keeps the two gigabytes. -/
theorem KernelSpace.extends {after : PhysMemory} (space : KernelSpace alloc root memory)
    (sound : Sound alloc root after) (extension : Extends root memory after) :
    KernelSpace alloc root after where
  sound := sound
  identity := fun index below => extension.kept (by decide : 2 ≤ 3) (inRange_identity below)
    (space.identity index below) (present_identityEntry below).1
  huge := by
    intro path entry short inRange found isPresent isHuge
    rcases extension.new short inRange found isPresent with earlier | notHuge
    · exact space.huge short inRange earlier isPresent isHuge
    · exact absurd (notHuge.symm.trans isHuge) Bool.false_ne_true

/-- The address lies above the identity-mapped 2 GB. -/
def Above (vaddr : U64) : Prop := 2 ^ 31 ≤ vaddr.toNat % 2 ^ 48

instance (vaddr : U64) : Decidable (Above vaddr) := inferInstanceAs (Decidable (_ ≤ _))

theorem above_iff (vaddr : U64) : Above vaddr ↔ 2 ^ 19 ≤ pageOf vaddr := by
  unfold Above pageOf
  omega

/-- The huge pages are not on the way to an address above them. -/
theorem KernelSpace.clear (space : KernelSpace alloc root memory) {vaddr : U64}
    (above : Above vaddr) : Clear memory.word root (pathOf vaddr) := by
  intro upper entry short isSuffix found isPresent
  by_contra isHuge
  obtain ⟨index, below, rfl⟩ := space.huge short (InRange.suffix (inRange_pathOf vaddr) isSuffix)
    found isPresent (eq_true_of_ne_false isHuge)
  rw [pathOf_eq] at isSuffix
  simp only [List.suffix_cons_iff, List.cons.injEq, List.suffix_nil] at isSuffix
  have bound := (above_iff vaddr).mp above
  simp only [List.cons_ne_nil, reduceCtorEq, and_false, false_or, or_false] at isSuffix
  omega

/-- The addresses of the two gigabytes. -/
theorem address_identityEntry {index : Nat} (below : index < 2) :
    address (identityEntry index) = index * 2 ^ 30 := by
  interval_cases index <;> decide

/-- **The walk below 2 GB** ends at the address itself. -/
theorem KernelSpace.walk_low (space : KernelSpace alloc root memory) {vaddr : U64}
    (low : vaddr.toNat < 2 ^ 31) :
    (walk memory.word root vaddr).map Translation.phys = some vaddr.toNat := by
  have below : vaddr.toNat / 2 ^ 30 < 2 := by omega
  obtain ⟨pdpt, found, value⟩ := entryAt_cons.mp (space.identity _ below)
  have first : child (memory.word (slot root 0)) = some pdpt := found
  have pml4Index : (vaSplit vaddr).pml4 = 0 :=
    (toNat_shiftRight_and vaddr 39).trans (by omega)
  have pdptIndex : (vaSplit vaddr).pdpt = vaddr.toNat / 2 ^ 30 :=
    (toNat_shiftRight_and vaddr 30).trans (by omega)
  have leaf := present_identityEntry below
  simp only [walk, pml4Index, pdptIndex, first, value, leaf.1, leaf.2, Option.bind_eq_bind,
    Option.bind_some, Bool.and_self, if_true, address_identityEntry below]
  change some _ = some _
  rw [Nat.mul_div_cancel _ (by decide), Nat.div_add_mod']

/-! ### Calls below the huge pages -/

/-- An entry that is present is taken for a table as it is. -/
theorem ensureTable_of_present {addr : Nat} (there : present (memory.word addr) = true) :
    memory.ensureTable alloc addr = (.pointer (address (memory.word addr)), memory) :=
  if_pos (of_decide_eq_true there)

/-- The kernel address space names a table for the first 512 GB and huge pages in it. -/
theorem KernelSpace.low (fresh : FreshPages alloc) (space : KernelSpace alloc root memory)
    {vaddr : U64} (low : ¬ Above vaddr) :
    ∃ pdpt, present (memory.word (slot root (vaSplit vaddr).pml4)) = true ∧
      TableAnswer.pointer (address (memory.word (slot root (vaSplit vaddr).pml4))) =
        .table pdpt ∧
      memory.word (slot pdpt (vaSplit vaddr).pdpt) = identityEntry (vaSplit vaddr).pdpt ∧
      (vaSplit vaddr).pdpt = vaddr.toNat % 2 ^ 48 / 2 ^ 30 ∧ (vaSplit vaddr).pdpt < 2 := by
  have first : (vaSplit vaddr).pml4 = vaddr.toNat / 2 ^ 39 % 512 := toNat_shiftRight_and vaddr 39
  have second : (vaSplit vaddr).pdpt = vaddr.toNat / 2 ^ 30 % 512 := toNat_shiftRight_and vaddr 30
  unfold Above at low
  have below : (vaSplit vaddr).pdpt < 2 := by omega
  have zero : (vaSplit vaddr).pml4 = 0 := by omega
  obtain ⟨pdpt, found, value⟩ := entryAt_cons.mp (space.identity _ below)
  obtain ⟨isPresent, _, refers⟩ :=
    child_eq_some.mp ((tableAt_of_found child 0 rfl).symm.trans found)
  have short : [0].length ≤ 3 := by decide
  have nonzero := space.sound.table_ne_zero fresh short
    (inRange_identity (by decide : 0 < 2)).tail found
  rw [zero, refers]
  exact ⟨pdpt, isPresent, pointer_of_ne_zero nonzero, value, by omega, below⟩

/-- **A call below 1 GB traps**: the address that the first huge page holds is 0. -/
theorem KernelSpace.traps (fresh : FreshPages alloc) (space : KernelSpace alloc root memory)
    {vaddr : U64} (low : vaddr.toNat % 2 ^ 48 < 2 ^ 30) (physicalAddr flags : U64) :
    PagingContext.map alloc ⟨root⟩ vaddr physicalAddr flags memory = (.trap, memory) ∧
      PagingContext.unmap ⟨root⟩ vaddr memory = none := by
  have notAbove : ¬ Above vaddr := fun above => by
    unfold Above at above
    omega
  obtain ⟨pdpt, first, toPdpt, second, index, _⟩ := space.low fresh notAbove
  have zero : (vaSplit vaddr).pdpt = 0 := by omega
  rw [zero] at second
  have isPresent : present (identityEntry 0) = true := (present_identityEntry (by decide)).1
  have isZero : address (identityEntry 0) = 0 := address_identityEntry (by decide)
  have firstThere : ¬ memory.word (slot root (vaSplit vaddr).pml4) &&& pfPresent = 0 :=
    of_decide_eq_true first
  have secondThere : ¬ memory.word (slot pdpt 0) &&& pfPresent = 0 :=
    of_decide_eq_true (second ▸ isPresent)
  constructor
  · simp only [PagingContext.map]
    rw [ensureTable_of_present first, toPdpt]
    simp only [zero]
    rw [ensureTable_of_present (second.symm ▸ isPresent), second, isZero]
    rfl
  · simp only [PagingContext.unmap]
    rw [if_neg firstThere, toPdpt]
    simp only [zero]
    rw [if_neg secondThere, second, isZero]
    rfl

/-! ### The address space at boot -/

/-- What `paging_global_init` leaves in the memory. -/
def identityWords (word : Nat → U64) (pml4 pdpt : Nat) : Nat → U64 :=
  Function.update
    (Function.update
      (Function.update (cleared (cleared word pml4 0) pdpt 0) (slot pdpt 0) hugeFlags)
      (slot pdpt 1) (0x4000_0000 ||| hugeFlags))
    (slot pml4 0) (BitVec.ofNat 64 pdpt ||| pfPresent ||| pfWritable)

/-- The words of the identity map are its tables. -/
theorem identityTables_identityWords {pml4 pdpt : Nat} (word : Nat → U64)
    (firstAligned : tableSize ∣ pml4) (secondAligned : tableSize ∣ pdpt) (different : pml4 ≠ pdpt) :
    IdentityTables (identityWords word pml4 pdpt) pml4 pdpt := by
  have apart {i j : Nat} (iBelow : i < 512) (jBelow : j < 512) : slot pml4 i ≠ slot pdpt j :=
    fun same => different (slot_inj firstAligned secondAligned iBelow jBelow same).1
  have within {table i j : Nat} : slot table i = slot table j ↔ i = j := by
    unfold slot
    omega
  constructor
  · intro index below
    have outside : ¬ OnTable pdpt (slot pml4 index) := fun inside =>
      different (eq_of_onTable firstAligned secondAligned (onTable_slot below) inside)
    unfold identityWords
    split_ifs with zero
    · rw [zero, Function.update_self]
    · rw [Function.update_of_ne (mt within.mp zero),
        Function.update_of_ne (apart below (by decide)),
        Function.update_of_ne (apart below (by decide)), cleared_of_not_onTable outside,
        cleared_of_onTable (onTable_slot below)]
  · intro index below
    unfold identityWords identityEntry
    rw [Function.update_of_ne (apart (by decide) below).symm]
    split_ifs with zero one
    · rw [zero, Function.update_of_ne (mt within.mp Nat.zero_ne_one), Function.update_self]
    · rw [one, Function.update_self]
    · rw [Function.update_of_ne (mt within.mp one), Function.update_of_ne (mt within.mp zero),
        cleared_of_onTable (onTable_slot below)]

/-- The first two tables are the only ones. -/
theorem IdentityTables.sound (fresh : FreshPages alloc) {pml4 pdpt : Nat}
    (tables : IdentityTables memory.word pml4 pdpt) (aligned : 4096 ∣ pdpt) (small : pdpt < 2 ^ 52)
    (different : pml4 ≠ pdpt) (firstAnswered : Answered alloc memory.requests pml4)
    (secondAnswered : Answered alloc memory.requests pdpt) : Sound alloc pml4 memory where
  aligned := fresh.answered_aligned
  owned_of := by
    intro path table _ inRange found
    rcases tables.cases_of_tableAt aligned small inRange found with ⟨_, rfl⟩ | ⟨_, rfl⟩
    · exact firstAnswered
    · exact secondAnswered
  injective := by
    intro first second table _ firstRange _ secondRange firstFound secondFound
    rcases tables.cases_of_tableAt aligned small firstRange firstFound with
        ⟨rfl, rfl⟩ | ⟨rfl, rfl⟩ <;>
      rcases tables.cases_of_tableAt aligned small secondRange secondFound with
        ⟨rfl, same⟩ | ⟨rfl, same⟩
    · rfl
    · exact absurd same different
    · exact absurd same.symm different
    · rfl

/-- Every huge page of the first two tables is in the second. -/
theorem IdentityTables.kernelSpace {pml4 pdpt : Nat} (sound : Sound alloc pml4 memory)
    (tables : IdentityTables memory.word pml4 pdpt) (aligned : 4096 ∣ pdpt)
    (small : pdpt < 2 ^ 52) : KernelSpace alloc pml4 memory where
  sound := sound
  identity := by
    intro index below
    have found := tables.tableAt_eq aligned small (inRange_identity below).tail
    exact entryAt_cons.mpr ⟨pdpt, found, tables.second index (inRange_identity below).head⟩
  huge := by
    intro path entry _ inRange found isPresent isHuge
    cases path with
    | nil => cases found
    | cons index rest =>
        obtain ⟨table, tableFound, rfl⟩ := entryAt_cons.mp found
        rcases tables.cases_of_tableAt aligned small inRange.tail tableFound with
          ⟨rfl, rfl⟩ | ⟨rfl, rfl⟩
        · have named := tables.tableAt_single aligned small inRange.head
          rw [tableAt_of_found child index rfl] at named
          by_cases zero : index = 0
          · rw [if_pos zero] at named
            exact absurd ((child_eq_some.mp named).2.1.symm.trans isHuge) Bool.false_ne_true
          · rw [tables.root index inRange.head, if_neg zero] at isPresent
            exact absurd isPresent (by decide)
        · rw [tables.second index inRange.head] at isPresent
          refine ⟨index, ?_, rfl⟩
          by_contra high
          have absent : identityEntry index = 0 := by
            unfold identityEntry
            rw [if_neg (by omega), if_neg (by omega)]
          rw [absent] at isPresent
          exact absurd isPresent (by decide)

/-- The memory that `paging_global_init` leaves. -/
def identityMemory (memory : PhysMemory) (pml4 pdpt : Nat) : PhysMemory :=
  ((({ (memory.clear pml4).clear pdpt with requests := memory.requests + 2 }.store
    (slot pdpt 0) hugeFlags).store (slot pdpt 1) (0x4000_0000 ||| hugeFlags)).store (slot pml4 0)
    (BitVec.ofNat 64 pdpt ||| pfPresent ||| pfWritable))

/-- Booting takes two pages and makes tables of them. -/
theorem pagingGlobalInit_eq_some {paging : PagingState}
    (booted : pagingGlobalInit alloc ⟨memory, none, false⟩ = some paging) :
    ∃ pml4 pdpt, alloc memory.requests = some pml4 ∧ alloc (memory.requests + 1) = some pdpt ∧
      paging = ⟨identityMemory memory pml4 pdpt, some ⟨pml4⟩, true⟩ := by
  simp only [pagingGlobalInit, PagingContext.create, PhysMemory.newTable, Bool.false_eq_true,
    if_false] at booted
  cases first : alloc memory.requests with
  | none =>
      rw [first] at booted
      cases booted
  | some pml4 =>
      rw [first] at booted
      simp only [PhysMemory.clear] at booted
      cases second : alloc (memory.requests + 1) with
      | none =>
          rw [second] at booted
          cases booted
      | some pdpt =>
          rw [second] at booted
          cases booted
          exact ⟨pml4, pdpt, rfl, rfl, rfl⟩

/-- The two tables at boot are different pages. -/
theorem FreshPages.different (fresh : FreshPages alloc) {request pml4 pdpt : Nat}
    (first : alloc request = some pml4) (second : alloc (request + 1) = some pdpt) :
    pml4 ≠ pdpt := fun same =>
  absurd (fresh.once first (same ▸ second)) (Nat.ne_of_lt (Nat.lt_succ_self _))

/-- Fresh answers give two different tables. -/
theorem FreshPages.identityTables (fresh : FreshPages alloc) {pml4 pdpt : Nat}
    (first : alloc memory.requests = some pml4) (second : alloc (memory.requests + 1) = some pdpt) :
    IdentityTables (identityMemory memory pml4 pdpt).word pml4 pdpt :=
  identityTables_identityWords memory.word (fresh.aligned first) (fresh.aligned second)
    (fresh.different first second)

/-- **The kernel address space at boot** is sound, has no leaf and was written
only in its tables. -/
theorem kernelSpace_init (fresh : FreshPages alloc) {paging : PagingState}
    (booted : pagingGlobalInit alloc ⟨memory, none, false⟩ = some paging) :
    ∃ root, paging.kernelPaging = some ⟨root⟩ ∧ paging.pagingInitialized = true ∧
      KernelSpace alloc root paging.memory ∧
      (∀ vaddr, leafAt paging.memory.word root (pathOf vaddr) = none) ∧
      ∀ addr ∈ paging.memory.written,
        addr ∈ memory.written ∨ InTables paging.memory.word root addr := by
  obtain ⟨pml4, pdpt, first, second, rfl⟩ := pagingGlobalInit_eq_some booted
  have aligned := fresh.aligned second
  have small := fresh.small second
  have tables := fresh.identityTables first second
  refine ⟨pml4, rfl, rfl, ?_, ?_, ?_⟩
  · exact tables.kernelSpace
      (tables.sound fresh aligned small (fresh.different first second)
        ⟨memory.requests, Nat.lt_add_of_pos_right Nat.two_pos, first⟩
        ⟨memory.requests + 1, Nat.lt_succ_self _, second⟩) aligned small
  · intro vaddr
    exact leafAt_of_missing
      ((tables.tableAt_eq aligned small (inRange_pathOf vaddr).tail).trans (by simp))
  · intro addr member
    have onRoot {index : Nat} (below : index < 512) :
        InTables (identityMemory memory pml4 pdpt).word pml4 (slot pml4 index) :=
      ⟨[], pml4, by decide, by simp [InRange], rfl, onTable_slot below⟩
    have onSecond {index : Nat} (below : index < 512) :
        InTables (identityMemory memory pml4 pdpt).word pml4 (slot pdpt index) :=
      ⟨[0], pdpt, by decide, by simp [InRange],
        tables.tableAt_single aligned small (by decide), onTable_slot below⟩
    simp only [identityMemory, PhysMemory.store, PhysMemory.clear, List.mem_cons, List.mem_append,
      List.mem_map, List.mem_range] at member
    rcases member with
      atRoot | atOne | atZero | ⟨index, below, rfl⟩ | ⟨index, below, rfl⟩ | earlier
    · rw [atRoot]
      exact .inr (onRoot (by decide : 0 < 512))
    · rw [atOne]
      exact .inr (onSecond (by decide : 1 < 512))
    · rw [atZero]
      exact .inr (onSecond (by decide : 0 < 512))
    · exact .inr (onSecond below)
    · exact .inr (onRoot below)
    · exact .inl earlier

end Lofita.Paging
