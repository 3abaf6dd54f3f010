import Mathlib.Data.List.Infix
import Lofita.Paging.Space

/-! # Mapping, unmapping and walking

Where no huge page stands in the way (`Clear`), `map` sets one leaf, `unmap`
removes one, and the walk ends at the leaf of its address.
-/

namespace Lofita.Paging

open Lofita.Foundation Lofita.Foundation.TableTree

/-- The indices of an address, the innermost first. -/
def pathOf (vaddr : U64) : List Nat :=
  [(vaSplit vaddr).pt, (vaSplit vaddr).pd, (vaSplit vaddr).pdpt, (vaSplit vaddr).pml4]

/-- The page of an address in the 48-bit address space. -/
def pageOf (vaddr : U64) : Nat := vaddr.toNat / 4096 % 2 ^ 36

theorem toNat_shiftRight_and (vaddr : U64) (shift : Nat) :
    ((vaddr >>> shift) &&& 0x1FF).toNat = vaddr.toNat / 2 ^ shift % 512 := by
  rw [BitVec.toNat_and, BitVec.toNat_ushiftRight, Nat.shiftRight_eq_div_pow]
  exact Nat.and_two_pow_sub_one_eq_mod _ 9

theorem vaSplit_off (vaddr : U64) : (vaSplit vaddr).off = vaddr.toNat % 4096 := by
  unfold vaSplit
  rw [BitVec.toNat_and]
  exact Nat.and_two_pow_sub_one_eq_mod _ 12

/-- The path of an address is given by its page. -/
theorem pathOf_eq (vaddr : U64) :
    pathOf vaddr = [pageOf vaddr % 512, pageOf vaddr / 512 % 512, pageOf vaddr / 512 ^ 2 % 512,
      pageOf vaddr / 512 ^ 3] := by
  unfold pathOf vaSplit pageOf
  simp only [toNat_shiftRight_and, List.cons.injEq, and_true]
  refine ⟨?_, ?_, ?_, ?_⟩ <;> omega

theorem pathOf_eq_iff {first second : U64} :
    pathOf first = pathOf second ↔ pageOf first = pageOf second := by
  constructor
  · intro same
    rw [pathOf_eq, pathOf_eq] at same
    simp only [List.cons.injEq, and_true] at same
    omega
  · intro same
    rw [pathOf_eq, pathOf_eq, same]

theorem inRange_pathOf (vaddr : U64) : InRange (pathOf vaddr) := by
  rw [pathOf_eq]
  have bound : pageOf vaddr < 2 ^ 36 := Nat.mod_lt _ (by decide)
  intro index member
  simp only [List.mem_cons, List.not_mem_nil, or_false] at member
  rcases member with rfl | rfl | rfl | rfl <;> omega

/-- No huge page stands above the leaf of a path. -/
def Clear (word : Nat → U64) (root : Nat) (path : List Nat) : Prop :=
  ∀ upper entry, upper.length ≤ 3 → upper <:+ path → entryAt word root upper = some entry →
    present entry = true → huge entry = false

theorem InRange.suffix {path upper : List Nat} (inRange : InRange path)
    (isSuffix : upper <:+ path) :
    InRange upper :=
  fun index member => inRange index (isSuffix.subset member)

variable {alloc : Allocator} {root : Nat} {memory : PhysMemory}

theorem Clear.extends {before after : PhysMemory} {path : List Nat} (inRange : InRange path)
    (extension : Extends root before after) (isClear : Clear before.word root path) :
    Clear after.word root path := by
  intro upper entry short isSuffix found isPresent
  rcases extension.new short (InRange.suffix inRange isSuffix) found isPresent with
    earlier | notHuge
  · exact isClear upper entry short isSuffix earlier isPresent
  · exact notHuge

/-- `ensure_table` on the way to a page. -/
theorem Clear.ensureTable (fresh : FreshPages alloc) (sound : Sound alloc root memory)
    {full path : List Nat} {table : Nat} (index : Nat) (inRange : InRange full)
    (isClear : Clear memory.word root full) (isSuffix : index :: path <:+ full)
    (short : path.length < 3) (found : tableAt child memory.word root path = some table) :
    let result := memory.ensureTable alloc (slot table index)
    Sound alloc root result.2 ∧ Grows root memory result.2 ∧ AddsOpen root memory result.2 ∧
      Clear result.2.word root full ∧
      (result.1 = .outOfMemory ∨ ∃ answer, result.1 = .table answer ∧
        tableAt child result.2.word root (index :: path) = some answer) := by
  have suffixRange := InRange.suffix inRange isSuffix
  obtain ⟨soundAfter, grows, adds, answers⟩ := ensureTable_spec fresh sound short suffixRange.tail
    suffixRange.head found
    (isClear (index :: path) _ short isSuffix (entryAt_cons.mpr ⟨table, found, rfl⟩))
  exact ⟨soundAfter, grows, adds, isClear.extends inRange grows.extends, answers⟩

/-- `map` adds the missing tables and then writes one leaf; it fails when a table
is missing and cannot be made. -/
theorem map_cases (fresh : FreshPages alloc) (sound : Sound alloc root memory) (vaddr : U64)
    (isClear : Clear memory.word root (pathOf vaddr)) (physicalAddr flags : U64) :
    ∃ grown, Sound alloc root grown ∧ Grows root memory grown ∧ AddsOpen root memory grown ∧
      (PagingContext.map alloc ⟨root⟩ vaddr physicalAddr flags memory = (.failed, grown) ∨
        ∃ pt, tableAt child grown.word root (pathOf vaddr).tail = some pt ∧
          PagingContext.map alloc ⟨root⟩ vaddr physicalAddr flags memory =
            (.mapped, grown.store (slot pt (vaSplit vaddr).pt)
              (leafEntry physicalAddr flags))) := by
  have inRange := inRange_pathOf vaddr
  simp only [PagingContext.map]
  have atRoot : tableAt child memory.word root [] = some root := rfl
  have first := isClear.ensureTable fresh sound (vaSplit vaddr).pml4 inRange ⟨[_, _, _], rfl⟩
    (show 0 < 3 by decide) atRoot
  generalize memory.ensureTable alloc (slot root (vaSplit vaddr).pml4) = result at first ⊢
  obtain ⟨answer, memory₁⟩ := result
  obtain ⟨sound₁, grows₁, adds₁, clear₁, rfl | ⟨pdpt, rfl, foundPdpt⟩⟩ := first
  · exact ⟨memory₁, sound₁, grows₁, adds₁, .inl rfl⟩
  have second := clear₁.ensureTable fresh sound₁ (vaSplit vaddr).pdpt inRange ⟨[_, _], rfl⟩
    (show 1 < 3 by decide) foundPdpt
  simp only
  generalize memory₁.ensureTable alloc (slot pdpt (vaSplit vaddr).pdpt) = result at second ⊢
  obtain ⟨answer, memory₂⟩ := result
  obtain ⟨sound₂, grows₂, adds₂, clear₂, rfl | ⟨pd, rfl, foundPd⟩⟩ := second
  · exact ⟨memory₂, sound₂, grows₁.trans grows₂, adds₁.trans adds₂, .inl rfl⟩
  have third := clear₂.ensureTable fresh sound₂ (vaSplit vaddr).pd inRange ⟨[_], rfl⟩
    (show 2 < 3 by decide) foundPd
  simp only
  generalize memory₂.ensureTable alloc (slot pd (vaSplit vaddr).pd) = result at third ⊢
  obtain ⟨answer, memory₃⟩ := result
  obtain ⟨sound₃, grows₃, adds₃, _, isTable⟩ := third
  refine ⟨memory₃, sound₃, (grows₁.trans grows₂).trans grows₃,
    (adds₁.trans adds₂).trans adds₃, ?_⟩
  rcases isTable with rfl | ⟨pt, rfl, foundPt⟩
  · exact .inl rfl
  · exact .inr ⟨pt, foundPt, rfl⟩

/-- `unmap` writes the leaf of the page unless a table on the way is missing. -/
theorem unmap_cases (fresh : FreshPages alloc) (sound : Sound alloc root memory) (vaddr : U64)
    (isClear : Clear memory.word root (pathOf vaddr)) :
    (tableAt child memory.word root (pathOf vaddr).tail = none ∧
        PagingContext.unmap ⟨root⟩ vaddr memory = some memory) ∨
      ∃ pt, tableAt child memory.word root (pathOf vaddr).tail = some pt ∧
        PagingContext.unmap ⟨root⟩ vaddr memory =
          some (memory.store (slot pt (vaSplit vaddr).pt) 0) := by
  have atRoot : tableAt child memory.word root [] = some root := rfl
  have follow {table : Nat} {path : List Nat} (index : Nat)
      (isSuffix : index :: path <:+ pathOf vaddr)
      (short : path.length < 3) (found : tableAt child memory.word root path = some table) :
      (memory.word (slot table index) &&& pfPresent = 0 →
          tableAt child memory.word root (index :: path) = none) ∧
        (¬ memory.word (slot table index) &&& pfPresent = 0 →
          ∃ next, tableAt child memory.word root (index :: path) = some next ∧
            TableAnswer.pointer (address (memory.word (slot table index))) = .table next) := by
    constructor
    · intro absent
      exact (tableAt_of_found child index found).trans
        (child_eq_none_of_absent (decide_eq_false (not_not.mpr absent)))
    · intro there
      have isPresent : present (memory.word (slot table index)) = true := decide_eq_true there
      have notHuge := isClear (index :: path) _ short isSuffix
        (entryAt_cons.mpr ⟨table, found, rfl⟩) isPresent
      have named := (tableAt_of_found child index found).trans
        (child_eq_some.mpr ⟨isPresent, notHuge, rfl⟩)
      have shortToo : (index :: path).length ≤ 3 := short
      exact ⟨_, named, pointer_of_ne_zero (sound.table_ne_zero fresh shortToo
        (InRange.suffix (inRange_pathOf vaddr) isSuffix) named)⟩
  simp only [PagingContext.unmap]
  have first := follow (vaSplit vaddr).pml4 ⟨[_, _, _], rfl⟩ (show 0 < 3 by decide) atRoot
  by_cases absent : memory.word (slot root (vaSplit vaddr).pml4) &&& pfPresent = 0
  · rw [if_pos absent]
    exact .inl ⟨tableAt_of_missing child (tableAt_of_missing child (first.1 absent)), rfl⟩
  obtain ⟨pdpt, foundPdpt, toPdpt⟩ := first.2 absent
  have second := follow (vaSplit vaddr).pdpt ⟨[_, _], rfl⟩ (show 1 < 3 by decide) foundPdpt
  rw [if_neg absent, toPdpt]
  simp only
  by_cases absent' : memory.word (slot pdpt (vaSplit vaddr).pdpt) &&& pfPresent = 0
  · rw [if_pos absent']
    exact .inl ⟨tableAt_of_missing child (second.1 absent'), rfl⟩
  obtain ⟨pd, foundPd, toPd⟩ := second.2 absent'
  have third := follow (vaSplit vaddr).pd ⟨[_], rfl⟩ (show 2 < 3 by decide) foundPd
  rw [if_neg absent', toPd]
  simp only
  by_cases absent'' : memory.word (slot pd (vaSplit vaddr).pd) &&& pfPresent = 0
  · rw [if_pos absent'']
    exact .inl ⟨third.1 absent'', rfl⟩
  obtain ⟨pt, foundPt, toPt⟩ := third.2 absent''
  rw [if_neg absent'', toPt]
  exact .inr ⟨pt, foundPt, rfl⟩

/-- **Mapping sets one leaf.** -/
theorem map_spec (fresh : FreshPages alloc) (sound : Sound alloc root memory) (vaddr : U64)
    (isClear : Clear memory.word root (pathOf vaddr)) (physicalAddr flags : U64) :
    let result := PagingContext.map alloc ⟨root⟩ vaddr physicalAddr flags memory
    result.1 ≠ .trap ∧ Sound alloc root result.2 ∧ Extends root memory result.2 ∧
      AddsOpen root memory result.2 ∧
      ∀ {path : List Nat}, path.length = 4 → InRange path →
        leafAt result.2.word root path =
          if result.1 = .mapped ∧ path = pathOf vaddr then some (leafEntry physicalAddr flags)
          else leafAt memory.word root path := by
  obtain ⟨grown, soundGrown, grows, adds, failed | ⟨pt, found, mapped⟩⟩ :=
    map_cases fresh sound vaddr isClear physicalAddr flags
  · simp only [failed]
    refine ⟨nofun, soundGrown, grows.extends, adds, fun full inRange => ?_⟩
    rw [grows.leafAt_eq full inRange, if_neg]
    exact fun both => nomatch both.1
  · obtain ⟨soundAfter, extension, addsLeaf, leaves⟩ := store_leaf soundGrown rfl
      (inRange_pathOf vaddr).tail (inRange_pathOf vaddr).head found (leafEntry physicalAddr flags)
    simp only [mapped]
    refine ⟨nofun, soundAfter, grows.extends.trans extension, adds.trans addsLeaf,
      fun {path} full inRange => ?_⟩
    have leaf : leafAt (grown.store _ _).word root path = if path = pathOf vaddr then _ else _ :=
      leaves full inRange
    rw [leaf, grows.leafAt_eq full inRange]
    have isPresent : present (leafEntry physicalAddr flags) = true :=
      present_leafEntry physicalAddr flags
    by_cases here : path = pathOf vaddr
    · rw [if_pos here, if_pos ⟨trivial, here⟩, Option.filter_some_pos isPresent]
    · rw [if_neg here, if_neg fun both => here both.2]

/-- **Unmapping removes one leaf.** -/
theorem unmap_spec (fresh : FreshPages alloc) (sound : Sound alloc root memory) (vaddr : U64)
    (isClear : Clear memory.word root (pathOf vaddr)) :
    ∃ after, PagingContext.unmap ⟨root⟩ vaddr memory = some after ∧
      Sound alloc root after ∧ Extends root memory after ∧ AddsOpen root memory after ∧
      ∀ {path : List Nat}, path.length = 4 → InRange path →
        leafAt after.word root path =
          if path = pathOf vaddr then none else leafAt memory.word root path := by
  rcases unmap_cases fresh sound vaddr isClear with ⟨missing, same⟩ | ⟨pt, found, stored⟩
  · refine ⟨_, same, sound, (Grows.of_word_eq rfl rfl).extends, AddsOpen.of_word_eq rfl,
      fun {path} full inRange => ?_⟩
    split_ifs with here
    · rw [here]
      exact leafAt_of_missing missing
    · rfl
  · obtain ⟨soundAfter, extension, adds, leaves⟩ := store_leaf sound rfl
      (inRange_pathOf vaddr).tail (inRange_pathOf vaddr).head found 0
    exact ⟨_, stored, soundAfter, extension, adds, leaves⟩

/-- **The walk ends at the leaf** of its address, past the three entries on the
way to it, unless it meets a huge page. -/
theorem walk_cases (vaddr : U64) (isClear : Clear memory.word root (pathOf vaddr)) :
    (leafAt memory.word root (pathOf vaddr) = none ∧ walk memory.word root vaddr = none) ∨
      ∃ upper leaf, leafAt memory.word root (pathOf vaddr) = some leaf ∧
        walk memory.word root vaddr =
          some { phys := address leaf + vaddr.toNat % 4096, entries := upper ++ [leaf] } ∧
        ∀ entry ∈ upper, present entry = true ∧ ∃ path, path.length ≤ 3 ∧
          path <:+ pathOf vaddr ∧ entryAt memory.word root path = some entry := by
  have notHuge {table : Nat} {path : List Nat} (index : Nat)
      (isSuffix : index :: path <:+ pathOf vaddr)
      (short : path.length < 3) (found : tableAt child memory.word root path = some table) :
      (present (memory.word (slot table index)) && huge (memory.word (slot table index))) =
        false := by
    have := isClear (index :: path) _ short isSuffix (entryAt_cons.mpr ⟨table, found, rfl⟩)
    cases isPresent : present (memory.word (slot table index)) with
    | false => rfl
    | true => exact this isPresent
  have passed {table next : Nat} {path : List Nat} (index : Nat)
      (isSuffix : index :: path <:+ pathOf vaddr) (short : path.length < 3)
      (found : tableAt child memory.word root path = some table)
      (named : child (memory.word (slot table index)) = some next) :
      present (memory.word (slot table index)) = true ∧ ∃ path, path.length ≤ 3 ∧
        path <:+ pathOf vaddr ∧
        entryAt memory.word root path = some (memory.word (slot table index)) :=
    ⟨(child_eq_some.mp named).1, index :: path, short, isSuffix,
      entryAt_cons.mpr ⟨table, found, rfl⟩⟩
  simp only [walk, Option.bind_eq_bind]
  have atRoot : tableAt child memory.word root [] = some root := rfl
  have toPdpt := tableAt_of_found child (vaSplit vaddr).pml4 atRoot
  cases first : child (memory.word (slot root (vaSplit vaddr).pml4)) with
  | none =>
      have missing : tableAt child memory.word root (pathOf vaddr).tail = none :=
        tableAt_of_missing child (tableAt_of_missing child (toPdpt.trans first))
      exact .inl ⟨leafAt_of_missing missing, rfl⟩
  | some pdpt =>
      have foundPdpt := toPdpt.trans first
      have toPd := tableAt_of_found child (vaSplit vaddr).pdpt foundPdpt
      have upper := notHuge (vaSplit vaddr).pdpt ⟨[_, _], rfl⟩ (show 1 < 3 by decide)
        foundPdpt
      simp only [Option.bind_some, upper, Bool.false_eq_true, if_false]
      cases second : child (memory.word (slot pdpt (vaSplit vaddr).pdpt)) with
      | none =>
          have missing : tableAt child memory.word root (pathOf vaddr).tail = none :=
            tableAt_of_missing child (toPd.trans second)
          exact .inl ⟨leafAt_of_missing missing, rfl⟩
      | some pd =>
          have foundPd := toPd.trans second
          have toPt := tableAt_of_found child (vaSplit vaddr).pd foundPd
          have lower := notHuge (vaSplit vaddr).pd ⟨[_], rfl⟩ (show 2 < 3 by decide)
            foundPd
          simp only [Option.bind_some, lower, Bool.false_eq_true, if_false]
          cases third : child (memory.word (slot pd (vaSplit vaddr).pd)) with
          | none => exact .inl ⟨leafAt_of_missing (toPt.trans third), rfl⟩
          | some pt =>
              have leaf := leafAt_of_found (vaSplit vaddr).pt (toPt.trans third)
              unfold pathOf
              rw [leaf]
              simp only [Option.bind_some, vaSplit_off]
              cases isPresent : present (memory.word (slot pt (vaSplit vaddr).pt)) with
              | false => exact .inl ⟨by simp [isPresent], by simp⟩
              | true =>
                  refine .inr ⟨[_, _, _], _, Option.filter_some_pos isPresent, rfl, ?_⟩
                  intro entry member
                  simp only [List.mem_cons, List.not_mem_nil, or_false] at member
                  rcases member with rfl | rfl | rfl
                  · exact passed _ ⟨[_, _, _], rfl⟩ (show 0 < 3 by decide) atRoot first
                  · exact passed _ ⟨[_, _], rfl⟩ (show 1 < 3 by decide) foundPdpt second
                  · exact passed _ ⟨[_], rfl⟩ (show 2 < 3 by decide) foundPd third

/-- Entries that grant a right leave it to the leaf. -/
theorem all_append_leaf {right : U64 → Bool} {upper : List U64} (leaf : U64)
    (granted : ∀ entry ∈ upper, right entry = true) : (upper ++ [leaf]).all right = right leaf := by
  rw [List.all_append, List.all_eq_true.mpr granted, Bool.true_and, List.all_cons, List.all_nil,
    Bool.and_true]

/-- Where the walk ends, by the leaf alone. -/
theorem walk_eq_leafAt (vaddr : U64)
    (isClear : Clear memory.word root (pathOf vaddr)) :
    (walk memory.word root vaddr).map Translation.phys =
      (leafAt memory.word root (pathOf vaddr)).map fun entry =>
        address entry + vaddr.toNat % 4096 := by
  rcases walk_cases vaddr isClear with ⟨noLeaf, stuck⟩ | ⟨upper, leaf, found, ends, _⟩
  · rw [noLeaf, stuck]
    rfl
  · rw [found, ends]
    rfl

end Lofita.Paging
