import Lofita.Kernel.AddressWindows
import Lofita.Paging.Refinement

/-! # Mappings of pages

What the calls into the page tables do to the pages that are mapped. Above the first 2 GB
`page_table_map` maps a page if it answers 0, and `page_table_unmap` unmaps one. Below, where the
page tables hold huge pages, neither changes where a page is found. What is answered, and whether
a call returns, is a parameter.
-/

namespace Lofita.Kernel

open Lofita.Foundation Lofita.Paging

/-- Where the pages of the 48-bit addresses are: the physical address of each. -/
abbrev Mappings := Nat → Option Nat

/-- The page of an address. -/
def pageNumber (addr : U64) : Nat := addr.toNat / 4096

/-- The processor translates addresses in the lowest and the highest `2 ^ 47` bytes. -/
def CanonicalPage (page : Nat) : Prop :=
  page < 2 ^ 35 ∨ (2 ^ 52 - 2 ^ 35 ≤ page ∧ page < 2 ^ 52)

instance (page : Nat) : Decidable (CanonicalPage page) :=
  inferInstanceAs (Decidable (_ ∨ _))

/-- What `page_table_map` answers to a virtual address, a physical address and flags, if it
returns, and whether `page_table_unmap` returns. -/
structure PagingAnswers where
  map : U64 → U64 → U32 → Option U32
  unmap : U64 → Bool

namespace PagingAnswers

variable (answers : PagingAnswers)

def Returns : FfiCall → Prop
  | .pageTableMap virtualAddr physicalAddr flags =>
      (answers.map virtualAddr physicalAddr flags).isSome
  | .pageTableUnmap virtualAddr => answers.unmap virtualAddr
  | .physAlloc _ _ | .physFree _ _ | .switchPageDirectory _ => True

/-- The call answers 0, and no huge page stands in its way. -/
def Maps (virtualAddr physicalAddr : U64) (flags : U32) : Prop :=
  answers.map virtualAddr physicalAddr flags = some 0 ∧ Above virtualAddr

instance (virtualAddr physicalAddr : U64) (flags : U32) :
    Decidable (answers.Maps virtualAddr physicalAddr flags) :=
  inferInstanceAs (Decidable (_ ∧ _))

end PagingAnswers

/-- The mappings of the kernel at boot: the first 2 GB, at the same physical addresses. -/
def identityMappings : Mappings := fun page => if page < 2 ^ 19 then some (page * 4096) else none

namespace Mappings

/-- Where the processor finds a page of the 64-bit addresses. -/
def lookup (mappings : Mappings) (page : Nat) : Option Nat :=
  if CanonicalPage page then mappings (page % 2 ^ 36) else none

variable (answers : PagingAnswers)

/-- The mappings a call leaves. -/
def after (mappings : Mappings) : FfiCall → Mappings
  | .pageTableMap virtualAddr physicalAddr flags =>
      if answers.Maps virtualAddr physicalAddr flags then
        Function.update mappings (pageOf virtualAddr) (some (physicalPage physicalAddr))
      else mappings
  | .pageTableUnmap virtualAddr =>
      if Above virtualAddr then Function.update mappings (pageOf virtualAddr) none else mappings
  | .physAlloc _ _ | .physFree _ _ | .switchPageDirectory _ => mappings

/-- The mappings after a list of calls. -/
def afterAll (mappings : Mappings) (calls : List FfiCall) : Mappings :=
  calls.foldl (after answers) mappings

variable {answers} {mappings : Mappings}

theorem afterAll_append (earlier later : List FfiCall) :
    mappings.afterAll answers (earlier ++ later) =
      (mappings.afterAll answers earlier).afterAll answers later := List.foldl_append

/-- Calls that change nothing leave the mappings. -/
theorem afterAll_of_unchanged {calls : List FfiCall}
    (unchanged : ∀ call ∈ calls, after answers mappings call = mappings) :
    mappings.afterAll answers calls = mappings := by
  induction calls with
  | nil => rfl
  | cons call rest ih =>
      have first : after answers mappings call = mappings := unchanged call List.mem_cons_self
      refine (congrArg (afterAll answers · rest) first).trans (ih fun later member => ?_)
      exact unchanged later (List.mem_cons_of_mem call member)

/-- A mapping enters its page, if it is made. -/
theorem after_pageTableMap (virtualAddr physicalAddr : U64) (flags : U32) (page : Nat) :
    mappings.after answers (.pageTableMap virtualAddr physicalAddr flags) page =
      if page = pageOf virtualAddr ∧ answers.Maps virtualAddr physicalAddr flags then
        some (physicalPage physicalAddr)
      else mappings page := by
  unfold after
  by_cases maps : answers.Maps virtualAddr physicalAddr flags
  · simp only [maps, ↓reduceIte, and_true, Function.update_apply]
  · simp only [maps, ↓reduceIte, and_false]

/-- Calls for consecutive pages map those whose call maps its page. -/
theorem afterAll_range {virtualAddr physicalAddr : Nat → U64} {first count : Nat} (flags : U32)
    (consecutive : ∀ i < count, pageOf (virtualAddr i) = first + i) (i : Nat) :
    mappings.afterAll answers ((List.range count).map fun i =>
        .pageTableMap (virtualAddr i) (physicalAddr i) flags) (first + i) =
      if i < count ∧ answers.Maps (virtualAddr i) (physicalAddr i) flags then
        some (physicalPage (physicalAddr i))
      else mappings (first + i) := by
  induction count with
  | zero => rw [if_neg fun both => Nat.not_lt_zero i both.1]; rfl
  | succ count ih =>
      have earlier := ih fun j below => consecutive j (Nat.lt_succ_of_lt below)
      rw [List.range_succ, List.map_append, afterAll_append]
      refine (after_pageTableMap _ _ _ _).trans ?_
      rw [consecutive count (Nat.lt_succ_self count), earlier]
      by_cases last : i = count
      · subst last
        simp only [Nat.lt_succ_self, Nat.lt_irrefl, true_and, false_and, ↓reduceIte]
      · have other : first + i ≠ first + count := by omega
        have below : i < count + 1 ↔ i < count := by omega
        simp only [other, below, false_and, ↓reduceIte]

/-- Calls that map nothing leave mapped what none of them unmaps. -/
theorem afterAll_of_no_map {calls : List FfiCall}
    (noMap : ∀ virtualAddr physicalAddr flags,
      .pageTableMap virtualAddr physicalAddr flags ∉ calls) (page : Nat) :
    mappings.afterAll answers calls page = none ↔
      mappings page = none ∨ ∃ virtualAddr, .pageTableUnmap virtualAddr ∈ calls ∧
        Above virtualAddr ∧ pageOf virtualAddr = page := by
  induction calls generalizing mappings with
  | nil => simp only [afterAll, List.foldl_nil, List.not_mem_nil, false_and, exists_false, or_false]
  | cons call rest ih =>
      have later := @ih (after answers mappings call) fun _ _ _ member =>
        noMap _ _ _ (List.mem_cons_of_mem call member)
      refine Iff.trans later ?_
      cases call with
      | pageTableMap virtualAddr physicalAddr flags =>
          exact absurd List.mem_cons_self (noMap virtualAddr physicalAddr flags)
      | pageTableUnmap virtualAddr =>
          by_cases here : Above virtualAddr ∧ pageOf virtualAddr = page
          · obtain ⟨above, rfl⟩ := here
            refine iff_of_true (.inl ?_) (.inr ⟨_, List.mem_cons_self, above, rfl⟩)
            simp only [after, above, ↓reduceIte, Function.update_self]
          · have same : after answers mappings (.pageTableUnmap virtualAddr) page =
                mappings page := by
              simp only [after]
              split_ifs with above
              · exact Function.update_of_ne (fun there => here ⟨above, there.symm⟩) _ _
              · rfl
            simp only [same, List.mem_cons, FfiCall.pageTableUnmap.injEq, or_and_right,
              exists_or, exists_eq_left, here, false_or]
      | physAlloc _ _ | physFree _ _ | switchPageDirectory _ =>
          simp only [after, List.mem_cons, reduceCtorEq, false_or]

/-- A page is not found if it has no address, or no entry. -/
theorem lookup_eq_none_iff {page : Nat} :
    mappings.lookup page = none ↔ CanonicalPage page → mappings (page % 2 ^ 36) = none := by
  unfold Mappings.lookup
  split_ifs with canonical
  · exact ⟨fun none _ => none, fun none => none canonical⟩
  · exact iff_of_true rfl fun there => absurd there canonical

/-- A page that is found has an address. -/
theorem canonical_of_lookup {page phys : Nat} (found : mappings.lookup page = some phys) :
    CanonicalPage page := by
  unfold Mappings.lookup at found
  split_ifs at found with canonical
  exact canonical

/-- A page with an address is found by its four indices. -/
theorem lookup_of_canonical {page : Nat} (canonical : CanonicalPage page) :
    mappings.lookup page = mappings (page % 2 ^ 36) := if_pos canonical

end Mappings

/-- Consecutive pages that are all canonical are consecutive pages of the 48-bit addresses. -/
theorem mod_consecutive {first i : Nat} (canonical : ∀ j ≤ i, CanonicalPage (first + j)) :
    (first + i) % 2 ^ 36 = first % 2 ^ 36 + i := by
  have start := canonical 0 (Nat.zero_le i)
  have last := canonical i (Nat.le_refl i)
  unfold CanonicalPage at start last
  rcases start with low | high
  · have inLow : first + i < 2 ^ 35 := by
      by_contra past
      have gap := canonical (2 ^ 35 - first) (by omega)
      unfold CanonicalPage at gap
      omega
    omega
  · omega

/-- The region has an address on the page. -/
def Vma.HasPage (vma : Vma) (page : Nat) : Prop := ∃ addr, vma.Covers addr ∧ addr / 4096 = page

/-- The pages of a region follow its first. -/
theorem Vma.hasPage_iff {vma : Vma} (nonempty : vma.size ≠ 0) (page : Nat) :
    vma.HasPage page ↔ pageNumber vma.startAddr ≤ page ∧
      page ≤ (vma.startAddr.toNat + vma.size.toNat - 1) / 4096 := by
  have positive : 0 < vma.size.toNat := BitVec.toNat_pos_of_ne_zero nonempty
  unfold HasPage Covers pageNumber
  constructor
  · rintro ⟨addr, ⟨low, high⟩, rfl⟩
    omega
  · rintro ⟨low, high⟩
    refine ⟨max vma.startAddr.toNat (page * 4096), ?_, ?_⟩
    · omega
    · omega

end Lofita.Kernel
