import Lofita.Paging.Space

/-! # The answers of the allocator

A call of the page tables depends on the allocator only through its answers to the
requests made so far (`map_upTo`). So for a run it is enough that the pages it was
answered are fresh, whatever the allocator would answer later (`FreshBelow.freshPages`).
-/

namespace Lofita.Paging

open Lofita.Foundation Lofita.Foundation.TableTree

/-- The first answers are pages, each answered once. -/
structure FreshBelow (alloc : Allocator) (requests : Nat) : Prop where
  nonnull : ∀ {request page : Nat}, request < requests → alloc request = some page → page ≠ 0
  aligned : ∀ {request page : Nat}, request < requests → alloc request = some page → 4096 ∣ page
  small : ∀ {request page : Nat}, request < requests → alloc request = some page → page < 2 ^ 52
  once : ∀ {first second page : Nat}, first < requests → second < requests →
    alloc first = some page → alloc second = some page → first = second

/-- The allocator that gives the first answers only. -/
def Allocator.upTo (alloc : Allocator) (requests : Nat) : Allocator :=
  fun request => if request < requests then alloc request else none

/-- An allocator cut off at a number of requests serves the requests before it alike. -/
theorem Allocator.upTo_of_lt (alloc : Allocator) {requests request : Nat}
    (below : request < requests) : alloc.upTo requests request = alloc request :=
  if_pos below

/-- What the cut allocator serves, the allocator serves. -/
theorem Allocator.upTo_eq_some {alloc : Allocator} {requests request page : Nat} :
    alloc.upTo requests request = some page ↔ request < requests ∧ alloc request = some page := by
  unfold Allocator.upTo
  by_cases below : request < requests
  · rw [if_pos below]
    exact (and_iff_right below).symm
  · rw [if_neg below]
    exact iff_of_false (Option.some_ne_none page).symm fun both => below both.1

/-- Fresh answers to the first requests make the cut allocator a fresh one. -/
theorem FreshBelow.freshPages {alloc : Allocator} {requests : Nat}
    (fresh : FreshBelow alloc requests) : FreshPages (alloc.upTo requests) where
  nonnull := fun answer =>
    let ⟨below, answer⟩ := Allocator.upTo_eq_some.mp answer
    fresh.nonnull below answer
  aligned := fun answer =>
    let ⟨below, answer⟩ := Allocator.upTo_eq_some.mp answer
    fresh.aligned below answer
  small := fun answer =>
    let ⟨below, answer⟩ := Allocator.upTo_eq_some.mp answer
    fresh.small below answer
  once := fun first second =>
    let ⟨firstBelow, first⟩ := Allocator.upTo_eq_some.mp first
    let ⟨secondBelow, second⟩ := Allocator.upTo_eq_some.mp second
    fresh.once firstBelow secondBelow first second

/-- A fresh allocator answers the first requests freshly, however many they are. -/
theorem FreshPages.below {alloc : Allocator} (fresh : FreshPages alloc) (requests : Nat) :
    FreshBelow alloc requests where
  nonnull := fun _ => fresh.nonnull
  aligned := fun _ => fresh.aligned
  small := fun _ => fresh.small
  once := fun _ _ => fresh.once

/-! ### The requests of a call -/

variable {alloc : Allocator} {memory : PhysMemory}

/-- A new table costs one request. -/
theorem requests_newTable (memory : PhysMemory) :
    (memory.newTable alloc).2.requests = memory.requests + 1 := by
  unfold PhysMemory.newTable
  cases alloc memory.requests with
  | none => rfl
  | some page => rfl

/-- Reaching a table never takes a request back. -/
theorem requests_ensureTable_le (memory : PhysMemory) (entry : Nat) :
    memory.requests ≤ (memory.ensureTable alloc entry).2.requests := by
  have made := @requests_newTable alloc memory
  unfold PhysMemory.ensureTable
  split_ifs
  · exact Nat.le_refl _
  · generalize memory.newTable alloc = result at made ⊢
    obtain ⟨answer, grown⟩ := result
    cases answer with
    | none => exact made.symm ▸ Nat.le_succ _
    | some table => exact made.symm ▸ Nat.le_succ _

/-- A mapping never takes a request back. -/
theorem requests_map_le (context : PagingContext) (virtualAddr physicalAddr flags : U64)
    (memory : PhysMemory) :
    memory.requests ≤ (context.map alloc virtualAddr physicalAddr flags memory).2.requests := by
  have more := @requests_ensureTable_le alloc
  simp only [PagingContext.map]
  have first := more memory (slot context.pml4 (vaSplit virtualAddr).pml4)
  generalize memory.ensureTable alloc _ = result at first ⊢
  obtain ⟨_ | _ | pdpt, memory₁⟩ := result
  · exact first
  · exact first
  have second := more memory₁ (slot pdpt (vaSplit virtualAddr).pdpt)
  simp only
  generalize memory₁.ensureTable alloc _ = result at second ⊢
  obtain ⟨_ | _ | pd, memory₂⟩ := result
  · exact Nat.le_trans first second
  · exact Nat.le_trans first second
  have third := more memory₂ (slot pd (vaSplit virtualAddr).pd)
  simp only
  generalize memory₂.ensureTable alloc _ = result at third ⊢
  obtain ⟨_ | _ | pt, memory₃⟩ := result
  · exact Nat.le_trans (Nat.le_trans first second) third
  · exact Nat.le_trans (Nat.le_trans first second) third
  · exact Nat.le_trans (Nat.le_trans first second) third

/-! ### The answers a call sees -/

variable {requests : Nat}

/-- A new table within the cut is the same with the cut allocator. -/
theorem newTable_upTo (within : (memory.newTable alloc).2.requests ≤ requests) :
    memory.newTable (alloc.upTo requests) = memory.newTable alloc := by
  rw [requests_newTable] at within
  unfold PhysMemory.newTable
  rw [alloc.upTo_of_lt within]

/-- A table reached within the cut is the same with the cut allocator. -/
theorem ensureTable_upTo {entry : Nat}
    (within : (memory.ensureTable alloc entry).2.requests ≤ requests) :
    memory.ensureTable (alloc.upTo requests) entry = memory.ensureTable alloc entry := by
  unfold PhysMemory.ensureTable at within ⊢
  split_ifs with there
  · rfl
  · rw [if_neg there] at within
    have made : (memory.newTable alloc).2.requests ≤ requests := by
      generalize memory.newTable alloc = result at within ⊢
      obtain ⟨_ | table, grown⟩ := result
      · exact within
      · exact within
    rw [newTable_upTo made]

/-- **A call sees only the answers to the requests it makes.** -/
theorem map_upTo {context : PagingContext} {virtualAddr physicalAddr flags : U64}
    (within : (context.map alloc virtualAddr physicalAddr flags memory).2.requests ≤ requests) :
    context.map (alloc.upTo requests) virtualAddr physicalAddr flags memory =
      context.map alloc virtualAddr physicalAddr flags memory := by
  have more := @requests_ensureTable_le alloc
  simp only [PagingContext.map] at within ⊢
  generalize first : memory.ensureTable alloc (slot context.pml4 (vaSplit virtualAddr).pml4) =
    result at within ⊢
  obtain ⟨_ | _ | pdpt, memory₁⟩ := result
  · rw [ensureTable_upTo (first ▸ within), first]
  · rw [ensureTable_upTo (first ▸ within), first]
  have laterFirst := more memory₁ (slot pdpt (vaSplit virtualAddr).pdpt)
  simp only at within ⊢
  generalize second : memory₁.ensureTable alloc (slot pdpt (vaSplit virtualAddr).pdpt) =
    result at within laterFirst ⊢
  obtain ⟨_ | _ | pd, memory₂⟩ := result
  · rw [ensureTable_upTo (first ▸ Nat.le_trans laterFirst within), first]
    simp only
    rw [ensureTable_upTo (second ▸ within), second]
  · rw [ensureTable_upTo (first ▸ Nat.le_trans laterFirst within), first]
    simp only
    rw [ensureTable_upTo (second ▸ within), second]
  have laterSecond := more memory₂ (slot pd (vaSplit virtualAddr).pd)
  simp only at within ⊢
  have last : (memory₂.ensureTable alloc (slot pd (vaSplit virtualAddr).pd)).2.requests ≤
      requests := by
    generalize memory₂.ensureTable alloc _ = result at within ⊢
    obtain ⟨_ | _ | pt, memory₃⟩ := result
    · exact within
    · exact within
    · exact within
  have upToSecond := Nat.le_trans laterSecond last
  rw [ensureTable_upTo (first ▸ Nat.le_trans laterFirst upToSecond), first]
  simp only
  rw [ensureTable_upTo (second ▸ upToSecond), second]
  simp only
  rw [ensureTable_upTo last]

end Lofita.Paging
