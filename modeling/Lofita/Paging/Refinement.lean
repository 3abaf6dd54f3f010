import Lofita.Paging.KernelSpace

/-! # The walk follows the calls

What the calls of `page_table_map` and `page_table_unmap` ask of a page is the
abstract address space (`Requests`). The page tables refine it as long as no
call is made in the second of the two identity-mapped gigabytes (`walks_follow_calls`);
a call in the first traps.
-/

namespace Lofita.Paging

open Lofita.Foundation Lofita.Foundation.TableTree

inductive PagingCall where
  | map (virtualAddr physicalAddr : U64) (flags : U32)
  | unmap (virtualAddr : U64)
deriving DecidableEq, Repr

def PagingCall.virtualAddr : PagingCall → U64
  | .map virtualAddr _ _ => virtualAddr
  | .unmap virtualAddr => virtualAddr

/-- What the calls so far ask of each page: nothing, to be absent, or to be at a
physical page. -/
abbrev Requests := Nat → Option (Option Nat)

/-- Where a virtual address is to be found. -/
def Requests.expected (requests : Requests) (vaddr : U64) : Option Nat :=
  match requests (pageOf vaddr) with
  | some answer => answer.map fun phys => phys + vaddr.toNat % 4096
  | none => if vaddr.toNat < 2 ^ 31 then some vaddr.toNat else none

/-- The page tables together with what was asked of them. -/
structure TracedPaging where
  paging : PagingState
  requests : Requests

/-- The physical page of an address. -/
def physicalPage (physicalAddr : U64) : Nat := (physicalAddr &&& physAddrMask).toNat

/-- The calls of the C interface. A request counts when `page_table_map` returns 0, or
`page_table_unmap` returns; a kernel that halted answers nothing more. -/
def traced (alloc : Allocator) : System TracedPaging PagingCall where
  step state
    | .map virtualAddr physicalAddr flags =>
        match pageTableMap alloc virtualAddr physicalAddr flags state.paging with
        | some (.mapped, paging) =>
            { paging
              requests := Function.update state.requests (pageOf virtualAddr)
                (some (some (physicalPage physicalAddr))) }
        | some (_, paging) => { state with paging }
        | none => state
    | .unmap virtualAddr =>
        match pageTableUnmap alloc virtualAddr state.paging with
        | some paging =>
            { paging, requests := Function.update state.requests (pageOf virtualAddr) (some none) }
        | none => state

/-- Every 48-bit address is found where it is asked to be, and the only words
written, other than some written before, are those of page tables. -/
def Refines (writtenBefore : List Nat) (state : TracedPaging) : Prop :=
  ∃ context, state.paging.kernelPaging = some context ∧
    (∀ vaddr : U64, vaddr.toNat < 2 ^ 48 →
      (walk state.paging.memory.word context.pml4 vaddr).map Translation.phys =
        state.requests.expected vaddr) ∧
    ∀ addr ∈ state.paging.memory.written,
      addr ∈ writtenBefore ∨ InTables state.paging.memory.word context.pml4 addr

/-- The leaves of the kernel address space are the pages asked for, all of them
above the huge pages. -/
structure Simulates (alloc : Allocator) (writtenBefore : List Nat) (root : Nat)
    (state : TracedPaging) : Prop where
  context : state.paging.kernelPaging = some ⟨root⟩
  initialized : state.paging.pagingInitialized = true
  space : KernelSpace alloc root state.paging.memory
  leaves : ∀ vaddr, (leafAt state.paging.memory.word root (pathOf vaddr)).map address =
    (state.requests (pageOf vaddr)).join
  above : ∀ page, state.requests page ≠ none → 2 ^ 19 ≤ page
  frame : ∀ addr ∈ state.paging.memory.written,
    addr ∈ writtenBefore ∨ InTables state.paging.memory.word root addr

variable {alloc : Allocator} {writtenBefore : List Nat} {root : Nat} {state : TracedPaging}

/-- A simulating state refines the requests. -/
theorem Simulates.refines (simulates : Simulates alloc writtenBefore root state) :
    Refines writtenBefore state := by
  refine ⟨⟨root⟩, simulates.context, fun vaddr small => ?_, simulates.frame⟩
  unfold Requests.expected
  by_cases low : vaddr.toNat < 2 ^ 31
  · have untouched : state.requests (pageOf vaddr) = none := by
      by_contra touched
      have := simulates.above _ touched
      unfold pageOf at this
      omega
    rw [simulates.space.walk_low low, untouched]
    exact (if_pos low).symm
  · have above : Above vaddr := by
      unfold Above
      omega
    have walked := walk_eq_leafAt vaddr (simulates.space.clear above)
    have leaf := simulates.leaves vaddr
    rw [walked]
    cases asked : state.requests (pageOf vaddr) with
    | none =>
        rw [asked, Option.join_none, Option.map_eq_none_iff] at leaf
        rw [leaf]
        exact (if_neg low).symm
    | some answer =>
        rw [asked, Option.join_some] at leaf
        rw [← leaf]
        exact (Option.map_map (fun phys => phys + vaddr.toNat % 4096) address _).symm

/-- A change that writes only page tables keeps the frame. -/
theorem Simulates.frame_extends (simulates : Simulates alloc writtenBefore root state)
    {memory : PhysMemory} (extension : Extends root state.paging.memory memory) :
    ∀ addr ∈ memory.written, addr ∈ writtenBefore ∨ InTables memory.word root addr := by
  intro addr member
  rcases extension.frame member with earlier | inside
  · exact (simulates.frame addr earlier).imp_right extension.inTables
  · exact .inr inside

/-- **One leaf changes** together with what is asked of its page. -/
theorem Simulates.update (simulates : Simulates alloc writtenBefore root state) {vaddr : U64}
    (above : Above vaddr) {memory : PhysMemory} (leaf : Option U64) {answer : Option Nat}
    (sound : Sound alloc root memory) (extension : Extends root state.paging.memory memory)
    (leaves : ∀ {path : List Nat}, path.length = 4 → InRange path → leafAt memory.word root path =
      if path = pathOf vaddr then leaf else leafAt state.paging.memory.word root path)
    (same : leaf.map address = answer) :
    Simulates alloc writtenBefore root
      { paging := { state.paging with memory }
        requests := Function.update state.requests (pageOf vaddr) (some answer) } where
  context := simulates.context
  initialized := simulates.initialized
  space := simulates.space.extends sound extension
  leaves := by
    intro other
    rw [leaves rfl (inRange_pathOf other)]
    change _ = (Function.update state.requests (pageOf vaddr) (some answer) (pageOf other)).join
    by_cases here : pageOf other = pageOf vaddr
    · rw [if_pos (pathOf_eq_iff.mpr here), here, Function.update_self, same, Option.join_some]
    · rw [if_neg (mt pathOf_eq_iff.mp here), Function.update_of_ne here, simulates.leaves other]
  above := by
    intro page asked
    change Function.update state.requests (pageOf vaddr) (some answer) page ≠ none at asked
    by_cases here : page = pageOf vaddr
    · rw [here]
      exact (above_iff vaddr).mp above
    · rw [Function.update_of_ne here] at asked
      exact simulates.above page asked
  frame := simulates.frame_extends extension

/-- A failed call adds tables only. -/
theorem Simulates.grow (simulates : Simulates alloc writtenBefore root state)
    {memory : PhysMemory} (sound : Sound alloc root memory)
    (extension : Extends root state.paging.memory memory)
    (leaves : ∀ {path : List Nat}, path.length = 4 → InRange path →
      leafAt memory.word root path = leafAt state.paging.memory.word root path) :
    Simulates alloc writtenBefore root { state with paging := { state.paging with memory } } where
  context := simulates.context
  initialized := simulates.initialized
  space := simulates.space.extends sound extension
  leaves := by
    intro other
    rw [leaves rfl (inRange_pathOf other), simulates.leaves other]
  above := simulates.above
  frame := simulates.frame_extends extension

theorem pageTableMap_of_initialized {paging : PagingState} (initialized : paging.pagingInitialized)
    (context : paging.kernelPaging = some ⟨root⟩) (virtualAddr physicalAddr : U64) (flags : U32) :
    pageTableMap alloc virtualAddr physicalAddr flags paging =
      let result := PagingContext.map alloc ⟨root⟩ virtualAddr physicalAddr (pteFlags flags)
        paging.memory
      some (result.1, { paging with memory := result.2 }) := by
  simp only [pageTableMap, pagingGlobalInit, initialized, if_true, Option.bind_eq_bind,
    Option.bind_some, context]
  rfl

theorem pageTableUnmap_of_initialized {paging : PagingState}
    (initialized : paging.pagingInitialized) (context : paging.kernelPaging = some ⟨root⟩)
    (virtualAddr : U64) :
    pageTableUnmap alloc virtualAddr paging =
      (PagingContext.unmap ⟨root⟩ virtualAddr paging.memory).map fun memory =>
        { paging with memory } := by
  simp only [pageTableUnmap, pagingGlobalInit, initialized, if_true, Option.bind_eq_bind,
    Option.bind_some, context]
  exact Option.map_eq_bind.symm

/-- A call above the huge pages keeps the simulation. -/
theorem Simulates.step_above (fresh : FreshPages alloc)
    (simulates : Simulates alloc writtenBefore root state) (call : PagingCall)
    (above : Above call.virtualAddr) :
    Simulates alloc writtenBefore root ((traced alloc).step state call) := by
  cases call with
  | map virtualAddr physicalAddr flags =>
      obtain ⟨returns, sound, extension, _, leaves⟩ := map_spec fresh simulates.space.sound
        virtualAddr (simulates.space.clear above) physicalAddr (pteFlags flags)
      simp only [traced, pageTableMap_of_initialized simulates.initialized simulates.context]
      cases answered : (PagingContext.map alloc ⟨root⟩ virtualAddr physicalAddr (pteFlags flags)
          state.paging.memory).1 with
      | trap => exact absurd answered returns
      | failed =>
          refine simulates.grow sound extension fun full inRange => ?_
          rw [leaves full inRange, if_neg]
          exact fun both => nomatch answered.symm.trans both.1
      | mapped =>
          refine simulates.update above (some (leafEntry physicalAddr (pteFlags flags))) sound
            extension (fun full inRange => ?_) ?_
          · rw [leaves full inRange, answered]
            simp only [true_and]
            rfl
          · exact congrArg some (address_leafEntry (pteFlags_and_physAddrMask flags) physicalAddr)
  | unmap virtualAddr =>
      obtain ⟨after, returns, sound, extension, _, leaves⟩ := unmap_spec fresh
        simulates.space.sound virtualAddr (simulates.space.clear above)
      simp only [traced, pageTableUnmap_of_initialized simulates.initialized simulates.context,
        returns]
      exact simulates.update above none sound extension leaves rfl

/-- A call in the first gigabyte traps. -/
theorem Simulates.step_trap (fresh : FreshPages alloc)
    (simulates : Simulates alloc writtenBefore root state) (call : PagingCall)
    (low : call.virtualAddr.toNat % 2 ^ 48 < 2 ^ 30) : (traced alloc).step state call = state := by
  cases call with
  | map virtualAddr physicalAddr flags =>
      change virtualAddr.toNat % 2 ^ 48 < 2 ^ 30 at low
      simp only [traced, pageTableMap_of_initialized simulates.initialized simulates.context,
        (simulates.space.traps fresh low _ _).1]
  | unmap virtualAddr =>
      change virtualAddr.toNat % 2 ^ 48 < 2 ^ 30 at low
      simp only [traced, pageTableUnmap_of_initialized simulates.initialized simulates.context,
        (simulates.space.traps fresh low 0 0).2]
      rfl

/-- The address does not lie in the second identity-mapped gigabyte, where a call takes the
memory that the huge page stands for as a table. -/
def Outside (vaddr : U64) : Prop := vaddr.toNat % 2 ^ 48 < 2 ^ 30 ∨ Above vaddr

instance (vaddr : U64) : Decidable (Outside vaddr) := inferInstanceAs (Decidable (_ ∨ _))

/-- A call outside of the second gigabyte keeps the simulation. -/
theorem Simulates.step (fresh : FreshPages alloc)
    (simulates : Simulates alloc writtenBefore root state) (call : PagingCall)
    (outside : Outside call.virtualAddr) :
    Simulates alloc writtenBefore root ((traced alloc).step state call) := by
  rcases outside with low | above
  · rw [simulates.step_trap fresh call low]
    exact simulates
  · exact simulates.step_above fresh call above

/-- The state after `paging_global_init`, when nothing has been asked. -/
def TracedPaging.boot (paging : PagingState) : TracedPaging := ⟨paging, fun _ => none⟩

theorem simulates_boot (fresh : FreshPages alloc) {memory : PhysMemory} {paging : PagingState}
    (booted : pagingGlobalInit alloc ⟨memory, none, false⟩ = some paging) :
    ∃ root, Simulates alloc memory.written root (.boot paging) := by
  obtain ⟨root, context, initialized, space, leaves, frame⟩ := kernelSpace_init fresh booted
  refine ⟨root, context, initialized, space, fun vaddr => ?_, fun page asked => ?_, frame⟩
  · change (leafAt paging.memory.word root (pathOf vaddr)).map address = _
    rw [leaves vaddr]
    rfl
  · exact absurd rfl asked

/-- **Page-table refinement.** From the kernel address space of
`paging_global_init`, when no call is made in the second identity-mapped gigabyte,
every 48-bit address is found where the calls ask for it, and only page tables
are written. -/
theorem walks_follow_calls (fresh : FreshPages alloc) {memory : PhysMemory}
    {paging : PagingState} (booted : pagingGlobalInit alloc ⟨memory, none, false⟩ = some paging)
    {calls : List PagingCall} (outside : ∀ call ∈ calls, Outside call.virtualAddr) :
    (traced alloc).Always (Refines memory.written) (.boot paging) calls := by
  obtain ⟨root, simulates⟩ := simulates_boot fresh booted
  have along : (traced alloc).Along (fun _ call => Outside call.virtualAddr) (.boot paging)
      calls :=
    System.along_of_forall fun call member _ => outside call member
  exact System.always_of_invariant (Simulates alloc memory.written root)
    (fun _ call holds calledOutside => holds.step fresh call calledOutside)
    (fun _ holds => holds.refines) simulates along

/-! ### Samples -/

/-- An allocator with three hundred pages from 2 MB on. -/
def sampleAllocator : Allocator := fun request =>
  if request < 300 then some (0x20_0000 + 4096 * request) else none

theorem freshPages_sampleAllocator : FreshPages sampleAllocator where
  nonnull := by
    intro request page answer
    unfold sampleAllocator at answer
    split_ifs at answer
    cases answer
    omega
  aligned := by
    intro request page answer
    unfold sampleAllocator at answer
    split_ifs at answer
    cases answer
    omega
  small := by
    intro request page answer
    unfold sampleAllocator at answer
    split_ifs at answer
    cases answer
    omega
  once := by
    intro first second page firstAnswer secondAnswer
    unfold sampleAllocator at firstAnswer secondAnswer
    split_ifs at firstAnswer secondAnswer
    have same := (Option.some.inj firstAnswer).trans (Option.some.inj secondAnswer).symm
    omega

/-- A blank memory of which nothing was asked. -/
def blankMemory : PhysMemory := ⟨fun _ => 0, [], 0⟩

/-- The sample kernel address space at boot. -/
def samplePaging : PagingState :=
  (pagingGlobalInit sampleAllocator ⟨blankMemory, none, false⟩).getD ⟨blankMemory, none, false⟩

theorem booted_samplePaging :
    pagingGlobalInit sampleAllocator ⟨blankMemory, none, false⟩ = some samplePaging := rfl

theorem walks_follow_calls_sample :
    (∀ call ∈ [PagingCall.map 0x8000_0000 0x50_0000 1, .unmap 0x8000_0000, .unmap 0x2000_0000],
        Outside call.virtualAddr) ∧
      (traced sampleAllocator).Always (Refines []) (.boot samplePaging)
        [.map 0x8000_0000 0x50_0000 1, .unmap 0x8000_0000, .unmap 0x2000_0000] := by
  have outside : ∀ call ∈ [PagingCall.map 0x8000_0000 0x50_0000 1, .unmap 0x8000_0000,
      .unmap 0x2000_0000], Outside call.virtualAddr := by decide
  exact ⟨outside, walks_follow_calls freshPages_sampleAllocator booted_samplePaging outside⟩

/-- The walk of a page mapped in the second gigabyte still ends at the address itself: the
huge page was taken for a table, and the entry written to the memory it stands for. -/
theorem walks_past_mapped_page :
    FreshPages sampleAllocator ∧
      pagingGlobalInit sampleAllocator ⟨blankMemory, none, false⟩ = some samplePaging ∧
      ¬ (traced sampleAllocator).Always (Refines []) (.boot samplePaging)
        [.map 0x6000_0000 0x50_0000 1] := by
  refine ⟨freshPages_sampleAllocator, booted_samplePaging, ?_⟩
  rintro ⟨_, context, isContext, found, _⟩
  have root : context = ⟨0x20_0000⟩ := (Option.some.inj isContext).symm
  subst root
  have mapped : ((traced sampleAllocator).step (.boot samplePaging)
      (.map 0x6000_0000 0x50_0000 1)).requests.expected 0x6000_0000 = some 0x50_0000 := by decide
  have walked : (walk ((traced sampleAllocator).step (.boot samplePaging)
      (.map 0x6000_0000 0x50_0000 1)).paging.memory.word 0x20_0000 0x6000_0000).map
        Translation.phys = some 0x6000_0000 := by decide
  have same := (found 0x6000_0000 (by decide)).symm.trans walked
  exact absurd (mapped.symm.trans same) (by decide)

end Lofita.Paging
