import Lofita.Kernel.Mappings
import Lofita.Paging.Rights

/-! # Mappings in the page tables

The pages that the walk of the processor finds in the page tables are mappings. Calls on the page
tables change them as the same calls change the mappings (`mappedPages_onPagingAll`), when what is
answered to each call is what the page tables answer, and no call below 2 GB takes a word of the
page tables for memory of its own.
-/

namespace Lofita.Kernel

open Lofita.Foundation Lofita.Paging Lofita.Foundation.TableTree

/-- The first address of a page of the 48-bit addresses. -/
def pageAddr (page : Nat) : U64 := BitVec.ofNat 64 (page * 4096)

/-- Where the walk finds each page. -/
def mappedPages (paging : PagingState) : Mappings := fun page =>
  if page < 2 ^ 36 then
    paging.kernelPaging.bind fun context =>
      (walk paging.memory.word context.pml4 (pageAddr page)).map Translation.phys
  else none

/-! ### Calls on the page tables -/

/-- What `page_table_map` gives back to its caller, if it returns. -/
def mapCode : MapAnswer → Option U32
  | .trap => none
  | .failed => some 0xFFFF_FFFF
  | .mapped => some 0

namespace FfiCall

variable (alloc : Allocator)

/-- The page tables after a call, if it returns. -/
def onPaging (paging : PagingState) : FfiCall → Option PagingState
  | .pageTableMap virtualAddr physicalAddr flags =>
      match Paging.pageTableMap alloc virtualAddr physicalAddr flags paging with
      | none | some (.trap, _) => none
      | some (_, next) => some next
  | .pageTableUnmap virtualAddr => Paging.pageTableUnmap alloc virtualAddr paging
  | .physAlloc _ _ | .physFree _ _ | .switchPageDirectory _ => some paging

/-- The page tables after a list of calls, if all of them return. -/
def onPagingAll (paging : PagingState) (calls : List FfiCall) : Option PagingState :=
  calls.foldlM (onPaging alloc) paging

/-- The page tables give this answer to the call. -/
def AnsweredBy (paging : PagingState) (answers : PagingAnswers) : FfiCall → Prop
  | .pageTableMap virtualAddr physicalAddr flags =>
      answers.map virtualAddr physicalAddr flags =
        (Paging.pageTableMap alloc virtualAddr physicalAddr flags paging).bind fun result =>
          mapCode result.1
  | .pageTableUnmap _ | .physAlloc _ _ | .physFree _ _ | .switchPageDirectory _ => True

/-- The call is made above 2 GB, or what it takes for a table is none. -/
def Spares (paging : PagingState) : FfiCall → Prop
  | .pageTableMap virtualAddr physicalAddr flags =>
      SparesTables paging ⟨virtualAddr, physicalAddr, flags⟩
  | .pageTableUnmap virtualAddr => SparesTables paging ⟨virtualAddr, 0, 0⟩
  | .physAlloc _ _ | .physFree _ _ | .switchPageDirectory _ => True

/-- The address that the call asks the page tables for, if any, is such an address. -/
def AtPages (among : U64 → Prop) : FfiCall → Prop
  | .pageTableMap virtualAddr _ _ | .pageTableUnmap virtualAddr => among virtualAddr
  | .physAlloc _ _ | .physFree _ _ | .switchPageDirectory _ => True

/-- Every call spares the tables it is made on. -/
def SparesAlong (paging : PagingState) : List FfiCall → Prop
  | [] => True
  | call :: rest => call.Spares paging ∧
      ∀ next, call.onPaging alloc paging = some next → SparesAlong next rest

end FfiCall

/-! ### The pages of the kernel address space -/

theorem pageOf_pageAddr {page : Nat} (small : page < 2 ^ 36) : pageOf (pageAddr page) = page := by
  unfold pageOf pageAddr
  rw [BitVec.toNat_ofNat]
  omega

theorem toNat_pageAddr {page : Nat} (small : page < 2 ^ 36) :
    (pageAddr page).toNat = page * 4096 := by
  unfold pageAddr
  rw [BitVec.toNat_ofNat]
  omega

variable {alloc : Allocator} {root : Nat} {paging next : PagingState}

/-- The first 2 GB are found at the same addresses, and every other page at its leaf. -/
theorem mappedPages_eq (running : Running alloc root paging) (page : Nat) :
    mappedPages paging page =
      if page < 2 ^ 19 then some (page * 4096)
      else if page < 2 ^ 36 then
        (leafAt paging.memory.word root (pathOf (pageAddr page))).map address
      else none := by
  unfold mappedPages
  simp only [running.context, Option.bind_some]
  by_cases low : page < 2 ^ 19
  · have small : page < 2 ^ 36 := by omega
    have value := toNat_pageAddr small
    rw [if_pos small, if_pos low, running.space.walk_low (by omega), value]
  · rw [if_neg low]
    refine ite_congr rfl (fun small => ?_) fun _ => rfl
    have above : Above (pageAddr page) := by
      rw [above_iff, pageOf_pageAddr small]
      omega
    have aligned : (pageAddr page).toNat % 4096 = 0 := by
      rw [toNat_pageAddr small]
      exact Nat.mul_mod_left page 4096
    rw [walk_eq_leafAt _ (running.space.clear above)]
    simp only [aligned, Nat.add_zero]

/-- Where no leaf changes, no page does. -/
theorem mappedPages_congr (running : Running alloc root paging) (later : Running alloc root next)
    (leaves : ∀ {path : List Nat}, path.length = 4 → InRange path →
      leafAt next.memory.word root path = leafAt paging.memory.word root path) :
    mappedPages next = mappedPages paging := by
  funext page
  rw [mappedPages_eq running, mappedPages_eq later, leaves rfl (inRange_pathOf _)]

/-- Where one leaf changes, its page does. -/
theorem mappedPages_update (running : Running alloc root paging) (later : Running alloc root next)
    {vaddr : U64} (above : Above vaddr) (leaf : Option U64)
    (leaves : ∀ {path : List Nat}, path.length = 4 → InRange path →
      leafAt next.memory.word root path =
        if path = pathOf vaddr then leaf else leafAt paging.memory.word root path) :
    mappedPages next = Function.update (mappedPages paging) (pageOf vaddr) (leaf.map address) := by
  have high : 2 ^ 19 ≤ pageOf vaddr := (above_iff vaddr).mp above
  have small : pageOf vaddr < 2 ^ 36 := Nat.mod_lt _ (by decide)
  funext page
  rw [mappedPages_eq later, leaves rfl (inRange_pathOf _)]
  by_cases here : page = pageOf vaddr
  · rw [here, Function.update_self, if_neg (Nat.not_lt_of_le high), if_pos small,
      if_pos (pathOf_eq_iff.mpr (pageOf_pageAddr small))]
  · rw [Function.update_of_ne here, mappedPages_eq running]
    refine ite_congr rfl (fun _ => rfl) fun _ => ite_congr rfl (fun within => ?_) fun _ => rfl
    rw [if_neg fun same => here ((pageOf_pageAddr within).symm.trans (pathOf_eq_iff.mp same))]

/-- Writing outside of the tables changes no leaf. -/
theorem leafAt_of_untouched {before after : PhysMemory} (untouched : Untouched root before after)
    {path : List Nat} (full : path.length = 4) (inRange : InRange path) :
    leafAt after.word root path = leafAt before.word root path :=
  congrArg (Option.filter present) (untouched.entryAt_eq (Nat.le_of_eq full) inRange)

/-- At boot the first 2 GB are mapped. -/
theorem mappedPages_boot (fresh : FreshPages alloc) {memory : PhysMemory}
    (booted : pagingGlobalInit alloc ⟨memory, none, false⟩ = some paging) :
    mappedPages paging = identityMappings := by
  obtain ⟨root, running⟩ := running_boot fresh booted
  obtain ⟨_, context, _, _, noLeaf, _⟩ := kernelSpace_init fresh booted
  cases context.symm.trans running.context
  funext page
  rw [mappedPages_eq running, noLeaf]
  exact ite_congr rfl (fun _ => rfl) fun _ => ite_self none

/-! ### One call -/

/-- `page_table_map` changes the pages as the same call changes the mappings. -/
theorem mappedPages_pageTableMap (fresh : FreshPages alloc) (running : Running alloc root paging)
    {virtualAddr physicalAddr : U64} {flags : U32}
    (spares : SparesTables paging ⟨virtualAddr, physicalAddr, flags⟩)
    (returns : FfiCall.onPaging alloc paging (.pageTableMap virtualAddr physicalAddr flags) =
      some next) :
    Running alloc root next ∧ ∀ answers,
      FfiCall.AnsweredBy alloc paging answers (.pageTableMap virtualAddr physicalAddr flags) →
        answers.Returns (.pageTableMap virtualAddr physicalAddr flags) ∧
        mappedPages next =
          (mappedPages paging).after answers (.pageTableMap virtualAddr physicalAddr flags) := by
  have kept := running.step fresh spares
  rw [running.step_eq] at kept
  have low (low : ¬ Above virtualAddr) := running.space.map_low fresh low
    (spares.resolve_left low ⟨root⟩ running.context) physicalAddr (pteFlags flags)
  have high (above : Above virtualAddr) := map_spec fresh running.space.sound virtualAddr
    (running.space.clear above) physicalAddr (pteFlags flags)
  simp only [FfiCall.onPaging, running.pageTableMap_eq] at returns
  simp only [FfiCall.AnsweredBy, running.pageTableMap_eq, Option.bind_some,
    PagingAnswers.Returns]
  simp only at kept low high
  generalize PagingContext.map alloc ⟨root⟩ virtualAddr physicalAddr (pteFlags flags)
    paging.memory = result at returns kept low high ⊢
  obtain ⟨answer, memory⟩ := result
  have isNext : next = { paging with memory } ∧ ∃ code, mapCode answer = some code ∧
      (answer = .mapped ↔ code = 0) := by
    cases answer with
    | trap => cases returns
    | failed => exact ⟨(Option.some.inj returns).symm, _, rfl, by decide⟩
    | mapped => exact ⟨(Option.some.inj returns).symm, _, rfl, by decide⟩
  obtain ⟨rfl, code, isCode, mapped_iff⟩ := isNext
  refine ⟨kept, fun answers answered => ⟨?_, ?_⟩⟩
  · rw [answered, isCode]
    rfl
  have maps_iff : answers.Maps virtualAddr physicalAddr flags ↔
      answer = .mapped ∧ Above virtualAddr := by
    unfold PagingAnswers.Maps
    rw [answered, isCode, mapped_iff, Option.some_inj]
  simp only [Mappings.after, maps_iff]
  by_cases above : Above virtualAddr
  · obtain ⟨_, _, _, _, leaves⟩ := high above
    by_cases mapped : answer = .mapped
    · rw [if_pos ⟨mapped, above⟩]
      simp only [mapped, true_and] at leaves
      refine (mappedPages_update running kept above _ leaves).trans ?_
      rw [Option.map_some, address_leafEntry (pteFlags_and_physAddrMask flags)]
      rfl
    · rw [if_neg fun both => mapped both.1]
      simp only [mapped, false_and, if_false] at leaves
      exact mappedPages_congr running kept leaves
  · rw [if_neg fun both => above both.2]
    exact mappedPages_congr running kept (leafAt_of_untouched (low above).1)

/-- `page_table_unmap` does, too. -/
theorem mappedPages_pageTableUnmap (fresh : FreshPages alloc) (running : Running alloc root paging)
    {virtualAddr : U64} (spares : SparesTables paging ⟨virtualAddr, 0, 0⟩)
    (returns : FfiCall.onPaging alloc paging (.pageTableUnmap virtualAddr) = some next)
    (answers : PagingAnswers) :
    Running alloc root next ∧
      mappedPages next = Mappings.after answers (mappedPages paging)
        (.pageTableUnmap virtualAddr) := by
  simp only [FfiCall.onPaging,
    pageTableUnmap_of_initialized running.initialized running.context] at returns
  obtain ⟨memory, unmapped, rfl⟩ := Option.map_eq_some_iff.mp returns
  have booted : Booted root { paging with memory } := ⟨running.context, running.initialized⟩
  simp only [Mappings.after]
  by_cases above : Above virtualAddr
  · obtain ⟨_, same, sound, extension, adds, leaves⟩ := unmap_spec fresh running.space.sound
      virtualAddr (running.space.clear above)
    cases same.symm.trans unmapped
    have later : Running alloc root { paging with memory } :=
      ⟨booted, running.space.extends sound extension adds⟩
    rw [if_pos above]
    exact ⟨later, mappedPages_update running later above none leaves⟩
  · obtain ⟨untouched, requests⟩ := running.space.unmap_low fresh above
      (spares.resolve_left above ⟨root⟩ running.context) unmapped
    have later : Running alloc root { paging with memory } :=
      ⟨booted, running.space.untouched fresh untouched requests⟩
    rw [if_neg above]
    exact ⟨later, mappedPages_congr running later (leafAt_of_untouched untouched)⟩

/-- **One call** that returns changes the pages as it changes the mappings. -/
theorem mappedPages_onPaging (fresh : FreshPages alloc) (running : Running alloc root paging)
    {call : FfiCall} (spares : call.Spares paging)
    (returns : call.onPaging alloc paging = some next) :
    Running alloc root next ∧ ∀ answers : PagingAnswers, (∀ addr, answers.unmap addr = true) →
      call.AnsweredBy alloc paging answers →
        answers.Returns call ∧ mappedPages next = (mappedPages paging).after answers call := by
  cases call with
  | pageTableMap virtualAddr physicalAddr flags =>
      obtain ⟨later, answered⟩ := mappedPages_pageTableMap fresh running spares returns
      exact ⟨later, fun answers _ => answered answers⟩
  | pageTableUnmap virtualAddr =>
      have unmapped := mappedPages_pageTableUnmap fresh running spares returns
      exact ⟨(unmapped ⟨fun _ _ _ => none, fun _ => true⟩).1, fun answers unmaps _ =>
        ⟨unmaps virtualAddr, (unmapped answers).2⟩⟩
  | physAlloc _ _ | physFree _ _ | switchPageDirectory _ =>
      cases returns
      exact ⟨running, fun _ _ _ => ⟨trivial, rfl⟩⟩

/-- Every call at 2 GB or above returns. -/
theorem isSome_onPaging (fresh : FreshPages alloc) (running : Running alloc root paging)
    {call : FfiCall} (above : call.AtPages Above) : (call.onPaging alloc paging).isSome := by
  cases call with
  | pageTableMap virtualAddr physicalAddr flags =>
      obtain ⟨returns, _⟩ := map_spec fresh running.space.sound virtualAddr
        (running.space.clear above) physicalAddr (pteFlags flags)
      simp only [FfiCall.onPaging, running.pageTableMap_eq]
      generalize PagingContext.map alloc ⟨root⟩ virtualAddr physicalAddr (pteFlags flags)
        paging.memory = result at returns ⊢
      obtain ⟨_ | _ | _, memory⟩ := result
      · exact absurd rfl returns
      · rfl
      · rfl
  | pageTableUnmap virtualAddr =>
      obtain ⟨after, same, _⟩ := unmap_spec fresh running.space.sound virtualAddr
        (running.space.clear above)
      simp only [FfiCall.onPaging, same,
        pageTableUnmap_of_initialized running.initialized running.context]
      rfl
  | physAlloc _ _ | physFree _ _ | switchPageDirectory _ => rfl

/-! ### A list of calls -/

/-- The answers, but to one call what the page tables answer. -/
def PagingAnswers.answering (answers : PagingAnswers) (alloc : Allocator) (paging : PagingState)
    (call : FfiCall) : PagingAnswers where
  map virtualAddr physicalAddr flags :=
    if call = .pageTableMap virtualAddr physicalAddr flags then
      (pageTableMap alloc virtualAddr physicalAddr flags paging).bind fun result =>
        mapCode result.1
    else answers.map virtualAddr physicalAddr flags
  unmap := answers.unmap

theorem PagingAnswers.answeredBy_answering (answers : PagingAnswers) (alloc : Allocator)
    (paging : PagingState) (call : FfiCall) :
    call.AnsweredBy alloc paging (answers.answering alloc paging call) := by
  cases call with
  | pageTableMap virtualAddr physicalAddr flags => exact if_pos rfl
  | pageTableUnmap _ | physAlloc _ _ | physFree _ _ | switchPageDirectory _ => trivial

theorem Mappings.afterAll_congr {mappings : Mappings} {first second : PagingAnswers}
    {calls : List FfiCall} (same : ∀ virtualAddr physicalAddr flags,
      .pageTableMap virtualAddr physicalAddr flags ∈ calls →
        first.map virtualAddr physicalAddr flags = second.map virtualAddr physicalAddr flags) :
    mappings.afterAll first calls = mappings.afterAll second calls := by
  induction calls generalizing mappings with
  | nil => rfl
  | cons call rest ih =>
      have head : mappings.after first call = mappings.after second call := by
        cases call with
        | pageTableMap virtualAddr physicalAddr flags =>
            have maps_iff : first.Maps virtualAddr physicalAddr flags ↔
                second.Maps virtualAddr physicalAddr flags := by
              unfold PagingAnswers.Maps
              rw [same _ _ _ List.mem_cons_self]
            simp only [after, maps_iff]
        | pageTableUnmap _ | physAlloc _ _ | physFree _ _ | switchPageDirectory _ => rfl
      refine (congrArg (afterAll first · rest) head).trans (ih fun _ _ _ member => ?_)
      exact same _ _ _ (List.mem_cons_of_mem call member)

/-- **The mappings are those of the page tables.** From any kernel address space, a list of calls
that return, no call of `page_table_map` twice, leaves the pages that the same calls leave mapped,
with the answers that the page tables gave. -/
theorem mappedPages_onPagingAll (fresh : FreshPages alloc) (running : Running alloc root paging)
    {calls : List FfiCall} (spares : FfiCall.SparesAlong alloc paging calls)
    (once : ∀ virtualAddr physicalAddr flags,
      calls.count (.pageTableMap virtualAddr physicalAddr flags) ≤ 1)
    (returns : FfiCall.onPagingAll alloc paging calls = some next) :
    Running alloc root next ∧ ∃ answers : PagingAnswers, (∀ addr, answers.unmap addr = true) ∧
      (∀ call ∈ calls, answers.Returns call) ∧
      mappedPages next = (mappedPages paging).afterAll answers calls := by
  induction calls generalizing paging with
  | nil =>
      cases returns
      exact ⟨running, ⟨fun _ _ _ => none, fun _ => true⟩, fun _ => rfl,
        List.forall_mem_nil _, rfl⟩
  | cons call rest ih =>
      obtain ⟨between, first, later⟩ := Option.bind_eq_some_iff.mp returns
      obtain ⟨runs, answered⟩ := mappedPages_onPaging fresh running spares.1 first
      obtain ⟨runsOn, answers, unmaps, returned, mapped⟩ := ih runs (spares.2 between first)
        (fun _ _ _ => Nat.le_trans List.count_le_count_cons (once _ _ _)) later
      -- The call is answered once, so that its answer can be added to those of the later calls.
      let extended := answers.answering alloc paging call
      obtain ⟨returnsFirst, mappedFirst⟩ := answered extended unmaps
        (answers.answeredBy_answering alloc paging call)
      have same (virtualAddr physicalAddr : U64) (flags : U32)
          (member : .pageTableMap virtualAddr physicalAddr flags ∈ rest) :
          extended.map virtualAddr physicalAddr flags =
            answers.map virtualAddr physicalAddr flags := by
        refine if_neg fun isCall => ?_
        have counted := once virtualAddr physicalAddr flags
        rw [isCall, List.count_cons_self] at counted
        have again := List.count_pos_iff.mpr member
        omega
      refine ⟨runsOn, extended, unmaps, fun other member => ?_, ?_⟩
      · rcases List.mem_cons.mp member with rfl | member
        · exact returnsFirst
        · have returnsLater := returned other member
          cases other with
          | pageTableMap virtualAddr physicalAddr flags =>
              exact (congrArg (Option.isSome ·) (same _ _ _ member)).trans returnsLater
          | pageTableUnmap virtualAddr => exact unmaps virtualAddr
          | physAlloc _ _ | physFree _ _ | switchPageDirectory _ => trivial
      · rw [mapped, mappedFirst]
        exact (Mappings.afterAll_congr same).symm

/-- Calls that are all made at 2 GB or above return and spare the tables. -/
theorem isSome_onPagingAll (fresh : FreshPages alloc) (running : Running alloc root paging)
    {calls : List FfiCall} (above : ∀ call ∈ calls, call.AtPages Above) :
    FfiCall.SparesAlong alloc paging calls ∧ (FfiCall.onPagingAll alloc paging calls).isSome := by
  induction calls generalizing paging with
  | nil => exact ⟨trivial, rfl⟩
  | cons call rest ih =>
      have here := above call List.mem_cons_self
      have spares : call.Spares paging := by
        cases call with
        | pageTableMap _ _ _ | pageTableUnmap _ => exact .inl here
        | physAlloc _ _ | physFree _ _ | switchPageDirectory _ => trivial
      obtain ⟨next, returns⟩ := Option.isSome_iff_exists.mp (isSome_onPaging fresh running here)
      have later := ih (mappedPages_onPaging fresh running spares returns).1 fun call member =>
        above call (List.mem_cons_of_mem _ member)
      refine ⟨⟨spares, fun other same => ?_⟩, ?_⟩
      · cases returns.symm.trans same
        exact later.1
      · change ((call.onPaging alloc paging).bind (FfiCall.onPagingAll alloc · rest)).isSome
        rw [returns]
        exact later.2

/-- Calls that map nothing leave the same pages mapped whatever is answered. -/
theorem mappedPages_of_no_map (fresh : FreshPages alloc) (running : Running alloc root paging)
    {calls : List FfiCall} (spares : FfiCall.SparesAlong alloc paging calls)
    (noMap : ∀ virtualAddr physicalAddr flags,
      .pageTableMap virtualAddr physicalAddr flags ∉ calls)
    (returns : FfiCall.onPagingAll alloc paging calls = some next) (answers : PagingAnswers) :
    mappedPages next = (mappedPages paging).afterAll answers calls := by
  obtain ⟨_, _, _, _, mapped⟩ := mappedPages_onPagingAll fresh running spares
    (fun _ _ _ => by simp only [List.count_eq_zero_of_not_mem (noMap _ _ _), Nat.zero_le])
    returns
  rw [mapped]
  exact Mappings.afterAll_congr fun _ _ _ member => absurd member (noMap _ _ _)

/-! ### Page faults -/

/-- No page is mapped twice. -/
theorem nodup_mapPages (virtualAddr physAddr size : U64) (flags : U32) :
    (mapPages virtualAddr physAddr (pagesFor size) flags).Nodup := by
  have small : (pagesFor size).toNat ≤ 2 ^ 52 := by
    rw [toNat_pagesFor]
    omega
  refine List.Nodup.map_on (fun i first j second same => ?_) List.nodup_range
  rw [List.mem_range] at first second
  have offsets := (BitVec.add_right_inj virtualAddr).mp (FfiCall.pageTableMap.inj same).1
  have values := congrArg BitVec.toNat offsets
  have unit : (4096 : U64).toNat = 4096 := rfl
  simp only [BitVec.toNat_mul, BitVec.toNat_ofNat, unit, Nat.mod_mul_mod] at values
  omega

/-- The handler of page faults asks for each page once. -/
theorem count_handlePageFault_le (state : KernelState) (faultAddr : U64) (errorCode : U32)
    (phys virtualAddr physicalAddr : U64) (flags : U32) :
    (state.handlePageFault faultAddr errorCode phys).ffi.count
      (.pageTableMap virtualAddr physicalAddr flags) ≤ 1 := by
  rcases state.handlePageFault_cases faultAddr errorCode phys with
    ⟨_, _, requests⟩ | ⟨ref, start, vma, _, _, _, reply⟩
  · rw [List.count_eq_zero_of_not_mem fun member => ?_]
    · exact Nat.zero_le 1
    · obtain ⟨_, impossible⟩ := requests _ member
      cases impossible
  · rw [reply]
    refine Nat.le_trans (Nat.le_of_eq (List.count_cons_of_ne ?_)) ?_
    · exact FfiCall.noConfusion
    · exact List.nodup_iff_count_le_one.mp (nodup_mapPages _ _ _ _) _

/-- **The pages after a page fault**: if the calls of the handler return, the walk finds the pages
that these calls leave mapped. -/
theorem mappedPages_handlePageFault (fresh : FreshPages alloc)
    (running : Running alloc root paging) (state : KernelState) (faultAddr : U64)
    (errorCode : U32) (phys : U64)
    (spares : FfiCall.SparesAlong alloc paging
      (state.handlePageFault faultAddr errorCode phys).ffi)
    (returns : FfiCall.onPagingAll alloc paging
      (state.handlePageFault faultAddr errorCode phys).ffi = some next) :
    ∃ answers : PagingAnswers,
      (∀ call ∈ (state.handlePageFault faultAddr errorCode phys).ffi, answers.Returns call) ∧
      mappedPages next =
        (mappedPages paging).afterAll answers
          (state.handlePageFault faultAddr errorCode phys).ffi := by
  obtain ⟨_, answers, _, answered⟩ := mappedPages_onPagingAll fresh running spares
    (count_handlePageFault_le state faultAddr errorCode phys) returns
  exact ⟨answers, answered⟩

end Lofita.Kernel
