import Lofita.Kernel.Mappings

/-! # Handled page faults

A fault in a region without memory is answered with a block for the whole region. The
answers of `page_table_map` are not looked at: the handler reports success whether or not
the pages are mapped, and it maps as many pages as the size of the region takes, counted
from the page of its start. What it reports is true exactly if these are the pages of the
region and each of them is mapped (`faultHandled_iff`).
-/

namespace Lofita.Kernel

open Lofita.Foundation Lofita.Paging Std

/-- Every page of the region is found at the page in the same place of a block. -/
def Vma.MappedTo (vma : Vma) (pages block : U64) (mappings : Mappings) : Prop :=
  ∀ page, vma.HasPage page → ∃ i < pages.toNat, page = pageNumber vma.startAddr + i ∧
    mappings.lookup page = some (physicalPage (block + BitVec.ofNat 64 i * 4096))

/-- The answer to a page fault, if all calls return, is true: if it is true, the address lies in a
region of the active thread's token that had no block, and every page of the region is mapped to
the page in the same place of a block that has just been allocated; if it is false, nothing has
changed. -/
def FaultHandled (answers : PagingAnswers) (state : KernelState) (mappings : Mappings)
    (faultAddr : U64) (errorCode : U32) (phys : U64) : Prop :=
  let reply := state.handlePageFault faultAddr errorCode phys
  (∀ call ∈ reply.ffi, answers.Returns call) →
    if reply.value then
      ∃ (ref : Ref) (key : U64) (vma : Vma) (pages block : U64), state.faultToken = some ref ∧
        (state.token ref).vmas[key]? = some vma ∧ vma.Covers faultAddr.toNat ∧ vma.physPtr = 0 ∧
        .physAlloc pages block ∈ reply.ffi ∧ block ≠ 0 ∧
        (reply.state.token ref).vmas[key]? = some { vma with physPtr := block } ∧
        vma.MappedTo pages block (mappings.afterAll answers reply.ffi)
    else reply.state = state ∧ mappings.afterAll answers reply.ffi = mappings

/-- Each page that the size of the region takes, counted from the page of its start, is one that
can be mapped or is mapped already, and the region ends within the address space and within these
pages. -/
def Vma.MapsOnto (vma : Vma) (answers : PagingAnswers) (mappings : Mappings) (phys : U64) : Prop :=
  vma.startAddr.toNat + vma.size.toNat ≤ 2 ^ 64 ∧
    vma.startAddr.toNat % 4096 + vma.size.toNat ≤ (pagesFor vma.size).toNat * 4096 ∧
    ∀ i < (pagesFor vma.size).toNat, CanonicalPage (pageNumber vma.startAddr + i) ∧
      (answers.Maps (vma.startAddr + BitVec.ofNat 64 i * 4096) (phys + BitVec.ofNat 64 i * 4096)
          (lazyFlags vma.isWriteable) ∨
        mappings.lookup (pageNumber vma.startAddr + i) =
          some (physicalPage (phys + BitVec.ofNat 64 i * 4096)))

/-- Every call for a page of the region returns. -/
def Vma.CallsReturn (vma : Vma) (answers : PagingAnswers) (phys : U64) : Prop :=
  ∀ call ∈ mapPages vma.startAddr phys (pagesFor vma.size) (lazyFlags vma.isWriteable),
    answers.Returns call

/-- The region without memory that the fault is looked up to, if the calls for its pages return,
contains the address and maps onto the block it is given. -/
def MapsRegion (answers : PagingAnswers) (state : KernelState) (mappings : Mappings)
    (faultAddr phys : U64) : Prop :=
  ∀ ref start vma, state.faultVma faultAddr = some (ref, start, vma) →
    vma.physPtr = 0 → phys ≠ 0 → vma.CallsReturn answers phys →
      vma.Covers faultAddr.toNat ∧ vma.MapsOnto answers mappings phys

/-! ### The region found -/

theorem Token.findVma_spec {token : Token} {addr start : U64}
    (found : token.findVma addr = some start) :
    ∃ vma, token.vmas[start]? = some vma ∧ start ≤ addr ∧ addr < start + vma.size := by
  unfold findVma at found
  obtain ⟨⟨key, vma⟩, first, rfl⟩ := Option.map_eq_some_iff.mp found
  have member := List.mem_of_find?_eq_some first
  rw [List.mem_reverse, List.mem_filter, TreeMap.mem_toList_iff_getElem?_eq_some] at member
  have inside := List.find?_some first
  exact ⟨vma, member.1, of_decide_eq_true member.2, of_decide_eq_true inside⟩

variable {answers : PagingAnswers} {state : KernelState} {mappings : Mappings}
  {faultAddr phys : U64} {ref : Ref} {start : U64} {vma : Vma}

theorem faultVma_spec (found : state.faultVma faultAddr = some (ref, start, vma)) :
    state.faultToken = some ref ∧ (state.token ref).vmas[start]? = some vma ∧
      start ≤ faultAddr ∧ faultAddr < start + vma.size := by
  unfold KernelState.faultVma at found
  simp only [Option.bind_eq_bind, Option.bind_eq_some_iff] at found
  obtain ⟨_, token, _, search, _, lookup, same⟩ := found
  cases same
  obtain ⟨other, isOther, low, high⟩ := Token.findVma_spec search
  cases isOther.symm.trans lookup
  exact ⟨token, lookup, low, high⟩

/-- Each page that the size of a region takes begins within the size. -/
theorem mul_lt_of_lt_pagesFor {size : U64} {i : Nat} (below : i < (pagesFor size).toNat) :
    i * 4096 < size.toNat := by
  rw [toNat_pagesFor] at below
  omega

/-- The pages from the start of a region on, as far as its size takes, follow each other. -/
theorem pageNumber_consecutive (space : vma.startAddr.toNat + vma.size.toNat ≤ 2 ^ 64) {i : Nat}
    (below : i < (pagesFor vma.size).toNat) :
    pageNumber (vma.startAddr + BitVec.ofNat 64 i * 4096) = pageNumber vma.startAddr + i := by
  have few := mul_lt_of_lt_pagesFor below
  have step : (BitVec.ofNat 64 i * 4096 : U64).toNat = i * 4096 := by
    have unit : (4096 : U64).toNat = 4096 := rfl
    have small : i * 4096 < 2 ^ 64 := by omega
    rw [BitVec.toNat_mul, BitVec.toNat_ofNat, unit, Nat.mod_mul_mod]
    exact Nat.mod_eq_of_lt small
  unfold pageNumber
  rw [toNat_add_of_lt (by omega), step]
  omega

/-! ### What the handler answers -/

theorem value_handlePageFault (errorCode : U32)
    (refused : ∀ region ∈ state.faultVma faultAddr, region.2.2.physPtr = 0 → phys = 0) :
    (state.handlePageFault faultAddr errorCode phys).value = false := by
  unfold KernelState.handlePageFault
  cases found : state.faultVma faultAddr with
  | none => rfl
  | some region =>
      simp only
      split_ifs with unbacked exhausted
      · rfl
      · exact absurd (refused region found unbacked) exhausted
      · rfl

/-- A request for memory maps nothing. -/
theorem afterAll_physAlloc {calls : List FfiCall}
    (requests : ∀ call ∈ calls, ∃ pages, call = .physAlloc pages phys) :
    mappings.afterAll answers calls = mappings := by
  refine Mappings.afterAll_of_unchanged fun call member => ?_
  obtain ⟨pages, rfl⟩ := requests call member
  rfl

/-- Where the pages of a region are found after the calls that map them. -/
theorem lookup_mapPages (space : vma.startAddr.toNat + vma.size.toNat ≤ 2 ^ 64) (flags : U32)
    (canonical : ∀ i < (pagesFor vma.size).toNat, CanonicalPage (pageNumber vma.startAddr + i))
    {i : Nat} (below : i < (pagesFor vma.size).toNat) :
    Mappings.lookup (mappings.afterAll answers
        (mapPages vma.startAddr phys (pagesFor vma.size) flags)) (pageNumber vma.startAddr + i) =
      if answers.Maps (vma.startAddr + BitVec.ofNat 64 i * 4096)
          (phys + BitVec.ofNat 64 i * 4096) flags then
        some (physicalPage (phys + BitVec.ofNat 64 i * 4096))
      else mappings.lookup (pageNumber vma.startAddr + i) := by
  have key (j : Nat) (few : j < (pagesFor vma.size).toNat) :
      (pageNumber vma.startAddr + j) % 2 ^ 36 = pageNumber vma.startAddr % 2 ^ 36 + j :=
    mod_consecutive fun k le => canonical k (Nat.lt_of_le_of_lt le few)
  have mapped := @Mappings.afterAll_range answers mappings
    (fun i => vma.startAddr + BitVec.ofNat 64 i * 4096) (fun i => phys + BitVec.ofNat 64 i * 4096)
    (pageNumber vma.startAddr % 2 ^ 36) (pagesFor vma.size).toNat flags
    (fun j few => (congrArg (· % 2 ^ 36) (pageNumber_consecutive space few)).trans (key j few)) i
  simp only [below, true_and] at mapped
  rw [Mappings.lookup_of_canonical (canonical i below),
    Mappings.lookup_of_canonical (canonical i below), key i below]
  exact mapped

/-- All pages of a region are mapped exactly if they are among those that its size takes,
and each of these is mapped or was. -/
theorem mapped_iff (nonempty : vma.size ≠ 0) :
    vma.MappedTo (pagesFor vma.size) phys (mappings.afterAll answers
        (mapPages vma.startAddr phys (pagesFor vma.size) (lazyFlags vma.isWriteable))) ↔
      vma.MapsOnto answers mappings phys := by
  have positive : 0 < vma.size.toNat := BitVec.toNat_pos_of_ne_zero nonempty
  have pages (i : Nat) (below : i < (pagesFor vma.size).toNat) :
      vma.HasPage (pageNumber vma.startAddr + i) := by
    have few := mul_lt_of_lt_pagesFor below
    rw [Vma.hasPage_iff nonempty, pageNumber]
    omega
  constructor
  · intro mapped
    have last : vma.HasPage ((vma.startAddr.toNat + vma.size.toNat - 1) / 4096) := by
      rw [Vma.hasPage_iff nonempty, pageNumber]
      omega
    obtain ⟨i, below, isPage, isFound⟩ := mapped _ last
    have inSpace := Mappings.canonical_of_lookup isFound
    have space : vma.startAddr.toNat + vma.size.toNat ≤ 2 ^ 64 := by
      unfold CanonicalPage at inSpace
      omega
    have canonical (i : Nat) (below : i < (pagesFor vma.size).toNat) :
        CanonicalPage (pageNumber vma.startAddr + i) := by
      obtain ⟨_, _, _, isFound⟩ := mapped _ (pages i below)
      exact Mappings.canonical_of_lookup isFound
    refine ⟨space, ?_, ?_⟩
    · unfold pageNumber at isPage
      omega
    · intro i below
      refine ⟨canonical i below, ?_⟩
      obtain ⟨j, _, same, isFound⟩ := mapped _ (pages i below)
      cases Nat.add_left_cancel same
      rw [lookup_mapPages space _ canonical below] at isFound
      split_ifs at isFound with maps
      · exact .inl maps
      · exact .inr isFound
  · rintro ⟨space, within, each⟩ page isPage
    obtain ⟨low, high⟩ := (Vma.hasPage_iff nonempty page).mp isPage
    obtain ⟨i, rfl⟩ := Nat.exists_eq_add_of_le low
    have below : i < (pagesFor vma.size).toNat := by
      unfold pageNumber at high
      omega
    refine ⟨i, below, rfl, ?_⟩
    rw [lookup_mapPages space _ (fun j few => (each j few).1) below]
    split_ifs with maps
    · rfl
    · exact (each i below).2.resolve_left maps

/-- The regions of the token once one of them has its block. -/
theorem vmas_backed (state : KernelState) (ref : Ref) (start key : U64) (backed : Vma) :
    ((state.setToken ref { state.token ref with
        vmas := (state.token ref).vmas.insert start backed }).token ref).vmas[key]? =
      if start = key then some backed else (state.token ref).vmas[key]? := by
  rw [KernelState.token_setToken_self]
  simp only [TreeMap.getElem?_insert, Std.compare_eq_iff_eq]

/-- A fault that is given a block is handled exactly if the region found contains the address
and is mapped to the block. -/
theorem faultHandled_iff_mappedTo {errorCode : U32}
    (found : state.faultVma faultAddr = some (ref, start, vma)) (unbacked : vma.physPtr = 0)
    (granted : phys ≠ 0)
    (reply : state.handlePageFault faultAddr errorCode phys =
      { value := true
        state := state.setToken ref { state.token ref with
          vmas := (state.token ref).vmas.insert start { vma with physPtr := phys } }
        ffi := .physAlloc (pagesFor vma.size) phys ::
          mapPages vma.startAddr phys (pagesFor vma.size) (lazyFlags vma.isWriteable) }) :
    FaultHandled answers state mappings faultAddr errorCode phys ↔
      (vma.CallsReturn answers phys → vma.Covers faultAddr.toNat ∧
        vma.MappedTo (pagesFor vma.size) phys (mappings.afterAll answers
          (mapPages vma.startAddr phys (pagesFor vma.size) (lazyFlags vma.isWriteable)))) := by
  obtain ⟨isToken, isVma, _, _⟩ := faultVma_spec found
  simp only [FaultHandled, reply, ↓reduceIte]
  refine imp_congr ⟨fun all call member => all call (List.mem_cons_of_mem _ member),
    fun all call member => ?_⟩ ?_
  · rcases List.mem_cons.mp member with rfl | mapping
    · exact trivial
    · exact all call mapping
  constructor
  · rintro ⟨_, key, other, pages, block, sameToken, isOther, covers, free, requested, blocked,
      isBacked, mapped⟩
    cases isToken.symm.trans sameToken
    obtain ⟨rfl, rfl⟩ : pages = pagesFor vma.size ∧ block = phys := by
      rcases List.mem_cons.mp requested with same | mapping
      · cases same
        exact ⟨rfl, rfl⟩
      · obtain ⟨_, _, impossible⟩ := List.mem_map.mp mapping
        cases impossible
    have entered := (vmas_backed state ref start key _).symm.trans isBacked
    split_ifs at entered with here
    · subst here
      cases isOther.symm.trans isVma
      exact ⟨covers, mapped⟩
    · have same := Option.some.inj (isOther.symm.trans entered)
      have isBlock : other.physPtr = block := congrArg Vma.physPtr same
      exact absurd (isBlock.symm.trans free) blocked
  · rintro ⟨covers, mapped⟩
    exact ⟨ref, start, vma, pagesFor vma.size, phys, isToken, isVma, covers, unbacked,
      List.mem_cons_self, granted, (vmas_backed state ref start start _).trans (if_pos rfl), mapped⟩

/-- **When a handled page fault is handled.** The answer of the handler is true exactly if
the region found, when it is given a block and the calls for its pages return, contains the
address, ends within the address space and within the pages that its size takes, and all these
pages are mapped. -/
theorem faultHandled_iff (state : KernelState) (mappings : Mappings) (faultAddr : U64)
    (errorCode : U32) (phys : U64) (answers : PagingAnswers) :
    FaultHandled answers state mappings faultAddr errorCode phys ↔
      MapsRegion answers state mappings faultAddr phys := by
  rcases state.handlePageFault_cases faultAddr errorCode phys with
    ⟨refused, same, requests⟩ | ⟨ref, start, vma, found, unbacked, granted, reply⟩
  · have maps : MapsRegion answers state mappings faultAddr phys := by
      intro ref start vma found unbacked granted
      exact absurd (refused (ref, start, vma) found unbacked) granted
    refine iff_of_true ?_ maps
    simp only [FaultHandled, value_handlePageFault errorCode refused, Bool.false_eq_true,
      ↓reduceIte]
    exact fun _ => ⟨same, afterAll_physAlloc requests⟩
  · have nonempty (covers : vma.Covers faultAddr.toNat) : vma.size ≠ 0 := by
      intro empty
      unfold Vma.Covers at covers
      rw [empty] at covers
      exact absurd covers.2 (Nat.not_lt_of_le covers.1)
    rw [faultHandled_iff_mappedTo found unbacked granted reply]
    constructor
    · intro handled _ _ _ foundToo _ _ returns
      cases found.symm.trans foundToo
      obtain ⟨covers, mapped⟩ := handled returns
      exact ⟨covers, (mapped_iff (nonempty covers)).mp mapped⟩
    · intro maps returns
      obtain ⟨covers, onto⟩ := maps ref start vma found unbacked granted returns
      exact ⟨covers, (mapped_iff (nonempty covers)).mpr onto⟩

/-- Where no page can be mapped, none is mapped. -/
theorem afterAll_refused (refused : ∀ virtualAddr physicalAddr flags,
    answers.map virtualAddr physicalAddr flags ≠ some 0) (calls : List FfiCall) {page : Nat}
    (unmapped : mappings page = none) : mappings.afterAll answers calls page = none := by
  induction calls generalizing mappings with
  | nil => exact unmapped
  | cons call rest ih =>
      refine @ih (mappings.after answers call) ?_
      cases call with
      | pageTableMap virtualAddr physicalAddr flags =>
          simp only [Mappings.after]
          rwa [if_neg fun maps => refused virtualAddr physicalAddr flags maps.1]
      | pageTableUnmap virtualAddr =>
          simp only [Mappings.after]
          split_ifs
          · rw [Function.update_apply]
            split_ifs
            · rfl
            · exact unmapped
          · exact unmapped
      | physAlloc _ _ | physFree _ _ | switchPageDirectory _ => exact unmapped

/-- The answers of page tables for which there is no memory left. -/
def noMemory : PagingAnswers where
  map _ _ _ := some 0xFFFF_FFFF
  unmap _ := true

/-- The page tables have no room, and the page fault is answered as handled. -/
theorem not_faultHandled_refused : ¬ FaultHandled noMemory
    (kernel.run .boot [.runProcess 1 100, .kernelTick none,
      .memAlloc 1 .memAlloc 8192 0x8000_0000]) identityMappings 0x8000_0010 0 0x10_0000 := by
  intro handled
  have reported : ((kernel.run .boot [.runProcess 1 100, .kernelTick none,
      .memAlloc 1 .memAlloc 8192 0x8000_0000]).handlePageFault 0x8000_0010 0 0x10_0000).value =
      true := by
    decide +kernel
  have refused : ∀ virtualAddr physicalAddr flags,
      noMemory.map virtualAddr physicalAddr flags ≠ some 0 := fun _ _ _ => by
    simp [noMemory]
  have returns (call : FfiCall) : noMemory.Returns call := by
    cases call <;> first | exact trivial | exact rfl
  have changes := handled fun call _ => returns call
  rw [if_pos reported] at changes
  obtain ⟨_, _, _, _, _, _, _, covers, _, _, _, _, mapped⟩ := changes
  obtain ⟨_, _, _, isFound⟩ := mapped _ ⟨_, covers, rfl⟩
  have unmapped : identityMappings (0x8000_0010 / 4096 % 2 ^ 36) = none := by decide
  rw [Mappings.lookup_of_canonical (Mappings.canonical_of_lookup isFound)] at isFound
  cases (afterAll_refused refused _ unmapped).symm.trans isFound

end Lofita.Kernel
