import Lofita.Kernel.Calls
import Lofita.Kernel.Mappings

/-! # Reclaimed memory

Two loops take the regions of a token away. `Token::cleanup` unmaps one page of each region
that has a block; the tick unmaps as many pages as fit into the size of a region, and frees
also what is no block. Neither reaches every page: the memory is reclaimed exactly if no
other page of the regions is mapped and no two regions have one block (`reclaims_iff`).
-/

namespace Lofita.Kernel

open Lofita.Foundation Lofita.Paging Std

/-- The regions of a token, in the order of their addresses. -/
def Token.regions (token : Token) : List Vma := token.vmas.toList.map Prod.snd

/-- The call gives the block back. -/
def FfiCall.frees (block : U64) : FfiCall → Bool
  | .physFree ptr _ => ptr == block
  | _ => false

/-- After the calls, if all of them return, no page of the regions is mapped, and each block has
been given back once. -/
def Reclaims (answers : PagingAnswers) (mappings : Mappings) (regions : Set Vma)
    (calls : List FfiCall) : Prop :=
  (∀ call ∈ calls, answers.Returns call) →
    (∀ vma ∈ regions, ∀ page, vma.HasPage page →
      Mappings.lookup (mappings.afterAll answers calls) page = none) ∧
    ∀ vma ∈ regions, vma.physPtr ≠ 0 → calls.countP (FfiCall.frees vma.physPtr) = 1

/-- After the calls of a reclamation no page of a region is found. -/
theorem Reclaims.lookup_eq_none {answers : PagingAnswers} {mappings : Mappings}
    {regions : List Vma} {calls : List FfiCall}
    (reclaims : Reclaims answers mappings { vma | vma ∈ regions } calls)
    (returns : ∀ call ∈ calls, answers.Returns call) {vma : Vma} (isRegion : vma ∈ regions)
    {page : Nat} (onPage : vma.HasPage page) :
    Mappings.lookup (mappings.afterAll answers calls) page = none :=
  (reclaims returns).1 vma isRegion page onPage

/-- If the calls that unmap addresses return, each mapped page of the regions is above 2 GB and
that of an address unmapped for one of them, and each block is freed for exactly one. -/
def Releases (answers : PagingAnswers) (mappings : Mappings) (regions : List Vma)
    (unmaps : Vma → U64 → Prop) (frees : Vma → Bool) : Prop :=
  (∀ vma ∈ regions, ∀ addr, unmaps vma addr → answers.unmap addr = true) →
    (∀ vma ∈ regions, ∀ page, vma.HasPage page → mappings.lookup page = none ∨
      ∃ other ∈ regions, ∃ addr, unmaps other addr ∧ Above addr ∧ pageOf addr = page % 2 ^ 36) ∧
    ∀ vma ∈ regions, vma.physPtr ≠ 0 →
      regions.countP (fun other => other.physPtr == vma.physPtr && frees other) = 1

/-- The mapped pages of the token's regions are first pages of regions that have a block and
are not empty, and exactly one region that is not empty has each block. -/
def Token.CleanupReleases (token : Token) (answers : PagingAnswers) (mappings : Mappings) : Prop :=
  Releases answers mappings token.regions
    (fun vma addr => vma.physPtr ≠ 0 ∧ vma.size ≠ 0 ∧ addr = vma.startAddr)
    fun vma => vma.size != 0

namespace KernelState

/-- The regions of the tokens that the next tick finds expired. -/
def expiredRegions (state : KernelState) : Set Vma :=
  { vma | ∃ id ∈ state.expired (state.tickCount + 1), ∃ ref, state.tokens[id]? = some ref ∧
      vma ∈ (state.token ref).regions }

/-- The regions that are taken away when a list of tokens is reclaimed, one after the
other. -/
def regionsOfAll : KernelState → List U64 → List Vma
  | _, [] => []
  | state, tokenId :: rest =>
      (match state.tokens[tokenId]? with
        | none => []
        | some ref => (state.token ref).regions) ++ regionsOfAll (state.reclaim tokenId).1 rest

/-- The regions that the next tick takes away. -/
def reclaimedRegions (state : KernelState) : List Vma :=
  let counted := { state with tickCount := state.tickCount + 1 }
  counted.regionsOfAll (counted.expired counted.tickCount)

/-- The mapped pages of the expired regions are among the pages that fit into the size of one
of them, and exactly one of them has each block. -/
def TickReleases (state : KernelState) (answers : PagingAnswers) (mappings : Mappings) : Prop :=
  Releases answers mappings state.reclaimedRegions
    (fun vma addr => ∃ i < vma.size.toNat / 4096, addr = vma.startAddr + BitVec.ofNat 64 i * 4096)
    fun _ => true

end KernelState

/-! ### Releasing a list of regions -/

variable {answers : PagingAnswers} {mappings : Mappings} {regions : List Vma}
  {release : Vma → List FfiCall}

/-- How often a block is given back, region by region. -/
theorem countP_release {counted : Vma → Bool} {block : U64}
    (once : ∀ vma, (release vma).countP (FfiCall.frees block) =
      if counted vma then 1 else 0) :
    (regions.flatMap release).countP (FfiCall.frees block) = regions.countP counted := by
  induction regions with
  | nil => rfl
  | cons vma rest ih =>
      rw [List.flatMap_cons, List.countP_append, List.countP_cons, once, ih, Nat.add_comm]

/-- A page is left mapped exactly if it was mapped and is unmapped for no region. -/
theorem lookup_release {unmaps : Vma → U64 → Prop} {later : List FfiCall}
    (noMap : ∀ vma virtualAddr physicalAddr flags,
      .pageTableMap virtualAddr physicalAddr flags ∉ release vma)
    (unmapped : ∀ vma addr, unmaps vma addr ↔ .pageTableUnmap addr ∈ release vma)
    (switches : ∀ call ∈ later, ∃ addr, call = .switchPageDirectory addr) (page : Nat) :
    Mappings.lookup (mappings.afterAll answers (regions.flatMap release ++ later)) page = none ↔
      mappings.lookup page = none ∨ ∃ vma ∈ regions, ∃ addr, unmaps vma addr ∧ Above addr ∧
        pageOf addr = page % 2 ^ 36 := by
  have noCall (virtualAddr physicalAddr : U64) (flags : U32) :
      .pageTableMap virtualAddr physicalAddr flags ∉ regions.flatMap release := by
    intro member
    obtain ⟨vma, _, isCall⟩ := List.mem_flatMap.mp member
    exact noMap vma _ _ _ isCall
  have unmaps_iff : (∃ virtualAddr, .pageTableUnmap virtualAddr ∈ regions.flatMap release ∧
      Above virtualAddr ∧ pageOf virtualAddr = page % 2 ^ 36) ↔
        ∃ vma ∈ regions, ∃ addr, unmaps vma addr ∧ Above addr ∧
          pageOf addr = page % 2 ^ 36 := by
    constructor
    · rintro ⟨virtualAddr, member, here⟩
      obtain ⟨vma, isVma, isCall⟩ := List.mem_flatMap.mp member
      exact ⟨vma, isVma, virtualAddr, (unmapped vma virtualAddr).mpr isCall, here⟩
    · rintro ⟨vma, isVma, addr, unmapsAddr, here⟩
      exact ⟨addr, List.mem_flatMap.mpr ⟨vma, isVma, (unmapped vma addr).mp unmapsAddr⟩, here⟩
  have silent : ∀ call ∈ later,
      Mappings.after answers (mappings.afterAll answers (regions.flatMap release)) call =
        mappings.afterAll answers (regions.flatMap release) := by
    intro call member
    obtain ⟨addr, rfl⟩ := switches call member
    rfl
  rw [Mappings.afterAll_append, Mappings.afterAll_of_unchanged silent,
    Mappings.lookup_eq_none_iff, Mappings.afterAll_of_no_map noCall, unmaps_iff,
    Mappings.lookup_eq_none_iff]
  by_cases canonical : CanonicalPage page
  · simp only [canonical, true_imp_iff]
  · simp only [canonical, false_imp_iff, true_or]

/-- Calls that release the regions of a list reclaim them if and only if each mapped page is
unmapped for one of the regions and each block is freed for one. -/
theorem reclaims_iff_releases {former : Set Vma} {unmaps : Vma → U64 → Prop} {frees : Vma → Bool}
    {later : List FfiCall} (isFormer : ∀ vma, vma ∈ former ↔ vma ∈ regions)
    (noMap : ∀ vma virtualAddr physicalAddr flags,
      .pageTableMap virtualAddr physicalAddr flags ∉ release vma)
    (unmapped : ∀ vma addr, unmaps vma addr ↔ .pageTableUnmap addr ∈ release vma)
    (freed : ∀ block : U64, block ≠ 0 → ∀ vma, (release vma).countP (FfiCall.frees block) =
      if (vma.physPtr == block && frees vma) = true then 1 else 0)
    (switches : ∀ call ∈ later, ∃ addr, call = .switchPageDirectory addr) :
    Reclaims answers mappings former (regions.flatMap release ++ later) ↔
      Releases answers mappings regions unmaps frees := by
  have none_later (block : U64) : later.countP (FfiCall.frees block) = 0 := by
    refine List.countP_eq_zero.mpr fun call member => ?_
    obtain ⟨addr, rfl⟩ := switches call member
    exact Bool.false_ne_true
  have returns : (∀ call ∈ regions.flatMap release ++ later, answers.Returns call) ↔
      ∀ vma ∈ regions, ∀ addr, unmaps vma addr → answers.unmap addr = true := by
    constructor
    · intro all vma isVma addr unmapsAddr
      exact all _ (List.mem_append_left _
        (List.mem_flatMap.mpr ⟨vma, isVma, (unmapped vma addr).mp unmapsAddr⟩))
    · intro each call member
      cases call with
      | pageTableMap virtualAddr physicalAddr flags =>
          rcases List.mem_append.mp member with released | switched
          · obtain ⟨vma, _, isCall⟩ := List.mem_flatMap.mp released
            exact absurd isCall (noMap vma _ _ _)
          · obtain ⟨_, impossible⟩ := switches _ switched
            cases impossible
      | pageTableUnmap addr =>
          rcases List.mem_append.mp member with released | switched
          · obtain ⟨vma, isVma, isCall⟩ := List.mem_flatMap.mp released
            exact each vma isVma addr ((unmapped vma addr).mpr isCall)
          · obtain ⟨_, impossible⟩ := switches _ switched
            cases impossible
      | physAlloc _ _ | physFree _ _ | switchPageDirectory _ => exact trivial
  unfold Reclaims Releases
  refine imp_congr returns (and_congr ?_ ?_)
  · refine forall_congr' fun vma => imp_congr (isFormer vma) ?_
    exact forall_congr' fun page => imp_congr Iff.rfl
      (lookup_release noMap unmapped switches page)
  · refine forall_congr' fun vma => imp_congr (isFormer vma) (forall_congr' fun isBlock => ?_)
    rw [List.countP_append, none_later, Nat.add_zero, countP_release (freed _ isBlock)]

/-! ### The two loops -/

/-- The calls that `Token::cleanup` makes for a region. -/
def Vma.cleanupCalls (vma : Vma) : List FfiCall :=
  if vma.physPtr ≠ 0 ∧ vma.size > 0 then
    [.physFree vma.physPtr (pagesFor vma.size), .pageTableUnmap vma.startAddr]
  else []

/-- The calls of `cleanup` are those of its regions. -/
theorem Token.cleanup_calls (token : Token) :
    token.cleanup.2 = token.regions.flatMap Vma.cleanupCalls := by
  unfold regions
  rw [List.flatMap_map]
  rfl

/-- A region with a block frees it and unmaps one page. -/
theorem Vma.cleanupCalls_of_backed {vma : Vma} (backed : vma.physPtr ≠ 0)
    (nonempty : vma.size ≠ 0) :
    vma.cleanupCalls =
      [.physFree vma.physPtr (pagesFor vma.size), .pageTableUnmap vma.startAddr] :=
  if_pos ⟨backed, BitVec.toNat_pos_of_ne_zero nonempty⟩

theorem Vma.cleanupCalls_of_unbacked {vma : Vma} (nothing : vma.physPtr = 0 ∨ vma.size = 0) :
    vma.cleanupCalls = [] := by
  refine if_neg fun both => ?_
  rcases nothing with unbacked | empty
  · exact both.1 unbacked
  · rw [empty] at both
    exact absurd both.2 (BitVec.lt_irrefl 0)

/-- The one page that `cleanup` unmaps. -/
theorem Vma.unmaps_cleanupCalls (vma : Vma) (addr : U64) :
    (vma.physPtr ≠ 0 ∧ vma.size ≠ 0 ∧ addr = vma.startAddr) ↔
      .pageTableUnmap addr ∈ vma.cleanupCalls := by
  by_cases nothing : vma.physPtr = 0 ∨ vma.size = 0
  · rw [cleanupCalls_of_unbacked nothing]
    refine iff_of_false ?_ List.not_mem_nil
    rintro ⟨backed, nonempty, _⟩
    exact nothing.elim backed nonempty
  · obtain ⟨backed, nonempty⟩ := not_or.mp nothing
    rw [cleanupCalls_of_backed backed nonempty]
    simp only [ne_eq, backed, nonempty, not_false_eq_true, true_and, List.mem_cons, reduceCtorEq,
      FfiCall.pageTableUnmap.injEq, List.not_mem_nil, or_false, false_or]

/-- How often `cleanup` frees a block. -/
theorem Vma.countP_cleanupCalls {block : U64} (isBlock : block ≠ 0) (vma : Vma) :
    vma.cleanupCalls.countP (FfiCall.frees block) =
      if (vma.physPtr == block && vma.size != 0) = true then 1 else 0 := by
  by_cases nothing : vma.physPtr = 0 ∨ vma.size = 0
  · rw [cleanupCalls_of_unbacked nothing, if_neg]
    · rfl
    · intro both
      obtain ⟨same, nonempty⟩ := Bool.and_eq_true_iff.mp both
      rcases nothing with unbacked | empty
      · exact isBlock ((eq_of_beq same).symm.trans unbacked)
      · exact absurd empty (bne_iff_ne.mp nonempty)
  · obtain ⟨backed, nonempty⟩ := not_or.mp nothing
    have isNonempty : (vma.size != 0) = true := bne_iff_ne.mpr nonempty
    rw [cleanupCalls_of_backed backed nonempty, isNonempty, Bool.and_true, List.countP_cons]
    exact Nat.zero_add _

/-- The calls that the tick makes for a region. -/
def Vma.reclaimCalls (vma : Vma) : List FfiCall :=
  (List.range (vma.size / 4096).toNat).map (fun i =>
      .pageTableUnmap (vma.startAddr + BitVec.ofNat 64 i * 4096)) ++
    [.physFree vma.physPtr (vma.size / 4096)]

/-- The tick unmaps every page of a region. -/
theorem Vma.unmaps_reclaimCalls (vma : Vma) (addr : U64) :
    (∃ i < vma.size.toNat / 4096, addr = vma.startAddr + BitVec.ofNat 64 i * 4096) ↔
      .pageTableUnmap addr ∈ vma.reclaimCalls := by
  have count : (vma.size / 4096).toNat = vma.size.toNat / 4096 := BitVec.toNat_udiv
  unfold reclaimCalls
  rw [count]
  constructor
  · rintro ⟨i, below, rfl⟩
    exact List.mem_append_left _ (List.mem_map.mpr ⟨i, List.mem_range.mpr below, rfl⟩)
  · intro member
    rcases List.mem_append.mp member with first | last
    · obtain ⟨i, below, same⟩ := List.mem_map.mp first
      cases same
      exact ⟨i, List.mem_range.mp below, rfl⟩
    · cases List.mem_singleton.mp last

/-- How often the tick frees a block. -/
theorem Vma.countP_reclaimCalls (vma : Vma) (block : U64) :
    vma.reclaimCalls.countP (FfiCall.frees block) =
      if (vma.physPtr == block && true) = true then 1 else 0 := by
  have unmapping : ((List.range (vma.size / 4096).toNat).map fun i =>
      FfiCall.pageTableUnmap (vma.startAddr + BitVec.ofNat 64 i * 4096)).countP
        (FfiCall.frees block) = 0 := by
    refine List.countP_eq_zero.mpr fun call member => ?_
    obtain ⟨_, _, rfl⟩ := List.mem_map.mp member
    exact Bool.false_ne_true
  unfold reclaimCalls
  rw [List.countP_append, unmapping, List.countP_singleton, Nat.zero_add, Bool.and_true]
  rfl

namespace KernelState

/-- The calls of several reclamations are those of all their regions. -/
theorem calls_reclaimAll (state : KernelState) (ids : List U64) :
    (state.reclaimAll ids).2 = (state.regionsOfAll ids).flatMap Vma.reclaimCalls := by
  induction ids generalizing state with
  | nil => rfl
  | cons tokenId rest ih =>
      have first : (state.reclaim tokenId).2 =
          (match state.tokens[tokenId]? with
            | none => []
            | some ref => (state.token ref).regions).flatMap Vma.reclaimCalls := by
        unfold reclaim
        cases state.tokens[tokenId]? with
        | none => rfl
        | some ref =>
            unfold Token.regions
            rw [List.flatMap_map]
            rfl
      change (state.reclaim tokenId).2 ++ ((state.reclaim tokenId).1.reclaimAll rest).2 = _
      rw [first, ih]
      exact (List.flatMap_append).symm

/-- A reclaimed token has no regions, the others keep theirs. -/
theorem regions_reclaim (state : KernelState) (tokenId : U64) (ref : Ref) :
    ((state.reclaim tokenId).1.token ref).regions =
      if state.tokens[tokenId]? = some ref then [] else (state.token ref).regions := by
  unfold reclaim
  cases state.tokens[tokenId]? with
  | none => rfl
  | some removed =>
      by_cases same : removed = ref
      · subst same
        rw [if_pos rfl]
        exact congrArg Token.regions
          (state.tokenCells.read_modify_self removed fun token => { token with vmas := ∅ })
      · rw [if_neg fun same' => same (Option.some.inj same')]
        exact congrArg Token.regions
          (state.tokenCells.read_modify_of_ne (Ne.symm same) fun token => { token with vmas := ∅ })

/-- The regions taken away are those of the tokens with the ids. -/
theorem mem_regionsOfAll (state : KernelState) (ids : List U64) (vma : Vma) :
    (∃ id ∈ ids, ∃ ref, state.tokens[id]? = some ref ∧ vma ∈ (state.token ref).regions) ↔
      vma ∈ state.regionsOfAll ids := by
  induction ids generalizing state with
  | nil =>
      refine iff_of_false ?_ List.not_mem_nil
      rintro ⟨_, impossible, _⟩
      exact absurd impossible List.not_mem_nil
  | cons tokenId rest ih =>
      have head : vma ∈ (match state.tokens[tokenId]? with
            | none => []
            | some ref => (state.token ref).regions) ↔
          ∃ ref, state.tokens[tokenId]? = some ref ∧ vma ∈ (state.token ref).regions := by
        cases state.tokens[tokenId]? with
        | none => simp only [List.not_mem_nil, reduceCtorEq, false_and, exists_false]
        | some ref => simp only [Option.some.injEq, exists_eq_left']
      rw [regionsOfAll, List.mem_append, head, ← ih]
      simp only [tokens_reclaim, regions_reclaim]
      constructor
      · rintro ⟨id, member, ref, isRef, isRegion⟩
        by_cases isHead : state.tokens[tokenId]? = some ref
        · exact .inl ⟨ref, isHead, isRegion⟩
        · have other : id ≠ tokenId := fun same => isHead (same ▸ isRef)
          refine .inr ⟨id, (List.mem_cons.mp member).resolve_left other, ref, ?_, ?_⟩
          · rw [if_neg other.symm]
            exact isRef
          · rw [if_neg isHead]
            exact isRegion
      · rintro (⟨ref, isRef, isRegion⟩ | ⟨id, member, ref, isRef, isRegion⟩)
        · exact ⟨tokenId, List.mem_cons_self, ref, isRef, isRegion⟩
        · split_ifs at isRef isRegion with same isHead
          · exact absurd isRegion List.not_mem_nil
          · exact ⟨id, List.mem_cons_of_mem _ member, ref, isRef, isRegion⟩

/-- The regions reclaimed are those of expired tokens. -/
theorem mem_reclaimedRegions (state : KernelState) (vma : Vma) :
    vma ∈ state.expiredRegions ↔ vma ∈ state.reclaimedRegions :=
  mem_regionsOfAll { state with tickCount := state.tickCount + 1 } _ vma

/-- A dispatch makes no call but the switch to the page tables of the thread. -/
theorem calls_dispatch (state : KernelState) (ref : Ref) (frame : Option TrapFrame) :
    ∀ call ∈ (state.dispatch ref frame).ffi, ∃ addr, call = .switchPageDirectory addr := by
  simp only [dispatch, Session.activate]
  split
  · exact fun _ impossible => absurd impossible List.not_mem_nil
  · intro call member
    split_ifs at member
    · exact ⟨_, List.mem_singleton.mp member⟩
    · exact absurd member List.not_mem_nil

/-- A tick releases the expired regions, and then switches to the thread's page tables. -/
theorem calls_tick (state : KernelState) (frame : Option TrapFrame) :
    ∃ later, (state.tick frame).ffi =
        state.reclaimedRegions.flatMap Vma.reclaimCalls ++ later ∧
      ∀ call ∈ later, ∃ addr, call = .switchPageDirectory addr := by
  have released : state.reclaimed.2 = state.reclaimedRegions.flatMap Vma.reclaimCalls :=
    calls_reclaimAll _ _
  rw [← released]
  simp only [tick]
  cases state.reclaimed.1.scheduler.scheduleNext.1 with
  | none =>
      exact ⟨[], (List.append_nil _).symm, fun _ impossible => absurd impossible List.not_mem_nil⟩
  | some ref => exact ⟨_, rfl, calls_dispatch _ ref frame⟩

end KernelState

/-- **When memory is reclaimed.** If the calls return, `Token::cleanup` reclaims the regions of a
token exactly if their mapped pages are first pages, above 2 GB, of regions with blocks and each
block is that of one region, and a tick reclaims those of the expired tokens exactly if their
mapped pages are above 2 GB and fit into the size of a region and each block is that of one. -/
theorem reclaims_iff (token : Token) (state : KernelState) (frame : Option TrapFrame)
    (mappings : Mappings) (answers : PagingAnswers) :
    (Reclaims answers mappings { vma | vma ∈ token.regions } token.cleanup.2 ↔
        token.CleanupReleases answers mappings) ∧
      (Reclaims answers mappings state.expiredRegions (state.tick frame).ffi ↔
        state.TickReleases answers mappings) := by
  constructor
  · rw [Token.cleanup_calls, ← List.append_nil (token.regions.flatMap _)]
    refine reclaims_iff_releases (fun _ => Iff.rfl) ?_ Vma.unmaps_cleanupCalls ?_ ?_
    · intro vma _ _ _ member
      unfold Vma.cleanupCalls at member
      split_ifs at member
      · rcases List.mem_cons.mp member with same | second
        · cases same
        · cases List.mem_singleton.mp second
      · exact absurd member List.not_mem_nil
    · exact fun _ isBlock vma => vma.countP_cleanupCalls isBlock
    · exact fun _ impossible => absurd impossible List.not_mem_nil
  · obtain ⟨later, calls, switches⟩ := state.calls_tick frame
    rw [calls]
    refine reclaims_iff_releases ?_ ?_ Vma.unmaps_reclaimCalls ?_ switches
    · exact state.mem_reclaimedRegions
    · intro vma _ _ _ member
      rcases List.mem_append.mp member with first | last
      · obtain ⟨_, _, impossible⟩ := List.mem_map.mp first
        cases impossible
      · cases List.mem_singleton.mp last
    · exact fun block _ vma => vma.countP_reclaimCalls block

/-- A token with a writeable region of two pages above 2 GB. -/
def twoPages : KernelState :=
  populated.after (.allocateMemory 97 8192 true false 0x10_0000)

/-- A token in its last tick with a region of 5000 bytes that a page fault has backed. -/
def partPage : KernelState :=
  kernel.run .boot [.runProcess 1 100,
    .createChildToken { childOf 1 1 1 1 2 with memLimit := 8192 }, .runProcess 2 100,
    .kernelTick none, .kernelTick none, .memAlloc 2 .memAlloc 5000 0x8000_0000,
    .handlePageFault 0x8000_0010 0 0x10_0000]

/-- The answers of page tables that have room. -/
def roomy : PagingAnswers where
  map _ _ _ := some 0
  unmap _ := true

theorem returns_roomy (call : FfiCall) : roomy.Returns call := by
  cases call <;> first | exact trivial | exact rfl

/-- The second page of a region stays mapped, after `Token::cleanup` where it is full and
after the tick where it is not. -/
theorem not_reclaims_second_page :
    ¬ Reclaims roomy
        (identityMappings.afterAll roomy
          (mapPages 0x8138_6000 0x10_0000 2 (eagerFlags true false)))
        { vma | vma ∈ (twoPages.token 96).regions } (twoPages.token 96).cleanup.2 ∧
      ¬ Reclaims roomy
        (identityMappings.afterAll roomy (mapPages 0x8000_0000 0x10_0000 2 (lazyFlags true)))
        partPage.expiredRegions (partPage.tick none).ffi := by
  constructor
  · intro reclaims
    have region : (⟨0x8138_6000, 8192, true, false, 0x10_0000⟩ : Vma) ∈
        (twoPages.token 96).regions := by
      decide +kernel
    have onPage : (⟨0x8138_6000, 8192, true, false, 0x10_0000⟩ : Vma).HasPage 0x81387 :=
      ⟨0x8138_7000, ⟨by decide, by decide⟩, rfl⟩
    have second := reclaims.lookup_eq_none (fun call _ => returns_roomy call) region onPage
    revert second
    decide +kernel
  · intro reclaims
    obtain ⟨unmapped, _⟩ := reclaims fun call _ => returns_roomy call
    have region : (⟨0x8000_0000, 5000, true, false, 0x10_0000⟩ : Vma) ∈
        partPage.reclaimedRegions := by
      decide +kernel
    have second := unmapped _ ((partPage.mem_reclaimedRegions _).mpr region) 0x80001
      ⟨0x8000_1000, ⟨by decide, by decide⟩, rfl⟩
    revert second
    decide +kernel

end Lofita.Kernel
