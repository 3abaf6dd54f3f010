import Lofita.Kernel.SimulationRuns
import Mathlib.Data.List.Perm.Basic

/-! # The memory of the simulated kernel

The regions of the tokens against the page dictionary and the allocator. Whatever the run, what is
mapped is a page of a region of a token in the table, and the blocks held from the allocator are
those of the regions. As long as sizes are not negative and no token outgrows its window, exactly
the pages of the regions are mapped (`mapped_iff_region`).
-/

namespace Lofita.Kernel

open Lofita.Foundation Lofita.Ppa

variable {Time : Type}

/-! ### Pages -/

namespace SimVma

/-- The page is one of the region. -/
def Touches (vma : SimVma) (page : Int) : Prop :=
  ∃ i < SimPaging.pageCount vma.size, page = vma.startAddr + i * pageSize

/-- The page is one of the region, and the frame the one of its block. -/
def Covers (vma : SimVma) (page : Int) (frame : Nat) : Prop :=
  ∃ i < SimPaging.pageCount vma.size,
    page = vma.startAddr + i * pageSize ∧ frame = vma.physPtr + i * pageSize

/-- A region that covers a page touches it. -/
theorem Covers.touches {vma : SimVma} {page : Int} {frame : Nat} (covers : vma.Covers page frame) :
    vma.Touches page := by
  obtain ⟨i, below, place, -⟩ := covers
  exact ⟨i, below, place⟩

/-- The pages of a region lie between its ends. -/
theorem Touches.between {vma : SimVma} {page : Int} (touches : vma.Touches page) :
    vma.startAddr ≤ page ∧ page < vma.startAddr + vma.size := by
  obtain ⟨i, below, rfl⟩ := touches
  unfold SimPaging.pageCount pageSize at below
  unfold pageSize
  omega

end SimVma

namespace SimPaging

/-- Writing the pages of a range one after the other. -/
theorem foldl_update (write : Nat → Option Nat) (start : Int) (count : Nat) (self : SimPaging)
    (page : Int) :
    (∀ i < count, page = start + i * pageSize →
      (List.range count).foldl (fun mappings (i : Nat) =>
        Function.update mappings (start + i * pageSize) (write i)) self page = write i) ∧
    ((∀ i < count, page ≠ start + i * pageSize) →
      (List.range count).foldl (fun mappings (i : Nat) =>
        Function.update mappings (start + i * pageSize) (write i)) self page = self page) := by
  induction count with
  | zero => exact ⟨fun _ below => absurd below (Nat.not_lt_zero _), fun _ => rfl⟩
  | succ count ih =>
      rw [List.range_succ, List.foldl_append, List.foldl_cons, List.foldl_nil]
      constructor
      · intro i below place
        by_cases last : i = count
        · rw [place, last, Function.update_self]
        · have different : page ≠ start + count * pageSize := by
            unfold pageSize at place ⊢
            omega
          rw [Function.update_of_ne different]
          exact ih.1 i (by omega) place
      · intro outside
        rw [Function.update_of_ne (outside count (Nat.lt_succ_self count))]
        exact ih.2 fun i below => outside i (Nat.lt_succ_of_lt below)

variable {self : SimPaging} {vma : SimVma} {page : Int} {frame : Nat}

/-- After a mapping a page leads into the region, or to where it led. -/
theorem map_eq_some_iff :
    self.map vma.startAddr vma.physPtr vma.size page = some frame ↔
      vma.Covers page frame ∨ ¬ vma.Touches page ∧ self page = some frame := by
  obtain ⟨inside, outside⟩ := foldl_update (fun i => some (vma.physPtr + i * pageSize))
    vma.startAddr (pageCount vma.size) self page
  by_cases touches : vma.Touches page
  · obtain ⟨i, below, place⟩ := touches
    rw [map, inside i below place, Option.some_inj]
    constructor
    · rintro rfl
      exact .inl ⟨i, below, place, rfl⟩
    · rintro (⟨j, belowJ, placeJ, rfl⟩ | ⟨untouched, -⟩)
      · have same : i = j := by
          unfold pageSize at place placeJ
          omega
        rw [same]
      · exact absurd ⟨i, below, place⟩ untouched
  · rw [map, outside fun i below place => touches ⟨i, below, place⟩]
    constructor
    · exact fun mapped => .inr ⟨touches, mapped⟩
    · rintro (covers | ⟨-, mapped⟩)
      · exact absurd covers.touches touches
      · exact mapped

/-- After an unmapping a page outside the region leads to where it led. -/
theorem unmap_eq_some_iff :
    self.unmap vma.startAddr vma.size page = some frame ↔
      ¬ vma.Touches page ∧ self page = some frame := by
  obtain ⟨inside, outside⟩ := foldl_update (fun _ => none) vma.startAddr (pageCount vma.size) self
    page
  by_cases touches : vma.Touches page
  · obtain ⟨i, below, place⟩ := touches
    rw [unmap, inside i below place]
    exact iff_of_false nofun fun mapped => mapped.1 ⟨i, below, place⟩
  · rw [unmap, outside fun i below place => touches ⟨i, below, place⟩, and_iff_right touches]

/-- After several unmappings a page outside all regions leads to where it led. -/
theorem unmapAll_eq_some_iff (vmas : List SimVma) :
    vmas.foldl (fun paging vma => paging.unmap vma.startAddr vma.size) self page = some frame ↔
      (∀ vma ∈ vmas, ¬ vma.Touches page) ∧ self page = some frame := by
  induction vmas generalizing self with
  | nil => simp
  | cons vma rest ih =>
      rw [List.foldl_cons, ih, unmap_eq_some_iff, List.forall_mem_cons, and_left_comm, and_assoc]

end SimPaging

/-! ### Blocks -/

/-- What was allocated and not freed since, with the page counts. -/
def holdings : List PoolCall → List (Nat × Int)
  | [] => []
  | .alloc _ none :: earlier => holdings earlier
  | .alloc pages (some addr) :: earlier => (addr, pages) :: holdings earlier
  | .free addr pages :: earlier => (holdings earlier).erase (addr, pages)

/-- Every free names a block that is held, with the page count it was requested with. -/
def FreesHeld : List PoolCall → Prop
  | [] => True
  | .alloc _ _ :: earlier => FreesHeld earlier
  | .free addr pages :: earlier => (addr, pages) ∈ holdings earlier ∧ FreesHeld earlier

/-- An allocation is written down with its answer. -/
theorem SimPool.calls_alloc (self : SimPool) (pages : Int) :
    (self.alloc pages).2.calls = .alloc pages (self.alloc pages).1 :: self.calls := rfl

/-- The block of a region. -/
def SimVma.block (vma : SimVma) : Nat × Int := (vma.physPtr, vma.size / pageSize)

/-- Freeing the blocks of some regions leaves those of the others. -/
theorem holdings_foldl_free (vmas : List SimVma) {pool : SimPool} {others : List (Nat × Int)}
    (frees : FreesHeld pool.calls)
    (holds : (holdings pool.calls).Perm (vmas.map SimVma.block ++ others)) :
    let after := vmas.foldl (fun pool vma => pool.free vma.physPtr (vma.size / pageSize)) pool
    FreesHeld after.calls ∧ (holdings after.calls).Perm others := by
  induction vmas generalizing pool with
  | nil => exact ⟨frees, holds⟩
  | cons vma rest ih =>
      have held : vma.block ∈ holdings pool.calls :=
        holds.mem_iff.mpr (List.mem_cons_self)
      refine @ih (pool.free vma.physPtr (vma.size / pageSize)) ⟨held, frees⟩ ?_
      have erased := holds.erase vma.block
      rwa [List.map_cons, List.cons_append, List.erase_cons_head] at erased

/-- One member of the list brings in one more item. -/
theorem flatMap_perm_cons {α : Type} {before after : Nat → List α} {item : α} {target : Nat}
    (brings : (after target).Perm (item :: before target)) :
    ∀ {ids : List Nat}, ids.Nodup → target ∈ ids →
      (∀ id ∈ ids, id ≠ target → after id = before id) →
      (ids.flatMap after).Perm (item :: ids.flatMap before)
  | [], _, member, _ => nomatch member
  | id :: rest, distinct, member, others => by
      obtain ⟨notLater, restDistinct⟩ := List.nodup_cons.mp distinct
      rw [List.flatMap_cons, List.flatMap_cons]
      by_cases here : id = target
      · subst here
        have same : rest.flatMap after = rest.flatMap before :=
          List.flatMap_congr fun other otherMember =>
            others other (List.mem_cons_of_mem _ otherMember) fun equal =>
              notLater (equal ▸ otherMember)
        rw [same]
        exact brings.append_right _
      · have later : target ∈ rest := (List.mem_cons.mp member).resolve_left (Ne.symm here)
        rw [others id List.mem_cons_self here]
        have tail := flatMap_perm_cons brings restDistinct later fun other otherMember =>
          others other (List.mem_cons_of_mem _ otherMember)
        exact (tail.append_left _).trans List.perm_middle

namespace KernelSimulation

/-! ### What effects do to the memory -/

section Objects

variable (self : KernelSimulation Time) (tokenId : Nat) (vma : SimVma)

/-- The token that registers a region is charged with it. -/
theorem object_register_self : (self.register tokenId vma).object tokenId =
    { self.object tokenId with
      vmas := (self.object tokenId).vmas ++ [vma]
      memoryUsed := (self.object tokenId).memoryUsed + vma.size } :=
  Function.update_self ..

/-- The other tokens are not. -/
theorem object_register_of_ne {id : Nat} (different : id ≠ tokenId) :
    (self.register tokenId vma).object id = self.object id :=
  Function.update_of_ne different ..

/-- A reclaimed token has no regions. -/
theorem object_reclaimToken_self :
    ((self.reclaimToken tokenId).object tokenId).vmas = [] := by
  rw [object_reclaimToken, Function.update_self]

/-- The other tokens keep theirs. -/
theorem object_reclaimToken_of_ne {id : Nat} (different : id ≠ tokenId) :
    (self.reclaimToken tokenId).object id = self.object id := by
  rw [object_reclaimToken, Function.update_of_ne different]

/-- A reclaimed token is no longer listed. -/
theorem tokens_reclaimToken : (self.reclaimToken tokenId).tokens = self.tokens.erase tokenId := by
  rw [reclaimToken_eq]

/-- The tokens that a reclaim leaves in the table are as they were. -/
theorem object_of_mem_reclaimToken (distinct : self.tokens.Nodup) {id : Nat}
    (member : id ∈ (self.reclaimToken tokenId).tokens) :
    id ≠ tokenId ∧ id ∈ self.tokens ∧
      (self.reclaimToken tokenId).object id = self.object id := by
  rw [tokens_reclaimToken] at member
  obtain ⟨different, inTable⟩ := distinct.mem_erase_iff.mp member
  exact ⟨different, inTable, object_reclaimToken_of_ne self tokenId different⟩

/-- Its blocks are given back one by one. -/
theorem pool_reclaimToken : (self.reclaimToken tokenId).pool =
    (self.object tokenId).vmas.foldl
      (fun pool vma => pool.free vma.physPtr (vma.size / pageSize)) self.pool := by
  rw [reclaimToken_eq]

/-- Reclaiming a token unmaps its pages. -/
theorem paging_reclaimToken {page : Int} {frame : Nat} :
    (self.reclaimToken tokenId).paging page = some frame ↔
      (∀ vma ∈ (self.object tokenId).vmas, ¬ vma.Touches page) ∧
        self.paging page = some frame := by
  rw [reclaimToken_eq]
  exact SimPaging.unmapAll_eq_some_iff _

end Objects

/-- The regions of the tokens in the table. -/
def liveRegions (kernel : KernelSimulation Time) : List SimVma :=
  kernel.tokens.flatMap fun id => (kernel.object id).vmas

/-- The page of a region of a token in the table, with its frame. -/
def HasRegion (kernel : KernelSimulation Time) (page : Int) (frame : Nat) : Prop :=
  ∃ id ∈ kernel.tokens, ∃ vma ∈ (kernel.object id).vmas, vma.Covers page frame

/-- The memory is as it was, but for new tokens without memory. -/
structure SameMemory (kernel after : KernelSimulation Time) : Prop where
  paging : after.paging = kernel.paging
  pool : after.pool.calls = kernel.pool.calls ∨
    ∃ pages, after.pool.calls = .alloc pages none :: kernel.pool.calls
  tokens : ∃ fresh, after.tokens = kernel.tokens ++ fresh ∧
    ∀ id ∈ fresh, (after.object id).vmas = [] ∧ (after.object id).memoryUsed = 0
  vmas : ∀ id, (id ∈ kernel.tokens ∨ id ∉ after.tokens) →
    (after.object id).vmas = (kernel.object id).vmas
  charge : ∀ id ∈ kernel.tokens, (after.object id).memoryUsed = (kernel.object id).memoryUsed ∧
    (after.object id).memoryLimit = (kernel.object id).memoryLimit ∧
    (after.object id).capabilities = (kernel.object id).capabilities

namespace SameMemory

variable {kernel after : KernelSimulation Time}

/-- Steps that change no region, quota or list of tokens leave the memory the same. -/
theorem of_objects (paging : after.paging = kernel.paging)
    (pool : after.pool.calls = kernel.pool.calls ∨
      ∃ pages, after.pool.calls = .alloc pages none :: kernel.pool.calls)
    (tokens : after.tokens = kernel.tokens)
    (objects : ∀ id, (after.object id).vmas = (kernel.object id).vmas ∧
      (after.object id).memoryUsed = (kernel.object id).memoryUsed ∧
      (after.object id).memoryLimit = (kernel.object id).memoryLimit ∧
      (after.object id).capabilities = (kernel.object id).capabilities) :
    SameMemory kernel after where
  paging := paging
  pool := pool
  tokens := ⟨[], by rw [tokens, List.append_nil], nofun⟩
  vmas := fun id _ => (objects id).1
  charge := fun id _ => (objects id).2

/-- The same memory has the same regions. -/
theorem liveRegions_eq (same : SameMemory kernel after) :
    after.liveRegions = kernel.liveRegions := by
  obtain ⟨fresh, tokens, blank⟩ := same.tokens
  have earlier : kernel.tokens.flatMap (fun id => (after.object id).vmas) = kernel.liveRegions :=
    List.flatMap_congr fun id member => same.vmas id (.inl member)
  have new : fresh.flatMap (fun id => (after.object id).vmas) = [] :=
    List.flatMap_eq_nil_iff.mpr fun id member => (blank id member).1
  rw [liveRegions, tokens, List.flatMap_append, earlier, new, List.append_nil]

/-- The same memory backs the same pages. -/
theorem hasRegion (same : SameMemory kernel after) {page : Int} {frame : Nat} :
    after.HasRegion page frame ↔ kernel.HasRegion page frame := by
  have through (state : KernelSimulation Time) : state.HasRegion page frame ↔
      ∃ vma ∈ state.liveRegions, vma.Covers page frame := by
    simp only [HasRegion, liveRegions, List.mem_flatMap]
    constructor
    · rintro ⟨id, member, vma, vmaMember, covers⟩
      exact ⟨vma, ⟨id, member, vmaMember⟩, covers⟩
    · rintro ⟨vma, ⟨id, member, vmaMember⟩, covers⟩
      exact ⟨id, member, vma, vmaMember, covers⟩
  rw [through, through, same.liveRegions_eq]

end SameMemory

variable [Clock Time] {allowed : KernelSimulation Time → Nat → Int → Prop}
  {self after : KernelSimulation Time}

/-- An effect leaves the memory alone, or enters one region, or reclaims those of a token. -/
theorem memory_cases (live : Live self) (effect : Effect allowed self after) :
    SameMemory self after ∨
    (∃ tokenId size physPtr pool, tokenId ∈ self.tokens ∧
      (self.object tokenId).capabilities &&& SimCapability.memAlloc ≠ 0 ∧
      (self.object tokenId).memoryUsed + size ≤ (self.object tokenId).memoryLimit ∧
      allowed self tokenId size ∧ self.pool.alloc (pagesFor size) = (some physPtr, pool) ∧
      after = { self with pool }.register tokenId (self.newRegion tokenId size physPtr)) ∨
    ∃ tokenId, after = self.reclaimToken tokenId := by
  cases effect with
  | @create request clock permitted =>
      refine .inl ?_
      have older {id : Nat} (member : id ∈ self.tokens) : id ≠ self.nextTokenId :=
        Nat.ne_of_lt (live.older id member)
      refine ⟨rfl, .inl rfl, ⟨[self.nextTokenId], rfl, ?_⟩, ?_, ?_⟩
      · intro id member
        rw [List.mem_singleton.mp member]
        have new : (self.addToken (newToken request clock)).object self.nextTokenId =
          newToken request clock := Function.update_self ..
        rw [new]
        exact ⟨rfl, rfl⟩
      · intro id place
        have different : id ≠ self.nextTokenId := by
          rcases place with member | absent
          · exact older member
          · exact fun same => absent (same ▸ List.mem_append_right _ (List.mem_singleton.mpr rfl))
        exact congrArg SimToken.vmas (Function.update_of_ne different ..)
      · intro id member
        have kept : (self.addToken (newToken request clock)).object id = self.object id :=
          Function.update_of_ne (older member) ..
        rw [kept]
        exact ⟨rfl, rfl, rfl⟩
  | @exhausted pages pool failed =>
      have called : pool.calls = .alloc pages none :: self.pool.calls := by
        have logged := self.pool.calls_alloc pages
        rwa [failed] at logged
      exact .inl (.of_objects rfl (.inr ⟨pages, called⟩) rfl fun _ => ⟨rfl, rfl, rfl, rfl⟩)
  | @allocate tokenId size physPtr pool member capable quota fits answered =>
      exact .inr (.inl ⟨tokenId, size, physPtr, pool, member, capable, quota, fits, answered, rfl⟩)
  | @start tokenId expiry member few =>
      refine .inl (.of_objects rfl (.inl rfl) rfl fun id => ?_)
      by_cases same : id = tokenId
      · subst same
        have updated : (self.startSession id expiry).object id =
          { self.object id with runCount := (self.object id).runCount + 1 } :=
          Function.update_self ..
        rw [updated]
        exact ⟨rfl, rfl, rfl, rfl⟩
      · have kept : (self.startSession tokenId expiry).object id = self.object id :=
          Function.update_of_ne same ..
        rw [kept]
        exact ⟨rfl, rfl, rfl, rfl⟩
  | spawn member active => exact .inl (.of_objects rfl (.inl rfl) rfl fun _ => ⟨rfl, rfl, rfl, rfl⟩)
  | schedule same => exact .inl (.of_objects rfl (.inl rfl) rfl fun _ => ⟨rfl, rfl, rfl, rfl⟩)
  | advance => exact .inl (.of_objects rfl (.inl rfl) rfl fun _ => ⟨rfl, rfl, rfl, rfl⟩)
  | @reclaim tokenId temporary => exact .inr (.inr ⟨tokenId, rfl⟩)
  | endSessions =>
      rw [foldl_endSession]
      exact .inl (.of_objects rfl (.inl rfl) rfl fun _ => ⟨rfl, rfl, rfl, rfl⟩)

/-! ### In every run -/

/-- Regions belong to tokens in the table; only their pages are mapped, and their blocks are what
is held of the allocator. -/
structure Kept (kernel : KernelSimulation Time) : Prop where
  live : Live kernel
  retired : ∀ id, id ∉ kernel.tokens → (kernel.object id).vmas = []
  mapped : ∀ page frame, kernel.paging page = some frame → HasRegion kernel page frame
  freesHeld : FreesHeld kernel.pool.calls
  holds : (holdings kernel.pool.calls).Perm (kernel.liveRegions.map SimVma.block)

namespace Kept

omit [Clock Time] in
/-- Steps that leave the memory the same keep the invariant. -/
theorem same (kept : Kept self) (same : SameMemory self after) (live : Live after) :
    Kept after where
  live := live
  retired := by
    intro id absent
    obtain ⟨fresh, tokens, -⟩ := same.tokens
    rw [same.vmas id (.inr absent)]
    exact kept.retired id fun member => absent (tokens ▸ List.mem_append_left _ member)
  mapped := by
    intro page frame mapped
    exact same.hasRegion.mpr (kept.mapped page frame (same.paging ▸ mapped))
  freesHeld := by
    rcases same.pool with unchanged | ⟨pages, asked⟩
    · exact unchanged ▸ kept.freesHeld
    · rw [asked]
      exact kept.freesHeld
  holds := by
    rw [same.liveRegions_eq]
    rcases same.pool with unchanged | ⟨pages, asked⟩
    · exact unchanged ▸ kept.holds
    · rw [asked]
      exact kept.holds

omit [Clock Time] in
/-- A registered region holds the block just answered. -/
theorem register (kept : Kept self) {tokenId : Nat} (member : tokenId ∈ self.tokens)
    {pages : Int} {physPtr : Nat} {pool : SimPool}
    (answered : self.pool.alloc pages = (some physPtr, pool)) {vma : SimVma}
    (block : vma.block = (physPtr, pages)) :
    Kept ({ self with pool }.register tokenId vma) := by
  have here := object_register_self { self with pool } tokenId vma
  have elsewhere {id : Nat} (different : id ≠ tokenId) :
      ({ self with pool }.register tokenId vma).object id = self.object id :=
    object_register_of_ne { self with pool } tokenId vma different
  have logged : pool.calls = .alloc pages (some physPtr) :: self.pool.calls := by
    have logged := self.pool.calls_alloc pages
    rwa [answered] at logged
  refine ⟨{ kept.live with }, fun id absent => ?_, fun page frame mapped => ?_, ?_, ?_⟩
  · have different : id ≠ tokenId := by
      rintro rfl
      exact absent member
    rw [elsewhere different]
    exact kept.retired id absent
  · rcases SimPaging.map_eq_some_iff.mp mapped with covers | ⟨-, earlier⟩
    · refine ⟨tokenId, member, vma, ?_, covers⟩
      rw [here]
      exact List.mem_append_right _ (List.mem_singleton.mpr rfl)
    · obtain ⟨id, idMember, other, otherMember, covers⟩ := kept.mapped page frame earlier
      refine ⟨id, idMember, other, ?_, covers⟩
      by_cases same : id = tokenId
      · rw [same, here]
        exact List.mem_append_left _ (same ▸ otherMember)
      · rwa [elsewhere same]
  · change FreesHeld pool.calls
    rw [logged]
    exact kept.freesHeld
  · have regions : ({ self with pool }.register tokenId vma).liveRegions.Perm
        (vma :: self.liveRegions) :=
      flatMap_perm_cons (by rw [here]; exact List.perm_append_singleton ..) kept.live.distinct
        member fun id _ different => congrArg SimToken.vmas (elsewhere different)
    change (holdings pool.calls).Perm _
    rw [logged]
    refine .trans ?_ (regions.map SimVma.block).symm
    rw [List.map_cons, block]
    exact kept.holds.cons _

omit [Clock Time] in
/-- A reclaimed token gives back the blocks of its regions. -/
theorem reclaimToken (kept : Kept self) (tokenId : Nat) : Kept (self.reclaimToken tokenId) := by
  have elsewhere {id : Nat} (different : id ≠ tokenId) :=
    self.object_reclaimToken_of_ne tokenId different
  have split : self.liveRegions.Perm ((self.object tokenId).vmas ++
      (self.reclaimToken tokenId).liveRegions) := by
    have others : (self.reclaimToken tokenId).liveRegions =
        (self.tokens.erase tokenId).flatMap fun id => (self.object id).vmas := by
      rw [liveRegions, tokens_reclaimToken]
      refine List.flatMap_congr fun id member => ?_
      rw [elsewhere (kept.live.distinct.mem_erase_iff.mp member).1]
    rw [others]
    by_cases member : tokenId ∈ self.tokens
    · exact (List.perm_cons_erase member).flatMap_right _
    · rw [kept.retired tokenId member, List.erase_of_not_mem member]
      exact .refl _
  have freed := holdings_foldl_free (self.object tokenId).vmas kept.freesHeld
    (kept.holds.trans (by simpa only [List.map_append] using split.map SimVma.block))
  rw [← pool_reclaimToken] at freed
  refine ⟨kept.live.reclaimToken tokenId, fun id absent => ?_, fun page frame mapped => ?_,
    freed.1, freed.2⟩
  · by_cases same : id = tokenId
    · rw [same]
      exact self.object_reclaimToken_self tokenId
    · rw [elsewhere same]
      rw [tokens_reclaimToken] at absent
      exact kept.retired id fun member => absent ((List.mem_erase_of_ne same).mpr member)
  · obtain ⟨untouched, earlier⟩ := (self.paging_reclaimToken tokenId).mp mapped
    obtain ⟨id, member, vma, vmaMember, covers⟩ := kept.mapped page frame earlier
    have different : id ≠ tokenId := by
      rintro rfl
      exact untouched vma vmaMember covers.touches
    refine ⟨id, ?_, vma, ?_, covers⟩
    · rw [tokens_reclaimToken]
      exact (List.mem_erase_of_ne different).mpr member
    · rwa [elsewhere different]

/-- One effect keeps the invariant. -/
theorem effect (kept : Kept self) (effect : Effect allowed self after) : Kept after := by
  rcases memory_cases kept.live effect with same | ⟨tokenId, size, physPtr, pool, member, -, -, -,
    answered, rfl⟩ | ⟨tokenId, rfl⟩
  · exact kept.same same (kept.live.effect effect)
  · refine kept.register member answered ?_
    refine Prod.ext rfl ?_
    exact Int.mul_ediv_cancel _ (by decide)
  · exact kept.reclaimToken tokenId

/-- No region is there at first. -/
theorem init (clock lifetimeSeconds : Time) :
    Kept (KernelSimulation.init clock lifetimeSeconds) where
  live := .init clock lifetimeSeconds
  retired := fun _ _ => rfl
  mapped := nofun
  freesHeld := trivial
  holds := .refl _

end Kept

/-- **Nothing stale is mapped.** In every state of every run, whatever overlaps, a page that is
mapped is a page of a region of a token in the table, at its own frame: what a token had is not
mapped once it is reclaimed. -/
theorem mapped_is_region (clock lifetimeSeconds : Time)
    (calls : List (SimCall Time)) :
    (simulation Time).Always
      (fun kernel => ∀ page frame, kernel.paging page = some frame → HasRegion kernel page frame)
      (.init clock lifetimeSeconds) calls :=
  always_of_effects Kept (fun _ _ kept effect => kept.effect effect) (fun _ kept => kept.mapped)
    (.init clock lifetimeSeconds) (along_anySize calls)

/-- **The blocks held are those of the regions.** In every state of every run, every free so far
named a block that was held, with the page count it was requested with, and the blocks held now
are those of the regions of the tokens in the table, each once: nothing is freed twice, and
nothing is lost. -/
theorem blocks_held (clock lifetimeSeconds : Time)
    (calls : List (SimCall Time)) :
    (simulation Time).Always
      (fun kernel => FreesHeld kernel.pool.calls ∧
        (holdings kernel.pool.calls).Perm (kernel.liveRegions.map SimVma.block))
      (.init clock lifetimeSeconds) calls :=
  always_of_effects Kept (fun _ _ kept effect => kept.effect effect)
    (fun _ kept => ⟨kept.freesHeld, kept.holds⟩) (.init clock lifetimeSeconds)
    (along_anySize calls)

/-! ### Windows -/

/-- The offset is a page number below 1024 made from the seed. -/
theorem getRandomAslrOffset_eq (seed : Int) :
    getRandomAslrOffset seed = (1_103_515_245 * seed + 12_345) % 1024 * 4096 := by
  have modulus : (1 <<< 31 : Int) = 2147483648 := rfl
  simp only [getRandomAslrOffset, modulus, pageSize]
  omega

/-- The random offset depends on the token alone: what it has used is a multiple of the page
size, and only the last ten bits of the seed count. -/
theorem getRandomAslrOffset_xor (tokenId : Nat) {used : Int} (positive : 0 ≤ used)
    (aligned : (pageSize : Int) ∣ used) :
    getRandomAslrOffset (Int.xor tokenId used) = getRandomAslrOffset tokenId := by
  obtain ⟨pages, rfl⟩ := aligned
  obtain ⟨count, rfl⟩ : ∃ count : Nat, pages = count := by
    refine ⟨pages.toNat, ?_⟩
    unfold pageSize at positive
    omega
  have low : (tokenId ^^^ (pageSize * count)) % 1024 = tokenId % 1024 := by
    have modulus : (1024 : Nat) = 2 ^ 10 := rfl
    have blank : pageSize * count % 2 ^ 10 = 0 := by
      unfold pageSize
      omega
    rw [modulus, Nat.xor_mod_two_pow, blank, Nat.xor_zero]
  have whole : Int.xor (tokenId : Int) ((pageSize : Int) * (count : Int)) =
      ((tokenId ^^^ (pageSize * count) : Nat) : Int) := rfl
  rw [getRandomAslrOffset_eq, getRandomAslrOffset_eq, whole]
  omega

/-- Where the first region of a token starts. -/
def windowStart (tokenId : Nat) : Int :=
  0x2000_0000 + tokenId * 0x100_0000 + getRandomAslrOffset tokenId

/-- The size is not negative, and the region ends in the 16 MB of the token. -/
def Fits (kernel : KernelSimulation Time) (tokenId : Nat) (size : Int) : Prop :=
  0 ≤ size ∧ getRandomAslrOffset tokenId + (kernel.object tokenId).memoryUsed +
    pagesFor size * pageSize ≤ 0x100_0000

instance (kernel : KernelSimulation Time) (tokenId : Nat) (size : Int) :
    Decidable (Fits kernel tokenId size) := inferInstanceAs (Decidable (_ ∧ _))

/-- The token may allocate as much, and there is a block for it. -/
def Registers (kernel : KernelSimulation Time) (tokenId : Nat) (size : Int) : Prop :=
  tokenId ∈ kernel.tokens ∧ (kernel.object tokenId).capabilities &&& SimCapability.memAlloc ≠ 0 ∧
    (kernel.object tokenId).memoryUsed + size ≤ (kernel.object tokenId).memoryLimit ∧
    (kernel.pool.alloc (pagesFor size)).1 ≠ none

/-- What is granted fits. -/
def RegistersWithin (kernel : KernelSimulation Time) (tokenId : Nat) (size : Int) : Prop :=
  Registers kernel tokenId size → Fits kernel tokenId size

/-- The regions of each token follow each other in its window, and their pages are those that are
mapped. -/
structure Windowed (kernel : KernelSimulation Time) : Prop where
  kept : Kept kernel
  used : ∀ id ∈ kernel.tokens, 0 ≤ (kernel.object id).memoryUsed ∧
    (pageSize : Int) ∣ (kernel.object id).memoryUsed ∧
    getRandomAslrOffset id + (kernel.object id).memoryUsed ≤ 0x100_0000
  inside : ∀ id ∈ kernel.tokens, ∀ vma ∈ (kernel.object id).vmas,
    windowStart id ≤ vma.startAddr ∧
      vma.startAddr + vma.size ≤ windowStart id + (kernel.object id).memoryUsed
  mapped : ∀ page frame, kernel.HasRegion page frame → kernel.paging page = some frame

namespace Windowed

omit [Clock Time]

/-- Pages of two tokens are different. -/
theorem same_token (windowed : Windowed self) {first second : Nat} {firstVma secondVma : SimVma}
    {page : Int} (firstMember : first ∈ self.tokens) (secondMember : second ∈ self.tokens)
    (firstRegion : firstVma ∈ (self.object first).vmas)
    (secondRegion : secondVma ∈ (self.object second).vmas)
    (firstTouches : firstVma.Touches page) (secondTouches : secondVma.Touches page) :
    first = second := by
  have firstBetween := firstTouches.between
  have secondBetween := secondTouches.between
  have firstInside := windowed.inside first firstMember firstVma firstRegion
  have secondInside := windowed.inside second secondMember secondVma secondRegion
  obtain ⟨-, -, firstEnd⟩ := windowed.used first firstMember
  obtain ⟨-, -, secondEnd⟩ := windowed.used second secondMember
  have firstOffset := getRandomAslrOffset_eq first
  have secondOffset := getRandomAslrOffset_eq second
  unfold windowStart at firstInside secondInside
  omega

/-- Steps that leave the memory the same keep the windows. -/
theorem same (windowed : Windowed self) (same : SameMemory self after) (kept : Kept after) :
    Windowed after := by
  obtain ⟨fresh, tokens, blank⟩ := same.tokens
  refine ⟨kept, fun id member => ?_, fun id member vma region => ?_, fun page frame region => ?_⟩
  · rw [tokens] at member
    rcases List.mem_append.mp member with earlier | new
    · rw [(same.charge id earlier).1]
      exact windowed.used id earlier
    · have offset := getRandomAslrOffset_eq id
      rw [(blank id new).2]
      exact ⟨Int.le_refl 0, Int.dvd_zero _, by omega⟩
  · rw [tokens] at member
    rcases List.mem_append.mp member with earlier | new
    · rw [same.vmas id (.inl earlier)] at region
      rw [(same.charge id earlier).1]
      exact windowed.inside id earlier vma region
    · rw [(blank id new).1] at region
      exact absurd region List.not_mem_nil
  · rw [same.paging]
    exact windowed.mapped page frame (same.hasRegion.mp region)

/-- The next region of a token starts where its last one ends. -/
theorem startAddr_newRegion (windowed : Windowed self) {tokenId : Nat}
    (member : tokenId ∈ self.tokens) (size : Int) (physPtr : Nat) :
    (self.newRegion tokenId size physPtr).startAddr =
      windowStart tokenId + (self.object tokenId).memoryUsed := by
  obtain ⟨positive, aligned, -⟩ := windowed.used tokenId member
  change nextVirtualAddr tokenId _ = _
  rw [nextVirtualAddr, getRandomAslrOffset_xor tokenId positive aligned, windowStart]
  omega

/-- The pages of a new region that fits are those of no other region. -/
theorem newRegion_apart (windowed : Windowed self) {tokenId : Nat} (member : tokenId ∈ self.tokens)
    {size : Int} (fits : Fits self tokenId size) (physPtr : Nat) {id : Nat} {other : SimVma}
    {page : Int} (idMember : id ∈ self.tokens) (region : other ∈ (self.object id).vmas)
    (touched : other.Touches page) :
    ¬ (self.newRegion tokenId size physPtr).Touches page := by
  intro touches
  have start := windowed.startAddr_newRegion member size physPtr
  have length : (self.newRegion tokenId size physPtr).size = pagesFor size * pageSize := rfl
  have between := touches.between
  have otherBetween := touched.between
  have otherInside := windowed.inside id idMember other region
  by_cases same : id = tokenId
  · -- behind the regions of its own token
    subst same
    omega
  · -- in the window of its token, which is not that of the other
    obtain ⟨positive, -, -⟩ := windowed.used tokenId member
    obtain ⟨-, -, otherEnd⟩ := windowed.used id idMember
    have windowEnd := fits.2
    have offset := getRandomAslrOffset_eq tokenId
    have otherOffset := getRandomAslrOffset_eq id
    unfold windowStart at start otherInside
    omega

/-- A region that fits is placed in its token's window, beside the others. -/
theorem register (windowed : Windowed self) {tokenId : Nat} (member : tokenId ∈ self.tokens)
    {size : Int} {physPtr : Nat} {pool : SimPool} (fits : Fits self tokenId size)
    (kept : Kept ({ self with pool }.register tokenId (self.newRegion tokenId size physPtr))) :
    Windowed ({ self with pool }.register tokenId (self.newRegion tokenId size physPtr)) := by
  set vma := self.newRegion tokenId size physPtr with vma_def
  have here := object_register_self { self with pool } tokenId vma
  have elsewhere {id : Nat} (different : id ≠ tokenId) :
      ({ self with pool }.register tokenId vma).object id = self.object id :=
    object_register_of_ne { self with pool } tokenId vma different
  obtain ⟨positive, aligned, -⟩ := windowed.used tokenId member
  have start : vma.startAddr = windowStart tokenId + (self.object tokenId).memoryUsed :=
    windowed.startAddr_newRegion member size physPtr
  have length : vma.size = pagesFor size * pageSize := rfl
  have nonnegative : 0 ≤ pagesFor size * pageSize := by
    have := fits.1
    unfold pagesFor pageSize
    omega
  have windowEnd := fits.2
  refine ⟨kept, fun id idMember => ?_, fun id idMember other region => ?_, ?_⟩
  · by_cases same : id = tokenId
    · rw [same, here]
      refine ⟨Int.add_nonneg positive nonnegative, Int.dvd_add aligned (Int.dvd_mul_left _ _), ?_⟩
      change _ + ((self.object tokenId).memoryUsed + _) ≤ _
      omega
    · rw [elsewhere same]
      exact windowed.used id idMember
  · by_cases same : id = tokenId
    · subst same
      rw [here] at region ⊢
      change _ ∧ _ ≤ windowStart id + ((self.object id).memoryUsed + vma.size)
      rcases List.mem_append.mp region with earlier | new
      · have inside := windowed.inside id idMember other earlier
        omega
      · rw [List.mem_singleton.mp new]
        omega
    · rw [elsewhere same] at region ⊢
      exact windowed.inside id idMember other region
  · rintro page frame ⟨id, idMember, other, region, covers⟩
    refine SimPaging.map_eq_some_iff.mpr ?_
    have old (earlier : other ∈ (self.object id).vmas) :
        ¬ vma.Touches page ∧ self.paging page = some frame :=
      ⟨windowed.newRegion_apart member fits physPtr idMember earlier covers.touches,
        windowed.mapped page frame ⟨id, idMember, other, earlier, covers⟩⟩
    by_cases same : id = tokenId
    · subst same
      rw [here] at region
      rcases List.mem_append.mp region with earlier | new
      · exact .inr (old earlier)
      · exact .inl (List.mem_singleton.mp new ▸ covers)
    · rw [elsewhere same] at region
      exact .inr (old region)

/-- Without a token's regions the others keep their windows. -/
theorem reclaimToken (windowed : Windowed self) (tokenId : Nat) :
    Windowed (self.reclaimToken tokenId) := by
  have others {id : Nat} := @object_of_mem_reclaimToken _ self tokenId
    windowed.kept.live.distinct id
  refine ⟨windowed.kept.reclaimToken tokenId, fun id member => ?_, fun id member vma region => ?_,
    ?_⟩
  · obtain ⟨-, inTable, same⟩ := others member
    rw [same]
    exact windowed.used id inTable
  · obtain ⟨-, inTable, same⟩ := others member
    rw [same] at region ⊢
    exact windowed.inside id inTable vma region
  · rintro page frame ⟨id, member, vma, region, covers⟩
    obtain ⟨different, inTable, same⟩ := others member
    rw [same] at region
    refine (self.paging_reclaimToken tokenId).mpr ⟨fun other otherRegion touches => ?_,
      windowed.mapped page frame ⟨id, inTable, vma, region, covers⟩⟩
    by_cases present : tokenId ∈ self.tokens
    · have same := windowed.same_token present inTable otherRegion region touches covers.touches
      exact different same.symm
    · rw [windowed.kept.retired tokenId present] at otherRegion
      exact absurd otherRegion List.not_mem_nil

end Windowed

/-- One effect keeps the windows. -/
theorem Windowed.effect (windowed : Windowed self) (effect : Effect RegistersWithin self after) :
    Windowed after := by
  have kept := windowed.kept.effect effect
  rcases memory_cases windowed.kept.live effect with same | ⟨tokenId, size, physPtr, pool, member,
    capable, quota, fits, answered, rfl⟩ | ⟨tokenId, rfl⟩
  · exact windowed.same same kept
  · have block : (self.pool.alloc (pagesFor size)).1 ≠ none := by
      rw [answered]
      exact Option.some_ne_none physPtr
    exact windowed.register member (fits ⟨member, capable, quota, block⟩) kept
  · exact windowed.reclaimToken tokenId

/-- No window is used at first. -/
theorem Windowed.init (clock lifetimeSeconds : Time) :
    Windowed (KernelSimulation.init clock lifetimeSeconds) where
  kept := .init clock lifetimeSeconds
  used := by
    intro id _
    have offset := getRandomAslrOffset_eq id
    exact ⟨Int.le_refl 0, Int.dvd_zero _, by change _ + (0 : Int) ≤ _; omega⟩
  inside := fun _ _ _ region => absurd region List.not_mem_nil
  mapped := by
    rintro page frame ⟨id, _, vma, region, _⟩
    exact absurd region List.not_mem_nil

/-- **The page dictionary is the regions.** In every run in which no size that is granted is
negative and no region that is granted leaves the 16 MB of its token, the pages that are mapped in
a state, and their frames, are exactly those of the regions of the tokens in the table. -/
theorem mapped_iff_region (clock lifetimeSeconds : Time)
    (calls : List (SimCall Time))
    (fits : (simulation Time).Along (Allocates RegistersWithin) (.init clock lifetimeSeconds)
      calls) :
    (simulation Time).Always
      (fun kernel => ∀ page frame, kernel.paging page = some frame ↔ HasRegion kernel page frame)
      (.init clock lifetimeSeconds) calls :=
  always_of_effects Windowed (fun _ _ windowed effect => windowed.effect effect)
    (fun _ windowed page frame => ⟨windowed.kept.mapped page frame, windowed.mapped page frame⟩)
    (.init clock lifetimeSeconds) fits

/-- A request for a token of an administrator, below the root token. -/
def sampleRequest : SimTokenRequest Int where
  name := "DefaultAdmin"
  privilege := .admin
  parentId := some 1
  memoryLimit := 128 * 1024 * 1024
  isPermanent := false
  lifetimeSeconds := 60
  capabilities := 0x1FF

theorem mapped_iff_region_sample :
    (simulation Int).Always
      (fun kernel => ∀ page frame, kernel.paging page = some frame ↔ HasRegion kernel page frame)
      (.init 0 999999) [.createToken sampleRequest 5, .allocateMemory 2 5000 true false,
        .runProcess 2 10 6 6, .tick 60 5] :=
  mapped_iff_region 0 999999 [.createToken sampleRequest 5, .allocateMemory 2 5000 true false,
    .runProcess 2 10 6 6, .tick 60 5]
    ⟨trivial, fun _ => (by decide : Fits ((simulation Int).step (.init 0 999999)
      (.createToken sampleRequest 5)) 2 5000), trivial, trivial, trivial⟩

/-! ### Quotas -/

/-- What a token is charged is the sum of the sizes of its regions, and exceeds its limit by less
than a page. -/
structure Charged (kernel : KernelSimulation Time) : Prop where
  live : Live kernel
  sizes : ∀ id ∈ kernel.tokens, ∀ vma ∈ (kernel.object id).vmas,
    0 < vma.size ∧ (pageSize : Int) ∣ vma.size
  sum : ∀ id ∈ kernel.tokens,
    (kernel.object id).memoryUsed = ((kernel.object id).vmas.map SimVma.size).sum
  quota : ∀ id ∈ kernel.tokens, (kernel.object id).vmas ≠ [] →
    (kernel.object id).memoryUsed < (kernel.object id).memoryLimit + pageSize ∧
      (kernel.object id).capabilities &&& SimCapability.memAlloc ≠ 0

namespace Charged

/-- The allocator has no block for no pages. -/
theorem pages_ne_zero {pool next : SimPool} {pages : Int} {physPtr : Nat}
    (answered : pool.alloc pages = (some physPtr, next)) : pages ≠ 0 := by
  rintro rfl
  cases answered

omit [Clock Time] in
/-- Steps that leave the memory the same keep the accounts. -/
theorem same (charged : Charged self) (same : SameMemory self after) (live : Live after) :
    Charged after := by
  obtain ⟨fresh, tokens, blank⟩ := same.tokens
  have split {id : Nat} (member : id ∈ after.tokens) : id ∈ self.tokens ∨ id ∈ fresh :=
    List.mem_append.mp (tokens ▸ member)
  refine ⟨live, fun id member vma region => ?_, fun id member => ?_, fun id member some => ?_⟩
  · rcases split member with earlier | new
    · exact charged.sizes id earlier vma (same.vmas id (.inl earlier) ▸ region)
    · rw [(blank id new).1] at region
      exact absurd region List.not_mem_nil
  · rcases split member with earlier | new
    · rw [(same.charge id earlier).1, same.vmas id (.inl earlier)]
      exact charged.sum id earlier
    · rw [(blank id new).1, (blank id new).2]
      rfl
  · rcases split member with earlier | new
    · obtain ⟨used, limit, capabilities⟩ := same.charge id earlier
      rw [used, limit, capabilities]
      exact charged.quota id earlier (same.vmas id (.inl earlier) ▸ some)
    · exact absurd (blank id new).1 some

omit [Clock Time] in
/-- The quota is checked for the size, and charged for its pages. -/
theorem register (charged : Charged self) {tokenId : Nat} {size : Int} {physPtr : Nat}
    {pool : SimPool} (capable : (self.object tokenId).capabilities &&& SimCapability.memAlloc ≠ 0)
    (quota : (self.object tokenId).memoryUsed + size ≤ (self.object tokenId).memoryLimit)
    (positive : 0 ≤ size) (some : pagesFor size ≠ 0) :
    Charged ({ self with pool }.register tokenId (self.newRegion tokenId size physPtr)) := by
  set vma := self.newRegion tokenId size physPtr with vma_def
  have here := object_register_self { self with pool } tokenId vma
  have elsewhere {id : Nat} (different : id ≠ tokenId) :
      ({ self with pool }.register tokenId vma).object id = self.object id :=
    object_register_of_ne { self with pool } tokenId vma different
  have length : vma.size = pagesFor size * pageSize := rfl
  have bounds : 0 < vma.size ∧ vma.size < size + pageSize := by
    rw [length]
    unfold pagesFor pageSize at *
    omega
  refine ⟨{ charged.live with }, fun id idMember other region => ?_, fun id idMember => ?_,
    fun id idMember nonempty => ?_⟩
  · by_cases same : id = tokenId
    · subst same
      rw [here] at region
      rcases List.mem_append.mp region with earlier | new
      · exact charged.sizes id idMember other earlier
      · rw [List.mem_singleton.mp new]
        exact ⟨bounds.1, Int.dvd_mul_left _ _⟩
    · rw [elsewhere same] at region
      exact charged.sizes id idMember other region
  · by_cases same : id = tokenId
    · subst same
      rw [here, List.map_append, List.sum_append, ← charged.sum id idMember, List.map_singleton,
        List.sum_singleton]
    · rw [elsewhere same]
      exact charged.sum id idMember
  · by_cases same : id = tokenId
    · subst same
      rw [here]
      refine ⟨?_, capable⟩
      change (self.object id).memoryUsed + vma.size < (self.object id).memoryLimit + _
      omega
    · rw [elsewhere same] at nonempty ⊢
      exact charged.quota id idMember nonempty

omit [Clock Time] in
/-- A reclaimed token has no regions left to account for. -/
theorem reclaimToken (charged : Charged self) (tokenId : Nat) :
    Charged (self.reclaimToken tokenId) := by
  have others {id : Nat} := @object_of_mem_reclaimToken _ self tokenId charged.live.distinct id
  refine ⟨charged.live.reclaimToken tokenId, fun id member => ?_, fun id member => ?_,
    fun id member => ?_⟩
  · obtain ⟨-, inTable, same⟩ := others member
    rw [same]
    exact charged.sizes id inTable
  · obtain ⟨-, inTable, same⟩ := others member
    rw [same]
    exact charged.sum id inTable
  · obtain ⟨-, inTable, same⟩ := others member
    rw [same]
    exact charged.quota id inTable

/-- One effect keeps the accounts. -/
theorem effect (charged : Charged self)
    (effect : Effect (fun _ _ size => 0 ≤ size) self after) : Charged after := by
  rcases memory_cases charged.live effect with same | ⟨tokenId, size, physPtr, pool, -, capable,
    quota, positive, answered, rfl⟩ | ⟨tokenId, rfl⟩
  · exact charged.same same (charged.live.effect effect)
  · exact charged.register capable quota positive (pages_ne_zero answered)
  · exact charged.reclaimToken tokenId

/-- Nothing is charged at first. -/
theorem init (clock lifetimeSeconds : Time) :
    Charged (KernelSimulation.init clock lifetimeSeconds) where
  live := .init clock lifetimeSeconds
  sizes := fun _ _ _ region => absurd region List.not_mem_nil
  sum := fun _ _ => rfl
  quota := fun _ _ some => absurd rfl some

end Charged

/-- **Quotas hold.** In every run in which no size is negative, a token in the table is charged the
sum of the sizes of its regions, which are whole pages; it has regions only with the capability
for memory, and then exceeds its limit by less than a page. -/
theorem charged_run (clock lifetimeSeconds : Time)
    (calls : List (SimCall Time))
    (sized : (simulation Time).Along (Allocates fun _ _ size => 0 ≤ size)
      (.init clock lifetimeSeconds) calls) :
    (simulation Time).Always Charged (.init clock lifetimeSeconds) calls :=
  always_of_effects Charged (fun _ _ charged effect => charged.effect effect)
    (fun _ charged => charged) (.init clock lifetimeSeconds) sized

theorem charged_run_sample :
    (simulation Int).Always Charged (.init 0 999999)
      [.createToken sampleRequest 5, .allocateMemory 2 5000 true false, .tick 60 5] :=
  charged_run 0 999999
    [.createToken sampleRequest 5, .allocateMemory 2 5000 true false, .tick 60 5]
    ⟨trivial, (by decide : (0 : Int) ≤ 5000), trivial, trivial⟩

end KernelSimulation

end Lofita.Kernel
