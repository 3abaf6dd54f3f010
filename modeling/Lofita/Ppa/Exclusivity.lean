import Mathlib.Data.Nat.Log
import Lofita.Foundation.Run
import Lofita.Ppa.Representation

/-! # Exclusive ownership of pages

The allocator together with its clients: a call allocates a block or frees one
that is currently held. The blocks held at any time lie in the pool and are
pairwise disjoint along every run that stays clear of two defects
(`exclusive_run`): a request for a single page, which is served from the free
bits that initialisation leaves inside the maximal blocks, and a free that joins
a buddy on the left, which leaves the free bit of the right half behind.
-/

namespace Lofita.Ppa

open Lofita.Foundation

/-- A block somebody holds: the pointer returned and the pages asked for. -/
structure Holding where
  addr : Nat
  pages : Nat
deriving DecidableEq, Repr

/-- The first page of a held block. -/
def Holding.first (pool : MemPool) (holding : Holding) : Nat :=
  (holding.addr - pool.base) / pageSize

/-- The number of pages of a held block. -/
def Holding.size (holding : Holding) : Nat := 2 ^ Nat.clog 2 holding.pages

/-- The allocator and the blocks its clients hold. -/
structure Ownership where
  ppa : PpaState
  held : List Holding

/-- A request, or a block given back. -/
inductive Call where
  | alloc (pages : Nat)
  | free (addr pages : Nat)

/-- The allocator answers, and its clients keep account. -/
def Ownership.step (pool : MemPool) (state : Ownership) : Call → Ownership
  | .alloc pages =>
      match physAlloc pool pages state.ppa with
      | (some addr, ppa) => { ppa, held := ⟨addr, pages⟩ :: state.held }
      | (none, ppa) => { ppa, held := state.held }
  | .free addr pages =>
      { ppa := physFree pool (some addr) pages state.ppa
        held := state.held.eraseP fun holding => holding.addr = addr }

/-- The allocator under its calls. -/
def allocator (pool : MemPool) : System Ownership Call := ⟨Ownership.step pool⟩

/-- The state after `ppaInit`, with nothing held. -/
def Ownership.boot : Ownership := { ppa := Ppa.boot, held := [] }

/-- Clients free only what they hold. -/
def FreesHeld (state : Ownership) : Call → Prop
  | .alloc _ => True
  | .free addr _ => ∃ holding ∈ state.held, holding.addr = addr

instance (state : Ownership) : ∀ call, Decidable (FreesHeld state call)
  | .alloc _ => .isTrue trivial
  | .free addr _ => inferInstanceAs (Decidable (∃ holding ∈ state.held, holding.addr = addr))

/-- The call neither asks for a single page nor joins a block with a buddy on
its left. -/
def SparesStaleBits (pool : MemPool) (state : Ownership) : Call → Prop
  | .alloc pages => pages ≠ 1
  | .free addr _ => ∀ page ∈ startPage pool addr, ¬ MergesLeft state.ppa.pageMeta page

instance (pool : MemPool) (state : Ownership) : ∀ call, Decidable (SparesStaleBits pool state call)
  | .alloc pages => inferInstanceAs (Decidable (pages ≠ 1))
  | .free addr _ =>
      inferInstanceAs (Decidable (∀ page ∈ startPage pool addr,
        ¬ MergesLeft state.ppa.pageMeta page))

/-- The held blocks start at pages of the pool, lie inside it and share no
page. -/
structure Exclusive (pool : MemPool) (held : List Holding) : Prop where
  inside : ∀ holding ∈ held, pool.base ≤ holding.addr ∧
    holding.addr = pool.base + holding.first pool * pageSize ∧
    holding.first pool + holding.size ≤ totalPages
  disjoint : held.Pairwise fun first second =>
    first.first pool + first.size ≤ second.first pool ∨
      second.first pool + second.size ≤ first.first pool

/-- The blocks held are blocks of a tiling that `page_meta` describes from order
1 on, each recorded as not free and held once. -/
def Tracks (pool : MemPool) (state : Ownership) : Prop :=
  state.ppa.initialized = true ∧
  (state.held.map Holding.addr).Nodup ∧
  ∃ tiling : Tiling totalPages, Represents 1 state.ppa.pageMeta tiling ∧
    ∀ holding ∈ state.held, ∃ page, holding.addr = pool.base + page * pageSize ∧
      tiling.order page = some (Nat.clog 2 holding.pages) ∧
      (state.ppa.pageMeta page).isFree = false

variable {pool : MemPool} {state : Ownership}

/-- At first nothing is held. -/
theorem tracks_boot (pool : MemPool) : Tracks pool Ownership.boot :=
  ⟨rfl, List.nodup_nil, _, represents_ppaInit, fun _ member => absurd member List.not_mem_nil⟩

/-- The first page of a block at a page's address. -/
theorem first_eq {holding : Holding} {page : Nat}
    (addr : holding.addr = pool.base + page * pageSize) : holding.first pool = page := by
  unfold Holding.first
  rw [addr, Nat.add_sub_cancel_left, Nat.mul_div_cancel page (by decide)]

/-- Different pages have different addresses. -/
theorem addr_inj {page other : Nat}
    (same : pool.base + page * pageSize = pool.base + other * pageSize) : page = other :=
  Nat.eq_of_mul_eq_mul_right (by decide) (Nat.add_left_cancel same)

/-- Tracked blocks share no page. -/
theorem Tracks.exclusive (tracks : Tracks pool state) : Exclusive pool state.held := by
  obtain ⟨_, nodup, tiling, _, blocks⟩ := tracks
  constructor
  · intro holding member
    obtain ⟨page, addr, found, _⟩ := blocks holding member
    rw [first_eq addr]
    exact ⟨by omega, addr, tiling.inside found⟩
  · rw [List.Nodup, List.pairwise_map] at nodup
    apply nodup.imp_of_mem
    intro first second memberFirst memberSecond different
    obtain ⟨page, addr, found, _⟩ := blocks first memberFirst
    obtain ⟨next, addrNext, foundNext, _⟩ := blocks second memberSecond
    rw [first_eq addr, first_eq addrNext]
    rw [addr, addrNext] at different
    rcases Nat.lt_trichotomy page next with before | same | after
    · exact Or.inl (tiling.apart found foundNext before)
    · exact absurd (same ▸ rfl) different
    · exact Or.inr (tiling.apart foundNext found after)

/-- The order of a served request is the binary logarithm of its pages, rounded
up. -/
theorem reqOrder_eq_clog {pages req : Nat} (found : reqOrder pages = some req) :
    req = Nat.clog 2 pages := by
  obtain ⟨room, tight, _⟩ := reqOrder_eq_some found
  apply le_antisymm
  · by_contra smaller
    have := tight (Nat.clog 2 pages) (not_le.mp smaller)
    exact absurd (Nat.le_pow_clog (by decide) pages) (not_le.mpr this)
  · exact Nat.clog_le_of_le_pow room

/-- A request for more than one page has order at least one. -/
theorem one_le_of_reqOrder {pages req : Nat} (found : reqOrder pages = some req)
    (several : pages ≠ 1) (some_pages : pages ≠ 0) : 1 ≤ req := by
  obtain ⟨room, _, _⟩ := reqOrder_eq_some found
  by_contra zero
  cases Nat.lt_one_iff.mp (not_le.mp zero)
  rw [Nat.pow_zero] at room
  omega

/-- A block that is answered shares no page with the others. -/
theorem Tracks.alloc (tracks : Tracks pool state) {pages : Nat} (several : pages ≠ 1) :
    Tracks pool (state.step pool (.alloc pages)) := by
  obtain ⟨initialized, nodup, tiling, represents, blocks⟩ := tracks
  have unserved (nothing : physAlloc pool pages state.ppa = (none, state.ppa)) :
      Tracks pool (state.step pool (.alloc pages)) := by
    simp only [Ownership.step, nothing]
    exact ⟨initialized, nodup, tiling, represents, blocks⟩
  by_cases empty : pages = 0
  · exact unserved (by simp only [physAlloc, initialized, empty, ↓reduceIte])
  cases order : reqOrder pages with
  | none => exact unserved (physAlloc_of_reqOrder_none initialized order)
  | some req =>
      rcases physAlloc_represents pool initialized represents order
        (one_le_of_reqOrder order several empty) with nothing | ⟨addr, next, answer, served⟩
      · exact unserved nothing
      · obtain ⟨page, after, addrIs, afterRepresents, found, held, free, others⟩ :=
          served.exists_block
        -- The block was free before, so nobody held it.
        have fresh : ∀ holding ∈ state.held, ∀ other,
            holding.addr = pool.base + other * pageSize →
              (state.ppa.pageMeta other).isFree = false → other ≠ page := by
          rintro _ _ other _ taken rfl
          rw [free] at taken
          cases taken
        simp only [Ownership.step, answer]
        refine ⟨served.initialized, ?_, after, afterRepresents, ?_⟩
        · rw [List.map_cons, List.nodup_cons]
          refine ⟨fun member => ?_, nodup⟩
          obtain ⟨holding, present, same⟩ := List.mem_map.mp member
          obtain ⟨other, otherAddr, _, taken⟩ := blocks holding present
          exact fresh holding present other otherAddr taken
            (addr_inj (otherAddr.symm.trans (same.trans addrIs)))
        · intro holding member
          rcases List.mem_cons.mp member with rfl | present
          · exact ⟨page, addrIs, reqOrder_eq_clog order ▸ found, held⟩
          · obtain ⟨other, otherAddr, otherFound, taken⟩ := blocks holding present
            obtain ⟨kept, untouched⟩ :=
              others other _ (fresh holding present other otherAddr taken) otherFound
            exact ⟨other, otherAddr, kept, untouched ▸ taken⟩

/-- A free does not start the allocator anew. -/
theorem physFree_initialized (pool : MemPool) (ptr : Option Nat) (pages : Nat) (state : PpaState) :
    (physFree pool ptr pages state).initialized = state.initialized := by
  unfold physFree
  split
  · split
    · rfl
    · split <;> rfl
  · rfl

/-- Releasing an address that is held once leaves no holding at it. -/
theorem addr_ne_of_mem_eraseP {held : List Holding} {addr : Nat} {holding : Holding}
    (nodup : (held.map Holding.addr).Nodup)
    (remains : holding ∈ held.eraseP fun other => other.addr = addr) : holding.addr ≠ addr := by
  induction held with
  | nil => cases remains
  | cons head tail ih =>
      rw [List.map_cons, List.nodup_cons] at nodup
      by_cases here : head.addr = addr
      · rw [List.eraseP_cons_of_pos (by simpa using here)] at remains
        rintro rfl
        exact nodup.1 (List.mem_map.mpr ⟨holding, remains, here.symm⟩)
      · rw [List.eraseP_cons_of_neg (by simpa using here), List.mem_cons] at remains
        rcases remains with rfl | later
        · exact here
        · exact ih nodup.2 later

/-- A block given back is no longer held. -/
theorem Tracks.free (tracks : Tracks pool state) {addr : Nat} (pages : Nat)
    (holds : ∃ holding ∈ state.held, holding.addr = addr)
    (rightwards : ∀ page ∈ startPage pool addr, ¬ MergesLeft state.ppa.pageMeta page) :
    Tracks pool (state.step pool (.free addr pages)) := by
  obtain ⟨initialized, nodup, tiling, represents, blocks⟩ := tracks
  obtain ⟨freed, member, rfl⟩ := holds
  obtain ⟨page, addrIs, found, held⟩ := blocks freed member
  have inPool := represents.lt_totalPages found
  have calm : ¬ MergesLeft state.ppa.pageMeta page := by
    apply rightwards
    rw [addrIs, startPage_of_page inPool]
    rfl
  obtain ⟨after, afterRepresents, others⟩ :=
    physFree_represents pool initialized represents found held calm pages
  have sublist : (state.held.eraseP fun holding => holding.addr = freed.addr).Sublist state.held :=
    List.eraseP_sublist
  refine ⟨?_, nodup.sublist (sublist.map _), after, ?_, ?_⟩
  · exact (physFree_initialized pool (some freed.addr) pages state.ppa).trans initialized
  · simpa only [Ownership.step, addrIs] using afterRepresents
  · intro holding remaining
    have remains : holding ∈ state.held.eraseP fun other => other.addr = freed.addr := remaining
    have present := sublist.subset remains
    obtain ⟨other, otherAddr, otherFound, taken⟩ := blocks holding present
    have different : other ≠ page := by
      rintro rfl
      exact addr_ne_of_mem_eraseP nodup remains (otherAddr.trans addrIs.symm)
    obtain ⟨kept, untouched⟩ := others other _ different otherFound taken
    refine ⟨other, otherAddr, kept, ?_⟩
    simp only [Ownership.step, addrIs, untouched, taken]

/-- **No page has two holders.** In every run from initialisation in which
clients free only what they hold, no call asks for a single page and no free
joins a block with a buddy on its left, the held blocks lie inside the pool and
are pairwise disjoint. -/
theorem exclusive_run (pool : MemPool) (calls : List Call)
    (frees : (allocator pool).Along FreesHeld Ownership.boot calls)
    (spares : (allocator pool).Along (SparesStaleBits pool) Ownership.boot calls) :
    Exclusive pool ((allocator pool).run Ownership.boot calls).held := by
  apply Tracks.exclusive
  apply System.invariant_run _ _ (tracks_boot pool) (System.along_and.mpr ⟨frees, spares⟩)
  rintro state (pages | ⟨addr, pages⟩) tracks ⟨holds, quiet⟩
  · exact tracks.alloc quiet
  · exact tracks.free pages holds quiet

/-- The pool at an address of its own, for the runs below. -/
def samplePool : MemPool := { base := 0x200000, aligned := by decide, nonnull := by decide }

theorem exclusive_run_sample :
    Exclusive samplePool ((allocator samplePool).run Ownership.boot
      [.alloc 512, .alloc 300, .free 0x200000 512, .alloc 1024]).held :=
  exclusive_run samplePool _ (by decide +kernel) (by decide +kernel)

/-- A page handed out for a single-page request is handed out again with the
block around it. -/
theorem not_exclusive_single_page :
    (allocator samplePool).Along FreesHeld Ownership.boot [.alloc 1, .alloc 1024] ∧
      ¬ Exclusive samplePool
        ((allocator samplePool).run Ownership.boot [.alloc 1, .alloc 1024]).held := by
  refine ⟨by decide, fun exclusive => ?_⟩
  have held : ((allocator samplePool).run Ownership.boot [.alloc 1, .alloc 1024]).held =
      [⟨0x200000, 1024⟩, ⟨0x201000, 1⟩] := by decide
  have apart := exclusive.disjoint
  rw [held] at apart
  revert apart
  decide

/-- A right half that is joined to its free left buddy is handed out on its own
and again with the joined block. -/
theorem not_exclusive_left_merge :
    let calls := [.alloc 512, .alloc 512, .free 0x200000 512, .free 0x400000 512, .alloc 512,
      .alloc 1024]
    (allocator samplePool).Along FreesHeld Ownership.boot calls ∧
      ¬ Exclusive samplePool ((allocator samplePool).run Ownership.boot calls).held := by
  refine ⟨by decide +kernel, fun exclusive => ?_⟩
  have held : ((allocator samplePool).run Ownership.boot [.alloc 512, .alloc 512,
      .free 0x200000 512, .free 0x400000 512, .alloc 512, .alloc 1024]).held =
      [⟨0x200000, 1024⟩, ⟨0x400000, 512⟩] := by decide +kernel
  have apart := exclusive.disjoint
  rw [held] at apart
  revert apart
  decide

end Lofita.Ppa
