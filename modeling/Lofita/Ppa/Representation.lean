import Mathlib.Data.List.Basic
import Mathlib.Data.Nat.Bitwise
import Lofita.Foundation.Tiling
import Lofita.Ppa.Model

/-! # Page metadata as a tiling of the pool

`Represents floor pageMeta tiling` says that `page_meta` describes a tiling of
the pool by blocks of order `floor` and above: the first page of each block
carries its order, and a page inside a block carries a free bit only under an
order below `floor`, where no search of order `floor` or above looks. With
`floor = 0` no page inside a block is marked free at all. The state `ppaInit`
builds satisfies it only from `floor = 1` on, because initialisation leaves
every page inside a maximal block marked as a free block of order 0
(`represents_ppaInit`).

The three loops that write `page_meta` keep the representation:
`splitDown_represents`, `coalesce_represents`, and with them
`physAlloc_represents` and `physFree_represents`. Coalescing keeps it only as
long as the block being freed grows to the right (`MergesLeft`): when it joins a
buddy on its left, the loop moves on to that buddy and leaves the free bit of
the right half in place.
-/

namespace Lofita.Ppa

open Lofita.Foundation

structure Represents (floor : Nat) (pageMeta : PageMeta) (tiling : Tiling totalPages) : Prop where
  head : ∀ {start k}, tiling.order start = some k → (pageMeta start).order = k
  floor_le : ∀ {start k}, tiling.order start = some k → floor ≤ k
  lt_maxOrder : ∀ {start k}, tiling.order start = some k → k < maxOrder
  interior : ∀ {page}, page < totalPages → tiling.order page = none →
    (pageMeta page).isFree = true → (pageMeta page).order < floor

variable {floor : Nat} {pageMeta : PageMeta} {tiling : Tiling totalPages}

/-- A free entry whose order is not below the floor is the first page of a
block of that order. -/
theorem Represents.order_of_free (represents : Represents floor pageMeta tiling) {page k : Nat}
    (below : page < totalPages) (free : (pageMeta page).isFree = true)
    (order : (pageMeta page).order = k) (high : floor ≤ k) : tiling.order page = some k := by
  cases found : tiling.order page with
  | none =>
      have low := represents.interior below found free
      omega
  | some l => rw [← order, represents.head found]

theorem Represents.lt_totalPages (_represents : Represents floor pageMeta tiling) {start k : Nat}
    (found : tiling.order start = some k) : start < totalPages := by
  have inside := tiling.inside found
  have positive := Nat.two_pow_pos k
  omega

/-- The free bit of a block's first page may be written freely. -/
theorem Represents.setFree (represents : Represents floor pageMeta tiling) {start k : Nat}
    (found : tiling.order start = some k) (free : Bool) :
    Represents floor (Function.update pageMeta start { pageMeta start with isFree := free })
      tiling where
  head := by
    intro page l lookup
    by_cases same : page = start
    · subst same
      rw [Function.update_self]
      exact represents.head lookup
    · rw [Function.update_of_ne same]
      exact represents.head lookup
  floor_le := represents.floor_le
  lt_maxOrder := represents.lt_maxOrder
  interior := by
    intro page below absent
    have different : page ≠ start := by
      rintro rfl
      rw [absent] at found
      cases found
    rw [Function.update_of_ne different]
    exact represents.interior below absent

/-! ### Initialisation -/

theorem markHeads_apply (pageMeta : PageMeta) (page : Nat) :
    markHeads pageMeta page =
      if page < totalPages ∧ 2 ^ (maxOrder - 1) ∣ page then
        { pageMeta page with order := maxOrder - 1 }
      else pageMeta page := by
  have upTo : ∀ count, (List.range count).foldl
      (fun entries block =>
        Function.update entries (block * 2 ^ (maxOrder - 1))
          { entries (block * 2 ^ (maxOrder - 1)) with order := maxOrder - 1 }) pageMeta page =
      if page < count * 2 ^ (maxOrder - 1) ∧ 2 ^ (maxOrder - 1) ∣ page then
        { pageMeta page with order := maxOrder - 1 }
      else pageMeta page := by
    intro count
    induction count with
    | zero => simp
    | succ count ih =>
        rw [List.range_succ, List.foldl_append, List.foldl_cons, List.foldl_nil]
        by_cases here : page = count * 2 ^ (maxOrder - 1)
        · subst here
          rw [Function.update_self, ih]
          simp [maxOrder]
        · rw [Function.update_of_ne here, ih]
          apply if_congr _ rfl rfl
          simp only [maxOrder, Nat.add_one_sub_one] at here ⊢
          omega
  have whole : totalPages / 2 ^ (maxOrder - 1) * 2 ^ (maxOrder - 1) = totalPages := by decide
  have all := upTo (totalPages / 2 ^ (maxOrder - 1))
  rw [whole] at all
  unfold markHeads
  exact all

/-- The state the kernel boots with. -/
def boot : PpaState := ppaInit { pageMeta := fun _ => { order := 0, isFree := false },
                                 initialized := false }

theorem boot_pageMeta (page : Nat) :
    boot.pageMeta page =
      { order := if page < totalPages ∧ 2 ^ (maxOrder - 1) ∣ page then maxOrder - 1 else 0,
        isFree := true } := by
  change markHeads (fun _ => { order := 0, isFree := true }) page = _
  rw [markHeads_apply]
  split <;> rfl

/-- Initialisation tiles the pool by maximal blocks, up to free bits at order 0. -/
theorem represents_ppaInit :
    Represents 1 boot.pageMeta (Tiling.uniform totalPages (maxOrder - 1) (by decide)) where
  head := by
    intro start k found
    rw [boot_pageMeta]
    simp only [Tiling.uniform] at found ⊢
    split_ifs at found ⊢ with head
    cases found
    rfl
  floor_le := by
    intro start k found
    simp only [Tiling.uniform] at found
    split_ifs at found
    cases found
    decide
  lt_maxOrder := by
    intro start k found
    simp only [Tiling.uniform] at found
    split_ifs at found
    cases found
    decide
  interior := by
    intro page below absent _
    rw [boot_pageMeta]
    simp only [Tiling.uniform] at absent ⊢
    split_ifs at absent ⊢ with head
    exact Nat.zero_lt_one

/-! ### Searching -/

theorem findFree_eq_some {order remaining i page : Nat}
    (found : findFree pageMeta order remaining i = some page) :
    (pageMeta page).isFree = true ∧ (pageMeta page).order = order ∧
      page < i + remaining * 2 ^ order := by
  induction remaining generalizing i with
  | zero => cases found
  | succ remaining ih =>
      unfold findFree at found
      have positive := Nat.two_pow_pos order
      rw [Nat.succ_mul]
      split_ifs at found with entry
      · cases found
        exact ⟨entry.1, entry.2, by omega⟩
      · obtain ⟨free, same, below⟩ := ih found
        exact ⟨free, same, by omega⟩

/-- The search returns a free entry of an order between the requested one and
the last. -/
theorem findBlock_eq_some {remaining order page current : Nat}
    (found : findBlock pageMeta remaining order = some (page, current)) :
    (pageMeta page).isFree = true ∧ (pageMeta page).order = current ∧ page < totalPages ∧
      order ≤ current ∧ current < order + remaining := by
  induction remaining generalizing order with
  | zero => cases found
  | succ remaining ih =>
      unfold findBlock at found
      split at found
      · next i scanned =>
          cases found
          obtain ⟨free, same, below⟩ := findFree_eq_some scanned
          have whole := Nat.div_mul_le_self totalPages (2 ^ current)
          exact ⟨free, same, by omega, le_rfl, by omega⟩
      · obtain ⟨free, same, below, least, last⟩ := ih found
        exact ⟨free, same, below, by omega, by omega⟩

theorem findOrder_eq_some {pages fuel order req : Nat}
    (tight : ∀ k, k < order → 2 ^ k < pages) (bounded : order < maxOrder)
    (found : findOrder pages fuel order = some req) :
    pages ≤ 2 ^ req ∧ (∀ k, k < req → 2 ^ k < pages) ∧ req < maxOrder := by
  induction fuel generalizing order with
  | zero => cases found
  | succ fuel ih =>
      unfold findOrder at found
      split_ifs at found with small last
      · refine ih (fun k below => ?_) (by omega) found
        rcases Nat.lt_succ_iff_lt_or_eq.mp below with earlier | rfl
        · exact tight k earlier
        · exact small
      · cases found
        exact ⟨Nat.le_of_not_lt small, tight, bounded⟩

/-- The requested order is the least one with room for the pages. -/
theorem reqOrder_eq_some {pages req : Nat} (found : reqOrder pages = some req) :
    pages ≤ 2 ^ req ∧ (∀ k, k < req → 2 ^ k < pages) ∧ req < maxOrder :=
  findOrder_eq_some (fun _ impossible => absurd impossible (Nat.not_lt_zero _)) (by decide) found

/-! ### Splitting and allocating -/

/-- Halving a free block: the left half keeps the first page, the right half is
released. -/
theorem Represents.split (represents : Represents floor pageMeta tiling) {i co : Nat}
    (found : tiling.order i = some (co + 1)) (high : floor ≤ co) :
    Represents floor
      (Function.update (Function.update pageMeta i { pageMeta i with order := co }) (i + 2 ^ co)
        { order := co, isFree := true })
      (tiling.split found) where
  head := by
    intro start k lookup
    simp only [Tiling.split, Function.update_apply] at lookup ⊢
    split_ifs at lookup ⊢ with right left
    · exact Option.some.inj lookup
    · exact Option.some.inj lookup
    · exact represents.head lookup
  floor_le := by
    intro start k lookup
    simp only [Tiling.split, Function.update_apply] at lookup
    split_ifs at lookup
    · exact Option.some.inj lookup ▸ high
    · exact Option.some.inj lookup ▸ high
    · exact represents.floor_le lookup
  lt_maxOrder := by
    intro start k lookup
    have whole := represents.lt_maxOrder found
    simp only [Tiling.split, Function.update_apply] at lookup
    split_ifs at lookup
    · have := Option.some.inj lookup
      omega
    · have := Option.some.inj lookup
      omega
    · exact represents.lt_maxOrder lookup
  interior := by
    intro page below absent
    simp only [Tiling.split, Function.update_apply] at absent ⊢
    split_ifs at absent ⊢ with right left
    exact represents.interior below absent

/-- Splitting down leaves a block of the requested order at the same page and
does not touch any other block. -/
theorem splitDown_represents {i req current : Nat} (represents : Represents floor pageMeta tiling)
    (found : tiling.order i = some current) (high : floor ≤ req) (enough : req ≤ current) :
    ∃ after : Tiling totalPages, Represents floor (splitDown i req current pageMeta) after ∧
      after.order i = some req ∧
      ∀ start k, start ≠ i → tiling.order start = some k →
        after.order start = some k ∧ splitDown i req current pageMeta start = pageMeta start := by
  induction current generalizing pageMeta tiling with
  | zero =>
      cases Nat.le_zero.mp enough
      exact ⟨tiling, represents, found, fun start k _ lookup => ⟨lookup, rfl⟩⟩
  | succ co ih =>
      unfold splitDown
      split_ifs with larger
      · have double := Nat.pow_succ 2 co
        have positive := Nat.two_pow_pos co
        have left : (tiling.split found).order i = some co := by
          have proper : i ≠ i + 2 ^ co := by omega
          simp only [Tiling.split, Function.update_of_ne proper, Function.update_self]
        obtain ⟨after, afterRepresents, served, others⟩ :=
          ih (represents.split found (by omega)) left (by omega)
        refine ⟨after, afterRepresents, served, fun start k different lookup => ?_⟩
        have outside : start ≠ i + 2 ^ co := by
          rintro rfl
          rw [tiling.order_eq_none_of_inside found (by omega) (by omega)] at lookup
          cases lookup
        have kept : (tiling.split found).order start = some k := by
          simp only [Tiling.split, Function.update_of_ne outside, Function.update_of_ne different,
            lookup]
        obtain ⟨same, untouched⟩ := others start k different kept
        refine ⟨same, untouched.trans ?_⟩
        rw [Function.update_of_ne outside, Function.update_of_ne different]
      · have same : req = co + 1 := by omega
        exact ⟨tiling, represents, same ▸ found, fun start k _ lookup => ⟨lookup, rfl⟩⟩

section Calls

variable {pool : MemPool} {state : PpaState}

/-- What a served request does to the pool: the returned block was free, is now
a held block of the requested order, and every other block but the one it was
cut from is as before. -/
structure Served (floor : Nat) (pool : MemPool) (state next : PpaState)
    (tiling : Tiling totalPages) (addr req : Nat) : Prop where
  exists_block : ∃ (page : Nat) (after : Tiling totalPages),
    addr = pool.base + page * pageSize ∧ Represents floor next.pageMeta after ∧
    after.order page = some req ∧ (next.pageMeta page).isFree = false ∧
    (state.pageMeta page).isFree = true ∧
    ∀ start k, start ≠ page → tiling.order start = some k →
      after.order start = some k ∧ next.pageMeta start = state.pageMeta start
  initialized : next.initialized = true

/-- A request is refused, or served from the first block found. -/
theorem physAlloc_cases (pool : MemPool) (initialized : state.initialized = true) (pages : Nat) :
    physAlloc pool pages state = (none, state) ∨
      ∃ req page current, pages ≠ 0 ∧ reqOrder pages = some req ∧
        findBlock state.pageMeta (maxOrder - req) req = some (page, current) ∧
        physAlloc pool pages state = (some (pool.base + page * pageSize),
          { pageMeta := Function.update (splitDown page req current state.pageMeta) page
              { splitDown page req current state.pageMeta page with isFree := false }
            initialized := true }) := by
  by_cases empty : pages = 0
  · left
    simp only [physAlloc, initialized, empty, ↓reduceIte]
  cases order : reqOrder pages with
  | none =>
      left
      simp only [physAlloc, initialized, empty, order, ↓reduceIte]
  | some req =>
      cases searched : findBlock state.pageMeta (maxOrder - req) req with
      | none =>
          left
          simp only [physAlloc, initialized, empty, order, searched, ↓reduceIte]
      | some entry =>
          right
          obtain ⟨page, current⟩ := entry
          refine ⟨req, page, current, empty, rfl, searched, ?_⟩
          simp only [physAlloc, initialized, empty, order, searched, ↓reduceIte]

/-- A request of an order no less than the floor is served by a block that was
free, or not at all. -/
theorem physAlloc_represents (pool : MemPool) (initialized : state.initialized = true)
    (represents : Represents floor state.pageMeta tiling) {pages req : Nat}
    (order : reqOrder pages = some req) (high : floor ≤ req) :
    physAlloc pool pages state = (none, state) ∨
      ∃ addr next, physAlloc pool pages state = (some addr, next) ∧
        Served floor pool state next tiling addr req := by
  refine (physAlloc_cases pool initialized pages).imp_right ?_
  rintro ⟨other, page, current, _, sameRequest, searched, answer⟩
  cases order.symm.trans sameRequest
  obtain ⟨free, sameOrder, below, enough, _⟩ := findBlock_eq_some searched
  have found := represents.order_of_free below free sameOrder (high.trans enough)
  obtain ⟨after, split, served, others⟩ := splitDown_represents represents found high enough
  refine ⟨_, _, answer, ⟨page, after, rfl, split.setFree served false, served, ?_, free, ?_⟩, rfl⟩
  · simp only [Function.update_self]
  · intro start k different lookup
    obtain ⟨same, untouched⟩ := others start k different lookup
    refine ⟨same, ?_⟩
    simp only [Function.update_of_ne different, untouched]

/-- A request for no pages, or for more than the largest block, changes nothing. -/
theorem physAlloc_of_reqOrder_none (initialized : state.initialized = true) {pages : Nat}
    (order : reqOrder pages = none) : physAlloc pool pages state = (none, state) := by
  by_cases empty : pages = 0
  · simp only [physAlloc, initialized, empty, ↓reduceIte]
  · simp only [physAlloc, initialized, empty, order, ↓reduceIte]

end Calls

/-! ### Coalescing and freeing -/

/-- Some round of the coalescing loop for the block at `idx` joins a buddy that
lies on its left. -/
def mergesLeft (pageMeta : PageMeta) : (fuel idx order : Nat) → Bool
  | 0, _, _ => false
  | fuel + 1, idx, order =>
      let buddy := idx ^^^ 2 ^ order
      decide (order < maxOrder - 1 ∧ buddy < totalPages ∧ (pageMeta buddy).isFree = true ∧
        (pageMeta buddy).order = order) &&
        (decide (buddy < idx) || mergesLeft pageMeta fuel idx (order + 1))

/-- Freeing the block at `start` joins it, possibly after it has grown to the
right, with a free buddy on its left. -/
def MergesLeft (pageMeta : PageMeta) (start : Nat) : Prop :=
  mergesLeft pageMeta maxOrder start (pageMeta start).order = true

instance (pageMeta : PageMeta) (start : Nat) : Decidable (MergesLeft pageMeta start) :=
  inferInstanceAs (Decidable (_ = true))

/-- The test looks only at the buddies of the orders still to come. -/
theorem mergesLeft_congr (first second : PageMeta) {fuel idx order : Nat}
    (agree : ∀ k, order ≤ k → first (idx ^^^ 2 ^ k) = second (idx ^^^ 2 ^ k)) :
    mergesLeft first fuel idx order = mergesLeft second fuel idx order := by
  induction fuel generalizing order with
  | zero => rfl
  | succ fuel ih =>
      simp only [mergesLeft]
      rw [agree order le_rfl, ih fun k later => agree k (by omega)]

/-- No page is its own buddy. -/
theorem xor_two_pow_ne (idx k : Nat) : idx ^^^ 2 ^ k ≠ idx := by
  intro same
  have := Nat.two_pow_pos k
  have := Nat.xor_right_inj.mp (same.trans (Nat.xor_zero idx).symm)
  omega

/-- What a round writes is not looked at by the later rounds. -/
theorem mergesLeft_joined (pageMeta : PageMeta) (fuel idx order : Nat) (retired head : PageInfo) :
    mergesLeft (Function.update (Function.update pageMeta (idx ^^^ 2 ^ order) retired) idx head)
      fuel idx (order + 1) = mergesLeft pageMeta fuel idx (order + 1) := by
  refine mergesLeft_congr _ _ fun k high => ?_
  have notBuddy : idx ^^^ 2 ^ k ≠ idx ^^^ 2 ^ order := by
    intro same
    have := Nat.pow_right_injective (le_refl 2) (Nat.xor_right_inj.mp same)
    omega
  rw [Function.update_of_ne (xor_two_pow_ne idx k), Function.update_of_ne notBuddy]

/-- Joining a free block with the free buddy on its right. -/
theorem Represents.merge (represents : Represents floor pageMeta tiling) {idx k : Nat}
    (found : tiling.order idx = some k) (buddy : tiling.order (idx + 2 ^ k) = some k)
    (double : 2 ^ (k + 1) ∣ idx) (below : k + 1 < maxOrder) :
    Represents floor
      (Function.update
        (Function.update pageMeta (idx + 2 ^ k) { pageMeta (idx + 2 ^ k) with isFree := false })
        idx { order := k + 1, isFree := true })
      (tiling.merge found buddy double) where
  head := by
    intro start l lookup
    have positive := Nat.two_pow_pos k
    simp only [Tiling.merge, Function.update_apply] at lookup ⊢
    split_ifs at lookup ⊢ with right left
    · exact Option.some.inj lookup
    · exact represents.head lookup
  floor_le := by
    intro start l lookup
    have high := represents.floor_le found
    simp only [Tiling.merge, Function.update_apply] at lookup
    split_ifs at lookup
    · have := Option.some.inj lookup
      omega
    · exact represents.floor_le lookup
  lt_maxOrder := by
    intro start l lookup
    simp only [Tiling.merge, Function.update_apply] at lookup
    split_ifs at lookup
    · have := Option.some.inj lookup
      omega
    · exact represents.lt_maxOrder lookup
  interior := by
    intro page inPool absent free
    simp only [Tiling.merge, Function.update_apply] at absent free ⊢
    split_ifs at absent free ⊢ with right left
    · have positive := Nat.two_pow_pos k
      omega
    · exact represents.interior inPool absent free

/-- As long as the freed block only grows to the right, coalescing keeps the
representation and leaves every held block alone. -/
theorem coalesce_represents {fuel idx order : Nat} (represents : Represents floor pageMeta tiling)
    (found : tiling.order idx = some order) (free : (pageMeta idx).isFree = true)
    (rightwards : mergesLeft pageMeta fuel idx order = false) :
    ∃ after : Tiling totalPages, Represents floor (coalesce fuel pageMeta idx order) after ∧
      ∀ start k, tiling.order start = some k → (pageMeta start).isFree = false →
        after.order start = some k ∧ coalesce fuel pageMeta idx order start = pageMeta start := by
  induction fuel generalizing pageMeta tiling order with
  | zero => exact ⟨tiling, represents, fun start k lookup _ => ⟨lookup, rfl⟩⟩
  | succ fuel ih =>
      have stays : ∃ after : Tiling totalPages, Represents floor pageMeta after ∧
          ∀ start k, tiling.order start = some k → (pageMeta start).isFree = false →
            after.order start = some k ∧ pageMeta start = pageMeta start :=
        ⟨tiling, represents, fun start k lookup _ => ⟨lookup, rfl⟩⟩
      simp only [mergesLeft] at rightwards
      simp only [coalesce]
      split_ifs with room outside joins left
      · exact stays
      · simp [room, not_le.mp outside, joins.1, joins.2, left] at rightwards
      · -- The buddy is a free block of the same order, so it lies on the right.
        simp only [room, not_le.mp outside, joins.1, joins.2, and_self, decide_true, Bool.true_and,
          Bool.or_eq_false_iff, decide_eq_false_iff_not] at rightwards
        obtain ⟨right, later⟩ := rightwards
        have positive := Nat.two_pow_pos order
        have aligned := tiling.aligned found
        have double : 2 ^ (order + 1) ∣ idx := by
          by_contra odd
          rw [xor_two_pow_of_dvd aligned, if_neg odd] at right
          have := two_pow_le_of_not_dvd aligned odd
          omega
        have buddyIs : idx ^^^ 2 ^ order = idx + 2 ^ order := by
          rw [xor_two_pow_of_dvd aligned, if_pos double]
        have buddy := represents.order_of_free (not_le.mp outside) joins.1 joins.2
          (represents.floor_le found)
        rw [buddyIs] at buddy ⊢ joins
        have merged := represents.merge found buddy double (by simp only [maxOrder] at *; omega)
        have proper : idx ≠ idx + 2 ^ order := by omega
        have unread := mergesLeft_joined pageMeta fuel idx order
          { pageMeta (idx + 2 ^ order) with isFree := false }
          { order := order + 1, isFree := true }
        rw [buddyIs] at unread
        rw [← unread] at later
        obtain ⟨after, afterRepresents, others⟩ := ih merged
          (by simp only [Tiling.merge, Function.update_of_ne proper, Function.update_self])
          (by simp only [Function.update_self]) later
        refine ⟨after, afterRepresents, fun start k lookup held => ?_⟩
        have notHead : start ≠ idx := by
          rintro rfl
          rw [free] at held
          cases held
        have notBuddy : start ≠ idx + 2 ^ order := by
          rintro rfl
          rw [joins.1] at held
          cases held
        have kept : (tiling.merge found buddy double).order start = some k := by
          simp only [Tiling.merge, Function.update_of_ne notBuddy, Function.update_of_ne notHead,
            lookup]
        obtain ⟨same, untouched⟩ := others start k kept
          (by simpa only [Function.update_of_ne notHead, Function.update_of_ne notBuddy] using held)
        refine ⟨same, untouched.trans ?_⟩
        rw [Function.update_of_ne notHead, Function.update_of_ne notBuddy]
      · exact stays
      · exact stays

theorem startPage_of_page {pool : MemPool} {page : Nat} (below : page < totalPages) :
    startPage pool (pool.base + page * pageSize) = some page := by
  have size : pageSize = 4096 := rfl
  have memory : memorySize = 67108864 := rfl
  have total : totalPages = 16384 := rfl
  unfold startPage
  rw [Nat.add_sub_cancel_left, Nat.mul_mod_left, Nat.mul_div_cancel _ (by rw [size]; decide),
    if_neg (by rw [size, memory]; omega), if_neg (by decide), if_neg (by omega)]

/-- Freeing a held block sets its free bit and coalesces from there. -/
theorem physFree_pageMeta (pool : MemPool) {state : PpaState}
    (initialized : state.initialized = true)
    {page order : Nat} (below : page < totalPages) (orderIs : (state.pageMeta page).order = order)
    (held : (state.pageMeta page).isFree = false) (pages : Nat) :
    (physFree pool (some (pool.base + page * pageSize)) pages state).pageMeta =
      coalesce maxOrder (Function.update state.pageMeta page
        { state.pageMeta page with isFree := true }) page order := by
  simp only [physFree, initialized, Option.bind_some, startPage_of_page below, held, orderIs,
    Bool.false_eq_true, ↓reduceIte]

/-- The free bit of the block that is freed does not decide where it merges. -/
theorem mergesLeft_freed_iff {page order : Nat} (orderIs : (pageMeta page).order = order) :
    mergesLeft (Function.update pageMeta page { pageMeta page with isFree := true }) maxOrder page
      order = true ↔ MergesLeft pageMeta page := by
  rw [mergesLeft_congr _ pageMeta fun k _ => by
    rw [Function.update_of_ne (xor_two_pow_ne page k)], ← orderIs]
  rfl

theorem mergesLeft_freed {page order : Nat} (orderIs : (pageMeta page).order = order)
    (rightwards : ¬ MergesLeft pageMeta page) :
    mergesLeft (Function.update pageMeta page { pageMeta page with isFree := true }) maxOrder page
      order = false :=
  Bool.eq_false_of_not_eq_true (mt (mergesLeft_freed_iff orderIs).mp rightwards)

/-- Freeing a held block that does not merge to the left keeps every other held
block. -/
theorem physFree_represents (pool : MemPool) {state : PpaState}
    (initialized : state.initialized = true)
    (represents : Represents floor state.pageMeta tiling) {page order : Nat}
    (found : tiling.order page = some order) (held : (state.pageMeta page).isFree = false)
    (rightwards : ¬ MergesLeft state.pageMeta page) (pages : Nat) :
    ∃ after : Tiling totalPages,
      Represents floor (physFree pool (some (pool.base + page * pageSize)) pages state).pageMeta
        after ∧
      ∀ start k, start ≠ page → tiling.order start = some k →
        (state.pageMeta start).isFree = false →
        after.order start = some k ∧
          (physFree pool (some (pool.base + page * pageSize)) pages state).pageMeta start =
            state.pageMeta start := by
  have below := represents.lt_totalPages found
  have orderIs := represents.head found
  obtain ⟨after, afterRepresents, others⟩ := coalesce_represents
    (represents.setFree found true) found (by simp only [Function.update_self])
    (mergesLeft_freed orderIs rightwards)
  rw [physFree_pageMeta pool initialized below orderIs held]
  refine ⟨after, afterRepresents, fun start k different lookup heldStart => ?_⟩
  obtain ⟨same, untouched⟩ := others start k lookup
    (by rwa [Function.update_of_ne different])
  refine ⟨same, untouched.trans ?_⟩
  rw [Function.update_of_ne different]

end Lofita.Ppa
