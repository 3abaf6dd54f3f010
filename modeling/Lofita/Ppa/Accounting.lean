import Mathlib.Algebra.BigOperators.Group.Finset.Piecewise
import Mathlib.Algebra.Order.BigOperators.Group.Finset
import Mathlib.Data.Finset.Card
import Lofita.Ppa.Exclusivity

/-! # Free pages and held pages

`free_pages` adds up the orders of all entries marked free, also of those inside a
block. Initialisation leaves a free entry of order 0 on every page inside a maximal
block, so that the pages called free and the pages held come to more than the pool
has: before the first call, and in every state of a run that stays clear of the
defects of the allocator (`never_accounts`).
-/

namespace Lofita.Ppa

open Lofita.Foundation Finset

/-- The pages of the blocks that are held. -/
def Ownership.heldPages (state : Ownership) : Nat := (state.held.map Holding.size).sum

theorem heldPages_boot : Ownership.boot.heldPages = 0 := rfl

/-- The pages that are free and the pages that are held are the pages of the pool. -/
def Accounts (state : Ownership) : Prop :=
  freePages state.ppa + state.heldPages = totalPages

/-! ### Sums over the pool -/

/-- What an entry adds to the sum of the blocks of order 1 and above. -/
def weight (entry : PageInfo) : Nat :=
  if entry.isFree ∧ 1 ≤ entry.order then 2 ^ entry.order else 0

/-- An entry of a free block of order 0. -/
def stale (entry : PageInfo) : Nat := if entry.isFree ∧ entry.order = 0 then 1 else 0

/-- The sum of a size over the entries of the pool. -/
def overPool (size : PageInfo → Nat) (pageMeta : PageMeta) : Nat :=
  ∑ page ∈ range totalPages, size (pageMeta page)

theorem freePages_eq (state : PpaState) :
    freePages state = overPool weight state.pageMeta + overPool stale state.pageMeta := by
  have upTo : ∀ count, (List.range count).foldl
      (fun count i =>
        if (state.pageMeta i).isFree then count + 2 ^ (state.pageMeta i).order else count) 0 =
      ∑ page ∈ range count, (weight (state.pageMeta page) + stale (state.pageMeta page)) := by
    intro count
    induction count with
    | zero => rfl
    | succ count ih =>
        rw [List.range_succ, List.foldl_append, List.foldl_cons, List.foldl_nil, ih,
          sum_range_succ]
        unfold weight stale
        cases (state.pageMeta count).isFree with
        | false => simp
        | true =>
            rcases Nat.eq_zero_or_pos (state.pageMeta count).order with zero | positive
            · simp [zero]
            · have notZero := Nat.ne_of_gt positive
              simp [Nat.one_le_iff_ne_zero, notZero]
  rw [freePages, upTo, sum_add_distrib]
  rfl

/-- Writing an entry takes its old size out of the sum and brings the new one in. -/
theorem overPool_update (size : PageInfo → Nat) (pageMeta : PageMeta) {page : Nat}
    (below : page < totalPages) (entry : PageInfo) :
    overPool size (Function.update pageMeta page entry) + size (pageMeta page) =
      overPool size pageMeta + size entry := by
  have member : page ∈ range totalPages := mem_range.mpr below
  unfold overPool
  rw [← add_sum_erase _ _ member, ← add_sum_erase _ (fun other => size (pageMeta other)) member,
    Function.update_self]
  have others : ∑ other ∈ (range totalPages).erase page,
        size (Function.update pageMeta page entry other) =
      ∑ other ∈ (range totalPages).erase page, size (pageMeta other) := by
    refine sum_congr rfl fun other inRest => ?_
    rw [Function.update_of_ne (ne_of_mem_erase inRest)]
  rw [others]
  omega

theorem weight_free {order : Nat} (positive : 1 ≤ order) :
    weight { order, isFree := true } = 2 ^ order :=
  if_pos ⟨rfl, positive⟩

theorem entry_eq {entry : PageInfo} {order : Nat} (free : entry.isFree = true)
    (same : entry.order = order) : entry = { order, isFree := true } := by
  cases entry
  cases free
  cases same
  rfl

theorem weight_held (order : Nat) : weight { order, isFree := false } = 0 :=
  if_neg fun both => (nomatch both.1)

/-! ### Splitting and allocating -/

variable {pageMeta : PageMeta} {tiling : Tiling totalPages}

/-- A page inside a block adds nothing. -/
theorem Represents.weight_interior (represents : Represents 1 pageMeta tiling) {page : Nat}
    (below : page < totalPages) (absent : tiling.order page = none) :
    weight (pageMeta page) = 0 := by
  refine if_neg fun both => ?_
  have low := represents.interior below absent both.1
  omega

/-- Halving a free block keeps the sum of the free blocks. -/
theorem Represents.weight_split (represents : Represents 1 pageMeta tiling) {i co : Nat}
    (found : tiling.order i = some (co + 1)) (free : (pageMeta i).isFree = true)
    (high : 1 ≤ co) :
    overPool weight (Function.update (Function.update pageMeta i { order := co, isFree := true })
      (i + 2 ^ co) { order := co, isFree := true }) = overPool weight pageMeta := by
  have double := Nat.pow_succ 2 co
  have positive := Nat.two_pow_pos co
  have inside := tiling.inside found
  have interior : tiling.order (i + 2 ^ co) = none :=
    tiling.order_eq_none_of_inside found (by omega) (by omega)
  have entry : pageMeta i = { order := co + 1, isFree := true } :=
    entry_eq free (represents.head found)
  have halved := overPool_update weight pageMeta (by omega : i < totalPages)
    { order := co, isFree := true }
  have released := overPool_update weight
    (Function.update pageMeta i { order := co, isFree := true })
    (by omega : i + 2 ^ co < totalPages) { order := co, isFree := true }
  rw [entry, weight_free (by omega), weight_free high] at halved
  rw [Function.update_of_ne (by omega), represents.weight_interior (by omega) interior,
    weight_free high] at released
  omega

/-- Splitting a free block down to an order from 1 on keeps the sum of the free
blocks of such orders, and the entries of the odd pages. -/
theorem splitDown_weight {i req current : Nat} (represents : Represents 1 pageMeta tiling)
    (found : tiling.order i = some current) (free : (pageMeta i).isFree = true)
    (high : 1 ≤ req) (enough : req ≤ current) :
    overPool weight (splitDown i req current pageMeta) = overPool weight pageMeta ∧
      splitDown i req current pageMeta i = { order := req, isFree := true } ∧
      ∀ page, ¬ 2 ∣ page → splitDown i req current pageMeta page = pageMeta page := by
  induction current generalizing pageMeta tiling with
  | zero => exact absurd (high.trans enough) (by decide)
  | succ co ih =>
      unfold splitDown
      split_ifs with larger
      · have positive := Nat.two_pow_pos co
        have proper : i ≠ i + 2 ^ co := by omega
        have left : (tiling.split found).order i = some co := by
          simp only [Tiling.split, Function.update_of_ne proper, Function.update_self]
        have halves := represents.split found (by omega)
        have sum := represents.weight_split found free (by omega)
        simp only [free] at halves ⊢
        obtain ⟨rest, served, odd⟩ := ih halves left
          (by rw [Function.update_of_ne proper, Function.update_self]) (by omega)
        refine ⟨rest.trans sum, served, fun page isOdd => (odd page isOdd).trans ?_⟩
        have even : 2 ∣ i := (dvd_pow_self 2 (Nat.succ_ne_zero co)).trans (tiling.aligned found)
        have evenRight : 2 ∣ i + 2 ^ co := Nat.dvd_add even (dvd_pow_self 2 (by omega))
        rw [Function.update_of_ne, Function.update_of_ne]
        · rintro rfl
          exact isOdd even
        · rintro rfl
          exact isOdd evenRight
      · have same : req = co + 1 := by omega
        exact ⟨rfl, entry_eq free ((represents.head found).trans same.symm), fun _ _ => rfl⟩

/-- A served request of several pages takes its block out of the sum. -/
theorem physAlloc_weight (pool : MemPool) {state : PpaState}
    (initialized : state.initialized = true)
    (represents : Represents 1 state.pageMeta tiling) {pages : Nat} (several : pages ≠ 1)
    {addr : Nat} {next : PpaState} (answer : physAlloc pool pages state = (some addr, next)) :
    overPool weight next.pageMeta + 2 ^ Nat.clog 2 pages = overPool weight state.pageMeta ∧
      ∀ page, ¬ 2 ∣ page → next.pageMeta page = state.pageMeta page := by
  rcases physAlloc_cases pool initialized pages with refused | served
  · rw [refused] at answer
    cases answer
  · obtain ⟨req, page, current, notEmpty, order, searched, result⟩ := served
    cases answer.symm.trans result
    obtain ⟨free, sameOrder, below, enough, _⟩ := findBlock_eq_some searched
    have high := one_le_of_reqOrder order several notEmpty
    have found := represents.order_of_free below free sameOrder (high.trans enough)
    have even : 2 ∣ page :=
      (dvd_pow_self 2 (by omega : current ≠ 0)).trans (tiling.aligned found)
    obtain ⟨sum, head, odd⟩ := splitDown_weight represents found free high enough
    rw [← reqOrder_eq_clog order]
    constructor
    · have taken := overPool_update weight (splitDown page req current state.pageMeta) below
        { order := req, isFree := false }
      simp only [head]
      rw [head, weight_free high, weight_held] at taken
      omega
    · intro other isOdd
      have different : other ≠ page := by
        rintro rfl
        exact isOdd even
      exact (Function.update_of_ne different _ _).trans (odd other isOdd)

/-! ### Coalescing and freeing -/

/-- Coalescing to the right keeps the sum of the free blocks, and the entries of the
odd pages. -/
theorem coalesce_weight {fuel idx order : Nat}
    (entry : pageMeta idx = { order, isFree := true }) (positive : 1 ≤ order)
    (below : idx < totalPages) (even : 2 ∣ idx)
    (rightwards : mergesLeft pageMeta fuel idx order = false) :
    overPool weight (coalesce fuel pageMeta idx order) = overPool weight pageMeta ∧
      ∀ page, ¬ 2 ∣ page → coalesce fuel pageMeta idx order page = pageMeta page := by
  induction fuel generalizing pageMeta order with
  | zero => exact ⟨rfl, fun _ _ => rfl⟩
  | succ fuel ih =>
      simp only [mergesLeft] at rightwards
      simp only [coalesce]
      split_ifs with room outside joins left
      · exact ⟨rfl, fun _ _ => rfl⟩
      · simp [room, not_le.mp outside, joins.1, joins.2, left] at rightwards
      · simp only [room, not_le.mp outside, joins.1, joins.2, and_self, decide_true, Bool.true_and,
          Bool.or_eq_false_iff, decide_eq_false_iff_not] at rightwards
        obtain ⟨_, later⟩ := rightwards
        have inPool := not_le.mp outside
        have notBuddy := xor_two_pow_ne idx order
        have buddyEven : 2 ∣ idx ^^^ 2 ^ order := by
          have half : 2 ∣ 2 ^ order := dvd_pow_self 2 (by omega)
          have parity := Nat.xor_mod_two_eq_one (a := idx) (b := 2 ^ order)
          omega
        have buddy : pageMeta (idx ^^^ 2 ^ order) = { order, isFree := true } :=
          entry_eq joins.1 joins.2
        rw [← mergesLeft_joined pageMeta fuel idx order
          { pageMeta (idx ^^^ 2 ^ order) with isFree := false }
          { order := order + 1, isFree := true }] at later
        obtain ⟨sum, odd⟩ := ih (Function.update_self ..) (by omega) later
        refine ⟨sum.trans ?_, fun page isOdd => (odd page isOdd).trans ?_⟩
        · have retired := overPool_update weight pageMeta inPool { order, isFree := false }
          have joined := overPool_update weight
            (Function.update pageMeta (idx ^^^ 2 ^ order) { order, isFree := false }) below
            { order := order + 1, isFree := true }
          rw [buddy, weight_free positive, weight_held] at retired
          rw [Function.update_of_ne notBuddy.symm, entry, weight_free positive,
            weight_free (by omega), Nat.pow_succ] at joined
          simp only [buddy]
          omega
        · rw [Function.update_of_ne, Function.update_of_ne]
          · rintro rfl
            exact isOdd buddyEven
          · rintro rfl
            exact isOdd even
      · exact ⟨rfl, fun _ _ => rfl⟩
      · exact ⟨rfl, fun _ _ => rfl⟩

/-- Freeing a held block of several pages brings it into the sum. -/
theorem physFree_weight (pool : MemPool) {state : PpaState} (initialized : state.initialized = true)
    (represents : Represents 1 state.pageMeta tiling) {page order : Nat}
    (found : tiling.order page = some order) (held : (state.pageMeta page).isFree = false)
    (rightwards : ¬ MergesLeft state.pageMeta page) (pages : Nat) :
    let next := physFree pool (some (pool.base + page * pageSize)) pages state
    overPool weight next.pageMeta = overPool weight state.pageMeta + 2 ^ order ∧
      ∀ other, ¬ 2 ∣ other → next.pageMeta other = state.pageMeta other := by
  intro next
  have below := represents.lt_totalPages found
  have orderIs := represents.head found
  have positive := represents.floor_le found
  have even : 2 ∣ page := (dvd_pow_self 2 (by omega : order ≠ 0)).trans (tiling.aligned found)
  have freed := overPool_update weight state.pageMeta below { order, isFree := true }
  have before : weight (state.pageMeta page) = 0 := if_neg fun both => by simp [held] at both
  rw [before, weight_free positive, Nat.add_zero] at freed
  have entry : { state.pageMeta page with isFree := true } = PageInfo.mk order true :=
    entry_eq rfl orderIs
  have quiet := mergesLeft_freed orderIs rightwards
  have result := physFree_pageMeta pool initialized below orderIs held pages
  rw [entry] at quiet result
  obtain ⟨sum, odd⟩ := coalesce_weight (Function.update_self ..) positive below even quiet
  rw [← result] at sum
  refine ⟨sum.trans freed, fun other isOdd => ?_⟩
  have different : other ≠ page := by
    rintro rfl
    exact isOdd even
  rw [show next.pageMeta other = _ from congrArg (· other) result, odd other isOdd,
    Function.update_of_ne different]

/-! ### Runs -/

variable {pool : MemPool} {state : Ownership}

/-- Releasing a block takes its pages out of the pages held. -/
theorem sum_eraseP {held : List Holding} {addr pages : Nat}
    (holds : ∃ holding ∈ held, holding.addr = addr)
    (sizes : ∀ holding ∈ held, holding.addr = addr → holding.size = pages) :
    ((held.eraseP fun holding => holding.addr = addr).map Holding.size).sum + pages =
      (held.map Holding.size).sum := by
  obtain ⟨holding, member, here⟩ := holds
  obtain ⟨found, before, after, _, same, whole, rest⟩ :=
    List.exists_of_eraseP (p := fun holding => holding.addr = addr) member (decide_eq_true here)
  have size := sizes found (whole ▸ by simp) (of_decide_eq_true same)
  rw [rest, whole]
  simp only [List.map_append, List.map_cons, List.sum_append, List.sum_cons, size]
  omega

/-- The blocks of order 1 and above that are free, and the blocks held, are the
pool; and every odd page still has the free entry of its initialisation. -/
structure Overcounts (pool : MemPool) (state : Ownership) : Prop where
  tracks : Tracks pool state
  sum : overPool weight state.ppa.pageMeta + state.heldPages = totalPages
  odd : ∀ page < totalPages, ¬ 2 ∣ page →
    state.ppa.pageMeta page = { order := 0, isFree := true }

theorem Overcounts.alloc (overcounts : Overcounts pool state) {pages : Nat}
    (several : pages ≠ 1) : Overcounts pool (state.step pool (.alloc pages)) := by
  obtain ⟨tracks, sum, odd⟩ := overcounts
  have next := tracks.alloc several
  obtain ⟨initialized, _, tiling, represents, _⟩ := id tracks
  rcases physAlloc_cases pool initialized pages with refused | ⟨_, _, _, _, _, _, answer⟩
  · have same : state.step pool (.alloc pages) = state := by
      simp only [Ownership.step, refused]
    rw [same]
    exact ⟨tracks, sum, odd⟩
  · obtain ⟨addr, after, answer⟩ : ∃ addr after, physAlloc pool pages state.ppa =
        (some addr, after) := ⟨_, _, answer⟩
    obtain ⟨taken, kept⟩ := physAlloc_weight pool initialized represents several answer
    simp only [Ownership.step, answer] at next ⊢
    refine ⟨next, ?_, fun page below isOdd => (kept page isOdd).trans (odd page below isOdd)⟩
    simp only [Ownership.heldPages, List.map_cons, List.sum_cons, Holding.size] at sum ⊢
    omega

theorem Overcounts.free (overcounts : Overcounts pool state) {addr : Nat} (pages : Nat)
    (holds : ∃ holding ∈ state.held, holding.addr = addr)
    (rightwards : ∀ page ∈ startPage pool addr, ¬ MergesLeft state.ppa.pageMeta page) :
    Overcounts pool (state.step pool (.free addr pages)) := by
  obtain ⟨tracks, sum, odd⟩ := overcounts
  have next := tracks.free pages holds rightwards
  obtain ⟨initialized, _, tiling, represents, blocks⟩ := tracks
  obtain ⟨freed, member, here⟩ := id holds
  obtain ⟨page, addrIs, found, held⟩ := blocks freed member
  rw [here] at addrIs
  have calm : ¬ MergesLeft state.ppa.pageMeta page := by
    apply rightwards
    rw [addrIs, startPage_of_page (represents.lt_totalPages found)]
    rfl
  have sizes : ∀ holding ∈ state.held, holding.addr = addr →
      holding.size = 2 ^ Nat.clog 2 freed.pages := by
    intro holding present same
    obtain ⟨other, otherAddr, otherFound, _⟩ := blocks holding present
    cases addr_inj (otherAddr.symm.trans (same.trans addrIs))
    exact congrArg (2 ^ ·) (Option.some.inj (otherFound.symm.trans found))
  obtain ⟨returned, kept⟩ := physFree_weight pool initialized represents found held calm pages
  have released := sum_eraseP holds sizes
  rw [← addrIs] at returned kept
  refine ⟨next, ?_, fun other below isOdd => (kept other isOdd).trans (odd other below isOdd)⟩
  simp only [Ownership.step, Ownership.heldPages] at sum ⊢
  omega

/-- The multiples of a size below a multiple of it, each counted with the size. -/
theorem sum_multiples (size : Nat) (positive : 0 < size) (count : Nat) :
    ∑ page ∈ range (count * size), (if size ∣ page then size else 0) = count * size := by
  induction count with
  | zero => simp
  | succ count ih =>
      have inBlock : ∀ page ∈ range size,
          (if size ∣ count * size + page then size else 0) = if page = 0 then size else 0 := by
        intro page member
        refine if_congr ?_ rfl rfl
        rw [Nat.dvd_add_right (Nat.dvd_mul_left size count)]
        constructor
        · exact fun divides => Nat.eq_zero_of_dvd_of_lt divides (mem_range.mp member)
        · rintro rfl
          exact dvd_zero size
      rw [Nat.succ_mul, sum_range_add, ih, sum_congr rfl inBlock, sum_ite_eq' (range size) 0,
        if_pos (mem_range.mpr positive)]

/-- The maximal blocks of the initial state are the pool. -/
theorem weight_boot : overPool weight Ppa.boot.pageMeta = totalPages := by
  have each : ∀ page ∈ range totalPages, weight (Ppa.boot.pageMeta page) =
      if 2 ^ (maxOrder - 1) ∣ page then 2 ^ (maxOrder - 1) else 0 := by
    intro page member
    rw [boot_pageMeta]
    by_cases head : 2 ^ (maxOrder - 1) ∣ page
    · rw [if_pos ⟨mem_range.mp member, head⟩, if_pos head]
      exact weight_free (by decide)
    · rw [if_neg fun both => head both.2, if_neg head]
      rfl
  have whole : totalPages = totalPages / 2 ^ (maxOrder - 1) * 2 ^ (maxOrder - 1) := by decide
  rw [overPool, sum_congr rfl each, whole]
  exact sum_multiples _ (Nat.two_pow_pos _) _

theorem overcounts_boot (pool : MemPool) : Overcounts pool Ownership.boot where
  tracks := tracks_boot pool
  sum := by
    rw [heldPages_boot, Nat.add_zero]
    exact weight_boot
  odd := by
    intro page below isOdd
    change Ppa.boot.pageMeta page = _
    rw [boot_pageMeta, if_neg]
    exact fun both => isOdd ((by decide : 2 ∣ 2 ^ (maxOrder - 1)).trans both.2)

/-- The free entries of the odd pages are half as many as the pool has pages. -/
theorem Overcounts.half_le_stale (overcounts : Overcounts pool state) :
    totalPages / 2 ≤ overPool stale state.ppa.pageMeta := by
  have upTo : ∀ count, 2 * count ≤ totalPages →
      count ≤ ∑ page ∈ range (2 * count), stale (state.ppa.pageMeta page) := by
    intro count below
    induction count with
    | zero => exact Nat.zero_le _
    | succ count ih =>
        have last : stale (state.ppa.pageMeta (2 * count + 1)) = 1 := by
          rw [overcounts.odd _ (by omega) (by omega)]
          rfl
        rw [Nat.mul_succ, sum_range_succ, sum_range_succ, last]
        have earlier := ih (by omega)
        omega
  have half : 2 * (totalPages / 2) = totalPages := by decide
  have all := upTo (totalPages / 2) (Nat.le_of_eq half)
  rw [half] at all
  exact all

/-- **What is counted beyond the pool.** -/
theorem Overcounts.exceeds (overcounts : Overcounts pool state) :
    totalPages + totalPages / 2 ≤ freePages state.ppa + state.heldPages := by
  have half := overcounts.half_le_stale
  have sum := overcounts.sum
  rw [freePages_eq]
  omega

/-- The free pages of the initial state are more than the pool has. -/
theorem freePages_boot : totalPages < freePages Ownership.boot.ppa := by
  have more := (overcounts_boot samplePool).exceeds
  rw [heldPages_boot, Nat.add_zero] at more
  exact Nat.lt_of_lt_of_le (by decide) more

theorem not_accounts_boot : ¬ Accounts Ownership.boot := by
  unfold Accounts
  rw [heldPages_boot, Nat.add_zero]
  exact Nat.ne_of_gt freePages_boot

/-- **The pages are never accounted for.** No run keeps the account, nor the free
pages within the pool: the state after initialisation breaks both. A run that stays
clear of the defects of the allocator counts half the pool too much in every state. -/
theorem never_accounts (pool : MemPool) (calls : List Call) :
    ¬ (allocator pool).Always Accounts Ownership.boot calls ∧
      ¬ (allocator pool).Always (fun state => freePages state.ppa ≤ totalPages) Ownership.boot
        calls ∧
      ((allocator pool).Along (fun state call => FreesHeld state call ∧
          SparesStaleBits pool state call) Ownership.boot calls →
        (allocator pool).Always
          (fun state => totalPages + totalPages / 2 ≤ freePages state.ppa + state.heldPages)
          Ownership.boot calls) := by
  refine ⟨fun always => ?_, fun always => ?_, fun along => ?_⟩
  · exact not_accounts_boot always.start
  · exact absurd freePages_boot (Nat.not_lt_of_le always.start)
  · refine System.always_of_invariant (Overcounts pool) ?_ (fun _ => Overcounts.exceeds)
      (overcounts_boot pool) along
    rintro state (pages | ⟨addr, pages⟩) overcounts ⟨holds, quiet⟩
    · exact overcounts.alloc quiet
    · exact overcounts.free pages holds quiet

/-- Before the first call nothing is held, and more pages are free than there are. -/
theorem overcounts_empty_run :
    ((allocator samplePool).run Ownership.boot []).held = [] ∧
      ¬ Accounts ((allocator samplePool).run Ownership.boot []) ∧
      ¬ freePages ((allocator samplePool).run Ownership.boot []).ppa ≤ totalPages :=
  ⟨rfl, not_accounts_boot, Nat.not_le_of_gt freePages_boot⟩

end Lofita.Ppa
