import Lofita.Ppa.Coalesce
import Lofita.Ppa.Exclusivity

/-! # Allocating and freeing in a tiled pool

A page array is well formed when it is exactly a tiling of the pool: the first
page of every block carries the order and the status of the block, and no other
page is marked free. On such an array the search of `phys_alloc` sees every free
block and nothing else, so that a request is served from a smallest sufficient
block or refused because there is none (`physAlloc_wellFormed`). `phys_free`
returns a well-formed array exactly if it joins no buddy on the left
(`physFree_released_iff`).
-/

namespace Lofita.Ppa

open Lofita.Foundation

/-- The array describes the tiling, and no page inside a block is marked free. -/
structure WellFormed (pageMeta : PageMeta) (tiling : Tiling totalPages) : Prop where
  head : ∀ {start k}, tiling.order start = some k → (pageMeta start).order = k
  lt_maxOrder : ∀ {start k}, tiling.order start = some k → k < maxOrder
  interior : ∀ {page}, page < totalPages → tiling.order page = none →
    (pageMeta page).isFree = false

/-- A page of a free block. -/
def FreePage (pageMeta : PageMeta) (page : Nat) : Prop :=
  ∃ start, start < totalPages ∧ (pageMeta start).isFree = true ∧ start ≤ page ∧
    page < start + 2 ^ (pageMeta start).order

variable {pageMeta : PageMeta} {tiling : Tiling totalPages}

theorem wellFormed_iff : WellFormed pageMeta tiling ↔ Represents 0 pageMeta tiling := by
  constructor
  · intro wellFormed
    refine ⟨wellFormed.head, fun _ => Nat.zero_le _, wellFormed.lt_maxOrder, ?_⟩
    intro page below absent free
    rw [wellFormed.interior below absent] at free
    cases free
  · intro represents
    refine ⟨represents.head, represents.lt_maxOrder, ?_⟩
    intro page below absent
    by_contra free
    exact absurd (represents.interior below absent (eq_true_of_ne_false free)) (Nat.not_lt_zero _)

/-- An entry marked free is the first page of a block. -/
theorem WellFormed.order_of_free (wellFormed : WellFormed pageMeta tiling) {page : Nat}
    (below : page < totalPages) (free : (pageMeta page).isFree = true) :
    tiling.order page = some (pageMeta page).order :=
  (wellFormed_iff.mp wellFormed).order_of_free below free rfl (Nat.zero_le _)

theorem WellFormed.lt_totalPages (wellFormed : WellFormed pageMeta tiling) {start k : Nat}
    (found : tiling.order start = some k) : start < totalPages :=
  (wellFormed_iff.mp wellFormed).lt_totalPages found

/-- The pool cut into maximal blocks. -/
def wholeTiling : Tiling totalPages := Tiling.uniform totalPages (maxOrder - 1) (by decide)

/-- Only the first pages of the maximal blocks are marked free. -/
def wholePool : PageMeta := fun page =>
  if page < totalPages ∧ 2 ^ (maxOrder - 1) ∣ page then { order := maxOrder - 1, isFree := true }
  else { order := 0, isFree := false }

theorem wholePool_wellFormed : WellFormed wholePool wholeTiling where
  head := by
    intro start k found
    simp only [wholeTiling, Tiling.uniform, wholePool] at found ⊢
    split_ifs at found ⊢ with head
    exact Option.some.inj found
  lt_maxOrder := by
    intro start k found
    simp only [wholeTiling, Tiling.uniform] at found
    split_ifs at found
    cases found
    decide
  interior := by
    intro page below absent
    simp only [wholeTiling, Tiling.uniform, wholePool] at absent ⊢
    split_ifs at absent ⊢ with head
    rfl

/-! ### The search sees every free block -/

theorem findOrder_eq_none {pages fuel order : Nat} (upTo : order + fuel = maxOrder)
    (bounded : order < maxOrder) (nothing : findOrder pages fuel order = none) :
    2 ^ (maxOrder - 1) < pages := by
  induction fuel generalizing order with
  | zero => omega
  | succ fuel ih =>
      unfold findOrder at nothing
      split_ifs at nothing with small last
      · have final : order = maxOrder - 1 := by omega
        exact final ▸ small
      · exact ih (by omega) (by omega) nothing

/-- A request has no order exactly if it is larger than the largest block. -/
theorem reqOrder_eq_none {pages : Nat} :
    reqOrder pages = none ↔ 2 ^ (maxOrder - 1) < pages := by
  constructor
  · exact findOrder_eq_none rfl (by decide)
  · intro large
    cases order : reqOrder pages with
    | none => rfl
    | some req =>
        obtain ⟨room, _, bounded⟩ := reqOrder_eq_some order
        have := Nat.pow_le_pow_right (by decide : 1 ≤ 2) (Nat.le_sub_one_of_lt bounded)
        omega

/-- An order has room for a request exactly if it is not below the request's. -/
theorem reqOrder_le_iff {pages req k : Nat} (order : reqOrder pages = some req) :
    req ≤ k ↔ pages ≤ 2 ^ k := by
  obtain ⟨room, tight, _⟩ := reqOrder_eq_some order
  constructor
  · intro enough
    exact room.trans (Nat.pow_le_pow_right (by decide) enough)
  · intro large
    by_contra smaller
    have := tight k (not_le.mp smaller)
    omega

theorem findFree_eq_none {order remaining i : Nat}
    (nothing : findFree pageMeta order remaining i = none) {j : Nat} (scanned : j < remaining) :
    ¬ ((pageMeta (i + j * 2 ^ order)).isFree = true ∧
      (pageMeta (i + j * 2 ^ order)).order = order) := by
  induction remaining generalizing i j with
  | zero => exact absurd scanned (Nat.not_lt_zero j)
  | succ remaining ih =>
      unfold findFree at nothing
      split_ifs at nothing with entry
      cases j with
      | zero => rwa [Nat.zero_mul, Nat.add_zero]
      | succ j =>
          have later := ih nothing (Nat.lt_of_succ_lt_succ scanned)
          have next : i + 2 ^ order + j * 2 ^ order = i + (j + 1) * 2 ^ order := by ring
          rwa [next] at later

/-- Where the scan of an order finds nothing, no free block has that order. -/
theorem WellFormed.order_ne_of_findFree (wellFormed : WellFormed pageMeta tiling) {order : Nat}
    (nothing : findFree pageMeta order (totalPages / 2 ^ order) 0 = none) {start k : Nat}
    (found : tiling.order start = some k) (free : (pageMeta start).isFree = true) : k ≠ order := by
  rintro rfl
  have positive := Nat.two_pow_pos k
  obtain ⟨quotient, rfl⟩ := tiling.aligned found
  have inside := tiling.inside found
  have scanned : quotient < totalPages / 2 ^ k := by
    rw [Nat.lt_iff_add_one_le, Nat.le_div_iff_mul_le positive]
    calc (quotient + 1) * 2 ^ k = 2 ^ k * quotient + 2 ^ k := by ring
      _ ≤ totalPages := inside
  have missed := findFree_eq_none nothing scanned
  rw [Nat.zero_add, Nat.mul_comm] at missed
  exact missed ⟨free, wellFormed.head found⟩

/-- A search that fails has passed every free block of the orders it walked. -/
theorem WellFormed.lt_of_findBlock_none (wellFormed : WellFormed pageMeta tiling)
    {remaining order : Nat} (nothing : findBlock pageMeta remaining order = none)
    {start k : Nat} (found : tiling.order start = some k) (free : (pageMeta start).isFree = true)
    (below : k < order + remaining) : k < order := by
  induction remaining generalizing order with
  | zero => exact below
  | succ remaining ih =>
      unfold findBlock at nothing
      split at nothing
      · cases nothing
      · next scanned =>
          have different := wellFormed.order_ne_of_findFree scanned found free
          have := ih nothing (by omega)
          omega

/-- The block the search stops at has the least order of all free blocks that
are large enough. -/
theorem WellFormed.le_of_findBlock (wellFormed : WellFormed pageMeta tiling)
    {remaining order page current : Nat}
    (searched : findBlock pageMeta remaining order = some (page, current)) {start k : Nat}
    (found : tiling.order start = some k) (free : (pageMeta start).isFree = true)
    (enough : order ≤ k) : current ≤ k := by
  induction remaining generalizing order with
  | zero => cases searched
  | succ remaining ih =>
      unfold findBlock at searched
      split at searched
      · cases searched
        exact enough
      · next scanned =>
          have different := wellFormed.order_ne_of_findFree scanned found free
          exact ih searched (by omega)

/-! ### Allocating -/

/-- Splitting writes only entries of the block. -/
theorem splitDown_outside {i req current page : Nat}
    (outside : page < i ∨ i + 2 ^ current ≤ page) :
    splitDown i req current pageMeta page = pageMeta page := by
  induction current generalizing pageMeta with
  | zero => rfl
  | succ co ih =>
      have double := Nat.pow_succ 2 co
      have positive := Nat.two_pow_pos co
      unfold splitDown
      split_ifs
      · rw [ih (by omega), Function.update_of_ne (by omega), Function.update_of_ne (by omega)]
      · rfl

/-- The pages of the block beyond the part that serves the request lie in the
released halves. -/
theorem splitDown_rest {i req current page : Nat} (inside : i + 2 ^ current ≤ totalPages)
    (lower : i + 2 ^ req ≤ page) (upper : page < i + 2 ^ current) :
    ∃ start, start ≠ i ∧ start < totalPages ∧
      (splitDown i req current pageMeta start).isFree = true ∧ start ≤ page ∧
      page < start + 2 ^ (splitDown i req current pageMeta start).order := by
  induction current generalizing pageMeta with
  | zero =>
      have := Nat.two_pow_pos req
      omega
  | succ co ih =>
      have double := Nat.pow_succ 2 co
      have positive := Nat.two_pow_pos co
      unfold splitDown
      split_ifs with larger
      · by_cases half : page < i + 2 ^ co
        · exact ih (by omega) half
        · refine ⟨i + 2 ^ co, by omega, by omega, ?_⟩
          rw [splitDown_outside (Or.inr le_rfl), Function.update_self]
          have ends : page < i + 2 ^ co + 2 ^ co := by omega
          exact ⟨rfl, not_lt.mp half, ends⟩
      · have := Nat.pow_le_pow_right (by decide : 1 ≤ 2) (not_lt.mp larger)
        omega

/-- What a served request does to a well-formed pool: the block handed out is cut
from one free block of the smallest sufficient order, the other pages of that
block stay free, and every other block is as before. -/
structure CutOut (pageMeta : PageMeta) (tiling : Tiling totalPages) (page req : Nat)
    (next : PageMeta) : Prop where
  aligned : 2 ^ req ∣ page
  source : ∃ start current, tiling.order start = some current ∧
    (pageMeta start).isFree = true ∧ start ≤ page ∧ page + 2 ^ req ≤ start + 2 ^ current ∧
    (∀ other k, tiling.order other = some k → (pageMeta other).isFree = true → req ≤ k →
      current ≤ k) ∧
    (∀ rest, start ≤ rest → rest < start + 2 ^ current →
      ¬ (page ≤ rest ∧ rest < page + 2 ^ req) → FreePage next rest) ∧
    ∃ after : Tiling totalPages, WellFormed next after ∧ after.order page = some req ∧
      (next page).isFree = false ∧
      ∀ other k, other ≠ start → tiling.order other = some k →
        after.order other = some k ∧ next other = pageMeta other

/-- The block the search finds is cut out of the pool. -/
theorem WellFormed.cutOut (wellFormed : WellFormed pageMeta tiling) {req page current : Nat}
    (searched : findBlock pageMeta (maxOrder - req) req = some (page, current)) :
    CutOut pageMeta tiling page req
      (Function.update (splitDown page req current pageMeta) page
        { splitDown page req current pageMeta page with isFree := false }) := by
  obtain ⟨free, sameOrder, below, enough, _⟩ := findBlock_eq_some searched
  have found : tiling.order page = some current := sameOrder ▸ wellFormed.order_of_free below free
  obtain ⟨after, split, served, others⟩ :=
    splitDown_represents (wellFormed_iff.mp wellFormed) found (Nat.zero_le req) enough
  have smaller := Nat.pow_le_pow_right (by decide : 1 ≤ 2) enough
  refine ⟨(Nat.pow_dvd_pow 2 enough).trans (tiling.aligned found), page, current, found, free,
    le_rfl, by omega, ?_, ?_, after, wellFormed_iff.mpr (split.setFree served false), served, ?_,
    ?_⟩
  · intro other k foundOther freeOther sufficient
    exact wellFormed.le_of_findBlock searched foundOther freeOther sufficient
  · intro rest lower upper outside
    obtain ⟨start, different, inPool, freeStart, before, behind⟩ :=
      @splitDown_rest pageMeta page req current rest (tiling.inside found) (by omega) upper
    exact ⟨start, inPool, by rwa [Function.update_of_ne different], before,
      by rwa [Function.update_of_ne different]⟩
  · rw [Function.update_self]
  · intro other k different lookup
    obtain ⟨same, untouched⟩ := others other k different lookup
    exact ⟨same, by rw [Function.update_of_ne different, untouched]⟩

/-- No free block has room for the pages. -/
def NoRoom (pageMeta : PageMeta) (tiling : Tiling totalPages) (pages : Nat) : Prop :=
  ∀ start k, tiling.order start = some k → (pageMeta start).isFree = true → 2 ^ k < pages

/-- A search that finds no block leaves no room. -/
theorem WellFormed.noRoom (wellFormed : WellFormed pageMeta tiling) {pages req : Nat}
    (order : reqOrder pages = some req)
    (searched : findBlock pageMeta (maxOrder - req) req = none) :
    NoRoom pageMeta tiling pages := by
  intro start k found free
  have below := wellFormed.lt_maxOrder found
  have bounded := (reqOrder_eq_some order).2.2
  have less := wellFormed.lt_of_findBlock_none searched found free (by omega)
  exact not_le.mp fun large => absurd ((reqOrder_le_iff order).mpr large) (by omega)

/-- A request is refused for one of the three reasons, or is served with the block that
the search finds and there is no such reason. -/
theorem WellFormed.refused_or_served (pool : MemPool) (wellFormed : WellFormed pageMeta tiling)
    (pages : Nat) :
    ((pages = 0 ∨ 2 ^ (maxOrder - 1) < pages ∨ NoRoom pageMeta tiling pages) ∧
      physAlloc pool pages { pageMeta, initialized := true } =
        (none, { pageMeta, initialized := true })) ∨
    ¬ (pages = 0 ∨ 2 ^ (maxOrder - 1) < pages ∨ NoRoom pageMeta tiling pages) ∧
      ∃ req page current, reqOrder pages = some req ∧
        findBlock pageMeta (maxOrder - req) req = some (page, current) ∧
        physAlloc pool pages { pageMeta, initialized := true } =
          (some (pool.base + page * pageSize),
            { pageMeta := Function.update (splitDown page req current pageMeta) page
                { splitDown page req current pageMeta page with isFree := false }
              initialized := true }) := by
  by_cases empty : pages = 0
  · refine Or.inl ⟨Or.inl empty, ?_⟩
    simp only [physAlloc, empty, ↓reduceIte]
  cases order : reqOrder pages with
  | none =>
      exact Or.inl ⟨Or.inr (Or.inl (reqOrder_eq_none.mp order)),
        physAlloc_of_reqOrder_none rfl order⟩
  | some req =>
      cases searched : findBlock pageMeta (maxOrder - req) req with
      | none =>
          refine Or.inl ⟨Or.inr (Or.inr (wellFormed.noRoom order searched)), ?_⟩
          simp only [physAlloc, empty, order, searched, ↓reduceIte]
      | some entry =>
          obtain ⟨page, current⟩ := entry
          obtain ⟨free, sameOrder, below, enough, _⟩ := findBlock_eq_some searched
          have found := sameOrder ▸ wellFormed.order_of_free below free
          refine Or.inr ⟨?_, req, page, current, rfl, searched, ?_⟩
          · rintro (none | large | noRoom)
            · exact empty none
            · rw [reqOrder_eq_none.mpr large] at order
              cases order
            · exact absurd (noRoom page current found free)
                (not_lt.mpr ((reqOrder_le_iff order).mp enough))
          · simp only [physAlloc, empty, order, searched, ↓reduceIte]

/-- **Allocation is sound and complete.** On a well-formed array a request is
refused, and changes nothing, exactly if it is for no pages, for more than the
largest block, or for more than any free block has. Otherwise the block returned
has the least power of two of pages with room for the request, and is cut out of
the pool. -/
theorem physAlloc_wellFormed (pool : MemPool) {pageMeta : PageMeta} {tiling : Tiling totalPages}
    (wellFormed : WellFormed pageMeta tiling) (pages : Nat) :
    ((physAlloc pool pages { pageMeta, initialized := true }).1 = none ↔
      pages = 0 ∨ 2 ^ (maxOrder - 1) < pages ∨ NoRoom pageMeta tiling pages) ∧
    ((physAlloc pool pages { pageMeta, initialized := true }).1 = none →
      (physAlloc pool pages { pageMeta, initialized := true }).2 =
        { pageMeta, initialized := true }) ∧
    ∀ addr, (physAlloc pool pages { pageMeta, initialized := true }).1 = some addr →
      ∃ page req, addr = pool.base + page * pageSize ∧
        pages ≤ 2 ^ req ∧ (∀ k, pages ≤ 2 ^ k → req ≤ k) ∧
        CutOut pageMeta tiling page req
          (physAlloc pool pages { pageMeta, initialized := true }).2.pageMeta := by
  rcases wellFormed.refused_or_served pool pages with
    ⟨reason, refused⟩ | ⟨noReason, req, page, current, order, searched, served⟩
  · rw [refused]
    exact ⟨iff_of_true rfl reason, fun _ => rfl,
      fun _ answer => absurd answer (Option.some_ne_none _).symm⟩
  · rw [served]
    refine ⟨iff_of_false (Option.some_ne_none _) noReason,
      fun refused => absurd refused (Option.some_ne_none _), ?_⟩
    intro addr answer
    exact ⟨page, req, (Option.some.inj answer).symm, (reqOrder_eq_some order).1,
      fun k => (reqOrder_le_iff order).mpr, wellFormed.cutOut searched⟩

/-- A request for 200 pages splits a maximal block twice. -/
theorem physAlloc_wellFormed_whole :
    ∃ page req, 0x200000 = samplePool.base + page * pageSize ∧
      200 ≤ 2 ^ req ∧ (∀ k, 200 ≤ 2 ^ k → req ≤ k) ∧
      CutOut wholePool wholeTiling page req
        (physAlloc samplePool 200 { pageMeta := wholePool, initialized := true }).2.pageMeta :=
  (physAlloc_wellFormed samplePool wholePool_wellFormed 200).2.2 0x200000 (by decide +kernel)

/-! ### Freeing -/

/-- Joining a free block with the free buddy on its right frees no page and takes
none. -/
theorem freePage_joined {idx order : Nat} (below : idx < totalPages)
    (entry : pageMeta idx = { order, isFree := true }) (joins : Joins pageMeta idx order)
    (right : idx ^^^ 2 ^ order = idx + 2 ^ order) (page : Nat) :
    FreePage (joined pageMeta idx order) page ↔ FreePage pageMeta page := by
  obtain ⟨_, inside, free, same⟩ := joins
  have double := Nat.pow_succ 2 order
  have positive := Nat.two_pow_pos order
  have notLeft : ¬ idx ^^^ 2 ^ order < idx := by omega
  have head := @joined_self pageMeta idx order notLeft
  constructor
  · rintro ⟨start, inPool, marked, lower, upper⟩
    by_cases isIdx : start = idx
    · subst isIdx
      rw [head] at upper
      by_cases half : page < start + 2 ^ order
      · exact ⟨start, inPool, by rw [entry], lower, by rwa [entry]⟩
      · have ends : page < start + 2 ^ order + 2 ^ order := by
          have : page < start + 2 ^ (order + 1) := upper
          omega
        rw [right] at inside free same
        exact ⟨start + 2 ^ order, inside, free, not_lt.mp half, same.symm ▸ ends⟩
    · have notBuddy : start ≠ idx ^^^ 2 ^ order := by
        rintro rfl
        rw [joined_buddy notLeft] at marked
        cases marked
      rw [joined_of_ne isIdx notBuddy] at marked upper
      exact ⟨start, inPool, marked, lower, upper⟩
  · rintro ⟨start, inPool, marked, lower, upper⟩
    have whole (before : idx ≤ page) (behind : page < idx + 2 ^ order + 2 ^ order) :
        FreePage (joined pageMeta idx order) page := by
      have ends : page < idx + 2 ^ (order + 1) := by omega
      exact ⟨idx, below, by rw [head], before, by rwa [head]⟩
    by_cases isIdx : start = idx
    · subst isIdx
      rw [entry] at upper
      have ends : page < start + 2 ^ order := upper
      exact whole lower (by omega)
    · by_cases isBuddy : start = idx ^^^ 2 ^ order
      · subst isBuddy
        rw [same] at upper
        exact whole (by omega) (by omega)
      · have kept : joined pageMeta idx order start = pageMeta start :=
          joined_of_ne isIdx isBuddy
        exact ⟨start, inPool, kept.symm ▸ marked, lower, kept.symm ▸ upper⟩

/-- A loop that grows only to the right frees no page and takes none. -/
theorem freePage_coalesce {fuel idx order : Nat} (below : idx < totalPages)
    (aligned : 2 ^ order ∣ idx) (entry : pageMeta idx = { order, isFree := true })
    (rightwards : mergesLeft pageMeta fuel idx order = false) (page : Nat) :
    FreePage (coalesce fuel pageMeta idx order) page ↔ FreePage pageMeta page := by
  induction fuel generalizing pageMeta order with
  | zero => exact Iff.rfl
  | succ fuel ih =>
      by_cases joins : Joins pageMeta idx order
      · have positive := Nat.two_pow_pos order
        have stays : ¬ mergesLeft pageMeta (fuel + 1) idx order = true := by
          rw [rightwards]
          exact Bool.false_ne_true
        rw [mergesLeft_succ, not_and, not_or] at stays
        obtain ⟨notLeft, later⟩ := stays joins
        have right : idx ^^^ 2 ^ order = idx + 2 ^ order := by
          have flipped := xor_two_pow_of_dvd aligned
          split_ifs at flipped with even
          · exact flipped
          · have := two_pow_le_of_not_dvd aligned even
            omega
        have alignedHead := (joinedHead_aligned aligned).1
        have unread := mergesLeft_round pageMeta fuel notLeft
        rw [coalesce_of_joins joins]
        rw [joinedHead_of_right notLeft] at alignedHead ⊢
        rw [ih alignedHead (joined_self notLeft)
          (unread.trans (Bool.eq_false_of_not_eq_true later))]
        exact freePage_joined below entry joins right page
      · rw [coalesce_of_not_joins joins]

/-- Freeing a held block adds its pages to the free ones. -/
theorem freePage_freed {start order : Nat} (below : start < totalPages)
    (orderIs : (pageMeta start).order = order) (held : (pageMeta start).isFree = false)
    (page : Nat) :
    FreePage (Function.update pageMeta start { pageMeta start with isFree := true }) page ↔
      FreePage pageMeta page ∨ (start ≤ page ∧ page < start + 2 ^ order) := by
  constructor
  · rintro ⟨first, inPool, marked, lower, upper⟩
    by_cases same : first = start
    · subst same
      rw [Function.update_self] at upper
      exact Or.inr ⟨lower, orderIs ▸ upper⟩
    · rw [Function.update_of_ne same] at marked upper
      exact Or.inl ⟨first, inPool, marked, lower, upper⟩
  · rintro (⟨first, inPool, marked, lower, upper⟩ | ⟨lower, upper⟩)
    · have different : first ≠ start := by
        rintro rfl
        rw [held] at marked
        cases marked
      exact ⟨first, inPool, by rwa [Function.update_of_ne different], lower,
        by rwa [Function.update_of_ne different]⟩
    · refine ⟨start, below, by rw [Function.update_self], lower, ?_⟩
      rw [Function.update_self]
      exact orderIs.symm ▸ upper

/-- What freeing a held block is for: the array stays well formed, exactly the
pages of the block become free, and every other held block is as before. -/
structure Released (pageMeta : PageMeta) (tiling : Tiling totalPages) (start order : Nat)
    (next : PageMeta) : Prop where
  wellFormed : ∃ after : Tiling totalPages, WellFormed next after ∧
    ∀ other k, other ≠ start → tiling.order other = some k → (pageMeta other).isFree = false →
      after.order other = some k ∧ next other = pageMeta other
  freed : ∀ page, FreePage next page ↔
    FreePage pageMeta page ∨ (start ≤ page ∧ page < start + 2 ^ order)

/-- An array with a marked page strictly inside a free block describes no tiling. -/
theorem WellFormed.no_stale (wellFormed : WellFormed pageMeta tiling) {head page : Nat}
    (below : page < totalPages) (freeHead : (pageMeta head).isFree = true)
    (free : (pageMeta page).isFree = true) (before : head < page) :
    head + 2 ^ (pageMeta head).order ≤ page :=
  tiling.apart (wellFormed.order_of_free (before.trans below) freeHead)
    (wellFormed.order_of_free below free) before

/-- The entry of a block after its free bit is set. -/
theorem WellFormed.freed_entry (wellFormed : WellFormed pageMeta tiling) {start order : Nat}
    (found : tiling.order start = some order) :
    Function.update pageMeta start { pageMeta start with isFree := true } start =
      { order, isFree := true } := by
  rw [Function.update_self, ← wellFormed.head found]

/-- After a join to the left the array describes no tiling. -/
theorem not_wellFormed_of_mergesLeft (pool : MemPool) (wellFormed : WellFormed pageMeta tiling)
    {start order : Nat} (found : tiling.order start = some order)
    (held : (pageMeta start).isFree = false) (left : MergesLeft pageMeta start) (pages : Nat)
    (after : Tiling totalPages) :
    ¬ WellFormed (physFree pool (some (pool.base + start * pageSize)) pages
      { pageMeta, initialized := true }).pageMeta after := by
  have below := wellFormed.lt_totalPages found
  have orderIs := wellFormed.head found
  have entry := wellFormed.freed_entry found
  obtain ⟨head, final, headEntry, before, behind⟩ :=
    coalesce_stale (tiling.aligned found) entry ((mergesLeft_freed_iff orderIs).mpr left)
  have stale : (coalesce maxOrder _ start order start).isFree = true :=
    coalesce_isFree_start (congrArg PageInfo.isFree entry)
  rw [physFree_pageMeta pool rfl below orderIs held pages]
  intro wellFormedAfter
  have apart := wellFormedAfter.no_stale below (by rw [headEntry]) stale before
  rw [headEntry] at apart
  exact absurd behind (not_lt.mpr apart)

/-- **Freeing keeps the pool tiled exactly if no buddy on the left is joined.** -/
theorem physFree_released_iff (pool : MemPool) {pageMeta : PageMeta} {tiling : Tiling totalPages}
    (wellFormed : WellFormed pageMeta tiling) {start order : Nat}
    (found : tiling.order start = some order) (held : (pageMeta start).isFree = false)
    (pages : Nat) :
    Released pageMeta tiling start order
        (physFree pool (some (pool.base + start * pageSize)) pages
          { pageMeta, initialized := true }).pageMeta ↔
      ¬ MergesLeft pageMeta start := by
  constructor
  · intro released left
    obtain ⟨after, wellFormedAfter, _⟩ := released.wellFormed
    exact not_wellFormed_of_mergesLeft pool wellFormed found held left pages after wellFormedAfter
  · intro rightwards
    have below := wellFormed.lt_totalPages found
    have orderIs := wellFormed.head found
    have entry := wellFormed.freed_entry found
    have calm := mergesLeft_freed orderIs rightwards
    obtain ⟨after, represents, others⟩ := @physFree_represents 0 tiling pool
      { pageMeta, initialized := true } rfl (wellFormed_iff.mp wellFormed) start order found held
      rightwards pages
    refine ⟨⟨after, wellFormed_iff.mpr represents, others⟩, fun page => ?_⟩
    rw [physFree_pageMeta pool rfl below orderIs held pages,
      freePage_coalesce below (tiling.aligned found) entry calm,
      freePage_freed below orderIs held]

/-- The first maximal block is cut in two. -/
def halvedTiling : Tiling totalPages :=
  wholeTiling.split (show wholeTiling.order 0 = some (9 + 1) by decide)

/-- One half of the first maximal block is held. -/
def halfHeld (half : Nat) : PageMeta :=
  Function.update
    (Function.update (Function.update wholePool 0 { order := 9, isFree := true }) 512
      { order := 9, isFree := true })
    half { order := 9, isFree := false }

theorem halfHeld_wellFormed {half : Nat} (found : halvedTiling.order half = some 9)
    (isHalf : half = 0 ∨ half = 512) : WellFormed (halfHeld half) halvedTiling := by
  have whole : wholeTiling.order 0 = some (9 + 1) := by decide
  have halves := (wellFormed_iff.mp wholePool_wellFormed).split whole (Nat.zero_le 9)
  have held := wellFormed_iff.mpr (halves.setFree found false)
  rcases isHalf with rfl | rfl
  · exact held
  · exact held

/-- The left half is joined with the right one. -/
theorem physFree_released_halved :
    Released (halfHeld 0) halvedTiling 0 9
        (physFree samplePool (some (samplePool.base + 0 * pageSize)) 512
          { pageMeta := halfHeld 0, initialized := true }).pageMeta ↔
      ¬ MergesLeft (halfHeld 0) 0 :=
  physFree_released_iff samplePool (halfHeld_wellFormed (by decide) (.inl rfl)) (by decide)
    (by decide) 512

/-- Freeing the right half of a block whose left half is free leaves the bit of the
right half in place. -/
theorem not_released_halved :
    WellFormed (halfHeld 512) halvedTiling ∧ halvedTiling.order 512 = some 9 ∧
      (halfHeld 512 512).isFree = false ∧
      ¬ Released (halfHeld 512) halvedTiling 512 9
        (physFree samplePool (some (samplePool.base + 512 * pageSize)) 512
          { pageMeta := halfHeld 512, initialized := true }).pageMeta := by
  have found : halvedTiling.order 512 = some 9 := by decide
  have held : (halfHeld 512 512).isFree = false := by decide
  have wellFormed := halfHeld_wellFormed found (.inr rfl)
  refine ⟨wellFormed, found, held, fun released => ?_⟩
  obtain ⟨after, wellFormedAfter, _⟩ := released.wellFormed
  exact not_wellFormed_of_mergesLeft samplePool wellFormed found held (by decide) 512 after
    wellFormedAfter

end Lofita.Ppa
