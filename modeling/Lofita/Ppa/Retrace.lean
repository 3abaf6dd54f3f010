import Lofita.Ppa.Tiled

/-! # Freeing undoes allocating

In a pool in which no two free buddies are left unjoined, the coalescing loop
started from a block that was just handed out joins exactly the halves that the
split released, in the opposite order (`coalesce_splitDown`), and stops at the
block the split started from. What remains of the two calls is the order recorded
in entries inside that block (`physFree_physAlloc`).
-/

namespace Lofita.Ppa

open Lofita.Foundation

/-- No two free blocks of one order below the largest are buddies. -/
def FullyMerged (pageMeta : PageMeta) (tiling : Tiling totalPages) : Prop :=
  ∀ start k, k < maxOrder - 1 → tiling.order start = some k →
    (pageMeta start).isFree = true → tiling.order (start ^^^ 2 ^ k) = some k →
      (pageMeta (start ^^^ 2 ^ k)).isFree = false

variable {pageMeta : PageMeta} {tiling : Tiling totalPages}

/-- A loop from the part that serves a request joins the released halves one after
the other, until it has the whole block again. -/
theorem coalesce_splitDown {i req current : Nat} (fuel : Nat) (enough : req ≤ current)
    (aligned : 2 ^ current ∣ i) (inside : i + 2 ^ current ≤ totalPages)
    (bounded : current < maxOrder) :
    ∃ back : PageMeta,
      coalesce (fuel + (current - req))
          (Function.update (splitDown i req current pageMeta) i { order := req, isFree := true })
          i req =
        coalesce fuel back i current ∧
      back i = { order := current, isFree := true } ∧
      ∀ page, page ≠ i → back page = pageMeta page ∨
        ((back page).isFree = false ∧ i < page ∧ page < i + 2 ^ current) := by
  induction current generalizing pageMeta fuel with
  | zero =>
      cases Nat.le_zero.mp enough
      exact ⟨_, rfl, Function.update_self .., fun page different =>
        Or.inl (Function.update_of_ne different _ _)⟩
  | succ co ih =>
      unfold splitDown
      split_ifs with larger
      · have double := Nat.pow_succ 2 co
        have positive := Nat.two_pow_pos co
        have room : co < maxOrder - 1 := by simp only [maxOrder] at *; omega
        have alignedHalf : 2 ^ co ∣ i := (Nat.pow_dvd_pow 2 co.le_succ).trans aligned
        have buddyIs : i ^^^ 2 ^ co = i + 2 ^ co := by
          rw [xor_two_pow_of_dvd alignedHalf, if_pos aligned]
        have notLeft : ¬ i ^^^ 2 ^ co < i := by omega
        obtain ⟨half, retraced, halfHead, halfRest⟩ :=
          @ih (Function.update (Function.update pageMeta i { pageMeta i with order := co })
            (i + 2 ^ co) { order := co, isFree := true }) (fuel + 1) (by omega) alignedHalf
            (by omega) (by omega)
        have released : half (i + 2 ^ co) = { order := co, isFree := true } := by
          rcases halfRest (i + 2 ^ co) (by omega) with kept | ⟨_, _, interior⟩
          · rw [kept, Function.update_self]
          · omega
        have joins : Joins half i co := by
          refine ⟨room, ?_, ?_, ?_⟩ <;> rw [buddyIs]
          · omega
          · rw [released]
          · rw [released]
        have steps : fuel + (co + 1 - req) = fuel + 1 + (co - req) := by omega
        refine ⟨joined half i co, ?_, joined_self notLeft, fun page different => ?_⟩
        · rw [steps, retraced, coalesce_of_joins joins, joinedHead_of_right notLeft]
        · by_cases isBuddy : page = i + 2 ^ co
          · subst isBuddy
            have retired := @joined_buddy half i co notLeft
            rw [buddyIs] at retired
            exact Or.inr ⟨retired, by omega, by omega⟩
          · rw [joined_of_ne different (buddyIs ▸ isBuddy)]
            refine (halfRest page different).imp (fun kept => ?_) fun interior => ?_
            · rw [kept, Function.update_of_ne isBuddy, Function.update_of_ne different]
            · exact ⟨interior.1, interior.2.1, by omega⟩
      · have whole : req = co + 1 := by omega
        subst whole
        rw [Nat.sub_self, Nat.add_zero]
        exact ⟨_, rfl, Function.update_self .., fun page different =>
          Or.inl (Function.update_of_ne different _ _)⟩

/-- In a fully merged pool a loop that has regained a block of the pool stops. -/
theorem FullyMerged.not_joins (merged : FullyMerged pageMeta tiling)
    (wellFormed : WellFormed pageMeta tiling) {i current : Nat}
    (found : tiling.order i = some current) (free : (pageMeta i).isFree = true)
    {back : PageMeta}
    (rest : ∀ page, page ≠ i → back page = pageMeta page ∨
      ((back page).isFree = false ∧ i < page ∧ page < i + 2 ^ current)) :
    ¬ Joins back i current := by
  rintro ⟨room, inside, freeBuddy, sameOrder⟩
  rcases rest (i ^^^ 2 ^ current) (xor_two_pow_ne i current) with kept | ⟨taken, _⟩
  · rw [kept] at freeBuddy sameOrder
    have foundBuddy := wellFormed.order_of_free inside freeBuddy
    rw [sameOrder] at foundBuddy
    have heldBuddy := merged i current room found free foundBuddy
    rw [freeBuddy] at heldBuddy
    cases heldBuddy
  · rw [taken] at freeBuddy
    cases freeBuddy

/-- A free of the part that was just served gives the whole block back. -/
theorem FullyMerged.retraces (pool : MemPool) (merged : FullyMerged pageMeta tiling)
    (wellFormed : WellFormed pageMeta tiling) {req page current : Nat}
    (searched : findBlock pageMeta (maxOrder - req) req = some (page, current)) (count : Nat) :
    let back := (physFree pool (some (pool.base + page * pageSize)) count
      { pageMeta := Function.update (splitDown page req current pageMeta) page
          { splitDown page req current pageMeta page with isFree := false }
        initialized := true }).pageMeta
    back page = { order := current, isFree := true } ∧
      ∀ other, other ≠ page → back other = pageMeta other ∨
        ((back other).isFree = false ∧ page < other ∧ other < page + 2 ^ current) := by
  obtain ⟨free, sameOrder, below, enough, _⟩ := findBlock_eq_some searched
  have found : tiling.order page = some current := sameOrder ▸ wellFormed.order_of_free below free
  obtain ⟨after, split, servedBlock, _⟩ :=
    splitDown_represents (wellFormed_iff.mp wellFormed) found (Nat.zero_le req) enough
  have orderIs := split.head servedBlock
  have bounded := wellFormed.lt_maxOrder found
  obtain ⟨back, retraced, head, rest⟩ := @coalesce_splitDown pageMeta page req current
    (maxOrder - (current - req)) enough (tiling.aligned found) (tiling.inside found) bounded
  have steps : maxOrder - (current - req) + (current - req) = maxOrder := by omega
  rw [steps] at retraced
  have result : (physFree pool (some (pool.base + page * pageSize)) count
      { pageMeta := Function.update (splitDown page req current pageMeta) page
          { splitDown page req current pageMeta page with isFree := false }
        initialized := true }).pageMeta = back := by
    calc _ = coalesce maxOrder (Function.update (splitDown page req current pageMeta) page
            { order := req, isFree := true }) page req := by
          have orderTaken : (Function.update (splitDown page req current pageMeta) page
              { splitDown page req current pageMeta page with isFree := false } page).order =
              req := by rwa [Function.update_self]
          rw [physFree_pageMeta pool rfl below orderTaken
            (by simp only [Function.update_self])]
          simp only [Function.update_self, Function.update_idem, orderIs]
      _ = coalesce (maxOrder - (current - req)) back page current := retraced
      _ = back := coalesce_of_not_joins (merged.not_joins wellFormed found free rest)
  simp only [result]
  exact ⟨head, rest⟩

/-- **Freeing undoes allocating.** In a fully merged pool, freeing the block just
handed out restores the free bit of every page and the order of every block. -/
theorem physFree_physAlloc (pool : MemPool) {pageMeta : PageMeta} {tiling : Tiling totalPages}
    (wellFormed : WellFormed pageMeta tiling) (merged : FullyMerged pageMeta tiling)
    {pages addr : Nat} {next : PpaState}
    (answer : physAlloc pool pages { pageMeta, initialized := true } = (some addr, next))
    (count : Nat) :
    (∀ page, ((physFree pool (some addr) count next).pageMeta page).isFree =
      (pageMeta page).isFree) ∧
    ∀ start k, tiling.order start = some k →
      ((physFree pool (some addr) count next).pageMeta start).order = k := by
  obtain refused | ⟨req, page, current, _, _, searched, served⟩ :=
    @physAlloc_cases { pageMeta, initialized := true } pool rfl pages
  · rw [refused] at answer
    cases answer
  · cases answer.symm.trans served
    obtain ⟨free, sameOrder, below, _⟩ := findBlock_eq_some searched
    have found : tiling.order page = some current :=
      sameOrder ▸ wellFormed.order_of_free below free
    obtain ⟨head, rest⟩ := merged.retraces pool wellFormed searched count
    constructor
    · intro other
      by_cases same : other = page
      · rw [same, head, free]
      · rcases rest other same with kept | ⟨taken, after, before⟩
        · rw [kept]
        · have inside := tiling.inside found
          rw [taken, wellFormed.interior (by omega)
            (tiling.order_eq_none_of_inside found after before)]
    · intro start k lookup
      by_cases same : start = page
      · subst same
        rw [head]
        exact Option.some.inj (found.symm.trans lookup)
      · rcases rest start same with kept | ⟨_, after, before⟩
        · rw [kept, wellFormed.head lookup]
        · rw [tiling.order_eq_none_of_inside found after before] at lookup
          cases lookup

theorem wholePool_merged : FullyMerged wholePool wholeTiling := by
  intro start k room found
  simp only [wholeTiling, Tiling.uniform] at found
  split_ifs at found
  cases found
  exact absurd room (lt_irrefl _)

/-- A maximal block is split twice for 200 pages, and the buddies are joined again. -/
theorem physFree_physAlloc_whole :
    (∀ page, ((physFree samplePool (some 0x200000) 7
      (physAlloc samplePool 200 { pageMeta := wholePool, initialized := true }).2).pageMeta
        page).isFree = (wholePool page).isFree) ∧
    ∀ start k, wholeTiling.order start = some k →
      ((physFree samplePool (some 0x200000) 7
        (physAlloc samplePool 200 { pageMeta := wholePool, initialized := true }).2).pageMeta
          start).order = k :=
  physFree_physAlloc samplePool wholePool_wellFormed wholePool_merged
    (Prod.ext (by decide +kernel) rfl) 7

end Lofita.Ppa
