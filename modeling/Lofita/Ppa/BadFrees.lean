import Mathlib.Data.List.Induction
import Lofita.Ppa.Coalesce
import Lofita.Ppa.Exclusivity

/-! # Frees of pointers that nobody holds

`phys_free` tells a pointer to a held block from any other pointer to a page of
the pool by the free bit of that page. The bit is clear on the first page of a
held block, and on a page that a free has retired by joining the block it starts
to the block on its left (`RetiredBy`). A free of a pointer that nobody holds is
ignored exactly if it does not name a retired page (`physFree_ignores_iff`).
-/

namespace Lofita.Ppa

open Lofita.Foundation

/-- A free of the run cleared the bit of the page, and no later call has set it. -/
def RetiredBy (pool : MemPool) (calls : List Call) (page : Nat) : Prop :=
  ∃ earlier addr pages later, calls = earlier ++ .free addr pages :: later ∧
    (((allocator pool).run .boot earlier).ppa.pageMeta page).isFree = true ∧
    ∀ front, front <+: later →
      (((allocator pool).run .boot (earlier ++ .free addr pages :: front)).ppa.pageMeta
        page).isFree = false

variable {pool : MemPool} {state : PpaState} {calls : List Call}

theorem RetiredBy.clear {page : Nat} (retired : RetiredBy pool calls page) :
    (((allocator pool).run .boot calls).ppa.pageMeta page).isFree = false := by
  obtain ⟨earlier, addr, pages, later, rfl, _, clear⟩ := retired
  exact clear later List.prefix_rfl

/-- A retired page stays retired as long as its bit stays clear. -/
theorem RetiredBy.snoc {page : Nat} (retired : RetiredBy pool calls page) {call : Call}
    (clear : (((allocator pool).run .boot (calls ++ [call])).ppa.pageMeta page).isFree = false) :
    RetiredBy pool (calls ++ [call]) page := by
  obtain ⟨earlier, addr, pages, later, rfl, set, stays⟩ := retired
  refine ⟨earlier, addr, pages, later ++ [call], by simp only [List.append_assoc,
    List.cons_append], set, fun front start => ?_⟩
  rcases List.prefix_concat_iff.mp start with rfl | within
  · simpa only [List.append_assoc, List.cons_append] using clear
  · exact stays front within

/-! ### What the two calls do to free bits -/

/-- Splitting a free block clears no bit. -/
theorem splitDown_isFree {pageMeta : PageMeta} {i req current page : Nat}
    (free : (pageMeta page).isFree = true) :
    (splitDown i req current pageMeta page).isFree = true := by
  induction current generalizing pageMeta with
  | zero => exact free
  | succ co ih =>
      unfold splitDown
      split_ifs
      · apply ih
        simp only [Function.update_apply]
        split_ifs with right left
        · rfl
        · exact left ▸ free
        · exact free
      · exact free

/-- An allocation clears at most the bit of the page it hands out. -/
theorem physAlloc_clears (initialized : state.initialized = true) {pages page : Nat}
    (set : (state.pageMeta page).isFree = true)
    (clear : ((physAlloc pool pages state).2.pageMeta page).isFree = false) :
    (physAlloc pool pages state).1 = some (pool.base + page * pageSize) := by
  rcases physAlloc_cases pool initialized pages with
    refused | ⟨req, first, current, _, _, _, served⟩
  · rw [refused] at clear
    rw [set] at clear
    cases clear
  · rw [served] at clear ⊢
    by_cases same : page = first
    · rw [same]
    · have kept : (splitDown first req current state.pageMeta page).isFree = true :=
        splitDown_isFree set
      simp only [Function.update_of_ne same, kept] at clear
      cases clear

theorem startPage_eq_some {addr page : Nat} (named : startPage pool addr = some page) :
    addr = pool.base + page * pageSize ∧ page < totalPages := by
  unfold startPage at named
  split_ifs at named with outside unaligned beyond
  cases named
  have whole : pageSize ∣ addr - pool.base := Nat.dvd_of_mod_eq_zero (not_not.mp unaligned)
  refine ⟨?_, not_le.mp beyond⟩
  rw [Nat.div_mul_cancel whole]
  omega

/-- Freeing a page whose bit is clear sets the bit. -/
theorem physFree_sets (initialized : state.initialized = true) {addr page : Nat}
    (named : startPage pool addr = some page) (clear : (state.pageMeta page).isFree = false)
    (pages : Nat) : ((physFree pool (some addr) pages state).pageMeta page).isFree = true := by
  obtain ⟨rfl, below⟩ := startPage_eq_some named
  rw [physFree_pageMeta pool initialized below rfl clear]
  apply coalesce_isFree_start
  rw [Function.update_self]

theorem run_initialized (calls : List Call) :
    ((allocator pool).run .boot calls).ppa.initialized = true := by
  refine System.invariant_run (fun state : Ownership => state.ppa.initialized = true) ?_ rfl
    (System.along_of_forall fun _ _ _ => (trivial : (fun _ _ => True) _ _))
  rintro state (pages | ⟨addr, pages⟩) initialized _
  · rcases physAlloc_cases pool initialized pages with refused | ⟨_, _, _, _, _, _, served⟩
    · simp only [allocator, Ownership.step, refused, initialized]
    · simp only [allocator, Ownership.step, served]
  · exact (physFree_initialized pool (some addr) pages state.ppa).trans initialized

/-- The page is the first page of a block somebody holds. -/
def Held (pool : MemPool) (state : Ownership) (page : Nat) : Prop :=
  ∃ holding ∈ state.held, holding.addr = pool.base + page * pageSize

theorem step_alloc (state : Ownership) (pages : Nat) :
    state.step pool (.alloc pages) =
      { ppa := (physAlloc pool pages state.ppa).2
        held := (physAlloc pool pages state.ppa).1.elim state.held
          fun addr => ⟨addr, pages⟩ :: state.held } := by
  rcases answer : physAlloc pool pages state.ppa with ⟨addr | addr, next⟩ <;>
    simp only [Ownership.step, answer, Option.elim]

/-- A call keeps a page held whose bit is clear before and after it. -/
theorem Held.step {state : Ownership} (initialized : state.ppa.initialized = true) {page : Nat}
    (below : page < totalPages) (held : Held pool state page) (call : Call)
    (before : (state.ppa.pageMeta page).isFree = false)
    (after : ((state.step pool call).ppa.pageMeta page).isFree = false) :
    Held pool (state.step pool call) page := by
  obtain ⟨holding, member, addrIs⟩ := held
  cases call with
  | alloc pages =>
      rw [step_alloc]
      refine ⟨holding, ?_, addrIs⟩
      cases (physAlloc pool pages state.ppa).1 with
      | none => exact member
      | some addr => exact List.mem_cons_of_mem _ member
  | free addr pages =>
      by_cases same : holding.addr = addr
      · -- The free would have set the bit.
        have named : startPage pool addr = some page := by
          rw [← same, addrIs, startPage_of_page below]
        have set := physFree_sets initialized named before pages
        exact absurd (set.symm.trans after) Bool.noConfusion
      · exact ⟨holding, (List.mem_eraseP_of_neg (by simpa only [decide_eq_true_eq] using same)).mpr
          member, addrIs⟩

/-- A call that clears the bit of a page hands the page out, or retires it. -/
theorem held_or_free_of_clears {state : Ownership} (initialized : state.ppa.initialized = true)
    {page : Nat} {call : Call} (before : (state.ppa.pageMeta page).isFree = true)
    (after : ((state.step pool call).ppa.pageMeta page).isFree = false) :
    Held pool (state.step pool call) page ∨ ∃ addr pages, call = .free addr pages := by
  cases call with
  | alloc pages =>
      rw [step_alloc] at after ⊢
      have answer := physAlloc_clears initialized before after
      rw [answer]
      exact Or.inl ⟨⟨pool.base + page * pageSize, pages⟩, List.mem_cons_self, rfl⟩
  | free addr pages => exact Or.inr ⟨addr, pages, rfl⟩

/-- Along every run the bit of a page is clear only on held and on retired pages. -/
theorem held_or_retired (calls : List Call) {page : Nat} (below : page < totalPages)
    (clear : (((allocator pool).run .boot calls).ppa.pageMeta page).isFree = false) :
    Held pool ((allocator pool).run .boot calls) page ∨ RetiredBy pool calls page := by
  induction calls using List.reverseRecOn with
  | nil =>
      change (boot.pageMeta page).isFree = false at clear
      rw [boot_pageMeta] at clear
      cases clear
  | append_singleton calls call ih =>
      have initialized := @run_initialized pool calls
      have after := clear
      rw [System.run_append] at after ⊢
      cases before : (((allocator pool).run .boot calls).ppa.pageMeta page).isFree with
      | true =>
          refine (held_or_free_of_clears initialized before after).imp_right ?_
          rintro ⟨addr, pages, rfl⟩
          refine ⟨calls, addr, pages, [], rfl, before, fun front start => ?_⟩
          cases List.prefix_nil.mp start
          exact clear
      | false =>
          exact (ih before).imp (fun held => held.step initialized below call before after)
            fun retired => retired.snoc clear

/-- **Which bad frees are ignored.** After every run, a free of a pointer that
nobody holds leaves `page_meta` unchanged exactly if the pointer does not name a
retired page. -/
theorem physFree_ignores_iff (pool : MemPool) (calls : List Call) (ptr : Option Nat)
    (bad : ∀ addr ∈ ptr, ∀ holding ∈ ((allocator pool).run .boot calls).held,
      holding.addr ≠ addr) (pages : Nat) :
    (physFree pool ptr pages ((allocator pool).run .boot calls).ppa).pageMeta =
        ((allocator pool).run .boot calls).ppa.pageMeta ↔
      ∀ page ∈ ptr.bind (startPage pool), ¬ RetiredBy pool calls page := by
  have initialized := @run_initialized pool calls
  constructor
  · intro unchanged page named retired
    obtain ⟨addr, rfl, named⟩ := Option.bind_eq_some_iff.mp named
    have set := physFree_sets initialized named retired.clear pages
    rw [unchanged, retired.clear] at set
    cases set
  · intro notRetired
    cases named : ptr.bind (startPage pool) with
    | none => simp only [physFree, initialized, named, ↓reduceIte]
    | some page =>
        obtain ⟨addr, rfl, start⟩ := Option.bind_eq_some_iff.mp named
        obtain ⟨addrIs, below⟩ := startPage_eq_some start
        have set : (((allocator pool).run .boot calls).ppa.pageMeta page).isFree = true := by
          by_contra clear
          rcases held_or_retired calls below (Bool.eq_false_of_not_eq_true clear) with
            ⟨holding, member, same⟩ | retired
          · exact bad addr rfl holding member (same.trans addrIs.symm)
          · exact notRetired page named retired
        simp only [physFree, initialized, named, set, ↓reduceIte]

theorem physFree_ignores_interior :
    (physFree samplePool (some 0x203000) 1
        ((allocator samplePool).run .boot [.alloc 512]).ppa).pageMeta =
        ((allocator samplePool).run .boot [.alloc 512]).ppa.pageMeta ↔
      ∀ page ∈ (some 0x203000).bind (startPage samplePool),
        ¬ RetiredBy samplePool [.alloc 512] page :=
  physFree_ignores_iff samplePool [.alloc 512] (some 0x203000) (by decide +kernel) 1

/-- A page retired by a free is freed again, although nobody holds it. -/
theorem physFree_retired_page :
    let calls := [Call.alloc 512, .free 0x200000 512]
    (allocator samplePool).Along FreesHeld .boot calls ∧
      (∀ holding ∈ ((allocator samplePool).run .boot calls).held, holding.addr ≠ 0x400000) ∧
      (physFree samplePool (some 0x400000) 512
          ((allocator samplePool).run .boot calls).ppa).pageMeta ≠
        ((allocator samplePool).run .boot calls).ppa.pageMeta := by
  refine ⟨by decide +kernel, by decide +kernel, fun same => ?_⟩
  have bits := congrArg PageInfo.isFree (congrFun same 512)
  revert bits
  decide +kernel

end Lofita.Ppa
