import Lofita.Ppa.Coalesce
import Lofita.Ppa.Exclusivity

/-! # The simulator of the allocator

`BuddyAllocator` of `run_simulation.py` simulates the allocator on an array of its
own. Its `alloc` is the search and the split of `phys_alloc`. Its `free` differs in
two points: it takes the order of the block from the caller's page count instead of
from the array, and it has no guard against a page whose free bit is set. The two
run in lockstep as long as neither difference shows (`sameAnswer_run`).
-/

namespace Lofita.Ppa

open Lofita.Foundation

/-- The simulator's array `pages`. -/
structure BuddyAllocator where
  pages : PageMeta

namespace BuddyAllocator

/-- All pages are free, in the largest blocks. -/
def init : BuddyAllocator := { pages := markHeads fun _ => { order := 0, isFree := true } }

/-- `alloc`: the physical address, counted from the start of the pool. -/
def alloc (numPages : Nat) (self : BuddyAllocator) : Option Nat × BuddyAllocator :=
  if numPages = 0 then (none, self)
  else
    match reqOrder numPages with
    | none => (none, self)
    | some req =>
        match findBlock self.pages (maxOrder - req) req with
        | none => (none, self)
        | some (i, current) =>
            let split := splitDown i req current self.pages
            (some (i * pageSize),
              { pages := Function.update split i { split i with isFree := false } })

/-- The `while` loop of `free`, which looks for the least order with room for the
pages and has no largest order. -/
def roomOrder (numPages : Nat) : (fuel order : Nat) → Nat
  | 0, order => order
  | fuel + 1, order => if 2 ^ order < numPages then roomOrder numPages fuel (order + 1) else order

/-- The order `free` starts from. -/
def freeOrder (numPages : Nat) : Nat := roomOrder numPages numPages 0

/-- `free`. -/
def free (physAddr : Option Nat) (numPages : Nat) (self : BuddyAllocator) : BuddyAllocator :=
  match physAddr with
  | none => self
  | some addr =>
      if addr % pageSize ≠ 0 then self
      else
        let start := addr / pageSize
        if totalPages ≤ start then self
        else
          let freed := Function.update self.pages start { self.pages start with isFree := true }
          { pages := coalesce maxOrder freed start (freeOrder numPages) }

end BuddyAllocator

/-- The kernel's allocator and the simulator, and what was allocated and not freed
since. -/
structure Lockstep where
  kernel : PpaState
  simulator : BuddyAllocator
  held : List Holding

/-- One call to both. The simulator names a block by its offset in the pool. -/
def Lockstep.step (pool : MemPool) (state : Lockstep) : Call → Lockstep
  | .alloc pages =>
      { kernel := (physAlloc pool pages state.kernel).2
        simulator := (state.simulator.alloc pages).2
        held := (physAlloc pool pages state.kernel).1.elim state.held
          fun addr => ⟨addr, pages⟩ :: state.held }
  | .free addr pages =>
      { kernel := physFree pool (some addr) pages state.kernel
        simulator := state.simulator.free (some (addr - pool.base)) pages
        held := state.held.erase ⟨addr, pages⟩ }

/-- Both allocators under the same calls. -/
def lockstep (pool : MemPool) : System Lockstep Call := ⟨Lockstep.step pool⟩

/-- Both as they are made, with nothing held. -/
def Lockstep.start : Lockstep := { kernel := boot, simulator := .init, held := [] }

/-- A free names a block allocated earlier and not freed since, with the page count
it was requested with. -/
def FreesAsRequested (state : Lockstep) : Call → Prop
  | .alloc _ => True
  | .free addr pages => ⟨addr, pages⟩ ∈ state.held

instance (state : Lockstep) : ∀ call, Decidable (FreesAsRequested state call)
  | .alloc _ => .isTrue trivial
  | .free addr pages => inferInstanceAs (Decidable (Holding.mk addr pages ∈ state.held))

/-- The allocator and the simulator return the same offset, or both nothing. -/
def SameAnswer (pool : MemPool) (state : Lockstep) : Call → Prop
  | .alloc pages =>
      (physAlloc pool pages state.kernel).1.map (· - pool.base) =
        (state.simulator.alloc pages).1
  | .free _ _ => True

instance (pool : MemPool) (state : Lockstep) : ∀ call, Decidable (SameAnswer pool state call)
  | .alloc pages =>
      inferInstanceAs (Decidable ((physAlloc pool pages state.kernel).1.map (· - pool.base) =
        (state.simulator.alloc pages).1))
  | .free _ _ => .isTrue trivial

/-- The differences between the two ways of freeing a page do not show. Either the
entry is held and has the order of the page count, or no loop joins anything that
the other does not. -/
def FreesAlike (pageMeta : PageMeta) (page order : Nat) : Prop :=
  ((pageMeta page).isFree = false ∧ (pageMeta page).order = order) ∨
    (¬ Joins pageMeta page order ∧
      ((pageMeta page).isFree = true ∨ ¬ Joins pageMeta page (pageMeta page).order))

instance (pageMeta : PageMeta) (page order : Nat) : Decidable (FreesAlike pageMeta page order) :=
  inferInstanceAs (Decidable (_ ∨ _))

/-- The call is not a free in which a difference between the two shows. -/
def Undisturbed (pool : MemPool) (state : Lockstep) : Call → Prop
  | .alloc _ => True
  | .free addr pages => ∀ page ∈ startPage pool addr,
      FreesAlike state.kernel.pageMeta page (BuddyAllocator.freeOrder pages)

instance (pool : MemPool) (state : Lockstep) : ∀ call, Decidable (Undisturbed pool state call)
  | .alloc _ => .isTrue trivial
  | .free addr pages =>
      inferInstanceAs (Decidable (∀ page ∈ startPage pool addr,
        FreesAlike state.kernel.pageMeta page (BuddyAllocator.freeOrder pages)))

/-- Both arrays hold the same entries, and what is held starts at pages of the
pool. -/
structure InStep (pool : MemPool) (state : Lockstep) : Prop where
  initialized : state.kernel.initialized = true
  same : state.kernel.pageMeta = state.simulator.pages
  held : ∀ holding ∈ state.held, ∃ page, page < totalPages ∧
    holding.addr = pool.base + page * pageSize

variable {pool : MemPool} {state : Lockstep}

theorem inStep_start (pool : MemPool) : InStep pool .start :=
  ⟨rfl, rfl, fun _ member => absurd member List.not_mem_nil⟩

/-- On equal arrays the two allocations are one. -/
theorem InStep.alloc_cases (inStep : InStep pool state) (pages : Nat) :
    (physAlloc pool pages state.kernel = (none, state.kernel) ∧
      state.simulator.alloc pages = (none, state.simulator)) ∨
    ∃ page next, page < totalPages ∧
      physAlloc pool pages state.kernel =
        (some (pool.base + page * pageSize), { pageMeta := next, initialized := true }) ∧
      state.simulator.alloc pages = (some (page * pageSize), { pages := next }) := by
  have initialized := inStep.initialized
  have same := inStep.same
  by_cases empty : pages = 0
  · left
    simp only [physAlloc, BuddyAllocator.alloc, initialized, empty, ↓reduceIte, and_self]
  cases order : reqOrder pages with
  | none =>
      left
      simp only [physAlloc, BuddyAllocator.alloc, initialized, empty, order, ↓reduceIte, and_self]
  | some req =>
      cases searched : findBlock state.simulator.pages (maxOrder - req) req with
      | none =>
          left
          simp only [physAlloc, BuddyAllocator.alloc, initialized, empty, order, same, searched,
            ↓reduceIte, and_self]
      | some entry =>
          right
          obtain ⟨page, current⟩ := entry
          obtain ⟨_, _, below, _⟩ := findBlock_eq_some searched
          refine ⟨page, Function.update (splitDown page req current state.simulator.pages) page
            { splitDown page req current state.simulator.pages page with isFree := false },
            below, ?_, ?_⟩
          · simp only [physAlloc, initialized, empty, order, same, searched, ↓reduceIte]
          · simp only [BuddyAllocator.alloc, empty, order, searched, ↓reduceIte]

/-- What the kernel does to the array in a free of a page of the pool. -/
theorem physFree_at (pool : MemPool) {kernel : PpaState} (initialized : kernel.initialized = true)
    {page : Nat} (below : page < totalPages) (pages : Nat) :
    (physFree pool (some (pool.base + page * pageSize)) pages kernel).pageMeta =
      if (kernel.pageMeta page).isFree then kernel.pageMeta
      else coalesce maxOrder (Function.update kernel.pageMeta page
        { kernel.pageMeta page with isFree := true }) page (kernel.pageMeta page).order := by
  split_ifs with free
  · simp only [physFree, initialized, Option.bind_some, startPage_of_page below, free, ↓reduceIte]
  · exact physFree_pageMeta pool initialized below rfl (Bool.eq_false_of_not_eq_true free) pages

/-- What the simulator does to the array in a free of a page of the pool. -/
theorem free_at (simulator : BuddyAllocator) {page : Nat} (below : page < totalPages)
    (pages : Nat) :
    (simulator.free (some (page * pageSize)) pages).pages =
      coalesce maxOrder (Function.update simulator.pages page
        { simulator.pages page with isFree := true }) page (BuddyAllocator.freeOrder pages) := by
  have whole : page * pageSize / pageSize = page := Nat.mul_div_cancel page (by decide)
  simp only [BuddyAllocator.free, Nat.mul_mod_left, whole, not_le.mpr below, ne_eq,
    not_true_eq_false, ↓reduceIte]

/-- The free bit of the page that is freed does not decide whether it is joined. -/
theorem joins_freed (pageMeta : PageMeta) (page order : Nat) (entry : PageInfo) :
    Joins (Function.update pageMeta page entry) page order ↔ Joins pageMeta page order := by
  unfold Joins
  rw [Function.update_of_ne (xor_two_pow_ne page order)]

/-- A free in which no difference shows has the same effect on equal arrays. -/
theorem FreesAlike.same_array (pool : MemPool) {kernel : PpaState} {simulator : BuddyAllocator}
    (initialized : kernel.initialized = true) (same : kernel.pageMeta = simulator.pages)
    {page : Nat} (below : page < totalPages) {pages : Nat}
    (alike : FreesAlike kernel.pageMeta page (BuddyAllocator.freeOrder pages)) :
    (physFree pool (some (pool.base + page * pageSize)) pages kernel).pageMeta =
      (simulator.free (some (page * pageSize)) pages).pages := by
  rw [physFree_at pool initialized below, free_at simulator below, ← same]
  rcases alike with ⟨held, sameOrder⟩ | ⟨alone, free | aloneToo⟩
  · rw [held, sameOrder]
    rfl
  · rw [coalesce_of_not_joins (mt (joins_freed _ _ _ _).mp alone), if_pos free, ← free,
      Function.update_eq_self]
  · rw [coalesce_of_not_joins (mt (joins_freed _ _ _ _).mp alone),
      coalesce_of_not_joins (mt (joins_freed _ _ _ _).mp aloneToo)]
    split_ifs with free
    · rw [← free, Function.update_eq_self]
    · rfl

/-- An undisturbed call keeps them in step. -/
theorem InStep.step (inStep : InStep pool state) {call : Call}
    (frees : FreesAsRequested state call) (undisturbed : Undisturbed pool state call) :
    InStep pool (state.step pool call) := by
  cases call with
  | alloc pages =>
      rcases inStep.alloc_cases pages with ⟨refused, refusedToo⟩ |
        ⟨page, next, below, served, servedToo⟩
      · refine ⟨?_, ?_, ?_⟩ <;> simp only [Lockstep.step, refused, refusedToo]
        · exact inStep.initialized
        · exact inStep.same
        · exact inStep.held
      · refine ⟨?_, ?_, ?_⟩ <;> simp only [Lockstep.step, served, servedToo]
        intro holding member
        rcases List.mem_cons.mp member with rfl | earlier
        · exact ⟨page, below, rfl⟩
        · exact inStep.held holding earlier
  | free addr pages =>
      obtain ⟨page, below, addrIs⟩ := inStep.held _ frees
      have addrIs : addr = pool.base + page * pageSize := addrIs
      subst addrIs
      have named := @startPage_of_page pool page below
      have alike := undisturbed page named
      refine ⟨?_, ?_, fun holding member => inStep.held holding (List.mem_of_mem_erase member)⟩
      · exact (physFree_initialized pool _ pages state.kernel).trans inStep.initialized
      · simp only [Lockstep.step, Nat.add_sub_cancel_left]
        exact alike.same_array pool inStep.initialized inStep.same below

/-- In step they answer alike. -/
theorem InStep.sameAnswer (inStep : InStep pool state) (call : Call) :
    SameAnswer pool state call := by
  cases call with
  | free addr pages => trivial
  | alloc pages =>
      rcases inStep.alloc_cases pages with ⟨refused, refusedToo⟩ |
        ⟨page, next, below, served, servedToo⟩
      · simp only [SameAnswer, refused, refusedToo, Option.map_none]
      · simp only [SameAnswer, served, servedToo, Option.map_some, Nat.add_sub_cancel_left]

/-- **The simulator keeps in step.** In every run in which clients free what they
hold with the page count they asked for, and no free shows a difference between
the two, every allocation gets the same answer from both. -/
theorem sameAnswer_run (pool : MemPool) (calls : List Call)
    (frees : (lockstep pool).Along FreesAsRequested .start calls)
    (undisturbed : (lockstep pool).Along (Undisturbed pool) .start calls) :
    (lockstep pool).Along (SameAnswer pool) .start calls := by
  refine System.along_of_invariant ?_ ?_ (inStep_start pool)
    (System.along_and.mpr ⟨frees, undisturbed⟩)
  · rintro state call inStep ⟨frees, undisturbed⟩
    exact inStep.step frees undisturbed
  · rintro state call inStep _
    exact inStep.sameAnswer call

theorem sameAnswer_run_sample :
    (lockstep samplePool).Along (SameAnswer samplePool) .start
      [.alloc 512, .alloc 300, .free 0x200000 512, .alloc 1024] :=
  sameAnswer_run samplePool _ (by decide +kernel) (by decide +kernel)

/-- The right half of a joined block keeps its bit and is handed out on its own; then
the joined block is cut into smaller pieces, one of which starts at the same page. The
free of the right half goes by the order of the piece in the kernel and by the page
count in the simulator. -/
def overlappingCalls : List Call :=
  [.alloc 512, .alloc 512, .free 0x200000 512, .free 0x400000 512, .alloc 512, .alloc 256,
    .alloc 256, .alloc 256, .free 0x400000 512, .alloc 512]

theorem not_sameAnswer_overlapping :
    (lockstep samplePool).Along FreesAsRequested .start overlappingCalls ∧
      ¬ (lockstep samplePool).Along (SameAnswer samplePool) .start overlappingCalls := by
  constructor
  · decide +kernel
  · decide +kernel

end Lofita.Ppa
