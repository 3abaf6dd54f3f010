import Mathlib.Algebra.GroupWithZero.Nat
import Mathlib.Logic.Function.Basic

/-! # The physical page allocator

A buddy allocator over a static pool of 4 KB pages (`mm/ppa.zig`). The only
record of what is allocated is `page_meta`: one order and one free bit per page,
meaningful at the first page of a block. `physAlloc` searches the orders from
the requested one upwards, takes the first entry that matches and splits it
down; `physFree` sets the free bit back and joins buddies. The lock is left out,
since every entry point holds it from its first access to `page_meta` to its
last.
-/

namespace Lofita.Ppa

def pageSize : Nat := 4096

/-- The largest block has order `maxOrder - 1`. -/
def maxOrder : Nat := 11

def memorySize : Nat := 64 * 1024 * 1024

def totalPages : Nat := memorySize / pageSize

structure PageInfo where
  order : Nat
  isFree : Bool
deriving DecidableEq, Repr

/-- The array `page_meta`, indexed by page number. -/
abbrev PageMeta := Nat → PageInfo

/-- Where the linker put the page-aligned array `mem_pool`. -/
structure MemPool where
  base : Nat
  aligned : pageSize ∣ base
  nonnull : 0 < base

structure PpaState where
  pageMeta : PageMeta
  initialized : Bool

/-- Give the first page of every maximal block its order. -/
def markHeads (pageMeta : PageMeta) : PageMeta :=
  (List.range (totalPages / 2 ^ (maxOrder - 1))).foldl
    (fun entries block =>
      let i := block * 2 ^ (maxOrder - 1)
      Function.update entries i { entries i with order := maxOrder - 1 })
    pageMeta

def ppaInit (state : PpaState) : PpaState :=
  if state.initialized then state
  else { pageMeta := markHeads fun _ => { order := 0, isFree := true }, initialized := true }

/-- The `while` loop that looks for the least order with room for `pages`. -/
def findOrder (pages : Nat) : (fuel order : Nat) → Option Nat
  | 0, _ => none
  | fuel + 1, order =>
      if 2 ^ order < pages then
        if order + 1 ≥ maxOrder then none else findOrder pages fuel (order + 1)
      else some order

/-- The order of the block that serves a request, if one is large enough. -/
def reqOrder (pages : Nat) : Option Nat := findOrder pages maxOrder 0

/-- Scan the pages at multiples of the block size for a free entry of an order. -/
def findFree (pageMeta : PageMeta) (order : Nat) : (remaining i : Nat) → Option Nat
  | 0, _ => none
  | remaining + 1, i =>
      if (pageMeta i).isFree ∧ (pageMeta i).order = order then some i
      else findFree pageMeta order remaining (i + 2 ^ order)

/-- Walk the orders upwards to the first free entry; its page and order. -/
def findBlock (pageMeta : PageMeta) : (remaining order : Nat) → Option (Nat × Nat)
  | 0, _ => none
  | remaining + 1, order =>
      match findFree pageMeta order (totalPages / 2 ^ order) 0 with
      | some i => some (i, order)
      | none => findBlock pageMeta remaining (order + 1)

/-- Split the block at page `i` down to the requested order, releasing the
right halves. -/
def splitDown (i req : Nat) : (current : Nat) → PageMeta → PageMeta
  | 0, pageMeta => pageMeta
  | co + 1, pageMeta =>
      if req < co + 1 then
        let left := Function.update pageMeta i { pageMeta i with order := co }
        splitDown i req co (Function.update left (i + 2 ^ co) { order := co, isFree := true })
      else pageMeta

/-- `phys_alloc`: the address of the block and the state after the call. -/
def physAlloc (pool : MemPool) (pages : Nat) (state : PpaState) : Option Nat × PpaState :=
  let state := if state.initialized then state else ppaInit state
  if pages = 0 then (none, state)
  else
    match reqOrder pages with
    | none => (none, state)
    | some req =>
        match findBlock state.pageMeta (maxOrder - req) req with
        | none => (none, state)
        | some (i, current) =>
            let split := splitDown i req current state.pageMeta
            (some (pool.base + i * pageSize),
              { state with pageMeta := Function.update split i { split i with isFree := false } })

/-- The coalescing loop: join the free block at `idx` with its buddy while the
buddy is free and of the same order. -/
def coalesce : (fuel : Nat) → PageMeta → (idx order : Nat) → PageMeta
  | 0, pageMeta, _, _ => pageMeta
  | fuel + 1, pageMeta, idx, order =>
      if order < maxOrder - 1 then
        let buddy := idx ^^^ 2 ^ order
        if totalPages ≤ buddy then pageMeta
        else if (pageMeta buddy).isFree ∧ (pageMeta buddy).order = order then
          let retired := Function.update pageMeta buddy { pageMeta buddy with isFree := false }
          let head := if buddy < idx then buddy else idx
          coalesce fuel (Function.update retired head { order := order + 1, isFree := true })
            head (order + 1)
        else pageMeta
      else pageMeta

/-- The page a pointer names, if it is a page of the pool. -/
def startPage (pool : MemPool) (addr : Nat) : Option Nat :=
  if addr < pool.base ∨ pool.base + memorySize ≤ addr then none
  else if (addr - pool.base) % pageSize ≠ 0 then none
  else if totalPages ≤ (addr - pool.base) / pageSize then none
  else some ((addr - pool.base) / pageSize)

/-- `phys_free`. The page count is ignored: the order comes from `page_meta`. -/
def physFree (pool : MemPool) (ptr : Option Nat) (_pages : Nat) (state : PpaState) : PpaState :=
  if state.initialized then
    match ptr.bind (startPage pool) with
    | none => state
    | some start =>
        if (state.pageMeta start).isFree then state
        else
          let order := (state.pageMeta start).order
          let freed := Function.update state.pageMeta start
            { state.pageMeta start with isFree := true }
          { state with pageMeta := coalesce maxOrder freed start order }
  else state

/-- `free_pages`: the sizes of the entries marked free, added up. -/
def freePages (state : PpaState) : Nat :=
  (List.range totalPages).foldl
    (fun count i =>
      if (state.pageMeta i).isFree then count + 2 ^ (state.pageMeta i).order else count)
    0

end Lofita.Ppa
