import Lofita.Foundation.TableTree
import Lofita.Paging.Entry

/-! # The page tables in memory

The four-level page tables of `paging.zig`: a memory of 64-bit words, the table
pages that `phys_alloc` answers, and the walk of the processor. Answers of the
allocator are numbered in the order of the requests. An operation that makes a
pointer of the address 0 traps, and the kernel stops.
-/

namespace Lofita.Paging

open Lofita.Foundation Lofita.Foundation.TableTree

structure VaIndices where
  pml4 : Nat
  pdpt : Nat
  pd : Nat
  pt : Nat
  off : Nat
deriving DecidableEq, Repr

def vaSplit (vaddr : U64) : VaIndices where
  pml4 := ((vaddr >>> 39) &&& 0x1FF).toNat
  pdpt := ((vaddr >>> 30) &&& 0x1FF).toNat
  pd := ((vaddr >>> 21) &&& 0x1FF).toNat
  pt := ((vaddr >>> 12) &&& 0x1FF).toNat
  off := (vaddr &&& 0xFFF).toNat

/-- Physical memory, by the byte addresses of its words: their values, the
addresses written so far, and the requests made of `phys_alloc` so far. -/
structure PhysMemory where
  word : Nat → U64
  written : List Nat
  requests : Nat

/-- What `phys_alloc(1)` answers to each request, in order. -/
abbrev Allocator := Nat → Option Nat

/-- What `ensure_table` answers, if it answers. -/
inductive TableAnswer where
  | trap
  | outOfMemory
  | table (addr : Nat)
deriving DecidableEq, Repr

/-- `@ptrFromInt`, which traps for the address 0. -/
def TableAnswer.pointer (addr : Nat) : TableAnswer := if addr = 0 then .trap else .table addr

variable (alloc : Allocator)

namespace PhysMemory

def store (memory : PhysMemory) (addr : Nat) (entry : U64) : PhysMemory :=
  { memory with
    word := Function.update memory.word addr entry
    written := addr :: memory.written }

/-- Clear a page. -/
def clear (memory : PhysMemory) (page : Nat) : PhysMemory :=
  { memory with
    word := cleared memory.word page 0
    written := (List.range 512).map (slot page) ++ memory.written }

/-- Allocate a page and clear it. -/
def newTable (memory : PhysMemory) : Option Nat × PhysMemory :=
  match alloc memory.requests with
  | none => (none, { memory with requests := memory.requests + 1 })
  | some page => (some page, { memory.clear page with requests := memory.requests + 1 })

/-- `ensure_table`: the table an entry refers to, a new one if there is none. -/
def ensureTable (memory : PhysMemory) (entry : Nat) : TableAnswer × PhysMemory :=
  if memory.word entry &&& pfPresent ≠ 0 then (.pointer (address (memory.word entry)), memory)
  else
    match memory.newTable alloc with
    | (none, memory) => (.outOfMemory, memory)
    | (some table, memory) => (.table table, memory.store entry (tableEntry table))

end PhysMemory

/-! ### One address space -/

structure PagingContext where
  pml4 : Nat
deriving DecidableEq, Repr

/-- What `map` and `page_table_map` answer, if they answer. -/
inductive MapAnswer where
  | trap
  | failed
  | mapped
deriving DecidableEq, Repr

namespace PagingContext

/-- `PagingContext.create`: an empty address space. -/
def create (memory : PhysMemory) : Option PagingContext × PhysMemory :=
  match memory.newTable alloc with
  | (none, memory) => (none, memory)
  | (some table, memory) => (some { pml4 := table }, memory)

/-- `PagingContext.map`: it fails when it runs out of memory. Tables made before
that stay. -/
def map (context : PagingContext) (virtualAddr physicalAddr flags : U64) (memory : PhysMemory) :
    MapAnswer × PhysMemory :=
  let va := vaSplit virtualAddr
  match memory.ensureTable alloc (slot context.pml4 va.pml4) with
  | (.trap, memory) => (.trap, memory)
  | (.outOfMemory, memory) => (.failed, memory)
  | (.table pdpt, memory) =>
      match memory.ensureTable alloc (slot pdpt va.pdpt) with
      | (.trap, memory) => (.trap, memory)
      | (.outOfMemory, memory) => (.failed, memory)
      | (.table pd, memory) =>
          match memory.ensureTable alloc (slot pd va.pd) with
          | (.trap, memory) => (.trap, memory)
          | (.outOfMemory, memory) => (.failed, memory)
          | (.table pt, memory) =>
              (.mapped, memory.store (slot pt va.pt) (leafEntry physicalAddr flags))

/-- `PagingContext.unmap`; nothing is answered when it traps. -/
def unmap (context : PagingContext) (virtualAddr : U64) (memory : PhysMemory) :
    Option PhysMemory :=
  let va := vaSplit virtualAddr
  let pml4e := memory.word (slot context.pml4 va.pml4)
  if pml4e &&& pfPresent = 0 then some memory
  else
    match TableAnswer.pointer (address pml4e) with
    | .table pdpt =>
        let pdpte := memory.word (slot pdpt va.pdpt)
        if pdpte &&& pfPresent = 0 then some memory
        else
          match TableAnswer.pointer (address pdpte) with
          | .table pd =>
              let pde := memory.word (slot pd va.pd)
              if pde &&& pfPresent = 0 then some memory
              else
                match TableAnswer.pointer (address pde) with
                | .table pt => some (memory.store (slot pt va.pt) 0)
                | _ => none
          | _ => none
    | _ => none

end PagingContext

/-! ### The kernel address space -/

structure PagingState where
  memory : PhysMemory
  kernelPaging : Option PagingContext
  pagingInitialized : Bool

/-- The flags of a huge page: present, writable, page size. -/
def hugeFlags : U64 := 0x83

/-- `paging_global_init`; nothing is answered when it halts for want of memory. -/
def pagingGlobalInit (state : PagingState) : Option PagingState :=
  if state.pagingInitialized then some state
  else
    match PagingContext.create alloc state.memory with
    | (none, _) => none
    | (some context, memory) =>
        match memory.newTable alloc with
        | (none, _) => none
        | (some pdpt, memory) =>
            some
              { memory := ((memory.store (slot pdpt 0) hugeFlags).store (slot pdpt 1)
                  (0x4000_0000 ||| hugeFlags)).store (slot context.pml4 0)
                  (BitVec.ofNat 64 pdpt ||| pfPresent ||| pfWritable)
                kernelPaging := some context
                pagingInitialized := true }

/-- `page_table_map`: what it answers, 0 for `mapped` and -1 for `failed`, and the state it
leaves. -/
def pageTableMap (virtualAddr physicalAddr : U64) (flags : U32) (state : PagingState) :
    Option (MapAnswer × PagingState) := do
  let state ← pagingGlobalInit alloc state
  match state.kernelPaging with
  | none => return (.failed, state)
  | some context =>
      let (answer, memory) :=
        context.map alloc virtualAddr physicalAddr (pteFlags flags) state.memory
      return (answer, { state with memory })

/-- `page_table_unmap`. -/
def pageTableUnmap (virtualAddr : U64) (state : PagingState) : Option PagingState := do
  let state ← pagingGlobalInit alloc state
  match state.kernelPaging with
  | none => return state
  | some context =>
      let memory ← context.unmap virtualAddr state.memory
      return { state with memory }

/-! ### The walk of the processor -/

/-- Where a walk ends: the physical address and the entries passed, which grant
the access rights together. -/
structure Translation where
  phys : Nat
  entries : List U64
deriving DecidableEq, Repr

def Translation.writable (translation : Translation) : Bool :=
  translation.entries.all Paging.writable

def Translation.user (translation : Translation) : Bool := translation.entries.all Paging.user

def Translation.executable (translation : Translation) : Bool :=
  translation.entries.all Paging.executable

/-- The four-level walk of a virtual address. A present entry of the second or
third level with the page-size bit is a leaf; in the first level the bit is
reserved. -/
def walk (word : Nat → U64) (root : Nat) (vaddr : U64) : Option Translation := do
  let va := vaSplit vaddr
  let pml4e := word (slot root va.pml4)
  let pdpt ← child pml4e
  let pdpte := word (slot pdpt va.pdpt)
  if present pdpte && huge pdpte then
    return { phys := address pdpte / 2 ^ 30 * 2 ^ 30 + vaddr.toNat % 2 ^ 30
             entries := [pml4e, pdpte] }
  let pd ← child pdpte
  let pde := word (slot pd va.pd)
  if present pde && huge pde then
    return { phys := address pde / 2 ^ 21 * 2 ^ 21 + vaddr.toNat % 2 ^ 21
             entries := [pml4e, pdpte, pde] }
  let pt ← child pde
  let pte := word (slot pt va.pt)
  if present pte then
    return { phys := address pte + va.off, entries := [pml4e, pdpte, pde, pte] }
  none

end Lofita.Paging
