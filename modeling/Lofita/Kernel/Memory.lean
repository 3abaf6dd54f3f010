import Lofita.Kernel.State

/-! # Memory regions of tokens

The three paths that give a token memory: registering a lazily backed region
(`mem_alloc`), allocating and mapping a region at once (`rust_allocate_memory`),
and backing a registered region when it is first touched
(`vasm_handle_page_fault`). What `phys_alloc` answers is an argument, 0 for the
null pointer. The results of `page_table_map` are not looked at by any of them.
-/

namespace Lofita.Kernel

open Lofita.Foundation Std

/-- `mem_alloc`: the token with the region registered, if the request passes the
capability and quota checks. -/
def Token.memAlloc (token : Token) (reqCap : Capability) (size vaddr : U64) : Option Token :=
  if !token.capabilities.contains reqCap || !token.capabilities.contains .memAlloc then none
  else if !token.checkQuota size then none
  else
    some { token with
      vmas := token.vmas.insert vaddr
        { startAddr := vaddr, size, isWriteable := true, isExecutable := false, physPtr := 0 }
      memoryUsed := token.memoryUsed + size }

/-- The pages a byte count takes, rounded up; the sum may wrap. -/
def pagesFor (size : U64) : U64 := (size + 4095) / 4096

/-- A pseudo-random multiple of the page size below 4 MB. -/
def getAslrOffset (seed : U64) : U64 :=
  let rand := (1_103_515_245 * seed + 12_345) % (1 <<< 31)
  (rand % 1024) * 4096

/-- Where the next region of a token goes: the window of its id, the bytes
already used and the random offset. -/
def Token.nextAddr (token : Token) : U64 :=
  0x2000_0000 + token.id * 0x100_0000 + token.memoryUsed +
    getAslrOffset (token.id ^^^ token.memoryUsed)

/-- The calls that map consecutive pages. -/
def mapPages (virtualAddr physAddr pages : U64) (flags : U32) : List FfiCall :=
  (List.range pages.toNat).map fun i =>
    .pageTableMap (virtualAddr + BitVec.ofNat 64 i * 4096) (physAddr + BitVec.ofNat 64 i * 4096)
      flags

/-- The region an eager allocation creates. -/
def Token.eagerVma (token : Token) (size : U64) (isWriteable isExecutable : Bool)
    (physPtr : U64) : Vma where
  startAddr := token.nextAddr
  size := pagesFor size * 4096
  isWriteable := isWriteable
  isExecutable := isExecutable
  physPtr := physPtr

/-- The flag word of an eager mapping: bit 0 always, bit 1 for writeable, bit 2
for executable. -/
def eagerFlags (isWriteable isExecutable : Bool) : U32 :=
  1 ||| (if isWriteable then 2 else 0) ||| (if isExecutable then 4 else 0)

/-- The flag word of a lazy mapping: bits 0 and 2 always, bit 1 for writeable. -/
def lazyFlags (isWriteable : Bool) : U32 := (1 ||| 4) ||| (if isWriteable then 2 else 0)

/-- The region that contains an address, the one with the greatest start. -/
def Token.findVma (token : Token) (addr : U64) : Option U64 :=
  ((token.vmas.toList.filter fun (start, _) => start ≤ addr).reverse.find?
    fun (start, vma) => addr < start + vma.size).map Prod.fst

namespace KernelState

/-- Write a token cell. -/
def setToken (state : KernelState) (ref : Ref) (token : Token) : KernelState :=
  { state with tokenCells := state.tokenCells.modify ref fun _ => token }

/-- `mem_alloc` on a token of the table. -/
def memAlloc (state : KernelState) (tokenId : U64) (reqCap : Capability) (size vaddr : U64) :
    Reply U64 :=
  match state.tokens[tokenId]? with
  | none => { value := 0, state }
  | some ref =>
      match (state.token ref).memAlloc reqCap size vaddr with
      | none => { value := 0, state }
      | some token => { value := vaddr, state := state.setToken ref token }

/-- `Token::cleanup` on a token of the table. -/
def cleanup (state : KernelState) (tokenId : U64) : Reply Unit :=
  match state.tokens[tokenId]? with
  | none => { value := (), state }
  | some ref =>
      { value := ()
        state := state.setToken ref (state.token ref).cleanup.1
        ffi := (state.token ref).cleanup.2 }

/-- `rust_allocate_memory`, with the answer of `phys_alloc`. -/
def allocateMemory (state : KernelState) (tokenId size : U64) (isWriteable isExecutable : Bool)
    (phys : U64) : Reply U64 :=
  match state.tokens[tokenId]? with
  | none => { value := 0, state }
  | some ref =>
      let token := state.token ref
      if isWriteable && isExecutable then { value := 0, state }
      else if phys = 0 then { value := 0, state, ffi := [.physAlloc (pagesFor size) phys] }
      else
        let vma := token.eagerVma size isWriteable isExecutable phys
        { value := token.nextAddr
          state := state.setToken ref { token with
            vmas := token.vmas.insert token.nextAddr vma
            memoryUsed := token.memoryUsed + vma.size }
          ffi := .physAlloc (pagesFor size) phys ::
            mapPages token.nextAddr phys (pagesFor size) (eagerFlags isWriteable isExecutable) }

/-- The token charged for a page fault: that of the active thread's session. -/
def faultToken (state : KernelState) : Option Ref := do
  let active ← state.scheduler.activeThread
  let session ← state.sessions[(state.thread active).sessionId]?
  return session.token

/-- The region a page fault falls into, with the token it belongs to. -/
def faultVma (state : KernelState) (faultAddr : U64) : Option (Ref × U64 × Vma) := do
  let ref ← state.faultToken
  let start ← (state.token ref).findVma faultAddr
  let vma ← (state.token ref).vmas[start]?
  return (ref, start, vma)

/-- `vasm_handle_page_fault`, with the answer of `phys_alloc`. -/
def handlePageFault (state : KernelState) (faultAddr : U64) (_errorCode : U32) (phys : U64) :
    Reply Bool :=
  match state.faultVma faultAddr with
  | none => { value := false, state }
  | some (ref, start, vma) =>
      if vma.physPtr = 0 then
        let pages := pagesFor vma.size
        if phys = 0 then { value := false, state, ffi := [.physAlloc pages phys] }
        else
          let token := state.token ref
          { value := true
            state := state.setToken ref { token with
              vmas := token.vmas.insert start { vma with physPtr := phys } }
            ffi := .physAlloc pages phys ::
              mapPages vma.startAddr phys pages (lazyFlags vma.isWriteable) }
      else { value := false, state }

end KernelState

/-! ### What the memory calls do -/

theorem toNat_pagesFor (size : U64) :
    (pagesFor size).toNat = (size.toNat + 4095) % 2 ^ 64 / 4096 := by
  unfold pagesFor
  rw [BitVec.toNat_udiv, BitVec.toNat_add]
  rfl

/-- The size of whole pages does not wrap. -/
theorem toNat_pagesFor_mul (size : U64) :
    (pagesFor size * 4096).toNat = (pagesFor size).toNat * 4096 := by
  have few : (pagesFor size).toNat ≤ (2 ^ 64 - 1) / 4096 := by
    rw [toNat_pagesFor]
    omega
  rw [BitVec.toNat_mul]
  exact Nat.mod_eq_of_lt (by
    have unit : (4096 : U64).toNat = 4096 := rfl
    rw [unit]
    omega)

/-- Enter a region at its start address and charge its size. -/
def Token.register (token : Token) (vma : Vma) : Token :=
  { token with
    vmas := token.vmas.insert vma.startAddr vma
    memoryUsed := token.memoryUsed + vma.size }

/-- The region `mem_alloc` registers. -/
def lazyVma (size vaddr : U64) : Vma where
  startAddr := vaddr
  size := size
  isWriteable := true
  isExecutable := false
  physPtr := 0

/-- The checks of `mem_alloc`. -/
def Token.admits (token : Token) (reqCap : Capability) (size : U64) : Bool :=
  token.capabilities.contains reqCap && token.capabilities.contains .memAlloc &&
    token.checkQuota size

theorem Token.memAlloc_eq (token : Token) (reqCap : Capability) (size vaddr : U64) :
    token.memAlloc reqCap size vaddr =
      if token.admits reqCap size then some (token.register (lazyVma size vaddr)) else none := by
  unfold Token.memAlloc Token.admits
  cases token.capabilities.contains reqCap <;> cases token.capabilities.contains .memAlloc <;>
    cases token.checkQuota size <;> rfl

namespace KernelState

theorem setToken_self (state : KernelState) (ref : Ref) :
    state.setToken ref (state.token ref) = state := by
  unfold setToken
  rw [state.tokenCells.modify_eq_self (fun _ => state.token ref) rfl]

@[simp] theorem token_setToken_self (state : KernelState) (ref : Ref) (token : Token) :
    (state.setToken ref token).token ref = token :=
  state.tokenCells.read_modify_self ref fun _ => token

theorem token_setToken_of_ne (state : KernelState) {ref other : Ref} (different : other ≠ ref)
    (token : Token) : (state.setToken ref token).token other = state.token other :=
  state.tokenCells.read_modify_of_ne different fun _ => token

/-- `mem_alloc` leaves the state alone or registers an unbacked region that
passed the checks. -/
theorem memAlloc_cases (state : KernelState) (tokenId : U64) (reqCap : Capability)
    (size vaddr : U64) :
    (state.memAlloc tokenId reqCap size vaddr).state = state ∨
      ∃ ref, state.tokens[tokenId]? = some ref ∧
        (state.token ref).admits reqCap size = true ∧
        (state.memAlloc tokenId reqCap size vaddr).state =
          state.setToken ref ((state.token ref).register (lazyVma size vaddr)) := by
  unfold memAlloc
  cases found : state.tokens[tokenId]? with
  | none => exact .inl rfl
  | some ref =>
      simp only [Token.memAlloc_eq]
      cases admitted : (state.token ref).admits reqCap size with
      | false => exact .inl rfl
      | true => exact .inr ⟨ref, rfl, admitted, rfl⟩

/-- `rust_allocate_memory` leaves the state alone, making no mapping, or
registers a region and maps it; no capability or quota is looked at. -/
theorem allocateMemory_cases (state : KernelState) (tokenId size : U64)
    (isWriteable isExecutable : Bool) (phys : U64) :
    ((state.tokens[tokenId]? = none ∨ (isWriteable && isExecutable) = true ∨ phys = 0) ∧
        (state.allocateMemory tokenId size isWriteable isExecutable phys).state = state ∧
        ∀ call ∈ (state.allocateMemory tokenId size isWriteable isExecutable phys).ffi,
          call = .physAlloc (pagesFor size) phys) ∨
      ∃ ref, state.tokens[tokenId]? = some ref ∧ (isWriteable && isExecutable) = false ∧
        phys ≠ 0 ∧
        (state.allocateMemory tokenId size isWriteable isExecutable phys) =
          { value := (state.token ref).nextAddr
            state := state.setToken ref ((state.token ref).register
              ((state.token ref).eagerVma size isWriteable isExecutable phys))
            ffi := .physAlloc (pagesFor size) phys ::
              mapPages (state.token ref).nextAddr phys (pagesFor size)
                (eagerFlags isWriteable isExecutable) } := by
  unfold allocateMemory
  cases found : state.tokens[tokenId]? with
  | none => exact .inl ⟨.inl rfl, rfl, fun _ impossible => absurd impossible List.not_mem_nil⟩
  | some ref =>
      simp only
      split_ifs with both exhausted
      · exact .inl ⟨.inr (.inl both), rfl, fun _ impossible => absurd impossible List.not_mem_nil⟩
      · exact .inl ⟨.inr (.inr exhausted), rfl, fun _ member => List.mem_singleton.mp member⟩
      · exact .inr ⟨ref, rfl, eq_false_of_ne_true both, exhausted, rfl⟩

theorem vma_of_faultVma {state : KernelState} {faultAddr start : U64} {ref : Ref} {vma : Vma}
    (found : state.faultVma faultAddr = some (ref, start, vma)) :
    (state.token ref).vmas[start]? = some vma := by
  unfold faultVma at found
  simp only [Option.bind_eq_bind, Option.bind_eq_some_iff] at found
  obtain ⟨_, _, _, _, _, lookup, same⟩ := found
  cases same
  exact lookup

/-- A page fault leaves the state alone, making no mapping, or backs the
unbacked region it falls into and maps it. -/
theorem handlePageFault_cases (state : KernelState) (faultAddr : U64) (errorCode : U32)
    (phys : U64) :
    ((∀ region ∈ state.faultVma faultAddr, region.2.2.physPtr = 0 → phys = 0) ∧
        (state.handlePageFault faultAddr errorCode phys).state = state ∧
        ∀ call ∈ (state.handlePageFault faultAddr errorCode phys).ffi,
          ∃ pages, call = .physAlloc pages phys) ∨
      ∃ ref start vma, state.faultVma faultAddr = some (ref, start, vma) ∧ vma.physPtr = 0 ∧
        phys ≠ 0 ∧
        state.handlePageFault faultAddr errorCode phys =
          { value := true
            state := state.setToken ref { state.token ref with
              vmas := (state.token ref).vmas.insert start { vma with physPtr := phys } }
            ffi := .physAlloc (pagesFor vma.size) phys ::
              mapPages vma.startAddr phys (pagesFor vma.size) (lazyFlags vma.isWriteable) } := by
  unfold handlePageFault
  cases found : state.faultVma faultAddr with
  | none =>
      exact .inl ⟨fun _ impossible => absurd impossible (Option.not_mem_none _), rfl,
        fun _ impossible => absurd impossible List.not_mem_nil⟩
  | some region =>
      obtain ⟨ref, start, vma⟩ := region
      simp only
      split_ifs with unbacked exhausted
      · exact .inl ⟨fun _ _ _ => exhausted, rfl, fun _ member => ⟨_, List.mem_singleton.mp member⟩⟩
      · exact .inr ⟨ref, start, vma, rfl, unbacked, exhausted, rfl⟩
      · refine .inl ⟨?_, rfl, fun _ impossible => absurd impossible List.not_mem_nil⟩
        intro other same
        cases same
        exact fun backed => absurd backed unbacked

theorem cleanup_cases (state : KernelState) (tokenId : U64) :
    (state.cleanup tokenId).state = state ∨
      ∃ ref, state.tokens[tokenId]? = some ref ∧
        (state.cleanup tokenId).state =
          state.setToken ref { state.token ref with vmas := ∅, memoryUsed := 0 } := by
  unfold cleanup
  cases found : state.tokens[tokenId]? with
  | none => exact .inl rfl
  | some ref => exact .inr ⟨ref, rfl, rfl⟩

end KernelState

end Lofita.Kernel
