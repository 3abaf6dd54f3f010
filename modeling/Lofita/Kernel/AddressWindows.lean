import Lofita.Kernel.Registry

/-! # Address windows

All tokens share one page table, so the regions of different tokens must not
overlap. `rust_allocate_memory` gives every token a window of 16 MB by its id and
places a region behind the bytes already used, at a random offset. Nothing keeps
the region inside the window: a token that allocates more than its window holds
runs into the regions of the next token (`overlaps_next_window`). Regions that
stay in their windows are separate (`separate_of_staysInWindow`).
-/

namespace Lofita.Kernel

open Lofita.Foundation Std

def windowSize : Nat := 0x100_0000

/-- Where the window of a token id starts. -/
def windowStart (id : U64) : Nat := 0x2000_0000 + id.toNat * windowSize

/-- The address belongs to the region. -/
def Vma.Covers (vma : Vma) (addr : Nat) : Prop :=
  vma.startAddr.toNat ≤ addr ∧ addr < vma.startAddr.toNat + vma.size.toNat

/-- No address belongs to regions of two different live tokens. -/
def Separate (state : KernelState) : Prop :=
  ∀ (first second : U64) (firstRef secondRef : Ref) (firstKey secondKey : U64)
    (firstVma secondVma : Vma),
    first ≠ second → state.tokens[first]? = some firstRef →
    state.tokens[second]? = some secondRef →
    (state.token firstRef).vmas[firstKey]? = some firstVma →
    (state.token secondRef).vmas[secondKey]? = some secondVma →
    ∀ addr, firstVma.Covers addr → ¬ secondVma.Covers addr

/-- The offset of the next region of a token in its window, before the random
part: the bytes used. -/
def Token.nextOffset (token : Token) : Nat :=
  token.memoryUsed.toNat + (getAslrOffset (token.id ^^^ token.memoryUsed)).toNat

/-- A region that the call allocates ends inside the window of its token, and
the window inside the address space. -/
def StaysInWindow (state : KernelState) (call : KernelCall) : Prop :=
  ∀ region ∈ state.registers call,
    (state.token region.1).nextOffset + region.2.size.toNat ≤ windowSize ∧
      windowStart (state.token region.1).id + windowSize ≤ 2 ^ 64

instance decidableStaysInWindow (state : KernelState) (call : KernelCall) :
    Decidable (StaysInWindow state call) :=
  inferInstanceAs (Decidable (∀ region ∈ state.registers call, _))

/-- Any call but `mem_alloc`, whose caller chooses the address. -/
def KernelCall.PlacedByKernel : KernelCall → Prop
  | .memAlloc .. => False
  | _ => True

instance decidablePlacedByKernel : ∀ call : KernelCall, Decidable call.PlacedByKernel
  | .memAlloc _ _ _ _ => .isFalse id
  | .createChildToken _ | .runProcess _ _ | .kernelTick _ | .ipcSend _ _ _
  | .ipcRecv _ _ | .allocateMemory _ _ _ _ _ | .handlePageFault _ _ _ | .cleanup _ =>
      .isTrue trivial

/-- Every address of the region lies in the window of a token id. -/
def Vma.InWindow (vma : Vma) (id : U64) : Prop :=
  ∀ addr, vma.Covers addr → windowStart id ≤ addr ∧ addr < windowStart id + windowSize

/-- Every region lies in the window of its token. -/
structure Windowed (state : KernelState) : Prop extends Registered state where
  inWindow : ∀ {ref : Ref} {key : U64} {vma : Vma},
    (state.token ref).vmas[key]? = some vma → vma.InWindow (state.token ref).id

/-- Windows of different ids have no address in common. -/
theorem not_covers_of_inWindow {first second : U64} (different : first ≠ second)
    {firstVma secondVma : Vma} (firstIn : firstVma.InWindow first)
    (secondIn : secondVma.InWindow second) (addr : Nat) (covered : firstVma.Covers addr) :
    ¬ secondVma.Covers addr := by
  intro also
  obtain ⟨firstLow, firstHigh⟩ := firstIn addr covered
  obtain ⟨secondLow, secondHigh⟩ := secondIn addr also
  apply different
  apply BitVec.eq_of_toNat_eq
  unfold windowStart windowSize at *
  omega

theorem Windowed.separate {state : KernelState} (windowed : Windowed state) : Separate state := by
  intro first second firstRef secondRef firstKey secondKey firstVma secondVma different firstKnown
    secondKnown firstFound secondFound
  have firstIn := windowed.inWindow firstFound
  have secondIn := windowed.inWindow secondFound
  rw [(windowed.table firstKnown).2] at firstIn
  rw [(windowed.table secondKnown).2] at secondIn
  exact not_covers_of_inWindow different firstIn secondIn

/-- Below the end of the address space the next region starts at its offset in
the window. -/
theorem Token.toNat_nextAddr {token : Token}
    (space : windowStart token.id + token.nextOffset < 2 ^ 64) :
    token.nextAddr.toNat = windowStart token.id + token.nextOffset := by
  unfold windowStart windowSize nextOffset at *
  unfold nextAddr
  generalize getAslrOffset (token.id ^^^ token.memoryUsed) = aslr at *
  bv_omega

/-- A region that ends inside the window lies in it. -/
theorem Token.eagerVma_inWindow {token : Token} {size : U64} {isWriteable isExecutable : Bool}
    {phys : U64}
    (fits : token.nextOffset + (token.eagerVma size isWriteable isExecutable phys).size.toNat ≤
      windowSize)
    (space : windowStart token.id + windowSize ≤ 2 ^ 64) :
    (token.eagerVma size isWriteable isExecutable phys).InWindow token.id := by
  intro addr covered
  obtain ⟨low, high⟩ := covered
  have start : (token.eagerVma size isWriteable isExecutable phys).startAddr.toNat =
      windowStart token.id + token.nextOffset := Token.toNat_nextAddr (by omega)
  omega

namespace Windowed

variable {state : KernelState}

theorem boot : Windowed KernelState.boot where
  toRegistered := .boot
  inWindow := by
    intro ref key vma found
    rw [TreeMap.getElem?_of_isEmpty (KernelState.vmas_boot ref)] at found
    cases found

theorem after (windowed : Windowed state) {call : KernelCall} (placed : call.PlacedByKernel)
    (stays : StaysInWindow state call) : Windowed (state.after call) := by
  refine { windowed.toRegistered.after call with inWindow := ?_ }
  intro ref key vma found
  obtain ⟨terms, ⟨oldKey, old, before, start, size⟩ | registers⟩ :=
    KernelState.regionOrigin_after found
  · rw [Token.id_of_charter_eq terms]
    have inside := windowed.inWindow before
    unfold Vma.InWindow Vma.Covers at inside ⊢
    rw [← start, ← size]
    exact inside
  · rw [Token.id_of_charter_eq terms]
    obtain ⟨fits, space⟩ := stays _ registers
    cases call with
    | allocateMemory tokenId size isWriteable isExecutable phys =>
        simp only [KernelState.registers, Option.bind_eq_bind, Option.bind_eq_some_iff] at registers
        obtain ⟨owner, _, allocated⟩ := registers
        split_ifs at allocated
        cases allocated
        exact Token.eagerVma_inWindow fits space
    | memAlloc _ _ _ _ => exact placed.elim
    | _ => cases registers

end Windowed

/-- **Tokens stay apart in their windows.** In every run from boot in which the
kernel places the regions and each of them stays in the window of its token, no
regions of two live tokens overlap in any state. -/
theorem separate_of_staysInWindow (calls : List KernelCall)
    (placed : ∀ call ∈ calls, call.PlacedByKernel)
    (along : kernel.Along StaysInWindow .boot calls) : kernel.Always Separate .boot calls := by
  refine System.always_of_invariant Windowed
    (fun _ _ windowed guard => windowed.after guard.1 guard.2) (fun _ => Windowed.separate)
    Windowed.boot (System.along_and.mpr ⟨?_, along⟩)
  exact System.along_of_forall fun call member _ => placed call member

/-- Two tokens allocate two pages each, inside their windows. -/
theorem separate_of_staysInWindow_two : kernel.Always Separate .boot
    (createTokens ++ [.allocateMemory 97 8192 true false 0x10_0000,
      .allocateMemory 98 8192 true false 0x20_0000]) :=
  separate_of_staysInWindow _ (by decide +kernel) (by decide +kernel)

/-- A token allocates four regions of 4 MB, and the last one covers addresses in the window of
the token created after it. -/
theorem overlaps_next_window : ¬ kernel.Always Separate .boot
    (createTokens ++ [.allocateMemory 97 0x40_0000 true false 0x40_0000,
      .allocateMemory 97 0x40_0000 true false 0x80_0000,
      .allocateMemory 97 0x40_0000 true false 0xC0_0000,
      .allocateMemory 97 0x40_0000 true false 0x100_0000,
      .allocateMemory 98 8192 true false 0x140_0000]) := by
  intro always
  refine always.last 97 98 96 97 0x81F8_6000 0x821F_3000
    { startAddr := 0x81F8_6000, size := 0x40_0000, isWriteable := true, isExecutable := false,
      physPtr := 0x100_0000 }
    { startAddr := 0x821F_3000, size := 0x2000, isWriteable := true, isExecutable := false,
      physPtr := 0x140_0000 }
    (by decide) (by decide +kernel) (by decide +kernel) (by decide +kernel) (by decide +kernel)
    0x821F_3000 ?_ ?_
  · exact ⟨by decide, by decide⟩
  · exact ⟨by decide, by decide⟩

end Lofita.Kernel
