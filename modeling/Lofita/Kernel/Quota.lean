import Lofita.Foundation.FiniteMap
import Lofita.Kernel.Registry

/-! # Memory accounting

A token should be charged exactly for its regions, within its limit, and have
regions only with the capability to allocate. `mem_alloc` checks the capability
and the quota, `rust_allocate_memory` neither; both charge a region that
replaces another one in full. `accounts_iff_fits` says when a run keeps the
accounts.
-/

namespace Lofita.Kernel

open Lofita.Foundation Std

/-- The bytes of the regions of a token. -/
def Token.regionBytes (token : Token) : Nat := total (fun vma : Vma => vma.size.toNat) token.vmas

/-- The bytes of the region at an address, none if there is no region. -/
def Token.bytesAt (token : Token) (startAddr : U64) : Nat :=
  sizeAt (fun vma : Vma => vma.size.toNat) token.vmas startAddr

/-- The token is charged for its regions, within its limit, and may have them. -/
structure Token.Accounted (token : Token) : Prop where
  charged : token.memoryUsed.toNat = token.regionBytes
  limited : token.memoryUsed ≤ token.memoryLimit
  allowed : token.vmas.isEmpty = false → token.capabilities.contains .memAlloc = true

/-- The region is within the limit of a token that may allocate, and replaces no
bytes. -/
structure Token.Fits (token : Token) (vma : Vma) : Prop where
  withinLimit : token.memoryUsed.toNat + vma.size.toNat ≤ token.memoryLimit.toNat
  replacesNothing : token.bytesAt vma.startAddr = 0
  mayAllocate : token.capabilities.contains .memAlloc = true

instance decidableFits (token : Token) (vma : Vma) : Decidable (token.Fits vma) :=
  decidable_of_iff (token.memoryUsed.toNat + vma.size.toNat ≤ token.memoryLimit.toNat ∧
      token.bytesAt vma.startAddr = 0 ∧ token.capabilities.contains .memAlloc = true)
    ⟨fun ⟨limit, replaces, allows⟩ => ⟨limit, replaces, allows⟩,
      fun fits => ⟨fits.withinLimit, fits.replacesNothing, fits.mayAllocate⟩⟩

/-- A token without regions and charges. -/
def Token.Fresh (token : Token) : Prop := token.vmas.isEmpty = true ∧ token.memoryUsed = 0

theorem Token.Fresh.accounted {token : Token} (fresh : token.Fresh) : token.Accounted where
  charged := by
    rw [fresh.2]
    exact (total_of_isEmpty _ fresh.1).symm
  limited := by
    rw [fresh.2]
    exact Nat.zero_le _
  allowed := fun some => absurd (fresh.1.symm.trans some) (by decide)

/-- Registering a region adds its bytes and drops those it replaces. -/
theorem Token.regionBytes_register (token : Token) (vma : Vma) :
    (token.register vma).regionBytes + token.bytesAt vma.startAddr =
      token.regionBytes + vma.size.toNat :=
  total_insert _ token.vmas vma.startAddr vma

theorem Token.bytesAt_lt (token : Token) (startAddr : U64) : token.bytesAt startAddr < 2 ^ 64 := by
  unfold Token.bytesAt sizeAt
  cases token.vmas[startAddr]? with
  | none => exact Nat.two_pow_pos 64
  | some vma => exact vma.size.isLt

/-- A token stays accounted exactly if the region it registers fits. -/
theorem Token.Accounted.register_iff {token : Token} (accounted : token.Accounted) (vma : Vma) :
    (token.register vma).Accounted ↔ token.Fits vma := by
  have bytes := token.regionBytes_register vma
  rw [← accounted.charged] at bytes
  have replaced := token.bytesAt_lt vma.startAddr
  constructor
  · intro after
    have charged : (token.memoryUsed + vma.size).toNat = _ := after.charged
    rw [BitVec.toNat_add] at charged
    -- A sum that wraps would be short by more than a region can replace.
    have fits : token.memoryUsed.toNat + vma.size.toNat < 2 ^ 64 := by omega
    have limited : token.memoryUsed + vma.size ≤ token.memoryLimit := after.limited
    rw [BitVec.le_def, toNat_add_of_lt fits] at limited
    refine ⟨limited, by omega, after.allowed ?_⟩
    change (token.vmas.insert _ _).isEmpty = false
    exact TreeMap.isEmpty_insert
  · intro fits
    have noWrap := fits.withinLimit.trans_lt token.memoryLimit.isLt
    refine ⟨?_, ?_, fun _ => fits.mayAllocate⟩
    · change (token.memoryUsed + vma.size).toNat = _
      rw [toNat_add_of_lt noWrap, ← bytes, fits.replacesNothing, Nat.add_zero]
    · change token.memoryUsed + vma.size ≤ token.memoryLimit
      rw [BitVec.le_def, toNat_add_of_lt noWrap]
      exact fits.withinLimit

/-- The accounts of every token of the table are in order. -/
def AllAccounted (state : KernelState) : Prop :=
  ∀ (id : U64) (ref : Ref), state.tokens[id]? = some ref → (state.token ref).Accounted

/-- A region that the call registers fits the token it is charged to. -/
def RegionFits (state : KernelState) (call : KernelCall) : Prop :=
  ∀ region ∈ state.registers call, (state.token region.1).Fits region.2

instance decidableRegionFits (state : KernelState) (call : KernelCall) :
    Decidable (RegionFits state call) :=
  inferInstanceAs (Decidable (∀ region ∈ state.registers call, _))

/-- The calls that allocate and release the memory of tokens. -/
def KernelCall.Accounting : KernelCall → Prop
  | .memAlloc .. | .allocateMemory .. | .cleanup .. => True
  | _ => False

instance decidableAccounting : ∀ call : KernelCall, Decidable call.Accounting
  | .memAlloc _ _ _ _ | .allocateMemory _ _ _ _ _ | .cleanup _ => .isTrue trivial
  | .createChildToken _ | .runProcess _ _ | .kernelTick _ | .ipcSend _ _ _
  | .ipcRecv _ _ | .handlePageFault _ _ _ => .isFalse id

/-- What an accounting call does: it empties a token, registers a region, or
nothing. -/
theorem KernelState.after_accounting (state : KernelState) {call : KernelCall}
    (accounting : call.Accounting) :
    (state.registers call = none ∧ (state.after call = state ∨
      ∃ (id : U64) (ref : Ref), state.tokens[id]? = some ref ∧ state.after call =
        state.setToken ref { state.token ref with vmas := ∅, memoryUsed := 0 })) ∨
    ∃ (id : U64) (ref : Ref) (vma : Vma), state.registers call = some (ref, vma) ∧
      state.tokens[id]? = some ref ∧
      state.after call = state.setToken ref ((state.token ref).register vma) := by
  cases call with
  | memAlloc tokenId reqCap size vaddr =>
      simp only [registers, after, KernelState.memAlloc]
      cases known : state.tokens[tokenId]? with
      | none => exact .inl ⟨rfl, .inl rfl⟩
      | some ref =>
          simp only [Token.memAlloc_eq, Option.bind_eq_bind, Option.bind_some]
          split_ifs
          · exact .inr ⟨tokenId, ref, _, rfl, known, rfl⟩
          · exact .inl ⟨rfl, .inl rfl⟩
  | allocateMemory tokenId size isWriteable isExecutable phys =>
      simp only [registers, after, KernelState.allocateMemory]
      cases known : state.tokens[tokenId]? with
      | none => exact .inl ⟨rfl, .inl rfl⟩
      | some ref =>
          simp only [Option.bind_eq_bind, Option.bind_some]
          cases both : isWriteable && isExecutable with
          | true => exact .inl ⟨rfl, .inl rfl⟩
          | false =>
              by_cases exhausted : phys = 0
              · subst exhausted
                exact .inl ⟨rfl, .inl rfl⟩
              · simp only [exhausted, ne_eq, not_false_eq_true, decide_true, Bool.not_false,
                  Bool.and_self, Bool.false_eq_true, ↓reduceIte]
                exact .inr ⟨tokenId, ref, _, rfl, known, rfl⟩
  | cleanup tokenId =>
      refine .inl ⟨rfl, ?_⟩
      rcases state.cleanup_cases tokenId with same | ⟨ref, known, emptied⟩
      · exact .inl same
      · exact .inr ⟨tokenId, ref, known, emptied⟩
  | _ => exact accounting.elim

namespace AllAccounted

variable {state : KernelState}

/-- Writing the cell of a listed token keeps the accounts exactly if the token
written is accounted. -/
theorem setToken_iff (accounted : AllAccounted state) {id : U64} {ref : Ref}
    (known : state.tokens[id]? = some ref) (token : Token) :
    AllAccounted (state.setToken ref token) ↔ token.Accounted := by
  constructor
  · intro after
    rw [← state.token_setToken_self ref token]
    exact after id ref known
  · intro written other otherRef found
    by_cases same : otherRef = ref
    · subst same
      rw [KernelState.token_setToken_self]
      exact written
    · rw [state.token_setToken_of_ne same]
      exact accounted other otherRef found

/-- A call keeps the accounts in order exactly if the region it registers fits. -/
theorem after_iff (accounted : AllAccounted state) {call : KernelCall}
    (accounting : call.Accounting) :
    AllAccounted (state.after call) ↔ RegionFits state call := by
  unfold RegionFits
  rcases state.after_accounting accounting with
    ⟨none, same | ⟨id, ref, known, emptied⟩⟩ | ⟨id, ref, vma, region, known, next⟩
  · rw [none, same]
    exact iff_of_true accounted fun _ impossible => absurd impossible (Option.not_mem_none _)
  · rw [none, emptied, accounted.setToken_iff known]
    refine iff_of_true ?_ fun _ impossible => absurd impossible (Option.not_mem_none _)
    exact Token.Fresh.accounted ⟨rfl, rfl⟩
  · rw [region, next, accounted.setToken_iff known, (accounted id ref known).register_iff]
    simp only [Option.mem_def, Option.some.injEq, forall_eq']

end AllAccounted

/-- **When the accounts stay in order.** From a state whose tokens have neither
regions nor charges, a run of allocations and releases keeps every token charged
for its regions, within its limit and entitled to them exactly if each region it
registers fits its token. -/
theorem accounts_iff_fits (start : KernelState)
    (fresh : ∀ (id : U64) (ref : Ref), start.tokens[id]? = some ref → (start.token ref).Fresh)
    (calls : List KernelCall) (accounting : ∀ call ∈ calls, call.Accounting) :
    kernel.Always AllAccounted start calls ↔ kernel.Along RegionFits start calls :=
  System.always_iff_along (fun _ _ accounted accounting => accounted.after_iff accounting)
    (fun id ref known => (fresh id ref known).accounted)
    (System.along_of_forall fun call member _ => accounting call member)

theorem fresh_boot (id : U64) (ref : Ref) (known : KernelState.boot.tokens[id]? = some ref) :
    (KernelState.boot.token ref).Fresh := by
  obtain rfl : ref = 0 := Nat.lt_one_iff.mp (Registered.boot.table known).1
  exact ⟨rfl, rfl⟩

/-- The root token registers two regions side by side and gives them back. -/
theorem accounts_iff_fits_root : kernel.Always AllAccounted .boot
    [.allocateMemory 1 8192 true false 0x10_0000, .memAlloc 1 .memAlloc 4096 0x7000_0000,
      .cleanup 1] :=
  (accounts_iff_fits .boot fresh_boot _ (by decide)).mpr (by decide)

theorem fresh_populated (id : U64) (ref : Ref) (known : populated.tokens[id]? = some ref) :
    (populated.token ref).Fresh := by
  have next : populated.tokenCells.next = 98 := by decide +kernel
  have registered : Registered populated := Registered.run _
  have each : ((List.range 98).all fun ref => (populated.token ref).vmas.isEmpty &&
      (populated.token ref).memoryUsed == 0) = true := by decide +kernel
  have older : ref < 98 := next ▸ (registered.table known).1
  have fresh := List.all_eq_true.mp each ref (List.mem_range.mpr older)
  obtain ⟨empty, uncharged⟩ := Bool.and_eq_true_iff.mp fresh
  exact ⟨empty, eq_of_beq uncharged⟩

/-- A token without capabilities and quota gets a page. -/
theorem allocates_without_quota :
    (∀ (id : U64) (ref : Ref), populated.tokens[id]? = some ref → (populated.token ref).Fresh) ∧
      ¬ kernel.Always AllAccounted populated [.allocateMemory 97 4096 true false 0x10_0000] := by
  refine ⟨fresh_populated, ?_⟩
  rintro ⟨_, after⟩
  exact absurd (after 97 96 (by decide +kernel)).limited (by decide +kernel)

/-- A region registered twice at one address is charged twice. -/
theorem charges_replaced_region : ¬ kernel.Always AllAccounted .boot
    [.memAlloc 1 .memAlloc 4096 0x7000_0000, .memAlloc 1 .memAlloc 4096 0x7000_0000] := by
  rintro ⟨_, _, after⟩
  exact absurd (after 1 0 (by decide)).charged (by decide)

end Lofita.Kernel
