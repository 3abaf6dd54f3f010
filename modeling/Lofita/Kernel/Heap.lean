import Lofita.Kernel.AddressWindows

/-! # The heap of a process

`sys_brk` takes the memory that it asks the kernel for as the continuation of the heap: it
counts its limit on from the address of the region it is given. The kernel places regions
by the id of the token and the bytes it has used, at a random offset. The heap below the
break is backed in a run exactly if each call that moves the break finds memory up to the
place where the kernel puts the region, and that not below the limit (`backed_iff_extends`).
-/

namespace Lofita.Kernel

open Lofita.Foundation Std

structure MemorySyscalls where
  heapBrk : U64
  heapLimit : U64
deriving DecidableEq, Repr

namespace MemorySyscalls

def new : MemorySyscalls where
  heapBrk := 0x4000_0000
  heapLimit := 0x4000_0000

/-- `sys_brk`, with the answer of `phys_alloc`: the value returned, and the break and the limit
afterwards. -/
def sysBrk (memory : MemorySyscalls) (state : KernelState) (tokenId newBrk phys : U64) :
    Reply (Int × MemorySyscalls) :=
  if newBrk = 0 then { value := (memory.heapBrk.toInt, memory), state }
  else if newBrk < memory.heapBrk then { value := (-22, memory), state }
  else if newBrk > memory.heapLimit then
    let needed := newBrk - memory.heapLimit
    let reply := state.allocateMemory tokenId needed true false phys
    if reply.value = 0 then { reply with value := (-12, memory) }
    else
      { reply with
        value := (newBrk.toInt, { heapBrk := newBrk, heapLimit := reply.value + needed }) }
  else { value := (newBrk.toInt, { memory with heapBrk := newBrk }), state }

end MemorySyscalls

/-- A process that calls `sys_brk`, and the kernel. -/
structure BrkState where
  kernel : KernelState
  memory : MemorySyscalls

structure BrkCall where
  newBrk : U64
  phys : U64

namespace BrkState

variable (tokenId : U64)

def reply (state : BrkState) (call : BrkCall) : Reply (Int × MemorySyscalls) :=
  state.memory.sysBrk state.kernel tokenId call.newBrk call.phys

/-- The calls of `sys_brk` for a token. -/
def brks : System BrkState BrkCall :=
  ⟨fun state call =>
    { kernel := (state.reply tokenId call).state, memory := (state.reply tokenId call).value.2 }⟩

/-- The address belongs to a region of the token. -/
def Covered (state : KernelState) (addr : Nat) : Prop :=
  ∃ (ref : Ref) (key : U64) (vma : Vma), state.tokens[tokenId]? = some ref ∧
    (state.token ref).vmas[key]? = some vma ∧ vma.Covers addr

/-- The break is not above the limit, and every address of the heap below it belongs to a
region of the token. -/
structure Backed (state : BrkState) : Prop where
  within : state.memory.heapBrk ≤ state.memory.heapLimit
  covered : ∀ addr, 0x4000_0000 ≤ addr → addr < state.memory.heapBrk.toNat →
    Covered tokenId state.kernel addr

/-- The call leaves the heap backed, and break and limit as they were if its result is
negative. -/
def StaysBacked (state : BrkState) (call : BrkCall) : Prop :=
  Backed tokenId ((brks tokenId).step state call) ∧
    ((state.reply tokenId call).value.1 < 0 → (state.reply tokenId call).value.2 = state.memory)

end BrkState

/-- The address belongs to a region of the token that is not entered at the key. -/
def Token.CoversBeside (token : Token) (key : U64) (addr : Nat) : Prop :=
  ∃ (other : U64) (vma : Vma), other ≠ key ∧ token.vmas[other]? = some vma ∧ vma.Covers addr

namespace MemorySyscalls

/-- The region that the token is given next for a break above the limit serves as part of the
heap. If it lies at address 0, which is taken for a refusal, the heap does not need the
region it replaces; otherwise it does not lie below the limit, the new limit does not wrap,
and the heap below it lies in other regions. -/
def Joins (memory : MemorySyscalls) (token : Token) (newBrk : U64) : Prop :=
  let needed := newBrk - memory.heapLimit
  if token.nextAddr = 0 then
    ∀ addr, 0x4000_0000 ≤ addr → addr < memory.heapBrk.toNat →
      addr < (pagesFor needed * 4096).toNat ∨ token.CoversBeside 0 addr
  else
    newBrk.toNat < 2 ^ 63 ∧ memory.heapLimit ≤ token.nextAddr ∧
      token.nextAddr.toNat + needed.toNat < 2 ^ 64 ∧
      ∀ addr, 0x4000_0000 ≤ addr → addr < newBrk.toNat → addr < token.nextAddr.toNat →
        token.CoversBeside token.nextAddr addr

end MemorySyscalls

/-- A break that moves up to the limit stays below `2 ^ 63` and in regions of the token, and
one that moves above it is refused or given a region that joins the heap. -/
def BrkState.Extends (tokenId : U64) (state : BrkState) (call : BrkCall) : Prop :=
  call.newBrk = 0 ∨ call.newBrk < state.memory.heapBrk ∨
    if call.newBrk > state.memory.heapLimit then
      ∀ ref, state.kernel.tokens[tokenId]? = some ref → call.phys ≠ 0 →
        state.memory.Joins (state.kernel.token ref) call.newBrk
    else
      (call.newBrk = state.memory.heapBrk ∨ call.newBrk.toNat < 2 ^ 63) ∧
        ∀ addr, 0x4000_0000 ≤ addr → addr < call.newBrk.toNat →
          BrkState.Covered tokenId state.kernel addr

/-! ### The region given to the heap -/

section Region

variable {state : KernelState} {tokenId needed phys : U64} {ref : Ref}

theorem allocateMemory_of_refused (refused : state.tokens[tokenId]? = none ∨ phys = 0) :
    (state.allocateMemory tokenId needed true false phys).value = 0 ∧
      (state.allocateMemory tokenId needed true false phys).state = state := by
  unfold KernelState.allocateMemory
  cases found : state.tokens[tokenId]? with
  | none => exact ⟨rfl, rfl⟩
  | some ref =>
      have exhausted : phys = 0 := by
        rw [found] at refused
        exact refused.resolve_left (Option.some_ne_none ref)
      simp only [exhausted, Bool.and_false, Bool.false_eq_true, ↓reduceIte, and_self]

theorem allocateMemory_of_granted (found : state.tokens[tokenId]? = some ref)
    (granted : phys ≠ 0) :
    (state.allocateMemory tokenId needed true false phys).value = (state.token ref).nextAddr ∧
      (state.allocateMemory tokenId needed true false phys).state =
        state.setToken ref ((state.token ref).register
          ((state.token ref).eagerVma needed true false phys)) := by
  rcases state.allocateMemory_cases tokenId needed true false phys with
    ⟨refused, _⟩ | ⟨other, isRef, _, _, reply⟩
  · rcases refused with missing | both | exhausted
    · cases found.symm.trans missing
    · cases both
    · exact absurd exhausted granted
  · cases found.symm.trans isRef
    rw [reply]
    exact ⟨rfl, rfl⟩

/-- A region that is entered covers its addresses; the others are covered as before, but for
the region it replaces. -/
theorem covered_register (found : state.tokens[tokenId]? = some ref) (vma : Vma) (addr : Nat) :
    BrkState.Covered tokenId (state.setToken ref ((state.token ref).register vma)) addr ↔
      vma.Covers addr ∨ (state.token ref).CoversBeside vma.startAddr addr := by
  have entered (key : U64) :
      ((state.setToken ref ((state.token ref).register vma)).token ref).vmas[key]? =
        if vma.startAddr = key then some vma else (state.token ref).vmas[key]? := by
    rw [KernelState.token_setToken_self]
    change ((state.token ref).vmas.insert vma.startAddr vma)[key]? = _
    simp only [TreeMap.getElem?_insert, Std.compare_eq_iff_eq]
  constructor
  · rintro ⟨other, key, covering, isRef, isVma, covers⟩
    cases found.symm.trans isRef
    have isEntry := (entered key).symm.trans isVma
    split_ifs at isEntry with here
    · cases isEntry
      exact .inl covers
    · exact .inr ⟨key, covering, Ne.symm here, isEntry, covers⟩
  · rintro (covers | ⟨key, covering, different, isVma, covers⟩)
    · exact ⟨ref, vma.startAddr, vma, found, (entered _).trans (if_pos rfl), covers⟩
    · exact ⟨ref, key, covering, found,
        (entered key).trans ((if_neg (Ne.symm different)).trans isVma), covers⟩

/-- The addresses covered once the token has been given a region. -/
theorem covered_granted (found : state.tokens[tokenId]? = some ref) (addr : Nat) :
    BrkState.Covered tokenId (state.setToken ref ((state.token ref).register
        ((state.token ref).eagerVma needed true false phys))) addr ↔
      ((state.token ref).nextAddr.toNat ≤ addr ∧
          addr < (state.token ref).nextAddr.toNat + (pagesFor needed * 4096).toNat) ∨
        (state.token ref).CoversBeside (state.token ref).nextAddr addr :=
  covered_register found _ addr

/-- The pages that a byte count takes have room for it, if rounding up does not wrap. -/
theorem le_pagesFor (fits : needed.toNat + 4095 < 2 ^ 64) :
    needed.toNat ≤ (pagesFor needed * 4096).toNat := by
  rw [toNat_pagesFor_mul, toNat_pagesFor]
  omega

end Region

/-! ### One call -/

namespace BrkState

variable {tokenId : U64} {state : BrkState} {call : BrkCall}

/-- The addresses of the heap lie above those it starts with. -/
structure Placed (tokenId : U64) (state : BrkState) : Prop extends Backed tokenId state where
  start : 0x4000_0000 ≤ state.memory.heapBrk.toNat

/-- A call without effect keeps the heap as it is. -/
theorem staysBacked_of_unchanged (backed : Backed tokenId state)
    (sameKernel : (state.reply tokenId call).state = state.kernel)
    (sameMemory : (state.reply tokenId call).value.2 = state.memory) :
    StaysBacked tokenId state call := by
  refine ⟨?_, fun _ => sameMemory⟩
  change Backed tokenId ⟨_, _⟩
  rw [sameKernel, sameMemory]
  exact backed

/-- A break that moves up to the limit stays in regions that are there. -/
theorem staysBacked_iff_within (nonzero : call.newBrk ≠ 0)
    (notBelow : ¬ call.newBrk < state.memory.heapBrk)
    (notAbove : ¬ call.newBrk > state.memory.heapLimit) :
    StaysBacked tokenId state call ↔
      (call.newBrk = state.memory.heapBrk ∨ call.newBrk.toNat < 2 ^ 63) ∧
        ∀ addr, 0x4000_0000 ≤ addr → addr < call.newBrk.toNat →
          Covered tokenId state.kernel addr := by
  have reply : state.reply tokenId call =
      { value := (call.newBrk.toInt, { state.memory with heapBrk := call.newBrk })
        state := state.kernel } := by
    unfold BrkState.reply MemorySyscalls.sysBrk
    rw [if_neg nonzero, if_neg notBelow, if_neg notAbove]
  have negative : call.newBrk.toInt < 0 ↔ ¬ call.newBrk.toNat < 2 ^ 63 := by
    rw [BitVec.toInt_neg_iff]
    omega
  unfold StaysBacked
  change Backed tokenId ⟨_, _⟩ ∧ _ ↔ _
  rw [reply]
  constructor
  · rintro ⟨backed, kept⟩
    refine ⟨?_, backed.covered⟩
    by_contra moved
    obtain ⟨different, large⟩ := not_or.mp moved
    exact different (congrArg MemorySyscalls.heapBrk (kept (negative.mpr large)))
  · rintro ⟨small, covered⟩
    refine ⟨⟨BitVec.not_lt.mp notAbove, covered⟩, fun isNegative => ?_⟩
    have same := small.resolve_right (negative.mp isNegative)
    rw [same]

/-- A limit counted on from an address reaches a break above the old limit exactly if the
address is not below the old limit and the sum does not wrap. -/
theorem le_add_sub_iff {limit newBrk addr : U64} (above : limit < newBrk) :
    newBrk ≤ addr + (newBrk - limit) ↔
      limit ≤ addr ∧ addr.toNat + (newBrk - limit).toNat < 2 ^ 64 := by
  have needed : (newBrk - limit).toNat = newBrk.toNat - limit.toNat :=
    BitVec.toNat_sub_of_le (BitVec.le_of_lt above)
  rw [BitVec.lt_def] at above
  rw [BitVec.le_def, BitVec.le_def, BitVec.toNat_add, needed]
  have := addr.isLt
  have := newBrk.isLt
  omega

/-- Memory at address 0 is taken for a refusal; the heap has to stay covered. -/
theorem staysBacked_iff_of_zero (placed : Placed tokenId state) (nonzero : call.newBrk ≠ 0)
    (notBelow : ¬ call.newBrk < state.memory.heapBrk)
    (above : state.memory.heapLimit < call.newBrk) {ref : Ref}
    (found : state.kernel.tokens[tokenId]? = some ref) (granted : call.phys ≠ 0)
    (refusal : (state.kernel.token ref).nextAddr = 0) :
    StaysBacked tokenId state call ↔
      ∀ addr, 0x4000_0000 ≤ addr → addr < state.memory.heapBrk.toNat →
        addr < (pagesFor (call.newBrk - state.memory.heapLimit) * 4096).toNat ∨
          (state.kernel.token ref).CoversBeside 0 addr := by
  obtain ⟨value, next⟩ := @allocateMemory_of_granted state.kernel tokenId
    (call.newBrk - state.memory.heapLimit) call.phys ref found granted
  have reply : state.reply tokenId call =
      { state.kernel.allocateMemory tokenId (call.newBrk - state.memory.heapLimit) true false
          call.phys with value := (-12, state.memory) } := by
    unfold BrkState.reply MemorySyscalls.sysBrk
    rw [if_neg nonzero, if_neg notBelow, if_pos above]
    exact if_pos (value.trans refusal)
  have covered (addr : Nat) := @covered_granted state.kernel tokenId
    (call.newBrk - state.memory.heapLimit) call.phys ref found addr
  have fromZero (addr : Nat) : addr < (pagesFor (call.newBrk - state.memory.heapLimit) *
        4096).toNat ↔ (0 : U64).toNat ≤ addr ∧ addr < (0 : U64).toNat +
          (pagesFor (call.newBrk - state.memory.heapLimit) * 4096).toNat := by
    change _ ↔ 0 ≤ addr ∧ addr < 0 + _
    rw [Nat.zero_add]
    exact (and_iff_right (Nat.zero_le addr)).symm
  simp only [refusal, ← fromZero] at covered
  change Backed tokenId ⟨_, _⟩ ∧ _ ↔ _
  rw [reply, next]
  constructor
  · rintro ⟨backed, _⟩ addr low high
    exact (covered addr).mp (backed.covered addr low high)
  · intro kept
    refine ⟨⟨placed.within, fun addr low high => ?_⟩, fun _ => rfl⟩
    exact (covered addr).mpr (kept addr low high)

/-- A region at another address becomes the end of the heap: it has to begin at the limit or
above, with the heap below it covered. -/
theorem staysBacked_iff_of_ne_zero (placed : Placed tokenId state) (nonzero : call.newBrk ≠ 0)
    (notBelow : ¬ call.newBrk < state.memory.heapBrk)
    (above : state.memory.heapLimit < call.newBrk) {ref : Ref}
    (found : state.kernel.tokens[tokenId]? = some ref) (granted : call.phys ≠ 0)
    (accepted : (state.kernel.token ref).nextAddr ≠ 0) :
    StaysBacked tokenId state call ↔
      call.newBrk.toNat < 2 ^ 63 ∧
        state.memory.heapLimit ≤ (state.kernel.token ref).nextAddr ∧
        (state.kernel.token ref).nextAddr.toNat + (call.newBrk - state.memory.heapLimit).toNat <
          2 ^ 64 ∧
        ∀ addr, 0x4000_0000 ≤ addr → addr < call.newBrk.toNat →
          addr < (state.kernel.token ref).nextAddr.toNat →
            (state.kernel.token ref).CoversBeside (state.kernel.token ref).nextAddr addr := by
  obtain ⟨value, next⟩ := @allocateMemory_of_granted state.kernel tokenId
    (call.newBrk - state.memory.heapLimit) call.phys ref found granted
  have reply : state.reply tokenId call =
      { state.kernel.allocateMemory tokenId (call.newBrk - state.memory.heapLimit) true false
          call.phys with
        value := (call.newBrk.toInt, ⟨call.newBrk, (state.kernel.token ref).nextAddr +
          (call.newBrk - state.memory.heapLimit)⟩) } := by
    unfold BrkState.reply MemorySyscalls.sysBrk
    rw [if_neg nonzero, if_neg notBelow, if_pos above, ← value]
    exact if_neg (value ▸ accepted)
  have covered (addr : Nat) := @covered_granted state.kernel tokenId
    (call.newBrk - state.memory.heapLimit) call.phys ref found addr
  have needed : (call.newBrk - state.memory.heapLimit).toNat =
      call.newBrk.toNat - state.memory.heapLimit.toNat :=
    BitVec.toNat_sub_of_le (BitVec.le_of_lt above)
  have within : state.memory.heapBrk.toNat ≤ state.memory.heapLimit.toNat := placed.within
  have start := placed.start
  have room : (call.newBrk - state.memory.heapLimit).toNat ≤
      (pagesFor (call.newBrk - state.memory.heapLimit) * 4096).toNat := by
    apply le_pagesFor
    have := call.newBrk.isLt
    omega
  have small : (call.newBrk.toInt < 0 →
      (⟨call.newBrk, (state.kernel.token ref).nextAddr +
        (call.newBrk - state.memory.heapLimit)⟩ : MemorySyscalls) = state.memory) ↔
      call.newBrk.toNat < 2 ^ 63 := by
    rw [BitVec.toInt_neg_iff]
    have isAbove : state.memory.heapLimit.toNat < call.newBrk.toNat := above
    constructor
    · intro kept
      by_contra large
      have same : call.newBrk = state.memory.heapBrk :=
        congrArg MemorySyscalls.heapBrk (kept (by omega))
      rw [same] at isAbove
      exact absurd within (Nat.not_le_of_lt isAbove)
    · intro small negative
      omega
  change Backed tokenId ⟨_, _⟩ ∧ _ ↔ _
  rw [reply, next, and_comm, small]
  refine and_congr_right fun _ => ?_
  rw [← and_assoc, ← le_add_sub_iff above]
  constructor
  · intro backed
    refine ⟨backed.within, fun addr low high before => ?_⟩
    refine ((covered addr).mp (backed.covered addr low high)).resolve_left fun inside => ?_
    exact absurd inside.1 (Nat.not_le_of_lt before)
  · rintro ⟨reaches, others⟩
    refine ⟨reaches, fun addr low high => (covered addr).mpr ?_⟩
    obtain ⟨notLower, _⟩ := (le_add_sub_iff above).mp reaches
    rw [BitVec.le_def] at notLower
    have high : addr < call.newBrk.toNat := high
    by_cases inside : (state.kernel.token ref).nextAddr.toNat ≤ addr
    · exact .inl ⟨inside, by omega⟩
    · exact .inr (others addr low high (Nat.lt_of_not_le inside))

/-- A call keeps the heap backed exactly if it extends it. -/
theorem staysBacked_iff_extends (placed : Placed tokenId state) :
    StaysBacked tokenId state call ↔ Extends tokenId state call := by
  unfold Extends
  by_cases zero : call.newBrk = 0
  · have reply : state.reply tokenId call =
        { value := (state.memory.heapBrk.toInt, state.memory), state := state.kernel } :=
      if_pos zero
    refine iff_of_true (staysBacked_of_unchanged placed.toBacked ?_ ?_) (.inl zero)
    · rw [reply]
    · rw [reply]
  by_cases below : call.newBrk < state.memory.heapBrk
  · have reply : state.reply tokenId call =
        { value := (-22, state.memory), state := state.kernel } :=
      (if_neg zero).trans (if_pos below)
    refine iff_of_true (staysBacked_of_unchanged placed.toBacked ?_ ?_) (.inr (.inl below))
    · rw [reply]
    · rw [reply]
  rw [or_iff_right zero, or_iff_right below]
  split_ifs with above
  · by_cases refused : state.kernel.tokens[tokenId]? = none ∨ call.phys = 0
    · obtain ⟨value, next⟩ := @allocateMemory_of_refused state.kernel tokenId
        (call.newBrk - state.memory.heapLimit) call.phys refused
      have reply : state.reply tokenId call =
          { state.kernel.allocateMemory tokenId (call.newBrk - state.memory.heapLimit) true false
              call.phys with value := (-12, state.memory) } := by
        unfold BrkState.reply MemorySyscalls.sysBrk
        rw [if_neg zero, if_neg below, if_pos above]
        exact if_pos value
      refine iff_of_true (staysBacked_of_unchanged placed.toBacked ?_ ?_) ?_
      · rw [reply]
        exact next
      · rw [reply]
      · intro ref found granted
        have impossible : False :=
          refused.elim (fun missing => Option.some_ne_none ref (found.symm.trans missing)) granted
        exact impossible.elim
    · obtain ⟨known, granted⟩ := not_or.mp refused
      obtain ⟨ref, found⟩ := Option.ne_none_iff_exists'.mp known
      simp only [found, Option.some.injEq, forall_eq', ne_eq, granted, not_false_eq_true,
        forall_const, MemorySyscalls.Joins]
      split_ifs with refusal
      · exact staysBacked_iff_of_zero placed zero below above found granted refusal
      · exact staysBacked_iff_of_ne_zero placed zero below above found granted refusal
  · exact staysBacked_iff_within zero below above

/-- The break never moves down. -/
theorem heapBrk_le_step (tokenId : U64) (state : BrkState) (call : BrkCall) :
    state.memory.heapBrk ≤ ((brks tokenId).step state call).memory.heapBrk := by
  change _ ≤ (state.memory.sysBrk state.kernel tokenId call.newBrk call.phys).value.2.heapBrk
  unfold MemorySyscalls.sysBrk
  split_ifs with zero below above
  · exact BitVec.le_refl _
  · exact BitVec.le_refl _
  · simp only
    split_ifs
    · exact BitVec.le_refl _
    · exact BitVec.not_lt.mp below
  · exact BitVec.not_lt.mp below

/-- A call that keeps the heap backed leaves it above its start. -/
theorem Placed.step (placed : Placed tokenId state) (stays : StaysBacked tokenId state call) :
    Placed tokenId ((brks tokenId).step state call) where
  toBacked := stays.1
  start := placed.start.trans (heapBrk_le_step tokenId state call)

end BrkState

/-- **When the heap is backed.** In a run of `sys_brk` calls for a token each call keeps the
break below the limit and the heap in regions of the token, and changes nothing if its
result is negative, if and only if each call that is not refused extends the heap. -/
theorem backed_iff_extends (kernel : KernelState) (tokenId : U64) (calls : List BrkCall) :
    (BrkState.brks tokenId).Along (BrkState.StaysBacked tokenId) ⟨kernel, .new⟩ calls ↔
      (BrkState.brks tokenId).Along (BrkState.Extends tokenId) ⟨kernel, .new⟩ calls := by
  have start : BrkState.Placed tokenId ⟨kernel, .new⟩ :=
    { within := BitVec.le_refl _
      covered := fun addr low high => absurd high (Nat.not_lt_of_le low)
      start := Nat.le_refl _ }
  constructor
  · exact System.along_of_invariant (fun _ _ placed stays => BrkState.Placed.step placed stays)
      (fun _ _ placed stays => (BrkState.staysBacked_iff_extends placed).mp stays) start
  · exact System.along_of_invariant
      (fun _ _ placed meets =>
        placed.step ((BrkState.staysBacked_iff_extends placed).mpr meets))
      (fun _ _ placed meets => (BrkState.staysBacked_iff_extends placed).mpr meets) start

/-- The first page of the heap of a token is placed far above the break. -/
theorem not_staysBacked_first_page :
    ¬ (BrkState.brks 97).Along (BrkState.StaysBacked 97) ⟨populated, .new⟩
      [⟨0x4000_1000, 0x10_0000⟩] := by
  rintro ⟨⟨backed, _⟩, _⟩
  obtain ⟨ref, key, vma, known, found, covers⟩ :=
    backed.covered 0x4000_0000 (by decide) (by decide +kernel)
  have isRef : ((BrkState.brks 97).step ⟨populated, .new⟩
      ⟨0x4000_1000, 0x10_0000⟩).kernel.tokens[(97 : U64)]? = some 96 := by decide +kernel
  cases isRef.symm.trans known
  have regions : (((BrkState.brks 97).step ⟨populated, .new⟩
      ⟨0x4000_1000, 0x10_0000⟩).kernel.token 96).vmas.toList =
        [(0x8138_6000, ⟨0x8138_6000, 4096, true, false, 0x10_0000⟩)] := by decide +kernel
  have member := TreeMap.mem_toList_iff_getElem?_eq_some.mpr found
  rw [regions] at member
  cases List.mem_singleton.mp member
  exact absurd covers.1 (by decide)

end Lofita.Kernel
