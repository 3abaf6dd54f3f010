import Mathlib.Data.Nat.Bitwise
import Lofita.Kernel.AddressWindows

/-! # Allocations of one token

A region is placed behind the bytes that its token has used, at an offset drawn from a
generator whose seed is the id of the token combined with the bytes used. The offset is
taken modulo 1024 pages, and modulo 1024 the generator sees the seed only modulo 1024
(`toNat_getAslrOffset`). The bytes used are whole pages, so they do not reach these bits:
the offset of a token never changes, and its regions follow each other
(`allocations_apart`).
-/

namespace Lofita.Kernel

open Lofita.Foundation Std

/-! ### The offset -/

/-- The offset in terms of the last ten bits of the seed. -/
theorem toNat_getAslrOffset (seed : U64) :
    (getAslrOffset seed).toNat = (1_103_515_245 * seed.toNat + 12_345) % 1024 * 4096 := by
  let rand : U64 := (BitVec.ofNat 64 1_103_515_245 * seed + BitVec.ofNat 64 12_345) %
    BitVec.ofNat 64 (2 ^ 31) % BitVec.ofNat 64 1024
  have below : rand.toNat = (1_103_515_245 * seed.toNat + 12_345) % 1024 := by
    simp only [rand, BitVec.toNat_umod, BitVec.toNat_add, BitVec.toNat_mul, BitVec.toNat_ofNat,
      Nat.mod_add_mod, Nat.add_mod_mod, Nat.mod_mul_mod]
    rw [Nat.mod_mod_of_dvd _ (by decide), Nat.mod_mod_of_dvd _ (by decide)]
  change (rand * BitVec.ofNat 64 4096).toNat = _
  rw [BitVec.toNat_mul, below, BitVec.toNat_ofNat]
  omega

/-- Whole pages combined with the seed leave the offset as it is. -/
theorem getAslrOffset_xor (id : U64) {used : U64} (pages : 4096 ∣ used.toNat) :
    getAslrOffset (id ^^^ used) = getAslrOffset id := by
  have last : (id ^^^ used).toNat % 2 ^ 10 = id.toNat % 2 ^ 10 := by
    have none : used.toNat % 2 ^ 10 = 0 :=
      Nat.mod_eq_zero_of_dvd (Nat.dvd_trans (by decide) pages)
    rw [BitVec.toNat_xor, Nat.xor_mod_two_pow, none, Nat.xor_zero]
  apply BitVec.eq_of_toNat_eq
  rw [toNat_getAslrOffset, toNat_getAslrOffset]
  omega

/-! ### Calls -/

/-- The arguments of `rust_allocate_memory`, with the answer of `phys_alloc`. -/
structure Allocation where
  size : U64
  isWriteable : Bool
  isExecutable : Bool
  phys : U64

/-- No block is handed out for no pages. -/
def Allocation.Answered (request : Allocation) : Prop :=
  pagesFor request.size = 0 → request.phys = 0

instance (request : Allocation) : Decidable request.Answered :=
  inferInstanceAs (Decidable (_ → _))

/-- `rust_allocate_memory` on one token. -/
def allocations (tokenId : U64) : System KernelState Allocation where
  step state request := (state.allocateMemory tokenId request.size request.isWriteable
    request.isExecutable request.phys).state

/-- The region of a call that succeeds ends below `2 ^ 64`, its start computed without
wrapping. -/
def Allocation.StaysBelow (tokenId : U64) (state : KernelState) (request : Allocation) : Prop :=
  ∀ region ∈ state.registers (.allocateMemory tokenId request.size request.isWriteable
      request.isExecutable request.phys),
    windowStart (state.token region.1).id + (state.token region.1).nextOffset +
      region.2.size.toNat ≤ 2 ^ 64

instance (tokenId : U64) (state : KernelState) (request : Allocation) :
    Decidable (request.StaysBelow tokenId state) :=
  inferInstanceAs (Decidable (∀ region ∈ state.registers _, _))

/-- The regions of the token start at page boundaries, have a positive number of whole
pages, and do not overlap. -/
def Tidy (token : Token) : Prop :=
  ∀ (key : U64) (vma : Vma), token.vmas[key]? = some vma →
    vma.startAddr = key ∧ 4096 ∣ vma.startAddr.toNat ∧ 0 < vma.size.toNat ∧
      4096 ∣ vma.size.toNat ∧
      ∀ (other : U64) (otherVma : Vma), other ≠ key → token.vmas[other]? = some otherVma →
        ∀ addr, vma.Covers addr → ¬ otherVma.Covers addr

/-- No region is replaced by another one. -/
def KeepsRegions (tokenId : U64) (ref : Ref) (state : KernelState) (request : Allocation) : Prop :=
  ∀ (key : U64) (vma : Vma), (state.token ref).vmas[key]? = some vma →
    (((allocations tokenId).step state request).token ref).vmas[key]? = some vma

/-! ### The regions of a token follow each other -/

/-- Where the first region of a token goes. -/
def Token.firstAddr (token : Token) : Nat :=
  windowStart token.id + (getAslrOffset token.id).toNat

/-- The regions fill whole pages between the first address and the bytes used. -/
structure Packed (token : Token) : Prop where
  pages : 4096 ∣ token.memoryUsed.toNat
  tidy : Tidy token
  below : ∀ (key : U64) (vma : Vma), token.vmas[key]? = some vma →
    key.toNat + vma.size.toNat ≤ token.firstAddr + token.memoryUsed.toNat

variable {token : Token} {size : U64} {isWriteable isExecutable : Bool} {phys : U64}

theorem dvd_firstAddr (token : Token) : 4096 ∣ token.firstAddr := by
  unfold Token.firstAddr windowStart windowSize
  rw [toNat_getAslrOffset]
  omega

/-- The next region goes right behind the bytes used. -/
theorem Packed.nextOffset (packed : Packed token) :
    windowStart token.id + token.nextOffset = token.firstAddr + token.memoryUsed.toNat := by
  unfold Token.nextOffset Token.firstAddr
  rw [getAslrOffset_xor token.id packed.pages]
  omega

theorem packed_of_isEmpty (empty : token.vmas.isEmpty = true) (unused : token.memoryUsed = 0) :
    Packed token where
  pages := by rw [unused]; exact Nat.dvd_zero 4096
  tidy key vma found := by
    rw [TreeMap.getElem?_of_isEmpty empty] at found
    cases found
  below key vma found := by
    rw [TreeMap.getElem?_of_isEmpty empty] at found
    cases found

/-- A region that ends below `2 ^ 64` keeps the regions of its token packed, and replaces
none of them. -/
theorem Packed.register (packed : Packed token) (nonzero : pagesFor size ≠ 0)
    (below : windowStart token.id + token.nextOffset +
      (token.eagerVma size isWriteable isExecutable phys).size.toNat ≤ 2 ^ 64) :
    Packed (token.register (token.eagerVma size isWriteable isExecutable phys)) ∧
      ∀ (key : U64) (vma : Vma), token.vmas[key]? = some vma →
        (token.register (token.eagerVma size isWriteable isExecutable phys)).vmas[key]? =
          some vma := by
  obtain ⟨vma, isVma⟩ : ∃ vma, token.eagerVma size isWriteable isExecutable phys = vma := ⟨_, rfl⟩
  have isSize : vma.size.toNat = (pagesFor size).toNat * 4096 := by
    rw [← isVma]
    exact toNat_pagesFor_mul size
  have positive : 0 < (pagesFor size).toNat :=
    BitVec.toNat_pos_of_ne_zero nonzero
  rw [isVma] at below ⊢
  have isStart : vma.startAddr = token.nextAddr := by
    rw [← isVma]
    rfl
  have start : vma.startAddr.toNat = token.firstAddr + token.memoryUsed.toNat := by
    rw [isStart, Token.toNat_nextAddr (by omega), packed.nextOffset]
  rw [packed.nextOffset] at below
  have room : 0 < token.firstAddr := by
    unfold Token.firstAddr windowStart
    omega
  have used : (token.memoryUsed + vma.size).toNat = token.memoryUsed.toNat + vma.size.toNat :=
    toNat_add_of_lt (by omega)
  have fresh (key : U64) (old : Vma) (found : token.vmas[key]? = some old) :
      key.toNat + old.size.toNat ≤ vma.startAddr.toNat ∧ key ≠ vma.startAddr := by
    have ends := packed.below key old found
    have nonempty := (packed.tidy key old found).2.2.1
    refine ⟨by omega, fun same => ?_⟩
    rw [same] at ends
    omega
  have lookup (key : U64) : (token.register vma).vmas[key]? =
      if vma.startAddr = key then some vma else token.vmas[key]? := by
    unfold Token.register
    simp only [TreeMap.getElem?_insert, Std.compare_eq_iff_eq]
  refine ⟨⟨?_, fun key found isFound => ?_, fun key found isFound => ?_⟩, fun key old found => ?_⟩
  · change 4096 ∣ (token.memoryUsed + vma.size).toNat
    rw [used, isSize]
    exact Nat.dvd_add packed.pages (Nat.dvd_mul_left ..)
  · rw [lookup] at isFound
    have starts : 4096 ∣ vma.startAddr.toNat := by
      rw [start]
      exact Nat.dvd_add (dvd_firstAddr token) packed.pages
    split at isFound
    · next here =>
        cases isFound
        refine ⟨here, starts, by omega, isSize ▸ Nat.dvd_mul_left .., ?_⟩
        intro other otherVma different isOther addr covered also
        rw [lookup, if_neg fun same => different (same.symm.trans here)] at isOther
        have key := (packed.tidy other otherVma isOther).1
        have ends := (fresh other otherVma isOther).1
        unfold Vma.Covers at covered also
        rw [key] at also
        omega
    · obtain ⟨isKey, aligned, nonempty, whole, apart⟩ := packed.tidy key found isFound
      refine ⟨isKey, aligned, nonempty, whole, ?_⟩
      intro other otherVma different isOther addr covered also
      rw [lookup] at isOther
      split at isOther
      · cases isOther
        have ends := (fresh key found isFound).1
        unfold Vma.Covers at covered also
        rw [isKey] at covered
        omega
      · exact apart other otherVma different isOther addr covered also
  · change key.toNat + found.size.toNat ≤ token.firstAddr + (token.memoryUsed + vma.size).toNat
    rw [lookup] at isFound
    rw [used]
    split at isFound
    · next here =>
        cases isFound
        rw [← here]
        omega
    · have ends := packed.below key found isFound
      omega
  · rw [lookup, if_neg (fresh key old found).2.symm]
    exact found

/-! ### Runs -/

variable {tokenId : U64} {ref : Ref} {state : KernelState}

/-- The token is in the table, with its regions packed. -/
structure PackedAt (tokenId : U64) (ref : Ref) (state : KernelState) : Prop where
  known : state.tokens[tokenId]? = some ref
  packed : Packed (state.token ref)

/-- A call keeps the regions of the token packed, and replaces none of them. -/
theorem PackedAt.step (packedAt : PackedAt tokenId ref state) {request : Allocation}
    (answered : request.Answered) (below : request.StaysBelow tokenId state) :
    PackedAt tokenId ref ((allocations tokenId).step state request) ∧
      KeepsRegions tokenId ref state request := by
  obtain ⟨known, packed⟩ := packedAt
  unfold KeepsRegions allocations
  rcases state.allocateMemory_cases tokenId request.size request.isWriteable request.isExecutable
    request.phys with ⟨_, same, _⟩ | ⟨owner, isOwner, apart, block, next⟩
  · simp only [same]
    exact ⟨⟨known, packed⟩, fun _ _ found => found⟩
  · cases known.symm.trans isOwner
    have registers : state.registers (.allocateMemory tokenId request.size request.isWriteable
        request.isExecutable request.phys) = some (ref, (state.token ref).eagerVma request.size
          request.isWriteable request.isExecutable request.phys) := by
      simp only [KernelState.registers, known, apart, block, Option.bind_eq_bind, Option.bind_some,
        ne_eq, not_false_eq_true, decide_true, Bool.not_false, Bool.and_self, ↓reduceIte]
      rfl
    have ends := below _ registers
    have nonzero : pagesFor request.size ≠ 0 := fun none => block (answered none)
    obtain ⟨packedAfter, kept⟩ := packed.register nonzero ends
    simp only [next, KernelState.token_setToken_self]
    refine ⟨⟨known, ?_⟩, kept⟩
    rw [KernelState.token_setToken_self]
    exact packedAfter

/-- **Allocations of one token stay apart.** From a token without regions that has used
nothing, as long as the regions end below `2 ^ 64`, every region starts at a page boundary,
has a positive number of whole pages and overlaps no other one, in every state of a run of
`rust_allocate_memory`; and no region is ever replaced. -/
theorem allocations_apart (known : state.tokens[tokenId]? = some ref)
    (empty : (state.token ref).vmas.isEmpty = true) (unused : (state.token ref).memoryUsed = 0)
    (requests : List Allocation) (answered : ∀ request ∈ requests, request.Answered)
    (below : (allocations tokenId).Along (fun state request => request.StaysBelow tokenId state)
      state requests) :
    (allocations tokenId).Always (fun state => Tidy (state.token ref)) state requests ∧
      (allocations tokenId).Along (KeepsRegions tokenId ref) state requests := by
  have guarded : (allocations tokenId).Along (fun state request =>
      request.Answered ∧ request.StaysBelow tokenId state) state requests :=
    System.along_and.mpr
      ⟨System.along_of_forall fun request member _ => answered request member, below⟩
  have initial : PackedAt tokenId ref state := ⟨known, packed_of_isEmpty empty unused⟩
  constructor
  · exact System.always_of_invariant (PackedAt tokenId ref)
      (fun _ _ packedAt guard => (packedAt.step guard.1 guard.2).1)
      (fun _ packedAt => packedAt.packed.tidy) initial guarded
  · exact System.along_of_invariant
      (fun _ _ (packedAt : PackedAt tokenId ref _) guard => (packedAt.step guard.1 guard.2).1)
      (fun _ _ packedAt guard => (packedAt.step guard.1 guard.2).2) initial guarded

/-- A refused request between two that are granted. -/
def threeRequests : List Allocation :=
  [{ size := 8192, isWriteable := true, isExecutable := false, phys := 0x10_0000 },
    { size := 0, isWriteable := true, isExecutable := false, phys := 0 },
    { size := 5000, isWriteable := false, isExecutable := true, phys := 0x20_0000 }]

theorem allocations_apart_boot :
    (allocations 1).Always (fun state => Tidy (state.token 0)) .boot threeRequests ∧
      (allocations 1).Along (KeepsRegions 1 0) .boot threeRequests :=
  allocations_apart (by decide) (by decide) (by decide) threeRequests (by decide) (by decide)

end Lofita.Kernel
