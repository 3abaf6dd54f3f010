import Lofita.Kernel.Calls

/-! # Invariants of the token registry

Every table entry and every session refers to an existing token, entered under
its own id (`Registered`). As long as the id counter has not wrapped, tokens are
numbered in the order of their creation (`Numbered`), so a token is determined
by its id; and as long as the tick count has not wrapped either, every unexpired
token is in the table (`Listing`).
-/

namespace Lofita.Kernel

open Lofita.Foundation Std

/-- The tables refer to existing tokens, each entered under its own id. -/
structure Registered (state : KernelState) : Prop where
  table : ∀ {id : U64} {ref : Ref}, state.tokens[id]? = some ref →
    ref < state.tokenCells.next ∧ (state.token ref).id = id
  bound : ∀ {sessionId : U64} {session : Session}, state.sessions[sessionId]? = some session →
    session.token < state.tokenCells.next

/-- Tokens have consecutive ids, starting with 1, and the counter holds the next. -/
structure Numbered (state : KernelState) : Prop extends Registered state where
  number : ∀ ref < state.tokenCells.next, (state.token ref).id.toNat = ref + 1
  nextNumber : state.nextTokenId.toNat = state.tokenCells.next + 1

/-- The call does not wrap the token id counter. -/
def CountsOn (state : KernelState) : KernelCall → Prop
  | .createChildToken _ => state.nextTokenId ≠ U64.max
  | _ => True

instance decidableCountsOn (state : KernelState) : ∀ call, Decidable (CountsOn state call)
  | .createChildToken _ => inferInstanceAs (Decidable (state.nextTokenId ≠ U64.max))
  | .runProcess _ _ | .kernelTick _ | .ipcSend _ _ _ | .ipcRecv _ _ | .memAlloc _ _ _ _
  | .allocateMemory _ _ _ _ _ | .handlePageFault _ _ _ | .cleanup _ => .isTrue trivial

namespace Registered

variable {state : KernelState}

theorem boot : Registered KernelState.boot where
  table := by
    intro id ref found
    change (TreeMap.insert ∅ 1 0)[id]? = some ref at found
    rw [TreeMap.getElem?_insert] at found
    split_ifs at found with here
    · cases found
      rw [Std.compare_eq_iff_eq] at here
      exact ⟨Nat.zero_lt_one, here⟩
    · exact absurd found (by simp)
  bound := by
    intro sessionId session found
    exact absurd found (by simp [KernelState.boot, KernelState.init, KernelState.new])

/-- A step that keeps the registry. -/
theorem sameRegistry {next : KernelState} (registered : Registered state)
    (same : SameRegistry state next) : Registered next where
  table := by
    intro id ref found
    rw [same.tokens] at found
    rw [same.next, Token.id_of_charter_eq (same.charter _)]
    exact registered.table found
  bound := by
    intro sessionId session found
    rw [same.sessions] at found
    rw [same.next]
    exact registered.bound found

/-- A new token is registered. -/
theorem addChild (registered : Registered state) (request : ChildRequest) :
    Registered (state.addChild request) where
  table := by
    intro id ref found
    change (state.tokens.insert state.nextTokenId state.tokenCells.next)[id]? = some ref at found
    rw [KernelState.next_addChild]
    rw [TreeMap.getElem?_insert] at found
    split_ifs at found with here
    · cases found
      rw [Std.compare_eq_iff_eq] at here
      exact ⟨Nat.lt_succ_self _,
        (Token.id_of_charter_eq (state.charter_addChild_next request)).trans here⟩
    · obtain ⟨older, same⟩ := registered.table found
      exact ⟨Nat.lt_succ_of_lt older,
        (Token.id_of_charter_eq (state.charter_addChild_of_lt request older)).trans same⟩
  bound := by
    intro sessionId session found
    rw [KernelState.next_addChild]
    exact Nat.lt_succ_of_lt (registered.bound found)

theorem startSession (registered : Registered state) {tokenId : U64} {ref : Ref}
    (known : state.tokens[tokenId]? = some ref) (sessionTicks : U64) :
    Registered (state.startSession ref sessionTicks) where
  table := by
    intro id other found
    obtain ⟨older, same⟩ := registered.table found
    refine ⟨older, ?_⟩
    rw [← same]
    exact Token.id_of_charter_eq (state.charter_startSession ref sessionTicks other)
  bound := by
    intro sessionId session found
    change (state.sessions.insert state.nextSessionId _)[sessionId]? = some session at found
    rw [TreeMap.getElem?_insert] at found
    split_ifs at found with here
    · cases found
      exact (registered.table known).1
    · exact registered.bound found

/-- A tick removes whole tokens. -/
theorem tick (registered : Registered state) (frame : Option TrapFrame) :
    Registered (state.tick frame).state where
  table := by
    intro id ref found
    obtain ⟨older, same⟩ := registered.table ((state.tokens_tick frame id ref).mp found).1
    rw [KernelState.next_tick]
    exact ⟨older, (Token.id_of_charter_eq (state.charter_tick frame ref)).trans same⟩
  bound := by
    intro sessionId session found
    obtain ⟨old, before, token, _⟩ := KernelState.session_tick found
    rw [KernelState.next_tick, token]
    exact registered.bound before

/-- Every call keeps the registry. -/
theorem after (registered : Registered state) (call : KernelCall) :
    Registered (state.after call) := by
  rcases state.after_cases call with
    same | ⟨request, rfl, _, next⟩ | ⟨_, sessionTicks, ref, rfl, known, _, next⟩ | ⟨frame, rfl⟩
  · exact registered.sameRegistry same
  · exact next ▸ registered.addChild request
  · exact next ▸ registered.startSession known sessionTicks
  · exact registered.tick frame

/-- The tables are in order after every run from boot. -/
theorem run (calls : List KernelCall) : Registered (kernel.run .boot calls) := by
  have along : kernel.Along (fun _ _ => True) .boot calls :=
    System.along_of_forall fun _ _ _ => trivial
  exact System.invariant_run Registered (fun _ call registered _ => registered.after call) boot
    along

end Registered

namespace Numbered

variable {state : KernelState}

/-- The tokens at boot are numbered. -/
theorem boot : Numbered KernelState.boot where
  toRegistered := .boot
  number := by
    intro ref below
    obtain rfl : ref = 0 := Nat.lt_one_iff.mp below
    rfl
  nextNumber := rfl

/-- Two tokens with the same id are the same. -/
theorem eq_of_id (numbered : Numbered state) {first second : Ref}
    (firstExists : first < state.tokenCells.next) (secondExists : second < state.tokenCells.next)
    (same : (state.token first).id = (state.token second).id) : first = second := by
  have numbers := numbered.number first firstExists
  rw [same, numbered.number second secondExists] at numbers
  exact (Nat.succ.inj numbers).symm

/-- A step that keeps the registry keeps the numbers. -/
theorem sameRegistry {next : KernelState} (numbered : Numbered state)
    (same : SameRegistry state next) : Numbered next where
  toRegistered := numbered.toRegistered.sameRegistry same
  number := by
    intro ref older
    rw [same.next] at older
    rw [Token.id_of_charter_eq (same.charter ref)]
    exact numbered.number ref older
  nextNumber := by rw [same.nextTokenId, same.next, numbered.nextNumber]

/-- A new token has the next number. -/
theorem addChild (numbered : Numbered state) (counts : state.nextTokenId ≠ U64.max)
    (request : ChildRequest) : Numbered (state.addChild request) where
  toRegistered := numbered.toRegistered.addChild request
  number := by
    intro ref older
    rw [KernelState.next_addChild] at older
    rcases Nat.lt_succ_iff_lt_or_eq.mp older with before | rfl
    · rw [Token.id_of_charter_eq (state.charter_addChild_of_lt request before)]
      exact numbered.number ref before
    · rw [Token.id_of_charter_eq (state.charter_addChild_next request)]
      exact numbered.nextNumber
  nextNumber := by
    rw [KernelState.next_addChild]
    exact (toNat_add_one counts).trans (congrArg Nat.succ numbered.nextNumber)

/-- A session changes no number. -/
theorem startSession (numbered : Numbered state) {tokenId : U64} {ref : Ref}
    (known : state.tokens[tokenId]? = some ref) (sessionTicks : U64) :
    Numbered (state.startSession ref sessionTicks) where
  toRegistered := numbered.toRegistered.startSession known sessionTicks
  number := by
    intro other older
    rw [Token.id_of_charter_eq (state.charter_startSession ref sessionTicks other)]
    exact numbered.number other older
  nextNumber := numbered.nextNumber

/-- A tick changes no number. -/
theorem tick (numbered : Numbered state) (frame : Option TrapFrame) :
    Numbered (state.tick frame).state where
  toRegistered := numbered.toRegistered.tick frame
  number := by
    intro ref older
    rw [KernelState.next_tick] at older
    rw [Token.id_of_charter_eq (state.charter_tick frame ref)]
    exact numbered.number ref older
  nextNumber := by
    rw [KernelState.nextTokenId_tick, KernelState.next_tick, numbered.nextNumber]

/-- Every call that does not wrap the counter keeps the numbers. -/
theorem after (numbered : Numbered state) {call : KernelCall} (counts : CountsOn state call) :
    Numbered (state.after call) := by
  rcases state.after_cases call with
    same | ⟨request, rfl, _, next⟩ | ⟨_, sessionTicks, _, rfl, known, _, next⟩ | ⟨frame, rfl⟩
  · exact numbered.sameRegistry same
  · exact next ▸ numbered.addChild counts request
  · exact next ▸ numbered.startSession known sessionTicks
  · exact numbered.tick frame

end Numbered

/-- The call does not wrap the tick count. -/
def TicksOn (state : KernelState) : KernelCall → Prop
  | .kernelTick _ => state.tickCount ≠ U64.max
  | _ => True

instance decidableTicksOn (state : KernelState) : ∀ call, Decidable (TicksOn state call)
  | .kernelTick _ => inferInstanceAs (Decidable (state.tickCount ≠ U64.max))
  | .createChildToken _ | .runProcess _ _ | .ipcSend _ _ _ | .ipcRecv _ _
  | .memAlloc _ _ _ _ | .allocateMemory _ _ _ _ _ | .handlePageFault _ _ _ | .cleanup _ =>
      .isTrue trivial

/-- An expired token stays expired. -/
theorem Token.isExpired_mono {token : Token} {tick : U64} (below : tick ≠ U64.max)
    (expired : token.isExpired tick = true) : token.isExpired (tick + 1) = true := by
  unfold Token.isExpired at expired ⊢
  split_ifs at expired ⊢ with permanent
  have passed : tick > token.expiryTick := of_decide_eq_true expired
  apply decide_eq_true
  unfold U64.max at below
  bv_omega

/-- Numbered tokens of which every unexpired one is in the token table. -/
structure Listing (state : KernelState) : Prop extends Numbered state where
  listed : ∀ {ref : Ref}, ref < state.tokenCells.next →
    (state.token ref).isExpired state.tickCount = false →
      state.tokens[(state.token ref).id]? = some ref

namespace Listing

variable {state : KernelState}

/-- The root token is listed at boot. -/
theorem boot : Listing KernelState.boot where
  toNumbered := .boot
  listed := by
    intro ref older _
    obtain rfl : ref = 0 := Nat.lt_one_iff.mp older
    decide

/-- A step that keeps the registry keeps the listing. -/
theorem sameRegistry {next : KernelState} (listing : Listing state)
    (same : SameRegistry state next) : Listing next where
  toNumbered := listing.toNumbered.sameRegistry same
  listed := by
    intro ref older young
    rw [same.next] at older
    rw [Token.isExpired_of_charter_eq (same.charter ref), same.tickCount] at young
    rw [same.tokens, Token.id_of_charter_eq (same.charter ref)]
    exact listing.listed older young

/-- A new token is listed. -/
theorem addChild (listing : Listing state) (counts : state.nextTokenId ≠ U64.max)
    (request : ChildRequest) : Listing (state.addChild request) where
  toNumbered := listing.toNumbered.addChild counts request
  listed := by
    intro ref older young
    rw [KernelState.next_addChild] at older
    change (state.tokens.insert state.nextTokenId state.tokenCells.next)[_]? = _
    rw [TreeMap.getElem?_insert]
    rcases Nat.lt_succ_iff_lt_or_eq.mp older with before | rfl
    · have terms := state.charter_addChild_of_lt request before
      rw [Token.id_of_charter_eq terms]
      rw [Token.isExpired_of_charter_eq terms] at young
      -- The id of an older token is not the one just given out.
      have different : state.nextTokenId ≠ (state.token ref).id := by
        intro same
        have numbers := listing.number ref before
        rw [← same, listing.nextNumber] at numbers
        exact absurd (Nat.succ.inj numbers).symm (Nat.ne_of_lt before)
      rw [if_neg fun here => different (Std.compare_eq_iff_eq.mp here)]
      exact listing.listed before young
    · rw [Token.id_of_charter_eq (state.charter_addChild_next request), if_pos]
      exact Std.compare_eq_iff_eq.mpr rfl

/-- A session removes no token. -/
theorem startSession (listing : Listing state) {tokenId : U64} {ref : Ref}
    (known : state.tokens[tokenId]? = some ref) (sessionTicks : U64) :
    Listing (state.startSession ref sessionTicks) where
  toNumbered := listing.toNumbered.startSession known sessionTicks
  listed := by
    intro other older young
    have terms := state.charter_startSession ref sessionTicks other
    rw [Token.isExpired_of_charter_eq terms] at young
    rw [Token.id_of_charter_eq terms]
    exact listing.listed older young

/-- A tick removes expired tokens only. -/
theorem tick (listing : Listing state) (ticks : state.tickCount ≠ U64.max)
    (frame : Option TrapFrame) : Listing (state.tick frame).state where
  toNumbered := listing.toNumbered.tick frame
  listed := by
    intro ref older young
    rw [KernelState.next_tick] at older
    have terms := state.charter_tick frame ref
    rw [Token.isExpired_of_charter_eq terms, KernelState.tickCount_tick] at young
    rw [Token.id_of_charter_eq terms, KernelState.tokens_tick]
    refine ⟨listing.listed older ?_, young⟩
    by_contra old
    have later := Token.isExpired_mono ticks (eq_true_of_ne_false old)
    exact Bool.false_ne_true (young.symm.trans later)

/-- Every call keeps the listing. -/
theorem after (listing : Listing state) {call : KernelCall} (counts : CountsOn state call)
    (ticks : TicksOn state call) : Listing (state.after call) := by
  rcases state.after_cases call with
    same | ⟨request, rfl, _, next⟩ | ⟨_, sessionTicks, _, rfl, known, _, next⟩ | ⟨frame, rfl⟩
  · exact listing.sameRegistry same
  · exact next ▸ listing.addChild counts request
  · exact next ▸ listing.startSession known sessionTicks
  · exact listing.tick ticks frame

end Listing

end Lofita.Kernel
