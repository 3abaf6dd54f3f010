import Lofita.Kernel.Registry

/-! # The authority behind a capability query

A capability query should be answered by a live session and a live token.
`rust_check_capability` looks at the session only, which keeps its token after
the token has expired and left the table, and it drops the undefined bits of the
query. So a positive answer may have no live token behind it
(`answers_for_reclaimed_token`) or name bits nobody holds
(`answers_for_undefined_bit`). Where no session outlasts its token, positive
answers to queries of defined bits are backed (`backed_of_covered_sessions`).
-/

namespace Lofita.Kernel

open Lofita.Foundation Std

/-- A live session stands for the query, bound to a live token of the table that
holds every bit asked for. -/
def Backed (state : KernelState) (sessionId : U64) (capVal : U32) : Prop :=
  ∃ session, state.sessions[sessionId]? = some session ∧
    session.isActive = true ∧ state.tickCount ≤ session.expiryTick ∧
    state.tokens[(state.token session.token).id]? = some session.token ∧
    (state.token session.token).isExpired state.tickCount = false ∧
    (state.token session.token).capabilities.bits &&& capVal = capVal

/-- The token lives until a tick. -/
def Token.Outlasts (token : Token) (expiryTick : U64) : Prop :=
  token.isPermanent = true ∨ expiryTick ≤ token.expiryTick

instance decidableOutlasts (token : Token) (expiryTick : U64) :
    Decidable (token.Outlasts expiryTick) :=
  inferInstanceAs (Decidable (_ ∨ _))

/-- A session the call starts ends no later than its token. -/
def SessionCovered (state : KernelState) : KernelCall → Prop
  | .runProcess tokenId sessionTicks =>
      ∀ ref ∈ state.tokens[tokenId]?,
        (state.token ref).Outlasts (state.newSession ref sessionTicks).expiryTick
  | _ => True

instance decidableSessionCovered (state : KernelState) :
    ∀ call, Decidable (SessionCovered state call)
  | .runProcess tokenId _ => inferInstanceAs (Decidable (∀ ref ∈ state.tokens[tokenId]?, _))
  | .createChildToken _ | .kernelTick _ | .ipcSend _ _ _ | .ipcRecv _ _
  | .memAlloc _ _ _ _ | .allocateMemory _ _ _ _ _ | .handlePageFault _ _ _ | .cleanup _ =>
      .isTrue trivial

theorem Token.outlasts_iff_of_charter_eq {first second : Token}
    (same : first.charter = second.charter) (expiryTick : U64) :
    first.Outlasts expiryTick ↔ second.Outlasts expiryTick := by
  unfold Token.Outlasts
  rw [show first.isPermanent = second.isPermanent from congrArg Charter.isPermanent same,
    show first.expiryTick = second.expiryTick from congrArg Charter.expiryTick same]

/-- A token that lasts until a tick is not expired up to it. -/
theorem Token.Outlasts.isExpired {token : Token} {expiryTick : U64}
    (outlasts : token.Outlasts expiryTick) {tick : U64} (before : tick ≤ expiryTick) :
    token.isExpired tick = false := by
  unfold Token.isExpired
  rcases outlasts with permanent | later
  · rw [if_pos permanent]
  · split_ifs
    · rfl
    · exact decide_eq_false (BitVec.not_lt.mpr (BitVec.le_trans before later))

/-- Every session ends no later than its token. -/
structure Covered (state : KernelState) : Prop extends Listing state where
  covered : ∀ {sessionId : U64} {session : Session}, state.sessions[sessionId]? = some session →
    (state.token session.token).Outlasts session.expiryTick

namespace Covered

variable {state : KernelState}

theorem boot : Covered KernelState.boot where
  toListing := .boot
  covered := by
    intro sessionId session found
    exact absurd found (by simp [KernelState.boot, KernelState.init, KernelState.new])

theorem after (covered : Covered state) {call : KernelCall} (counts : CountsOn state call)
    (ticks : TicksOn state call) (sessionCovered : SessionCovered state call) :
    Covered (state.after call) := by
  refine { covered.toListing.after counts ticks with covered := ?_ }
  intro sessionId session found
  rcases state.after_cases call with
    same | ⟨request, rfl, _, next⟩ | ⟨tokenId, sessionTicks, ref, rfl, known, _, next⟩ |
      ⟨frame, rfl⟩
  · rw [same.sessions] at found
    rw [Token.outlasts_iff_of_charter_eq (same.charter _)]
    exact covered.covered found
  · rw [next] at found ⊢
    rw [Token.outlasts_iff_of_charter_eq
      (state.charter_addChild_of_lt request (covered.bound found))]
    exact covered.covered found
  · rw [next] at found ⊢
    rw [Token.outlasts_iff_of_charter_eq (state.charter_startSession ref sessionTicks _)]
    change (state.sessions.insert state.nextSessionId _)[sessionId]? = some session at found
    rw [TreeMap.getElem?_insert] at found
    split_ifs at found with here
    · cases found
      exact sessionCovered ref known
    · exact covered.covered found
  · obtain ⟨old, before, token, expiry⟩ := KernelState.session_tick found
    rw [token, expiry]
    change ((state.tick frame).state.token old.token).Outlasts old.expiryTick
    rw [Token.outlasts_iff_of_charter_eq (state.charter_tick frame _)]
    exact covered.covered before

/-- A positive answer to a query of defined bits is backed. -/
theorem backed (covered : Covered state) {sessionId : U64} {capVal : U32}
    (defined : capVal &&& Capability.allBits = capVal)
    (granted : state.checkCapability sessionId capVal = true) :
    Backed state sessionId capVal := by
  unfold KernelState.checkCapability at granted
  split at granted
  · cases granted
  next session found =>
    split_ifs at granted with dead
    rw [Bool.or_eq_true, not_or] at dead
    have live : state.tickCount ≤ session.expiryTick :=
      BitVec.not_lt.mp fun passed => dead.2 (decide_eq_true passed)
    have young := (covered.covered found).isExpired live
    rw [Capability.contains_eq_true, Capability.bits_fromBitsTruncate_of_defined defined] at granted
    refine ⟨session, found, ?_, live, covered.listed (covered.bound found) young, young, granted⟩
    simpa using dead.1

end Covered

/-- **Authority dies with its token.** After a run from boot in which no session
outlasts its token and no counter wraps, every positive answer to a query of
defined bits is backed by a live session and a live token. -/
theorem backed_of_covered_sessions (calls : List KernelCall)
    (along : kernel.Along (fun state call =>
      SessionCovered state call ∧ CountsOn state call ∧ TicksOn state call) .boot calls)
    (sessionId : U64) (capVal : U32) (defined : capVal &&& Capability.allBits = capVal)
    (granted : (kernel.run .boot calls).checkCapability sessionId capVal = true) :
    Backed (kernel.run .boot calls) sessionId capVal := by
  have covered : Covered (kernel.run .boot calls) :=
    System.invariant_run Covered
      (fun _ _ covered guard => covered.after guard.2.1 guard.2.2 guard.1) Covered.boot along
  exact covered.backed defined granted

/-- A session of a token that lives for twenty ticks is answered for its bits. -/
theorem backed_of_covered_sessions_reader :
    Backed (kernel.run .boot [.runProcess 1 100, .createChildToken (childOf 1 1 2 0x4 20),
      .runProcess 2 10, .kernelTick none]) 2 0x4 :=
  backed_of_covered_sessions _ (by decide) 2 0x4 (by decide) (by decide)

/-- A session still gets a positive answer after its token was reclaimed. -/
theorem answers_for_reclaimed_token :
    ¬ ∀ sessionId capVal,
      (kernel.run .boot [.runProcess 1 100, .createChildToken (childOf 1 1 2 0x4 0),
        .runProcess 2 10, .kernelTick none]).checkCapability sessionId capVal = true →
      Backed (kernel.run .boot [.runProcess 1 100, .createChildToken (childOf 1 1 2 0x4 0),
        .runProcess 2 10, .kernelTick none]) sessionId capVal := by
  intro sound
  obtain ⟨session, found, _, _, listed, _⟩ := sound 2 0x4 (by decide)
  have bound : session = { id := 2, token := 1, expiryTick := 10, isActive := true } :=
    Option.some.inj (found.symm.trans (by decide))
  subst bound
  exact absurd listed (by decide)

/-- A positive answer is given for a bit that no token can hold. -/
theorem answers_for_undefined_bit :
    (kernel.run .boot [.runProcess 1 100]).checkCapability 1 0x8000_0000 = true ∧
      ¬ Backed (kernel.run .boot [.runProcess 1 100]) 1 0x8000_0000 := by
  refine ⟨by decide, ?_⟩
  rintro ⟨session, _, _, _, _, _, held⟩
  rw [← Capability.defined, BitVec.and_assoc] at held
  have nothing : Capability.allBits &&& (0x8000_0000 : U32) = 0 := by decide
  rw [nothing] at held
  exact absurd (held.symm.trans BitVec.and_zero) (by decide)

end Lofita.Kernel
