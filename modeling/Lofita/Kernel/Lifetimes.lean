import Lofita.Kernel.Calls

/-! # Lifetimes

A token and a session expire at the tick count of their creation plus their lifetime, in 64
bits. Where the sum wraps, the end lies before the beginning: the lifetime is honoured, in
every run that does not give the id out again, exactly if the sum does not wrap
(`lifetimes_honoured_iff`).
-/

namespace Lofita.Kernel

open Lofita.Foundation Std

/-- The call does not give the token id to another token. -/
def KeepsTokenId (id : U64) (state : KernelState) : KernelCall → Prop
  | .createChildToken request => state.grants request = true → state.nextTokenId ≠ id
  | _ => True

/-- The call does not give the session id to another session. -/
def KeepsSessionId (id : U64) (state : KernelState) : KernelCall → Prop
  | .runProcess _ _ => state.nextSessionId ≠ id
  | _ => True

/-- The call does not set the tick count above a limit. -/
def TicksTo (limit : Nat) (state : KernelState) : KernelCall → Prop
  | .kernelTick _ => (state.tickCount + 1).toNat ≤ limit
  | _ => True

namespace KernelState

/-- After every tick up to the first that sets the tick count above the end of its lifetime,
the token created is in the table exactly if the tick has not set it above. -/
def HonoursToken (state : KernelState) (request : ChildRequest) : Prop :=
  let created := (state.createChildToken request).state
  let limit := state.tickCount.toNat + request.lifetimeTicks.toNat
  ∀ (earlier : List KernelCall) (frame : Option TrapFrame),
    kernel.Along (KeepsTokenId state.nextTokenId) created earlier →
    kernel.Along (TicksTo limit) created earlier →
    let ticked := kernel.run created (earlier ++ [.kernelTick frame])
    ticked.tokens[state.nextTokenId]? =
      if ticked.tickCount.toNat ≤ limit then some state.tokenCells.next else none

/-- After every run the session started is in the table, and unexpired exactly if the tick
count is not above the end of its lifetime. -/
def HonoursSession (state : KernelState) (tokenId sessionTicks : U64) : Prop :=
  let started := (state.runProcess tokenId sessionTicks).state
  ∀ calls : List KernelCall, kernel.Along (KeepsSessionId state.nextSessionId) started calls →
    let later := kernel.run started calls
    ∃ session, later.sessions[state.nextSessionId]? = some session ∧
      (¬ later.tickCount > session.expiryTick ↔
        later.tickCount.toNat ≤ state.tickCount.toNat + sessionTicks.toNat)

/-! ### Tokens -/

/-- No call changes the terms of a token that exists. -/
theorem charter_after (state : KernelState) {ref : Ref} (older : ref < state.tokenCells.next)
    (call : KernelCall) : ((state.after call).token ref).charter = (state.token ref).charter := by
  rcases state.after_cases call with
    same | ⟨request, rfl, _, next⟩ | ⟨_, sessionTicks, owner, rfl, _, _, next⟩ | ⟨frame, rfl⟩
  · exact same.charter ref
  · rw [next]
    exact state.charter_addChild_of_lt request older
  · rw [next]
    exact state.charter_startSession owner sessionTicks ref
  · exact state.charter_tick frame ref

/-- A token that exists, with the terms it was created on. -/
structure Holds (ref : Ref) (charter : Charter) (state : KernelState) : Prop where
  older : ref < state.tokenCells.next
  terms : (state.token ref).charter = charter

theorem Holds.after {ref : Ref} {charter : Charter} {state : KernelState}
    (holds : Holds ref charter state) (call : KernelCall) :
    Holds ref charter (state.after call) where
  older := holds.older.trans_le (state.next_le_after call)
  terms := (state.charter_after holds.older call).trans holds.terms

theorem Holds.run {ref : Ref} {charter : Charter} {state : KernelState}
    (holds : Holds ref charter state) (calls : List KernelCall) :
    Holds ref charter (kernel.run state calls) := by
  have along : kernel.Along (fun _ _ => True) state calls :=
    System.along_of_forall fun _ _ _ => trivial
  exact System.invariant_run (Holds ref charter) (fun _ call holds _ => holds.after call) holds
    along

variable {state : KernelState} {request : ChildRequest}

theorem state_createChildToken (granted : state.grants request = true) :
    (state.createChildToken request).state = state.addChild request :=
  congrArg Reply.state (if_pos granted)

theorem holds_createChildToken (granted : state.grants request = true) :
    Holds state.tokenCells.next (request.newToken state).charter
      (state.createChildToken request).state := by
  rw [state_createChildToken granted]
  constructor
  · rw [next_addChild]
    exact Nat.lt_succ_self _
  · exact state.charter_addChild_next request

/-- The token created is expired from the end of its lifetime on, as the sum wraps. -/
theorem Holds.isExpired {later : KernelState}
    (holds : Holds state.tokenCells.next (request.newToken state).charter later)
    (currentTick : U64) :
    (later.token state.tokenCells.next).isExpired currentTick =
      decide (currentTick > state.tickCount + request.lifetimeTicks) :=
  Token.isExpired_of_charter_eq holds.terms currentTick

/-- An entry stays in the token table if its id is not given out again and it does not
expire. -/
theorem tokens_after_of_keeps {id : U64} {ref : Ref} (found : state.tokens[id]? = some ref)
    {call : KernelCall} (keeps : KeepsTokenId id state call)
    (young : ∀ frame, call = .kernelTick frame →
      (state.token ref).isExpired (state.tickCount + 1) = false) :
    (state.after call).tokens[id]? = some ref := by
  rcases state.after_cases call with
    same | ⟨request, rfl, granted, next⟩ | ⟨_, _, _, rfl, _, _, next⟩ | ⟨frame, rfl⟩
  · rw [same.tokens]
    exact found
  · rw [next]
    change (state.tokens.insert state.nextTokenId state.tokenCells.next)[id]? = some ref
    rw [TreeMap.getElem?_insert, if_neg]
    · exact found
    · exact fun here => keeps granted (Std.compare_eq_iff_eq.mp here)
  · rw [next]
    exact found
  · exact (state.tokens_tick frame id ref).mpr ⟨found, young frame rfl⟩

/-- As long as no tick sets the tick count above the end of its lifetime, a token stays in the
table if the end does not wrap. -/
theorem listed_run (granted : state.grants request = true)
    (fits : state.tickCount.toNat + request.lifetimeTicks.toNat < 2 ^ 64)
    {calls : List KernelCall}
    (keeps : kernel.Along (KeepsTokenId state.nextTokenId) (state.createChildToken request).state
      calls)
    (within : kernel.Along (TicksTo (state.tickCount.toNat + request.lifetimeTicks.toNat))
      (state.createChildToken request).state calls) :
    (kernel.run (state.createChildToken request).state calls).tokens[state.nextTokenId]? =
      some state.tokenCells.next := by
  have start : (state.createChildToken request).state.tokens[state.nextTokenId]? =
      some state.tokenCells.next := by
    rw [state_createChildToken granted]
    exact TreeMap.getElem?_insert_self
  have run := System.invariant_run
    (fun later => Holds state.tokenCells.next (request.newToken state).charter later ∧
      later.tokens[state.nextTokenId]? = some state.tokenCells.next)
    (fun later call invariant meets => ?_) ⟨holds_createChildToken granted, start⟩
    (System.along_and.mpr ⟨keeps, within⟩)
  · exact run.2
  · refine ⟨invariant.1.after call, tokens_after_of_keeps invariant.2 meets.1 ?_⟩
    rintro frame rfl
    have before : (later.tickCount + 1).toNat ≤
        state.tickCount.toNat + request.lifetimeTicks.toNat := meets.2
    rw [invariant.1.isExpired, decide_eq_false_iff_not, gt_iff_lt, BitVec.lt_def,
      toNat_add_of_lt fits]
    exact Nat.not_lt_of_le before

/-- The tick that follows a run leaves the token in the table if the wrapped end of its
lifetime is not passed. -/
theorem tokens_tick_run (granted : state.grants request = true) {earlier : List KernelCall}
    (listed : (kernel.run (state.createChildToken request).state earlier).tokens[
      state.nextTokenId]? = some state.tokenCells.next) (frame : Option TrapFrame) :
    (kernel.run (state.createChildToken request).state (earlier ++ [.kernelTick frame])).tokens[
        state.nextTokenId]? =
      if (kernel.run (state.createChildToken request).state
          (earlier ++ [.kernelTick frame])).tickCount ≤ state.tickCount + request.lifetimeTicks then
        some state.tokenCells.next
      else none := by
  have holds := (holds_createChildToken granted).run earlier
  rw [System.run_append, System.run_cons, System.run_nil]
  change ((kernel.run _ earlier).tick frame).state.tokens[_]? =
    if ((kernel.run _ earlier).tick frame).state.tickCount ≤ _ then _ else _
  rw [tickCount_tick]
  have young : ((kernel.run (state.createChildToken request).state earlier).token
      state.tokenCells.next).isExpired _ = _ := holds.isExpired
    ((kernel.run (state.createChildToken request).state earlier).tickCount + 1)
  split_ifs with before
  · refine (tokens_tick _ frame _ _).mpr ⟨listed, ?_⟩
    rw [young]
    exact decide_eq_false (BitVec.not_lt.mpr before)
  · refine Option.eq_none_iff_forall_ne_some.mpr fun ref found => ?_
    obtain ⟨isRef, notExpired⟩ := (tokens_tick _ frame _ _).mp found
    cases listed.symm.trans isRef
    rw [young] at notExpired
    exact before (BitVec.not_lt.mp (of_decide_eq_false notExpired))

theorem tickCount_ticks (state : KernelState) (count : Nat) :
    (kernel.run state (List.replicate count (.kernelTick none))).tickCount =
      state.tickCount + BitVec.ofNat 64 count := by
  induction count generalizing state with
  | zero => exact (BitVec.add_zero _).symm
  | succ count ih =>
      rw [List.replicate_succ, System.run_cons, ih]
      change (state.tick none).state.tickCount + _ = _
      rw [tickCount_tick, BitVec.ofNat_add, BitVec.add_assoc, BitVec.add_comm 1]
      rfl

/-- The lifetime of a token is honoured in all runs if and only if its end does not wrap. -/
theorem honoursToken_iff (granted : state.grants request = true) :
    state.HonoursToken request ↔
      state.tickCount.toNat + request.lifetimeTicks.toNat < 2 ^ 64 := by
  constructor
  · intro honoured
    by_contra wraps
    have inTime (tick : U64) : tick.toNat ≤ state.tickCount.toNat + request.lifetimeTicks.toNat :=
      tick.isLt.le.trans (Nat.le_of_not_lt wraps)
    -- The token stays for any number of ticks, also when the tick count is the largest.
    have stays (count : Nat) : (kernel.run (state.createChildToken request).state
        (List.replicate count (.kernelTick none) ++ [.kernelTick none])).tokens[
          state.nextTokenId]? = some state.tokenCells.next := by
      refine (honoured (List.replicate count (.kernelTick none)) none ?_ ?_).trans
        (if_pos (inTime _))
      · refine System.along_of_forall fun call member _ => ?_
        rw [List.eq_of_mem_replicate member]
        trivial
      · refine System.along_of_forall fun call member _ => ?_
        rw [List.eq_of_mem_replicate member]
        exact inTime _
    obtain ⟨count, largest⟩ : ∃ count, state.tickCount.toNat + (count + 2) = 2 ^ 65 - 1 := by
      have := state.tickCount.isLt
      exact ⟨2 ^ 65 - 3 - state.tickCount.toNat, by omega⟩
    have listed := stays count
    rw [← List.replicate_succ'] at listed
    have last := (tokens_tick_run granted listed none).symm.trans (stays (count + 1))
    split_ifs at last with notPassed
    have created : (state.createChildToken request).state.tickCount = state.tickCount := by
      rw [state_createChildToken granted]
      rfl
    rw [← List.replicate_succ', tickCount_ticks, created, BitVec.le_def, BitVec.toNat_add,
      BitVec.toNat_ofNat, BitVec.toNat_add] at notPassed
    have := request.lifetimeTicks.isLt
    have := state.tickCount.isLt
    omega
  · intro fits earlier frame keeps within
    refine (tokens_tick_run granted (listed_run granted fits keeps within) frame).trans ?_
    simp only [BitVec.le_def, toNat_add_of_lt fits]

/-! ### Sessions -/

theorem expiry_dispatch {id expiry : U64}
    (bound : state.sessions[id]?.map Session.expiryTick = some expiry) (ref : Ref)
    (frame : Option TrapFrame) :
    (state.dispatch ref frame).state.sessions[id]?.map Session.expiryTick = some expiry := by
  simp only [dispatch]
  split
  · exact bound
  next active found =>
    simp only [Session.activate, TreeMap.getElem?_insert, Std.compare_eq_iff_eq]
    split_ifs with same
    · rw [← same, found] at bound
      exact bound
    · exact bound

/-- A session keeps its expiry if its id is not given out again. -/
theorem expiry_after {id expiry : U64}
    (bound : state.sessions[id]?.map Session.expiryTick = some expiry) {call : KernelCall}
    (keeps : KeepsSessionId id state call) :
    (state.after call).sessions[id]?.map Session.expiryTick = some expiry := by
  rcases state.after_cases call with
    same | ⟨request, rfl, _, next⟩ | ⟨_, sessionTicks, ref, rfl, _, _, next⟩ | ⟨frame, rfl⟩
  · rw [same.sessions]
    exact bound
  · rw [next]
    exact bound
  · rw [next]
    change (state.sessions.insert state.nextSessionId _)[id]?.map _ = some expiry
    rw [TreeMap.getElem?_insert, if_neg]
    · exact bound
    · exact fun here => keeps (Std.compare_eq_iff_eq.mp here)
  · change (state.tick frame).state.sessions[id]?.map _ = some expiry
    rw [← sessions_reclaimed state] at bound
    simp only [tick]
    cases state.reclaimed.1.scheduler.scheduleNext.1 with
    | none => exact bound
    | some ref =>
        refine expiry_dispatch ?_ ref frame
        exact bound

/-- The lifetime of a session is honoured in all runs if and only if its end does not wrap. -/
theorem honoursSession_iff {tokenId : U64} {ref : Ref} (found : state.tokens[tokenId]? = some ref)
    (spare : (state.token ref).runCount < 2) (sessionTicks : U64) :
    state.HonoursSession tokenId sessionTicks ↔
      state.tickCount.toNat + sessionTicks.toNat < 2 ^ 64 := by
  have started : (state.runProcess tokenId sessionTicks).state =
      state.startSession ref sessionTicks := by
    unfold runProcess
    rw [found]
    exact congrArg Reply.state (if_neg (BitVec.not_le.mpr spare))
  have start : (state.startSession ref sessionTicks).sessions[state.nextSessionId]? =
      some (state.newSession ref sessionTicks) := TreeMap.getElem?_insert_self
  unfold HonoursSession
  rw [started]
  constructor
  · intro honoured
    obtain ⟨session, isSession, unexpired⟩ := honoured [] trivial
    cases start.symm.trans isSession
    have inTime := unexpired.mpr (Nat.le_add_right _ _)
    change ¬ state.tickCount > state.tickCount + sessionTicks at inTime
    rw [gt_iff_lt, BitVec.lt_def, BitVec.toNat_add] at inTime
    have := state.tickCount.isLt
    have := sessionTicks.isLt
    omega
  · intro fits
    refine fun calls keeps => ?_
    have bound := System.invariant_run
      (fun later : KernelState => later.sessions[state.nextSessionId]?.map Session.expiryTick =
        some (state.tickCount + sessionTicks))
      (fun _ _ bound keeps => expiry_after bound keeps)
      (congrArg (Option.map Session.expiryTick) start) keeps
    obtain ⟨session, isSession, expiry⟩ := Option.map_eq_some_iff.mp bound
    refine ⟨session, isSession, ?_⟩
    rw [expiry, gt_iff_lt, BitVec.lt_def, toNat_add_of_lt fits]
    exact Nat.not_lt

end KernelState

/-- **When lifetimes are honoured.** A token created and a session started live to the end of
their lifetimes, and not longer, in all runs if and only if the tick count of the creation
plus the lifetime is below `2 ^ 64`. -/
theorem lifetimes_honoured_iff {state : KernelState} {request : ChildRequest}
    (granted : state.grants request = true) {tokenId : U64} {ref : Ref}
    (found : state.tokens[tokenId]? = some ref) (spare : (state.token ref).runCount < 2)
    (sessionTicks : U64) :
    (state.HonoursToken request ↔
        state.tickCount.toNat + request.lifetimeTicks.toNat < 2 ^ 64) ∧
      (state.HonoursSession tokenId sessionTicks ↔
        state.tickCount.toNat + sessionTicks.toNat < 2 ^ 64) :=
  ⟨KernelState.honoursToken_iff granted, KernelState.honoursSession_iff found spare sessionTicks⟩

/-- A child of the root token with a lifetime of 50 ticks, and a session of 100. -/
theorem lifetimes_honoured_iff_root :
    (kernel.run .boot [.runProcess 1 100]).HonoursToken (childOf 1 1 3 0 50) ∧
      (kernel.run .boot [.runProcess 1 100]).HonoursSession 1 100 := by
  have granted : (kernel.run .boot [.runProcess 1 100]).grants (childOf 1 1 3 0 50) = true := by
    decide
  have found : (kernel.run .boot [.runProcess 1 100]).tokens[(1 : U64)]? = some 0 := by decide
  have spare : ((kernel.run .boot [.runProcess 1 100]).token 0).runCount < 2 := by decide
  have both := lifetimes_honoured_iff granted found spare 100
  exact ⟨both.1.mpr (by decide), both.2.mpr (by decide)⟩

/-- The longest lifetime ends with the next tick, once the tick count is not 0. -/
theorem not_honoursToken_longest :
    ¬ (kernel.run .boot [.runProcess 1 100, .kernelTick none]).HonoursToken
      (childOf 1 1 3 0 U64.max) := by
  intro honoured
  have stays := honoured [] none trivial trivial
  revert stays
  decide

end Lofita.Kernel
