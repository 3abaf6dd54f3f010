import Lofita.Kernel.Registry
import Lofita.Kernel.Termination

/-! # The run limit

Process starts over runs of token creations, process starts and ticks. A journal keeps the
sessions that have been started, also those of tokens that have expired since. The run count
of a token is the number of its sessions in the journal (`Counted`), and session ids only
grow, so that no token is bound to a third session and no session replaces another one
(`run_limit_and_fresh_sessions`).
-/

namespace Lofita.Kernel

open Lofita.Foundation Std

/-- The calls that create tokens, start processes and tick. -/
def KernelCall.startsOrTicks : KernelCall → Prop
  | .createChildToken _ | .runProcess _ _ | .kernelTick _ => True
  | _ => False

instance decidableStartsOrTicks : ∀ call : KernelCall, Decidable call.startsOrTicks
  | .createChildToken _ | .runProcess _ _ | .kernelTick _ => .isTrue trivial
  | .ipcSend _ _ _ | .ipcRecv _ _ | .memAlloc _ _ _ _ | .allocateMemory _ _ _ _ _
  | .handlePageFault _ _ _ | .cleanup _ => .isFalse id

/-- The kernel, and the sessions that process starts have created, in order. -/
structure Journal where
  state : KernelState
  started : List Session

namespace Journal

/-- The session behind the id that a successful `rust_run_process` returns. -/
def newSessions (state : KernelState) : KernelCall → List Session
  | .runProcess tokenId sessionTicks =>
      let reply := state.runProcess tokenId sessionTicks
      if reply.value = 0 then [] else reply.state.sessions[reply.value]?.toList
  | _ => []

/-- The journal after a call. -/
def after (journal : Journal) (call : KernelCall) : Journal where
  state := journal.state.after call
  started := journal.started ++ newSessions journal.state call

/-- Nothing has been started when the kernel boots. -/
def boot : Journal := { state := .boot, started := [] }

/-- How many sessions a token has been bound to. -/
def sessionsOf (journal : Journal) (ref : Ref) : Nat :=
  journal.started.countP fun session => session.token = ref

end Journal

/-- The kernel with its journal. -/
def journalled : System Journal KernelCall := ⟨Journal.after⟩

/-- A process start enters one session under an id that was not in the table and puts one
ready thread for it at the back of the queue. -/
structure Starts (before after : KernelState) (sessionId : U64) : Prop where
  fresh : before.sessions[sessionId]? = none
  session : ∃ session : Session, session.id = sessionId ∧
    ∀ id, after.sessions[id]? = if id = sessionId then some session else before.sessions[id]?
  thread : ∃ ref, ref ∉ before.scheduler.threads ∧
    after.scheduler.threads = before.scheduler.threads ++ [ref] ∧
    (after.thread ref).state = .ready ∧ (after.thread ref).sessionId = sessionId
  others : ∀ other ∈ before.scheduler.threads,
    after.thread other = before.thread other ∧ (after.thread other).sessionId ≠ sessionId

/-- A call that fails leaves the state as it is, and a process start that succeeds starts a
process. -/
def Answers (journal : Journal) : KernelCall → Prop
  | .createChildToken request =>
      (journal.state.createChildToken request).value = 0 →
        (journal.state.createChildToken request).state = journal.state
  | .runProcess tokenId sessionTicks =>
      let reply := journal.state.runProcess tokenId sessionTicks
      (reply.value = 0 → reply.state = journal.state) ∧
        (reply.value ≠ 0 → Starts journal.state reply.state reply.value)
  | _ => True

/-- A new session is added under the next number. -/
theorem KernelState.sessions_startSession (state : KernelState) (token : Ref)
    (sessionTicks id : U64) :
    (state.startSession token sessionTicks).sessions[id]? =
      if id = state.nextSessionId then some (state.newSession token sessionTicks)
      else state.sessions[id]? := by
  change (state.sessions.insert state.nextSessionId _)[id]? = _
  rw [TreeMap.getElem?_insert]
  simp only [Std.compare_eq_iff_eq, @eq_comm _ state.nextSessionId id]

/-- It is counted with its token. -/
theorem KernelState.runCount_startSession (state : KernelState) (token : Ref) (sessionTicks : U64)
    (ref : Ref) :
    ((state.startSession token sessionTicks).token ref).runCount =
      if ref = token then (state.token ref).runCount + 1 else (state.token ref).runCount := by
  unfold startSession KernelState.token
  split_ifs with same
  · rw [same, Arena.read_modify_self]
  · rw [Arena.read_modify_of_ne _ same]

/-! ### The counters -/

/-- The counters hold ids, and the session counter counts on. -/
def CountersOn (state : KernelState) : Prop :=
  state.nextTokenId ≠ 0 ∧ state.nextSessionId ≠ 0 ∧ state.nextSessionId ≠ U64.max

/-- A call moves each counter on by at most one. -/
theorem counters_after (state : KernelState) (call : KernelCall) :
    ∃ tokens sessions : Nat, tokens ≤ 1 ∧ sessions ≤ 1 ∧
      (state.after call).nextTokenId = state.nextTokenId + BitVec.ofNat 64 tokens ∧
      (state.after call).nextSessionId = state.nextSessionId + BitVec.ofNat 64 sessions := by
  have still (id : U64) : id = id + BitVec.ofNat 64 0 := (BitVec.add_zero id).symm
  rcases state.after_cases call with
    same | ⟨request, rfl, _, next⟩ | ⟨_, _, _, rfl, _, _, next⟩ | ⟨frame, rfl⟩
  · exact ⟨0, 0, Nat.zero_le 1, Nat.zero_le 1, same.nextTokenId.trans (still _),
      same.nextSessionId.trans (still _)⟩
  · exact ⟨1, 0, Nat.le_refl 1, Nat.zero_le 1, next ▸ rfl, next ▸ still _⟩
  · exact ⟨0, 1, Nat.zero_le 1, Nat.le_refl 1, next ▸ still _, next ▸ rfl⟩
  · exact ⟨0, 0, Nat.zero_le 1, Nat.zero_le 1, (state.nextTokenId_tick frame).trans (still _),
      (state.nextSessionId_tick frame).trans (still _)⟩

/-- In a short run no counter wraps before the last call. -/
theorem along_countersOn {journal : Journal} {calls : List KernelCall} {tokens sessions : Nat}
    (tokenIds : journal.state.nextTokenId = BitVec.ofNat 64 tokens)
    (sessionIds : journal.state.nextSessionId = BitVec.ofNat 64 sessions)
    (first : 1 ≤ tokens ∧ 1 ≤ sessions)
    (room : tokens + calls.length ≤ 2 ^ 64 ∧ sessions + calls.length < 2 ^ 64) :
    journalled.Along (fun journal _ => CountersOn journal.state) journal calls := by
  induction calls generalizing journal tokens sessions with
  | nil => trivial
  | cons call rest ih =>
      obtain ⟨tokenRoom, sessionRoom⟩ := room
      rw [List.length_cons] at tokenRoom sessionRoom
      obtain ⟨moreTokens, moreSessions, oneToken, oneSession, tokenIds', sessionIds'⟩ :=
        counters_after journal.state call
      rw [tokenIds, ← BitVec.ofNat_add] at tokenIds'
      rw [sessionIds, ← BitVec.ofNat_add] at sessionIds'
      refine ⟨⟨?_, ?_, ?_⟩, ih tokenIds' sessionIds' (by omega) (by omega)⟩
      · rw [tokenIds]
        bv_omega
      · rw [sessionIds]
        bv_omega
      · rw [sessionIds, U64.max]
        bv_omega

/-! ### The journal and the run counts -/

/-- The run count of a token is the number of its sessions, at most two, and the ids of
sessions are below the counter, in the table and in the thread queue. -/
structure Counted (journal : Journal) : Prop where
  registered : Registered journal.state
  runs : ∀ ref < journal.state.tokenCells.next,
    (journal.state.token ref).runCount.toNat = journal.sessionsOf ref ∧
      journal.sessionsOf ref ≤ 2
  known : ∀ session ∈ journal.started, session.token < journal.state.tokenCells.next
  older : ∀ {id : U64} {session : Session}, journal.state.sessions[id]? = some session →
    id.toNat < journal.state.nextSessionId.toNat
  allocated : journal.state.scheduler.Allocated
  queued : ∀ ref ∈ journal.state.scheduler.threads,
    (journal.state.thread ref).sessionId.toNat < journal.state.nextSessionId.toNat

namespace Counted

variable {journal : Journal}

/-- At boot nothing has been run. -/
theorem boot : Counted .boot where
  registered := .boot
  runs := by
    intro ref below
    obtain rfl : ref = 0 := Nat.lt_one_iff.mp below
    exact ⟨rfl, Nat.zero_le 2⟩
  known := List.forall_mem_nil _
  older := by
    intro id session found
    exact absurd found (by simp [Journal.boot, KernelState.boot, KernelState.init,
      KernelState.new])
  allocated := by
    rintro ref (queued | active)
    · exact absurd queued List.not_mem_nil
    · cases active
  queued := List.forall_mem_nil _

/-- A call without effect starts nothing. -/
theorem unchanged (counted : Counted journal) {call : KernelCall}
    (same : journal.state.after call = journal.state)
    (none : Journal.newSessions journal.state call = []) : Counted (journal.after call) := by
  have still : journal.after call = journal := by
    rw [Journal.after, same, none, List.append_nil]
  rwa [still]

/-- A token without sessions. -/
theorem sessionsOf_eq_zero (counted : Counted journal) {ref : Ref}
    (new : journal.state.tokenCells.next ≤ ref) : journal.sessionsOf ref = 0 := by
  rw [Journal.sessionsOf, List.countP_eq_zero]
  intro session member
  have bound := counted.known session member
  exact fun same => absurd (of_decide_eq_true same) (Nat.ne_of_lt (Nat.lt_of_lt_of_le bound new))

/-- A new token has not been run. -/
theorem createChildToken (counted : Counted journal) (request : ChildRequest) :
    Counted (journal.after (.createChildToken request)) := by
  rcases journal.state.createChildToken_cases request with ⟨_, same⟩ | ⟨_, next⟩
  · exact counted.unchanged same rfl
  · have after : journal.after (.createChildToken request) =
        { state := journal.state.addChild request, started := journal.started } := by
      have none : Journal.newSessions journal.state (.createChildToken request) = [] := rfl
      rw [Journal.after, KernelState.after, next, none, List.append_nil]
    rw [after]
    refine ⟨counted.registered.addChild request, ?_, ?_, counted.older, counted.allocated,
      counted.queued⟩
    · intro ref below
      rw [KernelState.next_addChild] at below
      rw [KernelState.token_addChild_of_eq Token.runCount fun _ _ => rfl]
      rcases Nat.lt_succ_iff_lt_or_eq.mp below with old | rfl
      · rw [Arena.read_alloc_of_lt _ old]
        exact counted.runs ref old
      · rw [Arena.read_alloc_next]
        have none := counted.sessionsOf_eq_zero (Nat.le_refl journal.state.tokenCells.next)
        exact ⟨none.symm, none.trans_le (Nat.zero_le 2)⟩
    · intro session member
      rw [KernelState.next_addChild]
      exact Nat.lt_succ_of_lt (counted.known session member)

/-- A tick starts no session. -/
theorem tick (counted : Counted journal) (frame : Option TrapFrame) :
    Counted (journal.after (.kernelTick frame)) := by
  have after : journal.after (.kernelTick frame) =
      { state := (journal.state.tick frame).state, started := journal.started } := by
    have none : Journal.newSessions journal.state (.kernelTick frame) = [] := rfl
    rw [Journal.after, KernelState.after, none, List.append_nil]
  rw [after]
  refine ⟨counted.registered.tick frame, ?_, ?_, ?_, ?_, ?_⟩
  · intro ref below
    rw [KernelState.next_tick] at below
    have same : ((journal.state.tick frame).state.token ref).runCount =
        (journal.state.token ref).runCount :=
      (KernelState.tick_of_eq (fun state => (state.token ref).runCount) (fun _ _ => rfl)
        (fun _ _ => rfl) journal.state frame).trans
        (KernelState.token_reclaimed_of_eq Token.runCount (fun _ => rfl) journal.state ref)
    rw [same]
    exact counted.runs ref below
  · intro session member
    rw [KernelState.next_tick]
    exact counted.known session member
  · intro id session found
    obtain ⟨old, before, _, _⟩ := KernelState.session_tick found
    rw [KernelState.nextSessionId_tick]
    exact counted.older before
  · rw [KernelState.scheduler_tick]
    exact counted.allocated.scheduleNext
  · intro ref queued
    rw [KernelState.scheduler_tick, Scheduler.mem_threads_scheduleNext] at queued
    rw [KernelState.thread_tick, KernelState.nextSessionId_tick]
    exact counted.queued ref queued

/-- The next number belongs to no session. -/
theorem fresh (counted : Counted journal) :
    journal.state.sessions[journal.state.nextSessionId]? = none := by
  cases found : journal.state.sessions[journal.state.nextSessionId]? with
  | none => rfl
  | some session => exact absurd (counted.older found) (Nat.lt_irrefl _)

/-- Starting a session starts that one. -/
theorem starts (counted : Counted journal) (token : Ref) (sessionTicks : U64) :
    Starts journal.state (journal.state.startSession token sessionTicks)
      journal.state.nextSessionId where
  fresh := counted.fresh
  session := ⟨journal.state.newSession token sessionTicks, rfl,
    journal.state.sessions_startSession token sessionTicks⟩
  thread := by
    refine ⟨journal.state.scheduler.cells.next, ?_, rfl, ?_, ?_⟩
    · exact fun queued => absurd (counted.allocated _ (.inl queued)) (Nat.lt_irrefl _)
    · exact congrArg Thread.state (Arena.read_alloc_next _ _)
    · exact congrArg Thread.sessionId (Arena.read_alloc_next _ _)
  others := by
    intro other queued
    have same : (journal.state.startSession token sessionTicks).thread other =
        journal.state.thread other :=
      Arena.read_alloc_of_lt _ (counted.allocated other (.inl queued)) _
    refine ⟨same, fun equal => ?_⟩
    have below := counted.queued other queued
    rw [← same, equal] at below
    exact Nat.lt_irrefl _ below

/-- Starting a session for a token that has been run less than twice. -/
theorem startSession (counted : Counted journal) {tokenId : U64} {token : Ref}
    (found : journal.state.tokens[tokenId]? = some token)
    (spare : (journal.state.token token).runCount < 2) (sessionTicks : U64)
    (counts : journal.state.nextSessionId ≠ U64.max) :
    Counted
      { state := journal.state.startSession token sessionTicks
        started := journal.started ++ [journal.state.newSession token sessionTicks] } := by
  have exists_token := (counted.registered.table found).1
  have next : (journal.state.startSession token sessionTicks).nextSessionId.toNat =
      journal.state.nextSessionId.toNat + 1 := toNat_add_one counts
  refine ⟨counted.registered.startSession found sessionTicks, ?_, ?_, ?_,
    counted.allocated.spawn _ _ _, ?_⟩
  · intro ref below
    obtain ⟨same, limit⟩ := counted.runs ref below
    have grown : (journal.started ++ [journal.state.newSession token sessionTicks]).countP
          (fun session => session.token = ref) =
        journal.sessionsOf ref + if token = ref then 1 else 0 := by
      rw [List.countP_append, List.countP_singleton, Journal.sessionsOf]
      change _ + (if decide (token = ref) = true then 1 else 0) = _
      by_cases here : token = ref
      · rw [if_pos here, if_pos (decide_eq_true here)]
      · rw [if_neg here, if_neg fun same => here (of_decide_eq_true same)]
    simp only [Journal.sessionsOf] at same limit grown ⊢
    rw [KernelState.runCount_startSession, grown]
    by_cases here : ref = token
    · subst here
      rw [if_pos rfl, if_pos rfl, ← same]
      bv_omega
    · rw [if_neg here, if_neg (Ne.symm here)]
      exact ⟨same, limit⟩
  · intro session member
    rcases List.mem_append.mp member with old | new
    · exact counted.known session old
    · rw [List.mem_singleton.mp new]
      exact exists_token
  · intro id session here
    rw [next]
    rw [KernelState.sessions_startSession] at here
    split_ifs at here with new
    · rw [new]
      exact Nat.lt_succ_self _
    · exact Nat.lt_succ_of_lt (counted.older here)
  · intro ref queued
    rw [next]
    rcases List.mem_append.mp queued with old | new
    · rw [((counted.starts token sessionTicks).others ref old).1]
      exact Nat.lt_succ_of_lt (counted.queued ref old)
    · obtain ⟨last, away, queue, _, session⟩ := (counted.starts token sessionTicks).thread
      have same : ref = last := by
        have both := List.append_cancel_left queue
        exact (List.mem_singleton.mp new).trans (List.singleton_inj.mp both)
      rw [same, session]
      exact Nat.lt_succ_self _

/-- Running a program is counted. -/
theorem runProcess (counted : Counted journal) (counters : CountersOn journal.state)
    (tokenId sessionTicks : U64) : Counted (journal.after (.runProcess tokenId sessionTicks)) := by
  rcases journal.state.runProcess_eq tokenId sessionTicks with
    failed | ⟨token, found, spare, started⟩
  · refine counted.unchanged (congrArg Reply.state failed) ?_
    rw [Journal.newSessions, failed]
    exact if_pos rfl
  · have after : journal.after (.runProcess tokenId sessionTicks) =
        { state := journal.state.startSession token sessionTicks
          started := journal.started ++ [journal.state.newSession token sessionTicks] } := by
      rw [Journal.after, KernelState.after, Journal.newSessions, started]
      simp only [counters.2.1, ↓reduceIte, KernelState.sessions_startSession, Option.toList_some]
    rw [after]
    exact counted.startSession found spare sessionTicks counters.2.2

/-- Every call keeps the count. -/
theorem after (counted : Counted journal) {call : KernelCall} (only : call.startsOrTicks)
    (counters : CountersOn journal.state) : Counted (journal.after call) := by
  cases call with
  | createChildToken request => exact counted.createChildToken request
  | runProcess tokenId sessionTicks => exact counted.runProcess counters tokenId sessionTicks
  | kernelTick frame => exact counted.tick frame
  | ipcSend _ _ _ => exact only.elim
  | ipcRecv _ _ => exact only.elim
  | memAlloc _ _ _ _ => exact only.elim
  | allocateMemory _ _ _ _ _ => exact only.elim
  | handlePageFault _ _ _ => exact only.elim
  | cleanup _ => exact only.elim

/-- Every call answers as the count says. -/
theorem answers (counted : Counted journal) (counters : CountersOn journal.state)
    (call : KernelCall) : Answers journal call := by
  cases call with
  | createChildToken request =>
      intro failed
      unfold KernelState.createChildToken at failed ⊢
      split_ifs at failed ⊢ with granted
      · exact absurd failed counters.1
      · rfl
  | runProcess tokenId sessionTicks =>
      change (_ → _) ∧ (_ → _)
      rcases journal.state.runProcess_eq tokenId sessionTicks with
        failed | ⟨token, _, _, started⟩
      · rw [failed]
        exact ⟨fun _ => rfl, fun success => absurd rfl success⟩
      · rw [started]
        exact ⟨fun failed => absurd failed counters.2.1,
          fun _ => counted.starts token sessionTicks⟩
  | kernelTick _ => trivial
  | ipcSend _ _ _ => trivial
  | ipcRecv _ _ => trivial
  | memAlloc _ _ _ _ => trivial
  | allocateMemory _ _ _ _ _ => trivial
  | handlePageFault _ _ _ => trivial
  | cleanup _ => trivial

end Counted

/-! ### Runs -/

/-- **The run limit.** In every run of token creations, process starts and ticks from boot
with fewer than `2 ^ 64 - 1` calls no token is ever bound to more than two sessions; every
process start that succeeds returns the id of a session that was not in the table, and adds
that session and one ready thread for it; and every call that fails leaves the state as it
was. -/
theorem run_limit_and_fresh_sessions {calls : List KernelCall}
    (only : ∀ call ∈ calls, call.startsOrTicks) (few : calls.length < 2 ^ 64 - 1) :
    journalled.Always (fun journal => ∀ ref, journal.sessionsOf ref ≤ 2) .boot calls ∧
      journalled.Along Answers .boot calls := by
  have counters : journalled.Along (fun journal _ => CountersOn journal.state) .boot calls := by
    refine @along_countersOn .boot calls 2 1 rfl rfl ⟨Nat.le_succ 1, Nat.le_refl 1⟩ ?_
    omega
  have along : journalled.Along
      (fun journal call => CountersOn journal.state ∧ call.startsOrTicks) .boot calls :=
    System.along_and.mpr ⟨counters, System.along_of_forall fun call member _ => only call member⟩
  constructor
  · refine System.always_of_invariant Counted
      (fun journal call counted guard => counted.after guard.2 guard.1) ?_ .boot along
    intro journal counted ref
    by_cases below : ref < journal.state.tokenCells.next
    · exact (counted.runs ref below).2
    · rw [counted.sessionsOf_eq_zero (Nat.le_of_not_lt below)]
      exact Nat.zero_le 2
  · exact System.along_of_invariant
      (fun journal call (counted : Counted journal) guard => counted.after guard.2 guard.1)
      (fun journal call counted guard => counted.answers guard.1 call) .boot along

/-- The root token is run twice; a third start fails. -/
theorem run_limit_and_fresh_sessions_root :
    journalled.Always (fun journal => ∀ ref, journal.sessionsOf ref ≤ 2) .boot
      [.runProcess 1 10, .kernelTick none, .runProcess 1 10, .runProcess 1 10] :=
  (run_limit_and_fresh_sessions (by decide) (by decide)).1

end Lofita.Kernel
