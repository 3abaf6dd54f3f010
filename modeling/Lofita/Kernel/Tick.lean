import Lofita.Kernel.State

/-! # The timer tick

`rust_kernel_tick` advances the tick count, reclaims the expired tokens and
dispatches the next ready thread: it activates the thread's session and loads
five registers of the thread's context into the trap frame the interrupt returns
through.
-/

namespace Lofita.Kernel

open Lofita.Foundation Std

/-- The registers on the interrupt stack. -/
structure TrapFrame where
  r15 : U64
  r14 : U64
  r13 : U64
  r12 : U64
  r11 : U64
  r10 : U64
  r9 : U64
  r8 : U64
  rbp : U64
  rdi : U64
  rsi : U64
  rdx : U64
  rcx : U64
  rbx : U64
  rax : U64
  errorCode : U64
  rip : U64
  cs : U64
  rflags : U64
  rsp : U64
  ss : U64
deriving DecidableEq, Repr

/-- Load the registers of a context that the interrupt return restores. -/
def TrapFrame.load (frame : TrapFrame) (context : RegistersContext) : TrapFrame :=
  { frame with
    rip := context.rip
    rsp := context.rsp
    cs := context.cs
    ss := context.ss
    rflags := context.rflags }

/-- What a tick dispatches: the thread, the session it activates, and the frame
left for the return from the interrupt. -/
structure Dispatch where
  thread : Option Ref
  activated : Option U64
  frame : Option TrapFrame

namespace KernelState

/-- The ids of the tokens that are expired at a tick. -/
def expired (state : KernelState) (currentTick : U64) : List U64 :=
  (state.tokens.toList.filter fun (_, ref) => (state.token ref).isExpired currentTick).map Prod.fst

/-- The calls that release the regions of a reclaimed token. -/
def reclaimCalls (token : Token) : List FfiCall :=
  token.vmas.toList.flatMap fun (_, vma) =>
    let pages := vma.size / 4096
    (List.range pages.toNat).map (fun i =>
      .pageTableUnmap (vma.startAddr + BitVec.ofNat 64 i * 4096)) ++ [.physFree vma.physPtr pages]

/-- Remove a token from the table and release its regions. -/
def reclaim (state : KernelState) (tokenId : U64) : KernelState × List FfiCall :=
  match state.tokens[tokenId]? with
  | none => (state, [])
  | some ref =>
      ({ state with
          tokens := state.tokens.erase tokenId
          tokenCells := state.tokenCells.modify ref fun token => { token with vmas := ∅ } },
        reclaimCalls (state.token ref))

/-- Reclaim a list of tokens, one after the other. -/
def reclaimAll : KernelState → List U64 → KernelState × List FfiCall
  | state, [] => (state, [])
  | state, tokenId :: rest =>
      let (next, calls) := state.reclaim tokenId
      let (last, later) := reclaimAll next rest
      (last, calls ++ later)

/-- Hand the processor to a scheduled thread. -/
def dispatch (state : KernelState) (ref : Ref) (frame : Option TrapFrame) : Reply Dispatch :=
  let thread := state.thread ref
  let loaded := frame.map fun frame => frame.load thread.context
  match state.sessions[thread.sessionId]? with
  | none => { value := ⟨some ref, none, loaded⟩, state }
  | some session =>
      let (session, calls) := session.activate (state.token session.token)
      { value := ⟨some ref, some thread.sessionId, loaded⟩
        state := { state with sessions := state.sessions.insert thread.sessionId session }
        ffi := calls }

/-- The state of a tick once the expired tokens are reclaimed. -/
def reclaimed (state : KernelState) : KernelState × List FfiCall :=
  let counted := { state with tickCount := state.tickCount + 1 }
  counted.reclaimAll (counted.expired counted.tickCount)

/-- `rust_kernel_tick`; a null frame pointer is `none`. -/
def tick (state : KernelState) (frame : Option TrapFrame) : Reply Dispatch :=
  let (state, calls) := state.reclaimed
  let (next, scheduler) := state.scheduler.scheduleNext
  let state := { state with scheduler }
  match next with
  | none => { value := ⟨none, none, frame⟩, state, ffi := calls }
  | some ref =>
      let reply := state.dispatch ref frame
      { reply with ffi := calls ++ reply.ffi }

/-! ### What a tick does -/

/-- What reclaiming one token leaves alone, reclaiming a list leaves alone. -/
theorem reclaimAll_of_eq {β : Type*} (view : KernelState → β)
    (keeps : ∀ state tokenId, view (state.reclaim tokenId).1 = view state) (state : KernelState)
    (ids : List U64) : view (state.reclaimAll ids).1 = view state := by
  induction ids generalizing state with
  | nil => rfl
  | cons tokenId rest ih =>
      change view ((state.reclaim tokenId).1.reclaimAll rest).1 = view state
      rw [ih, keeps]

theorem tokens_reclaim (state : KernelState) (tokenId id : U64) :
    (state.reclaim tokenId).1.tokens[id]? = if tokenId = id then none else state.tokens[id]? := by
  unfold reclaim
  cases found : state.tokens[tokenId]? with
  | none =>
      split_ifs with same
      · exact same ▸ found
      · rfl
  | some ref =>
      change (state.tokens.erase tokenId)[id]? = _
      rw [TreeMap.getElem?_erase]
      simp only [Std.compare_eq_iff_eq]

theorem tokens_reclaimAll (state : KernelState) (ids : List U64) (id : U64) :
    (state.reclaimAll ids).1.tokens[id]? = if id ∈ ids then none else state.tokens[id]? := by
  induction ids generalizing state with
  | nil => rfl
  | cons tokenId rest ih =>
      change ((state.reclaim tokenId).1.reclaimAll rest).1.tokens[id]? = _
      rw [ih, tokens_reclaim]
      by_cases later : id ∈ rest
      · simp only [later, ↓reduceIte, List.mem_cons, or_true]
      · by_cases same : tokenId = id
        · subst same
          simp only [later, ↓reduceIte, List.mem_cons, true_or]
        · simp only [later, same, Ne.symm same, ↓reduceIte, List.mem_cons, or_self]

/-- Reclaiming empties the regions of a token and changes no other part of it. -/
theorem token_reclaim_of_eq {β : Type*} (view : Token → β)
    (keeps : ∀ token : Token, view { token with vmas := ∅ } = view token) (state : KernelState)
    (tokenId : U64) (ref : Ref) :
    view ((state.reclaim tokenId).1.token ref) = view (state.token ref) := by
  unfold reclaim
  cases state.tokens[tokenId]? with
  | none => rfl
  | some removed => exact state.tokenCells.read_modify_of_eq view keeps removed ref

theorem mem_expired (state : KernelState) (currentTick id : U64) :
    id ∈ state.expired currentTick ↔
      ∃ ref, state.tokens[id]? = some ref ∧ (state.token ref).isExpired currentTick = true := by
  unfold expired
  simp only [List.mem_map, List.mem_filter, Prod.exists, TreeMap.mem_toList_iff_getElem?_eq_some,
    exists_and_right, exists_eq_right]

/-- After the reclaim loop the table holds exactly the unexpired tokens. -/
theorem tokens_reclaimed (state : KernelState) (id : U64) (ref : Ref) :
    state.reclaimed.1.tokens[id]? = some ref ↔
      state.tokens[id]? = some ref ∧
        (state.token ref).isExpired (state.tickCount + 1) = false := by
  unfold reclaimed
  rw [tokens_reclaimAll]
  split_ifs with gone
  · obtain ⟨other, found, old⟩ := (mem_expired _ _ _).mp gone
    change state.tokens[id]? = some other at found
    change (state.token other).isExpired (state.tickCount + 1) = true at old
    constructor
    · intro impossible
      exact absurd impossible (by simp)
    · rintro ⟨here, young⟩
      cases found.symm.trans here
      exact absurd (old.symm.trans young) (by simp)
  · change state.tokens[id]? = some ref ↔ _
    constructor
    · intro found
      refine ⟨found, ?_⟩
      by_contra old
      exact gone ((mem_expired _ _ _).mpr ⟨ref, found, eq_true_of_ne_false old⟩)
    · exact fun both => both.1

theorem token_reclaimed_of_eq {β : Type*} (view : Token → β)
    (keeps : ∀ token : Token, view { token with vmas := ∅ } = view token) (state : KernelState)
    (ref : Ref) : view (state.reclaimed.1.token ref) = view (state.token ref) :=
  reclaimAll_of_eq (fun state => view (state.token ref))
    (fun state tokenId => token_reclaim_of_eq view keeps state tokenId ref) _ _

/-- Reclaiming keeps the regions of a token or takes them all away. -/
theorem vmas_reclaim (state : KernelState) (tokenId : U64) (ref : Ref) :
    ((state.reclaim tokenId).1.token ref).vmas = (state.token ref).vmas ∨
      ((state.reclaim tokenId).1.token ref).vmas = ∅ := by
  unfold reclaim
  cases state.tokens[tokenId]? with
  | none => exact .inl rfl
  | some removed =>
      by_cases same : ref = removed
      · subst same
        right
        exact congrArg Token.vmas
          (state.tokenCells.read_modify_self ref fun token => { token with vmas := ∅ })
      · left
        exact congrArg Token.vmas
          (state.tokenCells.read_modify_of_ne same fun token => { token with vmas := ∅ })

theorem vmas_reclaimAll (state : KernelState) (ids : List U64) (ref : Ref) :
    ((state.reclaimAll ids).1.token ref).vmas = (state.token ref).vmas ∨
      ((state.reclaimAll ids).1.token ref).vmas = ∅ := by
  induction ids generalizing state with
  | nil => exact .inl rfl
  | cons tokenId rest ih =>
      rcases ih (state.reclaim tokenId).1 with kept | taken
      · rcases state.vmas_reclaim tokenId ref with first | first
        · exact .inl (kept.trans first)
        · exact .inr (kept.trans first)
      · exact .inr taken

end KernelState

end Lofita.Kernel
