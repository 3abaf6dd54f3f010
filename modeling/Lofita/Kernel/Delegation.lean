import Lofita.Kernel.Registry

/-! # Delegation of authority

A child token should have at most the authority of the token bound to the
session that creates it. The entry point checks ownership against the token of
the session but inheritance against the token table, and skips the inheritance
checks when the table has no such token. The two disagree once the token of a
session is reclaimed: its holder may then create a token of any authority
(`escalates_from_reclaimed_token`). As long as owned parents are in the table,
authority only shrinks (`contained_of_listed_parents`).
-/

namespace Lofita.Kernel

open Lofita.Foundation Std

/-- No higher privilege and no further capability. -/
def Token.Within (child parent : Token) : Prop :=
  parent.privilege.asU32 ≤ child.privilege.asU32 ∧
    parent.capabilities.contains child.capabilities = true

/-- Every token the call creates has at most the authority of the token bound to
the calling session. -/
def Contained (state : KernelState) : KernelCall → Prop
  | .createChildToken request =>
      ∀ ref, state.tokenCells.next ≤ ref →
        ref < (state.createChildToken request).state.tokenCells.next →
        ∃ session, state.sessions[request.callerSessionId]? = some session ∧
          ((state.createChildToken request).state.token ref).Within
            ((state.createChildToken request).state.token session.token)
  | _ => True

/-- A parent that the caller owns is in the token table. -/
def ParentListed (state : KernelState) : KernelCall → Prop
  | .createChildToken request =>
      request.callerValid state = true → request.parentId ∈ state.tokens
  | _ => True

instance decidableParentListed (state : KernelState) :
    ∀ call, Decidable (ParentListed state call)
  | .createChildToken request =>
      inferInstanceAs
        (Decidable (request.callerValid state = true → request.parentId ∈ state.tokens))
  | .runProcess _ _ | .kernelTick _ | .ipcSend _ _ _ | .ipcRecv _ _ | .memAlloc _ _ _ _
  | .allocateMemory _ _ _ _ _ | .handlePageFault _ _ _ | .cleanup _ => .isTrue trivial

theorem Token.within_iff_of_charter_eq {child child' parent parent' : Token}
    (sameChild : child.charter = child'.charter) (sameParent : parent.charter = parent'.charter) :
    child.Within parent ↔ child'.Within parent' := by
  unfold Token.Within
  rw [show child.privilege = child'.privilege from congrArg Charter.privilege sameChild,
    show child.capabilities = child'.capabilities from congrArg Charter.capabilities sameChild,
    show parent.privilege = parent'.privilege from congrArg Charter.privilege sameParent,
    show parent.capabilities = parent'.capabilities from congrArg Charter.capabilities sameParent]

/-- A request that passes the inheritance checks asks for no more than the
parent has. -/
theorem ChildRequest.within_of_permitted {request : ChildRequest} {parent : Token}
    (permitted : request.permitted parent = true) (state : KernelState) :
    (request.newToken state).Within parent := by
  unfold ChildRequest.permitted at permitted
  obtain ⟨level, subset⟩ := of_decide_eq_true permitted
  refine ⟨PrivilegeLevel.asU32_le_ofVal level, ?_⟩
  rw [Capability.contains_eq_true]
  change parent.capabilities.bits &&& (request.capFlags &&& Capability.allBits) =
    request.capFlags &&& Capability.allBits
  rw [← BitVec.and_assoc, subset]

/-- A granted request comes from a session whose token has the id of the parent. -/
theorem KernelState.session_of_grants {state : KernelState} {request : ChildRequest}
    (granted : state.grants request = true) :
    ∃ session, state.sessions[request.callerSessionId]? = some session ∧
      (state.token session.token).id = request.parentId := by
  have owner : request.callerValid state = true := (Bool.and_eq_true_iff.mp granted).1
  unfold ChildRequest.callerValid at owner
  split at owner
  next session found => exact ⟨session, found, of_decide_eq_true owner⟩
  · cases owner

/-- A listed parent of the caller's id is the caller's own token, so the
inheritance checks are made against it. -/
theorem KernelState.permitted_of_grants {state : KernelState} (numbered : Numbered state)
    {request : ChildRequest} (granted : state.grants request = true)
    (listed : request.parentId ∈ state.tokens) :
    ∃ session, state.sessions[request.callerSessionId]? = some session ∧
      request.permitted (state.token session.token) = true := by
  obtain ⟨session, found, owns⟩ := state.session_of_grants granted
  obtain ⟨parent, known⟩ :=
    Option.isSome_iff_exists.mp (TreeMap.isSome_getElem?_iff_mem.mpr listed)
  obtain ⟨parentExists, parentId⟩ := numbered.table known
  have same : session.token = parent :=
    numbered.eq_of_id (numbered.bound found) parentExists (owns.trans parentId.symm)
  have checks := (Bool.and_eq_true_iff.mp granted).2
  simp only [known] at checks
  exact ⟨session, found, same ▸ checks⟩

theorem contained_of_listed {state : KernelState} (numbered : Numbered state) {call : KernelCall}
    (listed : ParentListed state call) : Contained state call := by
  cases call with
  | createChildToken request =>
      intro ref new created
      rcases state.createChildToken_cases request with ⟨_, same⟩ | ⟨granted, entered⟩
      · exact absurd created (Nat.not_lt.mpr (same.symm ▸ new))
      · have owner : request.callerValid state = true := (Bool.and_eq_true_iff.mp granted).1
        obtain ⟨session, found, permitted⟩ :=
          state.permitted_of_grants numbered granted (listed owner)
        refine ⟨session, found, ?_⟩
        rw [entered, KernelState.next_addChild] at created
        obtain rfl : ref = state.tokenCells.next :=
          Nat.le_antisymm (Nat.le_of_lt_succ created) new
        rw [entered]
        rw [Token.within_iff_of_charter_eq (state.charter_addChild_next request)
          (state.charter_addChild_of_lt request (numbered.bound found))]
        exact ChildRequest.within_of_permitted permitted state
  | _ => trivial

/-- **No privilege escalation from listed parents.** In every run from boot in
which each parent that its caller owns is in the token table and the token
counter does not wrap, every created token has at most the authority of the
token bound to the calling session. -/
theorem contained_of_listed_parents (calls : List KernelCall)
    (along : kernel.Along (fun state call => ParentListed state call ∧ CountsOn state call)
      .boot calls) : kernel.Along Contained .boot calls :=
  System.along_of_invariant (fun _ _ numbered guard => Numbered.after numbered guard.2)
    (fun _ _ numbered guard => contained_of_listed numbered guard.1) Numbered.boot along

/-- The root token delegates file access to an admin token, which delegates
reading to a user token. -/
theorem contained_of_listed_parents_chain : kernel.Along Contained .boot
    [.runProcess 1 100, .createChildToken (childOf 1 1 1 0xC 50), .runProcess 2 20,
      .createChildToken (childOf 2 2 2 0x4 10), .kernelTick none] :=
  contained_of_listed_parents _ (by decide)

/-- The holder of a reclaimed process token without capabilities creates a root
token with all of them. -/
theorem escalates_from_reclaimed_token : ¬ kernel.Along Contained .boot
    [.runProcess 1 100, .createChildToken (childOf 1 1 3 0 0), .runProcess 2 100,
      .kernelTick none, .createChildToken (childOf 2 2 0 0x1FF 100)] := by
  rintro ⟨_, _, _, _, contained, _⟩
  obtain ⟨session, found, within⟩ := contained 2 (by decide) (by decide)
  have bound : session = { id := 2, token := 1, expiryTick := 100, isActive := true } :=
    Option.some.inj (found.symm.trans (by decide))
  subst bound
  exact absurd within.1 (by decide)

end Lofita.Kernel
