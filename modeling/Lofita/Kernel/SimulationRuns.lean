import Lofita.Kernel.Simulation
import Mathlib.Logic.Relation

/-! # Runs of the simulated kernel

A call makes a few effects, one after the other (`effects_step`), and a property that every effect
preserves holds of every state that the shell of the simulator can reach. Capabilities are granted
only to active sessions whose tokens are in the table (`capability_granted_iff`), a tick runs no
thread of another session (`tick_runs_attended`), privileges fall from parents to children
(`privileges_fall`), and no token has a third session (`two_runs_at_most`).
-/

namespace Lofita.Kernel

open Lofita.Foundation Lofita.Ppa

variable {Time : Type}

/-! ### Threads -/

namespace Simulator

variable {self : Simulator}

/-- Turning the queue loses no thread and adds none. -/
theorem mem_rotate {sim : SimThread} :
    ∀ {rounds : Nat} {threads : List SimThread}, sim ∈ (rotate rounds threads).2 → sim ∈ threads
  | 0, _, member => member
  | _ + 1, [], member => member
  | rounds + 1, thread :: rest, member => by
      unfold rotate at member
      split_ifs at member with ready
      · have same : { { thread with state := .running } with state := .ready } = thread := by
          rw [← ready]
        rw [same, List.mem_append, List.mem_singleton] at member
        exact List.mem_cons.mpr member.symm
      · have earlier := mem_rotate member
        rw [List.mem_append, List.mem_singleton] at earlier
        exact List.mem_cons.mpr earlier.symm

/-- The thread that runs is one of the queue. -/
theorem rotate_eq_some {sim : SimThread} :
    ∀ {rounds : Nat} {threads : List SimThread}, (rotate rounds threads).1 = some sim →
      sim ∈ threads
  | 0, _, ran => nomatch ran
  | _ + 1, [], ran => nomatch ran
  | rounds + 1, thread :: rest, ran => by
      unfold rotate at ran
      split_ifs at ran with ready
      · have same : { { thread with state := .running } with state := .ready } = thread := by
          rw [← ready]
        rw [same] at ran
        exact Option.some.inj ran ▸ List.mem_cons_self
      · have earlier := rotate_eq_some ran
        rw [List.mem_append, List.mem_singleton] at earlier
        exact List.mem_cons.mpr earlier.symm

/-- The scheduler only reorders and restates the threads it has. -/
theorem mem_scheduleNext {sim : SimThread} (member : sim ∈ self.scheduleNext.2.threads) :
    sim ∈ self.threads := by
  unfold scheduleNext at member
  split_ifs at member
  · exact member
  · exact mem_rotate member

/-- It answers with one of them. -/
theorem scheduleNext_eq_some {sim : SimThread} (ran : self.scheduleNext.1 = some sim) :
    sim ∈ self.threads := by
  unfold scheduleNext at ran
  split_ifs at ran
  exact rotate_eq_some ran

/-- Waking changes the state of one thread. -/
theorem sessionId_wake {id : Nat} :
    ∀ {threads woken : List SimThread}, wake id threads = some woken →
      woken.map SimThread.sessionId = threads.map SimThread.sessionId
  | [], _, woke => nomatch woke
  | thread :: rest, woken, woke => by
      unfold wake at woke
      split_ifs at woke with here
      · cases woke
        rfl
      · obtain ⟨tail, tailWoken, rfl⟩ := Option.map_eq_some_iff.mp woke
        rw [List.map_cons, List.map_cons, sessionId_wake tailWoken]

/-- Sending leaves the threads to their sessions. -/
theorem sessionId_send (portId senderSession : Nat) (payload : String) :
    (self.send portId senderSession payload).2.threads.map SimThread.sessionId =
      self.threads.map SimThread.sessionId := by
  cases waiting : (self.channels portId).blockedThreads with
  | nil => rw [send_of_alone waiting, setChannel]
  | cons id rest =>
      unfold send
      simp only [waiting, setChannel]
      cases woke : wake id self.threads with
      | none => rfl
      | some woken => exact sessionId_wake woke

theorem sessionId_recv (portId threadId : Nat) :
    (self.recv portId threadId).2.threads.map SimThread.sessionId =
      self.threads.map SimThread.sessionId := by
  unfold recv
  cases queued : (self.channels portId).messages with
  | cons message rest => simp only [queued, setChannel]
  | nil =>
      simp only [queued, setChannel, List.map_map]
      refine List.map_congr_left fun thread _ => ?_
      rw [Function.comp_apply]
      split_ifs <;> rfl

end Simulator

namespace KernelSimulation

/-! ### What one operation changes -/

/-- The sessions with the ids have ended. -/
def endAll (ids : List Nat) (sessions : List (SimSession Time)) : List (SimSession Time) :=
  sessions.map fun session =>
    if session.id ∈ ids then { session with isActive := false } else session

/-- The scheduler without the threads of the sessions with the ids. -/
def dismissAll (ids : List Nat) (scheduler : Simulator) : Simulator :=
  { scheduler with
    threads := scheduler.threads.filter fun thread => thread.sessionId ∉ ids }

/-- Ending sessions one by one ends them all and drops their threads. -/
theorem foldl_endSession (ids : List Nat) (self : KernelSimulation Time) :
    ids.foldl endSession self =
      { self with
        sessions := endAll ids self.sessions, scheduler := dismissAll ids self.scheduler } := by
  induction ids generalizing self with
  | nil =>
      simp only [endAll, dismissAll, List.foldl_nil, List.not_mem_nil, if_false, List.map_id',
        not_false_eq_true, decide_true, List.filter_true]
  | cons id rest ih =>
      have sessions : endAll rest (self.endSession id).sessions =
          endAll (id :: rest) self.sessions := by
        simp only [endAll, endSession, terminateSessionThreads, List.map_map]
        refine List.map_congr_left fun session _ => ?_
        rw [Function.comp_apply]
        by_cases here : session.id = id
        · have inside : session.id ∈ id :: rest := here ▸ List.mem_cons_self
          rw [if_pos here, if_pos inside]
          split_ifs <;> rfl
        · rw [if_neg here]
          exact if_congr (by rw [List.mem_cons, or_iff_right here]) rfl rfl
      have scheduler : dismissAll rest (self.endSession id).scheduler =
          dismissAll (id :: rest) self.scheduler := by
        simp only [dismissAll, endSession, terminateSessionThreads, List.filter_filter]
        congr 1
        refine List.filter_congr fun thread _ => ?_
        rw [← Bool.decide_and, decide_eq_decide, List.mem_cons, not_or]
        exact and_comm
      rw [List.foldl_cons, ih, sessions, scheduler]
      rfl

/-- Reclaiming regions one by one unmaps each and gives its block back. -/
theorem foldl_reclaimRegion (vmas : List SimVma) (self : KernelSimulation Time) :
    vmas.foldl reclaimRegion self =
      { self with
        paging := vmas.foldl (fun paging vma => paging.unmap vma.startAddr vma.size) self.paging
        pool := vmas.foldl (fun pool vma => pool.free vma.physPtr (vma.size / pageSize))
          self.pool } := by
  induction vmas generalizing self with
  | nil => rfl
  | cons vma rest ih =>
      rw [List.foldl_cons, ih]
      rfl

/-- The sessions of a token. -/
def sessionsOf (tokenId : Nat) (self : KernelSimulation Time) : List Nat :=
  (self.sessions.filter fun session => session.token = tokenId).map SimSession.id

/-- What a reclaimed token leaves behind. -/
theorem reclaimToken_eq (self : KernelSimulation Time) (tokenId : Nat) :
    let token := self.object tokenId
    self.reclaimToken tokenId =
      { self with
        tokens := self.tokens.erase tokenId
        sessions := endAll (self.sessionsOf tokenId) self.sessions
        scheduler := dismissAll (self.sessionsOf tokenId) self.scheduler
        paging := token.vmas.foldl (fun paging vma => paging.unmap vma.startAddr vma.size)
          self.paging
        pool := token.vmas.foldl (fun pool vma => pool.free vma.physPtr (vma.size / pageSize))
          self.pool
        object := Function.update self.object tokenId { token with vmas := [] } } := by
  unfold reclaimToken
  simp only [foldl_endSession, foldl_reclaimRegion]
  rfl

/-- What an update of a token leaves alone is as it was for all tokens. -/
theorem field_eq {α : Type} (field : SimToken Time → α) {self after : KernelSimulation Time}
    {tokenId : Nat} {token : SimToken Time}
    (objects : after.object = Function.update self.object tokenId token)
    (same : field token = field (self.object tokenId)) (id : Nat) :
    field (after.object id) = field (self.object id) := by
  rw [objects]
  by_cases here : id = tokenId
  · rw [here, Function.update_self, same]
  · rw [Function.update_of_ne here]

/-- The record of a reclaimed token keeps all but its regions. -/
theorem object_reclaimToken (self : KernelSimulation Time) (tokenId : Nat) :
    (self.reclaimToken tokenId).object =
      Function.update self.object tokenId { self.object tokenId with vmas := [] } := by
  rw [reclaimToken_eq]

/-- Reclaiming makes no token permanent or temporary. -/
theorem reclaimToken_isPermanent (self : KernelSimulation Time) (tokenId other : Nat) :
    ((self.reclaimToken tokenId).object other).isPermanent = (self.object other).isPermanent :=
  field_eq SimToken.isPermanent (self.object_reclaimToken tokenId) rfl other

/-! ### What a call does -/

/-- A token that is found is listed. -/
theorem token?_eq_some {self : KernelSimulation Time} {tokenId : Nat} {token : SimToken Time}
    (found : self.token? tokenId = some token) :
    tokenId ∈ self.tokens ∧ self.object tokenId = token := by
  unfold token? at found
  split_ifs at found with member
  exact ⟨member, Option.some.inj found⟩

/-- A session that is found is listed under its number. -/
theorem session?_eq_some {self : KernelSimulation Time} {sessionId : Nat}
    {session : SimSession Time} (found : self.session? sessionId = some session) :
    session ∈ self.sessions ∧ session.id = sessionId := by
  unfold session? at found
  have named := List.find?_some found
  exact ⟨List.mem_of_find?_eq_some found, by simpa using named⟩

/-- The pages of an allocation. -/
def pagesFor (size : Int) : Int := (size + pageSize - 1) / pageSize

/-- The region of an allocation. -/
def newRegion (self : KernelSimulation Time) (tokenId : Nat) (size : Int) (physPtr : Nat) :
    SimVma where
  startAddr := nextVirtualAddr tokenId (self.object tokenId).memoryUsed
  size := pagesFor size * pageSize
  physPtr := physPtr

/-- An allocation leaves the sessions alone. -/
theorem sessions_allocateMemory (self : KernelSimulation Time) (tokenId : Nat) (size : Int)
    (isWriteable isExecutable : Bool) :
    (self.allocateMemory tokenId size isWriteable isExecutable).2.sessions = self.sessions := by
  unfold allocateMemory
  cases self.token? tokenId with
  | none => rfl
  | some token =>
      simp only []
      split_ifs
      · rfl
      · rfl
      · rfl
      · cases self.pool.alloc ((size + pageSize - 1) / pageSize) with
        | mk answer pool => cases answer <;> rfl

theorem sessions_allocate (self : KernelSimulation Time) (translator : SimTranslator)
    (length : Int) : (translator.allocate length self).2.sessions = self.sessions := by
  unfold SimTranslator.allocate
  cases self.session? translator.sessionId with
  | none => rfl
  | some session => exact self.sessions_allocateMemory session.token length true false

section Effects

variable [Clock Time]

/-- The changes that calls are made of, where allocations meet a condition. -/
inductive Effect (allowed : KernelSimulation Time → Nat → Int → Prop) :
    KernelSimulation Time → KernelSimulation Time → Prop where
  | create {self : KernelSimulation Time} {request : SimTokenRequest Time} {clock : Time}
      (permitted : self.refusal request = none) :
      Effect allowed self (self.addToken (newToken request clock))
  | exhausted {self : KernelSimulation Time} {pages : Int} {pool : SimPool}
      (failed : self.pool.alloc pages = (none, pool)) : Effect allowed self { self with pool }
  | allocate {self : KernelSimulation Time} {tokenId : Nat} {size : Int} {physPtr : Nat}
      {pool : SimPool} (member : tokenId ∈ self.tokens)
      (capable : (self.object tokenId).capabilities &&& SimCapability.memAlloc ≠ 0)
      (quota : (self.object tokenId).memoryUsed + size ≤ (self.object tokenId).memoryLimit)
      (fits : allowed self tokenId size)
      (answered : self.pool.alloc (pagesFor size) = (some physPtr, pool)) :
      Effect allowed self
        ({ self with pool }.register tokenId (self.newRegion tokenId size physPtr))
  | start {self : KernelSimulation Time} {tokenId : Nat} {expiry : Time}
      (member : tokenId ∈ self.tokens) (few : (self.object tokenId).runCount < 2) :
      Effect allowed self (self.startSession tokenId expiry)
  | spawn {self : KernelSimulation Time} {session : SimSession Time} {name : String} {rip : Nat}
      (member : session ∈ self.sessions) (active : session.isActive = true) :
      Effect allowed self (self.spawn session.id name rip)
  | schedule {self : KernelSimulation Time} {scheduler : Simulator}
      (same : ∀ thread ∈ scheduler.threads,
        thread.sessionId ∈ self.scheduler.threads.map SimThread.sessionId) :
      Effect allowed self { self with scheduler }
  | advance {self : KernelSimulation Time} {simulatedTimeOffset : Time} :
      Effect allowed self { self with simulatedTimeOffset }
  | reclaim {self : KernelSimulation Time} {tokenId : Nat}
      (temporary : (self.object tokenId).isPermanent = false) :
      Effect allowed self (self.reclaimToken tokenId)
  | endSessions {self : KernelSimulation Time} {ids : List Nat} :
      Effect allowed self (ids.foldl endSession self)

abbrev Effects (allowed : KernelSimulation Time → Nat → Int → Prop) :
    KernelSimulation Time → KernelSimulation Time → Prop :=
  Relation.ReflTransGen (Effect allowed)

variable {allowed : KernelSimulation Time → Nat → Int → Prop} {self : KernelSimulation Time}

/-- An allocation is at most a registration. -/
theorem effects_allocateMemory (tokenId : Nat) (size : Int) (isWriteable isExecutable : Bool)
    (fits : allowed self tokenId size) :
    Effects allowed self (self.allocateMemory tokenId size isWriteable isExecutable).2 := by
  unfold allocateMemory
  cases found : self.token? tokenId with
  | none => exact .refl
  | some token =>
      obtain ⟨member, rfl⟩ := token?_eq_some found
      simp only []
      split_ifs with incapable overQuota both
      · exact .refl
      · exact .refl
      · exact .refl
      · cases answered : self.pool.alloc ((size + pageSize - 1) / pageSize) with
        | mk answer pool =>
            cases answer with
            | none => exact .single (.exhausted answered)
            | some physPtr =>
                exact .single (.allocate member incapable (not_lt.mp overQuota) fits answered)

/-- Reclaiming temporary tokens is a run of effects. -/
theorem effects_reclaim (ids : List Nat)
    (temporary : ∀ id ∈ ids, (self.object id).isPermanent = false) :
    Effects allowed self (ids.foldl reclaimToken self) := by
  induction ids generalizing self with
  | nil => exact .refl
  | cons id rest ih =>
      obtain ⟨first, others⟩ := List.forall_mem_cons.mp temporary
      refine .head (.reclaim first) (ih fun other member => ?_)
      rw [reclaimToken_isPermanent]
      exact others other member

/-- A translator's allocation has the effects of the kernel's. -/
theorem effects_allocate (translator : SimTranslator) (length : Int)
    (fits : ∀ session, self.session? translator.sessionId = some session →
      allowed self session.token length) :
    Effects allowed self (translator.allocate length self).2 := by
  unfold SimTranslator.allocate
  cases found : self.session? translator.sessionId with
  | none => exact .refl
  | some session =>
      exact effects_allocateMemory session.token length true false (fits session found)

/-- A session with a capability is active. -/
theorem active_of_checkCapability {sessionId capBit : Nat} {forSession forToken : Time}
    (granted : self.checkCapability sessionId capBit forSession forToken = true) :
    ∃ session, self.session? sessionId = some session ∧ session.isActive = true := by
  unfold checkCapability at granted
  cases found : self.session? sessionId with
  | none =>
      rw [found] at granted
      exact absurd granted Bool.false_ne_true
  | some session =>
      simp only [found] at granted
      split_ifs at granted with inactive
      · exact ⟨session, rfl, inactive⟩

/-- A tick is a run of effects: time passes, sessions end, tokens are reclaimed. -/
theorem effects_tick (clock : Time) : Effects allowed self (self.tick clock).2 := by
  unfold tick
  refine (effects_reclaim _ ?_).trans (.trans (.single .endSessions) (.single (.schedule ?_)))
  · intro id member
    have expired := of_decide_eq_true (List.mem_filter.mp member).2
    exact Bool.eq_false_of_not_eq_true expired.1
  · exact fun thread member => List.mem_map_of_mem (Simulator.mem_scheduleNext member)

/-- The condition holds of every allocation that a call makes. -/
def Allocates (allowed : KernelSimulation Time → Nat → Int → Prop)
    (self : KernelSimulation Time) : SimCall Time → Prop
  | .allocateMemory tokenId size _ _ => allowed self tokenId size
  | .runExe sessionId clock =>
      ∀ session, self.session? sessionId = some session →
        let translator := SimTranslator.new sessionId
        let started := self.spawn sessionId "WineLoaderMain" 0x3000_0000
        let grown := (translator.sysBrk 0x4000_8000 (clock 1) (clock 2) started).2.2
        allowed started session.token 0x8000 ∧ allowed grown session.token 0x4000
  | _ => True

/-- `brk` asks for what the heap lacks, or does nothing to the kernel. -/
theorem sysBrk_cases (translator : SimTranslator) (newBrk : Int) (forSession forToken : Time) :
    (translator.sysBrk newBrk forSession forToken self).2.1.sessionId = translator.sessionId ∧
      ((translator.sysBrk newBrk forSession forToken self).2.2 = self ∨
        (translator.sysBrk newBrk forSession forToken self).2.2 =
          (translator.allocate (newBrk - translator.heapLimit) self).2) := by
  unfold SimTranslator.sysBrk
  split_ifs with zero granted shrinks grows
  · exact ⟨rfl, .inl rfl⟩
  · exact ⟨rfl, .inl rfl⟩
  · simp only []
    cases translator.allocate (newBrk - translator.heapLimit) self with
    | mk answer after => cases answer <;> exact ⟨rfl, .inr rfl⟩
  · exact ⟨rfl, .inl rfl⟩
  · exact ⟨rfl, .inl rfl⟩

/-- `mmap` asks for its length, or does nothing to the kernel. -/
theorem sysMmap_cases (translator : SimTranslator) (length : Int) (forSession forToken : Time) :
    (translator.sysMmap length forSession forToken self).2 = self ∨
      (translator.sysMmap length forSession forToken self).2 =
        (translator.allocate length self).2 := by
  unfold SimTranslator.sysMmap
  split_ifs with granted
  · cases translator.allocate length self with
    | mk answer after => cases answer <;> exact .inr rfl
  · exact .inl rfl

/-- A `brk` has the effects of the allocation it makes. -/
theorem effects_sysBrk (translator : SimTranslator) (newBrk : Int) (forSession forToken : Time)
    (fits : ∀ session, self.session? translator.sessionId = some session →
      allowed self session.token (newBrk - translator.heapLimit)) :
    Effects allowed self (translator.sysBrk newBrk forSession forToken self).2.2 := by
  rcases (sysBrk_cases translator newBrk forSession forToken).2 with unchanged | asked
  · rw [unchanged]
  · rw [asked]
    exact effects_allocate translator _ fits

/-- A `brk` leaves the sessions alone. -/
theorem sessions_sysBrk (translator : SimTranslator) (newBrk : Int) (forSession forToken : Time) :
    (translator.sysBrk newBrk forSession forToken self).2.2.sessions = self.sessions := by
  rcases (sysBrk_cases translator newBrk forSession forToken).2 with unchanged | asked
  · rw [unchanged]
  · rw [asked, sessions_allocate]

/-- An `mmap` has the effects of the allocation it makes. -/
theorem effects_sysMmap (translator : SimTranslator) (length : Int) (forSession forToken : Time)
    (fits : ∀ session, self.session? translator.sessionId = some session →
      allowed self session.token length) :
    Effects allowed self (translator.sysMmap length forSession forToken self).2 := by
  rcases sysMmap_cases translator length forSession forToken with unchanged | asked
  · rw [unchanged]
  · rw [asked]
    exact effects_allocate translator _ fits

/-- A program has the effects of its calls. -/
theorem effects_runExe (sessionId : Nat) (clock : Nat → Time)
    (fits : Allocates allowed self (.runExe sessionId clock)) :
    Effects allowed self (self.runExe sessionId clock) := by
  unfold runExe
  cases found : self.session? sessionId with
  | none => exact .refl
  | some session =>
      obtain ⟨grows, maps⟩ := fits session found
      obtain ⟨member, rfl⟩ := session?_eq_some found
      have unique {kernel : KernelSimulation Time} (same : kernel.sessions = self.sessions)
          {other : SimSession Time} (otherFound : kernel.session? session.id = some other) :
          other = session := by
        unfold session? at found otherFound
        rw [same, found] at otherFound
        exact (Option.some.inj otherFound).symm
      simp only []
      split_ifs with ended incapable
      · exact .refl
      · exact .refl
      · obtain ⟨active, -⟩ := not_or.mp ended
        have spawned : Effect allowed self (self.spawn session.id "WineLoaderMain" 0x3000_0000) :=
          .spawn member (not_not.mp active)
        refine .head spawned ?_
        refine .trans (effects_sysBrk _ 0x4000_8000 (clock 1) (clock 2) ?_)
          (effects_sysMmap _ _ _ _ ?_)
        · intro other otherFound
          rw [unique rfl otherFound]
          exact grows
        · rw [(sysBrk_cases _ _ _ _).1]
          intro other otherFound
          rw [unique (by rw [sessions_sysBrk]; rfl) otherFound]
          exact maps

/-- **What a call does** is made of effects, where the condition is met at each allocation. -/
theorem effects_step {call : SimCall Time} (fits : Allocates allowed self call) :
    Effects allowed self ((simulation Time).step self call) := by
  cases call with
  | createToken request clock =>
      simp only [simulation]
      unfold createToken
      cases refused : self.refusal request with
      | some text => exact .refl
      | none => exact .single (.create refused)
  | allocateMemory tokenId size isWriteable isExecutable =>
      exact effects_allocateMemory tokenId size isWriteable isExecutable fits
  | runProcess tokenId sessionLifetime checked created =>
      simp only [simulation]
      unfold runProcess
      cases found : self.token? tokenId with
      | none => exact .refl
      | some token =>
          obtain ⟨member, rfl⟩ := token?_eq_some found
          simp only []
          split_ifs with expired used
          · exact .refl
          · exact .refl
          · exact .single (.start member (Nat.lt_of_not_le used))
  | send portId senderSession payload =>
      refine .single (.schedule fun thread member => ?_)
      rw [← Simulator.sessionId_send portId senderSession payload]
      exact List.mem_map_of_mem member
  | recv portId threadId =>
      refine .single (.schedule fun thread member => ?_)
      rw [← Simulator.sessionId_recv portId threadId]
      exact List.mem_map_of_mem member
  | runExe sessionId clock => exact effects_runExe sessionId clock fits
  | webview sessionId forSession forToken =>
      change Effects allowed self (self.webview sessionId forSession forToken)
      unfold webview
      split_ifs with granted
      · obtain ⟨session, found, active⟩ := active_of_checkCapability granted
        obtain ⟨member, rfl⟩ := session?_eq_some found
        exact .single (.spawn member active)
      · exact .refl
  | tick seconds clock => exact .trans (.single .advance) (effects_tick clock)

/-- What every effect preserves holds in every state of a run whose allocations meet the
condition. -/
theorem always_of_effects {good : KernelSimulation Time → Prop}
    (invariant : KernelSimulation Time → Prop)
    (preserves : ∀ before after, invariant before → Effect allowed before after → invariant after)
    (implies : ∀ kernel, invariant kernel → good kernel) {calls : List (SimCall Time)}
    (initial : invariant self) (along : (simulation Time).Along (Allocates allowed) self calls) :
    (simulation Time).Always good self calls := by
  refine System.always_of_invariant invariant (fun before call held fits => ?_) implies initial
    along
  have effects := effects_step fits
  generalize (simulation Time).step before call = after at effects ⊢
  induction effects with
  | refl => exact held
  | tail _ effect ih => exact preserves _ _ ih effect

/-- No condition on allocations. -/
abbrev anySize : KernelSimulation Time → Nat → Int → Prop := fun _ _ _ => True

/-- Every run allocates some size. -/
theorem along_anySize (calls : List (SimCall Time)) :
    (simulation Time).Along (Allocates anySize) self calls :=
  System.along_of_forall fun call _ state => by
    cases call <;> first
      | exact trivial
      | exact fun _ _ => ⟨trivial, trivial⟩

end Effects

/-! ### Sessions are backed by tokens -/

/-- Active sessions have their tokens in the table, and threads have active sessions. -/
structure Live (kernel : KernelSimulation Time) : Prop where
  older : ∀ id ∈ kernel.tokens, id < kernel.nextTokenId
  distinct : kernel.tokens.Nodup
  numbered : ∀ session ∈ kernel.sessions, session.id < kernel.nextSessionId
  once : (kernel.sessions.map SimSession.id).Nodup
  backed : ∀ session ∈ kernel.sessions, session.isActive = true → session.token ∈ kernel.tokens
  staffed : ∀ thread ∈ kernel.scheduler.threads,
    ∃ session ∈ kernel.sessions, session.id = thread.sessionId ∧ session.isActive = true

namespace Live

variable {self : KernelSimulation Time}

/-- The threads stay, up to their states. -/
theorem of_scheduler (live : Live self) {scheduler : Simulator}
    (same : ∀ thread ∈ scheduler.threads,
      thread.sessionId ∈ self.scheduler.threads.map SimThread.sessionId) :
    Live { self with scheduler } where
  older := live.older
  distinct := live.distinct
  numbered := live.numbered
  once := live.once
  backed := live.backed
  staffed := by
    intro thread member
    obtain ⟨earlier, earlierMember, named⟩ := List.mem_map.mp (same thread member)
    exact named ▸ live.staffed earlier earlierMember

/-- Tokens leave the table, with all sessions that are theirs. -/
theorem revoke (live : Live self) {tokens : List Nat} (kept : tokens.Sublist self.tokens)
    {ids : List Nat} (ended : ∀ session ∈ self.sessions, session.isActive = true →
      session.id ∉ ids → session.token ∈ tokens) :
    Live { self with
      tokens, sessions := endAll ids self.sessions
      scheduler := dismissAll ids self.scheduler } where
  older := fun id member => live.older id (kept.subset member)
  distinct := live.distinct.sublist kept
  numbered := by
    intro session member
    obtain ⟨earlier, earlierMember, rfl⟩ := List.mem_map.mp member
    have below := live.numbered earlier earlierMember
    split_ifs <;> exact below
  once := by
    have same : (endAll ids self.sessions).map SimSession.id = self.sessions.map SimSession.id := by
      rw [endAll, List.map_map]
      refine List.map_congr_left fun session _ => ?_
      rw [Function.comp_apply]
      split_ifs <;> rfl
    exact same ▸ live.once
  backed := by
    intro session member active
    obtain ⟨earlier, earlierMember, rfl⟩ := List.mem_map.mp member
    split_ifs at active ⊢ with isEnded
    exact ended earlier earlierMember active isEnded
  staffed := by
    intro thread member
    obtain ⟨earlierMember, stays⟩ := List.mem_filter.mp member
    obtain ⟨session, sessionMember, named, active⟩ := live.staffed thread earlierMember
    have open_ : session.id ∉ ids := named ▸ of_decide_eq_true stays
    exact ⟨session, List.mem_map.mpr ⟨session, sessionMember, if_neg open_⟩, named, active⟩

/-- A session of a reclaimed token has ended, so the others' tokens stay listed. -/
theorem reclaimToken (live : Live self) (tokenId : Nat) : Live (self.reclaimToken tokenId) := by
  rw [reclaimToken_eq]
  suffices ended : ∀ session ∈ self.sessions, session.isActive = true →
      session.id ∉ self.sessionsOf tokenId → session.token ∈ self.tokens.erase tokenId by
    exact { live.revoke List.erase_sublist ended with }
  intro session member active open_
  have other : session.token ≠ tokenId := fun same => open_
    (List.mem_map_of_mem (List.mem_filter.mpr ⟨member, decide_eq_true same⟩))
  exact (List.mem_erase_of_ne other).mpr (live.backed session member active)

/-- Sessions have different numbers, so a listed one is found. -/
theorem session?_eq_some_iff (live : Live self) {sessionId : Nat}
    {session : SimSession Time} :
    self.session? sessionId = some session ↔ session ∈ self.sessions ∧ session.id = sessionId := by
  refine ⟨session?_eq_some, ?_⟩
  rintro ⟨member, rfl⟩
  cases found : self.session? session.id with
  | none =>
      have missed := List.find?_eq_none.mp found session member
      exact absurd (decide_eq_true rfl) missed
  | some other =>
      obtain ⟨otherMember, named⟩ := session?_eq_some found
      rw [List.inj_on_of_nodup_map live.once otherMember member named]

/-- A new token breaks nothing. -/
theorem addToken (live : Live self) (token : SimToken Time) : Live (self.addToken token) where
  older := by
    intro id member
    rcases List.mem_append.mp member with earlier | new
    · exact Nat.lt_succ_of_lt (live.older id earlier)
    · exact (List.mem_singleton.mp new) ▸ Nat.lt_succ_self _
  distinct := by
    refine List.nodup_append.mpr ⟨live.distinct, List.nodup_singleton _, ?_⟩
    intro id member other new same
    rw [List.mem_singleton.mp new] at same
    exact absurd (live.older id member) (same ▸ Nat.lt_irrefl _)
  numbered := live.numbered
  once := live.once
  backed := fun session member active =>
    List.mem_append_left _ (live.backed session member active)
  staffed := live.staffed

/-- A new session has a fresh number and a listed token. -/
theorem startSession (live : Live self) {tokenId : Nat} (member : tokenId ∈ self.tokens)
    (expiry : Time) : Live (self.startSession tokenId expiry) where
  older := live.older
  distinct := live.distinct
  numbered := by
    intro session sessionMember
    rcases List.mem_append.mp sessionMember with earlier | new
    · exact Nat.lt_succ_of_lt (live.numbered session earlier)
    · exact (List.mem_singleton.mp new) ▸ Nat.lt_succ_self _
  once := by
    have ids : (self.startSession tokenId expiry).sessions.map SimSession.id =
        self.sessions.map SimSession.id ++ [self.nextSessionId] := List.map_append
    rw [ids]
    refine List.nodup_append.mpr ⟨live.once, List.nodup_singleton _, ?_⟩
    intro id idMember other new same
    obtain ⟨session, sessionMember, rfl⟩ := List.mem_map.mp idMember
    rw [List.mem_singleton.mp new] at same
    exact absurd (live.numbered session sessionMember) (same ▸ Nat.lt_irrefl _)
  backed := by
    intro session sessionMember active
    rcases List.mem_append.mp sessionMember with earlier | new
    · exact live.backed session earlier active
    · exact (List.mem_singleton.mp new) ▸ member
  staffed := by
    intro thread threadMember
    rcases List.mem_append.mp threadMember with earlier | new
    · obtain ⟨session, sessionMember, named, active⟩ := live.staffed thread earlier
      exact ⟨session, List.mem_append_left _ sessionMember, named, active⟩
    · exact ⟨_, List.mem_append_right _ (List.mem_singleton.mpr rfl),
        (List.mem_singleton.mp new) ▸ rfl, rfl⟩

/-- A thread of an active session is live. -/
theorem spawn (live : Live self) {session : SimSession Time} (member : session ∈ self.sessions)
    (active : session.isActive = true) (name : String) (rip : Nat) :
    Live (self.spawn session.id name rip) := by
  refine { live with staffed := fun thread threadMember => ?_ }
  rcases List.mem_append.mp threadMember with earlier | new
  · exact live.staffed thread earlier
  · exact ⟨session, member, (List.mem_singleton.mp new) ▸ rfl, active⟩

/-- One effect keeps the bookkeeping live. -/
theorem effect [Clock Time] {allowed : KernelSimulation Time → Nat → Int → Prop}
    {after : KernelSimulation Time} (live : Live self) (effect : Effect allowed self after) :
    Live after := by
  cases effect with
  | create permitted => exact live.addToken _
  | exhausted failed => exact { live with }
  | allocate member capable quota fits answered => exact { live with }
  | start member few => exact live.startSession member _
  | spawn member active => exact live.spawn member active _ _
  | schedule same => exact live.of_scheduler same
  | advance => exact { live with }
  | reclaim temporary => exact live.reclaimToken _
  | endSessions =>
      rw [foldl_endSession]
      exact { live.revoke (List.Sublist.refl _) fun session member active _ =>
        live.backed session member active with }

/-- It is live at the start. -/
theorem init [Clock Time] (clock lifetimeSeconds : Time) :
    Live (KernelSimulation.init clock lifetimeSeconds) where
  older := by
    intro id member
    exact (List.mem_singleton.mp member) ▸ (by decide : 1 < 2)
  distinct := List.nodup_singleton _
  numbered := nofun
  once := List.nodup_nil
  backed := nofun
  staffed := nofun

end Live

section Authority

variable [Clock Time] {self : KernelSimulation Time}

/-- Who may use a capability at two readings of the clock. -/
def Granted (kernel : KernelSimulation Time) (sessionId capBit : Nat)
    (forSession forToken : Time) : Prop :=
  ∃ session ∈ kernel.sessions, session.id = sessionId ∧ session.isActive = true ∧
    kernel.currentTime forSession ≤ session.expiry ∧ session.token ∈ kernel.tokens ∧
    ((kernel.object session.token).isPermanent = true ∨
      kernel.currentTime forToken ≤ (kernel.object session.token).expiry) ∧
    (kernel.object session.token).capabilities &&& capBit ≠ 0

/-- A capability is granted exactly when session and token are valid and hold it. -/
theorem Live.checkCapability_iff (live : Live self) (sessionId capBit : Nat)
    (forSession forToken : Time) :
    self.checkCapability sessionId capBit forSession forToken = true ↔
      Granted self sessionId capBit forSession forToken := by
  unfold checkCapability Granted
  cases found : self.session? sessionId with
  | none =>
      refine iff_of_false Bool.false_ne_true ?_
      rintro ⟨session, member, named, -⟩
      rw [live.session?_eq_some_iff.mpr ⟨member, named⟩] at found
      cases found
  | some session =>
      obtain ⟨member, named⟩ := session?_eq_some found
      have only {good : SimSession Time → Prop} :
          (∃ other ∈ self.sessions, other.id = sessionId ∧ good other) ↔ good session := by
        constructor
        · rintro ⟨other, otherMember, otherNamed, holds⟩
          exact List.inj_on_of_nodup_map live.once otherMember member
            (otherNamed.trans named.symm) ▸ holds
        · exact fun holds => ⟨session, member, named, holds⟩
      rw [only]
      simp only []
      split_ifs with inactive late expired
      · exact iff_of_false not_false fun granted => absurd granted.2.1 (not_le.mpr late)
      · refine iff_of_false not_false fun granted => ?_
        rcases granted.2.2.2.1 with permanent | inTime
        · exact expired.1 permanent
        · exact absurd inTime (not_le.mpr expired.2)
      · rw [decide_eq_true_iff]
        refine ⟨fun capable => ⟨inactive, not_lt.mp late, live.backed session member inactive, ?_,
          capable⟩, fun granted => granted.2.2.2.2⟩
        by_cases permanent : (self.object session.token).isPermanent = true
        · exact .inl permanent
        · exact .inr (not_lt.mp fun past => expired ⟨permanent, past⟩)
      · exact iff_of_false not_false fun granted => inactive granted.1

/-- **Authority ends with its token.** In every state of every run, a capability is granted
exactly to an active session in time whose token is in the token table, has not run out and has
the capability. -/
theorem capability_granted_iff (clock lifetimeSeconds : Time) (calls : List (SimCall Time)) :
    (simulation Time).Always (fun kernel => ∀ sessionId capBit forSession forToken,
        kernel.checkCapability sessionId capBit forSession forToken = true ↔
          Granted kernel sessionId capBit forSession forToken)
      (.init clock lifetimeSeconds) calls :=
  always_of_effects Live (fun _ _ live effect => live.effect effect)
    (fun _ live => live.checkCapability_iff) (.init clock lifetimeSeconds)
    (along_anySize calls)

/-! ### What runs after a tick -/

/-- Reclaiming changes no token's age. -/
theorem tokenExpired_reclaimToken (now : Time) (self : KernelSimulation Time)
    (tokenId other : Nat) :
    tokenExpired now ((self.reclaimToken tokenId).object other) =
      tokenExpired now (self.object other) :=
  field_eq (tokenExpired now) (self.object_reclaimToken tokenId) rfl other

/-- Reclaiming tokens leaves the others, as they are in time. -/
theorem Live.foldl_reclaimToken (live : Live self) (now : Time) (ids : List Nat) :
    Live (ids.foldl KernelSimulation.reclaimToken self) ∧
      (∀ id ∈ (ids.foldl KernelSimulation.reclaimToken self).tokens,
        id ∈ self.tokens ∧ id ∉ ids) ∧
      ∀ id, tokenExpired now ((ids.foldl KernelSimulation.reclaimToken self).object id) =
        tokenExpired now (self.object id) := by
  induction ids generalizing self with
  | nil => exact ⟨live, fun _ member => ⟨member, List.not_mem_nil⟩, fun _ => rfl⟩
  | cons first rest ih =>
      obtain ⟨after, kept, inTime⟩ := ih (live.reclaimToken first)
      refine ⟨after, fun id member => ?_, fun id => ?_⟩
      · obtain ⟨earlier, notLater⟩ := kept id member
        rw [reclaimToken_eq] at earlier
        obtain ⟨different, inTable⟩ := live.distinct.mem_erase_iff.mp earlier
        exact ⟨inTable, by rw [List.mem_cons, not_or]; exact ⟨different, notLater⟩⟩
      · exact (inTime id).trans (tokenExpired_reclaimToken now self first id)

/-- The thread belongs to an active session in time, whose token is in the table and has not run
out. -/
def Attended (kernel : KernelSimulation Time) (now : Time) (thread : SimThread) : Prop :=
  ∃ session ∈ kernel.sessions, session.id = thread.sessionId ∧ session.isActive = true ∧
    now ≤ session.expiry ∧ session.token ∈ kernel.tokens ∧
    tokenExpired now (kernel.object session.token) = false

/-- Once the sessions that are over have ended, the threads that are left are attended. -/
theorem Live.attended_endSessions (live : Live self) (now : Time)
    (inTime : ∀ id ∈ self.tokens, tokenExpired now (self.object id) = false) :
    let timedOut := self.sessions.filter fun session => session.isActive ∧ session.expiry < now
    let after := (timedOut.map SimSession.id).foldl endSession self
    ∀ thread ∈ after.scheduler.threads, Attended after now thread := by
  intro timedOut after thread member
  obtain ⟨session, sessionMember, named, active⟩ :=
    (live.effect (.endSessions : Effect anySize self after)).staffed thread member
  simp only [after, foldl_endSession] at sessionMember ⊢
  refine ⟨session, sessionMember, named, active, ?_⟩
  obtain ⟨earlier, earlierMember, rfl⟩ := List.mem_map.mp sessionMember
  split_ifs at active ⊢ with ended
  have backed := live.backed earlier earlierMember active
  refine ⟨not_lt.mp fun late => ended ?_, backed, inTime _ backed⟩
  exact List.mem_map_of_mem
    (List.mem_filter.mpr ⟨earlierMember, decide_eq_true ⟨active, late⟩⟩)

/-- After a tick each thread left, and the one dispatched, is attended. -/
theorem Live.attended_tick (live : Live self) (clock : Time) :
    (∀ thread ∈ (self.tick clock).2.scheduler.threads,
      Attended (self.tick clock).2 (self.currentTime clock) thread) ∧
    ∀ thread, (self.tick clock).1 = some thread →
      Attended (self.tick clock).2 (self.currentTime clock) thread := by
  have reclaimed := live.foldl_reclaimToken (self.currentTime clock)
    (self.tokens.filter fun tokenId =>
      tokenExpired (self.currentTime clock) (self.object tokenId))
  obtain ⟨after, kept, same⟩ := reclaimed
  have attended := after.attended_endSessions (self.currentTime clock) ?_
  · exact ⟨fun thread member => attended thread (Simulator.mem_scheduleNext member),
      fun thread ran => attended thread (Simulator.scheduleNext_eq_some ran)⟩
  · intro id member
    obtain ⟨earlier, notExpired⟩ := kept id member
    rw [same]
    exact Bool.eq_false_of_not_eq_true fun expired =>
      notExpired (List.mem_filter.mpr ⟨earlier, expired⟩)

/-- **Work ends with its session.** In every state of every run, whatever the clock shows and
however far it is moved, a tick runs a thread of an active session in time whose token is in the
token table and has not run out, if it runs one; and all threads that it leaves are such. -/
theorem tick_runs_attended (clock lifetimeSeconds : Time) (calls : List (SimCall Time)) :
    (simulation Time).Always (fun kernel => ∀ seconds clock,
        let moved :=
          { kernel with simulatedTimeOffset := kernel.simulatedTimeOffset + seconds }
        (∀ thread ∈ (moved.tick clock).2.scheduler.threads,
          Attended (moved.tick clock).2 (moved.currentTime clock) thread) ∧
        ∀ thread, (moved.tick clock).1 = some thread →
          Attended (moved.tick clock).2 (moved.currentTime clock) thread)
      (.init clock lifetimeSeconds) calls :=
  always_of_effects Live (fun _ _ live effect => live.effect effect)
    (fun kernel live _ clock =>
      (live.effect (.advance : Effect anySize kernel _)).attended_tick clock)
    (.init clock lifetimeSeconds) (along_anySize calls)

end Authority

/-! ### Privileges -/

section Privileges

variable [Clock Time] {allowed : KernelSimulation Time → Nat → Int → Prop}
  {self after : KernelSimulation Time}

/-- What a token may do and may pass on. -/
def rights (kernel : KernelSimulation Time) (id : Nat) :
    PrivilegeLevel × Option Nat × Nat × Bool :=
  ((kernel.object id).privilege, (kernel.object id).parentId, (kernel.object id).capabilities,
    (kernel.object id).isPermanent)

/-- Nothing changes the rights of a token, or removes a permanent one. -/
structure SameRights (kernel after : KernelSimulation Time) : Prop where
  nextTokenId : after.nextTokenId = kernel.nextTokenId
  rights : ∀ id, after.rights id = kernel.rights id
  permanent : ∀ id ∈ kernel.tokens, (kernel.object id).isPermanent = true → id ∈ after.tokens
  fewer : after.tokens ⊆ kernel.tokens

/-- An effect leaves all rights alone, or creates a token within its parent's. -/
theorem rights_cases (effect : Effect allowed self after) :
    SameRights self after ∨
    ∃ request clock, self.refusal request = none ∧
      after = self.addToken (newToken request clock) := by
  have updated {next : KernelSimulation Time} {tokenId : Nat} {token : SimToken Time} :=
    @field_eq Time _ (fun token => (token.privilege, token.parentId, token.capabilities,
      token.isPermanent)) self next tokenId token
  cases effect with
  | @create request clock permitted => exact .inr ⟨request, clock, permitted, rfl⟩
  | exhausted failed => exact .inl ⟨rfl, fun _ => rfl, fun _ member _ => member, fun _ => id⟩
  | allocate member capable quota fits answered =>
      exact .inl ⟨rfl, updated rfl rfl, fun _ member _ => member, fun _ => id⟩
  | start member few => exact .inl ⟨rfl, updated rfl rfl, fun _ member _ => member, fun _ => id⟩
  | spawn member active => exact .inl ⟨rfl, fun _ => rfl, fun _ member _ => member, fun _ => id⟩
  | schedule same => exact .inl ⟨rfl, fun _ => rfl, fun _ member _ => member, fun _ => id⟩
  | advance => exact .inl ⟨rfl, fun _ => rfl, fun _ member _ => member, fun _ => id⟩
  | @reclaim tokenId temporary =>
      rw [reclaimToken_eq]
      refine .inl ⟨rfl, updated rfl rfl, fun id member permanent => ?_, List.erase_subset⟩
      refine (List.mem_erase_of_ne ?_).mpr member
      rintro rfl
      exact absurd permanent (by rw [temporary]; exact Bool.false_ne_true)
  | endSessions =>
      rw [foldl_endSession]
      exact .inl ⟨rfl, fun _ => rfl, fun _ member _ => member, fun _ => id⟩

/-- The token was made for a parent. -/
def Child (kernel : KernelSimulation Time) (parent id : Nat) : Prop :=
  0 < id ∧ id < kernel.nextTokenId ∧ (kernel.object id).parentId = some parent

/-- A parent has at least the privilege of its child, and passes no dangerous capability on from
a user's token. -/
structure Permits (parent child : SimToken Time) : Prop where
  parental : parent.privilege ≠ .process
  below : parent.privilege.asU32 ≤ child.privilege.asU32
  harmless : parent.privilege = .user → child.capabilities &&& SimCapability.dangerous = 0

/-- Every token is a root token or permitted by its parent. -/
structure Descended (kernel : KernelSimulation Time) : Prop where
  created : ∀ id ∈ kernel.tokens, 0 < id ∧ id < kernel.nextTokenId
  root : 1 ∈ kernel.tokens ∧ (kernel.object 1).isPermanent = true
  orphans : ∀ id, 0 < id → id < kernel.nextTokenId → (kernel.object id).parentId = none →
    (kernel.object id).privilege = .root
  permits : ∀ parent id, Child kernel parent id →
    parent < kernel.nextTokenId ∧ Permits (kernel.object parent) (kernel.object id)

/-- What `create_token` permits. -/
theorem permits_of_refusal {request : SimTokenRequest Time} {clock : Time} {parentId : Nat}
    (permitted : self.refusal request = none) (named : request.parentId = some parentId) :
    parentId ∈ self.tokens ∧ Permits (self.object parentId) (newToken request clock) := by
  unfold refusal at permitted
  rw [named] at permitted
  cases found : self.token? parentId with
  | none => simp only [found, reduceCtorEq] at permitted
  | some parent =>
      obtain ⟨member, rfl⟩ := token?_eq_some found
      simp only [found] at permitted
      refine ⟨member, ?_⟩
      cases level : (self.object parentId).privilege with
      | root =>
          refine ⟨by rw [level]; nofun, ?_, by rw [level]; nofun⟩
          rw [level]
          exact BitVec.le_def.mpr (Nat.zero_le _)
      | admin =>
          simp only [level] at permitted
          split_ifs at permitted with isRoot
          refine ⟨by rw [level]; nofun, ?_, by rw [level]; nofun⟩
          rw [level]
          change _ ≤ request.privilege.asU32
          cases child : request.privilege with
          | root => exact absurd child isRoot
          | admin | user | process => decide
      | user =>
          simp only [level] at permitted
          split_ifs at permitted with other dangerous
          refine ⟨by rw [level]; nofun, ?_, fun _ => not_not.mp dangerous⟩
          rw [level]
          change _ ≤ request.privilege.asU32
          rw [not_not.mp other]
          decide
      | process => simp only [level, reduceCtorEq] at permitted

omit [Clock Time] in
/-- Once there are tokens, only root tokens are permitted without a parent. -/
theorem root_of_refusal {request : SimTokenRequest Time} {tokenId : Nat}
    (permitted : self.refusal request = none) (member : tokenId ∈ self.tokens)
    (unnamed : request.parentId = none) : request.privilege = .root := by
  unfold refusal at permitted
  simp only [unnamed] at permitted
  split_ifs at permitted with refused
  exact not_not.mp fun other => refused ⟨other, List.length_pos_of_mem member⟩

omit [Clock Time] in
/-- Whether a parent permits a token depends on their rights alone. -/
theorem Permits.of_rights {kernel next : KernelSimulation Time} {parent id : Nat}
    (sameParent : next.rights parent = kernel.rights parent)
    (same : next.rights id = kernel.rights id)
    (permits : Permits (kernel.object parent) (kernel.object id)) :
    Permits (next.object parent) (next.object id) := by
  simp only [rights, Prod.mk.injEq] at sameParent same
  obtain ⟨parental, below, harmless⟩ := permits
  rw [← sameParent.1] at parental below harmless
  rw [← same.1] at below
  rw [← same.2.2.1] at harmless
  exact ⟨parental, below, harmless⟩

namespace Descended

omit [Clock Time] in
/-- Effects that change no rights keep the tree. -/
theorem same (descended : Descended self) (same : SameRights self after) : Descended after := by
  obtain ⟨next, rights, permanent, fewer⟩ := same
  have fields (id : Nat) := Prod.mk.inj (rights id)
  refine ⟨fun id member => next ▸ descended.created id (fewer member), ?_, ?_, ?_⟩
  · refine ⟨permanent 1 descended.root.1 descended.root.2, ?_⟩
    have same := (Prod.mk.inj (Prod.mk.inj (fields 1).2).2).2
    exact same.trans descended.root.2
  · intro id positive older orphan
    rw [(fields id).1]
    rw [(Prod.mk.inj (fields id).2).1] at orphan
    exact descended.orphans id positive (next ▸ older) orphan
  · rintro parent id ⟨positive, older, named⟩
    rw [(Prod.mk.inj (fields id).2).1] at named
    obtain ⟨before, permits⟩ := descended.permits parent id ⟨positive, next ▸ older, named⟩
    exact ⟨next ▸ before, permits.of_rights (rights parent) (rights id)⟩

/-- A permitted token joins the tree. -/
theorem create (descended : Descended self) {request : SimTokenRequest Time} {clock : Time}
    (permitted : self.refusal request = none) :
    Descended (self.addToken (newToken request clock)) := by
  set token := newToken request clock with token_def
  have new : (self.addToken token).object self.nextTokenId = token := Function.update_self ..
  have old {id : Nat} (older : id < self.nextTokenId) :
      (self.addToken token).object id = self.object id :=
    Function.update_of_ne (Nat.ne_of_lt older) ..
  have rootCreated := descended.created 1 descended.root.1
  refine ⟨fun id member => ?_, ⟨List.mem_append_left _ descended.root.1, ?_⟩, ?_, ?_⟩
  · rcases List.mem_append.mp member with earlier | last
    · obtain ⟨positive, older⟩ := descended.created id earlier
      exact ⟨positive, Nat.lt_succ_of_lt older⟩
    · rw [List.mem_singleton.mp last]
      exact ⟨Nat.lt_trans Nat.zero_lt_one rootCreated.2, Nat.lt_succ_self _⟩
  · rw [old rootCreated.2]
    exact descended.root.2
  · intro id positive older orphan
    rcases Nat.lt_succ_iff_lt_or_eq.mp older with earlier | rfl
    · rw [old earlier] at orphan ⊢
      exact descended.orphans id positive earlier orphan
    · rw [new] at orphan ⊢
      exact root_of_refusal permitted descended.root.1 orphan
  · rintro parent id ⟨positive, older, named⟩
    rcases Nat.lt_succ_iff_lt_or_eq.mp older with earlier | rfl
    · rw [old earlier] at named
      obtain ⟨before, permits⟩ := descended.permits parent id ⟨positive, earlier, named⟩
      refine ⟨Nat.lt_succ_of_lt before, ?_⟩
      rw [old earlier, old before]
      exact permits
    · rw [new] at named
      obtain ⟨member, permits⟩ :=
        @permits_of_refusal _ _ self request clock parent permitted named
      obtain ⟨-, before⟩ := descended.created parent member
      refine ⟨Nat.lt_succ_of_lt before, ?_⟩
      rw [new, old before]
      exact permits

/-- One effect keeps the tree. -/
theorem effect (descended : Descended self) (effect : Effect allowed self after) :
    Descended after := by
  rcases rights_cases effect with same | ⟨request, clock, permitted, rfl⟩
  · exact descended.same same
  · exact descended.create permitted

/-- The first token has no parent. -/
theorem init (clock lifetimeSeconds : Time) :
    Descended (KernelSimulation.init clock lifetimeSeconds) where
  created := by
    intro id member
    rw [List.mem_singleton.mp member]
    exact ⟨Nat.zero_lt_one, Nat.lt_succ_self 1⟩
  root := ⟨List.mem_singleton.mpr rfl, rfl⟩
  orphans := fun _ _ _ _ => rfl
  permits := fun _ _ child => nomatch child.2.2

omit [Clock Time] in
/-- Along a chain of parents the privilege falls, and users and processes hand nothing on. -/
theorem of_chain (descended : Descended self) {ancestor id : Nat}
    (chain : Relation.TransGen (Child self) ancestor id) :
    Permits (self.object ancestor) (self.object id) := by
  induction chain with
  | single child => exact (descended.permits _ _ child).2
  | tail _ child ih =>
      have permits := (descended.permits _ _ child).2
      refine ⟨ih.parental, BitVec.le_trans ih.below permits.below, fun user => ?_⟩
      -- what a user's token permits is a process, and has no children
      refine permits.harmless ?_
      have below := ih.below
      have parental := permits.parental
      rw [user] at below
      revert below parental
      generalize (self.object _).privilege = privilege
      cases privilege <;> decide

end Descended

/-- **Privileges fall.** In every state of every run, a token that was ever made has no parent
only if it is a root token; and along every chain of parents, whether they are still in the table
or not, the privilege does not rise, no process is a parent, and no dangerous capability comes
from a user's token. -/
theorem privileges_fall (clock lifetimeSeconds : Time)
    (calls : List (SimCall Time)) :
    (simulation Time).Always (fun kernel =>
        (∀ id, 0 < id → id < kernel.nextTokenId → (kernel.object id).parentId = none →
          (kernel.object id).privilege = .root) ∧
        ∀ ancestor id, Relation.TransGen (Child kernel) ancestor id →
          Permits (kernel.object ancestor) (kernel.object id))
      (.init clock lifetimeSeconds) calls :=
  always_of_effects Descended (fun _ _ descended effect => descended.effect effect)
    (fun _ descended => ⟨descended.orphans, fun _ _ chain => descended.of_chain chain⟩)
    (.init clock lifetimeSeconds) (along_anySize calls)

end Privileges

/-! ### Run counts -/

section Counts

variable [Clock Time] {allowed : KernelSimulation Time → Nat → Int → Prop}
  {self after : KernelSimulation Time}

/-- The tokens of the sessions, in the order in which they were started. -/
def started (kernel : KernelSimulation Time) : List Nat := kernel.sessions.map SimSession.token

omit [Clock Time] in
/-- The sessions of a token, counted by the sessions started. -/
theorem length_sessionsOf (tokenId : Nat) :
    (self.sessionsOf tokenId).length = self.started.count tokenId := by
  rw [sessionsOf, started, List.length_map, ← List.countP_eq_length_filter, List.count,
    List.countP_map]
  rfl

omit [Clock Time] in
/-- Ending sessions changes nobody's token. -/
theorem started_endAll (ids : List Nat) (sessions : List (SimSession Time)) :
    (endAll ids sessions).map SimSession.token = sessions.map SimSession.token := by
  rw [endAll, List.map_map]
  refine List.map_congr_left fun session _ => ?_
  rw [Function.comp_apply]
  split_ifs <;> rfl

/-- Nothing is started, and nothing counted. -/
structure SameRuns (kernel after : KernelSimulation Time) : Prop where
  nextTokenId : after.nextTokenId = kernel.nextTokenId
  started : after.started = kernel.started
  runCount : ∀ id, (after.object id).runCount = (kernel.object id).runCount

/-- An effect counts no run, creates a token without runs, or starts a session. -/
theorem runs_cases (effect : Effect allowed self after) :
    SameRuns self after ∨
    (∃ request clock, after = self.addToken (newToken request clock)) ∨
    ∃ tokenId expiry, tokenId ∈ self.tokens ∧ (self.object tokenId).runCount < 2 ∧
      after = self.startSession tokenId expiry := by
  cases effect with
  | @create request clock permitted => exact .inr (.inl ⟨request, clock, rfl⟩)
  | exhausted failed => exact .inl ⟨rfl, rfl, fun _ => rfl⟩
  | allocate member capable quota fits answered =>
      exact .inl ⟨rfl, rfl, field_eq SimToken.runCount rfl rfl⟩
  | @start tokenId expiry member few => exact .inr (.inr ⟨tokenId, expiry, member, few, rfl⟩)
  | spawn member active => exact .inl ⟨rfl, rfl, fun _ => rfl⟩
  | schedule same => exact .inl ⟨rfl, rfl, fun _ => rfl⟩
  | advance => exact .inl ⟨rfl, rfl, fun _ => rfl⟩
  | @reclaim tokenId temporary =>
      rw [reclaimToken_eq]
      exact .inl ⟨rfl, started_endAll _ _, field_eq SimToken.runCount rfl rfl⟩
  | endSessions =>
      rw [foldl_endSession]
      exact .inl ⟨rfl, started_endAll _ _, fun _ => rfl⟩

/-- The run counts of the tokens made so far say how many sessions they have had. -/
structure Counted (kernel : KernelSimulation Time) : Prop where
  live : Live kernel
  older : ∀ id ∈ kernel.started, id < kernel.nextTokenId
  count : ∀ id < kernel.nextTokenId,
    kernel.started.count id = (kernel.object id).runCount ∧ (kernel.object id).runCount ≤ 2

namespace Counted

/-- A new token has no session yet. -/
theorem create (counted : Counted self) (request : SimTokenRequest Time) (clock : Time) :
    Counted (self.addToken (newToken request clock)) where
  live := counted.live.addToken _
  older := fun id member => Nat.lt_succ_of_lt (counted.older id member)
  count := by
    intro id below
    rcases Nat.lt_succ_iff_lt_or_eq.mp below with earlier | rfl
    · have kept : (self.addToken (newToken request clock)).object id = self.object id :=
        Function.update_of_ne (Nat.ne_of_lt earlier) ..
      rw [kept]
      exact counted.count id earlier
    · -- the sessions so far are those of older tokens
      have new : (self.addToken (newToken request clock)).object self.nextTokenId =
        newToken request clock := Function.update_self ..
      have none_started : self.started.count self.nextTokenId = 0 :=
        List.count_eq_zero.mpr fun member => Nat.lt_irrefl _ (counted.older _ member)
      rw [new]
      exact ⟨none_started, Nat.zero_le 2⟩

omit [Clock Time] in
/-- A started session is counted once. -/
theorem start (counted : Counted self) {tokenId : Nat} (member : tokenId ∈ self.tokens)
    (few : (self.object tokenId).runCount < 2) (expiry : Time) :
    Counted (self.startSession tokenId expiry) := by
  have grown : (self.startSession tokenId expiry).started = self.started ++ [tokenId] :=
    List.map_append
  refine ⟨counted.live.startSession member expiry, fun id inside => ?_, fun id below => ?_⟩
  · rw [grown] at inside
    rcases List.mem_append.mp inside with earlier | new
    · exact counted.older id earlier
    · exact (List.mem_singleton.mp new) ▸ counted.live.older tokenId member
  · obtain ⟨count, atMost⟩ := counted.count id below
    rw [grown, List.count_append]
    by_cases same : id = tokenId
    · subst same
      have once : (self.startSession id expiry).object id =
          { self.object id with runCount := (self.object id).runCount + 1 } :=
        Function.update_self ..
      rw [once, count, List.count_singleton_self]
      exact ⟨rfl, few⟩
    · have kept : (self.startSession tokenId expiry).object id = self.object id :=
        Function.update_of_ne same ..
      have other : List.count id [tokenId] = 0 :=
        List.count_eq_zero.mpr fun inside => same (List.mem_singleton.mp inside)
      rw [kept, other]
      exact ⟨count, atMost⟩

/-- One effect keeps the count. -/
theorem effect (counted : Counted self) (effect : Effect allowed self after) : Counted after := by
  have live := counted.live.effect effect
  rcases runs_cases effect with ⟨next, started, runCount⟩ | ⟨request, clock, rfl⟩ |
    ⟨tokenId, expiry, member, few, rfl⟩
  · refine ⟨live, fun id member => ?_, fun id below => ?_⟩
    · rw [next]
      exact counted.older id (started ▸ member)
    · rw [started, runCount]
      exact counted.count id (next ▸ below)
  · exact counted.create request clock
  · exact counted.start member few expiry

/-- No session has been started at first. -/
theorem init (clock lifetimeSeconds : Time) :
    Counted (KernelSimulation.init clock lifetimeSeconds) where
  live := .init clock lifetimeSeconds
  older := nofun
  count := fun _ _ => ⟨rfl, Nat.zero_le 2⟩

end Counted

/-- **Two runs at most.** In every state of every run, a token that was ever made has had as many
sessions as it counts, ended ones among them, and at most two. -/
theorem two_runs_at_most (clock lifetimeSeconds : Time) (calls : List (SimCall Time)) :
    (simulation Time).Always (fun kernel => ∀ id < kernel.nextTokenId,
        (kernel.sessionsOf id).length = (kernel.object id).runCount ∧
          (kernel.sessionsOf id).length ≤ 2)
      (.init clock lifetimeSeconds) calls :=
  always_of_effects Counted (fun _ _ counted effect => counted.effect effect)
    (fun _ counted id below => by
      obtain ⟨count, atMost⟩ := counted.count id below
      rw [length_sessionsOf]
      exact ⟨count, count ▸ atMost⟩)
    (.init clock lifetimeSeconds) (along_anySize calls)

end Counts

end KernelSimulation

end Lofita.Kernel
