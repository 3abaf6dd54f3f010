import Mathlib.Tactic.TypeStar

/-! # Fallible stateful computations

`EStateM` computations keep the state they fail in. The rules here take a
successful computation apart (`ok_bind`), carry an invariant through a loop over
an initial range (`foldRange_ok`), say how a composition and a loop can end
(`Avoids`, `Succeeds`, `Fails`) and in which states (`Keeps`, `Ensures`), and say
that a computation looks at no more of the state than a view of it (`Respects`), or
at nothing of it (`Silent`).
-/

namespace Lofita.Foundation.Fallible

open EStateM (Result)

variable {ε σ α β : Type}

/-- A composition succeeds exactly when both parts do. -/
theorem ok_bind {first : EStateM ε σ α} {next : α → EStateM ε σ β} {start final : σ} {result : β} :
    (first >>= next) start = .ok result final ↔
      ∃ value middle, first start = .ok value middle ∧ next value middle = .ok result final := by
  change EStateM.bind first next start = _ ↔ _
  unfold EStateM.bind
  cases first start with
  | ok value middle =>
      constructor
      · intro succeeded
        exact ⟨value, middle, rfl, succeeded⟩
      · rintro ⟨_, _, same, succeeded⟩
        cases same
        exact succeeded
  | error _ _ =>
      constructor
      · intro succeeded
        cases succeeded
      · rintro ⟨_, _, same, _⟩
        cases same

/-- A value given back is the result, in the state there was. -/
theorem ok_pure {value result : α} {start final : σ} :
    (pure value : EStateM ε σ α) start = .ok result final ↔ value = result ∧ start = final := by
  constructor
  · intro same
    cases same
    exact ⟨rfl, rfl⟩
  · rintro ⟨rfl, rfl⟩
    rfl

/-- A run has a value exactly when it ends well. -/
theorem run'_eq_some {computation : EStateM ε σ α} {start : σ} {value : α} :
    computation.run' start = some value ↔ ∃ final, computation start = .ok value final := by
  unfold EStateM.run' EStateM.run
  cases computation start with
  | ok returned final =>
      constructor
      · rintro ⟨⟩
        exact ⟨final, rfl⟩
      · rintro ⟨_, ⟨⟩⟩
        rfl
  | error _ _ =>
      constructor
      · rintro ⟨⟩
      · rintro ⟨_, ⟨⟩⟩

/-- A composition fails where its first part does. -/
theorem error_bind {first : EStateM ε σ α} {error : ε} {start final : σ}
    (failed : first start = .error error final) (next : α → EStateM ε σ β) :
    (first >>= next) start = .error error final := by
  change EStateM.bind first next start = _
  unfold EStateM.bind
  rw [failed]

theorem get_bind (next : σ → EStateM ε σ β) (start : σ) :
    (get >>= next) start = next start start := rfl

theorem set_bind (middle : σ) (next : PUnit → EStateM ε σ β) (start : σ) :
    (set middle >>= next) start = next ⟨⟩ middle := rfl

/-- The value and the final state of a success, as read by a function. -/
def readOk (read : α → σ → β) : Result ε σ α → Option β
  | .ok value final => some (read value final)
  | .error _ _ => none

/-- What was read of a result was read of a good one. -/
theorem ok_of_readOk {read : α → σ → β} {result : Result ε σ α} {seen : β}
    (same : readOk read result = some seen) :
    ∃ value final, result = .ok value final ∧ read value final = seen := by
  cases result with
  | ok value final => exact ⟨value, final, rfl, Option.some.inj same⟩
  | error _ _ => cases same

/-! ### Loops -/

/-- The loop over the numbers below a bound, with an accumulator. -/
def foldRange (body : Nat → β → EStateM ε σ β) (initial : β) : Nat → EStateM ε σ β
  | 0 => pure initial
  | count + 1 => foldRange body initial count >>= body count

/-- **The loop rule.** What every successful iteration preserves holds after a
successful loop. -/
theorem foldRange_ok (invariant : Nat → β → σ → Prop) {body : Nat → β → EStateM ε σ β}
    {initial result : β} {start final : σ} {bound : Nat} (initially : invariant 0 initial start)
    (preserves : ∀ {count accumulator before accumulator' after}, count < bound →
      invariant count accumulator before →
      body count accumulator before = .ok accumulator' after →
      invariant (count + 1) accumulator' after)
    (done : foldRange body initial bound start = .ok result final) :
    invariant bound result final := by
  induction bound generalizing result final with
  | zero =>
      obtain ⟨rfl, rfl⟩ := ok_pure.mp done
      exact initially
  | succ count ih =>
      obtain ⟨accumulator, middle, earlier, last⟩ := ok_bind.mp done
      exact preserves (Nat.lt_succ_self count)
        (ih (fun below => preserves (Nat.lt_succ_of_lt below)) earlier) last

/-! ### How computations end -/

/-- The computation never ends with this error. -/
def Avoids (error : ε) (computation : EStateM ε σ α) : Prop :=
  ∀ start final, computation start ≠ .error error final

/-- The computation succeeds in every state. -/
def Succeeds (computation : EStateM ε σ α) : Prop :=
  ∀ start, ∃ value final, computation start = .ok value final

/-- The computation ends with this error in every state. -/
def Fails (error : ε) (computation : EStateM ε σ α) : Prop :=
  ∀ start, ∃ final, computation start = .error error final

/-- The computation may give this value. -/
def Gives (computation : EStateM ε σ α) (value : α) : Prop :=
  ∃ start final, computation start = .ok value final

/-- The error of a failure. -/
def stopOf : Result ε σ α → Option ε
  | .ok _ _ => none
  | .error error _ => some error

variable {error other : ε} {first : EStateM ε σ α} {next : α → EStateM ε σ β}

/-- A computation that avoids an error does not stop with it. -/
theorem Avoids.stopOf_ne {computation : EStateM ε σ α} (avoids : Avoids error computation)
    (start : σ) : stopOf (computation start) ≠ some error := by
  intro same
  cases done : computation start with
  | ok value final =>
      rw [done] at same
      cases same
  | error stop final =>
      rw [done] at same
      cases same
      exact avoids start final done

/-- A computation that fails with an error does not avoid it. -/
theorem Fails.not_avoids {computation : EStateM ε σ α} (fails : Fails error computation)
    (start : σ) : ¬ Avoids error computation := by
  obtain ⟨final, failed⟩ := fails start
  exact fun avoids => avoids start final failed

theorem Avoids.pure (value : α) : Avoids error (pure value : EStateM ε σ α) :=
  fun _ _ same => (nomatch same)

theorem Avoids.throw (different : other ≠ error) :
    Avoids error (throw other : EStateM ε σ α) := by
  intro start final same
  cases same
  exact different rfl

theorem Succeeds.pure (value : α) : Succeeds (pure value : EStateM ε σ α) :=
  fun start => ⟨value, start, rfl⟩

theorem Fails.throw (error : ε) : Fails error (throw error : EStateM ε σ α) :=
  fun start => ⟨start, rfl⟩

/-- A computation that succeeds avoids every error. -/
theorem Succeeds.avoids {computation : EStateM ε σ α} (succeeds : Succeeds computation) :
    Avoids error computation := by
  intro start final same
  obtain ⟨value, other, done⟩ := succeeds start
  cases done.symm.trans same

/-- Two computations in a row avoid an error that each avoids where it is reached. -/
theorem Avoids.bind (here : Avoids error first)
    (later : ∀ value, Gives first value → Avoids error (next value)) :
    Avoids error (first >>= next) := by
  intro start final
  change EStateM.bind first next start ≠ _
  unfold EStateM.bind
  cases done : first start with
  | ok value middle => exact later value ⟨start, middle, done⟩ middle final
  | error stop middle =>
      intro same
      cases same
      exact here start final done

/-- Two computations in a row succeed if each does where it is reached. -/
theorem Succeeds.bind (here : Succeeds first)
    (later : ∀ value, Gives first value → Succeeds (next value)) : Succeeds (first >>= next) := by
  intro start
  obtain ⟨value, middle, done⟩ := here start
  obtain ⟨result, final, finished⟩ := later value ⟨start, middle, done⟩ middle
  exact ⟨result, final, ok_bind.mpr ⟨value, middle, done, finished⟩⟩

/-- A composition fails when its first part does. -/
theorem Fails.bind (here : Fails error first) (next : α → EStateM ε σ β) :
    Fails error (first >>= next) := by
  intro start
  obtain ⟨final, failed⟩ := here start
  refine ⟨final, ?_⟩
  change EStateM.bind first next start = _
  unfold EStateM.bind
  rw [failed]

/-- A composition fails when its first part succeeds and its second part fails. -/
theorem Succeeds.bind_fails (here : Succeeds first)
    (later : ∀ value, Gives first value → Fails error (next value)) :
    Fails error (first >>= next) := by
  intro start
  obtain ⟨value, middle, done⟩ := here start
  obtain ⟨final, failed⟩ := later value ⟨start, middle, done⟩ middle
  refine ⟨final, ?_⟩
  change EStateM.bind first next start = _
  unfold EStateM.bind
  rw [done]
  exact failed

/-- A loop avoids an error that each round avoids where it is reached. -/
theorem Avoids.foldRange {body : Nat → β → EStateM ε σ β} {initial : β} {bound : Nat}
    (each : ∀ count < bound, ∀ accumulator,
      Gives (Fallible.foldRange body initial count) accumulator →
        Avoids error (body count accumulator)) :
    Avoids error (Fallible.foldRange body initial bound) := by
  induction bound with
  | zero => exact .pure initial
  | succ count ih =>
      exact (ih fun earlier below => each earlier (Nat.lt_succ_of_lt below)).bind
        (each count (Nat.lt_succ_self count))

/-- A loop succeeds if each round does. -/
theorem Succeeds.foldRange {body : Nat → β → EStateM ε σ β} {initial : β} {bound : Nat}
    (each : ∀ count < bound, ∀ accumulator, Succeeds (body count accumulator)) :
    Succeeds (Fallible.foldRange body initial bound) := by
  induction bound with
  | zero => exact .pure initial
  | succ count ih =>
      exact (ih fun earlier below => each earlier (Nat.lt_succ_of_lt below)).bind
        fun accumulator _ => each count (Nat.lt_succ_self count) accumulator

/-- A loop fails when it succeeds up to an iteration and that iteration fails. -/
theorem Fails.foldRange {body : Nat → β → EStateM ε σ β} {initial : β} {count bound : Nat}
    (before : Succeeds (Fallible.foldRange body initial count))
    (here : ∀ accumulator, Fails error (body count accumulator)) (below : count < bound) :
    Fails error (Fallible.foldRange body initial bound) := by
  induction bound with
  | zero => exact absurd below (Nat.not_lt_zero count)
  | succ last ih =>
      rcases Nat.lt_succ_iff_lt_or_eq.mp below with earlier | rfl
      · exact (ih earlier).bind _
      · exact before.bind_fails fun accumulator _ => here accumulator

/-! ### Invariants -/

/-- The state a computation ends in, whether it succeeds or fails. -/
def finalState : Result ε σ α → σ
  | .ok _ final => final
  | .error _ final => final

/-- A result that stopped with an error is that error. -/
theorem error_of_stopOf {result : Result ε σ α} (stopped : stopOf result = some error) :
    result = .error error (finalState result) := by
  cases result with
  | ok _ _ => cases stopped
  | error _ _ =>
      cases stopped
      rfl

/-- The computation keeps an invariant of the state, also when it fails. -/
def Keeps (invariant : σ → Prop) (computation : EStateM ε σ α) : Prop :=
  ∀ start, invariant start → invariant (finalState (computation start))

/-- The computation ends in states of this kind only. -/
def Ensures (property : σ → Prop) (computation : EStateM ε σ α) : Prop :=
  ∀ start, property (finalState (computation start))

variable {invariant : σ → Prop}

theorem Keeps.pure (value : α) : Keeps invariant (pure value : EStateM ε σ α) :=
  fun _ holds => holds

theorem Keeps.throw (error : ε) : Keeps invariant (throw error : EStateM ε σ α) :=
  fun _ holds => holds

/-- A change that keeps an invariant. -/
theorem Keeps.modify {change : σ → σ}
    (keeps : ∀ state, invariant state → invariant (change state)) :
    Keeps invariant (modify change : EStateM ε σ PUnit) :=
  fun start holds => keeps start holds

/-- An invariant that holds after the first part of a composition holds at its end
if the second part keeps it. -/
theorem finalState_bind {start : σ} (middle : invariant (finalState (first start)))
    (later : ∀ value, Keeps invariant (next value)) :
    invariant (finalState ((first >>= next) start)) := by
  change invariant (finalState (EStateM.bind first next start))
  unfold EStateM.bind
  cases done : first start with
  | ok value state =>
      rw [done] at middle
      exact later value state middle
  | error _ _ =>
      rw [done] at middle
      exact middle

/-- Two computations in a row keep what each keeps. -/
theorem Keeps.bind (here : Keeps invariant first) (later : ∀ value, Keeps invariant (next value)) :
    Keeps invariant (first >>= next) :=
  fun start holds => finalState_bind (here start holds) later

/-- A computation that looks at the state it runs in. -/
theorem Keeps.get_bind {next : σ → EStateM ε σ β}
    (later : ∀ state, invariant state → invariant (finalState (next state state))) :
    Keeps invariant (get >>= next) :=
  later

/-- What the first computation ensures, the second keeps. -/
theorem Ensures.bind (here : Ensures invariant first)
    (later : ∀ value, Keeps invariant (next value)) : Ensures invariant (first >>= next) :=
  fun start => finalState_bind (here start) later

/-- A part that succeeds may come before the one that ends in these states. -/
theorem Ensures.after (succeeds : Succeeds first)
    (later : ∀ value, Ensures invariant (next value)) : Ensures invariant (first >>= next) := by
  intro start
  obtain ⟨value, middle, done⟩ := succeeds start
  change invariant (finalState (EStateM.bind first next start))
  unfold EStateM.bind
  rw [done]
  exact later value middle

/-! ### Views of the state -/

variable {view : Type}

/-- Two outcomes with the same result and the same view of the state. -/
def SameView (look : σ → view) : Result ε σ α → Result ε σ α → Prop
  | .ok first start, .ok second start' => first = second ∧ look start = look start'
  | .error first start, .error second start' => first = second ∧ look start = look start'
  | _, _ => False

/-- The result, and the view of the state it leaves, depend on the view of the
state it starts in only. -/
def Respects (look : σ → view) (computation : EStateM ε σ α) : Prop :=
  ∀ first second, look first = look second →
    SameView look (computation first) (computation second)

variable {look : σ → view}

theorem Respects.pure (value : α) : Respects look (pure value : EStateM ε σ α) :=
  fun _ _ same => ⟨rfl, same⟩

theorem Respects.throw (error : ε) : Respects look (throw error : EStateM ε σ α) :=
  fun _ _ same => ⟨rfl, same⟩

/-- Two computations in a row depend on what each depends on. -/
theorem Respects.bind (firstRespects : Respects look first)
    (nextRespects : ∀ value, Respects look (next value)) : Respects look (first >>= next) := by
  intro start start' same
  have firstSame := firstRespects start start' same
  change SameView look (EStateM.bind first next start) (EStateM.bind first next start')
  unfold EStateM.bind
  cases left : first start with
  | ok value middle =>
      cases right : first start' with
      | ok value' middle' =>
          rw [left, right] at firstSame
          obtain ⟨rfl, sameMiddle⟩ := firstSame
          exact nextRespects value middle middle' sameMiddle
      | error _ _ =>
          rw [left, right] at firstSame
          exact firstSame.elim
  | error error middle =>
      cases right : first start' with
      | ok _ _ =>
          rw [left, right] at firstSame
          exact firstSame.elim
      | error _ _ =>
          rw [left, right] at firstSame
          exact firstSame

/-- A loop depends on what its rounds depend on. -/
theorem Respects.foldRange {body : Nat → β → EStateM ε σ β}
    (bodyRespects : ∀ count accumulator, Respects look (body count accumulator)) (initial : β)
    (bound : Nat) : Respects look (foldRange body initial bound) := by
  induction bound with
  | zero => exact .pure initial
  | succ count ih => exact ih.bind (bodyRespects count)

/-- A computation that respects a view succeeds alike in states of one view. -/
theorem Respects.ok {computation : EStateM ε σ α} (respects : Respects look computation)
    {start start' final : σ} (same : look start = look start') {result : α}
    (succeeded : computation start = .ok result final) :
    ∃ final', computation start' = .ok result final' ∧ look final = look final' := by
  have outcome := respects start start' same
  rw [succeeded] at outcome
  cases other : computation start' with
  | ok result' final' =>
      rw [other] at outcome
      obtain ⟨rfl, sameFinal⟩ := outcome
      exact ⟨final', rfl, sameFinal⟩
  | error _ _ =>
      rw [other] at outcome
      exact outcome.elim

/-! ### Computations that leave the state alone -/

/-- The computation that ends like this in every state. -/
def lift (outcome : Except ε α) : EStateM ε σ α := fun start =>
  match outcome with
  | .ok value => .ok value start
  | .error error => .error error start

/-- The computation neither looks at the state nor changes it. -/
def Silent (computation : EStateM ε σ α) : Prop := ∃ outcome, computation = lift outcome

theorem Silent.pure (value : α) : Silent (pure value : EStateM ε σ α) := ⟨.ok value, rfl⟩

theorem Silent.throw (error : ε) : Silent (throw error : EStateM ε σ α) := ⟨.error error, rfl⟩

/-- Two silent computations in a row are silent. -/
theorem Silent.bind (here : Silent first) (later : ∀ value, Silent (next value)) :
    Silent (first >>= next) := by
  obtain ⟨outcome | value, rfl⟩ := here
  · exact ⟨.error outcome, rfl⟩
  · obtain ⟨result, same⟩ := later value
    refine ⟨result, ?_⟩
    change next value = _
    exact same

/-- A loop of silent rounds is silent. -/
theorem Silent.foldRange {body : Nat → β → EStateM ε σ β}
    (each : ∀ count accumulator, Silent (body count accumulator)) (initial : β) (bound : Nat) :
    Silent (foldRange body initial bound) := by
  induction bound with
  | zero => exact .pure initial
  | succ count ih => exact ih.bind (each count)

/-- A silent computation keeps every invariant. -/
theorem Silent.keeps {computation : EStateM ε σ α} (silent : Silent computation) :
    Keeps invariant computation := by
  obtain ⟨outcome | value, rfl⟩ := silent
  · exact fun _ holds => holds
  · exact fun _ holds => holds

/-! ### The course of a loop -/

section Course

variable {body body' : Nat → β → EStateM ε σ β} {initial accumulator : β} {count bound : Nat}
  {start middle final : σ}

/-- After a computation that ended well the next one runs. -/
theorem bind_of_ok {value : α} (done : first start = .ok value middle) :
    (first >>= next) start = next value middle := by
  change EStateM.bind first next start = _
  unfold EStateM.bind
  rw [done]

/-- After an error nothing runs. -/
theorem bind_of_error (failed : first start = .error error final) :
    (first >>= next) start = .error error final := by
  change EStateM.bind first next start = _
  unfold EStateM.bind
  rw [failed]

/-- After rounds that ended well the next round runs. -/
theorem foldRange_succ_of_ok (done : foldRange body initial count start = .ok accumulator middle) :
    foldRange body initial (count + 1) start = body count accumulator middle :=
  bind_of_ok done

/-- A loop that fails in its first iterations fails. -/
theorem foldRange_of_error (failed : foldRange body initial count start = .error error final)
    (le : count ≤ bound) : foldRange body initial bound start = .error error final := by
  induction le with
  | refl => exact failed
  | step _ ih => exact bind_of_error ih

/-- An invariant that holds after the first iterations holds after the loop. -/
theorem finalState_foldRange
    (holds : invariant (finalState (foldRange body initial count start)))
    (keeps : ∀ index accumulator, Keeps invariant (body index accumulator)) (le : count ≤ bound) :
    invariant (finalState (foldRange body initial bound start)) := by
  induction le with
  | refl => exact holds
  | step _ ih => exact finalState_bind ih (keeps _)

/-- A loop keeps what its rounds keep. -/
theorem Keeps.foldRange (keeps : ∀ index accumulator, Keeps invariant (body index accumulator))
    (initial : β) (bound : Nat) : Keeps invariant (foldRange body initial bound) := by
  intro start holds
  have initially : invariant (finalState (Fallible.foldRange body initial 0 start)) := holds
  exact finalState_foldRange initially keeps (Nat.zero_le bound)

end Course

end Lofita.Foundation.Fallible
