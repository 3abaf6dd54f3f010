import Mathlib.Tactic.TypeStar

/-! # Runs of a deterministic system

A system answers one call at a time by moving to its next state. A run is a
list of calls made one after the other. A condition on a call may look at the
state the call is made in; `System.Along` says that every call of a run meets
such a condition, and `System.Always` that every state a run goes through is
good. Properties of whole runs are obtained from properties of one step by the
rules `System.invariant_run`, `System.along_of_invariant`,
`System.always_of_invariant`, `System.along_congr` and `System.always_iff_along`.
-/

namespace Lofita.Foundation

/-- A deterministic system: the state a call leads to. -/
structure System (State Call : Type*) where
  step : State → Call → State

namespace System

variable {State Call : Type*} (system : System State Call)

/-- The state after a list of calls. -/
def run (state : State) (calls : List Call) : State :=
  calls.foldl system.step state

@[simp] theorem run_nil (state : State) : system.run state [] = state := rfl

@[simp] theorem run_cons (state : State) (call : Call) (rest : List Call) :
    system.run state (call :: rest) = system.run (system.step state call) rest := rfl

theorem run_append (state : State) (earlier later : List Call) :
    system.run state (earlier ++ later) = system.run (system.run state earlier) later :=
  List.foldl_append

/-- Every call of the run meets the condition in the state it is made in. -/
def Along (guard : State → Call → Prop) : State → List Call → Prop
  | _, [] => True
  | state, call :: rest => guard state call ∧ Along guard (system.step state call) rest

/-- Every state of the run is good, the first and the last included. -/
def Always (good : State → Prop) : State → List Call → Prop
  | state, [] => good state
  | state, call :: rest => good state ∧ Always good (system.step state call) rest

instance decidableAlong (guard : State → Call → Prop) [∀ state call, Decidable (guard state call)] :
    ∀ (state : State) (calls : List Call), Decidable (system.Along guard state calls)
  | _, [] => .isTrue trivial
  | state, call :: rest =>
      @instDecidableAnd _ _ inferInstance (decidableAlong guard (system.step state call) rest)

variable {system} {guard goal : State → Call → Prop} {good invariant : State → Prop}

/-- A condition on a part of the state that is a system of its own. -/
theorem along_part {Whole : Type*} {whole : System Whole Call} (part : Whole → State)
    (commutes : ∀ state call, part (whole.step state call) = system.step (part state) call)
    {state : Whole} {calls : List Call} :
    whole.Along (fun state call => guard (part state) call) state calls ↔
      system.Along guard (part state) calls := by
  induction calls generalizing state with
  | nil => exact Iff.rfl
  | cons call rest ih => simp only [Along, ih, commutes]

theorem Along.mono (weaker : ∀ state call, guard state call → goal state call) {state : State}
    {calls : List Call} (along : system.Along guard state calls) :
    system.Along goal state calls := by
  induction calls generalizing state with
  | nil => trivial
  | cons call rest ih => exact ⟨weaker state call along.1, ih along.2⟩

/-- A condition that every call of the run meets in every state. -/
theorem along_of_forall {state : State} {calls : List Call}
    (every : ∀ call ∈ calls, ∀ state, guard state call) : system.Along guard state calls := by
  induction calls generalizing state with
  | nil => trivial
  | cons call rest ih =>
      exact ⟨every call List.mem_cons_self state,
        ih fun later member => every later (List.mem_cons_of_mem call member)⟩

theorem along_and {state : State} {calls : List Call} :
    system.Along (fun state call => guard state call ∧ goal state call) state calls ↔
      system.Along guard state calls ∧ system.Along goal state calls := by
  induction calls generalizing state with
  | nil => simp only [Along, and_self]
  | cons call rest ih =>
      simp only [Along, ih]
      exact and_and_and_comm

/-- **The invariant rule.** What every guarded step preserves holds after every
guarded run. -/
theorem invariant_run (invariant : State → Prop)
    (preserves : ∀ state call, invariant state → guard state call →
      invariant (system.step state call))
    {state : State} {calls : List Call} (initial : invariant state)
    (along : system.Along guard state calls) : invariant (system.run state calls) := by
  induction calls generalizing state with
  | nil => exact initial
  | cons call rest ih => exact ih (preserves state call initial along.1) along.2

/-- A guarded step from a state satisfying an invariant may be given any
property that the invariant and the guard imply. -/
theorem along_of_invariant
    (preserves : ∀ state call, invariant state → guard state call →
      invariant (system.step state call))
    (implies : ∀ state call, invariant state → guard state call → goal state call)
    {state : State} {calls : List Call} (initial : invariant state)
    (along : system.Along guard state calls) : system.Along goal state calls := by
  induction calls generalizing state with
  | nil => trivial
  | cons call rest ih =>
      exact ⟨implies state call initial along.1,
        ih (preserves state call initial along.1) along.2⟩

/-- What an invariant of all guarded steps implies holds in every state of a
guarded run. -/
theorem always_of_invariant (invariant : State → Prop)
    (preserves : ∀ state call, invariant state → guard state call →
      invariant (system.step state call))
    (implies : ∀ state, invariant state → good state) {state : State} {calls : List Call}
    (initial : invariant state) (along : system.Along guard state calls) :
    system.Always good state calls := by
  induction calls generalizing state with
  | nil => exact implies state initial
  | cons call rest ih =>
      exact ⟨implies state initial, ih (preserves state call initial along.1) along.2⟩

/-- Two conditions that agree wherever an invariant of all guarded steps holds
agree along every guarded run. -/
theorem along_congr (invariant : State → Prop) {first second : State → Call → Prop}
    (preserves : ∀ state call, invariant state → guard state call →
      invariant (system.step state call))
    (agree : ∀ state call, invariant state → guard state call →
      (first state call ↔ second state call))
    {state : State} {calls : List Call} (initial : invariant state)
    (along : system.Along guard state calls) :
    system.Along first state calls ↔ system.Along second state calls := by
  induction calls generalizing state with
  | nil => exact Iff.rfl
  | cons call rest ih =>
      exact and_congr (agree state call initial along.1)
        (ih (preserves state call initial along.1) along.2)

/-- A run that goes only through good states starts in one. -/
theorem Always.start {state : State} {calls : List Call} (always : system.Always good state calls) :
    good state := by
  cases calls with
  | nil => exact always
  | cons _ _ => exact always.1

/-- A run that goes only through good states ends in one. -/
theorem Always.last {state : State} {calls : List Call} (always : system.Always good state calls) :
    good (system.run state calls) := by
  induction calls generalizing state with
  | nil => exact always
  | cons call rest ih => exact ih always.2

/-- **The exactness rule.** When a step from a good state leads to a good state
exactly if it meets a condition, a run from a good state stays good exactly if
all its steps meet the condition. -/
theorem always_iff_along
    (exact : ∀ state call, good state → guard state call →
      (good (system.step state call) ↔ goal state call))
    {state : State} {calls : List Call} (initial : good state)
    (along : system.Along guard state calls) :
    system.Always good state calls ↔ system.Along goal state calls := by
  induction calls generalizing state with
  | nil => exact iff_of_true initial trivial
  | cons call rest ih =>
      simp only [Always, Along, initial, true_and]
      constructor
      · intro later
        have next : good (system.step state call) := later.start
        exact ⟨(exact state call initial along.1).mp next, (ih next along.2).mp later⟩
      · rintro ⟨meets, later⟩
        have next := (exact state call initial along.1).mpr meets
        exact (ih next along.2).mpr later

end System

end Lofita.Foundation
