import Lofita.Foundation.Outcome

/-! # Loops with fuel

A loop that need not end, run for at most a number of steps. More fuel does not change
what a run gives (`run_mono`); a run that ends has come to a state whose step ends it
(`run_outcome`); a loop that comes to a state it never leaves runs out of every fuel
(`run_stuck`), and a loop whose steps lower a measure ends (`run_ends`).
-/

namespace Lofita.Foundation.Scan

/-- A step of a loop goes on with a state or ends with a result. -/
inductive Next (σ ρ : Type) where
  | goOn (state : σ)
  | done (result : ρ)

variable {ε σ ρ : Type} (exhausted : ε) (step : σ → Except ε (Next σ ρ))

def run : Nat → σ → Except ε ρ
  | 0, _ => .error exhausted
  | fuel + 1, state =>
      match step state with
      | .ok (.goOn next) => run fuel next
      | .ok (.done result) => .ok result
      | .error error => .error error

/-- The states that a loop comes to. -/
inductive Comes (start : σ) : σ → Prop where
  | start : Comes start start
  | next {state after : σ} (before : Comes start state)
      (goesOn : step state = .ok (.goOn after)) : Comes start after

/-- The step of a state ends the loop. -/
def EndsAt (state : σ) : Except ε ρ → Prop
  | .ok result => step state = .ok (.done result)
  | .error error => step state = .error error

variable {exhausted step} {start state after : σ} {fuel more : Nat} {outcome : Except ε ρ}

theorem run_goOn (goesOn : step state = .ok (.goOn after)) :
    run exhausted step (fuel + 1) state = run exhausted step fuel after := by
  rw [run, goesOn]

theorem run_ending (ends : EndsAt step state outcome) :
    run exhausted step (fuel + 1) state = outcome := by
  cases outcome with
  | ok result =>
      have done : step state = .ok (.done result) := ends
      rw [run, done]
  | error error =>
      have failed : step state = .error error := ends
      rw [run, failed]

/-- A state is left for another one, or ends the loop. -/
theorem step_cases (step : σ → Except ε (Next σ ρ)) (state : σ) :
    (∃ after, step state = .ok (.goOn after)) ∨ ∃ outcome, EndsAt step state outcome := by
  cases stepped : step state with
  | error error => exact .inr ⟨.error error, stepped⟩
  | ok next =>
      cases next with
      | goOn after => exact .inl ⟨after, rfl⟩
      | done result => exact .inr ⟨.ok result, stepped⟩

/-- **More fuel** does not change what a run gives. -/
theorem run_mono (ended : run exhausted step fuel start ≠ .error exhausted) (le : fuel ≤ more) :
    run exhausted step more start = run exhausted step fuel start := by
  induction fuel generalizing start more with
  | zero => exact absurd rfl ended
  | succ fuel ih =>
      obtain ⟨more, rfl⟩ : ∃ less, more = less + 1 := ⟨more - 1, by omega⟩
      rcases step_cases step start with ⟨after, goesOn⟩ | ⟨outcome, ends⟩
      · rw [run_goOn goesOn] at ended ⊢
        rw [run_goOn goesOn]
        exact ih ended (Nat.le_of_succ_le_succ le)
      · rw [run_ending ends, run_ending ends]

/-- A run that comes to a state goes on from it. -/
theorem run_of_comes (exhausted : ε) (comes : Comes step start state) :
    ∃ count, ∀ fuel, run exhausted step (count + fuel) start = run exhausted step fuel state := by
  induction comes with
  | start => exact ⟨0, fun fuel => by rw [Nat.zero_add]⟩
  | next _ goesOn ih =>
      obtain ⟨count, same⟩ := ih
      refine ⟨count + 1, fun fuel => ?_⟩
      rw [Nat.add_assoc, Nat.add_comm 1, same, run_goOn goesOn]

/-- A run that comes to a state that ends it gives what the state ends with. -/
theorem run_of_endsAt (exhausted : ε) (comes : Comes step start state)
    (ends : EndsAt step state outcome) :
    ∃ enough, run exhausted step enough start = outcome := by
  obtain ⟨count, same⟩ := run_of_comes exhausted comes
  exact ⟨count + 1, (same 1).trans (run_ending ends)⟩

theorem run_outcome_from (comes : Comes step start state)
    (ended : run exhausted step fuel state ≠ .error exhausted) :
    ∃ last, Comes step start last ∧ EndsAt step last (run exhausted step fuel state) := by
  induction fuel generalizing state with
  | zero => exact absurd rfl ended
  | succ fuel ih =>
      rcases step_cases step state with ⟨after, goesOn⟩ | ⟨outcome, ends⟩
      · rw [run_goOn goesOn] at ended ⊢
        exact ih (comes.next goesOn) ended
      · rw [run_ending ends]
        exact ⟨state, comes, ends⟩

/-- **A run that ends** has come to a state that ends it. -/
theorem run_outcome (done : run exhausted step fuel start = outcome)
    (ended : outcome ≠ .error exhausted) :
    ∃ last, Comes step start last ∧ EndsAt step last outcome := by
  subst done
  exact run_outcome_from .start ended

/-- **A loop that is stuck** in a state it comes to runs out of every fuel. -/
theorem run_stuck (comes : Comes step start state) (stuck : step state = .ok (.goOn state))
    (fuel : Nat) : run exhausted step fuel start = .error exhausted := by
  have never : ∀ fuel, run exhausted step fuel state = .error exhausted := by
    intro fuel
    induction fuel with
    | zero => rfl
    | succ fuel ih => rw [run_goOn stuck, ih]
  obtain ⟨count, same⟩ := run_of_comes exhausted comes
  refine Classical.byContradiction fun ended => ?_
  have less := run_mono ended (Nat.le_add_left fuel count)
  rw [same, never] at less
  exact ended less.symm

theorem run_ends_from (measure : σ → Nat) (comes : Comes step start state)
    (lowers : ∀ {state after}, Comes step start state → step state = .ok (.goOn after) →
      measure after < measure state)
    (silent : ∀ {state}, Comes step start state → step state ≠ .error exhausted)
    (enough : measure state < fuel) : run exhausted step fuel state ≠ .error exhausted := by
  induction fuel generalizing state with
  | zero => exact absurd enough (Nat.not_lt_zero _)
  | succ fuel ih =>
      rcases step_cases step state with ⟨after, goesOn⟩ | ⟨outcome, ends⟩
      · rw [run_goOn goesOn]
        have lower := lowers comes goesOn
        exact ih (comes.next goesOn) (by omega)
      · rw [run_ending ends]
        rintro rfl
        exact silent comes ends

/-- **A loop whose steps lower a measure** ends. -/
theorem run_ends (measure : σ → Nat)
    (lowers : ∀ {state after}, Comes step start state → step state = .ok (.goOn after) →
      measure after < measure state)
    (silent : ∀ {state}, Comes step start state → step state ≠ .error exhausted)
    (enough : measure start < fuel) : run exhausted step fuel start ≠ .error exhausted :=
  run_ends_from measure .start lowers silent enough

end Lofita.Foundation.Scan
