import Lofita.Foundation.Outcome

/-! # Computations with fuel

A loop that waits for its surroundings is a computation with fuel. It gives a value if it
does so with any fuel from some amount on, and it fails if no amount is enough.
-/

namespace Lofita.Foundation

variable {ε α β : Type}

/-- The computation ends with the value, given enough fuel. -/
def Gives (compute : Nat → Except ε α) (value : α) : Prop :=
  ∃ enough, ∀ fuel, enough ≤ fuel → compute fuel = .ok value

/-- The computation ends with the error, however much fuel there is. -/
def Fails (compute : Nat → Except ε α) (error : ε) : Prop :=
  ∃ enough, ∀ fuel, enough ≤ fuel → compute fuel = .error error

namespace Gives

variable {compute : Nat → Except ε α} {next : Nat → α → Except ε β} {value : α} {result : β}

theorem const (value : α) : Gives (fun _ => (.ok value : Except ε α)) value :=
  ⟨0, fun _ _ => rfl⟩

/-- One computation after the other. -/
theorem bind (first : Gives compute value) (second : Gives (fun fuel => next fuel value) result) :
    Gives (fun fuel => compute fuel >>= next fuel) result := by
  obtain ⟨enough, first⟩ := first
  obtain ⟨more, second⟩ := second
  refine ⟨max enough more, fun fuel le => ?_⟩
  change compute fuel >>= next fuel = .ok result
  rw [first fuel (by omega), Outcome.bind_ok]
  exact second fuel (by omega)

/-- A loop that ends after one more round. -/
theorem step {again : Nat → Except ε α} (later : Gives again value)
    (round : ∀ fuel, compute (fuel + 1) = again fuel) : Gives compute value := by
  obtain ⟨enough, later⟩ := later
  refine ⟨enough + 1, fun fuel le => ?_⟩
  obtain ⟨less, rfl⟩ := Nat.exists_eq_add_of_le' (Nat.le_trans (Nat.le_add_left 1 enough) le)
  rw [round, later less (Nat.le_of_succ_le_succ le)]

/-- A computation gives one value only. -/
theorem unique {other : α} (first : Gives compute value) (second : Gives compute other) :
    value = other := by
  obtain ⟨enough, first⟩ := first
  obtain ⟨more, second⟩ := second
  have both := (first (max enough more) (by omega)).symm.trans (second (max enough more) (by omega))
  exact Except.ok.inj both

theorem bind_fails {error : ε} (first : Gives compute value)
    (second : Fails (fun fuel => next fuel value) error) :
    Fails (fun fuel => compute fuel >>= next fuel) error := by
  obtain ⟨enough, first⟩ := first
  obtain ⟨more, second⟩ := second
  refine ⟨max enough more, fun fuel le => ?_⟩
  change compute fuel >>= next fuel = .error error
  rw [first fuel (by omega), Outcome.bind_ok]
  exact second fuel (by omega)

end Gives

namespace Fails

variable {compute : Nat → Except ε α} {next : Nat → α → Except ε β} {value : α} {error : ε}

theorem bind (first : Fails compute error) :
    Fails (fun fuel => compute fuel >>= next fuel) error := by
  obtain ⟨enough, first⟩ := first
  refine ⟨enough, fun fuel le => ?_⟩
  change compute fuel >>= next fuel = .error error
  rw [first fuel le, Outcome.bind_error]

theorem not_gives (fails : Fails compute error) : ¬ Gives compute value := by
  obtain ⟨enough, fails⟩ := fails
  rintro ⟨more, gives⟩
  have both := (fails (max enough more) (by omega)).symm.trans (gives (max enough more) (by omega))
  cases both

end Fails

end Lofita.Foundation
