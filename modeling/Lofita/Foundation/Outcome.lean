import Mathlib.Tactic.TypeStar

/-! # Outcomes

Computations in `Except`, which give a value or an error. The rules here take
compositions and loops over a list apart.
-/

namespace Lofita.Foundation.Outcome

variable {ε α β : Type}

@[simp] theorem bind_ok (value : α) (next : α → Except ε β) :
    (Except.ok value >>= next) = next value := rfl

@[simp] theorem bind_error (error : ε) (next : α → Except ε β) :
    (Except.error error >>= next) = .error error := rfl

/-- A composition gives a value exactly when both parts do. -/
theorem ok_bind {first : Except ε α} {next : α → Except ε β} {result : β} :
    first >>= next = .ok result ↔ ∃ value, first = .ok value ∧ next value = .ok result := by
  cases first with
  | ok value =>
      constructor
      · intro succeeded
        exact ⟨value, rfl, succeeded⟩
      · rintro ⟨_, same, succeeded⟩
        cases same
        exact succeeded
  | error _ =>
      constructor
      · intro succeeded
        cases succeeded
      · rintro ⟨_, same, _⟩
        cases same

/-- A composition that gives something else than it does where its first part finds nothing
has found something. -/
theorem some_of_ok_bind {first : Except ε (Option α)} {next : Option α → Except ε β}
    {default result : β} (done : first >>= next = .ok result)
    (absent : next none = .ok default) (different : default ≠ result) :
    ∃ value, first = .ok (some value) ∧ next (some value) = .ok result := by
  obtain ⟨found, isFound, done⟩ := ok_bind.mp done
  cases found with
  | none => exact absurd (Except.ok.inj (absent.symm.trans done)) different
  | some value => exact ⟨value, isFound, done⟩

/-- A mapped run ends well if the run does, with the mapped value. -/
theorem ok_map {first : Except ε α} {apply : α → β} {result : β} :
    apply <$> first = .ok result ↔ ∃ value, first = .ok value ∧ apply value = result := by
  cases first with
  | ok value =>
      constructor
      · intro succeeded
        exact ⟨value, rfl, Except.ok.inj succeeded⟩
      · rintro ⟨_, same, rfl⟩
        cases same
        rfl
  | error _ =>
      constructor
      · intro succeeded
        cases succeeded
      · rintro ⟨_, same, _⟩
        cases same

/-- A value given back ends well with that value. -/
theorem ok_pure {value result : α} : (pure value : Except ε α) = .ok result ↔ value = result :=
  ⟨Except.ok.inj, fun same => congrArg _ same⟩

/-- The computation gives a value. -/
def Completes (computation : Except ε α) : Prop := ∃ value, computation = .ok value

theorem Completes.pure (value : α) : Completes (pure value : Except ε α) := ⟨value, rfl⟩

theorem not_completes_throw (error : ε) : ¬ Completes (throw error : Except ε α) :=
  fun completes => (nomatch completes)

/-- Two runs in a row complete if each does where it is reached. -/
theorem Completes.bind {first : Except ε α} {next : α → Except ε β} (here : Completes first)
    (later : ∀ value, first = .ok value → Completes (next value)) : Completes (first >>= next) := by
  obtain ⟨value, done⟩ := here
  obtain ⟨result, finished⟩ := later value done
  exact ⟨result, ok_bind.mpr ⟨value, done, finished⟩⟩

/-- A mapped run completes if the run does. -/
theorem Completes.map {first : Except ε α} (here : Completes first) (apply : α → β) :
    Completes (apply <$> first) := by
  obtain ⟨value, done⟩ := here
  exact ⟨apply value, ok_map.mpr ⟨value, done, rfl⟩⟩

/-- The computation does not end with an error. -/
def Avoids (error : ε) (computation : Except ε α) : Prop := computation ≠ .error error

variable {error : ε}

theorem Avoids.pure (value : α) : Avoids error (pure value : Except ε α) := by
  rintro ⟨⟩

theorem Avoids.throw {other : ε} (different : other ≠ error) :
    Avoids error (throw other : Except ε α) := by
  rintro ⟨⟩
  exact different rfl

/-- Two runs in a row avoid an error that each avoids where it is reached. -/
theorem Avoids.bind {first : Except ε α} {next : α → Except ε β} (here : Avoids error first)
    (later : ∀ value, first = .ok value → Avoids error (next value)) :
    Avoids error (first >>= next) := by
  cases first with
  | ok value => exact later value rfl
  | error other =>
      rintro ⟨⟩
      exact here rfl

/-- A mapped run meets only the errors of the run. -/
theorem Avoids.map {first : Except ε α} (here : Avoids error first) (apply : α → β) :
    Avoids error (apply <$> first) := by
  cases first with
  | ok value => rintro ⟨⟩
  | error other =>
      rintro ⟨⟩
      exact here rfl

/-- A value that the computation gives has the property. -/
def Ensures (property : α → Prop) (computation : Except ε α) : Prop :=
  ∀ value, computation = .ok value → property value

theorem Ensures.pure {property : α → Prop} {value : α} (holds : property value) :
    Ensures property (pure value : Except ε α) := by
  rintro _ ⟨⟩
  exact holds

theorem Ensures.throw (property : α → Prop) (error : ε) :
    Ensures property (throw error : Except ε α) := by
  rintro _ ⟨⟩

/-- What the first run ensures is there for the second. -/
theorem Ensures.bind {middle : α → Prop} {property : β → Prop} {first : Except ε α}
    {next : α → Except ε β} (here : Ensures middle first)
    (later : ∀ value, middle value → Ensures property (next value)) :
    Ensures property (first >>= next) := by
  intro result done
  obtain ⟨value, isValue, done⟩ := ok_bind.mp done
  exact later value (here value isValue) result done

/-- A loop over a list gives one value for each element, if every iteration does. -/
theorem mapM_ok {body : α → Except ε β} {values : List α}
    (each : ∀ value ∈ values, Completes (body value)) :
    ∃ results, values.mapM body = .ok results ∧ results.length = values.length := by
  induction values with
  | nil => exact ⟨[], rfl, rfl⟩
  | cons value rest ih =>
      obtain ⟨first, done⟩ := each value List.mem_cons_self
      obtain ⟨results, others, length⟩ := ih fun other member =>
        each other (List.mem_cons_of_mem value member)
      refine ⟨first :: results, ?_, congrArg Nat.succ length⟩
      rw [List.mapM_cons, done]
      exact ok_bind.mpr ⟨first, rfl, ok_bind.mpr ⟨results, others, rfl⟩⟩

end Lofita.Foundation.Outcome
