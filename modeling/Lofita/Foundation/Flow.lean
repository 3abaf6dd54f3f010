import Lofita.Foundation.Run

/-! # What goes into a system and comes out of it

The calls of a run put items in and take items out. `System.emitted` collects
the items of a run in order, and `System.conservation` says that a system that
holds its items in order at every step neither loses, repeats nor reorders one
over a whole run.
-/

namespace Lofita.Foundation.System

variable {State Call Item : Type*} (system : System State Call)

/-- The items the calls of a run give, in order. -/
def emitted (items : State → Call → List Item) : State → List Call → List Item
  | _, [] => []
  | state, call :: rest => items state call ++ emitted items (system.step state call) rest

@[simp] theorem emitted_nil (items : State → Call → List Item) (state : State) :
    system.emitted items state [] = [] := rfl

@[simp] theorem emitted_cons (items : State → Call → List Item) (state : State) (call : Call)
    (rest : List Call) :
    system.emitted items state (call :: rest) =
      items state call ++ system.emitted items (system.step state call) rest := rfl

variable {system} {accepted delivered : State → Call → List Item} {held : State → List Item}

/-- **Conservation of items.** If at every step the items held before and those
accepted are, in order, those delivered and those held after, the same is true
of every run. -/
theorem conservation
    (balanced : ∀ state call, held state ++ accepted state call =
      delivered state call ++ held (system.step state call))
    (state : State) (calls : List Call) :
    held state ++ system.emitted accepted state calls =
      system.emitted delivered state calls ++ held (system.run state calls) := by
  induction calls generalizing state with
  | nil => simp only [emitted_nil, List.append_nil, run_nil, List.nil_append]
  | cons call rest ih =>
      rw [emitted_cons, ← List.append_assoc, balanced, List.append_assoc, ih, emitted_cons,
        run_cons, List.append_assoc]

end Lofita.Foundation.System
