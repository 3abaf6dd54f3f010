import Mathlib.Data.Set.BooleanAlgebra
import Mathlib.Data.Set.Function
import Mathlib.Order.CompletePartialOrder

/-! # Overwriting a function region by region

An overlay gives a function new values on a region and keeps the others. After
several overlays the function has the values of each of them, if their regions
are disjoint (`Overlays.eqOn`), and its old values elsewhere
(`Overlays.eq_outside`).
-/

namespace Lofita.Foundation

variable {α β : Type*}

/-- The values a region is to have. -/
structure Patch (α β : Type*) where
  region : Set α
  value : α → β

/-- The function has the values of the patch on its region and is unchanged elsewhere. -/
structure Overlay (patch : Patch α β) (before after : α → β) : Prop where
  inside : Set.EqOn after patch.value patch.region
  outside : Set.EqOn after before patch.regionᶜ

/-- Overlays one after the other, the latest first. -/
inductive Overlays (before : α → β) : List (Patch α β) → (α → β) → Prop where
  | nil : Overlays before [] before
  | cons {patch : Patch α β} {patches : List (Patch α β)} {middle after : α → β}
      (earlier : Overlays before patches middle) (last : Overlay patch middle after) :
      Overlays before (patch :: patches) after

namespace Overlays

variable {before after : α → β} {patches : List (Patch α β)}

/-- What no patch covers is unchanged. -/
theorem eq_outside (overlays : Overlays before patches after) {point : α}
    (uncovered : ∀ patch ∈ patches, point ∉ patch.region) : after point = before point := by
  induction overlays with
  | nil => rfl
  | cons _ last ih =>
      exact (last.outside (uncovered _ List.mem_cons_self)).trans
        (ih fun patch member => uncovered patch (List.mem_cons_of_mem _ member))

/-- Where no later patch covers a point, it has the value of the patch. -/
theorem eq_latest {newer older : List (Patch α β)} {patch : Patch α β}
    (overlays : Overlays before (newer ++ patch :: older) after) {point : α}
    (uncovered : ∀ later ∈ newer, point ∉ later.region) (covered : point ∈ patch.region) :
    after point = patch.value point := by
  induction newer generalizing after with
  | nil =>
      cases overlays with
      | cons _ last => exact last.inside covered
  | cons later newer ih =>
      cases overlays with
      | cons earlier last =>
          exact (last.outside (uncovered later List.mem_cons_self)).trans
            (ih earlier fun other member => uncovered other (List.mem_cons_of_mem _ member))

/-- **Disjoint patches** all keep their values. -/
theorem eqOn (overlays : Overlays before patches after)
    (disjoint : patches.Pairwise fun later earlier => Disjoint later.region earlier.region)
    {patch : Patch α β} (member : patch ∈ patches) : Set.EqOn after patch.value patch.region := by
  induction overlays with
  | nil => cases member
  | cons _ last ih =>
      obtain ⟨apart, rest⟩ := List.pairwise_cons.mp disjoint
      rcases List.mem_cons.mp member with rfl | earlier
      · exact last.inside
      · intro point covered
        have uncovered := Set.disjoint_right.mp (apart patch earlier) covered
        exact (last.outside uncovered).trans (ih rest earlier covered)

end Overlays

end Lofita.Foundation
