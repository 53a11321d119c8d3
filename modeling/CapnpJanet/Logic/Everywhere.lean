import Mathlib.Logic.Relation

/-!
# Checks along every path

A check holds everywhere from a state when it holds at the state and at every
state that steps lead to.  This is the largest property that implies the check
and is kept by the steps, so it is proved by exhibiting such a property; the
steps may go on for ever.
-/

namespace Paths

universe u v

variable {α : Type u} {β : Type v} {step : α → α → Prop} {check : α → Prop} {x y : α}

/-- The check holds at every state that steps lead to. -/
def Everywhere (step : α → α → Prop) (check : α → Prop) (x : α) : Prop :=
  ∀ y, Relation.ReflTransGen step x y → check y

namespace Everywhere

theorem here (everywhere : Everywhere step check x) : check x := everywhere x .refl

theorem next (everywhere : Everywhere step check x) (stepped : step x y) :
    Everywhere step check y :=
  fun z rest => everywhere z (rest.head stepped)

/-- A property that implies the check and is kept by every step. -/
theorem of_invariant (inv : α → Prop) (holds : inv x) (keeps : ∀ x y, inv x → step x y → inv y)
    (implies : ∀ x, inv x → check x) : Everywhere step check x := by
  intro y path
  apply implies
  induction path with
  | refl => exact holds
  | tail _ stepped ih => exact keeps _ _ ih stepped

theorem of_next (here : check x) (next : ∀ y, step x y → Everywhere step check y) :
    Everywhere step check x := by
  intro y path
  rcases path.cases_head with rfl | ⟨z, stepped, rest⟩
  · exact here
  · exact next z stepped y rest

/-- A check carries over to what a simulation relates, if the steps there can be
followed here. -/
theorem simulated {step' : β → β → Prop} {check' : β → Prop} {x' : β}
    (everywhere : Everywhere step check x) (R : α → β → Prop) (related : R x x')
    (back : ∀ x x' y', R x x' → step' x' y' → ∃ y, step x y ∧ R y y')
    (carries : ∀ x x', R x x' → check x → check' x') : Everywhere step' check' x' := by
  refine of_invariant (fun y' => ∃ y, R y y' ∧ Everywhere step check y) ⟨x, related, everywhere⟩ ?_ ?_
  · rintro y' z' ⟨y, here, rest⟩ stepped
    obtain ⟨z, step, there⟩ := back y y' z' here stepped
    exact ⟨z, there, rest.next step⟩
  · rintro y' ⟨y, here, rest⟩
    exact carries y y' here rest.here

end Everywhere

end Paths
