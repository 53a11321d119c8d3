import Mathlib.Init

/-!
# Runs of a deterministic system

The states a system reaches from its start when every action it takes meets a
condition.  The condition may speak about the state in which the action is
taken, so an assumption about the environment is one.
-/

namespace Run

universe u v w

variable {σ : Type u} {α : Type v}

/-- The states reached from `start` by actions that meet a condition. -/
inductive Reached (start : σ) (step : σ → α → σ) (meets : σ → α → Prop) : σ → Prop
  | start : Reached start step meets start
  | step {s : σ} (reached : Reached start step meets s) {a : α} (met : meets s a) :
      Reached start step meets (step s a)

variable {start : σ} {step : σ → α → σ} {meets other : σ → α → Prop} {inv : σ → Prop} {s : σ}

namespace Reached

/-- What holds at the start and is kept by every step holds in every state
reached. -/
theorem invariant (reached : Reached start step meets s) (atStart : inv start)
    (kept : ∀ s a, inv s → meets s a → inv (step s a)) : inv s := by
  induction reached with
  | start => exact atStart
  | step _ met ih => exact kept _ _ ih met

/-- A weaker condition reaches at least as much. -/
theorem mono (reached : Reached start step meets s)
    (weaker : ∀ s a, meets s a → other s a) : Reached start step other s := by
  induction reached with
  | start => exact .start
  | step _ met ih => exact .step ih (weaker _ _ met)

end Reached

/-! ## Observers -/

section
variable {γ : Type w} {note : σ → α → γ → γ} {g : γ} {keeps : σ × γ → α → Prop} {o : σ × γ}

/-- A system beside the record that an observer keeps of its steps. -/
def observed (step : σ → α → σ) (note : σ → α → γ → γ) (o : σ × γ) (a : α) : σ × γ :=
  (step o.1 a, note o.1 a o.2)

/-- What is observed is a run. -/
theorem Reached.of_observed (reached : Reached (start, g) (observed step note) keeps o)
    (weaker : ∀ s g a, keeps (s, g) a → meets s a) : Reached start step meets o.1 := by
  induction reached with
  | start => exact .start
  | step _ met ih => exact .step ih (weaker _ _ _ met)

end

/-! ## Concrete runs -/

/-- Every action of a list passes a test in the state it is taken in. -/
def passes (step : σ → α → σ) (test : σ → α → Bool) : σ → List α → Bool
  | _, [] => true
  | s, a :: rest => test s a && passes step test (step s a) rest

/-- A list of actions that pass a test for the condition is a run. -/
theorem Reached.of_passes {test : σ → α → Bool} (sound : ∀ s a, test s a = true → meets s a)
    (reached : Reached start step meets s) {actions : List α}
    (passed : passes step test s actions = true) :
    Reached start step meets (actions.foldl step s) := by
  induction actions generalizing s with
  | nil => exact reached
  | cons a rest ih =>
      simp only [passes, Bool.and_eq_true] at passed
      exact ih (reached.step (sound s a passed.1)) passed.2

/-- Without a condition every list of actions is a run. -/
theorem reached_any (actions : List α) :
    Reached start step (fun _ _ => True) (actions.foldl step start) := by
  have extends' (s : σ) (reached : Reached start step (fun _ _ => True) s) :
      Reached start step (fun _ _ => True) (actions.foldl step s) := by
    induction actions generalizing s with
    | nil => exact reached
    | cons a rest ih => exact ih (step s a) (reached.step trivial)
  exact extends' start .start

end Run
