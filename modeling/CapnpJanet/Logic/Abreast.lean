import CapnpJanet.Logic.Atomic

/-!
# Two runs abreast

Two computations, on states that need have nothing in common, end abreast when both
succeed, with results that are related, or both fail, with the same error.  There is one
rule for each way to build a computation; behind a step that only looks at its state,
both go on where they were.
-/

namespace Outcome

universe u

variable {ε σ τ α β γ δ : Type u}

/-- Both have succeeded with related results, or failed with the same error. -/
inductive Abreast (R : α → β → Prop) : EStateM.Result ε σ α → EStateM.Result ε τ β → Prop
  | ok {a : α} {b : β} {s : σ} {t : τ} (related : R a b) : Abreast R (.ok a s) (.ok b t)
  | error {e : ε} {s : σ} {t : τ} : Abreast R (.error e s) (.error e t)

namespace Abreast

variable {R R' : α → β → Prop} {Q : γ → δ → Prop} {r : EStateM.Result ε σ α}
  {r' : EStateM.Result ε τ β} {x : EStateM ε σ α} {y : EStateM ε τ β} {f : α → EStateM ε σ γ}
  {g : β → EStateM ε τ δ} {s s' : σ} {t t' : τ}

theorem of_ok {a : α} {b : β} (run : r = .ok a s) (run' : r' = .ok b t) (related : R a b) :
    Abreast R r r' := by
  rw [run, run']
  exact .ok related

theorem of_error {e : ε} (run : r = .error e s) (run' : r' = .error e t) : Abreast R r r' := by
  rw [run, run']
  exact .error

theorem mono (abreast : Abreast R r r') (weaker : ∀ a b, R a b → R' a b) : Abreast R' r r' := by
  cases abreast with
  | ok related => exact .ok (weaker _ _ related)
  | error => exact .error

/-- What the other has done when one has succeeded. -/
theorem ok_of_ok {a : α} (abreast : Abreast R r r') (run : r = .ok a s) :
    ∃ b t, r' = .ok b t ∧ R a b := by
  cases abreast with
  | ok related =>
      cases run
      exact ⟨_, _, rfl, related⟩
  | error => cases run

theorem error_of_error {e : ε} (abreast : Abreast R r r') (run : r = .error e s) :
    ∃ t, r' = .error e t := by
  cases abreast with
  | ok related => cases run
  | error =>
      cases run
      exact ⟨_, rfl⟩

/-- Sequences end abreast piece by piece. -/
theorem bind (first : Abreast R (x s) (y t))
    (next : ∀ a b s' t', x s = .ok a s' → y t = .ok b t' → R a b → Abreast Q (f a s') (g b t')) :
    Abreast Q ((x >>= f) s) ((y >>= g) t) := by
  cases run : x s with
  | ok a s' =>
      obtain ⟨b, t', run', related⟩ := first.ok_of_ok run
      rw [bind_run run, bind_run run']
      exact next a b s' t' run run' related
  | error e s' =>
      obtain ⟨t', run'⟩ := first.error_of_error run
      have stops : (x >>= f) s = .error e s' := by
        simp only [Bind.bind, EStateM.bind, run]
      have stops' : (y >>= g) t = .error e t' := by
        simp only [Bind.bind, EStateM.bind, run']
      exact .of_error stops stops'

/-- A check that both make. -/
theorem after_look (looks : Looks x) (looks' : Looks y) (first : Abreast R (x s) (y t))
    (next : ∀ a b, x s = .ok a s → y t = .ok b t → R a b → Abreast Q (f a s) (g b t)) :
    Abreast Q ((x >>= f) s) ((y >>= g) t) := by
  refine first.bind fun a b s' t' run run' related => ?_
  obtain rfl := looks.of_ok run
  obtain rfl := looks'.of_ok run'
  exact next a b run run' related

/-- Results that are only wrapped up. -/
theorem before_pure (first : Abreast R (x s) (y t)) {h : α → γ} {k : β → δ}
    (related : ∀ a b, R a b → Q (h a) (k b)) :
    Abreast Q ((x >>= fun a => Pure.pure (h a)) s) ((y >>= fun b => Pure.pure (k b)) t) :=
  first.bind fun a b _ _ _ _ same => .ok (related a b same)

end Abreast

end Outcome
