import CapnpJanet.Logic.Ends

/-!
# Steps that fail without a trace

A step is atomic in a state when a failure leaves that state as it is.  Steps that
only look at the state are atomic everywhere.  A sequence is atomic when all that
may fail comes before the first change: checks come first, and what follows a
change must succeed.
-/

namespace Outcome

universe u

variable {ε σ α β : Type u}

/-- A computation that leaves every state as it is, however it ends. -/
structure Looks (x : EStateM ε σ α) : Prop where
  keeps : Keeps (fun s s' => s' = s) x

/-- A failure leaves the state as it was. -/
structure Atomic (x : EStateM ε σ α) (s : σ) : Prop where
  of_error : ∀ {e s'}, x s = .error e s' → s' = s

namespace Looks

variable {x : EStateM ε σ α} {s s' : σ}

theorem pure (a : α) : Looks (Pure.pure a : EStateM ε σ α) := ⟨fun _ => Ends.pure rfl⟩

theorem throw (e : ε) : Looks (MonadExcept.throw e : EStateM ε σ α) := ⟨fun _ => Ends.throw rfl⟩

theorem ite {c : Prop} [Decidable c] {y : EStateM ε σ α} (yes : Looks x) (no : Looks y) :
    Looks (if c then x else y) := by
  split
  · exact yes
  · exact no

theorem of_ok (looks : Looks x) {a : α} (run : x s = .ok a s') : s' = s := (looks.keeps s).of_ok run

theorem of_error (looks : Looks x) {e : ε} (run : x s = .error e s') : s' = s := by
  have ends := looks.keeps s
  rw [run] at ends
  exact ends

theorem atomic (looks : Looks x) (s : σ) : Atomic x s := ⟨looks.of_error⟩

end Looks

namespace Atomic

variable {x : EStateM ε σ α} {f : α → EStateM ε σ β} {s : σ}

theorem of_ends {post : α → σ → Prop} (ends : Ends (x s) post (· = s)) : Atomic x s := by
  refine ⟨fun run => ?_⟩
  rw [run] at ends
  exact ends

/-- Where a sequence has failed. -/
theorem bind_error {e : ε} {s' : σ} (run : (x >>= f) s = .error e s') :
    x s = .error e s' ∨ ∃ a s₁, x s = .ok a s₁ ∧ f a s₁ = .error e s' := by
  cases first : x s with
  | ok a s₁ => exact .inr ⟨a, s₁, rfl, (bind_run first).symm.trans run⟩
  | error e₁ s₁ =>
      have stopped : (x >>= f) s = .error e₁ s₁ := by
        simp only [Bind.bind, EStateM.bind, first]
      cases stopped.symm.trans run
      exact .inl rfl

/-- A sequence that gives up at once. -/
theorem refuse (e : ε) (f : α → EStateM ε σ β) : Atomic (MonadExcept.throw e >>= f) s := by
  refine ⟨fun run => ?_⟩
  cases run
  rfl

/-- A check goes first. -/
theorem after_look (looks : Looks x) (next : ∀ a, x s = .ok a s → Atomic (f a) s) :
    Atomic (x >>= f) s := by
  refine ⟨fun run => ?_⟩
  rcases bind_error run with first | ⟨a, s₁, first, second⟩
  · exact looks.of_error first
  · obtain rfl := looks.of_ok first
    exact (next a first).of_error second

/-- What follows a change succeeds. -/
theorem before_total (first : Atomic x s)
    (next : ∀ a s₁, x s = .ok a s₁ → ∃ b s₂, f a s₁ = .ok b s₂) : Atomic (x >>= f) s := by
  refine ⟨fun run => ?_⟩
  rcases bind_error run with failed | ⟨a, s₁, done, failed⟩
  · exact first.of_error failed
  · obtain ⟨b, s₂, total⟩ := next a s₁ done
    exact absurd (failed.symm.trans total) nofun

/-- A result that is only wrapped up. -/
theorem before_pure (first : Atomic x s) (g : α → β) :
    Atomic (x >>= fun a => Pure.pure (g a)) s :=
  first.before_total fun a s₁ _ => ⟨g a, s₁, rfl⟩

end Atomic

end Outcome
