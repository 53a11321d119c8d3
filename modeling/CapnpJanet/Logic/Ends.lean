import Mathlib.Init

/-!
# How a state-passing computation ends

A small program logic for computations that pass a state and may fail.  `Ends`
states what holds of the result and the state after success, and of the state
after a failure: a failing step has an effect too, so nothing is rolled back.
There is one rule for each way to build a computation, and one for bounded
loops, whose invariant counts the finished rounds.
-/

namespace Outcome

universe u

variable {ε σ α β : Type u}

/-- A computation has ended with a result and a state that satisfy `ok`, or
with an error in a state that satisfies `failed`. -/
def Ends (r : EStateM.Result ε σ α) (ok : α → σ → Prop) (failed : σ → Prop) : Prop :=
  match r with
  | .ok a s => ok a s
  | .error _ s => failed s

variable {ok ok' : α → σ → Prop} {failed failed' : σ → Prop} {s : σ}

@[simp]
theorem ends_ok {a : α} : Ends (.ok a s : EStateM.Result ε σ α) ok failed ↔ ok a s := Iff.rfl

@[simp]
theorem ends_error {e : ε} : Ends (.error e s) ok failed ↔ failed s := Iff.rfl

namespace Ends

variable {r : EStateM.Result ε σ α}

theorem mono (ends : Ends r ok failed) (onOk : ∀ a s, ok a s → ok' a s)
    (onFailed : ∀ s, failed s → failed' s) : Ends r ok' failed' := by
  cases r with
  | ok a s => exact onOk a s ends
  | error e s => exact onFailed s ends

theorem and (first : Ends r ok failed) (second : Ends r ok' failed') :
    Ends r (fun a s => ok a s ∧ ok' a s) fun s => failed s ∧ failed' s := by
  cases r with
  | ok a s => exact ⟨first, second⟩
  | error e s => exact ⟨first, second⟩

/-- What a successful run satisfies. -/
theorem of_ok {a : α} {s' : σ} (ends : Ends r ok failed) (run : r = .ok a s') : ok a s' := by
  rw [run] at ends
  exact ends

theorem pure {a : α} (holds : ok a s) : Ends ((Pure.pure a : EStateM ε σ α) s) ok failed := holds

theorem throw {e : ε} (holds : failed s) :
    Ends ((MonadExcept.throw e : EStateM ε σ α) s) ok failed := holds

/-- Sequencing: the second computation starts where the first has ended. -/
theorem bind {x : EStateM ε σ α} {f : α → EStateM ε σ β} {post : β → σ → Prop}
    (first : Ends (x s) ok failed) (next : ∀ a s', ok a s' → Ends (f a s') post failed')
    (onFailed : ∀ s', failed s' → failed' s') : Ends ((x >>= f) s) post failed' := by
  change Ends (match x s with
    | .ok a s => f a s
    | .error e s => .error e s) post failed'
  cases run : x s with
  | ok a s' =>
      rw [run] at first
      exact next a s' first
  | error e s' =>
      rw [run] at first
      exact onFailed s' first

end Ends

/-- A sequence goes on where its first computation has ended. -/
theorem bind_run {x : EStateM ε σ α} {f : α → EStateM ε σ β} {a : α} {s' : σ}
    (run : x s = .ok a s') : (x >>= f) s = f a s' := by
  simp only [Bind.bind, EStateM.bind, run]

/-- A sequence succeeds when both of its computations do. -/
theorem bind_eq_ok {x : EStateM ε σ α} {f : α → EStateM ε σ β} {s' : σ} {b : β} :
    (x >>= f) s = .ok b s' ↔ ∃ a s₁, x s = .ok a s₁ ∧ f a s₁ = .ok b s' := by
  change (match x s with
    | .ok a s => f a s
    | .error e s => .error e s) = .ok b s' ↔ _
  cases x s with
  | error e s₁ => simp
  | ok a s₁ =>
      refine ⟨fun run => ⟨a, s₁, rfl, run⟩, ?_⟩
      rintro ⟨_, _, same, run⟩
      cases same
      exact run

/-- The computation has succeeded, and its result and its state pass a check. -/
def succeedsWith (r : EStateM.Result ε σ α) (check : α → σ → Bool) : Bool :=
  match r with
  | .ok a s => check a s
  | .error _ _ => false

/-- `for (i = 0; i < n; i++) body(i);`, left at the first error. -/
def upTo (n : Nat) (body : Nat → EStateM ε σ PUnit) : EStateM ε σ PUnit :=
  match n with
  | 0 => pure ⟨⟩
  | n + 1 => do
      upTo n body
      body n

/-- The loop rule: `inv i` holds after `i` rounds. -/
theorem Ends.upTo (inv : Nat → σ → Prop) {n : Nat} {body : Nat → EStateM ε σ PUnit}
    (start : inv 0 s)
    (round : ∀ i < n, ∀ s, inv i s → Ends (body i s) (fun _ s => inv (i + 1) s) failed) :
    Ends (Outcome.upTo n body s) (fun _ s => inv n s) failed := by
  induction n with
  | zero => exact start
  | succ n ih =>
      have before := ih fun i hi => round i (Nat.lt_succ_of_lt hi)
      exact before.bind (fun _ s' holds => round n (Nat.lt_succ_self n) s' holds) fun _ holds => holds

/-! ## Relations every run keeps -/

/-- However the computation ends, its last state is related to its first. -/
def Keeps (rel : σ → σ → Prop) (x : EStateM ε σ α) : Prop :=
  ∀ s, Ends (x s) (fun _ s' => rel s s') (rel s)

namespace Keeps

variable {rel : σ → σ → Prop}

theorem pure (refl : ∀ s, rel s s) (a : α) : Keeps rel (Pure.pure a : EStateM ε σ α) := refl

theorem throw (refl : ∀ s, rel s s) (e : ε) : Keeps rel (MonadExcept.throw e : EStateM ε σ α) := refl

theorem bind (trans : ∀ s s' s'', rel s s' → rel s' s'' → rel s s'') {x : EStateM ε σ α}
    {f : α → EStateM ε σ β} (first : Keeps rel x) (next : ∀ a, Keeps rel (f a)) :
    Keeps rel (x >>= f) := fun s =>
  (first s).bind
    (fun a s' step => (next a s').mono (fun _ _ rest => trans _ _ _ step rest)
      fun _ rest => trans _ _ _ step rest)
    fun _ step => step

theorem upTo (refl : ∀ s, rel s s) (trans : ∀ s s' s'', rel s s' → rel s' s'' → rel s s'')
    {n : Nat} {body : Nat → EStateM ε σ PUnit} (round : ∀ i, Keeps rel (body i)) :
    Keeps rel (Outcome.upTo n body) := by
  induction n with
  | zero => exact refl
  | succ n ih => exact ih.bind trans fun _ => round n

end Keeps

end Outcome
