import Mathlib.Init

/-!
# Computations that are checked as they go

A computation that may stop with an error is judged by its value when it ends,
and by whether its error is one that is allowed.  There is one rule for each way
to build such a computation, and one for loops that run while a condition holds.
-/

namespace Checked

universe u v

variable {ε : Type u} {α β σ : Type v} {allowed allowed' : ε → Prop} {ok ok' : α → Prop}

/-- The computation ends with a value that satisfies `ok`, or stops with an
allowed error. -/
structure Within (allowed : ε → Prop) (ok : α → Prop) (x : Except ε α) : Prop where
  of_ok : ∀ {a}, x = .ok a → ok a
  of_error : ∀ {e}, x = .error e → allowed e

/-- The computation ends with a value that satisfies `ok`. -/
abbrev Sure (ok : α → Prop) (x : Except ε α) : Prop := Within (fun _ => False) ok x

namespace Within

theorem value {a : α} (holds : ok a) : Within allowed ok (.ok a) where
  of_ok same := by
    cases same
    exact holds
  of_error other := by cases other

theorem stop {e : ε} (holds : allowed e) : Within allowed ok (.error e) where
  of_ok other := by cases other
  of_error same := by
    cases same
    exact holds

theorem mono {x : Except ε α} (within : Within allowed ok x) (onOk : ∀ a, ok a → ok' a)
    (onError : ∀ e, allowed e → allowed' e) : Within allowed' ok' x :=
  ⟨fun ended => onOk _ (within.of_ok ended), fun stopped => onError _ (within.of_error stopped)⟩

theorem bind {x : Except ε α} {f : α → Except ε β} {post : β → Prop} (first : Within allowed ok x)
    (next : ∀ a, ok a → Within allowed post (f a)) : Within allowed post (x >>= f) := by
  cases x with
  | ok a => exact next a (first.of_ok rfl)
  | error e => exact .stop (first.of_error rfl)

end Within

theorem Sure.exists_ok {x : Except ε α} (sure : Sure ok x) : ∃ a, x = .ok a ∧ ok a := by
  cases x with
  | ok a => exact ⟨a, rfl, sure.of_ok rfl⟩
  | error e => exact (sure.of_error rfl).elim

/-- What comes after a computation that ends is judged alone. -/
theorem Sure.bind {x : Except ε α} {f : α → Except ε β} {post : β → Prop} (first : Sure ok x)
    (next : ∀ a, ok a → Within allowed post (f a)) : Within allowed post (x >>= f) := by
  obtain ⟨a, ended, holds⟩ := first.exists_ok
  rw [ended]
  exact next a holds

/-- `while (more) body`, for at most so many rounds. -/
def rounds (more : σ → Bool) (body : σ → Except ε σ) : (fuel : Nat) → σ → Except ε σ
  | 0, s => .ok s
  | fuel + 1, s => if more s then body s >>= rounds more body fuel else .ok s

theorem rounds_more {more : σ → Bool} {body : σ → Except ε σ} {s : σ} {fuel : Nat}
    (again : more s = true) (enough : 0 < fuel) :
    rounds more body fuel s = body s >>= rounds more body (fuel - 1) := by
  obtain ⟨fuel, rfl⟩ := Nat.exists_eq_succ_of_ne_zero (Nat.ne_of_gt enough)
  exact if_pos again

/-- The loop rule: a measure that each round lowers bounds the rounds, so that the
loop ends by its own condition. -/
theorem Within.rounds {more : σ → Bool} {body : σ → Except ε σ} {inv : σ → Prop}
    (measure : σ → Nat)
    (round : ∀ s, inv s → more s = true →
      0 < measure s ∧ Within allowed (fun s' => inv s' ∧ measure s' < measure s) (body s))
    {fuel : Nat} {s : σ} (holds : inv s) (enough : measure s ≤ fuel) :
    Within allowed (fun s' => inv s' ∧ more s' = false) (Checked.rounds more body fuel s) := by
  induction fuel generalizing s with
  | zero =>
      refine .value ⟨holds, Bool.eq_false_iff.mpr fun again => ?_⟩
      exact Nat.not_lt_of_le enough (round s holds again).1
  | succ fuel ih =>
      unfold Checked.rounds
      by_cases again : more s = true
      · rw [if_pos again]
        refine (round s holds again).2.bind fun s' after => ih after.1 ?_
        exact Nat.le_of_lt_succ (Nat.lt_of_lt_of_le after.2 enough)
      · rw [if_neg again]
        exact .value ⟨holds, Bool.eq_false_iff.mpr again⟩

end Checked
