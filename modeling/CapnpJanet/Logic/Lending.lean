import CapnpJanet.Logic.Runs
import Mathlib.Algebra.BigOperators.Group.List.Basic
import Mathlib.Tactic.Linarith

/-!
# A lender and a borrower

A lender shows references to a borrower in frames on one queue, and gets them
back, or gets requests that use them, in frames on another.  The borrower gives
back only what has arrived at it, and uses only what it has in hand.  Then a
reference in hand is lent, and a request that uses one finds it lent when it
arrives, in whatever order the frames of the two queues move.
-/

namespace Lending

open Run

universe u

variable {ι σ φ ε α : Type u}

/-- What frames carry: the references one shows, the references one gives back,
and those one uses. -/
structure Freight (ι φ : Type u) where
  shows : φ → ι → Nat
  returns : φ → ι → Nat
  uses : φ → ι → Prop

/-- The frames of a queue, counted. -/
def total (f : φ → ι → Nat) (queue : List φ) (e : ι) : Nat := (queue.map fun frame => f frame e).sum

@[simp]
theorem total_nil (f : φ → ι → Nat) (e : ι) : total f [] e = 0 := rfl

@[simp]
theorem total_cons (f : φ → ι → Nat) (frame : φ) (queue : List φ) (e : ι) :
    total f (frame :: queue) e = f frame e + total f queue e := List.sum_cons

@[simp]
theorem total_append (f : φ → ι → Nat) (queue queue' : List φ) (e : ι) :
    total f (queue ++ queue') e = total f queue e + total f queue' e := by
  simp [total]

/-- The lender, the frames on the way to each side, and what has arrived at the
borrower and what it has given back. -/
structure Line (ι σ φ : Type u) where
  lender : σ
  toBorrower : List φ
  toLender : List φ
  received : ι → Nat
  given : ι → Nat

/-- What happens on a line: the borrower sends a frame or takes the oldest one
that is on its way, the oldest frame arrives at the lender, or the lender works
on its own. -/
inductive Event (φ ε α : Type u) where
  | send (frame : φ)
  | take
  | arrive (env : ε)
  | work (a : α)

namespace Line

/-- Nothing is on the way, and nothing has been lent. -/
def init (lender : σ) : Line ι σ φ := ⟨lender, [], [], fun _ => 0, fun _ => 0⟩

/-- One event, for a lender that `receive`s a frame and `act`s on its own. -/
def step (freight : Freight ι φ) (receive : σ → ε → φ → σ × List φ) (act : σ → α → σ)
    (s : Line ι σ φ) : Event φ ε α → Line ι σ φ
  | .send frame =>
      { s with
        toLender := s.toLender ++ [frame]
        given := fun e => s.given e + freight.returns frame e }
  | .take =>
      match s.toBorrower with
      | [] => s
      | frame :: rest =>
          { s with
            toBorrower := rest
            received := fun e => s.received e + freight.shows frame e }
  | .arrive env =>
      match s.toLender with
      | [] => s
      | frame :: rest =>
          let done := receive s.lender env frame
          { s with
            lender := done.1
            toBorrower := s.toBorrower ++ done.2
            toLender := rest }
  | .work a => { s with lender := act s.lender a }

/-- The borrower gives back only what it has received, and uses only what stays
in its hand. -/
def Honest (freight : Freight ι φ) (s : Line ι σ φ) (frame : φ) : Prop :=
  ∀ e, s.given e + freight.returns frame e ≤ s.received e ∧
    (freight.uses frame e → s.given e + freight.returns frame e < s.received e)

/-- An event of an honest borrower, with a lender that is `calm` when it works. -/
def Fair (freight : Freight ι φ) (calm : σ → Prop) (s : Line ι σ φ) : Event φ ε α → Prop
  | .send frame => s.Honest freight frame
  | .take => True
  | .arrive _ => calm s.lender
  | .work _ => calm s.lender

end Line

/-- What a lender owes: it keeps an invariant, and lends what it shows less what
it gets back, provided that it gets back no more than it has lent. -/
structure Lender (freight : Freight ι φ) (receive : σ → ε → φ → σ × List φ) (act : σ → α → σ)
    (calm inv : σ → Prop) (lent : σ → ι → Nat) : Prop where
  kept : ∀ s env frame, inv s → calm s → (∀ e, freight.returns frame e ≤ lent s e) →
    inv (receive s env frame).1
  lends : ∀ s env frame, inv s → calm s → (∀ e, freight.returns frame e ≤ lent s e) → ∀ e,
    lent (receive s env frame).1 e + freight.returns frame e =
      lent s e + total freight.shows (receive s env frame).2 e
  acted : ∀ s a, inv s → calm s → inv (act s a)
  still : ∀ s a, inv s → calm s → ∀ e, lent (act s a) e = lent s e

/-- What every run keeps. -/
structure Backed (freight : Freight ι φ) (inv : σ → Prop) (lent : σ → ι → Nat)
    (s : Line ι σ φ) : Prop where
  sound : inv s.lender
  owed : ∀ e, s.given e ≤ s.received e
  balance : ∀ e, lent s.lender e + s.given e =
    s.received e + total freight.shows s.toBorrower e + total freight.returns s.toLender e
  /-- What a frame on its way uses is in hand, or is given back behind it. -/
  ahead : ∀ before frame after, s.toLender = before ++ frame :: after → ∀ e,
    freight.uses frame e → s.given e < s.received e + total freight.returns after e

section
variable {freight : Freight ι φ} {receive : σ → ε → φ → σ × List φ} {act : σ → α → σ}
  {calm inv : σ → Prop} {lent : σ → ι → Nat} {s : Line ι σ φ}

/-- A reference in hand is lent. -/
theorem Backed.lent_of_hand (backed : Backed freight inv lent s) {e : ι}
    (hand : s.given e < s.received e) : 0 < lent s.lender e := by
  have balance := backed.balance e
  omega

/-- What the oldest frame on its way uses is lent. -/
theorem Backed.lent_of_use (backed : Backed freight inv lent s) {frame : φ} {rest : List φ}
    (first : s.toLender = frame :: rest) {e : ι} (uses : freight.uses frame e) :
    0 < lent s.lender e := by
  have balance := backed.balance e
  have ahead := backed.ahead [] frame rest first e uses
  rw [first, total_cons] at balance
  omega

/-- What the oldest frame on its way gives back is lent. -/
theorem Backed.lent_of_return (backed : Backed freight inv lent s) {frame : φ} {rest : List φ}
    (first : s.toLender = frame :: rest) (e : ι) : freight.returns frame e ≤ lent s.lender e := by
  have balance := backed.balance e
  have owed := backed.owed e
  rw [first, total_cons] at balance
  omega

/-- Every event keeps the references backed. -/
theorem Backed.step (backed : Backed freight inv lent s)
    (lender : Lender freight receive act calm inv lent) {event : Event φ ε α}
    (fair : s.Fair freight calm event) :
    Backed freight inv lent (s.step freight receive act event) := by
  cases event with
  | send frame =>
      have honest : s.Honest freight frame := fair
      refine ⟨backed.sound, fun e => (honest e).1, fun e => ?_, fun before used after split e uses => ?_⟩
      · have balance := backed.balance e
        simp only [Line.step, total_append, total_cons, total_nil]
        omega
      · rcases List.eq_nil_or_concat after with rfl | ⟨between, last, rfl⟩
        · obtain ⟨-, same⟩ := List.append_inj' split rfl
          obtain ⟨rfl, -⟩ := List.cons.inj same
          exact (honest e).2 uses
        · rw [List.concat_eq_append, ← List.cons_append, ← List.append_assoc] at split
          obtain ⟨queue, same⟩ := List.append_inj' split rfl
          obtain ⟨rfl, -⟩ := List.cons.inj same
          have ahead := backed.ahead before used between queue e uses
          simp only [Line.step, List.concat_eq_append, total_append, total_cons, total_nil]
          omega
  | take =>
      cases queue : s.toBorrower with
      | nil =>
          rw [Line.step, queue]
          exact backed
      | cons frame rest =>
          rw [Line.step, queue]
          refine ⟨backed.sound, fun e => ?_, fun e => ?_, fun before used after split e uses => ?_⟩
          · exact (backed.owed e).trans (Nat.le_add_right _ _)
          · have balance := backed.balance e
            rw [queue, total_cons] at balance
            dsimp only
            omega
          · have ahead := backed.ahead before used after split e uses
            dsimp only
            omega
  | arrive env =>
      cases queue : s.toLender with
      | nil =>
          rw [Line.step, queue]
          exact backed
      | cons frame rest =>
          have returns := backed.lent_of_return queue
          have kept := lender.kept _ env frame backed.sound fair returns
          have lends := lender.lends _ env frame backed.sound fair returns
          rw [Line.step, queue]
          dsimp only
          refine ⟨kept, backed.owed, fun e => ?_, fun before used after split e uses => ?_⟩
          · have balance := backed.balance e
            have moved := lends e
            rw [queue, total_cons] at balance
            dsimp only
            rw [total_append]
            omega
          · have behind : s.toLender = frame :: before ++ used :: after := by
              rw [queue]
              exact congrArg (frame :: ·) split
            exact backed.ahead (frame :: before) used after behind e uses
  | work a =>
      refine ⟨lender.acted _ a backed.sound fair, backed.owed, fun e => ?_, backed.ahead⟩
      have balance := backed.balance e
      rwa [← lender.still _ a backed.sound fair e] at balance

/-- References are backed in every run of an honest borrower. -/
theorem Lender.backed (lender : Lender freight receive act calm inv lent) {start : σ}
    (sound : inv start) (none : ∀ e, lent start e = 0)
    (reached : Reached (Line.init start) (Line.step freight receive act) (Line.Fair freight calm) s) :
    Backed freight inv lent s := by
  refine reached.invariant ⟨sound, fun _ => Nat.le_refl 0, fun e => ?_, fun before _ _ split => ?_⟩
    fun s event backed fair => backed.step lender fair
  · simp [Line.init, none e]
  · cases before <;> cases split

end

end Lending
