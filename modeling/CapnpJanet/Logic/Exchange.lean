import CapnpJanet.Logic.Runs
import Mathlib.Data.List.Count
import Mathlib.Tactic.Linarith

/-!
# Two parties on a line

Two parties exchange frames over queues in both directions.  If frames that ask
nothing are not answered, and every other frame is answered with at most `n`
frames that ask nothing, then the answers never outnumber the requests by more
than a factor `n`, in whatever order frames arrive.
-/

namespace Exchange

open Run

variable {σ φ ε α : Type}

/-- The two parties, the frames on the way to each, and the number of frames
that were requested and that were sent in answer. -/
structure Line (σ φ : Type) where
  party : Bool → σ
  inbox : Bool → List φ
  requests : Nat
  replies : Nat

/-- What happens on a line: a frame is requested of a party, the oldest frame
arrives at it, or the party works on its own. -/
inductive Event (φ ε α : Type) where
  | request (side : Bool) (frame : φ)
  | deliver (side : Bool) (env : ε)
  | work (side : Bool) (a : α)

namespace Line

/-- Nothing is on the way. -/
def init (start : Bool → σ) : Line σ φ := ⟨start, fun _ => [], 0, 0⟩

/-- One event, for parties that `receive` a frame and `act` on their own. -/
def step (receive : σ → ε → φ → σ × List φ) (act : σ → α → σ) (s : Line σ φ) :
    Event φ ε α → Line σ φ
  | .request side frame =>
      { s with
        inbox := Function.update s.inbox side (s.inbox side ++ [frame])
        requests := s.requests + 1 }
  | .deliver side env =>
      match s.inbox side with
      | [] => s
      | frame :: rest =>
          let done := receive (s.party side) env frame
          { s with
            party := Function.update s.party side done.1
            inbox := fun other => if other = side then rest else s.inbox other ++ done.2
            replies := s.replies + done.2.length }
  | .work side a => { s with party := Function.update s.party side (act (s.party side) a) }

/-- The frame that arrives in an event meets a condition. -/
def Arrives (plain : φ → Prop) (s : Line σ φ) (e : Event φ ε α) : Prop :=
  ∀ side env frame rest, e = .deliver side env → s.inbox side = frame :: rest → plain frame

/-- The frames on the way that ask something. -/
def pending (asks : φ → Bool) (s : Line σ φ) : Nat :=
  (s.inbox true).countP asks + (s.inbox false).countP asks

theorem pending_eq (asks : φ → Bool) (s : Line σ φ) (side : Bool) :
    s.pending asks = (s.inbox side).countP asks + (s.inbox !side).countP asks := by
  cases side with
  | true => rfl
  | false => exact Nat.add_comm _ _

end Line

/-- Parties that keep an invariant, answer a frame with at most `n` frames that
ask nothing, and do not answer a plain frame that asks nothing. -/
structure Polite (receive : σ → ε → φ → σ × List φ) (act : σ → α → σ) (inv : σ → Prop)
    (asks : φ → Bool) (plain : φ → Prop) (n : Nat) : Prop where
  kept : ∀ p env frame, inv p → inv (receive p env frame).1
  acted : ∀ p a, inv p → inv (act p a)
  bounded : ∀ p env frame, inv p → (receive p env frame).2.length ≤ n
  answers : ∀ p env frame, inv p → ∀ reply ∈ (receive p env frame).2, asks reply = false
  silent : ∀ p env frame, inv p → asks frame = false → plain frame → (receive p env frame).2 = []

/-- The parties are sound, and their answers are paid for by the requests that
have arrived. -/
structure Balanced (inv : σ → Prop) (asks : φ → Bool) (n : Nat) (s : Line σ φ) : Prop where
  sound : ∀ side, inv (s.party side)
  paid : s.replies + n * s.pending asks ≤ n * s.requests

section
variable {receive : σ → ε → φ → σ × List φ} {act : σ → α → σ} {inv : σ → Prop} {asks : φ → Bool}
  {plain : φ → Prop} {n : Nat} {s : Line σ φ}

theorem sound_update {side : Bool} {p : σ} (sound : ∀ side, inv (s.party side)) (one : inv p)
    (other : Bool) : inv (Function.update s.party side p other) := by
  by_cases here : other = side
  · rw [here, Function.update_self]
    exact one
  · rw [Function.update_of_ne here]
    exact sound other

/-- One event keeps the balance. -/
theorem Balanced.step (balanced : Balanced inv asks n s)
    (polite : Polite receive act inv asks plain n) {e : Event φ ε α} (arrives : s.Arrives plain e) :
    Balanced inv asks n (s.step receive act e) := by
  obtain ⟨sound, paid⟩ := balanced
  cases e with
  | request side frame =>
      refine ⟨sound, ?_⟩
      have before := s.pending_eq asks side
      have after := (s.step receive act (.request side frame)).pending_eq asks side
      have one : [frame].countP asks ≤ 1 := List.countP_le_length
      simp only [Line.step, Function.update_self, List.countP_append,
        Function.update_of_ne (Bool.not_ne_self side)] at after ⊢
      nlinarith
  | deliver side env =>
      cases queue : s.inbox side with
      | nil =>
          rw [Line.step, queue]
          exact ⟨sound, paid⟩
      | cons frame rest =>
          have plainFrame := arrives side env frame rest rfl queue
          have start := sound side
          have before := s.pending_eq asks side
          rw [queue, List.countP_cons] at before
          have none : ((receive (s.party side) env frame).2).countP asks = 0 :=
            List.countP_eq_zero.mpr fun reply member => by
              simp [polite.answers _ env frame start reply member]
          rw [Line.step, queue]
          refine ⟨sound_update sound (polite.kept _ env frame start), ?_⟩
          rw [Line.pending_eq asks _ side]
          simp only [if_true, if_neg (Bool.not_ne_self side), List.countP_append, none, add_zero]
          cases isAsking : asks frame with
          | false =>
              rw [polite.silent _ env frame start isAsking plainFrame, List.length_nil, add_zero]
              rw [isAsking] at before
              simp only [Bool.false_eq_true, if_false, add_zero] at before
              rwa [← before]
          | true =>
              have few := polite.bounded _ env frame start
              rw [isAsking] at before
              simp only [if_true] at before
              rw [before] at paid
              nlinarith
  | work side a => exact ⟨sound_update sound (polite.acted _ a (sound side)), paid⟩

/-- Answers are bounded by requests in every run in which plain frames
arrive. -/
theorem Polite.replies_le (polite : Polite receive act inv asks plain n) {start : Bool → σ}
    (sound : ∀ side, inv (start side))
    (reached : Reached (Line.init start) (Line.step receive act) (Line.Arrives plain) s) :
    s.replies ≤ n * s.requests := by
  have balanced : Balanced inv asks n s := by
    refine reached.invariant ⟨sound, ?_⟩ fun s e balanced arrives => balanced.step polite arrives
    simp [Line.init, Line.pending]
  exact (Nat.le_add_right _ _).trans balanced.paid

end

end Exchange
