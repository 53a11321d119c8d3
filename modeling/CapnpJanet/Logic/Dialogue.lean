import CapnpJanet.Logic.Lending

/-!
# Two parties that ask each other

Two parties exchange frames over a queue in each direction.  Each asks questions
under numbers that it counts up, and each answers the questions of the other, at
once or later.  Then a question that a party waits for is in exactly one place:
on its way to the other, held there, or on its way back as an answer.
-/

namespace Dialogue

open Lending Run

/-- What frames and states say of questions. -/
structure Speech (σ φ : Type) where
  /-- The questions that a frame asks. -/
  asks : φ → Nat → Nat
  /-- The questions that a frame answers. -/
  answers : φ → Nat → Nat
  /-- The questions of the other party whose answers a party holds back. -/
  holds : σ → Nat → Nat
  /-- The questions that a party has asked and waits for. -/
  awaits : σ → Nat → Prop
  /-- The number of a party's next question. -/
  next : σ → Nat

/-- The two parties, and the frames on the way to each. -/
structure Line (σ φ : Type) where
  party : Bool → σ
  inbox : Bool → List φ

/-- What happens on a line: the oldest frame arrives at a party, or the party
works on its own. -/
inductive Event (ε α : Type) where
  | deliver (side : Bool) (env : ε)
  | work (side : Bool) (a : α)

variable {σ φ ε α : Type}

namespace Line

/-- Nothing is on the way. -/
def init (start : Bool → σ) : Line σ φ := ⟨start, fun _ => []⟩

/-- A party is left in a state, with the frames it has not read, and has sent
some frames to the other. -/
def exchange (s : Line σ φ) (side : Bool) (done : σ × List φ) (unread : List φ) : Line σ φ where
  party := Function.update s.party side done.1
  inbox other := if other = side then unread else s.inbox other ++ done.2

/-- One event, for parties that `receive` frames and `act` on their own. -/
def step (receive : σ → ε → φ → σ × List φ) (act : σ → α → σ × List φ) (s : Line σ φ) :
    Event ε α → Line σ φ
  | .deliver side env =>
      match s.inbox side with
      | [] => s
      | frame :: rest => s.exchange side (receive (s.party side) env frame) rest
  | .work side a => s.exchange side (act (s.party side) a) (s.inbox side)

/-- A frame that arrives, and what a party does on its own, meet conditions. -/
def Fair (meets : σ → ε → φ → Prop) (does : σ → α → Prop) (s : Line σ φ) : Event ε α → Prop
  | .deliver side env => ∀ frame rest, s.inbox side = frame :: rest → meets (s.party side) env frame
  | .work side a => does (s.party side) a

/-- The places a question of one side is in: on its way to the other, held
there, and on its way back as an answer. -/
def places (speech : Speech σ φ) (s : Line σ φ) (side : Bool) (q : Nat) : Nat :=
  total speech.asks (s.inbox !side) q + speech.holds (s.party !side) q +
    total speech.answers (s.inbox side) q

section
variable (speech : Speech σ φ) (s : Line σ φ) (side : Bool) (done : σ × List φ) (unread : List φ)

@[simp]
theorem exchange_party_self : (s.exchange side done unread).party side = done.1 :=
  Function.update_self _ _ _

@[simp]
theorem exchange_party_other : (s.exchange side done unread).party (!side) = s.party !side :=
  Function.update_of_ne (Bool.not_ne_self side) _ _

@[simp]
theorem exchange_inbox_self : (s.exchange side done unread).inbox side = unread := if_pos rfl

@[simp]
theorem exchange_inbox_other :
    (s.exchange side done unread).inbox (!side) = s.inbox (!side) ++ done.2 :=
  if_neg (Bool.not_ne_self side)

/-- Where the questions of a party are after it has sent frames. -/
theorem places_exchange_self (q : Nat) : (s.exchange side done unread).places speech side q =
    total speech.asks (s.inbox !side) q + total speech.asks done.2 q +
      speech.holds (s.party !side) q + total speech.answers unread q := by
  simp [places]

/-- Where the questions of the other party are then. -/
theorem places_exchange_other (q : Nat) : (s.exchange side done unread).places speech (!side) q =
    total speech.asks unread q + speech.holds done.1 q +
      (total speech.answers (s.inbox !side) q + total speech.answers done.2 q) := by
  simp [places]

end

end Line

/-- What a party does with a frame: it answers or holds what the frame asks,
waits no longer for what the frame answers, and asks nothing. -/
structure Hears (speech : Speech σ φ) (inv : σ → Prop) (plain : φ → Prop) (p : σ) (frame : φ)
    (done : σ × List φ) : Prop where
  kept : inv done.1
  plain : ∀ reply ∈ done.2, plain reply
  next : speech.next done.1 = speech.next p
  waits : ∀ q, speech.awaits done.1 q → speech.awaits p q ∧ speech.answers frame q = 0
  silent : ∀ q, total speech.asks done.2 q = 0
  settles : ∀ q, total speech.answers done.2 q + speech.holds done.1 q =
    speech.asks frame q + speech.holds p q

/-- What a party does on its own: it answers nothing, asks each question once
and under a new number, and waits for nothing that it has not asked. -/
structure Speaks (speech : Speech σ φ) (inv : σ → Prop) (plain : φ → Prop) (p : σ)
    (done : σ × List φ) : Prop where
  kept : inv done.1
  plain : ∀ frame ∈ done.2, plain frame
  next : speech.next p ≤ speech.next done.1
  once : ∀ q, total speech.asks done.2 q ≤ 1
  fresh : ∀ q, 0 < total speech.asks done.2 q → speech.next p ≤ q ∧ q < speech.next done.1
  waits : ∀ q, speech.awaits done.1 q → speech.awaits p q ∨ total speech.asks done.2 q = 1
  silent : ∀ q, total speech.answers done.2 q = 0
  holds : ∀ q, speech.holds done.1 q = speech.holds p q

/-- Parties that keep an invariant, and hear and speak as they should. -/
structure Candid (speech : Speech σ φ) (receive : σ → ε → φ → σ × List φ)
    (act : σ → α → σ × List φ) (inv : σ → Prop) (plain : φ → Prop) (meets : σ → ε → φ → Prop)
    (does : σ → α → Prop) : Prop where
  hears : ∀ p env frame, inv p → plain frame → meets p env frame →
    Hears speech inv plain p frame (receive p env frame)
  speaks : ∀ p a, inv p → does p a → Speaks speech inv plain p (act p a)

/-- What every run keeps of one side. -/
structure Settled (speech : Speech σ φ) (inv : σ → Prop) (plain : φ → Prop) (s : Line σ φ)
    (side : Bool) : Prop where
  sound : inv (s.party side)
  plain : ∀ frame ∈ s.inbox side, plain frame
  /-- No question is in two places. -/
  once : ∀ q, s.places speech side q ≤ 1
  known : ∀ q, 0 < s.places speech side q → q < speech.next (s.party side)
  /-- A question that is waited for is in one. -/
  waits : ∀ q, speech.awaits (s.party side) q → s.places speech side q = 1

section
variable {speech : Speech σ φ} {receive : σ → ε → φ → σ × List φ} {act : σ → α → σ × List φ}
  {inv : σ → Prop} {plain : φ → Prop} {meets : σ → ε → φ → Prop} {does : σ → α → Prop}
  {s : Line σ φ} {side : Bool}

variable (speech) in
/-- The places a question is in when a frame arrives at the side that asked. -/
theorem places_of_arrival {frame : φ} {rest : List φ} (queue : s.inbox side = frame :: rest)
    (q : Nat) : s.places speech side q = total speech.asks (s.inbox !side) q +
      speech.holds (s.party !side) q + (speech.answers frame q + total speech.answers rest q) := by
  rw [Line.places, queue, total_cons]

variable (speech) in
/-- The places a question is in when a frame arrives at the side that is asked. -/
theorem places_of_question {frame : φ} {rest : List φ} (queue : s.inbox side = frame :: rest)
    (q : Nat) : s.places speech (!side) q = speech.asks frame q + total speech.asks rest q +
      speech.holds (s.party side) q + total speech.answers (s.inbox !side) q := by
  rw [Line.places, Bool.not_not, queue, total_cons]

/-- A frame that arrives moves questions on. -/
theorem settled_deliver (settled : ∀ any, Settled speech inv plain s any) {frame : φ}
    {rest : List φ} (queue : s.inbox side = frame :: rest) {done : σ × List φ}
    (hears : Hears speech inv plain (s.party side) frame done) (any : Bool) :
    Settled speech inv plain (s.exchange side done rest) any := by
  rcases Bool.eq_or_eq_not any side with rfl | rfl
  · -- the side that reads the frame
    have before := settled any
    have places := places_of_arrival speech queue
    constructor
    · rw [Line.exchange_party_self]
      exact hears.kept
    · rw [Line.exchange_inbox_self]
      intro other member
      apply before.plain
      rw [queue]
      exact List.mem_cons_of_mem frame member
    · intro q
      have once := before.once q
      rw [places] at once
      rw [Line.places_exchange_self, hears.silent]
      omega
    · intro q
      have known := before.known q
      rw [places] at known
      rw [Line.places_exchange_self, hears.silent, Line.exchange_party_self, hears.next]
      intro some
      apply known
      omega
    · intro q
      rw [Line.exchange_party_self, Line.places_exchange_self, hears.silent]
      intro waits
      obtain ⟨waited, unanswered⟩ := hears.waits q waits
      have one := before.waits q waited
      rw [places, unanswered] at one
      omega
  · -- the side that sent it
    have before := settled !side
    have places := places_of_question speech queue
    constructor
    · rw [Line.exchange_party_other]
      exact before.sound
    · rw [Line.exchange_inbox_other]
      intro other member
      rcases List.mem_append.mp member with old | new
      · exact before.plain other old
      · exact hears.plain other new
    · intro q
      have once := before.once q
      have settles := hears.settles q
      rw [places] at once
      rw [Line.places_exchange_other]
      omega
    · intro q
      have known := before.known q
      have settles := hears.settles q
      rw [places] at known
      rw [Line.places_exchange_other, Line.exchange_party_other]
      intro some
      apply known
      omega
    · intro q
      have settles := hears.settles q
      rw [Line.exchange_party_other, Line.places_exchange_other]
      intro waits
      have one := before.waits q waits
      rw [places] at one
      omega

/-- What a party says adds its new questions. -/
theorem settled_work (settled : ∀ any, Settled speech inv plain s any) {done : σ × List φ}
    (speaks : Speaks speech inv plain (s.party side) done) (any : Bool) :
    Settled speech inv plain (s.exchange side done (s.inbox side)) any := by
  rcases Bool.eq_or_eq_not any side with rfl | rfl
  · -- the side that speaks
    have before := settled any
    have new (q : Nat) (asked : 0 < total speech.asks done.2 q) : s.places speech any q = 0 := by
      have known := before.known q
      have fresh := (speaks.fresh q asked).1
      omega
    have places (q : Nat) : s.places speech any q = total speech.asks (s.inbox !any) q +
      speech.holds (s.party !any) q + total speech.answers (s.inbox any) q := rfl
    constructor
    · rw [Line.exchange_party_self]
      exact speaks.kept
    · rw [Line.exchange_inbox_self]
      exact before.plain
    · intro q
      have once := before.once q
      have asked := speaks.once q
      have apart := new q
      rw [places] at once apart
      rw [Line.places_exchange_self]
      omega
    · intro q
      have known := before.known q
      have fresh := speaks.fresh q
      have grown := speaks.next
      rw [places] at known
      rw [Line.places_exchange_self, Line.exchange_party_self]
      intro some
      by_cases asked : 0 < total speech.asks done.2 q
      · exact (fresh asked).2
      · apply (known _).trans_le grown
        omega
    · intro q
      rw [Line.exchange_party_self, Line.places_exchange_self]
      intro waits
      have asked := speaks.once q
      have apart := new q
      rw [places] at apart
      rcases speaks.waits q waits with waited | one
      · have one := before.waits q waited
        rw [places] at one
        omega
      · omega
  · -- the side that listens
    have before := settled !side
    have places (q : Nat) : s.places speech (!side) q = total speech.asks (s.inbox side) q +
        speech.holds (s.party side) q + total speech.answers (s.inbox !side) q := by
      rw [Line.places, Bool.not_not]
    have same (q : Nat) : (s.exchange side done (s.inbox side)).places speech (!side) q =
        s.places speech (!side) q := by
      rw [Line.places_exchange_other, places, speaks.silent, speaks.holds, Nat.add_zero]
    constructor
    · rw [Line.exchange_party_other]
      exact before.sound
    · rw [Line.exchange_inbox_other]
      intro frame member
      rcases List.mem_append.mp member with old | new
      · exact before.plain frame old
      · exact speaks.plain frame new
    · intro q
      rw [same]
      exact before.once q
    · intro q
      rw [same, Line.exchange_party_other]
      exact before.known q
    · intro q
      rw [same, Line.exchange_party_other]
      exact before.waits q

/-- One event keeps both sides settled. -/
theorem Candid.step (candid : Candid speech receive act inv plain meets does)
    (settled : ∀ any, Settled speech inv plain s any) {event : Event ε α}
    (fair : s.Fair meets does event) (any : Bool) :
    Settled speech inv plain (s.step receive act event) any := by
  cases event with
  | deliver side env =>
      cases queue : s.inbox side with
      | nil =>
          rw [Line.step, queue]
          exact settled any
      | cons frame rest =>
          rw [Line.step, queue]
          apply settled_deliver settled queue
          apply candid.hears _ _ _ (settled side).sound
          · apply (settled side).plain
            rw [queue]
            exact List.mem_cons_self
          · exact fair frame rest queue
  | work side a =>
      apply settled_work settled
      exact candid.speaks _ _ (settled side).sound fair

/-- Every run keeps both sides settled. -/
theorem Candid.settled (candid : Candid speech receive act inv plain meets does)
    {start : Bool → σ} (sound : ∀ side, inv (start side))
    (holds : ∀ side q, speech.holds (start side) q = 0)
    (awaits : ∀ side q, ¬speech.awaits (start side) q)
    (reached : Reached (Line.init start) (Line.step receive act) (Line.Fair meets does) s) :
    ∀ side, Settled speech inv plain s side := by
  have none (side : Bool) (q : Nat) : (Line.init start : Line σ φ).places speech side q = 0 := by
    simp [Line.places, Line.init, holds]
  induction reached with
  | start =>
      intro side
      constructor
      · exact sound side
      · exact fun _ member => absurd member List.not_mem_nil
      · intro q
        rw [none]
        exact Nat.zero_le 1
      · intro q some
        rw [none] at some
        exact absurd some (Nat.lt_irrefl 0)
      · exact fun q waits => absurd waits (awaits side q)
  | step _ met ih => exact candid.step ih met

end

end Dialogue
