import CapnpJanet.Rpc.Hosted

/-!
# Questions and the answer table

An answer is kept from the moment it is sent until the peer finishes its
question.  An observer follows the questions that are open on each connection,
and for each `Accept` that is held back whether its question has been finished
meanwhile.  As long as embargoes are lifted only for questions that are still
open, every answer in the table belongs to an open question, and to one only.
-/

namespace CapnpJanet.Rpc

open Builder Run

/-! ## The answer table -/

/-- The answers that are kept for a question. -/
def Conn.stored (c : Conn) (q : Nat) : Nat :=
  ∑ i ∈ Finset.range maxAnswers,
    if (c.answers i).used = true ∧ (c.answers i).questionId = q then 1 else 0

/-- No entry of the answer table is free. -/
def Conn.AnswersFull (c : Conn) : Prop := ∀ i < maxAnswers, (c.answers i).used = true

section
variable {c c' : Conn} {qid q : Nat} {flat : List UInt8}

theorem Conn.stored_congr (same : c'.answers = c.answers) (q : Nat) : c'.stored q = c.stored q := by
  unfold stored
  rw [same]

/-- What keeping an answer does: a free entry is filled, or nothing happens. -/
theorem Conn.answerKeep_cases (c : Conn) (qid : Nat) (flat : List UInt8) :
    c.answerKeep qid flat = c ∨ ∃ i < maxAnswers, (c.answers i).used = false ∧
      c.answerKeep qid flat =
        { c with answers := Function.update c.answers i ⟨true, qid, flat⟩ } := by
  unfold answerKeep
  split
  · cases found : firstIndex maxAnswers fun i => !(c.answers i).used with
    | none => exact .inl rfl
    | some i =>
        obtain ⟨small, free, -⟩ := firstIndex_eq_some found
        exact .inr ⟨i, small, by simpa using free, rfl⟩
  · exact .inl rfl

theorem Conn.answerKeep_of_full (full : c.AnswersFull) : c.answerKeep qid flat = c := by
  rcases c.answerKeep_cases qid flat with same | ⟨i, small, free, -⟩
  · exact same
  · rw [full i small] at free
    cases free

/-- One entry of the answer table has changed. -/
theorem Conn.stored_update (c : Conn) {i : Nat} (small : i < maxAnswers) (a : Answer) (q : Nat) :
    Conn.stored { c with answers := Function.update c.answers i a } q +
        (if (c.answers i).used = true ∧ (c.answers i).questionId = q then 1 else 0) =
      c.stored q + if a.used = true ∧ a.questionId = q then 1 else 0 := by
  have replaced := sum_range_replace small
    (f := fun j => if (c.answers j).used = true ∧ (c.answers j).questionId = q then 1 else 0)
    (g := fun j => if (Function.update c.answers i a j).used = true ∧
      (Function.update c.answers i a j).questionId = q then 1 else 0)
    fun j other => by simp [other]
  simpa [stored] using replaced

theorem Conn.stored_answerKeep_le (c : Conn) (qid : Nat) (flat : List UInt8) (q : Nat) :
    (c.answerKeep qid flat).stored q ≤ c.stored q + if qid = q then 1 else 0 := by
  rcases c.answerKeep_cases qid flat with same | ⟨i, small, free, kept⟩
  · rw [same]
    exact Nat.le_add_right _ _
  · have replaced := c.stored_update small ⟨true, qid, flat⟩ q
    rw [if_neg (by simp [free]), add_zero] at replaced
    rw [kept, replaced]
    simp

/-- What dropping an answer does to the number of answers. -/
theorem Conn.stored_answerDrop {i : Nat} (found : c.answerFind qid = some i) (q : Nat) :
    (c.answerDrop qid).stored q + (if qid = q then 1 else 0) = c.stored q := by
  obtain ⟨small, holds, -⟩ := firstIndex_eq_some found
  simp only [Bool.and_eq_true, beq_iff_eq] at holds
  have dropped : c.answerDrop qid = { c with
      answers := Function.update c.answers i
        ⟨false, (c.answers i).questionId, (c.answers i).frame⟩ } := by
    rw [answerDrop, found]
  have replaced := c.stored_update small ⟨false, (c.answers i).questionId, (c.answers i).frame⟩ q
  have after : ¬(false = true ∧ (c.answers i).questionId = q) := nofun
  have before : (c.answers i).used = true ∧ (c.answers i).questionId = q ↔ qid = q := by
    rw [holds.2]
    exact and_iff_right holds.1
  rw [if_neg after, add_zero, if_congr before rfl rfl] at replaced
  rw [dropped]
  exact replaced

theorem Conn.stored_answerDrop_le (c : Conn) (qid q : Nat) :
    (c.answerDrop qid).stored q ≤ c.stored q := by
  cases found : c.answerFind qid with
  | none => rw [answerDrop, found]
  | some i => exact (Nat.le_add_right _ _).trans (Conn.stored_answerDrop found q).le

/-- A question without a stored answer is not found. -/
theorem Conn.answerFind_of_stored (none : c.stored q = 0) : c.answerFind q = Option.none := by
  cases found : c.answerFind q with
  | none => rfl
  | some i =>
      obtain ⟨small, holds, -⟩ := firstIndex_eq_some found
      simp only [Bool.and_eq_true, beq_iff_eq] at holds
      have zero := Finset.sum_eq_zero_iff.mp none i (Finset.mem_range.mpr small)
      rw [if_pos holds] at zero
      cases zero

/-- Dropping the only answer of a question leaves none. -/
theorem Conn.stored_answerDrop_self (once : c.stored qid ≤ 1) :
    (c.answerDrop qid).stored qid = 0 := by
  cases found : c.answerFind qid with
  | none =>
      rw [answerDrop, found]
      refine Finset.sum_eq_zero fun i member => if_neg ?_
      have absent := firstIndex_eq_none found i (Finset.mem_range.mp member)
      simpa using absent
  | some i =>
      have dropped := Conn.stored_answerDrop found qid
      rw [if_pos rfl] at dropped
      omega

end

theorem Conn.exportCap_answers {c c' : Conn} {server dispatch eid : Nat}
    (exported : c.exportCap server dispatch = (some eid, c')) : c'.answers = c.answers := by
  rcases Conn.exportCap_cases exported with ⟨-, -, rfl⟩ | ⟨-, -, rfl⟩
  · rfl
  · rfl

theorem joinPlace_answers {msg : Incoming} {c c' : Conn} {slot pnum : Nat}
    (place : msg.joinPlace c = some (slot, c', pnum)) : c'.answers = c.answers := by
  obtain ⟨jid, pcount, -, -, -, find, -⟩ := joinPlace_some place
  unfold Conn.joinSlotFind at find
  split at find
  · rw [← (Prod.mk.inj find).2]
  · split at find
    · rw [← (Prod.mk.inj find).2]
      rfl
    · cases find

theorem asks_of_offers {msg : Incoming} {c : Conn} {offer : Nat × Nat}
    (which : msg.which = msgProvide) (offers : msg.offers c = some offer) :
    msg.asks = [msg.questionId] := by
  unfold Incoming.offers at offers
  split at offers
  · cases offers
  · next isStruct => exact asks_of_struct (not_not.mp isStruct) (.inl which)

theorem asks_of_presents {msg : Incoming} {nonce : Nat} (which : msg.which = msgAccept)
    (presents : msg.presents = some nonce) : msg.asks = [msg.questionId] := by
  unfold Incoming.presents at presents
  split at presents
  · cases presents
  · next isStruct => exact asks_of_struct (not_not.mp isStruct) (.inr which)

/-! ## Questions -/

/-- The message finishes the question. -/
def Incoming.finishes (msg : Incoming) (q : Nat) : Bool :=
  msg.which == msgFinish && msg.questionId == q

/-- The frames that answer a question with results. -/
def resultsFor (q : Nat) (sent : List (List UInt8)) : List (List UInt8) :=
  sent.filter fun flat => returnOf flat == some ⟨q, returnTagResults⟩

/-- What is known of the questions: which are open on each connection; whether
that of the `Accept` held back in each provision has been finished; and the
results sent for each, on each connection, since it was asked. -/
structure Questions where
  isOpen : Nat → Nat → Bool
  stale : Nat → Bool
  results : Nat → Nat → List (List UInt8)

/-- Nothing has been asked. -/
def Questions.init : Questions := ⟨fun _ _ => false, fun _ => false, fun _ _ => []⟩

namespace Net

/-- What is known after a message on connection `k` has been handled. -/
def noted (s : Net) (k : Nat) (msg : Incoming) (w : World) (qs : Questions) : Questions where
  isOpen := Function.update qs.isOpen k fun q =>
    !msg.finishes q && (qs.isOpen k q || decide (q ∈ msg.asks))
  stale i :=
    if (s.vat.provisions i).embargoed = false ∧ (w.vat.provisions i).embargoed = true then false
    else qs.stale i || decide ((s.claims i).acceptor = k) && msg.finishes (s.claims i).acceptId
  results := Function.update qs.results k fun q =>
    if msg.finishes q then []
    else (if q ∈ msg.asks then [] else qs.results k q) ++ resultsFor q w.sent

/-- What is known of the questions after an action. -/
def noteQuestions (s : Net) : Action → Questions → Questions
  | .deliver k env data, qs =>
      match readIncoming data with
      | none => qs
      | some msg => s.noted k msg (handle env data (s.conn k) s.vat).2 qs
  | _, qs => qs

/-- Provision `i` holds back the answer to question `q` of connection `k`, which
has not been finished meanwhile. -/
def Waits (s : Net) (qs : Questions) (i k q : Nat) : Prop := s.Holds i k q ∧ qs.stale i = false

instance (s : Net) (qs : Questions) (i k q : Nat) : Decidable (s.Waits qs i k q) :=
  inferInstanceAs (Decidable (_ ∧ _))

/-- The answers to a question that are held back. -/
def waits (s : Net) (qs : Questions) (k q : Nat) : Nat :=
  ∑ i ∈ Finset.range maxProvisions, if s.Waits qs i k q then 1 else 0

/-- An open question has at most one answer, kept or held back, and any other
question none. -/
def Single (s : Net) (qs : Questions) : Prop :=
  ∀ k q, (s.conn k).stored q + s.waits qs k q ≤ if qs.isOpen k q then 1 else 0

/-- The peers ask no question under an id that is still open. -/
def AsksFresh (_ : Net) (qs : Questions) (a : Action) : Prop :=
  ∀ k msg, a.Delivers k msg → ∀ q ∈ msg.asks, qs.isOpen k q = false

/-- An embargo is lifted on the connection of its `Accept` and before that is
finished, unless the answer table has no room. -/
def LiftsOpen (s : Net) (qs : Questions) (a : Action) : Prop :=
  ∀ k msg i, a.Delivers k msg → msg.lifts s.vat = some i →
    (s.claims i).acceptor = k ∧ qs.stale i = false ∨ (s.conn k).AnswersFull

theorem single_init : init.Single Questions.init := by
  intro k q
  have stored : (init.conn k).stored q = 0 := Finset.sum_eq_zero fun i _ => if_neg nofun
  have waits : init.waits Questions.init k q = 0 := Finset.sum_eq_zero fun i _ => if_neg nofun
  rw [stored, waits]
  exact Nat.zero_le _

/-- If one provision has changed, the others hold back at most what they did. -/
theorem waits_replace {s s' : Net} {qs qs' : Questions} {i k q : Nat} (index : i < maxProvisions)
    (other : ∀ j, j ≠ i → s'.Waits qs' j k q → s.Waits qs j k q) :
    s'.waits qs' k q + (if s.Waits qs i k q then 1 else 0) ≤
      s.waits qs k q + if s'.Waits qs' i k q then 1 else 0 := by
  have member := Finset.mem_range.mpr index
  have before := Finset.add_sum_erase _ (fun j => if s.Waits qs j k q then 1 else 0) member
  have after := Finset.add_sum_erase _ (fun j => if s'.Waits qs' j k q then 1 else 0) member
  have rest : ∑ j ∈ (Finset.range maxProvisions).erase i,
      (if s'.Waits qs' j k q then 1 else 0) ≤
        ∑ j ∈ (Finset.range maxProvisions).erase i, if s.Waits qs j k q then 1 else 0 := by
    refine Finset.sum_le_sum fun j apart => ?_
    split
    · next holds => rw [if_pos (other j (Finset.ne_of_mem_erase apart) holds)]
    · exact Nat.zero_le _
  unfold waits
  omega

theorem waits_le {s s' : Net} {qs qs' : Questions} {k q : Nat}
    (each : ∀ j, s'.Waits qs' j k q → s.Waits qs j k q) : s'.waits qs' k q ≤ s.waits qs k q := by
  refine Finset.sum_le_sum fun j _ => ?_
  split
  · next holds => rw [if_pos (each j holds)]
  · exact Nat.zero_le _

section
variable {s : Net} {k : Nat} {msg : Incoming} {w : World} {qs : Questions}

/-- A provision that has not changed still waits for what it did. -/
theorem waits_of_same {i : Nat} (same : w.vat.provisions i = s.vat.provisions i) {k' q : Nat}
    (waits : (s.handled k msg w).Waits (s.noted k msg w qs) i k' q) : s.Waits qs i k' q := by
  obtain ⟨holds, fresh⟩ := waits
  refine ⟨(handled_holds_iff same k' q).mp holds, ?_⟩
  have unchanged : ¬((s.vat.provisions i).embargoed = false ∧
      (w.vat.provisions i).embargoed = true) := by
    rw [same]
    rintro ⟨open', held⟩
    rw [open'] at held
    cases held
  unfold noted at fresh
  dsimp only at fresh
  rw [if_neg unchanged, Bool.or_eq_false_iff] at fresh
  exact fresh.1

theorem not_waits_of_open {i : Nat} (open' : (w.vat.provisions i).embargoed = false) {k' q : Nat} :
    ¬(s.handled k msg w).Waits (s.noted k msg w qs) i k' q := by
  rintro ⟨⟨held, -⟩, -⟩
  rw [show (s.handled k msg w).vat = w.vat from rfl, open'] at held
  cases held

/-- A finished question has no answer that waits. -/
theorem not_waits_of_finished {i q : Nat} (same : w.vat.provisions i = s.vat.provisions i)
    (finishes : msg.finishes q = true) :
    ¬(s.handled k msg w).Waits (s.noted k msg w qs) i k q := by
  rintro ⟨holds, fresh⟩
  obtain ⟨held, acceptor, acceptId⟩ := (handled_holds_iff same k q).mp holds
  have unchanged : ¬((s.vat.provisions i).embargoed = false ∧
      (w.vat.provisions i).embargoed = true) := by
    rintro ⟨open', -⟩
    rw [open'] at held
    cases held
  unfold noted at fresh
  dsimp only at fresh
  rw [if_neg unchanged, acceptor, acceptId, finishes] at fresh
  simp at fresh

/-- A message that finishes nothing keeps answers single if it adds at most one
for each question it asks. -/
theorem single_of_le (single : s.Single qs) (fresh : ∀ q ∈ msg.asks, qs.isOpen k q = false)
    (notFinish : msg.which ≠ msgFinish)
    (own : ∀ q, w.conn.stored q + (s.handled k msg w).waits (s.noted k msg w qs) k q ≤
      (s.conn k).stored q + s.waits qs k q + if q ∈ msg.asks then 1 else 0)
    (others : ∀ k', k' ≠ k → ∀ q,
      (s.handled k msg w).waits (s.noted k msg w qs) k' q ≤ s.waits qs k' q) :
    (s.handled k msg w).Single (s.noted k msg w qs) := by
  intro k' q
  have before := single k' q
  by_cases here : k' = k
  · subst here
    have added := own q
    have open' : (s.noted k' msg w qs).isOpen k' q =
        (qs.isOpen k' q || decide (q ∈ msg.asks)) := by
      have stays : msg.finishes q = false := by simp [Incoming.finishes, notFinish]
      simp [noted, stays]
    rw [open', show (s.handled k' msg w).conn k' = w.conn by simp [handled]]
    by_cases asked : q ∈ msg.asks
    · rw [fresh q asked] at before
      simp only [Bool.false_eq_true, if_false, asked, if_true, decide_true, Bool.or_true] at *
      omega
    · simp only [asked, if_false, decide_false, Bool.or_false] at *
      omega
  · have kept := others k' here q
    rw [show (s.handled k msg w).conn k' = s.conn k' by simp [handled, here],
      show (s.noted k msg w qs).isOpen k' q = qs.isOpen k' q by simp [noted, here]]
    omega

/-- A message that finishes a question leaves no answer to it. -/
theorem single_of_finish (single : s.Single qs) (which : msg.which = msgFinish)
    (vat : w.vat = s.vat) (conn : w.conn = (s.conn k).answerDrop msg.questionId) :
    (s.handled k msg w).Single (s.noted k msg w qs) := by
  have waits (k' q : Nat) : (s.handled k msg w).waits (s.noted k msg w qs) k' q ≤ s.waits qs k' q :=
    waits_le fun i => waits_of_same (by rw [vat])
  have asks : msg.asks = [] := if_neg (by
    rw [which]
    simp [msgFinish, msgBootstrap, msgCall, msgJoin, msgProvide, msgAccept])
  intro k' q
  have before := single k' q
  have held := waits k' q
  by_cases here : k' = k
  · subst here
    rw [show (s.handled k' msg w).conn k' = w.conn by simp [handled], conn]
    by_cases ended : msg.questionId = q
    · subst ended
      have finishes : msg.finishes msg.questionId = true := by simp [Incoming.finishes, which]
      have none : (s.handled k' msg w).waits (s.noted k' msg w qs) k' msg.questionId = 0 :=
        Finset.sum_eq_zero fun i _ =>
          if_neg (not_waits_of_finished (by rw [vat]) finishes)
      have once : (s.conn k').stored msg.questionId ≤ 1 := by
        split at before
        · omega
        · omega
      rw [none, Conn.stored_answerDrop_self once]
      exact Nat.zero_le _
    · have open' : (s.noted k' msg w qs).isOpen k' q = qs.isOpen k' q := by
        have stays : msg.finishes q = false := by simp [Incoming.finishes, ended]
        simp [noted, stays, asks]
      have dropped := (s.conn k').stored_answerDrop_le msg.questionId q
      rw [open']
      omega
  · rw [show (s.handled k msg w).conn k' = s.conn k' by simp [handled, here],
      show (s.noted k msg w qs).isOpen k' q = qs.isOpen k' q by simp [noted, here]]
    omega

theorem waits_of_open {i : Nat} {p : Provision} (vat : w.vat = s.vat.setProvision i p)
    (open' : p.embargoed = false) (j k' q : Nat)
    (waits : (s.handled k msg w).Waits (s.noted k msg w qs) j k' q) : s.Waits qs j k' q := by
  by_cases here : j = i
  · subst here
    exact absurd waits (not_waits_of_open (by simp [vat, open']))
  · exact waits_of_same (by simp [vat, here]) waits

/-- Every message keeps answers single, if it asks under new ids and lifts
embargoes for open questions. -/
theorem single_of_handling {c' : Conn} {v' : Vat} {frames : List (List UInt8)}
    (handling : Handling msg (s.conn k) s.vat c' v' frames) (conn : w.conn = c')
    (vat : w.vat = v') (wf : s.Wf) (single : s.Single qs)
    (fresh : ∀ q ∈ msg.asks, qs.isOpen k q = false)
    (lifts : ∀ i, msg.lifts s.vat = some i →
      (s.claims i).acceptor = k ∧ qs.stale i = false ∨ (s.conn k).AnswersFull) :
    (s.handled k msg w).Single (s.noted k msg w qs) := by
  have apart {kind : Nat} (which : msg.which = kind) (ne : kind ≠ msgFinish) :
      msg.which ≠ msgFinish := by
    rw [which]
    exact ne
  have kept (notFinish : msg.which ≠ msgFinish)
      (each : ∀ j k' q, (s.handled k msg w).Waits (s.noted k msg w qs) j k' q → s.Waits qs j k' q)
      (stored : ∀ q, w.conn.stored q ≤ (s.conn k).stored q + if q ∈ msg.asks then 1 else 0) :
      (s.handled k msg w).Single (s.noted k msg w qs) := by
    refine single_of_le single fresh notFinish (fun q => ?_) fun k' _ q => waits_le (each · k' q)
    have held : (s.handled k msg w).waits (s.noted k msg w qs) k q ≤ s.waits qs k q :=
      waits_le (each · k q)
    have answers := stored q
    omega
  have same (unmoved : w.vat = s.vat) (j k' q : Nat)
      (waits : (s.handled k msg w).Waits (s.noted k msg w qs) j k' q) : s.Waits qs j k' q :=
    waits_of_same (by rw [unmoved]) waits
  have idle (answers : w.conn.answers = (s.conn k).answers) (q : Nat) :
      w.conn.stored q ≤ (s.conn k).stored q + if q ∈ msg.asks then 1 else 0 := by
    rw [Conn.stored_congr answers]
    exact Nat.le_add_right _ _
  have answered {c₁ : Conn} {flat : List UInt8} (before : c₁.answers = (s.conn k).answers)
      (asks : msg.asks = [msg.questionId]) (after : w.conn = c₁.answerKeep msg.questionId flat)
      (q : Nat) : w.conn.stored q ≤ (s.conn k).stored q + if q ∈ msg.asks then 1 else 0 := by
    have bound := c₁.stored_answerKeep_le msg.questionId flat q
    rw [Conn.stored_congr before] at bound
    rw [after, asks]
    refine bound.trans (Nat.add_le_add_left ?_ _)
    by_cases here : msg.questionId = q
    · simp [here]
    · simp [here, Ne.symm here]
  cases handling with
  | quiet alike _ inert =>
      exact kept inert.notFinish (same vat) (idle (by rw [conn]; exact alike.answers_eq))
  | finished which => exact single_of_finish single which vat conn
  | released which =>
      refine kept (apart which (by decide)) (same vat) (idle ?_)
      rw [conn]
      unfold Conn.released
      split
      · rfl
      · rfl
  | refused alike asks _ _ =>
      refine kept (fun finish => ?_) (same vat) (idle (by rw [conn]; exact alike.answers_eq))
      have none : msg.asks = [] := if_neg (by
        rw [finish]
        simp [msgFinish, msgBootstrap, msgCall, msgJoin, msgProvide, msgAccept])
      rw [none] at asks
      cases asks
  | bootstrapped which exported _ _ =>
      exact kept (apart which (by decide)) (same vat)
        (answered (Conn.exportCap_answers exported) (if_pos (.inl which)) conn)
  | called which alike _ =>
      exact kept (apart which (by decide)) (same vat)
        (answered alike.answers_eq (if_pos (.inr (.inl which))) conn)
  | @provided i eid nonce flat which offers _ _ =>
      have before : ((s.conn k).retain eid).answers = (s.conn k).answers := rfl
      exact kept (apart which (by decide)) (waits_of_open vat rfl)
        (answered before (asks_of_offers which offers) conn)
  | taken which presents claims exported _ =>
      exact kept (apart which (by decide)) (waits_of_open vat (claimable_some claims).2.2.1)
        (answered (Conn.exportCap_answers exported) (asks_of_presents which presents) conn)
  | @held i eid nonce c' which presents _ claims exported =>
      obtain ⟨index, used, open', -⟩ := claimable_some claims
      have set : w.vat.provisions i = { s.vat.provisions i with
          exportId := eid, embargoed := true, acceptQuestionId := msg.questionId } := by
        simp [vat]
      have now (k' q : Nat) (waits : (s.handled k msg w).Waits (s.noted k msg w qs) i k' q) :
          k = k' ∧ msg.questionId = q := by
        have claim : (s.handled k msg w).claims i =
            { s.claims i with acceptor := k, acceptId := msg.questionId } :=
          Claim.note_held _ _ _ used open' (by rw [set])
        obtain ⟨⟨-, acceptor, acceptId⟩, -⟩ := waits
        rw [claim] at acceptor acceptId
        exact ⟨acceptor, acceptId⟩
      have replaced (k' q : Nat) : (s.handled k msg w).waits (s.noted k msg w qs) k' q ≤
          s.waits qs k' q + if k = k' ∧ msg.questionId = q then 1 else 0 := by
        have total : (s.handled k msg w).waits (s.noted k msg w qs) k' q +
            (if s.Waits qs i k' q then 1 else 0) ≤ s.waits qs k' q +
              if (s.handled k msg w).Waits (s.noted k msg w qs) i k' q then 1 else 0 :=
          waits_replace index fun j other => waits_of_same (by simp [vat, other])
        by_cases waits : (s.handled k msg w).Waits (s.noted k msg w qs) i k' q
        · rw [if_pos waits] at total
          rw [if_pos (now k' q waits)]
          omega
        · rw [if_neg waits] at total
          omega
      refine single_of_le single fresh (apart which (by decide)) (fun q => ?_) fun k' other q => ?_
      · have total := replaced k q
        rw [conn, Conn.stored_congr (Conn.exportCap_answers exported),
          asks_of_presents which presents]
        by_cases here : msg.questionId = q
        · simp only [here, and_self, List.mem_singleton, if_true] at total ⊢
          omega
        · simp only [here, and_false, if_false] at total
          omega
      · have total := replaced k' q
        rw [if_neg fun same => other same.1.symm, add_zero] at total
        exact total
  | @lifted i flat lifted _ =>
      obtain ⟨index, held⟩ := liftable_some lifted
      have which := which_of_lifts lifted
      have each (j k' q : Nat)
          (waits : (s.handled k msg w).Waits (s.noted k msg w qs) j k' q) : s.Waits qs j k' q :=
        waits_of_open vat rfl j k' q waits
      rcases lifts i lifted with ⟨acceptor, stale⟩ | full
      · have named := ((wf.records i).claimed held).1
        refine single_of_le single fresh (apart which (by decide)) (fun q => ?_) fun k' _ q =>
          waits_le (each · k' q)
        have total := waits_replace (k := k) (q := q) index fun j _ => each j k q
        have waits : s.Waits qs i k q ↔ (s.claims i).acceptId = q := by
          simp [Waits, Holds, held, acceptor, stale]
        rw [if_congr waits rfl rfl, if_neg (not_waits_of_open (by simp [vat, Provision.zero])),
          add_zero] at total
        have bound := (s.conn k).stored_answerKeep_le (s.vat.provisions i).acceptQuestionId flat q
        rw [← conn, named] at bound
        omega
      · refine kept (apart which (by decide)) each (idle ?_)
        rw [conn, Conn.answerKeep_of_full full]
  | joinRefused which _ _ => exact kept (apart which (by decide)) (same vat) (idle (by rw [conn]))
  | joined which place _ =>
      have answers := joinPlace_answers place
      exact kept (apart which (by decide)) (same vat) (idle (by rw [conn]; exact answers))
  | @completed slot pnum c₁ _ which place _ _ =>
      have answers := joinPlace_answers place
      refine kept (apart which (by decide)) (same vat) (idle ?_)
      rw [conn]
      cases (msg.joinPart c₁ slot pnum).joined with
      | none => exact answers
      | some _ => exact answers
  | echoed _ _ inert => exact kept inert.notFinish (same vat) (idle (by rw [conn]))

end

/-! ## Runs -/

/-- The application does not work on questions of the peer. -/
theorem noteQuestions_quiet {s : Net} {qs : Questions} {a : Action}
    (quiet : ∀ k env data, a ≠ .deliver k env data) : s.noteQuestions a qs = qs := by
  cases a with
  | deliver k env data => exact absurd rfl (quiet k env data)
  | exportCap _ _ _ => rfl
  | setBootstrap _ _ _ => rfl
  | ask _ _ _ _ => rfl

/-- Every step keeps answers single. -/
theorem single_step {s : Net} {qs : Questions} (sound : s.Sound) (wf : s.Wf)
    (single : s.Single qs) {a : Action} (fresh : s.AsksFresh qs a) (lifts : s.LiftsOpen qs a) :
    (s.step a).Single (s.noteQuestions a qs) := by
  have worked {k : Nat} {c : Conn} (answers : c.answers = (s.conn k).answers) :
      (s.setConn k c).Single qs := by
    intro k' q
    have before := single k' q
    rw [show (s.setConn k c).waits qs k' q = s.waits qs k' q from rfl]
    by_cases here : k' = k
    · subst here
      simpa [setConn, Conn.stored_congr answers] using before
    · simpa [setConn, here] using before
  have does := does sound a
  generalize s.step a = s' at does
  cases does with
  | unread unread =>
      rw [noteQuestions, unread]
      exact single
  | @handled k env data msg w read done handling =>
      rw [noteQuestions, read]
      dsimp only
      rw [done]
      exact single_of_handling handling rfl rfl wf single
        (fresh k msg ⟨env, data, rfl, read⟩) fun i => lifts k msg i ⟨env, data, rfl, read⟩
  | exported exported => exact worked (Conn.exportCap_answers exported)
  | full => exact single
  | @worked a k c quiet _ answers _ =>
      rw [noteQuestions_quiet quiet]
      exact worked answers

theorem single_of_reached {o : Net × Questions}
    (reached : Reached (init, Questions.init) (observed step noteQuestions)
      (fun o a => o.1.AsksFresh o.2 a ∧ o.1.LiftsOpen o.2 a) o) :
    o.1.Sound ∧ o.1.Wf ∧ o.1.Single o.2 := by
  induction reached with
  | start => exact ⟨sound_init, wf_init, single_init⟩
  | @step o _ a meets ih =>
      obtain ⟨sound, wf, single⟩ := ih
      exact ⟨(does sound a).sound sound, wf_step wf a, single_step sound wf single meets.1 meets.2⟩

/-- Finish ends an answer's life: in every run that lifts embargoes for open
questions only, a question that is not open has no answer in the table, and
nothing promised from it resolves. -/
theorem finished_answer_gone {s : Net} {qs : Questions}
    (reached : Reached (init, Questions.init) (observed step noteQuestions)
      (fun o a => o.1.AsksFresh o.2 a ∧ o.1.LiftsOpen o.2 a) (s, qs))
    {k q : Nat} (closed : qs.isOpen k q = false) :
    (∀ i < maxAnswers, ((s.conn k).answers i).used = true →
        ((s.conn k).answers i).questionId ≠ q) ∧
      ∀ (m : Message) (promised : Ptr) (left : Nat), m.getU32 promised 0 0 = q →
        ((s.conn k).resolvePromisedAnswer m promised left).1 = none := by
  obtain ⟨-, -, single⟩ := single_of_reached reached
  have bound := single k q
  rw [closed, if_neg Bool.false_ne_true] at bound
  have none : (s.conn k).stored q = 0 := by
    dsimp only at bound
    omega
  refine ⟨fun i small used same => ?_, fun m promised left named => ?_⟩
  · have entry := Finset.sum_eq_zero_iff.mp none i (Finset.mem_range.mpr small)
    rw [if_pos ⟨used, same⟩] at entry
    cases entry
  · unfold Conn.resolvePromisedAnswer
    split
    · rfl
    · rw [named, Conn.answerFind_of_stored none]

/-- A test for `AsksFresh`. -/
def asksFresh (_ : Net) (qs : Questions) : Action → Bool
  | .deliver k _ data => (readIncoming data).all fun msg => msg.asks.all fun q => !qs.isOpen k q
  | _ => true

theorem asksFresh_sound {s : Net} {qs : Questions} {a : Action}
    (passed : s.asksFresh qs a = true) : s.AsksFresh qs a := by
  rintro k msg ⟨env, data, rfl, read⟩ q asked
  rw [asksFresh, read, Option.all_some, List.all_eq_true] at passed
  simpa using passed q asked

/-- A test for `LiftsOpen`. -/
def liftsOpen (s : Net) (qs : Questions) : Action → Bool
  | .deliver k _ data => (readIncoming data).all fun msg => (msg.lifts s.vat).all fun i =>
      (s.claims i).acceptor == k && !qs.stale i
  | _ => true

theorem liftsOpen_sound {s : Net} {qs : Questions} {a : Action}
    (passed : s.liftsOpen qs a = true) : s.LiftsOpen qs a := by
  rintro k msg i ⟨env, data, rfl, read⟩ lifts
  rw [liftsOpen, read, Option.all_some, lifts, Option.all_some] at passed
  simp only [Bool.and_eq_true, beq_iff_eq, Bool.not_eq_true'] at passed
  exact .inl passed

/-- A `Finish` of a question. -/
def finishFrame (qid : UInt8) : List UInt8 :=
  [0, 0, 0, 0, 4, 0, 0, 0,
   0, 0, 0, 0, 1, 0, 1, 0,
   4, 0, 0, 0, 0, 0, 0, 0,
   0, 0, 0, 0, 1, 0, 0, 0,
   qid, 0, 0, 0, 0, 0, 0, 0]

/-- An `Accept` that is answered and then finished has no answer left. -/
theorem finished_answer_gone_lifted :
    let s := ((embargoedAccept ++ [arrives 0 (disembargoFrame 7), arrives 0 (finishFrame 8)]).foldl
      (observed step noteQuestions) (init, Questions.init)).1
    ∀ i < maxAnswers, ((s.conn 0).answers i).used = true → ((s.conn 0).answers i).questionId ≠ 8 := by
  have reached : Reached (init, Questions.init) (observed step noteQuestions)
      (fun o a => o.1.AsksFresh o.2 a ∧ o.1.LiftsOpen o.2 a)
      ((embargoedAccept ++ [arrives 0 (disembargoFrame 7), arrives 0 (finishFrame 8)]).foldl
        (observed step noteQuestions) (init, Questions.init)) := by
    have tested (o : Net × Questions) (a : Action)
        (passed : (o.1.asksFresh o.2 a && o.1.liftsOpen o.2 a) = true) :
        o.1.AsksFresh o.2 a ∧ o.1.LiftsOpen o.2 a := by
      rw [Bool.and_eq_true] at passed
      exact ⟨asksFresh_sound passed.1, liftsOpen_sound passed.2⟩
    exact Reached.start.of_passes tested (by decide +kernel)
  exact (finished_answer_gone reached (by decide +kernel)).1

/-- An `Accept` that is finished while its answer is held back is answered all
the same, and its answer stays. -/
theorem finished_answer_stays :
    let o := (embargoedAccept ++ [arrives 0 (finishFrame 8), arrives 0 (disembargoFrame 7)]).foldl
      (observed step noteQuestions) (init, Questions.init)
    Reached (init, Questions.init) (observed step noteQuestions)
        (fun o a => o.1.AsksFresh o.2 a) o ∧
      o.2.isOpen 0 8 = false ∧ ((o.1.conn 0).answers 1).used = true ∧
        ((o.1.conn 0).answers 1).questionId = 8 := by
  refine ⟨Reached.start.of_passes (fun o a => asksFresh_sound) (by decide +kernel), ?_⟩
  decide +kernel

end Net

end CapnpJanet.Rpc
