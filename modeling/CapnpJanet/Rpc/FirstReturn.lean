import CapnpJanet.Rpc.Asking

/-!
# The first `Return` decides

A question that has been answered stays in its table until it is finished, so
that its reply can be read.  A later `Return` that names it and fits is recorded
just like the first one: it replaces the reply, and its introductions are noted
again.  Apart from such a replay nothing changes an answered question.
-/

namespace CapnpJanet.Rpc

open Builder Run

/-! ## Replays -/

/-- A question that has been asked and not been answered yet. -/
def Conn.Outstanding (c : Conn) (qid : Nat) : Prop :=
  ∃ i, c.questionFind qid = some i ∧ (c.questions i).answered = false

/-- The message is a `Return` that is recorded against an answered question. -/
def Incoming.Replays (msg : Incoming) (data : List UInt8) (c : Conn) : Prop :=
  ∃ i, msg.records data c = some i ∧ (c.questions i).answered = true

section
variable {msg : Incoming} {data : List UInt8} {c : Conn} (v : Vat)

/-- A `Return` that is not recorded leaves everything as it was. -/
theorem handleReturn_unrecorded (which : msg.which = msgReturn)
    (unrecorded : msg.records data c = none) :
    handleReturn msg.message msg.body data msg.left (World.start c v) = World.start c v := by
  unfold handleReturn
  split
  · rfl
  · next isStruct =>
    unfold Incoming.records at unrecorded
    split
    · rfl
    · next i found =>
      split
      · rfl
      · next short =>
        rw [if_pos ⟨which, not_not.mp isStruct, not_lt.mp short⟩] at unrecorded
        exact absurd (found.symm.trans unrecorded) nofun

/-- A `Return` that names no outstanding question is not recorded, unless it is
a replay. -/
theorem records_of_not_outstanding (known : ¬c.Outstanding msg.questionId)
    (first : ¬msg.Replays data c) : msg.records data c = none := by
  cases records : msg.records data c with
  | none => rfl
  | some i =>
      have found : c.questionFind msg.questionId = some i := by
        unfold Incoming.records at records
        split at records
        · exact records
        · cases records
      cases answered : (c.questions i).answered with
      | true => exact absurd ⟨i, records, answered⟩ first
      | false => exact absurd ⟨i, found, answered⟩ known

end

/-- Only a `Return` recorded against it changes an entry. -/
theorem Learns.question_eq {msg : Incoming} {data : List UInt8} {c c' : Conn} {i : Nat}
    (learns : Learns msg data c c') (other : msg.records data c ≠ some i) :
    c'.questions i = c.questions i := by
  have noted := (addIntroductions_noting c msg.introduces).questions_eq
  cases learns with
  | nothing _ _ same => rw [same.questions]
  | called _ same => rw [same.questions, noted]
  | @returned j records same =>
      have apart : i ≠ j := by
        rintro rfl
        exact other records
      rw [same.questions]
      exact Function.update_of_ne apart _ _

/-! ## Runs -/

namespace Net

/-- No `Return` arrives for a question that is answered already. -/
def NoReplay (s : Net) (a : Nat × Deed) : Prop :=
  ∀ env data msg, a.2 = .deliver env data → readIncoming data = some msg →
    ¬msg.Replays data (s.conn a.1)

/-- The question in entry `i` of connection `k` is not finished. -/
def KeepsOpen (k i : Nat) (s : Net) (a : Nat × Deed) : Prop :=
  ∀ env qid, a = (k, .finish env qid) → (s.conn k).questionFind qid ≠ some i

/-- A deed leaves an answered question alone, unless it finishes or replays
it. -/
theorem question_eq_run {s : Net} {k i : Nat} {d : Deed}
    (used : ((s.conn k).questions i).used = true)
    (answered : ((s.conn k).questions i).answered = true) (first : s.NoReplay (k, d))
    (open' : KeepsOpen k i s (k, d)) :
    (d.run (s.conn k) s.vat).conn.questions i = (s.conn k).questions i := by
  rcases d.kinds with ⟨env, data, rfl⟩ | ⟨env, request, rfl⟩ | ⟨env, qid, rfl⟩ | quiet
  · cases read : readIncoming data with
    | none =>
        rw [Deed.run, deliver_unread s.vat env read]
        rfl
    | some msg =>
        refine (deliver_learns s.vat env read).question_eq fun records => ?_
        exact first env data msg rfl read ⟨i, records, answered⟩
  · have asks := request_asks (World.start (s.conn k) s.vat) env request
    change ((World.start (s.conn k) s.vat).request env request).2.conn.questions i = _
    generalize (World.start (s.conn k) s.vat).request env request = result at asks ⊢
    have other {j : Nat} (slot : (s.conn k).questionSlot = some j) : i ≠ j := by
      rintro rfl
      rw [(Conn.questionSlot_some slot).2] at used
      cases used
    cases asks with
    | refused => rfl
    | failed slot _ =>
        exact (Function.update_of_ne (other slot) _ _).trans (Conn.claimed_of_ne _ (other slot))
    | asked slot _ _ _ => exact Conn.claimed_of_ne _ (other slot)
  · rw [finish_conn, Conn.finished]
    split
    · rfl
    · next j found =>
      refine Function.update_of_ne ?_ _ _
      rintro rfl
      exact open' env qid rfl found
  · exact congrFun (Deed.run_quiet s.vat quiet).1 i

/-- The first `Return` decides.  From any state on, if no `Return` arrives
for a question that is answered already: an answered question stays as it is
until it is finished, and a `Return` that names no outstanding question changes
nothing. -/
theorem first_return_decides (s : Net) (k : Nat) :
    (∀ i, ((s.conn k).questions i).used = true → ((s.conn k).questions i).answered = true →
      ∀ s', Reached s act (fun s a => NoReplay s a ∧ KeepsOpen k i s a) s' →
        (s'.conn k).questions i = (s.conn k).questions i) ∧
    ∀ env data msg, NoReplay s (k, .deliver env data) → readIncoming data = some msg →
      msg.which = msgReturn → ¬(s.conn k).Outstanding msg.questionId →
        (s.act (k, .deliver env data)).conn = s.conn ∧ (s.act (k, .deliver env data)).vat = s.vat := by
  constructor
  · intro i used answered s' later
    induction later with
    | start => rfl
    | @step s' _ a met ih =>
        obtain ⟨k', d⟩ := a
        by_cases here : k' = k
        · subst here
          rw [act_conn_self, question_eq_run (by rwa [ih]) (by rwa [ih]) met.1 met.2, ih]
        · rw [act_conn_of_ne s' (Ne.symm here), ih]
  · intro env data msg first read which unknown
    have unrecorded := records_of_not_outstanding unknown (first env data msg rfl read)
    have idle : handle env data (s.conn k) s.vat = (0, World.start (s.conn k) s.vat) := by
      rw [handle, read]
      dsimp only
      rw [handleIncoming, which]
      exact congrArg (Prod.mk 0) (handleReturn_unrecorded s.vat which unrecorded)
    constructor
    · rw [act_conn, Deed.run, idle]
      exact Function.update_eq_self k s.conn
    · change (s.step (.deliver k env data)).vat = s.vat
      rw [step_deliver read, idle]
      rfl

/-- A connection whose first question has been answered. -/
def answeredNet : Net :=
  (init.act (0, .ask (returningEnv 0) .bootstrap)).act (0, .deliver (returningEnv 0) (returnFrame 0 0))

theorem answeredNet_question : ((answeredNet.conn 0).questions 0).used = true ∧
    ((answeredNet.conn 0).questions 0).answered = true ∧
      ((answeredNet.conn 0).questions 0).failed = false := by
  decide +kernel

/-- A stray `Return` changes nothing. -/
theorem first_return_decides_stray :
    (answeredNet.act (0, .deliver (returningEnv 0) (returnFrame 77 0))).conn = answeredNet.conn ∧
      ((answeredNet.act (0, .deliver (returningEnv 0) (returnFrame 77 0))).conn 0).questions 0 =
        (answeredNet.conn 0).questions 0 := by
  obtain ⟨kept, idle⟩ := first_return_decides answeredNet 0
  have found : ((readIncoming (returnFrame 77 0)).any fun msg =>
      msg.which == msgReturn && msg.questionId == 77) = true := by
    decide +kernel
  obtain ⟨msg, read, facts⟩ := (Option.any_eq_true _ _).mp found
  simp only [Bool.and_eq_true, beq_iff_eq] at facts
  have unknown : (answeredNet.conn 0).questionFind msg.questionId = none := by
    rw [facts.2]
    decide +kernel
  have first : NoReplay answeredNet (0, .deliver (returningEnv 0) (returnFrame 77 0)) := by
    rintro env data msg' deed read' ⟨i, records, -⟩
    cases deed
    rw [read, Option.some.injEq] at read'
    subst read'
    unfold Incoming.records at records
    split at records
    · exact absurd (unknown.symm.trans records) nofun
    · cases records
  have stray : ¬(answeredNet.conn 0).Outstanding msg.questionId := by
    rintro ⟨i, found, -⟩
    exact absurd (unknown.symm.trans found) nofun
  exact ⟨(idle _ _ msg first read facts.1 stray).1,
    kept 0 answeredNet_question.1 answeredNet_question.2.1 _
      (Reached.start.step ⟨first, fun _ _ deed => nomatch deed⟩)⟩

/-- A `Return` of an exception. -/
def failedFrame (qid : UInt8) : List UInt8 :=
  [0, 0, 0, 0, 6, 0, 0, 0,
   0, 0, 0, 0, 1, 0, 1, 0,
   3, 0, 0, 0, 0, 0, 0, 0,
   0, 0, 0, 0, 2, 0, 1, 0,
   qid, 0, 0, 0, 0, 0, 1, 0,
   0, 0, 0, 0, 0, 0, 0, 0,
   0, 0, 0, 0, 0, 0, 0, 0]

/-- A second `Return` replaces the first: an answered question fails. -/
theorem first_return_replaced : ∃ s s', Reached init act (fun _ _ => True) s ∧
    ((s.conn 0).questions 0).used = true ∧ ((s.conn 0).questions 0).answered = true ∧
      Reached s act (KeepsOpen 0 0) s' ∧
        ((s.conn 0).questions 0).failed = false ∧ ((s'.conn 0).questions 0).failed = true ∧
          ((s'.conn 0).questions 0).reply ≠ ((s.conn 0).questions 0).reply := by
  refine ⟨answeredNet, answeredNet.act (0, .deliver (returningEnv 0) (failedFrame 0)),
    (Reached.start.step trivial).step trivial, answeredNet_question.1, answeredNet_question.2.1,
    Reached.start.step (fun _ _ deed => nomatch deed), answeredNet_question.2.2, ?_, ?_⟩
  · decide +kernel
  · decide +kernel

end Net

end CapnpJanet.Rpc
