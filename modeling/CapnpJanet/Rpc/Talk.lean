import CapnpJanet.Logic.Dialogue
import CapnpJanet.Rpc.FirstReturn
import CapnpJanet.Rpc.Heard
import CapnpJanet.Rpc.Notices
import CapnpJanet.Rpc.QuestionIds
import CapnpJanet.Rpc.Questions

/-!
# Two vats that ask each other

Two vats that are wired to each other, and whose applications ask questions,
finish them, release what they have imported and lift embargoes while frames
arrive.  A question that is still open is then in exactly one place: on its way,
held back by the vat that is asked, or on its way back as a `Return`.
-/

namespace CapnpJanet.Rpc

open Builder Dialogue Lending Run

/-! ## What is said of questions -/

/-- The answers to a question that provisions hold back. -/
def Vat.holdsAnswer (v : Vat) (qid : Nat) : Nat :=
  ∑ i ∈ Finset.range maxProvisions,
    if (v.provisions i).embargoed ∧ (v.provisions i).acceptQuestionId = qid then 1 else 0

/-- A question is in use and has not been answered. -/
def Conn.Open (c : Conn) (qid : Nat) : Prop :=
  ∃ i < maxQuestions, (c.questions i).used = true ∧ (c.questions i).questionId = qid ∧
    (c.questions i).answered = false

/-- The questions of connection 0. -/
def speech : Speech Net (List UInt8) where
  asks frame qid := ((readIncoming frame).map fun msg => msg.asks.count qid).getD 0
  answers frame qid := if (returnOf frame).map ReturnInfo.answerId = some qid then 1 else 0
  holds s qid := s.vat.holdsAnswer qid
  awaits s qid := (s.conn 0).Open qid
  next s := (s.conn 0).nextQuestionId

/-- A `Return`, or a frame that is read as a message which is no `Join`, as no function
sends one, and does not come back. -/
def Plain (frame : List UInt8) : Prop :=
  (returnOf frame).isSome ∨
    ∃ msg, readIncoming frame = some msg ∧ msg.which ≠ msgJoin ∧ ¬msg.Echoes

section
variable {frame : List UInt8} {msg : Incoming}

theorem asks_of_read (read : readIncoming frame = some msg) (qid : Nat) :
    speech.asks frame qid = msg.asks.count qid := by
  simp [speech, read]

/-- A frame that is not read as a `Return` answers nothing. -/
theorem answers_of_read (read : readIncoming frame = some msg) (other : msg.which ≠ msgReturn)
    (qid : Nat) : speech.answers frame qid = 0 := by
  have none : returnOf frame = none := by
    cases returned : returnOf frame with
    | none => rfl
    | some info => exact absurd (which_of_returnOf returned read) other
  simp [speech, none]

theorem answers_of_returnOf {answerId which : Nat} (returned : returnOf frame = some ⟨answerId, which⟩)
    (qid : Nat) : speech.answers frame qid = if answerId = qid then 1 else 0 := by
  simp [speech, returned]

/-- A `Return` as it is read, and as a peer reads it. -/
theorem returnOf_of_read (read : readIncoming frame = some msg) (which : msg.which = msgReturn)
    (isStruct : msg.body.kind = .struct) :
    returnOf frame = some ⟨msg.questionId, msg.message.getU16 msg.body returnTagOff 0⟩ := by
  obtain ⟨parsed, root, rootEq, whichEq, bodyEq⟩ := readIncoming_some read
  rw [rootEq] at whichEq bodyEq
  have body : (msg.message.getp (msg.message.root Ptr.zero defaultTraversalWords).out 0 Ptr.zero
      (msg.message.root Ptr.zero defaultTraversalWords).left).rc = .ok := by
    by_contra failed
    rw [if_pos failed] at bodyEq
    rw [bodyEq] at isStruct
    cases isStruct
  rw [if_neg (not_not.mpr body)] at bodyEq
  rw [bodyEq] at isStruct
  unfold returnOf
  rw [← messageFromFlat_ok parsed]
  dsimp only
  rw [if_neg (by rw [root, ← whichEq, which]; simp), if_neg (by rw [body, isStruct]; simp), ← bodyEq]
  rfl

theorem Plain.spares (plain : Plain frame) (read : readIncoming frame = some msg) :
    msg.which ≠ msgJoin ∧ ¬msg.Echoes := by
  rcases plain with returned | ⟨msg', read', spares⟩
  · obtain ⟨info, returned⟩ := Option.isSome_iff_exists.mp returned
    have which := which_of_returnOf returned read
    constructor
    · rw [which]
      decide
    · rintro ⟨unhandled, -⟩
      rw [which] at unhandled
      exact unhandled (by decide)
  · rwa [← Option.some.inj (read'.symm.trans read)]

/-- A plain frame is read, if the parser opens it. -/
theorem Plain.read (plain : Plain frame)
    (opens : (returnOf frame).isSome → ∃ m, messageFromFlat frame = .ok m) :
    ∃ msg, readIncoming frame = some msg := by
  rcases plain with returned | ⟨msg, read, -⟩
  · obtain ⟨m, parsed⟩ := opens returned
    have same := messageFromFlat_ok parsed
    unfold returnOf at returned
    dsimp only at returned
    rw [← same] at returned
    split at returned
    · cases returned
    · next root =>
      rw [not_or, not_not] at root
      unfold readIncoming
      rw [parsed]
      dsimp only
      rw [if_neg (not_not.mpr root.1)]
      exact ⟨_, rfl⟩
  · exact ⟨msg, read⟩

/-- The messages that no function answers. -/
def Incoming.Tells (msg : Incoming) : Prop :=
  msg.which = msgReturn ∨ msg.which = msgFinish ∨ msg.which = msgRelease ∨
    msg.which = msgUnimplemented ∨ msg.which = msgAbort ∨ msg.which = msgDisembargo

theorem Incoming.Tells.asks (tells : msg.Tells) : msg.asks = [] := by
  apply if_neg
  rcases tells with which | which | which | which | which | which
  all_goals
    rw [which]
    simp [msgReturn, msgFinish, msgRelease, msgUnimplemented, msgAbort, msgDisembargo, msgBootstrap,
      msgCall, msgJoin, msgProvide, msgAccept]

end

/-! ## Hearing -/

/-- A frame that arrives makes no dispatch function fail; if it is a `Return`, the
parser opens it and it fits the buffer of its question. -/
structure Arrives (s : Net) (env : Env) (frame : List UInt8) : Prop where
  works : ∀ msg, readIncoming frame = some msg → ¬msg.DispatchFails env (s.conn 0)
  opens : (returnOf frame).isSome → ∃ m, messageFromFlat frame = .ok m
  short : (returnOf frame).isSome → frame.length ≤ maxAnswerBytes

/-- What a vat keeps on its connection 0. -/
structure Kept (s : Net) : Prop where
  sound : s.Sound
  wf : s.Wf
  distinct : (s.conn 0).DistinctIds
  below : ∀ i < maxQuestions, ((s.conn 0).questions i).used = true →
    ((s.conn 0).questions i).questionId < (s.conn 0).nextQuestionId
  /-- An answered question has a `Return` of its own. -/
  recorded : ∀ i < maxQuestions, ((s.conn 0).questions i).used = true →
    ((s.conn 0).questions i).answered = true → ∃ which,
      returnOf ((s.conn 0).questions i).reply = some ⟨((s.conn 0).questions i).questionId, which⟩

theorem kept_init : Kept Net.init :=
  ⟨Net.sound_init, Net.wf_init, fun _ _ _ _ => nofun, fun _ _ => nofun, fun _ _ => nofun⟩

theorem Vat.holdsAnswer_setProvision (v : Vat) {i : Nat} (index : i < maxProvisions) (p : Provision)
    (qid : Nat) : (v.setProvision i p).holdsAnswer qid +
        (if (v.provisions i).embargoed ∧ (v.provisions i).acceptQuestionId = qid then 1 else 0) =
      v.holdsAnswer qid + if p.embargoed ∧ p.acceptQuestionId = qid then 1 else 0 := by
  have replaced := sum_range_replace index
    (f := fun j => if (v.provisions j).embargoed ∧ (v.provisions j).acceptQuestionId = qid then 1
      else 0)
    (g := fun j => if ((v.setProvision i p).provisions j).embargoed ∧
      ((v.setProvision i p).provisions j).acceptQuestionId = qid then 1 else 0)
    fun j other => by simp [other]
  simpa [holdsAnswer] using replaced

section
variable {msg : Incoming} {c c' : Conn} {v v' : Vat} {sent : List (List UInt8)}

/-- What is asked is answered or held: the answers that are sent, and those
that are held, are for the question that is asked, and for those held before. -/
theorem Handling.settles (handling : Handling msg c v c' v' sent)
    (records : ∀ i, (v.provisions i).embargoed = true → (v.provisions i).used = true)
    (noJoin : msg.which ≠ msgJoin) (answered : msg.which = msgCall → sent ≠ []) (qid : Nat) :
    total speech.answers sent qid + v'.holdsAnswer qid = msg.asks.count qid + v.holdsAnswer qid := by
  have one {flat : List UInt8} {q which : Nat} {hosted : List Nat}
      (isReturn : IsReturn flat q which hosted) :
      total speech.answers [flat] qid = [q].count qid := by
    rw [total_cons, total_nil, answers_of_returnOf isReturn.read]
    simp [List.count_singleton]
  have open' {i : Nat} (index : i < maxProvisions) {p : Provision}
      (before : (v.provisions i).embargoed = false) (after : p.embargoed = false) :
      (v.setProvision i p).holdsAnswer qid = v.holdsAnswer qid := by
    have replaced := v.holdsAnswer_setProvision index p qid
    simpa [before, after] using replaced
  have asksIt {kind : Nat} (which : msg.which = kind)
      (asks : kind = msgBootstrap ∨ kind = msgCall) : msg.asks = [msg.questionId] := by
    unfold Incoming.asks
    rw [if_pos]
    rw [which]
    tauto
  have tells (tells : msg.Tells) : msg.asks.count qid = 0 := by
    rw [tells.asks]
    rfl
  cases handling with
  | quiet _ asks _ =>
      rcases asks with none | which
      · rw [none]
        rfl
      · exact absurd rfl (answered which)
  | finished which =>
      rw [tells (.inr (.inl which))]
      rfl
  | released which =>
      rw [tells (.inr (.inr (.inl which)))]
      rfl
  | refused _ asks isReturn _ => rw [one isReturn, asks]
  | bootstrapped which _ isReturn _ => rw [one isReturn.toIsReturn, asksIt which (.inl rfl)]
  | called which _ isReturn => rw [one isReturn, asksIt which (.inr rfl)]
  | @provided i _ _ _ which offers free isReturn =>
      obtain ⟨index, unused, -⟩ := firstIndex_eq_some free
      have before : (v.provisions i).embargoed = false := by
        cases held : (v.provisions i).embargoed with
        | false => rfl
        | true => simp [records i held] at unused
      rw [one isReturn, asks_of_offers which offers, open' index before rfl]
  | @taken i _ _ _ _ which presents claims _ isReturn _ =>
      obtain ⟨index, -, before, -⟩ := claimable_some claims
      rw [one isReturn.toIsReturn, asks_of_presents which presents]
      exact congrArg ([msg.questionId].count qid + ·) (open' index before before)
  | @held i eid _ _ which presents _ claims _ =>
      obtain ⟨index, -, before, -⟩ := claimable_some claims
      have replaced := v.holdsAnswer_setProvision index { v.provisions i with
        exportId := eid, embargoed := true, acceptQuestionId := msg.questionId } qid
      rw [total_nil, asks_of_presents which presents, List.count_singleton]
      simp only [before, Bool.false_eq_true, false_and, if_false, true_and, beq_iff_eq] at replaced ⊢
      omega
  | @lifted i _ lifts isReturn =>
      obtain ⟨index, before⟩ := Net.liftable_some lifts
      have replaced := v.holdsAnswer_setProvision index Provision.zero qid
      rw [one isReturn.toIsReturn, tells (.inr (.inr (.inr (.inr (.inr (which_of_lifts lifts)))))),
        List.count_singleton]
      simp only [before, true_and, beq_iff_eq] at replaced ⊢
      rw [if_neg (show ¬(Provision.zero.embargoed = true ∧ Provision.zero.acceptQuestionId = qid) from
        nofun)] at replaced
      omega
  | joinRefused which _ _ => exact absurd which noJoin
  | joined which _ _ => exact absurd which noJoin
  | completed which _ _ _ => exact absurd which noJoin
  | @echoed flat asks silent _ _ =>
      have none : speech.answers flat qid = 0 := by simp [speech, silent]
      rw [asks, total_cons, total_nil, none]
      rfl

/-- A message that does not come back is answered with `Return`s. -/
theorem Handling.plain (handling : Handling msg c v c' v' sent) (silent : ¬msg.Echoes) :
    ∀ frame ∈ sent, Plain frame := by
  have one {flat : List UInt8} {qid which : Nat} {hosted : List Nat}
      (isReturn : IsReturn flat qid which hosted) : ∀ frame ∈ [flat], Plain frame := by
    intro frame member
    rw [List.mem_singleton.mp member, Plain, isReturn.read]
    exact .inl rfl
  cases handling with
  | quiet _ _ _ | finished _ | released _ => exact fun _ => nofun
  | held _ _ _ _ _ | joined _ _ _ => exact fun _ => nofun
  | refused _ _ isReturn _ => exact one isReturn
  | bootstrapped _ _ isReturn _ => exact one isReturn.toIsReturn
  | called _ _ isReturn => exact one isReturn
  | provided _ _ _ isReturn => exact one isReturn
  | taken _ _ _ _ isReturn _ => exact one isReturn.toIsReturn
  | lifted _ isReturn => exact one isReturn.toIsReturn
  | joinRefused _ _ isReturn => exact one isReturn.toIsReturn
  | completed _ _ _ answers =>
      intro frame member
      obtain ⟨i, -, isReturn⟩ := answers.mem member
      exact one isReturn.toIsReturn frame (List.mem_singleton_self frame)
  | echoed _ _ _ _ echoes => exact absurd echoes silent

end

section
variable {msg : Incoming} {data : List UInt8} {c c' : Conn}

/-- A recorded `Return` answers its question. -/
theorem Learns.closes (learns : Learns msg data c c') {j : Nat}
    (records : msg.records data c = some j) :
    (c'.questions j).answered = true ∧ (c'.questions j).reply = data := by
  cases learns with
  | nothing none _ _ =>
      rw [none] at records
      cases records
  | called which _ =>
      rw [records_of_ne (by rw [which]; decide)] at records
      cases records
  | returned records' asked =>
      cases records'.symm.trans records
      rw [asked.questions]
      dsimp only
      rw [Function.update_self]
      exact ⟨rfl, rfl⟩

/-- What is recorded is a `Return` for its question. -/
theorem Learns.recorded (learns : Learns msg data c c') (read : readIncoming data = some msg)
    {j : Nat} (before : (c.questions j).answered = true → ∃ which,
      returnOf (c.questions j).reply = some ⟨(c.questions j).questionId, which⟩)
    (answered : (c'.questions j).answered = true) :
    ∃ which, returnOf (c'.questions j).reply = some ⟨(c'.questions j).questionId, which⟩ := by
  by_cases records : msg.records data c = some j
  · rw [(learns.closes records).2, learns.sameIds.ids]
    unfold Incoming.records at records
    split at records
    · next isReturn =>
      rw [(Conn.questionFind_some records).2]
      exact ⟨_, returnOf_of_read read isReturn.1 isReturn.2.1⟩
    · cases records
  · rw [learns.question_eq records] at answered ⊢
    exact before answered

end

/-- What an application may do: it talks to the peer, and does not count its
questions up to the failure value; or it registers a capability. -/
inductive Deed.Orderly (c : Conn) : Deed → Prop
  | talks {d : Deed} (talks : d.Talks c)
      (counts : ∀ env request, d = .ask env request → c.nextQuestionId < noQuestion) : Orderly c d
  | exportCap (server dispatch : Nat) : Orderly c (.exportCap server dispatch)
  | setBootstrap (server dispatch : Nat) : Orderly c (.setBootstrap server dispatch)

/-- The questions that a deed asks. -/
def Deed.asked (c : Conn) : Deed → List Nat
  | .ask _ _ => [c.nextQuestionId]
  | _ => []

section
variable {c : Conn} {v : Vat} {d : Deed} {msg : Incoming}

/-- A message that is no `Return` and no `Join`, and does not come back. -/
structure Incoming.IsPlain (msg : Incoming) : Prop where
  notReturn : msg.which ≠ msgReturn
  notJoin : msg.which ≠ msgJoin
  stays : ¬msg.Echoes

theorem Incoming.isPlain_of_handled {kind : Nat} (which : msg.which = kind)
    (handled : kind ∈ handledTags) (notReturn : kind ≠ msgReturn) (notJoin : kind ≠ msgJoin) :
    msg.IsPlain := by
  subst which
  exact ⟨notReturn, notJoin, fun echoes => echoes.1 handled⟩

/-- A question is heard as a question. -/
theorem Request.Heard.asks {request : Request} {qid : Nat} (heard : request.Heard qid msg) :
    msg.asks = [qid] ∧ msg.IsPlain := by
  cases request with
  | bootstrap =>
      obtain ⟨which, rfl⟩ := heard
      exact ⟨if_pos (.inl which),
        Incoming.isPlain_of_handled which (by decide) (by decide) (by decide)⟩
  | call _ _ _ _ _ _ =>
      obtain ⟨params, b, -, heard⟩ := heard
      rw [← heard.qid]
      exact ⟨if_pos (.inr (.inl heard.which)),
        Incoming.isPlain_of_handled heard.which (by decide) (by decide) (by decide)⟩
  | provide _ _ _ _ =>
      obtain ⟨which, rfl, isStruct, -⟩ := heard
      exact ⟨asks_of_struct isStruct (.inl which),
        Incoming.isPlain_of_handled which (by decide) (by decide) (by decide)⟩
  | accept _ _ =>
      obtain ⟨which, rfl, isStruct, -⟩ := heard
      exact ⟨asks_of_struct isStruct (.inr which),
        Incoming.isPlain_of_handled which (by decide) (by decide) (by decide)⟩

/-- What is heard of a deed asks what the deed asks, and answers nothing. -/
theorem Deed.Heard.asks (heard : d.Heard c msg) : msg.asks = d.asked c ∧ msg.IsPlain := by
  cases d with
  | ask env request => exact Request.Heard.asks heard
  | finish env qid =>
      exact ⟨Incoming.Tells.asks (.inr (.inl heard.1)),
        Incoming.isPlain_of_handled heard.1 (by decide) (by decide) (by decide)⟩
  | release env importId count =>
      exact ⟨Incoming.Tells.asks (.inr (.inr (.inl heard.1))),
        Incoming.isPlain_of_handled heard.1 (by decide) (by decide) (by decide)⟩
  | disembargo env provideQid =>
      obtain ⟨which, -, context, -⟩ := heard
      refine ⟨Incoming.Tells.asks (.inr (.inr (.inr (.inr (.inr which))))), ?_, ?_, fun echoes => ?_⟩
      · rw [which]
        decide
      · rw [which]
        decide
      · have loopback := echoes.2 which
        rw [context] at loopback
        cases loopback
  | introductionDone env nonce =>
      obtain ⟨_, -, which, -⟩ := heard
      exact ⟨Incoming.Tells.asks (.inr (.inr (.inl which))),
        Incoming.isPlain_of_handled which (by decide) (by decide) (by decide)⟩
  | deliver _ _ | exportCap _ _ | setBootstrap _ _ => exact heard.elim

/-- An orderly deed numbers the question it asks, and opens no other. -/
theorem Deed.Orderly.entries (orderly : d.Orderly c) (v : Vat) :
    (d.run c v).conn.nextQuestionId = c.nextQuestionId + (d.asked c).length ∧
      ∀ j, ((d.run c v).conn.questions j).used = true →
        (d.run c v).conn.questions j = c.questions j ∨ d.asked c = [c.nextQuestionId] ∧
          ((d.run c v).conn.questions j).questionId = c.nextQuestionId ∧
            ((d.run c v).conn.questions j).answered = false := by
  have quiet (quiet : d.Quiet) (asked : d.asked c = []) :
      (d.run c v).conn.nextQuestionId = c.nextQuestionId + (d.asked c).length ∧
        ∀ j, (d.run c v).conn.questions j = c.questions j := by
    obtain ⟨questions, next⟩ := Deed.run_quiet (c := c) v quiet
    rw [questions, next, asked]
    exact ⟨rfl, fun _ => rfl⟩
  cases orderly with
  | exportCap server dispatch => exact (quiet trivial rfl).imp_right fun same j _ => .inl (same j)
  | setBootstrap server dispatch => exact (quiet trivial rfl).imp_right fun same j _ => .inl (same j)
  | talks talks counts =>
      obtain ⟨flat, run, -⟩ := deed_heard c v talks
      cases talks with
      | @ask env request i slot _ _ _ =>
          have counted := counts env request rfl
          have conn : ((Deed.ask env request).run c v).conn = c.claimed i := by
            rw [run, Conn.spoken, slot]
            rfl
          rw [conn]
          refine ⟨?_, fun j used => ?_⟩
          · change (c.nextQuestionId + 1) % 2 ^ 32 = c.nextQuestionId + 1
            unfold noQuestion at counted
            omega
          · by_cases here : j = i
            · rw [here, Conn.claimed_self]
              exact .inr ⟨rfl, rfl, rfl⟩
            · exact .inl (Conn.claimed_of_ne c here)
      | @finish env qid _ =>
          rw [finish_conn, Conn.finished]
          split
          · exact ⟨rfl, fun j _ => .inl rfl⟩
          · exact ⟨rfl, fun j used => .inl (Conn.questionDrop_kept _ _ used).2⟩
      | release _ _ => exact (quiet trivial rfl).imp_right fun same j _ => .inl (same j)
      | disembargo _ => exact (quiet trivial rfl).imp_right fun same j _ => .inl (same j)
      | introductionDone _ _ => exact (quiet trivial rfl).imp_right fun same j _ => .inl (same j)

end

/-- What an orderly deed sends. -/
theorem Deed.Orderly.sends {c : Conn} {d : Deed} (orderly : d.Orderly c) (v : Vat) (qid : Nat) :
    total speech.asks (d.run c v).sent qid = (d.asked c).count qid ∧
      total speech.answers (d.run c v).sent qid = 0 ∧ ∀ frame ∈ (d.run c v).sent, Plain frame := by
  cases orderly with
  | exportCap _ _ => exact ⟨rfl, rfl, fun _ member => absurd member List.not_mem_nil⟩
  | setBootstrap _ _ => exact ⟨rfl, rfl, fun _ member => absurd member List.not_mem_nil⟩
  | talks talks _ =>
      obtain ⟨flat, run, msg, read, heard⟩ := deed_heard c v talks
      obtain ⟨asks, plain⟩ := Deed.Heard.asks heard
      have sent : (d.run c v).sent = [flat] := by rw [run]
      rw [sent]
      refine ⟨?_, ?_, fun frame member => ?_⟩
      · rw [total_cons, total_nil, asks_of_read read, asks, Nat.add_zero]
      · rw [total_cons, total_nil, answers_of_read read plain.notReturn]
      · rw [List.mem_singleton.mp member]
        exact .inr ⟨msg, read, plain.notJoin, plain.stays⟩

end CapnpJanet.Rpc
