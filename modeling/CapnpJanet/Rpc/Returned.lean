import CapnpJanet.Rpc.Heard

/-!
# What an answer carries

The answers that a vat can give, as values, and what an application reads once
the `Return` with such an answer has arrived: whether its question has failed,
the id of a capability, or the results.  Each frame that answers a question
carries the answer it was built for.
-/

namespace CapnpJanet.Rpc

open ByteMemory Builder Outcome

/-- `capnp_rpc_answer_cap_id` -/
def Conn.answerCapId (c : Conn) (qid : Nat) : Int :=
  match c.questionFind qid with
  | none => -1
  | some i =>
      let q := c.questions i
      if q.answered = false ∨ q.failed then -1
      else
        match messageFromFlat q.reply with
        | .error _ => -1
        | .ok _ =>
            match capIdOf q.reply with
            | none => -1
            | some id => int32 id

/-! ## Returns -/

/-- A frame that starts like a `Return`, as it is read. -/
def returnIncoming (flat : List UInt8) : Incoming where
  message := Frame.message (ofList flat)
  root := Message.structAt 0 1 1 1
  which := msgReturn
  body := Message.structAt 0 3 2 1
  left := defaultTraversalWords - 3 - (2 + 1 + 1)

/-- A frame that starts like a `Return` is read as one. -/
theorem return_read {b : Builder} {flat : List UInt8} {qid which : Nat}
    (done : b.serialize = .ok flat) (few : b.nsegs ≤ maxSegments) (fits : b.Framable)
    (head : ReturnWords (b.seg 0).data qid which) (inside : 6 ≤ (b.seg 0).words) :
    readIncoming flat = some (returnIncoming flat) ∧ (returnIncoming flat).questionId = qid ∧
      ((returnIncoming flat).HasResults ↔ which = returnTagResults) := by
  have starts := starts_serialize done fits
  refine ⟨readIncoming_serialize done few fits ⟨head.toMessageWords, head.ret⟩ (by decide)
    (by decide) inside, ?_, ?_⟩
  · exact (starts.getScalar_eq (by decide) (by omega) 0).trans head.answerId
  · have tag : (returnIncoming flat).message.getU16 (returnIncoming flat).body returnTagOff 0 = which :=
      (starts.getScalar_eq (by decide) (by omega) 0).trans head.which
    rw [Incoming.HasResults, tag]

section
variable {c : Conn} (v : Vat) (env : Env) {data : List UInt8} {msg : Incoming} {i : Nat}

/-- A `Return` that fits is written into the entry of its question. -/
theorem return_written (read : readIncoming data = some msg) (isReturn : msg.which = msgReturn)
    (isStruct : msg.body.kind = .struct) (found : c.questionFind msg.questionId = some i)
    (short : data.length ≤ maxAnswerBytes) :
    (handle env data c v).2.conn.questions = Function.update c.questions i { c.questions i with
      answered := true
      failed := decide ¬msg.HasResults
      reply := data } := by
  have start : (World.start c v).conn.questionFind
      (msg.message.getU32 msg.body returnAnswerIdOff 0) = some i := found
  obtain ⟨c', noting, done⟩ := handleReturn_short msg.left isStruct start short
  have handled : (handle env data c v).2 =
      handleReturn msg.message msg.body data msg.left (World.start c v) := by
    rw [handle, read]
    dsimp only
    rw [handleIncoming, isReturn]
    rfl
  rw [handled, done, noting.questions_eq]
  rfl

/-- The capability id that is read is that of the frame that has been recorded. -/
theorem answerCapId_elim (read : readIncoming data = some msg) (isReturn : msg.which = msgReturn)
    (isStruct : msg.body.kind = .struct) (results : msg.HasResults)
    (found : c.questionFind msg.questionId = some i) (short : data.length ≤ maxAnswerBytes) :
    (handle env data c v).2.conn.answerCapId msg.questionId =
      (capIdOf data).elim (-1) fun id => int32 id := by
  have written := return_written v env read isReturn isStruct found short
  have finds : (handle env data c v).2.conn.questionFind msg.questionId = some i := by
    rw [← found]
    apply Conn.questionFind_congr
    intro j
    rw [written]
    by_cases here : j = i
    · rw [here, Function.update_self]
      exact ⟨rfl, rfl⟩
    · rw [Function.update_of_ne here]
      exact ⟨rfl, rfl⟩
  have entry := congrFun written i
  rw [Function.update_self] at entry
  rw [Conn.answerCapId, finds]
  dsimp only
  rw [entry]
  dsimp only
  rw [if_neg (by simp [results]), (readIncoming_some read).1]
  cases capIdOf data with
  | none => rw [Option.elim_none]
  | some id => rw [Option.elim_some]

end

/-! ## The results of a call -/

/-- The reply of a dispatch function is read at the results handle that it was
given, from the segments it has filled in. -/
theorem reply_read {qid : Nat} (qidLt : qid < 2 ^ 32) {ops : List BuildOp}
    (framable : (callReply qid ops).Framable) (few : (callReply qid ops).nsegs ≤ maxSegments) :
    ∃ flat, (callReply qid ops).serialize = .ok flat ∧
      readIncoming flat = some (returnIncoming flat) ∧ (returnIncoming flat).questionId = qid ∧
        (returnIncoming flat).HasResults ∧
          (∃ left, (returnIncoming flat).content = some (Message.structAt 0 8 1 1, left)) ∧
            ReadFrom (returnIncoming flat).message (callReply qid ops) := by
  obtain ⟨kept, inside, wf⟩ := callReply_kept qid ops
  obtain ⟨flat, done, -⟩ := callReply_reads qidLt framable
  have head : ReturnWords ((callReply qid ops).seg 0).data qid returnTagResults := by
    refine (returnWords_payloadMem qidLt).congr fun i early => ?_
    rw [kept i (by omega)]
    exact storeWord_of_ne (by omega)
  obtain ⟨read, named, results⟩ := return_read done few framable head (by omega)
  have starts := starts_serialize done framable
  have budget : 64 ≤ defaultTraversalWords := covered_default le_rfl
  have payloadWord : word ((callReply qid ops).seg 0).data 5 = wpMakeStruct (0 : Nat) 0 2 := by
    rw [Nat.cast_zero, ← payloadMem_payload qid]
    exact word_congr fun k small => (kept _ (by omega)).trans (storeWord_of_ne (by omega))
  have contentWord : word ((callReply qid ops).seg 0).data 6 = wpMakeStruct (1 : Nat) 1 1 := by
    rw [word_congr fun k small => kept (8 * 6 + k) (by omega), resultsMem, word_storeWord_self]
    decide
  have payload : (Frame.message (ofList flat)).getp (Message.structAt 0 3 2 1) 0 Ptr.zero
      (defaultTraversalWords - 3 - (2 + 1 + 1)) =
        ⟨.ok, Message.structAt 0 6 0 2, defaultTraversalWords - 3 - (2 + 1 + 1) - 3⟩ :=
    starts.getp_near (by decide) (by decide) payloadWord rfl (by decide) (by decide) (by omega)
      (by omega)
  have content : (Frame.message (ofList flat)).getp (Message.structAt 0 6 0 2) 0 Ptr.zero
      (defaultTraversalWords - 3 - (2 + 1 + 1) - 3) =
        ⟨.ok, Message.structAt 0 8 1 1, defaultTraversalWords - 3 - (2 + 1 + 1) - 3 - 3⟩ :=
    starts.getp_near (by decide) (by decide) contentWord rfl (by decide) (by decide) (by omega)
      (by omega)
  refine ⟨flat, done, read, named, results.mpr rfl,
    ⟨defaultTraversalWords - 3 - (2 + 1 + 1) - 3 - 3, ?_⟩, readFrom_serialize done framable wf⟩
  unfold Incoming.content returnIncoming
  dsimp only
  rw [payload]
  dsimp only
  rw [if_neg (not_not.mpr rfl), content]
  rfl

/-! ## Answers -/

/-- An answer: an exception, nothing but the confirmation, an exported
capability, or what a dispatch function has written into its results. -/
inductive Returned where
  | exception
  | empty
  | cap (eid : Nat)
  | results (ops : List BuildOp)

/-- What an application reads of an answered question. -/
def Returned.Reads (c : Conn) (qid : Nat) : Returned → Prop
  | .exception => c.isFailed qid = true ∧ c.answerCapId qid = -1 ∧
      c.answerContent qid = .error .arg
  | .empty => c.isFailed qid = false ∧ c.answerCapId qid = -1 ∧
      ∃ m out left, c.answerContent qid = .ok (m, out, left) ∧ out.kind = .null
  | .cap eid => c.isFailed qid = false ∧ c.answerCapId qid = eid
  | .results ops => c.isFailed qid = false ∧ c.answerCapId qid = -1 ∧
      ∃ m left, c.answerContent qid = .ok (m, Message.structAt 0 8 1 1, left) ∧
        ReadFrom m (callReply qid ops)

/-- The results are in no more segments than a message may have. -/
def Returned.Parses (qid : Nat) : Returned → Prop
  | .results ops => (callReply qid ops).nsegs ≤ maxSegments
  | _ => True

/-- A frame carries the answer to a question: a connection that has the question
open, and a buffer for the frame, reads the answer in it, and no other question
changes. -/
def Carries (flat : List UInt8) (qid : Nat) (returned : Returned) : Prop :=
  ∀ hearing c v i, c.questionFind qid = some i → flat.length ≤ maxAnswerBytes →
    (handle hearing flat c v).2.conn.isAnswered qid = true ∧
      returned.Reads (handle hearing flat c v).2.conn qid ∧
        ∀ other, other ≠ qid → (handle hearing flat c v).2.conn.question other = c.question other

/-! ## Reading answers -/

/-- Of a failed question nothing is read. -/
theorem reads_exception {c : Conn} {qid : Nat} (failed : c.isFailed qid = true) :
    Returned.exception.Reads c qid := by
  have both := failed
  unfold Conn.isFailed at both
  refine ⟨failed, ?_, ?_⟩
  · unfold Conn.answerCapId
    cases found : c.questionFind qid with
    | none => rfl
    | some i =>
        rw [found] at both
        dsimp only at both ⊢
        rw [if_pos (.inr (Bool.and_eq_true_iff.mp both).2)]
  · unfold Conn.answerContent
    cases found : c.questionFind qid with
    | none => rfl
    | some i =>
        rw [found] at both
        dsimp only at both ⊢
        rw [if_pos (.inr (Bool.and_eq_true_iff.mp both).2)]

/-- A frame with a content that is no capability carries no id. -/
theorem capIdOf_of_content {data : List UInt8} {msg : Incoming} {content : Ptr} {left : Nat}
    (read : readIncoming data = some msg) (isReturn : msg.which = msgReturn)
    (isStruct : msg.body.kind = .struct) (results : msg.HasResults)
    (found : msg.content = some (content, left)) (noCap : content.kind ≠ .cap) :
    capIdOf data = none := by
  obtain ⟨parsed, payload, answered⟩ :=
    answerPayload_of_content read isReturn isStruct results found
  unfold capIdOf
  dsimp only
  rw [← messageFromFlat_ok parsed, answered]
  exact if_pos noCap

section
variable {flat : List UInt8} {qid : Nat} (read : readIncoming flat = some (returnIncoming flat))
  (named : (returnIncoming flat).questionId = qid)
include read named

/-- A `Return` without results carries an exception. -/
theorem carries_exception (failed : ¬(returnIncoming flat).HasResults) :
    Carries flat qid .exception := by
  subst named
  intro hearing c v i found short
  have written := return_written v hearing read rfl rfl found short
  have reaches := reaches_of_written read rfl rfl found written
  exact ⟨reaches.answered, reads_exception (reaches.failed.mpr failed), reaches.others⟩

/-- A `Return` with results carries what is read of its content and of the id
in its cap table. -/
theorem carries_of_results (results : (returnIncoming flat).HasResults) {returned : Returned}
    (reads : ∀ c, c.isFailed qid = false →
      c.answerCapId qid = ((capIdOf flat).elim (-1) fun id => int32 id) →
        (∀ content left, (returnIncoming flat).content = some (content, left) →
          c.answerContent qid = .ok ((returnIncoming flat).message, content, left)) →
            returned.Reads c qid) :
    Carries flat qid returned := by
  subst named
  intro hearing c v i asked short
  have written := return_written v hearing read rfl rfl asked short
  have reaches := reaches_of_written read rfl rfl asked written
  refine ⟨reaches.answered, reads _ ?_ ?_ (reaches.readable results), reaches.others⟩
  · rw [← Bool.not_eq_true, reaches.failed]
    exact not_not.mpr results
  · exact answerCapId_elim v hearing read rfl rfl results asked short

end

/-! ## The frames that carry answers -/

section
variable {qid : Nat} (qidLt : qid < 2 ^ 32)
include qidLt

theorem exceptionReturn_carries {reason : String} (short : reason.toList.length ≤ 1024) :
    ∃ b flat, exceptionReturn qid reason Builder.init = .ok () b ∧ b.serialize = .ok flat ∧
      Carries flat qid .exception := by
  obtain ⟨mem, words, built, head, inside, small⟩ := exceptionReturn_single qidLt short
  obtain ⟨flat, done⟩ := serialize_single mem (show words ≠ 0 by omega)
  obtain ⟨read, named, results⟩ := return_read done (show 1 ≤ maxSegments by decide)
    (framable_single small) (by rwa [single_seg_zero]) (by rwa [single_seg_zero])
  refine ⟨_, flat, built, done, carries_exception read named fun has => ?_⟩
  exact absurd (results.mp has) (by decide)

/-- The content of an empty `Return` is null. -/
theorem emptyReturn_carries : ∃ b flat, emptyReturn qid Builder.init = .ok () b ∧
    b.serialize = .ok flat ∧ Carries flat qid .empty := by
  have head := returnWords_payloadMem qidLt
  obtain ⟨flat, done⟩ := serialize_single (payloadMem qid) (show 8 ≠ 0 by decide)
  have starts := starts_single done (by decide)
  obtain ⟨read, named, results⟩ := return_read done (show 1 ≤ maxSegments by decide)
    (framable_single (by decide)) (by rwa [single_seg_zero]) (show 6 ≤ 8 by decide)
  have budget : 64 ≤ defaultTraversalWords := covered_default le_rfl
  have null : word (payloadMem qid) 6 = 0 :=
    word_of_clear fun k hk => payloadMem_clear qid (by omega)
  have payload : (Frame.message (ofList flat)).getp (Message.structAt 0 3 2 1) 0 Ptr.zero
      (defaultTraversalWords - 3 - (2 + 1 + 1)) =
        ⟨.ok, Message.structAt 0 6 0 2, defaultTraversalWords - 3 - (2 + 1 + 1) - 3⟩ := by
    rw [Message.getp_structAt (by decide) (by decide)]
    exact starts.resolve_struct (payloadMem_payload qid) (by decide) (by decide) (by decide) le_rfl
      (by omega)
  have content : (Frame.message (ofList flat)).getp (Message.structAt 0 6 0 2) 0 Ptr.zero
      (defaultTraversalWords - 3 - (2 + 1 + 1) - 3) =
        ⟨.ok, nullPtr 0 6, defaultTraversalWords - 3 - (2 + 1 + 1) - 3 - 1⟩ := by
    rw [Message.getp_structAt (by decide) (by decide)]
    exact starts.resolve_null null (by decide) (by omega)
  have found : (returnIncoming flat).content =
      some (nullPtr 0 6, defaultTraversalWords - 3 - (2 + 1 + 1) - 3 - 1) := by
    unfold Incoming.content returnIncoming
    dsimp only
    rw [payload]
    dsimp only
    rw [if_neg (not_not.mpr rfl), content]
    rfl
  have noCap := capIdOf_of_content read rfl rfl (results.mpr rfl) found (by decide)
  refine ⟨_, flat, ?_, done, carries_of_results read named (results.mpr rfl)
    fun c succeeded capId reads => ⟨succeeded, ?_, _, _, _, reads _ _ found, rfl⟩⟩
  · rw [emptyReturn, bind_run (beginReturn_init qid)]
    rfl
  · rw [capId, noCap]
    rfl

theorem capReturn_carries {eid : Nat} (small : eid < maxExports) : ∃ flat,
    (single (capMem qid eid) 11).serialize = .ok flat ∧ Carries flat qid (.cap eid) := by
  have eidLt : eid < 2 ^ 31 := small.trans (by decide)
  have head := returnWords_capMem qidLt eid
  obtain ⟨flat, done⟩ := serialize_single (capMem qid eid) (show 11 ≠ 0 by decide)
  have carries : capIdOf flat = some eid :=
    capIdOf_eq (starts_single done (by decide)) head
      (capWords_capMem qid (eidLt.trans (by decide))) le_rfl
  obtain ⟨read, named, results⟩ := return_read done (show 1 ≤ maxSegments by decide)
    (framable_single (by decide)) (by rwa [single_seg_zero]) (show 6 ≤ 11 by decide)
  refine ⟨flat, done, carries_of_results read named (results.mpr rfl)
    fun c succeeded capId _ => ⟨succeeded, ?_⟩⟩
  rw [capId, carries, Option.elim_some]
  exact int32_of_range (by omega) (by omega)

theorem callReply_carries {ops : List BuildOp} (framable : (callReply qid ops).Framable) :
    ∃ flat, (callReply qid ops).serialize = .ok flat ∧
      ((Returned.results ops).Parses qid → Carries flat qid (.results ops)) := by
  obtain ⟨flat, done, -⟩ := callReply_reads qidLt framable
  refine ⟨flat, done, fun few => ?_⟩
  obtain ⟨flat', done', read, named, results, ⟨left, content⟩, from'⟩ :=
    reply_read qidLt framable few
  obtain rfl : flat' = flat := Except.ok.inj (done'.symm.trans done)
  have noCap := capIdOf_of_content read rfl rfl results content (by decide)
  refine carries_of_results read named results
    fun c succeeded capId reads => ⟨succeeded, ?_, _, left, reads _ _ content, from'⟩
  rw [capId, noCap]
  rfl

end

end CapnpJanet.Rpc
