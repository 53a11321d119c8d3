import CapnpJanet.Rpc.Effects

/-!
# Questions this vat asks

A question is outstanding from the moment it is sent until its `Return` arrives.
The `Return` is copied into the entry of its question, whose buffer is as large
as the largest answer that the answer table keeps.  A longer `Return` is
dropped, and its question stays outstanding.
-/

namespace CapnpJanet.Rpc

open ByteMemory Builder

/-! ## The table of questions -/

/-- `question_claim`: the id of the question, and the connection with it; `none`
is `NULL`. -/
def Conn.questionClaim (c : Conn) : Option (Nat × Conn) :=
  match firstIndex maxQuestions fun i => !(c.questions i).used with
  | none => none
  | some i =>
      some (c.nextQuestionId, { c with
        questions := Function.update c.questions i
          { Question.zero with used := true, questionId := c.nextQuestionId }
        nextQuestionId := (c.nextQuestionId + 1) % 2 ^ 32 })

/-- `capnp_rpc_is_answered` -/
def Conn.isAnswered (c : Conn) (qid : Nat) : Bool :=
  match c.questionFind qid with
  | none => false
  | some i => (c.questions i).answered

/-- `capnp_rpc_is_failed` -/
def Conn.isFailed (c : Conn) (qid : Nat) : Bool :=
  match c.questionFind qid with
  | none => false
  | some i => (c.questions i).answered && (c.questions i).failed

/-- `capnp_rpc_answer_content`: the message, the content and the budget left on
the message. -/
def Conn.answerContent (c : Conn) (qid : Nat) : Except Status (Message × Ptr × Nat) :=
  match c.questionFind qid with
  | none => .error .arg
  | some i =>
      let q := c.questions i
      if q.answered = false ∨ q.failed then .error .arg
      else
        match messageFromFlat q.reply with
        | .error _ => .error .framing
        | .ok m =>
            match answerPayload m with
            | none => .error .kind
            | some (_, content, left) => .ok (m, content, left)

/-- What the table says of a question. -/
def Conn.question (c : Conn) (qid : Nat) : Option Question := (c.questionFind qid).map c.questions

section
variable {c c' : Conn} {qid i : Nat}

theorem Conn.questionFind_some (found : c.questionFind qid = some i) :
    (c.questions i).used = true ∧ (c.questions i).questionId = qid := by
  obtain ⟨-, holds, -⟩ := firstIndex_eq_some found
  simpa using holds

/-- Questions are found where they were as long as the ids stay. -/
theorem Conn.questionFind_congr
    (ids : ∀ j, (c'.questions j).used = (c.questions j).used ∧
      (c'.questions j).questionId = (c.questions j).questionId) (qid : Nat) :
    c'.questionFind qid = c.questionFind qid := by
  unfold questionFind
  congr 1
  funext j
  rw [(ids j).1, (ids j).2]

end

/-! ## Returns -/

/-- The content of a results `Return`, read on the message itself, and the
budget left on it. -/
def Incoming.content (msg : Incoming) : Option (Ptr × Nat) :=
  let payload := msg.message.getp msg.body 0 Ptr.zero msg.left
  if payload.rc ≠ .ok then none
  else
    let content := msg.message.getp payload.out 0 Ptr.zero payload.left
    if content.rc ≠ .ok then none else some (content.out, content.left)

/-- A `Return` with results. -/
def Incoming.HasResults (msg : Incoming) : Prop :=
  msg.message.getU16 msg.body returnTagOff 0 = returnTagResults

instance (msg : Incoming) : Decidable msg.HasResults := inferInstanceAs (Decidable (_ = _))

/-- A `Return` has reached its question: that is answered, it has failed exactly
if the `Return` has no results, results can be read again, and no other question
has changed. -/
structure Conn.Reaches (c : Conn) (msg : Incoming) (c' : Conn) : Prop where
  answered : c'.isAnswered msg.questionId = true
  failed : c'.isFailed msg.questionId = true ↔ ¬msg.HasResults
  readable : msg.HasResults → ∀ content left, msg.content = some (content, left) →
    c'.answerContent msg.questionId = .ok (msg.message, content, left)
  others : ∀ qid, qid ≠ msg.questionId → c'.question qid = c.question qid

/-- A frame that is read as a results `Return` is read alike as an answer. -/
theorem answerPayload_of_content {data : List UInt8} {msg : Incoming}
    (read : readIncoming data = some msg) (isReturn : msg.which = msgReturn)
    (isStruct : msg.body.kind = .struct) (results : msg.HasResults) {content : Ptr} {left : Nat}
    (found : msg.content = some (content, left)) :
    messageFromFlat data = .ok msg.message ∧
      ∃ payload, answerPayload msg.message = some (payload, content, left) := by
  unfold readIncoming at read
  split at read
  · cases read
  · next m parsed =>
    dsimp only at read
    split at read
    · cases read
    · next root =>
      cases read
      refine ⟨parsed, ?_⟩
      dsimp only at isReturn isStruct
      have body : (m.getp (m.root Ptr.zero defaultTraversalWords).out 0 Ptr.zero
          (m.root Ptr.zero defaultTraversalWords).left).rc = .ok := by
        by_contra failed
        rw [if_pos failed] at isStruct
        cases isStruct
      unfold Incoming.HasResults at results
      unfold Incoming.content at found
      dsimp only at results found
      rw [if_neg (not_not.mpr body)] at results found
      split at found
      · cases found
      · next payload =>
        split at found
        · cases found
        · next atContent =>
          cases found
          unfold answerPayload
          dsimp only
          rw [if_neg root, if_neg (not_not.mpr isReturn), if_neg (not_not.mpr body),
            if_neg (not_not.mpr results), if_neg payload, if_neg atContent]
          exact ⟨_, rfl⟩

/-- What a `Return` that fits does. -/
theorem handleReturn_short {m : Message} {ret : Ptr} {frame : List UInt8} {i : Nat} {w : World}
    (left : Nat) (isStruct : ret.kind = .struct)
    (found : w.conn.questionFind (m.getU32 ret returnAnswerIdOff 0) = some i)
    (short : frame.length ≤ maxAnswerBytes) :
    ∃ c, w.conn.Noting c ∧ (handleReturn m ret frame left w).conn = { c with
      questions := Function.update c.questions i { c.questions i with
        answered := true
        failed := decide (m.getU16 ret returnTagOff 0 ≠ returnTagResults)
        reply := frame } } := by
  unfold handleReturn
  rw [if_neg (not_not.mpr isStruct), found]
  dsimp only
  rw [if_neg (not_lt.mpr short)]
  refine ⟨_, ?_, rfl⟩
  split
  · exact noteIntroductions_noting _ _ _ _
  · rfl

/-- A `Return` that does not fit is dropped. -/
theorem handleReturn_long {m : Message} {ret : Ptr} {frame : List UInt8} {left : Nat} {w : World}
    (long : maxAnswerBytes < frame.length) : handleReturn m ret frame left w = w := by
  unfold handleReturn
  by_cases isStruct : ret.kind = .struct
  · rw [if_neg (not_not.mpr isStruct)]
    cases w.conn.questionFind (m.getU32 ret returnAnswerIdOff 0) with
    | none => rfl
    | some i =>
        dsimp only
        rw [if_pos long]
  · rw [if_pos isStruct]

/-- The entry of a question has been written. -/
theorem reaches_of_written {c c' : Conn} {data : List UInt8} {msg : Incoming} {i : Nat}
    (read : readIncoming data = some msg) (isReturn : msg.which = msgReturn)
    (isStruct : msg.body.kind = .struct) (found : c.questionFind msg.questionId = some i)
    (written : c'.questions = Function.update c.questions i { c.questions i with
      answered := true
      failed := decide ¬msg.HasResults
      reply := data }) : c.Reaches msg c' := by
  have entry : c'.questions i = { c.questions i with
      answered := true
      failed := decide ¬msg.HasResults
      reply := data } := by
    rw [written, Function.update_self]
  have other (j : Nat) (apart : j ≠ i) : c'.questions j = c.questions j := by
    rw [written, Function.update_of_ne apart]
  have finds (qid : Nat) : c'.questionFind qid = c.questionFind qid := by
    refine Conn.questionFind_congr (fun j => ?_) qid
    by_cases here : j = i
    · rw [here, entry]
      exact ⟨rfl, rfl⟩
    · rw [other j here]
      exact ⟨rfl, rfl⟩
  have here := (finds msg.questionId).trans found
  constructor
  · rw [Conn.isAnswered, here]
    dsimp only
    rw [entry]
  · rw [Conn.isFailed, here]
    dsimp only
    rw [entry, Bool.true_and, decide_eq_true_iff]
  · intro results content left readable
    obtain ⟨parsed, payload, answered⟩ :=
      answerPayload_of_content read isReturn isStruct results readable
    rw [Conn.answerContent, here]
    dsimp only
    rw [entry, if_neg (by simp [results])]
    dsimp only
    rw [parsed]
    dsimp only
    rw [answered]
  · intro qid different
    rw [Conn.question, Conn.question, finds]
    cases place : c.questionFind qid with
    | none => rfl
    | some j =>
        have apart : j ≠ i := by
          rintro rfl
          exact different ((Conn.questionFind_some place).2.symm.trans
            (Conn.questionFind_some found).2)
        rw [Option.map_some, Option.map_some, other j apart]

/-- A `Return` reaches its question exactly if it fits the buffer of the
question. -/
theorem return_reaches_iff {conn : Conn} {vat : Vat} (env : Env) {data : List UInt8}
    {msg : Incoming} (read : readIncoming data = some msg) (isReturn : msg.which = msgReturn)
    (isStruct : msg.body.kind = .struct)
    (outstanding : ∃ i, conn.questionFind msg.questionId = some i)
    (unanswered : conn.isAnswered msg.questionId = false) :
    conn.Reaches msg (handle env data conn vat).2.conn ↔ data.length ≤ maxAnswerBytes := by
  have handled : (handle env data conn vat).2 =
      handleReturn msg.message msg.body data msg.left (World.start conn vat) := by
    rw [handle, read]
    dsimp only
    rw [handleIncoming, isReturn]
    rfl
  rw [handled]
  constructor
  · intro reaches
    by_contra long
    have answered := reaches.answered
    rw [handleReturn_long (not_le.mp long)] at answered
    rw [show (World.start conn vat).conn = conn from rfl, unanswered] at answered
    cases answered
  · intro short
    obtain ⟨i, found⟩ := outstanding
    have start : (World.start conn vat).conn.questionFind
        (msg.message.getU32 msg.body returnAnswerIdOff 0) = some i := found
    obtain ⟨c, noting, done⟩ := handleReturn_short msg.left isStruct start short
    refine reaches_of_written read isReturn isStruct found ?_
    rw [done, noting.questions_eq]
    rfl

/-- A `Return` with empty results, and some more words in its segment. -/
def returnFrame (qid : UInt8) (more : Nat) : List UInt8 :=
  [0, 0, 0, 0] ++ le32 (8 + more) ++
  [0, 0, 0, 0, 1, 0, 1, 0,
   3, 0, 0, 0, 0, 0, 0, 0,
   0, 0, 0, 0, 2, 0, 1, 0,
   qid, 0, 0, 0, 0, 0, 0, 0,
   0, 0, 0, 0, 0, 0, 0, 0,
   0, 0, 0, 0, 0, 0, 2, 0,
   0, 0, 0, 0, 0, 0, 0, 0,
   0, 0, 0, 0, 0, 0, 0, 0] ++ List.replicate (8 * more) 0

/-- A connection that has asked its first question. -/
def asking : Conn := (Conn.init.questionClaim.map Prod.snd).getD Conn.init

/-- An empty answer reaches the first question. -/
theorem return_reaches_first : ∃ msg, readIncoming (returnFrame 0 0) = some msg ∧
    asking.Reaches msg (handle (returningEnv 0) (returnFrame 0 0) asking Vat.init).2.conn := by
  have found : ((readIncoming (returnFrame 0 0)).any fun msg =>
      msg.which == msgReturn && msg.body.kind == .struct && msg.questionId == 0) = true := by
    decide +kernel
  obtain ⟨msg, read, facts⟩ := (Option.any_eq_true _ _).mp found
  simp only [Bool.and_eq_true, beq_iff_eq] at facts
  obtain ⟨⟨isReturn, isStruct⟩, named⟩ := facts
  refine ⟨msg, read, (return_reaches_iff _ read isReturn isStruct ?_ ?_).mpr (by decide +kernel)⟩
  · rw [named]
    exact ⟨0, by decide +kernel⟩
  · rw [named]
    decide +kernel

/-- A longer answer to the first question is dropped. -/
theorem long_return_dropped : ∃ msg, readIncoming (returnFrame 0 1024) = some msg ∧
    msg.which = msgReturn ∧ msg.body.kind = .struct ∧ msg.questionId = 0 ∧
      asking.questionFind 0 = some 0 ∧ asking.isAnswered 0 = false ∧
        ¬asking.Reaches msg
          (handle (returningEnv 0) (returnFrame 0 1024) asking Vat.init).2.conn := by
  have found : ((readIncoming (returnFrame 0 1024)).any fun msg =>
      msg.which == msgReturn && msg.body.kind == .struct && msg.questionId == 0) = true := by
    decide +kernel
  obtain ⟨msg, read, facts⟩ := (Option.any_eq_true _ _).mp found
  simp only [Bool.and_eq_true, beq_iff_eq] at facts
  obtain ⟨⟨isReturn, isStruct⟩, named⟩ := facts
  refine ⟨msg, read, isReturn, isStruct, named, by decide +kernel, by decide +kernel,
    fun reaches => ?_⟩
  have answered := reaches.answered
  have dropped : (handle (returningEnv 0) (returnFrame 0 1024) asking Vat.init).2.conn.isAnswered 0 =
      false := by
    decide +kernel
  rw [named, dropped] at answered
  cases answered

end CapnpJanet.Rpc
