import CapnpJanet.Rpc.Cases

/-!
# What a message teaches the asking side

The tables of questions and introductions belong to the side that asks.  Two
kinds of messages write them: a `Call` has its cap table noted, and a `Return`
is recorded against its question.  Everything else leaves them alone, whatever
it does to the tables of the answering side.
-/

namespace CapnpJanet.Rpc

open Builder

/-! ## Reading a cap table -/

/-- The introductions in the first `n` entries of a cap table, in their order,
and the remaining budget. -/
def introductionsOf (m : Message) (table : Ptr) : (n left : Nat) → List Introduction × Nat
  | 0, left => ([], left)
  | n + 1, left =>
      let (found, left) := introductionsOf m table n left
      let (introduction, left) := readIntroduction m table n left
      (found ++ introduction.toList, left)

/-- The introductions in the cap table of a payload. -/
def payloadIntroductions (m : Message) (payload : Ptr) (left : Nat) : List Introduction :=
  if payload.kind ≠ .struct then []
  else
    let table := m.getp payload 1 Ptr.zero left
    if table.rc ≠ .ok then []
    else (introductionsOf m table.out (listLen table.out) table.left).1

/-- The introductions a message makes: those in the cap table of a `Call`, and
those in the cap table of the results of a `Return`. -/
def Incoming.introduces (msg : Incoming) : List Introduction :=
  if msg.which = msgCall then
    let (payload, params) := callParams msg.message msg.body msg.left
    if payload.rc ≠ .ok then [] else payloadIntroductions msg.message payload.out params.left
  else
    let results := msg.message.getp msg.body 0 Ptr.zero msg.left
    if msg.which = msgReturn ∧ msg.message.getU16 msg.body returnTagOff 0 = returnTagResults ∧
        results.rc = .ok then
      payloadIntroductions msg.message results.out results.left
    else []

/-- Record introductions one after the other. -/
def Conn.addIntroductions (c : Conn) (introductions : List Introduction) : Conn :=
  introductions.foldl addIntroduction c

theorem noteEntries_eq (c : Conn) (m : Message) (table : Ptr) (n left : Nat) :
    c.noteEntries m table n left =
      (c.addIntroductions (introductionsOf m table n left).1, (introductionsOf m table n left).2) := by
  induction n with
  | zero => rfl
  | succ n ih =>
      rw [Conn.noteEntries, introductionsOf, ih]
      dsimp only
      generalize introductionsOf m table n left = before
      cases readIntroduction m table n before.2 with
      | mk introduction left =>
          cases introduction with
          | none => simp
          | some introduction => simp [Conn.addIntroductions]

theorem noteIntroductions_eq (c : Conn) (m : Message) (payload : Ptr) (left : Nat) :
    (c.noteIntroductions m payload left).1 = c.addIntroductions (payloadIntroductions m payload left) := by
  unfold Conn.noteIntroductions payloadIntroductions
  split
  · rfl
  · dsimp only
    split
    · rfl
    · rw [noteEntries_eq]

theorem addIntroductions_noting (c : Conn) (introductions : List Introduction) :
    c.Noting (c.addIntroductions introductions) := by
  induction introductions generalizing c with
  | nil => rfl
  | cons introduction rest ih => exact (addIntroduction_noting c introduction).trans (ih _)

/-- Recording keeps the entries in use; what is new was free, and is one of the
introductions recorded. -/
theorem addIntroductions_entry (c : Conn) (introductions : List Introduction) (j : Nat) :
    (c.addIntroductions introductions).introductions j = c.introductions j ∨
      (c.introductions j).used = false ∧
        (c.addIntroductions introductions).introductions j ∈ introductions := by
  induction introductions generalizing c with
  | nil => exact .inl rfl
  | cons introduction rest ih =>
      have one : (c.addIntroduction introduction).introductions j = c.introductions j ∨
          (c.introductions j).used = false ∧
            (c.addIntroduction introduction).introductions j = introduction := by
        unfold Conn.addIntroduction
        split
        · next i found =>
          by_cases same : j = i
          · subst same
            exact .inr ⟨by simpa using (firstIndex_eq_some found).2.1, by simp⟩
          · exact .inl (by simp [same])
        · exact .inl rfl
      rcases ih (c.addIntroduction introduction) with kept | ⟨free, found⟩
      · rcases one with same | ⟨free, placed⟩
        · exact .inl (kept.trans same)
        · refine .inr ⟨free, ?_⟩
          change ((c.addIntroduction introduction).addIntroductions rest).introductions j ∈ _
          rw [kept, placed]
          exact List.mem_cons_self
      · rcases one with same | ⟨free', -⟩
        · exact .inr ⟨by rw [← same]; exact free, List.mem_cons_of_mem _ found⟩
        · exact .inr ⟨free', List.mem_cons_of_mem _ found⟩

/-! ## Messages for the answering side -/

/-- The tables of the asking side are the same. -/
structure Conn.SameAsked (c c' : Conn) : Prop where
  questions : c'.questions = c.questions
  introductions : c'.introductions = c.introductions
  next : c'.nextQuestionId = c.nextQuestionId

namespace Conn.SameAsked

variable {c c' c'' : Conn}

theorem refl (c : Conn) : c.SameAsked c := ⟨rfl, rfl, rfl⟩

theorem trans (first : c.SameAsked c') (second : c'.SameAsked c'') : c.SameAsked c'' :=
  ⟨second.questions.trans first.questions, second.introductions.trans first.introductions,
    second.next.trans first.next⟩

end Conn.SameAsked

section
variable (c : Conn)

theorem exportCap_sameAsked (server dispatch : Nat) : c.SameAsked (c.exportCap server dispatch).2 := by
  unfold Conn.exportCap
  split
  · exact ⟨rfl, rfl, rfl⟩
  · split
    · exact ⟨rfl, rfl, rfl⟩
    · exact .refl c

theorem answerDrop_sameAsked (qid : Nat) : c.SameAsked (c.answerDrop qid) := by
  unfold Conn.answerDrop
  split
  · exact .refl c
  · exact ⟨rfl, rfl, rfl⟩

theorem answerKeep_sameAsked (qid : Nat) (flat : List UInt8) : c.SameAsked (c.answerKeep qid flat) := by
  unfold Conn.answerKeep
  split
  · split
    · exact ⟨rfl, rfl, rfl⟩
    · exact .refl c
  · exact .refl c

theorem joinSlotFind_sameAsked (jid pcount : Nat) : c.SameAsked (c.joinSlotFind jid pcount).2 := by
  unfold Conn.joinSlotFind
  split
  · exact .refl c
  · split
    · exact ⟨rfl, rfl, rfl⟩
    · exact .refl c

end

section
variable (env : Env) {c : Conn} {w : World}

theorem flush_conn (b : Builder) : (w.flush env b).2.conn = w.conn := by
  unfold World.flush
  split
  · rfl
  · rfl

theorem buildFlush_conn (frame : BuildM Unit) : (w.build frame (w.flush env)).2.conn = w.conn := by
  unfold World.build
  split
  · rfl
  · exact flush_conn env _

/-! A sending function is applied after the tables have been written, so each
lemma goes on from what was kept before. -/

theorem sendReturnException_sameAsked (before : c.SameAsked w.conn) (qid : Nat) (reason : String) :
    c.SameAsked (w.sendReturnException env qid reason).2.conn := by
  rw [World.sendReturnException, buildFlush_conn]
  exact before

theorem flushAnswer_sameAsked (before : c.SameAsked w.conn) (qid : Nat) (b : Builder) :
    c.SameAsked (w.flushAnswer env qid b).2.conn := by
  unfold World.flushAnswer
  split
  · exact before
  · exact before.trans (answerKeep_sameAsked _ _ _)

theorem sendEmptyReturn_sameAsked (before : c.SameAsked w.conn) (qid : Nat) :
    c.SameAsked (w.sendEmptyReturn env qid).2.conn := by
  unfold World.sendEmptyReturn World.build
  split
  · exact before
  · exact flushAnswer_sameAsked env before _ _

theorem sendCapReturn_sameAsked (before : c.SameAsked w.conn) (qid eid : Nat) :
    c.SameAsked (w.sendCapReturn env qid eid).2.conn := by
  unfold World.sendCapReturn World.build
  split
  · exact before
  · exact flushAnswer_sameAsked env before _ _

theorem sendJoinResult_sameAsked (before : c.SameAsked w.conn) (qid joinId : Nat) (succeeded : Bool)
    (cap : Option Nat) : c.SameAsked (sendJoinResult env qid joinId succeeded cap w).2.conn := by
  unfold sendJoinResult
  split
  · exact before
  · split
    · rw [flush_conn]
      exact before
    · dsimp only
      split
      · exact before.trans ⟨rfl, rfl, rfl⟩
      · rw [flush_conn]
        exact before.trans ⟨rfl, rfl, rfl⟩

theorem answerParts_sameAsked (before : c.SameAsked w.conn) (join : Join) (n : Nat) :
    c.SameAsked (answerParts env join n w).2.conn := by
  induction n with
  | zero => exact before
  | succ n ih =>
      rw [answerParts]
      exact sendJoinResult_sameAsked env ih _ _ _ _

end

section
variable (env : Env) (m : Message) (body : Ptr) (left : Nat) (w : World)

theorem handleBootstrap_sameAsked : w.conn.SameAsked (handleBootstrap env m body w).2.conn := by
  unfold handleBootstrap
  dsimp only
  split
  · exact sendReturnException_sameAsked env (.refl _) _ _
  · have exports := exportCap_sameAsked w.conn w.conn.bootstrap w.conn.bootstrapDispatch
    split
    · next exported =>
      rw [exported] at exports
      exact sendReturnException_sameAsked env exports _ _
    · next exported =>
      rw [exported] at exports
      exact sendCapReturn_sameAsked env exports _ _

theorem handleRelease_sameAsked : w.conn.SameAsked (handleRelease m body w).conn := by
  unfold handleRelease
  dsimp only
  split
  · exact .refl _
  · exact ⟨rfl, rfl, rfl⟩

theorem joinComplete_sameAsked {c : Conn} {w : World} (before : c.SameAsked w.conn) (slot : Nat) :
    c.SameAsked (joinComplete env slot w).2.conn :=
  (answerParts_sameAsked env before _ _).trans ⟨rfl, rfl, rfl⟩

theorem handleJoin_sameAsked : w.conn.SameAsked (handleJoin env m body left w).2.conn := by
  unfold handleJoin
  dsimp only
  split
  · exact sendJoinResult_sameAsked env (.refl _) _ _ _ _
  · split
    · exact sendJoinResult_sameAsked env (.refl _) _ _ _ _
    · have finds := joinSlotFind_sameAsked w.conn
        (m.getU32 (m.getp body 1 Ptr.zero left).out 0 0)
        (m.getU16 (m.getp body 1 Ptr.zero left).out 4 0)
      split
      · next found =>
        rw [found] at finds
        exact sendJoinResult_sameAsked env finds _ _ _ _
      · next slot opened found =>
        rw [found] at finds
        generalize (if (m.getp body 0 Ptr.zero (m.getp body 1 Ptr.zero left).left).rc = .ok then
          (opened.resolveTarget m (m.getp body 0 Ptr.zero (m.getp body 1 Ptr.zero left).left).out
            (m.getp body 0 Ptr.zero (m.getp body 1 Ptr.zero left).left).left).1 else none) = eid
        split
        · exact sendJoinResult_sameAsked env finds _ _ _ _
        · split
          · exact joinComplete_sameAsked env (finds.trans ⟨rfl, rfl, rfl⟩) slot
          · exact finds.trans ⟨rfl, rfl, rfl⟩

theorem handleDisembargo_sameAsked : w.conn.SameAsked (handleDisembargo env m body left w).2.conn := by
  unfold handleDisembargo
  split
  · exact .refl _
  · dsimp only
    split
    · unfold releaseProvideEmbargo
      dsimp only
      split
      · exact .refl _
      · refine sendCapReturn_sameAsked env ?_ _ _
        exact .refl _
    · split
      · exact .refl _
      · rw [buildFlush_conn]
        exact .refl _

theorem handleProvide_sameAsked : w.conn.SameAsked (handleProvide env m body left w).2.conn := by
  unfold handleProvide
  split
  · exact .refl _
  · dsimp only
    split
    · exact sendReturnException_sameAsked env (.refl _) _ _
    · split
      · exact sendReturnException_sameAsked env (.refl _) _ _
      · split
        · exact sendReturnException_sameAsked env (.refl _) _ _
        · split
          · exact sendReturnException_sameAsked env (.refl _) _ _
          · refine sendEmptyReturn_sameAsked env ?_ _
            exact ⟨rfl, rfl, rfl⟩

theorem handleAccept_sameAsked : w.conn.SameAsked (handleAccept env m body left w).2.conn := by
  unfold handleAccept
  split
  · exact .refl _
  · dsimp only
    split
    · exact sendReturnException_sameAsked env (.refl _) _ _
    · split
      · exact sendReturnException_sameAsked env (.refl _) _ _
      · next i _ =>
        have exports := exportCap_sameAsked w.conn (w.vat.provisions i).server
          (w.vat.provisions i).dispatch
        split
        · next exported =>
          rw [exported] at exports
          exact sendReturnException_sameAsked env exports _ _
        · next exported =>
          rw [exported] at exports
          split
          · exact exports
          · exact sendCapReturn_sameAsked env exports _ _

end

/-! ## What each message teaches -/

/-- The question a `Return` is recorded against: one that is outstanding, if the
frame fits its buffer. -/
def Incoming.records (msg : Incoming) (data : List UInt8) (c : Conn) : Option Nat :=
  if msg.which = msgReturn ∧ msg.body.kind = .struct ∧ data.length ≤ maxAnswerBytes then
    c.questionFind msg.questionId
  else none

/-- What handling a message does to the tables of the asking side. -/
inductive Learns (msg : Incoming) (data : List UInt8) (c c' : Conn) : Prop
  | nothing (records : msg.records data c = none) (other : msg.which ≠ msgCall)
      (same : c.SameAsked c')
  /-- The cap table of a call is noted. -/
  | called (which : msg.which = msgCall)
      (same : (c.addIntroductions msg.introduces).SameAsked c')
  /-- A `Return` is recorded against its question. -/
  | returned {i : Nat} (records : msg.records data c = some i)
      (same : Conn.SameAsked { c.addIntroductions msg.introduces with
        questions := Function.update c.questions i { c.questions i with
          answered := true
          failed := decide (msg.message.getU16 msg.body returnTagOff 0 ≠ returnTagResults)
          reply := data } } c')

theorem records_of_ne {msg : Incoming} {data : List UInt8} {c : Conn} (other : msg.which ≠ msgReturn) :
    msg.records data c = none := if_neg fun isReturn => other isReturn.1

section
variable (env : Env) {msg : Incoming} {w : World} (data : List UInt8)

theorem handleCall_learns (which : msg.which = msgCall) :
    Learns msg data w.conn (handleCall env msg.message msg.body msg.left w).2.conn := by
  have noted : (callIntroductions msg.message msg.body msg.left w.conn).1 =
      w.conn.addIntroductions msg.introduces := by
    unfold callIntroductions Incoming.introduces
    rw [if_pos which]
    dsimp only
    split
    · rfl
    · rw [noteIntroductions_eq]
  refine .called which ?_
  unfold handleCall
  dsimp only
  rw [noted]
  split
  · refine sendReturnException_sameAsked env ?_ _ _
    exact .refl _
  · split
    · exact .refl _
    · split
      · exact .refl _
      · refine flushAnswer_sameAsked env ?_ _ _
        exact .refl _

theorem handleReturn_learns (which : msg.which = msgReturn) :
    Learns msg data w.conn (handleReturn msg.message msg.body data msg.left w).conn := by
  have other : msg.which ≠ msgCall := by
    rw [which]
    decide
  have nothing (records : msg.records data w.conn = none) : Learns msg data w.conn w.conn :=
    .nothing records other (.refl _)
  unfold handleReturn
  split
  · next noStruct => exact nothing (if_neg fun holds => noStruct holds.2.1)
  · next isStruct =>
    have found (short : data.length ≤ maxAnswerBytes) : msg.records data w.conn =
        w.conn.questionFind (msg.message.getU32 msg.body returnAnswerIdOff 0) :=
      if_pos ⟨which, not_not.mp isStruct, short⟩
    split
    · next unknown =>
      refine nothing ?_
      unfold Incoming.records
      split
      · exact unknown
      · rfl
    · next i known =>
      split
      · next long => exact nothing (if_neg fun holds => absurd holds.2.2 (not_le.mpr long))
      · next short =>
        refine .returned ((found (not_lt.mp short)).trans known) ?_
        have noted : (if !decide (msg.message.getU16 msg.body returnTagOff 0 ≠ returnTagResults) ∧
              (msg.message.getp msg.body 0 Ptr.zero msg.left).rc = .ok then
            (w.conn.noteIntroductions msg.message (msg.message.getp msg.body 0 Ptr.zero msg.left).out
              (msg.message.getp msg.body 0 Ptr.zero msg.left).left).1 else w.conn) =
            w.conn.addIntroductions msg.introduces := by
          unfold Incoming.introduces
          rw [if_neg other]
          by_cases results : msg.message.getU16 msg.body returnTagOff 0 = returnTagResults ∧
              (msg.message.getp msg.body 0 Ptr.zero msg.left).rc = .ok
          · rw [if_pos ⟨by simp [results.1], results.2⟩, noteIntroductions_eq]
            dsimp only
            rw [if_pos ⟨which, results⟩]
          · rw [if_neg (by simpa using results)]
            dsimp only
            rw [if_neg fun holds => results holds.2]
            rfl
        have questions := (addIntroductions_noting w.conn msg.introduces).questions_eq
        dsimp only
        rw [noted, questions]
        exact .refl _

/-- What a message teaches. -/
theorem handleIncoming_learns : Learns msg data w.conn (handleIncoming env data msg w).2.conn := by
  unfold handleIncoming
  dsimp only
  split
  · next which =>
    exact .nothing (records_of_ne (by rw [which]; decide)) (by rw [which]; decide)
      (handleBootstrap_sameAsked env _ _ w)
  · split
    · next which => exact handleCall_learns env data which
    · next notCall =>
      have nothing {c' : Conn} (notReturn : msg.which ≠ msgReturn) (same : w.conn.SameAsked c') :
          Learns msg data w.conn c' := .nothing (records_of_ne notReturn) notCall same
      split
      · next which => exact nothing (by rw [which]; decide) (answerDrop_sameAsked _ _)
      · split
        · next which => exact nothing (by rw [which]; decide) (handleRelease_sameAsked _ _ w)
        · split
          · next which => exact nothing (by rw [which]; decide) (handleJoin_sameAsked env _ _ _ w)
          · split
            · next which =>
              exact nothing (by rw [which]; decide) (handleDisembargo_sameAsked env _ _ _ w)
            · split
              · next which => exact handleReturn_learns data which
              · next notReturn =>
                split
                · exact nothing notReturn (handleProvide_sameAsked env _ _ _ w)
                · split
                  · exact nothing notReturn (handleAccept_sameAsked env _ _ _ w)
                  · refine nothing notReturn ?_
                    rw [World.sendUnimplemented, buildFlush_conn]
                    exact .refl _

end

end CapnpJanet.Rpc
