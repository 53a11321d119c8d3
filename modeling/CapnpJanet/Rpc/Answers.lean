import CapnpJanet.Rpc.Replies

/-!
# Every question is answered once

The handlers of questions that are due at once (`Bootstrap`, `Call`, `Provide`
and an `Accept` without embargo) send one `Return` on each of their paths, with
one exception: when a dispatch function returns a code that is not zero,
`handle_call` returns that code and sends nothing.
-/

namespace CapnpJanet.Rpc

open ByteMemory Builder Outcome

/-! ## The handlers -/

/-- A handler has answered a question: it sent one `Return` for it and nothing
else. -/
def AnswersOnce (w : World) (qid : Nat) (w' : World) : Prop :=
  ∃ flat which, w'.sent = w.sent ++ [flat] ∧ returnOf flat = some ⟨qid, which⟩

theorem Answered.once {w w₁ w' : World} {qid which : Nat} (answered : Answered w₁ qid which w')
    (same : w₁.sent = w.sent) : AnswersOnce w qid w' := by
  obtain ⟨flat, sent, read⟩ := answered.sent
  exact ⟨flat, which, same ▸ sent, read⟩

section
variable (env : Env) (m : Message) (body : Ptr) (left : Nat) (w : World)

theorem handleBootstrap_once :
    AnswersOnce w (m.getU32 body 0 0) (handleBootstrap env m body w).2 := by
  have qidLt := getU32_lt m body 0
  unfold handleBootstrap
  dsimp only
  split
  · exact (w.sendReturnException_answers env qidLt (by decide)).once rfl
  · split
    · exact (World.sendReturnException_answers _ env qidLt (by decide)).once rfl
    · next eid c exported =>
      have eidLt := exportId_lt exported
      exact (World.sendCapReturn_answers _ env qidLt eidLt).once rfl

theorem handleProvide_once (isStruct : body.kind = .struct) :
    AnswersOnce w (m.getU32 body 0 0) (handleProvide env m body left w).2 := by
  have qidLt := getU32_lt m body 0
  unfold handleProvide
  rw [if_neg (not_not.mpr isStruct)]
  dsimp only
  split
  · exact (w.sendReturnException_answers env qidLt (by decide)).once rfl
  · split
    · exact (w.sendReturnException_answers env qidLt (by decide)).once rfl
    · split
      · exact (w.sendReturnException_answers env qidLt (by decide)).once rfl
      · split
        · exact (w.sendReturnException_answers env qidLt (by decide)).once rfl
        · exact (World.sendEmptyReturn_answers _ env qidLt).once rfl

theorem handleAccept_once (isStruct : body.kind = .struct) (now : m.getBool body 32 false = false) :
    AnswersOnce w (m.getU32 body 0 0) (handleAccept env m body left w).2 := by
  have qidLt := getU32_lt m body 0
  unfold handleAccept
  rw [if_neg (not_not.mpr isStruct), now]
  dsimp only
  split
  · exact (w.sendReturnException_answers env qidLt (by decide)).once rfl
  · split
    · exact (w.sendReturnException_answers env qidLt (by decide)).once rfl
    · split
      · exact (World.sendReturnException_answers _ env qidLt (by decide)).once rfl
      · next eid c exported =>
        have eidLt := exportId_lt exported
        rw [if_neg Bool.false_ne_true]
        exact (World.sendCapReturn_answers _ env qidLt eidLt).once rfl

/-- The dispatch call that a `Call` makes on a connection, if any. -/
def callRequest (c : Conn) : Option Dispatch :=
  let noted := callIntroductions m body left c
  match callTarget m body noted.2 noted.1 with
  | .error _ => none
  | .ok eid => some (callDispatch m body left noted.1 eid)

/-- What `handle_call` does when the call has no target. -/
theorem handleCall_rejected (rejected : callRequest m body left w.conn = none) :
    ∃ reason : String, reason.toList.length ≤ 1024 ∧
      handleCall env m body left w =
        { w with conn := (callIntroductions m body left w.conn).1 }.sendReturnException env
          (m.getU32 body 0 0) reason := by
  unfold callRequest at rejected
  dsimp only at rejected
  cases found : callTarget m body (callIntroductions m body left w.conn).2
      (callIntroductions m body left w.conn).1 with
  | ok eid =>
      rw [found] at rejected
      cases rejected
  | error reason =>
      refine ⟨reason, ?_, ?_⟩
      · unfold callTarget at found
        dsimp only at found
        split at found
        · cases found
          decide
        · split at found
          · cases found
            decide
          · cases found
      · unfold handleCall
        dsimp only
        rw [found]

/-- What `handle_call` does once the call has a target. -/
theorem handleCall_dispatched {request : Dispatch}
    (asked : callRequest m body left w.conn = some request) :
    handleCall env m body left w =
      let w' := { w with
        conn := (callIntroductions m body left w.conn).1
        dispatched := w.dispatched ++ [request] }
      let reply := env.dispatch request
      if reply.rc ≠ 0 then (reply.rc, w')
      else w'.flushAnswer env (m.getU32 body 0 0) (callReply (m.getU32 body 0 0) reply.ops) := by
  unfold callRequest at asked
  dsimp only at asked
  cases found : callTarget m body (callIntroductions m body left w.conn).2
      (callIntroductions m body left w.conn).1 with
  | error reason =>
      rw [found] at asked
      cases asked
  | ok eid =>
      rw [found] at asked
      unfold handleCall
      dsimp only
      rw [found, ← Option.some.inj asked, beginResults_init]

end

/-! ## Questions -/

/-- The message asks a question that is due at once. -/
def Incoming.Asks (msg : Incoming) : Prop :=
  msg.body.kind = .struct ∧
    (msg.which = msgBootstrap ∨ msg.which = msgCall ∨ msg.which = msgProvide ∨
      (msg.which = msgAccept ∧ msg.message.getBool msg.body 32 false = false))

/-- The `questionId` of a question: in all four messages the first field. -/
def Incoming.questionId (msg : Incoming) : Nat := msg.message.getU32 msg.body 0 0

/-- The message is a call for a dispatch function that reports a failure. -/
def Incoming.DispatchFails (msg : Incoming) (env : Env) (conn : Conn) : Prop :=
  msg.which = msgCall ∧ ∃ request, callRequest msg.message msg.body msg.left conn = some request ∧
    (env.dispatch request).rc ≠ 0

/-- The frames contain exactly one `Return`, and it answers the question. -/
def SoleReturn (sent : List (List UInt8)) (qid : Nat) : Prop :=
  ∃ which, sent.filterMap returnOf = [⟨qid, which⟩]

theorem AnswersOnce.sole {conn : Conn} {vat : Vat} {qid : Nat} {w' : World}
    (once : AnswersOnce (World.start conn vat) qid w') : SoleReturn w'.sent qid := by
  obtain ⟨flat, which, sent, read⟩ := once
  refine ⟨which, ?_⟩
  rw [sent]
  simp [World.start, read]

/-- A call whose dispatch function fails sends nothing. -/
theorem handleIncoming_fails {env : Env} {data : List UInt8} {msg : Incoming} {conn : Conn}
    {vat : Vat} (fails : msg.DispatchFails env conn) :
    (handleIncoming env data msg (World.start conn vat)).2.sent = [] := by
  obtain ⟨isCall, request, asked, failed⟩ := fails
  unfold handleIncoming
  rw [isCall]
  dsimp only
  rw [if_neg (by decide), if_pos rfl, handleCall_dispatched env _ _ _ (World.start conn vat) asked]
  dsimp only
  rw [if_pos failed]
  rfl

/-- A question that no failing dispatch function decides is answered once. -/
theorem handleIncoming_once {env : Env} {data : List UInt8} {msg : Incoming} {conn : Conn}
    {vat : Vat} (asks : msg.Asks) (works : ¬msg.DispatchFails env conn) :
    AnswersOnce (World.start conn vat) msg.questionId
      (handleIncoming env data msg (World.start conn vat)).2 := by
  obtain ⟨isStruct, bootstrap | call | provide | ⟨accept, now⟩⟩ := asks
  · unfold handleIncoming
    rw [if_pos bootstrap]
    exact handleBootstrap_once env _ _ _
  · unfold handleIncoming
    rw [call, if_neg (by decide), if_pos rfl]
    cases asked : callRequest msg.message msg.body msg.left conn with
    | none =>
        obtain ⟨reason, short, rejected⟩ :=
          handleCall_rejected env _ _ _ (World.start conn vat) asked
        rw [rejected]
        exact (World.sendReturnException_answers _ env (getU32_lt _ _ _) short).once rfl
    | some request =>
        have succeeds : (env.dispatch request).rc = 0 := by
          by_contra failed
          exact works ⟨call, request, asked, failed⟩
        rw [handleCall_dispatched env _ _ _ (World.start conn vat) asked]
        dsimp only
        rw [if_neg (not_not.mpr succeeds)]
        exact (World.flushAnswer_answers (callReply_reads (getU32_lt _ _ _)
          ((env.dispatch request).framable _))).once rfl
  · unfold handleIncoming
    rw [provide, if_neg (by decide), if_neg (by decide), if_neg (by decide), if_neg (by decide),
      if_neg (by decide), if_neg (by decide), if_neg (by decide), if_pos rfl]
    exact handleProvide_once env _ _ _ _ isStruct
  · unfold handleIncoming
    rw [accept, if_neg (by decide), if_neg (by decide), if_neg (by decide), if_neg (by decide),
      if_neg (by decide), if_neg (by decide), if_neg (by decide), if_neg (by decide), if_pos rfl]
    exact handleAccept_once env _ _ _ _ isStruct now

/-- A question is answered exactly once, unless a dispatch function fails. -/
theorem question_answered_iff (env : Env) (data : List UInt8) (conn : Conn) (vat : Vat)
    {msg : Incoming} (read : readIncoming data = some msg) (asks : msg.Asks) :
    SoleReturn (handle env data conn vat).2.sent msg.questionId ↔ ¬msg.DispatchFails env conn := by
  have handled : handle env data conn vat =
      handleIncoming env data msg (World.start conn vat) := by
    rw [handle, read]
  rw [handled]
  constructor
  · rintro ⟨which, sole⟩ fails
    rw [handleIncoming_fails fails] at sole
    cases sole
  · intro works
    exact (handleIncoming_once asks works).sole

/-! ## A call that stays unanswered -/

/-- A connection that has exported one capability. -/
def servingConn : Conn := (Conn.init.exportCap 1 1).2

/-- A call of that capability, for question 7. -/
def servedCallFrame : List UInt8 :=
  [0, 0, 0, 0, 6, 0, 0, 0,
   0, 0, 0, 0, 1, 0, 1, 0,
   2, 0, 0, 0, 0, 0, 0, 0,
   0, 0, 0, 0, 1, 0, 1, 0,
   7, 0, 0, 0, 0, 0, 0, 0,
   0, 0, 0, 0, 1, 0, 0, 0,
   0, 0, 0, 0, 0, 0, 0, 0]

/-- A reply without results fits a frame. -/
theorem callReply_nil_framable (qid : Nat) : (callReply qid []).Framable := by
  delta callReply
  rw [resultsBuilder_eq]
  exact framable_single (by decide)

/-- Servers that return a fixed code from every call. -/
def returningEnv (rc : Int) : Env where
  dispatch := fun _ => ⟨rc, [], callReply_nil_framable⟩
  send := fun _ _ => 0

/-- The frame is a question, and it is a call that resolves to the export. -/
theorem servedCall_read :
    ∃ msg, readIncoming servedCallFrame = some msg ∧ msg.Asks ∧ msg.which = msgCall ∧
      ∃ request, callRequest msg.message msg.body msg.left servingConn = some request := by
  have facts : ((readIncoming servedCallFrame).any fun msg =>
      msg.body.kind == .struct && msg.which == msgCall &&
        (callRequest msg.message msg.body msg.left servingConn).isSome) = true := by
    decide +kernel
  obtain ⟨msg, read, holds⟩ := Option.any_eq_true _ _ |>.mp facts
  simp only [Bool.and_eq_true, beq_iff_eq, Option.isSome_iff_exists] at holds
  obtain ⟨⟨isStruct, isCall⟩, asked⟩ := holds
  exact ⟨msg, read, ⟨isStruct, .inr (.inl isCall)⟩, isCall, asked⟩

/-- The call is answered when its server succeeds. -/
theorem question_answered_served :
    ∃ msg, readIncoming servedCallFrame = some msg ∧
      SoleReturn (handle (returningEnv 0) servedCallFrame servingConn Vat.init).2.sent
        msg.questionId := by
  obtain ⟨msg, read, asks, -⟩ := servedCall_read
  refine ⟨msg, read, (question_answered_iff _ _ _ _ read asks).mpr ?_⟩
  rintro ⟨-, request, -, failed⟩
  exact failed rfl

/-- When its server returns 1, nothing is sent at all. -/
theorem question_unanswered :
    ∃ msg, readIncoming servedCallFrame = some msg ∧ msg.Asks ∧
      (handle (returningEnv 1) servedCallFrame servingConn Vat.init).2.sent = [] ∧
      ¬SoleReturn (handle (returningEnv 1) servedCallFrame servingConn Vat.init).2.sent
        msg.questionId := by
  obtain ⟨msg, read, asks, isCall, request, asked⟩ := servedCall_read
  have silent : (handle (returningEnv 1) servedCallFrame servingConn Vat.init).2.sent = [] := by
    rw [handle, read]
    exact handleIncoming_fails ⟨isCall, request, asked, one_ne_zero⟩
  refine ⟨msg, read, asks, silent, ?_⟩
  rintro ⟨which, sole⟩
  rw [silent] at sole
  cases sole

end CapnpJanet.Rpc
