import CapnpJanet.Message.Leftover
import CapnpJanet.Rpc.System

/-!
# The parameters a server sees

`handle_call` reads the parameters of a call and does not look at the return
code of that read.  The server is safe exactly when the pointer to the
parameters lands on an object that passes the checks, or lands nowhere.
-/

namespace CapnpJanet.Rpc

/-! ## Only calls are dispatched -/

section
variable (env : Env)

theorem sendJoinResult_dispatched (qid joinId : Nat) (succeeded : Bool) (cap : Option Nat)
    (w : World) : (sendJoinResult env qid joinId succeeded cap w).2.dispatched = w.dispatched := by
  have flushed (w' : World) (b : Builder) : (w'.flush env b).2.dispatched = w'.dispatched := by
    unfold World.flush
    split <;> rfl
  unfold sendJoinResult
  split
  · rfl
  · cases cap with
    | none => exact flushed _ _
    | some eid =>
        dsimp only
        split
        · rfl
        · exact flushed _ _

theorem answerParts_dispatched (join : Join) (n : Nat) (w : World) :
    (answerParts env join n w).2.dispatched = w.dispatched := by
  induction n with
  | zero => rfl
  | succ n ih =>
      rw [answerParts]
      exact (sendJoinResult_dispatched env _ _ _ _ _).trans ih

theorem handleJoin_dispatched (m : Message) (body : Ptr) (left : Nat) (w : World) :
    (handleJoin env m body left w).2.dispatched = w.dispatched := by
  unfold handleJoin
  dsimp only
  split
  · exact sendJoinResult_dispatched env _ _ _ _ _
  · split
    · exact sendJoinResult_dispatched env _ _ _ _ _
    · split
      · exact sendJoinResult_dispatched env _ _ _ _ _
      · split
        · exact sendJoinResult_dispatched env _ _ _ _ _
        · next slot c _ _ =>
          have rest (part : Join) :
              (if part.nseen = part.partCount then
                joinComplete env slot { w with conn := c.setJoin slot part }
              else (0, { w with conn := c.setJoin slot part })).2.dispatched = w.dispatched := by
            split
            · exact answerParts_dispatched env _ _ _
            · rfl
          exact rest _

theorem sendCapReturn_dispatched (qid eid : Nat) (w : World) :
    (w.sendCapReturn env qid eid).2.dispatched = w.dispatched := by
  unfold World.sendCapReturn World.build World.flushAnswer
  split
  · rfl
  · split <;> rfl

/-- A message is dispatched as its call asks, and other messages are not. -/
theorem handleIncoming_dispatched (data : List UInt8) (msg : Incoming) (w : World) :
    (handleIncoming env data msg w).2.dispatched = w.dispatched ++ msg.requests w.conn := by
  by_cases isCall : msg.which = msgCall
  · obtain ⟨ids, -, replies⟩ := handleCall_replies env msg.message msg.body msg.left w
    unfold handleIncoming Incoming.requests
    rw [isCall, if_neg (by decide), if_pos rfl, if_pos rfl]
    exact replies.dispatched_eq
  · rw [Incoming.requests, if_neg isCall, List.append_nil]
    unfold handleIncoming
    dsimp only
    rw [if_neg isCall]
    split
    · exact (handleBootstrap_replies env _ _ w).dispatched_eq
    · split
      · rfl
      · split
        · exact (handleRelease_effect _ _ w).2.2.2.1
        · split
          · exact handleJoin_dispatched env _ _ _ w
          · split
            · cases lifts : liftedBy msg.message msg.body w.vat with
              | none => exact (handleDisembargo_replies env _ _ _ w lifts).dispatched_eq
              | some i =>
                  rw [handleDisembargo_lifts env _ _ _ w lifts]
                  exact sendCapReturn_dispatched env _ _ _
            · split
              · exact (handleReturn_replies _ _ _ w _).dispatched_eq
              · split
                · rcases handleProvide_effect env msg.message msg.body msg.left w with
                    ⟨_, -, replies⟩ | ⟨i, p, -, -, -, -, -, replies⟩
                  · exact replies.dispatched_eq
                  · exact replies.dispatched_eq
                · split
                  · rcases handleAccept_effect env msg.message msg.body msg.left w with
                      ⟨_, -, replies⟩ | ⟨i, p, -, -, -, -, replies⟩ |
                      ⟨i, eid, -, -, -, -, -, -, -, replies⟩
                    · exact replies.dispatched_eq
                    · exact replies.dispatched_eq
                    · exact replies.dispatched_eq
                  · exact (sendUnimplemented_replies env _ _ _ w).dispatched_eq

end

/-! ## The parameters -/

/-- The last read `handle_call` makes for the parameters. -/
def Incoming.paramsRead (msg : Incoming) : Resolved := (callParams msg.message msg.body msg.left).2

/-- Where the pointer to the parameters lands, if the payload can be read. -/
def Incoming.paramsLanding (msg : Incoming) : Option Landing :=
  let payload := msg.message.getp msg.body 1 Ptr.zero msg.left
  if payload.rc ≠ .ok then none else msg.message.fieldLanding payload.out 0 payload.left

/-- Parameters a server can use as they are: the null handle, or the handle that
a successful read returned, with its content inside its segment. -/
def Incoming.Validates (msg : Incoming) (params : Ptr) : Prop :=
  params.kind = .null ∨
    msg.paramsRead.rc = .ok ∧ params = msg.paramsRead.out ∧ msg.message.ContentInside params

/-- A server sees validated parameters exactly when their pointer lands on an
object that holds, or nowhere. -/
theorem params_validated_iff (env : Env) (data : List UInt8) (conn : Conn) (vat : Vat)
    {msg : Incoming} (read : readIncoming data = some msg) {request : Dispatch}
    (dispatched : request ∈ (handle env data conn vat).2.dispatched) :
    msg.Validates request.params ↔ ∀ l, msg.paramsLanding = some l → l.Holds msg.message := by
  have called : request.params = msg.paramsRead.out := by
    have handled : (handle env data conn vat).2.dispatched = msg.requests conn := by
      rw [handle, read]
      exact handleIncoming_dispatched env data msg (World.start conn vat)
    rw [handled, Incoming.requests] at dispatched
    split at dispatched
    · unfold callRequest at dispatched
      dsimp only at dispatched
      cases found : callTarget msg.message msg.body
          (callIntroductions msg.message msg.body msg.left conn).2
          (callIntroductions msg.message msg.body msg.left conn).1 with
      | error reason =>
          rw [found] at dispatched
          cases dispatched
      | ok eid =>
          rw [found, Option.toList_some, List.mem_singleton] at dispatched
          rw [dispatched]
          rfl
    · cases dispatched
  have safe : msg.Validates request.params ↔ msg.message.Safe msg.paramsRead := by
    unfold Incoming.Validates Message.Safe
    rw [called]
    simp
  rw [safe]
  unfold Incoming.paramsRead Incoming.paramsLanding callParams
  dsimp only
  split
  · exact Message.safe_nowhere rfl
  · exact Message.getp_safe_iff _ _ rfl

/-! ## A call with parameters -/

/-- A call of export 0 whose parameters are announced with `dwords` data words,
of which the frame has one. -/
def paramsCallFrame (dwords : UInt8) : List UInt8 :=
  [0, 0, 0, 0, 9, 0, 0, 0,
   0, 0, 0, 0, 1, 0, 1, 0,
   2, 0, 0, 0, 0, 0, 0, 0,
   0, 0, 0, 0, 1, 0, 2, 0,
   7, 0, 0, 0, 0, 0, 0, 0,
   4, 0, 0, 0, 1, 0, 0, 0,
   4, 0, 0, 0, 0, 0, 1, 0,
   0, 0, 0, 0, 0, 0, 0, 0,
   0, 0, 0, 0, dwords, 0, 0, 0,
   42, 0, 0, 0, 0, 0, 0, 0]

/-- A readable call that asks for a dispatch is dispatched. -/
theorem mem_dispatched (env : Env) {data : List UInt8} {conn : Conn} (vat : Vat) {msg : Incoming}
    (read : readIncoming data = some msg) (isCall : msg.which = msgCall) {request : Dispatch}
    (asked : callRequest msg.message msg.body msg.left conn = some request) :
    request ∈ (handle env data conn vat).2.dispatched := by
  rw [handle, read, handleIncoming_dispatched, Incoming.requests, if_pos isCall]
  exact List.mem_append_right _ (by simpa [World.start] using asked)

/-- With one data word the server sees the parameters. -/
theorem params_validated_call :
    ∃ msg request, readIncoming (paramsCallFrame 1) = some msg ∧
      request ∈ (handle (returningEnv 0) (paramsCallFrame 1) servingConn Vat.init).2.dispatched ∧
      msg.Validates request.params := by
  have facts : ((readIncoming (paramsCallFrame 1)).any fun msg =>
      msg.which == msgCall && (callRequest msg.message msg.body msg.left servingConn).isSome &&
        msg.paramsLanding.all fun l => l.seg == 0 && l.start == 8 && l.w == wpMakeStruct 0 1 0 &&
          l.left != 0 && msg.message.nsegs == 1 && (msg.message.seg 0).words == 9) = true := by
    decide +kernel
  obtain ⟨msg, read, holds⟩ := (Option.any_eq_true _ _).mp facts
  simp only [Bool.and_eq_true, beq_iff_eq, Option.isSome_iff_exists] at holds
  obtain ⟨⟨isCall, request, asked⟩, lands⟩ := holds
  have dispatched := mem_dispatched (returningEnv 0) Vat.init read isCall asked
  refine ⟨msg, request, read, dispatched, ?_⟩
  refine (params_validated_iff _ _ _ _ read dispatched).mpr fun l landed => ?_
  rw [landed] at lands
  simp only [Option.all_some, Bool.and_eq_true, beq_iff_eq, bne_iff_ne] at lands
  obtain ⟨⟨⟨⟨⟨segEq, startEq⟩, wEq⟩, some⟩, nsegs⟩, words⟩ := lands
  have size : wpStructDwords l.w + wpStructPwords l.w = 1 := by
    rw [wEq]
    decide
  unfold Landing.Holds
  rw [wEq, wpKind_makeStruct, ← wEq]
  dsimp only
  rw [size]
  refine ⟨fun i hi => ⟨by omega, ?_⟩, by omega⟩
  rw [segEq, startEq, Nat.lt_one_iff.mp hi]
  exact ⟨by omega, by rw [words]; decide⟩

/-- With 100 data words the read fails, and the server is handed a struct that
reaches beyond the message all the same. -/
theorem params_unvalidated_call :
    ∃ msg request, readIncoming (paramsCallFrame 100) = some msg ∧
      request ∈ (handle (returningEnv 0) (paramsCallFrame 100) servingConn Vat.init).2.dispatched ∧
      msg.paramsRead.rc = .bounds ∧ request.params.kind = .struct ∧ request.params.dwords = 100 ∧
      ¬msg.Validates request.params := by
  have facts : ((readIncoming (paramsCallFrame 100)).any fun msg =>
      msg.which == msgCall && msg.paramsRead.rc == .bounds &&
        (callRequest msg.message msg.body msg.left servingConn).any fun request =>
          request.params.kind == .struct && request.params.dwords == 100) = true := by
    decide +kernel
  obtain ⟨msg, read, holds⟩ := (Option.any_eq_true _ _).mp facts
  simp only [Bool.and_eq_true, beq_iff_eq, Option.any_eq_true] at holds
  obtain ⟨⟨isCall, failed⟩, request, asked, isStruct, size⟩ := holds
  refine ⟨msg, request, read, mem_dispatched _ _ read isCall asked, failed, isStruct, size, ?_⟩
  rintro (null | ⟨ok, -⟩)
  · rw [isStruct] at null
    cases null
  · rw [failed] at ok
    cases ok

end CapnpJanet.Rpc
