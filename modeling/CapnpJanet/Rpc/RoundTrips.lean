import CapnpJanet.Rpc.Returned
import CapnpJanet.Rpc.Talk

/-!
# Remote calls

A question from the function that asks it to the one that reads its answer, with
both connections in any state: what a server writes into the results of a call
is what the caller reads, and the id that an answer carries is that of the
export.
-/

namespace CapnpJanet.Rpc

open ByteMemory Builder

/-! ## Calls -/

/-- An answer with a capability names the export to the vat that asked. -/
theorem capReturn_reaches (w : World) (env : Env) {qid eid : Nat} (qidLt : qid < 2 ^ 32)
    (small : eid < maxExports) : ∃ reply, w.sendCapReturn env qid eid =
        { w with conn := w.conn.answerKeep qid reply }.transmit env reply ∧
      ∀ hearing c v i, c.questionFind qid = some i →
        (handle hearing reply c v).2.conn.answerCapId qid = eid := by
  obtain ⟨flat, done, carries⟩ := capReturn_carries qidLt small
  have short : flat.length ≤ maxAnswerBytes := by
    rw [length_serialize_single done]
    decide
  refine ⟨flat, ?_, fun hearing c v i found => (carries hearing c v i found short).2.1.2⟩
  rw [World.sendCapReturn, World.build, capReturn_init]
  dsimp only
  rw [World.flushAnswer, done]

/-- What a question for a capability is granted: the bootstrap capability, or
the one that a provision pins for the nonce it presents. -/
def Request.grants (server : Conn) (vat : Vat) : Request → Option Registered
  | .bootstrap =>
      if server.bootstrap = 0 then none else some (server.bootstrap, server.bootstrapDispatch)
  | .accept nonce false => (vat.claimable nonce).map fun i => (vat.provisions i).registered
  | _ => none

/-- What is read of an `Accept` that presents a nonce. -/
theorem presents_some {msg : Incoming} {nonce : Nat} (presents : msg.presents = some nonce) :
    msg.body.kind = .struct ∧
      ¬((msg.message.getp msg.body 0 Ptr.zero msg.left).rc ≠ .ok ∨
        (msg.message.getp msg.body 0 Ptr.zero msg.left).out.kind ≠ .struct) ∧
        msg.message.getU64 (msg.message.getp msg.body 0 Ptr.zero msg.left).out 0 0 = nonce := by
  unfold Incoming.presents at presents
  split at presents
  · cases presents
  · next isStruct =>
    dsimp only at presents
    split at presents
    · cases presents
    · next provision => exact ⟨not_not.mp isStruct, provision, Option.some.inj presents⟩

/-- What a vat does with an `Accept` that claims a provision at once. -/
theorem handleAccept_claims (env : Env) {msg : Incoming} {w : World} {nonce i eid : Nat} {c : Conn}
    (presents : msg.presents = some nonce) (now : msg.embargo = false)
    (claims : w.vat.claimable nonce = some i)
    (exported : w.conn.exportCap (w.vat.provisions i).server (w.vat.provisions i).dispatch =
      (some eid, c)) :
    handleAccept env msg.message msg.body msg.left w =
      { w with conn := c, vat := w.vat.setProvision i { w.vat.provisions i with
        exportId := eid, used := false } }.sendCapReturn env msg.questionId eid := by
  obtain ⟨isStruct, provision, presented⟩ := presents_some presents
  have flag : msg.message.getBool msg.body 32 false = false := now
  unfold handleAccept
  rw [if_neg (not_not.mpr isStruct)]
  dsimp only
  rw [if_neg provision, presented, claims]
  dsimp only
  rw [exported, flag]
  rfl

/-- What a vat does with the frame of such an `Accept`. -/
theorem handle_accept {qid nonce i eid : Nat} {data : List UInt8} {msg : Incoming}
    {server server' : Conn} {vat : Vat} (read : readIncoming data = some msg)
    (heard : (Request.accept nonce false).Heard qid msg) (claims : vat.claimable nonce = some i)
    (exported : server.exportCap (vat.provisions i).server (vat.provisions i).dispatch =
      (some eid, server')) (env : Env) :
    handle env data server vat =
      (World.start server' (vat.setProvision i { vat.provisions i with
        exportId := eid, used := false })).sendCapReturn env qid eid := by
  obtain ⟨which, rfl, -, presents, now⟩ := heard
  have start : (World.start server vat).vat.claimable nonce = some i := claims
  rw [handle, read]
  dsimp only
  rw [handleIncoming, which]
  exact handleAccept_claims env presents now start exported

/-- What a vat does with a question for a capability that it grants. -/
theorem handle_grants {request : Request} {qid : Nat} {data : List UInt8} {msg : Incoming}
    {server server' : Conn} {vat : Vat} {object dispatch eid : Nat}
    (read : readIncoming data = some msg) (heard : request.Heard qid msg)
    (grants : request.grants server vat = some (object, dispatch))
    (exported : server.exportCap object dispatch = (some eid, server')) (env : Env) :
    ∃ vat', handle env data server vat =
      (World.start server' vat').sendCapReturn env qid eid := by
  cases request with
  | bootstrap =>
      obtain ⟨which, rfl⟩ := heard
      change (if server.bootstrap = 0 then none else some _) = _ at grants
      split at grants
      · cases grants
      · next registered =>
        obtain ⟨rfl, rfl⟩ := Prod.mk.inj (Option.some.inj grants)
        refine ⟨vat, ?_⟩
        rw [handle, read]
        dsimp only
        rw [handleIncoming, if_pos which, handleBootstrap]
        change (if server.bootstrap = 0 then _ else _) = _
        have exports : (World.start server vat).conn.exportCap (World.start server vat).conn.bootstrap
            (World.start server vat).conn.bootstrapDispatch = (some eid, server') := exported
        rw [if_neg registered, exports]
        rfl
  | accept nonce embargo =>
      cases embargo with
      | true => cases grants
      | false =>
          obtain ⟨i, claims, pinned⟩ := Option.map_eq_some_iff.mp grants
          obtain ⟨rfl, rfl⟩ := Prod.mk.inj pinned
          exact ⟨_, handle_accept read heard claims exported env⟩
  | call _ _ _ _ _ _ => cases grants
  | provide _ _ _ _ => cases grants

/-- A capability comes to the vat that asks for it.  An application asks for
the bootstrap capability, or accepts a provision.  If the vat that is asked
grants it and has room for it, one frame comes back, the capability is exported
for its server, and the id that the application reads in the answer, whatever
has happened to its connection meanwhile, is that of the export, as long as the
question is open. -/
theorem capability_round_trip {c : Conn} (v : Vat) {asking : Env} {request : Request}
    (talks : (Deed.ask asking request).Talks c) {server server' : Conn} {vat : Vat}
    {object dispatch eid : Nat} (grants : request.grants server vat = some (object, dispatch))
    (exported : server.exportCap object dispatch = (some eid, server')) (env : Env) :
    ∃ ask reply, ((Deed.ask asking request).run c v).sent = [ask] ∧
      (handle env ask server vat).2.sent = [reply] ∧
      ((handle env ask server vat).2.conn.exports eid).used = true ∧
      ((handle env ask server vat).2.conn.exports eid).server = object ∧
      ∀ hearing c' v' i, c'.questionFind c.nextQuestionId = some i →
        (handle hearing reply c' v').2.conn.answerCapId c.nextQuestionId = eid := by
  obtain ⟨ask, run, msg, read, heard⟩ := deed_heard c v talks
  have qidLt : c.nextQuestionId < 2 ^ 32 := by
    cases talks with
    | ask _ qidLt _ _ => exact qidLt
  obtain ⟨small, used, hosts, -, -⟩ := Conn.exportCap_some exported
  obtain ⟨vat', handled⟩ := handle_grants read heard grants exported env
  obtain ⟨reply, sends, reaches⟩ :=
    capReturn_reaches (World.start server' vat') env qidLt small
  have exports := (World.answerKeep_exports server' c.nextQuestionId reply).1
  refine ⟨ask, reply, ?_, ?_, ?_, ?_, reaches⟩
  · rw [run]
  · rw [handled, sends]
    rfl
  · rw [handled, sends]
    exact (congrArg (fun e => (e eid).used) exports).trans used
  · rw [handled, sends]
    exact (congrArg (fun e => (e eid).server) exports).trans hosts

/-- The bootstrap capability comes to the vat that asks for it. -/
theorem capability_round_trip_bootstrap : ∃ ask reply,
    ((Deed.ask (returningEnv 0) .bootstrap).run Conn.init Vat.init).sent = [ask] ∧
      (handle (returningEnv 0) ask (Conn.init.setBootstrap 9 7) Vat.init).2.sent = [reply] ∧
      (handle (returningEnv 0) reply (Conn.init.claimed 0) Vat.init).2.conn.answerCapId 0 = 0 := by
  have talks : (Deed.ask (returningEnv 0) .bootstrap).Talks Conn.init :=
    .ask (i := 0) rfl (by decide) .bootstrap fun _ => rfl
  obtain ⟨ask, reply, sent, replied, -, -, reads⟩ :=
    capability_round_trip Vat.init talks
      (show Request.bootstrap.grants (Conn.init.setBootstrap 9 7) Vat.init = some (9, 7) from rfl)
      (show (Conn.init.setBootstrap 9 7).exportCap 9 7 = (some 0, _) from rfl) (returningEnv 0)
  exact ⟨ask, reply, sent, replied, reads (returningEnv 0) _ Vat.init 0 rfl⟩

end CapnpJanet.Rpc
