import CapnpJanet.Rpc.RoundTrips

/-!
# What a vat does when it is told something

The peer of an application, described a second time, as it works when it is told
values and no bytes: what it is told, what it does to its tables, the dispatch
calls it makes, and the answer it gives.  Handling a message is shown to be that,
for what is read in the message.
-/

namespace CapnpJanet.Rpc

open Builder

/-! ## What a vat is told -/

/-- What a message says: the arguments of the function that has built it.  The
parameters of a call are a handle of a message. -/
inductive Said where
  | bootstrap (qid : Nat)
  | call (qid importedCap interfaceId methodId : Nat) (message : Message) (params : Ptr)
      (introduces : List Introduction)
  | provide (qid importedCap nonce : Nat) (host : List UInt8) (port : Nat)
  | accept (qid nonce : Nat) (embargo : Bool)
  | finish (qid : Nat)
  | release (importId count : Nat)
  | disembargo (provideQid : Nat)

/-- What a message says, read off its bytes. -/
def Incoming.Says (msg : Incoming) : Said → Prop
  | .bootstrap qid => msg.which = msgBootstrap ∧ msg.questionId = qid
  | .call qid importedCap interfaceId methodId message params introduces =>
      msg.questionId = qid ∧ msg.calls = some importedCap ∧
        msg.message.getU64 msg.body 8 0 = interfaceId ∧
          msg.message.getU16 msg.body 4 0 = methodId ∧ msg.message = message ∧
            msg.paramsRead.out = params ∧
              ∀ c, (callIntroductions msg.message msg.body msg.left c).1 =
                c.addIntroductions introduces
  | .provide qid importedCap nonce host port => msg.which = msgProvide ∧ msg.questionId = qid ∧
      msg.body.kind = .struct ∧
        (∀ c, msg.offers c = (c.imported importedCap).map fun eid => (eid, nonce)) ∧
          msg.recipientVat = some (host, port)
  | .accept qid nonce embargo => msg.which = msgAccept ∧ msg.questionId = qid ∧
      msg.presents = some nonce ∧ msg.embargo = embargo
  | .finish qid => msg.which = msgFinish ∧ msg.questionId = qid
  | .release importId count => msg.which = msgRelease ∧ msg.questionId = importId ∧
      msg.message.getU32 msg.body 4 0 = count
  | .disembargo provideQid => msg.Disembargoes provideQid

/-- What a vat has done: the tables it is left with before it keeps an answer,
the dispatch calls it has made, and the question it has answered. -/
structure Response where
  conn : Conn
  vat : Vat
  dispatched : List Dispatch
  answer : Option (Nat × Returned)

/-- What a vat does when it is told something.  The host and the port of a
`Provide` are for its recipient only. -/
def Said.respond (env : Env) (c : Conn) (v : Vat) : Said → Response
  | .bootstrap qid =>
      if c.bootstrap = 0 then ⟨c, v, [], some (qid, .exception)⟩
      else
        match c.exportCap c.bootstrap c.bootstrapDispatch with
        | (none, _) => ⟨c, v, [], some (qid, .exception)⟩
        | (some eid, c) => ⟨c, v, [], some (qid, .cap eid)⟩
  | .call qid importedCap interfaceId methodId message params introduces =>
      match c.imported importedCap with
      | none => ⟨c.addIntroductions introduces, v, [], some (qid, .exception)⟩
      | some eid =>
          let request : Dispatch := {
            dispatch := (c.exports eid).dispatch
            server := (c.exports eid).server
            interfaceId := interfaceId
            methodId := methodId
            message := message
            params := params }
          let reply := env.dispatch request
          ⟨c.addIntroductions introduces, v, [request],
            if reply.rc ≠ 0 then none else some (qid, .results reply.ops)⟩
  | .provide qid importedCap nonce _ _ =>
      match c.imported importedCap with
      | none => ⟨c, v, [], some (qid, .exception)⟩
      | some eid =>
          match firstIndex maxProvisions fun i => !(v.provisions i).used with
          | none => ⟨c, v, [], some (qid, .exception)⟩
          | some i =>
              let p := { v.provisions i with
                used := true
                nonce := nonce
                server := (c.exports eid).server
                dispatch := (c.exports eid).dispatch
                exportId := eid
                questionId := qid
                embargoed := false }
              ⟨c.retain eid, v.setProvision i p, [], some (qid, .empty)⟩
  | .accept qid nonce embargo =>
      match v.claimable nonce with
      | none => ⟨c, v, [], some (qid, .exception)⟩
      | some i =>
          let p := v.provisions i
          match c.exportCap p.server p.dispatch with
          | (none, _) => ⟨c, v, [], some (qid, .exception)⟩
          | (some eid, c) =>
              if embargo then
                let held := { p with exportId := eid, embargoed := true, acceptQuestionId := qid }
                ⟨c, v.setProvision i held, [], none⟩
              else
                let gone := { p with exportId := eid, used := false }
                ⟨c, v.setProvision i gone, [], some (qid, .cap eid)⟩
  | .finish qid => ⟨c.answerDrop qid, v, [], none⟩
  | .release importId count => ⟨c.released importId count, v, [], none⟩
  | .disembargo provideQid =>
      match v.liftable provideQid with
      | none => ⟨c, v, [], none⟩
      | some i =>
          let p := v.provisions i
          ⟨c, v.setProvision i Provision.zero, [], some (p.acceptQuestionId, .cap p.exportId)⟩

/-- A connection once it has sent an answer: an exception is not kept. -/
def Conn.keeping (c : Conn) (qid : Nat) (flat : List UInt8) : Returned → Conn
  | .exception => c
  | _ => c.answerKeep qid flat

/-- A handler has done what a response says, with one frame that carries the
answer, if there is one. -/
structure Response.Done (r : Response) (w : World) : Prop where
  vat_eq : w.vat = r.vat
  dispatched_eq : w.dispatched = r.dispatched
  silent : r.answer = none → w.conn = r.conn ∧ w.sent = []
  answers : ∀ qid returned, r.answer = some (qid, returned) → ∃ flat, w.sent = [flat] ∧
    w.conn = r.conn.keeping qid flat returned ∧ (returned.Parses qid → Carries flat qid returned)

/-! ## Sending what a response says -/

section
variable {c : Conn} {v : Vat} {calls : List Dispatch} (env : Env)

theorem done_silent : Response.Done ⟨c, v, calls, none⟩ ⟨c, v, [], calls⟩ :=
  ⟨rfl, rfl, fun _ => ⟨rfl, rfl⟩, fun _ _ answer => absurd answer.symm (Option.some_ne_none _)⟩

/-- One frame that carries the answer has been sent. -/
theorem done_answered {qid : Nat} {returned : Returned} {flat : List UInt8} {result : Int × World}
    (sends : result = World.transmit ⟨c.keeping qid flat returned, v, [], calls⟩ env flat)
    (carries : returned.Parses qid → Carries flat qid returned) :
    Response.Done ⟨c, v, calls, some (qid, returned)⟩ result.2 := by
  subst sends
  refine ⟨rfl, rfl, fun none => absurd none (Option.some_ne_none _), fun _ _ answer => ?_⟩
  cases answer
  exact ⟨flat, rfl, rfl, carries⟩

variable {qid : Nat} (qidLt : qid < 2 ^ 32)
include qidLt

theorem done_exception {reason : String} (short : reason.toList.length ≤ 1024) :
    Response.Done ⟨c, v, calls, some (qid, .exception)⟩
      (World.sendReturnException ⟨c, v, [], calls⟩ env qid reason).2 := by
  obtain ⟨b, flat, built, done, carries⟩ := exceptionReturn_carries qidLt short
  refine done_answered env ?_ fun _ => carries
  rw [World.sendReturnException, World.build, built]
  dsimp only
  rw [World.flush, done]
  rfl

theorem done_empty : Response.Done ⟨c, v, calls, some (qid, .empty)⟩
    (World.sendEmptyReturn ⟨c, v, [], calls⟩ env qid).2 := by
  obtain ⟨b, flat, built, done, carries⟩ := emptyReturn_carries qidLt
  refine done_answered env ?_ fun _ => carries
  rw [World.sendEmptyReturn, World.build, built]
  dsimp only
  rw [World.flushAnswer, done]
  rfl

theorem done_cap {eid : Nat} (small : eid < maxExports) :
    Response.Done ⟨c, v, calls, some (qid, .cap eid)⟩
      (World.sendCapReturn ⟨c, v, [], calls⟩ env qid eid).2 := by
  obtain ⟨flat, done, carries⟩ := capReturn_carries qidLt small
  refine done_answered env ?_ fun _ => carries
  rw [World.sendCapReturn, World.build, capReturn_init]
  dsimp only
  rw [World.flushAnswer, done]
  rfl

theorem done_results {ops : List BuildOp} (framable : (callReply qid ops).Framable) :
    Response.Done ⟨c, v, calls, some (qid, .results ops)⟩
      (World.flushAnswer ⟨c, v, [], calls⟩ env qid (callReply qid ops)).2 := by
  obtain ⟨flat, done, carries⟩ := callReply_carries qidLt framable
  refine done_answered env ?_ carries
  rw [World.flushAnswer, done]
  rfl

end

/-! ## Handling what is said -/

/-- What a vat does with a `Provide` that it can record. -/
theorem handleProvide_provides (env : Env) {msg : Incoming} {w : World} {eid nonce i : Nat}
    (offers : msg.offers w.conn = some (eid, nonce))
    (free : firstIndex maxProvisions (fun i => !(w.vat.provisions i).used) = some i) :
    handleProvide env msg.message msg.body msg.left w =
      { w with
        conn := w.conn.retain eid
        vat := w.vat.setProvision i { w.vat.provisions i with
          used := true
          nonce := nonce
          server := (w.conn.exports eid).server
          dispatch := (w.conn.exports eid).dispatch
          exportId := eid
          questionId := msg.questionId
          embargoed := false } }.sendEmptyReturn env msg.questionId := by
  unfold Incoming.offers at offers
  split at offers
  · cases offers
  · next isStruct =>
    dsimp only at offers
    split at offers
    · cases offers
    · next target =>
      split at offers
      · cases offers
      · next resolved =>
        split at offers
        · cases offers
        · next recipient =>
          obtain ⟨rfl, rfl⟩ := Prod.mk.inj (Option.some.inj offers)
          unfold handleProvide
          rw [if_neg isStruct]
          dsimp only
          rw [if_neg target, resolved]
          dsimp only
          rw [if_neg recipient, free]
          rfl

/-- What a vat does with a `Provide` that it cannot record. -/
theorem handleProvide_refused (env : Env) {msg : Incoming} {w : World}
    (isStruct : msg.body.kind = .struct)
    (refused : msg.offers w.conn = none ∨
      firstIndex maxProvisions (fun i => !(w.vat.provisions i).used) = none) :
    ∃ reason : String, reason.toList.length ≤ 1024 ∧
      handleProvide env msg.message msg.body msg.left w =
        w.sendReturnException env msg.questionId reason := by
  unfold handleProvide
  rw [if_neg (not_not.mpr isStruct)]
  dsimp only
  split
  · exact ⟨_, by decide, rfl⟩
  · next target =>
    split
    · exact ⟨_, by decide, rfl⟩
    · next eid left resolved =>
      split
      · exact ⟨_, by decide, rfl⟩
      · next recipient =>
        split
        · exact ⟨_, by decide, rfl⟩
        · next i free =>
          have offers : msg.offers w.conn = some (eid, msg.message.getU64
              (msg.message.getp msg.body 1 Ptr.zero left).out 0 0) := by
            unfold Incoming.offers
            dsimp only
            rw [if_neg (not_not.mpr isStruct), if_neg target, resolved]
            dsimp only
            rw [if_neg recipient]
          rw [offers, free] at refused
          exact refused.elim (absurd · (Option.some_ne_none _)) (absurd · (Option.some_ne_none _))

section
variable (env : Env) {data : List UInt8} {msg : Incoming} {c : Conn} {v : Vat} {qid : Nat}

theorem handleBootstrap_done (named : msg.questionId = qid) :
    ((Said.bootstrap qid).respond env c v).Done
      (handleBootstrap env msg.message msg.body (World.start c v)).2 := by
  have qidLt : qid < 2 ^ 32 := named ▸ getU32_lt _ _ _
  have id : msg.message.getU32 msg.body 0 0 = qid := named
  unfold handleBootstrap Said.respond
  dsimp only
  rw [id]
  by_cases none : (World.start c v).conn.bootstrap = 0
  · rw [if_pos none, if_pos (show c.bootstrap = 0 from none)]
    exact done_exception env qidLt (by decide)
  · rw [if_neg none, if_neg (show ¬c.bootstrap = 0 from none)]
    dsimp only [World.start]
    cases exported : c.exportCap c.bootstrap c.bootstrapDispatch with
    | mk found c' =>
        cases found with
        | none =>
            rw [Conn.exportCap_none exported]
            exact done_exception env qidLt (by decide)
        | some eid => exact done_cap env qidLt (Conn.exportCap_some exported).1

theorem handleCall_done {importedCap interfaceId methodId : Nat} {message : Message} {params : Ptr}
    {introduces : List Introduction}
    (said : msg.Says (.call qid importedCap interfaceId methodId message params introduces)) :
    ((Said.call qid importedCap interfaceId methodId message params introduces).respond env c v).Done
      (handleCall env msg.message msg.body msg.left (World.start c v)).2 := by
  obtain ⟨named, calls, interface, method, rfl, rfl, notes⟩ := said
  have qidLt : qid < 2 ^ 32 := named ▸ getU32_lt _ _ _
  have id : msg.message.getU32 msg.body 0 0 = qid := named
  obtain ⟨-, request⟩ := callRequest_eq calls c
  unfold Said.respond
  dsimp only
  cases live : c.imported importedCap with
  | none =>
      rw [live] at request
      obtain ⟨reason, short, rejected⟩ :=
        handleCall_rejected env _ _ _ (World.start c v) request
      rw [rejected, id]
      dsimp only [World.start]
      rw [notes]
      exact done_exception env qidLt short
  | some eid =>
      rw [live, Option.map_some] at request
      obtain ⟨d, dispatched⟩ : ∃ d, callDispatch msg.message msg.body msg.left c eid = d := ⟨_, rfl⟩
      have described : Dispatch.mk (c.exports eid).dispatch (c.exports eid).server interfaceId
          methodId msg.message msg.paramsRead.out = d := by
        rw [← dispatched, callDispatch, interface, method]
        rfl
      rw [dispatched] at request
      rw [handleCall_dispatched env _ _ _ (World.start c v) request, id]
      dsimp only [World.start]
      rw [notes, described, List.nil_append]
      by_cases failed : (env.dispatch d).rc ≠ 0
      · rw [if_pos failed, if_pos failed]
        exact done_silent
      · rw [if_neg failed, if_neg failed]
        exact done_results env qidLt ((env.dispatch d).framable qid)

theorem handleProvide_done {importedCap nonce port : Nat} {host : List UInt8}
    (said : msg.Says (.provide qid importedCap nonce host port)) :
    ((Said.provide qid importedCap nonce host port).respond env c v).Done
      (handleProvide env msg.message msg.body msg.left (World.start c v)).2 := by
  obtain ⟨-, named, isStruct, offers, -⟩ := said
  have qidLt : qid < 2 ^ 32 := named ▸ getU32_lt _ _ _
  have offer := offers c
  unfold Said.respond
  dsimp only
  cases live : c.imported importedCap with
  | none =>
      rw [live] at offer
      obtain ⟨reason, short, refused⟩ := handleProvide_refused env isStruct
        (w := World.start c v) (.inl offer)
      rw [refused, named]
      exact done_exception env qidLt short
  | some eid =>
      rw [live] at offer
      cases free : firstIndex maxProvisions fun i => !(v.provisions i).used with
      | none =>
          obtain ⟨reason, short, refused⟩ := handleProvide_refused env isStruct
            (w := World.start c v) (.inr free)
          rw [refused, named]
          exact done_exception env qidLt short
      | some i =>
          have provided := handleProvide_provides env (w := World.start c v) offer free
          rw [provided, named]
          exact done_empty env qidLt

theorem handleAccept_done {nonce : Nat} {embargo : Bool}
    (said : msg.Says (.accept qid nonce embargo)) :
    ((Said.accept qid nonce embargo).respond env c v).Done
      (handleAccept env msg.message msg.body msg.left (World.start c v)).2 := by
  obtain ⟨-, named, presents, flag⟩ := said
  have qidLt : qid < 2 ^ 32 := named ▸ getU32_lt _ _ _
  have id : msg.message.getU32 msg.body 0 0 = qid := named
  have held : msg.message.getBool msg.body 32 false = embargo := flag
  obtain ⟨isStruct, provision, presented⟩ := presents_some presents
  unfold handleAccept Said.respond
  rw [if_neg (not_not.mpr isStruct)]
  dsimp only [World.start]
  rw [if_neg provision, presented, id, held]
  cases claims : v.claimable nonce with
  | none => exact done_exception env qidLt (by decide)
  | some i =>
      dsimp only
      cases exported : c.exportCap (v.provisions i).server (v.provisions i).dispatch with
      | mk found c' =>
          cases found with
          | none =>
              rw [Conn.exportCap_none exported]
              exact done_exception env qidLt (by decide)
          | some eid =>
              cases embargo with
              | true => exact done_silent
              | false => exact done_cap env qidLt (Conn.exportCap_some exported).1

theorem handleDisembargo_done (sound : Sound c v) {provideQid : Nat}
    (said : msg.Disembargoes provideQid) :
    ((Said.disembargo provideQid).respond env c v).Done
      (handleDisembargo env msg.message msg.body msg.left (World.start c v)).2 := by
  obtain ⟨-, isStruct, context, named⟩ := said
  unfold handleDisembargo releaseProvideEmbargo Said.respond
  rw [if_neg (not_not.mpr isStruct)]
  dsimp only [World.start]
  rw [if_pos context, named]
  cases lifts : v.liftable provideQid with
  | none => exact done_silent
  | some i =>
      obtain ⟨-, holds, -⟩ := firstIndex_eq_some lifts
      simp only [Bool.and_eq_true] at holds
      obtain ⟨idLt, small⟩ := sound.held i holds.1.2
      exact done_cap env idLt small

/-- Handling a message is doing what a vat does when it is told what the
message says. -/
theorem handle_done {said : Said} (read : readIncoming data = some msg) (spoken : msg.Says said)
    (sound : Sound c v) : (said.respond env c v).Done (handle env data c v).2 := by
  rw [handle, read]
  dsimp only
  rw [handleIncoming]
  cases said with
  | bootstrap qid =>
      rw [spoken.1]
      exact handleBootstrap_done env spoken.2
  | call qid importedCap interfaceId methodId message params introduces =>
      rw [(callRequest_eq spoken.2.1 c).1]
      exact handleCall_done env spoken
  | provide qid importedCap nonce host port =>
      rw [spoken.1]
      exact handleProvide_done env spoken
  | accept qid nonce embargo =>
      rw [spoken.1]
      exact handleAccept_done env spoken
  | finish qid =>
      obtain ⟨which, rfl⟩ := spoken
      rw [which]
      exact done_silent
  | release importId count =>
      obtain ⟨which, rfl, rfl⟩ := spoken
      rw [which]
      change Response.Done _ (handleRelease msg.message msg.body (World.start c v))
      rw [handleRelease_eq]
      exact done_silent
  | disembargo provideQid =>
      rw [spoken.1]
      exact handleDisembargo_done env sound spoken

end

end CapnpJanet.Rpc
