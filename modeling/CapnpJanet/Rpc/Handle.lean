import CapnpJanet.Rpc.Frames
import CapnpJanet.Rpc.State

/-!
# Handling one message

`capnp_rpc_handle` and the handlers it chooses from, from `capnp_rpc.c`.  A
handler transforms the connection, the vat and the record of the calls it makes
to the outside: the frames it hands to the send callback and the dispatch
functions it calls.  What those callbacks do is the environment's choice.

The message being handled has one traversal budget, threaded through all the
reads made on it.  The frame of a stored answer is parsed anew whenever it is
used, with a budget of its own.
-/

namespace CapnpJanet.Rpc

open ByteMemory Builder

/-- One call of a dispatch function: the export's function and server, the
method, and the parameters with the message they point into. -/
structure Dispatch where
  dispatch : Nat
  server : Nat
  interfaceId : Nat
  methodId : Nat
  message : Message
  params : Ptr

/-- What the callbacks do while one message is handled.  A send callback sees
the frames it was given before. -/
structure Env where
  dispatch : Dispatch → Reply
  send : List (List UInt8) → List UInt8 → Int

/-- The state a handler works on. -/
structure World where
  conn : Conn
  vat : Vat
  sent : List (List UInt8)
  dispatched : List Dispatch

/-- Before a handler has called anything. -/
def World.start (conn : Conn) (vat : Vat) : World := ⟨conn, vat, [], []⟩

namespace World

/-- Hand a frame to the send callback. -/
def transmit (w : World) (env : Env) (flat : List UInt8) : Int × World :=
  (env.send w.sent flat, { w with sent := w.sent ++ [flat] })

/-- `flush` -/
def flush (w : World) (env : Env) (b : Builder) : Int × World :=
  match b.serialize with
  | .error _ => (Status.alloc.code, w)
  | .ok flat => w.transmit env flat

/-- `flush_answer` -/
def flushAnswer (w : World) (env : Env) (qid : Nat) (b : Builder) : Int × World :=
  match b.serialize with
  | .error _ => (Status.alloc.code, w)
  | .ok flat => { w with conn := w.conn.answerKeep qid flat }.transmit env flat

/-- Build a frame in a fresh builder and pass the builder on. -/
def build (w : World) (frame : BuildM Unit) (next : Builder → Int × World) : Int × World :=
  match frame Builder.init with
  | .error rc _ => (rc.code, w)
  | .ok _ b => next b

/-- `send_return_exception` -/
def sendReturnException (w : World) (env : Env) (qid : Nat) (reason : String) : Int × World :=
  w.build (exceptionReturn qid reason) (w.flush env)

/-- `send_empty_return` -/
def sendEmptyReturn (w : World) (env : Env) (qid : Nat) : Int × World :=
  w.build (emptyReturn qid) (w.flushAnswer env qid)

/-- Answer a question with one exported capability. -/
def sendCapReturn (w : World) (env : Env) (qid eid : Nat) : Int × World :=
  w.build (capReturn qid eid) (w.flushAnswer env qid)

/-- `send_unimplemented` -/
def sendUnimplemented (w : World) (env : Env) (m : Message) (orig : Ptr) (left : Nat) :
    Int × World :=
  w.build (unimplementedEcho m orig left) (w.flush env)

end World

/-! ## Targets -/

/-- The transform of a `PromisedAnswer`: the first `n` ops applied to a cursor
into the stored answer.  Ops other than `getPointerField` are skipped. -/
def walkTransform (m stored : Message) (ops : Ptr) : (n : Nat) → Ptr × Nat → Option (Ptr × Nat)
  | 0, cursor => some cursor
  | n + 1, cursor =>
      match walkTransform m stored ops n cursor with
      | none => none
      | some (cursor, left) =>
          match Message.listGetStruct ops n Ptr.zero with
          | (.ok, op) =>
              if m.getU16 op 0 0 ≠ 1 then some (cursor, left)
              else if cursor.kind ≠ .struct then none
              else
                let next := stored.getp cursor (m.getU16 op 2 0) Ptr.zero left
                if next.rc ≠ .ok then none else some (next.out, next.left)
          | _ => none

/-- The export a capability pointer into a stored answer names: its index is
looked up in the answer's capTable. -/
def Conn.resolveCapTable (c : Conn) (stored : Message) (payload cursor : Ptr) (left : Nat) :
    Option Nat :=
  if cursor.kind ≠ .cap then none
  else
    let table := stored.getp payload 1 Ptr.zero left
    if table.rc ≠ .ok then none
    else if cursor.count ≥ listLen table.out then none
    else
      match Message.listGetStruct table.out cursor.count Ptr.zero with
      | (.ok, desc) =>
          if stored.getU16 desc capDescTagOff 0 ≠ capDescTagSenderHosted then none
          else
            let id := stored.getU32 desc capDescSenderHostedOff 0
            if id < maxExports ∧ (c.exports id).used then some id else none
      | _ => none

/-- The payload and content of a stored answer that is a results `Return`, with
the budget left on it. -/
def answerPayload (stored : Message) : Option (Ptr × Ptr × Nat) :=
  let root := stored.root Ptr.zero defaultTraversalWords
  if root.rc ≠ .ok then none
  else if stored.getU16 root.out messageTagOff 0 ≠ msgReturn then none
  else
    let ret := stored.getp root.out 0 Ptr.zero root.left
    if ret.rc ≠ .ok then none
    else if stored.getU16 ret.out returnTagOff 0 ≠ returnTagResults then none
    else
      let payload := stored.getp ret.out 0 Ptr.zero ret.left
      if payload.rc ≠ .ok then none
      else
        let content := stored.getp payload.out 0 Ptr.zero payload.left
        if content.rc ≠ .ok then none else some (payload.out, content.out, content.left)

/-- `resolve_promised_answer`: the export, and the message's remaining budget. -/
def Conn.resolvePromisedAnswer (c : Conn) (m : Message) (promised : Ptr) (left : Nat) :
    Option Nat × Nat :=
  if promised.kind ≠ .struct then (none, left)
  else
    match c.answerFind (m.getU32 promised 0 0) with
    | none => (none, left)
    | some i =>
        match messageFromFlat (c.answers i).frame with
        | .error _ => (none, left)
        | .ok stored =>
            match answerPayload stored with
            | none => (none, left)
            | some (payload, content, storedLeft) =>
                let ops := m.getp promised 0 Ptr.zero left
                -- the loop counts with an `int`
                let n := if ops.rc = .ok then (int32 (listLen ops.out)).toNat else 0
                match walkTransform m stored ops.out n (content, storedLeft) with
                | none => (none, ops.left)
                | some (cursor, storedLeft) =>
                    (c.resolveCapTable stored payload cursor storedLeft, ops.left)

/-- `resolve_target` -/
def Conn.resolveTarget (c : Conn) (m : Message) (target : Ptr) (left : Nat) : Option Nat × Nat :=
  if target.kind ≠ .struct then (none, left)
  else
    let which := m.getU16 target 4 0
    if which = 1 then
      let promised := m.getp target 0 Ptr.zero left
      if promised.rc ≠ .ok then (none, promised.left)
      else c.resolvePromisedAnswer m promised.out promised.left
    else if which ≠ 0 then (none, left)
    else
      let id := m.getU32 target 0 0
      (if id < maxExports ∧ (c.exports id).used then some id else none, left)

/-! ## Introductions -/

/-- Read one entry of a cap table: the introduction it carries, if any, and the
remaining budget. -/
def readIntroduction (m : Message) (table : Ptr) (i left : Nat) : Option Introduction × Nat :=
  match Message.listGetStruct table i Ptr.zero with
  | (.ok, desc) =>
      if m.getU16 desc capDescTagOff 0 ≠ capDescTagThirdPartyHosted then (none, left)
      else
        let tpcd := m.getp desc 0 Ptr.zero left
        if tpcd.rc ≠ .ok ∨ tpcd.out.kind ≠ .struct then (none, tpcd.left)
        else
          let id := m.getp tpcd.out 0 Ptr.zero tpcd.left
          if id.rc ≠ .ok ∨ id.out.kind ≠ .struct then (none, id.left)
          else
            let vat := m.getp id.out 0 Ptr.zero id.left
            if vat.rc ≠ .ok ∨ vat.out.kind ≠ .struct then (none, vat.left)
            else
              let (rc, host, left) := m.getText vat.out 0 vat.left
              -- a null text pointer gives the empty string, so a host is always set
              if rc ≠ .ok ∨ host.length ≥ maxHost then (none, left)
              else
                (some ⟨true, m.getU64 id.out 0 0, m.getU32 tpcd.out 0 0, m.getU16 vat.out 0 0, host⟩,
                  left)
  | _ => (none, left)

/-- Record an introduction in the first free entry, if there is one. -/
def Conn.addIntroduction (c : Conn) (introduction : Introduction) : Conn :=
  match firstIndex maxIntroductions fun j => !(c.introductions j).used with
  | some j => { c with introductions := Function.update c.introductions j introduction }
  | none => c

/-- `note_introductions`, for the first `n` entries of the cap table. -/
def Conn.noteEntries (c : Conn) (m : Message) (table : Ptr) : (n left : Nat) → Conn × Nat
  | 0, left => (c, left)
  | n + 1, left =>
      let (c, left) := c.noteEntries m table n left
      match readIntroduction m table n left with
      | (some introduction, left) => (c.addIntroduction introduction, left)
      | (none, left) => (c, left)

/-- `note_introductions` -/
def Conn.noteIntroductions (c : Conn) (m : Message) (payload : Ptr) (left : Nat) : Conn × Nat :=
  if payload.kind ≠ .struct then (c, left)
  else
    let table := m.getp payload 1 Ptr.zero left
    if table.rc ≠ .ok then (c, table.left)
    else c.noteEntries m table.out (listLen table.out) table.left

/-! ## Level 1 -/

/-- `handle_bootstrap` -/
def handleBootstrap (env : Env) (m : Message) (boot : Ptr) (w : World) : Int × World :=
  let qid := m.getU32 boot 0 0
  if w.conn.bootstrap = 0 then w.sendReturnException env qid "no bootstrap capability"
  else
    match w.conn.exportCap w.conn.bootstrap w.conn.bootstrapDispatch with
    | (none, c) => { w with conn := c }.sendReturnException env qid "export table full"
    | (some eid, c) => { w with conn := c }.sendCapReturn env qid eid

/-- The parameters of a call and the budget after reading them.  The return
code of the second read is not looked at. -/
def callParams (m : Message) (call : Ptr) (left : Nat) : Resolved × Resolved :=
  let payload := m.getp call 1 Ptr.zero left
  if payload.rc ≠ .ok then (payload, ⟨.ok, Ptr.zero, payload.left⟩)
  else (payload, m.getp payload.out 0 Ptr.zero payload.left)

/-- The connection and the budget after the cap table of a call has been
noted. -/
def callIntroductions (m : Message) (call : Ptr) (left : Nat) (c : Conn) : Conn × Nat :=
  let (payload, params) := callParams m call left
  if payload.rc ≠ .ok then (c, params.left)
  else c.noteIntroductions m payload.out params.left

/-- What a call asks for: the export it resolves to, or the reason of the
exception that answers it. -/
def callTarget (m : Message) (call : Ptr) (left : Nat) (c : Conn) : Except String Nat :=
  let target := m.getp call 0 Ptr.zero left
  if target.rc ≠ .ok then .error "call has no target"
  else
    match (c.resolveTarget m target.out target.left).1 with
    | none => .error "no such export"
    | some eid => .ok eid

/-- The dispatch call that a call resolved to export `eid` makes. -/
def callDispatch (m : Message) (call : Ptr) (left : Nat) (c : Conn) (eid : Nat) : Dispatch where
  dispatch := (c.exports eid).dispatch
  server := (c.exports eid).server
  interfaceId := m.getU64 call 8 0
  methodId := m.getU16 call 4 0
  message := m
  params := (callParams m call left).2.out

/-- `handle_call` -/
def handleCall (env : Env) (m : Message) (call : Ptr) (left : Nat) (w : World) : Int × World :=
  let qid := m.getU32 call 0 0
  let noted := callIntroductions m call left w.conn
  let w := { w with conn := noted.1 }
  match callTarget m call noted.2 w.conn with
  | .error reason => w.sendReturnException env qid reason
  | .ok eid =>
      match beginResults qid Builder.init with
      | .error rc _ => (rc.code, w)
      | .ok _ _ =>
          let request := callDispatch m call left w.conn eid
          let w := { w with dispatched := w.dispatched ++ [request] }
          let reply := env.dispatch request
          if reply.rc ≠ 0 then (reply.rc, w) else w.flushAnswer env qid (callReply qid reply.ops)

/-- `handle_release` -/
def handleRelease (m : Message) (rel : Ptr) (w : World) : World :=
  let id := m.getU32 rel 0 0
  let count := m.getU32 rel 4 0
  if id ≥ maxExports ∨ (w.conn.exports id).used = false then w
  else
    let refcount := int32 ((w.conn.exports id).refcount - int32 count)
    let e := if refcount ≤ 0 then Export.zero else { w.conn.exports id with refcount := refcount }
    { w with conn := w.conn.setExport id e }

/-- `handle_return` -/
def handleReturn (m : Message) (ret : Ptr) (frame : List UInt8) (left : Nat) (w : World) : World :=
  if ret.kind ≠ .struct then w
  else
    match w.conn.questionFind (m.getU32 ret returnAnswerIdOff 0) with
    | none => w
    | some i =>
        if frame.length > maxAnswerBytes then w
        else
          let failed : Bool := m.getU16 ret returnTagOff 0 ≠ returnTagResults
          let results := m.getp ret 0 Ptr.zero left
          let c :=
            if !failed ∧ results.rc = .ok then
              (w.conn.noteIntroductions m results.out results.left).1
            else w.conn
          let q := { c.questions i with answered := true, failed := failed, reply := frame }
          { w with conn := { c with questions := Function.update c.questions i q } }

/-! ## Level 4 -/

/-- `send_join_result`, where `cap` is the export it carries, if any. -/
def sendJoinResult (env : Env) (qid joinId : Nat) (succeeded : Bool) (cap : Option Nat)
    (w : World) : Int × World :=
  match beginJoinResult qid joinId succeeded Builder.init with
  | .error rc _ => (rc.code, w)
  | .ok (payload, jr) b =>
      match cap with
      | none => w.flush env b
      | some eid =>
          let w := { w with conn := w.conn.retain eid }
          match joinResultCap payload jr eid b with
          | .error rc _ => (rc.code, w)
          | .ok _ b => w.flush env b

/-- `join_slot_find` -/
def Conn.joinSlotFind (c : Conn) (jid pcount : Nat) : Option Nat × Conn :=
  match firstIndex maxJoins fun i => (c.joins i).used && (c.joins i).joinId == jid with
  | some i => (if (c.joins i).partCount = pcount then some i else none, c)
  | none =>
      match firstIndex maxJoins fun i => !(c.joins i).used with
      | some i =>
          (some i, c.setJoin i { Join.zero with used := true, joinId := jid, partCount := pcount })
      | none => (none, c)

/-- Whether all parts of a join resolved to the same export. -/
def Join.same (join : Join) : Bool :=
  (join.eids 0).isSome && (List.range join.partCount).all fun i => join.eids i == join.eids 0

/-- Answer the first `n` parts of a completed join; the result is the last code
that is not zero. -/
def answerParts (env : Env) (join : Join) : (n : Nat) → World → Int × World
  | 0, w => (0, w)
  | n + 1, w =>
      let (rc, w) := answerParts env join n w
      let (r, w) := sendJoinResult env (join.qids n) join.joinId join.same
        (if join.same && n == 0 then join.eids 0 else none) w
      (if r ≠ 0 then r else rc, w)

/-- `join_complete` -/
def joinComplete (env : Env) (slot : Nat) (w : World) : Int × World :=
  let join := w.conn.joins slot
  let (rc, w) := answerParts env join join.partCount w
  (rc, { w with conn := w.conn.setJoin slot Join.zero })

/-- One more part of a join. -/
def Join.addPart (join : Join) (pnum qid : Nat) (eid : Option Nat) : Join :=
  { join with
    seen := Function.update join.seen pnum true
    qids := Function.update join.qids pnum qid
    eids := Function.update join.eids pnum eid
    nseen := join.nseen + 1 }

/-- `handle_join` -/
def handleJoin (env : Env) (m : Message) (join : Ptr) (left : Nat) (w : World) : Int × World :=
  let qid := m.getU32 join 0 0
  let key := m.getp join 1 Ptr.zero left
  if key.rc ≠ .ok ∨ key.out.kind ≠ .struct then sendJoinResult env qid 0 false none w
  else
    let jid := m.getU32 key.out 0 0
    let pcount := m.getU16 key.out 4 0
    let pnum := m.getU16 key.out 6 0
    if pcount = 0 ∨ pcount > maxJoinParts ∨ pnum ≥ pcount then
      sendJoinResult env qid jid false none w
    else
      match w.conn.joinSlotFind jid pcount with
      | (none, c) => sendJoinResult env qid jid false none { w with conn := c }
      | (some slot, c) =>
          if (c.joins slot).seen pnum then
            sendJoinResult env qid jid false none { w with conn := c }
          else
            let target := m.getp join 0 Ptr.zero key.left
            let eid := if target.rc = .ok then (c.resolveTarget m target.out target.left).1 else none
            let part := (c.joins slot).addPart pnum qid eid
            let w := { w with conn := c.setJoin slot part }
            if part.nseen = part.partCount then joinComplete env slot w else (0, w)

/-! ## Level 3 -/

/-- `handle_provide` -/
def handleProvide (env : Env) (m : Message) (provide : Ptr) (left : Nat) (w : World) :
    Int × World :=
  if provide.kind ≠ .struct then (0, w)
  else
    let qid := m.getU32 provide 0 0
    let target := m.getp provide 0 Ptr.zero left
    if target.rc ≠ .ok then w.sendReturnException env qid "provide: no target"
    else
      match w.conn.resolveTarget m target.out target.left with
      | (none, _) => w.sendReturnException env qid "provide: no such capability"
      | (some eid, left) =>
          let recipient := m.getp provide 1 Ptr.zero left
          if recipient.rc ≠ .ok ∨ recipient.out.kind ≠ .struct then
            w.sendReturnException env qid "provide: no recipient"
          else
            match firstIndex maxProvisions fun i => !(w.vat.provisions i).used with
            | none => w.sendReturnException env qid "provide: table full"
            | some i =>
                let e := w.conn.exports eid
                let p := { w.vat.provisions i with
                  used := true
                  nonce := m.getU64 recipient.out 0 0
                  server := e.server
                  dispatch := e.dispatch
                  exportId := eid
                  questionId := qid
                  embargoed := false }
                { w with conn := w.conn.retain eid, vat := w.vat.setProvision i p }.sendEmptyReturn
                  env qid

/-- The provision an `Accept` of a nonce claims. -/
def Vat.claimable (v : Vat) (nonce : Nat) : Option Nat :=
  firstIndex maxProvisions fun i =>
    (v.provisions i).used && !(v.provisions i).embargoed && (v.provisions i).nonce == nonce

/-- `handle_accept` -/
def handleAccept (env : Env) (m : Message) (accept : Ptr) (left : Nat) (w : World) : Int × World :=
  if accept.kind ≠ .struct then (0, w)
  else
    let qid := m.getU32 accept 0 0
    let provision := m.getp accept 0 Ptr.zero left
    if provision.rc ≠ .ok ∨ provision.out.kind ≠ .struct then
      w.sendReturnException env qid "accept: no provision"
    else
      let nonce := m.getU64 provision.out 0 0
      let embargo := m.getBool accept 32 false
      match w.vat.claimable nonce with
      | none => w.sendReturnException env qid "accept: no such provision"
      | some i =>
          let p := w.vat.provisions i
          match w.conn.exportCap p.server p.dispatch with
          | (none, c) => { w with conn := c }.sendReturnException env qid "accept: export table full"
          | (some eid, c) =>
              if embargo then
                let held := { p with exportId := eid, embargoed := true, acceptQuestionId := qid }
                (0, { w with conn := c, vat := w.vat.setProvision i held })
              else
                let gone := { p with exportId := eid, used := false }
                { w with conn := c, vat := w.vat.setProvision i gone }.sendCapReturn env qid eid

/-- The provision a `Disembargo` of a Provide question lifts. -/
def Vat.liftable (v : Vat) (provideQid : Nat) : Option Nat :=
  firstIndex maxProvisions fun i =>
    (v.provisions i).used && (v.provisions i).embargoed && (v.provisions i).questionId == provideQid

/-- `release_provide_embargo` -/
def releaseProvideEmbargo (env : Env) (provideQid : Nat) (w : World) : Int × World :=
  match w.vat.liftable provideQid with
  | none => (0, w)
  | some i =>
      let p := w.vat.provisions i
      { w with vat := w.vat.setProvision i Provision.zero }.sendCapReturn env p.acceptQuestionId
        p.exportId

/-- `handle_disembargo` -/
def handleDisembargo (env : Env) (m : Message) (dis : Ptr) (left : Nat) (w : World) : Int × World :=
  if dis.kind ≠ .struct then (0, w)
  else
    let which := m.getU16 dis disCtxTagOff 0
    let id := m.getU32 dis disCtxValueOff 0
    if which = disCtxProvide then releaseProvideEmbargo env id w
    else if which ≠ disCtxSenderLoopback then (0, w)
    else
      let target := m.getp dis 0 Ptr.zero left
      let echo := if target.rc = .ok ∧ target.out.kind ≠ .null then some target.out else none
      w.build (disembargoEcho m echo id target.left) (w.flush env)

/-! ## Messages -/

/-- A message as `capnp_rpc_handle` reads it: its root, its union tag, and the
body, which is the zero handle when it cannot be read. -/
structure Incoming where
  message : Message
  root : Ptr
  which : Nat
  body : Ptr
  left : Nat

/-- The reads at the start of `capnp_rpc_handle`. -/
def readIncoming (data : List UInt8) : Option Incoming :=
  match messageFromFlat data with
  | .error _ => none
  | .ok m =>
      let root := m.root Ptr.zero defaultTraversalWords
      if root.rc ≠ .ok then none
      else
        let body := m.getp root.out 0 Ptr.zero root.left
        some {
          message := m
          root := root.out
          which := m.getU16 root.out messageTagOff 0
          body := if body.rc ≠ .ok then Ptr.zero else body.out
          left := body.left }

/-- The `switch` of `capnp_rpc_handle`. -/
def handleIncoming (env : Env) (data : List UInt8) (msg : Incoming) (w : World) : Int × World :=
  let m := msg.message
  if msg.which = msgBootstrap then handleBootstrap env m msg.body w
  else if msg.which = msgCall then handleCall env m msg.body msg.left w
  else if msg.which = msgFinish then
    (0, { w with conn := w.conn.answerDrop (m.getU32 msg.body 0 0) })
  else if msg.which = msgRelease then (0, handleRelease m msg.body w)
  else if msg.which = msgJoin then handleJoin env m msg.body msg.left w
  else if msg.which = msgDisembargo then handleDisembargo env m msg.body msg.left w
  else if msg.which = msgReturn then (0, handleReturn m msg.body data msg.left w)
  else if msg.which = msgProvide then handleProvide env m msg.body msg.left w
  else if msg.which = msgAccept then handleAccept env m msg.body msg.left w
  else w.sendUnimplemented env m msg.root msg.left

/-- `capnp_rpc_handle` -/
def handle (env : Env) (data : List UInt8) (conn : Conn) (vat : Vat) : Int × World :=
  match readIncoming data with
  | none => (Status.framing.code, World.start conn vat)
  | some msg => handleIncoming env data msg (World.start conn vat)

end CapnpJanet.Rpc
