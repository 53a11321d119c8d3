import CapnpJanet.Rpc.Cases
import CapnpJanet.Logic.Runs

/-!
# Connections that share a vat

A vat with any number of connections, driven by the frames that arrive on them
and by the application.  Beside the state of the code a run carries a history:
which questions were asked on each connection, which were answered there, and
for each provision which connection and question introduced it and which
connection and question hold an `Accept` of it.
-/

namespace CapnpJanet.Rpc

open Builder

/-! ## What one message does -/

/-- What handling a message did. -/
inductive Effect (msg : Incoming) (w w' : World) : Prop
  /-- No provision changed. -/
  | kept
      (serves : Serves { w with dispatched := w.dispatched ++ msg.requests w.conn } msg.asks w')
  /-- A reference count went down. -/
  | released (sent_eq : w'.sent = w.sent) (vat_eq : w'.vat = w.vat)
      (joins_eq : w'.conn.joins = w.conn.joins) (dispatched_eq : w'.dispatched = w.dispatched)
      (exports : ∀ e, (w.conn.exports e).used = true → msg.vacates w.conn ≠ some e →
        (w'.conn.exports e).used = true ∧ (w'.conn.exports e).server = (w.conn.exports e).server)
  /-- A free entry was filled with a new provision. -/
  | provided (i : Nat) (p : Provision) (free : (w.vat.provisions i).used = false)
      (used : p.used = true) (open' : p.embargoed = false) (id : p.questionId = msg.questionId)
      (serves : Serves { w with vat := w.vat.setProvision i p } msg.asks w')
  /-- A provision was claimed and answered. -/
  | taken (i : Nat) (p : Provision) (before : (w.vat.provisions i).embargoed = false)
      (gone : p.used = false) (open' : p.embargoed = false)
      (serves : Serves { w with vat := w.vat.setProvision i p } msg.asks w')
  /-- A provision was claimed and its answer is held back. -/
  | held (i eid : Nat) (index : i < maxProvisions) (used : (w.vat.provisions i).used = true)
      (before : (w.vat.provisions i).embargoed = false)
      (asks : msg.asks = [msg.questionId]) (small : eid < maxExports)
      (exported : (w'.conn.exports eid).used = true)
      (server : (w'.conn.exports eid).server = (w.vat.provisions i).server)
      (replies : Replies { w with vat := w.vat.setProvision i { w.vat.provisions i with
        exportId := eid, embargoed := true, acceptQuestionId := msg.questionId } } [] w')
  /-- An answer that was held back has been sent. -/
  | lifted (env : Env) (i : Nat) (lifts : msg.lifts w.vat = some i)
      (result : w' = ({ w with vat := w.vat.setProvision i Provision.zero }.sendCapReturn env
        (w.vat.provisions i).acceptQuestionId (w.vat.provisions i).exportId).2)

theorem asks_of_struct {msg : Incoming} (isStruct : msg.body.kind = .struct)
    (which : msg.which = msgProvide ∨ msg.which = msgAccept) : msg.asks = [msg.questionId] :=
  if_pos (.inr (.inr (.inr ⟨which, isStruct⟩)))

theorem requests_of_ne {msg : Incoming} (other : msg.which ≠ msgCall) (w : World) :
    { w with dispatched := w.dispatched ++ msg.requests w.conn } = w := by
  rw [Incoming.requests, if_neg other, List.append_nil]

/-- Every message has one of the effects. -/
theorem handleIncoming_effect (env : Env) (data : List UInt8) (msg : Incoming) {w : World}
    (wf : w.conn.JoinsWf) : Effect msg w (handleIncoming env data msg w).2 := by
  have quiet {w' : World} (other : msg.which ≠ msgCall) (replies : Replies w [] w') :
      Effect msg w w' := by
    refine .kept ?_
    rw [requests_of_ne other]
    exact replies.serves wf (List.nil_sublist _)
  unfold handleIncoming
  dsimp only
  split
  · next which =>
    refine .kept ?_
    rw [requests_of_ne (by rw [which]; decide), Incoming.asks, if_pos (.inl which)]
    exact (handleBootstrap_replies env _ _ w).serves wf (List.Sublist.refl _)
  · split
    · next which =>
      obtain ⟨ids, some, replies⟩ := handleCall_replies env msg.message msg.body msg.left w
      refine .kept ?_
      rw [Incoming.requests, if_pos which, Incoming.asks, if_pos (.inr (.inl which))]
      refine replies.serves wf ?_
      rcases some with rfl | rfl
      · exact List.nil_sublist _
      · exact List.Sublist.refl _
    · next notCall =>
      split
      · exact quiet notCall (answerDrop_replies w _)
      · split
        · next which =>
          obtain ⟨sent, vat, joins, dispatched, exports⟩ :=
            handleRelease_effect msg.message msg.body w
          refine .released sent vat joins dispatched fun e used stays => exports e used ?_
          rwa [Incoming.vacates, if_pos which] at stays
        · split
          · next which =>
            refine .kept ?_
            rw [requests_of_ne notCall, Incoming.asks, if_pos (.inr (.inr (.inl which)))]
            exact handleJoin_serves env _ _ _ wf
          · split
            · next which =>
              cases lifts : liftedBy msg.message msg.body w.vat with
              | none => exact quiet notCall (handleDisembargo_replies env _ _ _ w lifts)
              | some i =>
                  refine .lifted env i (by rw [Incoming.lifts, if_pos which, lifts]) ?_
                  rw [handleDisembargo_lifts env _ _ _ w lifts]
            · split
              · exact quiet notCall (handleReturn_replies _ _ _ w _)
              · split
                · next which =>
                  rcases handleProvide_effect env msg.message msg.body msg.left w with
                    ⟨ids, some, replies⟩ | ⟨i, p, free, used, open', id, isStruct, replies⟩
                  · refine .kept ?_
                    rw [requests_of_ne notCall]
                    refine replies.serves wf ?_
                    rcases some with rfl | ⟨isStruct, rfl⟩
                    · exact List.nil_sublist _
                    · rw [asks_of_struct isStruct (.inl which)]
                      exact List.Sublist.refl _
                  · refine .provided i p free used open' id (replies.serves wf ?_)
                    rw [asks_of_struct isStruct (.inl which)]
                    exact List.Sublist.refl _
                · split
                  · next which =>
                    rcases handleAccept_effect env msg.message msg.body msg.left w with
                      ⟨ids, some, replies⟩ | ⟨i, p, before, gone, open', isStruct, replies⟩ |
                      ⟨i, eid, index, used, before, isStruct, small, exported, server, replies⟩
                    · refine .kept ?_
                      rw [requests_of_ne notCall]
                      refine replies.serves wf ?_
                      rcases some with rfl | ⟨isStruct, rfl⟩
                      · exact List.nil_sublist _
                      · rw [asks_of_struct isStruct (.inr which)]
                        exact List.Sublist.refl _
                    · refine .taken i p before gone open' (replies.serves wf ?_)
                      rw [asks_of_struct isStruct (.inr which)]
                      exact List.Sublist.refl _
                    · exact .held i eid index used before (asks_of_struct isStruct (.inr which)) small
                        exported server replies
                  · exact quiet notCall (sendUnimplemented_replies env _ _ _ w)

/-- What a message that lifts an embargo does. -/
theorem handleIncoming_lifts (env : Env) (data : List UInt8) {msg : Incoming} {w : World} {i : Nat}
    (lifts : msg.lifts w.vat = some i) : handleIncoming env data msg w =
      { w with vat := w.vat.setProvision i Provision.zero }.sendCapReturn env
        (w.vat.provisions i).acceptQuestionId (w.vat.provisions i).exportId := by
  unfold Incoming.lifts at lifts
  split at lifts
  · next which =>
    unfold handleIncoming
    rw [which, if_neg (by decide), if_neg (by decide), if_neg (by decide), if_neg (by decide),
      if_neg (by decide), if_pos rfl]
    exact handleDisembargo_lifts env _ _ _ w lifts
  · cases lifts

/-! ## Many connections, one vat -/

/-- What a history records of one provision: the connection and question that
introduced it, the server it was introduced for, and the connection and
question of the last `Accept` held back on it. -/
structure Claim where
  introducer : Nat
  provideId : Nat
  pinned : Nat
  acceptor : Nat
  acceptId : Nat

/-- A vat, its connections, and the history: the questions asked and the
answers sent on each connection, and a claim for each provision. -/
structure Net where
  conn : Nat → Conn
  vat : Vat
  claims : Nat → Claim
  asked : Nat → List Nat
  answered : Nat → List Nat

/-- What happens to a vat's connections from outside: a frame arrives, or the
application calls a function of the library.  The functions that ask questions
write the tables of questions and introductions only. -/
inductive Action where
  | deliver (k : Nat) (env : Env) (data : List UInt8)
  | exportCap (k server dispatch : Nat)
  | setBootstrap (k server dispatch : Nat)
  | ask (k : Nat) (questions : Nat → Question) (introductions : Nat → Introduction)
      (nextQuestionId : Nat)

/-- The action delivers a message on a connection. -/
def Action.Delivers (a : Action) (k : Nat) (msg : Incoming) : Prop :=
  ∃ env data, a = .deliver k env data ∧ readIncoming data = some msg

/-- The claim on a provision after a question `qid` on connection `k` has
turned the provision `p` into `p'`. -/
def Claim.note (claim : Claim) (k qid : Nat) (p p' : Provision) : Claim :=
  if p.used = false ∧ p'.used = true then
    { claim with introducer := k, provideId := qid, pinned := p'.server }
  else if p.embargoed = false ∧ p'.embargoed = true then
    { claim with acceptor := k, acceptId := qid }
  else claim

namespace Net

/-- Fresh connections to a fresh vat. -/
def init : Net := ⟨fun _ => Conn.init, Vat.init, fun _ => ⟨0, 0, 0, 0, 0⟩, fun _ => [], fun _ => []⟩

/-- The application works on a connection. -/
def setConn (s : Net) (k : Nat) (c : Conn) : Net :=
  { s with conn := Function.update s.conn k c }

/-- A message on connection `k` has been handled. -/
def handled (s : Net) (k : Nat) (msg : Incoming) (w : World) : Net where
  conn := Function.update s.conn k w.conn
  vat := w.vat
  claims := fun i =>
    (s.claims i).note k msg.questionId (s.vat.provisions i) (w.vat.provisions i)
  asked := Function.update s.asked k (s.asked k ++ msg.asks)
  answered := Function.update s.answered k (s.answered k ++ answeredIds w.sent)

/-- One action. -/
def step (s : Net) : Action → Net
  | .deliver k env data =>
      match readIncoming data with
      | none => s
      | some msg => s.handled k msg (handle env data (s.conn k) s.vat).2
  | .exportCap k server dispatch => s.setConn k ((s.conn k).exportCap server dispatch).2
  | .setBootstrap k server dispatch => s.setConn k ((s.conn k).setBootstrap server dispatch)
  | .ask k questions introductions nextQuestionId =>
      s.setConn k { s.conn k with
        questions := questions
        introductions := introductions
        nextQuestionId := nextQuestionId }

end Net

end CapnpJanet.Rpc
