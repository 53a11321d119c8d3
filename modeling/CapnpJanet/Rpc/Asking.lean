import CapnpJanet.Rpc.Client
import CapnpJanet.Rpc.Learning
import CapnpJanet.Rpc.Requests
import CapnpJanet.Rpc.Steps

/-!
# A connection that asks

The functions of `capnp_rpc.c` that an application calls to ask questions, to
drop them, and to close introductions, and runs in which it does so while frames
arrive.  A question claims an entry of its table before its message is built;
the entry is given back when the message cannot be sent.
-/

namespace CapnpJanet.Rpc

open Builder Run

/-! ## Asking -/

/-- `(uint32_t)-1`, what the functions that ask return on failure. -/
def noQuestion : Nat := 2 ^ 32 - 1

/-- The entry that `question_claim` takes. -/
def Conn.questionSlot (c : Conn) : Option Nat :=
  firstIndex maxQuestions fun i => !(c.questions i).used

/-- `q->used = 0` -/
def Conn.questionDrop (c : Conn) (i : Nat) : Conn :=
  { c with questions := Function.update c.questions i { c.questions i with used := false } }

namespace World

/-- What the functions that ask have in common: claim a question, build its
message and send it, and give the question back if that fails. -/
def ask (w : World) (env : Env) (message : Nat → BuildM Unit) : Nat × World :=
  match w.conn.questionSlot, w.conn.questionClaim with
  | some i, some (qid, c) =>
      let w := { w with conn := c }
      let (rc, w) := w.build (message qid) (w.flush env)
      if rc ≠ 0 then (noQuestion, { w with conn := w.conn.questionDrop i }) else (qid, w)
  | _, _ => (noQuestion, w)

/-- `capnp_rpc_send_bootstrap` -/
def sendBootstrap (w : World) (env : Env) : Nat × World := w.ask env bootstrapMessage

/-- `capnp_rpc_send_call` -/
def sendCall (w : World) (env : Env) (importedCap interfaceId methodId paramsDwords paramsPwords : Nat)
    (fill : Fill) : Nat × World :=
  w.ask env (callMessage importedCap interfaceId methodId paramsDwords paramsPwords fill.ops)

/-- `capnp_rpc_send_provide`, where the host may be `NULL`. -/
def sendProvide (w : World) (env : Env) (importedCap : Nat) (recipientHost : Option (List UInt8))
    (recipientPort nonce : Nat) : Nat × World :=
  match recipientHost with
  | none => (noQuestion, w)
  | some host => w.ask env (provideMessage importedCap host recipientPort nonce)

/-- `capnp_rpc_send_accept` -/
def sendAccept (w : World) (env : Env) (nonce : Nat) (embargo : Bool) : Nat × World :=
  w.ask env (acceptMessage nonce embargo)

/-- `capnp_rpc_send_finish` -/
def sendFinish (w : World) (env : Env) (qid : Nat) : Int × World :=
  let w := match w.conn.questionFind qid with
    | none => w
    | some i => { w with conn := w.conn.questionDrop i }
  w.build (finishMessage qid) (w.flush env)

/-- `capnp_rpc_send_release` -/
def sendRelease (w : World) (env : Env) (importId count : Nat) : Int × World :=
  w.build (releaseMessage importId count) (w.flush env)

/-- `capnp_rpc_send_disembargo_provide` -/
def sendDisembargoProvide (w : World) (env : Env) (provideQid : Nat) : Int × World :=
  w.build (disembargoMessage provideQid) (w.flush env)

end World

/-- The introduction that `capnp_rpc_introduction_done` closes. -/
def Conn.introductionFind (c : Conn) (nonce : Nat) : Option Nat :=
  firstIndex maxIntroductions fun i => (c.introductions i).used && (c.introductions i).nonce == nonce

/-- `capnp_rpc_introduction_done`.  What releasing the vine returns is not
looked at. -/
def World.introductionDone (w : World) (env : Env) (nonce : Nat) : Int × World :=
  match w.conn.introductionFind nonce with
  | none => (-1, w)
  | some i =>
      let (_, w) := w.sendRelease env (w.conn.introductions i).vineId 1
      (0, { w with conn := { w.conn with
        introductions := Function.update w.conn.introductions i Introduction.zero } })

/-! ### What asking does -/

/-- The connection after `question_claim` has taken entry `i`. -/
def Conn.claimed (c : Conn) (i : Nat) : Conn :=
  { c with
    questions := Function.update c.questions i
      { Question.zero with used := true, questionId := c.nextQuestionId }
    nextQuestionId := (c.nextQuestionId + 1) % 2 ^ 32 }

theorem Conn.questionClaim_eq (c : Conn) :
    c.questionClaim = c.questionSlot.map fun i => (c.nextQuestionId, c.claimed i) := by
  unfold questionClaim questionSlot
  cases firstIndex maxQuestions fun i => !(c.questions i).used with
  | none => rfl
  | some i => rfl

section
variable {c : Conn} {i : Nat}

theorem Conn.questionSlot_some (slot : c.questionSlot = some i) :
    i < maxQuestions ∧ (c.questions i).used = false := by
  obtain ⟨small, free, -⟩ := firstIndex_eq_some slot
  exact ⟨small, by simpa using free⟩

/-- A claimed entry has the next id, and the others are as before. -/
theorem Conn.claimed_self (c : Conn) (i : Nat) : (c.claimed i).questions i =
    { Question.zero with used := true, questionId := c.nextQuestionId } :=
  Function.update_self _ _ _

theorem Conn.claimed_of_ne (c : Conn) {i j : Nat} (other : j ≠ i) :
    (c.claimed i).questions j = c.questions j := Function.update_of_ne other _ _

theorem Conn.questionDrop_kept (c : Conn) (i : Nat) {j : Nat}
    (used : ((c.questionDrop i).questions j).used = true) :
    j ≠ i ∧ (c.questionDrop i).questions j = c.questions j := by
  have other : j ≠ i := by
    rintro rfl
    simp [questionDrop] at used
  exact ⟨other, Function.update_of_ne other _ _⟩

end

/-- How asking can end: without an entry, with the entry given back, or with
a question and its message sent. -/
inductive Asks (w : World) (env : Env) (message : Nat → BuildM Unit) : Nat × World → Prop
  | refused : Asks w env message (noQuestion, w)
  | failed {i : Nat} {sent : List (List UInt8)} (slot : w.conn.questionSlot = some i)
      (untaken : ∀ flat, sent = w.sent ++ [flat] → env.send w.sent flat ≠ 0) :
      Asks w env message
        (noQuestion, { w with conn := (w.conn.claimed i).questionDrop i, sent := sent })
  | asked {i : Nat} {b : Builder} {flat : List UInt8} (slot : w.conn.questionSlot = some i)
      (built : message w.conn.nextQuestionId Builder.init = .ok () b)
      (done : b.serialize = .ok flat) (taken : env.send w.sent flat = 0) :
      Asks w env message
        (w.conn.nextQuestionId, { w with conn := w.conn.claimed i, sent := w.sent ++ [flat] })

section
variable (w : World) (env : Env)

/-- A message that can be built is handed to the callback. -/
theorem build_flush_eq {message : BuildM Unit} {b : Builder} {flat : List UInt8}
    (built : message Builder.init = .ok () b) (done : b.serialize = .ok flat) :
    w.build message (w.flush env) = (env.send w.sent flat, { w with sent := w.sent ++ [flat] }) := by
  unfold World.build World.flush
  rw [built]
  dsimp only
  rw [done]
  rfl

/-- Building a message and sending it: it is handed to the callback, or there is
nothing to send. -/
theorem build_flush_cases {message : BuildM Unit} (refuses : Refuses message) :
    (∃ rc, rc ≠ 0 ∧ w.build message (w.flush env) = (rc, w)) ∨
      ∃ b flat, message Builder.init = .ok () b ∧ b.serialize = .ok flat ∧
        w.build message (w.flush env) = (env.send w.sent flat, { w with sent := w.sent ++ [flat] }) := by
  unfold World.build
  cases built : message Builder.init with
  | error rc b =>
      have coded := refuses _ _ _ built
      refine .inl ⟨rc.code, ?_, rfl⟩
      cases rc with
      | ok => exact absurd rfl coded
      | _ => decide
  | ok _ b =>
      cases done : b.serialize with
      | ok flat =>
          refine .inr ⟨b, flat, rfl, done, ?_⟩
          have run := build_flush_eq w env built done
          rwa [World.build, built] at run
      | error rc =>
          refine .inl ⟨Status.alloc.code, by decide, ?_⟩
          dsimp only
          rw [World.flush, done]

/-- Asking ends in one of three ways. -/
theorem ask_asks {message : Nat → BuildM Unit} (refuses : ∀ qid, Refuses (message qid)) :
    Asks w env message (w.ask env message) := by
  unfold World.ask
  rw [Conn.questionClaim_eq]
  cases slot : w.conn.questionSlot with
  | none => exact .refused
  | some i =>
      dsimp only [Option.map_some]
      rcases build_flush_cases { w with conn := w.conn.claimed i } env
        (refuses w.conn.nextQuestionId) with ⟨rc, failed, run⟩ | ⟨b, flat, built, done, run⟩
      · rw [run]
        dsimp only
        rw [if_pos failed]
        exact .failed slot fun flat more => absurd more (by simp)
      · rw [run]
        dsimp only
        by_cases taken : env.send w.sent flat = 0
        · rw [if_neg (not_not.mpr taken)]
          exact .asked slot built done taken
        · rw [if_pos taken]
          refine .failed slot fun flat' more => ?_
          rw [← (List.append_cancel_left_eq _ _ _).mp more |> List.singleton_inj.mp]
          exact taken

/-- A question whose message can be built and is taken. -/
theorem ask_taken {message : Nat → BuildM Unit} {i : Nat} {b : Builder} {flat : List UInt8}
    (slot : w.conn.questionSlot = some i)
    (built : message w.conn.nextQuestionId Builder.init = .ok () b) (done : b.serialize = .ok flat)
    (taken : env.send w.sent flat = 0) : w.ask env message =
      (w.conn.nextQuestionId, { w with conn := w.conn.claimed i, sent := w.sent ++ [flat] }) := by
  unfold World.ask
  rw [Conn.questionClaim_eq, slot]
  dsimp only [Option.map_some]
  rw [build_flush_eq _ env built done]
  dsimp only
  rw [if_neg (not_not.mpr taken)]

/-- What dropping a question does to the tables. -/
def Conn.finished (c : Conn) (qid : Nat) : Conn :=
  match c.questionFind qid with
  | none => c
  | some i => c.questionDrop i

/-- Finishing a question drops it and sends one `Finish` of it. -/
theorem sendFinish_eq {qid : Nat} (qidLt : qid < 2 ^ 32) : ∃ flat, finishOf flat = some qid ∧
    w.sendFinish env qid = (env.send w.sent flat,
      { w with conn := w.conn.finished qid, sent := w.sent ++ [flat] }) := by
  obtain ⟨b, flat, built, done, read⟩ := finishMessage_reads qidLt
  refine ⟨flat, read, ?_⟩
  unfold World.sendFinish Conn.finished
  cases w.conn.questionFind qid with
  | none => exact build_flush_eq w env built done
  | some i => exact build_flush_eq { w with conn := w.conn.questionDrop i } env built done

/-- Releasing an import sends one `Release` of it. -/
theorem sendRelease_eq {importId count : Nat} (idLt : importId < 2 ^ 32) (countLt : count < 2 ^ 32) :
    ∃ flat, releaseOf flat = some (importId, count) ∧ w.sendRelease env importId count =
      (env.send w.sent flat, { w with sent := w.sent ++ [flat] }) := by
  obtain ⟨b, flat, built, done, read⟩ := releaseMessage_reads idLt countLt
  exact ⟨flat, read, build_flush_eq w env built done⟩

end

/-! ## Runs -/

/-- A question that an application asks. -/
inductive Request where
  | bootstrap
  | call (importedCap interfaceId methodId paramsDwords paramsPwords : Nat) (fill : Fill)
  | provide (importedCap : Nat) (recipientHost : Option (List UInt8)) (recipientPort nonce : Nat)
  | accept (nonce : Nat) (embargo : Bool)

/-- Ask a question. -/
def World.request (w : World) (env : Env) : Request → Nat × World
  | .bootstrap => w.sendBootstrap env
  | .call importedCap interfaceId methodId paramsDwords paramsPwords fill =>
      w.sendCall env importedCap interfaceId methodId paramsDwords paramsPwords fill
  | .provide importedCap recipientHost recipientPort nonce =>
      w.sendProvide env importedCap recipientHost recipientPort nonce
  | .accept nonce embargo => w.sendAccept env nonce embargo

/-- The message of a question. -/
def Request.message : Request → Nat → BuildM Unit
  | .bootstrap => bootstrapMessage
  | .call importedCap interfaceId methodId paramsDwords paramsPwords fill =>
      callMessage importedCap interfaceId methodId paramsDwords paramsPwords fill.ops
  | .provide importedCap recipientHost recipientPort nonce =>
      provideMessage importedCap (recipientHost.getD []) recipientPort nonce
  | .accept nonce embargo => acceptMessage nonce embargo

theorem request_asks (w : World) (env : Env) (request : Request) :
    Asks w env request.message (w.request env request) := by
  cases request with
  | bootstrap => exact ask_asks w env bootstrapMessage_refuses
  | call importedCap interfaceId methodId paramsDwords paramsPwords fill =>
      exact ask_asks w env (callMessage_refuses _ _ _ _ _ fill.ops)
  | provide importedCap recipientHost recipientPort nonce =>
      cases recipientHost with
      | none => exact .refused
      | some host => exact ask_asks w env (provideMessage_refuses _ host _ _)
  | accept nonce embargo => exact ask_asks w env (acceptMessage_refuses nonce embargo)

/-- What happens to a connection: a frame arrives, or the application calls one
of the functions. -/
inductive Deed where
  | deliver (env : Env) (data : List UInt8)
  | ask (env : Env) (request : Request)
  | finish (env : Env) (qid : Nat)
  | release (env : Env) (importId count : Nat)
  | disembargo (env : Env) (provideQid : Nat)
  | introductionDone (env : Env) (nonce : Nat)
  | exportCap (server dispatch : Nat)
  | setBootstrap (server dispatch : Nat)

/-- What a deed makes of a connection and its vat. -/
def Deed.run (c : Conn) (v : Vat) : Deed → World
  | .deliver env data => (handle env data c v).2
  | .ask env request => ((World.start c v).request env request).2
  | .finish env qid => ((World.start c v).sendFinish env qid).2
  | .release env importId count => ((World.start c v).sendRelease env importId count).2
  | .disembargo env provideQid => ((World.start c v).sendDisembargoProvide env provideQid).2
  | .introductionDone env nonce => ((World.start c v).introductionDone env nonce).2
  | .exportCap server dispatch => World.start (c.exportCap server dispatch).2 v
  | .setBootstrap server dispatch => World.start (c.setBootstrap server dispatch) v

namespace Net

/-- One deed on one connection. -/
def act (s : Net) (a : Nat × Deed) : Net :=
  match a.2 with
  | .deliver env data => s.step (.deliver a.1 env data)
  | d => s.setConn a.1 (d.run (s.conn a.1) s.vat).conn

/-- A deed works on its own connection. -/
theorem act_conn (s : Net) (k : Nat) (d : Deed) : (s.act (k, d)).conn =
    Function.update s.conn k (d.run (s.conn k) s.vat).conn := by
  cases d with
  | deliver env data =>
      change (s.step (.deliver k env data)).conn =
        Function.update s.conn k (handle env data (s.conn k) s.vat).2.conn
      rw [step]
      cases read : readIncoming data with
      | none =>
          dsimp only
          rw [handle, read]
          exact (Function.update_eq_self k s.conn).symm
      | some msg => rfl
  | _ => rfl

theorem act_conn_self (s : Net) (k : Nat) (d : Deed) :
    (s.act (k, d)).conn k = (d.run (s.conn k) s.vat).conn := by
  rw [act_conn, Function.update_self]

theorem act_conn_of_ne (s : Net) {k k' : Nat} (other : k' ≠ k) (d : Deed) :
    (s.act (k, d)).conn k' = s.conn k' := by
  rw [act_conn, Function.update_of_ne other]

/-- An invariant of one connection, kept by every deed on it, holds of it in
every state reached. -/
theorem conn_of_reached {meets : Net → Nat × Deed → Prop} {inv : Conn → Prop} {s : Net} {k : Nat}
    (reached : Reached init act meets s) (atStart : inv Conn.init)
    (kept : ∀ s d, inv (s.conn k) → meets s (k, d) → inv (d.run (s.conn k) s.vat).conn) :
    inv (s.conn k) := by
  have keeps (s : Net) (a : Nat × Deed) (ih : inv (s.conn k)) (met : meets s a) :
      inv ((s.act a).conn k) := by
    obtain ⟨k', d⟩ := a
    by_cases same : k = k'
    · subst same
      rw [act_conn_self]
      exact kept s d ih met
    · rw [act_conn_of_ne s same]
      exact ih
  exact reached.invariant atStart keeps

end Net

/-! ## What a deed does to the questions -/

/-- The same questions are in use, under the same ids. -/
structure Conn.SameIds (c c' : Conn) : Prop where
  used : ∀ j, (c'.questions j).used = (c.questions j).used
  ids : ∀ j, (c'.questions j).questionId = (c.questions j).questionId
  next : c'.nextQuestionId = c.nextQuestionId

theorem Conn.SameIds.of_questions {c c' : Conn} (questions : c'.questions = c.questions)
    (next : c'.nextQuestionId = c.nextQuestionId) : c.SameIds c' :=
  ⟨fun j => by rw [questions], fun j => by rw [questions], next⟩

theorem addIntroductions_sameIds (c : Conn) (introductions : List Introduction) :
    c.SameIds (c.addIntroductions introductions) := by
  have noting := addIntroductions_noting c introductions
  exact .of_questions noting.questions_eq (by rw [noting])

section
variable {msg : Incoming} {data : List UInt8} {c c' : Conn} (v : Vat)

/-- A message answers questions, but keeps their ids. -/
theorem Learns.sameIds (learns : Learns msg data c c') : c.SameIds c' := by
  cases learns with
  | nothing _ _ same => exact .of_questions same.questions same.next
  | called _ same =>
      have noted := addIntroductions_sameIds c msg.introduces
      exact ⟨fun j => by rw [same.questions, noted.used], fun j => by rw [same.questions, noted.ids],
        same.next.trans noted.next⟩
  | @returned i _ same =>
      have noted := addIntroductions_sameIds c msg.introduces
      refine ⟨fun j => ?_, fun j => ?_, same.next.trans noted.next⟩
      · rw [same.questions]
        dsimp only
        by_cases here : j = i
        · rw [here, Function.update_self]
        · rw [Function.update_of_ne here]
      · rw [same.questions]
        dsimp only
        by_cases here : j = i
        · rw [here, Function.update_self]
        · rw [Function.update_of_ne here]

/-- What a frame teaches a connection, if it can be read. -/
theorem deliver_learns (env : Env) (read : readIncoming data = some msg) :
    Learns msg data c (handle env data c v).2.conn := by
  have learns : Learns msg data c (handleIncoming env data msg (World.start c v)).2.conn :=
    @handleIncoming_learns env msg (World.start c v) data
  rw [handle, read]
  exact learns

theorem deliver_unread (env : Env) (unread : readIncoming data = none) :
    handle env data c v = (Status.framing.code, World.start c v) := by
  rw [handle, unread]

theorem deliver_sameIds (env : Env) (data : List UInt8) : c.SameIds (handle env data c v).2.conn := by
  cases read : readIncoming data with
  | none =>
      rw [deliver_unread v env read]
      exact .of_questions rfl rfl
  | some msg => exact (deliver_learns v env read).sameIds

/-- The deeds that keep out of the table of questions. -/
def Deed.Quiet : Deed → Prop
  | .deliver _ _ | .ask _ _ | .finish _ _ => False
  | _ => True

theorem Deed.kinds (d : Deed) : (∃ env data, d = .deliver env data) ∨
    (∃ env request, d = .ask env request) ∨ (∃ env qid, d = .finish env qid) ∨ d.Quiet := by
  cases d with
  | deliver env data => exact .inl ⟨env, data, rfl⟩
  | ask env request => exact .inr (.inl ⟨env, request, rfl⟩)
  | finish env qid => exact .inr (.inr (.inl ⟨env, qid, rfl⟩))
  | _ => exact .inr (.inr (.inr trivial))

theorem sendRelease_conn (w : World) (env : Env) (importId count : Nat) :
    (w.sendRelease env importId count).2.conn = w.conn := buildFlush_conn env _

/-- Closing an introduction keeps the questions. -/
theorem introductionDone_questions (env : Env) (nonce : Nat) :
    ((World.start c v).introductionDone env nonce).2.conn.questions = c.questions ∧
      ((World.start c v).introductionDone env nonce).2.conn.nextQuestionId = c.nextQuestionId := by
  unfold World.introductionDone
  split
  · exact ⟨rfl, rfl⟩
  · dsimp only
    rw [sendRelease_conn]
    exact ⟨rfl, rfl⟩

theorem Deed.run_quiet {d : Deed} (quiet : d.Quiet) :
    (d.run c v).conn.questions = c.questions ∧ (d.run c v).conn.nextQuestionId = c.nextQuestionId := by
  cases d with
  | deliver _ _ | ask _ _ | finish _ _ => exact quiet.elim
  | release env importId count =>
      rw [Deed.run, sendRelease_conn]
      exact ⟨rfl, rfl⟩
  | disembargo env provideQid =>
      have same : ((World.start c v).sendDisembargoProvide env provideQid).2.conn = c :=
        buildFlush_conn env _
      rw [Deed.run, same]
      exact ⟨rfl, rfl⟩
  | introductionDone env nonce => exact introductionDone_questions v env nonce
  | exportCap server dispatch =>
      have same := exportCap_sameAsked c server dispatch
      exact ⟨same.questions, same.next⟩
  | setBootstrap server dispatch => exact ⟨rfl, rfl⟩

/-- Finishing a question empties its entry, if there is one. -/
theorem finish_conn (env : Env) (qid : Nat) :
    ((Deed.finish env qid).run c v).conn = c.finished qid := by
  change ((World.start c v).sendFinish env qid).2.conn = _
  rw [World.sendFinish, buildFlush_conn, Conn.finished]
  change (match c.questionFind qid with
    | none => World.start c v
    | some i => { World.start c v with conn := c.questionDrop i }).conn = _
  cases c.questionFind qid with
  | none => rfl
  | some i => rfl

/-- The tables of the answering side are the same. -/
def Conn.SameAnswering (c c' : Conn) : Prop :=
  c' = { c with
    questions := c'.questions
    introductions := c'.introductions
    nextQuestionId := c'.nextQuestionId }

/-- A deed that is neither a frame nor an export stays on the asking side. -/
theorem Deed.run_sameAnswering {d : Deed} (noFrame : ∀ env data, d ≠ .deliver env data)
    (noExport : ∀ server dispatch, d ≠ .exportCap server dispatch)
    (noBootstrap : ∀ server dispatch, d ≠ .setBootstrap server dispatch) :
    c.SameAnswering (d.run c v).conn := by
  cases d with
  | deliver env data => exact absurd rfl (noFrame env data)
  | exportCap server dispatch => exact absurd rfl (noExport server dispatch)
  | setBootstrap server dispatch => exact absurd rfl (noBootstrap server dispatch)
  | ask env request =>
      have asks := request_asks (World.start c v) env request
      change c.SameAnswering ((World.start c v).request env request).2.conn
      generalize (World.start c v).request env request = result at asks ⊢
      cases asks with
      | refused => rfl
      | failed _ _ => rfl
      | asked _ _ _ _ => rfl
  | finish env qid =>
      rw [finish_conn, Conn.finished]
      split
      · rfl
      · rfl
  | release env importId count =>
      rw [Deed.run, sendRelease_conn]
      rfl
  | disembargo env provideQid =>
      have same : ((World.start c v).sendDisembargoProvide env provideQid).2.conn = c :=
        buildFlush_conn env _
      rw [Deed.run, same]
      rfl
  | introductionDone env nonce =>
      rw [Deed.run, World.introductionDone]
      split
      · rfl
      · dsimp only
        rw [sendRelease_conn]
        rfl

end

/-- A deed is one action on the net. -/
theorem Net.act_eq_step (s : Net) (a : Nat × Deed) : ∃ action, s.act a = s.step action := by
  obtain ⟨k, d⟩ := a
  have asking (noFrame : ∀ env data, d ≠ .deliver env data)
      (noExport : ∀ server dispatch, d ≠ .exportCap server dispatch)
      (noBootstrap : ∀ server dispatch, d ≠ .setBootstrap server dispatch)
      (works : s.act (k, d) = s.setConn k (d.run (s.conn k) s.vat).conn) :
      ∃ action, s.act (k, d) = s.step action := by
    have same := Deed.run_sameAnswering (c := s.conn k) s.vat noFrame noExport noBootstrap
    refine ⟨.ask k (d.run (s.conn k) s.vat).conn.questions (d.run (s.conn k) s.vat).conn.introductions
      (d.run (s.conn k) s.vat).conn.nextQuestionId, works.trans ?_⟩
    exact congrArg (s.setConn k) same
  cases d with
  | deliver env data => exact ⟨.deliver k env data, rfl⟩
  | exportCap server dispatch => exact ⟨.exportCap k server dispatch, rfl⟩
  | setBootstrap server dispatch => exact ⟨.setBootstrap k server dispatch, rfl⟩
  | _ => exact asking nofun nofun nofun rfl

theorem Net.Sound.act {s : Net} (sound : s.Sound) (a : Nat × Deed) : (s.act a).Sound := by
  obtain ⟨action, same⟩ := s.act_eq_step a
  rw [same]
  exact (Net.does sound action).sound sound

end CapnpJanet.Rpc
