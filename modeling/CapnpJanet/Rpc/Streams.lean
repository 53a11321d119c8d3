import CapnpJanet.Logic.Window
import CapnpJanet.Rpc.QuestionIds

/-!
# Streams of calls

`capnp_rpc_stream_t` keeps a bounded window of calls that have not been
acknowledged.  A call that finds the window full retires the oldest one first:
its question is finished, and if it has not been answered with results the
stream has failed and sends nothing more.  The queue holds question ids, so what
it does depends on the ids being usable as names.
-/

namespace CapnpJanet.Rpc

open Builder Run Window

/-! ## Streams -/

/-- `CAPNP_RPC_STREAM_MAX_WINDOW` -/
def streamMaxWindow : Nat := 64

/-- `capnp_rpc_stream_t`; the first `nout` entries of `qids` are a list. -/
structure Stream where
  window : Nat
  qids : List Nat
  failed : Bool
  haveFailure : Bool
  firstFailure : Nat
deriving DecidableEq, Repr

/-- `capnp_rpc_stream_init` -/
def streamInit (window : Int) : Stream where
  window := if window < 1 then 1 else if window > streamMaxWindow then streamMaxWindow
    else window.toNat
  qids := []
  failed := false
  haveFailure := false
  firstFailure := 0

/-- A call that has not been answered, or answered with an exception. -/
def Conn.streamBad (c : Conn) (qid : Nat) : Bool := !c.isAnswered qid || c.isFailed qid

/-- The stream after its oldest call has been taken out, with a verdict. -/
def Stream.retire (s : Stream) (qid : Nat) (rest : List Nat) (bad : Bool) : Stream :=
  if bad then
    { s with
      qids := rest
      failed := true
      haveFailure := true
      firstFailure := if s.haveFailure then s.firstFailure else qid }
  else { s with qids := rest }

namespace World

/-- `stream_retire_oldest`.  What sending the `Finish` returns is not looked
at. -/
def streamRetireOldest (w : World) (env : Env) (s : Stream) : World × Stream :=
  match s.qids with
  | [] => (w, s)
  | qid :: rest => ((w.sendFinish env qid).2, s.retire qid rest (w.conn.streamBad qid))

/-- The end of `capnp_rpc_stream_send`: the call is sent and put into the
queue. -/
def streamCall (w : World) (env : Env) (s : Stream)
    (importedCap interfaceId methodId paramsDwords paramsPwords : Nat) (fill : Fill) :
    Status × World × Stream :=
  let (qid, w) := w.sendCall env importedCap interfaceId methodId paramsDwords paramsPwords fill
  if qid = noQuestion then (.alloc, w, s) else (.ok, w, { s with qids := s.qids ++ [qid] })

/-- `capnp_rpc_stream_send` -/
def streamSend (w : World) (env : Env) (s : Stream)
    (importedCap interfaceId methodId paramsDwords paramsPwords : Nat) (fill : Fill) :
    Status × World × Stream :=
  if s.failed then (.arg, w, s)
  else if s.qids.length ≥ s.window then
    let (w, s) := w.streamRetireOldest env s
    if s.failed then (.arg, w, s)
    else w.streamCall env s importedCap interfaceId methodId paramsDwords paramsPwords fill
  else w.streamCall env s importedCap interfaceId methodId paramsDwords paramsPwords fill

/-- `while (s->nout > 0) stream_retire_oldest(c, s);`, with as many rounds as
there are calls. -/
def streamDrain (env : Env) : (rounds : Nat) → World → Stream → World × Stream
  | 0, w, s => (w, s)
  | rounds + 1, w, s =>
      let (w, s) := w.streamRetireOldest env s
      streamDrain env rounds w s

/-- `capnp_rpc_stream_finish` -/
def streamFinish (w : World) (env : Env) (s : Stream) : Status × World × Stream :=
  let (w, s) := streamDrain env s.qids.length w s
  (if s.haveFailure then .arg else .ok, w, s)

end World

/-! ## The frames of a stream -/

/-- The question of a `Call`, whatever limit the reader puts on segments. -/
def callOf (flat : List UInt8) : Option Nat :=
  let m := Frame.message (ByteMemory.ofList flat)
  let root := m.root Ptr.zero defaultTraversalWords
  let body := m.getp root.out 0 Ptr.zero root.left
  if root.rc ≠ .ok ∨ m.getU16 root.out messageTagOff 0 ≠ msgCall ∨ body.rc ≠ .ok then none
  else some (m.getU32 body.out questionIdOff 0)

/-- A `Finish` is not a `Call`. -/
theorem callOf_of_finishOf {flat : List UInt8} {qid : Nat} (finish : finishOf flat = some qid) :
    callOf flat = none := by
  unfold finishOf at finish
  obtain ⟨msg, read, finish⟩ := Option.bind_eq_some_iff.mp finish
  obtain ⟨parsed, -, root, which, -⟩ := readIncoming_some read
  have tag : msg.which = msgFinish := by
    by_contra other
    rw [if_neg other] at finish
    cases finish
  rw [messageFromFlat_ok parsed] at root which
  refine if_pos (.inr (.inl ?_))
  rw [← root, ← which, tag]
  decide

/-- What `capnp_rpc_send_call` sends is a `Call` of its question. -/
theorem callOf_callMessage {importedCap interfaceId methodId paramsDwords paramsPwords qid : Nat}
    {fill : Fill} {b : Builder} {flat : List UInt8} (qidLt : qid < 2 ^ 32)
    (built : callMessage importedCap interfaceId methodId paramsDwords paramsPwords fill.ops qid
      Builder.init = .ok () b) (done : b.serialize = .ok flat) : callOf flat = some qid := by
  have budget : 64 ≤ defaultTraversalWords := covered_default le_rfl
  obtain ⟨kept, words, -⟩ := callMessage_kept built
  have fits := fill.framable _ _ _ _ _ _ b built
  have same (i : Nat) (hi : i < 28) : (b.seg 0).data i = idMem msgCall 3 3 qid i := by
    rw [kept i (by omega), callMem_of_lt _ _ _ _ (by omega)]
  have start : BodyWords (idMem msgCall 3 3 qid) msgCall 3 3 :=
    bodyWords_idMem (by decide) _ _ qid
  have head : BodyWords (b.seg 0).data msgCall 3 3 := start.congr fun i hi => same i (by omega)
  have starts := starts_serialize done fits
  have body : (Frame.message (ByteMemory.ofList flat)).getp (Message.structAt 0 1 1 1) 0 Ptr.zero
      (defaultTraversalWords - 3) = ⟨.ok, Message.structAt 0 3 3 3,
        defaultTraversalWords - 3 - (3 + 3 + 1)⟩ := by
    rw [Message.getp_structAt (by decide) (by decide)]
    exact starts.resolve_struct head.body (by decide) (by decide) (by decide) (by omega) (by omega)
  unfold callOf
  dsimp only
  rw [starts.root_eq head.toMessageWords (by omega) (by omega), body, Message.getU16, messageTagOff,
    starts.getScalar_eq (by decide) (by omega), head.tag, if_neg (by simp), questionIdOff,
    getU32_serialize done fits (by decide) (by omega),
    ByteMemory.loadLe_congr fun i hi => same (24 + 0 + i) (by omega)]
  exact congrArg some (loadLe_idMem qidLt)

/-! ## What a stream does to the questions -/

/-- Every frame is taken. -/
def Env.Takes (env : Env) : Prop := ∀ sent flat, env.send sent flat = 0

/-- Asking a question while frames are taken: nothing is sent, or the question
is open and its message is sent. -/
theorem ask_takes {w : World} {env : Env} {message : Nat → BuildM Unit}
    (refuses : ∀ qid, Refuses (message qid)) (takes : env.Takes) :
    (∃ c, w.ask env message = (noQuestion, { w with conn := c }) ∧
      (c = w.conn ∨ ∃ i, w.conn.questionSlot = some i ∧ c = (w.conn.claimed i).questionDrop i)) ∨
    ∃ i b flat, w.conn.questionSlot = some i ∧
      message w.conn.nextQuestionId Builder.init = .ok () b ∧ b.serialize = .ok flat ∧
        w.ask env message = (w.conn.nextQuestionId,
          { w with conn := w.conn.claimed i, sent := w.sent ++ [flat] }) := by
  cases slot : w.conn.questionSlot with
  | none =>
      refine .inl ⟨w.conn, ?_, .inl rfl⟩
      rw [World.ask, Conn.questionClaim_eq, slot]
  | some i =>
      rcases build_flush_cases { w with conn := w.conn.claimed i } env
        (refuses w.conn.nextQuestionId) with ⟨rc, failed, run⟩ | ⟨b, flat, built, done, -⟩
      · refine .inl ⟨_, ?_, .inr ⟨i, rfl, rfl⟩⟩
        rw [World.ask, Conn.questionClaim_eq, slot]
        dsimp only [Option.map_some]
        rw [run]
        dsimp only
        rw [if_pos failed]
      · exact .inr ⟨i, b, flat, rfl, built, done, ask_taken w env slot built done (takes _ _)⟩

/-- Every id of a list names a question in use. -/
def Conn.Tracks (c : Conn) (qids : List Nat) : Prop :=
  ∀ qid ∈ qids, ∃ i < maxQuestions, (c.questions i).used = true ∧ (c.questions i).questionId = qid

section
variable {c c' : Conn} {qid other : Nat} {qids : List Nat}

theorem Conn.Tracks.congr (tracks : c.Tracks qids) (same : c.SameIds c') : c'.Tracks qids := by
  intro qid member
  obtain ⟨i, small, used, id⟩ := tracks qid member
  exact ⟨i, small, by rwa [same.used], by rwa [same.ids]⟩

/-- Entries in use stay when a free one is written. -/
theorem Conn.Tracks.of_free (tracks : c.Tracks qids) {i : Nat} (slot : c.questionSlot = some i)
    (kept : ∀ j, j ≠ i → c'.questions j = c.questions j) : c'.Tracks qids := by
  intro qid member
  obtain ⟨j, small, used, id⟩ := tracks qid member
  have apart : j ≠ i := by
    rintro rfl
    rw [(questionSlot_some slot).2] at used
    cases used
  exact ⟨j, small, by rwa [kept j apart], by rwa [kept j apart]⟩

/-- Finishing a question leaves the entries with other ids. -/
theorem Conn.finished_of_ne {i : Nat} (apart : (c.questions i).questionId ≠ qid) :
    (c.finished qid).questions i = c.questions i := by
  unfold Conn.finished
  split
  · rfl
  · next j found =>
    refine Function.update_of_ne ?_ _ _
    rintro rfl
    have named := (firstIndex_eq_some found).2.1
    rw [Bool.and_eq_true, beq_iff_eq] at named
    exact apart named.2

theorem Conn.Tracks.finished (tracks : c.Tracks qids) (absent : qid ∉ qids) :
    (c.finished qid).Tracks qids := by
  intro other member
  obtain ⟨i, small, used, id⟩ := tracks other member
  have apart : (c.questions i).questionId ≠ qid := by
    rintro rfl
    exact absent (id ▸ member)
  exact ⟨i, small, by rwa [Conn.finished_of_ne apart], by rwa [Conn.finished_of_ne apart]⟩

/-- Finishing a question does not hide another one. -/
theorem Conn.questionFind_finished (apart : other ≠ qid) :
    (c.finished qid).questionFind other = c.questionFind other := by
  unfold Conn.questionFind
  congr 1
  funext i
  by_cases same : (c.questions i).questionId = qid
  · have left : ((c.finished qid).questions i).questionId = qid := by
      unfold Conn.finished
      split
      · exact same
      · next j _ =>
        dsimp only [Conn.questionDrop]
        by_cases here : i = j
        · rw [here, Function.update_self]
          exact here ▸ same
        · rwa [Function.update_of_ne here]
    rw [left, same, beq_false_of_ne apart.symm, Bool.and_false, Bool.and_false]
  · rw [Conn.finished_of_ne same]

theorem Conn.streamBad_finished (apart : other ≠ qid) :
    (c.finished qid).streamBad other = c.streamBad other := by
  unfold Conn.streamBad Conn.isAnswered Conn.isFailed
  rw [Conn.questionFind_finished apart]
  cases found : c.questionFind other with
  | none => rfl
  | some i =>
      have named := (firstIndex_eq_some found).2.1
      rw [Bool.and_eq_true, beq_iff_eq] at named
      have kept : (c.finished qid).questions i = c.questions i :=
        Conn.finished_of_ne (named.2.trans_ne apart)
      dsimp only
      rw [kept]

end

/-! ## The log of a stream -/

/-- What a frame of the stream means: a call enters the window, or the call it
finishes leaves with the verdict of the connection. -/
def eventOf (c : Conn) (flat : List UInt8) : Option (Event Nat) :=
  match callOf flat with
  | some qid => some (.enter qid)
  | none => (finishOf flat).map fun qid => .leave qid (c.streamBad qid)

/-- The stream is in order with the log of its frames, and the connection knows
its calls by their ids. -/
structure InFlow (limit : Nat) (log : List (Event Nat)) (c : Conn) (s : Stream) : Prop where
  ordered : Ordered limit log s.qids
  window : s.window = limit
  failed : s.failed = (firstBad log).isSome
  haveFailure : s.haveFailure = (firstBad log).isSome
  first : ∀ qid, firstBad log = some qid → s.firstFailure = qid
  tracked : c.Tracks s.qids
  nodup : s.qids.Nodup
  small : ∀ qid ∈ s.qids, qid < 2 ^ 32
  distinct : c.DistinctIds
  next : c.nextQuestionId < 2 ^ 32

theorem Conn.finished_next (c : Conn) (qid : Nat) :
    (c.finished qid).nextQuestionId = c.nextQuestionId := by
  unfold Conn.finished
  split <;> rfl

theorem Conn.distinctIds_finished {c : Conn} (distinct : c.DistinctIds) (qid : Nat) :
    (c.finished qid).DistinctIds := by
  unfold Conn.finished
  split
  · exact distinct
  · exact distinct.of_fewer fun j used => (Conn.questionDrop_kept _ _ used).2

/-- The oldest call is retired. -/
theorem InFlow.retire {limit : Nat} {log : List (Event Nat)} {c : Conn} {s : Stream} {qid : Nat}
    {rest : List Nat} (flow : InFlow limit log c s) (oldest : s.qids = qid :: rest) (bad : Bool) :
    InFlow limit (log ++ [.leave qid bad]) (c.finished qid) (s.retire qid rest bad) := by
  have ordered := flow.ordered
  have tracked := flow.tracked
  have nodup := flow.nodup
  have small := flow.small
  rw [oldest] at ordered tracked nodup small
  obtain ⟨absent, nodup⟩ := List.nodup_cons.mp nodup
  have qids : (s.retire qid rest bad).qids = rest := by
    unfold Stream.retire
    split <;> rfl
  refine ⟨?_, ?_, ?_, ?_, ?_, ?_, ?_, ?_, ?_, ?_⟩
  · rw [qids]
    exact ordered.leave bad
  · rw [← flow.window]
    unfold Stream.retire
    split <;> rfl
  · rw [firstBad_leave]
    cases bad with
    | true => cases firstBad log <;> rfl
    | false => rw [Stream.retire, flow.failed]; cases firstBad log <;> rfl
  · rw [firstBad_leave]
    cases bad with
    | true => cases firstBad log <;> rfl
    | false => rw [Stream.retire, flow.haveFailure]; cases firstBad log <;> rfl
  · intro first found
    rw [firstBad_leave] at found
    cases earlier : firstBad log with
    | some first' =>
        rw [earlier] at found
        have same := flow.first first' earlier
        have known := flow.haveFailure
        rw [earlier] at known
        cases found
        cases bad with
        | true => rw [Stream.retire, if_pos rfl, known]; exact same
        | false => exact same
    | none =>
        have known := flow.haveFailure
        rw [earlier] at found known
        cases bad with
        | true =>
            cases found
            rw [Stream.retire, if_pos rfl, known]
            rfl
        | false => cases found
  · rw [qids]
    exact Conn.Tracks.finished (fun other member => tracked other (List.mem_cons_of_mem _ member))
      absent
  · rwa [qids]
  · rw [qids]
    exact fun other member => small other (List.mem_cons_of_mem _ member)
  · exact Conn.distinctIds_finished flow.distinct qid
  · rw [Conn.finished_next]
    exact flow.next

/-- A call is put into the queue under a fresh id. -/
theorem InFlow.call {limit i : Nat} {log : List (Event Nat)} {c : Conn} {s : Stream}
    (flow : InFlow limit log c s) (room : s.qids.length < limit) (fine : s.failed = false)
    (slot : c.questionSlot = some i) (fresh : c.NextFresh) :
    InFlow limit (log ++ [.enter c.nextQuestionId]) (c.claimed i)
      { s with qids := s.qids ++ [c.nextQuestionId] } := by
  have none : firstBad log = none := by
    have failed := flow.failed
    rw [fine] at failed
    exact Option.isNone_iff_eq_none.mp (by simpa using failed.symm)
  have others : (c.claimed i).Tracks s.qids :=
    flow.tracked.of_free slot fun j apart => Conn.claimed_of_ne c apart
  have absent : c.nextQuestionId ∉ s.qids := by
    intro member
    obtain ⟨j, small, used, id⟩ := flow.tracked _ member
    exact fresh.2 j small used id
  refine ⟨flow.ordered.enter room none _, flow.window, ?_, ?_, fun qid => ?_, fun qid member => ?_,
    ?_, fun qid member => ?_, ?_, Nat.mod_lt _ (by decide)⟩
  · rw [firstBad_enter]
    exact flow.failed
  · rw [firstBad_enter]
    exact flow.haveFailure
  · rw [firstBad_enter]
    exact flow.first qid
  · rcases List.mem_append.mp member with old | new
    · exact others qid old
    · rw [List.mem_singleton.mp new]
      exact ⟨i, (Conn.questionSlot_some slot).1, by rw [Conn.claimed_self], by rw [Conn.claimed_self]⟩
  · exact List.nodup_append_comm.mp (List.nodup_cons.mpr ⟨absent, flow.nodup⟩)
  · rcases List.mem_append.mp member with old | new
    · exact flow.small qid old
    · rw [List.mem_singleton.mp new]
      exact flow.next
  · exact (Conn.distinctIds_claimed_iff flow.distinct slot).mpr fresh.2

/-! ### Inside one call of the application -/

/-- In the middle of one of the stream's functions, which started on `c`: the
frames sent so far are in the log, and the calls in the queue have the verdicts
they had at the start. -/
structure Flowing (limit : Nat) (c : Conn) (log : List (Event Nat)) (w : World) (s : Stream) :
    Prop where
  flow : InFlow limit (log ++ w.sent.filterMap (eventOf c)) w.conn s
  verdicts : ∀ qid ∈ s.qids, w.conn.streamBad qid = c.streamBad qid

/-- The end of one of the stream's functions, which started on `c`. -/
def Flowed (limit : Nat) (c : Conn) (log : List (Event Nat)) (r : World × Stream) : Prop :=
  InFlow limit (log ++ r.1.sent.filterMap (eventOf c)) r.1.conn r.2

section
variable {limit : Nat} {c : Conn} {log : List (Event Nat)} {w : World} {s : Stream} (env : Env)

theorem InFlow.start (flow : InFlow limit log c s) (v : Vat) :
    Flowing limit c log (World.start c v) s where
  flow := by
    change InFlow limit (log ++ []) c s
    rwa [List.append_nil]
  verdicts _ _ := rfl

theorem Flowing.retire (flowing : Flowing limit c log w s) :
    Flowing limit c log (w.streamRetireOldest env s).1 (w.streamRetireOldest env s).2 ∧
      (w.streamRetireOldest env s).2.qids = s.qids.tail := by
  unfold World.streamRetireOldest
  cases oldest : s.qids with
  | nil => exact ⟨flowing, oldest⟩
  | cons qid rest =>
      have member : qid ∈ s.qids := oldest ▸ List.mem_cons_self
      obtain ⟨flat, finish, sends⟩ := sendFinish_eq w env (flowing.flow.small qid member)
      have verdict := flowing.verdicts qid member
      have event : eventOf c flat = some (.leave qid (w.conn.streamBad qid)) := by
        rw [eventOf, callOf_of_finishOf finish, finish, verdict]
        rfl
      have qids : (s.retire qid rest (w.conn.streamBad qid)).qids = rest := by
        unfold Stream.retire
        split <;> rfl
      dsimp only
      rw [sends]
      refine ⟨⟨?_, fun other later => ?_⟩, qids⟩
      · dsimp only
        rw [List.filterMap_append, List.filterMap_cons_some event, List.filterMap_nil,
          ← List.append_assoc]
        exact flowing.flow.retire oldest _
      · rw [qids] at later
        have nodup := flowing.flow.nodup
        rw [oldest] at nodup
        have apart : other ≠ qid := by
          rintro rfl
          exact (List.nodup_cons.mp nodup).1 later
        dsimp only
        rw [Conn.streamBad_finished apart]
        exact flowing.verdicts other (oldest ▸ List.mem_cons_of_mem _ later)

theorem Flowing.drain (rounds : Nat) (flowing : Flowing limit c log w s) :
    Flowing limit c log (World.streamDrain env rounds w s).1 (World.streamDrain env rounds w s).2 ∧
      (World.streamDrain env rounds w s).2.qids = s.qids.drop rounds := by
  induction rounds generalizing w s with
  | zero => exact ⟨flowing, rfl⟩
  | succ rounds ih =>
      obtain ⟨after, qids⟩ := flowing.retire env
      obtain ⟨last, rest⟩ := ih after
      refine ⟨last, ?_⟩
      rw [World.streamDrain, rest, qids, List.drop_tail]

variable {env} {importedCap interfaceId methodId paramsDwords paramsPwords : Nat} {fill : Fill}

/-- The last part of `capnp_rpc_stream_send`. -/
theorem Flowing.call (flowing : Flowing limit c log w s) (takes : env.Takes)
    (room : s.qids.length < limit) (fine : s.failed = false)
    (fresh : w.conn.questionSlot = none ∨ w.conn.NextFresh) :
    Flowed limit c log (w.streamCall env s importedCap interfaceId methodId paramsDwords
      paramsPwords fill).2 := by
  obtain ⟨flow, -⟩ := flowing
  unfold Flowed World.streamCall World.sendCall
  rcases ask_takes (w := w) (callMessage_refuses importedCap interfaceId methodId paramsDwords
    paramsPwords fill.ops) takes with ⟨c', asks, conn⟩ | ⟨i, b, flat, slot, built, done, asks⟩
  · rw [asks]
    dsimp only
    rw [if_pos rfl]
    rcases conn with rfl | ⟨i, slot, rfl⟩
    · exact flow
    · have kept (j : Nat) (apart : j ≠ i) :
          ((w.conn.claimed i).questionDrop i).questions j = w.conn.questions j :=
        (Function.update_of_ne apart _ _).trans (Conn.claimed_of_ne _ apart)
      refine { flow with
        tracked := flow.tracked.of_free slot kept
        distinct := flow.distinct.of_fewer fun j used => ?_
        next := Nat.mod_lt _ (by decide) }
      exact kept j (Conn.questionDrop_kept _ _ used).1
  · have next : w.conn.NextFresh := fresh.resolve_left fun full => absurd (slot.symm.trans full) nofun
    have event : eventOf c flat = some (.enter w.conn.nextQuestionId) := by
      rw [eventOf, callOf_callMessage flow.next built done]
    rw [asks]
    dsimp only
    rw [if_neg next.1]
    dsimp only
    rw [List.filterMap_append, List.filterMap_cons_some event, List.filterMap_nil,
      ← List.append_assoc]
    exact flow.call room fine slot next

end

/-! ## Runs -/

/-- A net with a stream on one of its connections. -/
structure Streamed where
  net : Net
  stream : Stream

/-- The application works with the stream, or something else happens. -/
inductive StreamDeed where
  | send (env : Env) (importedCap interfaceId methodId paramsDwords paramsPwords : Nat) (fill : Fill)
  | finish (env : Env)
  | other (a : Nat × Deed)

namespace Streamed

/-- `capnp_rpc_stream_send` on connection `k`. -/
def send (o : Streamed) (k : Nat) (env : Env)
    (importedCap interfaceId methodId paramsDwords paramsPwords : Nat) (fill : Fill) :
    Status × World × Stream :=
  (World.start (o.net.conn k) o.net.vat).streamSend env o.stream importedCap interfaceId methodId
    paramsDwords paramsPwords fill

/-- `capnp_rpc_stream_finish` on connection `k`. -/
def finish (o : Streamed) (k : Nat) (env : Env) : Status × World × Stream :=
  (World.start (o.net.conn k) o.net.vat).streamFinish env o.stream

/-- One deed, with the stream on connection `k`. -/
def act (k : Nat) (o : Streamed) : StreamDeed → Streamed
  | .send env importedCap interfaceId methodId paramsDwords paramsPwords fill =>
      let r := o.send k env importedCap interfaceId methodId paramsDwords paramsPwords fill
      ⟨o.net.setConn k r.2.1.conn, r.2.2⟩
  | .finish env => ⟨o.net.setConn k (o.finish k env).2.1.conn, (o.finish k env).2.2⟩
  | .other a => ⟨o.net.act a, o.stream⟩

/-- The frames that the functions of the stream send. -/
def sent (k : Nat) (o : Streamed) : StreamDeed → List (List UInt8)
  | .send env importedCap interfaceId methodId paramsDwords paramsPwords fill =>
      (o.send k env importedCap interfaceId methodId paramsDwords paramsPwords fill).2.1.sent
  | .finish env => (o.finish k env).2.1.sent
  | .other _ => []

/-- The log goes on with the frames of a deed.  No `Return` comes in between,
so the verdicts are those of the connection before it. -/
def note (k : Nat) (o : Streamed) (d : StreamDeed) (log : List (Event Nat)) : List (Event Nat) :=
  log ++ (o.sent k d).filterMap (eventOf (o.net.conn k))

end Streamed

/-- The connection on which `capnp_rpc_stream_send` asks its question, if it
does. -/
def Stream.asking (s : Stream) (c : Conn) : Option Conn :=
  if s.failed then none
  else if s.qids.length ≥ s.window then
    match s.qids with
    | [] => some c
    | qid :: _ => if c.streamBad qid then none else some (c.finished qid)
  else some c

/-- The functions of the stream find every frame taken, and no other code
finishes its questions. -/
def StreamDeed.Undisturbed (k : Nat) (o : Streamed) : StreamDeed → Prop
  | .send env _ _ _ _ _ _ => env.Takes
  | .finish env => env.Takes
  | .other a => ∀ env qid, a = (k, .finish env qid) → qid ∉ o.stream.qids

/-- Every question that is asked on the stream's connection finds the table full
or the next id fresh. -/
def StreamDeed.Fresh (k : Nat) (o : Streamed) : StreamDeed → Prop
  | .send _ _ _ _ _ _ _ =>
      ∀ c ∈ o.stream.asking (o.net.conn k), c.questionSlot = none ∨ c.NextFresh
  | .finish _ => True
  | .other a => ∀ env request, a = (k, .ask env request) →
      (o.net.conn k).questionSlot = none ∨ (o.net.conn k).NextFresh

section
variable {limit k : Nat} {log : List (Event Nat)} {c : Conn} {s : Stream}

/-- The counter stays a 32-bit number. -/
theorem Deed.next_lt (v : Vat) (d : Deed) (small : c.nextQuestionId < 2 ^ 32) :
    (d.run c v).conn.nextQuestionId < 2 ^ 32 := by
  rcases d.kinds with ⟨env, data, rfl⟩ | ⟨env, request, rfl⟩ | ⟨env, qid, rfl⟩ | quiet
  · exact (deliver_sameIds v env data).next.trans_lt small
  · have asks := request_asks (World.start c v) env request
    change ((World.start c v).request env request).2.conn.nextQuestionId < _
    generalize (World.start c v).request env request = result at asks ⊢
    cases asks with
    | refused => exact small
    | failed _ _ => exact Nat.mod_lt _ (by decide)
    | asked _ _ _ _ => exact Nat.mod_lt _ (by decide)
  · rw [finish_conn, Conn.finished_next]
    exact small
  · exact (Deed.run_quiet v quiet).2.trans_lt small

/-- Other deeds keep the questions that the stream knows, if they do not finish
them. -/
theorem Conn.Tracks.run {qids : List Nat} (tracks : c.Tracks qids) (v : Vat) (d : Deed)
    (spared : ∀ env qid, d = .finish env qid → qid ∉ qids) : (d.run c v).conn.Tracks qids := by
  rcases d.kinds with ⟨env, data, rfl⟩ | ⟨env, request, rfl⟩ | ⟨env, qid, rfl⟩ | quiet
  · exact tracks.congr (deliver_sameIds v env data)
  · have asks := request_asks (World.start c v) env request
    change ((World.start c v).request env request).2.conn.Tracks qids
    generalize (World.start c v).request env request = result at asks ⊢
    cases asks with
    | refused => exact tracks
    | failed slot _ =>
        exact tracks.of_free slot fun j apart =>
          (Function.update_of_ne apart _ _).trans (Conn.claimed_of_ne c apart)
    | asked slot _ _ _ => exact tracks.of_free slot fun j apart => Conn.claimed_of_ne c apart
  · rw [finish_conn]
    exact tracks.finished (spared env qid rfl)
  · obtain ⟨questions, next⟩ := Deed.run_quiet v quiet
    exact tracks.congr (.of_questions questions next)

theorem InFlow.run (flow : InFlow limit log c s) (v : Vat) (d : Deed)
    (spared : ∀ env qid, d = .finish env qid → qid ∉ s.qids)
    (fresh : ∀ env request, d = .ask env request → c.questionSlot = none ∨ c.NextFresh) :
    InFlow limit log (d.run c v).conn s :=
  { flow with
    tracked := flow.tracked.run v d spared
    distinct := Net.distinctIds_run v flow.distinct fresh
    next := d.next_lt v flow.next }

/-- A call that finds the window full retires the oldest one, and goes on if
that was answered with results. -/
theorem InFlow.sendFull (flow : InFlow limit log c s) (v : Vat) {env : Env} (takes : env.Takes)
    {qid : Nat} {rest : List Nat} (oldest : s.qids = qid :: rest) (healthy : s.failed = false)
    (fresh : c.streamBad qid = false →
      (c.finished qid).questionSlot = none ∨ (c.finished qid).NextFresh)
    (importedCap interfaceId methodId paramsDwords paramsPwords : Nat) (fill : Fill) :
    Flowed limit c log
      (if ((World.start c v).streamRetireOldest env s).2.failed then
          (Status.arg, (World.start c v).streamRetireOldest env s)
        else ((World.start c v).streamRetireOldest env s).1.streamCall env
          ((World.start c v).streamRetireOldest env s).2 importedCap interfaceId methodId
          paramsDwords paramsPwords fill).2 := by
  obtain ⟨after, qids⟩ := (flow.start v).retire env
  have fits := flow.ordered.length_le
  have retired : (World.start c v).streamRetireOldest env s =
      (((World.start c v).sendFinish env qid).2, s.retire qid rest (c.streamBad qid)) := by
    rw [World.streamRetireOldest, oldest]
    rfl
  have conn : ((World.start c v).streamRetireOldest env s).1.conn = c.finished qid := by
    rw [retired]
    exact finish_conn v env qid
  have failed : ((World.start c v).streamRetireOldest env s).2.failed = c.streamBad qid := by
    rw [retired]
    unfold Stream.retire
    cases c.streamBad qid with
    | true => rfl
    | false => exact healthy
  cases bad : c.streamBad qid with
  | true =>
      rw [if_pos (failed.trans bad)]
      exact after.flow
  | false =>
      have fine := failed.trans bad
      rw [if_neg (by rw [fine]; exact Bool.false_ne_true)]
      refine after.call takes ?_ fine ?_
      · rw [oldest, List.length_cons] at fits
        rw [qids, oldest, List.tail_cons]
        omega
      · rw [conn]
        exact fresh bad

/-- A call of the application that sends. -/
theorem InFlow.send (flow : InFlow limit log c s) (positive : 0 < limit) (v : Vat) {env : Env}
    (takes : env.Takes) (fresh : ∀ c' ∈ s.asking c, c'.questionSlot = none ∨ c'.NextFresh)
    (importedCap interfaceId methodId paramsDwords paramsPwords : Nat) (fill : Fill) :
    Flowed limit c log ((World.start c v).streamSend env s importedCap interfaceId methodId
      paramsDwords paramsPwords fill).2 := by
  unfold World.streamSend
  unfold Stream.asking at fresh
  by_cases failed : s.failed = true
  · rw [if_pos failed]
    exact (flow.start v).flow
  · rw [if_neg failed] at fresh ⊢
    rw [Bool.not_eq_true] at failed
    by_cases full : s.qids.length ≥ s.window
    · rw [if_pos full] at fresh ⊢
      cases oldest : s.qids with
      | nil =>
          rw [oldest, flow.window, List.length_nil] at full
          omega
      | cons qid rest =>
          refine flow.sendFull v takes oldest failed (fun fine => ?_) _ _ _ _ _ _
          refine fresh _ ?_
          rw [oldest]
          dsimp only
          rw [fine]
          rfl
    · rw [if_neg full] at fresh ⊢
      rw [flow.window] at full
      exact (flow.start v).call takes (not_le.mp full) failed (fresh c rfl)

/-- The end of the stream empties its queue. -/
theorem InFlow.finish (flow : InFlow limit log c s) (v : Vat) (env : Env) :
    Flowed limit c log ((World.start c v).streamFinish env s).2 ∧
      ((World.start c v).streamFinish env s).2.2.qids = [] ∧
      (((World.start c v).streamFinish env s).1 = .ok ↔
        ((World.start c v).streamFinish env s).2.2.haveFailure = false) := by
  obtain ⟨after, rest⟩ := (flow.start v).drain env s.qids.length
  unfold World.streamFinish
  dsimp only
  refine ⟨after.flow, rest.trans (List.drop_length ..), ?_⟩
  cases (World.streamDrain env s.qids.length (World.start c v) s).2.haveFailure with
  | true => simp
  | false => simp

end

/-- Every deed keeps the stream in order. -/
theorem InFlow.step {limit k : Nat} {o : Streamed × List (Event Nat)}
    (flow : InFlow limit o.2 (o.1.net.conn k) o.1.stream) (positive : 0 < limit) {d : StreamDeed}
    (undisturbed : d.Undisturbed k o.1) (fresh : d.Fresh k o.1) :
    InFlow limit (observed (Streamed.act k) (Streamed.note k) o d).2
      ((observed (Streamed.act k) (Streamed.note k) o d).1.net.conn k)
      (observed (Streamed.act k) (Streamed.note k) o d).1.stream := by
  obtain ⟨o, log⟩ := o
  have own (c : Conn) : (o.net.setConn k c).conn k = c := Function.update_self _ _ _
  cases d with
  | send env importedCap interfaceId methodId paramsDwords paramsPwords fill =>
      change InFlow limit (log ++ _) ((o.net.setConn k _).conn k) _
      rw [own]
      exact flow.send positive o.net.vat undisturbed fresh importedCap interfaceId methodId paramsDwords
        paramsPwords fill
  | finish env =>
      change InFlow limit (log ++ _) ((o.net.setConn k _).conn k) _
      rw [own]
      exact (flow.finish o.net.vat env).1
  | other a =>
      obtain ⟨k', d⟩ := a
      change InFlow limit (log ++ []) ((o.net.act (k', d)).conn k) o.stream
      rw [List.append_nil]
      by_cases here : k' = k
      · subst here
        rw [Net.act_conn_self]
        refine flow.run o.net.vat d (fun env qid same => ?_) fun env request same => ?_
        · exact undisturbed env qid (by rw [same])
        · exact fresh env request (by rw [same])
      · rw [Net.act_conn_of_ne _ (Ne.symm here)]
        exact flow

/-- The window a stream gets. -/
def streamLimit (window : Int) : Nat := (min 64 (max 1 window)).toNat

theorem streamInit_window (window : Int) : (streamInit window).window = streamLimit window := by
  unfold streamInit streamLimit streamMaxWindow
  dsimp only
  split
  · omega
  · split <;> omega

/-- What flow control promises of a stream on connection `k` and the log of its
frames: the log is in order; the stream has failed exactly when a bad call has
been retired, and knows the first; each call in the queue is one question of the
connection; and finishing the stream retires what is left and reports whether
any call was bad. -/
structure FlowControlled (k limit : Nat) (o : Streamed × List (Event Nat)) : Prop where
  ordered : Ordered limit o.2 o.1.stream.qids
  failed : o.1.stream.failed = true ↔ ∃ out ∈ left o.2, out.2 = true
  first : ∀ qid, firstBad o.2 = some qid → o.1.stream.firstFailure = qid
  named : ∀ qid ∈ o.1.stream.qids, ∃! i, i < maxQuestions ∧
    ((o.1.net.conn k).questions i).used = true ∧ ((o.1.net.conn k).questions i).questionId = qid
  finish : ∀ env : Env, env.Takes →
    (observed (Streamed.act k) (Streamed.note k) o (.finish env)).1.stream.qids = [] ∧
      ((o.1.finish k env).1 = .ok ↔
        ∀ out ∈ left (observed (Streamed.act k) (Streamed.note k) o (.finish env)).2, out.2 = false)

theorem InFlow.controlled {limit k : Nat} {o : Streamed × List (Event Nat)} (positive : 0 < limit)
    (flow : InFlow limit o.2 (o.1.net.conn k) o.1.stream) : FlowControlled k limit o where
  ordered := flow.ordered
  failed := by
    rw [flow.failed, Option.isSome_iff_ne_none, Ne, firstBad_eq_none_iff]
    simp
  first := flow.first
  named qid member := by
    obtain ⟨i, small, used, id⟩ := flow.tracked qid member
    refine ⟨i, ⟨small, used, id⟩, ?_⟩
    rintro j ⟨small', used', id'⟩
    exact flow.distinct j small' i small used' used (id'.trans id.symm)
  finish env takes := by
    obtain ⟨-, empty, result⟩ := flow.finish o.1.net.vat env
    have after := flow.step positive (d := .finish env) takes trivial
    refine ⟨empty, ?_⟩
    change ((World.start (o.1.net.conn k) o.1.net.vat).streamFinish env o.1.stream).1 = .ok ↔ _
    rw [result]
    refine (Bool.eq_iff_iff.mp after.haveFailure |> not_congr |> fun same => ?_)
    rw [Bool.not_eq_true] at same
    refine same.trans ?_
    rw [Option.isSome_iff_ne_none, not_not, firstBad_eq_none_iff]

/-- A stream is flow controlled in every run on a connection whose question ids have
stayed fresh, with a new stream for any window argument: the application sends on
the stream and finishes it, frames arrive, and other code asks and finishes
questions of its own, in any order. -/
theorem stream_flow_control {s : Net} {k : Nat}
    (before : Reached Net.init Net.act (fun s a => a.1 = k → Net.TakesFresh s a) s) (window : Int)
    {o : Streamed × List (Event Nat)}
    (reached : Reached (⟨s, streamInit window⟩, []) (observed (Streamed.act k) (Streamed.note k))
      (fun o d => d.Undisturbed k o.1 ∧ d.Fresh k o.1) o) :
    FlowControlled k (streamLimit window) o := by
  have positive : 0 < streamLimit window := by
    unfold streamLimit
    omega
  have next : (s.conn k).nextQuestionId < 2 ^ 32 :=
    @Net.conn_of_reached _ (fun c => c.nextQuestionId < 2 ^ 32) _ _ before (by decide)
      (fun s d small _ => d.next_lt s.vat small)
  have start : InFlow (streamLimit window) [] (s.conn k) (streamInit window) :=
    ⟨.nil _, streamInit_window window, rfl, rfl, nofun, nofun, List.nodup_nil, nofun,
      Net.distinctIds_of_reached before, next⟩
  have flow : InFlow (streamLimit window) o.2 (o.1.net.conn k) o.1.stream := by
    induction reached with
    | start => exact start
    | step _ met ih => exact ih.step positive met.1 met.2
  exact flow.controlled positive

/-- A new stream on connection 0 makes a call without parameters. -/
def firstCall (s : Net) (window : Int) : Streamed × List (Event Nat) :=
  observed (Streamed.act 0) (Streamed.note 0) (⟨s, streamInit window⟩, [])
    (.send (returningEnv 0) 0 1 2 0 0 Fill.null)

/-- A stream with room for one call. -/
theorem stream_flow_control_first : (firstCall Net.init 1).2 = [.enter 0] ∧
    FlowControlled 0 1 (observed (Streamed.act 0) (Streamed.note 0) (firstCall Net.init 1)
      (.finish (returningEnv 0))) := by
  have takes : (returningEnv 0).Takes := fun _ _ => rfl
  have fresh : (Net.init.conn 0).NextFresh := ⟨by decide, fun _ _ => nofun⟩
  have called : Reached (⟨Net.init, streamInit 1⟩, [])
      (observed (Streamed.act 0) (Streamed.note 0))
      (fun o d => d.Undisturbed 0 o.1 ∧ d.Fresh 0 o.1) (firstCall Net.init 1) := by
    refine Reached.start.step ⟨takes, fun c asking => ?_⟩
    cases asking
    exact .inr fresh
  exact ⟨by decide +kernel, stream_flow_control .start 1 (called.step ⟨takes, trivial⟩)⟩

/-- A call whose id is the failure value is sent, but the stream does not know
it. -/
theorem firstCall_lost {s : Net} (only : Net.OnlyFirst (s.conn 0) noQuestion) :
    (firstCall s 1).1.stream.qids = [] ∧ (firstCall s 1).2 = [.enter noQuestion] := by
  obtain ⟨b, flat, built, done⟩ : ∃ b flat,
      callMessage 0 1 2 0 0 Fill.null.ops noQuestion Builder.init = .ok () b ∧
        b.serialize = .ok flat := by
    obtain ⟨flat, done⟩ := serialize_single (ByteMemory.storeWord (callMem 0 1 2 noQuestion) 11
      (wpMakeStruct (-1) 0 0)) (show 13 ≠ 0 by decide)
    refine ⟨_, flat, ?_, done⟩
    rw [callMessage]
    simp only [bind, EStateM.bind, beginCall_init]
    rw [struct, if_pos rfl, storeW_single]
    rfl
  have asks : (World.start (s.conn 0) s.vat).ask (returningEnv 0)
        (callMessage 0 1 2 0 0 Fill.null.ops) = ((s.conn 0).nextQuestionId,
          { World.start (s.conn 0) s.vat with conn := (s.conn 0).claimed 1, sent := [flat] }) :=
    ask_taken _ (returningEnv 0) only.slot (by rw [World.start, only.counter]; exact built) done rfl
  have sends : (Streamed.mk s (streamInit 1)).send 0 (returningEnv 0) 0 1 2 0 0 Fill.null =
      (.alloc, { World.start (s.conn 0) s.vat with conn := (s.conn 0).claimed 1, sent := [flat] },
        streamInit 1) := by
    rw [Streamed.send, World.streamSend, if_neg (show ¬(streamInit 1).failed = true by decide),
      if_neg (show ¬(streamInit 1).qids.length ≥ (streamInit 1).window by decide),
      World.streamCall, World.sendCall, asks]
    exact if_pos only.counter
  have event : eventOf (s.conn 0) flat = some (.enter noQuestion) := by
    rw [eventOf, callOf_callMessage (by decide) built done]
  constructor
  · change ((Streamed.mk s (streamInit 1)).send 0 (returningEnv 0) 0 1 2 0 0 Fill.null).2.2.qids = _
    rw [sends]
    rfl
  · change [] ++ ((Streamed.mk s (streamInit 1)).send 0 (returningEnv 0) 0 1 2 0 0
      Fill.null).2.1.sent.filterMap (eventOf (s.conn 0)) = _
    rw [sends, List.nil_append, List.filterMap_cons_some event, List.filterMap_nil]

/-- A call is sent that the stream never retires: its id is the value that
means failure. -/
theorem stream_call_lost : ∃ s o, Reached Net.init Net.act (fun _ _ => True) s ∧
    Reached (⟨s, streamInit 1⟩, []) (observed (Streamed.act 0) (Streamed.note 0))
      (fun o d => d.Undisturbed 0 o.1) o ∧ ¬FlowControlled 0 (streamLimit 1) o := by
  obtain ⟨s, reached, only⟩ := Net.counter_passes noQuestion (by decide)
  obtain ⟨qids, log⟩ := firstCall_lost only
  refine ⟨s, firstCall s 1, reached, Reached.start.step fun _ _ => rfl, fun controlled => ?_⟩
  have order := controlled.ordered.order
  rw [qids, log] at order
  cases order

end CapnpJanet.Rpc
