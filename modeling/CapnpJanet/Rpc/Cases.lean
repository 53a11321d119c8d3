import CapnpJanet.Rpc.Carries
import CapnpJanet.Rpc.Joins

/-!
# What handling a message does

One relation with a case for each way through `capnp_rpc_handle`: the tables it
leaves, and the frames it hands to the send callback, by what a peer reads in
them.  Properties of runs are proved by cases on it, without looking at the
handlers again.
-/

namespace CapnpJanet.Rpc

open Builder

/-! ## What a message says -/

/-- The questions a message asks: a `Provide` or an `Accept` asks one only if
its body is a struct. -/
def Incoming.asks (msg : Incoming) : List Nat :=
  if msg.which = msgBootstrap ∨ msg.which = msgCall ∨ msg.which = msgJoin ∨
      (msg.which = msgProvide ∨ msg.which = msgAccept) ∧ msg.body.kind = .struct then
    [msg.questionId]
  else []

/-- The dispatch calls a message makes. -/
def Incoming.requests (msg : Incoming) (c : Conn) : List Dispatch :=
  if msg.which = msgCall then (callRequest msg.message msg.body msg.left c).toList else []

/-- The provision a message lifts. -/
def Incoming.lifts (msg : Incoming) (v : Vat) : Option Nat :=
  if msg.which = msgDisembargo then liftedBy msg.message msg.body v else none

theorem which_of_lifts {msg : Incoming} {v : Vat} {i : Nat} (lifts : msg.lifts v = some i) :
    msg.which = msgDisembargo := by
  unfold Incoming.lifts at lifts
  split at lifts
  · next which => exact which
  · cases lifts

/-- The message disembargoes the provision of a `Provide` question. -/
def Incoming.Disembargoes (msg : Incoming) (provideQid : Nat) : Prop :=
  msg.which = msgDisembargo ∧ msg.body.kind = .struct ∧
    msg.message.getU16 msg.body disCtxTagOff 0 = disCtxProvide ∧
    msg.message.getU32 msg.body disCtxValueOff 0 = provideQid

/-- The export entry a message empties. -/
def Incoming.vacates (msg : Incoming) (c : Conn) : Option Nat :=
  if msg.which = msgRelease then vacatedBy msg.message msg.body c else none

/-- The export and the nonce of a `Provide` that can be recorded. -/
def Incoming.offers (msg : Incoming) (c : Conn) : Option (Nat × Nat) :=
  if msg.body.kind ≠ .struct then none
  else
    let target := msg.message.getp msg.body 0 Ptr.zero msg.left
    if target.rc ≠ .ok then none
    else
      match c.resolveTarget msg.message target.out target.left with
      | (none, _) => none
      | (some eid, left) =>
          let recipient := msg.message.getp msg.body 1 Ptr.zero left
          if recipient.rc ≠ .ok ∨ recipient.out.kind ≠ .struct then none
          else some (eid, msg.message.getU64 recipient.out 0 0)

/-- The nonce an `Accept` presents. -/
def Incoming.presents (msg : Incoming) : Option Nat :=
  if msg.body.kind ≠ .struct then none
  else
    let provision := msg.message.getp msg.body 0 Ptr.zero msg.left
    if provision.rc ≠ .ok ∨ provision.out.kind ≠ .struct then none
    else some (msg.message.getU64 provision.out 0 0)

/-- The provision an `Accept` finds. -/
def Incoming.finds (msg : Incoming) (v : Vat) : Option Nat := msg.presents.bind v.claimable

/-- Whether an `Accept` is to be held back. -/
def Incoming.embargo (msg : Incoming) : Bool := msg.message.getBool msg.body 32 false

/-- Where a part of a join goes: its slot, the connection once the slot is
claimed, and the number of the part.  A part without a place is refused. -/
def Incoming.joinPlace (msg : Incoming) (c : Conn) : Option (Nat × Conn × Nat) :=
  let key := msg.message.getp msg.body 1 Ptr.zero msg.left
  if key.rc ≠ .ok ∨ key.out.kind ≠ .struct then none
  else
    let pcount := msg.message.getU16 key.out 4 0
    let pnum := msg.message.getU16 key.out 6 0
    if pcount = 0 ∨ pcount > maxJoinParts ∨ pnum ≥ pcount then none
    else
      match c.joinSlotFind (msg.message.getU32 key.out 0 0) pcount with
      | (none, _) => none
      | (some slot, c) => if (c.joins slot).seen pnum then none else some (slot, c, pnum)

/-- The export a part of a join names. -/
def Incoming.joinTarget (msg : Incoming) (c : Conn) : Option Nat :=
  let key := msg.message.getp msg.body 1 Ptr.zero msg.left
  let target := msg.message.getp msg.body 0 Ptr.zero key.left
  if target.rc = .ok then (c.resolveTarget msg.message target.out target.left).1 else none

/-- The tables that questions and introductions do not touch are the same. -/
def Conn.Alike (c c' : Conn) : Prop :=
  c' = { c with questions := c'.questions, introductions := c'.introductions }

theorem Conn.Alike.refl (c : Conn) : c.Alike c := rfl

theorem Conn.Alike.exports_eq {c c' : Conn} (alike : c.Alike c') : c'.exports = c.exports := by
  rw [alike]

theorem Conn.Alike.answers_eq {c c' : Conn} (alike : c.Alike c') : c'.answers = c.answers := by
  rw [alike]

theorem Conn.Alike.joins_eq {c c' : Conn} (alike : c.Alike c') : c'.joins = c.joins := by
  rw [alike]

/-- The part of a join that a message brings. -/
def Incoming.joinPart (msg : Incoming) (c : Conn) (slot pnum : Nat) : Join :=
  (c.joins slot).addPart pnum msg.questionId (msg.joinTarget c)

/-- The export that a completed join carries. -/
def Join.joined (join : Join) : Option Nat := if join.same then join.eids 0 else none

/-- The frames that answer the first `n` parts of a completed join; the first of
them carries the capability. -/
def Join.Answers (join : Join) : Nat → List (List UInt8) → Prop
  | 0, frames => frames = []
  | n + 1, frames => ∃ before flat, frames = before ++ [flat] ∧ join.Answers n before ∧
      IsJoinReturn flat (join.qids n) join.joinId join.same
        (if n = 0 then join.joined else none)

/-- A completed join sends as many answers as it has parts. -/
theorem Join.Answers.length_eq {join : Join} {n : Nat} {frames : List (List UInt8)}
    (answers : join.Answers n frames) : frames.length = n := by
  induction n generalizing frames with
  | zero =>
      rw [show frames = [] from answers]
      rfl
  | succ n ih =>
      obtain ⟨before, flat, rfl, earlier, -⟩ := answers
      rw [List.length_append, ih earlier]
      rfl

/-- The answers to the parts of a join, in the order of their numbers. -/
theorem Join.Answers.getElem {join : Join} {n : Nat} {frames : List (List UInt8)}
    (answers : join.Answers n frames) {i : Nat} (small : i < n) :
    ∃ flat, frames[i]? = some flat ∧ IsJoinReturn flat (join.qids i) join.joinId join.same
      (if i = 0 then join.joined else none) := by
  induction n generalizing frames with
  | zero => exact absurd small (Nat.not_lt_zero i)
  | succ n ih =>
      obtain ⟨before, last, rfl, earlier, isReturn⟩ := answers
      have size := earlier.length_eq
      by_cases here : i = n
      · subst here
        refine ⟨last, ?_, isReturn⟩
        rw [List.getElem?_append_right size.le, size, Nat.sub_self]
        rfl
      · obtain ⟨flat, found, isReturn⟩ := ih earlier (by omega)
        refine ⟨flat, ?_, isReturn⟩
        rw [List.getElem?_append_left (by omega)]
        exact found

/-- Each answer of a completed join is that to one of its parts. -/
theorem Join.Answers.mem {join : Join} {n : Nat} {frames : List (List UInt8)} {flat : List UInt8}
    (answers : join.Answers n frames) (member : flat ∈ frames) :
    ∃ i < n, IsJoinReturn flat (join.qids i) join.joinId join.same
      (if i = 0 then join.joined else none) := by
  obtain ⟨i, small, found⟩ := List.mem_iff_getElem.mp member
  rw [answers.length_eq] at small
  obtain ⟨flat', found', isReturn⟩ := answers.getElem small
  rw [List.getElem?_eq_getElem (by rwa [answers.length_eq]), found] at found'
  rw [Option.some.inj found']
  exact ⟨i, small, isReturn⟩

/-- The connection after a `Release`. -/
def Conn.released (c : Conn) (id count : Nat) : Conn :=
  if id ≥ maxExports ∨ (c.exports id).used = false then c
  else
    let refcount := int32 ((c.exports id).refcount - int32 count)
    c.setExport id
      (if refcount ≤ 0 then Export.zero else { c.exports id with refcount := refcount })

/-- The message drops no answer and no reference, and lifts no embargo. -/
structure Incoming.Inert (msg : Incoming) (v : Vat) : Prop where
  notFinish : msg.which ≠ msgFinish
  notRelease : msg.which ≠ msgRelease
  noLift : msg.lifts v = none

theorem Incoming.inert_of_other {msg : Incoming} {kind : Nat} (which : msg.which = kind)
    (notFinish : kind ≠ msgFinish) (notRelease : kind ≠ msgRelease)
    (notDisembargo : kind ≠ msgDisembargo) (v : Vat) : msg.Inert v := by
  subst which
  exact ⟨notFinish, notRelease, if_neg notDisembargo⟩

/-- The messages whose handlers never send them back. -/
def handledTags : List Nat :=
  [msgBootstrap, msgCall, msgFinish, msgRelease, msgJoin, msgReturn, msgProvide, msgAccept]

/-- The message may come back: it is a `Disembargo` that is to come back, or there is
no handler for it. -/
def Incoming.Echoes (msg : Incoming) : Prop :=
  msg.which ∉ handledTags ∧ (msg.which = msgDisembargo →
    msg.message.getU16 msg.body disCtxTagOff 0 = disCtxSenderLoopback)

/-- What handling a message does to the connection and the vat, and the frames
it sends. -/
inductive Handling (msg : Incoming) (c : Conn) (v : Vat) :
    Conn → Vat → List (List UInt8) → Prop
  /-- Nothing is sent; a call may be left without an answer. -/
  | quiet {c' : Conn} (alike : c.Alike c') (asks : msg.asks = [] ∨ msg.which = msgCall)
      (inert : msg.Inert v) : Handling msg c v c' v []
  | finished (which : msg.which = msgFinish) :
      Handling msg c v (c.answerDrop msg.questionId) v []
  | released (which : msg.which = msgRelease) :
      Handling msg c v (c.released msg.questionId (msg.message.getU32 msg.body 4 0)) v []
  /-- The question is answered with an exception. -/
  | refused {c' : Conn} {flat : List UInt8} (alike : c.Alike c')
      (asks : msg.asks = [msg.questionId])
      (isReturn : IsReturn flat msg.questionId returnTagException [])
      (notJoin : msg.which ≠ msgJoin) : Handling msg c v c' v [flat]
  | bootstrapped {c' : Conn} {eid : Nat} {flat : List UInt8} (which : msg.which = msgBootstrap)
      (exported : c.exportCap c.bootstrap c.bootstrapDispatch = (some eid, c'))
      (isReturn : IsCapReturn flat msg.questionId eid) (some : c.bootstrap ≠ 0) :
      Handling msg c v (c'.answerKeep msg.questionId flat) v [flat]
  | called {c' : Conn} {flat : List UInt8} (which : msg.which = msgCall) (alike : c.Alike c')
      (isReturn : IsReturn flat msg.questionId returnTagResults []) :
      Handling msg c v (c'.answerKeep msg.questionId flat) v [flat]
  | provided {i eid nonce : Nat} {flat : List UInt8} (which : msg.which = msgProvide)
      (offers : msg.offers c = some (eid, nonce))
      (free : firstIndex maxProvisions (fun i => !(v.provisions i).used) = some i)
      (isReturn : IsReturn flat msg.questionId returnTagResults []) :
      Handling msg c v ((c.retain eid).answerKeep msg.questionId flat)
        (v.setProvision i { v.provisions i with
          used := true
          nonce := nonce
          server := (c.exports eid).server
          dispatch := (c.exports eid).dispatch
          exportId := eid
          questionId := msg.questionId
          embargoed := false }) [flat]
  /-- A provision is claimed, and the `Accept` answered with it. -/
  | taken {i eid nonce : Nat} {c' : Conn} {flat : List UInt8} (which : msg.which = msgAccept)
      (presents : msg.presents = some nonce) (claims : v.claimable nonce = some i)
      (exported : c.exportCap (v.provisions i).server (v.provisions i).dispatch = (some eid, c'))
      (isReturn : IsCapReturn flat msg.questionId eid) (now : msg.embargo = false) :
      Handling msg c v (c'.answerKeep msg.questionId flat)
        (v.setProvision i { v.provisions i with exportId := eid, used := false }) [flat]
  /-- A provision is claimed, and the answer held back. -/
  | held {i eid nonce : Nat} {c' : Conn} (which : msg.which = msgAccept)
      (presents : msg.presents = some nonce) (embargo : msg.embargo = true)
      (claims : v.claimable nonce = some i)
      (exported : c.exportCap (v.provisions i).server (v.provisions i).dispatch = (some eid, c')) :
      Handling msg c v c' (v.setProvision i { v.provisions i with
        exportId := eid, embargoed := true, acceptQuestionId := msg.questionId }) []
  /-- An answer that was held back is sent. -/
  | lifted {i : Nat} {flat : List UInt8} (lifts : msg.lifts v = some i)
      (isReturn : IsCapReturn flat (v.provisions i).acceptQuestionId (v.provisions i).exportId) :
      Handling msg c v (c.answerKeep (v.provisions i).acceptQuestionId flat)
        (v.setProvision i Provision.zero) [flat]
  | joinRefused {joinId : Nat} {flat : List UInt8} (which : msg.which = msgJoin)
      (place : msg.joinPlace c = none)
      (isReturn : IsJoinReturn flat msg.questionId joinId false none) :
      Handling msg c v c v [flat]
  /-- A part of a join is recorded. -/
  | joined {slot pnum : Nat} {c' : Conn} (which : msg.which = msgJoin)
      (place : msg.joinPlace c = some (slot, c', pnum))
      (waits : (msg.joinPart c' slot pnum).nseen ≠ (msg.joinPart c' slot pnum).partCount) :
      Handling msg c v (c'.setJoin slot (msg.joinPart c' slot pnum)) v []
  /-- The last part of a join has arrived, and all are answered. -/
  | completed {slot pnum : Nat} {c' : Conn} {frames : List (List UInt8)}
      (which : msg.which = msgJoin) (place : msg.joinPlace c = some (slot, c', pnum))
      (full : (msg.joinPart c' slot pnum).nseen = (msg.joinPart c' slot pnum).partCount)
      (answers : (msg.joinPart c' slot pnum).Answers (msg.joinPart c' slot pnum).partCount frames) :
      Handling msg c v (((msg.joinPart c' slot pnum).joined.elim c' c'.retain).setJoin slot
        Join.zero) v frames
  /-- A loopback or a message that is not implemented is echoed. -/
  | echoed {flat : List UInt8} (asks : msg.asks = []) (silent : returnOf flat = none)
      (inert : msg.Inert v) (notice : Notice flat) (echoes : msg.Echoes) :
      Handling msg c v c v [flat]

/-! ## The handlers -/

/-- Stored ids fit their fields, so what is sent from the tables is read back. -/
structure Sound (c : Conn) (v : Vat) : Prop where
  joins : c.JoinsWf
  joinIds : ∀ i, (c.joins i).joinId < 2 ^ 32
  eids : ∀ i n, ∀ eid ∈ (c.joins i).eids n, eid < maxExports
  held : ∀ i, (v.provisions i).embargoed = true →
    (v.provisions i).acceptQuestionId < 2 ^ 32 ∧ (v.provisions i).exportId < maxExports

/-- A handler has done what one of the cases says. -/
def Handles (msg : Incoming) (w w' : World) : Prop :=
  ∃ frames, w'.sent = w.sent ++ frames ∧ Handling msg w.conn w.vat w'.conn w'.vat frames

theorem Conn.Alike.trans {c c' c'' : Conn} (first : c.Alike c') (second : c'.Alike c'') :
    c.Alike c'' := by
  unfold Alike at *
  rw [second, first]

theorem Conn.Noting.alike {c c' : Conn} (noting : c.Noting c') : c.Alike c' := by
  unfold Noting at noting
  unfold Alike
  rw [noting]

/-- A target resolves to an export in use. -/
theorem resolveTarget_some {c : Conn} {m : Message} {target : Ptr} {left eid : Nat}
    (found : (c.resolveTarget m target left).1 = some eid) :
    eid < maxExports ∧ (c.exports eid).used = true := by
  have live {id : Nat} {bound : Prop} [Decidable bound]
      (some : (if bound then Option.some id else none) = Option.some eid)
      (gives : bound → id < maxExports ∧ (c.exports id).used = true) :
      eid < maxExports ∧ (c.exports eid).used = true := by
    split at some
    · next holds =>
      rw [← Option.some.inj some]
      exact gives holds
    · cases some
  have table {stored : Message} {payload cursor : Ptr} {left : Nat}
      (some : c.resolveCapTable stored payload cursor left = Option.some eid) :
      eid < maxExports ∧ (c.exports eid).used = true := by
    unfold Conn.resolveCapTable at some
    dsimp only at some
    split at some
    · cases some
    · split at some
      · cases some
      · split at some
        · cases some
        · split at some
          · split at some
            · cases some
            · exact live some id
          · cases some
  unfold Conn.resolveTarget at found
  dsimp only at found
  split at found
  · cases found
  · split at found
    · split at found
      · cases found
      · unfold Conn.resolvePromisedAnswer at found
        dsimp only at found
        split at found
        · cases found
        · split at found
          · cases found
          · split at found
            · cases found
            · split at found
              · cases found
              · split at found
                · cases found
                · exact table found
    · split at found
      · cases found
      · exact live found id

section
variable (env : Env) {msg : Incoming} {w : World}

/-- A frame is handed over after the tables have been written. -/
theorem handles_of_transmit {c : Conn} {v : Vat} {flat : List UInt8} {result : Int × World}
    (sends : result = { w with conn := c, vat := v }.transmit env flat)
    (handling : Handling msg w.conn w.vat c v [flat]) : Handles msg w result.2 := by
  rw [sends]
  exact ⟨[flat], rfl, handling⟩

theorem handleBootstrap_handles (which : msg.which = msgBootstrap) :
    Handles msg w (handleBootstrap env msg.message msg.body w).2 := by
  have qidLt : msg.questionId < 2 ^ 32 := getU32_lt _ _ _
  have asks : msg.asks = [msg.questionId] := if_pos (.inl which)
  have refused {reason : String} (short : reason.toList.length ≤ 1024) :
      Handles msg w (w.sendReturnException env msg.questionId reason).2 := by
    obtain ⟨flat, isReturn, sends⟩ := w.sendReturnException_eq env qidLt short
    exact handles_of_transmit env sends
      (.refused (Conn.Alike.refl _) asks isReturn (by rw [which]; decide))
  unfold handleBootstrap
  dsimp only
  split
  · exact refused (by decide)
  · next some =>
    cases exported : w.conn.exportCap w.conn.bootstrap w.conn.bootstrapDispatch with
    | mk found c =>
        cases found with
        | none =>
            dsimp only
            rw [Conn.exportCap_none exported]
            exact refused (by decide)
        | some eid =>
            obtain ⟨flat, isReturn, sends⟩ := World.sendCapReturn_eq { w with conn := c } env qidLt
              (exportId_lt exported)
            exact handles_of_transmit env sends (.bootstrapped which exported isReturn some)

theorem handleCall_handles (which : msg.which = msgCall) :
    Handles msg w (handleCall env msg.message msg.body msg.left w).2 := by
  have qidLt : msg.questionId < 2 ^ 32 := getU32_lt _ _ _
  have asks : msg.asks = [msg.questionId] := if_pos (.inr (.inl which))
  have alike := (callIntroductions_noting msg.message msg.body msg.left w.conn).alike
  cases asked : callRequest msg.message msg.body msg.left w.conn with
  | none =>
      obtain ⟨reason, short, rejected⟩ := handleCall_rejected env _ _ _ w asked
      obtain ⟨flat, isReturn, sends⟩ := World.sendReturnException_eq
        { w with conn := (callIntroductions msg.message msg.body msg.left w.conn).1 } env qidLt short
      rw [rejected]
      exact handles_of_transmit env sends (.refused alike asks isReturn (by rw [which]; decide))
  | some request =>
      rw [handleCall_dispatched env _ _ _ w asked]
      dsimp only
      split
      · exact ⟨[], (List.append_nil _).symm, .quiet alike (.inr which)
          (Incoming.inert_of_other which (by decide) (by decide) (by decide) _)⟩
      · obtain ⟨flat, isReturn, sends⟩ := World.flushAnswer_callReply_eq
          { w with
            conn := (callIntroductions msg.message msg.body msg.left w.conn).1
            dispatched := w.dispatched ++ [request] } env qidLt ((env.dispatch request).framable _)
        rw [show msg.message.getU32 msg.body 0 0 = msg.questionId from rfl, sends]
        exact ⟨[flat], rfl, .called which alike isReturn⟩

/-- What a `Release` does, in terms of its fields. -/
theorem handleRelease_eq (m : Message) (rel : Ptr) (w : World) :
    handleRelease m rel w =
      { w with conn := w.conn.released (m.getU32 rel 0 0) (m.getU32 rel 4 0) } := by
  unfold handleRelease Conn.released
  dsimp only
  split
  · rfl
  · rfl

theorem handleRelease_handles (which : msg.which = msgRelease) :
    Handles msg w (handleRelease msg.message msg.body w) := by
  rw [handleRelease_eq]
  exact ⟨[], (List.append_nil _).symm, .released which⟩

theorem handleReturn_handles (which : msg.which = msgReturn) (frame : List UInt8) :
    Handles msg w (handleReturn msg.message msg.body frame msg.left w) := by
  have asks : msg.asks = [] := if_neg (by
    rw [which]
    simp [msgReturn, msgBootstrap, msgCall, msgJoin, msgProvide, msgAccept])
  have quiet {c : Conn} (alike : w.conn.Alike c) : Handles msg w { w with conn := c } :=
    ⟨[], (List.append_nil _).symm, .quiet alike (.inl asks)
      (Incoming.inert_of_other which (by decide) (by decide) (by decide) _)⟩
  unfold handleReturn
  dsimp only
  split
  · exact quiet (Conn.Alike.refl _)
  · split
    · exact quiet (Conn.Alike.refl _)
    · split
      · exact quiet (Conn.Alike.refl _)
      · refine quiet (Conn.Alike.trans ?_ rfl)
        split
        · exact (noteIntroductions_noting _ _ _ _).alike
        · rfl

theorem handleProvide_handles (which : msg.which = msgProvide) :
    Handles msg w (handleProvide env msg.message msg.body msg.left w).2 := by
  have qidLt : msg.questionId < 2 ^ 32 := getU32_lt _ _ _
  unfold handleProvide
  dsimp only
  split
  · next noStruct =>
    refine ⟨[], (List.append_nil _).symm, .quiet (Conn.Alike.refl _) (.inl (if_neg ?_))
      (Incoming.inert_of_other which (by decide) (by decide) (by decide) _)⟩
    rw [which]
    simp [noStruct, msgProvide, msgBootstrap, msgCall, msgJoin]
  · next isStruct =>
    have asks : msg.asks = [msg.questionId] :=
      if_pos (.inr (.inr (.inr ⟨.inl which, not_not.mp isStruct⟩)))
    have refused {reason : String} (short : reason.toList.length ≤ 1024) :
        Handles msg w (w.sendReturnException env msg.questionId reason).2 := by
      obtain ⟨flat, isReturn, sends⟩ := w.sendReturnException_eq env qidLt short
      exact handles_of_transmit env sends
        (.refused (Conn.Alike.refl _) asks isReturn (by rw [which]; decide))
    split
    · exact refused (by decide)
    · next target =>
      split
      · exact refused (by decide)
      · next eid left resolved =>
        split
        · exact refused (by decide)
        · next recipient =>
          split
          · exact refused (by decide)
          · next i free =>
            have offers : msg.offers w.conn = some (eid, msg.message.getU64
                (msg.message.getp msg.body 1 Ptr.zero left).out 0 0) := by
              unfold Incoming.offers
              dsimp only
              rw [if_neg isStruct, if_neg target, resolved]
              dsimp only
              rw [if_neg recipient]
            obtain ⟨flat, isReturn, sends⟩ := World.sendEmptyReturn_eq
              { w with conn := w.conn.retain eid, vat := w.vat.setProvision i _ } env qidLt
            exact handles_of_transmit env sends (.provided which offers free isReturn)

theorem handleAccept_handles (which : msg.which = msgAccept) :
    Handles msg w (handleAccept env msg.message msg.body msg.left w).2 := by
  have qidLt : msg.questionId < 2 ^ 32 := getU32_lt _ _ _
  unfold handleAccept
  dsimp only
  split
  · next noStruct =>
    refine ⟨[], (List.append_nil _).symm, .quiet (Conn.Alike.refl _) (.inl (if_neg ?_))
      (Incoming.inert_of_other which (by decide) (by decide) (by decide) _)⟩
    rw [which]
    simp [noStruct, msgAccept, msgBootstrap, msgCall, msgJoin]
  · next isStruct =>
    have asks : msg.asks = [msg.questionId] :=
      if_pos (.inr (.inr (.inr ⟨.inr which, not_not.mp isStruct⟩)))
    have refused {reason : String} (short : reason.toList.length ≤ 1024) :
        Handles msg w (w.sendReturnException env msg.questionId reason).2 := by
      obtain ⟨flat, isReturn, sends⟩ := w.sendReturnException_eq env qidLt short
      exact handles_of_transmit env sends
        (.refused (Conn.Alike.refl _) asks isReturn (by rw [which]; decide))
    split
    · exact refused (by decide)
    · next provision =>
      have presents : msg.presents = some (msg.message.getU64
          (msg.message.getp msg.body 0 Ptr.zero msg.left).out 0 0) := by
        unfold Incoming.presents
        dsimp only
        rw [if_neg isStruct, if_neg provision]
      split
      · exact refused (by decide)
      · next i claims =>
        cases exported : w.conn.exportCap (w.vat.provisions i).server
            (w.vat.provisions i).dispatch with
        | mk found c =>
            cases found with
            | none =>
                dsimp only
                rw [Conn.exportCap_none exported]
                exact refused (by decide)
            | some eid =>
                dsimp only
                split
                · next embargo =>
                  exact ⟨[], (List.append_nil _).symm,
                    .held which presents embargo claims exported⟩
                · next now =>
                  obtain ⟨flat, isReturn, sends⟩ := World.sendCapReturn_eq
                    { w with conn := c, vat := w.vat.setProvision i _ } env qidLt
                    (exportId_lt exported)
                  exact handles_of_transmit env sends
                    (.taken which presents claims exported isReturn (Bool.eq_false_iff.mpr now))

/-- A frame is echoed, unless it cannot be built. -/
theorem handles_of_echo (asks : msg.asks = []) (inert : msg.Inert w.vat) (echoes : msg.Echoes)
    {frame : BuildM Unit} (silent : Outcome.Ends (frame Builder.init) (fun _ => Silent) fun _ => True) :
    Handles msg w (w.build frame (w.flush env)).2 := by
  have quiet : Handles msg w w :=
    ⟨[], (List.append_nil _).symm, .quiet (Conn.Alike.refl _) (.inl asks) inert⟩
  unfold World.build
  cases built : frame Builder.init with
  | error _ _ => exact quiet
  | ok _ b =>
      rw [built] at silent
      dsimp only
      unfold World.flush
      cases done : b.serialize with
      | error _ => exact quiet
      | ok flat =>
          obtain ⟨unread, notice⟩ := silent flat done
          exact ⟨[flat], rfl, .echoed asks unread inert notice echoes⟩

theorem handleDisembargo_handles (sound : Sound w.conn w.vat) (which : msg.which = msgDisembargo) :
    Handles msg w (handleDisembargo env msg.message msg.body msg.left w).2 := by
  have asks : msg.asks = [] := if_neg (by
    rw [which]
    simp [msgDisembargo, msgBootstrap, msgCall, msgJoin, msgProvide, msgAccept])
  cases lifts : liftedBy msg.message msg.body w.vat with
  | some i =>
      have held : (w.vat.provisions i).embargoed = true := by
        unfold liftedBy at lifts
        split at lifts
        · obtain ⟨-, holds, -⟩ := firstIndex_eq_some lifts
          simp only [Bool.and_eq_true] at holds
          exact holds.1.2
        · cases lifts
      obtain ⟨idLt, small⟩ := sound.held i held
      obtain ⟨flat, isReturn, sends⟩ := World.sendCapReturn_eq
        { w with vat := w.vat.setProvision i Provision.zero } env idLt (small.trans (by decide))
      rw [handleDisembargo_lifts env _ _ _ w lifts]
      exact handles_of_transmit env sends (.lifted (by rw [Incoming.lifts, if_pos which, lifts]) isReturn)
  | none =>
      have inert : msg.Inert w.vat := by
        refine ⟨?_, ?_, by rw [Incoming.lifts, if_pos which, lifts]⟩
        · rw [which]
          decide
        · rw [which]
          decide
      have quiet : Handles msg w w :=
        ⟨[], (List.append_nil _).symm, .quiet (Conn.Alike.refl _) (.inl asks) inert⟩
      unfold liftedBy at lifts
      unfold handleDisembargo
      split
      · exact quiet
      · next isStruct =>
        dsimp only
        split
        · next context =>
          rw [if_pos ⟨not_not.mp isStruct, context⟩] at lifts
          unfold releaseProvideEmbargo
          rw [lifts]
          exact quiet
        · split
          · exact quiet
          · next loopback =>
            have echoes : msg.Echoes := by
              refine ⟨?_, fun _ => not_not.mp loopback⟩
              rw [which]
              decide
            exact handles_of_echo env asks inert echoes (disembargoEcho_silent _ _ _ _)

/-- Answering the first parts of a join: one frame each, and one more reference
to the export they carry. -/
theorem answerParts_eq {join : Join} (idsLt : ∀ n, join.qids n < 2 ^ 32)
    (joinIdLt : join.joinId < 2 ^ 32) (eidsLt : ∀ eid ∈ join.joined, eid < 2 ^ 32) (n : Nat)
    (w : World) : ∃ frames, join.Answers n frames ∧
      (answerParts env join n w).2 = { w with
        conn := if n = 0 then w.conn else join.joined.elim w.conn w.conn.retain
        sent := w.sent ++ frames } := by
  induction n with
  | zero => exact ⟨[], rfl, by rw [answerParts, List.append_nil, if_pos rfl]⟩
  | succ n ih =>
      obtain ⟨frames, answers, before⟩ := ih
      have cap : (if join.same && n == 0 then join.eids 0 else none) =
          if n = 0 then join.joined else none := by
        unfold Join.joined
        by_cases first : n = 0
        · simp [first]
        · simp [first]
      have capLt : ∀ eid ∈ (if n = 0 then join.joined else none), eid < 2 ^ 32 := by
        intro eid named
        split at named
        · exact eidsLt eid named
        · cases named
      obtain ⟨flat, isReturn, sends⟩ := World.sendJoinResult_eq (answerParts env join n w).2 env
        (idsLt n) joinIdLt join.same capLt
      refine ⟨frames ++ [flat], ⟨frames, flat, rfl, answers, isReturn⟩, ?_⟩
      rw [answerParts]
      dsimp only
      rw [cap, sends, before]
      simp only [World.transmit, if_neg (Nat.succ_ne_zero n), List.append_assoc]
      by_cases first : n = 0
      · simp [first]
      · simp [first]

/-- A slot whose part is taken was not opened just now. -/
theorem joinSlotFind_seen {c c' : Conn} {jid pcount slot pnum : Nat}
    (found : c.joinSlotFind jid pcount = (some slot, c')) (seen : (c'.joins slot).seen pnum = true) :
    c' = c := by
  unfold Conn.joinSlotFind at found
  split at found
  · exact (Prod.mk.inj found).2.symm
  · split at found
    · obtain ⟨slotEq, connEq⟩ := Prod.mk.inj found
      rw [← connEq, ← Option.some.inj slotEq] at seen
      simp [Join.zero] at seen
    · exact (Prod.mk.inj found).2.symm

/-- Opening a slot keeps the ids sound. -/
theorem sound_of_joinSlotFind {c c' : Conn} {v : Vat} {jid pcount slot : Nat}
    (sound : Sound c v) (jidLt : jid < 2 ^ 32)
    (found : c.joinSlotFind jid pcount = (some slot, c')) : Sound c' v := by
  obtain ⟨-, -, -, -, joins, -⟩ := joinSlotFind_some sound.joins found
  unfold Conn.joinSlotFind at found
  split at found
  · rw [← (Prod.mk.inj found).2]
    exact sound
  · split at found
    · next i _ =>
      rw [← (Prod.mk.inj found).2] at joins ⊢
      refine ⟨joins, fun j => ?_, fun j n eid named => ?_, sound.held⟩
      · rw [Conn.setJoin_joins]
        split
        · exact jidLt
        · exact sound.joinIds j
      · rw [Conn.setJoin_joins] at named
        split at named
        · rw [← Option.some.inj named]
          decide
        · exact sound.eids j n eid named
    · cases found

theorem joinTarget_lt {c : Conn} : ∀ eid ∈ msg.joinTarget c, eid < maxExports := by
  intro eid named
  unfold Incoming.joinTarget at named
  dsimp only at named
  split at named
  · exact (resolveTarget_some named).1
  · cases named

/-- The ids of a join with one more part are sound. -/
theorem joinPart_eids {c : Conn} {v : Vat} (sound : Sound c v) (slot pnum n : Nat) :
    ∀ eid ∈ (msg.joinPart c slot pnum).eids n, eid < maxExports := by
  intro eid named
  unfold Incoming.joinPart Join.addPart at named
  dsimp only at named
  rw [Function.update_apply] at named
  split at named
  · exact joinTarget_lt eid named
  · exact sound.eids slot n eid named

theorem joinPart_qids {c : Conn} {v : Vat} (sound : Sound c v) (slot pnum n : Nat) :
    (msg.joinPart c slot pnum).qids n < 2 ^ 32 := by
  unfold Incoming.joinPart Join.addPart
  dsimp only
  rw [Function.update_apply]
  split
  · exact getU32_lt _ _ _
  · exact (sound.joins slot).ids_lt n

/-- A slot that is cleared may be written before. -/
theorem setJoin_elim_retain (c : Conn) (slot : Nat) (join join' : Join) (cap : Option Nat) :
    (cap.elim (c.setJoin slot join) (c.setJoin slot join).retain).setJoin slot join' =
      (cap.elim c c.retain).setJoin slot join' := by
  cases cap with
  | none => simp [Conn.setJoin]
  | some eid => simp [Conn.setJoin, Conn.retain, Conn.setExport]

/-- Completing a join. -/
theorem joinComplete_handles {c : Conn} {slot pnum : Nat} (sound : Sound c w.vat)
    (which : msg.which = msgJoin) (place : msg.joinPlace w.conn = some (slot, c, pnum))
    (full : (msg.joinPart c slot pnum).nseen = (msg.joinPart c slot pnum).partCount) :
    Handles msg w (joinComplete env slot
      { w with conn := c.setJoin slot (msg.joinPart c slot pnum) }).2 := by
  have joinedLt : ∀ eid ∈ (msg.joinPart c slot pnum).joined, eid < 2 ^ 32 := by
    intro eid named
    unfold Join.joined at named
    split at named
    · exact (joinPart_eids sound slot pnum 0 eid named).trans (by decide)
    · cases named
  obtain ⟨frames, answers, done⟩ := answerParts_eq env (joinPart_qids sound slot pnum)
    (sound.joinIds slot) joinedLt (msg.joinPart c slot pnum).partCount
    { w with conn := c.setJoin slot (msg.joinPart c slot pnum) }
  have some : (msg.joinPart c slot pnum).partCount ≠ 0 := by
    have counted : (msg.joinPart c slot pnum).nseen = (c.joins slot).nseen + 1 := rfl
    omega
  refine ⟨frames, ?_, ?_⟩
  · unfold joinComplete
    simp [done]
  · unfold joinComplete
    simp only [Conn.setJoin_joins, if_true, done, if_neg some]
    rw [setJoin_elim_retain]
    exact .completed which place full answers

theorem handleJoin_handles (sound : Sound w.conn w.vat) (which : msg.which = msgJoin) :
    Handles msg w (handleJoin env msg.message msg.body msg.left w).2 := by
  have qidLt : msg.questionId < 2 ^ 32 := getU32_lt _ _ _
  have refused {jid : Nat} (jidLt : jid < 2 ^ 32) (place : msg.joinPlace w.conn = none) :
      Handles msg w (sendJoinResult env msg.questionId jid false none w).2 := by
    obtain ⟨flat, isReturn, sends⟩ := w.sendJoinResult_eq env qidLt jidLt false
      (show ∀ eid ∈ (none : Option Nat), eid < 2 ^ 32 by simp)
    exact handles_of_transmit env sends (.joinRefused which place isReturn)
  have jidLt := getU32_lt msg.message (msg.message.getp msg.body 1 Ptr.zero msg.left).out 0
  unfold handleJoin
  dsimp only
  split
  · next noKey => exact refused (by decide) (if_pos noKey)
  · next key =>
    split
    · next numbers =>
      refine refused jidLt ?_
      unfold Incoming.joinPlace
      dsimp only
      rw [if_neg key, if_pos numbers]
    · next numbers =>
      cases found : w.conn.joinSlotFind
          (msg.message.getU32 (msg.message.getp msg.body 1 Ptr.zero msg.left).out 0 0)
          (msg.message.getU16 (msg.message.getp msg.body 1 Ptr.zero msg.left).out 4 0) with
      | mk some c =>
          cases some with
          | none =>
              dsimp only
              rw [joinSlotFind_none found]
              refine refused jidLt ?_
              unfold Incoming.joinPlace
              dsimp only
              rw [if_neg key, if_neg numbers, found]
          | some slot =>
              dsimp only
              split
              · next seen =>
                rw [joinSlotFind_seen found seen]
                refine refused jidLt ?_
                unfold Incoming.joinPlace
                dsimp only
                rw [if_neg key, if_neg numbers, found]
                exact if_pos seen
              · next seen =>
                have place : msg.joinPlace w.conn = Option.some (slot, c,
                    msg.message.getU16 (msg.message.getp msg.body 1 Ptr.zero msg.left).out 6 0) := by
                  unfold Incoming.joinPlace
                  dsimp only
                  rw [if_neg key, if_neg numbers, found]
                  exact if_neg seen
                generalize msg.message.getU16 (msg.message.getp msg.body 1 Ptr.zero msg.left).out
                  6 0 = pnum at place ⊢
                have opened := sound_of_joinSlotFind sound jidLt found
                change Handles msg w (if (msg.joinPart c slot pnum).nseen =
                    (msg.joinPart c slot pnum).partCount then
                  joinComplete env slot { w with conn := c.setJoin slot (msg.joinPart c slot pnum) }
                  else (0, { w with conn := c.setJoin slot (msg.joinPart c slot pnum) })).2
                split
                · next full => exact joinComplete_handles env opened which place full
                · next waits => exact ⟨[], (List.append_nil _).symm, .joined which place waits⟩

/-- Handling a message is one of the cases. -/
theorem handleIncoming_handles (data : List UInt8) (sound : Sound w.conn w.vat) :
    Handles msg w (handleIncoming env data msg w).2 := by
  unfold handleIncoming
  dsimp only
  split
  · next which => exact handleBootstrap_handles env which
  · next notBootstrap =>
    split
    · next which => exact handleCall_handles env which
    · next notCall =>
      split
      · next which => exact ⟨[], (List.append_nil _).symm, .finished which⟩
      · next notFinish =>
        split
        · next which => exact handleRelease_handles which
        · next notRelease =>
          split
          · next which => exact handleJoin_handles env sound which
          · next notJoin =>
            split
            · next which => exact handleDisembargo_handles env sound which
            · next notDisembargo =>
              split
              · next which => exact handleReturn_handles which data
              · next notReturn =>
                split
                · next which => exact handleProvide_handles env which
                · next notProvide =>
                  split
                  · next which => exact handleAccept_handles env which
                  · next notAccept =>
                    have echoes : msg.Echoes := by
                      refine ⟨?_, fun which => absurd which notDisembargo⟩
                      simp [handledTags, notBootstrap, notCall, notFinish, notRelease, notJoin,
                        notReturn, notProvide, notAccept]
                    refine handles_of_echo env (if_neg ?_) ⟨notFinish, notRelease, if_neg notDisembargo⟩
                      echoes (unimplementedEcho_silent _ _ _)
                    simp [notBootstrap, notCall, notJoin, notProvide, notAccept]

end

/-! ## What every message keeps -/

theorem Sound.congr {c c' : Conn} {v v' : Vat} (sound : Sound c v) (joins : c'.joins = c.joins)
    (held : ∀ i, (v'.provisions i).embargoed = true →
      (v'.provisions i).acceptQuestionId < 2 ^ 32 ∧ (v'.provisions i).exportId < maxExports) :
    Sound c' v' := by
  refine ⟨?_, ?_, ?_, held⟩
  · unfold Conn.JoinsWf
    rw [joins]
    exact sound.joins
  · rw [joins]
    exact sound.joinIds
  · rw [joins]
    exact sound.eids

/-- What a place for a part of a join is. -/
theorem joinPlace_some {msg : Incoming} {c c' : Conn} {slot pnum : Nat}
    (place : msg.joinPlace c = some (slot, c', pnum)) :
    ∃ jid pcount, jid < 2 ^ 32 ∧ pnum < pcount ∧ pcount ≤ maxJoinParts ∧
      c.joinSlotFind jid pcount = (some slot, c') ∧ (c'.joins slot).seen pnum = false := by
  unfold Incoming.joinPlace at place
  dsimp only at place
  split at place
  · cases place
  · split at place
    · cases place
    · next numbers =>
      cases found : c.joinSlotFind
          (msg.message.getU32 (msg.message.getp msg.body 1 Ptr.zero msg.left).out 0 0)
          (msg.message.getU16 (msg.message.getp msg.body 1 Ptr.zero msg.left).out 4 0) with
      | mk some c'' =>
          rw [found] at place
          cases some with
          | none => cases place
          | some slot' =>
              dsimp only at place
              split at place
              · cases place
              · next unseen =>
                simp only [Option.some.injEq, Prod.mk.injEq] at place
                obtain ⟨rfl, rfl, rfl⟩ := place
                exact ⟨_, _, getU32_lt _ _ _, by omega, by omega, found, by simpa using unseen⟩

/-- The connection after a part is recorded is sound. -/
theorem Sound.joined {msg : Incoming} {c c' : Conn} {v : Vat} (sound : Sound c v)
    {slot pnum : Nat} (place : msg.joinPlace c = some (slot, c', pnum)) :
    Sound c' v ∧ Sound (c'.setJoin slot (msg.joinPart c' slot pnum)) v := by
  obtain ⟨jid, pcount, jidLt, numLt, -, found, unseen⟩ := joinPlace_some place
  have opened := sound_of_joinSlotFind sound jidLt found
  obtain ⟨-, used, count, -, -, -⟩ := joinSlotFind_some sound.joins found
  refine ⟨opened, ?_, fun i => ?_, fun i n eid named => ?_, sound.held⟩
  · exact opened.joins.setJoin slot ((opened.joins slot).addPart used (by omega) unseen
      (getU32_lt _ _ _) _)
  · rw [Conn.setJoin_joins]
    split
    · exact opened.joinIds slot
    · exact opened.joinIds i
  · rw [Conn.setJoin_joins] at named
    split at named
    · exact joinPart_eids opened slot pnum n eid named
    · exact opened.eids i n eid named

/-- Clearing a slot keeps the ids sound. -/
theorem Sound.clear {c : Conn} {v : Vat} (sound : Sound c v) (slot : Nat) :
    Sound (c.setJoin slot Join.zero) v := by
  refine ⟨sound.joins.setJoin slot Join.zero_wf, fun i => ?_, fun i n eid named => ?_, sound.held⟩
  · rw [Conn.setJoin_joins]
    split
    · exact Nat.two_pow_pos 32
    · exact sound.joinIds i
  · rw [Conn.setJoin_joins] at named
    split at named
    · rw [← Option.some.inj named]
      decide
    · exact sound.eids i n eid named

theorem answerDrop_joins (c : Conn) (qid : Nat) : (c.answerDrop qid).joins = c.joins := by
  unfold Conn.answerDrop
  split
  · rfl
  · rfl

theorem released_joins (c : Conn) (id count : Nat) : (c.released id count).joins = c.joins := by
  unfold Conn.released
  split
  · rfl
  · rfl

/-- The provisions after one has been replaced. -/
theorem held_of_setProvision {v : Vat} {i : Nat} {p : Provision}
    (before : ∀ i, (v.provisions i).embargoed = true →
      (v.provisions i).acceptQuestionId < 2 ^ 32 ∧ (v.provisions i).exportId < maxExports)
    (one : p.embargoed = true → p.acceptQuestionId < 2 ^ 32 ∧ p.exportId < maxExports) (j : Nat)
    (held : ((v.setProvision i p).provisions j).embargoed = true) :
    ((v.setProvision i p).provisions j).acceptQuestionId < 2 ^ 32 ∧
      ((v.setProvision i p).provisions j).exportId < maxExports := by
  rw [Vat.setProvision_provisions] at held ⊢
  split at held
  · next same =>
    rw [if_pos same]
    exact one held
  · next other =>
    rw [if_neg other]
    exact before j held

/-- A claimed provision was not held back. -/
theorem claimable_some {v : Vat} {nonce i : Nat} (claims : v.claimable nonce = some i) :
    i < maxProvisions ∧ (v.provisions i).used = true ∧ (v.provisions i).embargoed = false ∧
      (v.provisions i).nonce = nonce := by
  obtain ⟨index, holds, -⟩ := firstIndex_eq_some claims
  simp only [Bool.and_eq_true, Bool.not_eq_true', beq_iff_eq] at holds
  exact ⟨index, holds.1.1, holds.1.2, holds.2⟩

/-- Every message keeps the stored ids sound, on its connection and, as far
as the vat is concerned, on every other. -/
theorem Handling.sound {msg : Incoming} {c c' : Conn} {v v' : Vat} {frames : List (List UInt8)}
    (handling : Handling msg c v c' v' frames) (sound : Sound c v) : Sound c' v' := by
  have same {c' : Conn} (joins : c'.joins = c.joins) : Sound c' v := sound.congr joins sound.held
  cases handling with
  | quiet alike _ _ => exact same alike.joins_eq
  | finished _ => exact same (answerDrop_joins c _)
  | released _ => exact same (released_joins c _ _)
  | refused alike _ _ => exact same alike.joins_eq
  | bootstrapped _ exported _ =>
      obtain ⟨-, -, -, -, joins⟩ := Conn.exportCap_some exported
      exact same ((World.answerKeep_exports _ _ _).2.trans joins)
  | called _ alike _ => exact same ((World.answerKeep_exports _ _ _).2.trans alike.joins_eq)
  | provided _ _ _ _ =>
      exact sound.congr (World.answerKeep_exports _ _ _).2 (held_of_setProvision sound.held nofun)
  | taken _ _ claims exported _ =>
      obtain ⟨-, -, -, -, joins⟩ := Conn.exportCap_some exported
      refine sound.congr ((World.answerKeep_exports _ _ _).2.trans joins)
        (held_of_setProvision sound.held fun held => ?_)
      rw [(claimable_some claims).2.2.1] at held
      cases held
  | held _ _ _ _ exported =>
      obtain ⟨small, -, -, -, joins⟩ := Conn.exportCap_some exported
      exact sound.congr joins (held_of_setProvision sound.held fun _ => ⟨getU32_lt _ _ _, small⟩)
  | lifted _ _ =>
      exact sound.congr (World.answerKeep_exports _ _ _).2 (held_of_setProvision sound.held nofun)
  | joinRefused _ _ _ => exact sound
  | joined _ place _ => exact (sound.joined place).2
  | @completed slot pnum c' frames _ place _ _ =>
      have opened := (sound.joined place).1
      have retained : Sound ((msg.joinPart c' slot pnum).joined.elim c' c'.retain) v := by
        cases (msg.joinPart c' slot pnum).joined with
        | none => exact opened
        | some eid => exact opened.congr rfl opened.held
      exact retained.clear slot
  | echoed _ _ _ => exact sound

theorem sound_init : Sound Conn.init Vat.init :=
  ⟨joinsWf_init, fun _ => Nat.two_pow_pos 32, fun _ _ eid named => by
    rw [← Option.some.inj named]
    decide, nofun⟩

end CapnpJanet.Rpc
