import CapnpJanet.Rpc.Learning
import CapnpJanet.Rpc.Steps

/-!
# Refusals

A message that is refused changes nothing: an exception is sent before any
table is written, and a part of a join that cannot be placed is answered alone.
The one exception is a `Call`, whose cap table is noted before its target is
looked up.
-/

namespace CapnpJanet.Rpc

open Run

/-! ## Parts of joins without a place -/

/-- The `JoinKeyPart` of a `Join`, as it is read. -/
def Incoming.keyPart (msg : Incoming) : Resolved := msg.message.getp msg.body 1 Ptr.zero msg.left

/-- `joinId` -/
def Incoming.joinId (msg : Incoming) : Nat := msg.message.getU32 msg.keyPart.out 0 0

/-- `partCount` -/
def Incoming.partCount (msg : Incoming) : Nat := msg.message.getU16 msg.keyPart.out 4 0

/-- `partNum` -/
def Incoming.partNum (msg : Incoming) : Nat := msg.message.getU16 msg.keyPart.out 6 0

/-- The slot that a join has already. -/
def Conn.joinHeld (c : Conn) (jid : Nat) : Option Nat :=
  firstIndex maxJoins fun i => (c.joins i).used && (c.joins i).joinId == jid

/-- Why a part of a join is refused. -/
inductive JoinFault (msg : Incoming) (c : Conn) : Prop
  | noKey (unread : msg.keyPart.rc ≠ .ok ∨ msg.keyPart.out.kind ≠ .struct)
  | outOfRange (numbers : msg.partCount = 0 ∨ msg.partCount > maxJoinParts ∨
      msg.partNum ≥ msg.partCount)
  | disagrees {slot : Nat} (held : c.joinHeld msg.joinId = some slot)
      (count : (c.joins slot).partCount ≠ msg.partCount)
  | repeated {slot : Nat} (held : c.joinHeld msg.joinId = some slot)
      (seen : (c.joins slot).seen msg.partNum = true)
  | full (unknown : c.joinHeld msg.joinId = none) (used : ∀ i < maxJoins, (c.joins i).used = true)

/-- A part of a join is refused for one of the faults. -/
theorem joinPlace_eq_none_iff {msg : Incoming} {c : Conn} :
    msg.joinPlace c = none ↔ JoinFault msg c := by
  have full {test : Nat → Bool} : firstIndex maxJoins (fun i => !test i) = none ↔
      ∀ i < maxJoins, test i = true := by
    constructor
    · intro none i hi
      simpa using firstIndex_eq_none none i hi
    · intro all
      exact List.find?_eq_none.mpr fun i member => by simp [all i (List.mem_range.mp member)]
  unfold Incoming.joinPlace
  dsimp only
  -- the reads under their names
  rw [show msg.message.getp msg.body 1 Ptr.zero msg.left = msg.keyPart from rfl,
    show msg.message.getU32 msg.keyPart.out 0 0 = msg.joinId from rfl,
    show msg.message.getU16 msg.keyPart.out 4 0 = msg.partCount from rfl,
    show msg.message.getU16 msg.keyPart.out 6 0 = msg.partNum from rfl]
  by_cases noKey : msg.keyPart.rc ≠ .ok ∨ msg.keyPart.out.kind ≠ .struct
  · rw [if_pos noKey]
    exact iff_of_true rfl (.noKey noKey)
  rw [if_neg noKey]
  by_cases numbers : msg.partCount = 0 ∨ msg.partCount > maxJoinParts ∨ msg.partNum ≥ msg.partCount
  · rw [if_pos numbers]
    exact iff_of_true rfl (.outOfRange numbers)
  rw [if_neg numbers]
  cases held : c.joinHeld msg.joinId with
  | some slot =>
      have finds : c.joinSlotFind msg.joinId msg.partCount =
          (if (c.joins slot).partCount = msg.partCount then some slot else none, c) := by
        unfold Conn.joinHeld at held
        unfold Conn.joinSlotFind
        rw [held]
      rw [finds]
      by_cases count : (c.joins slot).partCount = msg.partCount
      · rw [if_pos count]
        dsimp only
        by_cases seen : (c.joins slot).seen msg.partNum = true
        · rw [if_pos seen]
          exact iff_of_true rfl (.repeated held seen)
        · rw [if_neg seen]
          refine iff_of_false (by rintro ⟨⟩) ?_
          rintro (h | h | ⟨held', count'⟩ | ⟨held', seen'⟩ | ⟨unknown, -⟩)
          · exact noKey h
          · exact numbers h
          · rw [held, Option.some.injEq] at held'
            exact count' (held' ▸ count)
          · rw [held, Option.some.injEq] at held'
            exact seen (held' ▸ seen')
          · rw [held] at unknown
            cases unknown
      · rw [if_neg count]
        exact iff_of_true rfl (.disagrees held count)
  | none =>
      cases free : firstIndex maxJoins fun i => !(c.joins i).used with
      | none =>
          have finds : c.joinSlotFind msg.joinId msg.partCount = (none, c) := by
            unfold Conn.joinHeld at held
            unfold Conn.joinSlotFind
            rw [held]
            dsimp only
            rw [free]
          rw [finds]
          exact iff_of_true rfl (.full held (full.mp free))
      | some slot =>
          have finds : c.joinSlotFind msg.joinId msg.partCount = (some slot, c.setJoin slot
              { Join.zero with used := true, joinId := msg.joinId, partCount := msg.partCount }) := by
            unfold Conn.joinHeld at held
            unfold Conn.joinSlotFind
            rw [held]
            dsimp only
            rw [free]
          rw [finds]
          dsimp only
          rw [if_neg (by simp [Join.zero])]
          refine iff_of_false (by rintro ⟨⟩) ?_
          rintro (h | h | ⟨held', -⟩ | ⟨held', -⟩ | ⟨-, used⟩)
          · exact noKey h
          · exact numbers h
          · rw [held] at held'
            cases held'
          · rw [held] at held'
            cases held'
          · rw [full.mpr used] at free
            cases free

/-! ## Refused messages -/

/-- A message is refused: a `Bootstrap`, `Call`, `Provide` or `Accept` by an
exception among the frames sent, a part of a `Join` for one of its faults. -/
def Incoming.Refused (msg : Incoming) (c : Conn) (frames : List (List UInt8)) : Prop :=
  (msg.which = msgBootstrap ∨ msg.which = msgCall ∨ msg.which = msgProvide ∨ msg.which = msgAccept) ∧
      (∃ flat ∈ frames, ∃ qid, returnOf flat = some ⟨qid, returnTagException⟩) ∨
    msg.which = msgJoin ∧ JoinFault msg c

section
variable {msg : Incoming} {c c' : Conn} {v v' : Vat} {frames : List (List UInt8)}

theorem IsReturn.not_exception {flat : List UInt8} {qid : Nat} {hosted : List Nat}
    (isReturn : IsReturn flat qid returnTagResults hosted) :
    ¬∃ qid, returnOf flat = some ⟨qid, returnTagException⟩ := by
  rintro ⟨qid', read⟩
  rw [isReturn.read] at read
  simp [returnTagResults, returnTagException] at read

/-- A refused message writes none of the tables of the answering side. -/
theorem Handling.refused_alike (handling : Handling msg c v c' v' frames)
    (refused : msg.Refused c frames) : c.Alike c' ∧ v' = v ∧
      (msg.which = msgJoin → ∃ flat joinId, frames = [flat] ∧
        IsJoinReturn flat msg.questionId joinId false none) := by
  rcases refused with ⟨which, flat, member, exception⟩ | ⟨which, fault⟩
  · have notJoin : msg.which ≠ msgJoin := by
      rcases which with which | which | which | which <;> rw [which] <;> decide
    -- every frame but that of a refusal is read otherwise
    have wrong {other : List UInt8} {qid : Nat} {hosted : List Nat} (sole : flat ∈ [other])
        (isReturn : IsReturn other qid returnTagResults hosted) : False :=
      isReturn.not_exception (List.mem_singleton.mp sole ▸ exception)
    cases handling with
    | quiet _ _ _ | finished _ | released _ => exact absurd member List.not_mem_nil
    | held _ _ _ _ _ | joined _ _ _ => exact absurd member List.not_mem_nil
    | refused alike _ _ _ => exact ⟨alike, rfl, fun isJoin => absurd isJoin notJoin⟩
    | bootstrapped _ _ isReturn _ => exact (wrong member isReturn.toIsReturn).elim
    | called _ _ isReturn => exact (wrong member isReturn).elim
    | provided _ _ _ isReturn => exact (wrong member isReturn).elim
    | taken _ _ _ _ isReturn _ => exact (wrong member isReturn.toIsReturn).elim
    | lifted _ isReturn => exact (wrong member isReturn.toIsReturn).elim
    | joinRefused isJoin _ _ | completed isJoin _ _ _ => exact absurd isJoin notJoin
    | echoed _ silent _ _ =>
        obtain ⟨qid, read⟩ := exception
        rw [List.mem_singleton.mp member, silent] at read
        cases read
  · have none : msg.joinPlace c = none := joinPlace_eq_none_iff.mpr fault
    have asks : msg.asks = [msg.questionId] := if_pos (.inr (.inr (.inl which)))
    have no {kind : Nat} (other : msg.which = kind) (differs : kind ≠ msgJoin) : False :=
      differs (other.symm.trans which)
    cases handling with
    | quiet _ silent _ =>
        rcases silent with silent | isCall
        · rw [asks] at silent
          cases silent
        · exact (no isCall (by decide)).elim
    | finished other | released other | bootstrapped other _ _ _ | called other _ _
    | provided other _ _ _ | taken other _ _ _ _ _ | held other _ _ _ _ =>
        exact (no other (by decide)).elim
    | refused _ _ _ notJoin => exact absurd which notJoin
    | lifted lifts _ => exact (no (which_of_lifts lifts) (by decide)).elim
    | joinRefused _ _ isReturn => exact ⟨Conn.Alike.refl c, rfl, fun _ => ⟨_, _, rfl, isReturn⟩⟩
    | joined _ place _ | completed _ place _ _ =>
        rw [none] at place
        cases place
    | echoed silent _ _ _ =>
        rw [asks] at silent
        cases silent

/-- Only a `Return` writes questions, and only a `Call` or a `Return`
introductions. -/
theorem Learns.of_ne_return {data : List UInt8} (learns : Learns msg data c c')
    (other : msg.which ≠ msgReturn) : c'.questions = c.questions ∧
      c'.nextQuestionId = c.nextQuestionId ∧
        ∀ j, c'.introductions j = c.introductions j ∨ msg.which = msgCall ∧
          (c.introductions j).used = false ∧ c'.introductions j ∈ msg.introduces := by
  cases learns with
  | nothing _ _ same =>
      exact ⟨same.questions, same.next, fun j => .inl (congrFun same.introductions j)⟩
  | called which same =>
      have noting := addIntroductions_noting c msg.introduces
      refine ⟨same.questions.trans noting.questions_eq, ?_, fun j => ?_⟩
      · rw [same.next, noting]
      · rw [same.introductions]
        exact (addIntroductions_entry c msg.introduces j).imp_right fun entry => ⟨which, entry⟩
  | returned records _ =>
      rw [records_of_ne other] at records
      cases records

end

/-- Refusals have no side effects.  A refused message leaves the other
connections, the vat and its own connection exactly as before, up to
introductions, of which a `Call` may have recorded those in its cap table.  A
refused part of a join is answered by one failed `JoinResult`. -/
theorem Net.refusal_inert {s : Net} (reached : Reached init step (fun _ _ => True) s) (k : Nat)
    (env : Env) {data : List UInt8} {msg : Incoming} (read : readIncoming data = some msg)
    (refused : msg.Refused (s.conn k) (s.sends (.deliver k env data))) :
    ((∀ k' ≠ k, (s.step (.deliver k env data)).conn k' = s.conn k') ∧
      (s.step (.deliver k env data)).vat = s.vat ∧
      (s.step (.deliver k env data)).conn k = { s.conn k with
        introductions := ((s.step (.deliver k env data)).conn k).introductions } ∧
      ∀ j, ((s.step (.deliver k env data)).conn k).introductions j = (s.conn k).introductions j ∨
        msg.which = msgCall ∧ ((s.conn k).introductions j).used = false ∧
          ((s.step (.deliver k env data)).conn k).introductions j ∈ msg.introduces) ∧
    (msg.which = msgJoin → ∃ flat joinId, s.sends (.deliver k env data) = [flat] ∧
      IsJoinReturn flat msg.questionId joinId false none) := by
  have handling := handling_deliver (sound_of_reached reached) (k := k) env read
  have learns : Learns msg data (s.conn k) _ :=
    @handleIncoming_learns env msg (World.start (s.conn k) s.vat) data
  have done : (handle env data (s.conn k) s.vat).2 =
      (handleIncoming env data msg (World.start (s.conn k) s.vat)).2 := by
    rw [handle, read]
  rw [← done] at learns
  have notReturn : msg.which ≠ msgReturn := by
    rcases refused with ⟨which | which | which | which, -⟩ | ⟨which, -⟩ <;> rw [which] <;> decide
  obtain ⟨questions, next, introductions⟩ := learns.of_ne_return notReturn
  obtain ⟨alike, vat, sole⟩ := handling.refused_alike refused
  have conn : (s.step (.deliver k env data)).conn k = (handle env data (s.conn k) s.vat).2.conn := by
    rw [step_deliver read]
    exact Function.update_self _ _ _
  rw [conn]
  refine ⟨⟨fun k' other => ?_, ?_, ?_, introductions⟩, sole⟩
  · rw [step_deliver read]
    exact Function.update_of_ne other _ _
  · rw [step_deliver read]
    exact vat
  · refine (show _ = _ from alike).trans ?_
    rw [questions]

/-- Connection 0 has exported a capability, and has answered a call of it. -/
def Net.serving : Net :=
  [.exportCap 0 1 1, .deliver 0 (returningEnv 0) servedCallFrame].foldl step init

/-- A call of export 5, for question 8. -/
def strayCallFrame : List UInt8 := (servedCallFrame.set 32 8).set 48 5

/-- A call of an export that does not exist leaves the export and the answer that
are there. -/
theorem Net.refusal_inert_call :
    let after := serving.step (.deliver 0 (returningEnv 0) strayCallFrame)
    ((serving.conn 0).exports 0).used = true ∧ ((serving.conn 0).answers 0).used = true ∧
      after.vat = serving.vat ∧ (after.conn 0).exports = (serving.conn 0).exports ∧
      (after.conn 0).answers = (serving.conn 0).answers := by
  have found : ((readIncoming strayCallFrame).any fun msg => msg.which == msgCall) = true := by
    decide +kernel
  obtain ⟨msg, read, isCall⟩ := (Option.any_eq_true _ _).mp found
  rw [beq_iff_eq] at isCall
  have excepted : ((serving.sends (.deliver 0 (returningEnv 0) strayCallFrame)).any fun flat =>
      returnOf flat == some ⟨8, returnTagException⟩) = true := by
    decide +kernel
  obtain ⟨flat, member, answered⟩ := List.any_eq_true.mp excepted
  rw [beq_iff_eq] at answered
  have refused : msg.Refused (serving.conn 0)
      (serving.sends (.deliver 0 (returningEnv 0) strayCallFrame)) :=
    .inl ⟨.inr (.inl isCall), flat, member, 8, answered⟩
  have reached : Reached init step (fun _ _ => True) serving := reached_any _
  obtain ⟨⟨-, vat, conn, -⟩, -⟩ := Net.refusal_inert reached 0 (returningEnv 0) read refused
  refine ⟨by decide +kernel, by decide +kernel, vat, ?_, ?_⟩
  · rw [conn]
  · rw [conn]

end CapnpJanet.Rpc
