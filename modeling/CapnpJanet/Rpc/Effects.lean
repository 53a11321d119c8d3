import CapnpJanet.Rpc.Answers
import Mathlib.Algebra.BigOperators.Intervals

/-!
# What each handler does

One lemma for each handler: the questions it answers, the exports it keeps, the
joins that wait on, and what it does to the vat's provisions.  Whatever is
proved about runs is proved from these.
-/

namespace CapnpJanet.Rpc

open ByteMemory Builder Outcome

/-! ## Handlers that leave the vat and the joins alone -/

section
variable (env : Env) (m : Message) (body : Ptr) (left : Nat) (w : World)

/-- Only the table of introductions has changed. -/
def Conn.Noting (c c' : Conn) : Prop := c' = { c with introductions := c'.introductions }

theorem Conn.Noting.trans {c c' c'' : Conn} (first : c.Noting c') (second : c'.Noting c'') :
    c.Noting c'' := by
  unfold Noting at *
  rw [second, first]

theorem Conn.Noting.exports_eq {c c' : Conn} (noting : c.Noting c') : c'.exports = c.exports := by
  rw [noting]

theorem Conn.Noting.joins_eq {c c' : Conn} (noting : c.Noting c') : c'.joins = c.joins := by
  rw [noting]

theorem Conn.Noting.questions_eq {c c' : Conn} (noting : c.Noting c') :
    c'.questions = c.questions := by
  rw [noting]

theorem addIntroduction_noting (c : Conn) (introduction : Introduction) :
    c.Noting (c.addIntroduction introduction) := by
  unfold Conn.addIntroduction
  split
  · rfl
  · rfl

theorem noteEntries_noting (c : Conn) (m : Message) (table : Ptr) (n left : Nat) :
    c.Noting (c.noteEntries m table n left).1 := by
  induction n with
  | zero => rfl
  | succ n ih =>
      rw [Conn.noteEntries]
      dsimp only
      split
      · exact ih.trans (addIntroduction_noting _ _)
      · exact ih

/-- Introductions are noted in a table of their own. -/
theorem noteIntroductions_noting (c : Conn) (m : Message) (payload : Ptr) (left : Nat) :
    c.Noting (c.noteIntroductions m payload left).1 := by
  unfold Conn.noteIntroductions
  dsimp only
  split
  · rfl
  · split
    · rfl
    · exact noteEntries_noting c m _ _ _

theorem callIntroductions_noting (c : Conn) :
    c.Noting (callIntroductions m body left c).1 := by
  unfold callIntroductions
  dsimp only
  split
  · rfl
  · exact noteIntroductions_noting _ _ _ _

theorem handleBootstrap_replies :
    Replies w [m.getU32 body 0 0] (handleBootstrap env m body w).2 := by
  have qidLt := getU32_lt m body 0
  unfold handleBootstrap
  dsimp only
  split
  · exact (w.sendReturnException_answers env qidLt (by decide)).replies
  · split
    · next c refused =>
      rw [Conn.exportCap_none refused]
      exact (w.sendReturnException_answers env qidLt (by decide)).replies
    · next eid c exported =>
      obtain ⟨-, -, -, exporting, joins⟩ := Conn.exportCap_some exported
      exact (Replies.of_conn w exporting joins).trans
        (World.sendCapReturn_answers _ env qidLt (exportId_lt exported)).replies

/-- A call is answered at most once, after its dispatch call. -/
theorem handleCall_replies :
    ∃ ids, (ids = [] ∨ ids = [m.getU32 body 0 0]) ∧
      Replies { w with dispatched := w.dispatched ++ (callRequest m body left w.conn).toList } ids
        (handleCall env m body left w).2 := by
  have qidLt := getU32_lt m body 0
  have noting := callIntroductions_noting m body left w.conn
  have exporting := Conn.Exporting.of_eq noting.exports_eq
  have joins := noting.joins_eq
  cases asked : callRequest m body left w.conn with
  | none =>
      obtain ⟨reason, short, rejected⟩ := handleCall_rejected env m body left w asked
      rw [rejected, Option.toList_none, List.append_nil]
      exact ⟨[m.getU32 body 0 0], .inr rfl, (Replies.of_conn w exporting joins).trans
        (World.sendReturnException_answers _ env qidLt short).replies⟩
  | some request =>
      have noted := Replies.of_conn { w with dispatched := w.dispatched ++ [request] } exporting joins
      rw [handleCall_dispatched env m body left w asked]
      dsimp only
      split
      · exact ⟨[], .inl rfl, noted⟩
      · exact ⟨[m.getU32 body 0 0], .inr rfl, noted.trans
          (World.flushAnswer_answers (callReply_reads qidLt
            ((env.dispatch request).framable _))).replies⟩

theorem answerDrop_replies (qid : Nat) : Replies w [] { w with conn := w.conn.answerDrop qid } := by
  unfold Conn.answerDrop
  split
  · exact Replies.refl w
  · exact Replies.of_conn w (Conn.Exporting.refl _) rfl

theorem handleReturn_replies (frame : List UInt8) :
    Replies w [] (handleReturn m body frame left w) := by
  unfold handleReturn
  dsimp only
  split
  · exact Replies.refl w
  · split
    · exact Replies.refl w
    · split
      · exact Replies.refl w
      · split
        · have noting := noteIntroductions_noting w.conn m
            (m.getp body 0 Ptr.zero left).out (m.getp body 0 Ptr.zero left).left
          exact Replies.of_conn w (Conn.Exporting.of_eq noting.exports_eq) noting.joins_eq
        · exact Replies.of_conn w (Conn.Exporting.refl _) rfl

/-- The provision that a message lifts, if it is a `Disembargo` of a `Provide`
and there is one. -/
def liftedBy (m : Message) (body : Ptr) (v : Vat) : Option Nat :=
  if body.kind = .struct ∧ m.getU16 body disCtxTagOff 0 = disCtxProvide then
    v.liftable (m.getU32 body disCtxValueOff 0)
  else none

theorem handleDisembargo_replies (idle : liftedBy m body w.vat = none) :
    Replies w [] (handleDisembargo env m body left w).2 := by
  unfold liftedBy at idle
  unfold handleDisembargo
  split
  · exact Replies.refl w
  · next isStruct =>
    dsimp only
    split
    · next context =>
      rw [if_pos ⟨not_not.mp isStruct, context⟩] at idle
      unfold releaseProvideEmbargo
      rw [idle]
      exact Replies.refl w
    · split
      · exact Replies.refl w
      · exact w.build_silent env (disembargoEcho_silent m _ _ _)

theorem handleDisembargo_lifts {i : Nat} (lifts : liftedBy m body w.vat = some i) :
    handleDisembargo env m body left w =
      { w with vat := w.vat.setProvision i Provision.zero }.sendCapReturn env
        (w.vat.provisions i).acceptQuestionId (w.vat.provisions i).exportId := by
  unfold liftedBy at lifts
  split at lifts
  · next context =>
    unfold handleDisembargo releaseProvideEmbargo
    dsimp only
    rw [if_neg (not_not.mpr context.1), if_pos context.2, lifts]
  · cases lifts

theorem sendUnimplemented_replies : Replies w [] (w.sendUnimplemented env m body left).2 :=
  w.build_silent env (unimplementedEcho_silent m body left)

/-- The export entry that a `Release` empties, if it does. -/
def vacatedBy (m : Message) (body : Ptr) (c : Conn) : Option Nat :=
  let id := m.getU32 body 0 0
  if id < maxExports ∧ (c.exports id).used = true ∧
      int32 ((c.exports id).refcount - int32 (m.getU32 body 4 0)) ≤ 0 then some id
  else none

/-- A `Release` sends nothing, and loses at most the entry it empties. -/
theorem handleRelease_effect :
    (handleRelease m body w).sent = w.sent ∧ (handleRelease m body w).vat = w.vat ∧
      (handleRelease m body w).conn.joins = w.conn.joins ∧
      (handleRelease m body w).dispatched = w.dispatched ∧
      ∀ e, (w.conn.exports e).used = true → vacatedBy m body w.conn ≠ some e →
        ((handleRelease m body w).conn.exports e).used = true ∧
          ((handleRelease m body w).conn.exports e).server = (w.conn.exports e).server := by
  unfold handleRelease vacatedBy
  dsimp only
  split
  · exact ⟨rfl, rfl, rfl, rfl, fun e used _ => ⟨used, rfl⟩⟩
  · next exported =>
    simp only [not_or, not_le, Bool.not_eq_false] at exported
    refine ⟨rfl, rfl, rfl, rfl, fun e used stays => ?_⟩
    by_cases same : e = m.getU32 body 0 0
    · subst same
      have positive : ¬int32 ((w.conn.exports (m.getU32 body 0 0)).refcount -
          int32 (m.getU32 body 4 0)) ≤ 0 := by
        intro gone
        rw [if_pos ⟨exported.1, used, gone⟩] at stays
        exact stays rfl
      simp [positive, used]
    · simp [same, used]

/-! ## Provisions -/

/-- A `Provide` answers, and may fill a free entry with a provision for its
question. -/
theorem handleProvide_effect :
    (∃ ids, (ids = [] ∨ body.kind = .struct ∧ ids = [m.getU32 body 0 0]) ∧
        Replies w ids (handleProvide env m body left w).2) ∨
      ∃ i p, (w.vat.provisions i).used = false ∧ p.used = true ∧ p.embargoed = false ∧
        p.questionId = m.getU32 body 0 0 ∧ body.kind = .struct ∧
        Replies { w with vat := w.vat.setProvision i p } [m.getU32 body 0 0]
          (handleProvide env m body left w).2 := by
  have qidLt := getU32_lt m body 0
  unfold handleProvide
  dsimp only
  split
  · exact .inl ⟨[], .inl rfl, Replies.refl w⟩
  · next isStruct =>
    have isStruct := not_not.mp isStruct
    have refused (reason : String) (short : reason.toList.length ≤ 1024) :
        ∃ ids, (ids = [] ∨ body.kind = .struct ∧ ids = [m.getU32 body 0 0]) ∧
          Replies w ids (w.sendReturnException env (m.getU32 body 0 0) reason).2 :=
      ⟨_, .inr ⟨isStruct, rfl⟩, (w.sendReturnException_answers env qidLt short).replies⟩
    split
    · exact .inl (refused _ (by decide))
    · split
      · exact .inl (refused _ (by decide))
      · next eid left' _ =>
        split
        · exact .inl (refused _ (by decide))
        · split
          · exact .inl (refused _ (by decide))
          · next i found =>
            obtain ⟨-, free, -⟩ := firstIndex_eq_some found
            refine .inr ⟨i, _, by simpa using free, ?_, ?_, ?_, isStruct,
              (Replies.of_conn { w with vat := w.vat.setProvision i _ }
                (Conn.retain_exporting _ eid) rfl).trans
                (World.sendEmptyReturn_answers _ env qidLt).replies⟩
            · rfl
            · rfl
            · rfl

/-- What an `Accept` does: it answers, it claims a provision and answers, or it
claims a provision and holds its answer back. -/
theorem handleAccept_effect :
    (∃ ids, (ids = [] ∨ body.kind = .struct ∧ ids = [m.getU32 body 0 0]) ∧
        Replies w ids (handleAccept env m body left w).2) ∨
      (∃ i p, (w.vat.provisions i).embargoed = false ∧ p.used = false ∧
        p.embargoed = false ∧ body.kind = .struct ∧
        Replies { w with vat := w.vat.setProvision i p } [m.getU32 body 0 0]
          (handleAccept env m body left w).2) ∨
      ∃ i eid, i < maxProvisions ∧ (w.vat.provisions i).used = true ∧
        (w.vat.provisions i).embargoed = false ∧ body.kind = .struct ∧ eid < maxExports ∧
        ((handleAccept env m body left w).2.conn.exports eid).used = true ∧
        ((handleAccept env m body left w).2.conn.exports eid).server =
          (w.vat.provisions i).server ∧
        Replies { w with vat := w.vat.setProvision i { w.vat.provisions i with
            exportId := eid, embargoed := true, acceptQuestionId := m.getU32 body 0 0 } } []
          (handleAccept env m body left w).2 := by
  have qidLt := getU32_lt m body 0
  unfold handleAccept
  dsimp only
  split
  · exact .inl ⟨[], .inl rfl, Replies.refl w⟩
  · next isStruct =>
    have isStruct := not_not.mp isStruct
    have refused (reason : String) (short : reason.toList.length ≤ 1024) :
        ∃ ids, (ids = [] ∨ body.kind = .struct ∧ ids = [m.getU32 body 0 0]) ∧
          Replies w ids (w.sendReturnException env (m.getU32 body 0 0) reason).2 :=
      ⟨_, .inr ⟨isStruct, rfl⟩, (w.sendReturnException_answers env qidLt short).replies⟩
    split
    · exact .inl (refused _ (by decide))
    · split
      · exact .inl (refused _ (by decide))
      · next i found =>
        obtain ⟨index, open', -⟩ := firstIndex_eq_some found
        simp only [Bool.and_eq_true, Bool.not_eq_true', beq_iff_eq] at open'
        obtain ⟨⟨used, unheld⟩, -⟩ := open'
        split
        · next c full =>
          rw [Conn.exportCap_none full]
          exact .inl (refused _ (by decide))
        · next eid c exported =>
          obtain ⟨small, eidUsed, server, exporting, joins⟩ := Conn.exportCap_some exported
          split
          · exact .inr (.inr ⟨i, eid, index, used, unheld, isStruct, small, eidUsed, server,
              Replies.of_conn { w with vat := w.vat.setProvision i _ } exporting joins⟩)
          · refine .inr (.inl ⟨i, _, unheld, ?_, ?_, isStruct,
              (Replies.of_conn { w with vat := w.vat.setProvision i _ } exporting joins).trans
                (World.sendCapReturn_answers _ env qidLt (exportId_lt exported)).replies⟩)
            · rfl
            · exact unheld

end

end CapnpJanet.Rpc
