import CapnpJanet.Rpc.Returns

/-!
# What sending a reply leaves alone

Every reply goes through one of a few sending functions.  Each sends one frame,
and touches nothing of the connection but the answer table; what a handler does
besides is what it did before it sent.
-/

namespace CapnpJanet.Rpc

open ByteMemory Builder Outcome

/-- One `Return` for a question has been sent.  The answer table may have
changed; the vat, the exports, the joins and the dispatch calls have not. -/
structure Answered (w : World) (qid which : Nat) (w' : World) : Prop where
  sent : ∃ flat, w'.sent = w.sent ++ [flat] ∧ returnOf flat = some ⟨qid, which⟩
  vat_eq : w'.vat = w.vat
  exports_eq : w'.conn.exports = w.conn.exports
  joins_eq : w'.conn.joins = w.conn.joins
  dispatched_eq : w'.dispatched = w.dispatched

namespace World

variable {w : World} {env : Env} {b : Builder} {qid which : Nat}

theorem flush_answers (reads : ReadsAs b qid which) : Answered w qid which (w.flush env b).2 := by
  obtain ⟨flat, done, read⟩ := reads
  unfold flush
  rw [done]
  exact ⟨⟨flat, rfl, read⟩, rfl, rfl, rfl, rfl⟩

/-- Keeping an answer leaves the exports and the joins alone. -/
theorem answerKeep_exports (c : Conn) (qid : Nat) (flat : List UInt8) :
    (c.answerKeep qid flat).exports = c.exports ∧ (c.answerKeep qid flat).joins = c.joins := by
  unfold Conn.answerKeep
  split
  · split
    · exact ⟨rfl, rfl⟩
    · exact ⟨rfl, rfl⟩
  · exact ⟨rfl, rfl⟩

theorem flushAnswer_answers (reads : ReadsAs b qid which) :
    Answered w qid which (w.flushAnswer env qid b).2 := by
  obtain ⟨flat, done, read⟩ := reads
  obtain ⟨exports, joins⟩ := answerKeep_exports w.conn qid flat
  unfold flushAnswer
  rw [done]
  exact ⟨⟨flat, rfl, read⟩, rfl, exports, joins, rfl⟩

theorem sendReturnException_answers (w : World) (env : Env) (qidLt : qid < 2 ^ 32)
    {reason : String} (short : reason.toList.length ≤ 1024) :
    Answered w qid returnTagException (w.sendReturnException env qid reason).2 := by
  obtain ⟨b, built, reads⟩ := exceptionReturn_reads qidLt short
  unfold sendReturnException build
  rw [built]
  exact flush_answers reads

theorem sendEmptyReturn_answers (w : World) (env : Env) (qidLt : qid < 2 ^ 32) :
    Answered w qid returnTagResults (w.sendEmptyReturn env qid).2 := by
  obtain ⟨b, built, reads⟩ := emptyReturn_reads qidLt
  unfold sendEmptyReturn build
  rw [built]
  exact flushAnswer_answers reads

theorem sendCapReturn_answers (w : World) (env : Env) (qidLt : qid < 2 ^ 32) {eid : Nat}
    (eidLt : eid < 2 ^ 32) : Answered w qid returnTagResults (w.sendCapReturn env qid eid).2 := by
  obtain ⟨b, flat, built, done, read, -⟩ := capReturn_reads qidLt eidLt
  unfold sendCapReturn build
  rw [built]
  exact flushAnswer_answers ⟨flat, done, read⟩

/-- The capability such an answer carries. -/
theorem sendCapReturn_carries (w : World) (env : Env) (qidLt : qid < 2 ^ 32) {eid : Nat}
    (eidLt : eid < 2 ^ 32) : ∃ flat, (w.sendCapReturn env qid eid).2.sent = w.sent ++ [flat] ∧
      returnOf flat = some ⟨qid, returnTagResults⟩ ∧ capIdOf flat = some eid := by
  obtain ⟨b, flat, built, done, read, carried⟩ := capReturn_reads qidLt eidLt
  unfold sendCapReturn build
  rw [built]
  dsimp only
  unfold flushAnswer
  rw [done]
  exact ⟨flat, rfl, read, carried⟩

/-- Sending leaves the vat alone, whatever becomes of the frame. -/
theorem sendCapReturn_vat (w : World) (env : Env) (qid eid : Nat) :
    (w.sendCapReturn env qid eid).2.vat = w.vat := by
  unfold sendCapReturn build flushAnswer
  split
  · rfl
  · split
    · rfl
    · rfl

end World

/-! ## Field sizes -/

theorem getU32_lt (m : Message) (s : Ptr) (offset : Nat) : m.getU32 s offset 0 < 2 ^ 32 := by
  unfold Message.getU32 Message.getScalar
  split
  · have bound := loadLe_lt 4 (m.seg s.seg).data (dataBytes s + offset)
    norm_num at bound ⊢
    exact bound
  · decide

/-- Export ids are table indices, so they fit their field. -/
theorem exportId_lt {c c' : Conn} {server dispatch eid : Nat}
    (exported : c.exportCap server dispatch = (some eid, c')) : eid < 2 ^ 32 :=
  (Conn.exportCap_some exported).1.trans (by decide)

/-! ## Replies -/

/-- The questions that frames answer. -/
def answeredIds (frames : List (List UInt8)) : List Nat :=
  (frames.filterMap returnOf).map ReturnInfo.answerId

@[simp]
theorem answeredIds_append (frames frames' : List (List UInt8)) :
    answeredIds (frames ++ frames') = answeredIds frames ++ answeredIds frames' := by
  simp [answeredIds]

/-- Frames that answer the questions `ids` have been sent.  The vat, the joins
and the dispatch calls are as before, and no export is lost. -/
structure Replies (w : World) (ids : List Nat) (w' : World) : Prop where
  sent : ∃ frames, w'.sent = w.sent ++ frames ∧ answeredIds frames = ids
  vat_eq : w'.vat = w.vat
  exporting : w.conn.Exporting w'.conn
  joins_eq : w'.conn.joins = w.conn.joins
  dispatched_eq : w'.dispatched = w.dispatched

namespace Replies

variable {w w₁ w' : World} {ids ids' : List Nat}

theorem refl (w : World) : Replies w [] w :=
  ⟨⟨[], by simp, rfl⟩, rfl, Conn.Exporting.refl _, rfl, rfl⟩

theorem trans (first : Replies w ids w₁) (second : Replies w₁ ids' w') :
    Replies w (ids ++ ids') w' := by
  obtain ⟨frames, sent, answered⟩ := first.sent
  obtain ⟨frames', sent', answered'⟩ := second.sent
  refine ⟨⟨frames ++ frames', ?_, ?_⟩, second.vat_eq.trans first.vat_eq,
    first.exporting.trans second.exporting, second.joins_eq.trans first.joins_eq,
    second.dispatched_eq.trans first.dispatched_eq⟩
  · rw [sent', sent, List.append_assoc]
  · rw [answeredIds_append, answered, answered']

/-- A change of the connection before anything is sent. -/
theorem of_conn (w : World) {c : Conn} (exporting : w.conn.Exporting c)
    (joins : c.joins = w.conn.joins) : Replies w [] { w with conn := c } :=
  ⟨⟨[], by simp, rfl⟩, rfl, exporting, joins, rfl⟩

end Replies

theorem Answered.replies {w w' : World} {qid which : Nat} (answered : Answered w qid which w') :
    Replies w [qid] w' := by
  obtain ⟨flat, sent, read⟩ := answered.sent
  exact ⟨⟨[flat], sent, by simp [answeredIds, read]⟩, answered.vat_eq,
    Conn.Exporting.of_eq answered.exports_eq, answered.joins_eq, answered.dispatched_eq⟩

/-- A frame that is no `Return` answers nothing. -/
theorem World.flush_silent (w : World) (env : Env) {b : Builder} (silent : Silent b) :
    Replies w [] (w.flush env b).2 := by
  unfold flush
  cases done : b.serialize with
  | error _ => exact Replies.refl w
  | ok flat =>
      exact ⟨⟨[flat], rfl, by simp [answeredIds, (silent flat done).1]⟩, rfl, Conn.Exporting.refl _,
        rfl, rfl⟩

theorem World.build_silent (w : World) (env : Env) {frame : BuildM Unit}
    (silent : Ends (frame Builder.init) (fun _ => Silent) fun _ => True) :
    Replies w [] (w.build frame (w.flush env)).2 := by
  unfold World.build
  cases built : frame Builder.init with
  | error _ _ => exact Replies.refl w
  | ok _ b =>
      rw [built] at silent
      exact w.flush_silent env silent

end CapnpJanet.Rpc
