import CapnpJanet.Rpc.Replies

/-!
# What the frames of a connection carry

Beside the question it answers, a `Return` names exports in its cap table, and
the answer to a `Join` says how the join went.  Each sender of `capnp_rpc.c` is
given here in closed form: the connection it leaves, and the one frame it hands
to the send callback, by what a peer reads in that frame.
-/

namespace CapnpJanet.Rpc

open ByteMemory Builder Outcome

/-- A frame is read as a `Return`, and its cap table names some exports. -/
structure IsReturn (flat : List UInt8) (qid which : Nat) (hosted : List Nat) : Prop where
  read : returnOf flat = some ⟨qid, which⟩
  hosted : hostedIds flat = hosted

/-- An answer whose content is one exported capability. -/
structure IsCapReturn (flat : List UInt8) (qid eid : Nat) : Prop extends
    IsReturn flat qid returnTagResults [eid] where
  capId : capIdOf flat = some eid
  length_eq : flat.length = 96

/-- The answer to one part of a `Join`, with the export it carries, if any. -/
structure IsJoinReturn (flat : List UInt8) (qid joinId : Nat) (succeeded : Bool)
    (cap : Option Nat) : Prop extends IsReturn flat qid returnTagResults cap.toList where
  result : joinResultOf flat = some (joinId, succeeded)

/-! ## The frames -/

/-- The first segment of a builder that has no other. -/
theorem starts_single {mem : Memory} {words : Nat} {flat : List UInt8}
    (done : (single mem words).serialize = .ok flat) (small : words < 2 ^ 32) :
    Starts (Frame.message (ofList flat)) mem words := by
  have starts := starts_serialize done (framable_single small)
  rwa [single_seg_zero] at starts

theorem payloadMem_clear (qid : Nat) {i : Nat} (behind : 48 ≤ i) : payloadMem qid i = 0 := by
  rw [payloadMem, returnMem, messageMem, storeWord_of_ne (by omega), storeLe_of_le (by omega),
    storeLe_of_le (by omega), storeWord_of_ne (by omega), storeLe_of_le (by omega),
    storeWord_of_ne (by omega)]

theorem payloadMem_payload (qid : Nat) : word (payloadMem qid) 5 = wpMakeStruct 0 0 2 := by
  rw [payloadMem, word_storeWord_self]
  decide

theorem emptyReturn_isReturn {qid : Nat} (qidLt : qid < 2 ^ 32) : ∃ b flat,
    emptyReturn qid Builder.init = .ok () b ∧ b.serialize = .ok flat ∧
      IsReturn flat qid returnTagResults [] := by
  obtain ⟨flat, done⟩ := serialize_single (payloadMem qid) (show 8 ≠ 0 by decide)
  have head := returnWords_payloadMem qidLt
  have starts := starts_single done (by decide)
  refine ⟨_, flat, ?_, done, returnOf_eq starts head (by decide), ?_⟩
  · rw [emptyReturn, bind_run (beginReturn_init qid)]
    rfl
  · exact hostedIds_nil starts head (payloadMem_payload qid)
      (word_of_clear fun k _ => payloadMem_clear qid (by omega)) le_rfl

theorem exceptionReturn_isReturn {qid : Nat} (qidLt : qid < 2 ^ 32) {reason : String}
    (short : reason.toList.length ≤ 1024) : ∃ b flat,
    exceptionReturn qid reason Builder.init = .ok () b ∧ b.serialize = .ok flat ∧
      IsReturn flat qid returnTagException [] := by
  obtain ⟨b, built, flat, done, read⟩ := exceptionReturn_reads qidLt short
  exact ⟨b, flat, built, done, read, hostedIds_of_exception read (by decide)⟩

/-- The bytes of a frame with one segment: its table, and its words. -/
theorem length_serialize_single {mem : Memory} {words : Nat} {flat : List UInt8}
    (done : (single mem words).serialize = .ok flat) : flat.length = 8 + words * 8 := by
  obtain ⟨-, -, rfl⟩ := serialize_eq done
  have table : Frame.tableBytes 1 = 8 := by decide
  rw [length_flatBytes, show (single mem words).nsegs = 1 from rfl, table, Frame.wordsBefore,
    Frame.wordsBefore, single_seg_zero]
  dsimp only
  omega

theorem capReturn_isCapReturn {qid eid : Nat} (qidLt : qid < 2 ^ 32) (eidLt : eid < 2 ^ 32) :
    ∃ b flat, capReturn qid eid Builder.init = .ok () b ∧ b.serialize = .ok flat ∧
      IsCapReturn flat qid eid := by
  obtain ⟨flat, done⟩ := serialize_single (capMem qid eid) (show 11 ≠ 0 by decide)
  have head := returnWords_capMem qidLt eid
  have cap := capWords_capMem qid eidLt
  have starts := starts_single done (by decide)
  have hosted := hostedIds_single starts head cap.payload cap.tableWords (by decide) le_rfl
    (by decide)
  exact ⟨_, flat, capReturn_init qid eid, done, ⟨returnOf_eq starts head (by decide), hosted⟩,
    capIdOf_eq starts head cap le_rfl, length_serialize_single done⟩

/-- A cap table with one entry, written behind `words` words. -/
theorem tableWords_tableMem (mem : Memory) {words eid : Nat} (behind : 8 ≤ words)
    (eidLt : eid < 2 ^ 32) : TableWords (tableMem mem words eid) (words + 1) eid := by
  unfold tableMem
  constructor
  · rw [word_storeLe_disjoint (by omega), word_storeLe_disjoint (by omega), word_storeWord_self,
      show ((words + 1 : Nat) : Int) - 9 = (words : Int) - 7 - 1 by omega]
    exact Nat.mod_eq_of_lt (wpMakeList_lt _ _ _)
  · rw [Nat.add_sub_cancel, word_storeLe_disjoint (by omega), word_storeLe_disjoint (by omega),
      word_storeWord_of_ne (by omega), word_storeWord_self]
    decide
  · rw [loadLe_storeLe_disjoint (by omega), loadLe_storeLe]
    decide
  · rw [loadLe_storeLe]
    omega

theorem TableWords.storeWord_nine {mem : Memory} {eid : Nat} (entry : TableWords mem 11 eid)
    (w : Nat) : TableWords (storeWord mem 9 w) 11 eid where
  table := (word_storeWord_of_ne (by decide)).trans entry.table
  elems := (word_storeWord_of_ne (by decide)).trans entry.elems
  hosted := (loadLe_storeWord_disjoint (by decide)).trans entry.hosted
  id := (loadLe_storeWord_disjoint (by decide)).trans entry.id

theorem JoinWords.congr {mem other : Memory} {joinId : Nat} {succeeded : Bool}
    (result : JoinWords mem joinId succeeded) (same : ∀ i < 72, i / 8 ≠ 7 → other i = mem i) :
    JoinWords other joinId succeeded where
  payload := (word_congr fun k hk => same _ (by omega) (by omega)).trans result.payload
  content := (word_congr fun k hk => same _ (by omega) (by omega)).trans result.content
  joinId := (loadLe_congr fun k hk => same _ (by omega) (by omega)).trans result.joinId
  flag := by
    rw [same 68 (by decide) (by decide)]
    exact result.flag

theorem joinWords_resultMem (qid : Nat) {joinId : Nat} (small : joinId < 2 ^ 32)
    (succeeded : Bool) : JoinWords (resultMem qid joinId succeeded) joinId succeeded := by
  have before {i : Nat} (apart : i < 68) :
      resultMem qid joinId succeeded i = joinMem qid joinId i := blit_outside (.inl apart)
  constructor
  · rw [← payloadMem_payload qid]
    exact word_congr fun k hk => resultMem_of_lt (by omega)
  · have content : word (resultMem qid joinId succeeded) 6 = word (joinMem qid joinId) 6 :=
      word_congr fun k hk => before (by omega)
    rw [content, joinMem, word_storeLe_disjoint (by decide), word_storeWord_self]
    decide
  · have id : loadLe 4 (resultMem qid joinId succeeded) 64 = loadLe 4 (joinMem qid joinId) 64 :=
      loadLe_congr fun k hk => before (by omega)
    rw [id, joinMem, loadLe_storeLe]
    omega
  · have clear : joinMem qid joinId 68 = 0 := by
      rw [joinMem, storeLe_of_le (by decide), storeWord_of_ne (by decide),
        payloadMem_clear _ (by decide)]
    have byte : resultMem qid joinId succeeded 68 = withBit 0 0 succeeded := by
      rw [resultMem, clear]
      exact blit_inside (n := 1) (i := 0) (by decide)
    rw [byte]
    cases succeeded
    · rfl
    · rfl

theorem returnWords_resultMem {qid : Nat} (qidLt : qid < 2 ^ 32) (joinId : Nat) (succeeded : Bool) :
    ReturnWords (resultMem qid joinId succeeded) qid returnTagResults :=
  (returnWords_payloadMem qidLt).congr fun _ _ => resultMem_of_lt (by omega)

/-- The two frames of `send_join_result`. -/
theorem beginJoinResult_isJoinReturn {qid joinId : Nat} (qidLt : qid < 2 ^ 32)
    (joinIdLt : joinId < 2 ^ 32) (succeeded : Bool) : ∃ b flat,
    beginJoinResult qid joinId succeeded Builder.init = .ok (⟨0, 6⟩, ⟨0, 8⟩) b ∧
      b.serialize = .ok flat ∧ IsJoinReturn flat qid joinId succeeded none ∧
      ∀ eid < 2 ^ 32, ∃ b' flat', joinResultCap ⟨0, 6⟩ ⟨0, 8⟩ eid b = .ok () b' ∧
        b'.serialize = .ok flat' ∧ IsJoinReturn flat' qid joinId succeeded (some eid) := by
  have head := returnWords_resultMem qidLt joinId succeeded
  have result := joinWords_resultMem qid joinIdLt succeeded
  obtain ⟨flat, done⟩ := serialize_single (resultMem qid joinId succeeded) (show 10 ≠ 0 by decide)
  have starts := starts_single done (by decide)
  refine ⟨_, flat, beginJoinResult_init qid joinId succeeded, done, ?_, fun eid eidLt => ?_⟩
  · refine ⟨⟨returnOf_eq starts head (by decide), ?_⟩, joinResultOf_eq starts head result le_rfl⟩
    refine hostedIds_nil starts head result.payload (word_of_clear fun k _ => ?_) (by decide)
    rw [resultMem, blit_outside (.inl (by omega)), joinMem, storeLe_of_lt (by omega),
      storeWord_of_ne (by omega), payloadMem_clear _ (by omega)]
  · obtain ⟨flat', done'⟩ := serialize_single
      (storeWord (tableMem (resultMem qid joinId succeeded) 10 eid) 9 (wpMakeCap 0))
      (show 13 ≠ 0 by decide)
    have starts' := starts_single done' (by decide)
    have table := tableWords_tableMem (resultMem qid joinId succeeded) (show 8 ≤ 10 by decide) eidLt
    have kept {i : Nat} (before : i < 72) (apart : i / 8 ≠ 7) :
        storeWord (tableMem (resultMem qid joinId succeeded) 10 eid) 9 (wpMakeCap 0) i =
          resultMem qid joinId succeeded i := by
      rw [storeWord_of_ne (by omega), tableMem_of_ne (by omega) apart]
    have head' := head.congr fun i hi => kept (by omega) (by omega)
    have result' := result.congr fun i hi apart => kept hi apart
    have hosted := hostedIds_single starts' head' result'.payload (table.storeWord_nine _)
      (by decide) le_rfl (by decide)
    exact ⟨_, flat', joinResultCap_init qid joinId eid succeeded, done',
      ⟨returnOf_eq starts' head' (by decide), hosted⟩,
      joinResultOf_eq starts' head' result' (by decide)⟩

/-- Whatever a dispatch function writes, its reply names no export: the pointer
to the cap table lies before its results. -/
theorem callReply_isReturn {qid : Nat} (qidLt : qid < 2 ^ 32) {ops : List BuildOp}
    (framable : (callReply qid ops).Framable) : ∃ flat,
    (callReply qid ops).serialize = .ok flat ∧ IsReturn flat qid returnTagResults [] := by
  obtain ⟨flat, done, read⟩ := callReply_reads qidLt framable
  obtain ⟨kept, words, -⟩ := callReply_kept qid ops
  have starts := starts_serialize done framable
  have head : ReturnWords ((callReply qid ops).seg 0).data qid returnTagResults :=
    (returnWords_payloadMem qidLt).congr fun i hi => by
      rw [kept i (by omega), resultsMem, storeWord_of_ne (by omega)]
  refine ⟨flat, done, read, hostedIds_nil starts head ?_ ?_ (by omega)⟩
  · rw [← payloadMem_payload qid]
    refine word_congr fun k hk => ?_
    rw [kept _ (by omega), resultsMem, storeWord_of_ne (by omega)]
  · refine word_of_clear fun k hk => ?_
    rw [kept _ (by omega), resultsMem, storeWord_of_ne (by omega), payloadMem_clear _ (by omega)]

theorem getp_of_ne {m : Message} {s : Ptr} (noStruct : s.kind ≠ .struct) (k : Nat)
    (out : Ptr) (left : Nat) : m.getp s k out left = ⟨.kind, out, left⟩ := if_pos noStruct

/-- A frame that is no `Return` names no export. -/
theorem hostedIds_of_none {flat : List UInt8} (silent : returnOf flat = none) :
    hostedIds flat = [] := by
  have none : returnPayload (Frame.message (ofList flat)) = none := by
    unfold returnOf at silent
    unfold returnPayload
    dsimp only at silent ⊢
    split at silent
    · next root =>
      rcases root with failed | other
      · rw [if_pos failed]
      · split
        · rfl
        · rfl
    · next root =>
      simp only [not_or, not_not] at root
      split at silent
      · next ret =>
        rw [if_neg (not_not.mpr root.1), if_neg (not_not.mpr root.2)]
        split
        · rfl
        · next ok =>
          have noStruct := ret.resolve_left ok
          split
          · rfl
          · rw [getp_of_ne noStruct]
            rfl
      · cases silent
  unfold hostedIds
  dsimp only
  rw [none]

/-! ## The senders in closed form -/

namespace World

section
variable (w : World) (env : Env) {qid : Nat}

theorem sendReturnException_eq (qidLt : qid < 2 ^ 32) {reason : String}
    (short : reason.toList.length ≤ 1024) : ∃ flat, IsReturn flat qid returnTagException [] ∧
      w.sendReturnException env qid reason = w.transmit env flat := by
  obtain ⟨b, flat, built, done, isReturn⟩ := exceptionReturn_isReturn qidLt short
  refine ⟨flat, isReturn, ?_⟩
  rw [sendReturnException, build, built]
  dsimp only
  rw [flush, done]

theorem sendEmptyReturn_eq (qidLt : qid < 2 ^ 32) : ∃ flat, IsReturn flat qid returnTagResults [] ∧
    w.sendEmptyReturn env qid =
      { w with conn := w.conn.answerKeep qid flat }.transmit env flat := by
  obtain ⟨b, flat, built, done, isReturn⟩ := emptyReturn_isReturn qidLt
  refine ⟨flat, isReturn, ?_⟩
  rw [sendEmptyReturn, build, built]
  dsimp only
  rw [flushAnswer, done]

theorem sendCapReturn_eq (qidLt : qid < 2 ^ 32) {eid : Nat} (eidLt : eid < 2 ^ 32) :
    ∃ flat, IsCapReturn flat qid eid ∧ w.sendCapReturn env qid eid =
      { w with conn := w.conn.answerKeep qid flat }.transmit env flat := by
  obtain ⟨b, flat, built, done, isCapReturn⟩ := capReturn_isCapReturn qidLt eidLt
  refine ⟨flat, isCapReturn, ?_⟩
  rw [sendCapReturn, build, built]
  dsimp only
  rw [flushAnswer, done]

theorem flushAnswer_callReply_eq (qidLt : qid < 2 ^ 32) {ops : List BuildOp}
    (framable : (callReply qid ops).Framable) : ∃ flat, IsReturn flat qid returnTagResults [] ∧
      w.flushAnswer env qid (callReply qid ops) =
        { w with conn := w.conn.answerKeep qid flat }.transmit env flat := by
  obtain ⟨flat, done, isReturn⟩ := callReply_isReturn qidLt framable
  refine ⟨flat, isReturn, ?_⟩
  rw [flushAnswer, done]

/-- The connection after a join result with a capability: the receiver gains a
reference. -/
theorem sendJoinResult_eq {joinId : Nat} (qidLt : qid < 2 ^ 32) (joinIdLt : joinId < 2 ^ 32)
    (succeeded : Bool) {cap : Option Nat} (capLt : ∀ eid ∈ cap, eid < 2 ^ 32) :
    ∃ flat, IsJoinReturn flat qid joinId succeeded cap ∧
      sendJoinResult env qid joinId succeeded cap w =
        { w with conn := cap.elim w.conn w.conn.retain }.transmit env flat := by
  obtain ⟨b, flat, begun, done, plain, carrying⟩ :=
    beginJoinResult_isJoinReturn qidLt joinIdLt succeeded
  cases cap with
  | none =>
      refine ⟨flat, plain, ?_⟩
      rw [sendJoinResult, begun]
      dsimp only
      rw [flush, done]
      rfl
  | some eid =>
      obtain ⟨b', flat', finished, done', carries⟩ := carrying eid (capLt eid rfl)
      refine ⟨flat', carries, ?_⟩
      rw [sendJoinResult, begun]
      dsimp only
      rw [finished]
      dsimp only
      rw [flush, done']
      rfl

end

end World

end CapnpJanet.Rpc
