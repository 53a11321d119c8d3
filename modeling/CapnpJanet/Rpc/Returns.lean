import CapnpJanet.Rpc.Decode

/-!
# The frames of this connection, as a peer reads them

Each frame the connection builds itself fits into the first segment, so the
memory it leaves there has a closed form.  A `Return` built here is read as a
`Return` for the question it was built for, and so is the reply of a dispatch
function: its calls stay behind the words of the `Return`.
-/

namespace CapnpJanet.Rpc

open ByteMemory Builder Outcome

/-! ## Running a frame's program -/

theorem orAlloc_run {α : Type} {x : BuildM α} {b b' : Builder} {a : α} (run : x b = .ok a b') :
    BuildM.orAlloc x b = .ok a b' := by
  rw [BuildM.orAlloc, run]

/-- The first segment after `beginMessage`. -/
def messageMem (tag : Nat) : Memory :=
  storeLe 2 (storeWord (fun _ => 0) 0 (wpMakeStruct 0 1 1)) 8 tag

/-- The first segment once the `Return` struct is written. -/
def returnMem (qid which : Nat) : Memory :=
  storeLe 2 (storeLe 4 (storeWord (messageMem msgReturn) 2 (wpMakeStruct 0 2 1)) 24 qid) 30 which

theorem messageWords_messageMem {tag : Nat} (small : tag < 2 ^ 16) :
    MessageWords (messageMem tag) tag := by
  constructor
  · rw [messageMem, word_storeLe_disjoint (by omega), word_storeWord_self]
    decide
  · rw [messageMem, loadLe_storeLe]
    omega

theorem returnWords_returnMem {qid which : Nat} (qidLt : qid < 2 ^ 32) (small : which < 2 ^ 16) :
    ReturnWords (returnMem qid which) qid which := by
  have head : MessageWords (messageMem msgReturn) msgReturn := messageWords_messageMem (by decide)
  refine ⟨⟨?_, ?_⟩, ?_, ?_, ?_⟩
  · rw [returnMem, word_storeLe_disjoint (by omega), word_storeLe_disjoint (by omega),
      word_storeWord_of_ne (by omega), head.root]
  · rw [returnMem, loadLe_storeLe_disjoint (by omega), loadLe_storeLe_disjoint (by omega),
      loadLe_storeWord_disjoint (by omega), head.tag]
  · rw [returnMem, word_storeLe_disjoint (by omega), word_storeLe_disjoint (by omega),
      word_storeWord_self]
    decide
  · rw [returnMem, loadLe_storeLe_disjoint (by omega), loadLe_storeLe]
    omega
  · rw [returnMem, loadLe_storeLe]
    omega

theorem MessageWords.congr {mem other : Memory} {tag : Nat} (head : MessageWords mem tag)
    (same : ∀ i < 16, other i = mem i) : MessageWords other tag where
  root := (word_congr fun k hk => same _ (by omega)).trans head.root
  tag := (loadLe_congr fun k hk => same _ (by omega)).trans head.tag

/-- A memory that starts like a `Return`, up to its pointer. -/
theorem ReturnWords.congr {mem other : Memory} {qid which : Nat} (head : ReturnWords mem qid which)
    (same : ∀ i < 40, other i = mem i) : ReturnWords other qid which where
  toMessageWords := head.toMessageWords.congr fun i hi => same i (by omega)
  ret := (word_congr fun k hk => same _ (by omega)).trans head.ret
  answerId := (loadLe_congr fun k hk => same _ (by omega)).trans head.answerId
  which := (loadLe_congr fun k hk => same _ (by omega)).trans head.which

theorem beginMessage_init (tag : Nat) :
    beginMessage tag Builder.init = .ok ⟨0, 1⟩ (single (messageMem tag) 3) := by
  rw [init_eq_single, beginMessage, bind_run root_single,
    bind_run (struct_single (by decide) (by decide)), setU16,
    bind_run (setScalar_single (by decide))]
  rfl

/-- The `Return` struct of a frame and its pointer slot. -/
theorem return_init {β : Type} (qid which : Nat) (f : BPtr → BPtr → BuildM β) :
    (do
      let msg ← beginMessage msgReturn
      let at' ← slot msg 1 0
      let ret ← struct at' 2 1
      setU32 ret returnAnswerIdOff qid
      setU16 ret returnTagOff which
      let at' ← slot ret 2 0
      f ret at') Builder.init = f ⟨0, 3⟩ ⟨0, 5⟩ (single (returnMem qid which) 6) := by
  rw [bind_run (beginMessage_init msgReturn), bind_run (slot_single (by decide)),
    bind_run (struct_single (by decide) (by decide)), setU32,
    bind_run (setScalar_single (by decide)), setU16, bind_run (setScalar_single (by decide)),
    bind_run (slot_single (by decide))]
  rfl

/-- The first segment after `beginReturn`. -/
def payloadMem (qid : Nat) : Memory :=
  storeWord (returnMem qid returnTagResults) 5 (wpMakeStruct 0 0 2)

theorem beginReturn_init (qid : Nat) :
    beginReturn qid Builder.init = .ok (⟨0, 3⟩, ⟨0, 6⟩) (single (payloadMem qid) 8) := by
  apply orAlloc_run
  rw [return_init, bind_run (struct_single (by decide) (by decide))]
  rfl

/-! ## Returns -/

/-- A finished builder whose frame a peer reads as a `Return`. -/
def ReadsAs (b : Builder) (qid which : Nat) : Prop :=
  ∃ flat, b.serialize = .ok flat ∧ returnOf flat = some ⟨qid, which⟩

theorem readsAs_single {mem : Memory} {qid which : Nat} (words : Nat)
    (head : ReturnWords mem qid which) (inside : 6 ≤ words) (small : words < 2 ^ 32) :
    ReadsAs (single mem words) qid which := by
  obtain ⟨flat, done⟩ := serialize_single mem (show words ≠ 0 by omega)
  exact ⟨flat, done, returnOf_serialize done (framable_single small)
    (by rwa [single_seg_zero]) (by rwa [single_seg_zero])⟩

theorem returnWords_payloadMem {qid : Nat} (qidLt : qid < 2 ^ 32) :
    ReturnWords (payloadMem qid) qid returnTagResults :=
  (returnWords_returnMem qidLt (by decide)).congr fun i hi => storeWord_of_ne (by omega)

/-- The first segment of an exception before its reason. -/
def exceptionMem (qid : Nat) : Memory :=
  storeLe 2 (storeWord (returnMem qid returnTagException) 5 (wpMakeStruct 0 1 2)) 48 0

/-- The frame of an exception is one segment that starts like a `Return`. -/
theorem exceptionReturn_single {qid : Nat} (qidLt : qid < 2 ^ 32) {reason : String}
    (short : reason.toList.length ≤ 1024) : ∃ mem words,
    exceptionReturn qid reason Builder.init = .ok () (single mem words) ∧
      ReturnWords mem qid returnTagException ∧ 6 ≤ words ∧ words < 2 ^ 32 := by
  have room : 9 + wordsFor ((cString reason).length + 1) ≤ builderDefaultFirstWords := by
    rw [cString, List.length_map]
    unfold wordsFor builderDefaultFirstWords
    omega
  obtain ⟨mem, written, kept, -⟩ := setText_single (exceptionMem qid) (cString reason)
    (show 6 + 1 + 0 < 9 by decide) room
  refine ⟨mem, _, ?_, (returnWords_returnMem qidLt (by decide)).congr fun i hi => ?_,
    Nat.le_add_right_of_le (by decide), room.trans_lt (by decide)⟩
  · rw [exceptionReturn, return_init, bind_run (struct_single (by decide) (by decide)), setU16,
      bind_run (setScalar_single (by decide))]
    exact written
  · rw [kept i (.inl (by omega)) (by omega), exceptionMem, storeLe_of_lt (by omega),
      storeWord_of_ne (by omega)]

/-- `send_return_exception` sends a `Return` for the question. -/
theorem exceptionReturn_reads {qid : Nat} (qidLt : qid < 2 ^ 32) {reason : String}
    (short : reason.toList.length ≤ 1024) :
    ∃ b, exceptionReturn qid reason Builder.init = .ok () b ∧ ReadsAs b qid returnTagException := by
  obtain ⟨mem, words, built, head, inside, small⟩ := exceptionReturn_single qidLt short
  exact ⟨_, built, readsAs_single words head inside small⟩

/-- `send_empty_return` sends a `Return` for the question. -/
theorem emptyReturn_reads {qid : Nat} (qidLt : qid < 2 ^ 32) :
    ∃ b, emptyReturn qid Builder.init = .ok () b ∧ ReadsAs b qid returnTagResults := by
  refine ⟨_, ?_, readsAs_single 8 (returnWords_payloadMem qidLt) (by decide) (by decide)⟩
  rw [emptyReturn, bind_run (beginReturn_init qid)]
  rfl

/-- A segment of `words` words after a cap table with one entry is written. -/
def tableMem (mem : Memory) (words eid : Nat) : Memory :=
  storeLe 4
    (storeLe 2
      (storeWord (storeWord mem words (wpMakeStruct (1 : Nat) 1 1)) 7
        (wpMakeList ((words : Int) - 7 - 1) .composite 2))
      ((words + 1) * 8) capDescTagSenderHosted)
    ((words + 1) * 8 + 4) eid

theorem writeCapTable_single (mem : Memory) {words : Nat} (eid : Nat) (inside : 8 ≤ words)
    (room : words + 3 ≤ builderDefaultFirstWords) :
    writeCapTable ⟨0, 6⟩ eid (single mem words) =
      .ok () (single (tableMem mem words eid) (words + 3)) := by
  apply orAlloc_run
  rw [bind_run (setListStruct_single (by omega) (by omega)), setU16,
    bind_run (setScalar_single (by unfold capDescTagOff; omega)), setU32,
    setScalar_single (by unfold capDescSenderHostedOff; omega)]
  rfl

theorem tableMem_of_lt {mem : Memory} {words eid i : Nat} (inside : 8 ≤ words) (before : i < 56) :
    tableMem mem words eid i = mem i := by
  rw [tableMem, storeLe_of_lt (by omega), storeLe_of_lt (by omega), storeWord_of_ne (by omega),
    storeWord_of_ne (by omega)]

theorem tableMem_of_ne {mem : Memory} {words eid i : Nat} (before : i < words * 8)
    (apart : i / 8 ≠ 7) : tableMem mem words eid i = mem i := by
  rw [tableMem, storeLe_of_lt (by omega), storeLe_of_lt (by omega), storeWord_of_ne (by omega),
    storeWord_of_ne (by omega)]

/-- The first segment of an answer with one capability. -/
def capMem (qid eid : Nat) : Memory := storeWord (tableMem (payloadMem qid) 8 eid) 6 (wpMakeCap 0)

theorem capReturn_init (qid eid : Nat) :
    capReturn qid eid Builder.init = .ok () (single (capMem qid eid) 11) := by
  rw [capReturn, bind_run (beginReturn_init qid)]
  dsimp only
  rw [bind_run (writeCapTable_single _ eid (by decide) (by decide)), setCap_single (by decide)]
  rfl

theorem returnWords_capMem {qid : Nat} (qidLt : qid < 2 ^ 32) (eid : Nat) :
    ReturnWords (capMem qid eid) qid returnTagResults := by
  refine (returnWords_payloadMem qidLt).congr fun i hi => ?_
  rw [capMem, storeWord_of_ne (by omega), tableMem_of_lt (by decide) (by omega)]

theorem capWords_capMem (qid : Nat) {eid : Nat} (eidLt : eid < 2 ^ 32) :
    CapWords (capMem qid eid) eid := by
  unfold capMem tableMem
  constructor
  · rw [word_storeWord_of_ne (by decide), word_storeLe_disjoint (by decide),
      word_storeLe_disjoint (by decide), word_storeWord_of_ne (by decide),
      word_storeWord_of_ne (by decide), payloadMem, word_storeWord_self]
    decide
  · rw [word_storeWord_self]
    decide
  · rw [word_storeWord_of_ne (by decide), word_storeLe_disjoint (by decide),
      word_storeLe_disjoint (by decide), word_storeWord_self]
    decide
  · rw [word_storeWord_of_ne (by decide), word_storeLe_disjoint (by decide),
      word_storeLe_disjoint (by decide), word_storeWord_of_ne (by decide), word_storeWord_self]
    decide
  · rw [loadLe_storeWord_disjoint (by decide), loadLe_storeLe_disjoint (by decide), loadLe_storeLe]
    decide
  · rw [loadLe_storeWord_disjoint (by decide), loadLe_storeLe]
    omega

/-- An answer with a capability is a `Return` for the question, and carries the
id of the export. -/
theorem capReturn_reads {qid eid : Nat} (qidLt : qid < 2 ^ 32) (eidLt : eid < 2 ^ 32) :
    ∃ b flat, capReturn qid eid Builder.init = .ok () b ∧ b.serialize = .ok flat ∧
      returnOf flat = some ⟨qid, returnTagResults⟩ ∧ capIdOf flat = some eid := by
  obtain ⟨flat, done⟩ := serialize_single (capMem qid eid) (show 11 ≠ 0 by decide)
  have fits : (single (capMem qid eid) 11).Framable := framable_single (by decide)
  have size : ((single (capMem qid eid) 11).seg 0).words = 11 := by rw [single_seg_zero]
  have head := returnWords_capMem qidLt eid
  have cap := capWords_capMem qid eidLt
  have mem : ((single (capMem qid eid) 11).seg 0).data = capMem qid eid := by rw [single_seg_zero]
  rw [← mem] at head cap
  exact ⟨_, flat, capReturn_init qid eid, done, returnOf_serialize done fits head (by omega),
    capIdOf_serialize done fits head cap (by omega)⟩

/-- The first segment of a join result before its flag. -/
def joinMem (qid joinId : Nat) : Memory :=
  storeLe 4 (storeWord (payloadMem qid) 6 (wpMakeStruct (1 : Nat) 1 1)) 64 joinId

/-- The first segment of a join result before its capability. -/
def resultMem (qid joinId : Nat) (succeeded : Bool) : Memory :=
  blit 1 (joinMem qid joinId) 68 fun _ => withBit (joinMem qid joinId 68) 0 succeeded

theorem beginJoinResult_init (qid joinId : Nat) (succeeded : Bool) :
    beginJoinResult qid joinId succeeded Builder.init =
      .ok (⟨0, 6⟩, ⟨0, 8⟩) (single (resultMem qid joinId succeeded) 10) := by
  have placed : BuildM.orAlloc (do
        let at' ← slot ⟨0, 6⟩ 0 0
        struct at' 1 1) (single (payloadMem qid) 8) =
      .ok ⟨0, 8⟩ (single (storeWord (payloadMem qid) 6 (wpMakeStruct (1 : Nat) 1 1)) 10) := by
    apply orAlloc_run
    rw [bind_run (slot_single (by decide)), struct_single (by decide) (by decide)]
    rfl
  have numbered : setU32 ⟨0, 8⟩ 0 joinId
        (single (storeWord (payloadMem qid) 6 (wpMakeStruct (1 : Nat) 1 1)) 10) =
      .ok () (single (joinMem qid joinId) 10) := setScalar_single (by decide)
  have flagged := setBool_single (joinMem qid joinId) succeeded
    (show 8 * 8 + 32 / 8 + 1 ≤ 10 * 8 by decide)
  rw [beginJoinResult, bind_run (beginReturn_init qid)]
  dsimp only
  rw [bind_run placed, bind_run numbered, bind_run flagged]
  rfl

theorem resultMem_of_lt {qid joinId i : Nat} {succeeded : Bool} (before : i < 48) :
    resultMem qid joinId succeeded i = payloadMem qid i := by
  rw [resultMem, blit_outside (.inl (by omega)), joinMem, storeLe_of_lt (by omega),
    storeWord_of_ne (by omega)]

/-- A join result with its capability. -/
theorem joinResultCap_init (qid joinId eid : Nat) (succeeded : Bool) :
    joinResultCap ⟨0, 6⟩ ⟨0, 8⟩ eid (single (resultMem qid joinId succeeded) 10) =
      .ok () (single (storeWord (tableMem (resultMem qid joinId succeeded) 10 eid) 9 (wpMakeCap 0))
        13) := by
  rw [joinResultCap, bind_run (writeCapTable_single _ eid (by decide) (by decide)),
    setCap_single (by decide)]

/-- A join result is a `Return` for the question, with and without its
capability. -/
theorem beginJoinResult_reads {qid : Nat} (qidLt : qid < 2 ^ 32) (joinId : Nat) (succeeded : Bool) :
    ∃ b, beginJoinResult qid joinId succeeded Builder.init = .ok (⟨0, 6⟩, ⟨0, 8⟩) b ∧
      ReadsAs b qid returnTagResults ∧
      ∀ eid, ∃ b', joinResultCap ⟨0, 6⟩ ⟨0, 8⟩ eid b = .ok () b' ∧ ReadsAs b' qid returnTagResults := by
  have head : ReturnWords (resultMem qid joinId succeeded) qid returnTagResults :=
    (returnWords_payloadMem qidLt).congr fun i hi => resultMem_of_lt (by omega)
  refine ⟨_, beginJoinResult_init qid joinId succeeded,
    readsAs_single 10 head (by decide) (by decide), fun eid => ?_⟩
  refine ⟨_, joinResultCap_init qid joinId eid succeeded,
    readsAs_single 13 (head.congr fun i hi => ?_) (by decide) (by decide)⟩
  rw [storeWord_of_ne (by omega), tableMem_of_lt (by decide) (by omega)]

/-! ## The reply of a dispatch function -/

/-- The first segment a dispatch function is given. -/
def resultsMem (qid : Nat) : Memory := storeWord (payloadMem qid) 6 (wpMakeStruct (1 : Nat) 1 1)

theorem beginResults_init (qid : Nat) :
    beginResults qid Builder.init = .ok ⟨0, 8⟩ (single (resultsMem qid) 10) := by
  rw [beginResults, bind_run (beginReturn_init qid)]
  apply orAlloc_run
  rw [bind_run (slot_single (by decide)), struct_single (by decide) (by decide)]
  rfl

theorem resultsBuilder_eq (qid : Nat) :
    resultsBuilder qid = (single (resultsMem qid) 10, [⟨0, 8⟩]) := by
  delta resultsBuilder
  rw [beginResults_init]

theorem resultsMem_clear (qid : Nat) {i : Nat} (behind : 80 ≤ i) : resultsMem qid i = 0 := by
  rw [resultsMem, payloadMem, returnMem, messageMem, storeWord_of_ne (by omega),
    storeWord_of_ne (by omega), storeLe_of_le (by omega), storeLe_of_le (by omega),
    storeWord_of_ne (by omega), storeLe_of_le (by omega), storeWord_of_ne (by omega)]

/-- A dispatch function's calls stay behind the results handle. -/
theorem callReply_kept (qid : Nat) (ops : List BuildOp) :
    (∀ i < 64, ((callReply qid ops).seg 0).data i = resultsMem qid i) ∧
      10 ≤ ((callReply qid ops).seg 0).words ∧ (callReply qid ops).Wf := by
  have wf : (single (resultsMem qid) 10).Wf :=
    wf_single (by decide) fun i behind => resultsMem_clear qid (by omega)
  have held : Held 0 8 ⟨[], [⟨0, 8⟩]⟩ (single (resultsMem qid) 10) :=
    ⟨by simp, by simp, by simp⟩
  have size : ((single (resultsMem qid) 10).seg 0).words = 10 := by rw [single_seg_zero]
  have inUse : 8 ≤ ((single (resultsMem qid) 10).seg 0).words := by omega
  have writes := calls_writes wf held inUse ops
  have reply : callReply qid ops = (calls ops ⟨[], [⟨0, 8⟩]⟩ (single (resultsMem qid) 10)).2 := by
    rw [callReply, resultsBuilder_eq]
  rw [← reply] at writes
  refine ⟨fun i hi => ?_, size.symm.le.trans (writes.words_le 0), writes.wf⟩
  have kept := writes.kept 0 i (by omega) (by
    rintro (other | late)
    · exact other rfl
    · omega)
  rw [kept, single_seg_zero]

/-- Whatever a dispatch function writes, its reply is a `Return` for the
question. -/
theorem callReply_reads {qid : Nat} (qidLt : qid < 2 ^ 32) {ops : List BuildOp}
    (framable : (callReply qid ops).Framable) :
    ReadsAs (callReply qid ops) qid returnTagResults := by
  obtain ⟨kept, words, wf⟩ := callReply_kept qid ops
  have head : ReturnWords ((callReply qid ops).seg 0).data qid returnTagResults := by
    refine (returnWords_payloadMem qidLt).congr fun i hi => ?_
    rw [kept i (by omega)]
    exact storeWord_of_ne (by omega)
  have done : ∃ flat, (callReply qid ops).serialize = .ok flat := by
    refine ⟨_, if_neg ?_⟩
    rintro (none | empty)
    · exact wf.nonempty.ne' none
    · omega
  obtain ⟨flat, done⟩ := done
  exact ⟨flat, done, returnOf_serialize done framable head (by omega)⟩

/-! ## Echoes -/

/-- A builder whose frame, if it has one, is not read as a `Return` and asks
nothing. -/
def Silent (b : Builder) : Prop :=
  ∀ flat, b.serialize = .ok flat → returnOf flat = none ∧ Notice flat

/-- A builder that still has the one segment and the first words that it was
given. -/
structure Echoing (mem : Memory) (words first : Nat) (b : Builder) : Prop where
  writes : Writes (behind 0 first) (single mem words) b
  nsegs_eq : b.nsegs = 1

variable {mem : Memory} {words first tag : Nat} {b : Builder}

theorem Echoing.words_le (echoing : Echoing mem words first b) : words ≤ (b.seg 0).words := by
  have size := echoing.writes.words_le 0
  rwa [single_seg_zero] at size

/-- The first words are as they were. -/
theorem Echoing.kept (echoing : Echoing mem words first b) (inside : first ≤ words) {i : Nat}
    (early : i < first * 8) : (b.seg 0).data i = mem i := by
  rw [echoing.writes.kept 0 i (by rw [single_seg_zero]; dsimp only; omega), single_seg_zero]
  rintro (apart | late)
  · exact apart rfl
  · omega

theorem Echoing.copyPtr {b : Builder} (echoing : Echoing mem words first b) (slot : BPtr)
    (inUse : b.Used slot.seg slot.word) (place : slot.seg ≠ 0 ∨ first ≤ slot.word) (m : Message)
    (src : Ptr) (left : Nat) :
    Ends (Builder.copyPtr slot m src left b) (fun _ => Echoing mem words first)
      (Echoing mem words first) := by
  have copied := (copyPtr_confined echoing.writes.wf inUse m src left).and
    (copyPtr_nsegs slot m src left b)
  have after : ∀ b', Writes (slotBytes slot.seg slot.word) b b' ∧ b'.nsegs = b.nsegs →
      Echoing mem words first b' := by
    rintro b' ⟨writes, same⟩
    exact ⟨echoing.writes.trans writes fun s i _ => slotBytes_behind place s i,
      same.trans echoing.nsegs_eq⟩
  exact copied.mono (fun _ b' => after b') after

/-- A scalar that is set is written to its field. -/
theorem setScalar_ends (width : Nat) (body : BPtr) (byteOffset value : Nat) (b : Builder) :
    Ends (Builder.setScalar width body byteOffset value b)
      (fun _ b' => b' = b.setData body.seg
        (storeLe width (b.seg body.seg).data (body.word * 8 + byteOffset) value))
      fun _ => True := by
  unfold Builder.setScalar
  dsimp only
  split
  · trivial
  · rfl

theorem Echoing.echoTarget {b : Builder} (echoing : Echoing mem words first b) {out : BPtr}
    (place : out.seg ≠ 0 ∨ first ≤ out.word + 1) (m : Message) (target : Option Ptr)
    (left : Nat) :
    Ends (echoTarget m out target left b) (fun _ => Echoing mem words first) fun _ => False := by
  unfold Rpc.echoTarget
  cases target with
  | none => exact echoing
  | some target =>
      dsimp only
      have placed := slot_ends (b := b) out 1 0
      cases run : slot out 1 0 b with
      | error rc b' =>
          rw [run] at placed
          have same : b' = b := placed
          rw [same]
          exact echoing
      | ok at' b' =>
          rw [run] at placed
          obtain ⟨rfl, rfl, used⟩ := placed
          have copied := echoing.copyPtr _ used place m target left
          dsimp only
          cases ran : Builder.copyPtr ⟨out.seg, out.word + 1 + 0⟩ m target left b' with
          | ok _ b'' =>
              rw [ran] at copied
              exact copied
          | error _ b'' =>
              rw [ran] at copied
              exact copied

theorem messageMem_clear (tag : Nat) {i : Nat} (behind : 16 ≤ i) : messageMem tag i = 0 := by
  rw [messageMem, storeLe_of_le (by omega), storeWord_of_ne (by omega)]

/-- A builder whose first segment starts like a `Message`. -/
structure Headed (b : Builder) (tag : Nat) : Prop where
  few : b.nsegs < 2 ^ 32
  size : 2 ≤ (b.seg 0).words
  head : MessageWords (b.seg 0).data tag

/-- A builder that starts like a `Disembargo` sent back to its sender. -/
structure Loopback (b : Builder) : Prop extends Headed b msgDisembargo where
  inside : 4 ≤ (b.seg 0).words
  body : word (b.seg 0).data 2 = wpMakeStruct 0 1 1
  context : loadLe 2 (b.seg 0).data 28 = disCtxReceiverLoopback

theorem disembargoEcho_loopback (m : Message) (target : Option Ptr) (id left : Nat) :
    Ends (disembargoEcho m target id left Builder.init) (fun _ => Loopback) fun _ => True := by
  have head : MessageWords (storeWord (messageMem msgDisembargo) 2 (wpMakeStruct 0 1 1))
      msgDisembargo :=
    (messageWords_messageMem (by decide)).congr fun i hi => storeWord_of_ne (by omega)
  have wf : (single (storeWord (messageMem msgDisembargo) 2 (wpMakeStruct 0 1 1)) 5).Wf := by
    refine wf_single (by decide) fun i behind => ?_
    rw [storeWord_of_ne (by omega), messageMem_clear _ (by omega)]
  have start : Echoing _ 5 4 _ := ⟨Writes.refl wf, rfl⟩
  rw [disembargoEcho, bind_run (beginMessage_init _), bind_run (slot_single (by decide)),
    bind_run (struct_single (by decide) (by decide))]
  refine (start.echoTarget (.inr (by decide)) m target left).bind (fun _ b echoed => ?_)
    fun _ none => none.elim
  refine (setScalar_ends 2 _ _ _ b).bind (fun _ b₁ tagged => ?_) fun _ _ => trivial
  refine (setScalar_ends 4 _ _ _ b₁).mono (fun _ b₂ named => ?_) fun _ _ => trivial
  have data : (b₂.seg 0).data =
      storeLe 4 (storeLe 2 (b.seg 0).data 28 disCtxReceiverLoopback) 24 id := by
    rw [named, tagged]
    simp [setData, disCtxTagOff, disCtxValueOff]
  have words : (b₂.seg 0).words = (b.seg 0).words := by
    rw [named, tagged]
    simp [setData]
  have few : b₂.nsegs < 2 ^ 32 := by
    rw [named, tagged]
    exact echoed.nsegs_eq.trans_lt (by decide)
  have size := echoed.words_le
  have bytes : ∀ i < 24, (b₂.seg 0).data i =
      storeWord (messageMem msgDisembargo) 2 (wpMakeStruct 0 1 1) i := fun i hi => by
    rw [data, storeLe_of_lt hi, storeLe_of_lt (by omega)]
    exact echoed.kept (by decide) (by omega)
  have body : word (b₂.seg 0).data 2 = wpMakeStruct 0 1 1 := by
    rw [word_congr fun k hk => bytes _ (by omega)]
    exact (word_storeWord_self _ _ _).trans (Nat.mod_eq_of_lt (wpMakeStruct_lt _ _ _))
  have context : loadLe 2 (b₂.seg 0).data 28 = disCtxReceiverLoopback := by
    rw [data, loadLe_storeLe_disjoint (by omega), loadLe_storeLe]
    rfl
  exact ⟨⟨few, by omega, head.congr fun i hi => bytes i (by omega)⟩, by omega, body, context⟩

/-- The echo of an embargo is no `Return` and asks nothing. -/
theorem disembargoEcho_silent (m : Message) (target : Option Ptr) (id left : Nat) :
    Ends (disembargoEcho m target id left Builder.init) (fun _ => Silent) fun _ => True :=
  (disembargoEcho_loopback m target id left).mono
    (fun _ _ back flat done =>
      ⟨returnOf_other done back.few back.head back.size (by decide),
        notice_of_loopback done back.few back.head back.body back.context back.inside⟩)
    fun _ _ => trivial

theorem unimplementedEcho_headed (m : Message) (orig : Ptr) (left : Nat) :
    Ends (unimplementedEcho m orig left Builder.init) (fun _ b => Headed b msgUnimplemented)
      fun _ => True := by
  have head : MessageWords (messageMem msgUnimplemented) msgUnimplemented :=
    messageWords_messageMem (by decide)
  have wf : (single (messageMem msgUnimplemented) 3).Wf :=
    wf_single (by decide) fun i behind => messageMem_clear _ (by omega)
  have inUse : (single (messageMem msgUnimplemented) 3).Used 0 2 := by
    unfold Used
    rw [single_seg_zero]
    decide
  have start : Echoing _ 3 2 _ := ⟨Writes.refl wf, rfl⟩
  rw [unimplementedEcho, bind_run (orAlloc_run (beginMessage_init _)),
    bind_run (orAlloc_run (slot_single (by decide)))]
  refine (start.copyPtr ⟨0, 2⟩ inUse (.inr (by decide)) m orig left).bind
    (fun _ b copied => ?_) fun _ _ => trivial
  have few : b.nsegs < 2 ^ 32 := by
    rw [copied.nsegs_eq]
    decide
  have size := copied.words_le
  exact ⟨few, by omega, head.congr fun i hi => copied.kept (by decide) (by omega)⟩

/-- The echo of a message that is not implemented is no `Return` and asks
nothing. -/
theorem unimplementedEcho_silent (m : Message) (orig : Ptr) (left : Nat) :
    Ends (unimplementedEcho m orig left Builder.init) (fun _ => Silent) fun _ => True :=
  (unimplementedEcho_headed m orig left).mono
    (fun _ _ headed flat done => ⟨returnOf_other done headed.few headed.head headed.size (by decide),
      notice_of_unimplemented done headed.few headed.head headed.size⟩)
    fun _ _ => trivial

end CapnpJanet.Rpc
