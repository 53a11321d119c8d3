import CapnpJanet.Rpc.Descriptors

/-!
# Frames of calls

A call is built around a struct of any size that the caller fills in, and with a
cap table that may describe third-party capabilities.  What a peer reads in such
a frame does not depend on where the builder has placed them: the parameters are
read at the handle that the caller filled in, the descriptors as they were
written.
-/

namespace CapnpJanet.Rpc

open ByteMemory Builder Outcome

/-- A `Call` whose cap table describes third-party capabilities, as an
application builds it: the parameters are filled in before the table is
written. -/
def introducingCall (importedCap interfaceId methodId paramsDwords paramsPwords : Nat)
    (fill : List BuildOp) (caps : List ThirdPartyCap) (qid : Nat) : BuildM Unit := do
  let call ← beginBody msgCall 3 3
  setU32 call questionIdOff qid
  setU16 call callMethodIdOff methodId
  setU64 call callInterfaceIdOff interfaceId
  writeTarget call 3 importedCap
  let at' ← slot call 3 1
  let payload ← struct at' 0 2
  let at' ← slot payload 0 0
  let params ← struct at' paramsDwords paramsPwords
  fillParams fill params
  let cd ← setListStruct payload 0 1 caps.length 1 1
  writeThirdPartyCaps cd caps

variable {importedCap interfaceId methodId paramsDwords paramsPwords qid : Nat} {b b' : Builder}
  {params : BPtr}

theorem introducingCall_init (importedCap interfaceId methodId paramsDwords paramsPwords : Nat)
    (fill : List BuildOp) (caps : List ThirdPartyCap) (qid : Nat) :
    introducingCall importedCap interfaceId methodId paramsDwords paramsPwords fill caps qid
      Builder.init = (do
        let params ← struct ⟨0, 11⟩ paramsDwords paramsPwords
        fillParams fill params
        let cd ← setListStruct ⟨0, 11⟩ 0 1 caps.length 1 1
        writeThirdPartyCaps cd caps) (single (callMem importedCap interfaceId methodId qid) 13) := by
  rw [introducingCall, bind_run (beginBody_init msgCall (by decide) (by decide)),
    bind_run (setId_single msgCall (by decide) qid), setU16, bind_run (setScalar_single (by decide)),
    setU64, bind_run (setScalar_single (by decide)),
    bind_run (writeTarget_single _ importedCap (by decide) (by decide)),
    bind_run (slot_single (by decide)), bind_run (struct_single (by decide) (by decide)),
    bind_run (slot_single (by decide))]
  rfl

/-! ## The words of a call -/

/-- The words of a `Call` in front of its parameters. -/
structure CallWords (mem : Memory) (importedCap interfaceId methodId qid : Nat) : Prop extends
    BodyWords mem msgCall 3 3 where
  qid : loadLe 4 mem 24 = qid
  methodId : loadLe 2 mem 28 = methodId
  interfaceId : loadLe 8 mem 32 = interfaceId
  target : word mem 6 = wpMakeStruct (2 : Nat) 1 1
  payload : word mem 7 = wpMakeStruct (3 : Nat) 0 2
  importedCap : loadLe 4 mem 72 = importedCap
  targetTag : loadLe 2 mem 76 = targetTagImportedCap

theorem CallWords.congr {mem other : Memory} (call : CallWords mem importedCap interfaceId methodId qid)
    (same : ∀ i < 88, other i = mem i) : CallWords other importedCap interfaceId methodId qid where
  toBodyWords := call.toBodyWords.congr fun i hi => same i (by omega)
  qid := (loadLe_congr fun k hk => same _ (by omega)).trans call.qid
  methodId := (loadLe_congr fun k hk => same _ (by omega)).trans call.methodId
  interfaceId := (loadLe_congr fun k hk => same _ (by omega)).trans call.interfaceId
  target := (word_congr fun k hk => same _ (by omega)).trans call.target
  payload := (word_congr fun k hk => same _ (by omega)).trans call.payload
  importedCap := (loadLe_congr fun k hk => same _ (by omega)).trans call.importedCap
  targetTag := (loadLe_congr fun k hk => same _ (by omega)).trans call.targetTag

/-- The arguments of a call are of their types. -/
structure CallTyped (importedCap interfaceId methodId paramsDwords paramsPwords : Nat) : Prop where
  importedCap : importedCap < 2 ^ 32
  interfaceId : interfaceId < 2 ^ 64
  methodId : methodId < 2 ^ 16
  dwords : paramsDwords < 2 ^ 16
  pwords : paramsPwords < 2 ^ 16

theorem callWords_callMem
    (typed : CallTyped importedCap interfaceId methodId paramsDwords paramsPwords)
    (qidLt : qid < 2 ^ 32) :
    CallWords (callMem importedCap interfaceId methodId qid) importedCap interfaceId methodId qid := by
  have body : BodyWords (callMem importedCap interfaceId methodId qid) msgCall 3 3 :=
    (bodyWords_idMem (by decide) 3 3 qid).congr fun i hi =>
      callMem_of_lt importedCap interfaceId methodId qid (by omega)
  refine ⟨body, ?_, ?_, ?_, ?_, ?_, ?_, ?_⟩ <;>
    unfold callMem targetMem callBodyMem idMem targetTagOff targetImportedCapOff
  · rw [loadLe_storeWord_disjoint (by omega), loadLe_storeLe_disjoint (by omega),
      loadLe_storeLe_disjoint (by omega), loadLe_storeWord_disjoint (by omega),
      loadLe_storeLe_disjoint (by omega), loadLe_storeLe_disjoint (by omega), loadLe_storeLe]
    exact Nat.mod_eq_of_lt qidLt
  · rw [loadLe_storeWord_disjoint (by omega), loadLe_storeLe_disjoint (by omega),
      loadLe_storeLe_disjoint (by omega), loadLe_storeWord_disjoint (by omega),
      loadLe_storeLe_disjoint (by omega), loadLe_storeLe]
    exact Nat.mod_eq_of_lt typed.methodId
  · rw [loadLe_storeWord_disjoint (by omega), loadLe_storeLe_disjoint (by omega),
      loadLe_storeLe_disjoint (by omega), loadLe_storeWord_disjoint (by omega), loadLe_storeLe]
    exact Nat.mod_eq_of_lt typed.interfaceId
  · rw [word_storeWord_of_ne (by omega), word_storeLe_disjoint (by omega),
      word_storeLe_disjoint (by omega), word_storeWord_self]
    decide
  · rw [word_storeWord_self]
    decide
  · rw [loadLe_storeWord_disjoint (by omega), loadLe_storeLe]
    exact Nat.mod_eq_of_lt typed.importedCap
  · rw [loadLe_storeWord_disjoint (by omega), loadLe_storeLe_disjoint (by omega), loadLe_storeLe]
    decide

/-! ## The parameters -/

/-- All words but those of an object. -/
def beside (body : BPtr) (n : Nat) : Nat → Nat → Prop := fun s w =>
  ¬(s = body.seg ∧ body.word ≤ w ∧ w < body.word + n)

/-- The words of landing pads: those behind the words of the `Call`, and not of
the parameters. -/
def padWords (params : BPtr) (n : Nat) : Nat → Nat → Prop := fun s w =>
  ¬(s = 0 ∧ w < 13) ∧ beside params n s w

/-- The slot of the parameters, which is word 11 of the first segment, leads to
them; a struct without sections is its slot. -/
inductive ParamsAt (b : Builder) (dwords pwords : Nat) : BPtr → Prop
  | empty (none : dwords = 0 ∧ pwords = 0) (reads : b.wordAt 0 11 = wpMakeStruct (-1) 0 0) :
      ParamsAt b dwords pwords ⟨0, 11⟩
  | placed {params : BPtr} (some : dwords + pwords ≠ 0)
      (inside : params.word + (dwords + pwords) ≤ (b.seg params.seg).words)
      (leads : b.Leads (fun off => wpMakeStruct off dwords pwords) params.seg params.word
        (padWords params (dwords + pwords)) 0 11) : ParamsAt b dwords pwords params

theorem ParamsAt.spared (at' : ParamsAt b paramsDwords paramsPwords params)
    (inUse : b.Used 0 11)
    (spares : Spares (fun s w => s = 0 ∧ w = 11 ∨ padWords params (paramsDwords + paramsPwords) s w)
      b b') : ParamsAt b' paramsDwords paramsPwords params := by
  have slot := spares.wordAt_eq (.inl ⟨rfl, rfl⟩) inUse
  cases at' with
  | empty none reads => exact .empty none (slot.trans reads)
  | placed some inside leads =>
      exact .placed some (inside.trans (spares.words_le _))
        (leads.congr slot spares.words_le fun s w held used => spares.wordAt_eq (.inr held) used)

/-- The parameters are read where the caller filled them in. -/
theorem ParamsAt.getp_eq {m : Message} (at' : ParamsAt b paramsDwords paramsPwords params)
    (from' : ReadFrom m b) (inUse : b.Used 0 11) (dwordsLt : paramsDwords < 2 ^ 16)
    (pwordsLt : paramsPwords < 2 ^ 16) :
    ∃ cost ≤ paramsDwords + paramsPwords + 3, ∀ out left, cost ≤ left →
      m.getp (Message.structAt 0 11 0 2) 0 out left =
        ⟨.ok, Message.structAt params.seg params.word paramsDwords paramsPwords, left - cost⟩ := by
  cases at' with
  | empty none reads =>
      obtain ⟨rfl, rfl⟩ := none
      have slotReads := (from'.built.readWord_eq from'.wf inUse).trans reads
      have resolves := Message.slotTarget_empty 63 (from'.built.inSegment from'.wf inUse) slotReads
      refine ⟨1, by decide, fun out left covered => ?_⟩
      rw [Message.getp_structAt (by decide) (by decide), from'.depth]
      exact Message.resolvePtr_eq resolves covered
  | placed some inside leads =>
      have segLt := from'.segLt some inside
      exact from'.getp_eq (k := 0) (by decide) inUse leads segLt
        (Message.names_struct segLt from'.few (by rw [from'.words_eq segLt]; exact inside) some
          dwordsLt pwordsLt)

/-- The struct of the parameters has been placed. -/
theorem paramsAt_of_run
    (run : struct ⟨0, 11⟩ paramsDwords paramsPwords
      (single (callMem importedCap interfaceId methodId qid) 13) = .ok params b) :
    ParamsAt b paramsDwords paramsPwords params ∧
      (∀ w < 13, beside params (paramsDwords + paramsPwords) 0 w) ∧
      Writes (slotBytes 0 11) (single (callMem importedCap interfaceId methodId qid) 13) b := by
  have clear (i : Nat) (behind : 13 * 8 ≤ i) : callMem importedCap interfaceId methodId qid i = 0 :=
    callMem_clear _ _ _ _ (by omega)
  have limited := limited_single clear (show 13 ≤ builderDefaultFirstWords by decide)
  have size : ((single (callMem importedCap interfaceId methodId qid) 13).seg 0).words = 13 := by
    rw [single_seg_zero]
  have inUse : (single (callMem importedCap interfaceId methodId qid) 13).Used 0 11 := by
    rw [Used, size]
    decide
  by_cases none : paramsDwords + paramsPwords = 0
  · obtain ⟨rfl, rfl⟩ : paramsDwords = 0 ∧ paramsPwords = 0 := by omega
    rw [struct, if_pos rfl] at run
    cases run
    refine ⟨.empty ⟨rfl, rfl⟩ (wordAt_storeW_self _ _ _ (wpMakeStruct_lt _ _ _)), fun w early => ?_,
      writes_storeW limited.wf inUse _⟩
    rintro ⟨-, low, high⟩
    omega
  · obtain ⟨placed, -⟩ := struct_placed limited.wf inUse none run
    refine ⟨.placed none placed.inside
      ((placed.leads (limited.struct inUse run).small).mono fun s w held _ => ⟨?_, held.2⟩),
      fun w early => ?_, placed.writes⟩
    · rintro ⟨rfl, early⟩
      exact held.1 (by rwa [Used, size])
    · rintro ⟨here, low, -⟩
      refine placed.fresh 0 ?_
      rw [← here, Used, size]
      omega

/-! ## The cap table -/

/-- The second slot of the payload, which is word 12 of the first segment: it is
null, or leads to a table of descriptors. -/
inductive TableAt (b : Builder) : List ThirdPartyCap → Prop
  | null (reads : b.wordAt 0 12 = 0) : TableAt b []
  | placed {caps : List ThirdPartyCap} {tag : BPtr} {own : Nat → Nat → Prop} {words : Nat}
      (table : TableOf b caps tag)
      (leads : b.Leads (fun off => wpMakeList off .composite words) tag.seg tag.word own 0 12) :
      TableAt b caps

variable {caps : List ThirdPartyCap}

/-- The descriptors of a cap table are noted as they were written. -/
theorem TableAt.noteIntroductions_eq {m : Message} (at' : TableAt b caps)
    (fits : ∀ cap ∈ caps, cap.Fits) (from' : ReadFrom m b) (inUse : b.Used 0 12) :
    ∃ cost ≤ 29 * caps.length + 4, ∀ (c : Conn) left, cost ≤ left →
      c.noteIntroductions m (Message.structAt 0 11 0 2) left =
        (c.addIntroductions (caps.map ThirdPartyCap.introduction), left - cost) := by
  cases at' with
  | null reads =>
      refine ⟨1, by decide, fun c left covered => ?_⟩
      have inside := from'.built.inSegment from'.wf inUse
      have slot : m.slotTarget 64 0 12 = some (nullPtr 0 12, 0 + 1) :=
        Message.slotTarget_eq inside ((from'.built.readWord_eq from'.wf inUse).trans reads)
          (by rw [Message.target, if_pos rfl])
      have table : m.getp (Message.structAt 0 11 0 2) 1 Ptr.zero left =
          ⟨.ok, nullPtr 0 12, left - 1⟩ := by
        rw [Message.getp_structAt (by decide) (by decide), from'.depth]
        exact Message.resolvePtr_eq slot covered
      unfold Conn.noteIntroductions
      rw [if_neg (by simp [Message.structAt]), table]
      rfl
  | @placed _ tag _ _ table leads =>
      have inside := table.inside
      have segLt := from'.segLt (show 1 + 2 * caps.length ≠ 0 by omega)
        (show tag.word + (1 + 2 * caps.length) ≤ (b.seg tag.seg).words by omega)
      obtain ⟨first, cheap, reads⟩ := from'.getp_eq (show 1 < 2 by decide)
        (show b.Used 0 (11 + 0 + 1) from inUse) leads segLt (table.names from')
      obtain ⟨rest, small, entries⟩ := table.introductionsOf_eq fits from' le_rfl
      refine ⟨first + rest, by omega, fun c left covered => ?_⟩
      have size : listLen (tablePtr caps tag) = caps.length := by
        unfold listLen
        rw [if_neg (by simp [tablePtr, compositePtr])]
        exact tagCount_table table.few
      unfold Conn.noteIntroductions
      rw [if_neg (by simp [Message.structAt]), reads _ _ (by omega)]
      dsimp only
      rw [if_neg (by simp), size, noteEntries_eq, entries _ (by omega), List.take_length,
        Nat.sub_sub]

/-! ## The frames -/

/-- A builder that holds a `Call`. -/
structure CallFrame (b : Builder) (importedCap interfaceId methodId qid dwords pwords : Nat)
    (params : BPtr) (caps : List ThirdPartyCap) : Prop where
  wf : b.Wf
  words : CallWords (b.seg 0).data importedCap interfaceId methodId qid
  inside : 13 ≤ (b.seg 0).words
  params : ParamsAt b dwords pwords params
  table : TableAt b caps

/-- A fill function leaves what has been written around the parameters as it
is: their pointer, its landing pad, and the pointer to the cap table. -/
def FillSpares (importedCap interfaceId methodId paramsDwords paramsPwords : Nat)
    (fill : List BuildOp) (qid : Nat) : Prop :=
  ∀ params b, beginCall importedCap interfaceId methodId paramsDwords paramsPwords qid Builder.init =
    .ok params b → Spares (beside params (paramsDwords + paramsPwords)) b
      (calls fill ⟨[], [params]⟩ b).2

/-- What `capnp_rpc_send_call` builds is a `Call`. -/
theorem callFrame_callMessage {fill : List BuildOp}
    (typed : CallTyped importedCap interfaceId methodId paramsDwords paramsPwords)
    (qidLt : qid < 2 ^ 32)
    (spares : FillSpares importedCap interfaceId methodId paramsDwords paramsPwords fill qid)
    (built : callMessage importedCap interfaceId methodId paramsDwords paramsPwords fill qid
      Builder.init = .ok () b) :
    ∃ params b₁, beginCall importedCap interfaceId methodId paramsDwords paramsPwords qid
        Builder.init = .ok params b₁ ∧
      CallFrame b importedCap interfaceId methodId qid paramsDwords paramsPwords params [] := by
  obtain ⟨kept, inside, wf⟩ := callMessage_kept built
  obtain ⟨params, b₁, begun, filled⟩ := bind_eq_ok.mp built
  have spared := spares params b₁ begun
  have last : b = (calls fill ⟨[], [params]⟩ b₁).2 := by
    cases filled
    rfl
  rw [← last] at spared
  obtain ⟨at', early, writes⟩ := paramsAt_of_run ((beginCall_init _ _ _ _ _ _).symm.trans begun)
  have size : 13 ≤ (b₁.seg 0).words := by
    have grown := writes.words_le 0
    rwa [single_seg_zero] at grown
  have slotUsed : b₁.Used 0 11 := Nat.lt_of_lt_of_le (by decide) size
  have tableUsed : b₁.Used 0 12 := Nat.lt_of_lt_of_le (by decide) size
  refine ⟨params, b₁, begun, wf, (callWords_callMem typed qidLt).congr kept, inside,
    at'.spared slotUsed (spared.mono fun s w held _ => ?_), .null ?_⟩
  · rcases held with ⟨rfl, rfl⟩ | pad
    · exact early 11 (by decide)
    · exact pad.2
  · rw [spared.wordAt_eq (early 12 (by decide)) tableUsed]
    refine word_of_clear fun k hk => ?_
    rw [writes.kept 0 _ (by rw [single_seg_zero]; dsimp only; omega) (by
      rintro ⟨-, word⟩
      omega), single_seg_zero]
    exact callMem_clear _ _ _ _ (by omega)

/-- The cap table is written after the parameters are filled in. -/
theorem introducingCall_eq (importedCap interfaceId methodId paramsDwords paramsPwords : Nat)
    (fill : List BuildOp) (caps : List ThirdPartyCap) (qid : Nat) :
    introducingCall importedCap interfaceId methodId paramsDwords paramsPwords fill caps qid
      Builder.init = (do
        callMessage importedCap interfaceId methodId paramsDwords paramsPwords fill qid
        let cd ← setListStruct ⟨0, 11⟩ 0 1 caps.length 1 1
        writeThirdPartyCaps cd caps) Builder.init := by
  rw [introducingCall_init, callMessage]
  simp only [bind, EStateM.bind, beginCall_init]
  cases struct ⟨0, 11⟩ paramsDwords paramsPwords
    (single (callMem importedCap interfaceId methodId qid) 13) <;> rfl

/-- The table that is written for the descriptors. -/
theorem tableAt_of_run {first : BPtr} {b₂ b₃ : Builder} (wf : b₂.Wf) (fits : ∀ cap ∈ caps, cap.Fits)
    (listed : setListStruct ⟨0, 11⟩ 0 1 caps.length 1 1 b₂ = .ok first b₃)
    (written : writeThirdPartyCaps first caps b₃ = .ok () b) (limit : b.InLimit) :
    Writes (slotBytes 0 12) b₂ b ∧ TableAt b caps := by
  obtain ⟨tag, rfl, slotUsed, placed, elems, -⟩ := setListStruct_placed wf listed
  have inside := placed.inside
  obtain ⟨filled, described⟩ := writeThirdPartyCaps_describes fits placed.writes.wf (by
    dsimp only
    omega) written
  have grown := filled.words_le tag.seg
  have room := limit tag.seg
  unfold builderMaxSegmentWords at room
  have fresh : (b₂.seg tag.seg).words ≤ tag.word := by
    have unused := placed.fresh 0
    unfold Used at unused
    omega
  have entriesOnly {s i : Nat} (touches : bodyBytes ⟨tag.seg, tag.word + 1⟩ (2 * caps.length) s i) :
      s = tag.seg ∧ (tag.word + 1) * 8 ≤ i ∧ i < (tag.word + 1 + 2 * caps.length) * 8 := touches
  -- the entries are neither the slot, nor the tag, nor a landing pad
  have spares : Spares (fun s w => s = 0 ∧ w = 12 ∨ s = tag.seg ∧ w = tag.word ∨ ¬b₂.Used s w ∧
      ¬(s = tag.seg ∧ tag.word ≤ w ∧ w < tag.word + (1 + caps.length * (1 + 1)))) b₃ b := by
    refine filled.spares fun s i held touches => ?_
    obtain ⟨here, low, high⟩ := entriesOnly touches
    rcases held with ⟨atZero, slot⟩ | ⟨-, atTag⟩ | ⟨-, apart⟩
    · have behind : 12 < (b₂.seg 0).words := slotUsed
      rw [← atZero, here] at behind
      omega
    · omega
    · exact apart ⟨here, by omega, by omega⟩
  have tagUsed : b₃.Used tag.seg tag.word := by
    unfold Used
    omega
  have slotStays : b₃.Used 0 12 := placed.writes.used slotUsed
  have table : TableOf b caps tag := by
    refine ⟨by omega, by omega, ?_, described limit⟩
    exact (spares.wordAt_eq (.inr (.inl ⟨rfl, rfl⟩)) tagUsed).trans elems
  have leads := (placed.leads fun s => (filled.words_le s).trans (limit s)).congr
    (spares.wordAt_eq (.inl ⟨rfl, rfl⟩) slotStays) spares.words_le
    fun s w held used => spares.wordAt_eq (.inr (.inr held)) used
  refine ⟨placed.writes.trans filled fun s i old touches => ?_, .placed table leads⟩
  obtain ⟨rfl, low, -⟩ := entriesOnly touches
  omega

/-- The parts of a call that introduces third parties. -/
theorem introducingCall_parts {fill : List BuildOp}
    (built : introducingCall importedCap interfaceId methodId paramsDwords paramsPwords fill caps qid
      Builder.init = .ok () b) : ∃ b₂ first b₃,
    callMessage importedCap interfaceId methodId paramsDwords paramsPwords fill qid Builder.init =
        .ok () b₂ ∧
      setListStruct ⟨0, 11⟩ 0 1 caps.length 1 1 b₂ = .ok first b₃ ∧
        writeThirdPartyCaps first caps b₃ = .ok () b := by
  rw [introducingCall_eq] at built
  obtain ⟨_, b₂, called, rest⟩ := bind_eq_ok.mp built
  obtain ⟨first, b₃, listed, written⟩ := bind_eq_ok.mp rest
  exact ⟨b₂, first, b₃, called, listed, written⟩

theorem introducingCall_wf {fill : List BuildOp} (fits : ∀ cap ∈ caps, cap.Fits)
    (built : introducingCall importedCap interfaceId methodId paramsDwords paramsPwords fill caps qid
      Builder.init = .ok () b) : b.Wf := by
  obtain ⟨b₂, first, b₃, called, listed, written⟩ := introducingCall_parts built
  obtain ⟨-, -, wf⟩ := callMessage_kept called
  obtain ⟨tag, rfl, -, placed, -⟩ := setListStruct_placed wf listed
  have inside := placed.inside
  exact (writeThirdPartyCaps_describes fits placed.writes.wf (by dsimp only; omega) written).1.wf

/-- What an application builds that introduces third parties is a `Call` with
their descriptors. -/
theorem callFrame_introducingCall {fill : List BuildOp}
    (typed : CallTyped importedCap interfaceId methodId paramsDwords paramsPwords)
    (qidLt : qid < 2 ^ 32) (fits : ∀ cap ∈ caps, cap.Fits)
    (spares : FillSpares importedCap interfaceId methodId paramsDwords paramsPwords fill qid)
    (built : introducingCall importedCap interfaceId methodId paramsDwords paramsPwords fill caps qid
      Builder.init = .ok () b) (limit : b.InLimit) :
    ∃ params b₁, beginCall importedCap interfaceId methodId paramsDwords paramsPwords qid
        Builder.init = .ok params b₁ ∧
      CallFrame b importedCap interfaceId methodId qid paramsDwords paramsPwords params caps := by
  obtain ⟨b₂, first, b₃, called, listed, written⟩ := introducingCall_parts built
  obtain ⟨params, b₁, begun, frame⟩ := callFrame_callMessage typed qidLt spares called
  obtain ⟨writes, table⟩ := tableAt_of_run frame.wf fits listed written limit
  have inside := frame.inside
  have slotUsed : b₂.Used 0 11 := Nat.lt_of_lt_of_le (by decide) inside
  refine ⟨params, b₁, begun, writes.wf, frame.words.congr fun i early => ?_,
    inside.trans (writes.words_le 0), frame.params.spared slotUsed ?_, table⟩
  · refine writes.kept 0 i (by omega) ?_
    rintro ⟨-, word⟩
    omega
  · refine writes.spares fun s i held touches => ?_
    obtain ⟨rfl, word⟩ := touches
    rcases held with ⟨-, slot⟩ | ⟨behind, -⟩
    · omega
    · exact behind ⟨rfl, by omega⟩

end CapnpJanet.Rpc
