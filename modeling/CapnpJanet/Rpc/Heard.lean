import CapnpJanet.Builder.Patches
import CapnpJanet.Rpc.Asking
import CapnpJanet.Rpc.CallFrames
import CapnpJanet.Rpc.Wire

/-!
# What a peer hears

The frames that the functions of the asking side build, as the handlers of the
peer read them: the ids, the nonce, the flag and the target that were asked for,
and for a call the parameters and the descriptors of third-party capabilities.
-/

namespace CapnpJanet.Rpc

open ByteMemory Builder Outcome

/-! ## Near structs of the first segment -/

section
variable {m : Message} {mem : Memory} {words : Nat}

/-- A near struct pointer whose struct lies some words behind it. -/
theorem Starts.resolve_near (starts : Starts m mem words) {slot off dwords pwords left : Nat}
    {out : Ptr} (reads : word mem slot = wpMakeStruct (off : Int) dwords pwords)
    (some : dwords + pwords ≠ 0) (offLt : off < 2 ^ 20) (dwordsLt : dwords < 2 ^ 16)
    (pwordsLt : pwords < 2 ^ 16) (inside : slot + 1 + off + (dwords + pwords) ≤ words)
    (covered : dwords + pwords + 1 ≤ left) :
    m.resolvePtr 0 slot m.depthLimit out left =
      ⟨.ok, Message.structAt 0 (slot + 1 + off) dwords pwords, left - (dwords + pwords + 1)⟩ := by
  have notNull : wpMakeStruct (off : Int) dwords pwords ≠ 0 := by
    unfold wpMakeStruct
    omega
  have slotReads : m.readWord 0 slot = wpMakeStruct (off : Int) dwords pwords := by
    rw [starts.readWord_eq (by omega), reads]
  have bounds := starts.words_le
  have limit : m.depthLimit ≠ 0 := by
    rw [starts.depth]
    decide
  have target : m.slotTarget m.depthLimit 0 slot =
      Option.some (Message.structAt 0 (slot + 1 + off) dwords pwords, dwords + pwords + 1) :=
    Message.slotTarget_struct limit starts.segLt slotReads notNull (by unfold OffsetFits; omega)
      dwordsLt pwordsLt (by omega) (by omega) (by omega)
  exact Message.resolvePtr_eq target covered

/-- Such a struct in the pointer section of another. -/
theorem Starts.getp_near (starts : Starts m mem words) {body dwords pwords k at' dwords' pwords' : Nat}
    {off left : Nat} {out : Ptr} (index : k < pwords) (room : body + dwords + k < 2 ^ 64)
    (reads : word mem (body + dwords + k) = wpMakeStruct (off : Int) dwords' pwords')
    (place : body + dwords + k + 1 + off = at') (some : dwords' + pwords' ≠ 0)
    (sizes : off < 2 ^ 20 ∧ dwords' < 2 ^ 16 ∧ pwords' < 2 ^ 16)
    (inside : at' + (dwords' + pwords') ≤ words) (covered : dwords' + pwords' + 1 ≤ left) :
    m.getp (Message.structAt 0 body dwords pwords) k out left =
      ⟨.ok, Message.structAt 0 at' dwords' pwords', left - (dwords' + pwords' + 1)⟩ := by
  subst place
  obtain ⟨offLt, dwordsLt, pwordsLt⟩ := sizes
  rw [Message.getp_structAt index room]
  exact starts.resolve_near reads some offLt dwordsLt pwordsLt inside covered

/-- A flag of a struct with one data word. -/
theorem Starts.getBool_eq (starts : Starts m mem words) {body pwords bit : Nat} (index : bit < 64)
    (within : body + 1 ≤ words) :
    m.getBool (Message.structAt 0 body 1 pwords) bit false =
      (mem (body * 8 + bit / 8)).toNat.testBit (bit % 8) := by
  have size : dataBitCount (Message.structAt 0 body 1 pwords) = 64 := rfl
  have byte : dataBytes (Message.structAt 0 body 1 pwords) = body * 8 := rfl
  unfold Message.getBool
  rw [if_neg (by simp [Message.structAt]), size, if_neg (by omega),
    Nat.testBit_eq_decide_div_mod_eq, byte,
    show (Message.structAt 0 body 1 pwords).seg = 0 from rfl, starts.same _ (by omega)]
  rfl

end

/-- A serialized builder is read from its own segments. -/
theorem readFrom_serialize {b : Builder} {flat : List UInt8} (done : b.serialize = .ok flat)
    (fits : b.Framable) (wf : b.Wf) : ReadFrom (Frame.message (ofList flat)) b := by
  obtain ⟨count, segments⟩ := message_serialize done fits
  refine ⟨⟨count.symm, fun s segLt => ?_, fun s segLt k inside => ?_⟩, wf, ?_, rfl⟩
  · rw [count] at segLt
    exact (segments s segLt).1.symm
  · rw [count] at segLt
    obtain ⟨words, bytes⟩ := segments s segLt
    exact (bytes k (by omega)).symm
  · rw [count]
    exact fits.1

/-- The target of a message: an imported capability. -/
structure TargetWords (mem : Memory) (at' importedCap : Nat) : Prop where
  importedCap : loadLe 4 mem (at' * 8 + targetImportedCapOff) = importedCap
  tag : loadLe 2 mem (at' * 8 + targetTagOff) = targetTagImportedCap

/-- A target that names an imported capability resolves to the export, if it is
in use. -/
theorem Starts.resolveTarget_eq {m : Message} {mem : Memory} {words : Nat}
    (starts : Starts m mem words) {at' importedCap : Nat} (target : TargetWords mem at' importedCap)
    (inside : at' + 1 ≤ words) (c : Conn) (left : Nat) :
    c.resolveTarget m (Message.structAt 0 at' 1 1) left = (c.imported importedCap, left) := by
  have tag : m.getU16 (Message.structAt 0 at' 1 1) 4 0 = 0 := by
    rw [Message.getU16, starts.getScalar_eq (by decide) inside]
    exact target.tag
  have id : m.getU32 (Message.structAt 0 at' 1 1) 0 0 = importedCap := by
    rw [Message.getU32, starts.getScalar_eq (by decide) inside]
    exact target.importedCap
  unfold Conn.resolveTarget Conn.imported
  dsimp only
  rw [if_neg (by simp [Message.structAt]), tag, id, if_neg (by decide), if_neg (by decide)]

/-! ## Provide -/

/-- The words of a `Provide`. -/
structure ProvideWords (mem : Memory) (importedCap nonce qid : Nat) : Prop extends
    BodyWords mem msgProvide 1 2 where
  qid : loadLe 4 mem 24 = qid
  target : word mem 4 = wpMakeStruct (1 : Nat) 1 1
  recipient : word mem 5 = wpMakeStruct (2 : Nat) 1 1
  importedCap : loadLe 4 mem 48 = importedCap
  targetTag : loadLe 2 mem 52 = targetTagImportedCap
  nonce : loadLe 8 mem 64 = nonce

theorem ProvideWords.congr {mem other : Memory} {importedCap nonce qid : Nat}
    (provide : ProvideWords mem importedCap nonce qid) (same : ∀ i < 72, other i = mem i) :
    ProvideWords other importedCap nonce qid where
  toBodyWords := provide.toBodyWords.congr fun i hi => same i (by omega)
  qid := (loadLe_congr fun i hi => same _ (by omega)).trans provide.qid
  target := (word_congr fun k hk => same _ (by omega)).trans provide.target
  recipient := (word_congr fun k hk => same _ (by omega)).trans provide.recipient
  importedCap := (loadLe_congr fun i hi => same _ (by omega)).trans provide.importedCap
  targetTag := (loadLe_congr fun i hi => same _ (by omega)).trans provide.targetTag
  nonce := (loadLe_congr fun i hi => same _ (by omega)).trans provide.nonce

/-- The first segment of a `Provide` before the recipient's vat. -/
def provideMem (importedCap nonce qid : Nat) : Memory :=
  storeLe 8
    (storeWord (targetMem (idMem msgProvide 1 2 qid) 4 6 importedCap) 5 (wpMakeStruct (2 : Nat) 1 1))
    64 nonce

theorem provideMem_clear (importedCap nonce qid : Nat) {i : Nat} (behind : 96 ≤ i) :
    provideMem importedCap nonce qid i = 0 := by
  unfold provideMem targetMem idMem bodyMem targetTagOff targetImportedCapOff
  rw [storeLe_of_le (by omega), storeWord_of_ne (by omega), storeLe_of_le (by omega),
    storeLe_of_le (by omega), storeWord_of_ne (by omega), storeLe_of_le (by omega),
    storeWord_of_ne (by omega), messageMem_clear _ (by omega)]

theorem provideWords_provideMem {importedCap nonce qid : Nat} (capLt : importedCap < 2 ^ 32)
    (nonceLt : nonce < 2 ^ 64) (qidLt : qid < 2 ^ 32) :
    ProvideWords (provideMem importedCap nonce qid) importedCap nonce qid := by
  have body : BodyWords (provideMem importedCap nonce qid) msgProvide 1 2 := by
    refine (bodyWords_idMem (by decide) 1 2 qid).congr fun i hi => ?_
    rw [provideMem, storeLe_of_lt (by omega), storeWord_of_ne (by omega),
      targetMem_of_lt (by decide) (by omega)]
  refine ⟨body, ?_, ?_, ?_, ?_, ?_, ?_⟩ <;>
    unfold provideMem targetMem idMem targetTagOff targetImportedCapOff
  · simp (disch := omega) only [loadLe_storeLe_disjoint, loadLe_storeWord_disjoint, loadLe_storeLe]
    exact Nat.mod_eq_of_lt qidLt
  · simp (disch := omega) only [word_storeLe_disjoint, word_storeWord_of_ne, word_storeWord_self]
    decide
  · simp (disch := omega) only [word_storeLe_disjoint, word_storeWord_self]
    decide
  · simp (disch := omega) only [loadLe_storeLe_disjoint, loadLe_storeWord_disjoint, loadLe_storeLe]
    exact Nat.mod_eq_of_lt capLt
  · simp (disch := omega) only [loadLe_storeLe_disjoint, loadLe_storeWord_disjoint, loadLe_storeLe]
    decide
  · rw [loadLe_storeLe]
    exact Nat.mod_eq_of_lt nonceLt

/-- The vat that a `Provide` names as its recipient: its host and its port, read like
those of an introduction. -/
def Incoming.recipientVat (msg : Incoming) : Option (List UInt8 × Nat) :=
  let recipient := msg.message.getp msg.body 1 Ptr.zero msg.left
  if recipient.rc ≠ .ok ∨ recipient.out.kind ≠ .struct then none
  else
    let vat := msg.message.getp recipient.out 0 Ptr.zero recipient.left
    if vat.rc ≠ .ok ∨ vat.out.kind ≠ .struct then none
    else
      let (rc, host, _) := msg.message.getText vat.out 0 vat.left
      if rc ≠ .ok then none else some (host, msg.message.getU16 vat.out vatIdPortOff 0)

/-- The words of a `Provide` from its recipient's vat on. -/
structure RecipientWords (mem : Memory) (host : List UInt8) (port : Nat) : Prop where
  vat : word mem 9 = wpMakeStruct (0 : Nat) 1 1
  port : loadLe 2 mem 80 = port
  text : word mem 11 = textPtr host 0
  bytes : ∀ i < wordsFor (host.length + 1) * 8, mem (96 + i) = ofList host i
  clear : ∀ i, (12 + wordsFor (host.length + 1)) * 8 ≤ i → mem i = 0

/-- The recipient of a `Provide` is read. -/
theorem recipientVat_eq {mem : Memory} {importedCap nonce qid port : Nat} {host : List UInt8}
    (words : ProvideWords mem importedCap nonce qid) (recipient : RecipientWords mem host port)
    (short : host.length < maxHost) {flat : List UInt8}
    (done : (single mem (12 + wordsFor (host.length + 1))).serialize = .ok flat)
    {msg : Incoming} (message : msg.message = Frame.message (ofList flat))
    (body : msg.body = Message.structAt 0 3 1 2) (covered : 64 ≤ msg.left) :
    msg.recipientVat = some (host, port) := by
  have room : 12 + wordsFor (host.length + 1) ≤ builderDefaultFirstWords := by
    unfold maxHost at short
    unfold wordsFor builderDefaultFirstWords
    omega
  have fits : (single mem (12 + wordsFor (host.length + 1))).Framable :=
    framable_single (room.trans_lt (by decide))
  have starts : Starts (Frame.message (ofList flat)) mem (12 + wordsFor (host.length + 1)) := by
    have starts := starts_serialize done fits
    rwa [single_seg_zero] at starts
  have from' := readFrom_serialize done fits (wf_single room recipient.clear)
  -- the text is the first object behind its slot
  have linked : Linked (single mem (12 + wordsFor (host.length + 1))) (fun _ _ => True) ⟨0, 10⟩ 2 0
      port (textPtr host) ⟨0, 12⟩ := by
    refine ⟨?_, ⟨trivial, trivial⟩, ?_, .near ?_ ⟨by decide, by decide⟩⟩
    · rw [single_seg_zero]
      exact Nat.le_add_right 12 _
    · rw [single_seg_zero]
      exact recipient.port
    · rw [wordAt, single_seg_zero]
      exact recipient.text
  obtain ⟨cost, cheap, text⟩ := getText_eq from' linked short (by rw [single_seg_zero])
    (by rw [single_seg_zero]; exact recipient.bytes)
  have port16 : (Frame.message (ofList flat)).getU16 (Message.structAt 0 10 1 1) vatIdPortOff 0 =
      port := (starts.getScalar_eq (by decide) (by omega) 0).trans recipient.port
  have first : (Frame.message (ofList flat)).getp (Message.structAt 0 3 1 2) 1 Ptr.zero msg.left =
      ⟨.ok, Message.structAt 0 8 1 1, msg.left - 3⟩ :=
    starts.getp_near (by decide) (by decide) words.recipient rfl (by decide) (by decide) (by omega)
      (by omega)
  have second : (Frame.message (ofList flat)).getp (Message.structAt 0 8 1 1) 0 Ptr.zero
      (msg.left - 3) = ⟨.ok, Message.structAt 0 10 1 1, msg.left - 3 - 3⟩ :=
    starts.getp_near (by decide) (by decide) recipient.vat rfl (by decide) (by decide) (by omega)
      (by omega)
  unfold Incoming.recipientVat
  rw [message, body, first]
  dsimp only
  rw [if_neg (by simp [Message.structAt]), second]
  dsimp only
  rw [if_neg (by simp [Message.structAt]), text _ (by omega)]
  dsimp only
  rw [if_neg (not_not.mpr rfl), port16]

/-- A frame is read as a message that meets a condition. -/
def Hears (flat : List UInt8) (heard : Incoming → Prop) : Prop :=
  ∃ msg, readIncoming flat = some msg ∧ heard msg

/-- A `Provide` is heard as it was sent: with its question, its target, its nonce and
the host and port of its recipient. -/
theorem provideMessage_heard {importedCap nonce qid port : Nat} (capLt : importedCap < 2 ^ 32)
    (nonceLt : nonce < 2 ^ 64) (portLt : port < 2 ^ 16) (qidLt : qid < 2 ^ 32) {host : List UInt8}
    (short : host.length < maxHost) : ∃ b flat,
    provideMessage importedCap host port nonce qid Builder.init = .ok () b ∧
      b.serialize = .ok flat ∧ Hears flat fun msg => msg.which = msgProvide ∧
        msg.questionId = qid ∧ msg.body.kind = .struct ∧
          (∀ c, msg.offers c = (c.imported importedCap).map fun eid => (eid, nonce)) ∧
            msg.recipientVat = some (host, port) := by
  have room : 12 + wordsFor (host.length + 1) ≤ builderDefaultFirstWords := by
    unfold maxHost at short
    unfold wordsFor builderDefaultFirstWords
    omega
  obtain ⟨mem, written, kept, pointer, bytes⟩ := setText_single
    (storeWord (provideMem importedCap nonce qid) 9 (wpMakeStruct (0 : Nat) 1 1)) host
    (show 10 + 1 + 0 < 12 by decide) room
  have words : ProvideWords (storeLe 2 mem 80 port) importedCap nonce qid := by
    refine (provideWords_provideMem capLt nonceLt qidLt).congr fun i hi => ?_
    rw [storeLe_of_lt (by omega), kept i (.inl (by omega)) (by omega), storeWord_of_ne (by omega)]
  have recipient : RecipientWords (storeLe 2 mem 80 port) host port := by
    refine ⟨?_, ?_, ?_, fun i hi => ?_, fun i behind => ?_⟩
    · rw [word_storeLe_disjoint (by omega), word_congr fun k hk => kept _ (.inl (by omega)) (by omega),
        word_storeWord_self]
      decide
    · rw [loadLe_storeLe]
      exact Nat.mod_eq_of_lt portLt
    · rw [word_storeLe_disjoint (by omega)]
      exact pointer
    · rw [storeLe_of_le (by omega)]
      exact bytes i hi
    · rw [storeLe_of_le (by omega), kept i (.inr behind) (by omega), storeWord_of_ne (by omega)]
      exact provideMem_clear importedCap nonce qid (by omega)
  obtain ⟨flat, done⟩ := serialize_single (storeLe 2 mem 80 port)
    (show 12 + wordsFor (host.length + 1) ≠ 0 by omega)
  refine ⟨_, flat, ?_, done, ?_⟩
  · rw [provideMessage, bind_run (beginBody_init msgProvide (by decide) (by decide)),
      bind_run (setId_single msgProvide (by decide) qid),
      bind_run (writeTarget_single _ importedCap (by decide) (by decide)),
      bind_run (slot_single (by decide)), bind_run (struct_single (by decide) (by decide)), setU64,
      bind_run (setScalar_single (by decide)), bind_run (slot_single (by decide)),
      bind_run (struct_single (by decide) (by decide))]
    refine (bind_run written).trans ?_
    exact setScalar_single (by unfold vatIdPortOff; omega)
  · have budget : 64 ≤ defaultTraversalWords := covered_default le_rfl
    have covered : 64 ≤ defaultTraversalWords - 3 - (1 + 2 + 1) := by
      decide
    have small : 12 + wordsFor (host.length + 1) < 2 ^ 32 := room.trans_lt (by decide)
    have starts : Starts (Frame.message (ofList flat)) (storeLe 2 mem 80 port)
        (12 + wordsFor (host.length + 1)) := by
      have starts := starts_serialize done (framable_single small)
      rwa [single_seg_zero] at starts
    refine ⟨_, readIncoming_single done small words.toBodyWords (by decide) (by decide) (by omega),
      rfl, ?_, rfl, fun c => ?_, recipientVat_eq words recipient short done rfl rfl covered⟩
    · exact (getU32_single done small (by decide) (by omega)).trans words.qid
    · have target : (Frame.message (ofList flat)).getp (Message.structAt 0 3 1 2) 0 Ptr.zero
          (defaultTraversalWords - 3 - 4) =
            ⟨.ok, Message.structAt 0 6 1 1, defaultTraversalWords - 3 - 4 - 3⟩ :=
        starts.getp_near (by decide) (by decide) words.target rfl (by decide) (by decide) (by omega)
          (by omega)
      have recipient : (Frame.message (ofList flat)).getp (Message.structAt 0 3 1 2) 1 Ptr.zero
          (defaultTraversalWords - 3 - 4 - 3) =
            ⟨.ok, Message.structAt 0 8 1 1, defaultTraversalWords - 3 - 4 - 3 - 3⟩ :=
        starts.getp_near (by decide) (by decide) words.recipient rfl (by decide) (by decide)
          (by omega) (by omega)
      have presented : (Frame.message (ofList flat)).getU64 (Message.structAt 0 8 1 1) 0 0 = nonce := by
        rw [Message.getU64, starts.getScalar_eq (by decide) (by omega)]
        exact words.nonce
      unfold Incoming.offers
      dsimp only
      rw [if_neg (by simp [Message.structAt]), target]
      dsimp only
      rw [starts.resolveTarget_eq ⟨words.importedCap, words.targetTag⟩ (by omega), if_neg (by simp)]
      cases c.imported importedCap with
      | none => rfl
      | some eid =>
          dsimp only
          rw [recipient]
          dsimp only
          rw [presented]
          rfl

/-! ## Accept -/

/-- The flag of an `Accept`, written only if it is set. -/
def flagMem (mem : Memory) (embargo : Bool) : Memory :=
  if embargo then blit 1 mem 28 fun _ => withBit (mem 28) 0 true else mem

theorem flagMem_of_ne {mem : Memory} {embargo : Bool} {i : Nat} (other : i ≠ 28) :
    flagMem mem embargo i = mem i := by
  unfold flagMem
  split
  · exact blit_outside (by omega)
  · rfl

theorem testBit_flagMem {mem : Memory} (clear : mem 28 = 0) (embargo : Bool) :
    (flagMem mem embargo 28).toNat.testBit 0 = embargo := by
  cases embargo with
  | false =>
      rw [flagMem, if_neg (by decide), clear]
      rfl
  | true =>
      rw [flagMem, if_pos rfl, show (28 : Nat) = 28 + 0 from rfl, blit_inside (by decide),
        testBit_withBit _ (by decide), if_pos rfl]

/-- The first segment of an `Accept`. -/
def acceptMem (nonce : Nat) (embargo : Bool) (qid : Nat) : Memory :=
  storeLe 8 (storeWord (flagMem (idMem msgAccept 1 1 qid) embargo) 4 (wpMakeStruct (0 : Nat) 1 0))
    40 nonce

theorem acceptMessage_init (nonce : Nat) (embargo : Bool) (qid : Nat) :
    acceptMessage nonce embargo qid Builder.init = .ok () (single (acceptMem nonce embargo qid) 6) := by
  have rest (mem : Memory) : (do
        let at' ← slot ⟨0, 3⟩ 1 0
        let provision ← struct at' 1 0
        setU64 provision provisionNonceOff nonce) (single mem 5) =
      .ok () (single (storeLe 8 (storeWord mem 4 (wpMakeStruct (0 : Nat) 1 0)) 40 nonce) 6) := by
    rw [bind_run (slot_single (by decide)), bind_run (struct_single (by decide) (by decide)), setU64,
      setScalar_single (by decide)]
    rfl
  rw [acceptMessage, bind_run (beginBody_init msgAccept (by decide) (by decide)),
    bind_run (setId_single msgAccept (by decide) qid)]
  cases embargo with
  | false => exact rest _
  | true =>
      have flagged := setBool_single (idMem msgAccept 1 1 qid) true
        (show 3 * 8 + acceptEmbargoBit / 8 + 1 ≤ 5 * 8 by decide)
      exact (bind_run flagged).trans (rest _)

/-- An `Accept` is heard as it was sent: with its question, its nonce and its
flag. -/
theorem acceptMessage_heard {nonce qid : Nat} (nonceLt : nonce < 2 ^ 64) (qidLt : qid < 2 ^ 32)
    (embargo : Bool) : ∃ b flat, acceptMessage nonce embargo qid Builder.init = .ok () b ∧
      b.serialize = .ok flat ∧ Hears flat fun msg => msg.which = msgAccept ∧
        msg.questionId = qid ∧ msg.body.kind = .struct ∧ msg.presents = some nonce ∧
          msg.embargo = embargo := by
  obtain ⟨flat, done⟩ := serialize_single (acceptMem nonce embargo qid) (show 6 ≠ 0 by decide)
  have same (i : Nat) (early : i < 28) : acceptMem nonce embargo qid i = idMem msgAccept 1 1 qid i := by
    rw [acceptMem, storeLe_of_lt (by omega), storeWord_of_ne (by omega), flagMem_of_ne (by omega)]
  have head : BodyWords (acceptMem nonce embargo qid) msgAccept 1 1 :=
    (bodyWords_idMem (by decide) 1 1 qid).congr fun i hi => same i (by omega)
  have starts : Starts (Frame.message (ofList flat)) (acceptMem nonce embargo qid) 6 := by
    have starts := starts_serialize done (framable_single (by decide))
    rwa [single_seg_zero] at starts
  have budget : 64 ≤ defaultTraversalWords := covered_default le_rfl
  refine ⟨_, flat, acceptMessage_init nonce embargo qid, done, _, readIncoming_single done (by decide)
    head (by decide) (by decide) (by decide), rfl, ?_, rfl, ?_, ?_⟩
  · refine (getU32_single done (by decide) (by decide) (by decide)).trans ?_
    refine (loadLe_congr fun i hi => same _ (by omega)).trans ?_
    exact loadLe_idMem qidLt
  · have reads : word (acceptMem nonce embargo qid) 4 = wpMakeStruct (0 : Nat) 1 0 := by
      rw [acceptMem, word_storeLe_disjoint (by omega), word_storeWord_self]
      decide
    have provision : (Frame.message (ofList flat)).getp (Message.structAt 0 3 1 1) 0 Ptr.zero
        (defaultTraversalWords - 3 - 3) =
          ⟨.ok, Message.structAt 0 5 1 0, defaultTraversalWords - 3 - 3 - 2⟩ :=
      starts.getp_near (by decide) (by decide) reads rfl (by decide) (by decide) (by decide)
        (by omega)
    have presented : (Frame.message (ofList flat)).getU64 (Message.structAt 0 5 1 0) 0 0 = nonce := by
      rw [Message.getU64, starts.getScalar_eq (by decide) (by decide), acceptMem, loadLe_storeLe]
      exact Nat.mod_eq_of_lt nonceLt
    unfold Incoming.presents
    dsimp only
    rw [if_neg (by simp [Message.structAt]), provision]
    dsimp only
    rw [presented]
    rfl
  · refine (starts.getBool_eq (by decide) (by decide)).trans ?_
    have clear : idMem msgAccept 1 1 qid 28 = 0 := by
      rw [idMem, storeLe_of_le (by decide), bodyMem, storeWord_of_ne (by decide),
        messageMem_clear _ (by decide)]
    rw [acceptMem, storeLe_of_lt (by decide), storeWord_of_ne (by decide)]
    exact testBit_flagMem clear embargo

/-! ## Short messages -/

/-- The first segment of a `Disembargo` of a `Provide`. -/
def disembargoMem (provideQid : Nat) : Memory :=
  storeLe 4 (storeLe 2 (bodyMem msgDisembargo 1 1) 28 disCtxProvide) 24 provideQid

/-- A `Disembargo` is heard as it was sent: with its `Provide` question. -/
theorem disembargoMessage_heard {provideQid : Nat} (qidLt : provideQid < 2 ^ 32) : ∃ b flat,
    disembargoMessage provideQid Builder.init = .ok () b ∧ b.serialize = .ok flat ∧
      Hears flat fun msg => msg.Disembargoes provideQid := by
  obtain ⟨flat, done⟩ := serialize_single (disembargoMem provideQid) (show 5 ≠ 0 by decide)
  have head : BodyWords (disembargoMem provideQid) msgDisembargo 1 1 := by
    refine (bodyWords_bodyMem (by decide) 1 1).congr fun i hi => ?_
    rw [disembargoMem, storeLe_of_lt (by omega), storeLe_of_lt (by omega)]
  have starts : Starts (Frame.message (ofList flat)) (disembargoMem provideQid) 5 := by
    have starts := starts_serialize done (framable_single (by decide))
    rwa [single_seg_zero] at starts
  refine ⟨_, flat, ?_, done, _, readIncoming_single done (by decide) head (by decide) (by decide)
    (by decide), rfl, rfl, ?_, ?_⟩
  · rw [disembargoMessage, bind_run (beginBody_init msgDisembargo (by decide) (by decide)), setU16,
      bind_run (setScalar_single (by decide)), setU32, setScalar_single (by decide)]
    rfl
  · refine (starts.getScalar_eq (by decide) (by decide) 0).trans ?_
    rw [disembargoMem, disCtxTagOff, loadLe_storeLe_disjoint (by decide), loadLe_storeLe]
    decide
  · refine (starts.getScalar_eq (by decide) (by decide) 0).trans ?_
    rw [disembargoMem, disCtxValueOff, loadLe_storeLe]
    exact Nat.mod_eq_of_lt qidLt

/-- A `Bootstrap` is heard as it was sent. -/
theorem bootstrapMessage_heard {qid : Nat} (qidLt : qid < 2 ^ 32) : ∃ b flat,
    bootstrapMessage qid Builder.init = .ok () b ∧ b.serialize = .ok flat ∧
      Hears flat fun msg => msg.which = msgBootstrap ∧ msg.questionId = qid := by
  obtain ⟨flat, done⟩ := serialize_single (idMem msgBootstrap 1 1 qid) (show 5 ≠ 0 by decide)
  refine ⟨_, flat, ?_, done, _, readIncoming_single done (by decide)
    (bodyWords_idMem (by decide) 1 1 qid) (by decide) (by decide) (by decide), rfl, ?_⟩
  · rw [bootstrapMessage, bind_run (beginBody_init msgBootstrap (by decide) (by decide))]
    exact setId_single msgBootstrap (by decide) qid
  · exact (getU32_single done (by decide) (by decide) (by decide)).trans (loadLe_idMem qidLt)

/-- A frame that is read as a `Finish` is heard as one. -/
theorem hears_of_finishOf {flat : List UInt8} {qid : Nat} (finish : finishOf flat = some qid) :
    Hears flat fun msg => msg.which = msgFinish ∧ msg.questionId = qid := by
  unfold finishOf at finish
  obtain ⟨msg, read, found⟩ := Option.bind_eq_some_iff.mp finish
  split at found
  · next which => exact ⟨msg, read, which, Option.some.inj found⟩
  · cases found

/-- A frame that is read as a `Release` is heard as one. -/
theorem hears_of_releaseOf {flat : List UInt8} {importId count : Nat}
    (release : releaseOf flat = some (importId, count)) :
    Hears flat fun msg => msg.which = msgRelease ∧ msg.questionId = importId ∧
      msg.message.getU32 msg.body 4 0 = count := by
  unfold releaseOf at release
  obtain ⟨msg, read, found⟩ := Option.bind_eq_some_iff.mp release
  split at found
  · next which =>
    obtain ⟨importEq, countEq⟩ := Prod.mk.inj (Option.some.inj found)
    exact ⟨msg, read, which, importEq, countEq⟩
  · cases found

/-! ## Calls -/

/-- What a peer hears in a `Call`: its ids, the export it names, the parameters
where the caller filled them in, with the caller's segments behind them, and the
introductions. -/
structure HearsCall (b : Builder) (params : BPtr) (importedCap interfaceId methodId dwords pwords : Nat)
    (caps : List ThirdPartyCap) (qid : Nat) (msg : Incoming) : Prop where
  which : msg.which = msgCall
  qid : msg.questionId = qid
  target : msg.calls = some importedCap
  interface : msg.message.getU64 msg.body 8 0 = interfaceId
  method : msg.message.getU16 msg.body 4 0 = methodId
  params_ok : msg.paramsRead.rc = .ok
  params_eq : msg.paramsRead.out = Message.structAt params.seg params.word dwords pwords
  read : ReadFrom msg.message b
  notes : ∀ c, (callIntroductions msg.message msg.body msg.left c).1 =
    c.addIntroductions (caps.map ThirdPartyCap.introduction)

/-- A `Call` is heard as it was sent. -/
theorem callFrame_heard {b : Builder} {params : BPtr}
    {importedCap interfaceId methodId dwords pwords qid : Nat} {caps : List ThirdPartyCap}
    (frame : CallFrame b importedCap interfaceId methodId qid dwords pwords params caps)
    (typed : CallTyped importedCap interfaceId methodId dwords pwords)
    (fits : ∀ cap ∈ caps, cap.Fits) (framable : b.Framable) (few : b.nsegs ≤ maxSegments)
    (covered : dwords + pwords + 29 * caps.length + 64 ≤ defaultTraversalWords)
    {flat : List UInt8} (done : b.serialize = .ok flat) :
    Hears flat (HearsCall b params importedCap interfaceId methodId dwords pwords caps qid) := by
  have inside := frame.inside
  have words := frame.words
  have starts := starts_serialize done framable
  have from' := readFrom_serialize done framable frame.wf
  have slotUsed : b.Used 0 11 := Nat.lt_of_lt_of_le (by decide) inside
  have tableUsed : b.Used 0 12 := Nat.lt_of_lt_of_le (by decide) inside
  have payload (left : Nat) (enough : 3 ≤ left) :
      (Frame.message (ofList flat)).getp (Message.structAt 0 3 3 3) 1 Ptr.zero left =
        ⟨.ok, Message.structAt 0 11 0 2, left - 3⟩ :=
    starts.getp_near (by decide) (by decide) words.payload rfl (by decide) (by decide) (by omega)
      enough
  obtain ⟨paramsCost, paramsCheap, paramsEq⟩ :=
    frame.params.getp_eq from' slotUsed typed.dwords typed.pwords
  obtain ⟨tableCost, tableCheap, tableEq⟩ := frame.table.noteIntroductions_eq fits from' tableUsed
  have target (left : Nat) (enough : 3 ≤ left) :
      (Frame.message (ofList flat)).getp (Message.structAt 0 3 3 3) 0 Ptr.zero left =
        ⟨.ok, Message.structAt 0 9 1 1, left - 3⟩ :=
    starts.getp_near (by decide) (by decide) words.target rfl (by decide) (by decide) (by omega)
      enough
  obtain ⟨budget, budgetEq⟩ : ∃ left, defaultTraversalWords - 3 - 7 - 3 - paramsCost = left := ⟨_, rfl⟩
  have paramsRead : callParams (Frame.message (ofList flat)) (Message.structAt 0 3 3 3)
      (defaultTraversalWords - 3 - 7) = (⟨.ok, Message.structAt 0 11 0 2, defaultTraversalWords - 3 - 7 - 3⟩,
        ⟨.ok, Message.structAt params.seg params.word dwords pwords, budget⟩) := by
    unfold callParams
    dsimp only
    rw [payload _ (by omega)]
    dsimp only
    rw [if_neg (not_not.mpr rfl), paramsEq _ _ (by omega), budgetEq]
  have noted (c : Conn) : callIntroductions (Frame.message (ofList flat)) (Message.structAt 0 3 3 3)
      (defaultTraversalWords - 3 - 7) c =
        (c.addIntroductions (caps.map ThirdPartyCap.introduction), budget - tableCost) := by
    unfold callIntroductions
    rw [paramsRead]
    dsimp only
    rw [if_neg (not_not.mpr rfl), tableEq _ _ (by omega)]
  refine ⟨_, readIncoming_serialize done few framable words.toBodyWords (by decide) (by decide)
    (by omega), rfl, ?_, ?_, ?_, ?_, ?_, ?_, from', fun c => congrArg Prod.fst (noted c)⟩
  · exact (getU32_serialize done framable (by decide) (by omega)).trans words.qid
  · unfold Incoming.calls
    dsimp only
    rw [if_neg (not_not.mpr rfl), noted, target _ (by omega)]
    have tag : (Frame.message (ofList flat)).getU16 (Message.structAt 0 9 1 1) 4 0 = 0 := by
      rw [Message.getU16, starts.getScalar_eq (by decide) (by omega)]
      exact words.targetTag
    have named : (Frame.message (ofList flat)).getU32 (Message.structAt 0 9 1 1) 0 0 = importedCap := by
      rw [Message.getU32, starts.getScalar_eq (by decide) (by omega)]
      exact words.importedCap
    dsimp only
    rw [tag, named]
    rfl
  · exact (starts.getScalar_eq (by decide) (by omega) 0).trans words.interfaceId
  · exact (starts.getScalar_eq (by decide) (by omega) 0).trans words.methodId
  · exact congrArg (fun reads => reads.2.rc) paramsRead
  · exact congrArg (fun reads => reads.2.out) paramsRead

theorem CallFrame.serializes {b : Builder} {params : BPtr}
    {importedCap interfaceId methodId dwords pwords qid : Nat} {caps : List ThirdPartyCap}
    (frame : CallFrame b importedCap interfaceId methodId qid dwords pwords params caps) :
    ∃ flat, b.serialize = .ok flat := by
  have inside := frame.inside
  have nonempty := frame.wf.nonempty
  unfold Builder.serialize
  rw [if_neg (by omega)]
  exact ⟨_, rfl⟩

/-! ## The deeds of an application -/

/-- A question whose arguments are of their types, whose host name fits the
buffer of an introduction, and whose parameters leave the peer the budget to
read them. -/
inductive Request.Sound (qid : Nat) : Request → Prop
  | bootstrap : Sound qid .bootstrap
  | call {importedCap interfaceId methodId dwords pwords : Nat} {fill : Fill} {b : Builder}
      (typed : CallTyped importedCap interfaceId methodId dwords pwords)
      (spares : FillSpares importedCap interfaceId methodId dwords pwords fill.ops qid)
      (built : callMessage importedCap interfaceId methodId dwords pwords fill.ops qid
        Builder.init = .ok () b)
      (few : b.nsegs ≤ maxSegments) (covered : dwords + pwords + 64 ≤ defaultTraversalWords) :
      Sound qid (.call importedCap interfaceId methodId dwords pwords fill)
  | provide {importedCap port nonce : Nat} {host : List UInt8} (capLt : importedCap < 2 ^ 32)
      (short : host.length < maxHost) (portLt : port < 2 ^ 16) (nonceLt : nonce < 2 ^ 64) :
      Sound qid (.provide importedCap (some host) port nonce)
  | accept {nonce : Nat} {embargo : Bool} (nonceLt : nonce < 2 ^ 64) :
      Sound qid (.accept nonce embargo)

/-- What a peer hears of a question. -/
def Request.Heard (qid : Nat) (msg : Incoming) : Request → Prop
  | .bootstrap => msg.which = msgBootstrap ∧ msg.questionId = qid
  | .call importedCap interfaceId methodId dwords pwords fill => ∃ params b,
      beginCall importedCap interfaceId methodId dwords pwords qid Builder.init = .ok params b ∧
        HearsCall (calls fill.ops ⟨[], [params]⟩ b).2 params importedCap interfaceId methodId dwords
          pwords [] qid msg
  | .provide importedCap host port nonce => msg.which = msgProvide ∧ msg.questionId = qid ∧
      msg.body.kind = .struct ∧
        (∀ c, msg.offers c = (c.imported importedCap).map fun eid => (eid, nonce)) ∧
          msg.recipientVat = host.map fun text => (text, port)
  | .accept nonce embargo => msg.which = msgAccept ∧ msg.questionId = qid ∧
      msg.body.kind = .struct ∧ msg.presents = some nonce ∧ msg.embargo = embargo

/-- The message of a sound question is heard. -/
theorem request_heard {qid : Nat} (qidLt : qid < 2 ^ 32) {request : Request}
    (sound : request.Sound qid) : ∃ b flat, request.message qid Builder.init = .ok () b ∧
      b.serialize = .ok flat ∧ Hears flat fun msg => request.Heard qid msg := by
  cases sound with
  | bootstrap => exact bootstrapMessage_heard qidLt
  | @call _ _ _ _ _ fill b typed spares built few covered =>
      obtain ⟨params, b₁, begun, frame⟩ := callFrame_callMessage typed qidLt spares built
      obtain ⟨flat, done⟩ := frame.serializes
      have framable := fill.framable _ _ _ _ _ _ _ built
      obtain ⟨msg, read, heard⟩ := callFrame_heard frame typed (by simp) framable few covered done
      refine ⟨b, flat, built, done, msg, read, params, b₁, begun, ?_⟩
      have last : (calls fill.ops ⟨[], [params]⟩ b₁).2 = b := by
        have run := built
        rw [callMessage, bind_run begun] at run
        cases run
        rfl
      rwa [last]
  | provide capLt short portLt nonceLt =>
      exact provideMessage_heard capLt nonceLt portLt qidLt short
  | accept nonceLt => exact acceptMessage_heard nonceLt qidLt _

/-- A deed that talks to the peer, with arguments of their types; a question is
asked with a free entry and a callback that takes its message. -/
inductive Deed.Talks (c : Conn) : Deed → Prop
  | ask {env : Env} {request : Request} {i : Nat} (slot : c.questionSlot = some i)
      (qidLt : c.nextQuestionId < 2 ^ 32) (sound : request.Sound c.nextQuestionId)
      (taken : ∀ flat, env.send [] flat = 0) : Talks c (.ask env request)
  | finish {env : Env} {qid : Nat} (qidLt : qid < 2 ^ 32) : Talks c (.finish env qid)
  | release {env : Env} {importId count : Nat} (idLt : importId < 2 ^ 32)
      (countLt : count < 2 ^ 32) : Talks c (.release env importId count)
  | disembargo {env : Env} {provideQid : Nat} (qidLt : provideQid < 2 ^ 32) :
      Talks c (.disembargo env provideQid)
  | introductionDone {env : Env} {nonce i : Nat} (found : c.introductionFind nonce = some i)
      (idLt : (c.introductions i).vineId < 2 ^ 32) : Talks c (.introductionDone env nonce)

/-- What a peer hears of a deed. -/
def Deed.Heard (c : Conn) (msg : Incoming) : Deed → Prop
  | .ask _ request => request.Heard c.nextQuestionId msg
  | .finish _ qid => msg.which = msgFinish ∧ msg.questionId = qid
  | .release _ importId count => msg.which = msgRelease ∧ msg.questionId = importId ∧
      msg.message.getU32 msg.body 4 0 = count
  | .disembargo _ provideQid => msg.Disembargoes provideQid
  | .introductionDone _ nonce => ∃ i, c.introductionFind nonce = some i ∧
      msg.which = msgRelease ∧ msg.questionId = (c.introductions i).vineId ∧
        msg.message.getU32 msg.body 4 0 = 1
  | _ => False

/-- What a deed that talks leaves of the connection. -/
def Conn.spoken (c : Conn) : Deed → Conn
  | .ask _ _ => (c.questionSlot.map c.claimed).getD c
  | .finish _ qid => c.finished qid
  | .introductionDone _ nonce => match c.introductionFind nonce with
      | none => c
      | some i => { c with
          introductions := Function.update c.introductions i Introduction.zero }
  | _ => c

/-- What an application says is heard: a deed that talks hands one frame to
the callback, and the peer reads in it what was meant. -/
theorem deed_heard (c : Conn) (v : Vat) {d : Deed} (talks : d.Talks c) :
    ∃ flat, d.run c v = { World.start c v with conn := c.spoken d, sent := [flat] } ∧
      Hears flat fun msg => d.Heard c msg := by
  cases talks with
  | @ask env request i slot qidLt sound taken =>
      obtain ⟨b, flat, built, done, heard⟩ := request_heard qidLt sound
      have asked := ask_taken (World.start c v) env slot built done (taken flat)
      have run : (World.start c v).request env request =
          (World.start c v).ask env request.message := by
        cases sound <;> rfl
      refine ⟨flat, ?_, heard⟩
      rw [Deed.run, run, asked, Conn.spoken, slot]
      rfl
  | @finish env qid qidLt =>
      obtain ⟨flat, finish, sent⟩ := sendFinish_eq (World.start c v) env qidLt
      refine ⟨flat, ?_, hears_of_finishOf finish⟩
      rw [Deed.run, sent]
      rfl
  | @release env importId count idLt countLt =>
      obtain ⟨flat, release, sent⟩ := sendRelease_eq (World.start c v) env idLt countLt
      refine ⟨flat, ?_, hears_of_releaseOf release⟩
      rw [Deed.run, sent]
      rfl
  | @disembargo env provideQid qidLt =>
      obtain ⟨b, flat, built, done, heard⟩ := disembargoMessage_heard qidLt
      refine ⟨flat, ?_, heard⟩
      rw [Deed.run, World.sendDisembargoProvide, build_flush_eq _ env built done]
      rfl
  | @introductionDone env nonce i found idLt =>
      obtain ⟨flat, release, sent⟩ :=
        sendRelease_eq (World.start c v) env idLt (show 1 < 2 ^ 32 by decide)
      obtain ⟨msg, read, heard⟩ := hears_of_releaseOf release
      refine ⟨flat, ?_, msg, read, i, found, heard⟩
      have here : (World.start c v).conn.introductionFind nonce = some i := found
      rw [Deed.run, World.introductionDone, here, Conn.spoken, found]
      dsimp only
      rw [show (World.start c v).conn.introductions = c.introductions from rfl, sent]
      rfl

/-- A call with parameters of one data word and one pointer is heard. -/
theorem deed_heard_call : ∃ flat,
    (Deed.ask (returningEnv 0) (.call 3 7 1 1 1 Fill.null)).run Conn.init Vat.init =
        { World.start Conn.init Vat.init with
          conn := Conn.init.spoken (.ask (returningEnv 0) (.call 3 7 1 1 1 Fill.null))
          sent := [flat] } ∧
      Hears flat fun msg =>
        (Deed.ask (returningEnv 0) (.call 3 7 1 1 1 Fill.null)).Heard Conn.init msg := by
  refine deed_heard Conn.init Vat.init (.ask (i := 0) ?_ (by decide) (.call ⟨?_, ?_, ?_, ?_, ?_⟩
    (fun _ _ _ => ⟨fun _ => le_rfl, fun _ _ _ _ _ _ => rfl⟩) rfl ?_ ?_) fun _ => rfl)
  all_goals decide +kernel

end CapnpJanet.Rpc
