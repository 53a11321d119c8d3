import CapnpJanet.Message.Framing
import CapnpJanet.Rpc.Returns

/-!
# The messages of the asking side

The builder halves of the functions of `capnp_rpc.c` that ask a question or drop
one, and what a peer reads in the short ones among them.  Each builds a
`Message` with one struct in its union slot.  The parameters of a call are
written by the caller, so they are a program of builder calls.
-/

namespace CapnpJanet.Rpc

open ByteMemory Builder Outcome

/-! ## The messages -/

/-- `QUESTIONID_OFF` -/
def questionIdOff : Nat := 0

/-- `CALL_METHODID_OFF` -/
def callMethodIdOff : Nat := 4

/-- `CALL_INTERFACEID_OFF` -/
def callInterfaceIdOff : Nat := 8

/-- `TARGET_IMPORTEDCAP_OFF` -/
def targetImportedCapOff : Nat := 0

/-- `TARGET_TAG_OFF` -/
def targetTagOff : Nat := 4

/-- `TARGET_TAG_IMPORTEDCAP` -/
def targetTagImportedCap : Nat := 0

/-- `RELEASE_REFCOUNT_OFF` -/
def releaseRefcountOff : Nat := 4

/-- `RECIPIENT_NONCE_OFF` -/
def recipientNonceOff : Nat := 0

/-- `PROVISION_NONCE_OFF` -/
def provisionNonceOff : Nat := 0

/-- `VATID_PORT_OFF` -/
def vatIdPortOff : Nat := 0

/-- `ACCEPT_EMBARGO_BIT` -/
def acceptEmbargoBit : Nat := 32

/-- `begin_message` -/
def beginBody (tag dwords pwords : Nat) : BuildM BPtr := BuildM.orAlloc do
  let msg ← beginMessage tag
  let at' ← slot msg 1 0
  struct at' dwords pwords

/-- The `MessageTarget` in slot 0 of a body with `dwords` data words. -/
def writeTarget (body : BPtr) (dwords importedCap : Nat) : BuildM Unit := do
  let at' ← slot body dwords 0
  let target ← struct at' 1 1
  setU16 target targetTagOff targetTagImportedCap
  setU32 target targetImportedCapOff importedCap

/-- The message of `capnp_rpc_send_bootstrap`. -/
def bootstrapMessage (qid : Nat) : BuildM Unit := do
  let boot ← beginBody msgBootstrap 1 1
  setU32 boot questionIdOff qid

/-- The message of `capnp_rpc_send_call`, up to its parameters. -/
def beginCall (importedCap interfaceId methodId paramsDwords paramsPwords qid : Nat) :
    BuildM BPtr := do
  let call ← beginBody msgCall 3 3
  setU32 call questionIdOff qid
  setU16 call callMethodIdOff methodId
  setU64 call callInterfaceIdOff interfaceId
  writeTarget call 3 importedCap
  let at' ← slot call 3 1
  let payload ← struct at' 0 2
  let at' ← slot payload 0 0
  struct at' paramsDwords paramsPwords

/-- The caller fills in the parameters; what its calls return is its own
affair. -/
def fillParams (fill : List BuildOp) (params : BPtr) : BuildM Unit := fun b =>
  .ok () (calls fill ⟨[], [params]⟩ b).2

/-- The message of `capnp_rpc_send_call`.  Without a `fill` function nothing is
filled in. -/
def callMessage (importedCap interfaceId methodId paramsDwords paramsPwords : Nat)
    (fill : List BuildOp) (qid : Nat) : BuildM Unit := do
  let params ← beginCall importedCap interfaceId methodId paramsDwords paramsPwords qid
  fillParams fill params

/-- What a caller fills in.  Its parameters are taken to fit a frame, like the
results of a dispatch function. -/
structure Fill where
  ops : List BuildOp
  framable : ∀ importedCap interfaceId methodId paramsDwords paramsPwords qid b,
    callMessage importedCap interfaceId methodId paramsDwords paramsPwords ops qid Builder.init =
      .ok () b → b.Framable

/-- The message of `capnp_rpc_send_provide`. -/
def provideMessage (importedCap : Nat) (recipientHost : List UInt8) (recipientPort nonce qid : Nat) :
    BuildM Unit := do
  let provide ← beginBody msgProvide 1 2
  setU32 provide questionIdOff qid
  writeTarget provide 1 importedCap
  let at' ← slot provide 1 1
  let recipient ← struct at' 1 1
  setU64 recipient recipientNonceOff nonce
  let at' ← slot recipient 1 0
  let vat ← struct at' 1 1
  setText vat 1 0 recipientHost
  setU16 vat vatIdPortOff recipientPort

/-- The message of `capnp_rpc_send_accept`. -/
def acceptMessage (nonce : Nat) (embargo : Bool) (qid : Nat) : BuildM Unit := do
  let accept ← beginBody msgAccept 1 1
  setU32 accept questionIdOff qid
  if embargo then setBool accept acceptEmbargoBit true
  let at' ← slot accept 1 0
  let provision ← struct at' 1 0
  setU64 provision provisionNonceOff nonce

/-- The message of `capnp_rpc_send_disembargo_provide`. -/
def disembargoMessage (provideQid : Nat) : BuildM Unit := do
  let dis ← beginBody msgDisembargo 1 1
  setU16 dis disCtxTagOff disCtxProvide
  setU32 dis disCtxValueOff provideQid

/-- The message of `capnp_rpc_send_finish`. -/
def finishMessage (qid : Nat) : BuildM Unit := do
  let fin ← beginBody msgFinish 1 0
  setU32 fin questionIdOff qid

/-- The message of `capnp_rpc_send_release`. -/
def releaseMessage (importId count : Nat) : BuildM Unit := do
  let rel ← beginBody msgRelease 1 0
  setU32 rel questionIdOff importId
  setU32 rel releaseRefcountOff count

/-! ## Messages that cannot be built -/

/-- A computation whose failures all have a code. -/
def Refuses {α : Type} (x : BuildM α) : Prop := ∀ b rc b', x b = .error rc b' → rc ≠ .ok

section
variable {α β : Type}

theorem refuses_bind {x : BuildM α} {f : α → BuildM β} (first : Refuses x)
    (rest : ∀ a, Refuses (f a)) : Refuses (x >>= f) := by
  intro b rc b' failed
  simp only [bind, EStateM.bind] at failed
  cases run : x b with
  | ok a b₁ =>
      rw [run] at failed
      exact rest a b₁ rc b' failed
  | error rc₁ b₁ =>
      rw [run] at failed
      cases failed
      exact first b _ _ run

theorem refuses_orAlloc (x : BuildM α) : Refuses (BuildM.orAlloc x) := by
  intro b rc b' failed
  unfold BuildM.orAlloc at failed
  split at failed
  · cases failed
  · cases failed
    decide

theorem refuses_writePtr (make : Int → Nat) (slotSeg slotWord bodySeg bodyWord : Nat) :
    Refuses (writePtr make slotSeg slotWord bodySeg bodyWord) := by
  intro b rc b' failed
  unfold writePtr at failed
  split at failed
  · cases failed
  · split at failed
    · cases failed
    · split at failed
      · cases failed
        decide
      · cases failed

theorem refuses_struct (ptr : BPtr) (dwords pwords : Nat) : Refuses (struct ptr dwords pwords) := by
  intro b rc b' failed
  unfold struct at failed
  split at failed
  · cases failed
  · split at failed
    · cases failed
      decide
    · split at failed
      · next written =>
        cases failed
        exact refuses_writePtr _ _ _ _ _ _ _ _ written
      · cases failed

theorem refuses_slot (body : BPtr) (dwords ptrIndex : Nat) : Refuses (slot body dwords ptrIndex) := by
  intro b rc b' failed
  unfold slot at failed
  dsimp only at failed
  split at failed
  · cases failed
    decide
  · cases failed

theorem refuses_setScalar (width : Nat) (body : BPtr) (byteOffset value : Nat) :
    Refuses (setScalar width body byteOffset value) := by
  intro b rc b' failed
  unfold setScalar at failed
  dsimp only at failed
  split at failed
  · cases failed
    decide
  · cases failed

theorem refuses_setBool (body : BPtr) (bitOffset : Nat) (value : Bool) :
    Refuses (setBool body bitOffset value) := by
  intro b rc b' failed
  unfold setBool at failed
  dsimp only at failed
  split at failed
  · cases failed
    decide
  · cases failed

theorem refuses_setText (body : BPtr) (dwords ptrIndex : Nat) (text : List UInt8) :
    Refuses (setText body dwords ptrIndex text) := by
  intro b rc b' failed
  unfold setText withSlot at failed
  split at failed
  · next checked =>
    cases failed
    exact refuses_slot _ _ _ _ _ _ checked
  · unfold writeTextAt writeListBody at failed
    split at failed
    · dsimp only at failed
      split at failed
      · cases failed
        decide
      · exact refuses_writePtr _ _ _ _ _ _ _ _ failed
    · exact refuses_writePtr _ _ _ _ _ _ _ _ failed

theorem refuses_writeTarget (body : BPtr) (dwords importedCap : Nat) :
    Refuses (writeTarget body dwords importedCap) :=
  refuses_bind (refuses_slot _ _ _) fun _ => refuses_bind (refuses_struct _ _ _) fun _ =>
    refuses_bind (refuses_setScalar _ _ _ _) fun _ => refuses_setScalar _ _ _ _

end

theorem bootstrapMessage_refuses (qid : Nat) : Refuses (bootstrapMessage qid) :=
  refuses_bind (refuses_orAlloc _) fun _ => refuses_setScalar _ _ _ _

theorem callMessage_refuses (importedCap interfaceId methodId paramsDwords paramsPwords : Nat)
    (fill : List BuildOp) (qid : Nat) :
    Refuses (callMessage importedCap interfaceId methodId paramsDwords paramsPwords fill qid) := by
  refine refuses_bind ?_ fun _ => nofun
  refine refuses_bind (refuses_orAlloc _) fun _ => ?_
  refine refuses_bind (refuses_setScalar _ _ _ _) fun _ => ?_
  refine refuses_bind (refuses_setScalar _ _ _ _) fun _ => ?_
  refine refuses_bind (refuses_setScalar _ _ _ _) fun _ => ?_
  refine refuses_bind (refuses_writeTarget _ _ _) fun _ => ?_
  refine refuses_bind (refuses_slot _ _ _) fun _ => ?_
  refine refuses_bind (refuses_struct _ _ _) fun _ => ?_
  exact refuses_bind (refuses_slot _ _ _) fun _ => refuses_struct _ _ _

theorem provideMessage_refuses (importedCap : Nat) (recipientHost : List UInt8)
    (recipientPort nonce qid : Nat) :
    Refuses (provideMessage importedCap recipientHost recipientPort nonce qid) := by
  refine refuses_bind (refuses_orAlloc _) fun _ => ?_
  refine refuses_bind (refuses_setScalar _ _ _ _) fun _ => ?_
  refine refuses_bind (refuses_writeTarget _ _ _) fun _ => ?_
  refine refuses_bind (refuses_slot _ _ _) fun _ => ?_
  refine refuses_bind (refuses_struct _ _ _) fun _ => ?_
  refine refuses_bind (refuses_setScalar _ _ _ _) fun _ => ?_
  refine refuses_bind (refuses_slot _ _ _) fun _ => ?_
  refine refuses_bind (refuses_struct _ _ _) fun _ => ?_
  exact refuses_bind (refuses_setText _ _ _ _) fun _ => refuses_setScalar _ _ _ _

theorem acceptMessage_refuses (nonce : Nat) (embargo : Bool) (qid : Nat) :
    Refuses (acceptMessage nonce embargo qid) := by
  refine refuses_bind (refuses_orAlloc _) fun accept => ?_
  refine refuses_bind (refuses_setScalar _ _ _ _) fun _ => ?_
  have rest : Refuses (do
      let at' ← slot accept 1 0
      let provision ← struct at' 1 0
      setU64 provision provisionNonceOff nonce) := by
    refine refuses_bind (refuses_slot _ _ _) fun _ => ?_
    exact refuses_bind (refuses_struct _ _ _) fun _ => refuses_setScalar _ _ _ _
  cases embargo with
  | false => exact rest
  | true => exact refuses_bind (refuses_setBool _ _ _) fun _ => rest

/-! ## A message and its struct -/

/-- The words of a `Message` and the pointer to its struct. -/
structure BodyWords (mem : Memory) (tag dwords pwords : Nat) : Prop extends
    MessageWords mem tag where
  body : word mem 2 = wpMakeStruct 0 dwords pwords

/-- The first segment after `begin_message`. -/
def bodyMem (tag dwords pwords : Nat) : Memory :=
  storeWord (messageMem tag) 2 (wpMakeStruct 0 dwords pwords)

theorem beginBody_init (tag : Nat) {dwords pwords : Nat} (some : dwords + pwords ≠ 0)
    (room : 3 + (dwords + pwords) ≤ builderDefaultFirstWords) :
    beginBody tag dwords pwords Builder.init =
      .ok ⟨0, 3⟩ (single (bodyMem tag dwords pwords) (3 + (dwords + pwords))) := by
  apply orAlloc_run
  rw [bind_run (beginMessage_init tag), bind_run (slot_single (by decide)),
    struct_single some room]
  rfl

theorem bodyWords_bodyMem {tag : Nat} (small : tag < 2 ^ 16) (dwords pwords : Nat) :
    BodyWords (bodyMem tag dwords pwords) tag dwords pwords where
  toMessageWords := (messageWords_messageMem small).congr fun i hi => storeWord_of_ne (by omega)
  body := by
    rw [bodyMem, word_storeWord_self]
    exact Nat.mod_eq_of_lt (wpMakeStruct_lt _ _ _)

theorem BodyWords.congr {mem other : Memory} {tag dwords pwords : Nat}
    (head : BodyWords mem tag dwords pwords) (same : ∀ i < 24, other i = mem i) :
    BodyWords other tag dwords pwords where
  toMessageWords := head.toMessageWords.congr fun i hi => same i (by omega)
  body := (word_congr fun k hk => same _ (by omega)).trans head.body

/-- A frame that starts like a `Message` with a struct is read as such. -/
theorem readIncoming_serialize {b : Builder} {flat : List UInt8} (done : b.serialize = .ok flat)
    (few : b.nsegs ≤ maxSegments) (fits : b.Framable) {tag dwords pwords : Nat}
    (head : BodyWords (b.seg 0).data tag dwords pwords) (some : dwords + pwords ≠ 0)
    (small : dwords + pwords ≤ 32) (inside : 3 + (dwords + pwords) ≤ (b.seg 0).words) :
    readIncoming flat = Option.some {
      message := Frame.message (ofList flat)
      root := Message.structAt 0 1 1 1
      which := tag
      body := Message.structAt 0 3 dwords pwords
      left := defaultTraversalWords - 3 - (dwords + pwords + 1) } := by
  have budget : 64 ≤ defaultTraversalWords := covered_default le_rfl
  have starts := starts_serialize done fits
  obtain ⟨nonempty, -, same⟩ := serialize_eq done
  have parsed : messageFromFlat flat = .ok (Frame.message (ofList flat)) := by
    rw [same]
    exact parseFlat_of_accepted (Message.accepted_flatBytes nonempty few fits)
  have body : (Frame.message (ofList flat)).getp (Message.structAt 0 1 1 1) 0 Ptr.zero
      (defaultTraversalWords - 3) = ⟨.ok, Message.structAt 0 3 dwords pwords,
        defaultTraversalWords - 3 - (dwords + pwords + 1)⟩ := by
    rw [Message.getp_structAt (by decide) (by decide)]
    exact starts.resolve_struct head.body some (by omega) (by omega) inside (by omega)
  unfold readIncoming
  rw [parsed]
  dsimp only
  rw [starts.root_eq head.toMessageWords (by omega) (by omega), Message.getU16, messageTagOff,
    starts.getScalar_eq (by decide) (by omega), head.tag]
  dsimp only
  rw [body]
  simp

/-- The `u32` at an offset of the struct of such a frame. -/
theorem getU32_serialize {b : Builder} {flat : List UInt8} (done : b.serialize = .ok flat)
    (fits : b.Framable) {dwords pwords offset : Nat} (within : offset + 4 ≤ dwords * 8)
    (inside : 3 + dwords ≤ (b.seg 0).words) :
    (Frame.message (ofList flat)).getU32 (Message.structAt 0 3 dwords pwords) offset 0 =
      loadLe 4 (b.seg 0).data (24 + offset) :=
  (starts_serialize done fits).getScalar_eq within inside 0

/-! ## The short messages -/

/-- The question a frame finishes, if a peer reads it as a `Finish`. -/
def finishOf (flat : List UInt8) : Option Nat :=
  (readIncoming flat).bind fun msg =>
    if msg.which = msgFinish then some (msg.message.getU32 msg.body questionIdOff 0) else none

/-- The import and the count a frame releases, if a peer reads it as a
`Release`. -/
def releaseOf (flat : List UInt8) : Option (Nat × Nat) :=
  (readIncoming flat).bind fun msg =>
    if msg.which = msgRelease then
      some (msg.message.getU32 msg.body questionIdOff 0,
        msg.message.getU32 msg.body releaseRefcountOff 0)
    else none

/-- The tag of the message that a peer reads in a frame. -/
def tagOf (flat : List UInt8) : Option Nat := (readIncoming flat).map Incoming.which

/-- The first segment of a message whose struct starts with an id. -/
def idMem (tag dwords pwords qid : Nat) : Memory := storeLe 4 (bodyMem tag dwords pwords) 24 qid

theorem bodyWords_idMem {tag : Nat} (small : tag < 2 ^ 16) (dwords pwords qid : Nat) :
    BodyWords (idMem tag dwords pwords qid) tag dwords pwords :=
  (bodyWords_bodyMem small dwords pwords).congr fun i hi => storeLe_of_lt (by omega)

theorem setId_single (tag : Nat) {dwords pwords words : Nat} (room : 4 ≤ words) (qid : Nat) :
    setU32 ⟨0, 3⟩ questionIdOff qid (single (bodyMem tag dwords pwords) words) =
      .ok () (single (idMem tag dwords pwords qid) words) :=
  setScalar_single (by unfold questionIdOff; omega)

theorem loadLe_idMem {tag dwords pwords qid : Nat} (qidLt : qid < 2 ^ 32) :
    loadLe 4 (idMem tag dwords pwords qid) 24 = qid := by
  rw [idMem, loadLe_storeLe]
  exact Nat.mod_eq_of_lt qidLt

/-- A frame in the first segment that starts like a `Message` is read. -/
theorem readIncoming_single {mem : Memory} {words : Nat} {flat : List UInt8}
    (done : (single mem words).serialize = .ok flat) (wordsLt : words < 2 ^ 32)
    {tag dwords pwords : Nat} (head : BodyWords mem tag dwords pwords) (some : dwords + pwords ≠ 0)
    (small : dwords + pwords ≤ 32) (inside : 3 + (dwords + pwords) ≤ words) :
    readIncoming flat = Option.some {
      message := Frame.message (ofList flat)
      root := Message.structAt 0 1 1 1
      which := tag
      body := Message.structAt 0 3 dwords pwords
      left := defaultTraversalWords - 3 - (dwords + pwords + 1) } :=
  readIncoming_serialize done (show 1 ≤ maxSegments by decide) (framable_single wordsLt)
    (by rwa [single_seg_zero]) some
    small (by rwa [single_seg_zero])

/-- The `u32` at an offset of the struct of such a frame. -/
theorem getU32_single {mem : Memory} {words : Nat} {flat : List UInt8}
    (done : (single mem words).serialize = .ok flat) (wordsLt : words < 2 ^ 32)
    {dwords pwords offset : Nat} (within : offset + 4 ≤ dwords * 8) (inside : 3 + dwords ≤ words) :
    (Frame.message (ofList flat)).getU32 (Message.structAt 0 3 dwords pwords) offset 0 =
      loadLe 4 mem (24 + offset) := by
  rw [getU32_serialize done (framable_single wordsLt) within (by rwa [single_seg_zero]),
    single_seg_zero]

/-- `capnp_rpc_send_finish` builds a `Finish` of the question. -/
theorem finishMessage_reads {qid : Nat} (qidLt : qid < 2 ^ 32) : ∃ b flat,
    finishMessage qid Builder.init = .ok () b ∧ b.serialize = .ok flat ∧
      finishOf flat = some qid := by
  have head : BodyWords (idMem msgFinish 1 0 qid) msgFinish 1 0 :=
    bodyWords_idMem (by decide) _ _ qid
  obtain ⟨flat, done⟩ := serialize_single (idMem msgFinish 1 0 qid) (show 4 ≠ 0 by decide)
  refine ⟨_, flat, ?_, done, ?_⟩
  · rw [finishMessage, bind_run (beginBody_init msgFinish (by decide) (by decide))]
    exact setId_single msgFinish (by decide) qid
  · rw [finishOf, readIncoming_single done (by decide) head (by decide) (by decide) (by decide)]
    dsimp only [Option.bind_some]
    rw [if_pos rfl, getU32_single done (by decide) (by decide) (by decide)]
    exact congrArg Option.some (loadLe_idMem qidLt)

/-- The first segment of a `Release`. -/
def releaseMem (importId count : Nat) : Memory :=
  storeLe 4 (idMem msgRelease 1 0 importId) 28 count

/-- `capnp_rpc_send_release` builds a `Release` of the import. -/
theorem releaseMessage_reads {importId count : Nat} (idLt : importId < 2 ^ 32)
    (countLt : count < 2 ^ 32) : ∃ b flat,
    releaseMessage importId count Builder.init = .ok () b ∧ b.serialize = .ok flat ∧
      releaseOf flat = some (importId, count) := by
  have head : BodyWords (releaseMem importId count) msgRelease 1 0 :=
    (bodyWords_idMem (by decide) _ _ importId).congr fun i hi =>
      storeLe_of_lt (by omega)
  obtain ⟨flat, done⟩ := serialize_single (releaseMem importId count) (show 4 ≠ 0 by decide)
  refine ⟨_, flat, ?_, done, ?_⟩
  · rw [releaseMessage, bind_run (beginBody_init msgRelease (by decide) (by decide)),
      bind_run (setId_single msgRelease (by decide) importId), setU32, releaseRefcountOff,
      setScalar_single (by decide)]
    rfl
  · rw [releaseOf, readIncoming_single done (by decide) head (by decide) (by decide) (by decide)]
    dsimp only [Option.bind_some]
    rw [if_pos rfl, getU32_single done (by decide) (by decide) (by decide),
      getU32_single done (by decide) (by decide) (by decide), questionIdOff, releaseRefcountOff,
      releaseMem, loadLe_storeLe_disjoint (by omega), loadLe_idMem idLt, loadLe_storeLe]
    exact congrArg (fun n => some (importId, n)) (Nat.mod_eq_of_lt countLt)

/-- `capnp_rpc_send_bootstrap` builds a message that can be sent. -/
theorem bootstrapMessage_sends (qid : Nat) : ∃ b flat,
    bootstrapMessage qid Builder.init = .ok () b ∧ b.serialize = .ok flat := by
  obtain ⟨flat, done⟩ := serialize_single (idMem msgBootstrap 1 1 qid) (show 5 ≠ 0 by decide)
  refine ⟨_, flat, ?_, done⟩
  rw [bootstrapMessage, bind_run (beginBody_init msgBootstrap (by decide) (by decide))]
  exact setId_single msgBootstrap (by decide) qid

/-! ## Calls -/

/-- A segment of `words` words after a target is written for the pointer slot
`slotWord`. -/
def targetMem (mem : Memory) (slotWord words importedCap : Nat) : Memory :=
  storeLe 4
    (storeLe 2 (storeWord mem slotWord (wpMakeStruct ((words : Int) - slotWord - 1) 1 1))
      (words * 8 + targetTagOff) targetTagImportedCap)
    (words * 8 + targetImportedCapOff) importedCap

theorem writeTarget_single (mem : Memory) {words dwords : Nat} (importedCap : Nat)
    (inside : 3 + dwords < words) (room : words + 2 ≤ builderDefaultFirstWords) :
    writeTarget ⟨0, 3⟩ dwords importedCap (single mem words) =
      .ok () (single (targetMem mem (3 + dwords) words importedCap) (words + 2)) := by
  rw [writeTarget, bind_run (slot_single (by omega)), bind_run (struct_single (by decide) (by omega)),
    setU16, bind_run (setScalar_single (by unfold targetTagOff; omega)), setU32,
    setScalar_single (by unfold targetImportedCapOff; omega)]
  rfl

/-- Below its slot a target changes nothing. -/
theorem targetMem_of_lt {mem : Memory} {slotWord words importedCap i : Nat}
    (before : slotWord < words) (below : i < slotWord * 8) :
    targetMem mem slotWord words importedCap i = mem i := by
  rw [targetMem, storeLe_of_lt (by omega), storeLe_of_lt (by omega), storeWord_of_ne (by omega)]

/-- The struct of a `Call`. -/
def callBodyMem (interfaceId methodId qid : Nat) : Memory :=
  storeLe 8 (storeLe 2 (idMem msgCall 3 3 qid) 28 methodId) 32 interfaceId

/-- The first segment of a `Call` before its parameters: their slot is word
11. -/
def callMem (importedCap interfaceId methodId qid : Nat) : Memory :=
  storeWord (targetMem (callBodyMem interfaceId methodId qid) 6 9 importedCap) 7
    (wpMakeStruct (3 : Nat) 0 2)

theorem beginCall_init (importedCap interfaceId methodId paramsDwords paramsPwords qid : Nat) :
    beginCall importedCap interfaceId methodId paramsDwords paramsPwords qid Builder.init =
      struct ⟨0, 11⟩ paramsDwords paramsPwords
        (single (callMem importedCap interfaceId methodId qid) 13) := by
  rw [beginCall, bind_run (beginBody_init msgCall (by decide) (by decide)),
    bind_run (setId_single msgCall (by decide) qid), setU16, bind_run (setScalar_single (by decide)),
    setU64, bind_run (setScalar_single (by decide)),
    bind_run (writeTarget_single _ importedCap (by decide) (by decide)),
    bind_run (slot_single (by decide)), bind_run (struct_single (by decide) (by decide)),
    bind_run (slot_single (by decide))]
  rfl

theorem callMem_of_lt (importedCap interfaceId methodId qid : Nat) {i : Nat} (below : i < 28) :
    callMem importedCap interfaceId methodId qid i = idMem msgCall 3 3 qid i := by
  rw [callMem, storeWord_of_ne (by omega), targetMem_of_lt (by decide) (by omega), callBodyMem,
    storeLe_of_lt (by omega), storeLe_of_lt (by omega)]

theorem callMem_clear (importedCap interfaceId methodId qid : Nat) {i : Nat} (behind : 88 ≤ i) :
    callMem importedCap interfaceId methodId qid i = 0 := by
  rw [callMem, storeWord_of_ne (by omega), targetMem, storeLe_of_le, storeLe_of_le,
    storeWord_of_ne (by omega), callBodyMem, storeLe_of_le (by omega), storeLe_of_le (by omega),
    idMem, storeLe_of_le (by omega), bodyMem, storeWord_of_ne (by omega), messageMem_clear _ (by omega)]
  · unfold targetTagOff
    omega
  · unfold targetImportedCapOff
    omega

section
variable {importedCap interfaceId methodId paramsDwords paramsPwords qid : Nat} {b : Builder}

/-- What the caller fills in stays behind the slot of the parameters. -/
theorem callMessage_kept {fill : List BuildOp}
    (built : callMessage importedCap interfaceId methodId paramsDwords paramsPwords fill qid
      Builder.init = .ok () b) :
    (∀ i < 88, (b.seg 0).data i = callMem importedCap interfaceId methodId qid i) ∧
      13 ≤ (b.seg 0).words ∧ b.Wf := by
  have wf : (single (callMem importedCap interfaceId methodId qid) 13).Wf :=
    wf_single (by decide) fun i behind => callMem_clear _ _ _ _ (by omega)
  have size : ((single (callMem importedCap interfaceId methodId qid) 13).seg 0).words = 13 := by
    rw [single_seg_zero]
  have inUse : (single (callMem importedCap interfaceId methodId qid) 13).Used 0 11 := by
    rw [Used, size]
    decide
  have ends := @struct_ends _ wf ⟨0, 11⟩ inUse paramsDwords paramsPwords
  rw [callMessage] at built
  simp only [bind, EStateM.bind, beginCall_init] at built
  cases run : struct ⟨0, 11⟩ paramsDwords paramsPwords
      (single (callMem importedCap interfaceId methodId qid) 13) with
  | error rc b₁ =>
      rw [run] at built
      cases built
  | ok params b₁ =>
      rw [run] at built ends
      obtain ⟨writes, place⟩ := ends
      have held : Held 0 11 ⟨[], [params]⟩ b₁ := by
        refine ⟨by simp, by simp, fun ptr member => ?_⟩
        rw [List.mem_singleton.mp member]
        rcases place with rfl | ⟨fresh, -⟩
        · exact .inr le_rfl
        · exact fresh_behind (by rw [size]; decide) fresh
      have words := writes.words_le 0
      rw [size] at words
      have filled := calls_writes writes.wf held (by omega) fill
      have last : b = (calls fill ⟨[], [params]⟩ b₁).2 := by
        cases built
        rfl
      rw [← last] at filled
      refine ⟨fun i hi => ?_, words.trans (filled.words_le 0), filled.wf⟩
      have kept := filled.kept 0 i (by omega) (by
        rintro (other | late)
        · exact other rfl
        · omega)
      rw [kept, writes.kept 0 i (by rw [size]; omega) (by
        rintro ⟨-, word⟩
        dsimp only at word
        omega), single_seg_zero]

end

/-- Parameters that are left as they are fit a frame. -/
theorem framable_callMessage {importedCap interfaceId methodId paramsDwords paramsPwords qid : Nat}
    {b : Builder} (built : callMessage importedCap interfaceId methodId paramsDwords paramsPwords []
      qid Builder.init = .ok () b) : b.Framable := by
  have clear (i : Nat) (behind : 13 * 8 ≤ i) : callMem importedCap interfaceId methodId qid i = 0 :=
    callMem_clear _ _ _ _ (by omega)
  have limited := limited_single clear (show 13 ≤ builderDefaultFirstWords by decide)
  have inUse : (single (callMem importedCap interfaceId methodId qid) 13).Used 0 11 := by
    rw [Used, single_seg_zero]
    exact show 11 < 13 by decide
  rw [callMessage] at built
  simp only [bind, EStateM.bind, beginCall_init] at built
  split at built
  · next params b₁ run =>
    have sized := (limited.struct inUse run).framable (by decide)
    cases built
    exact sized
  · cases built

/-- A `NULL` fill function. -/
def Fill.null : Fill := ⟨[], fun _ _ _ _ _ _ _ built => framable_callMessage built⟩

end CapnpJanet.Rpc
