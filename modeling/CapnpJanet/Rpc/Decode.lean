import CapnpJanet.Builder.Single
import CapnpJanet.Message.Landing
import CapnpJanet.Rpc.Handle

/-!
# What a peer reads in a frame

A sent frame is a byte string; what it says is what the reader half of the
library reads in it.  `returnOf` and `capIdOf` are the reads a peer makes on a
`Return`, and the theorems say what they give on the frames of this connection:
the words at the start of the first segment decide.
-/

namespace CapnpJanet.Rpc

open ByteMemory Builder Outcome

/-- The question a `Return` answers, and its union tag. -/
structure ReturnInfo where
  answerId : Nat
  which : Nat
deriving DecidableEq, Repr

/-- A frame read as a `Return`. -/
def returnOf (frame : List UInt8) : Option ReturnInfo :=
  let m := Frame.message (ofList frame)
  let root := m.root Ptr.zero defaultTraversalWords
  if root.rc ≠ .ok ∨ m.getU16 root.out messageTagOff 0 ≠ msgReturn then none
  else
    let ret := m.getp root.out 0 Ptr.zero root.left
    if ret.rc ≠ .ok ∨ ret.out.kind ≠ .struct then none
    else some ⟨m.getU32 ret.out returnAnswerIdOff 0, m.getU16 ret.out returnTagOff 0⟩

/-- The `senderHosted` id of the capability a `Return` carries as its content,
read as `capnp_rpc_answer_cap_id` reads it. -/
def capIdOf (frame : List UInt8) : Option Nat :=
  let m := Frame.message (ofList frame)
  match answerPayload m with
  | none => none
  | some (payload, content, left) =>
      if content.kind ≠ .cap then none
      else
        let table := m.getp payload 1 Ptr.zero left
        if table.rc ≠ .ok ∨ content.count ≥ listLen table.out then none
        else
          match Message.listGetStruct table.out content.count Ptr.zero with
          | (.ok, desc) =>
              if m.getU16 desc capDescTagOff 0 ≠ capDescTagSenderHosted then none
              else some (m.getU32 desc capDescSenderHostedOff 0)
          | _ => none

/-- The `Payload` of a results `Return`, with the budget left on it. -/
def returnPayload (m : Message) : Option (Ptr × Nat) :=
  let root := m.root Ptr.zero defaultTraversalWords
  if root.rc ≠ .ok then none
  else if m.getU16 root.out messageTagOff 0 ≠ msgReturn then none
  else
    let ret := m.getp root.out 0 Ptr.zero root.left
    if ret.rc ≠ .ok then none
    else if m.getU16 ret.out returnTagOff 0 ≠ returnTagResults then none
    else
      let payload := m.getp ret.out 0 Ptr.zero ret.left
      if payload.rc ≠ .ok then none else some (payload.out, payload.left)

/-- The export that entry `n` of a cap table names as `senderHosted`. -/
def hostedEntry (m : Message) (table : Ptr) (n : Nat) : Option Nat :=
  match Message.listGetStruct table n Ptr.zero with
  | (.ok, desc) =>
      if m.getU16 desc capDescTagOff 0 ≠ capDescTagSenderHosted then none
      else some (m.getU32 desc capDescSenderHostedOff 0)
  | _ => none

/-- The exports that the `senderHosted` descriptors of a `Return` name. -/
def hostedIds (frame : List UInt8) : List Nat :=
  let m := Frame.message (ofList frame)
  match returnPayload m with
  | none => []
  | some (payload, left) =>
      let table := m.getp payload 1 Ptr.zero left
      if table.rc ≠ .ok then []
      else (List.range (listLen table.out)).filterMap (hostedEntry m table.out)

/-- The `joinId` and the flag of a `Return` with a `JoinResult`. -/
def joinResultOf (frame : List UInt8) : Option (Nat × Bool) :=
  let m := Frame.message (ofList frame)
  match returnPayload m with
  | none => none
  | some (payload, left) =>
      let jr := m.getp payload 0 Ptr.zero left
      if jr.rc ≠ .ok ∨ jr.out.kind ≠ .struct then none
      else some (m.getU32 jr.out 0 0, m.getBool jr.out 32 false)

/-! ## Reading the start of the first segment -/

/-- The words of a `Message` struct with its tag. -/
structure MessageWords (mem : Memory) (tag : Nat) : Prop where
  root : word mem 0 = wpMakeStruct 0 1 1
  tag : loadLe 2 mem 8 = tag

/-- The words of a `Return` for a question. -/
structure ReturnWords (mem : Memory) (qid which : Nat) : Prop extends
    MessageWords mem msgReturn where
  ret : word mem 2 = wpMakeStruct 0 2 1
  answerId : loadLe 4 mem 24 = qid
  which : loadLe 2 mem 30 = which

/-- The first segment of a message starts with the bytes of a memory. -/
structure Starts (m : Message) (mem : Memory) (words : Nat) : Prop where
  depth : m.depthLimit = defaultDepthLimit
  segLt : 0 < m.nsegs
  words_le : words ≤ (m.seg 0).words
  same : ∀ i < words * 8, (m.seg 0).data i = mem i

section
variable {m : Message} {mem other : Memory} {words : Nat}

theorem Starts.loadLe_eq (starts : Starts m mem words) {k p : Nat} (inside : p + k ≤ words * 8) :
    loadLe k (m.seg 0).data p = loadLe k mem p :=
  loadLe_congr fun i hi => starts.same (p + i) (by omega)

theorem Starts.readWord_eq (starts : Starts m mem words) {i : Nat} (inside : i < words) :
    m.readWord 0 i = word mem i :=
  word_congr fun k hk => starts.same (8 * i + k) (by omega)

/-- A near struct pointer at the start of the first segment. -/
theorem Starts.resolve_struct (starts : Starts m mem words) {slot dwords pwords left : Nat}
    {out : Ptr} (reads : word mem slot = wpMakeStruct 0 dwords pwords) (some : dwords + pwords ≠ 0)
    (dwordsLt : dwords < 2 ^ 16) (pwordsLt : pwords < 2 ^ 16)
    (inside : slot + 1 + (dwords + pwords) ≤ words) (covered : dwords + pwords + 1 ≤ left) :
    m.resolvePtr 0 slot m.depthLimit out left =
      ⟨.ok, Message.structAt 0 (slot + 1) dwords pwords, left - (dwords + pwords + 1)⟩ := by
  have notNull : wpMakeStruct 0 dwords pwords ≠ 0 := by
    unfold wpMakeStruct
    omega
  have slotReads : m.readWord 0 slot = wpMakeStruct 0 dwords pwords := by
    rw [starts.readWord_eq (by omega), reads]
  have bounds := starts.words_le
  have limit : m.depthLimit ≠ 0 := by
    rw [starts.depth]
    decide
  have target : m.slotTarget m.depthLimit 0 slot =
      Option.some (Message.structAt 0 (slot + 1) dwords pwords, dwords + pwords + 1) :=
    Message.slotTarget_struct limit starts.segLt slotReads notNull (by unfold OffsetFits; omega)
      dwordsLt pwordsLt (by omega) (by omega) (by omega)
  exact Message.resolvePtr_eq target covered

/-- A null pointer at the start of the first segment. -/
theorem Starts.resolve_null (starts : Starts m mem words) {slot left : Nat} {out : Ptr}
    (reads : word mem slot = 0) (inside : slot < words) (covered : 1 ≤ left) :
    m.resolvePtr 0 slot m.depthLimit out left = ⟨.ok, nullPtr 0 slot, left - 1⟩ := by
  have bounds := starts.words_le
  refine Message.resolvePtr_eq (Message.slotTarget_eq ⟨starts.segLt, by omega⟩
    ((starts.readWord_eq inside).trans reads) ?_) covered
  rw [starts.depth, show defaultDepthLimit = 63 + 1 from rfl, Message.target, if_pos rfl]

/-- The root of a frame that starts like a `Message`. -/
theorem Starts.root_eq (starts : Starts m mem words) {tag left : Nat} (head : MessageWords mem tag)
    (inside : 3 ≤ words) (covered : 3 ≤ left) :
    m.root Ptr.zero left = ⟨.ok, Message.structAt 0 1 1 1, left - 3⟩ := by
  rw [Message.root, if_neg starts.segLt.ne', starts.resolve_struct head.root (by decide) (by decide)
    (by decide) inside covered]

/-- The `Return` of a frame that starts like one. -/
theorem Starts.ret_eq (starts : Starts m mem words) {qid which left : Nat} {out : Ptr}
    (head : ReturnWords mem qid which) (inside : 6 ≤ words) (covered : 4 ≤ left) :
    m.getp (Message.structAt 0 1 1 1) 0 out left =
      ⟨.ok, Message.structAt 0 3 2 1, left - 4⟩ := by
  rw [Message.getp_structAt (by decide) (by decide)]
  exact starts.resolve_struct head.ret (by decide) (by decide) (by decide) inside covered

theorem Starts.getScalar_eq (starts : Starts m mem words) {width body dwords pwords offset : Nat}
    (inside : offset + width ≤ dwords * 8) (within : body + dwords ≤ words) (dflt : Nat) :
    m.getScalar width (Message.structAt 0 body dwords pwords) offset dflt =
      loadLe width mem (body * 8 + offset) := by
  rw [Message.getScalar_structAt inside, starts.loadLe_eq (by omega)]

/-- The budget of a fresh message. -/
theorem covered_default {price : Nat} (small : price ≤ 64) : price ≤ defaultTraversalWords :=
  small.trans (by decide)

theorem returnOf_eq {flat : List UInt8} (starts : Starts (Frame.message (ofList flat)) mem words)
    {qid which : Nat} (head : ReturnWords mem qid which) (inside : 6 ≤ words) :
    returnOf flat = some ⟨qid, which⟩ := by
  unfold returnOf
  dsimp only
  rw [starts.root_eq head.toMessageWords (by omega) (covered_default (by decide)),
    Message.getU16, messageTagOff, starts.getScalar_eq (by decide) (by omega), head.tag]
  dsimp only
  rw [if_neg (by simp),
    starts.ret_eq head inside (Nat.le_sub_of_add_le (covered_default (by decide))),
    Message.getU32, Message.getU16, returnAnswerIdOff, returnTagOff,
    starts.getScalar_eq (by decide) (by omega), starts.getScalar_eq (by decide) (by omega),
    head.answerId, head.which]
  simp [Message.structAt]

/-! ## Reading a cap table -/

/-- An exception carries no payload. -/
theorem hostedIds_of_exception {flat : List UInt8} {qid which : Nat}
    (read : returnOf flat = some ⟨qid, which⟩) (failed : which ≠ returnTagResults) :
    hostedIds flat = [] := by
  have none : returnPayload (Frame.message (ofList flat)) = none := by
    unfold returnOf at read
    unfold returnPayload
    dsimp only at read ⊢
    split at read
    · cases read
    · next root =>
      split at read
      · cases read
      · next ret =>
        simp only [not_or, not_not] at root ret
        have tag := congrArg ReturnInfo.which (Option.some.inj read)
        dsimp only at tag
        rw [if_neg (not_not.mpr root.1), if_neg (not_not.mpr root.2), if_neg (not_not.mpr ret.1),
          tag, if_pos failed]
  unfold hostedIds
  dsimp only
  rw [none]

/-- The payload of a frame that starts like a results `Return`. -/
theorem Starts.returnPayload_eq (starts : Starts m mem words) {qid : Nat}
    (head : ReturnWords mem qid returnTagResults) (payload : word mem 5 = wpMakeStruct 0 0 2)
    (inside : 8 ≤ words) : returnPayload m =
      some (Message.structAt 0 6 0 2, defaultTraversalWords - 3 - 4 - 3) := by
  have budget : 64 ≤ defaultTraversalWords := covered_default le_rfl
  have payloadEq : m.getp (Message.structAt 0 3 2 1) 0 Ptr.zero (defaultTraversalWords - 3 - 4) =
      ⟨.ok, Message.structAt 0 6 0 2, defaultTraversalWords - 3 - 4 - 3⟩ := by
    rw [Message.getp_structAt (by decide) (by decide)]
    exact starts.resolve_struct payload (by decide) (by decide) (by decide) (by omega) (by omega)
  unfold returnPayload
  dsimp only
  rw [starts.root_eq head.toMessageWords (by omega) (by omega), Message.getU16, messageTagOff,
    starts.getScalar_eq (by decide) (by omega), head.tag]
  dsimp only
  rw [starts.ret_eq head (by omega) (by omega), Message.getU16, returnTagOff,
    starts.getScalar_eq (by decide) (by omega), head.which]
  dsimp only
  rw [payloadEq]
  simp

/-- A `Return` without a cap table names no export. -/
theorem hostedIds_nil {flat : List UInt8} (starts : Starts (Frame.message (ofList flat)) mem words)
    {qid : Nat} (head : ReturnWords mem qid returnTagResults)
    (payload : word mem 5 = wpMakeStruct 0 0 2) (table : word mem 7 = 0) (inside : 8 ≤ words) :
    hostedIds flat = [] := by
  have budget : 64 ≤ defaultTraversalWords := covered_default le_rfl
  unfold hostedIds
  dsimp only
  rw [starts.returnPayload_eq head payload inside]
  dsimp only
  rw [Message.getp_structAt (by decide) (by decide),
    starts.resolve_null table (by omega) (by omega)]
  simp [listLen, nullPtr, Ptr.zero]

/-- The words of a cap table with one entry, whose elements start at `body`. -/
structure TableWords (mem : Memory) (body eid : Nat) : Prop where
  table : word mem 7 = wpMakeList ((body : Int) - 9) .composite 2
  elems : word mem (body - 1) = wpMakeStruct (1 : Nat) 1 1
  hosted : loadLe 2 mem (body * 8) = capDescTagSenderHosted
  id : loadLe 4 mem (body * 8 + 4) = eid

/-- The handle of such a cap table. -/
theorem Starts.capTable_eq (starts : Starts m mem words) {body eid left : Nat} {out : Ptr}
    (entry : TableWords mem body eid) (behind : 9 ≤ body) (inside : body + 2 ≤ words)
    (small : body < 2 ^ 28) (covered : 4 ≤ left) :
    m.getp (Message.structAt 0 6 0 2) 1 out left =
      ⟨.ok, compositePtr 0 (body - 1) (wpMakeStruct (1 : Nat) 1 1), left - 4⟩ := by
  have bounds := starts.words_le
  have tagReads : m.readWord 0 (body - 1) = wpMakeStruct (1 : Nat) 1 1 := by
    rw [starts.readWord_eq (by omega), entry.elems]
  have reads : m.readWord 0 7 = wpMakeList ((body : Int) - 9) .composite 2 := by
    rw [starts.readWord_eq (by omega), entry.table]
  have start : sizeT ((7 : Nat) + 1 + wpOffset (wpMakeList ((body : Int) - 9) .composite 2)) =
      body - 1 := by
    rw [wpOffset_makeList _ _ (by unfold OffsetFits; omega),
      ← sizeT_of_lt (show body - 1 < 2 ^ 64 by omega)]
    congr 1
    omega
  have size : body - 1 + 1 + tagCount (wpMakeStruct (1 : Nat) 1 1) *
      (wpStructDwords (wpMakeStruct (1 : Nat) 1 1) +
        wpStructPwords (wpMakeStruct (1 : Nat) 1 1)) = body + 2 := by
    have elems : tagCount (wpMakeStruct (1 : Nat) 1 1) * (wpStructDwords (wpMakeStruct (1 : Nat) 1 1) +
        wpStructPwords (wpMakeStruct (1 : Nat) 1 1)) = 2 := by decide
    omega
  have notNull : wpMakeList ((body : Int) - 9) .composite 2 ≠ 0 := by
    unfold wpMakeList
    omega
  have listed : m.target m.depthLimit 0 7 (wpMakeList ((body : Int) - 9) .composite 2) =
      Option.some (compositePtr 0 (body - 1) (wpMakeStruct (1 : Nat) 1 1), 3) := by
    rw [starts.depth, show defaultDepthLimit = 63 + 1 from rfl,
      Message.target_near notNull (by simp)]
    simp only [wpKind_makeList]
    rw [Message.listTarget, start, if_pos (wpListEsize_makeList _ _ _),
      Message.compositeTarget_eq starts.segLt tagReads (by omega)]
    rfl
  rw [Message.getp_structAt (by decide) (by decide)]
  exact Message.resolvePtr_eq (Message.slotTarget_eq ⟨starts.segLt, by omega⟩ reads listed) covered

/-- The one entry of such a cap table. -/
theorem Starts.hostedEntry_eq (starts : Starts m mem words) {body eid : Nat}
    (entry : TableWords mem body eid) (behind : 9 ≤ body) (inside : body + 2 ≤ words)
    (small : body < 2 ^ 28) :
    hostedEntry m (compositePtr 0 (body - 1) (wpMakeStruct (1 : Nat) 1 1)) 0 = some eid := by
  have elem : Message.listGetStruct (compositePtr 0 (body - 1) (wpMakeStruct (1 : Nat) 1 1)) 0
      Ptr.zero = (.ok, Message.structAt 0 body 1 1) := by
    have count : (compositePtr 0 (body - 1) (wpMakeStruct (1 : Nat) 1 1)).count = 1 := by
      change tagCount (wpMakeStruct (1 : Nat) 1 1) = 1
      decide
    have place : sizeT (((body - 1 + 1 : Nat) : Int) + ((0 : Nat) : Int) * ((1 + 1 : Nat) : Int)) =
        body := (congrArg sizeT (by omega)).trans (sizeT_of_lt (show body < 2 ^ 64 by omega))
    have dwords : wpStructDwords (wpMakeStruct (1 : Nat) 1 1) = 1 := by decide
    have pwords : wpStructPwords (wpMakeStruct (1 : Nat) 1 1) = 1 := by decide
    unfold Message.listGetStruct
    rw [if_neg (by simp [compositePtr]), if_neg (by rw [count]; decide)]
    simp only [compositePtr, Message.elemPtr, dwords, pwords, place, Message.structAt]
  unfold hostedEntry
  rw [elem]
  dsimp only
  rw [Message.getU16, Message.getU32, capDescTagOff, capDescSenderHostedOff,
    starts.getScalar_eq (by decide) (by omega), starts.getScalar_eq (by decide) (by omega),
    Nat.add_zero, entry.hosted, entry.id]
  simp

/-- A `Return` whose cap table has one entry names that export. -/
theorem hostedIds_single {flat : List UInt8}
    (starts : Starts (Frame.message (ofList flat)) mem words) {qid body eid : Nat}
    (head : ReturnWords mem qid returnTagResults) (payload : word mem 5 = wpMakeStruct 0 0 2)
    (entry : TableWords mem body eid) (behind : 9 ≤ body) (inside : body + 2 ≤ words)
    (small : body < 2 ^ 28) : hostedIds flat = [eid] := by
  have budget : 64 ≤ defaultTraversalWords := covered_default le_rfl
  unfold hostedIds
  dsimp only
  rw [starts.returnPayload_eq head payload (by omega)]
  dsimp only
  rw [starts.capTable_eq entry behind inside small (by omega)]
  have size : listLen (compositePtr 0 (body - 1) (wpMakeStruct (1 : Nat) 1 1)) = 1 := by
    simp [listLen, compositePtr, Ptr.zero]
    decide
  dsimp only
  rw [if_neg (by simp), size, List.range_one, List.filterMap_cons,
    starts.hostedEntry_eq entry behind inside small]
  rfl

/-! ## Reading a join result -/

/-- The words of a `JoinResult`. -/
structure JoinWords (mem : Memory) (joinId : Nat) (succeeded : Bool) : Prop where
  payload : word mem 5 = wpMakeStruct 0 0 2
  content : word mem 6 = wpMakeStruct (1 : Nat) 1 1
  joinId : loadLe 4 mem 64 = joinId
  flag : (mem 68).toNat % 2 = if succeeded then 1 else 0

/-- A `Return` that carries a `JoinResult` is read as such. -/
theorem joinResultOf_eq {flat : List UInt8}
    (starts : Starts (Frame.message (ofList flat)) mem words) {qid joinId : Nat} {succeeded : Bool}
    (head : ReturnWords mem qid returnTagResults) (result : JoinWords mem joinId succeeded)
    (inside : 10 ≤ words) : joinResultOf flat = some (joinId, succeeded) := by
  have budget : 64 ≤ defaultTraversalWords := covered_default le_rfl
  have bounds := starts.words_le
  have limit : (Frame.message (ofList flat)).depthLimit ≠ 0 := by
    rw [starts.depth]
    decide
  have content : (Frame.message (ofList flat)).getp (Message.structAt 0 6 0 2) 0 Ptr.zero
      (defaultTraversalWords - 3 - 4 - 3) =
        ⟨.ok, Message.structAt 0 8 1 1, defaultTraversalWords - 3 - 4 - 3 - 3⟩ := by
    rw [Message.getp_structAt (by decide) (by decide)]
    refine Message.resolvePtr_eq (Message.slotTarget_struct limit starts.segLt
      ((starts.readWord_eq (by omega)).trans result.content) (by decide)
      (by unfold OffsetFits; omega) (by decide) (by decide) (by decide) (by omega) (by omega)) (by omega)
  have byte : ((Frame.message (ofList flat)).seg 0).data 68 = mem 68 :=
    starts.same 68 (by omega)
  have flag : (Frame.message (ofList flat)).getBool (Message.structAt 0 8 1 1) 32 false = succeeded := by
    unfold Message.getBool
    rw [if_neg (by simp [Message.structAt]), if_neg (by decide)]
    change ((((Frame.message (ofList flat)).seg 0).data 68).toNat / 2 ^ (32 % 8) % 2 == 1) = succeeded
    rw [byte]
    have read := result.flag
    cases succeeded <;> simp_all
  unfold joinResultOf
  dsimp only
  rw [starts.returnPayload_eq head result.payload (by omega)]
  dsimp only
  rw [content, Message.getU32, starts.getScalar_eq (by decide) (by omega)]
  dsimp only
  rw [flag, if_neg (by simp [Message.structAt]), Nat.add_zero, result.joinId]

/-! ## Reading an answer with one capability -/

/-- The words of a `Payload` whose content is the one entry of its cap table. -/
structure CapWords (mem : Memory) (eid : Nat) : Prop where
  payload : word mem 5 = wpMakeStruct 0 0 2
  content : word mem 6 = wpMakeCap 0
  table : word mem 7 = wpMakeList 0 .composite 2
  elems : word mem 8 = wpMakeStruct (1 : Nat) 1 1
  hosted : loadLe 2 mem 72 = capDescTagSenderHosted
  id : loadLe 4 mem 76 = eid

theorem CapWords.tableWords {eid : Nat} (cap : CapWords mem eid) : TableWords mem 9 eid :=
  ⟨cap.table, cap.elems, cap.hosted, cap.id⟩

theorem capIdOf_eq {flat : List UInt8} (starts : Starts (Frame.message (ofList flat)) mem words)
    {qid eid : Nat} (head : ReturnWords mem qid returnTagResults) (cap : CapWords mem eid)
    (inside : 11 ≤ words) : capIdOf flat = some eid := by
  have content (out : Ptr) {left : Nat} (covered : 1 ≤ left) :
      (Frame.message (ofList flat)).getp (Message.structAt 0 6 0 2) 0 out left =
        ⟨.ok, capPtr 0 6 (wpMakeCap 0), left - 1⟩ := by
    have bounds := starts.words_le
    have limit : (Frame.message (ofList flat)).depthLimit ≠ 0 := by
      rw [starts.depth]
      decide
    rw [Message.getp_structAt (by decide) (by decide)]
    refine Message.resolvePtr_eq (Message.slotTarget_cap limit starts.segLt ?_ (by omega)) covered
    rw [starts.readWord_eq (by omega), cap.content]
  have payload (out : Ptr) {left : Nat} (covered : 3 ≤ left) :
      (Frame.message (ofList flat)).getp (Message.structAt 0 3 2 1) 0 out left =
        ⟨.ok, Message.structAt 0 6 0 2, left - 3⟩ := by
    rw [Message.getp_structAt (by decide) (by decide)]
    exact starts.resolve_struct cap.payload (by decide) (by decide) (by decide) (by omega) covered
  have budget : 64 ≤ defaultTraversalWords := covered_default le_rfl
  have answered : answerPayload (Frame.message (ofList flat)) =
      Option.some (Message.structAt 0 6 0 2, capPtr 0 6 (wpMakeCap 0),
        defaultTraversalWords - 3 - 4 - 3 - 1) := by
    unfold answerPayload
    dsimp only
    rw [starts.root_eq head.toMessageWords (by omega) (by omega), Message.getU16, messageTagOff,
      starts.getScalar_eq (by decide) (by omega), head.tag]
    dsimp only
    rw [starts.ret_eq head (by omega) (by omega), Message.getU16, returnTagOff,
      starts.getScalar_eq (by decide) (by omega), head.which]
    dsimp only
    rw [payload _ (by omega)]
    dsimp only
    rw [content _ (by omega)]
    simp
  have elem : Message.listGetStruct (compositePtr 0 8 (wpMakeStruct (1 : Nat) 1 1)) 0 Ptr.zero =
      (.ok, Message.structAt 0 9 1 1) := by
    decide
  unfold capIdOf
  dsimp only
  rw [answered]
  dsimp only
  rw [starts.capTable_eq cap.tableWords (by decide) inside (by decide) (by omega)]
  have index : (capPtr 0 6 (wpMakeCap 0)).count = 0 := by decide
  have size : listLen (compositePtr 0 8 (wpMakeStruct (1 : Nat) 1 1)) = 1 := by decide
  rw [index, size, elem]
  dsimp only
  rw [Message.getU16, Message.getU32, capDescTagOff, capDescSenderHostedOff,
    starts.getScalar_eq (by decide) (by omega), starts.getScalar_eq (by decide) (by omega),
    cap.hosted, cap.id]
  simp [capPtr]

end

section
variable {b : Builder} {flat : List UInt8}

/-- What a serialized builder's first segment starts with. -/
theorem starts_serialize (done : b.serialize = .ok flat) (fits : b.Framable) :
    Starts (Frame.message (ofList flat)) (b.seg 0).data (b.seg 0).words := by
  obtain ⟨count, segments⟩ := message_serialize done fits
  have segLt : 0 < b.nsegs := Nat.pos_of_ne_zero (serialize_eq done).1
  obtain ⟨words, bytes⟩ := segments 0 segLt
  exact ⟨rfl, by rwa [count], words.ge, bytes⟩

/-- A builder that starts like a `Return` is read as that `Return`. -/
theorem returnOf_serialize (done : b.serialize = .ok flat) (fits : b.Framable) {qid which : Nat}
    (head : ReturnWords (b.seg 0).data qid which) (inside : 6 ≤ (b.seg 0).words) :
    returnOf flat = some ⟨qid, which⟩ :=
  returnOf_eq (starts_serialize done fits) head inside

theorem capIdOf_serialize (done : b.serialize = .ok flat) (fits : b.Framable) {qid eid : Nat}
    (head : ReturnWords (b.seg 0).data qid returnTagResults) (cap : CapWords (b.seg 0).data eid)
    (inside : 11 ≤ (b.seg 0).words) : capIdOf flat = some eid :=
  capIdOf_eq (starts_serialize done fits) head cap inside

/-- A near pointer to a struct with one data word and one pointer resolves to
such a struct, whatever bounds and budget decide. -/
theorem resolvePtr_of_word {m : Message} {slot left : Nat} {out : Ptr}
    (reads : m.readWord 0 slot = wpMakeStruct 0 1 1) (small : slot + 1 < 2 ^ 64)
    (ok : (m.resolvePtr 0 slot m.depthLimit out left).rc = .ok) :
    (m.resolvePtr 0 slot m.depthLimit out left).out = Message.structAt 0 (slot + 1) 1 1 := by
  obtain ⟨cost, -, priced, -⟩ := (m.resolvePtr_agrees 0 slot m.depthLimit out left).of_ok ok
  generalize (m.resolvePtr 0 slot m.depthLimit out left).out = found at priced ⊢
  unfold Message.slotTarget at priced
  split at priced
  · cases priced
  · rw [reads] at priced
    cases depth : m.depthLimit with
    | zero =>
        rw [depth, Message.target] at priced
        cases priced
    | succ n =>
        rw [depth, Message.target_near (by decide) (by simp)] at priced
        obtain ⟨near, named, same⟩ := Option.map_eq_some_iff.mp priced
        simp only [wpKind_makeStruct] at named
        have start : sizeT ((slot : Nat) + 1 + 0) = slot + 1 := by
          rw [add_zero]
          exact_mod_cast sizeT_of_lt small
        rw [show found = near.1 from (congrArg Prod.fst same).symm,
          congrArg Prod.fst (Message.structTarget_out named),
          wpOffset_makeStruct _ _ (by unfold OffsetFits; omega),
          Message.structPtr_make (by decide) (by decide), start]

theorem root_of_word {m : Message} (reads : m.readWord 0 0 = wpMakeStruct 0 1 1) {out : Ptr}
    {left : Nat} (ok : (m.root out left).rc = .ok) :
    (m.root out left).out = Message.structAt 0 1 1 1 := by
  have some : m.nsegs ≠ 0 := by
    intro none
    rw [Message.root, if_pos none] at ok
    cases ok
  rw [Message.root, if_neg some] at ok ⊢
  exact resolvePtr_of_word reads (by decide) ok

/-- A message with another tag is not read as a `Return`. -/
theorem returnOf_other (done : b.serialize = .ok flat) (few : b.nsegs < 2 ^ 32) {tag : Nat}
    (head : MessageWords (b.seg 0).data tag) (inside : 2 ≤ (b.seg 0).words)
    (other : tag ≠ msgReturn) : returnOf flat = none := by
  unfold returnOf
  apply if_pos
  refine or_iff_not_imp_left.mpr fun ok => ?_
  have bytes : ∀ i < 16, ((Frame.message (ofList flat)).seg 0).data i = (b.seg 0).data i :=
    fun i hi => first_serialize done few (by omega)
  have reads : (Frame.message (ofList flat)).readWord 0 0 = wpMakeStruct 0 1 1 := by
    rw [← head.root]
    exact word_congr fun k hk => bytes _ (by omega)
  have tagRead : loadLe 2 ((Frame.message (ofList flat)).seg 0).data 8 = tag := by
    rw [← head.tag]
    exact loadLe_congr fun i hi => bytes _ (by omega)
  rw [root_of_word reads (not_not.mp ok), Message.getU16, messageTagOff,
    Message.getScalar_structAt (by decide)]
  exact tagRead.trans_ne other

end

/-! ## Replies and notices -/

theorem messageFromFlat_ok {data : List UInt8} {m : Message} (parsed : messageFromFlat data = .ok m) :
    m = Frame.message (ofList data) := by
  unfold messageFromFlat parseFlat at parsed
  dsimp only at parsed
  split at parsed
  · cases parsed
  · split at parsed
    · cases parsed
    · split at parsed
      · cases parsed
      · split at parsed
        · cases parsed
        · exact (Except.ok.inj parsed).symm

/-- The reads behind a message. -/
theorem readIncoming_some {data : List UInt8} {msg : Incoming} (read : readIncoming data = some msg) :
    messageFromFlat data = .ok msg.message ∧
      (msg.message.root Ptr.zero defaultTraversalWords).rc = .ok ∧
      msg.root = (msg.message.root Ptr.zero defaultTraversalWords).out ∧
      msg.which = msg.message.getU16 msg.root messageTagOff 0 ∧
      msg.body = if (msg.message.getp msg.root 0 Ptr.zero
          (msg.message.root Ptr.zero defaultTraversalWords).left).rc ≠ .ok then Ptr.zero
        else (msg.message.getp msg.root 0 Ptr.zero
          (msg.message.root Ptr.zero defaultTraversalWords).left).out := by
  unfold readIncoming at read
  split at read
  · cases read
  · next m parsed =>
    dsimp only at read
    split at read
    · cases read
    · next root =>
      cases read
      exact ⟨parsed, not_not.mp root, rfl, rfl, rfl⟩

/-- A message that is itself a response or a notice. -/
def Incoming.IsReply (msg : Incoming) : Prop :=
  msg.which = msgReturn ∨ msg.which = msgFinish ∨ msg.which = msgRelease ∨
    msg.which = msgUnimplemented ∨ msg.which = msgAbort ∨
    msg.which = msgDisembargo ∧ msg.body.kind = .struct ∧
      msg.message.getU16 msg.body disCtxTagOff 0 = disCtxReceiverLoopback

instance (msg : Incoming) : Decidable msg.IsReply :=
  inferInstanceAs (Decidable (_ ∨ _ ∨ _ ∨ _ ∨ _ ∨ _ ∧ _ ∧ _))

/-- A reply, or a `Disembargo` whose body cannot be read. -/
def Incoming.AsksNothing (msg : Incoming) : Prop :=
  msg.IsReply ∨ msg.which = msgDisembargo ∧ msg.body.kind ≠ .struct

instance (msg : Incoming) : Decidable msg.AsksNothing :=
  inferInstanceAs (Decidable (_ ∨ _ ∧ _))

/-- A frame that asks nothing of the peer that reads it. -/
def Notice (flat : List UInt8) : Prop :=
  ∀ msg, readIncoming flat = some msg → msg.AsksNothing

theorem which_of_returnOf {flat : List UInt8} {info : ReturnInfo}
    (read : returnOf flat = some info) {msg : Incoming} (incoming : readIncoming flat = some msg) :
    msg.which = msgReturn := by
  obtain ⟨parsed, -, root, which, -⟩ := readIncoming_some incoming
  unfold returnOf at read
  dsimp only at read
  rw [← messageFromFlat_ok parsed] at read
  split at read
  · cases read
  · next isReturn =>
    rw [not_or, not_not, not_not] at isReturn
    rw [which, root]
    exact isReturn.2

theorem notice_of_returnOf {flat : List UInt8} {info : ReturnInfo}
    (read : returnOf flat = some info) : Notice flat :=
  fun _ incoming => .inl (.inl (which_of_returnOf read incoming))

section
variable {b : Builder} {flat : List UInt8}

/-- The tag of a frame that starts like a `Message`. -/
theorem which_serialize (done : b.serialize = .ok flat) (few : b.nsegs < 2 ^ 32) {tag : Nat}
    (head : MessageWords (b.seg 0).data tag) (inside : 2 ≤ (b.seg 0).words) {msg : Incoming}
    (read : readIncoming flat = some msg) :
    msg.which = tag ∧ msg.root = Message.structAt 0 1 1 1 := by
  obtain ⟨parsed, ok, root, which, -⟩ := readIncoming_some read
  have same := messageFromFlat_ok parsed
  have bytes : ∀ i < 16, (msg.message.seg 0).data i = (b.seg 0).data i := fun i hi => by
    rw [same]
    exact first_serialize done few (by omega)
  have reads : msg.message.readWord 0 0 = wpMakeStruct 0 1 1 := by
    rw [← head.root]
    exact word_congr fun k hk => bytes _ (by omega)
  have found := root_of_word reads ok
  rw [found] at root
  refine ⟨?_, root⟩
  rw [which, root, Message.getU16, messageTagOff, Message.getScalar_structAt (by decide), ← head.tag]
  exact loadLe_congr fun i hi => bytes _ (by omega)

/-- An echo of what is not implemented asks nothing. -/
theorem notice_of_unimplemented (done : b.serialize = .ok flat) (few : b.nsegs < 2 ^ 32)
    (head : MessageWords (b.seg 0).data msgUnimplemented) (inside : 2 ≤ (b.seg 0).words) :
    Notice flat := by
  intro msg read
  exact .inl (.inr (.inr (.inr (.inl (which_serialize done few head inside read).1))))

/-- A `Disembargo` that comes back asks nothing. -/
theorem notice_of_loopback (done : b.serialize = .ok flat) (few : b.nsegs < 2 ^ 32)
    (head : MessageWords (b.seg 0).data msgDisembargo)
    (body : word (b.seg 0).data 2 = wpMakeStruct 0 1 1)
    (context : loadLe 2 (b.seg 0).data 28 = disCtxReceiverLoopback)
    (inside : 4 ≤ (b.seg 0).words) : Notice flat := by
  intro msg read
  obtain ⟨which, root⟩ := which_serialize done few head (by omega) read
  obtain ⟨parsed, -, -, -, bodyEq⟩ := readIncoming_some read
  have same := messageFromFlat_ok parsed
  have bytes : ∀ i < 32, (msg.message.seg 0).data i = (b.seg 0).data i := fun i hi => by
    rw [same]
    exact first_serialize done few (by omega)
  have reads : msg.message.readWord 0 2 = wpMakeStruct 0 1 1 := by
    rw [← body]
    exact word_congr fun k hk => bytes _ (by omega)
  rw [root, Message.getp_structAt (by decide) (by decide)] at bodyEq
  split at bodyEq
  · refine .inr ⟨which, ?_⟩
    rw [bodyEq]
    decide
  · next ok =>
    rw [resolvePtr_of_word reads (by decide) (not_not.mp ok)] at bodyEq
    refine .inl (.inr (.inr (.inr (.inr (.inr ⟨which, by rw [bodyEq]; rfl, ?_⟩)))))
    rw [bodyEq, Message.getU16, disCtxTagOff, Message.getScalar_structAt (by decide), ← context]
    exact loadLe_congr fun i hi => bytes _ (by omega)

end

end CapnpJanet.Rpc
