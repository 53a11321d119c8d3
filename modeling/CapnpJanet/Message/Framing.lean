import CapnpJanet.Builder.Serialize

/-!
# Stream framing as a codec

`capnp_message_copy_flat`, the encoder of the reader's side, against the parser
and against the builder's own encoder.  The two encoders are written separately
in the source; on the same segments they write the same bytes, the table, its
padding and the segments.  So what is known of the builder's bytes carries over
to the message's.
-/

namespace CapnpJanet

open ByteMemory

namespace Message

/-- The segment table that `capnp_message_copy_flat` writes. -/
def tableBytes (m : Message) : List UInt8 :=
  Builder.le32 (m.nsegs - 1) ++
    (List.range m.nsegs).flatMap (fun i => Builder.le32 (m.seg i).words) ++
    (if (4 + 4 * m.nsegs) % 8 ≠ 0 then Builder.le32 0 else [])

/-- `capnp_message_copy_flat` -/
def copyFlat (m : Message) : Except Status (List UInt8) :=
  if m.nsegs = 0 then .error .arg
  else
    .ok (m.tableBytes ++
      (List.range m.nsegs).flatMap fun i => toList (m.seg i).data 0 ((m.seg i).words * 8))

/-- The same segments: their number, their sizes and their bytes. -/
structure SameSegments (m m' : Message) : Prop where
  nsegs : m'.nsegs = m.nsegs
  words : ∀ i < m.nsegs, (m'.seg i).words = (m.seg i).words
  bytes : ∀ i < m.nsegs, ∀ k < 8 * (m.seg i).words, (m'.seg i).data k = (m.seg i).data k

/-- A builder with the segments of a message. -/
structure BuiltFrom (m : Message) (b : Builder) : Prop where
  nsegs : b.nsegs = m.nsegs
  words : ∀ i < m.nsegs, (b.seg i).words = (m.seg i).words
  bytes : ∀ i < m.nsegs, ∀ k < 8 * (m.seg i).words, (b.seg i).data k = (m.seg i).data k

/-- One builder with the segments of a message. -/
def toBuilder (m : Message) : Builder where
  nsegs := m.nsegs
  seg i := if i < m.nsegs then ⟨(m.seg i).data, (m.seg i).words, (m.seg i).words⟩ else BSeg.empty
  maxSegWords := 0
  forceSingle := false

variable {m : Message} {b : Builder}

theorem toBuilder_seg {i : Nat} (hi : i < m.nsegs) :
    m.toBuilder.seg i = ⟨(m.seg i).data, (m.seg i).words, (m.seg i).words⟩ := if_pos hi

theorem builtFrom_toBuilder (m : Message) : m.BuiltFrom m.toBuilder :=
  ⟨rfl, fun i hi => by rw [toBuilder_seg hi], fun i hi k _ => by rw [toBuilder_seg hi]⟩

/-- Both encoders write the same bytes. -/
theorem BuiltFrom.copyFlat_eq (built : m.BuiltFrom b) (some : m.nsegs ≠ 0) :
    m.copyFlat = .ok b.flatBytes := by
  have sizes : (List.range b.nsegs).flatMap (fun i => Builder.le32 (b.seg i).words) =
      (List.range m.nsegs).flatMap fun i => Builder.le32 (m.seg i).words := by
    rw [built.nsegs]
    refine List.flatMap_congr fun i member => ?_
    rw [built.words i (List.mem_range.mp member)]
  have segments : (List.range b.nsegs).flatMap (fun i => Builder.segBytes (b.seg i)) =
      (List.range m.nsegs).flatMap fun i => toList (m.seg i).data 0 ((m.seg i).words * 8) := by
    rw [built.nsegs]
    refine List.flatMap_congr fun i member => ?_
    have inside := List.mem_range.mp member
    rw [Builder.segBytes, built.words i inside]
    apply toList_congr
    intro k hk
    rw [Nat.zero_add]
    exact built.bytes i inside k (by omega)
  rw [copyFlat, if_neg some, Builder.flatBytes, Builder.tableBytes, sizes, segments, built.nsegs]
  rfl

/-! ## Encoding and parsing -/

/-- A table of 32-bit sizes describes the message. -/
theorem framable_toBuilder (few : m.nsegs ≤ maxSegments)
    (small : ∀ i < m.nsegs, (m.seg i).words < 2 ^ 32) : m.toBuilder.Framable := by
  refine ⟨few.trans_lt (by decide), fun s => ?_⟩
  by_cases inside : s < m.nsegs
  · rw [toBuilder_seg inside]
    exact small s inside
  · have outside : m.toBuilder.seg s = BSeg.empty := if_neg inside
    rw [outside]
    decide

theorem eight_le_tableBytes (n : Nat) : 8 ≤ Frame.tableBytes n := by
  unfold Frame.tableBytes
  split <;> omega

/-- The parser takes a frame of up to 16 segments. -/
theorem accepted_flatBytes (some : b.nsegs ≠ 0) (few : b.nsegs ≤ maxSegments)
    (fits : b.Framable) : Frame.Accepted b.flatBytes := by
  have count := Builder.nsegs_flatBytes some fits.1
  have table := eight_le_tableBytes b.nsegs
  have length := b.length_flatBytes
  refine ⟨by omega, by rwa [count], by rwa [count], ?_⟩
  rw [count, Builder.wordsBefore_flatBytes fits le_rfl]
  omega

/-- The parser takes no part of a frame for the whole. -/
theorem not_accepted_take (some : b.nsegs ≠ 0) (fits : b.Framable) {k : Nat}
    (part : k < b.flatBytes.length) : ¬Frame.Accepted (b.flatBytes.take k) := by
  rintro ⟨long, -, -, whole⟩
  rw [List.length_take] at long whole
  have same {i : Nat} (inside : i < k) :
      ofList (b.flatBytes.take k) i = ofList b.flatBytes i := by
    simp only [ofList, List.getD_eq_getElem?_getD, List.getElem?_take, if_pos inside]
  have count : Frame.nsegs (ofList (b.flatBytes.take k)) = b.nsegs := by
    rw [← Builder.nsegs_flatBytes some fits.1, Frame.nsegs, Frame.nsegs]
    congr 2
    exact loadLe_congr fun i hi => same (by omega)
  rw [count] at whole
  have table : 4 + 4 * b.nsegs ≤ Frame.tableBytes b.nsegs := by
    unfold Frame.tableBytes
    split <;> omega
  have sizes : Frame.wordsBefore (Frame.size (ofList (b.flatBytes.take k))) b.nsegs =
      Frame.wordsBefore (fun i => (b.seg i).words) b.nsegs := by
    refine Builder.wordsBefore_congr fun i hi => ?_
    rw [← Builder.size_flatBytes fits hi, Frame.size, Frame.size]
    exact loadLe_congr fun j hj => same (by omega)
  have length := b.length_flatBytes
  rw [sizes] at whole
  omega

/-- What `capnp_message_copy_flat` writes parses to the same segments. -/
theorem parseFlat_copyFlat (some : m.nsegs ≠ 0) (few : m.nsegs ≤ maxSegments)
    (small : ∀ i < m.nsegs, (m.seg i).words < 2 ^ 32) :
    ∃ m', parseFlat m.toBuilder.flatBytes = .ok m' ∧ m.SameSegments m' := by
  have fits := framable_toBuilder few small
  obtain ⟨count, same⟩ := Builder.message_flatBytes (b := m.toBuilder) some fits
  refine ⟨_, parseFlat_of_accepted (accepted_flatBytes some few fits), count, fun i hi => ?_,
    fun i hi k hk => ?_⟩
  · rw [(same i hi).1, toBuilder_seg hi]
  · have there := (same i hi).2 k
    rw [toBuilder_seg hi] at there
    exact there (by dsimp only; omega)

/-! ## Parsing and encoding again -/

end Message

namespace Frame

/-- The number of segments a frame names. -/
def named (bytes : List UInt8) : Nat := loadLe 4 (ofList bytes) 0 + 1

/-- The bytes of a frame that the parser consumes. -/
def consumed (bytes : List UInt8) : Nat :=
  tableBytes (named bytes) + 8 * wordsBefore (size (ofList bytes)) (named bytes)

/-- Byte `i` is padding of the table. -/
def Padding (bytes : List UInt8) (i : Nat) : Prop :=
  4 + 4 * named bytes ≤ i ∧ i < tableBytes (named bytes)

instance (bytes : List UInt8) (i : Nat) : Decidable (Padding bytes i) :=
  inferInstanceAs (Decidable (_ ∧ _))

/-- The parser takes exactly the frames that are complete. -/
theorem accepted_iff (bytes : List UInt8) :
    Accepted bytes ↔ 8 ≤ bytes.length ∧ (1 ≤ named bytes ∧ named bytes ≤ maxSegments) ∧
      consumed bytes ≤ bytes.length := by
  have below := loadLe_lt 4 (ofList bytes) 0
  norm_num at below
  have limit : maxSegments = 16 := rfl
  unfold Accepted consumed named nsegs
  by_cases wraps : loadLe 4 (ofList bytes) 0 + 1 = 2 ^ 32
  · rw [wraps]
    omega
  · rw [Nat.mod_eq_of_lt (by omega), Nat.mul_comm 8]
    omega

theorem parseFlat_eq_ok_iff {bytes : List UInt8} {m : Message} :
    parseFlat bytes = .ok m ↔ Accepted bytes ∧ m = message (ofList bytes) := by
  constructor
  · intro parsed
    unfold parseFlat at parsed
    dsimp only at parsed
    split at parsed
    · cases parsed
    split at parsed
    · cases parsed
    split at parsed
    · cases parsed
    split at parsed
    · cases parsed
    next long some _ whole =>
      rw [not_or] at some
      exact ⟨⟨by omega, some.1, by omega, by omega⟩, (Except.ok.inj parsed).symm⟩
  · rintro ⟨accepted, rfl⟩
    exact parseFlat_of_accepted accepted

/-- The words before a later segment belong to one of the segments. -/
theorem exists_segment (size : Nat → Nat) {n i : Nat} (hi : i < 8 * wordsBefore size n) :
    ∃ s < n, ∃ k < 8 * size s, i = 8 * wordsBefore size s + k := by
  induction n with
  | zero => simp [wordsBefore] at hi
  | succ n ih =>
      rw [wordsBefore] at hi
      by_cases early : i < 8 * wordsBefore size n
      · obtain ⟨s, hs, found⟩ := ih early
        exact ⟨s, hs.trans (Nat.lt_succ_self n), found⟩
      · exact ⟨n, Nat.lt_succ_self n, i - 8 * wordsBefore size n, by omega, by omega⟩

/-- Encoding a parsed message reproduces the bytes the parser consumed, the
padding cleared. -/
theorem copyFlat_message {bytes : List UInt8} (accepted : Accepted bytes) :
    ∃ flat, (message (ofList bytes)).copyFlat = .ok flat ∧ flat.length = consumed bytes ∧
      ∀ i < consumed bytes, ofList flat i = if Padding bytes i then 0 else ofList bytes i := by
  have some := accepted.2.1
  have few := accepted.2.2.1
  have below := loadLe_lt 4 (ofList bytes) 0
  norm_num at below
  have limit : maxSegments = 16 := rfl
  have count : nsegs (ofList bytes) = named bytes := by
    unfold nsegs at some ⊢
    unfold named
    omega
  have segs : ∀ s < named bytes, (message (ofList bytes)).seg s =
      segment (ofList bytes) (named bytes) s := by
    intro s hs
    simp only [message, count, if_pos hs]
  have built := (message (ofList bytes)).builtFrom_toBuilder
  generalize (message (ofList bytes)).toBuilder = b at built
  have nsegsEq : b.nsegs = named bytes := built.nsegs.trans count
  have sizes : ∀ s < named bytes, (b.seg s).words = size (ofList bytes) s := by
    intro s hs
    rw [built.words s (hs.trans_eq count.symm), segs s hs]
    rfl
  have before : ∀ n ≤ named bytes, wordsBefore (fun s => (b.seg s).words) n =
      wordsBefore (size (ofList bytes)) n :=
    fun n hn => Builder.wordsBefore_congr fun s hs => sizes s (hs.trans_le hn)
  refine ⟨b.flatBytes, built.copyFlat_eq some, ?_, fun i hi => ?_⟩
  · rw [Builder.length_flatBytes, nsegsEq, before _ le_rfl, consumed]
  by_cases inTable : i < tableBytes (named bytes)
  · by_cases padding : 4 + 4 * named bytes ≤ i
    · rw [if_pos ⟨padding, inTable⟩]
      exact Builder.byte_of_padding (by rwa [nsegsEq]) (by rwa [nsegsEq])
    rw [if_neg fun pads => padding pads.1]
    -- a 32-bit entry of the table: the count, or a size
    by_cases first : i < 4
    · have same : loadLe 4 (ofList b.flatBytes) 0 = loadLe 4 (ofList bytes) 0 := by
        rw [Builder.count_flatBytes, nsegsEq, named]
        omega
      simpa using bytes_eq_of_loadLe_eq same i first
    · have same : loadLe 4 (ofList b.flatBytes) (4 + 4 * ((i - 4) / 4)) =
          loadLe 4 (ofList bytes) (4 + 4 * ((i - 4) / 4)) := by
        have entry := Builder.size_flatBytes_mod (b := b) (i := (i - 4) / 4) (by omega)
        have small := size_lt (ofList bytes) ((i - 4) / 4)
        rw [sizes _ (by omega), Nat.mod_eq_of_lt small] at entry
        exact entry
      have byte := bytes_eq_of_loadLe_eq same ((i - 4) % 4) (Nat.mod_lt _ (by decide))
      rwa [show 4 + 4 * ((i - 4) / 4) + (i - 4) % 4 = i by omega] at byte
  · rw [if_neg fun pads => inTable pads.2]
    obtain ⟨s, hs, k, hk, place⟩ := exists_segment (size (ofList bytes)) (n := named bytes)
      (i := i - tableBytes (named bytes)) (by unfold consumed at hi; omega)
    have byte := Builder.byte_of_segment (b := b) (s := s) (i := k) (by rwa [nsegsEq])
      (by rw [sizes s hs]; omega)
    rw [nsegsEq, before s hs.le, ← place, Nat.add_sub_cancel' (by omega)] at byte
    have read := built.bytes s (hs.trans_eq count.symm) k (by rw [segs s hs]; exact hk)
    rw [byte, read, segs s hs]
    change ofList bytes _ = ofList bytes _
    congr 1
    omega

end Frame

/-- Stream framing is a codec.  Whatever 1 to 16 segments with 32-bit word
counts are encoded, both parsers give them back, and the builder's encoder
writes the same bytes.  The parser takes exactly the complete frames of 1 to 16
segments, and encoding its result gives the bytes it consumed, with the padding
of the table cleared. -/
theorem Message.framing_codec :
    (∀ m : Message, 1 ≤ m.nsegs → m.nsegs ≤ maxSegments →
      (∀ i < m.nsegs, (m.seg i).words < 2 ^ 32) → ∃ flat, m.copyFlat = .ok flat ∧
        (∃ m', messageFromFlat flat = .ok m' ∧ m.SameSegments m') ∧
        (∃ m', messageViewFlat flat = .ok m' ∧ m.SameSegments m') ∧
        ∀ b : Builder, m.BuiltFrom b → (m.seg 0).words ≠ 0 → b.serialize = .ok flat) ∧
      ∀ bytes : List UInt8,
        ((∃ m, messageFromFlat bytes = .ok m) ↔
          8 ≤ bytes.length ∧ (1 ≤ Frame.named bytes ∧ Frame.named bytes ≤ maxSegments) ∧
            Frame.consumed bytes ≤ bytes.length) ∧
        ∀ m, messageFromFlat bytes = .ok m → ∃ flat, m.copyFlat = .ok flat ∧
          flat.length = Frame.consumed bytes ∧ ∀ i < Frame.consumed bytes,
            ofList flat i = if Frame.Padding bytes i then 0 else ofList bytes i := by
  constructor
  · intro m one few small
    have some : m.nsegs ≠ 0 := Nat.one_le_iff_ne_zero.mp one
    have parsed := parseFlat_copyFlat some few small
    refine ⟨_, m.builtFrom_toBuilder.copyFlat_eq some, parsed, parsed, fun b built started => ?_⟩
    have bytes : b.flatBytes = m.toBuilder.flatBytes :=
      Except.ok.inj ((built.copyFlat_eq some).symm.trans (m.builtFrom_toBuilder.copyFlat_eq some))
    rw [← bytes]
    refine if_neg ?_
    rw [built.nsegs, built.words 0 one, not_or]
    exact ⟨some, started⟩
  · intro bytes
    constructor
    · rw [← Frame.accepted_iff]
      constructor
      · rintro ⟨m, parsed⟩
        exact (Frame.parseFlat_eq_ok_iff.mp parsed).1
      · intro accepted
        exact ⟨_, parseFlat_of_accepted accepted⟩
    · intro m parsed
      obtain ⟨accepted, rfl⟩ := Frame.parseFlat_eq_ok_iff.mp parsed
      exact Frame.copyFlat_message accepted

end CapnpJanet
