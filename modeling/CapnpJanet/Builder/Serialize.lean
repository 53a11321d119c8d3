import CapnpJanet.Builder.Ops
import CapnpJanet.Message.Core

/-!
# Reading a serialized builder

The bytes `capnp_builder_serialize` writes describe the builder's segments: the
same number of segments, with the same sizes and the same used bytes.  The
frame's counts have 32 bits, which is all this needs of the builder; whether
the parser takes the frame depends on its limit of 16 segments only.
-/

namespace CapnpJanet

open ByteMemory

namespace Builder

/-- A builder whose segment table fits the 32-bit counts of a stream frame. -/
def Framable (b : Builder) : Prop := b.nsegs < 2 ^ 32 ∧ ∀ s, (b.seg s).words < 2 ^ 32

@[simp]
theorem length_le32 (v : Nat) : (le32 v).length = 4 := length_toList _ _ _

/-- Reading a 32-bit number back from a list of bytes. -/
theorem loadLe_le32 {mem : Memory} {p v : Nat} (there : ∀ k < 4, mem (p + k) = ofList (le32 v) k) :
    loadLe 4 mem p = v % 2 ^ 32 := by
  have stored := loadLe_storeLe 4 (fun _ => 0) 0 v
  norm_num at stored ⊢
  rw [← stored]
  apply loadLe_congr
  intro k hk
  rw [there k hk, le32, ofList_toList hk]

/-- The sizes in the segment table. -/
def sizeBytes (b : Builder) (i : Nat) : List UInt8 := le32 (b.seg i).words

theorem lengthBefore_sizeBytes (b : Builder) (i : Nat) : lengthBefore b.sizeBytes i = 4 * i := by
  induction i with
  | zero => rfl
  | succ i ih =>
      rw [lengthBefore, ih, sizeBytes, length_le32]
      omega

theorem length_tableBytes (b : Builder) : b.tableBytes.length = Frame.tableBytes b.nsegs := by
  have sizes := length_flatMap_range b.sizeBytes b.nsegs
  rw [lengthBefore_sizeBytes] at sizes
  unfold sizeBytes at sizes
  unfold tableBytes Frame.tableBytes
  rw [List.length_append, List.length_append, length_le32, sizes]
  split
  · rw [length_le32]
  · rfl

theorem lengthBefore_segBytes (b : Builder) (i : Nat) :
    lengthBefore (fun i => segBytes (b.seg i)) i =
      8 * Frame.wordsBefore (fun i => (b.seg i).words) i := by
  induction i with
  | zero => rfl
  | succ i ih =>
      rw [lengthBefore, ih, segBytes, length_toList, Frame.wordsBefore]
      omega

theorem wordsBefore_congr {size other : Nat → Nat} {n : Nat} (same : ∀ i < n, size i = other i) :
    Frame.wordsBefore size n = Frame.wordsBefore other n := by
  induction n with
  | zero => rfl
  | succ n ih =>
      rw [Frame.wordsBefore, Frame.wordsBefore, ih fun i hi => same i (Nat.lt_succ_of_lt hi),
        same n (Nat.lt_succ_self n)]

/-- Table and segments, the bytes of a serialized builder. -/
def flatBytes (b : Builder) : List UInt8 :=
  b.tableBytes ++ (List.range b.nsegs).flatMap fun i => segBytes (b.seg i)

theorem length_flatBytes (b : Builder) :
    b.flatBytes.length =
      Frame.tableBytes b.nsegs + 8 * Frame.wordsBefore (fun i => (b.seg i).words) b.nsegs := by
  rw [flatBytes, List.length_append, length_tableBytes,
    length_flatMap_range (fun i => segBytes (b.seg i)), lengthBefore_segBytes]

variable {b : Builder} {flat : List UInt8}

/-- The table part of the frame. -/
theorem byte_of_table {i : Nat} (hi : i < Frame.tableBytes b.nsegs) :
    ofList b.flatBytes i = ofList b.tableBytes i :=
  ofList_append_left (by rwa [length_tableBytes])

/-- The padding of the table. -/
theorem byte_of_padding {i : Nat} (low : 4 + 4 * b.nsegs ≤ i) (high : i < Frame.tableBytes b.nsegs) :
    ofList b.flatBytes i = 0 := by
  have sizes := length_flatMap_range b.sizeBytes b.nsegs
  rw [lengthBefore_sizeBytes] at sizes
  unfold sizeBytes at sizes
  have odd : (4 + 4 * b.nsegs) % 8 ≠ 0 := by
    unfold Frame.tableBytes at high
    split at high <;> omega
  have front : (le32 (b.nsegs - 1) ++
      (List.range b.nsegs).flatMap fun i => le32 (b.seg i).words).length = 4 + 4 * b.nsegs := by
    rw [List.length_append, length_le32, sizes]
  obtain ⟨k, rfl⟩ := Nat.exists_eq_add_of_le low
  have inside : k < 4 := by
    unfold Frame.tableBytes at high
    rw [if_pos odd] at high
    omega
  rw [byte_of_table high, tableBytes, if_pos odd]
  conv_lhs => rw [← front]
  rw [ofList_append_right, le32, ofList_toList inside]
  unfold storeLe
  simp

/-- The table starts with the number of segments minus one. -/
theorem count_flatBytes (b : Builder) :
    loadLe 4 (ofList b.flatBytes) 0 = (b.nsegs - 1) % 2 ^ 32 := by
  apply loadLe_le32
  intro k hk
  rw [Nat.zero_add, byte_of_table (by unfold Frame.tableBytes; split <;> omega), tableBytes,
    ofList_append_left (by simp; omega), ofList_append_left (by simpa using hk)]

theorem nsegs_flatBytes (some : b.nsegs ≠ 0) (few : b.nsegs < 2 ^ 32) :
    Frame.nsegs (ofList b.flatBytes) = b.nsegs := by
  rw [Frame.nsegs, count_flatBytes]
  omega

/-- The table holds the sizes modulo 2 ^ 32. -/
theorem size_flatBytes_mod {i : Nat} (hi : i < b.nsegs) :
    Frame.size (ofList b.flatBytes) i = (b.seg i).words % 2 ^ 32 := by
  apply loadLe_le32
  intro k hk
  have sizes := length_flatMap_range b.sizeBytes b.nsegs
  rw [lengthBefore_sizeBytes] at sizes
  have entry := ofList_flatMap_range b.sizeBytes hi (k := k)
    (by simpa [sizeBytes] using hk)
  rw [lengthBefore_sizeBytes] at entry
  unfold sizeBytes at sizes entry
  rw [byte_of_table (by unfold Frame.tableBytes; split <;> omega), tableBytes,
    ofList_append_left (by rw [List.length_append, length_le32, sizes]; omega),
    show 4 + 4 * i + k = (le32 (b.nsegs - 1)).length + (4 * i + k) by rw [length_le32]; omega,
    ofList_append_right, entry]

theorem size_flatBytes (fits : b.Framable) {i : Nat} (hi : i < b.nsegs) :
    Frame.size (ofList b.flatBytes) i = (b.seg i).words := by
  have small := fits.2 i
  rw [size_flatBytes_mod hi]
  omega

/-- The sizes in the table add up to the builder's. -/
theorem wordsBefore_flatBytes (fits : b.Framable) {n : Nat} (hn : n ≤ b.nsegs) :
    Frame.wordsBefore (Frame.size (ofList b.flatBytes)) n =
      Frame.wordsBefore (fun i => (b.seg i).words) n :=
  wordsBefore_congr fun _ hi => size_flatBytes fits (hi.trans_le hn)

/-- Byte `i` of segment `s` in the frame. -/
theorem byte_of_segment {s i : Nat} (hs : s < b.nsegs) (hi : i < (b.seg s).words * 8) :
    ofList b.flatBytes (Frame.tableBytes b.nsegs +
      (8 * Frame.wordsBefore (fun i => (b.seg i).words) s + i)) = (b.seg s).data i := by
  have piece := ofList_flatMap_range (fun i => segBytes (b.seg i)) hs (k := i)
    (by simpa [segBytes] using hi)
  rw [lengthBefore_segBytes] at piece
  rw [flatBytes, ← length_tableBytes, ofList_append_right, piece, segBytes, ofList_toList hi,
    Nat.zero_add]

/-- The bytes of a builder describe the builder's segments. -/
theorem message_flatBytes (some : b.nsegs ≠ 0) (fits : b.Framable) :
    (Frame.message (ofList b.flatBytes)).nsegs = b.nsegs ∧
      ∀ s < b.nsegs, ((Frame.message (ofList b.flatBytes)).seg s).words = (b.seg s).words ∧
        ∀ i < (b.seg s).words * 8,
          ((Frame.message (ofList b.flatBytes)).seg s).data i = (b.seg s).data i := by
  have count := nsegs_flatBytes some fits.1
  refine ⟨count, fun s hs => ?_⟩
  have segEq : (Frame.message (ofList b.flatBytes)).seg s =
      Frame.segment (ofList b.flatBytes) b.nsegs s := by
    simp [Frame.message, count, hs]
  rw [segEq]
  refine ⟨size_flatBytes fits hs, fun i hi => ?_⟩
  change ofList _ _ = _
  rw [wordsBefore_flatBytes fits hs.le, Nat.add_assoc, byte_of_segment hs hi]

/-! ## Serialized builders -/

/-- The bytes of a serialized builder. -/
theorem serialize_eq (done : b.serialize = .ok flat) :
    b.nsegs ≠ 0 ∧ (b.seg 0).words ≠ 0 ∧ flat = b.flatBytes := by
  unfold serialize at done
  split at done
  · cases done
  · next started =>
      rw [not_or] at started
      exact ⟨started.1, started.2, (Except.ok.inj done).symm⟩

/-- A serialized builder describes the builder's segments. -/
theorem message_serialize (done : b.serialize = .ok flat) (fits : b.Framable) :
    (Frame.message (ofList flat)).nsegs = b.nsegs ∧
      ∀ s < b.nsegs, ((Frame.message (ofList flat)).seg s).words = (b.seg s).words ∧
        ∀ i < (b.seg s).words * 8,
          ((Frame.message (ofList flat)).seg s).data i = (b.seg s).data i := by
  obtain ⟨some, -, rfl⟩ := serialize_eq done
  exact message_flatBytes some fits

/-- The first segment starts with the builder's bytes, however its size is
announced. -/
theorem first_serialize (done : b.serialize = .ok flat) (few : b.nsegs < 2 ^ 32) {i : Nat}
    (hi : i < (b.seg 0).words * 8) :
    ((Frame.message (ofList flat)).seg 0).data i = (b.seg 0).data i := by
  obtain ⟨some, -, rfl⟩ := serialize_eq done
  have segLt : 0 < b.nsegs := Nat.pos_of_ne_zero some
  simp only [Frame.message, nsegs_flatBytes some few, segLt, if_true, Frame.segment,
    Frame.wordsBefore, Nat.mul_zero, Nat.add_zero]
  simpa [Frame.wordsBefore] using byte_of_segment segLt hi

end Builder

end CapnpJanet
