import CapnpJanet.Builder.Serialize
import CapnpJanet.Canonical.Render
import CapnpJanet.Value.ReadBack

/-!
# Reading the canonical form

The framed output of a canonicalization is a message of one segment that stores
the tree of the source.  Its root is the handle of the tree, and reading all of
it costs the words of its objects, one for each pointer, and what looking for
last pointers costs.
-/

namespace CapnpJanet

open ByteMemory

/-- The stream frame of one segment. -/
def frameOf (raw : List UInt8) : List UInt8 :=
  Builder.le32 0 ++ Builder.le32 (raw.length / 8) ++ raw

/-- The message that a framed segment describes. -/
def messageOf (raw : List UInt8) : Message := Frame.message (ofList (frameOf raw))

section
variable (raw : List UInt8)

theorem ofList_frameOf (k : Nat) : ofList (frameOf raw) (8 + k) = ofList raw k := by
  have table : (Builder.le32 0 ++ Builder.le32 (raw.length / 8)).length = 8 := by simp
  rw [frameOf, show 8 + k = _ from congrArg (· + k) table.symm, ofList_append_right]

theorem nsegs_frameOf : Frame.nsegs (ofList (frameOf raw)) = 1 := by
  have count : loadLe 4 (ofList (frameOf raw)) 0 = 0 % 2 ^ 32 := by
    apply Builder.loadLe_le32
    intro k hk
    rw [Nat.zero_add, frameOf, List.append_assoc, ofList_append_left (by simpa using hk)]
  rw [Frame.nsegs, count]
  rfl

theorem size_frameOf : Frame.size (ofList (frameOf raw)) 0 = raw.length / 8 % 2 ^ 32 := by
  apply Builder.loadLe_le32
  intro k hk
  have first : (Builder.le32 0).length = 4 := Builder.length_le32 0
  rw [frameOf, List.append_assoc, show 4 + 4 * 0 + k = (Builder.le32 0).length + k by omega,
    ofList_append_right, ofList_append_left (by simpa using hk)]

/-- The parser takes every framed segment. -/
theorem messageFromFlat_frameOf : messageFromFlat (frameOf raw) = .ok (messageOf raw) := by
  refine parseFlat_of_accepted ⟨?_, ?_, ?_, ?_⟩
  · simp [frameOf]
    omega
  · rw [nsegs_frameOf]
    decide
  · rw [nsegs_frameOf]
    decide
  · have table : Frame.tableBytes 1 = 8 := by decide
    have length : (frameOf raw).length = 8 + raw.length := by
      simp [frameOf]
      omega
    rw [nsegs_frameOf, table, Frame.wordsBefore, Frame.wordsBefore, size_frameOf, length]
    omega

theorem messageOf_nsegs : (messageOf raw).nsegs = 1 := nsegs_frameOf raw

theorem messageOf_seg : (messageOf raw).seg 0 = Frame.segment (ofList (frameOf raw)) 1 0 := by
  simp [messageOf, Frame.message, nsegs_frameOf]

theorem messageOf_words : ((messageOf raw).seg 0).words = raw.length / 8 % 2 ^ 32 := by
  rw [messageOf_seg]
  exact size_frameOf raw

theorem messageOf_data : ((messageOf raw).seg 0).data = ofList raw := by
  rw [messageOf_seg]
  funext k
  exact ofList_frameOf raw k

end

namespace Message

variable {m : Message} {raw : List UInt8} {t : Tree}

theorem canonicalizeFramed_eq_ok_iff {framed : List UInt8} :
    m.canonicalizeFramed = .ok framed ↔ ∃ raw, m.canonicalize = .ok raw ∧ framed = frameOf raw := by
  unfold canonicalizeFramed
  cases m.canonicalize with
  | error rc => simp
  | ok raw => simp [frameOf, eq_comm]

/-- The framed output stores the tree. -/
theorem Renders.stored (renders : Renders raw t) (proper : t.Proper) (near : t.Near 0 1)
    (whole : 1 + t.size < 2 ^ 32) : t.Stored (messageOf raw) 0 0 1 := by
  have words : ((messageOf raw).seg 0).words = 1 + t.size := by
    rw [messageOf_words, renders.length]
    omega
  refine ⟨?_, by omega, words.ge, ?_, proper, near⟩
  · rw [messageOf_nsegs]
    exact Nat.one_pos
  · rw [readWord, messageOf_data]
    exact renders.laid

theorem rootTarget_of_stored (stored : t.Stored m 0 0 1) (limit : m.depthLimit ≠ 0) :
    m.rootTarget = some (t.handle 0 0 1, t.own + 1) := by
  have some : m.nsegs ≠ 0 := Nat.ne_of_gt (Nat.zero_lt_of_lt stored.segLt)
  rw [rootTarget, if_neg some]
  exact stored.slotTarget limit

end Message

end CapnpJanet
