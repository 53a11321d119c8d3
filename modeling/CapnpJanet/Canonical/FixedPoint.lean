import CapnpJanet.Canonical.Function
import CapnpJanet.Canonical.Reread

/-!
# Canonical shape, and canonicalizing again

The output of a canonicalization is in canonical shape and is its own canonical
form exactly when the tree of the source can be read from it within the default
budget.  The source itself may have been cheaper to read: packed lists behind
double-far pointers are not charged.
-/

namespace CapnpJanet

open ByteMemory

namespace Message

variable {m : Message} {p : Ptr} {cost : Nat} {raw : List UInt8} {t : Tree}

/-- The bytes are the root pointer and the objects of a tree in preorder, every
field of every pointer holds its value, and no section can be made shorter. -/
structure CanonicalShape (raw : List UInt8) (t : Tree) : Prop where
  renders : Renders raw t
  proper : t.Proper
  near : t.Near 0 1
  wordCounts : t.WordCounts
  trimmed : t.Trimmed

/-- The framed output is taken by the parser as one segment with all the bytes,
and canonicalizing it gives these bytes again. -/
def FixedPoint (m : Message) (raw : List UInt8) : Prop :=
  ∃ framed m', m.canonicalizeFramed = .ok framed ∧ messageFromFlat framed = .ok m' ∧
    m'.nsegs = 1 ∧ (m'.seg 0).words * 8 = raw.length ∧ m'.canonicalize = .ok raw

/-- What reading all of a canonical form costs, from the root on. -/
def rereadCost (t : Tree) : Nat := t.own + 1 + t.reading

theorem limited_messageOf (raw : List UInt8) : (messageOf raw).limited = messageOf raw := rfl

theorem rootTarget_sound (named : m.rootTarget = some (p, cost)) : p.Sound := by
  unfold rootTarget at named
  split at named
  · cases named
  · exact slotTarget_sound named

/-- Whether the stored tree can be canonicalized is a matter of its price. -/
theorem canonicalize_stored_iff (stored : t.Stored (messageOf raw) 0 0 1) (trimmed : t.Trimmed)
    (within : t.Within copyRoom) (renders : Renders raw t) :
    (messageOf raw).canonicalize = .ok raw ↔ rereadCost t ≤ defaultTraversalWords := by
  have limit : (messageOf raw).depthLimit ≠ 0 := by
    change defaultDepthLimit ≠ 0
    decide
  have named := rootTarget_of_stored stored limit
  obtain ⟨readable, again, price⟩ := stored.reads limit trimmed within
  rw [canonicalize_eq_ok_iff, limited_messageOf]
  constructor
  · rintro ⟨q, cost, root, -, enough, -⟩
    rw [named] at root
    cases root
    rwa [price] at enough
  · intro enough
    refine ⟨_, _, named, readable, ?_, ?_⟩
    · rwa [price]
    · rwa [again]

/-- An output in canonical shape that is its own canonical form can be read
within the budget. -/
theorem rereadCost_le_of_fixed (shape : CanonicalShape raw t) (within : t.Within copyRoom)
    (done : m.canonicalize = .ok raw) (fixed : FixedPoint m raw) :
    rereadCost t ≤ defaultTraversalWords := by
  obtain ⟨framed, m', framedEq, parsed, -, whole, again⟩ := fixed
  obtain ⟨raw', done', rfl⟩ := canonicalizeFramed_eq_ok_iff.mp framedEq
  rw [done] at done'
  cases done'
  rw [messageFromFlat_frameOf] at parsed
  cases parsed
  have length := shape.renders.length
  rw [messageOf_words] at whole
  have stored := shape.renders.stored shape.proper shape.near (by omega)
  exact (canonicalize_stored_iff stored shape.trimmed within shape.renders).mp again

/-- When the output is in canonical shape and its own canonical form. -/
theorem canonicalize_fixed_iff (root : m.limited.rootTarget = some (p, cost))
    (done : m.canonicalize = .ok raw) :
    CanonicalShape raw (m.limited.tree copyRoom p) ∧ FixedPoint m raw ↔
      rereadCost (m.limited.tree copyRoom p) ≤ defaultTraversalWords := by
  obtain ⟨q, price, named, readable, -, renders⟩ := canonicalize_eq_ok_iff.mp done
  rw [root] at named
  cases named
  have within := tree_within readable
  refine ⟨fun holds => rereadCost_le_of_fixed holds.1 within done holds.2, fun enough => ?_⟩
  have proper := tree_proper (m := m.limited) (rootTarget_sound root) copyRoom
  have trimmed := tree_trimmed readable
  -- A tree that can be read within the budget is small, so every offset fits.
  have small : (m.limited.tree copyRoom p).size < 2 ^ 23 := by
    have paid := (m.limited.tree copyRoom p).size_le
    unfold rereadCost defaultTraversalWords at enough
    omega
  have near := Tree.near_of_small (t := m.limited.tree copyRoom p) Nat.one_pos (by omega)
  refine ⟨⟨renders, proper, near, Tree.wordCounts_of_small (by omega), trimmed⟩, ?_⟩
  have stored := renders.stored proper near (by omega)
  refine ⟨_, _, canonicalizeFramed_eq_ok_iff.mpr ⟨raw, done, rfl⟩, messageFromFlat_frameOf raw,
    messageOf_nsegs raw, ?_, (canonicalize_stored_iff stored trimmed within renders).mpr enough⟩
  have length := renders.length
  rw [messageOf_words]
  omega

/-- The canonical form of a short list is its own. -/
theorem canonicalize_fixed_threeBits :
    CanonicalShape ((threeBitsFarFrame 5).drop 24)
        ((Frame.message (ofList (threeBitsFarFrame 5))).limited.tree copyRoom (threeBitsPtr 1)) ∧
      FixedPoint (Frame.message (ofList (threeBitsFarFrame 5))) ((threeBitsFarFrame 5).drop 24) := by
  have root : (Frame.message (ofList (threeBitsFarFrame 5))).limited.rootTarget =
      some (threeBitsPtr 1, 3) := by
    decide +kernel
  have done : (Frame.message (ofList (threeBitsFarFrame 5))).canonicalize =
      .ok ((threeBitsFarFrame 5).drop 24) := by
    decide +kernel
  exact (canonicalize_fixed_iff root done).mpr (by decide +kernel)

/-! ## A list that was not paid for -/

/-- A byte list of 2^23 words behind a double-far pointer: the root, and a
segment with the landing pad and the list. -/
def longListFrame : List UInt8 :=
  [1, 0, 0, 0, 1, 0, 0, 0, 2, 0, 0x80, 0, 0, 0, 0, 0,
   6, 0, 0, 0, 1, 0, 0, 0,
   18, 0, 0, 0, 1, 0, 0, 0,
   1, 0, 0, 0, 2, 0, 0, 0x20] ++ List.replicate (2 ^ 26) 0

/-- The handle of the list. -/
def longListPtr : Ptr :=
  { Ptr.zero with seg := 1, word := 2, kind := .list, esize := .byte, count := 2 ^ 26 }

theorem messageFromFlat_longList :
    messageFromFlat longListFrame = .ok (Frame.message (ofList longListFrame)) := by
  have count : Frame.nsegs (ofList longListFrame) = 2 := by
    decide +kernel
  have words : Frame.wordsBefore (Frame.size (ofList longListFrame)) 2 = 2 ^ 23 + 3 := by
    decide +kernel
  have length : longListFrame.length = 40 + 2 ^ 26 := by
    rw [longListFrame, List.length_append, List.length_replicate]
    rfl
  refine parseFlat_of_accepted ⟨?_, ?_, ?_, ?_⟩
  · omega
  · omega
  · rw [count]
    decide
  · rw [count, words, length]
    decide

theorem root_longList :
    (Frame.message (ofList longListFrame)).limited.rootTarget = some (longListPtr, 3) := by
  decide +kernel

/-- The canonical form of that list cannot be canonicalized again, although
the list lies inside its segment. -/
theorem longList_not_fixed : ∃ m p cost raw, messageFromFlat longListFrame = .ok m ∧
    m.limited.rootTarget = some (p, cost) ∧ m.ContentInside p ∧ m.canonicalize = .ok raw ∧
      ¬(CanonicalShape raw (m.limited.tree copyRoom p) ∧ FixedPoint m raw) := by
  have packed : longListPtr.form = .packed := rfl
  have none : longListPtr.rows = 0 := rfl
  have readable : (Frame.message (ofList longListFrame)).limited.Readable copyRoom longListPtr :=
    ⟨by decide, fun i inside => absurd inside (by rw [none]; exact Nat.not_lt_zero i)⟩
  have free : (Frame.message (ofList longListFrame)).limited.walkCost copyRoom longListPtr = 0 := by
    rw [copyRoom, walkCost, none]
    rfl
  obtain ⟨raw, done, -⟩ := exists_canonicalize root_longList readable (by rw [free]; decide)
  refine ⟨_, longListPtr, 3, raw, messageFromFlat_longList, root_longList, fun i inside => ?_, done,
    fun holds => ?_⟩
  · have words : ((Frame.message (ofList longListFrame)).seg 1).words = 2 ^ 23 + 2 := by
      decide +kernel
    have small : i < 2 ^ 23 := inside
    change Message.InSegment _ 1 (sizeT ((2 : Nat) + (i : Int)))
    rw [show ((2 : Nat) : Int) + i = ((2 + i : Nat) : Int) by omega, sizeT_of_lt (by omega)]
    refine ⟨by decide +kernel, ?_⟩
    rw [words]
    omega
  · have enough := rereadCost_le_of_fixed holds.1 (tree_within readable) done holds.2
    rw [copyRoom, tree_packed packed] at enough
    exact absurd enough (by unfold rereadCost; decide)

end Message

end CapnpJanet
