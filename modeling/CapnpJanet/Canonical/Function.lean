import CapnpJanet.Canonical.Render
import CapnpJanet.Message.Bounds
import CapnpJanet.Value.Alike

/-!
# The canonical bytes and the value

Two messages with equal values have the same canonical bytes as soon as their
packed lists are padded alike, and only then: the copier takes the last byte of
a bit list over from the source, with the bits behind the last element.
-/

namespace CapnpJanet

open ByteMemory Paths

namespace Message

variable {m m' : Message} {p p' q q' : Ptr} {i k : Nat}

/-- Two packed lists of the same elements are equal values. -/
theorem valueEq_of_packed (packed : p.form = .packed) (kind : p.kind = p'.kind)
    (esize : p.esize = p'.esize) (count : p.count = p'.count)
    (bits : ∀ b < p.count * p.esize.bits, m.listBit p b = m'.listBit p' b) :
    ValueEq m m' p p' := by
  have packed' : p'.form = .packed := by
    unfold Ptr.form at packed ⊢
    rwa [← kind, ← esize]
  refine Everywhere.of_next ⟨kind, fun _ => esize, fun _ => count, fun i j => ?_, fun i k => ?_,
    fun _ => bits⟩ ?_
  · dsimp only
    rw [datum, datum, packed, packed']
  · dsimp only
    rw [link_packed packed, link_packed packed']
  · rintro next ⟨i, k, cost, cost', found, -⟩
    rw [link_packed packed] at found
    cases found

/-- Two handles whose trees are laid out in the same words. -/
def LaidAlike (m m' : Message) (mem : Memory) (pair : Ptr × Ptr) : Prop :=
  ∃ room w slot pos, m.Readable room pair.1 ∧
    (m.tree room pair.1).Laid mem w slot pos ∧ (m'.tree room pair.2).Laid mem w slot pos

/-- Trees laid out in the same words have the trees behind their pointers laid
out in the same words. -/
theorem LaidAlike.next {mem : Memory} {cost cost' : Nat} (same : ValueEq m m' p p')
    (laid : LaidAlike m m' mem (p, p')) (found : m.link p i k = some (q, cost))
    (found' : m'.link p' i k = some (q', cost')) :
    q.kind = .null ∨ LaidAlike m m' mem (q, q') := by
  obtain ⟨room, w, slot, pos, readable, here, there⟩ := laid
  dsimp only at readable here there
  have inside : i < p.rows := by
    by_contra outside
    rw [link_past (not_lt.mp outside)] at found
    cases found
  obtain ⟨shape, form⟩ : ∃ shape, p.form = .block shape := by
    unfold Ptr.rows at inside
    cases form : p.form with
    | block shape => exact ⟨shape, rfl⟩
    | _ =>
        rw [form] at inside
        exact absurd inside (Nat.not_lt_zero i)
  by_cases kept : k < m.linkWords p
  · cases room with
    | zero => exact readable.elim
    | succ room =>
        obtain ⟨r, price, atLink, below⟩ := readable.2 i inside k kept
        rw [found] at atLink
        cases atLink
        -- Equal sizes put the objects of both trees at the same place.
        rw [tree_block form] at here
        rw [tree_block (same.form_eq ▸ form), ← same.rows_eq, ← same.dataWords_eq,
          ← same.linkWords_eq] at there
        have rowHere := (here.2.2 i inside).2 k kept
        have rowThere := (there.2.2 i inside).2 k kept
        have sizes := same.subtree_of_tree (fun t t' => t.size = t'.size) room rfl
          fun r r' next => next.size_eq room
        have place := Tree.before_congr sizes (m.linkWords p) i k
        rw [Tree.placeOf, ← place] at rowThere
        rw [subtree_of_link found] at rowHere
        rw [subtree_of_link found'] at rowThere
        exact .inr ⟨room, _, _, _, below, rowHere, rowThere⟩
  · left
    by_cases pointers : p.form = .block .pointers
    · unfold linkWords at kept
      unfold link at found
      rw [pointers] at kept found
      dsimp only at kept found
      rw [if_neg fun within => kept (by rw [within.2]; exact Nat.one_pos)] at found
      cases found
    · obtain ⟨r, price, atLink, null⟩ :=
        (linkWords_le_iff pointers).mp (not_lt.mp kept) i inside k le_rfl
      rw [found] at atLink
      cases atLink
      exact null

/-- Packed lists laid out in the same words are padded alike. -/
theorem LaidAlike.pads {mem : Memory} (same : ValueEq m m' p p')
    (laid : LaidAlike m m' mem (p, p')) : PadsAlike m m' (p, p') := by
  obtain ⟨room, w, slot, pos, readable, here, there⟩ := laid
  dsimp only at readable here there
  intro packed b _ inside
  dsimp only at packed inside ⊢
  cases room with
  | zero => exact readable.elim
  | succ room =>
      have list := ValueEq.kind_of_packed packed
      have esize : p.esize = p'.esize := same.here.esize list
      have count : p.count = p'.count := same.here.count (.inl list)
      rw [tree_packed packed] at here
      rw [tree_packed (same.form_eq ▸ packed), ← esize, ← count] at there
      have words : packedBytes p.esize p.count ≤ 8 * packedWords p.esize p.count := by
        unfold packedWords
        omega
      have byteHere := here.2 (b / 8) (by omega)
      have byteThere := there.2 (b / 8) (by omega)
      dsimp only at byteHere byteThere
      rw [if_pos (by omega)] at byteHere byteThere
      rw [listBit, listBit, ← byteHere, ← byteThere]

/-- Equal values have equal trees in one memory only with equal padding. -/
theorem paddingEq_of_laidAlike {mem : Memory} (same : ValueEq m m' p p')
    (laid : LaidAlike m m' mem (p, p')) : PaddingEq m m' p p' := by
  refine Everywhere.of_invariant (fun pair => ValueEq m m' pair.1 pair.2 ∧
    (pair.1.kind = .null ∨ LaidAlike m m' mem pair)) ⟨same, .inr laid⟩ ?_ ?_
  · rintro ⟨r, r'⟩ ⟨q, q'⟩ ⟨alike, here⟩ ⟨i, k, cost, cost', found, found'⟩
    refine ⟨alike.link found found', ?_⟩
    rcases here with null | laid
    · dsimp only at found null
      rw [link, form_of_null null] at found
      cases found
    · exact laid.next alike found found'
  · rintro ⟨r, r'⟩ ⟨alike, null | laid⟩
    · intro packed
      dsimp only at null packed
      rw [form_of_null null] at packed
      cases packed
    · exact laid.pads alike

/-- When equal values have the same canonical form. -/
theorem canonicalize_eq_iff {cost cost' : Nat} {raw raw' : List UInt8}
    (root : m.limited.rootTarget = some (p, cost))
    (root' : m'.limited.rootTarget = some (p', cost'))
    (same : ValueEq m.limited m'.limited p p') (done : m.canonicalize = .ok raw)
    (done' : m'.canonicalize = .ok raw') :
    raw = raw' ↔ PaddingEq m.limited m'.limited p p' := by
  obtain ⟨q, price, named, readable, -, renders⟩ := canonicalize_eq_ok_iff.mp done
  rw [root] at named
  cases named
  obtain ⟨q', price', named', -, -, renders'⟩ := canonicalize_eq_ok_iff.mp done'
  rw [root'] at named'
  cases named'
  constructor
  · rintro rfl
    exact paddingEq_of_laidAlike same
      ⟨copyRoom, _, 0, 1, readable, renders.laid, renders'.laid⟩
  · intro padding
    rw [← tree_eq same padding copyRoom] at renders'
    exact renders.unique renders'

/-! ## Bit lists -/

/-- Two packed lists with equal bytes are padded alike. -/
theorem paddingEq_of_packed (packed : p.form = .packed)
    (bytes : ∀ b < packedBytes p.esize p.count, m.listByte p b = m'.listByte p' b) :
    PaddingEq m m' p p' := by
  refine Everywhere.of_next (fun _ b _ inside => ?_) ?_
  · dsimp only at inside ⊢
    rw [listBit, listBit, bytes (b / 8) (by omega)]
  · rintro next ⟨i, k, cost, cost', found, -⟩
    rw [link_packed packed] at found
    cases found

/-- One segment with a list of three bits, in the low bits of `body`. -/
def threeBitsFrame (body : UInt8) : List UInt8 :=
  [0, 0, 0, 0, 2, 0, 0, 0,
   1, 0, 0, 0, 0x19, 0, 0, 0,
   body, 0, 0, 0, 0, 0, 0, 0]

/-- The list in a segment of its own, behind a far pointer. -/
def threeBitsFarFrame (body : UInt8) : List UInt8 :=
  [1, 0, 0, 0, 1, 0, 0, 0, 2, 0, 0, 0, 0, 0, 0, 0,
   2, 0, 0, 0, 1, 0, 0, 0,
   1, 0, 0, 0, 0x19, 0, 0, 0,
   body, 0, 0, 0, 0, 0, 0, 0]

/-- The handle of the list. -/
def threeBitsPtr (seg : Nat) : Ptr :=
  { Ptr.zero with seg := seg, word := 1, kind := .list, esize := .bit, count := 3 }

/-- The far pointer makes no difference. -/
theorem canonicalize_eq_far : ∃ raw,
    (Frame.message (ofList (threeBitsFrame 5))).canonicalize = .ok raw ∧
      (Frame.message (ofList (threeBitsFarFrame 5))).canonicalize = .ok raw := by
  have near : (Frame.message (ofList (threeBitsFrame 5))).canonicalize =
      .ok ((threeBitsFrame 5).drop 8) := by
    decide +kernel
  have far : (Frame.message (ofList (threeBitsFarFrame 5))).canonicalize =
      .ok ((threeBitsFarFrame 5).drop 24) := by
    decide +kernel
  have rootNear : (Frame.message (ofList (threeBitsFrame 5))).limited.rootTarget =
      some (threeBitsPtr 0, 2) := by
    decide +kernel
  have rootFar : (Frame.message (ofList (threeBitsFarFrame 5))).limited.rootTarget =
      some (threeBitsPtr 1, 3) := by
    decide +kernel
  have same := (canonicalize_eq_iff rootNear rootFar
    (valueEq_of_packed rfl rfl rfl rfl (by decide +kernel)) near far).mpr
      (paddingEq_of_packed rfl (by decide +kernel))
  exact ⟨_, near, same ▸ far⟩

/-- Bits behind the last element reach the canonical form: two messages of equal
values have different ones. -/
theorem canonicalize_keeps_padding : ∃ m m' p p' cost raw raw',
    messageFromFlat (threeBitsFrame 0x05) = .ok m ∧
      messageFromFlat (threeBitsFrame 0xfd) = .ok m' ∧
      m.limited.rootTarget = some (p, cost) ∧ m'.limited.rootTarget = some (p', cost) ∧
      ValueEq m.limited m'.limited p p' ∧ m.ContentInside p ∧ m'.ContentInside p' ∧
      m.canonicalize = .ok raw ∧ m'.canonicalize = .ok raw' ∧ raw ≠ raw' := by
  refine ⟨Frame.message (ofList (threeBitsFrame 0x05)), Frame.message (ofList (threeBitsFrame 0xfd)),
    threeBitsPtr 0, threeBitsPtr 0, 2, (threeBitsFrame 0x05).drop 8, (threeBitsFrame 0xfd).drop 8,
    parseFlat_of_accepted (by decide +kernel), parseFlat_of_accepted (by decide +kernel),
    by decide +kernel, by decide +kernel,
    valueEq_of_packed rfl rfl rfl rfl (by decide +kernel), ?_, ?_, by decide +kernel,
    by decide +kernel, by decide +kernel⟩
  all_goals
    unfold ContentInside
    decide +kernel

end Message

end CapnpJanet
