import CapnpJanet.Message.Landing
import CapnpJanet.Value.Unfold

/-!
# Trees that are read back

When a segment of a message holds a tree, and every field of its pointers holds
its value, the readers find the objects of the tree again: the pointer names the
handle of the tree, and rows, data words and pointers of the handle are those of
the tree.
-/

namespace CapnpJanet

open ByteMemory Finset

namespace Tree

/-- The handle of a tree whose objects are at `pos` and whose pointer is in a
slot. -/
def handle (seg slot pos : Nat) : Tree → Ptr
  | null => nullPtr seg slot
  | packed esize count _ =>
      { Ptr.zero with
        seg := seg
        word := if packedWords esize count = 0 then slot + 1 else pos
        kind := .list
        esize := esize
        count := count }
  | block .struct _ nd np _ _ =>
      Message.structAt seg (if nd = 0 ∧ np = 0 then slot else pos) nd np
  | block .pointers n _ _ _ _ =>
      { Ptr.zero with
        seg := seg
        word := if n = 0 then slot + 1 else pos
        kind := .list
        esize := .ptr
        count := n }
  | block .composite n nd np _ _ =>
      { Ptr.zero with
        seg := seg
        word := pos + 1
        kind := .list
        esize := .composite
        count := n
        dwords := nd
        pwords := np
        stepWords := nd + np }

/-- Segment `seg` of the message holds the objects of a tree from `pos` on, and
its pointer in a slot. -/
structure Stored (m : Message) (seg : Nat) (t : Tree) (slot pos : Nat) : Prop where
  segLt : seg < m.nsegs
  slotIn : slot < (m.seg seg).words
  inside : pos + t.size ≤ (m.seg seg).words
  laid : t.Laid (m.seg seg).data (m.readWord seg slot) slot pos
  proper : t.Proper
  near : t.Near slot pos

variable {m : Message} {seg slot pos : Nat} {t : Tree}

theorem listBodyWords_eq (esize : ElemSize) (count : Nat) :
    listBodyWords esize count = packedWords esize count := by
  unfold listBodyWords packedWords packedBytes
  omega

theorem handle_form_packed {esize : ElemSize} {count : Nat} {byte : Nat → UInt8}
    (proper : (packed esize count byte).Proper) (seg slot pos : Nat) :
    ((packed esize count byte).handle seg slot pos).form = .packed := by
  obtain ⟨notPtr, notComposite, -⟩ := proper
  unfold handle Ptr.form
  cases esize <;> first | rfl | contradiction

theorem handle_form_block {shape : Shape} {n nd np : Nat} {data : Nat → Nat → Nat}
    {child : Nat → Nat → Tree} :
    ((block shape n nd np data child).handle seg slot pos).form = .block shape := by
  cases shape <;> rfl

/-! ## Resolution -/

/-- A packed or pointer list in a slot. -/
theorem slotTarget_list {depth count words start : Nat} {esize : ElemSize} {off : Int}
    (limit : depth ≠ 0) (slotIn : m.InSegment seg slot)
    (reads : m.readWord seg slot = wpMakeList (if words = 0 then 0 else off) esize count)
    (plain : esize ≠ .composite) (small : count < 2 ^ 29) (body : listBodyWords esize count = words)
    (fits : words ≠ 0 → OffsetFits off) (there : (slot : Int) + 1 + off = start)
    (inside : words ≠ 0 → start + words ≤ (m.seg seg).words) :
    m.slotTarget depth seg slot = some ({ Ptr.zero with
      seg := seg
      word := if words = 0 then slot + 1 else start
      kind := .list
      esize := esize
      count := count }, words + 1) := by
  obtain ⟨depth, rfl⟩ := Nat.exists_eq_succ_of_ne_zero limit
  have addressed := slotIn.lt
  have notNull : wpMakeList (if words = 0 then 0 else off) esize count ≠ 0 := by
    unfold wpMakeList
    omega
  have startEq : sizeT ((slot : Int) + 1 +
      wpOffset (wpMakeList (if words = 0 then 0 else off) esize count)) =
        if words = 0 then slot + 1 else start := by
    by_cases none : words = 0
    · rw [if_pos none, if_pos none, wpOffset_makeList _ _ (by constructor <;> decide)]
      exact sizeT_of_lt (n := slot + 1) (by omega)
    · have within := Message.lt_of_words_le (inside none)
      rw [if_neg none, if_neg none, wpOffset_makeList _ _ (fits none), there]
      exact sizeT_of_lt (by omega)
  have sized : listBodyWords (wpListEsize (wpMakeList (if words = 0 then 0 else off) esize count))
      (wpListCount (wpMakeList (if words = 0 then 0 else off) esize count)) = words := by
    rw [wpListEsize_makeList, wpListCount_makeList, Nat.mod_eq_of_lt small, body]
  refine Message.slotTarget_eq slotIn reads ?_
  rw [Message.target_near notNull (by simp)]
  simp only [wpKind_makeList]
  rw [Message.listTarget, wpListEsize_makeList, if_neg plain, startEq,
    Message.primitiveTarget_eq (by
      rw [sized]
      intro some
      rw [if_neg some]
      exact ⟨slotIn.1, inside some⟩), sized]
  simp only [listPtr, wpListEsize_makeList, wpListCount_makeList, Nat.mod_eq_of_lt small]

theorem makeStruct_ne_zero {off : Int} {nd np : Nat} (nd_lt : nd < 2 ^ 16) (np_lt : np < 2 ^ 16)
    (some : ¬(nd = 0 ∧ np = 0)) : wpMakeStruct off nd np ≠ 0 := by
  unfold wpMakeStruct
  rw [Nat.mod_eq_of_lt nd_lt, Nat.mod_eq_of_lt np_lt]
  omega

/-- The pointer of a stored tree names its handle, at the price of its
words. -/
theorem Stored.slotTarget (stored : Stored m seg t slot pos) {depth : Nat} (limit : depth ≠ 0) :
    m.slotTarget depth seg slot = some (t.handle seg slot pos, t.own + 1) := by
  obtain ⟨segLt, slotIn, inside, laid, proper, near⟩ := stored
  cases t with
  | null =>
      obtain ⟨depth, rfl⟩ := Nat.exists_eq_succ_of_ne_zero limit
      exact Message.slotTarget_eq ⟨segLt, slotIn⟩ laid (by rw [Message.target, if_pos rfl]; rfl)
  | packed esize count byte =>
      rw [size] at inside
      exact slotTarget_list limit ⟨segLt, slotIn⟩ laid.1 proper.2.1 proper.2.2.1
        (listBodyWords_eq esize count) near (by omega) fun _ => inside
  | block shape n nd np data child =>
      rw [size_block] at inside
      obtain ⟨pointer, tag, rows⟩ := laid
      obtain ⟨sizes, -⟩ := proper
      cases shape with
      | struct =>
          obtain ⟨rfl, nd_lt, np_lt⟩ := sizes
          dsimp only [Shape.header] at inside
          dsimp only [Shape.pointer] at pointer
          dsimp only [handle, own, Shape.header]
          rw [Nat.zero_add, Nat.one_mul]
          by_cases empty : nd = 0 ∧ np = 0
          · rw [if_pos empty] at pointer ⊢
            obtain ⟨rfl, rfl⟩ := empty
            exact Message.slotTarget_struct limit segLt pointer (by decide)
              (by constructor <;> decide) nd_lt np_lt
              (by omega) slotIn (by omega)
          · rw [if_neg empty] at pointer ⊢
            exact Message.slotTarget_struct limit segLt pointer
              (makeStruct_ne_zero nd_lt np_lt empty)
              (near.1 (by dsimp only [Shape.header]; omega)) nd_lt np_lt (by omega) slotIn (by omega)
      | pointers =>
          obtain ⟨n_lt, rfl, rfl⟩ := sizes
          dsimp only [Shape.header] at inside
          dsimp only [handle, own, Shape.header]
          have words : 0 + n * (0 + 1) = n := by omega
          rw [words]
          refine slotTarget_list limit ⟨segLt, slotIn⟩ pointer (by decide) n_lt ?_ (fun some => ?_)
            (by omega) fun _ => by omega
          · unfold listBodyWords
            rw [ElemSize.bits]
            omega
          · exact near.1 (by dsimp only [Shape.header]; omega)
      | composite =>
          obtain ⟨count, nd_lt, np_lt⟩ := sizes
          dsimp only [Shape.header] at inside
          obtain ⟨depth, rfl⟩ := Nat.exists_eq_succ_of_ne_zero limit
          have notNull : wpMakeList ((pos : Int) - slot - 1) .composite (n * (nd + np)) ≠ 0 := by
            unfold wpMakeList
            omega
          have tagDwords : wpStructDwords (wpMakeStruct n nd np) = nd := by
            rw [wpStructDwords_makeStruct, Nat.mod_eq_of_lt nd_lt]
          have tagPwords : wpStructPwords (wpMakeStruct n nd np) = np := by
            rw [wpStructPwords_makeStruct, Nat.mod_eq_of_lt np_lt]
          have below := Message.lt_of_words_le inside
          have startEq : sizeT ((slot : Int) + 1 +
              wpOffset (wpMakeList ((pos : Int) - slot - 1) .composite (n * (nd + np)))) = pos := by
            rw [wpOffset_makeList _ _ (near.1 (by dsimp only [Shape.header]; omega)),
              show (slot : Int) + 1 + ((pos : Int) - slot - 1) = pos by omega]
            exact sizeT_of_lt (by omega)
          refine Message.slotTarget_eq ⟨segLt, slotIn⟩ pointer ?_
          dsimp only [Shape.pointer]
          rw [Message.target_near notNull (by simp)]
          simp only [wpKind_makeList]
          rw [Message.listTarget, wpListEsize_makeList, if_pos rfl, startEq,
            Message.compositeTarget_eq segLt (tag rfl) (by
              rw [count, tagDwords, tagPwords]
              omega)]
          rw [count, tagDwords, tagPwords]
          simp only [compositePtr, count, tagDwords, tagPwords, handle, own, Shape.header]
          rw [Nat.add_comm (n * (nd + np))]

/-! ## Rows -/

section
variable {shape : Shape} {n nd np i j k : Nat} {data : Nat → Nat → Nat} {child : Nat → Nat → Tree}

/-- The objects behind a pointer of a stored block are stored. -/
theorem Stored.behind (stored : Stored m seg (block shape n nd np data child) slot pos) (hi : i < n)
    (hk : k < np) : Stored m seg (child i k) (slotOf shape nd np pos i k)
      (placeOf shape n nd np child pos i k) := by
  obtain ⟨segLt, slotIn, inside, laid, proper, near⟩ := stored
  have behind := placeOf_add_le shape nd pos data child hi hk
  have own := slotOf_lt shape nd pos hi hk
  refine ⟨segLt, ?_, behind.trans inside, (laid.2.2 i hi).2 k hk, proper.2.2.2 i k, near.2 i hi k hk⟩
  rw [size_block] at inside
  omega

theorem Stored.row_lt (stored : Stored m seg (block shape n nd np data child) slot pos) (hi : i < n) :
    pos + shape.header + i * (nd + np) + (nd + np) < 2 ^ 61 := by
  have inside := stored.inside
  have own := row_le hi (nd + np)
  rw [size_block] at inside
  exact Message.lt_of_words_le (show _ ≤ (m.seg seg).words by omega)

theorem Stored.rows (stored : Stored m seg (block shape n nd np data child) slot pos) :
    ((block shape n nd np data child).handle seg slot pos).rows = n := by
  have sizes := stored.proper.1
  unfold Ptr.rows
  rw [handle_form_block]
  cases shape with
  | struct => exact sizes.1.symm
  | pointers => rfl
  | composite => rfl

theorem handle_struct (some : ¬(nd = 0 ∧ np = 0)) :
    (block .struct n nd np data child).handle seg slot pos = Message.structAt seg pos nd np := by
  rw [handle, if_neg some]

/-- The elements of a stored composite list. -/
theorem Stored.elemPtr (stored : Stored m seg (block .composite n nd np data child) slot pos)
    (hi : i < n) : Message.elemPtr ((block .composite n nd np data child).handle seg slot pos) i =
      Message.structAt seg (pos + 1 + i * (nd + np)) nd np := by
  have below := stored.row_lt hi
  dsimp only [Shape.header] at below
  have wordEq : sizeT (((pos + 1 : Nat) : Int) + (i : Int) * ((nd + np : Nat) : Int)) =
      pos + 1 + i * (nd + np) :=
    sizeT_of_lt (n := pos + 1 + i * (nd + np)) (by omega)
  unfold Message.elemPtr Message.structAt handle
  dsimp only
  rw [wordEq]

theorem getU64_structAt {body : Nat} (inside : j < nd) :
    m.getU64 (Message.structAt seg body nd np) (j * 8) 0 = word (m.seg seg).data (body + j) := by
  rw [Message.getU64, Message.getScalar_structAt (by omega), word]
  congr 1
  omega

/-- The data words of a stored block. -/
theorem Stored.datum (stored : Stored m seg (block shape n nd np data child) slot pos) (i j : Nat) :
    m.datum ((block shape n nd np data child).handle seg slot pos) i j = data i j := by
  have outside := stored.proper.2.1 i j
  have rows := stored.laid.2.2
  unfold Message.datum
  rw [handle_form_block]
  cases shape with
  | struct =>
      obtain rfl : n = 1 := stored.proper.1.1
      by_cases inside : i = 0 ∧ j < ((block .struct 1 nd np data child).handle seg slot pos).dwords
      · obtain ⟨rfl, hj⟩ := inside
        change j < nd at hj
        have there := (rows 0 Nat.one_pos).1 j hj
        dsimp only [Shape.header] at there ⊢
        rw [show pos + 0 + 0 * (nd + np) + j = pos + j by omega] at there
        rw [if_pos ⟨rfl, hj⟩, handle_struct (by omega)]
        exact (getU64_structAt hj).trans there
      · dsimp only
        rw [if_neg inside]
        change ¬(i = 0 ∧ j < nd) at inside
        exact (outside (by omega)).symm
  | pointers =>
      have none := stored.proper.1.2.1
      exact (outside (.inr (by omega))).symm
  | composite =>
      dsimp only
      split
      · next inside =>
        have hi : i < n := inside.1
        have hj : j < nd := inside.2
        rw [stored.elemPtr hi, getU64_structAt hj]
        exact (rows i hi).1 j hj
      · next past =>
        refine (outside ?_).symm
        dsimp only [handle] at past
        omega

theorem fieldTarget_structAt {body : Nat} (hk : k < np) (small : body + nd + k < 2 ^ 64) :
    m.fieldTarget (Message.structAt seg body nd np) k =
      m.slotTarget m.depthLimit seg (body + nd + k) := by
  unfold Message.fieldTarget Message.structAt
  dsimp only
  rw [if_neg (not_le.mpr hk)]
  congr 1
  exact sizeT_of_lt (n := body + nd + k) small

theorem fieldTarget_past {body : Nat} (past : np ≤ k) :
    m.fieldTarget (Message.structAt seg body nd np) k = some (nullPtr seg 0, 0) :=
  if_pos past

/-- The pointers of a stored block are read from its own slots. -/
theorem Stored.link_slot (stored : Stored m seg (block shape n nd np data child) slot pos)
    (hi : i < n) (hk : k < np) :
    m.link ((block shape n nd np data child).handle seg slot pos) i k =
      m.slotTarget m.depthLimit seg (slotOf shape nd np pos i k) := by
  have below := stored.row_lt hi
  unfold Message.link slotOf
  rw [handle_form_block]
  cases shape with
  | struct =>
      obtain rfl : n = 1 := stored.proper.1.1
      obtain rfl : i = 0 := Nat.lt_one_iff.mp hi
      dsimp only [handle, Shape.header] at below ⊢
      rw [if_pos rfl, if_neg (by omega), fieldTarget_structAt hk (by omega)]
      congr 1
      omega
  | pointers =>
      obtain ⟨-, rfl, rfl⟩ := stored.proper.1
      obtain rfl : k = 0 := Nat.lt_one_iff.mp hk
      have inside : i < ((block .pointers n 0 1 data child).handle seg slot pos).count ∧ 0 = 0 :=
        ⟨hi, rfl⟩
      have wordEq : ((block .pointers n 0 1 data child).handle seg slot pos).word = pos :=
        if_neg (by omega)
      dsimp only [Shape.header] at below ⊢
      rw [if_pos inside, Message.itemTarget, wordEq]
      congr 1
      rw [show ((pos : Int) + i) = ((pos + 0 + i * (0 + 1) + 0 + 0 : Nat) : Int) by omega]
      exact sizeT_of_lt (by omega)
  | composite =>
      have inside : i < ((block .composite n nd np data child).handle seg slot pos).count := hi
      dsimp only [Shape.header] at below ⊢
      rw [if_pos inside, stored.elemPtr hi, fieldTarget_structAt hk (by omega)]

/-- The pointers of a stored block lead to the handles of its trees. -/
theorem Stored.link (stored : Stored m seg (block shape n nd np data child) slot pos)
    (limit : m.depthLimit ≠ 0) (hi : i < n) (hk : k < np) :
    m.link ((block shape n nd np data child).handle seg slot pos) i k =
      some ((child i k).handle seg (slotOf shape nd np pos i k)
        (placeOf shape n nd np child pos i k), (child i k).own + 1) :=
  (stored.link_slot hi hk).trans ((stored.behind hi hk).slotTarget limit)

/-- Past the pointers of a stored struct or element there is nothing. -/
theorem Stored.link_past (stored : Stored m seg (block shape n nd np data child) slot pos)
    (other : shape ≠ .pointers) (hi : i < n) (past : np ≤ k) :
    m.link ((block shape n nd np data child).handle seg slot pos) i k =
      some (nullPtr seg 0, 0) := by
  unfold Message.link
  rw [handle_form_block]
  cases shape with
  | struct =>
      obtain rfl : n = 1 := stored.proper.1.1
      dsimp only
      rw [if_pos (Nat.lt_one_iff.mp hi)]
      exact fieldTarget_past past
  | pointers => exact absurd rfl other
  | composite =>
      have inside : i < ((block .composite n nd np data child).handle seg slot pos).count := hi
      dsimp only
      rw [if_pos inside, stored.elemPtr hi]
      exact fieldTarget_past past

end

/-- The bytes of a stored packed list. -/
theorem Stored.byte {esize : ElemSize} {count b : Nat} {byte : Nat → UInt8}
    (stored : Stored m seg (packed esize count byte) slot pos) (inside : b < packedBytes esize count) :
    m.listByte ((packed esize count byte).handle seg slot pos) b = byte b := by
  have words : packedBytes esize count ≤ 8 * packedWords esize count := by
    unfold packedWords
    omega
  have within := stored.inside
  have fits := (m.seg seg).fits
  rw [size] at within
  have wordEq : ((packed esize count byte).handle seg slot pos).word = pos := if_neg (by omega)
  rw [← stored.laid.2 b (by omega), Message.listByte, wordEq]
  change (m.seg seg).data (sizeT (pos * 8 + b)) = _
  congr 1
  rw [show ((pos : Int) * 8 + b) = ((8 * pos + b : Nat) : Int) by omega]
  exact sizeT_of_lt (by omega)

/-! ## The whole tree -/

theorem handle_kind_null : (t.handle seg slot pos).kind = .null ↔ t = null := by
  cases t with
  | null => exact iff_of_true rfl rfl
  | packed esize count byte => exact iff_of_false nofun nofun
  | block shape n nd np data child => cases shape <;> exact iff_of_false nofun nofun

section
variable {shape : Shape} {n nd np i k : Nat} {data : Nat → Nat → Nat} {child : Nat → Nat → Tree}

theorem Stored.dataWords (stored : Stored m seg (block shape n nd np data child) slot pos)
    (trimmed : (block shape n nd np data child).Trimmed) :
    m.dataWords ((block shape n nd np data child).handle seg slot pos) = nd := by
  have least (x : Nat) := Message.dataWords_le_iff (m := m) (x := x)
    (p := (block shape n nd np data child).handle seg slot pos)
  refine le_antisymm ((least nd).mpr fun i j past => ?_) ?_
  · rw [stored.datum]
    exact stored.proper.2.1 i j (.inr past)
  · by_contra narrower
    by_cases pointers : shape = .pointers
    · subst pointers
      have none := stored.proper.1.2.1
      omega
    · obtain ⟨i, -, nonzero⟩ := (trimmed.1 pointers).1 (by omega)
      have zero := (least (nd - 1)).mp (by omega) i (nd - 1) le_rfl
      rw [stored.datum] at zero
      exact nonzero zero

theorem Stored.nil_iff (stored : Stored m seg (block shape n nd np data child) slot pos)
    (limit : m.depthLimit ≠ 0) (hi : i < n) (hk : k < np) :
    m.Nil ((block shape n nd np data child).handle seg slot pos) i k ↔ child i k = null := by
  have there := stored.link limit hi hk
  rw [Message.Nil, there]
  constructor
  · rintro ⟨q, cost, same, empty⟩
    cases same
    exact handle_kind_null.mp empty
  · exact fun empty => ⟨_, _, rfl, handle_kind_null.mpr empty⟩

theorem Stored.linkWords (stored : Stored m seg (block shape n nd np data child) slot pos)
    (limit : m.depthLimit ≠ 0) (trimmed : (block shape n nd np data child).Trimmed) :
    m.linkWords ((block shape n nd np data child).handle seg slot pos) = np := by
  by_cases pointers : shape = .pointers
  · subst pointers
    exact stored.proper.1.2.2.symm
  have other : ((block shape n nd np data child).handle seg slot pos).form ≠ .block .pointers := by
    rw [handle_form_block]
    exact fun same => pointers (Form.block.inj same)
  have least (x : Nat) := Message.linkWords_le_iff (m := m) (x := x) other
  rw [stored.rows] at least
  refine le_antisymm ((least np).mpr fun i hi k past => ?_) ?_
  · exact ⟨_, _, stored.link_past pointers hi past, rfl⟩
  · by_contra narrower
    obtain ⟨i, hi, notNull⟩ := (trimmed.1 pointers).2 (by omega)
    have empty := (least (np - 1)).mp (by omega) i hi (np - 1) le_rfl
    exact notNull ((stored.nil_iff limit hi (by omega)).mp empty)

/-- Looking for the last pointer of a row costs what it costs in the tree. -/
theorem usedPrice_eq {p : Ptr} {row : Nat → Tree} {slots places : Nat → Nat}
    (named : ∀ k < np, m.fieldTarget p k =
      some ((row k).handle seg (slots k) (places k), (row k).own + 1)) :
    m.usedPrice p np = lastPrice row np := by
  induction np with
  | zero => rfl
  | succ np ih =>
      rw [Message.usedPrice, lastPrice, named np (Nat.lt_succ_self np)]
      dsimp only
      rw [ih fun k hk => named k (Nat.lt_succ_of_lt hk)]
      congr 1
      exact if_congr (handle_kind_null.trans isNull_iff.symm) rfl rfl

theorem Stored.rowPrice (stored : Stored m seg (block shape n nd np data child) slot pos)
    (limit : m.depthLimit ≠ 0) (hi : i < n) :
    m.rowPrice ((block shape n nd np data child).handle seg slot pos) i =
      if shape = .pointers then 0 else lastPrice (child i) np := by
  have links := fun k (hk : k < np) => stored.link limit hi hk
  unfold Message.link at links
  unfold Message.rowPrice
  rw [handle_form_block] at links ⊢
  cases shape with
  | struct =>
      obtain rfl : i = 0 := by
        have one := stored.proper.1.1
        omega
      rw [if_neg (by decide)]
      exact usedPrice_eq fun k hk => (if_pos rfl).symm.trans (links k hk)
  | pointers => rw [if_pos rfl]
  | composite =>
      rw [if_neg (by decide)]
      exact usedPrice_eq fun k hk => (if_pos hi).symm.trans (links k hk)

end

/-- A stored tree is read back in full, at the price of its reading. -/
theorem Stored.reads (stored : Stored m seg t slot pos) (limit : m.depthLimit ≠ 0)
    (trimmed : t.Trimmed) {room : Nat} (within : t.Within room) :
    m.Readable room (t.handle seg slot pos) ∧ m.tree room (t.handle seg slot pos) = t ∧
      m.walkCost room (t.handle seg slot pos) = t.reading := by
  induction room generalizing t slot pos with
  | zero => exact within.elim
  | succ room ih =>
      cases t with
      | null =>
          refine ⟨⟨by rintro ⟨⟩, fun i none => absurd none (Nat.not_lt_zero i)⟩, Message.tree_null rfl, ?_⟩
          rw [Message.walkCost]
          rfl
      | packed esize count byte =>
          have form := handle_form_packed stored.proper seg slot pos
          have rows : ((packed esize count byte).handle seg slot pos).rows = 0 := by
            rw [Ptr.rows, form]
          refine ⟨⟨by rw [form]; decide, fun i none => ?_⟩, ?_, ?_⟩
          · rw [rows] at none
            exact absurd none (Nat.not_lt_zero i)
          · rw [Message.tree_packed form]
            change packed esize count _ = packed esize count byte
            congr 1
            funext b
            split
            · next inside => exact stored.byte inside
            · next past => exact (stored.proper.2.2.2 b (not_lt.mp past)).symm
          · rw [Message.walkCost, rows]
            rfl
      | block shape n nd np data child =>
          have below (i : Nat) (hi : i < n) (k : Nat) (hk : k < np) :=
            ih (stored.behind hi hk) (trimmed.2 i hi k hk) (within i hi k hk)
          have links (i : Nat) (hi : i < n) (k : Nat) (hk : k < np) := stored.link limit hi hk
          have rows := stored.rows
          have dataWords := stored.dataWords trimmed
          have linkWords := stored.linkWords limit trimmed
          refine ⟨⟨?_, fun i hi k hk => ?_⟩, ?_, ?_⟩
          · rw [handle_form_block]
            rintro ⟨⟩
          · rw [rows] at hi
            rw [linkWords] at hk
            exact ⟨_, _, links i hi k hk, (below i hi k hk).1⟩
          · rw [Message.tree_block handle_form_block, rows, dataWords, linkWords]
            congr 1
            · funext i j
              exact stored.datum i j
            · funext i k
              by_cases inside : i < n ∧ k < np
              · rw [Message.subtree_of_link (links i inside.1 k inside.2)]
                exact (below i inside.1 k inside.2).2.1
              · rw [stored.proper.2.2.1 i k (by omega)]
                by_cases hi : i < n
                · exact Message.subtree_past (by rw [linkWords]; omega)
                · exact Message.subtree_of_none (Message.link_past (by rw [rows]; omega) k)
          · rw [Message.walkCost, rows, linkWords, reading]
            congr 1
            · exact sum_congr rfl fun i member => stored.rowPrice limit (mem_range.mp member)
            · refine sum_congr rfl fun i row => sum_congr rfl fun k column => ?_
              rw [links i (mem_range.mp row) k (mem_range.mp column), Option.elim_some,
                (below i (mem_range.mp row) k (mem_range.mp column)).2.2]

end Tree

end CapnpJanet
