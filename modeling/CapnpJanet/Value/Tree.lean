import CapnpJanet.Memory.LittleEndian
import CapnpJanet.Wire.Pointer
import Mathlib.Algebra.BigOperators.Group.Finset.Basic
import Mathlib.Algebra.Order.BigOperators.Group.Finset

/-!
# Object trees and their layout

What a pointer stands for, without the words that encode it: nothing, a packed
list, or a block of rows.  A struct is a block of one row, a composite list has a
row for each element, and the rows of a pointer list are single pointers.

A tree is laid out in preorder: the words of a block, then the objects its
pointers lead to, one after the other.  `Laid` says that a memory holds a tree
in this order without a gap, and that each pointer is near and names its own
object.
-/

namespace CapnpJanet

open ByteMemory Finset

/-- The three kinds of blocks. -/
inductive Shape
  | struct | pointers | composite
deriving DecidableEq, Repr

/-- An object tree.  The data words and pointers of a block are given by row and
column, and mean nothing outside of the block. -/
inductive Tree
  | null
  | packed (esize : ElemSize) (count : Nat) (byte : Nat → UInt8)
  | block (shape : Shape) (n nd np : Nat) (data : Nat → Nat → Nat) (child : Nat → Nat → Tree)

/-- Bytes of a packed body. -/
def packedBytes (esize : ElemSize) (count : Nat) : Nat := (count * esize.bits + 7) / 8

/-- Words of a packed body. -/
def packedWords (esize : ElemSize) (count : Nat) : Nat := (packedBytes esize count + 7) / 8

namespace Shape

/-- The words in front of the rows: the tag of a composite list. -/
def header : Shape → Nat
  | composite => 1
  | _ => 0

/-- The pointer word for a block at an offset.  A struct without sections is
behind its own slot, and a list without pointers has offset 0. -/
def pointer (shape : Shape) (n nd np : Nat) (off : Int) : Nat :=
  match shape with
  | struct => if nd = 0 ∧ np = 0 then wpMakeStruct (-1) 0 0 else wpMakeStruct off nd np
  | pointers => wpMakeList (if n = 0 then 0 else off) .ptr n
  | composite => wpMakeList off .composite (n * (nd + np))

end Shape

namespace Tree

/-- Words of the objects of a tree. -/
def size : Tree → Nat
  | null => 0
  | packed esize count _ => packedWords esize count
  | block shape n nd np _ child =>
      shape.header + n * (nd + np) + ∑ i ∈ range n, ∑ k ∈ range np, (child i k).size

/-- Words of the objects in front of those of pointer `k` of row `i`. -/
def before (child : Nat → Nat → Tree) (np i k : Nat) : Nat :=
  ∑ i' ∈ range i, ∑ k' ∈ range np, (child i' k').size + ∑ k' ∈ range k, (child i k').size

/-- The position of pointer `k` of row `i` of a block at `pos`. -/
def slotOf (shape : Shape) (nd np pos i k : Nat) : Nat :=
  pos + shape.header + i * (nd + np) + nd + k

/-- The position of the objects behind pointer `k` of row `i` of a block at
`pos`. -/
def placeOf (shape : Shape) (n nd np : Nat) (child : Nat → Nat → Tree) (pos i k : Nat) : Nat :=
  pos + shape.header + n * (nd + np) + before child np i k

/-- The memory holds the objects of a tree from `pos` on, and `w` is the pointer
word for them in a slot. -/
def Laid (mem : Memory) : Tree → (w slot pos : Nat) → Prop
  | null, w, _, _ => w = 0
  | packed esize count byte, w, slot, pos =>
      w = wpMakeList (if packedWords esize count = 0 then 0 else (pos : Int) - slot - 1)
        esize count ∧
      ∀ b < 8 * packedWords esize count, mem (8 * pos + b) = byte b
  | block shape n nd np data child, w, slot, pos =>
      w = shape.pointer n nd np ((pos : Int) - slot - 1) ∧
      (shape = .composite → word mem pos = wpMakeStruct n nd np) ∧
      ∀ i < n,
        (∀ j < nd, word mem (pos + shape.header + i * (nd + np) + j) = data i j) ∧
        ∀ k < np, Laid mem (child i k) (word mem (slotOf shape nd np pos i k))
          (slotOf shape nd np pos i k) (placeOf shape n nd np child pos i k)

/-! ## Positions -/

section
variable {shape : Shape} {n nd np i k pos : Nat} {child : Nat → Nat → Tree}

theorem before_next (child : Nat → Nat → Tree) (np i k : Nat) :
    before child np i (k + 1) = before child np i k + (child i k).size := by
  rw [before, before, sum_range_succ]
  omega

theorem before_row (child : Nat → Nat → Tree) (np i : Nat) :
    before child np (i + 1) 0 = before child np i np := by
  rw [before, before, sum_range_succ, sum_range_zero, Nat.add_zero]

theorem before_total (child : Nat → Nat → Tree) (n np : Nat) :
    before child np n 0 = ∑ i ∈ range n, ∑ k ∈ range np, (child i k).size := by
  rw [before, sum_range_zero, Nat.add_zero]

theorem before_le_row (hk : k ≤ np) : before child np i k ≤ before child np i np := by
  unfold before
  have fewer := sum_le_sum_of_subset (f := fun k' => (child i k').size)
    (range_subset_range.mpr hk)
  omega

theorem before_mono {i' : Nat} (hi : i ≤ i') : before child np i 0 ≤ before child np i' 0 := by
  rw [before_total, before_total]
  exact sum_le_sum_of_subset (range_subset_range.mpr hi)

theorem before_congr {child' : Nat → Nat → Tree}
    (same : ∀ i k, (child i k).size = (child' i k).size) (np i k : Nat) :
    before child np i k = before child' np i k := by
  unfold before
  simp only [same]

/-- The objects of one pointer lie inside those of the block. -/
theorem before_add_le (child : Nat → Nat → Tree) (hi : i < n) (hk : k < np) :
    before child np i k + (child i k).size ≤ before child np n 0 := by
  calc before child np i k + (child i k).size = before child np i (k + 1) :=
        (before_next child np i k).symm
    _ ≤ before child np i np := before_le_row hk
    _ = before child np (i + 1) 0 := (before_row child np i).symm
    _ ≤ before child np n 0 := before_mono hi

theorem size_block (shape : Shape) (n nd np : Nat) (data : Nat → Nat → Nat)
    (child : Nat → Nat → Tree) : (block shape n nd np data child).size =
      shape.header + n * (nd + np) + before child np n 0 := by
  rw [size, before_total]

/-- A row lies inside its block. -/
theorem row_le (hi : i < n) (width : Nat) : i * width + width ≤ n * width := by
  calc i * width + width = (i + 1) * width := (Nat.succ_mul i width).symm
    _ ≤ n * width := Nat.mul_le_mul_right width hi

theorem slotOf_lt (shape : Shape) (nd pos : Nat) (hi : i < n) (hk : k < np) :
    slotOf shape nd np pos i k < pos + shape.header + n * (nd + np) := by
  have inside := row_le hi (nd + np)
  unfold slotOf
  omega

theorem slotOf_lt_placeOf (hi : i < n) (hk : k < np) :
    slotOf shape nd np pos i k < placeOf shape n nd np child pos i k := by
  have inside := slotOf_lt shape nd pos hi hk
  unfold placeOf
  omega

theorem placeOf_add_le (shape : Shape) (nd pos : Nat) (data : Nat → Nat → Nat)
    (child : Nat → Nat → Tree) (hi : i < n) (hk : k < np) :
    placeOf shape n nd np child pos i k + (child i k).size ≤
      pos + (block shape n nd np data child).size := by
  have inside := before_add_le child hi hk
  rw [size_block]
  unfold placeOf
  omega

/-- A word of a block itself is its tag, a data word or a slot. -/
theorem block_word_cases {x : Nat} (low : pos ≤ x)
    (high : x < pos + shape.header + n * (nd + np)) :
    (shape = .composite ∧ x = pos) ∨
      (∃ i < n, ∃ j < nd, x = pos + shape.header + i * (nd + np) + j) ∨
      ∃ i < n, ∃ k < np, x = slotOf shape nd np pos i k := by
  by_cases isTag : x < pos + shape.header
  · cases shape with
    | composite => exact .inl ⟨rfl, by rw [Shape.header] at isTag; omega⟩
    | struct => exact absurd low (not_le.mpr isTag)
    | pointers => exact absurd low (not_le.mpr isTag)
  · obtain ⟨y, rfl⟩ := Nat.exists_eq_add_of_le (not_lt.mp isTag)
    have inside : y < n * (nd + np) := by omega
    have wide : 0 < nd + np := Nat.pos_of_ne_zero fun none => by
      rw [none, Nat.mul_zero] at inside
      exact absurd inside (Nat.not_lt_zero y)
    have hi : y / (nd + np) < n := Nat.div_lt_of_lt_mul (by rwa [Nat.mul_comm])
    have hj : y % (nd + np) < nd + np := Nat.mod_lt y wide
    have parts := Nat.div_add_mod' y (nd + np)
    by_cases isData : y % (nd + np) < nd
    · exact .inr (.inl ⟨_, hi, _, isData, by omega⟩)
    · refine .inr (.inr ⟨_, hi, y % (nd + np) - nd, by omega, ?_⟩)
      unfold slotOf
      omega

/-- Every object word of a block belongs to one of its pointers. -/
theorem exists_before {x : Nat} (child : Nat → Nat → Tree) (n np : Nat)
    (inside : x < before child np n 0) :
    ∃ i < n, ∃ k < np, before child np i k ≤ x ∧ x < before child np i k + (child i k).size := by
  induction n with
  | zero =>
      rw [before_total, sum_range_zero] at inside
      exact absurd inside (Nat.not_lt_zero x)
  | succ n ih =>
      by_cases earlier : x < before child np n 0
      · obtain ⟨i, hi, found⟩ := ih earlier
        exact ⟨i, Nat.lt_succ_of_lt hi, found⟩
      rw [before_row] at inside
      have row : ∀ m, m ≤ np → x < before child np n m →
          ∃ k < np, before child np n k ≤ x ∧ x < before child np n k + (child n k).size := by
        intro m
        induction m with
        | zero => exact fun _ below => absurd below earlier
        | succ m ihm =>
            intro hm below
            by_cases before_m : x < before child np n m
            · exact ihm (Nat.le_of_succ_le hm) before_m
            · rw [before_next] at below
              exact ⟨m, hm, not_lt.mp before_m, below⟩
      exact ⟨n, Nat.lt_succ_self n, row np le_rfl inside⟩

end

/-! ## Layout -/

/-- A layout depends on the bytes of its objects only. -/
theorem Laid.congr {mem mem' : Memory} {t : Tree} {w slot pos : Nat}
    (laid : Laid mem t w slot pos)
    (same : ∀ a, 8 * pos ≤ a → a < 8 * (pos + t.size) → mem' a = mem a) :
    Laid mem' t w slot pos := by
  induction t generalizing w slot pos with
  | null => exact laid
  | packed esize count byte =>
      obtain ⟨pointer, body⟩ := laid
      refine ⟨pointer, fun b hb => ?_⟩
      rw [same _ (Nat.le_add_right _ _) (by rw [size]; omega)]
      exact body b hb
  | block shape n nd np data child ih =>
      rw [size_block] at same
      have words {i : Nat} (low : pos ≤ i) (high : i < pos + shape.header + n * (nd + np)) :
          word mem' i = word mem i :=
        word_congr fun b hb => same _ (by omega) (by omega)
      obtain ⟨pointer, tag, rows⟩ := laid
      refine ⟨pointer, fun composite => ?_, fun i hi => ⟨fun j hj => ?_, fun k hk => ?_⟩⟩
      · rw [words le_rfl (by subst composite; exact Nat.lt_add_right _ (Nat.lt_succ_self pos))]
        exact tag composite
      · have inside := row_le hi (nd + np)
        rw [words (by omega) (by omega)]
        exact (rows i hi).1 j hj
      · have atSlot := slotOf_lt shape nd pos hi hk
        rw [words (by unfold slotOf; omega) atSlot]
        have inside := placeOf_add_le shape nd pos data child hi hk
        rw [size_block] at inside
        refine ih i k ((rows i hi).2 k hk) fun a low high => same a ?_ (by omega)
        unfold placeOf at low
        omega

/-- A layout determines every byte of its objects, and the pointer word. -/
theorem Laid.unique {mem mem' : Memory} {t : Tree} {w w' slot pos : Nat}
    (laid : Laid mem t w slot pos) (laid' : Laid mem' t w' slot pos) :
    w = w' ∧ ∀ a, 8 * pos ≤ a → a < 8 * (pos + t.size) → mem a = mem' a := by
  induction t generalizing w w' slot pos with
  | null =>
      refine ⟨laid.trans laid'.symm, fun a low high => ?_⟩
      rw [size] at high
      omega
  | packed esize count byte =>
      obtain ⟨pointer, body⟩ := laid
      obtain ⟨pointer', body'⟩ := laid'
      refine ⟨pointer.trans pointer'.symm, fun a low high => ?_⟩
      rw [size] at high
      obtain ⟨b, rfl⟩ := Nat.exists_eq_add_of_le low
      rw [body b (by omega), body' b (by omega)]
  | block shape n nd np data child ih =>
      obtain ⟨pointer, tag, rows⟩ := laid
      obtain ⟨pointer', tag', rows'⟩ := laid'
      refine ⟨pointer.trans pointer'.symm, fun a low high => ?_⟩
      rw [size_block] at high
      by_cases own : a < 8 * (pos + shape.header + n * (nd + np))
      · -- The byte belongs to a word of the block itself.
        apply byte_eq_of_word_eq
        have high' : a / 8 < pos + shape.header + n * (nd + np) := by omega
        rcases block_word_cases (by omega) high' with
          ⟨composite, here⟩ | ⟨i, hi, j, hj, here⟩ | ⟨i, hi, k, hk, here⟩
        · rw [here, tag composite, tag' composite]
        · rw [here, (rows i hi).1 j hj, (rows' i hi).1 j hj]
        · rw [here]
          exact (ih i k ((rows i hi).2 k hk) ((rows' i hi).2 k hk)).1
      · obtain ⟨x, hx⟩ : ∃ x, a / 8 = pos + shape.header + n * (nd + np) + x :=
          Nat.exists_eq_add_of_le (by omega)
        obtain ⟨i, hi, k, hk, low', high'⟩ := exists_before child n np
          (show x < before child np n 0 by omega)
        have below := ih i k ((rows i hi).2 k hk) ((rows' i hi).2 k hk)
        exact below.2 a (by unfold placeOf; omega) (by unfold placeOf; omega)

/-! ## Rows -/

/-- The memory holds one row from `start` on, and the objects behind it from
`pos` on. -/
def RowLaid (mem : Memory) (start nd np : Nat) (data : Nat → Nat) (child : Nat → Tree)
    (pos : Nat) : Prop :=
  (∀ j < nd, word mem (start + j) = data j) ∧
    ∀ k < np, Laid mem (child k) (word mem (start + nd + k)) (start + nd + k)
      (pos + ∑ k' ∈ range k, (child k').size)

/-- A block is laid out row by row. -/
theorem laid_block_iff {mem : Memory} {shape : Shape} {n nd np w slot pos : Nat}
    {data : Nat → Nat → Nat} {child : Nat → Nat → Tree} :
    Laid mem (block shape n nd np data child) w slot pos ↔
      w = shape.pointer n nd np ((pos : Int) - slot - 1) ∧
        (shape = .composite → word mem pos = wpMakeStruct n nd np) ∧
        ∀ i < n, RowLaid mem (pos + shape.header + i * (nd + np)) nd np (data i) (child i)
          (placeOf shape n nd np child pos i 0) := by
  have place (i k : Nat) : placeOf shape n nd np child pos i k =
      placeOf shape n nd np child pos i 0 + ∑ k' ∈ range k, (child i k').size := by
    rw [placeOf, placeOf, before, before, sum_range_zero]
    omega
  rw [Laid]
  refine and_congr_right fun _ => and_congr_right fun _ => forall₂_congr fun i _ => ?_
  refine and_congr_right fun _ => forall₂_congr fun k _ => ?_
  rw [place i k]
  rfl

/-- A row depends on its own bytes and those of the objects behind it. -/
theorem RowLaid.congr {mem mem' : Memory} {start nd np pos : Nat} {data : Nat → Nat}
    {child : Nat → Tree} (laid : RowLaid mem start nd np data child pos)
    (own : ∀ a, 8 * start ≤ a → a < 8 * (start + nd + np) → mem' a = mem a)
    (behind : ∀ a, 8 * pos ≤ a → a < 8 * (pos + ∑ k ∈ range np, (child k).size) →
      mem' a = mem a) : RowLaid mem' start nd np data child pos := by
  have words {x : Nat} (low : start ≤ x) (high : x < start + nd + np) :
      word mem' x = word mem x :=
    word_congr fun b hb => own _ (by omega) (by omega)
  refine ⟨fun j hj => ?_, fun k hk => ?_⟩
  · rw [words (by omega) (by omega)]
    exact laid.1 j hj
  · rw [words (by omega) (by omega)]
    refine (laid.2 k hk).congr fun a low high => behind a (by omega) ?_
    have fewer := sum_le_sum_of_subset (f := fun k' => (child k').size)
      (range_subset_range.mpr (Nat.succ_le_of_lt hk))
    rw [sum_range_succ] at fewer
    omega

end Tree

end CapnpJanet
