import CapnpJanet.Wire.Kinds
import Mathlib.Tactic.NormNum

/-!
# Pointer words

Encoding and decoding of 64-bit pointer words, from `capnp_pointer.h`.  A word
is a natural number below `2 ^ 64`; shifts and masks are division and
remainder, and the fields that the C code joins with `|` occupy disjoint bits,
so they are added.
-/

namespace CapnpJanet

/-- `capnp_wp_kind` -/
def wpKind (w : Nat) : WireKind :=
  match w % 4 with
  | 0 => .struct
  | 1 => .list
  | 2 => .far
  | _ => .cap

/-- `capnp_wp_offset`: the signed 30-bit word offset of a struct or list
pointer. -/
def wpOffset (w : Nat) : Int :=
  let u : Nat := w / 4 % 2 ^ 30
  if u ≥ 2 ^ 29 then (u : Int) - 2 ^ 30 else u

/-- `capnp_wp_struct_dwords` -/
def wpStructDwords (w : Nat) : Nat := w / 2 ^ 32 % 2 ^ 16

/-- `capnp_wp_struct_pwords` -/
def wpStructPwords (w : Nat) : Nat := w / 2 ^ 48 % 2 ^ 16

/-- `capnp_wp_list_esize` -/
def wpListEsize (w : Nat) : ElemSize := ElemSize.ofCode (w / 2 ^ 32 % 8)

/-- `capnp_wp_list_count` -/
def wpListCount (w : Nat) : Nat := w / 2 ^ 35 % 2 ^ 29

/-- `capnp_wp_far_two` -/
def wpFarTwo (w : Nat) : Bool := w / 4 % 2 == 1

/-- `capnp_wp_far_off` -/
def wpFarOff (w : Nat) : Nat := w / 8 % 2 ^ 29

/-- `capnp_wp_far_seg` -/
def wpFarSeg (w : Nat) : Nat := w / 2 ^ 32 % 2 ^ 32

/-- `(uint32_t)off & 0x3fffffff`: the offset field of a struct or list
pointer. -/
def offsetField (off : Int) : Nat := (off % 2 ^ 30).toNat

/-- `capnp_wp_make_struct` -/
def wpMakeStruct (off : Int) (dwords pwords : Nat) : Nat :=
  offsetField off * 4 + dwords % 2 ^ 16 * 2 ^ 32 + pwords % 2 ^ 16 * 2 ^ 48

/-- `capnp_wp_make_list` -/
def wpMakeList (off : Int) (esize : ElemSize) (count : Nat) : Nat :=
  1 + offsetField off * 4 + esize.code * 2 ^ 32 + count % 2 ^ 29 * 2 ^ 35

/-- `capnp_wp_make_cap` -/
def wpMakeCap (capIndex : Nat) : Nat := 3 + capIndex % 2 ^ 32 * 2 ^ 32

/-- `capnp_wp_make_far` -/
def wpMakeFar (twoWordPad : Bool) (wordOff segId : Nat) : Nat :=
  2 + (if twoWordPad then 4 else 0) + wordOff % 2 ^ 29 * 8 + segId % 2 ^ 32 * 2 ^ 32

/-- Offsets that the 30-bit field holds without loss. -/
def OffsetFits (off : Int) : Prop := -2 ^ 29 ≤ off ∧ off < 2 ^ 29

theorem offsetField_lt (off : Int) : offsetField off < 2 ^ 30 := by
  unfold offsetField
  omega

/-! ## Struct pointers -/

section Struct

variable (off : Int) (dwords pwords : Nat)

theorem wpMakeStruct_lt : wpMakeStruct off dwords pwords < 2 ^ 64 := by
  have := offsetField_lt off
  unfold wpMakeStruct
  omega

@[simp]
theorem wpKind_makeStruct : wpKind (wpMakeStruct off dwords pwords) = .struct := by
  have : wpMakeStruct off dwords pwords % 4 = 0 := by
    unfold wpMakeStruct
    omega
  simp [wpKind, this]

theorem offsetField_makeStruct :
    wpMakeStruct off dwords pwords / 4 % 2 ^ 30 = offsetField off := by
  have := offsetField_lt off
  unfold wpMakeStruct
  omega

@[simp]
theorem wpStructDwords_makeStruct :
    wpStructDwords (wpMakeStruct off dwords pwords) = dwords % 2 ^ 16 := by
  have := offsetField_lt off
  unfold wpStructDwords wpMakeStruct
  omega

@[simp]
theorem wpStructPwords_makeStruct :
    wpStructPwords (wpMakeStruct off dwords pwords) = pwords % 2 ^ 16 := by
  have := offsetField_lt off
  unfold wpStructPwords wpMakeStruct
  omega

end Struct

/-! ## List pointers -/

section List

variable (off : Int) (esize : ElemSize) (count : Nat)

theorem wpMakeList_lt : wpMakeList off esize count < 2 ^ 64 := by
  have := offsetField_lt off
  have := esize.code_lt
  unfold wpMakeList
  omega

@[simp]
theorem wpKind_makeList : wpKind (wpMakeList off esize count) = .list := by
  have : wpMakeList off esize count % 4 = 1 := by
    unfold wpMakeList
    omega
  simp [wpKind, this]

theorem offsetField_makeList :
    wpMakeList off esize count / 4 % 2 ^ 30 = offsetField off := by
  have := offsetField_lt off
  have := esize.code_lt
  unfold wpMakeList
  omega

@[simp]
theorem wpListEsize_makeList : wpListEsize (wpMakeList off esize count) = esize := by
  have := offsetField_lt off
  have codeLt := esize.code_lt
  have field : wpMakeList off esize count / 2 ^ 32 % 8 = esize.code := by
    unfold wpMakeList
    omega
  rw [wpListEsize, field, ElemSize.ofCode_code]

@[simp]
theorem wpListCount_makeList : wpListCount (wpMakeList off esize count) = count % 2 ^ 29 := by
  have := offsetField_lt off
  have := esize.code_lt
  unfold wpListCount wpMakeList
  omega

end List

/-- The sign extension recovers every offset that fits its field. -/
theorem wpOffset_of_field {w : Nat} {off : Int} (field : w / 4 % 2 ^ 30 = offsetField off)
    (fits : OffsetFits off) : wpOffset w = off := by
  unfold OffsetFits at fits
  unfold offsetField at field
  unfold wpOffset
  rw [field]
  dsimp only
  split <;> omega

theorem wpOffset_makeStruct {off : Int} (dwords pwords : Nat) (fits : OffsetFits off) :
    wpOffset (wpMakeStruct off dwords pwords) = off :=
  wpOffset_of_field (offsetField_makeStruct off dwords pwords) fits

theorem wpOffset_makeList {off : Int} (esize : ElemSize) (count : Nat) (fits : OffsetFits off) :
    wpOffset (wpMakeList off esize count) = off :=
  wpOffset_of_field (offsetField_makeList off esize count) fits

/-! ## Far and capability pointers -/

section Far

variable (two : Bool) (wordOff segId : Nat)

theorem wpMakeFar_lt : wpMakeFar two wordOff segId < 2 ^ 64 := by
  unfold wpMakeFar
  split <;> omega

@[simp]
theorem wpKind_makeFar : wpKind (wpMakeFar two wordOff segId) = .far := by
  have : wpMakeFar two wordOff segId % 4 = 2 := by
    unfold wpMakeFar
    split <;> omega
  simp [wpKind, this]

@[simp]
theorem wpFarTwo_makeFar : wpFarTwo (wpMakeFar two wordOff segId) = two := by
  cases two
  · have : wpMakeFar false wordOff segId / 4 % 2 = 0 := by
      simp only [wpMakeFar, Bool.false_eq_true, if_false]
      omega
    simp [wpFarTwo, this]
  · have : wpMakeFar true wordOff segId / 4 % 2 = 1 := by
      simp only [wpMakeFar, if_true]
      omega
    simp [wpFarTwo, this]

@[simp]
theorem wpFarOff_makeFar : wpFarOff (wpMakeFar two wordOff segId) = wordOff % 2 ^ 29 := by
  unfold wpFarOff wpMakeFar
  split <;> omega

@[simp]
theorem wpFarSeg_makeFar : wpFarSeg (wpMakeFar two wordOff segId) = segId % 2 ^ 32 := by
  unfold wpFarSeg wpMakeFar
  split <;> omega

end Far

theorem wpMakeCap_lt (capIndex : Nat) : wpMakeCap capIndex < 2 ^ 64 := by
  unfold wpMakeCap
  omega

@[simp]
theorem wpKind_makeCap (capIndex : Nat) : wpKind (wpMakeCap capIndex) = .cap := by
  have : wpMakeCap capIndex % 4 = 3 := by
    unfold wpMakeCap
    omega
  simp [wpKind, this]

/-- The capability index is the upper half of the word. -/
theorem makeCap_index (capIndex : Nat) :
    wpMakeCap capIndex / 2 ^ 32 % 2 ^ 32 = capIndex % 2 ^ 32 := by
  unfold wpMakeCap
  omega

end CapnpJanet
