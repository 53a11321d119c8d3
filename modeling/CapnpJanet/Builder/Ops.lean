import CapnpJanet.Builder.Core

/-!
# The builder API

Structs, scalars, pointers, text, data and lists, and stream serialization,
from `capnp_builder.c`.  An array argument is a function from the index to the
element; a `NULL` array, which the code leaves zeroed, is the zero function.
-/

namespace CapnpJanet

open ByteMemory

namespace Builder

/-- `capnp_builder_root` -/
def root : BuildM BPtr := fun b =>
  if b.nsegs = 0 ∨ (b.seg 0).words ≠ 0 then .error .arg b
  else
    match allocWords 1 b with
    | .error _ b => .error .alloc b
    | .ok (seg, w) b => if seg ≠ 0 ∨ w ≠ 0 then .error .alloc b else .ok ⟨0, 0⟩ b

/-- `capnp_builder_struct`: allocate a struct for a pointer slot.  A struct
without sections is a pointer with offset -1, and its body handle is the slot
itself. -/
def struct (ptr : BPtr) (dwords pwords : Nat) : BuildM BPtr := fun b =>
  if dwords + pwords = 0 then .ok ptr (b.storeW ptr.seg ptr.word (wpMakeStruct (-1) 0 0))
  else
    match allocWords (dwords + pwords) b with
    | .error _ b => .error .alloc b
    | .ok (bodySeg, bodyWord) b =>
        match writeStructPtr ptr.seg ptr.word bodySeg bodyWord dwords pwords b with
        | .error rc b => .error rc b
        | .ok _ b => .ok ⟨bodySeg, bodyWord⟩ b

/-- `body_ok` -/
def bodyOk (b : Builder) (body : BPtr) (absEnd : Nat) : Bool :=
  body.seg < b.nsegs ∧ absEnd ≤ (b.seg body.seg).words * 8

/-- The common body of the scalar setters: `width` bytes at `byteOffset`. -/
def setScalar (width : Nat) (body : BPtr) (byteOffset value : Nat) : BuildM Unit := fun b =>
  let abs := body.word * 8 + byteOffset
  if ¬b.bodyOk body (abs + width) then .error .bounds b
  else .ok () (b.setData body.seg (storeLe width (b.seg body.seg).data abs value))

/-- `capnp_builder_set_u8` -/
def setU8 (body : BPtr) (byteOffset value : Nat) : BuildM Unit := setScalar 1 body byteOffset value

/-- `capnp_builder_set_u16` -/
def setU16 (body : BPtr) (byteOffset value : Nat) : BuildM Unit := setScalar 2 body byteOffset value

/-- `capnp_builder_set_u32` -/
def setU32 (body : BPtr) (byteOffset value : Nat) : BuildM Unit := setScalar 4 body byteOffset value

/-- `capnp_builder_set_u64` -/
def setU64 (body : BPtr) (byteOffset value : Nat) : BuildM Unit := setScalar 8 body byteOffset value

/-- `capnp_builder_set_f32`, by its bits -/
def setF32 (body : BPtr) (byteOffset bits : Nat) : BuildM Unit := setU32 body byteOffset bits

/-- `capnp_builder_set_f64`, by its bits -/
def setF64 (body : BPtr) (byteOffset bits : Nat) : BuildM Unit := setU64 body byteOffset bits

/-- A byte with bit `k` set or cleared. -/
def withBit (byte : UInt8) (k : Nat) (value : Bool) : UInt8 :=
  if value then byte ||| (1 <<< UInt8.ofNat k) else byte &&& ~~~(1 <<< UInt8.ofNat k)

/-- `capnp_builder_set_bool` -/
def setBool (body : BPtr) (bitOffset : Nat) (value : Bool) : BuildM Unit := fun b =>
  let abs := body.word * 8 + bitOffset / 8
  if ¬b.bodyOk body (abs + 1) then .error .bounds b
  else
    let data := (b.seg body.seg).data
    .ok () (b.setData body.seg (blit 1 data abs fun _ => withBit (data abs) (bitOffset % 8) value))

/-- `capnp_builder_slot` -/
def slot (body : BPtr) (dwords ptrIndex : Nat) : BuildM BPtr := fun b =>
  let pw := body.word + dwords + ptrIndex
  if pw ≥ (b.seg body.seg).words then .error .bounds b else .ok ⟨body.seg, pw⟩ b

/-- `capnp_builder_clear_ptr` -/
def clearPtr (body : BPtr) (dwords ptrIndex : Nat) : BuildM Unit := fun b =>
  match slot body dwords ptrIndex b with
  | .error rc b => .error rc b
  | .ok at' b => .ok () (b.storeW at'.seg at'.word 0)

/-- `capnp_builder_set_cap` -/
def setCap (body : BPtr) (dwords ptrIndex capIndex : Nat) : BuildM Unit := fun b =>
  match slot body dwords ptrIndex b with
  | .error rc b => .error rc b
  | .ok at' b => .ok () (b.storeW at'.seg at'.word (wpMakeCap capIndex))

/-- Words that hold `nbytes` bytes. -/
def wordsFor (nbytes : Nat) : Nat := (nbytes + 7) / 8

/-- The end of every list setter that is not composite: allocate a body of
`nbytes` bytes, fill it, and write the list pointer.  A list without a body
points just behind its slot. -/
def writeListBody (slotSeg slotWord : Nat) (esize : ElemSize) (count nbytes : Nat)
    (fill : Memory → Nat → Memory) : BuildM Unit := fun b =>
  if wordsFor nbytes ≠ 0 then
    match allocWords (wordsFor nbytes) b with
    | .error _ b => .error .alloc b
    | .ok (startSeg, startWord) b =>
        let cleared := blit (wordsFor nbytes * 8) (b.seg startSeg).data (startWord * 8) (fun _ => 0)
        writeListPtr slotSeg slotWord startSeg startWord esize count
          (b.setData startSeg (fill cleared (startWord * 8)))
  else writeListPtr slotSeg slotWord slotSeg (slotWord + 1) esize count b

/-- `memcpy` of a byte string into a list body. -/
def fillBytes (bytes : List UInt8) (mem : Memory) (p : Nat) : Memory :=
  blit bytes.length mem p (ofList bytes)

/-- `write_text_at`: the bytes of the text and a NUL. -/
def writeTextAt (slotSeg slotWord : Nat) (text : List UInt8) : BuildM Unit :=
  writeListBody slotSeg slotWord .byte (text.length + 1) (text.length + 1) (fillBytes text)

/-- The check of the pointer slot that the pointer setters share. -/
def withSlot (body : BPtr) (dwords ptrIndex : Nat) (write : Nat → Nat → BuildM Unit) :
    BuildM Unit := fun b =>
  match slot body dwords ptrIndex b with
  | .error rc b => .error rc b
  | .ok at' b => write at'.seg at'.word b

/-- `capnp_builder_set_text` -/
def setText (body : BPtr) (dwords ptrIndex : Nat) (text : List UInt8) : BuildM Unit :=
  withSlot body dwords ptrIndex fun seg word => writeTextAt seg word text

/-- `capnp_builder_set_data` -/
def setDataList (body : BPtr) (dwords ptrIndex : Nat) (bytes : List UInt8) : BuildM Unit :=
  withSlot body dwords ptrIndex fun seg word =>
    writeListBody seg word .byte bytes.length bytes.length (fillBytes bytes)

/-- Store the elements `0 .. n-1`, each of `width` bytes, little-endian. -/
def storeElems (width : Nat) (items : Nat → Nat) (mem : Memory) (p : Nat) : Nat → Memory
  | 0 => mem
  | n + 1 => storeLe width (storeElems width items mem p n) (p + n * width) (items n)

/-- `set_list_prim` -/
def setListPrim (body : BPtr) (dwords ptrIndex : Nat) (esize : ElemSize) (nitems elemBytes : Nat)
    (items : Nat → Nat) : BuildM Unit :=
  withSlot body dwords ptrIndex fun seg word =>
    writeListBody seg word esize nitems (nitems * elemBytes) fun mem p =>
      storeElems elemBytes items mem p nitems

/-- `capnp_builder_set_list_u8` -/
def setListU8 (body : BPtr) (dwords ptrIndex nitems : Nat) (items : Nat → Nat) : BuildM Unit :=
  setListPrim body dwords ptrIndex .byte nitems 1 items

/-- `capnp_builder_set_list_u16` -/
def setListU16 (body : BPtr) (dwords ptrIndex nitems : Nat) (items : Nat → Nat) : BuildM Unit :=
  setListPrim body dwords ptrIndex .two nitems 2 items

/-- `capnp_builder_set_list_u32` -/
def setListU32 (body : BPtr) (dwords ptrIndex nitems : Nat) (items : Nat → Nat) : BuildM Unit :=
  setListPrim body dwords ptrIndex .four nitems 4 items

/-- `capnp_builder_set_list_u64` -/
def setListU64 (body : BPtr) (dwords ptrIndex nitems : Nat) (items : Nat → Nat) : BuildM Unit :=
  setListPrim body dwords ptrIndex .eight nitems 8 items

/-- `capnp_builder_set_list_f32`, by the bits of the elements -/
def setListF32 (body : BPtr) (dwords ptrIndex nitems : Nat) (items : Nat → Nat) : BuildM Unit :=
  setListPrim body dwords ptrIndex .four nitems 4 items

/-- `capnp_builder_set_list_f64`, by the bits of the elements -/
def setListF64 (body : BPtr) (dwords ptrIndex nitems : Nat) (items : Nat → Nat) : BuildM Unit :=
  setListPrim body dwords ptrIndex .eight nitems 8 items

/-- `capnp_builder_set_list_void` -/
def setListVoid (body : BPtr) (dwords ptrIndex nitems : Nat) : BuildM Unit :=
  setListPrim body dwords ptrIndex .void nitems 0 fun _ => 0

/-- Set bit `i` of the body for every true item `i < n`. -/
def storeBits (items : Nat → Bool) (mem : Memory) (p : Nat) : Nat → Memory
  | 0 => mem
  | n + 1 =>
      let mem := storeBits items mem p n
      if items n then blit 1 mem (p + n / 8) fun _ => withBit (mem (p + n / 8)) (n % 8) true
      else mem

/-- `capnp_builder_set_list_bool` -/
def setListBool (body : BPtr) (dwords ptrIndex nitems : Nat) (items : Nat → Bool) : BuildM Unit :=
  withSlot body dwords ptrIndex fun seg word =>
    writeListBody seg word .bit nitems ((nitems + 7) / 8) fun mem p => storeBits items mem p nitems

/-- Write the texts of a `List(Text)` into consecutive pointer slots. -/
def writeTexts (listSeg : Nat) : (listStart : Nat) → List (List UInt8) → BuildM Unit
  | _, [] => fun b => .ok () b
  | listStart, text :: rest => fun b =>
      match writeTextAt listSeg listStart text b with
      | .error _ b => .error .alloc b
      | .ok _ b => writeTexts listSeg (listStart + 1) rest b

/-- `capnp_builder_set_list_text_n`; `capnp_builder_set_list_text` passes the
lengths that `strlen` gives. -/
def setListTextN (body : BPtr) (dwords ptrIndex : Nat) (items : List (List UInt8)) : BuildM Unit :=
  withSlot body dwords ptrIndex fun seg word => fun b =>
    match (if items.length ≠ 0 then allocWords items.length b else .ok (seg, word + 1) b) with
    | .error _ b => .error .alloc b
    | .ok (listSeg, listStart) b =>
        match writeListPtr seg word listSeg listStart .ptr items.length b with
        | .error _ b => .error .alloc b
        | .ok _ b => writeTexts listSeg listStart items b

/-- `capnp_builder_set_list_struct`: returns the handle of the first element. -/
def setListStruct (body : BPtr) (dwords ptrIndex nitems elemDwords elemPwords : Nat) :
    BuildM BPtr := fun b =>
  match slot body dwords ptrIndex b with
  | .error rc b => .error rc b
  | .ok at' b =>
      let contentWords := nitems * (elemDwords + elemPwords)
      match allocWords (1 + contentWords) b with
      | .error _ b => .error .alloc b
      | .ok (tagSeg, tagWord) b =>
          let b := b.storeW tagSeg tagWord (wpMakeStruct nitems elemDwords elemPwords)
          match writeListPtr at'.seg at'.word tagSeg tagWord .composite contentWords b with
          | .error _ b => .error .alloc b
          | .ok _ b => .ok ⟨tagSeg, tagWord + 1⟩ b

/-! ## Serialization -/

/-- Four bytes, least significant first. -/
def le32 (v : Nat) : List UInt8 := toList (storeLe 4 (fun _ => 0) 0 v) 0 4

/-- The used bytes of a segment. -/
def segBytes (s : BSeg) : List UInt8 := toList s.data 0 (s.words * 8)

/-- The segment table: count minus one, sizes, and padding to a word. -/
def tableBytes (b : Builder) : List UInt8 :=
  le32 (b.nsegs - 1) ++ (List.range b.nsegs).flatMap (fun i => le32 (b.seg i).words) ++
    (if (4 + 4 * b.nsegs) % 8 ≠ 0 then le32 0 else [])

/-- `capnp_builder_serialize` -/
def serialize (b : Builder) : Except Status (List UInt8) :=
  if b.nsegs = 0 ∨ (b.seg 0).words = 0 then .error .arg
  else .ok (b.tableBytes ++ (List.range b.nsegs).flatMap fun i => segBytes (b.seg i))

end Builder

end CapnpJanet
