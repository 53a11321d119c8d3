import CapnpJanet.Message.Resolve

/-!
# Field and element readers

The data-section, text, data and list-element readers of `capnp_message.c`.
Scalars are numbers below `256 ^ width`; the float readers return the same
words reinterpreted and are modelled by their bits.  Past-end fields give the
caller's default.
-/

namespace CapnpJanet

open ByteMemory

/-- `data_bit_count` -/
def dataBitCount (s : Ptr) : Nat := if s.dataBits ≠ 0 then s.dataBits else s.dwords * 64

/-- `data_has_bytes` -/
def dataHasBytes (s : Ptr) (byteOffset width : Nat) : Bool :=
  s.kind = .struct ∧ byteOffset ≤ dataBitCount s / 8 ∧ width ≤ dataBitCount s / 8 - byteOffset

/-- `data_bytes`: the address of the data section inside its segment. -/
def dataBytes (s : Ptr) : Nat := s.word * 8 + s.bodyByte

namespace Message

/-- The common body of the scalar readers: `width` bytes at `byteOffset`. -/
def getScalar (width : Nat) (m : Message) (s : Ptr) (byteOffset dflt : Nat) : Nat :=
  if dataHasBytes s byteOffset width then
    loadLe width (m.seg s.seg).data (dataBytes s + byteOffset)
  else dflt

/-- `capnp_get_u8` -/
def getU8 (m : Message) (s : Ptr) (byteOffset dflt : Nat) : Nat := m.getScalar 1 s byteOffset dflt

/-- `capnp_get_u16` -/
def getU16 (m : Message) (s : Ptr) (byteOffset dflt : Nat) : Nat := m.getScalar 2 s byteOffset dflt

/-- `capnp_get_u32` -/
def getU32 (m : Message) (s : Ptr) (byteOffset dflt : Nat) : Nat := m.getScalar 4 s byteOffset dflt

/-- `capnp_get_u64` -/
def getU64 (m : Message) (s : Ptr) (byteOffset dflt : Nat) : Nat := m.getScalar 8 s byteOffset dflt

/-- `capnp_get_f32`, by its bits -/
def getF32 (m : Message) (s : Ptr) (byteOffset dflt : Nat) : Nat := m.getScalar 4 s byteOffset dflt

/-- `capnp_get_f64`, by its bits -/
def getF64 (m : Message) (s : Ptr) (byteOffset dflt : Nat) : Nat := m.getScalar 8 s byteOffset dflt

/-- `capnp_get_bool` -/
def getBool (m : Message) (s : Ptr) (bitOffset : Nat) (dflt : Bool) : Bool :=
  if s.kind ≠ .struct then dflt
  else if bitOffset ≥ dataBitCount s then dflt
  else ((m.seg s.seg).data (dataBytes s + bitOffset / 8)).toNat / 2 ^ (bitOffset % 8) % 2 == 1

/-- Byte `k` of a list body.  The address is computed in `size_t`. -/
def listByte (m : Message) (list : Ptr) (k : Nat) : UInt8 :=
  (m.seg list.seg).data (sizeT (list.word * 8 + k))

/-- The first `n` bytes of a list body. -/
def listBytes (m : Message) (list : Ptr) (n : Nat) : List UInt8 :=
  (List.range n).map (m.listByte list)

/-- The text a byte list holds: a trailing NUL is not part of it. -/
def textOf (m : Message) (list : Ptr) : List UInt8 :=
  if list.count > 0 ∧ m.listByte list (list.count - 1) = 0 then
    m.listBytes list (list.count - 1)
  else m.listBytes list list.count

/-- `capnp_get_text`: return code, text and remaining budget. -/
def getText (m : Message) (s : Ptr) (ptrIndex left : Nat) : Status × List UInt8 × Nat :=
  let r := m.getp s ptrIndex Ptr.zero left
  if r.rc ≠ .ok then (r.rc, [], r.left)
  else if r.out.kind = .null then (.ok, [], r.left)
  else if r.out.kind ≠ .list ∨ r.out.esize ≠ .byte then (.kind, [], r.left)
  else if r.out.count = 0 then (.ok, [], r.left)
  else (.ok, m.textOf r.out, r.left)

/-- `capnp_get_data` -/
def getData (m : Message) (s : Ptr) (ptrIndex left : Nat) : Status × List UInt8 × Nat :=
  let r := m.getp s ptrIndex Ptr.zero left
  if r.rc ≠ .ok then (r.rc, [], r.left)
  else if r.out.kind = .null then (.ok, [], r.left)
  else if r.out.kind ≠ .list ∨ r.out.esize ≠ .byte then (.kind, [], r.left)
  else (.ok, m.listBytes r.out r.out.count, r.left)

/-! ## Lists -/

end Message

/-- `capnp_list_len` -/
def listLen (list : Ptr) : Nat := if list.kind ≠ .list then 0 else list.count

namespace Message

/-- `capnp_list_get_text` -/
def listGetText (m : Message) (list : Ptr) (index left : Nat) : Status × List UInt8 × Nat :=
  if list.kind ≠ .list then (.kind, [], left)
  else
    match list.esize with
    | .ptr =>
        let r := m.listGetp list index Ptr.zero left
        if r.rc ≠ .ok then (r.rc, [], r.left)
        else if r.out.kind = .null then (.ok, [], r.left)
        else if r.out.kind = .list ∧ r.out.esize = .byte then (.ok, m.textOf r.out, r.left)
        else (.kind, [], r.left)
    | .composite =>
        let r := m.listGetp list index Ptr.zero left
        if r.rc ≠ .ok then (r.rc, [], r.left)
        else if r.out.kind ≠ .struct then (.kind, [], r.left)
        else m.getText r.out 0 r.left
    | _ => (.kind, [], left)

/-- `list_elem_bytes` with the load that follows it. -/
def loadElem (m : Message) (list : Ptr) (index width : Nat) : Nat :=
  loadLe width (m.listByte list) (index * width)

/-- `composite_elem_data` with the load that follows it. -/
def loadCompositeElem (m : Message) (list : Ptr) (index width : Nat) : Nat :=
  loadLe width (m.seg list.seg).data ((list.word + index * list.stepWords) * 8)

/-- The common body of the scalar element readers: elements of exactly the
asked width, or field 0 of a composite list. -/
def listGetScalar (esize : ElemSize) (width : Nat) (m : Message) (list : Ptr) (index dflt : Nat) :
    Nat :=
  if list.kind ≠ .list ∨ index ≥ list.count then dflt
  else if list.esize = esize then m.loadElem list index width
  else if list.esize = .composite ∧ list.dwords ≥ 1 then m.loadCompositeElem list index width
  else dflt

/-- `capnp_list_get_u8` -/
def listGetU8 (m : Message) (list : Ptr) (index dflt : Nat) : Nat :=
  m.listGetScalar .byte 1 list index dflt

/-- `capnp_list_get_u16` -/
def listGetU16 (m : Message) (list : Ptr) (index dflt : Nat) : Nat :=
  m.listGetScalar .two 2 list index dflt

/-- `capnp_list_get_u32` -/
def listGetU32 (m : Message) (list : Ptr) (index dflt : Nat) : Nat :=
  m.listGetScalar .four 4 list index dflt

/-- `capnp_list_get_u64` -/
def listGetU64 (m : Message) (list : Ptr) (index dflt : Nat) : Nat :=
  m.listGetScalar .eight 8 list index dflt

/-- `capnp_list_get_f32`, by its bits -/
def listGetF32 (m : Message) (list : Ptr) (index dflt : Nat) : Nat :=
  m.listGetScalar .four 4 list index dflt

/-- `capnp_list_get_f64`, by its bits -/
def listGetF64 (m : Message) (list : Ptr) (index dflt : Nat) : Nat :=
  m.listGetScalar .eight 8 list index dflt

/-- `capnp_list_get_bool` -/
def listGetBool (m : Message) (list : Ptr) (index : Nat) (dflt : Bool) : Bool :=
  if list.kind ≠ .list ∨ list.esize ≠ .bit ∨ index ≥ list.count then dflt
  else (m.listByte list (index / 8)).toNat / 2 ^ (index % 8) % 2 == 1

/-- The upgrade view of an element of `elemBytes` bytes: field 0 of a synthetic
struct, limited to the element's own bits. -/
def upgradePtr (list : Ptr) (index elemBytes : Nat) : Ptr :=
  let absByte := sizeT (list.word * 8 + index * elemBytes)
  { Ptr.zero with
    seg := list.seg
    word := absByte / 8
    bodyByte := absByte % 8
    kind := .struct
    dwords := 1
    dataBits := elemBytes * 8 }

/-- `capnp_list_get_struct`.  No branch reads the message or the budget; a
failing call leaves the fields it had not reached as they were in `out`. -/
def listGetStruct (list : Ptr) (index : Nat) (out : Ptr) : Status × Ptr :=
  if list.kind ≠ .list then (.kind, out)
  else if index ≥ list.count then (.bounds, out)
  else
    match list.esize with
    | .composite => (.ok, elemPtr list index)
    | .byte => (.ok, upgradePtr list index 1)
    | .two => (.ok, upgradePtr list index 2)
    | .four => (.ok, upgradePtr list index 4)
    | .eight => (.ok, upgradePtr list index 8)
    | .ptr =>
        (.ok, { Ptr.zero with
          seg := list.seg
          word := sizeT (list.word + index)
          kind := .struct
          pwords := 1 })
    | _ =>
        (.kind, { out with
          seg := list.seg
          esize := .void
          count := 0
          stepWords := 0
          bodyByte := 0
          dataBits := 0 })

end Message

end CapnpJanet
