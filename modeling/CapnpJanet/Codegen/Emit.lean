import CapnpJanet.Janet.Cfuns

/-!
# The accessors that the schema compiler emits

`capnpc_janet.c` walks the struct nodes of a schema and prints, for each field,
Janet functions that call the field functions of the module.  A printed function
body is a list of forms here, and a form is run by the function it calls.  The
setters, the getters and the group initializers are chosen by three separate
switches over the type of a field, and each keeps its own here.

A node and its fields stand for what the generator reads of them.  Names are
left out: the tags and the byte offset of a discriminant, which the generator
prints as definitions and refers to by name, are given by their numbers.
-/

namespace CapnpJanet

namespace Codegen

open ByteMemory Janet

/-! ## Schema nodes -/

/-- `Type.which`; a type that is missing or not a struct is `unknown` too. -/
inductive TypeWhich
  | void | bool | int8 | int16 | int32 | int64 | uint8 | uint16 | uint32 | uint64
  | float32 | float64 | text | data | list | enum | struct | interface | anyPointer | unknown
deriving DecidableEq, Repr

/-- `Field.which`, with what the generator reads of each case.  The default of a
slot is the data section of its `Value` struct, if it has one. -/
inductive FieldWhich
  | slot (offset : Nat) (type : TypeWhich) (dflt : Option Memory)
  | group (id : Nat)
  | other

/-- A field with its stored discriminant. -/
structure Field where
  storedDiscriminant : UInt16
  which : FieldWhich

/-- The field's tag: `capnp_get_u16(&f, 2, 0) ^ 0xffff`. -/
def Field.discriminant (f : Field) : UInt16 := f.storedDiscriminant ^^^ 0xffff

/-- A struct node.  A node without a field list has no fields. -/
structure Node where
  id : Nat
  discriminantCount : Nat
  discriminantOffset : Nat
  fields : List Field

/-- `discriminant_byte` -/
def Node.discriminantByte (node : Node) : Nat := node.discriminantOffset * 2 % 2 ^ 32

/-- `is_union_member` -/
def Node.isUnionMember (node : Node) (f : Field) : Bool :=
  node.discriminantCount > 0 ∧ f.discriminant ≠ 0xffff

/-- `node_by_id` -/
def nodeById (nodes : List Node) (id : Nat) : Option Node := nodes.find? fun node => node.id == id

/-! ## Forms -/

/-- The suffix of the scalar functions: `capnp/set-bool` and `capnp/get-bool`, and
their like. -/
inductive Accessor
  | bool | i8 | u8 | i16 | u16 | i32 | u32 | i64 | u64 | f32 | f64
deriving DecidableEq, Repr

/-- A form `(capnp/set-… ptr offset value default)`, whose default may be absent, or
`(capnp/clear-pointer ptr index)`. -/
inductive Form
  | set (accessor : Accessor) (offset : Nat) (value : Value) (dflt : Option Value)
  | clearPointer (index : Nat)
deriving DecidableEq, Repr

/-- A form `(capnp/get-… ptr offset default)`. -/
structure GetForm where
  accessor : Accessor
  offset : Nat
  dflt : Option Value
deriving DecidableEq, Repr

/-- The scalar setters. -/
def Accessor.set : Accessor → BuilderPtr → Nat → Value → Option Value → CfunM Unit
  | bool => cfunSetBool
  | i8 => cfunSetI8
  | u8 => cfunSetU8
  | i16 => cfunSetI16
  | u16 => cfunSetU16
  | i32 => cfunSetI32
  | u32 => cfunSetU32
  | i64 => cfunSetI64
  | u64 => cfunSetU64
  | f32 => cfunSetF32
  | f64 => cfunSetF64

/-- The scalar getters. -/
def Accessor.get : Accessor → Message → Ptr → Nat → Option Value → Except Panic Value
  | bool => cfunGetBool
  | i8 => cfunGetI8
  | u8 => cfunGetU8
  | i16 => cfunGetI16
  | u16 => cfunGetU16
  | i32 => cfunGetI32
  | u32 => cfunGetU32
  | i64 => cfunGetI64
  | u64 => cfunGetU64
  | f32 => cfunGetF32
  | f64 => cfunGetF64

/-- Run one form. -/
def Form.run (ptr : BuilderPtr) : Form → CfunM Unit
  | set accessor offset value dflt => accessor.set ptr offset value dflt
  | clearPointer index => cfunClearPointer ptr index

/-- Run the body of a function. -/
def runForms (ptr : BuilderPtr) : List Form → CfunM Unit
  | [] => pure ()
  | form :: rest => do
      form.run ptr
      runForms ptr rest

/-- Call a getter. -/
def GetForm.run (m : Message) (ptr : Ptr) (form : GetForm) : Except Panic Value :=
  form.accessor.get m ptr form.offset form.dflt

/-! ## Emission -/

/-- `scalar_byte_offset` -/
def scalarByteOffset (type : TypeWhich) (offset : Nat) : Nat :=
  match type with
  | .int16 | .uint16 | .enum => offset * 2 % 2 ^ 32
  | .int32 | .uint32 | .float32 => offset * 4 % 2 ^ 32
  | .int64 | .uint64 | .float64 => offset * 8 % 2 ^ 32
  | _ => offset

/-- The literal `0`, as a setter or a getter for the type converts it. -/
def zeroLiteral : TypeWhich → Value
  | .float32 | .float64 => .real 0
  | _ => .integer 0

/-- `scalar_default_literal`.  What is printed for a number denotes it exactly. -/
def scalarDefaultLiteral (dflt : Option Memory) (type : TypeWhich) : Value :=
  match dflt with
  | none => zeroLiteral type
  | some value =>
      match type with
      | .bool => .boolean ((value (16 / 8)).toNat / 2 ^ (16 % 8) % 2 == 1)
      | .int8 => .integer (IntType.i8.ofBits (loadLe 1 value 2))
      | .int16 => .integer (IntType.i16.ofBits (loadLe 2 value 2))
      | .int32 => .integer (IntType.i32.ofBits (loadLe 4 value 4))
      | .int64 => .integer (IntType.i64.ofBits (loadLe 8 value 8))
      | .uint8 => .integer (loadLe 1 value 2)
      | .uint16 | .enum => .integer (loadLe 2 value 2)
      | .uint32 => .integer (loadLe 4 value 4)
      | .uint64 => .integer (loadLe 8 value 8)
      | .float32 => .real (loadLe 4 value 4)
      | .float64 => .real (loadLe 8 value 8)
      | type => zeroLiteral type

/-- `emit_union_select` -/
def emitUnionSelect (node : Node) (f : Field) : List Form :=
  if node.isUnionMember f then
    [.set .u16 node.discriminantByte (.integer f.discriminant.toNat) none]
  else []

/-- The switch of `emit_struct` over the setters. -/
def scalarSetter : TypeWhich → Option Accessor
  | .bool => some .bool
  | .int8 => some .i8
  | .uint8 => some .u8
  | .int16 => some .i16
  | .uint16 | .enum => some .u16
  | .int32 => some .i32
  | .uint32 => some .u32
  | .int64 => some .i64
  | .uint64 => some .u64
  | .float32 => some .f32
  | .float64 => some .f64
  | _ => none

/-- The setter that `emit_struct` emits for a scalar field, as the forms it runs on
a value. -/
def emitSetter (node : Node) (f : Field) : Option (Value → List Form) :=
  match f.which with
  | .slot offset type dflt =>
      match scalarSetter type with
      | none => none
      | some setter =>
          let wireOffset := if type = .bool then offset else scalarByteOffset type offset
          some fun value => emitUnionSelect node f ++
            [.set setter wireOffset value (some (scalarDefaultLiteral dflt type))]
  | _ => none

/-- The getter that `emit_struct` emits for a scalar field. -/
def emitGetter (f : Field) : Option GetForm :=
  match f.which with
  | .slot offset type dflt =>
      let dflt := some (scalarDefaultLiteral dflt type)
      match type with
      | .bool => some ⟨.bool, offset, dflt⟩
      | .int8 => some ⟨.i8, offset, dflt⟩
      | .uint8 => some ⟨.u8, offset, dflt⟩
      | .int16 => some ⟨.i16, offset * 2 % 2 ^ 32, dflt⟩
      | .uint16 | .enum => some ⟨.u16, offset * 2 % 2 ^ 32, dflt⟩
      | .int32 => some ⟨.i32, offset * 4 % 2 ^ 32, dflt⟩
      | .uint32 => some ⟨.u32, offset * 4 % 2 ^ 32, dflt⟩
      | .int64 => some ⟨.i64, offset * 8 % 2 ^ 32, dflt⟩
      | .uint64 => some ⟨.u64, offset * 8 % 2 ^ 32, dflt⟩
      | .float32 => some ⟨.f32, offset * 4 % 2 ^ 32, dflt⟩
      | .float64 => some ⟨.f64, offset * 8 % 2 ^ 32, dflt⟩
      | _ => none
  | _ => none

/-- The function that `emit_struct` emits for the discriminant of a union. -/
def emitWhich (node : Node) : Option GetForm :=
  if node.discriminantCount > 0 then some ⟨.u16, node.discriminantByte, none⟩ else none

/-- The switch of `emit_group_clear` for one slot. -/
def clearSlot (type : TypeWhich) (offset : Nat) : List Form :=
  match type with
  | .bool => [.set .bool offset (.boolean false) none]
  | .int8 => [.set .i8 offset (.integer 0) none]
  | .uint8 => [.set .u8 offset (.integer 0) none]
  | .int16 => [.set .i16 (scalarByteOffset type offset) (.integer 0) none]
  | .uint16 | .enum => [.set .u16 (scalarByteOffset type offset) (.integer 0) none]
  | .int32 => [.set .i32 (scalarByteOffset type offset) (.integer 0) none]
  | .uint32 => [.set .u32 (scalarByteOffset type offset) (.integer 0) none]
  | .int64 => [.set .i64 (scalarByteOffset type offset) (.integer 0) none]
  | .uint64 => [.set .u64 (scalarByteOffset type offset) (.integer 0) none]
  | .float32 => [.set .f32 (scalarByteOffset type offset) (.real 0) none]
  | .float64 => [.set .f64 (scalarByteOffset type offset) (.real 0) none]
  | .text | .data | .list | .struct | .interface | .anyPointer => [.clearPointer offset]
  | .void | .unknown => []

/-- The body of the loop of `emit_group_clear`, with the call for a nested group. -/
def clearField (nested : Nat → Option (List Form)) (f : Field) : Option (List Form) :=
  match f.which with
  | .group id => nested id
  | .slot offset type _ => some (clearSlot type offset)
  | .other => some []

/-- The loop of `emit_group_clear` over the fields of a group. -/
def clearFields (nested : Nat → Option (List Form)) : List Field → Option (List Form)
  | [] => some []
  | f :: rest => do
      let first ← clearField nested f
      let later ← clearFields nested rest
      some (first ++ later)

/-- `emit_group_clear`, up to a depth of nested groups; `none` if they are nested
more deeply. -/
def emitGroupClear (nodes : List Node) : (depth : Nat) → (groupId : Nat) → Option (List Form)
  | 0, _ => none
  | depth + 1, groupId =>
      match nodeById nodes groupId with
      | none => some []
      | some group => clearFields (emitGroupClear nodes depth) group.fields

/-- The initializer that `emit_struct` emits for a group field. -/
def emitGroupInit (nodes : List Node) (depth : Nat) (node : Node) (f : Field) :
    Option (List Form) :=
  match f.which with
  | .group id => do
      let cleared ← emitGroupClear nodes depth id
      some (emitUnionSelect node f ++ cleared)
  | _ => none

end Codegen

end CapnpJanet
