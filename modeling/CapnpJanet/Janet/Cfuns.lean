import CapnpJanet.Builder.Ops
import CapnpJanet.Message.Getters

/-!
# The field functions of the Janet module

The functions of `janet_mod.c` that generated accessors call: the scalar setters
and getters with a schema default, `capnp/clear-pointer`, and the way from a
builder to a message.  The wire holds the exclusive or of a value and its
default.

A Janet number that is converted to an integer type is an integer here, and one
that is converted to a float is given by the bits of that float; both
conversions are exact.  A struct of a builder is a handle with the sizes of its
sections, which the builder itself does not know.
-/

namespace CapnpJanet

namespace Janet

/-- An argument or a result of a function. -/
inductive Value
  | boolean (value : Bool)
  | integer (value : Int)
  | real (bits : Nat)
deriving DecidableEq, Repr

/-- Why a function gives up: Janet cannot convert an argument, the function says
so, or `check_builder_result` has met an error code. -/
inductive Panic
  | argument (n : Nat)
  | text (message : String)
  | builder (caller : String) (rc : Status)
deriving DecidableEq, Repr

/-- `capnp_builder_ptr_wrap`, without its builder. -/
structure BuilderPtr where
  body : BPtr
  dwords : Nat
  pwords : Nat

/-- `capnp_builder_list_wrap`, without its builder. -/
structure BuilderList where
  first : BPtr
  count : Nat
  elemDwords : Nat
  elemPwords : Nat

/-- Functions that change a builder. -/
abbrev CfunM := EStateM Panic Builder

/-! ## Integer types -/

/-- The integer types of fields. -/
inductive IntType
  | i8 | u8 | i16 | u16 | i32 | u32 | i64 | u64
deriving DecidableEq, Repr

namespace IntType

def bytes : IntType → Nat
  | i8 | u8 => 1
  | i16 | u16 => 2
  | i32 | u32 => 4
  | i64 | u64 => 8

def signed : IntType → Bool
  | i8 | i16 | i32 | i64 => true
  | u8 | u16 | u32 | u64 => false

/-- The values of the type. -/
def InRange (t : IntType) (value : Int) : Prop :=
  if t.signed then -2 ^ (8 * t.bytes - 1) ≤ value ∧ value < 2 ^ (8 * t.bytes - 1)
  else 0 ≤ value ∧ value < 2 ^ (8 * t.bytes)

instance (t : IntType) (value : Int) : Decidable (t.InRange value) := by
  unfold InRange
  infer_instance

/-- The conversion to the unsigned type of this width. -/
def toBits (t : IntType) (value : Int) : Nat := (value % 2 ^ (8 * t.bytes)).toNat

/-- The conversion from the unsigned type of this width. -/
def ofBits (t : IntType) (bits : Nat) : Int :=
  if t.signed ∧ 2 ^ (8 * t.bytes - 1) ≤ bits then (bits : Int) - 2 ^ (8 * t.bytes) else bits

end IntType

/-! ## Arguments -/

/-- The conversions of Janet to an integer type: `janet_getinteger`,
`janet_getuinteger16` and their like. -/
def getInteger (t : IntType) (n : Nat) (value : Value) : Except Panic Int :=
  match value with
  | .integer i => if t.InRange i then .ok i else .error (.argument n)
  | _ => .error (.argument n)

/-- `janet_getboolean` -/
def getBoolean (n : Nat) (value : Value) : Except Panic Bool :=
  match value with
  | .boolean b => .ok b
  | _ => .error (.argument n)

/-- `janet_getnumber`, and the conversion to a float of `bytes` bytes. -/
def getReal (bytes n : Nat) (value : Value) : Except Panic Nat :=
  match value with
  | .real bits => if bits < 256 ^ bytes then .ok bits else .error (.argument n)
  | _ => .error (.argument n)

/-- The common body of `get_u8_arg` and `get_i8_arg`. -/
def getByteArg (t : IntType) (typeName caller : String) (n : Nat) (value : Value) :
    Except Panic Int := do
  let i ← getInteger .i32 n value
  if t.InRange i then .ok i else .error (.text (caller ++ ": " ++ typeName ++ " value out of range"))

/-- `get_u8_arg` -/
def getU8Arg (caller : String) : Nat → Value → Except Panic Int := getByteArg .u8 "UInt8" caller

/-- `get_i8_arg` -/
def getI8Arg (caller : String) : Nat → Value → Except Panic Int := getByteArg .i8 "Int8" caller

/-- `argc > n ? get(argv, n) : 0` -/
def optional {α : Type} (get : Nat → Value → Except Panic α) (n : Nat) (absent : α)
    (value : Option Value) : Except Panic α :=
  match value with
  | none => .ok absent
  | some value => get n value

namespace CfunM

/-- Convert arguments. -/
def convert {α : Type} (r : Except Panic α) : CfunM α := fun b =>
  match r with
  | .ok a => .ok a b
  | .error panic => .error panic b

/-- `check_builder_result` -/
def checkBuilderResult {α : Type} (caller : String) (x : BuildM α) : CfunM α := fun b =>
  match x b with
  | .ok a b => .ok a b
  | .error rc b => .error (.builder caller rc) b

end CfunM

open CfunM

/-- `require_data_range` -/
def requireDataRange (p : BuilderPtr) (byteOffset width : Nat) (caller : String) : CfunM Unit :=
  if byteOffset > p.dwords * 8 ∨ width > p.dwords * 8 - byteOffset then
    throw (.text (caller ++ ": data offset exceeds the struct section"))
  else pure ()

/-- `require_bool_range` -/
def requireBoolRange (p : BuilderPtr) (bitOffset : Nat) (caller : String) : CfunM Unit :=
  if bitOffset ≥ p.dwords * 8 * 8 then
    throw (.text (caller ++ ": bit offset exceeds the struct section"))
  else pure ()

/-- `get_word_count` -/
def getWordCount (n count : Nat) (caller : String) : CfunM Unit :=
  if ¬IntType.i32.InRange count then throw (.argument n)
  else if count > 2 ^ 16 - 1 then throw (.text (caller ++ ": word count out of range"))
  else pure ()

/-- `get_pointer_index` -/
def getPointerIndex (p : BuilderPtr) (index : Nat) (caller : String) : CfunM Unit :=
  if ¬IntType.i32.InRange index then throw (.argument 1)
  else if index ≥ p.pwords then
    throw (.text (caller ++ ": pointer index exceeds the struct section"))
  else pure ()

/-! ## Structs -/

/-- `cfun_init_root`.  The builder remembers whether it has a root. -/
def cfunInitRoot (rootInitialized : Bool) (dwords pwords : Nat) : CfunM BuilderPtr := do
  getWordCount 1 dwords "capnp/init-root"
  getWordCount 2 pwords "capnp/init-root"
  if rootInitialized then throw (.text "capnp/init-root: root is already initialized")
  let root ← checkBuilderResult "capnp/init-root" Builder.root
  let body ← checkBuilderResult "capnp/init-root" (Builder.struct root dwords pwords)
  pure ⟨body, dwords, pwords⟩

/-- `cfun_init_struct` -/
def cfunInitStruct (parent : BuilderPtr) (index dwords pwords : Nat) : CfunM BuilderPtr := do
  getPointerIndex parent index "capnp/init-struct"
  getWordCount 2 dwords "capnp/init-struct"
  getWordCount 3 pwords "capnp/init-struct"
  let slot ← checkBuilderResult "capnp/init-struct" (Builder.slot parent.body parent.dwords index)
  let body ← checkBuilderResult "capnp/init-struct" (Builder.struct slot dwords pwords)
  pure ⟨body, dwords, pwords⟩

/-- `cfun_init_struct_list` -/
def cfunInitStructList (parent : BuilderPtr) (index count dwords pwords : Nat) :
    CfunM BuilderList := do
  getPointerIndex parent index "capnp/init-struct-list"
  if ¬IntType.u32.InRange count then throw (.argument 2)
  getWordCount 3 dwords "capnp/init-struct-list"
  getWordCount 4 pwords "capnp/init-struct-list"
  let first ← checkBuilderResult "capnp/init-struct-list"
    (Builder.setListStruct parent.body parent.dwords index count dwords pwords)
  pure ⟨first, count, dwords, pwords⟩

/-- `cfun_struct_list_at` -/
def cfunStructListAt (list : BuilderList) (index : Nat) : Except Panic BuilderPtr :=
  if ¬IntType.u32.InRange index then .error (.argument 1)
  else if index ≥ list.count then
    .error (.text "capnp/struct-list-at: index out of range")
  else
    .ok ⟨⟨list.first.seg, list.first.word + index * (list.elemDwords + list.elemPwords)⟩,
      list.elemDwords, list.elemPwords⟩

/-! ## Setters -/

/-- The common body of the integer setters: an offset, a value and an optional
default, all checked before the builder is changed. -/
def setInteger (t : IntType) (caller : String) (getArg : Nat → Value → Except Panic Int)
    (p : BuilderPtr) (offset : Nat) (value : Value) (dflt : Option Value) : CfunM Unit := do
  if ¬IntType.u32.InRange offset then throw (.argument 1)
  let value ← convert (getArg 2 value)
  let dflt ← convert (optional getArg 3 0 dflt)
  requireDataRange p offset t.bytes caller
  checkBuilderResult caller
    (Builder.setScalar t.bytes p.body offset (t.toBits value ^^^ t.toBits dflt))

/-- `cfun_set_u8` -/
def cfunSetU8 := setInteger .u8 "capnp/set-u8" (getU8Arg "capnp/set-u8")

/-- `cfun_set_i8` -/
def cfunSetI8 := setInteger .i8 "capnp/set-i8" (getI8Arg "capnp/set-i8")

/-- `cfun_set_u16` -/
def cfunSetU16 := setInteger .u16 "capnp/set-u16" (getInteger .u16)

/-- `cfun_set_i16` -/
def cfunSetI16 := setInteger .i16 "capnp/set-i16" (getInteger .i16)

/-- `cfun_set_u32` -/
def cfunSetU32 := setInteger .u32 "capnp/set-u32" (getInteger .u32)

/-- `cfun_set_i32` -/
def cfunSetI32 := setInteger .i32 "capnp/set-i32" (getInteger .i32)

/-- `cfun_set_u64` -/
def cfunSetU64 := setInteger .u64 "capnp/set-u64" (getInteger .u64)

/-- `cfun_set_i64` -/
def cfunSetI64 := setInteger .i64 "capnp/set-i64" (getInteger .i64)

/-- The common body of the float setters. -/
def setReal (bytes : Nat) (caller : String) (p : BuilderPtr) (offset : Nat) (value : Value)
    (dflt : Option Value) : CfunM Unit := do
  if ¬IntType.u32.InRange offset then throw (.argument 1)
  let value ← convert (getReal bytes 2 value)
  let dflt ← convert (optional (getReal bytes) 3 0 dflt)
  requireDataRange p offset bytes caller
  checkBuilderResult caller (Builder.setScalar bytes p.body offset (value ^^^ dflt))

/-- `cfun_set_f32` -/
def cfunSetF32 := setReal 4 "capnp/set-f32"

/-- `cfun_set_f64` -/
def cfunSetF64 := setReal 8 "capnp/set-f64"

/-- `cfun_set_bool` -/
def cfunSetBool (p : BuilderPtr) (offset : Nat) (value : Value) (dflt : Option Value) :
    CfunM Unit := do
  if ¬IntType.u32.InRange offset then throw (.argument 1)
  let value ← convert (getBoolean 2 value)
  let dflt ← convert (optional getBoolean 3 false dflt)
  requireBoolRange p offset "capnp/set-bool"
  checkBuilderResult "capnp/set-bool" (Builder.setBool p.body offset (value != dflt))

/-- `cfun_clear_pointer` -/
def cfunClearPointer (p : BuilderPtr) (index : Nat) : CfunM Unit := do
  getPointerIndex p index "capnp/clear-pointer"
  checkBuilderResult "capnp/clear-pointer" (Builder.clearPtr p.body p.dwords index)

/-! ## Getters -/

/-- The common body of the integer getters.  A default is converted from the
type `argType`. -/
def getIntegerField (t argType : IntType) (m : Message) (p : Ptr) (offset : Nat)
    (dflt : Option Value) : Except Panic Value := do
  if ¬IntType.i32.InRange offset then .error (.argument 1)
  let dflt ← optional (getInteger argType) 2 0 dflt
  pure (.integer (t.ofBits (m.getScalar t.bytes p offset 0 ^^^ t.toBits dflt)))

/-- `cfun_get_u8` -/
def cfunGetU8 := getIntegerField .u8 .i32

/-- `cfun_get_i8` -/
def cfunGetI8 := getIntegerField .i8 .i32

/-- `cfun_get_u16` -/
def cfunGetU16 := getIntegerField .u16 .i32

/-- `cfun_get_i16` -/
def cfunGetI16 := getIntegerField .i16 .i32

/-- `cfun_get_u32` -/
def cfunGetU32 := getIntegerField .u32 .u32

/-- `cfun_get_i32` -/
def cfunGetI32 := getIntegerField .i32 .i32

/-- `cfun_get_u64` -/
def cfunGetU64 := getIntegerField .u64 .u64

/-- `cfun_get_i64` -/
def cfunGetI64 := getIntegerField .i64 .i64

/-- The common body of the float getters. -/
def getRealField (bytes : Nat) (m : Message) (p : Ptr) (offset : Nat) (dflt : Option Value) :
    Except Panic Value := do
  if ¬IntType.i32.InRange offset then .error (.argument 1)
  let dflt ← optional (getReal bytes) 2 0 dflt
  pure (.real (m.getScalar bytes p offset 0 ^^^ dflt))

/-- `cfun_get_f32` -/
def cfunGetF32 := getRealField 4

/-- `cfun_get_f64` -/
def cfunGetF64 := getRealField 8

/-- `cfun_get_bool` -/
def cfunGetBool (m : Message) (p : Ptr) (bit : Nat) (dflt : Option Value) : Except Panic Value := do
  if ¬IntType.i32.InRange bit then .error (.argument 1)
  let dflt ← optional getBoolean 2 false dflt
  pure (.boolean (m.getBool p bit false != dflt))

/-! ## From a builder to a message -/

/-- `cfun_finish_builder` -/
def cfunFinishBuilder (rootInitialized : Bool) (b : Builder) : Except Panic (List UInt8) :=
  if ¬rootInitialized then .error (.text "capnp/finish-builder: root is not initialized")
  else
    match b.serialize with
    | .error rc => .error (.builder "capnp/finish-builder" rc)
    | .ok flat =>
        if flat.length > 2 ^ 31 - 1 then
          .error (.text "capnp/finish-builder: message exceeds Janet's buffer limit")
        else .ok flat

/-- `cfun_message_from_buffer` -/
def cfunMessageFromBuffer (bytes : List UInt8) : Except Panic Message :=
  match messageFromFlat bytes with
  | .error _ => .error (.text "capnp/message-from-buffer: framing error")
  | .ok m => .ok m

end Janet

end CapnpJanet
