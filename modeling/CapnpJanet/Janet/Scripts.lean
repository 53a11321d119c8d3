import CapnpJanet.Builder.Drafting
import CapnpJanet.Codegen.Arms

/-!
# Scripts that build

What a Janet script does with one builder: it makes a builder, and calls the
functions of the module on the builder and on the structs and struct lists that
earlier calls have returned.  A call that panics ends there, and the script may
catch that and go on.

Each function makes a few calls of the builder API.  The draft of a script is what
these calls mean, without any of the checks that the functions make.
-/

namespace CapnpJanet

open ByteMemory Outcome

namespace Janet

/-! ## The builder of a script -/

/-- `capnp_builder_wrap` -/
structure BuilderWrap where
  builder : Builder
  rootInitialized : Bool

/-- Functions that change a wrapped builder. -/
abbrev WrapM := EStateM Panic BuilderWrap

namespace WrapM

/-- A function that leaves the mark of the wrapped builder alone. -/
def onBuilder {α : Type} (x : CfunM α) : WrapM α := fun w =>
  match x w.builder with
  | .ok a b => .ok a { w with builder := b }
  | .error panic b => .error panic { w with builder := b }

end WrapM

open WrapM CfunM

/-- `cfun_new_builder`, with the number of words if there is one. -/
def cfunNewBuilder (firstWords : Option Nat) : Except Panic BuilderWrap :=
  match firstWords with
  | none => .ok ⟨Builder.init, false⟩
  | some firstWords =>
      if firstWords = 0 ∨ firstWords > builderMaxSegmentWords then
        .error (.text "capnp/new-builder: segment word count out of range")
      else .ok ⟨Builder.initSized firstWords, false⟩

/-- `cfun_init_root`, on the wrapped builder. -/
def initRoot (dwords pwords : Nat) : WrapM BuilderPtr := do
  onBuilder (getWordCount 1 dwords "capnp/init-root")
  onBuilder (getWordCount 2 pwords "capnp/init-root")
  if (← get).rootInitialized then throw (.text "capnp/init-root: root is already initialized")
  let root ← onBuilder (checkBuilderResult "capnp/init-root" Builder.root)
  modify fun w => { w with rootInitialized := true }
  let body ← onBuilder (checkBuilderResult "capnp/init-root" (Builder.struct root dwords pwords))
  pure ⟨body, dwords, pwords⟩

/-! ## Calls -/

/-- What a script holds besides its builder. -/
inductive Handle
  | ptr (p : BuilderPtr)
  | list (l : BuilderList)

/-- Where a struct, or the first element of a list, begins. -/
def Handle.body : Handle → BPtr
  | ptr p => p.body
  | list l => l.first

/-- The words between the elements of a list; a struct has only one. -/
def Handle.step : Handle → Nat
  | ptr _ => 0
  | list l => l.elemDwords + l.elemPwords

/-- The data words of a struct. -/
def Handle.dwords : Handle → Nat
  | ptr p => p.dwords
  | list _ => 0

/-- A call of a function on the builder, on a struct or on a list.  Handles are given
by their number. -/
inductive Call
  | initRoot (dwords pwords : Nat)
  | initStruct (parent index dwords pwords : Nat)
  | initStructList (parent index : Nat) (count : Argument) (dwords pwords : Nat)
  | structListAt (list index : Nat)
  | set (accessor : Codegen.Accessor) (ptr offset : Nat) (value : Value) (dflt : Option Value)
  | clearPointer (ptr index : Nat)
  | setText (ptr index : Nat) (value : Argument)
  | setData (ptr index : Nat) (value : Argument)
  | setList (kind : ListKind) (ptr index : Nat) (values : Argument)
  | setListText (ptr index : Nat) (values : Argument)
  | setListVoid (ptr index : Nat) (count : Argument)

/-- `get_builder_ptr`, and what is done with the struct. -/
def onPtr (held : List Handle) (ptr : Nat) (f : BuilderPtr → WrapM (List Handle)) :
    WrapM (List Handle) :=
  match held[ptr]? with
  | some (.ptr p) => f p
  | _ => throw (.argument 0)

/-- `get_builder_list`, and what is done with the list. -/
def onList (held : List Handle) (list : Nat) (f : BuilderList → WrapM (List Handle)) :
    WrapM (List Handle) :=
  match held[list]? with
  | some (.list l) => f l
  | _ => throw (.argument 0)

/-- The handles after a function that returns its argument. -/
def keep (held : List Handle) (x : CfunM Unit) : WrapM (List Handle) := do
  onBuilder x
  pure held

/-- The handles after a function that returns a new one. -/
def hold {α : Type} (held : List Handle) (handle : α → Handle) (x : WrapM α) :
    WrapM (List Handle) := do
  let a ← x
  pure (held ++ [handle a])

/-- Call a function of the module: the handles that the script holds afterwards. -/
def Call.run (held : List Handle) : Call → WrapM (List Handle)
  | initRoot dwords pwords => hold held .ptr (Janet.initRoot dwords pwords)
  | initStruct parent index dwords pwords =>
      onPtr held parent fun p => hold held .ptr (onBuilder (cfunInitStruct p index dwords pwords))
  | initStructList parent index count dwords pwords =>
      onPtr held parent fun p =>
        hold held .list (onBuilder (cfunInitStructListOf p index count dwords pwords))
  | structListAt list index =>
      onList held list fun l => hold held .ptr (onBuilder (convert (cfunStructListAt l index)))
  | set accessor ptr offset value dflt =>
      onPtr held ptr fun p => keep held (accessor.set p offset value dflt)
  | clearPointer ptr index => onPtr held ptr fun p => keep held (cfunClearPointer p index)
  | setText ptr index value => onPtr held ptr fun p => keep held (cfunSetText p index value)
  | setData ptr index value => onPtr held ptr fun p => keep held (cfunSetData p index value)
  | setList kind ptr index values =>
      onPtr held ptr fun p => keep held (cfunSetList kind p index values)
  | setListText ptr index values => onPtr held ptr fun p => keep held (cfunSetListText p index values)
  | setListVoid ptr index count => onPtr held ptr fun p => keep held (cfunSetListVoid p index count)

/-- A script, between its calls. -/
structure Script where
  wrap : BuilderWrap
  held : List Handle

/-- A script goes on after a panic. -/
def Script.step (s : Script) (call : Call) : Script :=
  match call.run s.held s.wrap with
  | .ok held wrap => ⟨wrap, held⟩
  | .error _ wrap => ⟨wrap, s.held⟩

/-! ## What calls mean -/

/-- The items of a tuple or an array. -/
def Argument.items : Argument → List ArgItem
  | .indexed view => view.items
  | .item _ => []

/-- The bytes of a string or a buffer. -/
def ArgItem.text : ArgItem → List UInt8
  | bytes view => view.bytes
  | scalar _ | other => []

/-- A text given by itself. -/
def Argument.text : Argument → List UInt8
  | .item one => one.text
  | .indexed _ => []

/-- The bits of an item in a list. -/
def ArgItem.bits (s : Codegen.Storage) : ArgItem → Nat
  | scalar value => s.toBits value
  | bytes _ | other => 0

/-- A number of elements. -/
def Argument.count : Argument → Nat
  | .item (.scalar (.integer count)) => count.toNat
  | _ => 0

namespace ListKind

/-- How the elements of a list are stored. -/
def storage : ListKind → Codegen.Storage
  | bool => .bool
  | i8 => .int .i8
  | u8 => .int .u8
  | i16 => .int .i16
  | u16 => .int .u16
  | i32 => .int .i32
  | u32 => .int .u32
  | i64 => .int .i64
  | u64 => .int .u64
  | f32 => .real 4
  | f64 => .real 8

def bytes : ListKind → Nat
  | bool | i8 | u8 => 1
  | i16 | u16 => 2
  | i32 | u32 | f32 => 4
  | i64 | u64 | f64 => 8

def esize : ListKind → ElemSize
  | bool => .bit
  | i8 | u8 => .byte
  | i16 | u16 => .two
  | i32 | u32 | f32 => .four
  | i64 | u64 | f64 => .eight

end ListKind

/-- The field that a setter stores. -/
def setOp (s : Codegen.Storage) (ptr offset bits : Nat) : BuildOp :=
  match s with
  | .bool => .setBool ptr offset (bits.testBit 0)
  | .int t => .setScalar t.bytes ptr offset bits
  | .real bytes => .setScalar bytes ptr offset bits

/-- The list that a setter stores. -/
def listOp (kind : ListKind) (ptr dwords index : Nat) (bits : List Nat) : BuildOp :=
  match kind with
  | .bool => .setListBool ptr dwords index bits.length fun i => bits.getD i 0 != 0
  | kind => .setListPrim ptr dwords index kind.esize bits.length kind.bytes fun i => bits.getD i 0

/-- The builder calls that a function makes if it succeeds.  New slots are numbered
from `slots` on. -/
def Call.ops (held : List Handle) (slots : Nat) : Call → List BuildOp
  | initRoot dwords pwords => [.root, .struct slots dwords pwords]
  | initStruct parent index dwords pwords =>
      [.slot parent (held[parent]?.elim 0 Handle.dwords) index, .struct slots dwords pwords]
  | initStructList parent index count dwords pwords =>
      [.setListStruct parent (held[parent]?.elim 0 Handle.dwords) index count.count dwords pwords]
  | structListAt list index => [.element list (index * held[list]?.elim 0 Handle.step)]
  | set accessor ptr offset value dflt =>
      [setOp accessor.storage ptr offset
        (accessor.storage.toBits value ^^^ accessor.storage.defaultBits dflt)]
  | clearPointer ptr index => [.clearPtr ptr (held[ptr]?.elim 0 Handle.dwords) index]
  | setText ptr index value => [.setText ptr (held[ptr]?.elim 0 Handle.dwords) index value.text]
  | setData ptr index value => [.setData ptr (held[ptr]?.elim 0 Handle.dwords) index value.text]
  | setList kind ptr index values =>
      [listOp kind ptr (held[ptr]?.elim 0 Handle.dwords) index
        (values.items.map (ArgItem.bits kind.storage))]
  | setListText ptr index values =>
      [.setListText ptr (held[ptr]?.elim 0 Handle.dwords) index (values.items.map ArgItem.text)]
  | setListVoid ptr index count =>
      [.setListPrim ptr (held[ptr]?.elim 0 Handle.dwords) index .void count.count 0 fun _ => 0]

/-- What a script has drawn after one more call. -/
def Script.note (s : Script) (call : Call) (d : Draft) : Draft :=
  match call.run s.held s.wrap with
  | .ok _ _ => (call.ops s.held d.slots.length).foldl (fun d op => (d.call op).getD d) d
  | .error _ _ => d

/-- The pointer of a list has room for its count. -/
def Call.counts : Call → Bool
  | initStructList _ _ count _ _ | setListVoid _ _ count => count.count < 2 ^ 29
  | setText _ _ value => value.text.length + 1 < 2 ^ 29
  | setData _ _ value => value.text.length < 2 ^ 29
  | setList _ _ _ values => values.items.length < 2 ^ 29
  | setListText _ _ values =>
      values.items.length < 2 ^ 29 && values.items.all fun item => item.text.length + 1 < 2 ^ 29
  | _ => true

end Janet

end CapnpJanet
