import CapnpJanet.Builder.Failures
import CapnpJanet.Janet.Cfuns

/-!
# The pointer functions of the Janet module

The functions of `janet_mod.c` that put a text, data or a list into a pointer
field.  An argument is what Janet hands over: a byte view of a string or a buffer,
the items of a tuple or an array, or a single value.  The lengths of views are
`int32_t`.

Every function of the module checks its arguments before it changes the builder,
a list item by item, so that one that fails leaves the builder as it was.
-/

namespace CapnpJanet

open ByteMemory Outcome

namespace Janet

/-! ## Arguments -/

/-- `JanetByteView` -/
structure ByteView where
  bytes : List UInt8
  short : bytes.length < 2 ^ 31

/-- A value, the bytes of a string or a buffer, or anything else. -/
inductive ArgItem
  | scalar (value : Value)
  | bytes (view : ByteView)
  | other

/-- `JanetView` -/
structure ItemView where
  items : List ArgItem
  short : items.length < 2 ^ 31

/-- A single item, or the items of a tuple or an array. -/
inductive Argument
  | item (item : ArgItem)
  | indexed (view : ItemView)

/-- The conversion of a value, which refuses what is none. -/
def ArgItem.value {α : Type} (get : Nat → Value → Except Panic α) (n : Nat) : ArgItem → Except Panic α
  | scalar value => get n value
  | bytes _ | other => .error (.argument n)

/-- `janet_getbytes` -/
def ArgItem.getBytes (n : Nat) : ArgItem → Except Panic ByteView
  | bytes view => .ok view
  | scalar _ | other => .error (.argument n)

/-- The conversions that refuse a tuple. -/
def Argument.single {α : Type} (get : Nat → ArgItem → Except Panic α) (n : Nat) :
    Argument → Except Panic α
  | .item one => get n one
  | .indexed _ => .error (.argument n)

/-- `janet_getindexed` -/
def Argument.getIndexed (n : Nat) : Argument → Except Panic ItemView
  | .indexed view => .ok view
  | .item _ => .error (.argument n)

/-! ## Pointer fields -/

open CfunM

/-- `cfun_set_text` -/
def cfunSetText (p : BuilderPtr) (index : Nat) (value : Argument) : CfunM Unit := do
  getPointerIndex p index "capnp/set-text"
  let view ← convert (value.single ArgItem.getBytes 2)
  checkBuilderResult "capnp/set-text" (Builder.setText p.body p.dwords index view.bytes)

/-- `cfun_set_data` -/
def cfunSetData (p : BuilderPtr) (index : Nat) (value : Argument) : CfunM Unit := do
  getPointerIndex p index "capnp/set-data"
  let view ← convert (value.single ArgItem.getBytes 2)
  checkBuilderResult "capnp/set-data" (Builder.setDataList p.body p.dwords index view.bytes)

/-- `janet_list_kind` -/
inductive ListKind
  | bool | i8 | u8 | i16 | u16 | i32 | u32 | i64 | u64 | f32 | f64
deriving DecidableEq, Repr

namespace ListKind

/-- The suffix of a list setter. -/
def suffix : ListKind → String
  | bool => "bool"
  | i8 => "i8"
  | u8 => "u8"
  | i16 => "i16"
  | u16 => "u16"
  | i32 => "i32"
  | u32 => "u32"
  | i64 => "i64"
  | u64 => "u64"
  | f32 => "f32"
  | f64 => "f64"

/-- `validate_list_item`, with the bits that the item is converted to. -/
def itemBits (kind : ListKind) (caller : String) (item : ArgItem) : Except Panic Nat :=
  match kind with
  | bool => Bool.toNat <$> item.value getBoolean 0
  | i8 => IntType.i8.toBits <$> item.value (getI8Arg caller) 0
  | u8 => IntType.u8.toBits <$> item.value (getU8Arg caller) 0
  | i16 => IntType.i16.toBits <$> item.value (getInteger .i16) 0
  | u16 => IntType.u16.toBits <$> item.value (getInteger .u16) 0
  | i32 => IntType.i32.toBits <$> item.value (getInteger .i32) 0
  | u32 => IntType.u32.toBits <$> item.value (getInteger .u32) 0
  | i64 => IntType.i64.toBits <$> item.value (getInteger .i64) 0
  | u64 => IntType.u64.toBits <$> item.value (getInteger .u64) 0
  | f32 => item.value (getReal 4) 0
  | f64 => item.value (getReal 8) 0

/-- The switch over the list setters of the builder. -/
def setList (kind : ListKind) (body : BPtr) (dwords ptrIndex : Nat) (bits : List Nat) :
    BuildM Unit :=
  let items := fun i => bits.getD i 0
  match kind with
  | bool => Builder.setListBool body dwords ptrIndex bits.length fun i => items i != 0
  | i8 | u8 => Builder.setListU8 body dwords ptrIndex bits.length items
  | i16 | u16 => Builder.setListU16 body dwords ptrIndex bits.length items
  | i32 | u32 => Builder.setListU32 body dwords ptrIndex bits.length items
  | i64 | u64 => Builder.setListU64 body dwords ptrIndex bits.length items
  | f32 => Builder.setListF32 body dwords ptrIndex bits.length items
  | f64 => Builder.setListF64 body dwords ptrIndex bits.length items

end ListKind

/-- `cfun_set_list_values` -/
def cfunSetListValues (kind : ListKind) (caller : String) (p : BuilderPtr) (index : Nat)
    (values : Argument) : CfunM Unit := do
  getPointerIndex p index caller
  let view ← convert (values.getIndexed 2)
  let bits ← convert (view.items.mapM (kind.itemBits caller))
  checkBuilderResult caller (kind.setList p.body p.dwords index bits)

/-- `DEFINE_LIST_SETTER` -/
def cfunSetList (kind : ListKind) := cfunSetListValues kind ("capnp/set-list-" ++ kind.suffix)

/-- `cfun_set_list_text` -/
def cfunSetListText (p : BuilderPtr) (index : Nat) (values : Argument) : CfunM Unit := do
  getPointerIndex p index "capnp/set-list-text"
  let view ← convert (values.getIndexed 2)
  let views ← convert (view.items.mapM (ArgItem.getBytes 0))
  checkBuilderResult "capnp/set-list-text"
    (Builder.setListTextN p.body p.dwords index (views.map ByteView.bytes))

/-- `cfun_set_list_void` -/
def cfunSetListVoid (p : BuilderPtr) (index : Nat) (count : Argument) : CfunM Unit := do
  getPointerIndex p index "capnp/set-list-void"
  let count ← convert (count.single (ArgItem.value (getInteger .u32)) 2)
  checkBuilderResult "capnp/set-list-void"
    (Builder.setListVoid p.body p.dwords index count.toNat)

/-- `cfun_init_struct_list`, for any argument as the count. -/
def cfunInitStructListOf (parent : BuilderPtr) (index : Nat) (count : Argument)
    (dwords pwords : Nat) : CfunM BuilderList :=
  match count with
  | .item (.scalar (.integer (.ofNat count))) => cfunInitStructList parent index count dwords pwords
  | _ => do
      getPointerIndex parent index "capnp/init-struct-list"
      throw (.argument 2)

/-! ## Failures -/

section
variable {b : Builder} {p : BuilderPtr} {index : Nat}

theorem convert_looks {α : Type} (r : Except Panic α) : Looks (convert r) := by
  refine ⟨fun b => ?_⟩
  cases r <;> rfl

theorem convert_eq_ok {α : Type} {r : Except Panic α} {a : α} {b b' : Builder} :
    convert r b = .ok a b' ↔ r = .ok a ∧ b = b' := by
  cases r <;> simp [convert]

theorem getPointerIndex_looks (p : BuilderPtr) (index : Nat) (caller : String) :
    Looks (getPointerIndex p index caller) := by
  unfold getPointerIndex
  exact (Looks.throw _).ite ((Looks.throw _).ite (.pure _))

theorem getWordCount_looks (n count : Nat) (caller : String) : Looks (getWordCount n count caller) := by
  unfold getWordCount
  exact (Looks.throw _).ite ((Looks.throw _).ite (.pure _))

theorem requireDataRange_looks (p : BuilderPtr) (byteOffset width : Nat) (caller : String) :
    Looks (requireDataRange p byteOffset width caller) := by
  unfold requireDataRange
  exact (Looks.throw _).ite (.pure _)

theorem requireBoolRange_looks (p : BuilderPtr) (bitOffset : Nat) (caller : String) :
    Looks (requireBoolRange p bitOffset caller) := by
  unfold requireBoolRange
  exact (Looks.throw _).ite (.pure _)

theorem checkBuilderResult_looks {α : Type} {caller : String} {x : BuildM α} (looks : Looks x) :
    Looks (checkBuilderResult caller x) := by
  refine ⟨fun b => ?_⟩
  have ends := looks.keeps b
  unfold checkBuilderResult
  cases run : x b with
  | ok a b' =>
      rw [run] at ends
      exact ends
  | error rc b' =>
      rw [run] at ends
      exact ends

/-- A function of the module fails as the operation of the builder does. -/
theorem checkBuilderResult_atomic {α : Type} {caller : String} {x : BuildM α} (atomic : Atomic x b) :
    Atomic (checkBuilderResult caller x) b := by
  refine ⟨fun run => ?_⟩
  unfold checkBuilderResult at run
  split at run
  · cases run
  · next failed =>
    cases run
    exact atomic.of_error failed

theorem setInteger_atomic (t : IntType) (caller : String) (getArg : Nat → Value → Except Panic Int)
    (offset : Nat) (value : Value) (dflt : Option Value) :
    Atomic (setInteger t caller getArg p offset value dflt) b := by
  unfold setInteger
  split
  · exact .refuse _ _
  · exact .after_look (convert_looks _) fun _ _ => .after_look (convert_looks _) fun _ _ =>
      .after_look (requireDataRange_looks _ _ _ _) fun _ _ =>
        checkBuilderResult_atomic (Builder.setScalar_atomic _ _ _ _)

theorem setReal_atomic (bytes : Nat) (caller : String) (offset : Nat) (value : Value)
    (dflt : Option Value) : Atomic (setReal bytes caller p offset value dflt) b := by
  unfold setReal
  split
  · exact .refuse _ _
  · exact .after_look (convert_looks _) fun _ _ => .after_look (convert_looks _) fun _ _ =>
      .after_look (requireDataRange_looks _ _ _ _) fun _ _ =>
        checkBuilderResult_atomic (Builder.setScalar_atomic _ _ _ _)

theorem cfunSetBool_atomic (offset : Nat) (value : Value) (dflt : Option Value) :
    Atomic (cfunSetBool p offset value dflt) b := by
  unfold cfunSetBool
  split
  · exact .refuse _ _
  · exact .after_look (convert_looks _) fun _ _ => .after_look (convert_looks _) fun _ _ =>
      .after_look (requireBoolRange_looks _ _ _) fun _ _ =>
        checkBuilderResult_atomic (Builder.setBool_atomic _ _ _)

theorem cfunClearPointer_atomic : Atomic (cfunClearPointer p index) b := by
  unfold cfunClearPointer
  exact .after_look (getPointerIndex_looks _ _ _) fun _ _ =>
    checkBuilderResult_atomic (Builder.clearPtr_atomic _ _ _)

theorem cfunSetText_atomic (wf : b.Wf) (value : Argument) : Atomic (cfunSetText p index value) b := by
  unfold cfunSetText
  exact .after_look (getPointerIndex_looks _ _ _) fun _ _ => .after_look (convert_looks _) fun _ _ =>
    checkBuilderResult_atomic (Builder.setText_atomic wf _ _ _ _)

theorem cfunSetData_atomic (wf : b.Wf) (value : Argument) : Atomic (cfunSetData p index value) b := by
  unfold cfunSetData
  exact .after_look (getPointerIndex_looks _ _ _) fun _ _ => .after_look (convert_looks _) fun _ _ =>
    checkBuilderResult_atomic (Builder.setDataList_atomic wf _ _ _ _)

theorem setList_atomic (wf : b.Wf) (kind : ListKind) (body : BPtr) (dwords ptrIndex : Nat)
    (bits : List Nat) : Atomic (kind.setList body dwords ptrIndex bits) b := by
  cases kind with
  | bool => exact Builder.setListBool_atomic wf _ _ _ _ _
  | _ => exact Builder.setListPrim_atomic wf _ _ _ _ _ _ _

theorem cfunSetList_atomic (wf : b.Wf) (kind : ListKind) (values : Argument) :
    Atomic (cfunSetList kind p index values) b := by
  unfold cfunSetList cfunSetListValues
  exact .after_look (getPointerIndex_looks _ _ _) fun _ _ => .after_look (convert_looks _) fun _ _ =>
    .after_look (convert_looks _) fun _ _ => checkBuilderResult_atomic (setList_atomic wf kind _ _ _ _)

theorem cfunSetListText_atomic (unlimited : Builder.Unlimited b) (values : Argument) :
    Atomic (cfunSetListText p index values) b := by
  unfold cfunSetListText
  exact .after_look (getPointerIndex_looks _ _ _) fun _ _ => .after_look (convert_looks _) fun _ _ =>
    .after_look (convert_looks _) fun views _ => by
      refine checkBuilderResult_atomic (unlimited.setListTextN_atomic _ _ _ fun text member => ?_)
      obtain ⟨view, -, rfl⟩ := List.mem_map.mp member
      exact view.short

theorem cfunSetListVoid_atomic (wf : b.Wf) (count : Argument) :
    Atomic (cfunSetListVoid p index count) b := by
  unfold cfunSetListVoid
  exact .after_look (getPointerIndex_looks _ _ _) fun _ _ => .after_look (convert_looks _) fun _ _ =>
    checkBuilderResult_atomic (Builder.setListPrim_atomic wf _ _ _ _ _ _ _)

theorem cfunInitStruct_atomic (wf : b.Wf) (dwords pwords : Nat) :
    Atomic (cfunInitStruct p index dwords pwords) b := by
  unfold cfunInitStruct
  refine .after_look (getPointerIndex_looks _ _ _) fun _ _ =>
    .after_look (getWordCount_looks _ _ _) fun _ _ =>
      .after_look (getWordCount_looks _ _ _) fun _ _ =>
        .after_look (checkBuilderResult_looks (Builder.slot_looks _ _ _)) fun slot _ => ?_
  exact (checkBuilderResult_atomic (Builder.struct_atomic wf _ _ _)).before_pure _

theorem cfunInitStructList_atomic (wf : b.Wf) (count dwords pwords : Nat) :
    Atomic (cfunInitStructList p index count dwords pwords) b := by
  unfold cfunInitStructList
  refine .after_look (getPointerIndex_looks _ _ _) fun _ _ => ?_
  split
  · exact .refuse _ _
  · exact .after_look (getWordCount_looks _ _ _) fun _ _ =>
      .after_look (getWordCount_looks _ _ _) fun _ _ =>
        (checkBuilderResult_atomic (Builder.setListStruct_atomic wf _ _ _ _ _ _)).before_pure _

theorem cfunInitStructListOf_atomic (wf : b.Wf) (count : Argument) (dwords pwords : Nat) :
    Atomic (cfunInitStructListOf p index count dwords pwords) b := by
  unfold cfunInitStructListOf
  split
  · exact cfunInitStructList_atomic wf _ _ _
  · exact .after_look (getPointerIndex_looks _ _ _) fun _ _ => (Looks.throw _).atomic b

end

end Janet

end CapnpJanet
