import CapnpJanet.Builder.Single
import CapnpJanet.Codegen.GroupClear
import CapnpJanet.Janet.Pointers

/-!
# Setters and initializers of every field

The function that `emit_struct` emits for a field selects the field in its union
first, clears the slots of a group, and then calls one function of the module.
Each of these calls is atomic, but the whole body is not: what was stored before
the call that gives up stays.  A failure leaves the struct as it was exactly when
the struct held that already.
-/

namespace CapnpJanet

open ByteMemory Builder Janet Outcome

namespace Codegen

/-! ## Emission -/

/-- What the generator reads behind `Type.which`: the id of a struct type, and of a
list its element type. -/
structure TypeDetail where
  structId : Nat
  element : TypeWhich
  elementId : Nat

/-- What `struct_shape` reads of a node. -/
structure ShapeNode where
  id : Nat
  isStruct : Bool
  dataWordCount : UInt16
  pointerCount : UInt16

/-- `struct_shape` -/
def structShape (nodes : List ShapeNode) (id : Nat) : Nat × Nat :=
  match nodes.find? fun node => node.id == id with
  | none => (0, 0)
  | some node =>
      if node.isStruct then (node.dataWordCount.toNat, node.pointerCount.toNat) else (0, 0)

/-- The last form of a function body, which the value is passed to. -/
inductive Call
  | none
  | scalar (accessor : Accessor) (offset : Nat) (dflt : Value)
  | text (index : Nat)
  | data (index : Nat)
  | initStruct (index dwords pwords : Nat)
  | initStructList (index dwords pwords : Nat)
  | listVoid (index : Nat)
  | listText (index : Nat)
  | listValues (kind : ListKind) (index : Nat)

/-- `list_accessor_suffix`, with the call that the suffix stands for. -/
def listAccessor (index : Nat) : TypeWhich → Option Call
  | .bool => some (.listValues .bool index)
  | .int8 => some (.listValues .i8 index)
  | .uint8 => some (.listValues .u8 index)
  | .int16 => some (.listValues .i16 index)
  | .uint16 | .enum => some (.listValues .u16 index)
  | .int32 => some (.listValues .i32 index)
  | .uint32 => some (.listValues .u32 index)
  | .int64 => some (.listValues .i64 index)
  | .uint64 => some (.listValues .u64 index)
  | .float32 => some (.listValues .f32 index)
  | .float64 => some (.listValues .f64 index)
  | .text => some (.listText index)
  | .void => some (.listVoid index)
  | _ => none

/-- The switch of `emit_struct` over the types that have no scalar setter. -/
def slotCall (shapes : List ShapeNode) (detail : TypeDetail) (offset : Nat) :
    TypeWhich → Option Call
  | .void => some .none
  | .text => some (.text offset)
  | .data => some (.data offset)
  | .struct =>
      let shape := structShape shapes detail.structId
      some (.initStruct offset shape.1 shape.2)
  | .list =>
      if detail.element = .struct then
        let shape := structShape shapes detail.elementId
        some (.initStructList offset shape.1 shape.2)
      else listAccessor offset detail.element
  | _ => none

/-- The body of a generated setter or initializer. -/
structure Arm where
  forms : List Form
  call : Call

/-- The setter or the initializer that `emit_struct` emits for a field. -/
def emitArm (nodes : List Node) (depth : Nat) (shapes : List ShapeNode) (node : Node) (f : Field)
    (detail : TypeDetail) : Option Arm :=
  match f.which with
  | .group _ => (emitGroupInit nodes depth node f).map fun forms => ⟨forms, .none⟩
  | .slot offset type dflt =>
      match scalarSetter type with
      | some setter =>
          let wireOffset := if type = .bool then offset else scalarByteOffset type offset
          some ⟨emitUnionSelect node f, .scalar setter wireOffset (scalarDefaultLiteral dflt type)⟩
      | none => (slotCall shapes detail offset type).map fun call => ⟨emitUnionSelect node f, call⟩
  | .other => none

/-- Run the last form on an argument. -/
def Call.run (ptr : BuilderPtr) (value : Argument) : Call → CfunM Unit
  | none => pure ()
  | scalar accessor offset dflt =>
      match value with
      | .item (.scalar value) => accessor.set ptr offset value (some dflt)
      | _ => throw (.argument 2)
  | text index => cfunSetText ptr index value
  | data index => cfunSetData ptr index value
  | initStruct index dwords pwords => do let _ ← cfunInitStruct ptr index dwords pwords
  | initStructList index dwords pwords => do
      let _ ← cfunInitStructListOf ptr index value dwords pwords
  | listVoid index => cfunSetListVoid ptr index value
  | listText index => cfunSetListText ptr index value
  | listValues kind index => cfunSetList kind ptr index value

/-- Call a generated setter or initializer. -/
def Arm.run (ptr : BuilderPtr) (arm : Arm) (value : Argument) : CfunM Unit := do
  runForms ptr arm.forms
  arm.call.run ptr value

/-! ## What forms leave behind -/

/-- A form whose value can be stored, and whose field lies in its section. -/
def Form.Fits (w : BuilderPtr) : Form → Prop
  | set accessor offset value dflt =>
      accessor.storage.step * offset + accessor.storage.width ≤ w.dwords * 64 ∧
        accessor.storage.Holds value ∧ accessor.storage.HoldsDefault dflt
  | clearPointer index => index < w.pwords

/-- The bits that a form stores to. -/
def Form.area (w : BuilderPtr) : Form → Set Nat
  | set accessor offset _ _ => fieldRun w accessor.storage offset
  | clearPointer index => BitRun (wordBit (w.body.word + w.dwords + index)) 64

/-- The bits that a form stores. -/
def Form.bits (w : BuilderPtr) : Form → Nat → Bool
  | set accessor offset value dflt =>
      fieldBits w accessor.storage offset
        (accessor.storage.toBits value ^^^ accessor.storage.defaultBits dflt)
  | clearPointer _ => fun _ => false

/-- What the forms up to the first one that does not fit leave in a bit: the last of
them that stores to the bit decides. -/
def Stores (w : BuilderPtr) : List Form → Nat → Bool → Prop
  | [], _, _ => False
  | form :: rest, i, value => form.Fits w ∧ (Stores w rest i value ∨
      (∀ other, ¬Stores w rest i other) ∧ i ∈ form.area w ∧ form.bits w i = value)

/-- The struct holds already what the forms leave behind. -/
def Held (w : BuilderPtr) (b : Builder) (forms : List Form) : Prop :=
  ∀ i value, Stores w forms i value → bit (b.seg w.body.seg).data i = value

/-- All data and pointer words of a struct are the same, the discriminants of its
unions with them. -/
def SameWords (w : BuilderPtr) (b b' : Builder) : Prop :=
  ∀ i < w.dwords + w.pwords,
    b'.wordAt w.body.seg (w.body.word + i) = b.wordAt w.body.seg (w.body.word + i)

variable {w : BuilderPtr} {b b' : Builder}

/-! ## The scalar functions -/

/-- The limits of a builder are what they were. -/
def SameLimits (b b' : Builder) : Prop :=
  b'.maxSegWords = b.maxSegWords ∧ b'.forceSingle = b.forceSingle

/-- A setter of the module that succeeds was given what it can store, and has left
the limits of the builder alone. -/
def RefusesOthers (set : BuilderPtr → Nat → Value → Option Value → CfunM Unit) (s : Storage) : Prop :=
  ∀ (w : BuilderPtr) (b b' : Builder) (offset : Nat) (value : Value) (dflt : Option Value),
    set w offset value dflt b = .ok () b' →
      (s.step * offset + s.width ≤ w.dwords * 64 ∧ s.Holds value ∧ s.HoldsDefault dflt) ∧
        SameLimits b b'

theorem optional_eq_ok {α : Type} {get : Nat → Value → Except Panic α} {n : Nat} {absent a : α}
    {value : Option Value} (taken : Janet.optional get n absent value = .ok a) :
    ∀ v ∈ value, get n v = .ok a := by
  rintro v ⟨⟩
  exact taken

theorem getInteger_eq_ok {t : IntType} {n : Nat} {value : Value} {i : Int}
    (taken : getInteger t n value = .ok i) : (Storage.int t).Holds value := by
  unfold getInteger at taken
  split at taken
  · split at taken
    · next inRange => exact inRange
    · cases taken
  · cases taken

theorem getByteArg_eq_ok {t : IntType} {typeName caller : String} {n : Nat} {value : Value} {i : Int}
    (taken : getByteArg t typeName caller n value = .ok i) : (Storage.int t).Holds value := by
  unfold getByteArg getInteger at taken
  cases value with
  | integer z =>
      dsimp only at taken
      split at taken
      · simp only [bind, Except.bind] at taken
        split at taken
        · next inRange => exact inRange
        · cases taken
      · cases taken
  | boolean _ => cases taken
  | real _ => cases taken

theorem getBoolean_eq_ok {n : Nat} {value : Value} {a : Bool} (taken : getBoolean n value = .ok a) :
    Storage.bool.Holds value := by
  unfold getBoolean at taken
  split at taken
  · trivial
  · cases taken

theorem getReal_eq_ok {bytes n : Nat} {value : Value} {bits : Nat}
    (taken : getReal bytes n value = .ok bits) : (Storage.real bytes).Holds value := by
  unfold getReal at taken
  split at taken
  · split at taken
    · next below => exact below
    · cases taken
  · cases taken

theorem requireDataRange_eq_ok {offset width : Nat} {caller : String}
    (checked : requireDataRange w offset width caller b = .ok () b') :
    offset + width ≤ w.dwords * 8 := by
  unfold requireDataRange at checked
  split at checked
  · cases checked
  · omega

theorem requireBoolRange_eq_ok {offset : Nat} {caller : String}
    (checked : requireBoolRange w offset caller b = .ok () b') : offset < w.dwords * 64 := by
  unfold requireBoolRange at checked
  split at checked
  · cases checked
  · omega

theorem setScalar_limits {width offset value : Nat} {body : BPtr}
    (run : setScalar width body offset value b = .ok () b') : SameLimits b b' := by
  unfold setScalar at run
  dsimp only at run
  split at run
  · cases run
  · cases run
    exact ⟨rfl, rfl⟩

theorem setBool_limits {offset : Nat} {value : Bool} {body : BPtr}
    (run : setBool body offset value b = .ok () b') : SameLimits b b' := by
  unfold setBool at run
  dsimp only at run
  split at run
  · cases run
  · cases run
    exact ⟨rfl, rfl⟩

theorem setInteger_refuses {t : IntType} {caller : String} {getArg : Nat → Value → Except Panic Int}
    (accepts : ∀ n v i, getArg n v = .ok i → (Storage.int t).Holds v) :
    RefusesOthers (setInteger t caller getArg) (.int t) := by
  intro w b b' offset value dflt run
  unfold setInteger at run
  split at run
  · cases run
  · obtain ⟨i, b₁, taken, run⟩ := bind_eq_ok.mp run
    obtain ⟨d, b₂, default, run⟩ := bind_eq_ok.mp run
    obtain ⟨_, b₃, checked, done⟩ := bind_eq_ok.mp run
    have inside := requireDataRange_eq_ok checked
    obtain rfl := (requireDataRange_looks _ _ _ _).of_ok checked
    obtain ⟨converted, rfl⟩ := convert_eq_ok.mp taken
    obtain ⟨given, rfl⟩ := convert_eq_ok.mp default
    have default := optional_eq_ok given
    simp only [Storage.step, Storage.width]
    exact ⟨⟨by omega, accepts 2 value i converted, fun v member => accepts 3 v d (default v member)⟩,
      setScalar_limits (checkBuilderResult_eq_ok.mp done)⟩

theorem setReal_refuses (bytes : Nat) (caller : String) :
    RefusesOthers (setReal bytes caller) (.real bytes) := by
  intro w b b' offset value dflt run
  unfold setReal at run
  split at run
  · cases run
  · obtain ⟨i, b₁, taken, run⟩ := bind_eq_ok.mp run
    obtain ⟨d, b₂, default, run⟩ := bind_eq_ok.mp run
    obtain ⟨_, b₃, checked, done⟩ := bind_eq_ok.mp run
    have inside := requireDataRange_eq_ok checked
    obtain rfl := (requireDataRange_looks _ _ _ _).of_ok checked
    obtain ⟨converted, rfl⟩ := convert_eq_ok.mp taken
    obtain ⟨given, rfl⟩ := convert_eq_ok.mp default
    have default := optional_eq_ok given
    simp only [Storage.step, Storage.width]
    exact ⟨⟨by omega, getReal_eq_ok converted, fun v member => getReal_eq_ok (default v member)⟩,
      setScalar_limits (checkBuilderResult_eq_ok.mp done)⟩

theorem cfunSetBool_refuses : RefusesOthers cfunSetBool .bool := by
  intro w b b' offset value dflt run
  unfold cfunSetBool at run
  split at run
  · cases run
  · obtain ⟨i, b₁, taken, run⟩ := bind_eq_ok.mp run
    obtain ⟨d, b₂, default, run⟩ := bind_eq_ok.mp run
    obtain ⟨_, b₃, checked, done⟩ := bind_eq_ok.mp run
    have inside := requireBoolRange_eq_ok checked
    obtain rfl := (requireBoolRange_looks _ _ _).of_ok checked
    obtain ⟨converted, rfl⟩ := convert_eq_ok.mp taken
    obtain ⟨given, rfl⟩ := convert_eq_ok.mp default
    have default := optional_eq_ok given
    simp only [Storage.step, Storage.width]
    exact ⟨⟨by omega, getBoolean_eq_ok converted, fun v member => getBoolean_eq_ok (default v member)⟩,
      setBool_limits (checkBuilderResult_eq_ok.mp done)⟩

/-- Every setter refuses what it cannot store. -/
theorem Accessor.set_refuses (a : Accessor) : RefusesOthers a.set a.storage := by
  have byte (t : IntType) (typeName caller : String) :
      RefusesOthers (setInteger t caller (getByteArg t typeName caller)) (.int t) :=
    setInteger_refuses fun _ _ _ => getByteArg_eq_ok
  have wide (t : IntType) (caller : String) :
      RefusesOthers (setInteger t caller (getInteger t)) (.int t) :=
    setInteger_refuses fun _ _ _ => getInteger_eq_ok
  cases a with
  | bool => exact cfunSetBool_refuses
  | i8 => exact byte .i8 "Int8" "capnp/set-i8"
  | u8 => exact byte .u8 "UInt8" "capnp/set-u8"
  | i16 => exact wide .i16 "capnp/set-i16"
  | u16 => exact wide .u16 "capnp/set-u16"
  | i32 => exact wide .i32 "capnp/set-i32"
  | u32 => exact wide .u32 "capnp/set-u32"
  | i64 => exact wide .i64 "capnp/set-i64"
  | u64 => exact wide .u64 "capnp/set-u64"
  | f32 => exact setReal_refuses 4 "capnp/set-f32"
  | f64 => exact setReal_refuses 8 "capnp/set-f64"

theorem Accessor.set_atomic (a : Accessor) (offset : Nat) (value : Value) (dflt : Option Value) :
    Atomic (a.set w offset value dflt) b := by
  have integer (t : IntType) (caller : String) (getArg : Nat → Value → Except Panic Int) :
      Atomic (setInteger t caller getArg w offset value dflt) b :=
    setInteger_atomic t caller getArg offset value dflt
  have real (bytes : Nat) (caller : String) :
      Atomic (setReal bytes caller w offset value dflt) b :=
    setReal_atomic bytes caller offset value dflt
  have boolean : Atomic (cfunSetBool w offset value dflt) b := cfunSetBool_atomic offset value dflt
  cases a with
  | bool => exact boolean
  | i8 => exact integer .i8 "capnp/set-i8" (getI8Arg "capnp/set-i8")
  | u8 => exact integer .u8 "capnp/set-u8" (getU8Arg "capnp/set-u8")
  | i16 => exact integer .i16 "capnp/set-i16" (getInteger .i16)
  | u16 => exact integer .u16 "capnp/set-u16" (getInteger .u16)
  | i32 => exact integer .i32 "capnp/set-i32" (getInteger .i32)
  | u32 => exact integer .u32 "capnp/set-u32" (getInteger .u32)
  | i64 => exact integer .i64 "capnp/set-i64" (getInteger .i64)
  | u64 => exact integer .u64 "capnp/set-u64" (getInteger .u64)
  | f32 => exact real 4 "capnp/set-f32"
  | f64 => exact real 8 "capnp/set-f64"

/-! ## Running forms -/

/-- A form that fits stores its bits, and nothing else. -/
theorem Form.run_patched {form : Form} (wf : b.Wf) (inUse : w.InUse b) (fits : form.Fits w) :
    ∃ b', form.run w b = .ok () b' ∧ Patched w.body.seg (form.area w) (form.bits w) b b' := by
  cases form with
  | set a offset value dflt =>
      obtain ⟨inside, holds, default⟩ := fits
      exact a.set_writes w b offset value dflt wf inUse inside holds default
  | clearPointer index => exact cfunClearPointer_patched wf inUse fits

/-- A form that succeeds fits. -/
theorem Form.fits_of_run {form : Form} (run : form.run w b = .ok () b') :
    form.Fits w ∧ SameLimits b b' := by
  cases form with
  | set a offset value dflt => exact a.set_refuses w b b' offset value dflt run
  | clearPointer index =>
      have run : cfunClearPointer w index b = .ok () b' := run
      unfold cfunClearPointer at run
      obtain ⟨_, b₁, checked, done⟩ := bind_eq_ok.mp run
      obtain rfl := (getPointerIndex_looks _ _ _).of_ok checked
      have cleared := checkBuilderResult_eq_ok.mp done
      refine ⟨?_, ?_⟩
      · unfold getPointerIndex at checked
        split at checked
        · cases checked
        · split at checked
          · cases checked
          · next inside => exact not_le.mp inside
      · unfold clearPtr at cleared
        split at cleared
        · cases cleared
        · next found =>
          obtain rfl := (slot_looks _ _ _).of_ok found
          cases cleared
          exact ⟨rfl, rfl⟩

theorem Form.run_atomic (form : Form) : Atomic (form.run w) b := by
  cases form with
  | set a offset value dflt => exact a.set_atomic offset value dflt
  | clearPointer index => exact cfunClearPointer_atomic

/-- What forms have done when they have come to their end, or to one that does not
fit. -/
structure Left (w : BuilderPtr) (forms : List Form) (b b' : Builder) : Prop where
  unlimited : Unlimited b'
  inUse : w.InUse b'
  stored : ∀ i value, Stores w forms i value → bit (b'.seg w.body.seg).data i = value
  kept : ∀ i, (∀ value, ¬Stores w forms i value) →
    bit (b'.seg w.body.seg).data i = bit (b.seg w.body.seg).data i

theorem Left.refl {forms : List Form} (unlimited : Unlimited b) (inUse : w.InUse b)
    (none : ∀ i value, ¬Stores w forms i value) : Left w forms b b :=
  ⟨unlimited, inUse, fun i value stores => absurd stores (none i value), fun _ _ => rfl⟩

/-- A form in front of others. -/
theorem Left.cons {form : Form} {rest : List Form} {b₁ : Builder} (fits : form.Fits w)
    (patched : Patched w.body.seg (form.area w) (form.bits w) b b₁) (left : Left w rest b₁ b') :
    Left w (form :: rest) b b' where
  unlimited := left.unlimited
  inUse := left.inUse
  stored := by
    rintro i value ⟨-, later | ⟨last, inside, rfl⟩⟩
    · exact left.stored i value later
    · rw [left.kept i last, patched.patch.inside i inside]
  kept i none := by
    have later : ∀ value, ¬Stores w rest i value := fun value stores => none value ⟨fits, .inl stores⟩
    have outside : i ∉ form.area w := fun inside => none _ ⟨fits, .inr ⟨later, inside, rfl⟩⟩
    rw [left.kept i later, patched.patch.outside i outside]

/-- What a body stores, up to the form at which it gives up. -/
theorem runForms_left (forms : List Form) (unlimited : Unlimited b) (inUse : w.InUse b) :
    Ends (runForms w forms b) (fun _ => Left w forms b) (Left w forms b) := by
  induction forms generalizing b with
  | nil => exact Left.refl unlimited inUse fun _ _ => id
  | cons form rest ih =>
      cases run : form.run w b with
      | error panic b₁ =>
          obtain rfl := form.run_atomic.of_error run
          have misfit : ¬form.Fits w := by
            intro fits
            obtain ⟨b₂, done, -⟩ := Form.run_patched unlimited.wf inUse fits
            exact absurd (run.symm.trans done) nofun
          have failed : runForms w (form :: rest) b₁ = .error panic b₁ := by
            rw [runForms]
            simp only [bind, EStateM.bind, run]
          rw [failed]
          exact Left.refl unlimited inUse fun _ _ stores => misfit stores.1
      | ok _ b₁ =>
          obtain ⟨fits, limit, spreads⟩ := Form.fits_of_run run
          obtain ⟨b₂, done, patched⟩ := Form.run_patched unlimited.wf inUse fits
          cases run.symm.trans done
          have goesOn : runForms w (form :: rest) b = runForms w rest b₁ := by
            rw [runForms]
            exact bind_run run
          rw [goesOn]
          exact (ih ⟨patched.wf, limit.trans unlimited.limit, spreads.trans unlimited.spreads⟩
            (inUse.later (patched.words_eq _).ge)).mono (fun _ _ left => left.cons fits patched)
              fun _ left => left.cons fits patched

/-! ## The last form -/

theorem Call.run_atomic (call : Call) (unlimited : Unlimited b) (value : Argument) :
    Atomic (call.run w value) b := by
  have wf := unlimited.wf
  cases call with
  | none => exact (Looks.pure _).atomic b
  | scalar a offset dflt =>
      cases value with
      | indexed view => exact (Looks.throw _).atomic b
      | item one =>
          cases one with
          | scalar value => exact a.set_atomic offset value (some dflt)
          | bytes view => exact (Looks.throw _).atomic b
          | other => exact (Looks.throw _).atomic b
  | text index => exact cfunSetText_atomic wf value
  | data index => exact cfunSetData_atomic wf value
  | initStruct index dwords pwords => exact (cfunInitStruct_atomic wf dwords pwords).before_pure _
  | initStructList index dwords pwords =>
      exact (cfunInitStructListOf_atomic wf value dwords pwords).before_pure _
  | listVoid index => exact cfunSetListVoid_atomic wf value
  | listText index => exact cfunSetListText_atomic unlimited value
  | listValues kind index => exact cfunSetList_atomic wf kind value

/-- However a body gives up, what its forms have stored is what is left. -/
theorem Arm.run_left {arm : Arm} {value : Argument} {panic : Panic} (unlimited : Unlimited b)
    (inUse : w.InUse b) (fails : arm.run w value b = .error panic b') :
    Left w arm.forms b b' := by
  have forms := runForms_left arm.forms unlimited inUse
  unfold Arm.run at fails
  rcases Atomic.bind_error fails with failed | ⟨_, b₁, done, failed⟩
  · rw [failed] at forms
    exact forms
  · have left := forms.of_ok done
    obtain rfl := (arm.call.run_atomic left.unlimited value).of_error failed
    exact left

/-! ## Failures -/

/-- A struct is the same when its bits are. -/
theorem sameWords_iff_bits : SameWords w b b' ↔
    ∀ i ∈ BitRun w.start ((w.dwords + w.pwords) * 64),
      bit (b'.seg w.body.seg).data i = bit (b.seg w.body.seg).data i := by
  unfold SameWords wordAt word BuilderPtr.start wordBit
  constructor
  · intro same i inside
    rw [mem_bitRun] at inside
    have words := same (i / 64 - w.body.word) (by omega)
    rw [show w.body.word + (i / 64 - w.body.word) = i / 64 by omega] at words
    have place : i % 64 < 8 * 8 := Nat.mod_lt i (by decide)
    have bits := congrArg (fun n => n.testBit (i % 64)) words
    rwa [testBit_loadLe 8 _ _ place, testBit_loadLe 8 _ _ place,
      show 8 * (8 * (i / 64)) + i % 64 = i by omega] at bits
  · intro same i hi
    exact loadLe_eq_of_bits fun k hk => same _ (mem_bitRun.mpr (by omega))

/-- Forms that fit store to the sections of their struct. -/
theorem Form.area_subset {form : Form} (fits : form.Fits w) :
    form.area w ⊆ BitRun w.start ((w.dwords + w.pwords) * 64) := by
  intro i inside
  cases form with
  | set a offset value dflt =>
      have room := fits.1
      simp only [Form.area, fieldRun, mem_bitRun] at inside ⊢
      omega
  | clearPointer index =>
      have room : index < w.pwords := fits
      simp only [Form.area, mem_bitRun, wordBit, BuilderPtr.start] at inside ⊢
      omega

theorem Stores.inside {forms : List Form} {i : Nat} {value : Bool} (stores : Stores w forms i value) :
    i ∈ BitRun w.start ((w.dwords + w.pwords) * 64) := by
  induction forms with
  | nil => exact stores.elim
  | cons form rest ih =>
      obtain ⟨fits, later | ⟨-, inside, -⟩⟩ := stores
      · exact ih later
      · exact Form.area_subset fits inside

/-- The discriminant of a node in a struct. -/
def Node.discriminant (node : Node) (w : BuilderPtr) (b : Builder) : Nat :=
  loadLe 2 (b.seg w.body.seg).data (8 * w.body.word + node.discriminantByte)

/-- Selecting a field changes nothing when the discriminant lies outside of the data
section, or has the field's tag already. -/
theorem held_select_iff {node : Node} {f : Field} (member : node.isUnionMember f) :
    Held w b (emitUnionSelect node f) ↔ w.dwords * 8 < node.discriminantByte + 2 ∨
      node.discriminant w b = f.discriminant.toNat := by
  have tagLt := f.discriminant.toNat_lt
  have inRange : IntType.u16.InRange f.discriminant.toNat := by
    simp only [IntType.InRange, IntType.signed, IntType.bytes, Bool.false_eq_true, if_false]
    omega
  have tag : IntType.u16.toBits f.discriminant.toNat = f.discriminant.toNat :=
    toBits_ofBits_int (t := .u16) tagLt
  have fits : Form.Fits w (.set .u16 node.discriminantByte (.integer f.discriminant.toNat) none) ↔
      node.discriminantByte + 2 ≤ w.dwords * 8 := by
    simp only [Form.Fits, Accessor.storage, Storage.step, Storage.width, IntType.bytes]
    refine ⟨fun fits => by omega, fun room => ⟨by omega, inRange, fun _ unset => by cases unset⟩⟩
  have stores (i : Nat) (value : Bool) : Stores w (emitUnionSelect node f) i value ↔
      node.discriminantByte + 2 ≤ w.dwords * 8 ∧
        i ∈ BitRun (8 * (8 * w.body.word + node.discriminantByte)) 16 ∧
          f.discriminant.toNat.testBit (i - 8 * (8 * w.body.word + node.discriminantByte)) = value := by
    have start : w.start + 8 * node.discriminantByte =
        8 * (8 * w.body.word + node.discriminantByte) := by
      unfold BuilderPtr.start wordBit
      omega
    rw [emitUnionSelect, if_pos member]
    simp only [Stores, fits, not_false_iff, implies_true, true_and, false_or, Form.area, Form.bits,
      fieldRun, fieldBits, Accessor.storage, Storage.step, Storage.width, IntType.bytes, start,
      Storage.toBits, tag, Storage.defaultBits, Option.elim, Nat.xor_zero]
  constructor
  · intro held
    by_cases room : node.discriminantByte + 2 ≤ w.dwords * 8
    · refine .inr (Nat.eq_of_testBit_eq fun k => ?_)
      by_cases hk : k < 16
      · have there := held (8 * (8 * w.body.word + node.discriminantByte) + k) _
          ((stores _ _).mpr ⟨room, mem_bitRun.mpr (by omega), rfl⟩)
        rw [Node.discriminant, testBit_loadLe 2 _ _ hk, there, Nat.add_sub_cancel_left]
      · have large : 2 ^ 16 ≤ 2 ^ k := Nat.pow_le_pow_right (by decide) (not_lt.mp hk)
        have small : node.discriminant w b < 2 ^ 16 := loadLe_lt 2 _ _
        rw [Nat.testBit_lt_two_pow (small.trans_le large),
          Nat.testBit_lt_two_pow (tagLt.trans_le large)]
    · exact .inl (not_le.mp room)
  · rintro same i value stored
    obtain ⟨room, inside, rfl⟩ := (stores i value).mp stored
    rw [mem_bitRun] at inside
    have same := same.resolve_left (not_lt.mpr room)
    have place : i - 8 * (8 * w.body.word + node.discriminantByte) < 8 * 2 := by omega
    rw [← same, Node.discriminant, testBit_loadLe 2 _ _ place]
    congr 1
    omega

/-- When a generated setter or initializer that fails changes nothing: for every
field and every argument, the data and pointer words of the struct are as they
were if and only if it held already what the forms before the failure store.  For
a slot of a union that is the tag, in a discriminant that lies in the struct. -/
theorem arm_failure_iff {nodes : List Node} {depth : Nat} {shapes : List ShapeNode} {node : Node}
    {f : Field} {detail : TypeDetail} {arm : Arm} {value : Argument} {panic : Panic}
    (emitted : emitArm nodes depth shapes node f detail = some arm) (unlimited : Unlimited b)
    (inUse : w.InUse b) (fails : arm.run w value b = .error panic b') :
    (SameWords w b b' ↔ Held w b arm.forms) ∧
      ∀ offset type dflt, f.which = .slot offset type dflt → node.isUnionMember f →
        (SameWords w b b' ↔ w.dwords * 8 < node.discriminantByte + 2 ∨
          node.discriminant w b = f.discriminant.toNat) := by
  have left := arm.run_left unlimited inUse fails
  have same : SameWords w b b' ↔ Held w b arm.forms := by
    rw [sameWords_iff_bits]
    refine ⟨fun same i value stores => ?_, fun held i _ => ?_⟩
    · rw [← same i stores.inside, left.stored i value stores]
    · by_cases none : ∀ value, ¬Stores w arm.forms i value
      · exact left.kept i none
      · obtain ⟨value, stores⟩ := not_forall_not.mp none
        rw [left.stored i value stores, held i value stores]
  refine ⟨same, fun offset type dflt isSlot member => ?_⟩
  have forms : arm.forms = emitUnionSelect node f := by
    rw [emitArm, isSlot] at emitted
    dsimp only at emitted
    split at emitted
    · cases emitted
      rfl
    · obtain ⟨call, -, rfl⟩ := Option.map_eq_some_iff.mp emitted
      rfl
  rw [same, forms, held_select_iff member]

open ScalarField (memberNode memberField memberStruct)

/-- The setter of the member, given a number that does not fit a byte, panics with the
member selected. -/
theorem failed_setter_selects : ∃ arm b',
    emitArm [] 0 [] memberNode memberField.field ⟨0, .unknown, 0⟩ = some arm ∧
      arm.run memberStruct (.item (.scalar (.integer 300))) (single (fun _ => 0) 2) =
        .error (.text "capnp/set-u8: UInt8 value out of range") b' ∧
      memberNode.discriminant memberStruct (single (fun _ => 0) 2) = 0 ∧
      memberNode.discriminant memberStruct b' = 1 ∧
      ¬SameWords memberStruct (single (fun _ => 0) 2) b' := by
  have computed : (match Arm.run memberStruct ⟨emitUnionSelect memberNode memberField.field,
        .scalar .u8 0 memberField.default⟩ (.item (.scalar (.integer 300))) (single (fun _ => 0) 2) with
      | .ok _ _ => false
      | .error panic b' => panic = .text "capnp/set-u8: UInt8 value out of range" ∧
          memberNode.discriminant memberStruct b' = 1 ∧ b'.wordAt 0 1 ≠ 0) = true := by
    decide +kernel
  split at computed
  · cases computed
  · next panic b' run =>
    simp only [decide_eq_true_eq] at computed
    obtain ⟨rfl, selected, changed⟩ := computed
    refine ⟨_, b', rfl, run, by decide +kernel, selected, fun same => changed ?_⟩
    have word := same 0 (by decide)
    rw [show memberStruct.body.seg = 0 by rfl, show memberStruct.body.word + 0 = 1 by rfl] at word
    rw [word]
    decide +kernel

theorem arm_failure_member : ∃ arm panic b',
    emitArm [] 0 [] memberNode memberField.field ⟨0, .unknown, 0⟩ = some arm ∧
      arm.run memberStruct (.item (.scalar (.integer 300))) (single (fun _ => 0) 2) =
        .error panic b' ∧
      (SameWords memberStruct (single (fun _ => 0) 2) b' ↔
        memberStruct.dwords * 8 < memberNode.discriminantByte + 2 ∨
          memberNode.discriminant memberStruct (single (fun _ => 0) 2) =
            memberField.field.discriminant.toNat) := by
  have wf : (single (fun _ => 0) 2).Wf := wf_single (by decide) fun _ _ => rfl
  have inUse : memberStruct.InUse (single (fun _ => 0) 2) := by constructor <;> decide
  have computed : (match Arm.run memberStruct ⟨emitUnionSelect memberNode memberField.field,
        .scalar .u8 0 memberField.default⟩ (.item (.scalar (.integer 300))) (single (fun _ => 0) 2) with
      | .ok _ _ => false
      | .error _ _ => true) = true := by
    decide +kernel
  split at computed
  · cases computed
  · next panic b' run =>
    have emitted : emitArm [] 0 [] memberNode memberField.field ⟨0, .unknown, 0⟩ =
      some ⟨emitUnionSelect memberNode memberField.field, .scalar .u8 0 memberField.default⟩ := rfl
    exact ⟨_, panic, b', emitted, run,
      (arm_failure_iff emitted ⟨wf, rfl, rfl⟩ inUse run).2 0 .uint8 _ rfl (by decide)⟩

end Codegen

end CapnpJanet
