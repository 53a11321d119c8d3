import CapnpJanet.Builder.Ceiling
import CapnpJanet.Codegen.Accessors
import CapnpJanet.Janet.Lists
import CapnpJanet.Janet.Pointers

/-!
# Building a message from a list of fields

`capnp/build-message` of `janet_mod.c`: a message with one struct, from the sizes of
its sections and a list of fields `[kind offset value]`.  The other functions of the
module check an offset against the section of the struct that they write to.  This
one hands it to the builder, which knows of no sections and checks it against the end
of the segment.

A Janet number is a double, given by its bits.
-/

namespace CapnpJanet

open ByteMemory Builder Codegen Outcome

namespace Janet

/-! ## Janet's values -/

/-- A value of Janet, as far as the function tells values apart.  A keyword is given by
its characters, a tuple or an array by its items. -/
inductive JanetValue
  | nil
  | boolean (value : Bool)
  | number (bits : UInt64)
  | keyword (name : List Char)
  | string (view : ByteView)
  | boxed (value : Int)
  | indexed (items : List JanetValue)
  | other

/-- The rational number that a double is, unless it is infinite or not a number. -/
def doubleValue (bits : UInt64) : Option Rat :=
  let exponent := bits.toNat / 2 ^ 52 % 2 ^ 11
  let fraction := bits.toNat % 2 ^ 52
  if exponent = 2 ^ 11 - 1 then none
  else
    let mantissa := if exponent = 0 then fraction else 2 ^ 52 + fraction
    let sign : Int := if bits.toNat < 2 ^ 63 then 1 else -1
    let scale := max exponent 1
    some (mkRat (sign * (mantissa * 2 ^ (scale - 1075) : Nat)) (2 ^ (1075 - scale)))

namespace JanetValue

/-- `janet_truthy` -/
def truthy : JanetValue → Bool
  | nil | boolean false => false
  | _ => true

/-- The rational number that a value is. -/
def rational : JanetValue → Option Rat
  | number bits => doubleValue bits
  | _ => none

/-- The integer that a value is. -/
def integer (value : JanetValue) : Option Int := do
  let q ← value.rational
  if q.den = 1 then some q.num else none

end JanetValue

/-- What is left to Janet and to the machine. -/
structure Host where
  /-- What `(int32_t)` makes of a value that is no number, or one that does not fit. -/
  int32 : JanetValue → Int32
  /-- `janet_getuinteger64`, of a value that it takes -/
  uint64 : JanetValue → Option UInt64

/-- `janet_unwrap_integer`, a conversion without a check. -/
def Host.unwrapInteger (host : Host) (value : JanetValue) : Int :=
  match value.rational with
  | none => (host.int32 value).toInt
  | some q => keyInt32 (fun _ => (host.int32 value).toInt) q

/-! ## Fields -/

/-- The kinds of fields. -/
inductive FieldKind
  | u16 | u32 | u64 | f64 | bool | text
deriving DecidableEq, Repr

/-- The chain of `strcmp`, for which a keyword ends at its first NUL. -/
def fieldKind (name : List Char) : Except Panic FieldKind :=
  let name := name.takeWhile (· ≠ Char.ofNat 0)
  if name = ['u', '1', '6'] then .ok .u16
  else if name = ['u', '3', '2'] then .ok .u32
  else if name = ['u', '6', '4'] then .ok .u64
  else if name = ['f', '6', '4'] then .ok .f64
  else if name = ['b', 'o', 'o', 'l'] then .ok .bool
  else if name = ['t', 'e', 'x', 't'] then .ok .text
  else .error (.text ("capnp/build-message: unknown field kind " ++ String.ofList name))

/-- A field whose kind and offset have been read. -/
structure ListedField where
  kind : FieldKind
  off : Nat
  value : JanetValue

/-- The checks of a field, up to the choice of its setter. -/
def readField (host : Host) (i : Nat) (item : JanetValue) : Except Panic ListedField :=
  match item with
  | .indexed (.keyword name :: .number bits :: value :: _) =>
      let off := host.unwrapInteger (.number bits)
      if off < 0 then .error (.text "capnp/build-message: negative offset")
      else
        match fieldKind name with
        | .error panic => .error panic
        | .ok kind => .ok ⟨kind, off.toNat, value⟩
  | .indexed (.keyword _ :: _ :: _ :: _) =>
      .error (.text "capnp/build-message: field offset must be number")
  | .indexed (_ :: _ :: _ :: _) => .error (.text "capnp/build-message: field kind must be keyword")
  | .indexed _ =>
      .error (.text ("capnp/build-message: field " ++ toString i ++ " needs [kind off val]"))
  | _ => .error (.text ("capnp/build-message: field " ++ toString i ++ " must be indexed"))

/-- `if (x) janet_panic(message);` -/
def CfunM.orPanic (message : String) (x : BuildM Unit) : CfunM Unit := fun b =>
  match x b with
  | .ok () b => .ok () b
  | .error _ b => .error (.text message) b

open CfunM

/-- The setter of a field. -/
def setListed (host : Host) (dwords : Nat) (body : BPtr) (f : ListedField) : CfunM Unit :=
  match f.kind with
  | .u16 =>
      orPanic "capnp/build-message: set-u16 failed"
        (Builder.setU16 body f.off (IntType.u16.toBits (host.unwrapInteger f.value)))
  | .u32 =>
      orPanic "capnp/build-message: set-u32 failed"
        (Builder.setU32 body f.off (IntType.u32.toBits (host.unwrapInteger f.value)))
  | .u64 =>
      match host.uint64 f.value with
      | none => throw (.argument 0)
      | some value =>
          orPanic "capnp/build-message: set-u64 failed" (Builder.setU64 body f.off value.toNat)
  | .f64 =>
      match f.value with
      | .number bits =>
          orPanic "capnp/build-message: set-f64 failed" (Builder.setF64 body f.off bits.toNat)
      | _ => throw (.text "capnp/build-message: f64 value must be number")
  | .bool =>
      orPanic "capnp/build-message: set-bool failed" (Builder.setBool body f.off f.value.truthy)
  | .text =>
      match f.value with
      | .string view =>
          orPanic "capnp/build-message: set-text failed"
            (Builder.setText body dwords (f.off % 2 ^ 16) view.bytes)
      | _ => throw (.text "capnp/build-message: text value must be string")

/-- The loop over the fields, from number `i` on. -/
def setFields (host : Host) (dwords : Nat) (body : BPtr) : (i : Nat) → List JanetValue → CfunM Unit
  | _, [] => pure ()
  | i, item :: rest => do
      let f ← convert (readField host i item)
      setListed host dwords body f
      setFields host dwords body (i + 1) rest

/-- The root and its struct. -/
def startMessage (dwords pwords : Nat) : BuildM BPtr := do
  let root ← Builder.root
  Builder.struct root dwords pwords

/-- `janet_buffer` and `janet_buffer_push_bytes`, with the length as an `int32_t`.  Neither
returns for a negative length. -/
def pushedBuffer (flat : List UInt8) : Option (List UInt8) :=
  if toInt32 flat.length < 0 then none else some (flat.take (toInt32 flat.length).toNat)

/-- `cfun_build_message`: the buffer that it returns, unless it panics or does not
return.  The fields are what `janet_getindexed` gives. -/
def cfunBuildMessage (host : Host) (dwords pwords : Int) (fields : List JanetValue) :
    Except Panic (Option (List UInt8)) :=
  if ¬IntType.i32.InRange dwords then .error (.argument 0)
  else if ¬IntType.i32.InRange pwords then .error (.argument 1)
  else if dwords < 0 ∨ dwords > 2 ^ 16 - 1 ∨ pwords < 0 ∨ pwords > 2 ^ 16 - 1 then
    .error (.text "capnp/build-message: bad dwords/pwords")
  else
    match startMessage dwords.toNat pwords.toNat Builder.init with
    | .error _ _ => .error (.text "capnp/build-message: struct alloc failed")
    | .ok body b =>
        match setFields host dwords.toNat body 0 fields b with
        | .error panic _ => .error panic
        | .ok () b =>
            match b.serialize with
            | .error _ => .error (.text "capnp/build-message: serialize failed")
            | .ok flat => .ok (pushedBuffer flat)

/-! ## One field -/

/-- The accessors of a scalar field. -/
def FieldKind.accessor : FieldKind → Option Accessor
  | .u16 => some .u16
  | .u32 => some .u32
  | .u64 => some .u64
  | .f64 => some .f64
  | .bool => some .bool
  | .text => none

namespace ListedField

/-- The value is one that the setter takes. -/
def Takes (host : Host) (f : ListedField) : Prop :=
  match f.kind with
  | .u16 | .u32 | .bool => True
  | .u64 => ∃ value, host.uint64 f.value = some value
  | .f64 => ∃ bits, f.value = .number bits
  | .text => ∃ view, f.value = .string view

/-- The field lies before the end of the segment, which is all that the builder checks. -/
def InSegment (b : Builder) (dwords : Nat) (body : BPtr) (f : ListedField) : Prop :=
  match f.kind with
  | .u16 => b.bodyOk body (body.word * 8 + f.off + 2)
  | .u32 => b.bodyOk body (body.word * 8 + f.off + 4)
  | .u64 | .f64 => b.bodyOk body (body.word * 8 + f.off + 8)
  | .bool => b.bodyOk body (body.word * 8 + f.off / 8 + 1)
  | .text => b.Used body.seg (body.word + dwords + f.off % 2 ^ 16)

/-- The field lies in its section. -/
def Inside (dwords pwords : Nat) (f : ListedField) : Prop :=
  match f.kind with
  | .u16 => f.off + 2 ≤ 8 * dwords
  | .u32 => f.off + 4 ≤ 8 * dwords
  | .u64 | .f64 => f.off + 8 ≤ 8 * dwords
  | .bool => f.off < 64 * dwords
  | .text => f.off < pwords

/-- The bits of a field, counted from the start of the struct. -/
def area (dwords : Nat) (f : ListedField) : Set Nat :=
  match f.kind with
  | .u16 => BitRun (8 * f.off) 16
  | .u32 => BitRun (8 * f.off) 32
  | .u64 | .f64 => BitRun (8 * f.off) 64
  | .bool => BitRun f.off 1
  | .text => BitRun (64 * (dwords + f.off)) 64

/-- The bits that a scalar field is set to. -/
def stored (host : Host) (f : ListedField) : Nat :=
  match f.kind, f.value with
  | .u16, value => IntType.u16.toBits (host.unwrapInteger value)
  | .u32, value => IntType.u32.toBits (host.unwrapInteger value)
  | .u64, value => (host.uint64 value).elim 0 UInt64.toNat
  | .f64, .number bits => bits.toNat
  | .bool, value => value.truthy.toNat
  | _, _ => 0

end ListedField

section
variable {host : Host} {dwords : Nat} {body : BPtr} {f : ListedField} {b b' : Builder}

theorem orPanic_eq_ok {message : String} {x : BuildM Unit} :
    orPanic message x b = .ok () b' ↔ x b = .ok () b' := by
  unfold orPanic
  cases x b <;> simp

theorem setScalar_ok_iff {width byteOffset value : Nat} :
    (∃ b', setScalar width body byteOffset value b = .ok () b') ↔
      b.bodyOk body (body.word * 8 + byteOffset + width) := by
  unfold setScalar
  dsimp only
  split
  · next outside => simpa using outside
  · next inside => simpa using inside

theorem setBool_ok_iff {bitOffset : Nat} {value : Bool} :
    (∃ b', setBool body bitOffset value b = .ok () b') ↔
      b.bodyOk body (body.word * 8 + bitOffset / 8 + 1) := by
  unfold setBool
  dsimp only
  split
  · next outside => simpa using outside
  · next inside => simpa using inside

/-- A text that Janet can hold is set wherever its slot is in use. -/
theorem setText_ok_iff (unlimited : Unlimited b) {ptrIndex : Nat} {text : List UInt8}
    (short : text.length < 2 ^ 31) :
    (∃ b', setText body dwords ptrIndex text b = .ok () b') ↔
      b.Used body.seg (body.word + dwords + ptrIndex) := by
  constructor
  · rintro ⟨b', run⟩
    exact (withSlot_ok run).1
  · intro inUse
    obtain ⟨b', run⟩ := unlimited.writeTextAt_total body.seg (body.word + dwords + ptrIndex) short
    refine ⟨b', ?_⟩
    unfold Used at inUse
    unfold setText withSlot slot
    dsimp only
    rw [if_neg (not_le.mpr inUse)]
    exact run

theorem throw_ne_ok {panic : Panic} : (throw panic : CfunM Unit) b ≠ .ok () b' := by
  rintro ⟨⟩

/-- A field is set exactly if its value is one of its kind and it lies before the end
of the segment. -/
theorem setListed_ok_iff (unlimited : Unlimited b) :
    (∃ b', setListed host dwords body f b = .ok () b') ↔ f.Takes host ∧ f.InSegment b dwords body := by
  obtain ⟨kind, off, value⟩ := f
  unfold setListed ListedField.Takes ListedField.InSegment
  cases kind with
  | u16 => simpa only [orPanic_eq_ok, true_and, setU16] using setScalar_ok_iff
  | u32 => simpa only [orPanic_eq_ok, true_and, setU32] using setScalar_ok_iff
  | bool => simpa only [orPanic_eq_ok, true_and] using setBool_ok_iff
  | u64 =>
      dsimp only
      cases given : host.uint64 value with
      | none => simp [throw_ne_ok]
      | some n =>
          have set : (∃ b', setU64 body off n.toNat b = .ok () b') ↔ _ := setScalar_ok_iff
          simpa [orPanic_eq_ok] using set
  | f64 =>
      cases value with
      | number bits =>
          have set : (∃ b', setF64 body off bits.toNat b = .ok () b') ↔ _ := setScalar_ok_iff
          simpa [orPanic_eq_ok] using set
      | _ => simp [throw_ne_ok]
  | text =>
      cases value with
      | string view =>
          have set : (∃ b', setText body dwords (off % 2 ^ 16) view.bytes b = .ok () b') ↔ _ :=
            setText_ok_iff unlimited view.short
          simpa [orPanic_eq_ok] using set
      | _ => simp [throw_ne_ok]

theorem ListedField.inside_scalar {pwords : Nat} {a : Accessor} (scalar : f.kind.accessor = some a) :
    f.Inside dwords pwords ↔ a.storage.step * f.off + a.storage.width ≤ dwords * 64 := by
  unfold Inside
  cases kind : f.kind <;> rw [kind] at scalar <;> cases scalar <;>
    simp only [Accessor.storage, Storage.step, Storage.width, IntType.bytes] <;> omega

theorem ListedField.area_scalar {a : Accessor} (scalar : f.kind.accessor = some a) :
    f.area dwords = BitRun (a.storage.step * f.off) a.storage.width := by
  unfold area
  cases kind : f.kind <;> rw [kind] at scalar <;> cases scalar <;>
    simp [Accessor.storage, Storage.step, Storage.width, IntType.bytes]

theorem setScalar_sets (wf : b.Wf) {width byteOffset value n : Nat} (some : width ≠ 0)
    (inside : byteOffset + width ≤ 8 * n)
    (run : setScalar width body byteOffset value b = .ok () b') :
    Patched body.seg (BitRun (wordBit body.word + 8 * byteOffset) (8 * width))
        (fun i => value.testBit (i - (wordBit body.word + 8 * byteOffset))) b b' ∧
      Writes (bodyBytes body n) b b' := by
  have room := ((bodyOk_iff _ _).mp (setScalar_ok_iff.mp ⟨b', run⟩)).2
  obtain ⟨b₁, again, patched⟩ := setScalar_patched wf value some room
  rw [run] at again
  cases again
  refine ⟨patched, ((setScalar_confined wf width body byteOffset value).of_ok run).mono ?_⟩
  rintro s i - ⟨rfl, low, high⟩
  exact ⟨rfl, by omega, by omega⟩

theorem setBool_sets (wf : b.Wf) {bitOffset n : Nat} {value : Bool} (inside : bitOffset < 64 * n)
    (run : setBool body bitOffset value b = .ok () b') :
    Patched body.seg (BitRun (wordBit body.word + bitOffset) 1) (fun _ => value) b b' ∧
      Writes (bodyBytes body n) b b' := by
  have room := ((bodyOk_iff _ _).mp (setBool_ok_iff.mp ⟨b', run⟩)).2
  obtain ⟨b₁, again, patched⟩ := setBool_patched wf value room
  rw [run] at again
  cases again
  refine ⟨patched, ((setBool_confined wf body bitOffset value).of_ok run).mono ?_⟩
  rintro s i - ⟨rfl, low, high⟩
  exact ⟨rfl, by omega, by omega⟩

/-- A scalar field in its section replaces the bits of its field, and no byte behind
the data section. -/
theorem setListed_scalar {w : BuilderPtr} (wf : b.Wf) {a : Accessor}
    (scalar : f.kind.accessor = some a) (inside : f.Inside w.dwords w.pwords)
    (run : setListed host w.dwords w.body f b = .ok () b') :
    Patched w.body.seg (fieldRun w a.storage f.off) (fieldBits w a.storage f.off (f.stored host)) b b' ∧
      Writes (bodyBytes w.body w.dwords) b b' := by
  obtain ⟨kind, off, value⟩ := f
  unfold setListed at run
  unfold ListedField.Inside at inside
  unfold ListedField.stored
  cases kind with
  | u16 =>
      cases scalar
      exact setScalar_sets wf (by decide) inside (orPanic_eq_ok.mp run)
  | u32 =>
      cases scalar
      exact setScalar_sets wf (by decide) inside (orPanic_eq_ok.mp run)
  | u64 =>
      cases scalar
      dsimp only at run ⊢
      cases given : host.uint64 value with
      | none =>
          rw [given] at run
          cases run
      | some n =>
          rw [given] at run
          exact setScalar_sets wf (by decide) inside (orPanic_eq_ok.mp run)
  | f64 =>
      cases scalar
      cases value with
      | number bits => exact setScalar_sets wf (by decide) inside (orPanic_eq_ok.mp run)
      | _ => cases run
  | bool =>
      cases scalar
      obtain ⟨patched, writes⟩ := setBool_sets wf inside (orPanic_eq_ok.mp run)
      have start : fieldRun w Accessor.bool.storage off = BitRun (wordBit w.body.word + off) 1 := by
        simp [fieldRun, Accessor.storage, Storage.step, Storage.width, BuilderPtr.start]
      refine ⟨patched.congr start fun i member => ?_, writes⟩
      rw [start] at member
      have here : i - (w.start + Storage.bool.step * off) = 0 := by
        have within := mem_bitRun.mp member
        simp only [BuilderPtr.start, Storage.step]
        omega
      simp only [fieldBits, Accessor.storage, here]
      cases value.truthy <;> rfl
  | text => cases scalar

/-- A text that is set is a string. -/
theorem setListed_text (text : f.kind = .text) (run : setListed host dwords body f b = .ok () b') :
    ∃ view, f.value = .string view ∧ setText body dwords (f.off % 2 ^ 16) view.bytes b = .ok () b' := by
  obtain ⟨kind, off, value⟩ := f
  cases text
  cases value with
  | string view => exact ⟨view, rfl, orPanic_eq_ok.mp run⟩
  | _ => cases run

/-- What sets a field. -/
theorem setListed_cases (run : setListed host dwords body f b = .ok () b') :
    (∃ width byteOffset value, setScalar width body byteOffset value b = .ok () b') ∨
    (∃ bitOffset value, setBool body bitOffset value b = .ok () b') ∨
      ∃ ptrIndex text, setText body dwords ptrIndex text b = .ok () b' := by
  obtain ⟨kind, off, value⟩ := f
  cases kind with
  | u16 => exact .inl ⟨_, _, _, orPanic_eq_ok.mp run⟩
  | u32 => exact .inl ⟨_, _, _, orPanic_eq_ok.mp run⟩
  | u64 =>
      unfold setListed at run
      dsimp only at run
      cases given : host.uint64 value with
      | none =>
          rw [given] at run
          cases run
      | some n =>
          rw [given] at run
          exact .inl ⟨_, _, _, orPanic_eq_ok.mp run⟩
  | f64 =>
      cases value with
      | number bits => exact .inl ⟨_, _, _, orPanic_eq_ok.mp run⟩
      | _ => cases run
  | bool => exact .inr (.inl ⟨_, _, orPanic_eq_ok.mp run⟩)
  | text =>
      obtain ⟨view, -, set⟩ := setListed_text rfl run
      exact .inr (.inr ⟨_, _, set⟩)

theorem setListed_ceiling (ceiling : b.Ceiling)
    (run : setListed host dwords body f b = .ok () b') : b'.Ceiling := by
  rcases setListed_cases run with ⟨width, byteOffset, value, set⟩ | ⟨bitOffset, value, set⟩ |
    ⟨ptrIndex, text, set⟩
  · exact ceiling.setScalar set
  · exact ceiling.setBool set
  · exact ceiling.writeListBody (withSlot_ok set).2

/-- Fields outside of their sections do not disturb the arena itself. -/
theorem setListed_unlimited (unlimited : Unlimited b)
    (run : setListed host dwords body f b = .ok () b') : Unlimited b' := by
  rcases setListed_cases run with ⟨width, byteOffset, value, set⟩ | ⟨bitOffset, value, set⟩ |
    ⟨ptrIndex, text, set⟩
  · exact ((setScalar_confined unlimited.wf _ _ _ _).of_ok set).unlimited unlimited
  · exact ((setBool_confined unlimited.wf _ _ _).of_ok set).unlimited unlimited
  · exact ((setText_confined unlimited.wf _ _ _ _).of_ok set).unlimited unlimited

end

end Janet

end CapnpJanet
