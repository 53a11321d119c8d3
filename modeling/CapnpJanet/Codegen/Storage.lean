import CapnpJanet.Builder.Patches
import CapnpJanet.Codegen.Emit
import CapnpJanet.Message.Landing

/-!
# How fields are stored

A value of a scalar type has bits, and the wire holds them next to each other,
combined with the bits of the field's default.  Each setter replaces the bits of
its field, and each getter reads them from wherever a reader finds the struct.
-/

namespace CapnpJanet

open ByteMemory Janet Builder

namespace Janet

/-- The body of a struct lies in words that are in use. -/
structure BuilderPtr.InUse (w : BuilderPtr) (b : Builder) : Prop where
  dwordsLt : w.dwords < 2 ^ 16
  pwordsLt : w.pwords < 2 ^ 16
  inside : w.body.word + w.dwords + w.pwords ≤ (b.seg w.body.seg).words

/-- The first bit of a struct. -/
def BuilderPtr.start (w : BuilderPtr) : Nat := wordBit w.body.word

theorem BuilderPtr.InUse.later {w : BuilderPtr} {b b' : Builder} (inUse : w.InUse b)
    (grows : (b.seg w.body.seg).words ≤ (b'.seg w.body.seg).words) : w.InUse b' :=
  ⟨inUse.dwordsLt, inUse.pwordsLt, inUse.inside.trans grows⟩

end Janet

/-- A reader's handle has its data section where a builder's handle has it. -/
structure Ptr.Views (p : Ptr) (w : BuilderPtr) : Prop where
  kind : p.kind = .struct
  seg : p.seg = w.body.seg
  start : dataBytes p = w.body.word * 8
  bits : dataBitCount p = w.dwords * 64

/-- Pointers to a struct name a handle that views it. -/
theorem views_structAt (w : BuilderPtr) :
    (Message.structAt w.body.seg w.body.word w.dwords w.pwords).Views w := by
  refine ⟨rfl, rfl, ?_, ?_⟩
  · simp [dataBytes, Message.structAt, Ptr.zero]
  · simp [dataBitCount, Message.structAt, Ptr.zero]

namespace Codegen

/-! ## Values and their bits -/

/-- The kinds of storage: a bit, an integer, and a float of so many bytes. -/
inductive Storage
  | bool
  | int (t : IntType)
  | real (bytes : Nat)

namespace Storage

/-- The number of bits. -/
def width : Storage → Nat
  | bool => 1
  | int t => 8 * t.bytes
  | real bytes => 8 * bytes

/-- How many bits the offset of an accessor counts in. -/
def step : Storage → Nat
  | bool => 1
  | int _ | real _ => 8

/-- The values that can be stored. -/
def Holds : Storage → Value → Prop
  | bool, .boolean _ => True
  | int t, .integer i => t.InRange i
  | real bytes, .real bits => bits < 256 ^ bytes
  | _, _ => False

/-- The bits of a value. -/
def toBits (s : Storage) : Value → Nat
  | .boolean b => b.toNat
  | .integer i =>
      match s with
      | int t => t.toBits i
      | _ => 0
  | .real bits => bits

/-- The value with some bits. -/
def ofBits : Storage → Nat → Value
  | bool, bits => .boolean (bits.testBit 0)
  | int t, bits => .integer (t.ofBits bits)
  | real _, bits => .real bits

/-- The bits that a getter of the module loads. -/
def load (s : Storage) (m : Message) (p : Ptr) (offset : Nat) : Nat :=
  match s with
  | bool => (m.getBool p offset false).toNat
  | int t => m.getScalar t.bytes p offset 0
  | real bytes => m.getScalar bytes p offset 0

end Storage

theorem toBits_lt_of_int (t : IntType) (i : Int) : t.toBits i < 2 ^ (8 * t.bytes) := by
  have positive : (0 : Int) < 2 ^ (8 * t.bytes) := by positivity
  have below := Int.emod_lt_of_pos i positive
  have above := Int.emod_nonneg i positive.ne'
  unfold IntType.toBits
  rw [← Int.ofNat_lt, Int.toNat_of_nonneg above]
  exact_mod_cast below

/-- The integers of a type are given by their bits. -/
theorem ofBits_toBits_int {t : IntType} {i : Int} (inRange : t.InRange i) :
    t.ofBits (t.toBits i) = i := by
  cases t <;>
    simp only [IntType.InRange, IntType.ofBits, IntType.toBits, IntType.signed, IntType.bytes,
      if_true, true_and, Bool.false_eq_true, if_false, false_and] at inRange ⊢ <;>
    norm_num at inRange ⊢ <;>
    omega

theorem inRange_ofBits {t : IntType} {bits : Nat} (small : bits < 2 ^ (8 * t.bytes)) :
    t.InRange (t.ofBits bits) := by
  cases t <;>
    simp only [IntType.InRange, IntType.ofBits, IntType.signed, IntType.bytes, if_true, true_and,
      Bool.false_eq_true, if_false, false_and] at small ⊢ <;>
    norm_num at small ⊢ <;>
    omega

theorem toBits_ofBits_int {t : IntType} {bits : Nat} (small : bits < 2 ^ (8 * t.bytes)) :
    t.toBits (t.ofBits bits) = bits := by
  cases t <;>
    simp only [IntType.ofBits, IntType.toBits, IntType.signed, IntType.bytes, true_and,
      Bool.false_eq_true, if_false, false_and] at small ⊢ <;>
    norm_num at small ⊢ <;>
    omega

namespace Storage

variable {s : Storage} {value : Value}

theorem holds_bool : bool.Holds value ↔ ∃ b, value = .boolean b := by
  cases value <;> simp [Holds]

theorem holds_int {t : IntType} : (int t).Holds value ↔ ∃ i, value = .integer i ∧ t.InRange i := by
  cases value <;> simp [Holds]

theorem holds_real {bytes : Nat} :
    (real bytes).Holds value ↔ ∃ bits, value = .real bits ∧ bits < 256 ^ bytes := by
  cases value <;> simp [Holds]

theorem toBits_lt (holds : s.Holds value) : s.toBits value < 2 ^ s.width := by
  cases s with
  | bool =>
      obtain ⟨b, rfl⟩ := holds_bool.mp holds
      exact Bool.toNat_lt b
  | int t =>
      obtain ⟨i, rfl, -⟩ := holds_int.mp holds
      exact toBits_lt_of_int t i
  | real bytes =>
      obtain ⟨bits, rfl, below⟩ := holds_real.mp holds
      rwa [show (256 : Nat) = 2 ^ 8 by norm_num, ← pow_mul] at below

/-- A value is given by its bits. -/
theorem ofBits_toBits (holds : s.Holds value) : s.ofBits (s.toBits value) = value := by
  cases s with
  | bool =>
      obtain ⟨b, rfl⟩ := holds_bool.mp holds
      cases b <;> rfl
  | int t =>
      obtain ⟨i, rfl, inRange⟩ := holds_int.mp holds
      exact congrArg Value.integer (ofBits_toBits_int inRange)
  | real bytes =>
      obtain ⟨bits, rfl, -⟩ := holds_real.mp holds
      rfl

end Storage

/-- How an accessor stores its values. -/
def Accessor.storage : Accessor → Storage
  | bool => .bool
  | i8 => .int .i8
  | u8 => .int .u8
  | i16 => .int .i16
  | u16 => .int .u16
  | i32 => .int .i32
  | u32 => .int .u32
  | i64 => .int .i64
  | u64 => .int .u64
  | f32 => .real 4
  | f64 => .real 8

/-! ## What the setters do -/

/-- The bits of an optional default. -/
def Storage.defaultBits (s : Storage) (dflt : Option Value) : Nat := dflt.elim 0 s.toBits

/-- A default can be stored if it is there. -/
def Storage.HoldsDefault (s : Storage) (dflt : Option Value) : Prop := ∀ v ∈ dflt, s.Holds v

theorem checkBuilderResult_eq_ok {α : Type} {caller : String} {x : BuildM α} {b b' : Builder}
    {a : α} : CfunM.checkBuilderResult caller x b = .ok a b' ↔ x b = .ok a b' := by
  unfold CfunM.checkBuilderResult
  cases x b <;> simp

section
variable {w : BuilderPtr} {b : Builder} {offset : Nat}

theorem requireDataRange_ok {width : Nat} (inside : offset + width ≤ w.dwords * 8)
    (caller : String) : requireDataRange w offset width caller b = .ok () b := by
  unfold requireDataRange
  rw [if_neg (by omega)]
  rfl

theorem requireBoolRange_ok (inside : offset < w.dwords * 64) (caller : String) :
    requireBoolRange w offset caller b = .ok () b := by
  unfold requireBoolRange
  rw [if_neg (by omega)]
  rfl

theorem inRange_u32 (small : offset < 2 ^ 32) : IntType.u32.InRange offset := by
  simp only [IntType.InRange, IntType.signed, IntType.bytes, Bool.false_eq_true, if_false]
  omega

/-- An integer setter whose arguments are in range. -/
theorem setInteger_eq {t : IntType} {caller : String} {getArg : Nat → Value → Except Panic Int}
    (accepts : ∀ n i, t.InRange i → getArg n (.integer i) = .ok i) (small : offset < 2 ^ 32)
    {value : Value} (holds : (Storage.int t).Holds value) {dflt : Option Value}
    (default : (Storage.int t).HoldsDefault dflt) (inside : offset + t.bytes ≤ w.dwords * 8) :
    setInteger t caller getArg w offset value dflt b =
      CfunM.checkBuilderResult caller (Builder.setScalar t.bytes w.body offset
        ((Storage.int t).toBits value ^^^ (Storage.int t).defaultBits dflt)) b := by
  obtain ⟨i, rfl, inRange⟩ := Storage.holds_int.mp holds
  have converted : ∃ d, optional getArg 3 0 dflt = .ok d ∧
      t.toBits d = (Storage.int t).defaultBits dflt := by
    cases dflt with
    | none => exact ⟨0, rfl, by simp [IntType.toBits, Storage.defaultBits]⟩
    | some v =>
        obtain ⟨d, rfl, dRange⟩ := Storage.holds_int.mp (default v rfl)
        exact ⟨d, accepts 3 d dRange, rfl⟩
  obtain ⟨d, taken, bits⟩ := converted
  simp only [setInteger, inRange_u32 small, not_true, if_false, accepts 2 i inRange, taken,
    CfunM.convert, bind, EStateM.bind, requireDataRange_ok inside, bits]
  rfl

/-- A float setter whose arguments are in range. -/
theorem setReal_eq {bytes : Nat} {caller : String} (small : offset < 2 ^ 32)
    {value : Value} (holds : (Storage.real bytes).Holds value) {dflt : Option Value}
    (default : (Storage.real bytes).HoldsDefault dflt) (inside : offset + bytes ≤ w.dwords * 8) :
    setReal bytes caller w offset value dflt b =
      CfunM.checkBuilderResult caller (Builder.setScalar bytes w.body offset
        ((Storage.real bytes).toBits value ^^^ (Storage.real bytes).defaultBits dflt)) b := by
  obtain ⟨bits, rfl, below⟩ := Storage.holds_real.mp holds
  have converted : optional (getReal bytes) 3 0 dflt =
      .ok ((Storage.real bytes).defaultBits dflt) := by
    cases dflt with
    | none => rfl
    | some v =>
        obtain ⟨d, rfl, dBelow⟩ := Storage.holds_real.mp (default v rfl)
        exact if_pos dBelow
  have taken : getReal bytes 2 (.real bits) = .ok bits := if_pos below
  simp only [setReal, inRange_u32 small, not_true, if_false, taken, converted, CfunM.convert, bind,
    EStateM.bind, requireDataRange_ok inside]
  rfl

/-- The bool setter, when its arguments are in range. -/
theorem cfunSetBool_eq (small : offset < 2 ^ 32) {value : Value} (holds : Storage.bool.Holds value)
    {dflt : Option Value} (default : Storage.bool.HoldsDefault dflt)
    (inside : offset < w.dwords * 64) :
    cfunSetBool w offset value dflt b =
      CfunM.checkBuilderResult "capnp/set-bool" (Builder.setBool w.body offset
        ((Storage.bool.toBits value ^^^ Storage.bool.defaultBits dflt).testBit 0)) b := by
  obtain ⟨v, rfl⟩ := Storage.holds_bool.mp holds
  have converted : ∃ d, optional getBoolean 3 false dflt = .ok d ∧
      d.toNat = Storage.bool.defaultBits dflt := by
    cases dflt with
    | none => exact ⟨false, rfl, rfl⟩
    | some v =>
        obtain ⟨d, rfl⟩ := Storage.holds_bool.mp (default v rfl)
        exact ⟨d, rfl, rfl⟩
  obtain ⟨d, taken, bits⟩ := converted
  have sum : (Storage.bool.toBits (.boolean v) ^^^ d.toNat).testBit 0 = (v != d) := by
    cases v <;> cases d <;> rfl
  simp only [cfunSetBool, inRange_u32 small, not_true, if_false, getBoolean, taken, CfunM.convert,
    bind, EStateM.bind, requireBoolRange_ok inside, ← bits, sum]

theorem getInteger_ok {t : IntType} (n : Nat) {i : Int} (inRange : t.InRange i) :
    getInteger t n (.integer i) = .ok i := if_pos inRange

/-- A number of a narrow type is converted as an integer of 32 bits first. -/
theorem getByteArg_ok {t : IntType} (narrow : t.bytes = 1) (typeName caller : String) (n : Nat)
    {i : Int} (inRange : t.InRange i) : getByteArg t typeName caller n (.integer i) = .ok i := by
  have wide : IntType.i32.InRange i := by
    cases t <;> simp [IntType.InRange, IntType.signed, IntType.bytes] at narrow inRange ⊢ <;> omega
  simp only [getByteArg, getInteger_ok n wide, bind, Except.bind, if_pos inRange]

end

/-- The bits of a field in the segment of its struct. -/
def fieldRun (w : BuilderPtr) (s : Storage) (offset : Nat) : Set Nat :=
  BitRun (w.start + s.step * offset) s.width

/-- The bits of a number, from the start of a field on. -/
def fieldBits (w : BuilderPtr) (s : Storage) (offset bits : Nat) (i : Nat) : Bool :=
  bits.testBit (i - (w.start + s.step * offset))

/-- A setter of the module writes a field. -/
def SetsField (set : BuilderPtr → Nat → Value → Option Value → CfunM Unit) (s : Storage) : Prop :=
  ∀ (w : BuilderPtr) (b : Builder) (offset : Nat) (value : Value) (dflt : Option Value), b.Wf →
    w.InUse b → s.step * offset + s.width ≤ w.dwords * 64 → s.Holds value → s.HoldsDefault dflt →
      ∃ b', set w offset value dflt b = .ok () b' ∧
        Patched w.body.seg (fieldRun w s offset)
          (fieldBits w s offset (s.toBits value ^^^ s.defaultBits dflt)) b b'

theorem setInteger_writes {t : IntType} {caller : String}
    {getArg : Nat → Value → Except Panic Int}
    (accepts : ∀ n i, t.InRange i → getArg n (.integer i) = .ok i) :
    SetsField (setInteger t caller getArg) (.int t) := by
  intro w b offset value dflt wf inUse inside holds default
  simp only [Storage.step, Storage.width] at inside
  have some : t.bytes ≠ 0 := by cases t <;> decide
  have small := inUse.dwordsLt
  have room := inUse.inside
  have within : w.body.word * 8 + offset + t.bytes ≤ (b.seg w.body.seg).words * 8 := by omega
  obtain ⟨b', run, patched⟩ := setScalar_patched wf
    ((Storage.int t).toBits value ^^^ (Storage.int t).defaultBits dflt) some within
  refine ⟨b', ?_, patched⟩
  rw [setInteger_eq accepts (by omega) holds default (by omega)]
  exact checkBuilderResult_eq_ok.mpr run

theorem setReal_writes {bytes : Nat} (some : bytes ≠ 0) (caller : String) :
    SetsField (setReal bytes caller) (.real bytes) := by
  intro w b offset value dflt wf inUse inside holds default
  simp only [Storage.step, Storage.width] at inside
  have small := inUse.dwordsLt
  have room := inUse.inside
  have within : w.body.word * 8 + offset + bytes ≤ (b.seg w.body.seg).words * 8 := by omega
  obtain ⟨b', run, patched⟩ := setScalar_patched wf
    ((Storage.real bytes).toBits value ^^^ (Storage.real bytes).defaultBits dflt) some within
  refine ⟨b', ?_, patched⟩
  rw [setReal_eq (by omega) holds default (by omega)]
  exact checkBuilderResult_eq_ok.mpr run

theorem cfunSetBool_writes : SetsField cfunSetBool .bool := by
  intro w b offset value dflt wf inUse inside holds default
  simp only [Storage.step, Storage.width, Nat.one_mul] at inside
  have small := inUse.dwordsLt
  have room := inUse.inside
  have within : w.body.word * 8 + offset / 8 < (b.seg w.body.seg).words * 8 := by omega
  obtain ⟨b', run, patched⟩ := setBool_patched wf
    ((Storage.bool.toBits value ^^^ Storage.bool.defaultBits dflt).testBit 0) within
  refine ⟨b', ?_, patched.congr ?_ fun i inside => ?_⟩
  · rw [cfunSetBool_eq (by omega) holds default (by omega)]
    exact checkBuilderResult_eq_ok.mpr run
  · simp [fieldRun, Storage.step, Storage.width, BuilderPtr.start]
  · simp only [fieldRun, Storage.step, Storage.width, Nat.one_mul, BuilderPtr.start,
      mem_bitRun] at inside
    simp only [fieldBits, Storage.step, Nat.one_mul, BuilderPtr.start]
    rw [show i - (wordBit w.body.word + offset) = 0 by omega]

/-- Every setter writes the bits of its field, and nothing else. -/
theorem Accessor.set_writes (a : Accessor) : SetsField a.set a.storage := by
  have byte (t : IntType) (narrow : t.bytes = 1) (typeName caller : String) :
      SetsField (setInteger t caller (getByteArg t typeName caller)) (.int t) :=
    setInteger_writes fun n _ inRange => getByteArg_ok narrow typeName caller n inRange
  have wide (t : IntType) (caller : String) : SetsField (setInteger t caller (getInteger t)) (.int t) :=
    setInteger_writes fun n _ inRange => getInteger_ok n inRange
  cases a with
  | bool => exact cfunSetBool_writes
  | i8 => exact byte .i8 rfl "Int8" "capnp/set-i8"
  | u8 => exact byte .u8 rfl "UInt8" "capnp/set-u8"
  | i16 => exact wide .i16 "capnp/set-i16"
  | u16 => exact wide .u16 "capnp/set-u16"
  | i32 => exact wide .i32 "capnp/set-i32"
  | u32 => exact wide .u32 "capnp/set-u32"
  | i64 => exact wide .i64 "capnp/set-i64"
  | u64 => exact wide .u64 "capnp/set-u64"
  | f32 => exact setReal_writes (Nat.succ_ne_zero 3) "capnp/set-f32"
  | f64 => exact setReal_writes (Nat.succ_ne_zero 7) "capnp/set-f64"

/-! ## What the getters return -/

/-- A getter of the module reads a field. -/
def GetsField (get : Message → Ptr → Nat → Option Value → Except Panic Value) (s : Storage) : Prop :=
  ∀ (m : Message) (p : Ptr) (offset : Nat) (dflt : Option Value), offset < 2 ^ 31 →
    s.HoldsDefault dflt →
      get m p offset dflt = .ok (s.ofBits (s.load m p offset ^^^ s.defaultBits dflt))

theorem inRange_i32 {offset : Nat} (small : offset < 2 ^ 31) : IntType.i32.InRange offset := by
  simp only [IntType.InRange, IntType.signed, IntType.bytes, if_true]
  omega

theorem getIntegerField_reads {t argType : IntType} (wide : ∀ i, t.InRange i → argType.InRange i) :
    GetsField (getIntegerField t argType) (.int t) := by
  intro m p offset dflt small default
  have converted : ∃ d, optional (getInteger argType) 2 0 dflt = .ok d ∧
      t.toBits d = (Storage.int t).defaultBits dflt := by
    cases dflt with
    | none => exact ⟨0, rfl, by simp [IntType.toBits, Storage.defaultBits]⟩
    | some v =>
        obtain ⟨d, rfl, inRange⟩ := Storage.holds_int.mp (default v rfl)
        exact ⟨d, getInteger_ok 2 (wide d inRange), rfl⟩
  obtain ⟨d, taken, bits⟩ := converted
  simp only [getIntegerField, inRange_i32 small, not_true, if_false, taken, bits, bind, Except.bind,
    pure, Except.pure]
  rfl

theorem getRealField_reads (bytes : Nat) : GetsField (getRealField bytes) (.real bytes) := by
  intro m p offset dflt small default
  have converted : optional (getReal bytes) 2 0 dflt =
      .ok ((Storage.real bytes).defaultBits dflt) := by
    cases dflt with
    | none => rfl
    | some v =>
        obtain ⟨d, rfl, below⟩ := Storage.holds_real.mp (default v rfl)
        exact if_pos below
  simp only [getRealField, inRange_i32 small, not_true, if_false, converted, bind, Except.bind,
    pure, Except.pure]
  rfl

theorem cfunGetBool_reads : GetsField cfunGetBool .bool := by
  intro m p offset dflt small default
  have converted : ∃ d, optional getBoolean 2 false dflt = .ok d ∧
      d.toNat = Storage.bool.defaultBits dflt := by
    cases dflt with
    | none => exact ⟨false, rfl, rfl⟩
    | some v =>
        obtain ⟨d, rfl⟩ := Storage.holds_bool.mp (default v rfl)
        exact ⟨d, rfl, rfl⟩
  obtain ⟨d, taken, bits⟩ := converted
  have sum (v : Bool) : (v != d) = (v.toNat ^^^ d.toNat).testBit 0 := by cases v <;> cases d <;> rfl
  simp only [cfunGetBool, inRange_i32 small, not_true, if_false, taken, bind, Except.bind, pure,
    Except.pure, sum, ← bits]
  rfl

/-- Every getter reads the bits of its field. -/
theorem Accessor.get_reads (a : Accessor) : GetsField a.get a.storage := by
  have same (t : IntType) : GetsField (getIntegerField t t) (.int t) :=
    getIntegerField_reads fun _ inRange => inRange
  have narrow (t : IntType) (few : t.bytes < 4) : GetsField (getIntegerField t .i32) (.int t) := by
    refine getIntegerField_reads fun i inRange => ?_
    cases t <;> simp [IntType.InRange, IntType.signed, IntType.bytes] at few inRange ⊢ <;> omega
  cases a with
  | bool => exact cfunGetBool_reads
  | i8 => exact narrow .i8 (by decide)
  | u8 => exact narrow .u8 (by decide)
  | i16 => exact narrow .i16 (by decide)
  | u16 => exact narrow .u16 (by decide)
  | i32 => exact same .i32
  | u32 => exact same .u32
  | i64 => exact same .i64
  | u64 => exact same .u64
  | f32 => exact getRealField_reads 4
  | f64 => exact getRealField_reads 8

namespace Storage

variable {s : Storage} {m : Message} {p : Ptr} {w : BuilderPtr} {offset : Nat}

theorem getScalar_lt {bytes dflt : Nat} (small : dflt < 2 ^ (8 * bytes)) :
    m.getScalar bytes p offset dflt < 2 ^ (8 * bytes) := by
  unfold Message.getScalar
  split
  · have below := loadLe_lt bytes (m.seg p.seg).data (dataBytes p + offset)
    rwa [show (256 : Nat) = 2 ^ 8 by norm_num, ← pow_mul] at below
  · exact small

theorem load_lt (s : Storage) (m : Message) (p : Ptr) (offset : Nat) :
    s.load m p offset < 2 ^ s.width := by
  cases s with
  | bool => exact Bool.toNat_lt _
  | int t => exact getScalar_lt (by positivity)
  | real bytes => exact getScalar_lt (by positivity)

/-- A handle whose data section ends before the field reads nothing. -/
theorem load_past (past : p.kind ≠ .struct ∨ dataBitCount p < s.step * offset + s.width) :
    s.load m p offset = 0 := by
  have scalar {bytes : Nat} (outside : p.kind ≠ .struct ∨ dataBitCount p < 8 * offset + 8 * bytes) :
      m.getScalar bytes p offset 0 = 0 := by
    unfold Message.getScalar dataHasBytes
    rw [if_neg]
    simp only [decide_eq_true_eq]
    rintro ⟨kind, low, high⟩
    have short := outside.resolve_left (not_not.mpr kind)
    omega
  cases s with
  | bool =>
      simp only [step, width, Nat.one_mul] at past
      unfold load Message.getBool
      dsimp only
      split
      · rfl
      · next kind =>
        rw [if_pos (by
          have short := past.resolve_left kind
          omega)]
        rfl
  | int t => exact scalar past
  | real bytes => exact scalar past

/-- A handle that views a struct reads the bits of its fields. -/
theorem testBit_load (views : p.Views w) (inside : s.step * offset + s.width ≤ w.dwords * 64)
    {k : Nat} (hk : k < s.width) :
    (s.load m p offset).testBit k =
      bit (m.seg w.body.seg).data (w.start + s.step * offset + k) := by
  have scalar {bytes : Nat} (within : 8 * offset + 8 * bytes ≤ w.dwords * 64)
      (hk : k < 8 * bytes) : (m.getScalar bytes p offset 0).testBit k =
        bit (m.seg w.body.seg).data (w.start + 8 * offset + k) := by
    have has : dataHasBytes p offset bytes = true := by
      unfold dataHasBytes
      rw [views.bits]
      simp only [decide_eq_true_eq]
      exact ⟨views.kind, by omega, by omega⟩
    rw [Message.getScalar, if_pos has, testBit_loadLe _ _ _ hk, views.seg, views.start]
    congr 1
    unfold BuilderPtr.start wordBit
    omega
  cases s with
  | bool =>
      simp only [step, width, Nat.one_mul] at inside hk ⊢
      obtain rfl : k = 0 := by omega
      have read : m.getBool p offset false = bit (m.seg w.body.seg).data (w.start + offset) := by
        unfold Message.getBool
        rw [if_neg (not_not.mpr views.kind), views.bits, if_neg (by omega), views.seg, views.start,
          bit, Nat.testBit_eq_decide_div_mod_eq]
        have byte : (w.start + offset) / 8 = w.body.word * 8 + offset / 8 := by
          unfold BuilderPtr.start wordBit
          omega
        have place : (w.start + offset) % 8 = offset % 8 := by
          unfold BuilderPtr.start wordBit
          omega
        rw [byte, place]
        rfl
      rw [load, read, Nat.add_zero]
      cases bit (m.seg w.body.seg).data (w.start + offset) <;> rfl
  | int t => exact scalar inside hk
  | real bytes => exact scalar inside hk

end Storage

end Codegen

end CapnpJanet
