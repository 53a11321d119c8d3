import CapnpJanet.Builder.Single
import CapnpJanet.Codegen.Handles

/-!
# Generated scalar accessors

The setter and the getter that the generator emits for a scalar field agree: on
the accessor, on its offset and on the default.  A value that is set is read back,
whatever was built before; a new struct, and one that ends before the field, read
as the default; and setting a field changes no bit outside of it and its union's
discriminant.
-/

namespace CapnpJanet

open ByteMemory Builder Janet Outcome

namespace Codegen

/-- How a type is stored, if it is a scalar. -/
def TypeWhich.storage : TypeWhich → Option Storage
  | bool => some .bool
  | int8 => some (.int .i8)
  | uint8 => some (.int .u8)
  | int16 => some (.int .i16)
  | uint16 | enum => some (.int .u16)
  | int32 => some (.int .i32)
  | uint32 => some (.int .u32)
  | int64 => some (.int .i64)
  | uint64 => some (.int .u64)
  | float32 => some (.real 4)
  | float64 => some (.real 8)
  | void | text | data | list | struct | interface | anyPointer | unknown => none

/-- The setters' switch has every scalar type. -/
theorem scalarSetter_of_storage {type : TypeWhich} {s : Storage} (stored : type.storage = some s) :
    ∃ a : Accessor, scalarSetter type = some a ∧ a.storage = s := by
  cases type <;> cases stored <;> exact ⟨_, rfl, rfl⟩

/-- Slots start at whole offsets. -/
theorem step_mul_div (s : Storage) (offset : Nat) :
    s.step * (s.width * offset / s.step) = s.width * offset := by
  cases s with
  | bool => simp [Storage.step]
  | int t =>
      rw [Storage.step, Storage.width, Nat.mul_assoc, Nat.mul_div_cancel_left _ (by decide)]
  | real bytes =>
      rw [Storage.step, Storage.width, Nat.mul_assoc, Nat.mul_div_cancel_left _ (by decide)]

/-- The offset in the setters' forms counts the bits before the field. -/
theorem setterOffset_eq {type : TypeWhich} {s : Storage} (stored : type.storage = some s)
    {offset : Nat} (small : s.width * offset < 2 ^ 32) :
    (if type = .bool then offset else scalarByteOffset type offset) =
      s.width * offset / s.step := by
  cases type <;> cases stored <;>
    simp only [Storage.width, Storage.step, IntType.bytes, scalarByteOffset, reduceCtorEq, if_true,
      if_false] at small ⊢ <;>
    omega

/-- The getters' switch agrees with the setters'. -/
theorem emitGetter_of_setter {f : Field} {offset : Nat} {type : TypeWhich} {dflt : Option Memory}
    {a : Accessor} (isSlot : f.which = .slot offset type dflt) (setter : scalarSetter type = some a) :
    emitGetter f = some ⟨a, if type = .bool then offset else scalarByteOffset type offset,
      some (scalarDefaultLiteral dflt type)⟩ := by
  rw [emitGetter, isSlot]
  cases type <;> cases setter <;> rfl

/-! ## Selecting a member of a union -/

/-- The bits of a node's discriminant. -/
def Node.discriminantRun (node : Node) (w : BuilderPtr) : Set Nat :=
  BitRun (w.start + 16 * node.discriminantOffset) 16

/-- The bits that are written to select a field. -/
def selected (node : Node) (f : Field) (w : BuilderPtr) : Set Nat :=
  {i | node.isUnionMember f ∧ i ∈ node.discriminantRun w}

theorem runForms_append {w : BuilderPtr} {first rest : List Form} {b b' : Builder}
    (run : runForms w first b = .ok () b') :
    runForms w (first ++ rest) b = runForms w rest b' := by
  induction first generalizing b with
  | nil =>
      cases run
      rfl
  | cons form first ih =>
      obtain ⟨_, b₁, head, tail⟩ := bind_eq_ok.mp run
      rw [List.cons_append, runForms, ← ih tail]
      exact bind_run head

/-- Selecting a member writes its tag to the discriminant, and nothing else. -/
theorem select_patched {node : Node} {f : Field} {w : BuilderPtr} {b : Builder} (wf : b.Wf)
    (inUse : w.InUse b)
    (inside : node.isUnionMember f → 16 * (node.discriminantOffset + 1) ≤ w.dwords * 64) :
    ∃ b', runForms w (emitUnionSelect node f) b = .ok () b' ∧
      Patched w.body.seg (selected node f w)
        (fun i => f.discriminant.toNat.testBit (i - (w.start + 16 * node.discriminantOffset)))
        b b' := by
  unfold emitUnionSelect
  split
  · next member =>
    have within := inside member
    have sized := inUse.dwordsLt
    have byte : 8 * node.discriminantByte = 16 * node.discriminantOffset := by
      unfold Node.discriminantByte
      omega
    have tagLt := f.discriminant.toNat_lt
    have inRange : IntType.u16.InRange f.discriminant.toNat := by
      simp only [IntType.InRange, IntType.signed, IntType.bytes, Bool.false_eq_true, if_false]
      omega
    obtain ⟨b', run, patched⟩ := Accessor.u16.set_writes w b node.discriminantByte
      (.integer f.discriminant.toNat) none wf inUse
      (by
        simp only [Accessor.storage, Storage.step, Storage.width, IntType.bytes]
        omega)
      inRange fun _ unset => by cases unset
    refine ⟨b', ?_, patched.congr ?_ fun i _ => ?_⟩
    · rw [runForms]
      exact bind_run run
    · ext i
      simp [selected, member, Node.discriminantRun, fieldRun, Accessor.storage, Storage.step,
        Storage.width, IntType.bytes, byte]
    · simp only [fieldBits, Storage.defaultBits, Option.elim, Nat.xor_zero, Accessor.storage,
        Storage.step, byte]
      have tag : IntType.u16.toBits f.discriminant.toNat = f.discriminant.toNat :=
        toBits_ofBits_int (t := .u16) tagLt
      rw [Storage.toBits, tag]
  · next member =>
    have none : selected node f w = ∅ := by
      ext i
      simp [selected, member]
    rw [none]
    exact ⟨b, rfl, Patched.refl wf _ _⟩

/-! ## Fields -/

/-- A scalar field with a default, inside a struct of `dwords` data words.  If it is
a member of a union, the union's discriminant lies in the struct too. -/
structure ScalarField (node : Node) (dwords : Nat) where
  field : Field
  offset : Nat
  type : TypeWhich
  dflt : Memory
  storage : Storage
  isSlot : field.which = .slot offset type (some dflt)
  stored : type.storage = some storage
  sized : dwords < 2 ^ 16
  inside : storage.width * (offset + 1) ≤ dwords * 64
  selects : node.isUnionMember field → 16 * (node.discriminantOffset + 1) ≤ dwords * 64

namespace ScalarField

variable {node : Node} {dwords : Nat}

/-- The offset that the accessors pass to the module. -/
def wireOffset (f : ScalarField node dwords) : Nat :=
  f.storage.width * f.offset / f.storage.step

/-- The schema default. -/
def default (f : ScalarField node dwords) : Value := scalarDefaultLiteral (some f.dflt) f.type

theorem step_wireOffset (f : ScalarField node dwords) :
    f.storage.step * f.wireOffset = f.storage.width * f.offset :=
  step_mul_div f.storage f.offset

theorem wire_inside (f : ScalarField node dwords) :
    f.storage.step * f.wireOffset + f.storage.width ≤ dwords * 64 := by
  have inside := f.inside
  rw [Nat.mul_add, Nat.mul_one] at inside
  rwa [f.step_wireOffset]

theorem loadLe_lt_two_pow (n : Nat) (mem : Memory) (p : Nat) : loadLe n mem p < 2 ^ (8 * n) := by
  have below := loadLe_lt n mem p
  rwa [show (256 : Nat) = 2 ^ 8 by norm_num, ← pow_mul] at below

/-- The default can be stored. -/
theorem holds_default (f : ScalarField node dwords) : f.storage.Holds f.default := by
  obtain ⟨field, offset, type, dflt, storage, isSlot, stored, sized, inside, selects⟩ := f
  unfold default
  have number (t : IntType) (address : Nat) :
      (Storage.int t).Holds (.integer (t.ofBits (loadLe t.bytes dflt address))) :=
    inRange_ofBits (loadLe_lt_two_pow _ _ _)
  cases type with
  | bool => cases stored; trivial
  | int8 => cases stored; exact number .i8 2
  | int16 => cases stored; exact number .i16 2
  | int32 => cases stored; exact number .i32 4
  | int64 => cases stored; exact number .i64 8
  | uint8 => cases stored; exact number .u8 2
  | uint16 => cases stored; exact number .u16 2
  | uint32 => cases stored; exact number .u32 4
  | uint64 => cases stored; exact number .u64 8
  | enum => cases stored; exact number .u16 2
  | float32 => cases stored; exact loadLe_lt 4 dflt 4
  | float64 => cases stored; exact loadLe_lt 8 dflt 8
  | void | text | data | list | struct | interface | anyPointer | unknown => cases stored

/-- The two switches of the generator agree on the accessor, on its offset and
on the default. -/
theorem emit_agrees (f : ScalarField node dwords) :
    ∃ a : Accessor, a.storage = f.storage ∧
      emitSetter node f.field = some (fun value =>
        emitUnionSelect node f.field ++ [.set a f.wireOffset value (some f.default)]) ∧
      emitGetter f.field = some ⟨a, f.wireOffset, some f.default⟩ := by
  obtain ⟨a, setter, same⟩ := scalarSetter_of_storage f.stored
  have small : f.storage.width * f.offset < 2 ^ 32 := by
    have sized := f.sized
    have within := f.inside
    rw [Nat.mul_add] at within
    omega
  refine ⟨a, same, ?_, ?_⟩
  · rw [emitSetter, f.isSlot]
    simp only [setter, setterOffset_eq f.stored small]
    rfl
  · rw [emitGetter_of_setter f.isSlot setter, setterOffset_eq f.stored small]
    rfl

/-! ## Bits of a field -/

/-- The bits of a field. -/
def bits (f : ScalarField node dwords) (w : BuilderPtr) : Set Nat :=
  BitRun (w.start + f.storage.width * f.offset) f.storage.width

/-- The bits that setting a field may change: its own, and the discriminant of the
union that it is a member of. -/
def owned (f : ScalarField node dwords) (w : BuilderPtr) : Set Nat :=
  f.bits w ∪ selected node f.field w

theorem fieldRun_eq (f : ScalarField node dwords) (w : BuilderPtr) :
    fieldRun w f.storage f.wireOffset = f.bits w := by
  rw [fieldRun, f.step_wireOffset, bits]

/-- A field owns bits of the data section. -/
theorem owned_subset {w : BuilderPtr} (f : ScalarField node w.dwords) :
    f.owned w ⊆ BitRun w.start (w.dwords * 64) := by
  have inside := f.inside
  rw [Nat.mul_add, Nat.mul_one] at inside
  rintro i (own | ⟨member, own⟩)
  · simp only [bits, mem_bitRun] at own ⊢
    omega
  · have within := f.selects member
    simp only [Node.discriminantRun, mem_bitRun] at own ⊢
    omega

end ScalarField

/-- Words of a struct are in use. -/
theorem used_of_inUse {w : BuilderPtr} {b : Builder} (inUse : w.InUse b) {i : Nat}
    (inside : i < w.start + w.dwords * 64) : b.Used w.body.seg (i / 64) := by
  have room := inUse.inside
  unfold BuilderPtr.start wordBit at inside
  unfold Used
  omega

/-- A number with the bits of a field is what the getter loads. -/
theorem load_eq {s : Storage} {m : Message} {p : Ptr} {w : BuilderPtr} {offset n : Nat}
    (views : p.Views w) (inside : s.step * offset + s.width ≤ w.dwords * 64)
    (small : n < 2 ^ s.width)
    (same : ∀ k < s.width,
      bit (m.seg w.body.seg).data (w.start + s.step * offset + k) = n.testBit k) :
    s.load m p offset = n := by
  refine Nat.eq_of_testBit_eq fun k => ?_
  by_cases hk : k < s.width
  · rw [s.testBit_load views inside hk, same k hk]
  · have large : 2 ^ s.width ≤ 2 ^ k := Nat.pow_le_pow_right (by decide) (not_lt.mp hk)
    rw [Nat.testBit_lt_two_pow ((s.load_lt m p offset).trans_le large),
      Nat.testBit_lt_two_pow (small.trans_le large)]

namespace ScalarField

variable {node : Node} {w : BuilderPtr} {b b' : Builder} {m : Message} {p : Ptr} {a : Accessor}

/-- The setter of a field, run on a value. -/
theorem set_runs (f : ScalarField node w.dwords) (same : a.storage = f.storage) (wf : b.Wf)
    (inUse : w.InUse b) {value : Value} (holds : f.storage.Holds value) :
    ∃ b', runForms w (emitUnionSelect node f.field ++
        [.set a f.wireOffset value (some f.default)]) b = .ok () b' ∧
      Rewrites w b b' ∧
      (∀ s i, ¬(s = w.body.seg ∧ i ∈ f.owned w) →
        bit (b'.seg s).data i = bit (b.seg s).data i) ∧
      ∀ k < f.storage.width,
        bit (b'.seg w.body.seg).data (w.start + f.storage.step * f.wireOffset + k) =
          (f.storage.toBits value ^^^ f.storage.toBits f.default).testBit k := by
  obtain ⟨b₁, chosen, select⟩ := select_patched wf inUse f.selects
  have inUse₁ : w.InUse b₁ := inUse.later (select.words_eq _).ge
  have default : f.storage.HoldsDefault (some f.default) := by
    rintro _ ⟨⟩
    exact f.holds_default
  have writes := a.set_writes
  rw [same] at writes
  obtain ⟨b', run, write⟩ := writes w b₁ f.wireOffset value (some f.default) select.wf inUse₁
    f.wire_inside holds default
  have kept (s i : Nat) (outside : ¬(s = w.body.seg ∧ i ∈ f.owned w)) :
      bit (b'.seg s).data i = bit (b.seg s).data i := by
    by_cases here : s = w.body.seg
    · subst here
      rw [write.patch.outside i fun inside => outside ⟨rfl, .inl (by rwa [← f.fieldRun_eq w])⟩,
        select.patch.outside i fun inside => outside ⟨rfl, .inr inside⟩]
    · rw [write.others s here, select.others s here]
  refine ⟨b', ?_, ⟨write.wf, write.nsegs_eq.trans select.nsegs_eq, fun s =>
    (write.words_eq s).trans (select.words_eq s), fun s i outside => kept s i fun inside =>
      outside ⟨inside.1, f.owned_subset inside.2⟩⟩, kept, fun k hk => ?_⟩
  · rw [runForms_append chosen, runForms]
    exact bind_run run
  · rw [write.patch.inside _ (by simp only [fieldRun, mem_bitRun]; omega), fieldBits,
      Nat.add_sub_cancel_left]
    rfl

/-- The getter of a field. -/
theorem get_runs (f : ScalarField node w.dwords) (same : a.storage = f.storage) (m : Message)
    (p : Ptr) :
    GetForm.run m p ⟨a, f.wireOffset, some f.default⟩ =
      .ok (f.storage.ofBits (f.storage.load m p f.wireOffset ^^^ f.storage.toBits f.default)) := by
  have small : f.wireOffset < 2 ^ 31 := by
    have sized := f.sized
    have inside := f.wire_inside
    have step : 0 < f.storage.step := by cases f.storage <;> exact Nat.succ_pos _
    have below := Nat.le_mul_of_pos_left f.wireOffset step
    omega
  have default : f.storage.HoldsDefault (some f.default) := by
    rintro _ ⟨⟩
    exact f.holds_default
  have reads := a.get_reads
  rw [same] at reads
  exact reads m p f.wireOffset (some f.default) small default

/-- A field whose bits are all clear reads as the default. -/
theorem get_default (f : ScalarField node w.dwords) (same : a.storage = f.storage)
    (clear : f.storage.load m p f.wireOffset = 0) :
    GetForm.run m p ⟨a, f.wireOffset, some f.default⟩ = .ok f.default := by
  rw [f.get_runs same, clear, Nat.zero_xor, Storage.ofBits_toBits f.holds_default]

/-- Generated accessors are inverse and independent.  The generator emits a
setter and a getter for every scalar field.  Whatever has been built, a value that
is set is what the getter returns from the finished message, no bit changes outside
of the field and its union's discriminant, and other fields that are apart from
these bits read as before.  In a new struct, and in one that ends before the field,
the getter returns the schema default. -/
theorem accessors_inverse (f : ScalarField node w.dwords) :
    ∃ setter getter, emitSetter node f.field = some setter ∧ emitGetter f.field = some getter ∧
      (∀ b, b.Wf → w.InUse b → ∀ value, f.storage.Holds value →
        ∃ b', runForms w (setter value) b = .ok () b' ∧
          (∀ m p, Opens b' m → p.Views w → getter.run m p = .ok value) ∧
          (∀ b₀ b₁ rootInitialized dwords pwords, b₀.Wf →
            cfunInitRoot rootInitialized dwords pwords b₀ = .ok w b₁ → Rewrites w b₁ b →
              ∀ m, Opens b' m → ∃ p left, m.root Ptr.zero defaultTraversalWords = ⟨.ok, p, left⟩ ∧
                getter.run m p = .ok value) ∧
          (∀ s i, ¬(s = w.body.seg ∧ i ∈ f.owned w) →
            bit (b'.seg s).data i = bit (b.seg s).data i) ∧
          ∀ (node' : Node) (other : ScalarField node' w.dwords) (get : GetForm),
            emitGetter other.field = some get → Disjoint (f.owned w) (other.bits w) →
              ∀ m m' p, Opens b m → Opens b' m' → p.Views w → get.run m' p = get.run m p) ∧
      (∀ b b', b.Wf → Initializes b w b' →
        ∀ m p, Opens b' m → p.Views w → getter.run m p = .ok f.default) ∧
      ∀ m p, p.kind ≠ .struct ∨ dataBitCount p < f.storage.width * (f.offset + 1) →
        getter.run m p = .ok f.default := by
  obtain ⟨a, same, emitted, read⟩ := f.emit_agrees
  refine ⟨_, _, emitted, read, fun b wf inUse value holds => ?_, fun b b' wf new m p opens views => ?_,
    fun m p past => ?_⟩
  · obtain ⟨b', run, rewrites, kept, written⟩ := f.set_runs same wf inUse holds
    have wf' := rewrites.wf
    have inUse' : w.InUse b' := inUse.later (rewrites.words_eq _).ge
    have inside := f.wire_inside
    have returns (m : Message) (p : Ptr) (opens : Opens b' m) (views : p.Views w) :
        GetForm.run m p ⟨a, f.wireOffset, some f.default⟩ = .ok value := by
      have small := Nat.xor_lt_two_pow (Storage.toBits_lt holds) (Storage.toBits_lt f.holds_default)
      have loaded := load_eq views inside small fun k hk =>
        (opens.bit_eq wf' (used_of_inUse inUse' (by omega))).trans (written k hk)
      rw [f.get_runs same, loaded, Nat.xor_xor_cancel_right, Storage.ofBits_toBits holds]
    refine ⟨b', run, returns, fun b₀ b₁ rootInitialized dwords pwords wf₀ rooted before m opens => ?_,
      kept, fun node' other get emitted apart m m' p opens opens' views => ?_⟩
    · obtain ⟨p, left, read, views⟩ := root_views wf₀ rooted (before.trans rewrites) opens
      exact ⟨p, left, read, returns m p opens views⟩
    · obtain ⟨a', same', -, read'⟩ := other.emit_agrees
      obtain rfl := Option.some.inj (emitted.symm.trans read')
      rw [other.get_runs same', other.get_runs same']
      have loaded := load_eq (m := m') views other.wire_inside
        (other.storage.load_lt m p other.wireOffset) (fun k hk => by
          have inside := other.wire_inside
          have used := used_of_inUse inUse'
            (show w.start + other.storage.step * other.wireOffset + k < _ by omega)
          have used₀ := used_of_inUse inUse
            (show w.start + other.storage.step * other.wireOffset + k < _ by omega)
          rw [opens'.bit_eq wf' used, other.storage.testBit_load views inside hk,
            opens.bit_eq wf used₀]
          refine kept _ _ fun here => Set.disjoint_left.mp apart here.2 ?_
          rw [← other.fieldRun_eq]
          simp only [fieldRun, mem_bitRun]
          omega)
      rw [loaded]
  · have fresh := new.fresh wf
    refine f.get_default same (load_eq views f.wire_inside (by positivity) fun k hk => ?_)
    have inside := f.wire_inside
    rw [opens.bit_eq fresh.wf (used_of_inUse fresh.inUse (by omega)), Nat.add_assoc,
      fresh.clear _ (by omega), Nat.zero_testBit]
  · refine f.get_default same (Storage.load_past (past.imp_right fun short => ?_))
    rw [f.step_wireOffset]
    rwa [Nat.mul_add, Nat.mul_one] at short

/-- A union whose discriminant lies in the upper half of the first data word. -/
def memberNode : Node where
  id := 1
  discriminantCount := 2
  discriminantOffset := 2
  fields := []

/-- A member in the word's first byte, with the default 7. -/
def memberField : ScalarField memberNode 1 where
  field := ⟨0xfffe, .slot 0 .uint8 (some (ofList [0, 0, 7]))⟩
  offset := 0
  type := .uint8
  dflt := ofList [0, 0, 7]
  storage := .int .u8
  isSlot := rfl
  stored := rfl
  sized := by decide
  inside := by decide
  selects _ := by decide

/-- A root struct of one data word. -/
def memberStruct : BuilderPtr := ⟨⟨0, 1⟩, 1, 0⟩

theorem accessors_inverse_member :
    ∃ setter getter b' m p, emitSetter memberNode memberField.field = some setter ∧
      emitGetter memberField.field = some getter ∧
      runForms memberStruct (setter (.integer 200)) (single (fun _ => 0) 2) = .ok () b' ∧
      Opens b' m ∧ p.Views memberStruct ∧ getter.run m p = .ok (.integer 200) := by
  have wf : (single (fun _ => 0) 2).Wf := wf_single (by decide) fun _ _ => rfl
  have inUse : memberStruct.InUse (single (fun _ => 0) 2) := by constructor <;> decide
  have holds : memberField.storage.Holds (.integer 200) :=
    Storage.holds_int.mpr ⟨200, rfl, by decide⟩
  obtain ⟨setter, getter, emitted, read, sets, -⟩ :=
    accessors_inverse (w := memberStruct) memberField
  obtain ⟨b', run, returns, -⟩ := sets _ wf inUse (.integer 200) holds
  have opened : ∃ m, Opens b' m := by
    obtain rfl := Option.some.inj (emitted.symm.trans rfl)
    have computed : succeedsWith (runForms memberStruct (emitUnionSelect memberNode memberField.field ++
          [.set .u8 0 (.integer 200) (some memberField.default)]) (single (fun _ => 0) 2))
        (fun _ b => opensWith b fun _ => true) = true := by decide +kernel
    have built : runForms memberStruct (emitUnionSelect memberNode memberField.field ++
        [.set .u8 0 (.integer 200) (some memberField.default)]) (single (fun _ => 0) 2) =
          .ok () b' := run
    rw [built] at computed
    obtain ⟨m, opens, -⟩ := opensWith_iff.mp computed
    exact ⟨m, opens⟩
  obtain ⟨m, opens⟩ := opened
  exact ⟨setter, getter, b', m, Message.structAt 0 1 1 0, emitted, read, run, opens,
    views_structAt memberStruct, returns m _ opens (views_structAt memberStruct)⟩

end ScalarField

end Codegen

end CapnpJanet
