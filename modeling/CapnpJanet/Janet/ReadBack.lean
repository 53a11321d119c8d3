import CapnpJanet.Janet.Readers
import CapnpJanet.Value.Reads

/-!
# Scripts that read what scripts have built

Fields, elements, texts and data as a draft has them, and as the functions of the
module return them at a handle that stands for it.  With the walks of a reader this
says what a script finds in a message that another script has built and finished: what
the draft says, from the root on, whatever segments the builder has made.
-/

namespace CapnpJanet

open ByteMemory Builder Run Codegen Janet

/-! ## What a draft says -/

/-- The bits of a field in so many words of data; behind them there are none. -/
def Codegen.Storage.bitsIn (s : Storage) (dwords : Nat) (data : Memory) (offset : Nat) : Nat :=
  match s with
  | .bool => if offset < dwords * 64 then (bitOf (data (offset / 8)) (offset % 8)).toNat else 0
  | .int t => if offset + t.bytes ≤ dwords * 8 then loadLe t.bytes data offset else 0
  | .real bytes => if offset + bytes ≤ dwords * 8 then loadLe bytes data offset else 0

namespace Draft

namespace Content

/-- The bits of an element, as one of these.  The elements of a struct list are read as
their first field. -/
def itemBits (kind : ListKind) (index : Nat) : Content → Option Nat
  | .block .composite n nd _ row =>
      if kind.esize ≠ .bit ∧ index < n ∧ 1 ≤ nd then some (loadLe kind.bytes (row index) 0) else none
  | .block _ _ _ _ _ => none
  | .flat (.scalars esize width n items) =>
      if esize = kind.esize ∧ index < n then some (items index % 256 ^ width) else none
  | .flat (.bits n items) => if kind.esize = .bit ∧ index < n then some (items index).toNat else none
  | .flat (.bytes given) => if kind.esize = .byte then (given[index]?).map UInt8.toNat else none

/-- The bytes of a list of bytes. -/
def bytes : Content → Option (List UInt8)
  | .flat (.bytes given) => some given
  | .flat (.scalars .byte _ n items) => some ((List.range n).map fun i => UInt8.ofNat (items i))
  | _ => none

end Content

/-- A NUL at the end is no part of a text. -/
def untilNul (bytes : List UInt8) : List UInt8 :=
  if bytes.getLast? = some 0 then bytes.dropLast else bytes

/-- The bits of a field.  Only rows have fields. -/
def fieldBits (d : Draft) (s : Storage) (offset : Nat) : Ref → Nat
  | .row id i =>
      match d.drawing.nodes[id]? with
      | some (.block _ _ nd _ row) => s.bitsIn nd (row i) offset
      | _ => 0
  | _ => 0

/-- The number of elements. -/
def length (d : Draft) : Ref → Nat
  | .list id => (d.drawing.nodes[id]?).elim 0 Content.count
  | _ => 0

/-- The bits of an element of a list. -/
def itemBits (d : Draft) (kind : ListKind) (index : Nat) : Ref → Option Nat
  | .list id => (d.drawing.nodes[id]?).bind (Content.itemBits kind index)
  | _ => none

/-- The bytes of a list of bytes.  Nothing is read like an empty list. -/
def bytes (d : Draft) : Ref → Option (List UInt8)
  | .null => some []
  | .list id => (d.drawing.nodes[id]?).bind Content.bytes
  | _ => none

/-- The data at a pointer. -/
def dataAt (d : Draft) (ref : Ref) (index : Nat) : Option (List UInt8) :=
  (d.follow ref (.getp index)).toOption.bind d.bytes

/-- The text at a pointer. -/
def textAt (d : Draft) (ref : Ref) (index : Nat) : Option (List UInt8) :=
  (d.dataAt ref index).map untilNul

/-- The text of an element: of the first pointer, in a list of structs. -/
def elementText (d : Draft) (index : Nat) : Ref → Option (List UInt8)
  | .list id =>
      match d.drawing.nodes[id]? with
      | some (.block .composite n _ _ _) => if index < n then d.textAt (.row id index) 0 else none
      | _ => ((d.follow (.list id) (.listGetp index)).toOption.bind d.bytes).map untilNul
  | _ => none

/-- A function returns these bytes, or panics if there are none. -/
def Returns (x : EStateM.Result Panic Nat (List UInt8)) : Option (List UInt8) → Prop
  | some bytes => ∃ left, x = .ok bytes left
  | none => ∃ panic left, x = .error panic left

/-- What the functions of the module return at a handle is what the draft says:
the default joins in at every field, and stands in for an element that is missing. -/
structure Tells (d : Draft) (m : Message) (p : Ptr) (ref : Ref) : Prop where
  kind : p.kind = ref.kind
  fields : ∀ (a : Accessor) offset dflt, offset < 2 ^ 31 → a.storage.HoldsDefault dflt →
    a.get m p offset dflt =
      .ok (a.storage.ofBits (d.fieldBits a.storage offset ref ^^^ a.storage.defaultBits dflt))
  length : cfunListLen p = d.length ref
  items : ∀ (kind : ListKind) index dflt, index < 2 ^ 32 → kind.storage.HoldsDefault dflt →
    cfunListGetValue kind m p index dflt =
      .ok (kind.storage.ofBits ((d.itemBits kind index ref).getD (kind.storage.defaultBits dflt)))
  texts : ∀ (index left : Nat), index < 2 ^ 31 → d.dues ref [.getp (index % 2 ^ 16)] ≤ left →
    Returns (cfunGetText m p index left) (d.textAt ref (index % 2 ^ 16))
  data : ∀ (index left : Nat), index < 2 ^ 16 → d.dues ref [.getp index] ≤ left →
    Returns (cfunGetData m p index left) (d.dataAt ref index)
  elementTexts : ∀ (index left : Nat), index < 2 ^ 31 →
    d.dues ref [.listGetp index, .getp 0] ≤ left →
      Returns (cfunListGetText m p index left) (d.elementText index ref)

/-! ## Fields -/

section
variable {d : Draft} {place : Nat → BPtr} {b : Builder} {m : Message} {p : Ptr} {ref : Ref}
  (built : m.BuiltFrom b) (drawn : Drawn d place b) (stands : Stands d place p ref)
include built drawn stands

omit built drawn stands in
theorem getScalar_of_kind (other : p.kind ≠ .struct) (width byteOffset dflt : Nat) :
    m.getScalar width p byteOffset dflt = dflt := by
  unfold Message.getScalar
  rw [if_neg]
  rw [dataHasBytes, decide_eq_true_eq]
  exact fun has => other has.1

/-- A getter loads what the draft has at the field. -/
theorem Stands.load_eq (s : Storage) (offset : Nat) : s.load m p offset = d.fieldBits s offset ref := by
  have kind := stands.kind
  have nothing (other : p.kind ≠ .struct) : s.load m p offset = 0 := by
    cases s with
    | bool =>
        change (m.getBool p offset false).toNat = 0
        rw [Message.getBool, if_pos other]
        rfl
    | int t => exact getScalar_of_kind other _ _ _
    | real bytes => exact getScalar_of_kind other _ _ _
  cases ref with
  | null => exact nothing (kind.trans_ne nofun)
  | cap a => exact nothing (kind.trans_ne nofun)
  | list id => exact nothing (kind.trans_ne nofun)
  | row id i =>
      obtain ⟨shape, n, nd, np, row, found, -, -, -, scalars, bools⟩ := stands.looks built drawn
      rw [fieldBits, found]
      cases s with
      | bool =>
          change (m.getBool p offset false).toNat = _
          rw [bools offset false]
          dsimp only [Storage.bitsIn]
          split <;> rfl
      | int t => exact scalars t.bytes offset 0
      | real bytes => exact scalars bytes offset 0

omit built drawn in
theorem Stands.length_eq : cfunListLen p = d.length ref := by
  have kind := stands.kind
  have nothing (other : p.kind ≠ .list) : cfunListLen p = 0 := if_pos other
  cases ref with
  | null => exact nothing (kind.trans_ne nofun)
  | cap a => exact nothing (kind.trans_ne nofun)
  | row id i => exact nothing (kind.trans_ne nofun)
  | list id =>
      rw [cfunListLen, listLen_of_list kind]
      obtain ⟨c, found, list, rfl⟩ := stands
      rw [length, found, Option.elim_some]
      cases c with
      | flat list => rfl
      | block shape n nd np row =>
          cases shape with
          | struct => exact absurd rfl (list n nd np row)
          | composite => rfl
          | pointers => rfl

end

/-! ## Elements -/

section
variable {b : Builder} {m : Message} {host : BPtr} {kind : ListKind} {index dflt : Nat}

theorem ListKind.bits_esize (wide : kind.esize ≠ .bit) : kind.esize.bits = 8 * kind.bytes := by
  cases kind with
  | bool => exact absurd rfl wide
  | _ => rfl

theorem ListKind.esize_plain : kind.esize ≠ .ptr ∧ kind.esize ≠ .composite := by
  cases kind <;> decide

theorem listGetScalar_outside {esize : ElemSize} {width : Nat} {p : Ptr}
    (outside : ¬index < p.count) : m.listGetScalar esize width p index dflt = dflt := by
  rw [Message.listGetScalar, if_pos (.inr (not_lt.mp outside))]

theorem listGetScalar_other {esize : ElemSize} {width : Nat} {p : Ptr} (other : p.esize ≠ esize)
    (plain : p.esize ≠ .composite) : m.listGetScalar esize width p index dflt = dflt := by
  unfold Message.listGetScalar
  rw [if_neg other, if_neg (c := p.esize = .composite ∧ _) fun composite => plain composite.1, ite_self]

/-- The elements of a struct list are read as their first field, if they have one. -/
theorem listGetScalar_structs {esize : ElemSize} {width : Nat} {p : Ptr} (list : p.kind = .list)
    (structs : p.esize = .composite) (plain : esize ≠ .composite) (inside : index < p.count) :
    m.listGetScalar esize width p index dflt =
      if p.dwords ≥ 1 then m.loadCompositeElem p index width else dflt := by
  unfold Message.listGetScalar
  rw [if_neg, if_neg (structs.trans_ne plain.symm)]
  · simp only [structs, true_and]
  · rintro (notList | past)
    · exact notList list
    · exact absurd inside (not_lt.mpr past)

/-- A list of bytes is read byte by byte. -/
theorem listGetScalar_byte {p : Ptr} (list : p.kind = .list) (esize : p.esize = .byte)
    (inside : index < p.count) :
    m.listGetScalar .byte 1 p index dflt = (m.listByte p index).toNat := by
  rw [Message.listGetScalar, if_neg, if_pos esize, Message.loadElem, Nat.mul_one]
  · rw [loadLe, loadLe, Nat.mul_zero]
    rfl
  · rintro (notList | past)
    · exact notList list
    · exact absurd inside (not_lt.mpr past)

theorem listGetScalar_bytes {p : Ptr} {given : List UInt8} (holds : m.HoldsBytes p given) :
    m.listGetScalar .byte 1 p index dflt = ((given[index]?).map UInt8.toNat).getD dflt := by
  obtain ⟨list, esize, count, bytes⟩ := holds
  by_cases inside : index < given.length
  · have byte : m.listByte p index = given[index] := by
      have same : (m.listBytes p given.length)[index]? = some given[index] := by
        rw [bytes]
        exact List.getElem?_eq_getElem inside
      rw [Message.listBytes, List.getElem?_map, List.getElem?_range inside] at same
      exact Option.some.inj same
    rw [listGetScalar_byte list esize (inside.trans_eq count.symm), byte,
      List.getElem?_eq_getElem inside]
    rfl
  · rw [List.getElem?_eq_none (not_lt.mp inside), listGetScalar_outside (count ▸ inside)]
    rfl

/-- Numbers of a byte are bytes. -/
theorem holdsBytes_scalars {p : Ptr} {n : Nat} {items : Nat → Nat}
    (holds : m.HoldsScalars p .byte 1 n items) :
    m.HoldsBytes p ((List.range n).map fun i => UInt8.ofNat (items i)) := by
  obtain ⟨list, esize, count, each⟩ := holds
  refine ⟨list, esize, ?_, ?_⟩
  · rw [List.length_map, List.length_range, count]
  · rw [List.length_map, List.length_range]
    refine List.map_congr_left fun i member => ?_
    have inside : i < n := List.mem_range.mp member
    have read := each i inside 0
    rw [listGetScalar_byte list esize (inside.trans_eq count.symm)] at read
    apply UInt8.toNat_inj.mp
    rw [read, UInt8.toNat_ofNat']
    rfl

/-- An element is read as the list has it, if the list is of these elements or of
structs. -/
theorem Kept.item_eq {c : Content} (kept : Kept b host c) (built : m.BuiltFrom b)
    (list : ∀ n nd np row, c ≠ .block .struct n nd np row) (wide : kind.esize ≠ .bit) :
    m.listGetScalar kind.esize kind.bytes (c.handle host) index dflt =
      (c.itemBits kind index).getD dflt := by
  have small := kept.addressed built
  have listed := kept.listed built list
  match c with
  | .block .struct n nd np row => exact absurd rfl (list n nd np row)
  | .block .pointers n nd np row =>
      exact listGetScalar_other (ListKind.esize_plain.1).symm nofun
  | .block .composite n nd np row =>
      have read (inside : index < n) :
          m.listGetScalar kind.esize kind.bytes ((Content.block .composite n nd np row).handle host)
            index dflt =
              if nd ≥ 1 then
                m.loadCompositeElem ((Content.block .composite n nd np row).handle host) index kind.bytes
              else dflt :=
        listGetScalar_structs rfl rfl ListKind.esize_plain.2 inside
      rw [Content.itemBits]
      split
      · next has =>
        obtain ⟨-, inside, some⟩ := has
        have narrow : kind.bytes ≤ 8 := by cases kind <;> decide
        have fits : 0 + kind.bytes ≤ nd * 8 := by omega
        have looks := (kept.row_looks built inside fun _ => ⟨rfl, rfl⟩).1 kind.bytes 0 dflt
        rw [if_pos fits, Message.getScalar_structAt fits] at looks
        exact (read inside).trans ((if_pos some).trans looks)
      · next none =>
        by_cases inside : index < n
        · exact (read inside).trans (if_neg fun some => none ⟨wide, inside, some⟩)
        · exact listGetScalar_outside inside
  | .flat (.scalars esize width n items) =>
      obtain ⟨-, -, -, holds⟩ := listed
      obtain ⟨-, -, plain, sized⟩ := kept.fits
      rw [Content.itemBits]
      split
      · next has =>
        obtain ⟨rfl, inside⟩ := has
        have width : kind.bytes = width := by
          have bits := ListKind.bits_esize wide
          have bits' := sized _ _ _ _ rfl
          omega
        rw [width]
        exact holds index inside dflt
      · next none =>
        by_cases same : esize = kind.esize
        · exact listGetScalar_outside fun inside => none ⟨same, inside⟩
        · exact listGetScalar_other same plain
  | .flat (.bits n items) =>
      rw [Content.itemBits, if_neg fun has => wide has.1]
      exact listGetScalar_other wide.symm nofun
  | .flat (.bytes given) =>
      rw [Content.itemBits]
      split
      · next same =>
        have width : kind.bytes = 1 := by
          have bits := ListKind.bits_esize wide
          rw [same, show ElemSize.byte.bits = 8 from rfl] at bits
          omega
        rw [same, width]
        exact listGetScalar_bytes listed
      · next other => exact listGetScalar_other (Ne.symm other) nofun

/-- A bit of a list is read as the list has it. -/
theorem Kept.bit_eq {c : Content} (kept : Kept b host c) (built : m.BuiltFrom b)
    (list : ∀ n nd np row, c ≠ .block .struct n nd np row) (dflt : Bool) :
    (m.listGetBool (c.handle host) index dflt).toNat =
      (c.itemBits .bool index).getD dflt.toNat := by
  have listed := kept.listed built list
  have other (wide : (c.handle host).esize ≠ .bit) :
      (m.listGetBool (c.handle host) index dflt).toNat = dflt.toNat := by
    rw [Message.listGetBool, if_pos (.inr (.inl wide))]
  match c with
  | .block .struct n nd np row => exact absurd rfl (list n nd np row)
  | .block .pointers n nd np row => exact other nofun
  | .block .composite n nd np row =>
      rw [Content.itemBits, if_neg fun has => has.1 rfl]
      exact other nofun
  | .flat (.scalars esize width n items) =>
      obtain ⟨-, -, -, sized⟩ := kept.fits
      have wide : esize ≠ .bit := by
        rintro rfl
        have bits := sized _ _ _ _ rfl
        change 1 = 8 * width at bits
        omega
      rw [Content.itemBits, if_neg fun has => wide has.1]
      exact other wide
  | .flat (.bits n items) =>
      obtain ⟨-, -, holds⟩ := listed
      rw [Content.itemBits]
      split
      · next has => exact congrArg Bool.toNat (holds index has.2 dflt)
      · next none =>
        rw [Message.listGetBool, if_pos (.inr (.inr (not_lt.mp fun inside => none ⟨rfl, inside⟩)))]
        rfl
  | .flat (.bytes given) =>
      rw [Content.itemBits, if_neg nofun]
      exact other nofun

/-- A default that is left out is false. -/
theorem optional_boolean {dflt : Option Value} (default : Storage.bool.HoldsDefault dflt) :
    ∃ flag, optional getBoolean 2 false dflt = .ok flag ∧
      flag.toNat = Storage.bool.defaultBits dflt := by
  cases dflt with
  | none => exact ⟨false, rfl, rfl⟩
  | some value =>
      obtain ⟨flag, rfl⟩ := Storage.holds_bool.mp (default value rfl)
      exact ⟨flag, rfl, rfl⟩

/-- The integer cases load with the bits of the default. -/
theorem integerAt_eq {t : IntType} {getArg : Nat → Value → Except Panic Int}
    (accepts : ∀ i, t.InRange i → getArg 2 (.integer i) = .ok i) {load : Nat → Nat}
    {dflt : Option Value} (default : (Storage.int t).HoldsDefault dflt) :
    integerAt t getArg load dflt =
      .ok ((Storage.int t).ofBits (load ((Storage.int t).defaultBits dflt))) := by
  cases dflt with
  | none =>
      have zero : t.toBits 0 = 0 := by simp [IntType.toBits]
      change Except.ok (Value.integer (t.ofBits (load (t.toBits 0)))) = _
      rw [zero]
      rfl
  | some value =>
      obtain ⟨i, rfl, inRange⟩ := Storage.holds_int.mp (default value rfl)
      unfold integerAt
      rw [show optional getArg 2 0 (some (.integer i)) = .ok i from accepts i inRange]
      rfl

theorem realAt_eq {bytes : Nat} {load : Nat → Nat} {dflt : Option Value}
    (default : (Storage.real bytes).HoldsDefault dflt) :
    realAt bytes load dflt =
      .ok ((Storage.real bytes).ofBits (load ((Storage.real bytes).defaultBits dflt))) := by
  cases dflt with
  | none => rfl
  | some value =>
      obtain ⟨bits, rfl, below⟩ := Storage.holds_real.mp (default value rfl)
      unfold realAt
      rw [show optional (getReal bytes) 2 0 (some (.real bits)) = .ok bits from if_pos below]
      rfl

end

section
variable {d : Draft} {place : Nat → BPtr} {b : Builder} {m : Message} {p : Ptr} {ref : Ref}
  {kind : ListKind} {index : Nat}
  (built : m.BuiltFrom b) (drawn : Drawn d place b) (stands : Stands d place p ref)
include built drawn stands

/-- The functions of the library read an element as the draft has it. -/
theorem Stands.item_eq (wide : kind.esize ≠ .bit) (dflt : Nat) :
    m.listGetScalar kind.esize kind.bytes p index dflt = (d.itemBits kind index ref).getD dflt := by
  have is := stands.kind
  have nothing (other : p.kind ≠ .list) :
      m.listGetScalar kind.esize kind.bytes p index dflt = dflt := if_pos (.inl other)
  cases ref with
  | null => exact nothing (is.trans_ne nofun)
  | cap a => exact nothing (is.trans_ne nofun)
  | row id i => exact nothing (is.trans_ne nofun)
  | list id =>
      obtain ⟨c, found, list, rfl⟩ := stands
      rw [itemBits, found]
      exact (drawn.kept id c found).item_eq built list wide

theorem Stands.bit_eq (dflt : Bool) :
    (m.listGetBool p index dflt).toNat = (d.itemBits .bool index ref).getD dflt.toNat := by
  have is := stands.kind
  have nothing (other : p.kind ≠ .list) : (m.listGetBool p index dflt).toNat = dflt.toNat :=
    congrArg Bool.toNat (if_pos (.inl other))
  cases ref with
  | null => exact nothing (is.trans_ne nofun)
  | cap a => exact nothing (is.trans_ne nofun)
  | row id i => exact nothing (is.trans_ne nofun)
  | list id =>
      obtain ⟨c, found, list, rfl⟩ := stands
      rw [itemBits, found]
      exact (drawn.kept id c found).bit_eq built list dflt

/-- An element getter of the module returns the element, or the default. -/
theorem Stands.value_eq (small : index < 2 ^ 32) {dflt : Option Value}
    (default : kind.storage.HoldsDefault dflt) :
    cfunListGetValue kind m p index dflt =
      .ok (kind.storage.ofBits ((d.itemBits kind index ref).getD (kind.storage.defaultBits dflt))) := by
  have inRange : IntType.u32.InRange index := by
    simp only [IntType.InRange, IntType.signed, IntType.bytes, Bool.false_eq_true, if_false]
    omega
  have integer (t : IntType) (storage : kind.storage = .int t) (wide : kind.esize ≠ .bit)
      (getArg : Nat → Value → Except Panic Int)
      (accepts : ∀ i, t.InRange i → getArg 2 (.integer i) = .ok i) :
      integerAt t getArg (m.listGetScalar kind.esize kind.bytes p index) dflt =
        .ok (kind.storage.ofBits
          ((d.itemBits kind index ref).getD (kind.storage.defaultBits dflt))) := by
    rw [storage] at default ⊢
    rw [integerAt_eq accepts default, stands.item_eq built drawn wide]
  have real (bytes : Nat) (storage : kind.storage = .real bytes) (wide : kind.esize ≠ .bit) :
      realAt bytes (m.listGetScalar kind.esize kind.bytes p index) dflt =
        .ok (kind.storage.ofBits
          ((d.itemBits kind index ref).getD (kind.storage.defaultBits dflt))) := by
    rw [storage] at default ⊢
    rw [realAt_eq default, stands.item_eq built drawn wide]
  unfold cfunListGetValue
  rw [if_neg (not_not.mpr inRange)]
  cases kind with
  | bool =>
      obtain ⟨flag, taken, bits⟩ := optional_boolean default
      dsimp only
      rw [taken]
      have read : (m.listGetBool p index flag).toNat = _ := stands.bit_eq built drawn flag
      rw [bits] at read
      change Except.ok (Value.boolean _) = .ok (.boolean _)
      rw [ListKind.storage, ← read]
      cases m.listGetBool p index flag <;> rfl
  | i8 => exact integer .i8 rfl (by decide) _ fun i inRange => getByteArg_ok rfl _ _ 2 inRange
  | u8 => exact integer .u8 rfl (by decide) _ fun i inRange => getByteArg_ok rfl _ _ 2 inRange
  | i16 => exact integer .i16 rfl (by decide) _ fun i inRange => getInteger_ok 2 inRange
  | u16 => exact integer .u16 rfl (by decide) _ fun i inRange => getInteger_ok 2 inRange
  | i32 => exact integer .i32 rfl (by decide) _ fun i inRange => getInteger_ok 2 inRange
  | u32 => exact integer .u32 rfl (by decide) _ fun i inRange => getInteger_ok 2 inRange
  | i64 => exact integer .i64 rfl (by decide) _ fun i inRange => getInteger_ok 2 inRange
  | u64 => exact integer .u64 rfl (by decide) _ fun i inRange => getInteger_ok 2 inRange
  | f32 => exact real 4 rfl (by decide)
  | f64 => exact real 8 rfl (by decide)

end

/-! ## Texts and data -/

/-- A read of bytes succeeds with these, or fails if there are none. -/
def Brings (got : Status × List UInt8) : Option (List UInt8) → Prop
  | some bytes => got = (.ok, bytes)
  | none => got.1 ≠ .ok

section
variable {m : Message} {p : Ptr} {got : Option (List UInt8)}

/-- The text of a list of bytes. -/
theorem textOf_eq : m.textOf p = untilNul (m.listBytes p p.count) := by
  unfold Message.textOf untilNul
  cases p.count with
  | zero => rfl
  | succ n =>
      have cut : m.listBytes p (n + 1) = m.listBytes p n ++ [m.listByte p n] := by
        rw [Message.listBytes, List.range_succ, List.map_append]
        rfl
      rw [cut, List.getLast?_concat, List.dropLast_concat, Nat.add_sub_cancel]
      by_cases nul : m.listByte p n = 0
      · rw [if_pos ⟨Nat.succ_pos n, nul⟩, if_pos (congrArg some nul)]
      · rw [if_neg fun both => nul both.2, if_neg fun same => nul (Option.some.inj same)]

/-- A text is read like data. -/
theorem textRead_eq (r : Resolved) :
    m.textRead r = ((m.dataRead r).1, untilNul (m.dataRead r).2) := by
  unfold Message.textRead Message.dataRead
  split
  · rfl
  · split
    · rfl
    · split
      · rfl
      · rw [textOf_eq]

theorem Brings.text {r : Resolved} (brings : Brings (m.dataRead r) got) :
    Brings (m.textRead r) (got.map untilNul) := by
  rw [textRead_eq]
  cases got with
  | none => exact brings
  | some bytes =>
      have same : m.dataRead r = (.ok, bytes) := brings
      rw [same]
      rfl

/-- Without the element there is no text. -/
theorem listGetText_failed {index left : Nat} (fails : (m.listGetp p index Ptr.zero left).rc ≠ .ok) :
    (Message.bytesRead (m.listGetText p index left)).1 ≠ .ok := by
  unfold Message.listGetText Message.bytesRead
  split
  · exact nofun
  · cases p.esize with
    | ptr =>
        dsimp only
        rw [if_pos fails]
        exact fails
    | composite =>
        dsimp only
        rw [if_pos fails]
        exact fails
    | _ => exact nofun

/-- What a function returns after a read of bytes. -/
theorem Brings.returns {r : Status × List UInt8 × Nat} (brings : Brings (Message.bytesRead r) got)
    (panic : Panic) : Returns (if r.1 ≠ .ok then .error panic r.2.2 else .ok r.2.1 r.2.2) got := by
  cases got with
  | none => exact ⟨panic, r.2.2, if_pos brings⟩
  | some bytes =>
      obtain ⟨rc, out, left⟩ := r
      obtain ⟨rfl, rfl⟩ := Prod.mk.inj brings
      exact ⟨left, rfl⟩

end

section
variable {d : Draft} {place : Nat → BPtr} {b : Builder} {m : Message} {p : Ptr} {ref : Ref}
  (built : m.BuiltFrom b) (drawn : Drawn d place b)
include built drawn

/-- The bytes of a list are read as the draft has them. -/
theorem Stands.brings (stands : Stands d place p ref) (left : Nat) :
    Brings (m.dataRead ⟨.ok, p, left⟩) (d.bytes ref) := by
  have kind := stands.kind
  have refused (some : p.kind ≠ .null) (other : p.kind ≠ .list ∨ p.esize ≠ .byte) :
      (m.dataRead ⟨.ok, p, left⟩).1 ≠ .ok := by
    rw [Message.dataRead_ok, if_neg some, if_pos other]
    exact nofun
  have given {bytes : List UInt8} (holds : m.HoldsBytes p bytes) :
      m.dataRead ⟨.ok, p, left⟩ = (.ok, bytes) := by
    obtain ⟨list, esize, count, same⟩ := holds
    rw [Message.dataRead_ok, if_neg (show p.kind ≠ .null from list.trans_ne nofun),
      if_neg (not_or.mpr ⟨not_not.mpr list, not_not.mpr esize⟩), count, same]
  cases ref with
  | null => exact if_pos kind
  | cap a => exact refused (kind.trans_ne nofun) (.inl (kind.trans_ne nofun))
  | row id i => exact refused (kind.trans_ne nofun) (.inl (kind.trans_ne nofun))
  | list id =>
      obtain ⟨c, found, list, rfl⟩ := stands
      have kept := drawn.kept id c found
      have listed := kept.listed built list
      rw [bytes, found, Option.bind_some]
      have other (narrow : (c.handle (place id)).esize ≠ .byte) :
          (m.dataRead ⟨.ok, c.handle (place id), left⟩).1 ≠ .ok :=
        refused (kind.trans_ne nofun) (.inr narrow)
      match c with
      | .block .struct n nd np row => exact absurd rfl (list n nd np row)
      | .block .composite n nd np row => exact other nofun
      | .block .pointers n nd np row => exact other nofun
      | .flat (.bits n items) => exact other nofun
      | .flat (.bytes given') => exact given listed
      | .flat (.scalars esize width n items) =>
          obtain ⟨-, -, -, sized⟩ := kept.fits
          cases esize with
          | byte =>
              have width : width = 1 := by
                have bits := sized _ _ _ _ rfl
                change 8 = 8 * width at bits
                omega
              subst width
              exact given (holdsBytes_scalars listed)
          | _ => exact other nofun

/-- A step of a reader, and the bytes there. -/
theorem Stands.step_brings (few : m.nsegs < 2 ^ 32) (limit : m.depthLimit = defaultDepthLimit)
    (stands : Stands d place p ref) {step : Step} {left : Nat} (enough : d.dues ref [step] ≤ left) :
    Brings (m.dataRead (m.step p left step)) ((d.follow ref step).toOption.bind d.bytes) := by
  cases follows : d.follow ref step with
  | error rc =>
      obtain ⟨fails, failed⟩ : (m.step p left step).rc = rc ∧ rc ≠ .ok :=
        stands.step_fails drawn follows
      have notOk : (m.step p left step).rc ≠ .ok := fails.trans_ne failed
      change (m.dataRead _).1 ≠ .ok
      rw [Message.dataRead, if_pos notOk]
      exact notOk
  | ok next =>
      rw [dues, follows] at enough
      obtain ⟨q, cost, -, read, stands'⟩ :=
        drawn.step built few limit stands follows (Nat.le_of_add_right_le enough)
      rw [read]
      exact stands'.brings built drawn _

section
variable (few : m.nsegs < 2 ^ 32) (limit : m.depthLimit = defaultDepthLimit) {left index : Nat}
include few limit

/-- A text is read as the draft has it. -/
theorem Stands.text_brings (stands : Stands d place p ref)
    (enough : d.dues ref [.getp index] ≤ left) :
    Brings (Message.bytesRead (m.getText p index left)) (d.textAt ref index) := by
  rw [Message.getText_eq]
  exact (stands.step_brings built drawn few limit enough).text

/-- So is the text of an element. -/
theorem Stands.element_brings (stands : Stands d place p ref)
    (enough : d.dues ref [.listGetp index, .getp 0] ≤ left) :
    Brings (Message.bytesRead (m.listGetText p index left)) (d.elementText index ref) := by
  have kind := stands.kind
  have refused (other : p.kind ≠ .list) :
      (Message.bytesRead (m.listGetText p index left)).1 ≠ .ok :=
    listGetText_failed ((listGetp_rc_of_kind other index Ptr.zero).trans_ne (by decide))
  have first : d.dues ref [.listGetp index] ≤ left := by
    rw [dues] at enough ⊢
    cases follows : d.follow ref (.listGetp index) with
    | ok next =>
        rw [follows] at enough
        exact Nat.le_of_add_right_le enough
    | error rc => exact Nat.zero_le _
  cases ref with
  | null => exact refused fun same => by cases kind.symm.trans same
  | cap a => exact refused fun same => by cases kind.symm.trans same
  | row id i => exact refused fun same => by cases kind.symm.trans same
  | list id =>
      have came := stands.step_brings built drawn few limit first
      obtain ⟨c, found, list, rfl⟩ := stands
      have kept := drawn.kept id c found
      rw [elementText, found]
      cases c with
      | block shape n nd np row =>
          cases shape with
          | struct => exact absurd rfl (list n nd np row)
          | pointers =>
              rw [Message.listGetText_pointer rfl rfl]
              exact came.text
          | composite =>
              dsimp only
              split
              · next inside =>
                rw [Message.listGetText_composite rfl inside]
                refine (kept.element built found inside).text_brings built drawn few limit ?_
                have leads : d.follow (.list id) (.listGetp index) = .ok (.row id index) := by
                  rw [follow, found]
                  exact if_pos inside
                rw [dues, leads] at enough
                exact Nat.le_of_add_left_le enough
              · next outside =>
                have past : (m.listGetp ((Content.block .composite n nd np row).handle (place id)) index
                    Ptr.zero left).rc = .bounds := listGetp_rc_of_count rfl outside Ptr.zero
                exact listGetText_failed (past.trans_ne (by decide))
      | flat packed =>
          obtain ⟨-, pointers, composite, -⟩ := kept.fits
          have leads : ∃ rc, d.follow (.list id) (.listGetp index) = .error rc := by
            rw [follow, found]
            dsimp only
            split <;> exact ⟨_, rfl⟩
          obtain ⟨rc, leads⟩ := leads
          rw [leads]
          refine listGetText_failed ?_
          by_cases inside : index < packed.count
          · exact (listGetp_rc_of_flat rfl pointers composite inside Ptr.zero).trans_ne (by decide)
          · exact (listGetp_rc_of_count rfl inside Ptr.zero).trans_ne (by decide)

end

omit built in
/-- Bytes fit into a string of Janet. -/
theorem length_bytes_lt {given : List UInt8} (some : d.bytes ref = some given) :
    given.length < 2 ^ 29 := by
  cases ref with
  | null =>
      cases some
      decide
  | cap a => cases some
  | row id i => cases some
  | list id =>
      rw [bytes] at some
      obtain ⟨c, found, has⟩ := Option.bind_eq_some_iff.mp some
      have fits := (drawn.kept id c found).fits
      match c with
      | .block _ _ _ _ _ => cases has
      | .flat (.bits _ _) => cases has
      | .flat (.bytes _) =>
          cases has
          exact fits.1
      | .flat (.scalars esize width n items) =>
          cases esize with
          | byte =>
              cases has
              rw [List.length_map, List.length_range]
              exact fits.1
          | _ => cases has

/-- A handle that stands for something tells it. -/
theorem Stands.tells (few : m.nsegs < 2 ^ 32) (limit : m.depthLimit = defaultDepthLimit)
    (stands : Stands d place p ref) : Tells d m p ref where
  kind := stands.kind
  fields a offset dflt small default := by
    rw [a.get_reads m p offset dflt small default, stands.load_eq built drawn]
  length := stands.length_eq
  items kind index dflt small default := stands.value_eq built drawn small default
  texts index left small enough := by
    unfold cfunGetText
    rw [if_neg (not_not.mpr (inRange_i32 small)), toBits_u16]
    exact (stands.text_brings built drawn few limit enough).returns _
  data index left small enough := by
    have brings : Brings (Message.bytesRead (m.getData p index left)) (d.dataAt ref index) := by
      rw [Message.getData_eq]
      exact stands.step_brings built drawn few limit enough
    have returns := brings.returns (.text "capnp/get-data: error")
    unfold cfunGetData
    rw [if_neg (not_not.mpr (inRange_i32 (by omega))), if_neg (by omega), Int.toNat_natCast]
    dsimp only
    split
    · next failed => rwa [if_pos failed] at returns
    · next ok =>
      rw [if_neg ok] at returns
      rw [if_neg]
      · exact returns
      · cases holds : d.dataAt ref index with
        | none =>
            rw [holds] at brings
            exact absurd brings ok
        | some given =>
            rw [holds] at brings
            obtain ⟨next, -, has⟩ := Option.bind_eq_some_iff.mp holds
            have short := length_bytes_lt drawn has
            have same : (m.getData p index left).2.1 = given := congrArg Prod.snd brings
            rw [same]
            omega
  elementTexts index left small enough := by
    unfold cfunListGetText
    rw [if_neg (not_not.mpr (inRange_i32 small)), if_neg (by omega), toBits_u32 (by omega)]
    exact (stands.element_brings built drawn few limit enough).returns _

end

end Draft

/-! ## Whole scripts -/

namespace Janet

open Draft

/-- Nothing has been called yet. -/
theorem simulates_init (firstWords : Nat) :
    Simulates firstWords ⟨⟨Builder.initSized firstWords, false⟩, []⟩ blank [] where
  follows := ⟨⟨Arena.inv_init firstWords, fun _ => ⟨fun _ => ⟨0, 0⟩, draws_init firstWords _⟩⟩,
    unlimited_initSized firstWords, fun _ => doubling_initSized firstWords⟩
  numbered := rfl
  handles := .nil
  marked := rfl
  fresh := fun _ => ⟨rfl, rfl⟩

/-- A new builder has no limit of its own. -/
theorem cfunNewBuilder_eq_ok {given : Option Nat} {wrap : BuilderWrap}
    (new : cfunNewBuilder given = .ok wrap) :
    wrap = ⟨Builder.initSized (given.getD builderDefaultFirstWords), false⟩ := by
  cases given with
  | none =>
      cases new
      rfl
  | some firstWords =>
      unfold cfunNewBuilder at new
      dsimp only at new
      split at new
      · cases new
      · cases new
        rfl

/-- A script and its session go side by side, call by call. -/
theorem simulates_of_reached {firstWords : Nat} {o : Script × Draft}
    (reached : Reached (⟨⟨Builder.initSized firstWords, false⟩, []⟩, blank)
      (observed Script.step Script.note) (fun _ call => call.counts = true) o) :
    ∃ slots, Simulates firstWords o.1 o.2 slots := by
  apply reached.invariant
  · exact ⟨[], simulates_init firstWords⟩
  · rintro ⟨s, d⟩ call ⟨slots, sim⟩ counts
    exact sim.step call counts

/-- A struct with a number, a text and a list of two numbers; the second call is refused. -/
def menu : List Call :=
  [.initRoot 1 2, .initRoot 1 1, .set .u16 0 2 (.integer 70) none,
    .setText 0 0 (.item (.bytes ⟨[116, 101, 97], by decide⟩)),
    .setList .i8 0 1 (.indexed ⟨[.scalar (.integer (-1)), .scalar (.integer 5)], by decide⟩)]

/-- The script after these calls, with what it has drawn. -/
def served : Script × Draft :=
  menu.foldl (observed Script.step Script.note) (⟨⟨Builder.initSized 1, false⟩, []⟩, blank)

theorem served_reached : Reached (⟨⟨Builder.initSized 1, false⟩, []⟩, blank)
    (observed Script.step Script.note) (fun _ call => call.counts = true) served :=
  Reached.start.of_passes (fun _ _ counts => counts) (by decide +kernel)

theorem served_finished : cfunFinishBuilder served.1.wrap.rootInitialized served.1.wrap.builder =
    .ok served.1.wrap.builder.flatBytes :=
  rfl

/-! ## Few segments -/

/-- A builder that has been finished has a root, and Janet can hold its message. -/
theorem finished_of_simulates {firstWords : Nat} {s : Script} {d : Draft} {slots : List BPtr}
    (sim : Simulates firstWords s d slots) {flat : List UInt8}
    (finished : cfunFinishBuilder s.wrap.rootInitialized s.wrap.builder = .ok flat) :
    d.started = true ∧ s.wrap.builder.serialize = .ok flat ∧ flat.length < 2 ^ 31 := by
  have marked : s.wrap.rootInitialized = true := by
    by_contra unmarked
    rw [Bool.eq_false_iff.mpr unmarked] at finished
    cases finished
  rw [marked] at finished
  exact ⟨sim.marked.symm.trans marked, cfunFinishBuilder_ok finished⟩

/-- What Janet can hold is below the limit. -/
theorem below_of_short {b : Builder} {flat : List UInt8} (done : b.serialize = .ok flat)
    (short : flat.length < 2 ^ 31) : b.Below := by
  obtain ⟨-, -, rfl⟩ := serialize_eq done
  rw [length_flatBytes] at short
  intro s inside
  have part := words_le_wordsBefore (fun i => (b.seg i).words) inside
  rw [builderMaxSegmentWords]
  omega

theorem pair_le_wordsBefore (size : Nat → Nat) {n i : Nat} (inside : i + 1 < n) :
    size i + size (i + 1) ≤ Frame.wordsBefore size n := by
  induction n with
  | zero => exact absurd inside (Nat.not_lt_zero _)
  | succ n ih =>
      rw [Frame.wordsBefore]
      by_cases last : i + 1 = n
      · subst last
        exact Nat.add_le_add_right (words_le_wordsBefore size (Nat.lt_succ_self i)) _
      · exact (ih (by omega)).trans (Nat.le_add_right _ _)

/-- The segments of a script's message are few.  However a script builds it, a message
of at most `8 * firstWords * 2 ^ k` bytes has at most `k + 1` segments; and up to
`k = 15` it can be opened again. -/
theorem script_segments {given : Option Nat} {wrap : BuilderWrap}
    (new : cfunNewBuilder given = .ok wrap) {o : Script × Draft}
    (reached : Reached (⟨wrap, []⟩, blank) (observed Script.step Script.note)
      (fun _ call => call.counts = true) o) {flat : List UInt8}
    (finished : cfunFinishBuilder o.1.wrap.rootInitialized o.1.wrap.builder = .ok flat) {k : Nat}
    (small : flat.length ≤ 8 * (given.getD builderDefaultFirstWords * 2 ^ k)) :
    o.1.wrap.builder.nsegs ≤ k + 1 ∧ (k ≤ 15 → ∃ m, cfunMessageFromBuffer flat = .ok m) := by
  obtain rfl := cfunNewBuilder_eq_ok new
  obtain ⟨slots, sim⟩ := simulates_of_reached reached
  obtain ⟨-, done, short⟩ := finished_of_simulates sim finished
  have few : o.1.wrap.builder.nsegs ≤ k + 1 := by
    by_contra many
    have full := (sim.follows.doubling (below_of_short done short)).full k (by omega)
    have pair := pair_le_wordsBefore (fun i => (o.1.wrap.builder.seg i).words)
      (show k + 1 < o.1.wrap.builder.nsegs by omega)
    obtain ⟨-, -, rfl⟩ := serialize_eq done
    rw [length_flatBytes] at small short
    rw [doubled, builderMaxSegmentWords] at full
    omega
  refine ⟨few, fun most => ?_⟩
  have inv := sim.follows.drafted.1
  have limit := inLimit_of_segments inv.wf fun s inside => (below_of_short done short s inside).le
  obtain ⟨m, parsed, -⟩ := parsed_of_inLimit inv.wf limit
    (few.trans (Nat.succ_le_succ most)) done
  refine ⟨m, ?_⟩
  unfold cfunMessageFromBuffer
  rw [parsed]

theorem script_segments_served : served.1.wrap.builder.nsegs ≤ 5 ∧
    (4 ≤ 15 → ∃ m, cfunMessageFromBuffer served.1.wrap.builder.flatBytes = .ok m) := by
  have new : cfunNewBuilder (some 1) = .ok ⟨Builder.initSized 1, false⟩ := rfl
  exact script_segments new served_reached served_finished (k := 4) (by decide +kernel)

/-! ## Reading back -/

/-- A step that leads nowhere has a code for that. -/
theorem follow_failed {d : Draft} {ref : Ref} {step : Step} {rc : Status}
    (fails : d.follow ref step = .error rc) : rc ≠ .ok := by
  rintro rfl
  cases step with
  | getp k =>
      cases ref with
      | row id i =>
          rw [follow] at fails
          split at fails
          · split at fails <;> cases fails
          · cases fails
      | null => cases fails
      | cap a => cases fails
      | list id => cases fails
  | listGetp i =>
      cases ref with
      | list id =>
          rw [follow] at fails
          split at fails
          · split at fails <;> cases fails
          · split at fails <;> cases fails
          · split at fails <;> cases fails
          · cases fails
      | null => cases fails
      | cap a => cases fails
      | row id i => cases fails

theorem walk_failed {d : Draft} {path : List Step} {ref : Ref} {rc : Status}
    (fails : d.walk ref path = .error rc) : rc ≠ .ok := by
  induction path generalizing ref with
  | nil => cases fails
  | cons step rest ih =>
      rw [Draft.walk] at fails
      cases follows : d.follow ref step with
      | error rc' =>
          rw [follows] at fails
          cases fails
          exact follow_failed follows
      | ok next =>
          rw [follows] at fails
          exact ih fails

/-- A reading script comes to what the draft says, or panics where that leads
nowhere. -/
def Told (d : Draft) (m : Message) (x : EStateM.Result Panic Nat Ptr) : Except Status Ref → Prop
  | .ok ref => ∃ p left, x = .ok p left ∧ Tells d m p ref
  | .error _ => ∃ panic left, x = .error panic left

/-- A reading script follows the draft of a message. -/
theorem told {d : Draft} {place : Nat → BPtr} {b : Builder} {m : Message} (drawn : Drawn d place b)
    (started : d.started = true) (built : m.BuiltFrom b) (few : m.nsegs < 2 ^ 32)
    (limit : m.depthLimit = defaultDepthLimit) {path : List Step} {left : Nat}
    (indexed : ∀ step ∈ path, Indexed step)
    (enough : d.price d.top + d.dues d.top (path.map taken) ≤ left) :
    Told d m (readAlong m path left) (d.walk d.top (path.map taken)) := by
  have gives : Gives (readAlong m path left) _ := readAlong_gives indexed
  have comes := drawn.comes started built few limit (path.map taken) enough
  unfold Gives at gives
  cases leads : d.walk d.top (path.map taken) with
  | ok ref =>
      rw [leads] at comes
      rw [if_pos comes.1] at gives
      exact ⟨_, _, gives, comes.2.tells built drawn few limit⟩
  | error rc =>
      rw [leads] at comes
      have failed : (m.walk (m.root Ptr.zero left) (path.map taken)).rc ≠ .ok :=
        Eq.trans_ne comes (walk_failed leads)
      rw [if_neg failed] at gives
      obtain ⟨panic, stops⟩ := gives
      exact ⟨panic, _, stops⟩

/-- A finished builder opens as a message of its draft. -/
theorem Simulates.opens {firstWords : Nat} {s : Script} {d : Draft} {slots : List BPtr}
    (sim : Simulates firstWords s d slots) {flat : List UInt8}
    (finished : cfunFinishBuilder s.wrap.rootInitialized s.wrap.builder = .ok flat)
    (few : s.wrap.builder.nsegs ≤ maxSegments) :
    d.started = true ∧ ∃ place m, cfunMessageFromBuffer flat = .ok m ∧
      Drawn d place s.wrap.builder ∧ m.BuiltFrom s.wrap.builder ∧ m.nsegs < 2 ^ 32 ∧
      m.depthLimit = defaultDepthLimit := by
  obtain ⟨inv, drafted⟩ := sim.follows.drafted
  obtain ⟨started, done, short⟩ := finished_of_simulates sim finished
  have limit := inLimit_of_segments inv.wf fun s inside => (below_of_short done short s inside).le
  obtain ⟨place, draws⟩ := drafted limit
  obtain ⟨m, parsed, built, segments, deep⟩ := parsed_of_inLimit inv.wf limit few done
  have opened : cfunMessageFromBuffer flat = .ok m := by
    unfold cfunMessageFromBuffer
    rw [parsed]
  exact ⟨started, place, m, opened, draws.drawn, built, segments, deep⟩

/-- What a script has built is what another script reads.  A script may call the
functions of the module in any order, with any arguments, and go on after a panic.  If
its builder is finished with at most 16 segments, the buffer opens as a message, and a
script that reads from the root along any path comes to what the draft of the first
script says, with every field, element, text and data of it, as long as the traversal
budget lasts. -/
theorem script_reads_back {given : Option Nat} {wrap : BuilderWrap}
    (new : cfunNewBuilder given = .ok wrap) {o : Script × Draft}
    (reached : Reached (⟨wrap, []⟩, blank) (observed Script.step Script.note)
      (fun _ call => call.counts = true) o) {flat : List UInt8}
    (finished : cfunFinishBuilder o.1.wrap.rootInitialized o.1.wrap.builder = .ok flat)
    (few : o.1.wrap.builder.nsegs ≤ maxSegments) :
    ∃ m, cfunMessageFromBuffer flat = .ok m ∧
      ∀ path left, (∀ step ∈ path, Indexed step) →
        o.2.price o.2.top + o.2.dues o.2.top (path.map taken) ≤ left →
          Told o.2 m (readAlong m path left) (o.2.walk o.2.top (path.map taken)) := by
  obtain rfl := cfunNewBuilder_eq_ok new
  obtain ⟨slots, sim⟩ := simulates_of_reached reached
  obtain ⟨started, place, m, opened, drawn, built, segments, deep⟩ := sim.opens finished few
  exact ⟨m, opened, fun path left indexed enough =>
    told drawn started built segments deep indexed enough⟩

theorem script_reads_back_served :
    ∃ m, cfunMessageFromBuffer served.1.wrap.builder.flatBytes = .ok m ∧
      ∀ path left, (∀ step ∈ path, Indexed step) →
        served.2.price served.2.top + served.2.dues served.2.top (path.map taken) ≤ left →
          Told served.2 m (readAlong m path left) (served.2.walk served.2.top (path.map taken)) := by
  have new : cfunNewBuilder (some 1) = .ok ⟨Builder.initSized 1, false⟩ := rfl
  exact script_reads_back new served_reached served_finished (by decide +kernel)

example : served.1.wrap.builder.nsegs = 2 := by decide +kernel

example : served.2.textAt served.2.top 0 = some [116, 101, 97] := by decide +kernel

example : served.2.itemBits .i8 0 (.list 2) = some 255 := by decide +kernel

end Janet

end CapnpJanet
