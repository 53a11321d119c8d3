import CapnpJanet.Janet.Building

/-!
# The sections of a built struct

Does `capnp/build-message` stay inside the struct that it declares?  It accepts a field
behind its section as long as the field lies before the end of the segment.  There it
overwrites the pointers of the struct or the texts of earlier fields, or it goes into
words that nobody has asked for, depending on what has been allocated by then.  Fields in
their sections are read back from the message as they were listed, up to what a number
and a text can be.
-/

namespace CapnpJanet

open ByteMemory Builder Codegen Outcome

namespace Janet

/-! ## What a list should give -/

namespace ListedField

/-- The value that a scalar field lists. -/
def given (host : Host) (f : ListedField) : Option Value :=
  match f.kind, f.value with
  | .u16, value | .u32, value => value.integer.map .integer
  | .u64, value => (host.uint64 value).map fun n => .integer n.toNat
  | .f64, .number bits => some (.real bits.toNat)
  | .bool, value => some (.boolean value.truthy)
  | _, _ => none

/-- The number of a short integer field is an integer of 32 bits. -/
def InInt32 (f : ListedField) : Prop :=
  f.kind = .u16 ∨ f.kind = .u32 → ∃ z, f.value.integer = some z ∧ IntType.i32.InRange z

/-- The field is found with its value in the struct `p`. -/
def ReadsBack (host : Host) (m : Message) (p : Ptr) (f : ListedField) : Prop :=
  match f.kind.accessor with
  | some a => ∃ v, f.given host = some v ∧ a.get m p f.off none = .ok v
  | none => ∃ view cost, f.value = .string view ∧
      ∀ left, cost ≤ left → m.getText p f.off left = (.ok, view.bytes, left - cost)

/-- The value is one that the field can hold: a short integer is not negative and below
the limit of its type, and a text with its NUL has a length of 29 bits. -/
def Fits (f : ListedField) : Prop :=
  match f.kind with
  | .u16 => ∀ z, f.value.integer = some z → 0 ≤ z ∧ z < 2 ^ 16
  | .u32 => ∀ z, f.value.integer = some z → 0 ≤ z ∧ z < 2 ^ 32
  | .text => ∀ view, f.value = .string view → view.bytes.length + 1 < 2 ^ 29
  | .u64 | .f64 | .bool => True

end ListedField

/-- Pointer `k` of the struct `p` is null. -/
def ReadsNull (m : Message) (p : Ptr) (k : Nat) : Prop :=
  ∃ q cost, q.kind = .null ∧ ∀ left, cost ≤ left → m.getp p k Ptr.zero left = ⟨.ok, q, left - cost⟩

/-- A buffer is opened as a message, whose root has sections of these sizes.  It holds the
fields, and the rest of it is zero. -/
structure Decodes (host : Host) (dwords pwords : Nat) (fields : List ListedField)
    (flat : List UInt8) (m : Message) (p : Ptr) : Prop where
  opened : messageFromFlat flat = .ok m
  root : ∃ left, m.root Ptr.zero defaultTraversalWords = ⟨.ok, p, left⟩
  isStruct : p.kind = .struct
  dataSize : p.dwords = dwords
  pointerSize : p.pwords = pwords
  found : ∀ f ∈ fields, f.ReadsBack host m p
  clear : ∀ i < dwords * 64, (∀ f ∈ fields, i ∉ f.area dwords) →
    cfunGetBool m p i none = .ok (.boolean false)
  nulls : ∀ k < pwords, (∀ f ∈ fields, f.kind = .text → f.off ≠ k) → ReadsNull m p k

/-- The loop gets past these fields, with `body` as the struct. -/
def Reaches (host : Host) (dwords pwords : Int) (items : List JanetValue) (body : BPtr)
    (b : Builder) : Prop :=
  (0 ≤ dwords ∧ dwords < 2 ^ 16 ∧ 0 ≤ pwords ∧ pwords < 2 ^ 16) ∧
    ∃ b₀, startMessage dwords.toNat pwords.toNat Builder.init = .ok body b₀ ∧
      setFields host dwords.toNat body 0 items b₀ = .ok () b

/-- The list of fields is accepted, its fields do not overlap, and its short integers are
of 32 bits. -/
structure Accepted (host : Host) (dwords pwords : Int) (items : List JanetValue)
    (flat : List UInt8) : Prop where
  built : cfunBuildMessage host dwords pwords items = .ok (some flat)
  apart : Apart dwords.toNat (listedFields host items)
  integers : ∀ f ∈ listedFields host items, f.InInt32

/-- `capnp/build-message` stays inside the struct: the loop only gets past fields in
their sections, and an accepted list is decoded as it was given. -/
structure StaysInside (host : Host) (dwords pwords : Int) (items : List JanetValue) : Prop where
  accepts : ∀ before item after f body b, items = before ++ item :: after →
    readField host before.length item = .ok f → Reaches host dwords pwords (before ++ [item]) body b →
      f.Inside dwords.toNat pwords.toNat
  decodes : ∀ flat, Accepted host dwords pwords items flat →
    ∃ m p, Decodes host dwords.toNat pwords.toNat (listedFields host items) flat m p

/-- The condition: a field that is reached with a value of its kind lies in its section,
or else behind the end of the segment.  The values of an accepted list fit, and so do its
segments and bytes the frame. -/
structure Harmless (host : Host) (dwords pwords : Int) (items : List JanetValue) : Prop where
  sections : ∀ before item after f body b, items = before ++ item :: after →
    readField host before.length item = .ok f → Reaches host dwords pwords before body b →
      f.Takes host → f.Inside dwords.toNat pwords.toNat ∨ ¬f.InSegment b dwords.toNat body
  sizes : ∀ flat body b, Accepted host dwords pwords items flat →
    Reaches host dwords pwords items body b →
      (∀ f ∈ listedFields host items, f.Fits) ∧ b.nsegs ≤ maxSegments ∧ b.flatBytes.length < 2 ^ 31

/-! ## Values -/

section
variable {host : Host} {f : ListedField} {a : Accessor}

theorem unwrapInteger_of_integer {value : JanetValue} {z : Int} (integer : value.integer = some z)
    (inRange : IntType.i32.InRange z) : host.unwrapInteger value = z := by
  obtain ⟨q, rational, whole⟩ := Option.bind_eq_some_iff.mp integer
  split at whole
  · next den =>
    cases whole
    unfold Host.unwrapInteger
    rw [rational]
    dsimp only [keyInt32]
    rw [den, Nat.cast_one, Int.tdiv_one]
    simp only [IntType.InRange, IntType.signed, IntType.bytes, if_true] at inRange
    exact int32_of_fits (by omega)
  · cases whole

theorem holds_ofBits {s : Storage} {n : Nat} (small : n < 2 ^ s.width) : s.Holds (s.ofBits n) := by
  cases s with
  | bool => trivial
  | int t => exact inRange_ofBits small
  | real bytes =>
      rw [Storage.width, pow_mul] at small
      exact small

theorem ListedField.stored_lt (scalar : f.kind.accessor = some a) :
    f.stored host < 2 ^ a.storage.width := by
  obtain ⟨kind, off, value⟩ := f
  unfold stored
  cases kind with
  | u16 =>
      cases scalar
      exact toBits_lt_of_int .u16 _
  | u32 =>
      cases scalar
      exact toBits_lt_of_int .u32 _
  | u64 =>
      cases scalar
      dsimp only
      cases host.uint64 value with
      | none => exact Nat.two_pow_pos 64
      | some n => exact n.toNat_lt
  | f64 =>
      cases scalar
      cases value with
      | number bits => exact bits.toNat_lt
      | _ => exact Nat.two_pow_pos 64
  | bool =>
      cases scalar
      exact Bool.toNat_lt _
  | text => cases scalar

/-- The bits that are stored are those of the value, which is one of the field's type
exactly if it fits. -/
theorem ListedField.given_of_takes (scalar : f.kind.accessor = some a) (takes : f.Takes host)
    (integers : f.InInt32) : ∃ v, f.given host = some v ∧ f.stored host = a.storage.toBits v ∧
      (a.storage.Holds v ↔ f.Fits) := by
  obtain ⟨kind, off, value⟩ := f
  cases kind with
  | u16 =>
      cases scalar
      obtain ⟨z, integer, inRange⟩ := integers (.inl rfl)
      have unwrapped : host.unwrapInteger value = z := unwrapInteger_of_integer integer inRange
      dsimp only at integer
      refine ⟨.integer z, by simp [given, integer], by simp [stored, unwrapped, Accessor.storage,
        Storage.toBits], ?_⟩
      simp [Accessor.storage, Storage.Holds, IntType.InRange, IntType.signed, IntType.bytes, Fits,
        integer]
  | u32 =>
      cases scalar
      obtain ⟨z, integer, inRange⟩ := integers (.inr rfl)
      have unwrapped : host.unwrapInteger value = z := unwrapInteger_of_integer integer inRange
      dsimp only at integer
      refine ⟨.integer z, by simp [given, integer], by simp [stored, unwrapped, Accessor.storage,
        Storage.toBits], ?_⟩
      simp [Accessor.storage, Storage.Holds, IntType.InRange, IntType.signed, IntType.bytes, Fits,
        integer]
  | u64 =>
      cases scalar
      obtain ⟨n, converted⟩ := takes
      dsimp only at converted
      have small := n.toNat_lt
      refine ⟨.integer n.toNat, by simp [given, converted], ?_, ?_⟩
      · simp only [stored, converted, Option.elim, Accessor.storage, Storage.toBits, IntType.toBits,
          IntType.bytes]
        omega
      · simp only [Accessor.storage, Storage.Holds, IntType.InRange, IntType.signed, IntType.bytes, Fits]
        norm_num
        omega
  | f64 =>
      cases scalar
      obtain ⟨bits, rfl⟩ := takes
      exact ⟨.real bits.toNat, rfl, rfl, iff_of_true bits.toNat_lt trivial⟩
  | bool =>
      cases scalar
      exact ⟨.boolean value.truthy, rfl, rfl, iff_of_true trivial trivial⟩
  | text => cases scalar

end

/-! ## Reading the struct -/

/-- A message has been opened from what the fields have left. -/
structure Opened (host : Host) (w : BuilderPtr) (b₀ : Builder) (fields : List ListedField) (b : Builder)
    (m : Message) : Prop where
  building : Building host w b₀ fields b
  inUse : w.InUse b₀
  builtFrom : m.BuiltFrom b
  few : m.nsegs < 2 ^ 32
  limit : m.depthLimit = defaultDepthLimit

/-- The handle of the struct. -/
def BuilderPtr.ptr (w : BuilderPtr) : Ptr :=
  Message.structAt w.body.seg w.body.word w.dwords w.pwords

section
variable {host : Host} {w : BuilderPtr} {b₀ b : Builder} {fields : List ListedField} {m : Message}
  {f : ListedField}

theorem Opened.bit_eq (read : Opened host w b₀ fields b m) {i : Nat} (hi : i < w.dwords * 64) :
    bit (m.seg w.body.seg).data (w.start + i) = bit (b.seg w.body.seg).data (w.start + i) := by
  have inUse := read.inUse.later (read.building.writes.words_le _)
  exact bit_eq_of_builtFrom read.building.unlimited.wf read.builtFrom
    (used_of_inUse inUse (Nat.add_lt_add_left hi _))

/-- A scalar field is read as the bits that it was set to. -/
theorem Opened.scalar (read : Opened host w b₀ fields b m) (member : f ∈ fields) {a : Accessor}
    (scalar : f.kind.accessor = some a) :
    a.get m w.ptr f.off none = .ok (a.storage.ofBits (f.stored host)) := by
  have inside := (ListedField.inside_scalar scalar).mp (read.building.inside f member)
  have small := read.inUse.dwordsLt
  have loaded : a.storage.load m w.ptr f.off = f.stored host := by
    refine load_eq (views_structAt w) inside (ListedField.stored_lt scalar) fun k hk => ?_
    have place : a.storage.step * f.off + k ∈ f.area w.dwords := by
      rw [ListedField.area_scalar scalar]
      exact mem_bitRun.mpr ⟨Nat.le_add_right _ _, Nat.add_lt_add_left hk _⟩
    rw [Nat.add_assoc, read.bit_eq (by omega), read.building.scalars f member a scalar _ place,
      Nat.add_sub_cancel_left]
  have offLt : f.off < 2 ^ 31 := by
    have step : 1 ≤ a.storage.step := by
      unfold Storage.step
      split <;> decide
    have le := Nat.le_mul_of_pos_left f.off step
    omega
  rw [a.get_reads m w.ptr f.off none offLt nofun, loaded]
  simp [Storage.defaultBits]

theorem Opened.scalar_iff (read : Opened host w b₀ fields b m) (member : f ∈ fields) {a : Accessor}
    (scalar : f.kind.accessor = some a) (takes : f.Takes host) (integers : f.InInt32) :
    f.ReadsBack host m w.ptr ↔ f.Fits := by
  obtain ⟨v, given, stored, holds⟩ := f.given_of_takes scalar takes integers
  unfold ListedField.ReadsBack
  rw [scalar]
  dsimp only
  rw [given, read.scalar member scalar, ← holds, stored]
  constructor
  · rintro ⟨v', ⟨⟩, same⟩
    rw [← Except.ok.inj same]
    exact holds_ofBits (stored ▸ ListedField.stored_lt scalar)
  · exact fun fits => ⟨v, rfl, congrArg _ (Storage.ofBits_toBits fits)⟩

/-! ### Texts -/

/-- The slot of a text leads to its bytes, with as much of their number as a list pointer
holds. -/
theorem Opened.text (read : Opened host w b₀ fields b m) {k : Nat} {text : List UInt8}
    (hosts : HostsText b₀ b (w.slot k) text) :
    ∃ q cost, m.slotTarget m.depthLimit w.body.seg (w.slot k).word = some (q, cost) ∧
      q.kind = .list ∧ q.esize = .byte ∧ q.count = (text.length + 1) % 2 ^ 29 ∧
      ∀ j < text.length + 1, m.listByte q j = ofList text j := by
  obtain ⟨place, hosts⟩ := hosts
  have masked : (fun off => wpMakeList off .byte (text.length + 1)) =
      fun off => wpMakeList off .byte ((text.length + 1) % 2 ^ 29) := by
    funext off
    unfold wpMakeList
    rw [Nat.mod_mod]
  rw [masked] at hosts
  obtain ⟨q, cost, found, rfl, bytes⟩ := hosts.list read.builtFrom read.few read.limit (by decide)
    (Nat.mod_lt _ (by decide)) (by
      unfold listBodyWords wordsFor
      simp only [ElemSize.bits]
      omega)
  refine ⟨_, cost, found, rfl, rfl, rfl, fun j hj => bytes j ?_⟩
  unfold wordsFor
  omega

theorem length_textOf_le (m : Message) (q : Ptr) : (m.textOf q).length ≤ q.count := by
  unfold Message.textOf Message.listBytes
  split <;> simp

/-- A text is read back exactly if its length fits into a list pointer. -/
theorem Opened.text_iff (read : Opened host w b₀ fields b m) {k : Nat} {text : List UInt8}
    (inside : k < w.pwords) (hosts : HostsText b₀ b (w.slot k) text) :
    (∃ cost, ∀ left, cost ≤ left → m.getText w.ptr k left = (.ok, text, left - cost)) ↔
      text.length + 1 < 2 ^ 29 := by
  obtain ⟨q, cost, found, list, esize, count, bytes⟩ := read.text hosts
  have slotUsed : b.Used w.body.seg (w.slot k).word := hosts.choose_spec.inUse
  have small := (read.builtFrom.inSegment read.building.unlimited.wf slotUsed).lt
  have got {left : Nat} (enough : cost ≤ left) : m.getp w.ptr k Ptr.zero left = ⟨.ok, q, left - cost⟩ := by
    rw [BuilderPtr.ptr, Message.getp_structAt inside (by
      unfold BuilderPtr.slot at small
      dsimp only at small
      omega)]
    exact (m.resolvePtr_agrees _ _ _ _ _).covered q cost found enough
  have result {left : Nat} (enough : cost ≤ left) :
      m.getText w.ptr k left = (.ok, if q.count = 0 then [] else m.textOf q, left - cost) := by
    unfold Message.getText
    rw [got enough]
    dsimp only
    rw [if_neg (by decide), if_neg (by rw [list]; decide), if_neg (by simp [list, esize])]
    split <;> rfl
  constructor
  · rintro ⟨price, reads⟩
    have same := reads (max cost price) (le_max_right _ _)
    rw [result (le_max_left _ _)] at same
    have length := congrArg List.length (Prod.ext_iff.mp (Prod.ext_iff.mp same).2).1
    dsimp only at length
    have bound := length_textOf_le m q
    split at length
    · rw [List.length_nil] at length
      omega
    · omega
  · intro fits
    rw [Nat.mod_eq_of_lt fits] at count
    have whole : m.textOf q = text := by
      unfold Message.textOf
      rw [count, Nat.add_sub_cancel, if_pos ⟨Nat.succ_pos _, by
        rw [bytes _ (Nat.lt_succ_self _)]
        simp [ofList]⟩]
      exact listBytes_eq fun j hj => bytes j (hj.trans (Nat.lt_succ_self _))
    refine ⟨cost, fun left enough => ?_⟩
    rw [result enough, if_neg (by omega), whole]

/-! ### The whole struct -/

/-- Every field is read back exactly if it fits. -/
theorem Opened.readsBack_iff (read : Opened host w b₀ fields b m) (member : f ∈ fields)
    (takes : f.Takes host) (integers : f.InInt32) : f.ReadsBack host m w.ptr ↔ f.Fits := by
  cases scalar : f.kind.accessor with
  | some a => exact read.scalar_iff member scalar takes integers
  | none =>
      have text : f.kind = .text := by
        cases kind : f.kind <;> rw [kind] at scalar <;> first | rfl | cases scalar
      obtain ⟨view, given, hosts⟩ := read.building.texts f member text
      have inside := read.building.inside f member
      unfold ListedField.Inside at inside
      rw [text] at inside
      unfold ListedField.ReadsBack ListedField.Fits
      rw [scalar, text]
      dsimp only
      rw [given]
      have reads := read.text_iff inside hosts
      constructor
      · rintro ⟨_, cost, ⟨⟩, found⟩ _ ⟨⟩
        exact reads.mp ⟨cost, found⟩
      · intro fits
        obtain ⟨cost, found⟩ := reads.mpr (fits view rfl)
        exact ⟨view, cost, rfl, found⟩

theorem Opened.clear (read : Opened host w b₀ fields b m) {i : Nat} (hi : i < w.dwords * 64)
    (free : ∀ f ∈ fields, i ∉ f.area w.dwords) : cfunGetBool m w.ptr i none = .ok (.boolean false) := by
  have small := read.inUse.dwordsLt
  have loaded : Storage.bool.load m w.ptr i = 0 := by
    refine load_eq (views_structAt w) (by simp only [Storage.step, Storage.width]; omega)
      (Nat.two_pow_pos _) fun k hk => ?_
    obtain rfl := Nat.lt_one_iff.mp hk
    rw [Storage.step, Nat.one_mul, Nat.add_zero, read.bit_eq hi, read.building.clear i hi free]
    rfl
  rw [cfunGetBool_reads m w.ptr i none (by omega) fun _ unset => (by cases unset), loaded]
  rfl

theorem Opened.null (read : Opened host w b₀ fields b m) {k : Nat} (hk : k < w.pwords)
    (free : ∀ f ∈ fields, f.kind = .text → f.off ≠ k) : ReadsNull m w.ptr k := by
  have wf := read.building.unlimited.wf
  have room := (read.inUse.later (read.building.writes.words_le _)).inside
  have used : b.Used w.body.seg (w.slot k).word := by
    unfold Used BuilderPtr.slot
    dsimp only
    omega
  have inside := read.builtFrom.inSegment wf used
  have zero := (read.builtFrom.readWord_eq wf used).trans (read.building.nulls k hk free)
  have small := inside.lt
  refine ⟨nullPtr w.body.seg (w.slot k).word, 1, rfl, fun left enough => ?_⟩
  rw [BuilderPtr.ptr, Message.getp_structAt hk (by
    unfold BuilderPtr.slot at small
    dsimp only at small
    omega)]
  exact (m.resolvePtr_agrees _ _ _ _ _).covered _ 1
    (slotTarget_zero inside zero (by rw [read.limit]; decide)) enough

/-- A message is decoded as it was given exactly if all its fields fit. -/
theorem Opened.decodes_iff {dwords pwords : Nat} {body : BPtr} {flat : List UInt8}
    (started : startMessage dwords pwords Builder.init = .ok body b₀)
    (read : Opened host ⟨body, dwords, pwords⟩ b₀ fields b m) (opened : messageFromFlat flat = .ok m)
    (integers : ∀ f ∈ fields, f.InInt32) :
    (∃ m p, Decodes host dwords pwords fields flat m p) ↔ ∀ f ∈ fields, f.Fits := by
  have dwordsLt : dwords < 2 ^ 16 := read.inUse.dwordsLt
  have pwordsLt : pwords < 2 ^ 16 := read.inUse.pwordsLt
  obtain ⟨cost, cheap, named⟩ := root_found dwordsLt pwordsLt started read.building.writes read.builtFrom
    read.few read.limit
  have covered : cost ≤ defaultTraversalWords := by
    unfold defaultTraversalWords
    omega
  have some : m.nsegs ≠ 0 := by
    have nonempty := read.building.unlimited.wf.nonempty
    rw [read.builtFrom.nsegs] at nonempty
    exact nonempty.ne'
  have root : m.root Ptr.zero defaultTraversalWords =
      ⟨.ok, BuilderPtr.ptr ⟨body, dwords, pwords⟩, defaultTraversalWords - cost⟩ := by
    rw [Message.root, if_neg some, Message.resolvePtr_eq named covered]
    rfl
  constructor
  · rintro ⟨m', p, decodes⟩ f member
    obtain ⟨left, found⟩ := decodes.root
    obtain rfl : m' = m := Except.ok.inj (decodes.opened.symm.trans opened)
    rw [root] at found
    obtain rfl : BuilderPtr.ptr ⟨body, dwords, pwords⟩ = p := congrArg Resolved.out found
    exact (read.readsBack_iff member (read.building.takes f member) (integers f member)).mp
      (decodes.found f member)
  · intro fits
    exact ⟨m, _, opened, ⟨_, root⟩, rfl, rfl, rfl,
      fun f member => (read.readsBack_iff member (read.building.takes f member)
        (integers f member)).mpr (fits f member),
      fun i hi free => read.clear hi free, fun k hk free => read.null hk free⟩

end

/-! ## The buffer -/

section
variable {host : Host} {dwords pwords : Int} {items : List JanetValue} {body : BPtr} {b b' : Builder}

theorem pushedBuffer_eq_some {flat cut : List UInt8} (pushed : pushedBuffer flat = some cut) :
    cut = flat.take (flat.length % 2 ^ 32) ∧ flat.length % 2 ^ 32 < 2 ^ 31 := by
  unfold pushedBuffer toInt32 at pushed
  by_cases small : flat.length % 2 ^ 32 < 2 ^ 31
  · rw [if_pos small, if_neg (by omega)] at pushed
    rw [← Option.some.inj pushed]
    exact ⟨rfl, small⟩
  · rw [if_neg small, if_pos (by omega)] at pushed
    cases pushed

theorem pushedBuffer_of_short {flat : List UInt8} (short : flat.length < 2 ^ 31) :
    pushedBuffer flat = some flat := by
  unfold pushedBuffer
  rw [toInt32_of_lt short, if_neg (by omega), Int.toNat_natCast, List.take_length]

/-- A list is accepted exactly if the loop reaches its end and the serialization fits into
a buffer. -/
theorem cfunBuildMessage_eq_ok {flat : List UInt8} :
    cfunBuildMessage host dwords pwords items = .ok (some flat) ↔
      ∃ body b bytes, Reaches host dwords pwords items body b ∧ b.serialize = .ok bytes ∧
        pushedBuffer bytes = some flat := by
  have inRange {z : Int} (low : 0 ≤ z) (high : z < 2 ^ 16) : IntType.i32.InRange z := by
    simp only [IntType.InRange, IntType.signed, IntType.bytes, if_true]
    omega
  constructor
  · intro built
    unfold cfunBuildMessage at built
    split at built
    · cases built
    split at built
    · cases built
    split at built
    · cases built
    next counts =>
    split at built
    · cases built
    next body b₀ started =>
    split at built
    · cases built
    next b ran =>
    split at built
    · cases built
    next bytes done =>
    exact ⟨body, b, bytes, ⟨⟨by omega, by omega, by omega, by omega⟩, b₀, started, ran⟩, done,
      Except.ok.inj built⟩
  · rintro ⟨body, b, bytes, ⟨⟨low, high, low', high'⟩, b₀, started, ran⟩, done, pushed⟩
    unfold cfunBuildMessage
    rw [if_neg (not_not.mpr (inRange low high)), if_neg (not_not.mpr (inRange low' high')),
      if_neg (by omega), started]
    dsimp only
    rw [ran]
    dsimp only
    rw [done]
    exact congrArg _ pushed

theorem Reaches.unique {body' : BPtr} (one : Reaches host dwords pwords items body b)
    (other : Reaches host dwords pwords items body' b') : body' = body ∧ b' = b := by
  obtain ⟨-, b₀, started, ran⟩ := one
  obtain ⟨-, b₀', started', ran'⟩ := other
  cases started.symm.trans started'
  cases ran.symm.trans ran'
  exact ⟨rfl, rfl⟩

/-- The loop gets past one more field if that is set. -/
theorem reaches_concat {item : JanetValue} :
    Reaches host dwords pwords (items ++ [item]) body b' ↔
      ∃ b f, Reaches host dwords pwords items body b ∧ readField host items.length item = .ok f ∧
        setListed host dwords.toNat body f b = .ok () b' := by
  unfold Reaches
  simp only [setFields_concat]
  constructor
  · rintro ⟨counts, b₀, started, b, f, ran, read, set⟩
    exact ⟨b, f, ⟨counts, b₀, started, ran⟩, read, set⟩
  · rintro ⟨b, f, ⟨counts, b₀, started, ran⟩, read, set⟩
    exact ⟨counts, b₀, started, b, f, ran, read, set⟩

/-- The loop has got past all parts of a list before it gets past the list. -/
theorem Reaches.before {after : List JanetValue}
    (reaches : Reaches host dwords pwords (items ++ after) body b') :
    ∃ b, Reaches host dwords pwords items body b := by
  obtain ⟨counts, b₀, started, ran⟩ := reaches
  obtain ⟨b, first, -⟩ := setFields_append.mp ran
  exact ⟨b, counts, b₀, started, first⟩

theorem Reaches.unlimited (reaches : Reaches host dwords pwords items body b) : Unlimited b := by
  induction items using List.reverseRecOn generalizing b with
  | nil =>
      obtain ⟨⟨-, high, -, high'⟩, b₀, started, ⟨⟩⟩ := reaches
      exact (startMessage_fresh (by omega) (by omega) started).2.1
  | append_singleton items item ih =>
      obtain ⟨b₁, f, before, -, set⟩ := reaches_concat.mp reaches
      exact setListed_unlimited (ih before) set

/-! ## The condition -/

/-- The loop only gets past fields in their sections exactly if those that it could set
elsewhere lie behind the end of the segment. -/
theorem accepts_iff :
    (∀ before item after f body b, items = before ++ item :: after →
      readField host before.length item = .ok f → Reaches host dwords pwords (before ++ [item]) body b →
        f.Inside dwords.toNat pwords.toNat) ↔
    ∀ before item after f body b, items = before ++ item :: after →
      readField host before.length item = .ok f → Reaches host dwords pwords before body b →
        f.Takes host → f.Inside dwords.toNat pwords.toNat ∨ ¬f.InSegment b dwords.toNat body := by
  constructor
  · intro accepts before item after f body b split read reaches takes
    by_cases inSegment : f.InSegment b dwords.toNat body
    · obtain ⟨b', set⟩ := (setListed_ok_iff reaches.unlimited).mpr ⟨takes, inSegment⟩
      exact .inl (accepts before item after f body b' split read
        (reaches_concat.mpr ⟨b, f, reaches, read, set⟩))
    · exact .inr inSegment
  · intro sections before item after f body b' split read reaches
    obtain ⟨b, f', first, read', set⟩ := reaches_concat.mp reaches
    cases read.symm.trans read'
    obtain ⟨takes, inSegment⟩ := (setListed_ok_iff first.unlimited).mp ⟨b', set⟩
    exact (sections before item after f body b split read first takes).resolve_right
      (not_not.mpr inSegment)

/-- All fields of a list that the loop has got past. -/
theorem Reaches.inside (reaches : Reaches host dwords pwords items body b)
    (accepts : ∀ before item after f body b, items = before ++ item :: after →
      readField host before.length item = .ok f → Reaches host dwords pwords (before ++ [item]) body b →
        f.Inside dwords.toNat pwords.toNat) :
    ∀ f ∈ listedFields host items, f.Inside dwords.toNat pwords.toNat := by
  intro f member
  obtain ⟨item, listed, read⟩ := mem_listedFields.mp member
  obtain ⟨before, after, rfl⟩ := List.append_of_mem listed
  rw [← List.singleton_append, ← List.append_assoc] at reaches
  obtain ⟨b₁, first⟩ := reaches.before
  exact accepts before item after f body b₁ rfl (readField_index 0 _ read) first

/-- What an accepted list has built, if its fields lie in their sections. -/
theorem Reaches.building (reaches : Reaches host dwords pwords items body b)
    (inside : ∀ f ∈ listedFields host items, f.Inside dwords.toNat pwords.toNat)
    (apart : Apart dwords.toNat (listedFields host items)) :
    ∃ b₀, startMessage dwords.toNat pwords.toNat Builder.init = .ok body b₀ ∧
      BuilderPtr.InUse ⟨body, dwords.toNat, pwords.toNat⟩ b₀ ∧
      Building host ⟨body, dwords.toNat, pwords.toNat⟩ b₀ (listedFields host items) b := by
  obtain ⟨⟨-, high, -, high'⟩, b₀, started, ran⟩ := reaches
  obtain ⟨fresh, -⟩ := startMessage_fresh (by omega) (by omega) started
  exact ⟨b₀, started, fresh.inUse, building_of_run (startMessage_building (by omega) (by omega) started)
    fresh.inUse items ran inside apart⟩

/-- A builder of the loop can be framed, however many segments its texts have taken. -/
theorem Building.framable {w : BuilderPtr} {b₀ : Builder} {fields : List ListedField}
    (building : Building host w b₀ fields b) (inUse : w.InUse b₀) (apart : Apart w.dwords fields) :
    b.Framable := by
  have texts := countP_text_le building.inside apart
  have pointers := inUse.pwordsLt
  have few := building.few
  exact ⟨by omega, fun s => (building.ceiling.inLimit building.unlimited.wf s).trans_lt (by decide)⟩

/-- An accepted list with its fields in their sections is decoded as it was given exactly
if its values fit, and its segments and bytes the frame. -/
theorem Reaches.decodes_iff {flat : List UInt8} (reaches : Reaches host dwords pwords items body b)
    (inside : ∀ f ∈ listedFields host items, f.Inside dwords.toNat pwords.toNat)
    (accepted : Accepted host dwords pwords items flat) :
    (∃ m p, Decodes host dwords.toNat pwords.toNat (listedFields host items) flat m p) ↔
      (∀ f ∈ listedFields host items, f.Fits) ∧ b.nsegs ≤ maxSegments ∧
        b.flatBytes.length < 2 ^ 31 := by
  obtain ⟨b₀, started, inUse, building⟩ := reaches.building inside accepted.apart
  obtain ⟨body', b', bytes, reaches', done, pushed⟩ := cfunBuildMessage_eq_ok.mp accepted.built
  obtain ⟨rfl, rfl⟩ := reaches.unique reaches'
  have fits := building.framable inUse accepted.apart
  obtain ⟨some, -, rfl⟩ := serialize_eq done
  have wf := building.unlimited.wf
  have read {m : Message} (opened : messageFromFlat b'.flatBytes = .ok m) (built : m.BuiltFrom b') :
      Opened host ⟨body', dwords.toNat, pwords.toNat⟩ b₀ (listedFields host items) b' m := by
    refine ⟨building, inUse, built, built.nsegs ▸ fits.1, ?_⟩
    rw [(Frame.parseFlat_eq_ok_iff.mp opened).2]
    rfl
  constructor
  · rintro ⟨m, p, decodes⟩
    have short : b'.flatBytes.length < 2 ^ 31 := by
      by_contra long
      obtain ⟨cut, low⟩ := pushedBuffer_eq_some pushed
      obtain ⟨whole, -⟩ := Frame.parseFlat_eq_ok_iff.mp decodes.opened
      rw [cut] at whole
      exact Message.not_accepted_take some fits (by omega) whole
    rw [pushedBuffer_of_short short] at pushed
    cases pushed
    have few : b'.nsegs ≤ maxSegments := by
      obtain ⟨whole, -⟩ := Frame.parseFlat_eq_ok_iff.mp decodes.opened
      have count := whole.2.2.1
      rwa [nsegs_flatBytes some fits.1] at count
    obtain ⟨m', opened, built⟩ := (serialize_reads wf done).mpr ⟨few, fun s _ => fits.2 s⟩
    exact ⟨((read opened built).decodes_iff started opened accepted.integers).mp ⟨m, p, decodes⟩, few,
      short⟩
  · rintro ⟨values, few, short⟩
    rw [pushedBuffer_of_short short] at pushed
    cases pushed
    obtain ⟨m, opened, built⟩ := (serialize_reads wf done).mpr ⟨few, fun s _ => fits.2 s⟩
    exact ((read opened built).decodes_iff started opened accepted.integers).mpr values

/-- `capnp/build-message` stays inside the struct exactly under the condition. -/
theorem staysInside_iff (host : Host) (dwords pwords : Int) (items : List JanetValue) :
    StaysInside host dwords pwords items ↔ Harmless host dwords pwords items := by
  constructor
  · intro stays
    refine ⟨accepts_iff.mp stays.accepts, fun flat body b accepted reaches => ?_⟩
    exact (reaches.decodes_iff (reaches.inside stays.accepts) accepted).mp (stays.decodes flat accepted)
  · intro harmless
    have accepts := accepts_iff.mpr harmless.sections
    refine ⟨accepts, fun flat accepted => ?_⟩
    obtain ⟨body, b, bytes, reaches, -⟩ := cfunBuildMessage_eq_ok.mp accepted.built
    exact (reaches.decodes_iff (reaches.inside accepts) accepted).mpr
      (harmless.sizes flat body b accepted reaches)

end

/-- A host that takes nothing but numbers that fit. -/
def plainHost : Host := ⟨fun _ => 0, fun _ => none⟩

/-- `[:text 0 "hi"]` -/
def textHi : JanetValue :=
  .indexed [.keyword ['t', 'e', 'x', 't'], .number 0, .string ⟨[104, 105], by decide⟩]

/-- `[:u32 16 65]`, behind the two words of a struct with one data word and one pointer. -/
def wordBehind : JanetValue :=
  .indexed [.keyword ['u', '3', '2'], .number 0x4030000000000000, .number 0x4050400000000000]

/-- The buffer of the two fields. -/
def overwrittenFrame : List UInt8 :=
  [0, 0, 0, 0, 4, 0, 0, 0, 0, 0, 0, 0, 1, 0, 1, 0, 0, 0, 0, 0, 0, 0, 0, 0, 1, 0, 0, 0, 26, 0, 0, 0,
    65, 0, 0, 0, 0, 0, 0, 0]

/-- A field behind the struct overwrites the text of an earlier field. -/
theorem field_overwrites_text :
    cfunBuildMessage plainHost 1 1 [textHi, wordBehind] = .ok (some overwrittenFrame) ∧
      messageFromFlat overwrittenFrame = .ok (Frame.message (ofList overwrittenFrame)) ∧
      (Frame.message (ofList overwrittenFrame)).root Ptr.zero defaultTraversalWords =
        ⟨.ok, Message.structAt 0 1 1 1, defaultTraversalWords - 3⟩ ∧
      (Frame.message (ofList overwrittenFrame)).getText (Message.structAt 0 1 1 1) 0 2 =
        (.ok, [65, 0], 0) ∧
      ¬StaysInside plainHost 1 1 [textHi, wordBehind] := by
  have built : cfunBuildMessage plainHost 1 1 [textHi, wordBehind] = .ok (some overwrittenFrame) := by
    decide +kernel
  refine ⟨built, parseFlat_of_accepted (by decide +kernel), by decide +kernel, by decide +kernel,
    fun stays => ?_⟩
  obtain ⟨body, b, -, reaches, -⟩ := cfunBuildMessage_eq_ok.mp built
  have read : readField plainHost 1 wordBehind =
      .ok ⟨.u32, 16, .number 0x4050400000000000⟩ := by
    have off : plainHost.unwrapInteger (.number 0x4030000000000000) = 16 := by decide +kernel
    unfold readField wordBehind
    dsimp only
    rw [off]
    rfl
  have inside := stays.accepts [textHi] wordBehind [] _ body b rfl read reaches
  have outside : ¬16 + 4 ≤ 8 * 1 := by decide
  exact outside inside

end Janet

end CapnpJanet
