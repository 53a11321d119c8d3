import CapnpJanet.Codegen.Accessors

/-!
# Group initializers

The initializer of a group selects the group in its union and clears the slots
of the group and of the groups nested in it, each once.  What it leaves as it was
are the discriminants of the unions inside the group.
-/

namespace CapnpJanet

open ByteMemory Builder Janet Outcome

namespace Codegen

/-! ## The storage of a group -/

/-- Types that are stored in a pointer. -/
def TypeWhich.isPointer : TypeWhich → Bool
  | text | data | list | struct | interface | anyPointer => true
  | _ => false

/-- The bits of a slot. -/
def slotRun (w : BuilderPtr) (type : TypeWhich) (offset : Nat) : Set Nat :=
  match type.storage with
  | some s => BitRun (w.start + s.width * offset) s.width
  | none =>
      if type.isPointer then BitRun (wordBit (w.body.word + w.dwords + offset)) 64 else ∅

/-- A slot lies in its section of a struct. -/
def SlotInside (w : BuilderPtr) (type : TypeWhich) (offset : Nat) : Prop :=
  match type.storage with
  | some s => s.width * (offset + 1) ≤ w.dwords * 64
  | none => type.isPointer → offset < w.pwords

/-- The nodes of a group: its own, and those of the groups nested in it. -/
inductive InGroup (nodes : List Node) : (groupId : Nat) → Node → Prop
  | here {groupId : Nat} {group : Node} (found : nodeById nodes groupId = some group) :
      InGroup nodes groupId group
  | nested {groupId inner : Nat} {group node : Node} {f : Field}
      (found : nodeById nodes groupId = some group) (member : f ∈ group.fields)
      (isGroup : f.which = .group inner) (rest : InGroup nodes inner node) :
      InGroup nodes groupId node

/-- The bits of all slots of a group. -/
def slotRuns (nodes : List Node) (w : BuilderPtr) (groupId : Nat) : Set Nat :=
  {i | ∃ group f offset type dflt, InGroup nodes groupId group ∧ f ∈ group.fields ∧
    f.which = .slot offset type dflt ∧ i ∈ slotRun w type offset}

/-- The bits of the discriminants of all unions in a group. -/
def discriminantRuns (nodes : List Node) (w : BuilderPtr) (groupId : Nat) : Set Nat :=
  {i | ∃ group, InGroup nodes groupId group ∧ group.discriminantCount > 0 ∧
    i ∈ group.discriminantRun w}

/-- The bits of one field of a group. -/
def fieldRuns (nodes : List Node) (w : BuilderPtr) (f : Field) : Set Nat :=
  match f.which with
  | .slot offset type _ => slotRun w type offset
  | .group id => slotRuns nodes w id
  | .other => ∅

variable {nodes : List Node} {w : BuilderPtr} {b : Builder}

/-- A group's slots are those of its fields. -/
theorem slotRuns_eq {groupId : Nat} {group : Node} (found : nodeById nodes groupId = some group) :
    slotRuns nodes w groupId = {i | ∃ f ∈ group.fields, i ∈ fieldRuns nodes w f} := by
  ext i
  constructor
  · rintro ⟨node, f, offset, type, dflt, within, member, isSlot, inside⟩
    cases within with
    | here found' =>
        obtain rfl := Option.some.inj (found.symm.trans found')
        exact ⟨f, member, by rw [fieldRuns, isSlot]; exact inside⟩
    | nested found' outer isGroup rest =>
        obtain rfl := Option.some.inj (found.symm.trans found')
        refine ⟨_, outer, ?_⟩
        rw [fieldRuns, isGroup]
        exact ⟨node, f, offset, type, dflt, rest, member, isSlot, inside⟩
  · rintro ⟨f, member, inside⟩
    cases kind : f.which with
    | slot offset type dflt =>
        rw [fieldRuns, kind] at inside
        exact ⟨group, f, offset, type, dflt, .here found, member, kind, inside⟩
    | group id =>
        rw [fieldRuns, kind] at inside
        obtain ⟨node, g, offset, type, dflt, within, member', isSlot, inside⟩ := inside
        exact ⟨node, g, offset, type, dflt, .nested found member kind within, member', isSlot,
          inside⟩
    | other =>
        rw [fieldRuns, kind] at inside
        exact inside.elim

/-- A group without a node has no slots. -/
theorem slotRuns_of_missing {groupId : Nat} (missing : nodeById nodes groupId = none) :
    slotRuns nodes w groupId = ∅ := by
  ext i
  simp only [Set.mem_empty_iff_false, iff_false]
  rintro ⟨node, f, offset, type, dflt, within, -⟩
  cases within with
  | here found => exact absurd (missing.symm.trans found) nofun
  | nested found _ _ _ => exact absurd (missing.symm.trans found) nofun

/-! ## Clearing slots -/

/-- The switch of the group initializer writes the zero of each scalar type. -/
theorem clearSlot_scalar {type : TypeWhich} {s : Storage} (stored : type.storage = some s)
    {offset : Nat} (small : s.width * offset < 2 ^ 32) :
    ∃ (a : Accessor) (zero : Value), a.storage = s ∧ s.Holds zero ∧ s.toBits zero = 0 ∧
      clearSlot type offset = [.set a (s.width * offset / s.step) zero none] := by
  rw [← setterOffset_eq stored small]
  have bool : Storage.bool.Holds (.boolean false) := trivial
  have number (t : IntType) : (Storage.int t).Holds (.integer 0) := by
    cases t <;> exact Storage.holds_int.mpr ⟨0, rfl, by decide⟩
  have zero (t : IntType) : (Storage.int t).toBits (.integer 0) = 0 := by cases t <;> rfl
  have real {bytes : Nat} : (Storage.real bytes).Holds (.real 0) := by
    exact Storage.holds_real.mpr ⟨0, rfl, by positivity⟩
  cases type with
  | bool => cases stored; exact ⟨_, _, rfl, bool, rfl, rfl⟩
  | int8 => cases stored; exact ⟨.i8, _, rfl, number .i8, zero .i8, rfl⟩
  | int16 => cases stored; exact ⟨.i16, _, rfl, number .i16, zero .i16, rfl⟩
  | int32 => cases stored; exact ⟨.i32, _, rfl, number .i32, zero .i32, rfl⟩
  | int64 => cases stored; exact ⟨.i64, _, rfl, number .i64, zero .i64, rfl⟩
  | uint8 => cases stored; exact ⟨.u8, _, rfl, number .u8, zero .u8, rfl⟩
  | uint16 => cases stored; exact ⟨.u16, _, rfl, number .u16, zero .u16, rfl⟩
  | uint32 => cases stored; exact ⟨.u32, _, rfl, number .u32, zero .u32, rfl⟩
  | uint64 => cases stored; exact ⟨.u64, _, rfl, number .u64, zero .u64, rfl⟩
  | enum => cases stored; exact ⟨.u16, _, rfl, number .u16, zero .u16, rfl⟩
  | float32 => cases stored; exact ⟨.f32, _, rfl, real, rfl, rfl⟩
  | float64 => cases stored; exact ⟨.f64, _, rfl, real, rfl, rfl⟩
  | void | text | data | list | struct | interface | anyPointer | unknown => cases stored

/-- The pointers of a struct can be cleared. -/
theorem cfunClearPointer_patched (wf : b.Wf) (inUse : w.InUse b) {index : Nat}
    (inside : index < w.pwords) :
    ∃ b', cfunClearPointer w index b = .ok () b' ∧
      Patched w.body.seg (BitRun (wordBit (w.body.word + w.dwords + index)) 64) (fun _ => false)
        b b' := by
  have room := inUse.inside
  have small := inUse.pwordsLt
  have used : b.Used w.body.seg (w.body.word + w.dwords + index) := by
    unfold Used
    omega
  obtain ⟨b', run, patched⟩ := clearPtr_patched wf used
  have indexed : getPointerIndex w index "capnp/clear-pointer" b = .ok () b := by
    unfold getPointerIndex
    rw [if_neg (not_not.mpr (inRange_i32 (by omega))), if_neg (by omega)]
    rfl
  refine ⟨b', ?_, patched⟩
  unfold cfunClearPointer
  exact (bind_run indexed).trans (checkBuilderResult_eq_ok.mpr run)

/-- A body of one form. -/
theorem runForms_single {form : Form} {b' : Builder} (run : form.run w b = .ok () b') :
    runForms w [form] b = .ok () b' := by
  rw [runForms]
  exact bind_run run

/-- Clearing a slot clears its bits, and nothing else. -/
theorem clearSlot_patched (wf : b.Wf) (inUse : w.InUse b) {type : TypeWhich} {offset : Nat}
    (inside : SlotInside w type offset) :
    ∃ b', runForms w (clearSlot type offset) b = .ok () b' ∧
      Patched w.body.seg (slotRun w type offset) (fun _ => false) b b' := by
  unfold SlotInside at inside
  unfold slotRun
  cases stored : type.storage with
  | some s =>
      rw [stored] at inside
      dsimp only at inside ⊢
      rw [Nat.mul_add, Nat.mul_one] at inside
      have sized := inUse.dwordsLt
      have small : s.width * offset < 2 ^ 32 := by omega
      obtain ⟨a, zero, same, holds, bits, forms⟩ := clearSlot_scalar stored small
      have wire : s.step * (s.width * offset / s.step) = s.width * offset := step_mul_div s offset
      have writes := a.set_writes
      rw [same] at writes
      obtain ⟨b', run, patched⟩ := writes w b _ zero none wf inUse (by rwa [wire]) holds nofun
      refine ⟨b', ?_, patched.congr ?_ fun i _ => ?_⟩
      · rw [forms]
        exact runForms_single run
      · rw [fieldRun, wire]
      · rw [fieldBits, bits, Storage.defaultBits, Option.elim, Nat.xor_zero, Nat.zero_testBit]
  | none =>
      rw [stored] at inside
      dsimp only at inside ⊢
      by_cases pointer : type.isPointer
      · obtain ⟨b', run, patched⟩ := cfunClearPointer_patched wf inUse (inside pointer)
        have forms : clearSlot type offset = [.clearPointer offset] := by
          cases type <;> first | rfl | cases pointer
        rw [if_pos pointer, forms]
        exact ⟨b', runForms_single run, patched⟩
      · have forms : clearSlot type offset = [] := by
          cases type <;> first | rfl | exact absurd rfl pointer | cases stored
        rw [if_neg pointer, forms]
        exact ⟨b, rfl, Patched.refl wf _ _⟩

/-- Clearing the slots of a list of fields. -/
theorem clearFields_patched {nested : Nat → Option (List Form)} {fields : List Field}
    {forms : List Form} (emitted : clearFields nested fields = some forms) (wf : b.Wf)
    (inUse : w.InUse b)
    (slots : ∀ f ∈ fields, ∀ offset type dflt, f.which = .slot offset type dflt →
      SlotInside w type offset)
    (groups : ∀ f ∈ fields, ∀ id, f.which = .group id → ∀ forms b, nested id = some forms →
      b.Wf → w.InUse b → ∃ b', runForms w forms b = .ok () b' ∧
        Patched w.body.seg (slotRuns nodes w id) (fun _ => false) b b') :
    ∃ b', runForms w forms b = .ok () b' ∧
      Patched w.body.seg {i | ∃ f ∈ fields, i ∈ fieldRuns nodes w f} (fun _ => false) b b' := by
  induction fields generalizing forms b with
  | nil =>
      cases emitted
      refine ⟨b, rfl, (Patched.refl wf _ fun _ => false).congr ?_ nofun⟩
      ext i
      simp
  | cons f rest ih =>
      rw [clearFields] at emitted
      obtain ⟨first, head, emitted⟩ := Option.bind_eq_some_iff.mp emitted
      obtain ⟨later, tail, emitted⟩ := Option.bind_eq_some_iff.mp emitted
      cases emitted
      have one : ∃ b₁, runForms w first b = .ok () b₁ ∧
          Patched w.body.seg (fieldRuns nodes w f) (fun _ => false) b b₁ := by
        unfold fieldRuns
        unfold clearField at head
        cases kind : f.which with
        | slot offset type dflt =>
            rw [kind] at head
            cases head
            exact clearSlot_patched wf inUse (slots f List.mem_cons_self _ _ _ kind)
        | group id =>
            rw [kind] at head
            exact groups f List.mem_cons_self id kind first b head wf inUse
        | other =>
            rw [kind] at head
            cases head
            exact ⟨b, rfl, Patched.refl wf _ _⟩
      obtain ⟨b₁, run₁, patched₁⟩ := one
      obtain ⟨b', run, patched⟩ := ih tail patched₁.wf (inUse.later (patched₁.words_eq _).ge)
        (fun g member => slots g (List.mem_cons_of_mem f member))
        (fun g member => groups g (List.mem_cons_of_mem f member))
      refine ⟨b', (runForms_append run₁).trans run, (patched₁.trans patched).congr ?_ fun _ _ => rfl⟩
      ext i
      simp

/-- A group initializer clears all slots of the group, and nothing else. -/
theorem emitGroupClear_patched {depth groupId : Nat} {forms : List Form}
    (emitted : emitGroupClear nodes depth groupId = some forms) (wf : b.Wf) (inUse : w.InUse b)
    (slots : ∀ group, InGroup nodes groupId group → ∀ f ∈ group.fields, ∀ offset type dflt,
      f.which = .slot offset type dflt → SlotInside w type offset) :
    ∃ b', runForms w forms b = .ok () b' ∧
      Patched w.body.seg (slotRuns nodes w groupId) (fun _ => false) b b' := by
  induction depth generalizing groupId forms b with
  | zero => cases emitted
  | succ depth ih =>
      rw [emitGroupClear] at emitted
      cases found : nodeById nodes groupId with
      | none =>
          rw [found] at emitted
          cases emitted
          rw [slotRuns_of_missing found]
          exact ⟨b, rfl, Patched.refl wf _ _⟩
      | some group =>
          rw [found] at emitted
          rw [slotRuns_eq found]
          exact clearFields_patched emitted wf inUse (slots group (.here found))
            fun f member id isGroup forms b emitted wf inUse => ih emitted wf inUse
              fun inner within => slots inner (.nested found member isGroup within)

/-! ## Group initializers -/

/-- A group field whose storage lies inside a struct.  A union that the group is a
member of has a discriminant apart from the storage of its members. -/
structure GroupLayout (nodes : List Node) (w : BuilderPtr) (node : Node) (f : Field)
    (groupId : Nat) : Prop where
  isGroup : f.which = .group groupId
  slots : ∀ group, InGroup nodes groupId group → ∀ g ∈ group.fields, ∀ offset type dflt,
    g.which = .slot offset type dflt → SlotInside w type offset
  unions : ∀ group, InGroup nodes groupId group → group.discriminantCount > 0 →
    16 * (group.discriminantOffset + 1) ≤ w.dwords * 64
  selects : node.isUnionMember f → 16 * (node.discriminantOffset + 1) ≤ w.dwords * 64
  apart : node.isUnionMember f → Disjoint (node.discriminantRun w)
    (slotRuns nodes w groupId ∪ discriminantRuns nodes w groupId)

variable {node : Node} {f : Field} {groupId depth : Nat} {forms : List Form} {b' : Builder}
  {m : Message}

/-- What a group initializer does, bit by bit: the slots of the group are clear,
the group is selected, and all other bits are as they were. -/
structure Initialized (nodes : List Node) (w : BuilderPtr) (node : Node) (f : Field)
    (groupId : Nat) (b b' : Builder) : Prop where
  wf : b'.Wf
  inUse : w.InUse b'
  cleared : ∀ i ∈ slotRuns nodes w groupId, bit (b'.seg w.body.seg).data i = false
  tagged : node.isUnionMember f → ∀ k < 16,
    bit (b'.seg w.body.seg).data (w.start + 16 * node.discriminantOffset + k) =
      f.discriminant.toNat.testBit k
  kept : ∀ s i, ¬(s = w.body.seg ∧ (i ∈ slotRuns nodes w groupId ∨ i ∈ selected node f w)) →
    bit (b'.seg s).data i = bit (b.seg s).data i

theorem groupInit_initializes (wf : b.Wf) (inUse : w.InUse b)
    (layout : GroupLayout nodes w node f groupId)
    (emitted : emitGroupInit nodes depth node f = some forms) :
    ∃ b', runForms w forms b = .ok () b' ∧ Initialized nodes w node f groupId b b' := by
  rw [emitGroupInit, layout.isGroup] at emitted
  obtain ⟨cleared, nested, emitted⟩ := Option.bind_eq_some_iff.mp emitted
  cases emitted
  obtain ⟨b₁, chosen, select⟩ := select_patched wf inUse layout.selects
  have inUse₁ : w.InUse b₁ := inUse.later (select.words_eq _).ge
  obtain ⟨b', run, clear⟩ := emitGroupClear_patched nested select.wf inUse₁ layout.slots
  refine ⟨b', (runForms_append chosen).trans run, clear.wf, inUse₁.later (clear.words_eq _).ge,
    clear.patch.inside, fun member k hk => ?_, fun s i outside => ?_⟩
  · have inside : w.start + 16 * node.discriminantOffset + k ∈ node.discriminantRun w := by
      simp only [Node.discriminantRun, mem_bitRun]
      omega
    rw [clear.patch.outside _ fun slot =>
        Set.disjoint_left.mp (layout.apart member) inside (.inl slot),
      select.patch.inside _ ⟨member, inside⟩, Nat.add_sub_cancel_left]
  · by_cases here : s = w.body.seg
    · subst here
      rw [clear.patch.outside i fun slot => outside ⟨rfl, .inl slot⟩,
        select.patch.outside i fun tag => outside ⟨rfl, .inr tag⟩]
    · rw [clear.others s here, select.others s here]

/-! ## What a reader sees -/

/-- The handle that pointers to a struct name. -/
def reader (w : BuilderPtr) : Ptr := Message.structAt w.body.seg w.body.word w.dwords w.pwords

/-- A group has been reset.  Its fields read as their defaults or as null, its
unions are at discriminant 0, the union that it is a member of has it selected, and
nothing else has changed. -/
structure GroupReset (nodes : List Node) (w : BuilderPtr) (node : Node) (f : Field)
    (groupId : Nat) (b b' : Builder) (m : Message) : Prop where
  scalars : ∀ group, InGroup nodes groupId group → ∀ g ∈ group.fields, ∀ offset type dflt,
    g.which = .slot offset type (some dflt) → ∀ get, emitGetter g = some get →
      get.run m (reader w) = .ok (scalarDefaultLiteral (some dflt) type)
  pointers : ∀ group, InGroup nodes groupId group → ∀ g ∈ group.fields, ∀ offset type dflt,
    g.which = .slot offset type dflt → type.isPointer →
      ∃ p left, m.getp (reader w) offset Ptr.zero defaultTraversalWords = ⟨.ok, p, left⟩ ∧
        p.kind = .null
  unions : ∀ group, InGroup nodes groupId group → ∀ get, emitWhich group = some get →
    get.run m (reader w) = .ok (.integer 0)
  tagged : node.isUnionMember f → ∀ get, emitWhich node = some get →
    get.run m (reader w) = .ok (.integer f.discriminant.toNat)
  kept : ∀ s i, ¬(s = w.body.seg ∧ (i ∈ slotRuns nodes w groupId ∨
      i ∈ discriminantRuns nodes w groupId ∨ i ∈ selected node f w)) →
    bit (b'.seg s).data i = bit (b.seg s).data i

/-- The generated function for the discriminant of a union. -/
theorem which_run {union : Node} {get : GetForm} (emitted : emitWhich union = some get)
    (inside : 16 * (union.discriminantOffset + 1) ≤ w.dwords * 64) (sized : w.dwords < 2 ^ 16)
    {n : Nat} (small : n < 2 ^ 16) :
    get.run m (reader w) = .ok (.integer n) ↔
      ∀ k < 16, bit (m.seg w.body.seg).data (w.start + 16 * union.discriminantOffset + k) =
        n.testBit k := by
  unfold emitWhich at emitted
  split at emitted
  · cases emitted
    have byte : 8 * union.discriminantByte = 16 * union.discriminantOffset := by
      unfold Node.discriminantByte
      omega
    have within : (Storage.int .u16).step * union.discriminantByte + (Storage.int .u16).width ≤
        w.dwords * 64 := by
      simp only [Storage.step, Storage.width, IntType.bytes]
      omega
    have read : GetForm.run m (reader w) ⟨.u16, union.discriminantByte, none⟩ =
        .ok (.integer ((Storage.int .u16).load m (reader w) union.discriminantByte)) := by
      have plain (bits : Nat) : (Storage.int .u16).ofBits bits = .integer bits := by
        simp [Storage.ofBits, IntType.ofBits, IntType.signed]
      have got := Accessor.u16.get_reads m (reader w) union.discriminantByte none (by omega)
        fun _ unset => by cases unset
      rwa [Storage.defaultBits, Option.elim, Nat.xor_zero, Accessor.storage, plain] at got
    rw [read]
    have bits (k : Nat) (hk : k < 16) := Storage.testBit_load (m := m) (views_structAt w) within
      (show k < (Storage.int .u16).width from hk)
    simp only [Storage.step, byte] at bits
    constructor
    · intro same k hk
      have loaded : (Storage.int .u16).load m (reader w) union.discriminantByte = n :=
        Int.ofNat_inj.mp (Value.integer.inj (Except.ok.inj same))
      rw [← bits k hk, ← loaded]
      rfl
    · intro same
      have loaded := load_eq (views_structAt w) within (n := n) small fun k hk => by
        simp only [Storage.step, byte]
        exact same k hk
      rw [reader, loaded]
  · cases emitted

namespace Initialized

/-- Scalar slots of the group read as their defaults. -/
theorem scalars (done : Initialized nodes w node f groupId b b')
    (layout : GroupLayout nodes w node f groupId) (opens : Opens b' m) {group : Node} {g : Field}
    {offset : Nat} {type : TypeWhich} {dflt : Memory} {get : GetForm}
    (within : InGroup nodes groupId group) (member : g ∈ group.fields)
    (isSlot : g.which = .slot offset type (some dflt)) (emitted : emitGetter g = some get) :
    get.run m (reader w) = .ok (scalarDefaultLiteral (some dflt) type) := by
  have inside := layout.slots group within g member _ _ _ isSlot
  have sized := done.inUse.dwordsLt
  unfold SlotInside at inside
  cases stored : type.storage with
  | none =>
      rw [emitGetter, isSlot] at emitted
      cases type with
      | void | text | data | list | struct | interface | anyPointer | unknown => cases emitted
      | _ => cases stored
  | some s =>
      rw [stored] at inside
      have selects (isMember : group.isUnionMember g) :
          16 * (group.discriminantOffset + 1) ≤ w.dwords * 64 := by
        refine layout.unions group within ?_
        unfold Node.isUnionMember at isMember
        exact (of_decide_eq_true isMember).1
      obtain ⟨scalar, rfl, rfl, rfl, rfl, rfl⟩ : ∃ scalar : ScalarField group w.dwords,
          scalar.field = g ∧ scalar.offset = offset ∧ scalar.type = type ∧ scalar.dflt = dflt ∧
            scalar.storage = s :=
        ⟨⟨g, offset, type, dflt, s, isSlot, stored, sized, inside, selects⟩, rfl, rfl, rfl, rfl, rfl⟩
      obtain ⟨a, same, -, read⟩ := scalar.emit_agrees
      obtain rfl := Option.some.inj (emitted.symm.trans read)
      refine scalar.get_default same (load_eq (views_structAt w) scalar.wire_inside (by positivity)
        fun k hk => ?_)
      have fits := scalar.wire_inside
      rw [opens.bit_eq done.wf (used_of_inUse done.inUse (by omega)), Nat.zero_testBit]
      refine done.cleared _ ⟨group, scalar.field, _, _, _, within, member, isSlot, ?_⟩
      simp only [slotRun, stored, mem_bitRun, scalar.step_wireOffset]
      omega

/-- Pointer slots of the group are null. -/
theorem pointers (done : Initialized nodes w node f groupId b b')
    (layout : GroupLayout nodes w node f groupId) (opens : Opens b' m) {group : Node} {g : Field}
    {offset : Nat} {type : TypeWhich} {dflt : Option Memory}
    (within : InGroup nodes groupId group) (member : g ∈ group.fields)
    (isSlot : g.which = .slot offset type dflt) (pointer : type.isPointer) :
    ∃ p left, m.getp (reader w) offset Ptr.zero defaultTraversalWords = ⟨.ok, p, left⟩ ∧
      p.kind = .null := by
  have inside := layout.slots group within g member _ _ _ isSlot
  have unstored : type.storage = none := by
    cases type <;> first | rfl | cases pointer
  unfold SlotInside at inside
  rw [unstored] at inside
  have indexLt : offset < w.pwords := inside pointer
  have room := done.inUse.inside
  have used : b'.Used w.body.seg (w.body.word + w.dwords + offset) := by
    unfold Used
    omega
  have built := opens.builtFrom done.wf
  have segment := built.inSegment done.wf used
  have clear : b'.wordAt w.body.seg (w.body.word + w.dwords + offset) = 0 := by
    refine Nat.eq_of_testBit_eq fun k => ?_
    rw [Nat.zero_testBit]
    by_cases hk : k < 8 * 8
    · unfold wordAt word
      rw [testBit_loadLe 8 _ _ hk]
      refine done.cleared _ ⟨group, g, _, _, _, within, member, isSlot, ?_⟩
      simp only [slotRun, unstored, pointer, if_true, mem_bitRun, wordBit]
      omega
    · exact Nat.testBit_lt_two_pow ((word_lt _ _).trans_le
        (Nat.pow_le_pow_right (by decide) (not_lt.mp hk)))
  have reads := (built.readWord_eq done.wf used).trans clear
  have resolves : m.target m.depthLimit w.body.seg (w.body.word + w.dwords + offset) 0 =
      some (nullPtr w.body.seg (w.body.word + w.dwords + offset), 0) := by
    rw [opens.depthLimit]
    exact if_pos rfl
  have resolved : m.resolvePtr w.body.seg (w.body.word + w.dwords + offset) m.depthLimit Ptr.zero
      defaultTraversalWords = _ := Message.resolvePtr_eq
    (Message.slotTarget_eq segment reads resolves) (show 0 + 1 ≤ defaultTraversalWords by decide)
  have address := Message.lt_of_words_le segment.2.le
  have place : sizeT ((w.body.word : Int) + w.dwords + offset) =
      w.body.word + w.dwords + offset := by
    rw [← sizeT_of_lt (n := w.body.word + w.dwords + offset) (by omega)]
    congr 1
  refine ⟨nullPtr w.body.seg (w.body.word + w.dwords + offset), defaultTraversalWords - 1, ?_, rfl⟩
  have kind : (reader w).kind = .struct := rfl
  have within : ¬offset ≥ (reader w).pwords := not_le.mpr indexLt
  rw [Message.getp, if_neg (not_not.mpr kind), if_neg within]
  change m.resolvePtr w.body.seg (sizeT ((w.body.word : Int) + w.dwords + offset)) _ _ _ = _
  rw [place]
  exact resolved

/-- The unions of the group are at discriminant 0 exactly if they were before, as
far as their bits are not those of slots. -/
theorem unions_iff (done : Initialized nodes w node f groupId b b')
    (layout : GroupLayout nodes w node f groupId) (opens : Opens b' m) :
    (∀ group, InGroup nodes groupId group → ∀ get, emitWhich group = some get →
        get.run m (reader w) = .ok (.integer 0)) ↔
      ∀ i ∈ discriminantRuns nodes w groupId, i ∉ slotRuns nodes w groupId →
        bit (b.seg w.body.seg).data i = false := by
  have sized := done.inUse.dwordsLt
  -- A bit of a discriminant is a slot's, and clear, or as it was before.
  have before {i : Nat} (inside : i ∈ discriminantRuns nodes w groupId) :
      bit (b'.seg w.body.seg).data i = false ↔
        (i ∉ slotRuns nodes w groupId → bit (b.seg w.body.seg).data i = false) := by
    by_cases slot : i ∈ slotRuns nodes w groupId
    · exact iff_of_true (done.cleared i slot) fun outside => absurd slot outside
    · have untouched : i ∉ selected node f w := fun tag =>
        Set.disjoint_left.mp (layout.apart tag.1) tag.2 (.inr inside)
      rw [done.kept w.body.seg i fun here => here.2.elim slot untouched]
      exact ⟨fun clear _ => clear, fun clear => clear slot⟩
  have seen {group : Node} {k : Nat} (union : 16 * (group.discriminantOffset + 1) ≤ w.dwords * 64)
      (hk : k < 16) : bit (m.seg w.body.seg).data (w.start + 16 * group.discriminantOffset + k) =
        bit (b'.seg w.body.seg).data (w.start + 16 * group.discriminantOffset + k) :=
    opens.bit_eq done.wf (used_of_inUse done.inUse (by omega))
  constructor
  · rintro zero i ⟨group, within, isUnion, inside⟩
    have union := layout.unions group within isUnion
    have read := (which_run (if_pos isUnion) union sized (by decide)).mp
      (zero group within _ (if_pos isUnion))
    obtain ⟨k, rfl⟩ := Nat.exists_eq_add_of_le inside.1
    have hk : k < 16 := by
      have high := inside.2
      omega
    refine (before ⟨group, within, isUnion, inside⟩).mp ?_
    rw [← seen union hk, read k hk, Nat.zero_testBit]
  · intro clear group within get emitted
    have isUnion : group.discriminantCount > 0 := by
      unfold emitWhich at emitted
      split at emitted
      · assumption
      · cases emitted
    have union := layout.unions group within isUnion
    refine (which_run emitted union sized (n := 0) (by decide)).mpr fun k hk => ?_
    have inside : w.start + 16 * group.discriminantOffset + k ∈ discriminantRuns nodes w groupId := by
      refine ⟨group, within, isUnion, ?_⟩
      simp only [Node.discriminantRun, mem_bitRun]
      omega
    rw [seen union hk, (before inside).mpr (clear _ inside), Nat.zero_testBit]

end Initialized

/-! ## The generator's recursion -/

/-- Groups are nested in groups of higher rank only. -/
def Ranked (nodes : List Node) (rank : Nat → Nat) : Prop :=
  ∀ id group g inner, nodeById nodes id = some group → g ∈ group.fields →
    g.which = .group inner → rank inner < rank id

theorem exists_clearFields {nested : Nat → Option (List Form)} {fields : List Field}
    (emits : ∀ f ∈ fields, ∀ id, f.which = .group id → ∃ forms, nested id = some forms) :
    ∃ forms, clearFields nested fields = some forms := by
  induction fields with
  | nil => exact ⟨[], rfl⟩
  | cons f rest ih =>
      have head : ∃ first, clearField nested f = some first := by
        unfold clearField
        cases kind : f.which with
        | slot offset type dflt => exact ⟨_, rfl⟩
        | group id => exact emits f List.mem_cons_self id kind
        | other => exact ⟨[], rfl⟩
      obtain ⟨first, head⟩ := head
      obtain ⟨later, tail⟩ := ih fun g member => emits g (List.mem_cons_of_mem f member)
      exact ⟨first ++ later, by rw [clearFields, head, tail]; rfl⟩

theorem clearFields_mono {nested nested' : Nat → Option (List Form)}
    (more : ∀ id forms, nested id = some forms → nested' id = some forms) {fields : List Field}
    {forms : List Form} (emitted : clearFields nested fields = some forms) :
    clearFields nested' fields = some forms := by
  induction fields generalizing forms with
  | nil => exact emitted
  | cons f rest ih =>
      rw [clearFields] at emitted ⊢
      obtain ⟨first, head, emitted⟩ := Option.bind_eq_some_iff.mp emitted
      obtain ⟨later, tail, emitted⟩ := Option.bind_eq_some_iff.mp emitted
      have head' : clearField nested' f = some first := by
        unfold clearField at head ⊢
        cases kind : f.which with
        | slot offset type dflt => rwa [kind] at head
        | group id =>
            rw [kind] at head
            exact more id first head
        | other => rwa [kind] at head
      rw [head', ih tail]
      exact emitted

/-- What is emitted does not depend on how deep the generator may go. -/
theorem emitGroupClear_mono {forms : List Form} (deeper : Nat)
    (emitted : emitGroupClear nodes depth groupId = some forms) :
    emitGroupClear nodes (depth + deeper) groupId = some forms := by
  induction depth generalizing groupId forms with
  | zero => cases emitted
  | succ depth ih =>
      rw [Nat.succ_add, emitGroupClear]
      rw [emitGroupClear] at emitted
      cases found : nodeById nodes groupId with
      | none => rwa [found] at emitted
      | some group =>
          rw [found] at emitted
          exact clearFields_mono (fun _ _ => ih) emitted

/-- The generator comes to an end on groups that are not nested in themselves. -/
theorem exists_emitGroupClear {rank : Nat → Nat} (ranked : Ranked nodes rank)
    (deep : rank groupId < depth) : ∃ forms, emitGroupClear nodes depth groupId = some forms := by
  induction depth generalizing groupId with
  | zero => exact absurd deep (Nat.not_lt_zero _)
  | succ depth ih =>
      rw [emitGroupClear]
      cases found : nodeById nodes groupId with
      | none => exact ⟨[], rfl⟩
      | some group =>
          exact exists_clearFields fun g member inner isGroup =>
            ih ((ranked groupId group g inner found member isGroup).trans_le (Nat.le_of_lt_succ deep))

theorem exists_emitGroupInit (node : Node) {rank : Nat → Nat} (ranked : Ranked nodes rank)
    (isGroup : f.which = .group groupId) :
    ∃ forms, ∀ depth, rank groupId < depth → emitGroupInit nodes depth node f = some forms := by
  obtain ⟨cleared, emitted⟩ := exists_emitGroupClear ranked (Nat.lt_succ_self (rank groupId))
  refine ⟨emitUnionSelect node f ++ cleared, fun depth deep => ?_⟩
  obtain ⟨deeper, rfl⟩ := Nat.exists_eq_add_of_le (Nat.succ_le_of_lt deep)
  rw [emitGroupInit, isGroup]
  exact Option.bind_eq_some_iff.mpr ⟨cleared, emitGroupClear_mono deeper emitted, rfl⟩

/-! ## Which groups are reset -/

/-- A group initializer resets the whole group exactly if the unions inside the
group are at discriminant 0 before, as far as their discriminants do not share bits
with the group's slots.  It always clears the slots, selects the group and leaves
everything else as it was. -/
theorem groupInit_resets_iff (wf : b.Wf) (inUse : w.InUse b)
    (layout : GroupLayout nodes w node f groupId) {rank : Nat → Nat} (ranked : Ranked nodes rank) :
    ∃ forms b', (∀ depth, rank groupId < depth → emitGroupInit nodes depth node f = some forms) ∧
      runForms w forms b = .ok () b' ∧ ∀ m, Opens b' m →
        (GroupReset nodes w node f groupId b b' m ↔
          ∀ i ∈ discriminantRuns nodes w groupId, i ∉ slotRuns nodes w groupId →
            bit (b.seg w.body.seg).data i = false) := by
  obtain ⟨forms, emitted⟩ := exists_emitGroupInit node ranked layout.isGroup
  obtain ⟨b', run, done⟩ := groupInit_initializes wf inUse layout
    (emitted _ (Nat.lt_succ_self (rank groupId)))
  refine ⟨forms, b', emitted, run, fun m opens => ⟨fun reset =>
    (done.unions_iff layout opens).mp reset.unions, fun clear => ?_⟩⟩
  have sized := inUse.dwordsLt
  exact {
    scalars := fun group within g member offset type dflt isSlot get emitted =>
      done.scalars layout opens within member isSlot emitted
    pointers := fun group within g member offset type dflt isSlot pointer =>
      done.pointers layout opens within member isSlot pointer
    unions := (done.unions_iff layout opens).mpr clear
    tagged := fun isMember get emitted => by
      have inside := layout.selects isMember
      refine (which_run emitted inside sized f.discriminant.toNat_lt).mpr fun k hk => ?_
      rw [opens.bit_eq done.wf (used_of_inUse done.inUse (by omega))]
      exact done.tagged isMember k hk
    kept := fun s i outside => done.kept s i fun here =>
      outside ⟨here.1, here.2.imp_right .inr⟩ }

/-- A group that is a union of a `UInt8` and a `Void`. -/
def choice : Node where
  id := 2
  discriminantCount := 2
  discriminantOffset := 1
  fields := [⟨0xffff, .slot 0 .uint8 (some fun _ => 0)⟩, ⟨0xfffe, .slot 0 .void (some fun _ => 0)⟩]

/-- A struct whose only field is this group. -/
def holder : Node where
  id := 1
  discriminantCount := 0
  discriminantOffset := 0
  fields := [⟨0, .group 2⟩]

/-- The root struct, with the `Void` selected. -/
def chosen : Memory := fun i => if i = 10 then 1 else 0

theorem wf_chosen : (single chosen 2).Wf :=
  wf_single (by decide) fun i outside => if_neg (by omega)

theorem inUse_chosen : ScalarField.memberStruct.InUse (single chosen 2) := by
  constructor <;> decide

theorem slot_of_choice {g : Field} (member : g ∈ choice.fields) :
    ∃ type dflt, g.which = .slot 0 type dflt ∧ SlotInside ScalarField.memberStruct type 0 := by
  simp only [choice, List.mem_cons, List.not_mem_nil, or_false] at member
  obtain rfl | rfl := member
  · exact ⟨_, _, rfl, show 8 * (0 + 1) ≤ 1 * 64 by decide⟩
  · exact ⟨_, _, rfl, nofun⟩

theorem inGroup_choice {group : Node} (within : InGroup [holder, choice] 2 group) :
    group = choice := by
  have found : nodeById [holder, choice] 2 = some choice := rfl
  cases within with
  | here found' => exact Option.some.inj (found'.symm.trans found)
  | nested found' member isGroup rest =>
      obtain rfl := Option.some.inj (found'.symm.trans found)
      obtain ⟨type, dflt, isSlot, -⟩ := slot_of_choice member
      exact absurd (isSlot.symm.trans isGroup) nofun

theorem layout_choice :
    GroupLayout [holder, choice] ScalarField.memberStruct holder ⟨0, .group 2⟩ 2 where
  isGroup := rfl
  slots group within g member offset type dflt isSlot := by
    obtain rfl := inGroup_choice within
    obtain ⟨_, _, isSlot', inside⟩ := slot_of_choice member
    cases isSlot'.symm.trans isSlot
    exact inside
  unions group within isUnion := by
    obtain rfl := inGroup_choice within
    decide
  selects isMember := absurd isMember (by decide)
  apart isMember := absurd isMember (by decide)

theorem ranked_choice : Ranked [holder, choice] fun id => if id = 2 then 0 else 1 := by
  intro id group g inner found member isGroup
  by_cases first : id = 2
  · subst first
    obtain rfl := inGroup_choice (.here found)
    obtain ⟨type, dflt, isSlot, -⟩ := slot_of_choice member
    exact absurd (isSlot.symm.trans isGroup) nofun
  · have holds : group = holder := by
      have first' : (2 == id) = false := by simpa using Ne.symm first
      simp only [nodeById, List.find?, holder, choice, first'] at found
      split at found
      · exact (Option.some.inj found).symm
      · cases found
    subst holds
    simp only [holder, List.mem_cons, List.not_mem_nil, or_false] at member
    subst member
    cases isGroup
    simp [first]

theorem groupInit_resets_iff_choice :
    ∃ forms b', (∀ depth, 0 < depth →
        emitGroupInit [holder, choice] depth holder ⟨0, .group 2⟩ = some forms) ∧
      runForms ScalarField.memberStruct forms (single chosen 2) = .ok () b' ∧ ∀ m, Opens b' m →
        (GroupReset [holder, choice] ScalarField.memberStruct holder ⟨0, .group 2⟩ 2
            (single chosen 2) b' m ↔
          ∀ i ∈ discriminantRuns [holder, choice] ScalarField.memberStruct 2,
            i ∉ slotRuns [holder, choice] ScalarField.memberStruct 2 →
              bit ((single chosen 2).seg 0).data i = false) :=
  groupInit_resets_iff wf_chosen inUse_chosen layout_choice ranked_choice

/-- The initializer of the group leaves the `Void` selected. -/
theorem groupInit_keeps_selection :
    ¬∀ (nodes : List Node) (w : BuilderPtr) (node : Node) (f : Field) (groupId depth : Nat)
      (forms : List Form) (b : Builder), b.Wf → w.InUse b → GroupLayout nodes w node f groupId →
        emitGroupInit nodes depth node f = some forms →
          ∃ b', runForms w forms b = .ok () b' ∧ ∀ m, Opens b' m →
            GroupReset nodes w node f groupId b b' m := by
  intro resets
  have emitted : emitGroupInit [holder, choice] 1 holder ⟨0, .group 2⟩ =
      some [.set .u8 0 (.integer 0) none] := by decide
  obtain ⟨b', run, reset⟩ := resets [holder, choice] ScalarField.memberStruct holder
    ⟨0, .group 2⟩ 2 1 _ _ wf_chosen inUse_chosen layout_choice emitted
  have computed : succeedsWith (runForms ScalarField.memberStruct [.set .u8 0 (.integer 0) none]
      (single chosen 2)) (fun _ b => opensWith b fun m =>
        (GetForm.run m (reader ScalarField.memberStruct) ⟨.u16, 2, none⟩).toOption ==
          some (.integer 1)) = true := by decide +kernel
  rw [run] at computed
  obtain ⟨m, opens, one⟩ := opensWith_iff.mp computed
  have zero := (reset m opens).unions choice (.here rfl) ⟨.u16, 2, none⟩ rfl
  rw [zero] at one
  cases one

end Codegen

end CapnpJanet
