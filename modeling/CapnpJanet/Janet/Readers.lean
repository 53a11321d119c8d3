import CapnpJanet.Builder.Reading
import CapnpJanet.Janet.Lists
import CapnpJanet.Janet.Simulation

/-!
# What a script reads of what a script has built

A script builds, finishes its builder, opens the buffer as a message, and reads:
from the root along pointers and elements, and at the end fields, elements and
texts.  It finds what the draft of the first script says, or a function panics where
the draft leads nowhere.
-/

namespace CapnpJanet

open ByteMemory Outcome Builder Run Codegen Draft

namespace Janet

/-! ## Readers -/

/-- Functions that take words from the traversal budget of a message. -/
abbrev ReadM := EStateM Panic Nat

/-- The handle that a call gives, if it succeeds. -/
def orPanic (message : String) (call : Nat → Resolved) : ReadM Ptr := fun left =>
  if (call left).rc = .ok then .ok (call left).out (call left).left
  else .error (.text message) (call left).left

/-- `cfun_root` -/
def cfunRoot (m : Message) : ReadM Ptr := orPanic "capnp/root: error" (m.root Ptr.zero)

/-- `cfun_getp`.  The index is cut to 16 bits. -/
def cfunGetp (m : Message) (p : Ptr) (index : Int) : ReadM Ptr :=
  if ¬IntType.i32.InRange index then throw (.argument 1)
  else if index < 0 then throw (.text "capnp/getp: negative index")
  else orPanic "capnp/getp: error" (m.getp p (IntType.u16.toBits index) Ptr.zero)

/-- `cfun_list_getp` -/
def cfunListGetp (m : Message) (p : Ptr) (index : Int) : ReadM Ptr :=
  if ¬IntType.i32.InRange index then throw (.argument 1)
  else if index < 0 then throw (.text "capnp/list-getp: negative")
  else orPanic "capnp/list-getp: error" (m.listGetp p (IntType.u32.toBits index) Ptr.zero)

/-- `cfun_get_text`.  The index is cut to 16 bits, and may be negative. -/
def cfunGetText (m : Message) (p : Ptr) (index : Int) : ReadM (List UInt8) := fun left =>
  if ¬IntType.i32.InRange index then .error (.argument 1) left
  else
    let r := m.getText p (IntType.u16.toBits index) left
    if r.1 ≠ .ok then .error (.text "capnp/get-text: error") r.2.2 else .ok r.2.1 r.2.2

/-- `cfun_get_data`.  A list has fewer bytes than a string of Janet can hold. -/
def cfunGetData (m : Message) (p : Ptr) (index : Int) : ReadM (List UInt8) := fun left =>
  if ¬IntType.i32.InRange index then .error (.argument 1) left
  else if index < 0 ∨ index > 2 ^ 16 - 1 then
    .error (.text "capnp/get-data: pointer index out of range") left
  else
    let r := m.getData p index.toNat left
    if r.1 ≠ .ok then .error (.text "capnp/get-data: error") r.2.2
    else if r.2.1.length > 2 ^ 31 - 1 then
      .error (.text "capnp/get-data: value exceeds Janet's string limit") r.2.2
    else .ok r.2.1 r.2.2

/-- `cfun_list_get_text` -/
def cfunListGetText (m : Message) (p : Ptr) (index : Int) : ReadM (List UInt8) := fun left =>
  if ¬IntType.i32.InRange index then .error (.argument 1) left
  else if index < 0 then .error (.text "capnp/list-get-text: negative") left
  else
    let r := m.listGetText p (IntType.u32.toBits index) left
    if r.1 ≠ .ok then .error (.text "capnp/list-get-text: error") r.2.2 else .ok r.2.1 r.2.2

/-- `cfun_list_len` -/
def cfunListLen (p : Ptr) : Nat := listLen p

/-- The common body of the integer cases of `cfun_list_get_value`. -/
def integerAt (t : IntType) (getArg : Nat → Value → Except Panic Int) (load : Nat → Nat)
    (dflt : Option Value) : Except Panic Value := do
  let dflt ← optional getArg 2 0 dflt
  pure (.integer (t.ofBits (load (t.toBits dflt))))

/-- The common body of the float cases of `cfun_list_get_value`. -/
def realAt (bytes : Nat) (load : Nat → Nat) (dflt : Option Value) : Except Panic Value := do
  let dflt ← optional (getReal bytes) 2 0 dflt
  pure (.real (load dflt))

/-- `cfun_list_get_value` -/
def cfunListGetValue (kind : ListKind) (m : Message) (list : Ptr) (index : Nat)
    (dflt : Option Value) : Except Panic Value :=
  if ¬IntType.u32.InRange index then .error (.argument 1)
  else
    match kind with
    | .bool => do
        let dflt ← optional getBoolean 2 false dflt
        pure (.boolean (m.listGetBool list index dflt))
    | .i8 => integerAt .i8 (getI8Arg "capnp/list-get-i8") (m.listGetU8 list index) dflt
    | .u8 => integerAt .u8 (getU8Arg "capnp/list-get-u8") (m.listGetU8 list index) dflt
    | .i16 => integerAt .i16 (getInteger .i16) (m.listGetU16 list index) dflt
    | .u16 => integerAt .u16 (getInteger .u16) (m.listGetU16 list index) dflt
    | .i32 => integerAt .i32 (getInteger .i32) (m.listGetU32 list index) dflt
    | .u32 => integerAt .u32 (getInteger .u32) (m.listGetU32 list index) dflt
    | .i64 => integerAt .i64 (getInteger .i64) (m.listGetU64 list index) dflt
    | .u64 => integerAt .u64 (getInteger .u64) (m.listGetU64 list index) dflt
    | .f32 => realAt 4 (m.listGetF32 list index) dflt
    | .f64 => realAt 8 (m.listGetF64 list index) dflt

/-! ## Walks -/

/-- One step of a reading script. -/
def stepOn (m : Message) (p : Ptr) : Step → ReadM Ptr
  | .getp index => cfunGetp m p index
  | .listGetp index => cfunListGetp m p index

/-- Steps one after the other, up to the first that panics. -/
def walkOn (m : Message) : Ptr → List Step → ReadM Ptr
  | p, [] => pure p
  | p, step :: rest => do
      let q ← stepOn m p step
      walkOn m q rest

/-- From the root along a path. -/
def readAlong (m : Message) (path : List Step) : ReadM Ptr := do
  let p ← cfunRoot m
  walkOn m p path

/-- The index of a step is an `int32_t`. -/
def Indexed : Step → Prop
  | .getp index | .listGetp index => index < 2 ^ 31

/-- The step that is taken: the index of a pointer has 16 bits. -/
def taken : Step → Step
  | .getp index => .getp (index % 2 ^ 16)
  | .listGetp index => .listGetp index

/-- A function gives the handle of a call, or panics if the call fails. -/
def Gives (x : EStateM.Result Panic Nat Ptr) (r : Resolved) : Prop :=
  if r.rc = .ok then x = .ok r.out r.left else ∃ panic, x = .error panic r.left

section
variable {m : Message} {p : Ptr} {left : Nat}

theorem orPanic_gives (message : String) (call : Nat → Resolved) :
    Gives (orPanic message call left) (call left) := by
  unfold Gives orPanic
  split
  · rfl
  · exact ⟨_, rfl⟩

theorem toBits_u16 (index : Nat) : IntType.u16.toBits index = index % 2 ^ 16 := by
  unfold IntType.toBits
  change ((index : Int) % ((2 ^ 16 : Nat) : Int)).toNat = _
  rw [← Int.natCast_emod]
  rfl

theorem toBits_u32 {index : Nat} (small : index < 2 ^ 32) : IntType.u32.toBits index = index := by
  unfold IntType.toBits
  change ((index : Int) % ((2 ^ 32 : Nat) : Int)).toNat = _
  rw [← Int.natCast_emod, Nat.mod_eq_of_lt small]
  rfl

theorem stepOn_gives {step : Step} (indexed : Indexed step) :
    Gives (stepOn m p step left) (m.step p left (taken step)) := by
  cases step with
  | getp index =>
      unfold stepOn cfunGetp
      dsimp only
      rw [if_neg (not_not.mpr (inRange_i32 indexed)), if_neg (by omega), toBits_u16]
      exact orPanic_gives _ _
  | listGetp index =>
      have small : index < 2 ^ 31 := indexed
      unfold stepOn cfunListGetp
      dsimp only
      rw [if_neg (not_not.mpr (inRange_i32 indexed)), if_neg (by omega), toBits_u32 (by omega)]
      exact orPanic_gives _ _

/-- A reading script goes where the calls of the library go. -/
theorem walkOn_gives {path : List Step} (indexed : ∀ step ∈ path, Indexed step) :
    Gives (walkOn m p path left) (m.walk ⟨.ok, p, left⟩ (path.map taken)) := by
  induction path generalizing p left with
  | nil =>
      rw [List.map_nil, Message.walk, Gives, if_pos rfl]
      rfl
  | cons step rest ih =>
      rw [List.map_cons, Message.walk]
      dsimp only
      rw [if_pos rfl]
      have one : Gives (stepOn m p step left) (m.step p left (taken step)) :=
        stepOn_gives (indexed step List.mem_cons_self)
      unfold Gives at one
      split at one
      · next ok =>
        have others : Gives
            (walkOn m (m.step p left (taken step)).out rest (m.step p left (taken step)).left)
            (m.walk ⟨.ok, (m.step p left (taken step)).out, (m.step p left (taken step)).left⟩
              (rest.map taken)) :=
          ih fun other member => indexed other (List.mem_cons_of_mem step member)
        have whole : m.step p left (taken step) =
            ⟨.ok, (m.step p left (taken step)).out, (m.step p left (taken step)).left⟩ := by
          rw [← ok]
        rw [whole, walkOn, bind_run one]
        exact others
      · next failed =>
        obtain ⟨panic, stops⟩ := one
        rw [Message.walk_of_failed failed, Gives, if_neg failed]
        refine ⟨panic, ?_⟩
        unfold walkOn
        simp only [bind, EStateM.bind, stops]

theorem readAlong_gives {path : List Step} (indexed : ∀ step ∈ path, Indexed step) :
    Gives (readAlong m path left) (m.walk (m.root Ptr.zero left) (path.map taken)) := by
  have start : Gives (cfunRoot m left) (m.root Ptr.zero left) := orPanic_gives _ _
  unfold Gives at start
  split at start
  · next ok =>
    have whole : m.root Ptr.zero left =
        ⟨.ok, (m.root Ptr.zero left).out, (m.root Ptr.zero left).left⟩ := by
      rw [← ok]
    rw [whole, readAlong, bind_run start]
    exact walkOn_gives indexed
  · next failed =>
    obtain ⟨panic, stops⟩ := start
    rw [Message.walk_of_failed failed, Gives, if_neg failed]
    refine ⟨panic, ?_⟩
    unfold readAlong
    simp only [bind, EStateM.bind, stops]

end

end Janet

end CapnpJanet
