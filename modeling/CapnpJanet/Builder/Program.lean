import CapnpJanet.Canonical.Frame

/-!
# Programs of builder calls

A client of the builder holds handles and calls the API on them.  The C type
`capnp_bptr_t` serves two purposes that the API keeps apart: a slot, where a
pointer may be written, and a body, where a struct's sections begin.  A program
names the handles it got by their number, so it can only use what earlier calls
have returned.

A program is run as a client runs it, going on after a failing call.  Whatever
its calls are, it stays behind the handles it was given.
-/

namespace CapnpJanet

open ByteMemory Outcome

/-- The handles a client holds. -/
structure Handles where
  slots : List BPtr
  bodies : List BPtr

/-- One call of the builder API.  The scalar setters and the setters of packed
lists are one call each, with the width as an argument. -/
inductive BuildOp
  | root
  | struct (ptr dwords pwords : Nat)
  | slot (body dwords ptrIndex : Nat)
  /-- `capnp_bptr_add`, the step from the first element of a struct list to a
  later one -/
  | element (body wordDelta : Nat)
  | setScalar (width body byteOffset value : Nat)
  | setBool (body bitOffset : Nat) (value : Bool)
  | clearPtr (body dwords ptrIndex : Nat)
  | setCap (body dwords ptrIndex capIndex : Nat)
  | setText (body dwords ptrIndex : Nat) (text : List UInt8)
  | setData (body dwords ptrIndex : Nat) (bytes : List UInt8)
  | setListPrim (body dwords ptrIndex : Nat) (esize : ElemSize) (nitems elemBytes : Nat)
      (items : Nat → Nat)
  | setListBool (body dwords ptrIndex nitems : Nat) (items : Nat → Bool)
  | setListText (body dwords ptrIndex : Nat) (items : List (List UInt8))
  | setListStruct (body dwords ptrIndex nitems elemDwords elemPwords : Nat)
  | copyPtr (slot : Nat) (m : Message) (src : Ptr) (left : Nat)

namespace Handles

/-- Call on a handle if there is one of that number; otherwise there is no
call. -/
def call (held : Handles) (handle : Option BPtr) (f : BPtr → BuildM Handles) : BuildM Handles :=
  match handle with
  | none => pure held
  | some ptr => f ptr

/-- Keep the handles after a call that returns none. -/
def keep {α : Type} (held : Handles) (x : BuildM α) : BuildM Handles := do
  let _ ← x
  return held

/-- Hold one more slot. -/
def addSlot (held : Handles) (x : BuildM BPtr) : BuildM Handles := do
  let ptr ← x
  return { held with slots := held.slots ++ [ptr] }

/-- Hold one more body. -/
def addBody (held : Handles) (x : BuildM BPtr) : BuildM Handles := do
  let ptr ← x
  return { held with bodies := held.bodies ++ [ptr] }

end Handles

namespace Builder

/-- Make one call: the handles held afterwards. -/
def call (held : Handles) : BuildOp → BuildM Handles
  | .root => held.addSlot Builder.root
  | .struct ptr dwords pwords =>
      held.call held.slots[ptr]? fun ptr => held.addBody (struct ptr dwords pwords)
  | .slot body dwords ptrIndex =>
      held.call held.bodies[body]? fun body => held.addSlot (slot body dwords ptrIndex)
  | .element body wordDelta =>
      held.call held.bodies[body]? fun body =>
        held.addBody (pure ⟨body.seg, body.word + wordDelta⟩)
  | .setScalar width body byteOffset value =>
      held.call held.bodies[body]? fun body => held.keep (setScalar width body byteOffset value)
  | .setBool body bitOffset value =>
      held.call held.bodies[body]? fun body => held.keep (setBool body bitOffset value)
  | .clearPtr body dwords ptrIndex =>
      held.call held.bodies[body]? fun body => held.keep (clearPtr body dwords ptrIndex)
  | .setCap body dwords ptrIndex capIndex =>
      held.call held.bodies[body]? fun body => held.keep (setCap body dwords ptrIndex capIndex)
  | .setText body dwords ptrIndex text =>
      held.call held.bodies[body]? fun body => held.keep (setText body dwords ptrIndex text)
  | .setData body dwords ptrIndex bytes =>
      held.call held.bodies[body]? fun body => held.keep (setDataList body dwords ptrIndex bytes)
  | .setListPrim body dwords ptrIndex esize nitems elemBytes items =>
      held.call held.bodies[body]? fun body =>
        held.keep (setListPrim body dwords ptrIndex esize nitems elemBytes items)
  | .setListBool body dwords ptrIndex nitems items =>
      held.call held.bodies[body]? fun body =>
        held.keep (setListBool body dwords ptrIndex nitems items)
  | .setListText body dwords ptrIndex items =>
      held.call held.bodies[body]? fun body =>
        held.keep (setListTextN body dwords ptrIndex items)
  | .setListStruct body dwords ptrIndex nitems elemDwords elemPwords =>
      held.call held.bodies[body]? fun body =>
        held.addBody (setListStruct body dwords ptrIndex nitems elemDwords elemPwords)
  | .copyPtr slot m src left =>
      held.call held.slots[slot]? fun slot => held.keep (copyPtr slot m src left)

/-- Make the calls one after the other, whether they succeed or not. -/
def calls : List BuildOp → Handles → Builder → Handles × Builder
  | [], held, b => (held, b)
  | op :: rest, held, b =>
      match call held op b with
      | .ok held b => calls rest held b
      | .error _ b => calls rest held b

end Builder

/-! ## What one call does -/

namespace Handles

/-- Bytes that are named through a handle; without the handle there are none. -/
def bytesAt (handle : Option BPtr) (f : BPtr → Nat → Nat → Prop) : Nat → Nat → Prop :=
  fun s i => ∃ ptr, handle = some ptr ∧ f ptr s i

end Handles

namespace Builder

/-- The bytes a call names: a field for the setters of scalars, a pointer slot
for all calls that write a pointer. -/
def touched (held : Handles) : BuildOp → Nat → Nat → Prop
  | .root | .slot _ _ _ | .element _ _ => nowhere
  | .struct ptr _ _ => Handles.bytesAt held.slots[ptr]? fun ptr => slotBytes ptr.seg ptr.word
  | .setScalar width body byteOffset _ =>
      Handles.bytesAt held.bodies[body]? fun body => fieldBytes body byteOffset width
  | .setBool body bitOffset _ =>
      Handles.bytesAt held.bodies[body]? fun body => fieldBytes body (bitOffset / 8) 1
  | .clearPtr body dwords ptrIndex
  | .setCap body dwords ptrIndex _
  | .setText body dwords ptrIndex _
  | .setData body dwords ptrIndex _
  | .setListPrim body dwords ptrIndex _ _ _ _
  | .setListBool body dwords ptrIndex _ _
  | .setListText body dwords ptrIndex _
  | .setListStruct body dwords ptrIndex _ _ _ =>
      Handles.bytesAt held.bodies[body]? fun body =>
        slotBytes body.seg (body.word + dwords + ptrIndex)
  | .copyPtr slot _ _ _ =>
      Handles.bytesAt held.slots[slot]? fun slot => slotBytes slot.seg slot.word

/-- Where a new handle points: to a slot that was held, behind a body that was
held, or to a word that was not in use. -/
def Derived (held : Handles) (b : Builder) (ptr : BPtr) : Prop :=
  ptr ∈ held.slots ∨ (∃ body ∈ held.bodies, ptr.seg = body.seg ∧ body.word ≤ ptr.word) ∨
    ¬b.Used ptr.seg ptr.word

/-- The handles held after a call: those held before, and derived ones.  A new
slot is in use. -/
structure Gains (held : Handles) (b : Builder) (held' : Handles) (b' : Builder) : Prop where
  slots : ∀ ptr ∈ held'.slots, ptr ∈ held.slots ∨ b'.Used ptr.seg ptr.word ∧ Derived held b ptr
  bodies : ∀ ptr ∈ held'.bodies, ptr ∈ held.bodies ∨ Derived held b ptr

variable {held held' : Handles} {b b' : Builder}

theorem Gains.refl (held : Handles) (b b' : Builder) : Gains held b held b' :=
  ⟨fun _ member => .inl member, fun _ member => .inl member⟩

theorem gains_slot {ptr : BPtr} (inUse : b'.Used ptr.seg ptr.word) (derived : Derived held b ptr) :
    Gains held b { held with slots := held.slots ++ [ptr] } b' := by
  refine ⟨fun other member => ?_, fun _ member => .inl member⟩
  rcases List.mem_append.mp member with old | new
  · exact .inl old
  · rw [List.mem_singleton.mp new]
    exact .inr ⟨inUse, derived⟩

theorem gains_body {ptr : BPtr} (derived : Derived held b ptr) :
    Gains held b { held with bodies := held.bodies ++ [ptr] } b' := by
  refine ⟨fun _ member => .inl member, fun other member => ?_⟩
  rcases List.mem_append.mp member with old | new
  · exact .inl old
  · rw [List.mem_singleton.mp new]
    exact .inr derived

/-- What a call has done when it ends: it changed the bytes it names, and the
handles it returned are derived ones. -/
def Does (held : Handles) (b : Builder) (touched : Nat → Nat → Prop)
    (r : EStateM.Result Status Builder Handles) : Prop :=
  Ends r (fun held' b' => Writes touched b b' ∧ Gains held b held' b') (Writes touched b)

theorem does_call (wf : b.Wf) {handle : Option BPtr} {f : BPtr → BuildM Handles}
    {bytes : BPtr → Nat → Nat → Prop}
    (rest : ∀ ptr, handle = some ptr → Does held b (bytes ptr) (f ptr b)) :
    Does held b (Handles.bytesAt handle bytes) (held.call handle f b) := by
  unfold Handles.call
  cases handle with
  | none => exact ⟨Writes.refl wf, Gains.refl _ _ _⟩
  | some ptr =>
      have wider : ∀ b', Writes (bytes ptr) b b' →
          Writes (Handles.bytesAt (.some ptr) bytes) b b' :=
        fun b' writes => writes.mono fun s i _ touches => ⟨ptr, rfl, touches⟩
      exact (rest ptr rfl).mono (fun _ b' done => ⟨wider b' done.1, done.2⟩) wider

/-- A call that names no byte. -/
theorem does_call_nowhere (wf : b.Wf) {handle : Option BPtr} {f : BPtr → BuildM Handles}
    (rest : ∀ ptr, handle = some ptr → Does held b nowhere (f ptr b)) :
    Does held b nowhere (held.call handle f b) := by
  have nothing : ∀ b', Writes (Handles.bytesAt handle fun _ => nowhere) b b' →
      Writes nowhere b b' := fun b' writes =>
    writes.mono fun s i _ ⟨_, _, touches⟩ => touches
  exact (does_call wf rest).mono (fun _ b' done => ⟨nothing b' done.1, done.2⟩) nothing

theorem does_keep {α : Type} {x : BuildM α} {touched : Nat → Nat → Prop}
    (confined : Confined touched x b) : Does held b touched (held.keep x b) :=
  confined.bind (fun _ _ writes => ⟨writes, Gains.refl _ _ _⟩) fun _ writes => writes

theorem root_eq_ok {ptr : BPtr} (run : root b = .ok ptr b') : ptr = ⟨0, 0⟩ := by
  unfold root at run
  split at run
  · cases run
  split at run
  · cases run
  · split at run
    · cases run
    · cases run
      rfl

/-- The root is the first word of the arena, fresh when it is handed out. -/
theorem root_ends (wf : b.Wf) :
    Ends (root b) (fun ptr b' => Writes nowhere b b' ∧ b'.Used ptr.seg ptr.word ∧
      ¬b.Used ptr.seg ptr.word) (Writes nowhere b) := by
  have words := allocWords_ends wf 1
  unfold root
  split
  · exact Writes.refl wf
  cases run : allocWords 1 b with
  | error rc b₁ =>
      simp only [run, ends_error] at words
      subst words
      exact Writes.refl wf
  | ok at' b₁ =>
      obtain ⟨seg, w⟩ := at'
      simp only [run, ends_ok] at words
      obtain ⟨allocated, -⟩ := words
      dsimp only
      split
      · exact allocated.writes
      · next first =>
          obtain ⟨rfl, rfl⟩ : seg = 0 ∧ w = 0 := by simpa using first
          exact ⟨allocated.writes, allocated.used_new (i := 0) Nat.one_pos,
            allocated.not_used_before 0⟩

/-- One call, whichever it is, changes the bytes it names and nothing else
that is in use. -/
theorem call_ends (wf : b.Wf) (used : ∀ ptr ∈ held.slots, b.Used ptr.seg ptr.word) (op : BuildOp) :
    Does held b (touched held op) (call held op b) := by
  cases op with
  | root =>
      refine (root_ends wf).bind (fun ptr b' done => ?_) fun b' writes => writes
      obtain ⟨writes, inUse, fresh⟩ := done
      exact ⟨writes, gains_slot inUse (.inr (.inr fresh))⟩
  | struct ptr dwords pwords =>
      refine does_call wf fun ptr handle => ?_
      have member := List.mem_of_getElem? handle
      refine (struct_ends wf (used ptr member) dwords pwords).bind (fun body b' done => ?_)
        fun b' writes => writes
      obtain ⟨writes, where'⟩ := done
      refine ⟨writes, gains_body ?_⟩
      rcases where' with rfl | ⟨fresh, -⟩
      · exact .inl member
      · exact .inr (.inr fresh)
  | slot body dwords ptrIndex =>
      refine does_call_nowhere wf fun body handle => ?_
      refine (slot_ends body dwords ptrIndex).bind (fun at' b' done => ?_) fun b' same => ?_
      · obtain ⟨rfl, rfl, inUse⟩ := done
        exact ⟨Writes.refl wf, gains_slot inUse (.inr (.inl ⟨body, List.mem_of_getElem? handle,
          rfl, by dsimp only; omega⟩))⟩
      · rw [same]
        exact Writes.refl wf
  | element body wordDelta =>
      refine does_call_nowhere wf fun body handle => ?_
      exact ⟨Writes.refl wf, gains_body (.inr (.inl ⟨body, List.mem_of_getElem? handle, rfl,
        Nat.le_add_right _ _⟩))⟩
  | setScalar width body byteOffset value =>
      exact does_call wf fun body _ => does_keep (setScalar_confined wf width body byteOffset value)
  | setBool body bitOffset value =>
      exact does_call wf fun body _ => does_keep (setBool_confined wf body bitOffset value)
  | clearPtr body dwords ptrIndex =>
      exact does_call wf fun body _ => does_keep (clearPtr_confined wf body dwords ptrIndex)
  | setCap body dwords ptrIndex capIndex =>
      exact does_call wf fun body _ => does_keep (setCap_confined wf body dwords ptrIndex capIndex)
  | setText body dwords ptrIndex text =>
      exact does_call wf fun body _ => does_keep (setText_confined wf body dwords ptrIndex text)
  | setData body dwords ptrIndex bytes =>
      exact does_call wf fun body _ => does_keep (setDataList_confined wf body dwords ptrIndex bytes)
  | setListPrim body dwords ptrIndex esize nitems elemBytes items =>
      exact does_call wf fun body _ =>
        does_keep (setListPrim_confined wf body dwords ptrIndex esize nitems elemBytes items)
  | setListBool body dwords ptrIndex nitems items =>
      exact does_call wf fun body _ =>
        does_keep (setListBool_confined wf body dwords ptrIndex nitems items)
  | setListText body dwords ptrIndex items =>
      exact does_call wf fun body _ =>
        does_keep (setListTextN_confined wf body dwords ptrIndex items)
  | setListStruct body dwords ptrIndex nitems elemDwords elemPwords =>
      refine does_call wf fun body _ => ?_
      refine (setListStruct_ends wf body dwords ptrIndex nitems elemDwords elemPwords).bind
        (fun first b' done => ?_) fun b' writes => writes
      obtain ⟨writes, fresh, -⟩ := done
      exact ⟨writes, gains_body (.inr (.inr fresh))⟩
  | copyPtr slot m src left =>
      exact does_call wf fun slot handle =>
        does_keep (copyPtr_confined wf (used slot (List.mem_of_getElem? handle)) m src left)

/-! ## A program stays behind its handles -/

/-- The bytes from word `word` of segment `seg` on, and all other segments. -/
def behind (seg word : Nat) : Nat → Nat → Prop := fun s i => s ≠ seg ∨ word * 8 ≤ i

/-- Handles that a program can have obtained from handles behind a word. -/
structure Held (seg word : Nat) (held : Handles) (b : Builder) : Prop where
  slots_used : ∀ ptr ∈ held.slots, b.Used ptr.seg ptr.word
  slots_behind : ∀ ptr ∈ held.slots, ptr.seg ≠ seg ∨ word ≤ ptr.word
  bodies_behind : ∀ ptr ∈ held.bodies, ptr.seg ≠ seg ∨ word ≤ ptr.word

variable {seg word : Nat}

/-- Fresh words lie behind every word in use. -/
theorem fresh_behind {s w : Nat} (inUse : word ≤ (b.seg seg).words) (fresh : ¬b.Used s w) :
    s ≠ seg ∨ word ≤ w := by
  by_cases same : s = seg
  · subst same
    exact .inr (inUse.trans (not_lt.mp fresh))
  · exact .inl same

theorem Held.derived {ptr : BPtr} (has : Held seg word held b) (inUse : word ≤ (b.seg seg).words)
    (derived : Derived held b ptr) : ptr.seg ≠ seg ∨ word ≤ ptr.word := by
  rcases derived with slot | ⟨body, member, segEq, after⟩ | fresh
  · exact has.slots_behind ptr slot
  · rw [segEq]
    exact (has.bodies_behind body member).imp_right after.trans'
  · exact fresh_behind inUse fresh

/-- Writing keeps the slots in use. -/
theorem Held.writes {touched : Nat → Nat → Prop} (has : Held seg word held b)
    (writes : Writes touched b b') : Held seg word held b' :=
  ⟨fun ptr member => writes.used (has.slots_used ptr member), has.slots_behind, has.bodies_behind⟩

/-- The handles after a call still lie behind the word. -/
theorem Held.gains {touched : Nat → Nat → Prop} (has : Held seg word held b)
    (inUse : word ≤ (b.seg seg).words) (writes : Writes touched b b')
    (gains : Gains held b held' b') : Held seg word held' b' := by
  refine ⟨fun ptr member => ?_, fun ptr member => ?_, fun ptr member => ?_⟩
  · rcases gains.slots ptr member with old | ⟨used, -⟩
    · exact writes.used (has.slots_used ptr old)
    · exact used
  · rcases gains.slots ptr member with old | ⟨-, derived⟩
    · exact has.slots_behind ptr old
    · exact has.derived inUse derived
  · rcases gains.bodies ptr member with old | derived
    · exact has.bodies_behind ptr old
    · exact has.derived inUse derived

theorem slotBytes_behind {s w : Nat} (place : s ≠ seg ∨ word ≤ w) :
    ∀ t i, slotBytes s w t i → behind seg word t i := by
  rintro t i ⟨rfl, rfl⟩
  rcases place with other | later
  · exact .inl other
  · exact .inr (by omega)

theorem fieldBytes_behind {body : BPtr} (place : body.seg ≠ seg ∨ word ≤ body.word)
    (byteOffset width : Nat) :
    ∀ t i, fieldBytes body byteOffset width t i → behind seg word t i := by
  rintro t i ⟨rfl, low, -⟩
  rcases place with other | later
  · exact .inl other
  · exact .inr (by omega)

/-- The bytes that a call names lie behind the word when its handles do. -/
theorem Held.touched (has : Held seg word held b) (op : BuildOp) :
    ∀ s i, touched held op s i → behind seg word s i := by
  intro s i names
  -- a pointer slot of a body behind the word lies behind it
  have pointer {body : Nat} (dwords ptrIndex : Nat)
      (names : Handles.bytesAt held.bodies[body]?
        (fun body => slotBytes body.seg (body.word + dwords + ptrIndex)) s i) :
      behind seg word s i := by
    obtain ⟨ptr, handle, bytes⟩ := names
    exact slotBytes_behind ((has.bodies_behind ptr (List.mem_of_getElem? handle)).imp_right
      fun later => by omega) s i bytes
  cases op with
  | root | slot _ _ _ | element _ _ => exact names.elim
  | struct _ _ _ | copyPtr _ _ _ _ =>
      obtain ⟨ptr, handle, bytes⟩ := names
      exact slotBytes_behind (has.slots_behind ptr (List.mem_of_getElem? handle)) s i bytes
  | setScalar _ _ _ _ | setBool _ _ _ =>
      obtain ⟨ptr, handle, bytes⟩ := names
      exact fieldBytes_behind (has.bodies_behind ptr (List.mem_of_getElem? handle)) _ _ s i bytes
  | clearPtr _ dwords ptrIndex | setCap _ dwords ptrIndex _ | setText _ dwords ptrIndex _
  | setData _ dwords ptrIndex _ | setListPrim _ dwords ptrIndex _ _ _ _
  | setListBool _ dwords ptrIndex _ _ | setListText _ dwords ptrIndex _
  | setListStruct _ dwords ptrIndex _ _ _ => exact pointer dwords ptrIndex names

/-- A program of builder calls stays behind the handles it starts from. -/
theorem calls_writes (wf : b.Wf) (has : Held seg word held b) (inUse : word ≤ (b.seg seg).words)
    (ops : List BuildOp) : Writes (behind seg word) b (calls ops held b).2 := by
  induction ops generalizing held b with
  | nil => exact Writes.refl wf
  | cons op rest ih =>
      have one := call_ends wf has.slots_used op
      have within := fun s i (_ : i < (b.seg s).words * 8) => has.touched op s i
      rw [calls]
      cases run : call held op b with
      | ok held' b' =>
          rw [run] at one
          obtain ⟨writes, gains⟩ := one
          exact (writes.mono within).trans (ih writes.wf (has.gains inUse writes gains)
            (inUse.trans (writes.words_le seg))) fun _ _ _ place => place
      | error rc b' =>
          rw [run] at one
          have writes : Writes (Builder.touched held op) b b' := one
          exact (writes.mono within).trans (ih writes.wf (has.writes writes)
            (inUse.trans (writes.words_le seg))) fun _ _ _ place => place

end Builder

end CapnpJanet
