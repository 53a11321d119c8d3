import CapnpJanet.Builder.Ops
import CapnpJanet.Logic.Ends
import CapnpJanet.Message.Getters

/-!
# Deep copy and canonicalization

`capnp_canonical.c`: copying an object tree into a builder, with trailing zero
words and null pointers dropped, and the canonical rewrite of a message.  The
copier reads one message and writes one builder, so its state is the builder
together with the traversal budget of the message.

The C recursion counts `depth` up and stops above 64; here `room` counts down
from 65, so room zero is the depth error.  Child failures become
`CAPNP_ERR_ALLOC` in every caller, as in the source.
-/

namespace CapnpJanet

open ByteMemory

/-- The state of a copy: the builder and the source message's budget. -/
structure CopyState where
  b : Builder
  left : Nat

/-- Copy steps: a result or an error code, and the state they leave. -/
abbrev CopyM := EStateM Status CopyState

namespace CopyM

/-- Call a reader: its budget is the state's. -/
def reading (read : Nat → Resolved) : CopyM Resolved := fun st =>
  .ok (read st.left) { st with left := (read st.left).left }

/-- Change the builder. -/
def onBuilder (f : Builder → Builder) : CopyM Unit := fun st => .ok () { st with b := f st.b }

/-- `if (x) return code;` -/
def orFail {α : Type} (code : Status) (x : CopyM α) : CopyM α := fun st =>
  match x st with
  | .ok a st => .ok a st
  | .error _ st => .error code st

end CopyM

namespace Message

/-- `trimmed_dwords`, for the first `nd` data words. -/
def trimmedDwords (m : Message) (p : Ptr) : (nd : Nat) → Nat
  | 0 => 0
  | nd + 1 => if m.getU64 p (nd * 8) 0 ≠ 0 then nd + 1 else m.trimmedDwords p nd

/-- `trimmed_pwords`, for the first `np` pointer words; the second component is
the remaining budget. -/
def trimmedPwords (m : Message) (p : Ptr) : (np left : Nat) → Nat × Nat
  | 0, left => (0, left)
  | np + 1, left =>
      let q := m.getp p np Ptr.zero left
      if q.rc ≠ .ok ∨ q.out.kind ≠ .null then (np + 1, q.left) else m.trimmedPwords p np q.left

/-- `composite_trim` after the first `n` elements: data words, pointer words
and remaining budget. -/
def compositeTrim (m : Message) (list : Ptr) : (n left : Nat) → Nat × Nat × Nat
  | 0, left => (0, 0, left)
  | n + 1, left =>
      let (nd, np, left) := m.compositeTrim list n left
      let el := m.listGetp list n Ptr.zero left
      if el.rc ≠ .ok then (nd, np, el.left)
      else
        let tp := m.trimmedPwords el.out el.out.pwords el.left
        (max nd (m.trimmedDwords el.out el.out.dwords), max np tp.1, tp.2)

end Message

namespace Builder

/-- `while (ncap < need) ncap *= 2;` followed by `realloc`, without a ceiling. -/
def growLocal (s : BSeg) (need : Nat) : BSeg :=
  if need > s.cap then regrow s (growCap need (if s.cap ≠ 0 then s.cap * 2 else 16) need) else s

/-- `alloc_local`: allocate in the last segment, growing it. -/
def allocLocal (n : Nat) : BuildM (Nat × Nat) := fun b =>
  let last := b.nsegs - 1
  if n = 0 then .ok (last, (b.seg last).words) b
  else if b.nsegs = 0 then .error .arg b
  else
    let b := b.setSeg last (growLocal (b.seg last) ((b.seg last).words + n))
    .ok (last, (b.seg last).words) (b.bump last n)

/-- `n` consecutive words. -/
def storeWords (b : Builder) (seg start : Nat) (w : Nat → Nat) : (n : Nat) → Builder
  | 0 => b
  | n + 1 => (b.storeWords seg start w n).storeW seg (start + n) (w n)

end Builder

namespace Message

open CopyM Outcome

/-- `trimmed_pwords` inside a copy. -/
def countPwords (m : Message) (src : Ptr) : CopyM Nat := fun st =>
  let trimmed := m.trimmedPwords src src.pwords st.left
  .ok trimmed.1 { st with left := trimmed.2 }

/-- `composite_trim` inside a copy. -/
def countComposite (m : Message) (list : Ptr) : CopyM (Nat × Nat) := fun st =>
  let trimmed := m.compositeTrim list list.count st.left
  .ok (trimmed.1, trimmed.2.1) { st with left := trimmed.2.2 }

/-- `alloc_local` inside a copy. -/
def allocLocal (n : Nat) : CopyM (Nat × Nat) := fun st =>
  match Builder.allocLocal n st.b with
  | .ok at' b => .ok at' { st with b := b }
  | .error _ b => .error .alloc { st with b := b }

/-- The body of a copied pointer list: `n` words, or just behind the slot when
there are none. -/
def placePointers (slotSeg slotWord n : Nat) : CopyM (Nat × Nat) :=
  if n ≠ 0 then allocLocal n else pure (slotSeg, slotWord + 1)

/-- `capnp_store_le64(wptr(b, seg, word), w)` -/
def store (seg word w : Nat) : CopyM Unit := onBuilder fun b => b.storeW seg word w

/-- `write_struct_body_data` -/
def writeStructBodyData (m : Message) (seg body nd : Nat) (src : Ptr) : CopyM Unit :=
  onBuilder fun b =>
    b.storeWords seg body (fun i => if i < src.dwords then m.getU64 src (i * 8) 0 else 0) nd

/-- Words of a packed body of `nbytes` bytes, copied to `start`. -/
def copyBody (m : Message) (seg start nbytes : Nat) (list : Ptr) : CopyM Unit :=
  onBuilder fun b =>
    let cleared := blit (Builder.wordsFor nbytes * 8) (b.seg seg).data (start * 8) fun _ => 0
    b.setData seg (blit nbytes cleared (start * 8) (m.listByte list))

section
variable (m : Message) (copy : Nat → Nat → Ptr → CopyM Unit)

/-- One pointer of a copied struct: the child is read and copied, or the slot
is cleared when the source has no such pointer. -/
def copyChild (seg slot : Nat) (src : Ptr) (k : Nat) : CopyM Unit := do
  if k < src.pwords then
    let child ← reading fun left => m.getp src k Ptr.zero left
    if child.rc ≠ .ok then throw .kind
    orFail .alloc (copy seg slot child.out)
  else store seg slot 0

/-- The struct branch of `capnp_copy_ptr_to_word`. -/
def writeStructToSlot (slotSeg slotWord : Nat) (src : Ptr) : CopyM Unit := do
  let nd := m.trimmedDwords src src.dwords
  let np ← m.countPwords src
  if nd = 0 ∧ np = 0 then store slotSeg slotWord (wpMakeStruct (-1) 0 0)
  else
    let (seg, body) ← allocLocal (nd + np)
    store slotSeg slotWord (wpMakeStruct ((body : Int) - slotWord - 1) nd np)
    m.writeStructBodyData seg body nd src
    upTo np fun k => m.copyChild copy seg (body + nd + k) src k

/-- One element of a copied composite list. -/
def copyElement (seg first nd np : Nat) (list : Ptr) (i : Nat) : CopyM Unit := do
  let el ← reading fun left => m.listGetp list i Ptr.zero left
  if el.rc ≠ .ok then throw .kind
  m.writeStructBodyData seg (first + i * (nd + np)) nd el.out
  upTo np fun k => m.copyChild copy seg (first + i * (nd + np) + nd + k) el.out k

/-- The composite branch of `write_list_to_slot`. -/
def writeCompositeToSlot (slotSeg slotWord : Nat) (list : Ptr) : CopyM Unit := do
  let (nd, np) ← m.countComposite list
  let content := list.count * (nd + np)
  let (seg, tagWord) ← allocLocal (1 + content)
  store seg tagWord (wpMakeStruct list.count nd np)
  store slotSeg slotWord (wpMakeList ((tagWord : Int) - slotWord - 1) .composite content)
  upTo list.count fun i => m.copyElement copy seg (tagWord + 1) nd np list i

/-- One element of a copied pointer list. -/
def copyPointer (seg start : Nat) (list : Ptr) (i : Nat) : CopyM Unit := do
  let el ← reading fun left => m.listGetp list i Ptr.zero left
  if el.rc ≠ .ok then throw .kind
  orFail .alloc (copy seg (start + i) el.out)

/-- The pointer-list branch of `write_list_to_slot`. -/
def writePointersToSlot (slotSeg slotWord : Nat) (list : Ptr) : CopyM Unit := do
  let (seg, start) ← placePointers slotSeg slotWord list.count
  store slotSeg slotWord (wpMakeList ((start : Int) - slotWord - 1) .ptr list.count)
  upTo list.count fun i => m.copyPointer copy seg start list i

end

/-- The packed branch of `write_list_to_slot`: the body is copied byte by
byte. -/
def writePackedToSlot (m : Message) (slotSeg slotWord : Nat) (list : Ptr) : CopyM Unit := do
  let nbytes := (list.count * list.esize.bits + 7) / 8
  if Builder.wordsFor nbytes ≠ 0 then
    let (seg, start) ← allocLocal (Builder.wordsFor nbytes)
    m.copyBody seg start nbytes list
    store slotSeg slotWord (wpMakeList ((start : Int) - slotWord - 1) list.esize list.count)
  else store slotSeg slotWord (wpMakeList 0 list.esize list.count)

/-- `write_list_to_slot` -/
def writeListToSlot (m : Message) (copy : Nat → Nat → Ptr → CopyM Unit) (slotSeg slotWord : Nat)
    (list : Ptr) : CopyM Unit :=
  match list.esize with
  | .composite => m.writeCompositeToSlot copy slotSeg slotWord list
  | .ptr => m.writePointersToSlot copy slotSeg slotWord list
  | _ => m.writePackedToSlot slotSeg slotWord list

/-- `capnp_copy_ptr_to_word` -/
def copyPtrToWord (m : Message) : (room : Nat) → (slotSeg slotWord : Nat) → (src : Ptr) → CopyM Unit
  | 0, _, _, _ => throw .depth
  | room + 1, slotSeg, slotWord, src =>
      match src.kind with
      | .null => store slotSeg slotWord 0
      | .cap => throw .kind
      | .list => m.writeListToSlot (m.copyPtrToWord room) slotSeg slotWord src
      | .struct => m.writeStructToSlot (m.copyPtrToWord room) slotSeg slotWord src

/-- Levels of nesting a copy may use: `depth` runs from 0 to 64. -/
def copyRoom : Nat := 65

/-- The builder `capnp_canonicalize` fills, and how the copy into it ended. -/
def canonicalBuilder (m : Message) (root : Resolved) : Status × Builder :=
  let start : Builder := { Builder.init with forceSingle := true }
  match Builder.allocLocal 1 start with
  | .error _ b => (.alloc, b)
  | .ok (seg, word) b =>
      match m.copyPtrToWord copyRoom seg word root.out ⟨b, root.left⟩ with
      | .error _ st => (.alloc, st.b)
      | .ok _ st => (.ok, st.b)

/-- `capnp_canonicalize` -/
def canonicalize (m : Message) : Except Status (List UInt8) :=
  let m := { m with depthLimit := defaultDepthLimit }
  let root := m.root Ptr.zero defaultTraversalWords
  if root.rc ≠ .ok then .error .kind
  else
    match m.canonicalBuilder root with
    | (.ok, b) => .ok (Builder.segBytes (b.seg 0))
    | (rc, _) => .error rc

/-- `capnp_canonicalize_framed` -/
def canonicalizeFramed (m : Message) : Except Status (List UInt8) :=
  match m.canonicalize with
  | .error rc => .error rc
  | .ok raw => .ok (Builder.le32 0 ++ Builder.le32 (raw.length / 8) ++ raw)

end Message

namespace Builder

/-- `capnp_builder_copy_ptr`, with the source message's budget. -/
def copyPtr (slot : BPtr) (m : Message) (src : Ptr) (left : Nat) : BuildM Nat := fun b =>
  match m.copyPtrToWord Message.copyRoom slot.seg slot.word src ⟨b, left⟩ with
  | .error rc st => .error rc st.b
  | .ok _ st => .ok st.left st.b

end Builder

end CapnpJanet
