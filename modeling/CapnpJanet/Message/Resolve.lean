import CapnpJanet.Message.Core

/-!
# Pointer resolution

`resolve_word` and its callers, from `capnp_message.c`.  The C function is one
body; here each of its branches is a definition, and `resolveWord` chooses
between them.  As in the source the handle is filled in stages, so a failing
call returns the handle as far as it got.
-/

namespace CapnpJanet

open ByteMemory

/-- `charge` -/
def charge (words left : Nat) : Option Nat :=
  if words > left then none else some (left - words)

/-- `return charge(m, words)` after the handle has been filled. -/
def chargeFor (out : Ptr) (words left : Nat) : Resolved :=
  match charge words left with
  | none => ⟨.traversal, out, left⟩
  | some left => ⟨.ok, out, left⟩

/-- Words of the body of a list that is not composite. -/
def listBodyWords (esize : ElemSize) (count : Nat) : Nat := (count * esize.bits + 63) / 64

/-- The handle of a null pointer read at a position. -/
def nullPtr (seg word : Nat) : Ptr := { Ptr.zero with seg := seg, word := word }

/-- The handle a struct pointer word describes, with its content at `body`. -/
def structPtr (seg body w : Nat) : Ptr :=
  { Ptr.zero with
    seg := seg
    word := body
    kind := .struct
    dwords := wpStructDwords w
    pwords := wpStructPwords w }

/-- The handle a list pointer word describes, with its content at `start`. -/
def listPtr (seg start w : Nat) : Ptr :=
  { Ptr.zero with
    seg := seg
    word := start
    kind := .list
    esize := wpListEsize w
    count := wpListCount w }

/-- The element count a composite tag carries: the signed offset field of the
tag, converted to `uint32_t`. -/
def tagCount (tag : Nat) : Nat := (wpOffset tag % 2 ^ 32).toNat

/-- The list handle after its composite tag at `start` has been read. -/
def compositePtr (seg start tag : Nat) : Ptr :=
  { Ptr.zero with
    seg := seg
    word := start + 1
    kind := .list
    esize := .composite
    count := tagCount tag
    dwords := wpStructDwords tag
    pwords := wpStructPwords tag
    stepWords := wpStructDwords tag + wpStructPwords tag }

/-- The handle of a capability pointer. -/
def capPtr (seg word w : Nat) : Ptr :=
  { Ptr.zero with seg := seg, word := word, kind := .cap, count := w / 2 ^ 32 % 2 ^ 32 }

namespace Message

/-- The struct branch of `resolve_word`: content starts at `word + 1 + off`. -/
def resolveStruct (m : Message) (seg word w left : Nat) : Resolved :=
  let body := sizeT (word + 1 + wpOffset w)
  let out := structPtr seg body w
  let stop := sizeT (body + out.dwords + out.pwords)
  if (out.dwords ≠ 0 ∨ out.pwords ≠ 0) ∧
      (m.boundsWord seg body ≠ .ok ∨ (stop > 0 ∧ m.boundsWord seg (stop - 1) ≠ .ok)) then
    ⟨.bounds, out, left⟩
  else chargeFor out (out.dwords + out.pwords) left

/-- The composite part of the list branch: the tag word at `start` carries the
element count and sizes. -/
def resolveComposite (m : Message) (seg start w left : Nat) : Resolved :=
  if m.boundsWord seg start ≠ .ok then ⟨.bounds, listPtr seg start w, left⟩
  else
    match charge 1 left with
    | none => ⟨.traversal, listPtr seg start w, left⟩
    | some left =>
        let tag := m.readWord seg start
        let out := { compositePtr seg start tag with word := sizeT (start + 1) }
        let need : Nat := out.count * out.stepWords
        if need ≠ 0 ∧ m.boundsWord seg (sizeT (out.word + need - 1)) ≠ .ok then
          ⟨.bounds, out, left⟩
        else chargeFor out need left

/-- The primitive and pointer-list part of the list branch. -/
def resolvePrimitive (m : Message) (seg start w left : Nat) : Resolved :=
  let out := listPtr seg start w
  let words := listBodyWords out.esize out.count
  if words ≠ 0 ∧ m.boundsWord seg (sizeT (start + words - 1)) ≠ .ok then ⟨.bounds, out, left⟩
  else chargeFor out words left

/-- The list branch of `resolve_word`. -/
def resolveList (m : Message) (seg word w left : Nat) : Resolved :=
  let start := sizeT (word + 1 + wpOffset w)
  if wpListEsize w = .composite then m.resolveComposite seg start w left
  else m.resolvePrimitive seg start w left

/-- The two-word landing pad of a double-far pointer, once its words have been
read: `pad` names the content, `tag` describes it. -/
def resolvePad (m : Message) (pad tag : Nat) (out : Ptr) (left : Nat) : Resolved :=
  if wpKind pad ≠ .far ∨ wpFarTwo pad then ⟨.kind, out, left⟩
  else
    let cseg := wpFarSeg pad
    let coff := wpFarOff pad
    match wpKind tag with
    | .struct =>
        let out := structPtr cseg coff tag
        chargeFor out (out.dwords + out.pwords) left
    | .list =>
        if wpListEsize tag = .composite then
          if m.boundsWord cseg coff ≠ .ok then ⟨.bounds, listPtr cseg coff tag, left⟩
          else
            let out := compositePtr cseg coff (m.readWord cseg coff)
            chargeFor out (1 + out.count * out.stepWords) left
        else ⟨.ok, listPtr cseg coff tag, left⟩
    | _ => ⟨.kind, out, left⟩

/-- The double-far branch of `resolve_word`, for the landing pad at `toff` of
segment `tseg`. -/
def resolveDoubleFar (m : Message) (tseg toff : Nat) (out : Ptr) (left : Nat) : Resolved :=
  if m.boundsWord tseg toff ≠ .ok ∨ m.boundsWord tseg (toff + 1) ≠ .ok then ⟨.bounds, out, left⟩
  else
    match charge 2 left with
    | none => ⟨.traversal, out, left⟩
    | some left => m.resolvePad (m.readWord tseg toff) (m.readWord tseg (toff + 1)) out left

/-- `resolve_word`: resolve the pointer word `w` read at `word` of segment
`seg`.  A single far pointer continues at its landing pad with one level less;
every other branch ends here. -/
def resolveWord (m : Message) : (depth : Nat) → (seg word w : Nat) → (out : Ptr) → (left : Nat) →
    Resolved
  | 0, _, _, _, out, left => ⟨.depth, { out with bodyByte := 0, dataBits := 0 }, left⟩
  | depth + 1, seg, word, w, out, left =>
      let out := { out with bodyByte := 0, dataBits := 0 }
      if w = 0 then ⟨.ok, nullPtr seg word, left⟩
      else
        match wpKind w with
        | .far =>
            if wpFarTwo w then m.resolveDoubleFar (wpFarSeg w) (wpFarOff w) out left
            else if m.boundsWord (wpFarSeg w) (wpFarOff w) ≠ .ok then ⟨.bounds, out, left⟩
            else
              match charge 1 left with
              | none => ⟨.traversal, out, left⟩
              | some left =>
                  m.resolveWord depth (wpFarSeg w) (wpFarOff w)
                    (m.readWord (wpFarSeg w) (wpFarOff w)) out left
        | .struct => m.resolveStruct seg word w left
        | .list => m.resolveList seg word w left
        | .cap => ⟨.ok, capPtr seg word w, left⟩

/-- `resolve_ptr` -/
def resolvePtr (m : Message) (seg word depth : Nat) (out : Ptr) (left : Nat) : Resolved :=
  if m.boundsWord seg word ≠ .ok then ⟨.bounds, out, left⟩
  else
    match charge 1 left with
    | none => ⟨.traversal, out, left⟩
    | some left => m.resolveWord depth seg word (m.readWord seg word) out left

/-- `capnp_root` -/
def root (m : Message) (out : Ptr) (left : Nat) : Resolved :=
  if m.nsegs = 0 then ⟨.arg, out, left⟩ else m.resolvePtr 0 0 m.depthLimit out left

/-- `capnp_getp` -/
def getp (m : Message) (s : Ptr) (ptrIndex : Nat) (out : Ptr) (left : Nat) : Resolved :=
  if s.kind ≠ .struct then ⟨.kind, out, left⟩
  else if ptrIndex ≥ s.pwords then ⟨.ok, nullPtr s.seg 0, left⟩
  else m.resolvePtr s.seg (sizeT (s.word + s.dwords + ptrIndex)) m.depthLimit out left

/-- Element `index` of a composite list, as a struct handle. -/
def elemPtr (list : Ptr) (index : Nat) : Ptr :=
  { Ptr.zero with
    seg := list.seg
    word := sizeT (list.word + index * list.stepWords)
    kind := .struct
    dwords := list.dwords
    pwords := list.pwords }

/-- `capnp_list_getp` -/
def listGetp (m : Message) (list : Ptr) (index : Nat) (out : Ptr) (left : Nat) : Resolved :=
  if list.kind ≠ .list then ⟨.kind, out, left⟩
  else if index ≥ list.count then ⟨.bounds, out, left⟩
  else
    match list.esize with
    | .ptr => m.resolvePtr list.seg (sizeT (list.word + index)) m.depthLimit out left
    | .composite => ⟨.ok, elemPtr list index, left⟩
    | _ => ⟨.kind, out, left⟩

end Message

end CapnpJanet
