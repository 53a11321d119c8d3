import CapnpJanet.Builder.ListLengths
import CapnpJanet.Builder.Program
import CapnpJanet.Logic.Forest

/-!
# What a program of builder calls draws

The meaning of the builder API without segments, words and pointers: objects
that hang from slots.  A call hangs a new object into a slot, empties a slot, or
changes the data of an object.  A draft also keeps the slots and rows that the
client's handles stand for.

A call means something if it keeps to the struct that its handle is for: with the
data section and the pointers that the struct has, and with counts that a pointer
word has room for.
-/

namespace CapnpJanet

open ByteMemory

namespace Draft

/-- What a list without pointers is given. -/
inductive Flat
  | scalars (esize : ElemSize) (width n : Nat) (items : Nat → Nat)
  | bits (n : Nat) (items : Nat → Bool)
  | bytes (bytes : List UInt8)

namespace Flat

def esize : Flat → ElemSize
  | scalars esize _ _ _ => esize
  | bits _ _ => .bit
  | bytes _ => .byte

def count : Flat → Nat
  | scalars _ _ n _ => n
  | bits n _ => n
  | .bytes given => given.length

/-- Bytes of the body. -/
def size : Flat → Nat
  | scalars _ width n _ => n * width
  | bits n _ => (n + 7) / 8
  | .bytes given => given.length

end Flat

/-- What an object holds besides its pointers: the data sections of its rows, or
the elements of a list. -/
inductive Content
  | block (shape : Shape) (n nd np : Nat) (row : Nat → Memory)
  | flat (flat : Flat)

/-- Rows and their pointers are the keys of the slots, and capabilities the
leaves. -/
abbrev Drawing := Forest (Nat × Nat) Nat Content

end Draft

/-- The objects, and what the handles of the client stand for: slots, and rows of
objects. -/
structure Draft where
  started : Bool
  drawing : Draft.Drawing
  slots : List (Slot (Nat × Nat))
  bodies : List (Nat × Nat)

namespace Draft

/-- Nothing has been drawn. -/
def blank : Draft := ⟨false, .empty, [], []⟩

/-- A new object hangs from a slot. -/
def hang (d : Draft) (s : Slot (Nat × Nat)) (c : Content) : Draft :=
  { d with drawing := d.drawing.hang s c }

/-- A slot holds no object. -/
def put (d : Draft) (s : Slot (Nat × Nat)) (l : Link Nat) : Draft :=
  { d with drawing := d.drawing.put s l }

/-- The client holds a handle for one more row. -/
def addBody (d : Draft) (row : Nat × Nat) : Draft := { d with bodies := d.bodies ++ [row] }

/-- Texts hang from the pointers of a list, from one of them on. -/
def hangTexts (d : Draft) (list : Nat) : (start : Nat) → List (List UInt8) → Draft
  | _, [] => d
  | start, text :: rest =>
      (d.hang (.field list (start, 0)) (.flat (.bytes (text ++ [0])))).hangTexts list (start + 1) rest

/-- A pointer of a row, if the row has a data section of this length in front of its
pointers. -/
def slotAt (d : Draft) (row : Nat × Nat) (dwords ptrIndex : Nat) : Option (Slot (Nat × Nat)) :=
  match d.drawing.nodes[row.1]? with
  | some (.block _ n nd np _) =>
      if row.2 < n ∧ dwords = nd ∧ ptrIndex < np then some (.field row.1 (row.2, ptrIndex)) else none
  | _ => none

/-- What a call does with a pointer of a row; without the handle there is no call. -/
def onSlot (d : Draft) (body dwords ptrIndex : Nat) (f : Slot (Nat × Nat) → Option Draft) :
    Option Draft :=
  match d.bodies[body]? with
  | none => some d
  | some row => (d.slotAt row dwords ptrIndex).bind f

/-- Bytes of the data section of a row are stored, if it has them. -/
def onData (d : Draft) (body stop : Nat) (store : Memory → Memory) : Option Draft :=
  match d.bodies[body]? with
  | none => some d
  | some (id, i) =>
      match d.drawing.nodes[id]? with
      | some (.block shape n nd np row) =>
          if i < n ∧ stop ≤ nd * 8 then
            some { d with
              drawing := d.drawing.rewrite id
                (.block shape n nd np (Function.update row i (store (row i)))) }
          else none
      | _ => none

/-- The row so many words behind another one of its list. -/
def elementAt (d : Draft) (row : Nat × Nat) (wordDelta : Nat) : Option (Nat × Nat) :=
  match d.drawing.nodes[row.1]? with
  | some (.block _ n nd np _) =>
      if wordDelta % (nd + np) = 0 ∧ row.2 + wordDelta / (nd + np) < n then
        some (row.1, row.2 + wordDelta / (nd + np))
      else none
  | _ => none

/-- What one call draws, if it means something. -/
def call (d : Draft) : BuildOp → Option Draft
  | .root =>
      if d.started then none else some { d with started := true, slots := d.slots ++ [.root] }
  | .struct slot dwords pwords =>
      match d.slots[slot]? with
      | none => some d
      | some s =>
          if dwords < 2 ^ 16 ∧ pwords < 2 ^ 16 then
            some ((d.hang s (.block .struct 1 dwords pwords fun _ _ => 0)).addBody
              (d.drawing.nodes.length, 0))
          else none
  | .slot body dwords ptrIndex =>
      d.onSlot body dwords ptrIndex fun s => some { d with slots := d.slots ++ [s] }
  | .element body wordDelta =>
      match d.bodies[body]? with
      | none => some d
      | some row => (d.elementAt row wordDelta).map d.addBody
  | .setScalar width body byteOffset value =>
      d.onData body (byteOffset + width) fun data => storeLe width data byteOffset value
  | .setBool body bitOffset value =>
      d.onData body (bitOffset / 8 + 1) fun data => blit 1 data (bitOffset / 8) fun _ =>
        Builder.withBit (data (bitOffset / 8)) (bitOffset % 8) value
  | .clearPtr body dwords ptrIndex =>
      d.onSlot body dwords ptrIndex fun s => some (d.put s .null)
  | .setCap body dwords ptrIndex capIndex =>
      d.onSlot body dwords ptrIndex fun s => some (d.put s (.leaf capIndex))
  | .setText body dwords ptrIndex text =>
      d.onSlot body dwords ptrIndex fun s =>
        if text.length + 1 < 2 ^ 29 then some (d.hang s (.flat (.bytes (text ++ [0])))) else none
  | .setData body dwords ptrIndex bytes =>
      d.onSlot body dwords ptrIndex fun s =>
        if bytes.length < 2 ^ 29 then some (d.hang s (.flat (.bytes bytes))) else none
  | .setListPrim body dwords ptrIndex esize nitems elemBytes items =>
      d.onSlot body dwords ptrIndex fun s =>
        if nitems < 2 ^ 29 ∧ esize.bits = 8 * elemBytes ∧ esize ≠ .ptr ∧ esize ≠ .composite then
          some (d.hang s (.flat (.scalars esize elemBytes nitems items)))
        else none
  | .setListBool body dwords ptrIndex nitems items =>
      d.onSlot body dwords ptrIndex fun s =>
        if nitems < 2 ^ 29 then some (d.hang s (.flat (.bits nitems items))) else none
  | .setListText body dwords ptrIndex items =>
      d.onSlot body dwords ptrIndex fun s =>
        if items.length < 2 ^ 29 ∧ ∀ text ∈ items, text.length + 1 < 2 ^ 29 then
          some ((d.hang s (.block .pointers items.length 0 1 fun _ _ => 0)).hangTexts
            d.drawing.nodes.length 0 items)
        else none
  | .setListStruct body dwords ptrIndex nitems elemDwords elemPwords =>
      d.onSlot body dwords ptrIndex fun s =>
        if nitems < 2 ^ 29 ∧ elemDwords < 2 ^ 16 ∧ elemPwords < 2 ^ 16 then
          some ((d.hang s (.block .composite nitems elemDwords elemPwords fun _ _ => 0)).addBody
            (d.drawing.nodes.length, 0))
        else none
  | .copyPtr _ _ _ _ => none

end Draft

end CapnpJanet
