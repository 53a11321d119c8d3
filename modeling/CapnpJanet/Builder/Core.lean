import CapnpJanet.Memory.LittleEndian
import CapnpJanet.Wire.Pointer
import Mathlib.Logic.Function.Basic

/-!
# The arena builder: segments and allocators

The state of `capnp_builder_t` and its allocators, from `capnp_builder.c`.
Operations are state-passing functions in `EStateM`: an operation that fails
returns its code together with the builder as far as it got, as the C function
leaves it.  `malloc`, `calloc` and `realloc` are taken to succeed, so the only
allocation failures are the limits the code checks itself, and the capacity of
the segment array is not modelled.
-/

namespace CapnpJanet

open ByteMemory

/-- `capnp_bseg_t` -/
structure BSeg where
  data : Memory
  words : Nat
  cap : Nat

/-- `capnp_builder_t`: the first `nsegs` entries of `seg` are its segments. -/
structure Builder where
  nsegs : Nat
  seg : Nat → BSeg
  maxSegWords : Nat
  forceSingle : Bool

/-- `capnp_bptr_t` -/
structure BPtr where
  seg : Nat
  word : Nat
deriving DecidableEq, Repr

/-- `CAPNP_BUILDER_DEFAULT_FIRST_WORDS` -/
def builderDefaultFirstWords : Nat := 1024

/-- `CAPNP_BUILDER_MAX_SEGMENT_WORDS` -/
def builderMaxSegmentWords : Nat := 2 ^ 29

/-- Builder operations: a result or an error code, and the builder they leave. -/
abbrev BuildM := EStateM Status Builder

/-- `if (x) return CAPNP_ERR_ALLOC;` -/
def BuildM.orAlloc {α : Type} (x : BuildM α) : BuildM α := fun b =>
  match x b with
  | .ok a b => .ok a b
  | .error _ b => .error .alloc b

/-- A segment without words or capacity. -/
def BSeg.empty : BSeg := ⟨fun _ => 0, 0, 0⟩

namespace Builder

/-- The builder after `memset(b, 0, sizeof(*b))`. -/
def zero : Builder := ⟨0, fun _ => BSeg.empty, 0, false⟩

/-- Replace a segment. -/
def setSeg (b : Builder) (i : Nat) (s : BSeg) : Builder :=
  { b with seg := Function.update b.seg i s }

/-- Change the bytes of a segment. -/
def setData (b : Builder) (i : Nat) (data : Memory) : Builder :=
  b.setSeg i { b.seg i with data := data }

/-- Mark `n` more words of a segment as used. -/
def bump (b : Builder) (i n : Nat) : Builder :=
  b.setSeg i { b.seg i with words := (b.seg i).words + n }

/-- Word `i` of segment `s`. -/
def wordAt (b : Builder) (s i : Nat) : Nat := word (b.seg s).data i

/-- `lim_words` -/
def limWords (b : Builder) : Nat :=
  if b.maxSegWords ≠ 0 then b.maxSegWords else builderMaxSegmentWords

/-- `while (ncap < need) ncap *= 2;`, with enough fuel when `ncap` is
positive. -/
def growCap : (fuel ncap need : Nat) → Nat
  | 0, ncap, _ => ncap
  | fuel + 1, ncap, need => if ncap < need then growCap fuel (ncap * 2) need else ncap

/-- The segment after `realloc` to a larger capacity, the new bytes cleared. -/
def regrow (s : BSeg) (ncap : Nat) : BSeg :=
  { s with data := blit ((ncap - s.cap) * 8) s.data (s.cap * 8) (fun _ => 0), cap := ncap }

/-- `seg_ensure` -/
def segEnsure (seg needWords : Nat) : BuildM Unit := fun b =>
  if seg ≥ b.nsegs then .error .segment b
  else if needWords ≤ (b.seg seg).cap then .ok () b
  else if needWords > b.limWords then .error .alloc b
  else
    let ncap := growCap needWords (if (b.seg seg).cap ≠ 0 then (b.seg seg).cap * 2 else 16) needWords
    let ncap := min ncap b.limWords
    if ncap < needWords then .error .alloc b
    else .ok () (b.setSeg seg (regrow (b.seg seg) ncap))

/-- `append_segment` -/
def appendSegment (capWords : Nat) : BuildM Unit := fun b =>
  let capWords := min (max capWords 1) b.limWords
  .ok () { b.setSeg b.nsegs ⟨fun _ => 0, 0, capWords⟩ with nsegs := b.nsegs + 1 }

/-- `alloc_words`: allocate in the last segment, or in a new one. -/
def allocWords (n : Nat) : BuildM (Nat × Nat) := fun b =>
  let last := b.nsegs - 1
  let words := (b.seg last).words
  if b.nsegs = 0 then .error .arg b
  else if n > b.limWords then .error .alloc b
  else if words + n ≤ (b.seg last).cap ∧ words + n ≤ b.limWords then
    .ok (last, words) (b.bump last n)
  else if b.forceSingle then
    match segEnsure last (words + n) b with
    | .error _ b => .error .alloc b
    | .ok _ b => .ok (last, (b.seg last).words) (b.bump last n)
  else
    let ncap := max (if (b.seg last).cap ≠ 0 then (b.seg last).cap * 2 else 16) n
    let ncap := min ncap b.limWords
    if ncap < n then .error .alloc b
    else
      match appendSegment ncap b with
      | .error _ b => .error .alloc b
      | .ok _ b => .ok (b.nsegs - 1, 0) (b.bump (b.nsegs - 1) n)

/-- `alloc_in`: allocate at the end of a given segment. -/
def allocIn (seg n : Nat) : BuildM Nat := fun b =>
  if seg ≥ b.nsegs then .error .arg b
  else if (b.seg seg).words + n > b.limWords then .error .alloc b
  else
    match segEnsure seg ((b.seg seg).words + n) b with
    | .error _ b => .error .alloc b
    | .ok _ b => .ok (b.seg seg).words (b.bump seg n)

/-- `alloc_pad_segment`: a fresh segment for a landing pad.  The segment limit
is raised for the call when it is below the need, and restored. -/
def allocPadSegment (n : Nat) : BuildM (Nat × Nat) := fun b =>
  let saved := b.maxSegWords
  let need := max n 1
  let b := if saved ≠ 0 ∧ saved < need then { b with maxSegWords := need } else b
  match appendSegment need b with
  | .error _ b => .error .alloc { b with maxSegWords := saved }
  | .ok _ b =>
      .ok (b.nsegs - 1, 0) ({ b with maxSegWords := saved }.bump (b.nsegs - 1) need)

/-- `store_w` -/
def storeW (b : Builder) (seg word w : Nat) : Builder :=
  b.setData seg (storeWord (b.seg seg).data word w)

/-- `write_struct_ptr` and `write_list_ptr`: write the pointer word that
`make` builds for an offset into a slot.  It is near within a segment, single
far through a pad at the end of the content segment when that has room, and
double far otherwise. -/
def writePtr (make : Int → Nat) (slotSeg slotWord bodySeg bodyWord : Nat) : BuildM Unit := fun b =>
  if slotSeg = bodySeg then
    .ok () (b.storeW slotSeg slotWord (make ((bodyWord : Int) - slotWord - 1)))
  else
    match allocIn bodySeg 1 b with
    | .ok pad b =>
        .ok () ((b.storeW bodySeg pad (make ((bodyWord : Int) - pad - 1))).storeW
          slotSeg slotWord (wpMakeFar false pad bodySeg))
    | .error _ b =>
        match allocPadSegment 2 b with
        | .error _ b => .error .alloc b
        | .ok (padSeg, padWord) b =>
            .ok () (((b.storeW padSeg padWord (wpMakeFar false bodyWord bodySeg)).storeW
              padSeg (padWord + 1) (make 0)).storeW slotSeg slotWord
                (wpMakeFar true padWord padSeg))

/-- `write_struct_ptr` -/
def writeStructPtr (slotSeg slotWord bodySeg bodyWord dwords pwords : Nat) : BuildM Unit :=
  writePtr (fun off => wpMakeStruct off dwords pwords) slotSeg slotWord bodySeg bodyWord

/-- `write_list_ptr` -/
def writeListPtr (slotSeg slotWord contentSeg contentWord : Nat) (esize : ElemSize) (count : Nat) :
    BuildM Unit :=
  writePtr (fun off => wpMakeList off esize count) slotSeg slotWord contentSeg contentWord

/-- `capnp_builder_init_sized` -/
def initSized (firstWords : Nat) : Builder :=
  match appendSegment (min (max firstWords 1) builderMaxSegmentWords) zero with
  | .ok _ b => b
  | .error _ _ => zero

/-- `capnp_builder_init` -/
def init : Builder := initSized builderDefaultFirstWords

/-- `capnp_builder_set_max_seg_words` -/
def setMaxSegWords (b : Builder) (maxWords : Nat) : Builder := { b with maxSegWords := maxWords }

end Builder

end CapnpJanet
