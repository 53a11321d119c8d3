import CapnpJanet.Memory.LittleEndian
import CapnpJanet.Wire.Pointer

/-!
# Messages, segments and stream framing

The data model of `capnp_message.h`.  A segment is a byte memory with a length
in words; the memory is total, so a read outside the length has some value and
the bounds theorems are about which words a reader may touch.  `size_t` values
are natural numbers below `2 ^ 64`, reduced where the C expression can wrap.

A handle does not carry its message: every function takes the message as an
argument instead of following `msg`.  The traversal budget `traversal_left` is
threaded through the readers as a number.  `malloc` is taken to succeed.
-/

namespace CapnpJanet

open ByteMemory

/-- `capnp_segment_t`.  A segment is an object in memory, so its byte length is
a `size_t`. -/
structure Segment where
  data : Memory
  words : Nat
  fits : 8 * words < 2 ^ 64

/-- A segment without words. -/
def Segment.empty : Segment := ⟨fun _ => 0, 0, by decide⟩

instance : Inhabited Segment := ⟨Segment.empty⟩

/-- `capnp_message_t`: the first `nsegs` entries of `seg` are the segment table.
A depth limit of zero stands for every limit that is not positive. -/
structure Message where
  nsegs : Nat
  seg : Nat → Segment
  depthLimit : Nat

/-- `capnp_ptr_t`, a resolved object handle. -/
structure Ptr where
  seg : Nat
  word : Nat
  kind : PtrKind
  dwords : Nat
  pwords : Nat
  esize : ElemSize
  count : Nat
  stepWords : Nat
  bodyByte : Nat
  dataBits : Nat
deriving DecidableEq, Repr

/-- The handle after `memset(&p, 0, sizeof p)`. -/
def Ptr.zero : Ptr := ⟨0, 0, .null, 0, 0, .void, 0, 0, 0, 0⟩

/-- What a resolving call leaves behind: its return code, the handle as far as
it was filled, and the remaining traversal budget. -/
structure Resolved where
  rc : Status
  out : Ptr
  left : Nat
deriving DecidableEq, Repr

/-- Reduction to `size_t`. -/
def sizeT (n : Int) : Nat := (n % 2 ^ 64).toNat

theorem sizeT_of_lt {n : Nat} (h : n < 2 ^ 64) : sizeT n = n := by
  unfold sizeT
  omega

/-- Reducing in between makes no difference. -/
theorem sizeT_add (a b : Int) : sizeT ((sizeT a : Int) + b) = sizeT (a + b) := by
  unfold sizeT
  omega

namespace Message

/-- `bounds_word` -/
def boundsWord (m : Message) (seg word : Nat) : Status :=
  if seg ≥ m.nsegs then .segment
  else if word ≥ (m.seg seg).words then .bounds
  else .ok

/-- `read_word` -/
def readWord (m : Message) (seg i : Nat) : Nat := word (m.seg seg).data i

/-- Word `i` of segment `seg` exists. -/
def InSegment (m : Message) (seg i : Nat) : Prop := seg < m.nsegs ∧ i < (m.seg seg).words

instance (m : Message) (seg i : Nat) : Decidable (m.InSegment seg i) :=
  inferInstanceAs (Decidable (_ ∧ _))

theorem boundsWord_eq_ok_iff (m : Message) (seg i : Nat) :
    m.boundsWord seg i = .ok ↔ m.InSegment seg i := by
  unfold boundsWord InSegment
  split
  · simp
    omega
  · split <;> simp <;> omega

end Message

/-! ## Stream framing -/

namespace Frame

/-- Bytes of the segment table for `nsegs` segments, padding included. -/
def tableBytes (nsegs : Nat) : Nat :=
  if (4 + 4 * nsegs) % 8 ≠ 0 then 4 + 4 * nsegs + 4 else 4 + 4 * nsegs

/-- Words of the first `n` segments together. -/
def wordsBefore (size : Nat → Nat) : Nat → Nat
  | 0 => 0
  | n + 1 => wordsBefore size n + size n

/-- The segment count a frame announces, before the limit is applied. -/
def nsegs (data : Memory) : Nat := (loadLe 4 data 0 + 1) % 2 ^ 32

/-- The announced size of segment `i`, in words. -/
def size (data : Memory) (i : Nat) : Nat := loadLe 4 data (4 + 4 * i)

theorem size_lt (data : Memory) (i : Nat) : size data i < 2 ^ 32 := by
  have := loadLe_lt 4 data (4 + 4 * i)
  norm_num at this
  exact this

/-- Segment `i` of a frame whose segments start after a table for `n`
segments. -/
def segment (data : Memory) (n i : Nat) : Segment where
  data := fun k => data (tableBytes n + 8 * wordsBefore (size data) i + k)
  words := size data i
  fits := by
    have := size_lt data i
    omega

/-- The message a frame describes, however many segments it has and whether or
not the bytes are all there. -/
def message (data : Memory) : Message where
  nsegs := nsegs data
  seg := fun i => if i < nsegs data then segment data (nsegs data) i else Segment.empty
  depthLimit := defaultDepthLimit

end Frame

/-- `parse_flat`.  Copying and viewing give the same segments, so the flag
`copy` is not modelled; a fresh message starts with the default budget
`defaultTraversalWords`. -/
def parseFlat (bytes : List UInt8) : Except Status Message :=
  let data := ofList bytes
  if bytes.length < 8 then .error .framing
  else if Frame.nsegs data = 0 ∨ Frame.nsegs data > maxSegments then .error .framing
  else if bytes.length < Frame.tableBytes (Frame.nsegs data) then .error .framing
  else if Frame.tableBytes (Frame.nsegs data) +
      Frame.wordsBefore (Frame.size data) (Frame.nsegs data) * 8 > bytes.length then
    .error .framing
  else .ok (Frame.message data)

/-- The byte strings the parser accepts: a table for 1 to 16 segments, and at
least as many bytes as it announces. -/
def Frame.Accepted (bytes : List UInt8) : Prop :=
  8 ≤ bytes.length ∧ Frame.nsegs (ofList bytes) ≠ 0 ∧ Frame.nsegs (ofList bytes) ≤ maxSegments ∧
    Frame.tableBytes (Frame.nsegs (ofList bytes)) +
      Frame.wordsBefore (Frame.size (ofList bytes)) (Frame.nsegs (ofList bytes)) * 8 ≤ bytes.length

instance (bytes : List UInt8) : Decidable (Frame.Accepted bytes) :=
  inferInstanceAs (Decidable (_ ∧ _ ∧ _ ∧ _))

theorem parseFlat_of_accepted {bytes : List UInt8} (accepted : Frame.Accepted bytes) :
    parseFlat bytes = .ok (Frame.message (ofList bytes)) := by
  obtain ⟨long, some, few, whole⟩ := accepted
  unfold parseFlat
  rw [if_neg (by omega), if_neg (by omega), if_neg (by omega), if_neg (by omega)]

/-- `capnp_message_from_flat` -/
def messageFromFlat (bytes : List UInt8) : Except Status Message := parseFlat bytes

/-- `capnp_message_view_flat` -/
def messageViewFlat (bytes : List UInt8) : Except Status Message := parseFlat bytes

end CapnpJanet
