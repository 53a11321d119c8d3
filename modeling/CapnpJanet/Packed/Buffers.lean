import CapnpJanet.Logic.Checked
import CapnpJanet.Packed.Core

/-!
# The buffers of the packing loops

`capnp_pack` and `capnp_unpack` once more, with the buffers they fill and the
positions they count.  Every access is checked: one outside of its buffer is
undefined in C, and stops the model with `fault`.  Sizes are of type `size_t`, so
that sums and products of sizes can wrap; a position is never past the end of its
buffer, so counting it up cannot.

A block of memory has at most `PTRDIFF_MAX` bytes: `malloc` and `realloc` refuse
to hand out more, and otherwise succeed.
-/

namespace CapnpJanet.Packed

open Checked

/-- How a loop over buffers stops. -/
inductive Stop
  /-- `CAPNP_ERR_ARG` -/
  | arg
  /-- `CAPNP_ERR_ALLOC` -/
  | alloc
  /-- `CAPNP_ERR_PACKED` -/
  | packed
  /-- An access outside of a buffer. -/
  | fault
deriving DecidableEq, Repr

/-- Reduction to `size_t`. -/
def size (n : Nat) : Nat := n % 2 ^ 64

/-- `PTRDIFF_MAX` -/
def maxBlock : Nat := 2 ^ 63 - 1

/-! ## Memory -/

/-- A block of memory.  A byte that was never written is `none`. -/
structure Buffer where
  cap : Nat
  data : Nat → Option UInt8

namespace Buffer

/-- `malloc` -/
def malloc (n : Nat) : Except Stop Buffer :=
  if n ≤ maxBlock then .ok ⟨n, fun _ => none⟩ else .error .alloc

/-- `realloc`.  A request for no bytes is served like any other. -/
def realloc (buf : Buffer) (n : Nat) : Except Stop Buffer :=
  if n ≤ maxBlock then .ok ⟨n, fun i => if i < min buf.cap n then buf.data i else none⟩
  else .error .alloc

/-- Store bytes from a position on, one by one or by `memcpy`. -/
def write (buf : Buffer) (pos : Nat) (bytes : List UInt8) : Except Stop Buffer :=
  if pos + bytes.length ≤ buf.cap then
    .ok { buf with
      data := fun i => if pos ≤ i ∧ i < pos + bytes.length then bytes[i - pos]? else buf.data i }
  else .error .fault

/-- `memset(buf + pos, 0, n)` -/
def clear (buf : Buffer) (pos n : Nat) : Except Stop Buffer :=
  if pos + n ≤ buf.cap then
    .ok { buf with data := fun i => if pos ≤ i ∧ i < pos + n then some 0 else buf.data i }
  else .error .fault

/-- `realloc` to `ncap` bytes, with a code for its failure, and
`memset(nb + cap, 0, ncap - cap)` -/
def grow (buf : Buffer) (ncap : Nat) (code : Stop) : Except Stop Buffer :=
  match buf.realloc ncap with
  | .error _ => .error code
  | .ok nb => nb.clear buf.cap (size (ncap + (2 ^ 64 - buf.cap)))

end Buffer

/-- What has been put out: the buffer, and how far it is filled. -/
structure Output where
  buf : Buffer
  opos : Nat

/-- `buf[opos++] = byte`, and `memcpy(buf + opos, bytes, n)` with `opos += n`. -/
def Output.push (o : Output) (bytes : List UInt8) : Except Stop Output := do
  let buf ← o.buf.write o.opos bytes
  return ⟨buf, o.opos + bytes.length⟩

/-- `in[i]` -/
def byteAt (input : List UInt8) (i : Nat) : Except Stop UInt8 :=
  match input[i]? with
  | some byte => .ok byte
  | none => .error .fault

/-- `n` bytes of the input from `i` on. -/
def bytesAt (input : List UInt8) (i n : Nat) : Except Stop (List UInt8) :=
  if i + n ≤ input.length then .ok ((input.drop i).take n) else .error .fault

/-! ## Packing -/

/-- `while (w + run < nwords && run < 255 && test(in + (w + run) * 8)) run++;` -/
def countRun (input : List UInt8) (test : List UInt8 → Bool) :
    (limit w : Nat) → Except Stop Nat
  | 0, _ => .ok 0
  | limit + 1, w =>
      if w < input.length / 8 then do
        let word ← bytesAt input (w * 8) 8
        if test word then
          let run ← countRun input test limit (w + 1)
          return run + 1
        else return 0
      else .ok 0

/-- Put out the bytes of a word that its tag has bits for. -/
def pushTagged (tag : UInt8) (word : List UInt8) : List Nat → Output → Except Stop Output
  | [], o => .ok o
  | k :: ks, o =>
      if tagBit tag k then do
        let o ← o.push [word.getD k 0]
        pushTagged tag word ks o
      else pushTagged tag word ks o

/-- The state of the loop of `capnp_pack`: the output, and the words taken. -/
structure PackState where
  out : Output
  w : Nat

/-- `if (opos + 10 + 8 * 255 > cap)` with the `realloc` that follows. -/
def packReserve (o : Output) : Except Stop Output :=
  if size (o.opos + 10 + 8 * 255) > o.buf.cap then do
    let buf ← o.buf.realloc (size (o.buf.cap * 2 + 8 * 256))
    return { o with buf := buf }
  else .ok o

/-- One round of the loop of `capnp_pack`. -/
def packRound (input : List UInt8) (st : PackState) : Except Stop PackState := do
  let o ← packReserve st.out
  let word ← bytesAt input (st.w * 8) 8
  let tag := wordTag word
  let o ← o.push [tag]
  let o ← pushTagged tag word (List.range 8) o
  let w := st.w + 1
  if tag = 0 then
    let run ← countRun input wordAllZero 255 w
    let o ← o.push [UInt8.ofNat run]
    return ⟨o, w + run⟩
  else if word.countP (fun byte => byte != 0) = 8 then
    let run ← countRun input wordFewerThanTwoZeros 255 w
    let o ← o.push [UInt8.ofNat run]
    if run ≠ 0 then
      let words ← bytesAt input (w * 8) (run * 8)
      let o ← o.push words
      return ⟨o, w + run⟩
    else return ⟨o, w⟩
  else return ⟨o, w⟩

/-- `capnp_pack`: the buffer and the length of the output. -/
def packBuffered (input : List UInt8) : Except Stop Output := do
  if input.length % 8 ≠ 0 then throw .arg
  let nwords := input.length / 8
  let buf ← Buffer.malloc (if nwords ≠ 0 then size (nwords * 10) else 1)
  let st ← rounds (fun st => decide (st.w < nwords)) (packRound input) nwords ⟨⟨buf, 0⟩, 0⟩
  return st.out

/-! ## Unpacking -/

/-- Fill the eight bytes of a word at `opos`: a byte of the input for each bit of
the tag, and zeros.  Returns the buffer and the position in the input. -/
def fillWord (input : List UInt8) (tag : UInt8) (opos : Nat) :
    List Nat → Buffer → (ipos : Nat) → Except Stop (Buffer × Nat)
  | [], buf, ipos => .ok (buf, ipos)
  | k :: ks, buf, ipos =>
      if tagBit tag k then
        if ipos ≥ input.length then .error .packed
        else do
          let byte ← byteAt input ipos
          let buf ← buf.write (opos + k) [byte]
          fillWord input tag opos ks buf (ipos + 1)
      else do
        let buf ← buf.write (opos + k) [0]
        fillWord input tag opos ks buf ipos

/-- The state of the loop of `capnp_unpack`: the output, and the bytes taken. -/
structure UnpackState where
  out : Output
  ipos : Nat

/-- `if (opos + 8 + 255 * 8 > cap)` with the growth that follows. -/
def unpackReserve (o : Output) : Except Stop Output :=
  if size (o.opos + 8 + 255 * 8) > o.buf.cap then do
    let buf ← o.buf.grow (size (o.buf.cap * 2 + 8 * 256)) .alloc
    return { o with buf := buf }
  else .ok o

/-- `if (opos + cnt * 8 > cap)` with the growth that follows. -/
def runReserve (o : Output) (cnt : Nat) : Except Stop Output :=
  if size (o.opos + cnt * 8) > o.buf.cap then do
    let buf ← o.buf.grow (size (o.opos + cnt * 8 + 64)) .packed
    return { o with buf := buf }
  else .ok o

/-- The part of a round after the word: the run behind a tag with no bit, or with
all of them. -/
def unpackRun (input : List UInt8) (tag : UInt8) (st : UnpackState) : Except Stop UnpackState :=
  if tag = 0 then
    if st.ipos ≥ input.length then .error .packed
    else do
      let cnt ← byteAt input st.ipos
      let o ← runReserve st.out cnt.toNat
      let buf ← o.buf.clear o.opos (cnt.toNat * 8)
      return ⟨⟨buf, o.opos + cnt.toNat * 8⟩, st.ipos + 1⟩
  else if tag = 0xff then
    if st.ipos ≥ input.length then .error .packed
    else do
      let cnt ← byteAt input st.ipos
      let ipos := st.ipos + 1
      if size (ipos + cnt.toNat * 8) > input.length then throw .packed
      let o ← runReserve st.out cnt.toNat
      if cnt ≠ 0 then
        let words ← bytesAt input ipos (cnt.toNat * 8)
        let o ← o.push words
        return ⟨o, ipos + cnt.toNat * 8⟩
      else return ⟨o, ipos⟩
  else .ok st

/-- The part of a round after the capacity check. -/
def unpackWord (input : List UInt8) (st : UnpackState) : Except Stop UnpackState := do
  let tag ← byteAt input st.ipos
  let (buf, ipos) ← fillWord input tag st.out.opos (List.range 8) st.out.buf (st.ipos + 1)
  unpackRun input tag ⟨⟨buf, st.out.opos + 8⟩, ipos⟩

/-- One round of the loop of `capnp_unpack`. -/
def unpackRound (input : List UInt8) (st : UnpackState) : Except Stop UnpackState := do
  let o ← unpackReserve st.out
  unpackWord input { st with out := o }

/-- `capnp_unpack`: the buffer and the length of the output. -/
def unpackBuffered (input : List UInt8) : Except Stop Output := do
  let cap := size (input.length * 4 + 64)
  let cap := if cap < 64 then 64 else cap
  let buf ← Buffer.malloc cap
  let buf ← buf.clear 0 cap
  let st ← rounds (fun st => decide (st.ipos < input.length)) (unpackRound input) input.length
    ⟨⟨buf, 0⟩, 0⟩
  if st.out.opos % 8 ≠ 0 then throw .packed
  return st.out

end CapnpJanet.Packed
