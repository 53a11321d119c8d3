import CapnpJanet.Logic.Units
import CapnpJanet.Wire.Kinds
import Mathlib.Order.Nat
import Mathlib.Algebra.Group.Nat.Defs

/-!
# Packing

The bytes that `capnp_pack` and `capnp_unpack` from `capnp_packed.c` put out.  Each
is a loop over what is left of its input.  The output buffers that the loops grow, with
their capacities and the requests that may be refused, are left to
`CapnpJanet.Packed.Buffers`; where a buffer is granted, it holds these bytes.
-/

namespace CapnpJanet.Packed

open Units

/-! ## Packing -/

/-- `word_all_zero` -/
def wordAllZero (word : List UInt8) : Bool := word.all fun byte => byte == 0

/-- `word_fewer_than_two_zeros` -/
def wordFewerThanTwoZeros (word : List UInt8) : Bool := word.countP (fun byte => byte == 0) < 2

/-- Whether bit `k` of a tag is set. -/
def tagBit (tag : UInt8) (k : Nat) : Bool := tag.toNat.testBit k

/-- The tag of a word after its first `n` bytes: a bit for each byte that is not
zero. -/
def tagBits (word : List UInt8) : (n : Nat) → Nat
  | 0 => 0
  | n + 1 => if word.getD n 0 ≠ 0 then tagBits word n ||| 2 ^ n else tagBits word n

/-- The tag of a word. -/
def wordTag (word : List UInt8) : UInt8 := UInt8.ofNat (tagBits word 8)

/-- The bytes of a word that its tag has bits for. -/
def tagged (tag : UInt8) (word : List UInt8) : List UInt8 :=
  ((List.range 8).filter (tagBit tag)).map fun k => word.getD k 0

/-- How many of the next words, at most `limit`, satisfy a test before one does
not. -/
def runLength (test : List UInt8 → Bool) : (limit : Nat) → List UInt8 → Nat
  | 0, _ => 0
  | limit + 1, input =>
      if 8 ≤ input.length ∧ test (input.take 8) then runLength test limit (input.drop 8) + 1 else 0

/-- One round of the loop of `capnp_pack`: what it puts out and what is left. -/
def packStep (input : List UInt8) : List UInt8 × List UInt8 :=
  let word := input.take 8
  let input := input.drop 8
  let tag := wordTag word
  let out := tag :: tagged tag word
  if tag = 0 then
    let run := runLength wordAllZero 255 input
    (out ++ [UInt8.ofNat run], input.drop (run * 8))
  else if word.countP (fun byte => byte != 0) = 8 then
    let run := runLength wordFewerThanTwoZeros 255 input
    (out ++ UInt8.ofNat run :: input.take (run * 8), input.drop (run * 8))
  else (out, input)

theorem packStep_shrinks {input : List UInt8} (some : input ≠ []) :
    (packStep input).2.length < input.length := by
  have left : 0 < input.length := List.length_pos_iff.mpr some
  unfold packStep
  dsimp only
  split
  · simp only [List.length_drop]
    omega
  · split
    · simp only [List.length_drop]
      omega
    · simp only [List.length_drop]
      omega

/-- The loop of `capnp_pack`. -/
def packFrom : List UInt8 → List UInt8
  | [] => []
  | byte :: bytes => (packStep (byte :: bytes)).1 ++ packFrom (packStep (byte :: bytes)).2
termination_by input => input.length
decreasing_by exact packStep_shrinks (List.cons_ne_nil byte bytes)

/-- The bytes of `capnp_pack`, in a buffer that has room for them. -/
def pack (input : List UInt8) : Except Status (List UInt8) :=
  if input.length % 8 ≠ 0 then .error .arg else .ok (packFrom input)

/-! ## Unpacking -/

/-- The bytes of a word whose tag has been read, for some of its bits: each set
bit takes a byte of the input. -/
def readTagged (tag : UInt8) : List Nat → List UInt8 → Option (List UInt8 × List UInt8)
  | [], input => some ([], input)
  | k :: ks, input =>
      if tagBit tag k then
        match input with
        | [] => none
        | byte :: input => (readTagged tag ks input).map fun (bytes, rest) => (byte :: bytes, rest)
      else (readTagged tag ks input).map fun (bytes, rest) => (0 :: bytes, rest)

/-- One round of the loop of `capnp_unpack`: what it puts out and what is left;
`none` is `CAPNP_ERR_PACKED`. -/
def unpackStep : List UInt8 → Option (List UInt8 × List UInt8)
  | [] => none
  | tag :: input =>
      match readTagged tag (List.range 8) input with
      | none => none
      | some (word, input) =>
          if tag = 0 then
            match input with
            | [] => none
            | cnt :: input => some (word ++ List.replicate (cnt.toNat * 8) 0, input)
          else if tag = 0xff then
            match input with
            | [] => none
            | cnt :: input =>
                if cnt.toNat * 8 > input.length then none
                else some (word ++ input.take (cnt.toNat * 8), input.drop (cnt.toNat * 8))
          else some (word, input)

theorem readTagged_length {tag : UInt8} {ks : List Nat} {input bytes rest : List UInt8}
    (read : readTagged tag ks input = some (bytes, rest)) :
    bytes.length = ks.length ∧ rest.length ≤ input.length := by
  induction ks generalizing input bytes with
  | nil =>
      cases read
      exact ⟨rfl, le_rfl⟩
  | cons k ks ih =>
      unfold readTagged at read
      split at read
      · cases input with
        | nil => cases read
        | cons byte input =>
            obtain ⟨⟨tail, rest'⟩, others, same⟩ := Option.map_eq_some_iff.mp read
            cases same
            obtain ⟨size, left⟩ := ih others
            exact ⟨congrArg Nat.succ size, left.trans (Nat.le_succ _)⟩
      · obtain ⟨⟨tail, rest'⟩, others, same⟩ := Option.map_eq_some_iff.mp read
        cases same
        obtain ⟨size, left⟩ := ih others
        exact ⟨congrArg Nat.succ size, left⟩

theorem unpackStep_shrinks {input out rest : List UInt8} (step : unpackStep input = some (out, rest)) :
    rest.length < input.length := by
  cases input with
  | nil => cases step
  | cons tag input =>
      unfold unpackStep at step
      dsimp only at step
      split at step
      · cases step
      · next word left read =>
        obtain ⟨-, shorter⟩ := readTagged_length read
        rw [List.length_cons]
        split at step
        · cases left with
          | nil => cases step
          | cons cnt left =>
              cases step
              rw [List.length_cons] at shorter
              omega
        · split at step
          · cases left with
            | nil => cases step
            | cons cnt left =>
                rw [List.length_cons] at shorter
                dsimp only at step
                split at step
                · cases step
                · cases step
                  rw [List.length_drop]
                  omega
          · cases step
            omega

/-- The loop of `capnp_unpack`. -/
def unpacker : Reader UInt8 (List UInt8) := ⟨unpackStep, unpackStep_shrinks⟩

/-- The bytes of `capnp_unpack`, in a buffer that has room for them. -/
def unpack (input : List UInt8) : Except Status (List UInt8) :=
  match unpacker.run input with
  | none => .error .packed
  | some chunks => .ok chunks.flatten

end CapnpJanet.Packed
