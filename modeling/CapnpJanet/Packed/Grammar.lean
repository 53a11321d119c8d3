import CapnpJanet.Packed.Core
import Mathlib.Data.List.GetD

/-!
# The packed grammar

A packed string is a sequence of units.  A unit starts with a tag and one byte
for each bit of the tag; after the tag 0x00 there is a count of zero words, and
after the tag 0xff a count of words that follow as they are.
-/

namespace CapnpJanet.Packed

open Units

/-- How many of the first `n` bits of a tag are set. -/
def bitCount (tag : UInt8) (n : Nat) : Nat := (List.range n).countP (tagBit tag)

/-- A complete unit of a packed string. -/
inductive PackedUnit
  | zeros (count : UInt8)
  | verbatim (payload : List UInt8) (count : UInt8) (words : List UInt8)
      (eight : payload.length = 8) (whole : words.length = count.toNat * 8)
  | tagged (tag : UInt8) (payload : List UInt8) (mixed : tag ≠ 0 ∧ tag ≠ 0xff)
      (each : payload.length = bitCount tag 8)

namespace PackedUnit

/-- The bytes of a unit. -/
def bytes : PackedUnit → List UInt8
  | zeros count => [0, count]
  | verbatim payload count words _ _ => 0xff :: (payload ++ count :: words)
  | tagged tag payload _ _ => tag :: payload

end PackedUnit

/-- Byte `k` of a word with this tag and payload: the next byte of the payload
if the bit of the tag is set. -/
def spreadByte (tag : UInt8) (payload : List UInt8) (k : Nat) : UInt8 :=
  if tagBit tag k then payload.getD (bitCount tag k) 0 else 0

/-- The word with this tag and payload. -/
def spread (tag : UInt8) (payload : List UInt8) : List UInt8 :=
  (List.range 8).map (spreadByte tag payload)

namespace PackedUnit

/-- The words that a unit stands for. -/
def expansion : PackedUnit → List UInt8
  | zeros count => List.replicate 8 0 ++ List.replicate (count.toNat * 8) 0
  | verbatim payload _ words _ _ => payload ++ words
  | tagged tag payload _ _ => spread tag payload

end PackedUnit

/-! ## Reading the tagged bytes -/

theorem bitCount_succ (tag : UInt8) (n : Nat) :
    bitCount tag (n + 1) = bitCount tag n + if tagBit tag n then 1 else 0 := by
  rw [bitCount, List.range_succ, List.countP_append]
  simp [bitCount, List.countP_cons]

theorem readTagged_cons (tag : UInt8) (k : Nat) (ks : List Nat) (input : List UInt8) :
    readTagged tag (k :: ks) input =
      if tagBit tag k then
        match input with
        | [] => none
        | byte :: input => (readTagged tag ks input).map fun (bytes, rest) => (byte :: bytes, rest)
      else (readTagged tag ks input).map fun (bytes, rest) => (0 :: bytes, rest) := rfl

theorem readTagged_append (tag : UInt8) (ks ks' : List Nat) (input : List UInt8) :
    readTagged tag (ks ++ ks') input = (readTagged tag ks input).bind fun (bytes, rest) =>
      (readTagged tag ks' rest).map fun (bytes', rest) => (bytes ++ bytes', rest) := by
  induction ks generalizing input with
  | nil =>
      simp [readTagged]
  | cons k ks ih =>
      rw [List.cons_append, readTagged_cons, readTagged_cons]
      split
      · cases input with
        | nil => rfl
        | cons byte input =>
            dsimp only
            rw [ih]
            cases readTagged tag ks input with
            | none => rfl
            | some read => simp [Option.map_map, Function.comp_def]
      · rw [ih]
        cases readTagged tag ks input with
        | none => rfl
        | some read => simp [Option.map_map, Function.comp_def]

/-- Each set bit takes the next byte. -/
theorem readTagged_range (tag : UInt8) (n : Nat) (input : List UInt8) :
    readTagged tag (List.range n) input =
      if bitCount tag n ≤ input.length then
        some ((List.range n).map (spreadByte tag input), input.drop (bitCount tag n))
      else none := by
  induction n with
  | zero => simp [readTagged, bitCount]
  | succ n ih =>
      rw [List.range_succ, readTagged_append, ih, bitCount_succ]
      by_cases enough : bitCount tag n ≤ input.length
      · rw [if_pos enough, Option.bind_some]
        dsimp only
        rw [readTagged_cons]
        by_cases bit : tagBit tag n
        · rw [if_pos bit, if_pos bit]
          by_cases more : bitCount tag n + 1 ≤ input.length
          · have next : input.drop (bitCount tag n) =
                input.getD (bitCount tag n) 0 :: input.drop (bitCount tag n + 1) := by
              rw [List.drop_eq_getElem_cons (by omega), ← List.getD_eq_getElem input 0]
            rw [if_pos more, next]
            simp [spreadByte, bit, readTagged]
          · rw [if_neg more, List.drop_eq_nil_of_le (by omega)]
            rfl
        · rw [if_neg bit, if_neg bit, Nat.add_zero, if_pos enough]
          simp [spreadByte, bit, readTagged]
      · rw [if_neg enough, if_neg (by omega)]
        rfl

theorem bitCount_mono (tag : UInt8) {k n : Nat} (le : k ≤ n) : bitCount tag k ≤ bitCount tag n := by
  induction n, le using Nat.le_induction with
  | base => exact Nat.le_refl _
  | succ n _ ih =>
      rw [bitCount_succ]
      omega

theorem bitCount_lt (tag : UInt8) {k n : Nat} (lt : k < n) (bit : tagBit tag k) :
    bitCount tag k < bitCount tag n := by
  have next := bitCount_mono tag (Nat.succ_le_of_lt lt)
  rw [Nat.succ_eq_add_one, bitCount_succ, if_pos bit] at next
  omega

/-- Only the payload decides the word. -/
theorem spread_append (tag : UInt8) {payload : List UInt8} (rest : List UInt8)
    (each : bitCount tag 8 ≤ payload.length) : spread tag (payload ++ rest) = spread tag payload := by
  refine List.map_congr_left fun k member => ?_
  unfold spreadByte
  by_cases bit : tagBit tag k
  · have inside := bitCount_lt tag (List.mem_range.mp member) bit
    rw [if_pos bit, if_pos bit, List.getD_append _ _ _ _ (by omega)]
  · rw [if_neg bit, if_neg bit]

theorem spread_zero (payload : List UInt8) : spread 0 payload = List.replicate 8 0 := by
  have clear : ∀ k < 8, tagBit 0 k = false := by decide
  rw [spread, List.eq_replicate_iff]
  refine ⟨by simp, fun byte member => ?_⟩
  obtain ⟨k, small, rfl⟩ := List.mem_map.mp member
  rw [spreadByte, clear k (List.mem_range.mp small)]
  rfl

/-- With all bits set the word is the payload. -/
theorem spread_full {payload : List UInt8} (eight : payload.length = 8) :
    spread 0xff payload = payload := by
  have full : ∀ k < 8, tagBit 0xff k = true ∧ bitCount 0xff k = k := by decide
  refine List.ext_getElem (by simp [spread, eight]) fun k small inside => ?_
  obtain ⟨bit, before⟩ := full k (by omega)
  simp only [spread, List.getElem_map, List.getElem_range, spreadByte]
  rw [if_pos bit, before, List.getD_eq_getElem]

/-- What is read after a tag, when its bytes are there. -/
theorem readTagged_payload (tag : UInt8) {payload : List UInt8} (rest : List UInt8)
    (each : payload.length = bitCount tag 8) :
    readTagged tag (List.range 8) (payload ++ rest) = some (spread tag payload, rest) := by
  rw [readTagged_range, if_pos (by rw [List.length_append]; omega), ← each, List.drop_left]
  exact congrArg (fun word => some (word, rest)) (spread_append tag rest each.ge)

theorem payload_of_readTagged {tag : UInt8} {input word rest : List UInt8}
    (read : readTagged tag (List.range 8) input = some (word, rest)) :
    ∃ payload, input = payload ++ rest ∧ payload.length = bitCount tag 8 ∧
      word = spread tag payload := by
  rw [readTagged_range] at read
  split at read
  · next enough =>
    cases read
    refine ⟨input.take (bitCount tag 8), (List.take_append_drop _ _).symm,
      List.length_take_of_le enough, ?_⟩
    have same := spread_append tag (input.drop (bitCount tag 8)) (List.length_take_of_le enough).ge
    rwa [List.take_append_drop] at same
  · cases read

/-! ## The units -/

theorem unpackStep_bytes (u : PackedUnit) (rest : List UInt8) :
    unpackStep (u.bytes ++ rest) = some (u.expansion, rest) := by
  cases u with
  | zeros count =>
      change unpackStep (0 :: ([] ++ count :: rest)) = _
      rw [unpackStep, readTagged_payload 0 _ (by decide), spread_zero]
      rfl
  | verbatim payload count words eight whole =>
      have split : (PackedUnit.verbatim payload count words eight whole).bytes ++ rest =
          0xff :: (payload ++ (count :: (words ++ rest))) := by
        simp [PackedUnit.bytes]
      rw [split, unpackStep, readTagged_payload 0xff _ (eight.trans (by decide)), spread_full eight]
      dsimp only
      rw [if_neg (by decide), if_pos rfl, if_neg (by rw [List.length_append]; omega), ← whole,
        List.take_left, List.drop_left]
      rfl
  | tagged tag payload mixed each =>
      change unpackStep (tag :: (payload ++ rest)) = _
      rw [unpackStep, readTagged_payload tag _ each]
      dsimp only
      rw [if_neg mixed.1, if_neg mixed.2]
      rfl

theorem bytes_of_unpackStep {input out rest : List UInt8} (step : unpackStep input = some (out, rest)) :
    ∃ u : PackedUnit, input = u.bytes ++ rest ∧ out = u.expansion := by
  cases input with
  | nil => cases step
  | cons tag input =>
      unfold unpackStep at step
      dsimp only at step
      split at step
      · cases step
      · next word left read =>
        obtain ⟨payload, rfl, each, rfl⟩ := payload_of_readTagged read
        split at step
        · next isZero =>
          subst isZero
          obtain rfl : payload = [] := List.length_eq_zero_iff.mp (each.trans (by decide))
          cases left with
          | nil => cases step
          | cons count left =>
              cases step
              exact ⟨.zeros count, rfl, congrArg (· ++ _) (spread_zero [])⟩
        · next notZero =>
          split at step
          · next isFull =>
            subst isFull
            have eight : payload.length = 8 := each.trans (by decide)
            cases left with
            | nil => cases step
            | cons count left =>
                dsimp only at step
                split at step
                · cases step
                · next inside =>
                  cases step
                  refine ⟨.verbatim payload count (left.take (count.toNat * 8)) eight
                    (List.length_take_of_le (by omega)), ?_, congrArg (· ++ _) (spread_full eight)⟩
                  simp [PackedUnit.bytes]
          · next notFull =>
            cases step
            exact ⟨.tagged tag payload ⟨notZero, notFull⟩ each, rfl, rfl⟩

theorem unpacker_delimits : Delimits unpacker PackedUnit.bytes PackedUnit.expansion :=
  ⟨unpackStep_bytes, bytes_of_unpackStep⟩

/-- The strings that `capnp_unpack` accepts are the sequences of units, and
what it puts out is what the units stand for. -/
theorem unpack_eq_ok_iff {input output : List UInt8} :
    unpack input = .ok output ↔ ∃ us : List PackedUnit,
      input = us.flatMap PackedUnit.bytes ∧ output = us.flatMap PackedUnit.expansion := by
  unfold unpack
  constructor
  · intro accepted
    split at accepted
    · cases accepted
    · next chunks run =>
      cases accepted
      obtain ⟨us, rfl, rfl⟩ := unpacker_delimits.run_eq_some_iff.mp run
      exact ⟨us, rfl, rfl⟩
  · rintro ⟨us, rfl, rfl⟩
    rw [unpacker_delimits.run_eq_some_iff.mpr ⟨us, rfl, rfl⟩]
    rfl

/-- Units followed by something that is no unit are refused. -/
theorem unpack_append_stuck (us : List PackedUnit) {rest : List UInt8} (some : rest ≠ [])
    (stuck : unpackStep rest = none) :
    unpack (us.flatMap PackedUnit.bytes ++ rest) = .error .packed := by
  unfold unpack
  rw [unpacker_delimits.run_append, Reader.run_of_none some stuck, Option.map_none]

/-- A sequence of units that is cut inside its last unit is refused. -/
theorem unpack_cut (us : List PackedUnit) (u : PackedUnit) {n : Nat} (some : 0 < n)
    (cut : n < u.bytes.length) :
    unpack (us.flatMap PackedUnit.bytes ++ u.bytes.take n) = .error .packed := by
  unfold unpack
  rw [unpacker_delimits.run_take us u some cut]

/-- Units stand for whole words. -/
theorem length_expansions_mod (us : List PackedUnit) :
    (us.flatMap PackedUnit.expansion).length % 8 = 0 := by
  induction us with
  | nil => rfl
  | cons u us ih =>
      have whole : u.expansion.length % 8 = 0 := by
        cases u with
        | zeros count =>
            rw [PackedUnit.expansion, List.length_append, List.length_replicate,
              List.length_replicate]
            omega
        | verbatim payload count words eight whole =>
            rw [PackedUnit.expansion, List.length_append, eight, whole]
            omega
        | tagged tag payload mixed each => simp [PackedUnit.expansion, spread]
      rw [List.flatMap_cons, List.length_append]
      omega

end CapnpJanet.Packed
