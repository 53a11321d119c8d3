import CapnpJanet.Packed.Grammar

/-!
# Unpacking what was packed

Each round of the packer puts out one complete unit, which stands for the words
that the round has taken.
-/

namespace CapnpJanet.Packed

/-! ## Tags -/

theorem tagBits_lt (word : List UInt8) (n : Nat) : tagBits word n < 2 ^ n := by
  induction n with
  | zero => exact Nat.one_pos
  | succ n ih =>
      have wider : tagBits word n < 2 ^ (n + 1) := ih.trans (Nat.pow_lt_pow_succ (by decide))
      rw [tagBits]
      split
      · exact Nat.or_lt_two_pow wider (Nat.pow_lt_pow_succ (by decide))
      · exact wider

theorem testBit_tagBits (word : List UInt8) {k n : Nat} (lt : k < n) :
    (tagBits word n).testBit k = decide (word.getD k 0 ≠ 0) := by
  induction n with
  | zero => omega
  | succ n ih =>
      rw [tagBits]
      by_cases last : k = n
      · subst last
        have above := Nat.testBit_lt_two_pow (tagBits_lt word k)
        split
        · next set =>
          rw [Nat.testBit_or, Nat.testBit_two_pow_self, Bool.or_true, decide_eq_true set]
        · next clear => rw [above, decide_eq_false clear]
      · have other : (2 ^ n).testBit k = false := Nat.testBit_two_pow_of_ne (Ne.symm last)
        split
        · rw [Nat.testBit_or, other, Bool.or_false, ih (by omega)]
        · exact ih (by omega)

/-- The tag of a word has the bits of the bytes that are not zero. -/
theorem tagBit_wordTag (word : List UInt8) {k : Nat} (lt : k < 8) :
    tagBit (wordTag word) k = decide (word.getD k 0 ≠ 0) := by
  have small : (wordTag word).toNat = tagBits word 8 :=
    UInt8.toNat_ofNat_of_lt' (tagBits_lt word 8)
  rw [tagBit, small, testBit_tagBits word lt]

theorem tagged_length (tag : UInt8) (word : List UInt8) : (tagged tag word).length = bitCount tag 8 := by
  rw [tagged, List.length_map, bitCount, List.countP_eq_length_filter]

/-- The set bits of a tag in order: bit `k` comes after the set bits below it. -/
theorem getElem?_setBits (tag : UInt8) {k n : Nat} (lt : k < n) (bit : tagBit tag k) :
    ((List.range n).filter (tagBit tag))[bitCount tag k]? = some k := by
  induction n with
  | zero => omega
  | succ n ih =>
      have size : ((List.range n).filter (tagBit tag)).length = bitCount tag n :=
        List.countP_eq_length_filter.symm
      rw [List.range_succ, List.filter_append]
      by_cases last : k = n
      · subst last
        rw [← size, List.getElem?_append_right (Nat.le_refl _), Nat.sub_self]
        simp [bit]
      · have before := bitCount_lt tag (show k < n by omega) bit
        rw [List.getElem?_append_left (by omega)]
        exact ih (by omega)

/-- The tagged bytes of a word are spread to the word again. -/
theorem spread_tagged {word : List UInt8} (eight : word.length = 8) :
    spread (wordTag word) (tagged (wordTag word) word) = word := by
  refine List.ext_getElem (by simp [spread, eight]) fun k small inside => ?_
  simp only [spread, List.getElem_map, List.getElem_range, spreadByte]
  have here : word.getD k 0 = word[k] := List.getD_eq_getElem word 0 inside
  by_cases bit : tagBit (wordTag word) k
  · rw [if_pos bit, tagged, List.getD_eq_getElem?_getD, List.getElem?_map,
      getElem?_setBits _ (by omega) bit]
    exact here
  · rw [if_neg bit, ← here]
    rw [tagBit_wordTag word (by omega)] at bit
    simpa using Eq.symm (of_not_not (by simpa using bit))

/-- A word has tag zero if it is zero. -/
theorem eq_zero_of_wordTag {word : List UInt8} (eight : word.length = 8) (zero : wordTag word = 0) :
    word = List.replicate 8 0 := by
  rw [← spread_tagged eight, zero, spread_zero]

/-- A word has all bits in its tag if it has no zero byte. -/
theorem wordTag_eq_full_iff {word : List UInt8} (eight : word.length = 8) :
    wordTag word = 0xff ↔ word.countP (fun byte => byte != 0) = 8 := by
  have bytes : word.countP (fun byte => byte != 0) = 8 ↔ ∀ k < 8, word.getD k 0 ≠ 0 := by
    rw [← eight, List.countP_eq_length]
    constructor
    · intro all k inside
      rw [List.getD_eq_getElem word 0 inside]
      simpa using all _ (List.getElem_mem inside)
    · intro all byte member
      obtain ⟨k, inside, rfl⟩ := List.getElem_of_mem member
      have here := all k inside
      rw [List.getD_eq_getElem word 0 inside] at here
      simpa using here
  rw [bytes]
  constructor
  · intro full k small
    have bit := tagBit_wordTag word small
    rw [full] at bit
    have set : ∀ k < 8, tagBit 0xff k = true := by decide
    rw [set k small] at bit
    exact of_decide_eq_true bit.symm
  · intro all
    apply UInt8.toNat_inj.mp
    apply Nat.eq_of_testBit_eq
    intro k
    by_cases small : k < 8
    · have set : ∀ k < 8, tagBit 0xff k = true := by decide
      exact ((tagBit_wordTag word small).trans (decide_eq_true (all k small))).trans (set k small).symm
    · have beyond (tag : UInt8) : tag.toNat.testBit k = false := by
        refine Nat.testBit_lt_two_pow (tag.toNat_lt.trans_le ?_)
        exact Nat.pow_le_pow_right (by decide) (by omega)
      rw [beyond, beyond]

/-! ## Runs -/

theorem runLength_le (test : List UInt8 → Bool) (limit : Nat) (input : List UInt8) :
    runLength test limit input ≤ limit ∧ runLength test limit input * 8 ≤ input.length := by
  induction limit generalizing input with
  | zero => exact ⟨Nat.le_refl _, Nat.zero_le _⟩
  | succ limit ih =>
      rw [runLength]
      split
      · next more =>
        obtain ⟨few, inside⟩ := ih (input.drop 8)
        rw [List.length_drop] at inside
        omega
      · omega

/-- A run of zero words is zero. -/
theorem take_zeroRun (limit : Nat) (input : List UInt8) :
    input.take (runLength wordAllZero limit input * 8) =
      List.replicate (runLength wordAllZero limit input * 8) 0 := by
  induction limit generalizing input with
  | zero => rfl
  | succ limit ih =>
      rw [runLength]
      split
      · next more =>
        have first : input.take 8 = List.replicate 8 0 := by
          rw [List.eq_replicate_iff]
          refine ⟨List.length_take_of_le more.1, fun byte member => ?_⟩
          have zero := more.2
          unfold wordAllZero at zero
          simpa using List.all_eq_true.mp zero byte member
        rw [Nat.add_mul, Nat.one_mul, Nat.add_comm, List.take_add, ih, first, List.replicate_append_replicate]
      · rfl

/-! ## Packing -/

/-- Each round of the packer puts out a unit for the words it takes. -/
theorem packStep_unit {input : List UInt8} (long : 8 ≤ input.length) :
    ∃ u : PackedUnit, (packStep input).1 = u.bytes ∧ input = u.expansion ++ (packStep input).2 ∧
      (packStep input).2.length % 8 = input.length % 8 := by
  have eight : (input.take 8).length = 8 := List.length_take_of_le long
  have after : (input.drop 8).length = input.length - 8 := List.length_drop
  have whole : input.take 8 ++ input.drop 8 = input := List.take_append_drop 8 input
  unfold packStep
  dsimp only
  generalize input.take 8 = word at eight whole
  generalize input.drop 8 = rest at after whole
  split
  · next zero =>
    obtain ⟨few, inside⟩ := runLength_le wordAllZero 255 rest
    have run := take_zeroRun 255 rest
    generalize runLength wordAllZero 255 rest = n at few inside run
    have count : (UInt8.ofNat n).toNat = n := UInt8.toNat_ofNat_of_lt' (show n < 256 by omega)
    refine ⟨.zeros (UInt8.ofNat n), ?_, ?_, ?_⟩
    · have none : tagged 0 word = [] :=
        List.length_eq_zero_iff.mp ((tagged_length 0 word).trans (by decide))
      rw [zero, none]
      rfl
    · rw [PackedUnit.expansion, count, ← run, ← eq_zero_of_wordTag eight zero, List.append_assoc,
        List.take_append_drop, whole]
    · rw [List.length_drop]
      omega
  · next notZero =>
    split
    · next full =>
      obtain ⟨few, inside⟩ := runLength_le wordFewerThanTwoZeros 255 rest
      generalize runLength wordFewerThanTwoZeros 255 rest = n at few inside
      have count : (UInt8.ofNat n).toNat = n := UInt8.toNat_ofNat_of_lt' (show n < 256 by omega)
      have isFull := (wordTag_eq_full_iff eight).mpr full
      have all : tagged 0xff word = word := by
        have spread' := spread_tagged eight
        rwa [isFull, spread_full ((tagged_length 0xff word).trans (by decide))] at spread'
      refine ⟨.verbatim word (UInt8.ofNat n) (rest.take (n * 8)) eight ?_, ?_, ?_, ?_⟩
      · rw [count]
        exact List.length_take_of_le inside
      · rw [isFull, all]
        rfl
      · rw [PackedUnit.expansion, List.append_assoc, List.take_append_drop, whole]
      · rw [List.length_drop]
        omega
    · next notFull =>
      refine ⟨.tagged (wordTag word) (tagged (wordTag word) word)
        ⟨notZero, fun full => notFull ((wordTag_eq_full_iff eight).mp full)⟩ (tagged_length _ _), rfl,
        ?_, ?_⟩
      · rw [PackedUnit.expansion, spread_tagged eight, whole]
      · dsimp only
        omega

/-- A packed string is a sequence of units for the words of the input. -/
theorem packFrom_units {input : List UInt8} (whole : input.length % 8 = 0) :
    ∃ us : List PackedUnit, packFrom input = us.flatMap PackedUnit.bytes ∧
      input = us.flatMap PackedUnit.expansion := by
  induction input using packFrom.induct with
  | case1 => exact ⟨[], by rw [packFrom]; rfl, rfl⟩
  | case2 byte bytes ih =>
      have long : 8 ≤ (byte :: bytes).length := by
        rw [List.length_cons] at whole ⊢
        omega
      obtain ⟨u, out, taken, same⟩ := packStep_unit long
      obtain ⟨us, packed, rest⟩ := ih (same.trans whole)
      refine ⟨u :: us, ?_, ?_⟩
      · rw [packFrom, out, packed]
        rfl
      · rw [List.flatMap_cons, ← rest, ← taken]

/-- Packing round trip. -/
theorem unpack_pack {input : List UInt8} (whole : input.length % 8 = 0) :
    ∃ packed, pack input = .ok packed ∧ unpack packed = .ok input := by
  obtain ⟨us, packed, same⟩ := packFrom_units whole
  refine ⟨packFrom input, if_neg (not_not.mpr whole), ?_⟩
  exact unpack_eq_ok_iff.mpr ⟨us, packed, same⟩

/-- Sixteen bytes go through packing and back. -/
theorem unpack_pack_example : ∃ packed,
    pack [8, 0, 0, 0, 3, 0, 2, 0, 25, 0, 0, 0, 170, 1, 0, 0] = .ok packed ∧
      unpack packed = .ok [8, 0, 0, 0, 3, 0, 2, 0, 25, 0, 0, 0, 170, 1, 0, 0] :=
  unpack_pack (by decide)

/-- The example of the encoding's specification. -/
example : packFrom [8, 0, 0, 0, 3, 0, 2, 0, 25, 0, 0, 0, 170, 1, 0, 0] =
    [0x51, 8, 3, 2, 0x31, 25, 170, 1] := by decide +kernel

end CapnpJanet.Packed
