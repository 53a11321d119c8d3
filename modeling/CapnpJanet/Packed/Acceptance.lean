import CapnpJanet.Packed.Growth

/-!
# What the unpacking loop accepts

`capnp_unpack` with its buffer accepts the sequences of complete units whose buffer
it is granted, and puts out what the units stand for.  A capacity that wraps is left
aside: what the loop does then is not defined.
-/

namespace CapnpJanet.Packed

/-- `capnp_unpack` returns `CAPNP_OK` with this output. -/
def Unpacks (input output : List UInt8) : Prop :=
  ∃ o, unpackBuffered input = .ok o ∧ Holds o output

/-- The first buffer can be asked for, and no capacity wraps after it. -/
structure Sized (input : List UInt8) : Prop where
  first : input.length * 4 + 64 ≤ maxBlock
  fits : ¬Wraps input

section
variable {input input' output output' : List UInt8}

/-- Only one string is put out. -/
theorem Holds.unique {o : Output} (holds : Holds o output) (holds' : Holds o output') :
    output = output' := by
  apply List.ext_getElem?
  intro i
  by_cases inside : i < o.opos
  · rw [← holds.stored i inside, holds'.stored i inside]
  · rw [List.getElem?_eq_none (by rw [← holds.filled]; omega),
      List.getElem?_eq_none (by rw [← holds'.filled]; omega)]

/-- What is put out is what the units of the input stand for, and no request was
refused. -/
theorem Unpacks.unpack (first : input.length * 4 + 64 ≤ maxBlock) (unpacks : Unpacks input output) :
    unpack input = .ok output ∧ ¬Refused input := by
  obtain ⟨o, run, holds⟩ := unpacks
  constructor
  · obtain ⟨output', accepted, holds'⟩ := (unpackBuffered_within first).of_ok run
    rw [holds.unique holds']
    exact accepted
  · intro refused
    rw [unpackBuffered_refused first refused] at run
    cases run

/-- Where no request is refused, what `unpack` accepts is put out. -/
theorem unpacks_of_unpack (sized : Sized input) (granted : ¬Refused input)
    (accepted : unpack input = .ok output) : Unpacks input output := by
  have within := unpackBuffered_within sized.first
  cases run : unpackBuffered input with
  | ok o =>
      obtain ⟨output', accepted', holds⟩ := within.of_ok run
      rw [accepted] at accepted'
      cases accepted'
      exact ⟨o, run, holds⟩
  | error e =>
      have stops : Stops input e := within.of_error run
      cases e with
      | arg => exact stops.elim
      | alloc => exact absurd stops granted
      | packed => cases accepted.symm.trans stops
      | fault => exact absurd stops sized.fits

/-- What `unpack` refuses is refused with a code: `CAPNP_ERR_ALLOC` if a request of
the loop is refused before, and `CAPNP_ERR_PACKED` otherwise. -/
theorem unpackBuffered_of_packed (sized : Sized input) (cut : unpack input = .error .packed) :
    unpackBuffered input = .error .packed ∨
      Refused input ∧ unpackBuffered input = .error .alloc := by
  have within := unpackBuffered_within sized.first
  cases run : unpackBuffered input with
  | ok o =>
      obtain ⟨output, accepted, -⟩ := within.of_ok run
      rw [cut] at accepted
      cases accepted
  | error e =>
      have stops : Stops input e := within.of_error run
      cases e with
      | arg => exact stops.elim
      | alloc => exact .inr ⟨stops, rfl⟩
      | packed => exact .inl rfl
      | fault => exact absurd stops sized.fits

end

/-- `capnp_unpack` accepts exactly the sequences of complete units whose buffer it is
granted.  Accepted strings can be joined if the buffer of the whole is granted, and
one that is cut inside its last unit is refused with a code. -/
theorem unpackBuffered_grammar :
    (∀ input output, Sized input → (Unpacks input output ↔ ¬Refused input ∧
      ∃ us : List PackedUnit, input = us.flatMap PackedUnit.bytes ∧
        output = us.flatMap PackedUnit.expansion)) ∧
    (∀ input input' output output', Sized (input ++ input') → ¬Refused (input ++ input') →
      Unpacks input output → Unpacks input' output' →
        Unpacks (input ++ input') (output ++ output')) ∧
    ∀ (us : List PackedUnit) (u : PackedUnit) (n : Nat), 0 < n → n < u.bytes.length →
      Sized (us.flatMap PackedUnit.bytes ++ u.bytes.take n) →
        unpackBuffered (us.flatMap PackedUnit.bytes ++ u.bytes.take n) = .error .packed ∨
          Refused (us.flatMap PackedUnit.bytes ++ u.bytes.take n) ∧
            unpackBuffered (us.flatMap PackedUnit.bytes ++ u.bytes.take n) = .error .alloc := by
  refine ⟨fun input output sized => ⟨fun unpacks => ?_, fun ⟨granted, units⟩ => ?_⟩,
    fun input input' output output' sized granted unpacks unpacks' => ?_,
    fun us u n some cut sized => unpackBuffered_of_packed sized (unpack_cut us u some cut)⟩
  · obtain ⟨accepted, granted⟩ := unpacks.unpack sized.first
    exact ⟨granted, unpack_eq_ok_iff.mp accepted⟩
  · exact unpacks_of_unpack sized granted (unpack_eq_ok_iff.mpr units)
  · have first := sized.first
    rw [List.length_append] at first
    obtain ⟨us, same, put⟩ := unpack_eq_ok_iff.mp (unpacks.unpack (by omega)).1
    obtain ⟨us', same', put'⟩ := unpack_eq_ok_iff.mp (unpacks'.unpack (by omega)).1
    refine unpacks_of_unpack sized granted (unpack_eq_ok_iff.mpr ⟨us ++ us', ?_, ?_⟩)
    · rw [List.flatMap_append, same, same']
    · rw [List.flatMap_append, put, put']

/-! ## Short inputs -/

/-- A unit stands for at most 1024 bytes for each of its own. -/
theorem expansion_length_le (us : List PackedUnit) :
    (us.flatMap PackedUnit.expansion).length ≤ 1024 * (us.flatMap PackedUnit.bytes).length := by
  induction us with
  | nil => exact Nat.le_refl _
  | cons u us ih =>
      have one : u.expansion.length ≤ 1024 * u.bytes.length := by
        cases u with
        | zeros count =>
            have few := count.toNat_lt
            rw [PackedUnit.expansion, PackedUnit.bytes, List.length_append, List.length_replicate,
              List.length_replicate, List.length_cons, List.length_singleton]
            omega
        | verbatim payload count words eight whole =>
            rw [PackedUnit.expansion, PackedUnit.bytes, List.length_append, List.length_cons,
              List.length_append, List.length_cons]
            omega
        | tagged tag payload mixed each =>
            rw [PackedUnit.expansion, PackedUnit.bytes, spread, List.length_map, List.length_range,
              List.length_cons]
            omega
      rw [List.flatMap_cons, List.flatMap_cons, List.length_append, List.length_append]
      omega

/-- The buffer of an input of at most 2^51 bytes is always granted. -/
theorem sized_of_short {input : List UInt8} (short : input.length ≤ 2 ^ 51) :
    Sized input ∧ ¬Refused input := by
  have below {us : List PackedUnit} {rest : List UInt8} {grown : Nat}
      (same : input = us.flatMap PackedUnit.bytes ++ rest)
      (full : capAfter input.length grown < (us.flatMap PackedUnit.expansion).length + 2048) :
      capAfter input.length (grown + 1) ≤ maxBlock := by
    have size := expansion_length_le us
    have length := congrArg List.length same
    rw [List.length_append] at length
    rw [capAfter]
    unfold maxBlock
    omega
  refine ⟨⟨?_, ?_⟩, ?_⟩
  · unfold maxBlock
    omega
  · rintro ⟨us, rest, grown, same, -, full, -, wraps⟩
    have granted := below same full
    unfold maxBlock at granted
    omega
  · rintro ⟨us, rest, grown, same, -, full, -, large, -⟩
    exact Nat.not_le_of_lt large (below same full)

/-- Two zero words, and the first byte of a third unit. -/
theorem unpackBuffered_grammar_zeros :
    Unpacks ([0, 0] ++ [0, 0]) (List.replicate 8 0 ++ List.replicate 8 0) ∧
      unpackBuffered ([0, 0] ++ [0, 0] ++ [0]) = .error .packed := by
  have short (input : List UInt8) (few : input.length ≤ 5) : Sized input ∧ ¬Refused input :=
    sized_of_short (few.trans (by decide))
  have one : Unpacks [0, 0] (List.replicate 8 0) := by
    refine (unpackBuffered_grammar.1 _ _ (short _ (by decide)).1).mpr ⟨(short _ (by decide)).2, ?_⟩
    exact ⟨[.zeros 0], rfl, rfl⟩
  obtain ⟨sized, granted⟩ := short ([0, 0] ++ [0, 0]) (by decide)
  obtain ⟨sized', granted'⟩ := short ([0, 0] ++ [0, 0] ++ [0]) (by decide)
  constructor
  · exact unpackBuffered_grammar.2.1 _ _ _ _ sized granted one one
  · rcases unpackBuffered_grammar.2.2 [.zeros 0, .zeros 0] (.zeros 0) 1 (by decide) (by decide)
      sized' with cut | ⟨refused, -⟩
    · exact cut
    · exact absurd refused granted'

/-! ## A buffer that is refused -/

/-- Complete units of two bytes, each for 256 zero words. -/
def manyZeros (n : Nat) : List UInt8 :=
  (List.replicate n (PackedUnit.zeros 255)).flatMap PackedUnit.bytes

theorem manyZeros_length (n : Nat) : (manyZeros n).length = 2 * n := by
  rw [manyZeros, List.length_flatMap, List.map_replicate, List.sum_replicate_nat, Nat.mul_comm]
  rfl

/-- From 2^53 bytes the buffer grows seven times, and is refused before the last
unit. -/
theorem manyZeros_refused : Refused (manyZeros (2 ^ 52 - 1 + 1)) := by
  have length := manyZeros_length (2 ^ 52 - 1 + 1)
  refine ⟨List.replicate (2 ^ 52 - 1) (.zeros 255), [0, 255], 7, ?_, List.cons_ne_nil _ _, ?_, ?_, ?_,
    ?_⟩
  · rw [manyZeros, List.replicate_succ', List.flatMap_append]
    rfl
  · rw [length, capAfter_seven, zeros_expansion_length]
    omega
  · rw [length, capAfter_seven]
    unfold maxBlock
    omega
  · rw [capAfter, length, capAfter_seven]
    unfold maxBlock
    omega
  · rw [capAfter, length, capAfter_seven]
    omega

/-- Complete units that stand for 2^63 bytes are not accepted, though no capacity
wraps. -/
theorem manyZeros_not_accepted : (∃ us : List PackedUnit,
      manyZeros (2 ^ 52 - 1 + 1) = us.flatMap PackedUnit.bytes) ∧
    Sized (manyZeros (2 ^ 52 - 1 + 1)) ∧
      unpackBuffered (manyZeros (2 ^ 52 - 1 + 1)) = .error .alloc ∧
        ∀ output, ¬Unpacks (manyZeros (2 ^ 52 - 1 + 1)) output := by
  have length := manyZeros_length (2 ^ 52 - 1 + 1)
  have first : (manyZeros (2 ^ 52 - 1 + 1)).length * 4 + 64 ≤ maxBlock := by
    rw [length]
    unfold maxBlock
    omega
  have refused := unpackBuffered_refused first manyZeros_refused
  refine ⟨⟨_, rfl⟩, ⟨first, fun wraps => ?_⟩, refused, fun output unpacks => ?_⟩
  · rw [unpackBuffered_faults first wraps] at refused
    cases refused
  · obtain ⟨o, run, -⟩ := unpacks
    rw [refused] at run
    cases run

end CapnpJanet.Packed
