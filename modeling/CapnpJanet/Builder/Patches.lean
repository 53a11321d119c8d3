import CapnpJanet.Builder.Frame
import CapnpJanet.Memory.Bits
import CapnpJanet.Message.Framing

/-!
# Fields of a struct body, bit by bit

The scalar setters and `capnp_builder_clear_ptr` replace a run of bits in one
segment and keep every other bit of the builder.  The same runs are what the
scalar readers of a message with the builder's segments see.
-/

namespace CapnpJanet

open ByteMemory

namespace Builder

/-- The bits in an area of one segment are replaced, and the builder is otherwise
the same. -/
structure Patched (seg : Nat) (area : Set Nat) (new : Nat → Bool) (b b' : Builder) : Prop where
  wf : b'.Wf
  nsegs_eq : b'.nsegs = b.nsegs
  words_eq : ∀ s, (b'.seg s).words = (b.seg s).words
  others : ∀ s, s ≠ seg → (b'.seg s).data = (b.seg s).data
  patch : Patch area new (b.seg seg).data (b'.seg seg).data

/-- The first bit of a word. -/
def wordBit (word : Nat) : Nat := 64 * word

namespace Patched

variable {seg : Nat} {area more : Set Nat} {new : Nat → Bool} {b b' b'' : Builder}

theorem refl (wf : b.Wf) (seg : Nat) (new : Nat → Bool) : Patched seg ∅ new b b :=
  ⟨wf, rfl, fun _ => rfl, fun _ _ => rfl, Patch.refl _ _⟩

theorem trans (first : Patched seg area new b b') (second : Patched seg more new b' b'') :
    Patched seg (area ∪ more) new b b'' where
  wf := second.wf
  nsegs_eq := second.nsegs_eq.trans first.nsegs_eq
  words_eq s := (second.words_eq s).trans (first.words_eq s)
  others s other := (second.others s other).trans (first.others s other)
  patch := first.patch.trans second.patch

theorem congr {area' : Set Nat} {new' : Nat → Bool} (patched : Patched seg area new b b')
    (same : area' = area) (bits : ∀ i ∈ area', new i = new' i) : Patched seg area' new' b b' := by
  subst same
  exact { patched with
    patch := ⟨fun i inside => (patched.patch.inside i inside).trans (bits i inside),
      patched.patch.outside⟩ }

/-- A step on the data of one segment. -/
theorem of_writes {touched : Nat → Nat → Prop} {data : Memory}
    (writes : Writes touched b (b.setData seg data)) (patch : Patch area new (b.seg seg).data data) :
    Patched seg area new b (b.setData seg data) := by
  refine ⟨writes.wf, rfl, fun s => ?_, fun s other => ?_, ?_⟩
  · by_cases here : s = seg <;> simp [setData, here]
  · simp [setData, other]
  · simpa [setData] using patch

end Patched

section
variable {b : Builder} (wf : b.Wf) {body : BPtr}
include wf

/-- A scalar setter replaces the bits of its field. -/
theorem setScalar_patched {width byteOffset : Nat} (value : Nat) (some : width ≠ 0)
    (inside : body.word * 8 + byteOffset + width ≤ (b.seg body.seg).words * 8) :
    ∃ b', setScalar width body byteOffset value b = .ok () b' ∧
      Patched body.seg (BitRun (wordBit body.word + 8 * byteOffset) (8 * width))
        (fun i => value.testBit (i - (wordBit body.word + 8 * byteOffset))) b b' := by
  have segLt : body.seg < b.nsegs := wf.lt_of_used (w := 0) (by unfold Used; omega)
  have ok : b.bodyOk body (body.word * 8 + byteOffset + width) = true :=
    (bodyOk_iff _ _).mpr ⟨segLt, inside⟩
  have run : setScalar width body byteOffset value b = .ok ()
      (b.setData body.seg (storeLe width (b.seg body.seg).data (body.word * 8 + byteOffset) value)) := by
    unfold setScalar
    dsimp only
    rw [if_neg (not_not.mpr ok)]
  have confined := (setScalar_confined wf width body byteOffset value).of_ok run
  have start : wordBit body.word + 8 * byteOffset = 8 * (body.word * 8 + byteOffset) := by
    unfold wordBit
    omega
  rw [start]
  exact ⟨_, run, .of_writes confined (patch_storeLe _ _ _ _)⟩

omit wf in
theorem toNat_mask {j : Nat} (hj : j < 8) : (1 <<< UInt8.ofNat j : UInt8).toNat = 2 ^ j := by
  rw [UInt8.toNat_shiftLeft, UInt8.toNat_ofNat', Nat.mod_eq_of_lt (a := j) (by omega),
    Nat.mod_eq_of_lt (a := j) (by omega), UInt8.toNat_one, Nat.one_shiftLeft, Nat.mod_eq_of_lt]
  exact Nat.pow_lt_pow_right (by decide) hj

omit wf in
/-- The bits of a byte after one has been set or cleared. -/
theorem testBit_withBit (byte : UInt8) {j : Nat} (hj : j < 8) (value : Bool) (k : Nat) :
    (withBit byte j value).toNat.testBit k = if k = j then value else byte.toNat.testBit k := by
  cases value with
  | true =>
      rw [withBit, if_pos rfl, UInt8.toNat_or, Nat.testBit_or, toNat_mask hj, Nat.testBit_two_pow]
      by_cases here : k = j
      · simp [here]
      · simp [here, Ne.symm here]
  | false =>
      have size : (2 : Nat) ^ j < 2 ^ 8 := Nat.pow_lt_pow_right (by decide) hj
      have rest : (~~~(1 <<< UInt8.ofNat j : UInt8)).toNat = 2 ^ 8 - (2 ^ j + 1) := by
        rw [UInt8.toNat_not, toNat_mask hj]
        rw [UInt8.size]
        omega
      rw [withBit, if_neg Bool.false_ne_true, UInt8.toNat_and, Nat.testBit_and, rest,
        Nat.testBit_two_pow_sub_succ size, Nat.testBit_two_pow]
      by_cases inside : k < 8
      · by_cases here : k = j
        · simp [here]
        · simp [here, Ne.symm here, inside]
      · rw [testBit_byte_past byte (not_lt.mp inside)]
        have other : k ≠ j := by omega
        simp [other]

omit wf in
theorem patch_withBit (mem : Memory) (a : Nat) {k : Nat} (hk : k < 8) (value : Bool) :
    Patch (BitRun (8 * a + k) 1) (fun _ => value) mem
      (blit 1 mem a fun _ => withBit (mem a) k value) := by
  have bits (i : Nat) : bit (blit 1 mem a fun _ => withBit (mem a) k value) i =
      if i = 8 * a + k then value else bit mem i := by
    by_cases here : i / 8 = a
    · have byte : blit 1 mem a (fun _ => withBit (mem a) k value) a = withBit (mem a) k value := by
        have inside := @blit_inside 1 mem a (fun _ => withBit (mem a) k value) 0 Nat.one_pos
        rwa [Nat.add_zero] at inside
      rw [bit, here, byte, testBit_withBit _ hk, bit, here]
      exact if_congr (by omega) rfl rfl
    · rw [if_neg (by omega)]
      exact bit_congr (blit_outside (by omega)) rfl
  refine ⟨fun i inside => ?_, fun i outside => ?_⟩
  · have there := mem_bitRun.mp inside
    rw [bits, if_pos (by omega)]
  · rw [bits, if_neg fun here => outside (mem_bitRun.mpr (by omega))]

/-- A bool setter replaces its bit. -/
theorem setBool_patched {bitOffset : Nat} (value : Bool)
    (inside : body.word * 8 + bitOffset / 8 < (b.seg body.seg).words * 8) :
    ∃ b', setBool body bitOffset value b = .ok () b' ∧
      Patched body.seg (BitRun (wordBit body.word + bitOffset) 1) (fun _ => value) b b' := by
  have segLt : body.seg < b.nsegs := wf.lt_of_used (w := 0) (by unfold Used; omega)
  have ok : b.bodyOk body (body.word * 8 + bitOffset / 8 + 1) = true :=
    (bodyOk_iff _ _).mpr ⟨segLt, inside⟩
  have run : setBool body bitOffset value b = .ok () (b.setData body.seg
      (blit 1 (b.seg body.seg).data (body.word * 8 + bitOffset / 8) fun _ =>
        withBit ((b.seg body.seg).data (body.word * 8 + bitOffset / 8)) (bitOffset % 8) value)) := by
    unfold setBool
    dsimp only
    rw [if_neg (not_not.mpr ok)]
  have confined := (setBool_confined wf body bitOffset value).of_ok run
  have start : wordBit body.word + bitOffset =
      8 * (body.word * 8 + bitOffset / 8) + bitOffset % 8 := by
    unfold wordBit
    omega
  rw [start]
  exact ⟨_, run, .of_writes confined (patch_withBit _ _ (Nat.mod_lt _ (by decide)) value)⟩

/-- Clearing a pointer replaces the bits of its slot. -/
theorem clearPtr_patched {dwords ptrIndex : Nat}
    (inUse : b.Used body.seg (body.word + dwords + ptrIndex)) :
    ∃ b', clearPtr body dwords ptrIndex b = .ok () b' ∧
      Patched body.seg (BitRun (wordBit (body.word + dwords + ptrIndex)) 64) (fun _ => false) b b' := by
  have run : clearPtr body dwords ptrIndex b =
      .ok () (b.storeW body.seg (body.word + dwords + ptrIndex) 0) := by
    unfold Used at inUse
    unfold clearPtr slot
    dsimp only
    rw [if_neg (not_le.mpr inUse)]
  have stored := patch_storeLe 8 (b.seg body.seg).data (8 * (body.word + dwords + ptrIndex)) 0
  have start : wordBit (body.word + dwords + ptrIndex) =
      8 * (8 * (body.word + dwords + ptrIndex)) := by
    unfold wordBit
    omega
  refine ⟨_, run, .of_writes (writes_storeW wf inUse 0) ?_⟩
  rw [start, storeWord]
  exact ⟨fun i inside => (stored.inside i inside).trans (Nat.zero_testBit _), stored.outside⟩

end

end Builder

end CapnpJanet
