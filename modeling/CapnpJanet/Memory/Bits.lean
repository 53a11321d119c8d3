import CapnpJanet.Memory.LittleEndian
import Mathlib.Data.Nat.Bitwise
import Mathlib.Order.CompletePartialOrder

/-!
# Bits of a byte memory

The bits of a memory have one numbering, in which the bits of a byte come least
significant first.  A little-endian number is then a run of consecutive bits:
loads read a run and stores replace one.  A patch is any step between memories
that replaces the bits in a set of positions, and patches compose.
-/

namespace ByteMemory

/-- Bit `i` of a memory. -/
def bit (mem : Memory) (i : Nat) : Bool := (mem (i / 8)).toNat.testBit (i % 8)

/-- A set of positions starts at `start` and has `length` of them. -/
def BitRun (start length : Nat) : Set Nat := {i | start ≤ i ∧ i < start + length}

@[simp]
theorem mem_bitRun {start length i : Nat} :
    i ∈ BitRun start length ↔ start ≤ i ∧ i < start + length :=
  Iff.rfl

variable {mem other : Memory}

theorem testBit_byte (mem : Memory) (a : Nat) {k : Nat} (hk : k < 8) :
    (mem a).toNat.testBit k = bit mem (8 * a + k) := by
  rw [bit, show (8 * a + k) / 8 = a by omega, show (8 * a + k) % 8 = k by omega]

theorem testBit_byte_past (byte : UInt8) {k : Nat} (hk : 8 ≤ k) : byte.toNat.testBit k = false :=
  Nat.testBit_lt_two_pow (byte.toNat_lt.trans_le (Nat.pow_le_pow_right (by decide) hk))

/-- Bytes with the same bits are the same. -/
theorem byte_eq_of_bits {a b : Nat} (same : ∀ k < 8, bit mem (8 * a + k) = bit other (8 * b + k)) :
    mem a = other b := by
  apply UInt8.toNat_inj.mp
  refine Nat.eq_of_testBit_eq fun k => ?_
  by_cases hk : k < 8
  · rw [testBit_byte mem a hk, testBit_byte other b hk, same k hk]
  · rw [testBit_byte_past _ (not_lt.mp hk), testBit_byte_past _ (not_lt.mp hk)]

theorem bit_congr {i j : Nat} (byte : mem (i / 8) = other (j / 8)) (place : i % 8 = j % 8) :
    bit mem i = bit other j := by
  rw [bit, bit, byte, place]

/-! ## Loads and stores -/

/-- A load reads a run of bits. -/
theorem testBit_loadLe (n : Nat) (mem : Memory) (p : Nat) {k : Nat} (hk : k < 8 * n) :
    (loadLe n mem p).testBit k = bit mem (8 * p + k) := by
  have byte := congrArg UInt8.toNat (byte_of_loadLe mem p (show k / 8 < n by omega))
  rw [UInt8.toNat_ofNat'] at byte
  rw [bit, show (8 * p + k) / 8 = p + k / 8 by omega, show (8 * p + k) % 8 = k % 8 by omega, ← byte,
    show (256 : Nat) = 2 ^ 8 by norm_num, ← pow_mul, Nat.testBit_mod_two_pow,
    Nat.testBit_div_two_pow]
  have inside : k % 8 < 8 := Nat.mod_lt k (by decide)
  simp only [inside, decide_true, Bool.true_and]
  congr 1
  omega

/-- Loads of the same bits are equal. -/
theorem loadLe_eq_of_bits {n p q : Nat}
    (same : ∀ k < 8 * n, bit mem (8 * p + k) = bit other (8 * q + k)) :
    loadLe n mem p = loadLe n other q :=
  loadLe_congr fun i hi => byte_eq_of_bits fun k hk => by
    have there := same (8 * i + k) (by omega)
    rwa [show 8 * p + (8 * i + k) = 8 * (p + i) + k by ring,
      show 8 * q + (8 * i + k) = 8 * (q + i) + k by ring] at there

/-- A store replaces a run of bits. -/
theorem bit_storeLe (n : Nat) (mem : Memory) (p v i : Nat) :
    bit (storeLe n mem p v) i =
      if 8 * p ≤ i ∧ i < 8 * p + 8 * n then v.testBit (i - 8 * p) else bit mem i := by
  split
  · next inside =>
    obtain ⟨k, rfl⟩ := Nat.exists_eq_add_of_le inside.1
    have hk : k < 8 * n := by omega
    rw [← testBit_loadLe n _ p hk, loadLe_storeLe, show (256 : Nat) = 2 ^ 8 by norm_num, ← pow_mul,
      Nat.testBit_mod_two_pow, Nat.add_sub_cancel_left]
    simp [hk]
  · next outside =>
    refine bit_congr ?_ rfl
    by_cases before : i / 8 < p
    · exact storeLe_of_lt before
    · exact storeLe_of_le (by omega)

/-! ## Patches -/

/-- The bits in an area are replaced, and all others are kept. -/
structure Patch (area : Set Nat) (new : Nat → Bool) (mem mem' : Memory) : Prop where
  inside : ∀ i ∈ area, bit mem' i = new i
  outside : ∀ i, i ∉ area → bit mem' i = bit mem i

namespace Patch

variable {area more : Set Nat} {new : Nat → Bool} {mem' mem'' : Memory}

theorem refl (new : Nat → Bool) (mem : Memory) : Patch ∅ new mem mem := ⟨nofun, fun _ _ => rfl⟩

/-- Two patches with the same bits are one. -/
theorem trans (first : Patch area new mem mem') (second : Patch more new mem' mem'') :
    Patch (area ∪ more) new mem mem'' := by
  refine ⟨fun i inside => ?_, fun i outside => ?_⟩
  · by_cases later : i ∈ more
    · exact second.inside i later
    · rw [second.outside i later, first.inside i (inside.resolve_right later)]
  · rw [second.outside i fun later => outside (.inr later),
      first.outside i fun before => outside (.inl before)]

end Patch

theorem patch_storeLe (n : Nat) (mem : Memory) (p v : Nat) :
    Patch (BitRun (8 * p) (8 * n)) (fun i => v.testBit (i - 8 * p)) mem (storeLe n mem p v) := by
  refine ⟨fun i inside => ?_, fun i outside => ?_⟩
  · rw [bit_storeLe, if_pos (mem_bitRun.mp inside)]
  · rw [bit_storeLe, if_neg (mt mem_bitRun.mpr outside)]

end ByteMemory
