import Mathlib.Data.UInt
import Mathlib.Tactic.Ring
import Mathlib.Tactic.NormNum

/-!
# Byte memories and little-endian words

A byte memory is a total function from addresses to bytes.  Loads assemble `n`
bytes least significant first, stores replace exactly the addressed bytes, and
`blit` replaces a whole run.  The lemmas say what each load sees after each
write; a caller that knows where its words lie never looks at single bytes.

The memory is deliberately total.  Bounds are a property of the object that
owns the memory, not of the memory, so an access outside that object still has
a value and a bounds theorem is about addresses rather than about failure.
-/

namespace ByteMemory

/-- A byte memory, total in the address. -/
abbrev Memory := Nat → UInt8

/-- Load `n` bytes at address `p`, least significant first. -/
def loadLe : Nat → Memory → Nat → Nat
  | 0, _, _ => 0
  | n + 1, mem, p => (mem p).toNat + 256 * loadLe n mem (p + 1)

/-- Store the low `n` bytes of `v` at address `p`, least significant first. -/
def storeLe (n : Nat) (mem : Memory) (p v : Nat) : Memory := fun i =>
  if p ≤ i ∧ i < p + n then UInt8.ofNat (v / 256 ^ (i - p)) else mem i

/-- Replace the `n` bytes at address `p` by the bytes of `src`. -/
def blit (n : Nat) (mem : Memory) (p : Nat) (src : Nat → UInt8) : Memory := fun i =>
  if p ≤ i ∧ i < p + n then src (i - p) else mem i

/-- The bytes of a list, followed by zeros. -/
def ofList (bytes : List UInt8) : Memory := fun i => bytes.getD i 0

/-- The first `n` bytes from address `p`, as a list. -/
def toList (mem : Memory) (p n : Nat) : List UInt8 :=
  (List.range n).map fun i => mem (p + i)

/-! ## Loads -/

theorem loadLe_lt (n : Nat) (mem : Memory) (p : Nat) : loadLe n mem p < 256 ^ n := by
  induction n generalizing p with
  | zero => simp [loadLe]
  | succ n ih =>
      have byteLt : (mem p).toNat < 256 := (mem p).toNat_lt
      have restLt := ih (p + 1)
      rw [loadLe, pow_succ]
      omega

/-- A load depends on the addressed bytes only. -/
theorem loadLe_congr {n : Nat} {mem other : Memory} {p q : Nat}
    (same : ∀ i < n, mem (p + i) = other (q + i)) : loadLe n mem p = loadLe n other q := by
  induction n generalizing p q with
  | zero => rfl
  | succ n ih =>
      have first : mem p = other q := same 0 (Nat.succ_pos n)
      have rest : ∀ i < n, mem (p + 1 + i) = other (q + 1 + i) := by
        intro i hi
        have step := same (i + 1) (Nat.succ_lt_succ hi)
        rwa [show p + 1 + i = p + (i + 1) by omega, show q + 1 + i = q + (i + 1) by omega]
      rw [loadLe, loadLe, first, ih rest]

/-- A load of zero bytes. -/
theorem loadLe_of_clear {n : Nat} {mem : Memory} {p : Nat} (clear : ∀ i < n, mem (p + i) = 0) :
    loadLe n mem p = 0 := by
  induction n generalizing p with
  | zero => rfl
  | succ n ih =>
      have first : mem p = 0 := clear 0 (Nat.succ_pos n)
      have rest : loadLe n mem (p + 1) = 0 := ih fun i hi => by
        rw [Nat.add_right_comm]
        exact clear (i + 1) (Nat.succ_lt_succ hi)
      rw [loadLe, first, rest]
      rfl

/-- The bytes of a loaded word. -/
theorem byte_of_loadLe {n : Nat} (mem : Memory) (p : Nat) {i : Nat} (hi : i < n) :
    UInt8.ofNat (loadLe n mem p / 256 ^ i) = mem (p + i) := by
  induction n generalizing p i with
  | zero => omega
  | succ n ih =>
      have byteLt : (mem p).toNat < 256 := (mem p).toNat_lt
      cases i with
      | zero =>
          apply UInt8.toNat_inj.mp
          simp only [loadLe, pow_zero, Nat.div_one, UInt8.toNat_ofNat', Nat.add_zero]
          omega
      | succ i =>
          have tail : loadLe (n + 1) mem p / 256 ^ (i + 1) = loadLe n mem (p + 1) / 256 ^ i := by
            rw [loadLe, pow_succ', ← Nat.div_div_eq_div_mul]
            congr 1
            omega
          rw [tail, ih (p + 1) (Nat.lt_of_succ_lt_succ hi)]
          congr 1
          omega

/-- Equal loads read equal bytes. -/
theorem bytes_eq_of_loadLe_eq {n : Nat} {mem other : Memory} {p q : Nat}
    (equal : loadLe n mem p = loadLe n other q) : ∀ i < n, mem (p + i) = other (q + i) := by
  intro i hi
  rw [← byte_of_loadLe mem p hi, ← byte_of_loadLe other q hi, equal]

theorem storeLe_of_lt {n : Nat} {mem : Memory} {p v i : Nat} (h : i < p) :
    storeLe n mem p v i = mem i :=
  if_neg fun inside => by omega

theorem storeLe_of_le {n : Nat} {mem : Memory} {p v i : Nat} (h : p + n ≤ i) :
    storeLe n mem p v i = mem i :=
  if_neg fun inside => by omega

/-- Loading the stored bytes gives the stored value, cut to its width. -/
theorem loadLe_storeLe (n : Nat) (mem : Memory) (p v : Nat) :
    loadLe n (storeLe n mem p v) p = v % 256 ^ n := by
  have key : ∀ k base, base + k ≤ n →
      loadLe k (storeLe n mem p v) (p + base) = v / 256 ^ base % 256 ^ k := by
    intro k
    induction k with
    | zero => intro base _; simp [loadLe, Nat.mod_one]
    | succ k ih =>
        intro base hbase
        have head : (storeLe n mem p v (p + base)).toNat = v / 256 ^ base % 256 := by
          have inside : p ≤ p + base ∧ p + base < p + n := by omega
          rw [storeLe, if_pos inside, Nat.add_sub_cancel_left, UInt8.toNat_ofNat']
        have tail := ih (base + 1) (by omega)
        rw [loadLe, head, show p + base + 1 = p + (base + 1) by omega, tail, pow_succ' 256 k,
          Nat.mod_mul, pow_succ, ← Nat.div_div_eq_div_mul]
  simpa using key n 0 (by omega)

theorem loadLe_storeLe_disjoint {n k : Nat} {mem : Memory} {p q v : Nat}
    (apart : p + n ≤ q ∨ q + k ≤ p) : loadLe k (storeLe n mem p v) q = loadLe k mem q := by
  apply loadLe_congr
  intro i hi
  rcases apart with after | before
  · exact storeLe_of_le (by omega)
  · exact storeLe_of_lt (by omega)

theorem blit_inside {n : Nat} {mem : Memory} {p : Nat} {src : Nat → UInt8} {i : Nat} (hi : i < n) :
    blit n mem p src (p + i) = src i := by
  have inside : p ≤ p + i ∧ p + i < p + n := by omega
  rw [blit, if_pos inside, Nat.add_sub_cancel_left]

theorem blit_outside {n : Nat} {mem : Memory} {p : Nat} {src : Nat → UInt8} {i : Nat}
    (outside : i < p ∨ p + n ≤ i) : blit n mem p src i = mem i :=
  if_neg fun inside => by omega

/-! ## Eight-byte words -/

/-- Word `i` of a memory that is read in eight-byte units. -/
def word (mem : Memory) (i : Nat) : Nat := loadLe 8 mem (8 * i)

/-- Store word `i`. -/
def storeWord (mem : Memory) (i v : Nat) : Memory := storeLe 8 mem (8 * i) v

theorem word_lt (mem : Memory) (i : Nat) : word mem i < 2 ^ 64 := by
  have bound := loadLe_lt 8 mem (8 * i)
  norm_num at bound ⊢
  exact bound

theorem word_storeWord_self (mem : Memory) (i v : Nat) :
    word (storeWord mem i v) i = v % 2 ^ 64 := by
  rw [word, storeWord, loadLe_storeLe]
  norm_num

theorem word_storeWord_of_ne {mem : Memory} {i j v : Nat} (h : j ≠ i) :
    word (storeWord mem i v) j = word mem j :=
  loadLe_storeLe_disjoint (by omega)

/-- A word store changes no byte outside its word. -/
theorem storeWord_of_ne {mem : Memory} {i v a : Nat} (h : a / 8 ≠ i) : storeWord mem i v a = mem a := by
  rcases Nat.lt_or_gt_of_ne h with below | above
  · exact storeLe_of_lt (by omega)
  · exact storeLe_of_le (by omega)

/-- A word store changes exactly one word. -/
theorem word_storeWord (mem : Memory) (i j v : Nat) :
    word (storeWord mem i v) j = if j = i then v % 2 ^ 64 else word mem j := by
  split
  · next h => rw [h, word_storeWord_self]
  · next h => exact word_storeWord_of_ne h

theorem loadLe_storeWord_disjoint {k i v q : Nat} {mem : Memory}
    (apart : 8 * i + 8 ≤ q ∨ q + k ≤ 8 * i) : loadLe k (storeWord mem i v) q = loadLe k mem q :=
  loadLe_storeLe_disjoint apart

theorem word_storeLe_disjoint {n i p v : Nat} {mem : Memory}
    (apart : p + n ≤ 8 * i ∨ 8 * i + 8 ≤ p) : word (storeLe n mem p v) i = word mem i :=
  loadLe_storeLe_disjoint apart

theorem word_congr {mem other : Memory} {i j : Nat}
    (same : ∀ k < 8, mem (8 * i + k) = other (8 * j + k)) : word mem i = word other j :=
  loadLe_congr same

theorem word_of_clear {mem : Memory} {i : Nat} (clear : ∀ k < 8, mem (8 * i + k) = 0) :
    word mem i = 0 :=
  loadLe_of_clear clear

/-- Memories that agree on their words agree on their bytes. -/
theorem byte_eq_of_word_eq {mem other : Memory} {a : Nat}
    (same : word mem (a / 8) = word other (a / 8)) : mem a = other a := by
  have bytes := bytes_eq_of_loadLe_eq same (a % 8) (by omega)
  rwa [show 8 * (a / 8) + a % 8 = a by omega] at bytes

/-! ## Lists of bytes -/

@[simp]
theorem length_toList (mem : Memory) (p n : Nat) : (toList mem p n).length = n := by
  simp [toList]

theorem toList_congr {mem other : Memory} {p q n : Nat}
    (same : ∀ i < n, mem (p + i) = other (q + i)) : toList mem p n = toList other q n := by
  apply List.map_congr_left
  intro i hi
  exact same i (List.mem_range.mp hi)

theorem ofList_toList {mem : Memory} {p n i : Nat} (hi : i < n) :
    ofList (toList mem p n) i = mem (p + i) := by
  simp [ofList, toList, hi]

theorem ofList_append_left {front back : List UInt8} {i : Nat} (hi : i < front.length) :
    ofList (front ++ back) i = ofList front i := by
  simp [ofList, List.getD_eq_getElem?_getD, List.getElem?_append_left hi]

theorem ofList_append_right (front back : List UInt8) (i : Nat) :
    ofList (front ++ back) (front.length + i) = ofList back i := by
  simp [ofList, List.getD_eq_getElem?_getD, List.getElem?_append_right]

/-- The total length of the first `n` pieces of a concatenation. -/
def lengthBefore (pieces : Nat → List UInt8) : Nat → Nat
  | 0 => 0
  | n + 1 => lengthBefore pieces n + (pieces n).length

theorem length_flatMap_range (pieces : Nat → List UInt8) (n : Nat) :
    ((List.range n).flatMap pieces).length = lengthBefore pieces n := by
  induction n with
  | zero => rfl
  | succ n ih => simp [List.range_succ, List.flatMap_append, ih, lengthBefore]

/-- A byte of one piece of a concatenation. -/
theorem ofList_flatMap_range (pieces : Nat → List UInt8) {n i k : Nat} (hi : i < n)
    (hk : k < (pieces i).length) :
    ofList ((List.range n).flatMap pieces) (lengthBefore pieces i + k) = ofList (pieces i) k := by
  induction n with
  | zero => omega
  | succ n ih =>
      have size := length_flatMap_range pieces n
      have split : (List.range (n + 1)).flatMap pieces =
          (List.range n).flatMap pieces ++ pieces n := by
        simp [List.range_succ, List.flatMap_append]
      rw [split]
      by_cases last : i = n
      · subst last
        rw [← size, ofList_append_right]
      · have earlier : i < n := by omega
        have whole : lengthBefore pieces (i + 1) ≤ lengthBefore pieces n := by
          have grows : ∀ d, lengthBefore pieces (i + 1) ≤ lengthBefore pieces (i + 1 + d) := by
            intro d
            induction d with
            | zero => exact le_rfl
            | succ d ih => exact ih.trans (Nat.le_add_right _ _)
          have rest := grows (n - (i + 1))
          rwa [show i + 1 + (n - (i + 1)) = n by omega] at rest
        rw [lengthBefore] at whole
        rw [ofList_append_left (by omega), ih earlier]

/-! Loads and stores are used through the lemmas above; unification must not
unfold them byte by byte. -/
attribute [irreducible] loadLe storeLe blit word storeWord

end ByteMemory
