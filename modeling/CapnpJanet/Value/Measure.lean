import CapnpJanet.Message.Resolve
import CapnpJanet.Value.Tree

/-!
# What the fields of a layout hold, and what reading it costs

A pointer word has 30 bits for an offset, 29 for a count and 16 for each section.
`Proper` and `Near` say that the fields of a tree's pointers hold their values,
`Trimmed` that no block can be made narrower.  `reading` is what a reader pays
that follows the pointers of a layout as the copier does.
-/

namespace CapnpJanet

open Finset

namespace Shape

/-- The counts and section sizes that the words of a block have fields for. -/
def Sizes (shape : Shape) (n nd np : Nat) : Prop :=
  match shape with
  | struct => n = 1 ∧ nd < 2 ^ 16 ∧ np < 2 ^ 16
  | pointers => n < 2 ^ 29 ∧ nd = 0 ∧ np = 1
  | composite => tagCount (wpMakeStruct n nd np) = n ∧ nd < 2 ^ 16 ∧ np < 2 ^ 16

end Shape

namespace Tree

def isNull : Tree → Bool
  | null => true
  | _ => false

@[simp]
theorem isNull_iff {t : Tree} : t.isNull = true ↔ t = null := by
  cases t <;> simp [isNull]

/-- The words of an object itself, without those behind its pointers. -/
def own : Tree → Nat
  | null => 0
  | packed esize count _ => packedWords esize count
  | block shape n nd np _ _ => shape.header + n * (nd + np)

/-- Counts and sizes fit their fields, and nothing is said outside of the
objects. -/
def Proper : Tree → Prop
  | null => True
  | packed esize count byte =>
      esize ≠ .ptr ∧ esize ≠ .composite ∧ count < 2 ^ 29 ∧
        ∀ b, packedBytes esize count ≤ b → byte b = 0
  | block shape n nd np data child =>
      shape.Sizes n nd np ∧ (∀ i j, n ≤ i ∨ nd ≤ j → data i j = 0) ∧
        (∀ i k, n ≤ i ∨ np ≤ k → child i k = null) ∧ ∀ i k, (child i k).Proper

/-- Every offset fits its field, when the objects are at `pos` and the pointer
in a slot. -/
def Near : Tree → (slot pos : Nat) → Prop
  | null, _, _ => True
  | packed esize count _, slot, pos =>
      packedWords esize count ≠ 0 → OffsetFits ((pos : Int) - slot - 1)
  | block shape n nd np _ child, slot, pos =>
      (shape.header + n * (nd + np) ≠ 0 → OffsetFits ((pos : Int) - slot - 1)) ∧
        ∀ i < n, ∀ k < np,
          (child i k).Near (slotOf shape nd np pos i k) (placeOf shape n nd np child pos i k)

/-- The words of each composite list fit the count field of its pointer. -/
def WordCounts : Tree → Prop
  | block shape n nd np _ child =>
      (shape = .composite → n * (nd + np) < 2 ^ 29) ∧ ∀ i < n, ∀ k < np, (child i k).WordCounts
  | _ => True

/-- The sections of structs and of list elements are as short as they can be: the
last data word is not zero in some row, the last pointer not null. -/
def Trimmed : Tree → Prop
  | block shape n nd np data child =>
      (shape ≠ .pointers →
        (nd ≠ 0 → ∃ i < n, data i (nd - 1) ≠ 0) ∧
          (np ≠ 0 → ∃ i < n, child i (np - 1) ≠ null)) ∧
        ∀ i < n, ∀ k < np, (child i k).Trimmed
  | _ => True

/-- A tree of at most so many levels. -/
def Within : (room : Nat) → Tree → Prop
  | 0, _ => False
  | room + 1, block _ n _ np _ child => ∀ i < n, ∀ k < np, (child i k).Within room
  | _ + 1, _ => True

/-- What looking for the last pointer of a row that is not null costs. -/
def lastPrice (row : Nat → Tree) : (np : Nat) → Nat
  | 0 => 0
  | np + 1 => (row np).own + 1 + if (row np).isNull then lastPrice row np else 0

/-- What the reads behind an object cost. -/
def reading : Tree → Nat
  | block shape n _ np _ child =>
      ∑ i ∈ range n, (if shape = .pointers then 0 else lastPrice (child i) np) +
        ∑ i ∈ range n, ∑ k ∈ range np, ((child i k).own + 1 + (child i k).reading)
  | _ => 0

/-! ## Small trees -/

/-- Every word is paid for. -/
theorem size_le (t : Tree) : t.size ≤ t.own + t.reading := by
  induction t with
  | null => exact le_rfl
  | packed esize count byte => exact le_rfl
  | block shape n nd np data child ih =>
      have behind : ∑ i ∈ range n, ∑ k ∈ range np, (child i k).size ≤
          ∑ i ∈ range n, ∑ k ∈ range np, ((child i k).own + 1 + (child i k).reading) :=
        sum_le_sum fun i _ => sum_le_sum fun k _ => by
          have below := ih i k
          omega
      rw [size, own, reading]
      omega

/-- In a layout that is small enough every offset fits. -/
theorem near_of_small {t : Tree} {slot pos : Nat} (behind : slot < pos)
    (small : pos + t.size ≤ slot + 2 ^ 29) : t.Near slot pos := by
  induction t generalizing slot pos with
  | null => trivial
  | packed esize count byte =>
      rw [size] at small
      intro some
      constructor <;> omega
  | block shape n nd np data child ih =>
      refine ⟨fun some => ?_, fun i hi k hk => ?_⟩
      · rw [size_block] at small
        constructor <;> omega
      · have inside := placeOf_add_le shape nd pos data child hi hk
        refine ih i k (slotOf_lt_placeOf hi hk) ?_
        have after : pos ≤ slotOf shape nd np pos i k := by
          unfold slotOf
          omega
        omega

theorem wordCounts_of_small {t : Tree} (small : t.size < 2 ^ 29) : t.WordCounts := by
  induction t with
  | null => trivial
  | packed esize count byte => trivial
  | block shape n nd np data child ih =>
      refine ⟨fun _ => ?_, fun i hi k hk => ih i k ?_⟩
      · rw [size_block] at small
        omega
      · have inside := before_add_le child hi hk
        rw [size_block] at small
        omega

end Tree

end CapnpJanet
