import CapnpJanet.Canonical.Copier
import CapnpJanet.Message.Target
import CapnpJanet.Value.Tree
import Mathlib.Data.Finset.Lattice.Fold
import Mathlib.Order.Lattice.Nat

/-!
# Handles as blocks of rows

The objects of a message, seen the way object trees are: a handle is null, a
capability, a packed list or a block of rows with data words and pointers.  What
a pointer leads to is read off `slotTarget`, so that it does not depend on the
traversal budget.  `tree` unfolds a handle into its tree, without trailing zero
words and null pointers.
-/

namespace CapnpJanet

open ByteMemory Finset

/-- What kind of object a handle is. -/
inductive Form
  | null | cap | packed
  | block (shape : Shape)
deriving DecidableEq, Repr

namespace Ptr

def form (p : Ptr) : Form :=
  match p.kind with
  | .null => .null
  | .cap => .cap
  | .struct => .block .struct
  | .list =>
      match p.esize with
      | .composite => .block .composite
      | .ptr => .block .pointers
      | _ => .packed

/-- The rows of a handle. -/
def rows (p : Ptr) : Nat :=
  match p.form with
  | .block .struct => 1
  | .block _ => p.count
  | _ => 0

theorem form_eq_struct {p : Ptr} (form : p.form = .block .struct) : p.kind = .struct := by
  unfold Ptr.form at form
  cases kind : p.kind with
  | struct => rfl
  | list =>
      rw [kind] at form
      cases esize : p.esize <;> simp [esize] at form
  | _ => simp [kind] at form

theorem form_eq_pointers {p : Ptr} (form : p.form = .block .pointers) :
    p.kind = .list ∧ p.esize = .ptr := by
  unfold Ptr.form at form
  cases kind : p.kind with
  | list =>
      rw [kind] at form
      cases esize : p.esize <;> simp [esize] at form
      exact ⟨rfl, rfl⟩
  | _ => simp [kind] at form

theorem form_eq_composite {p : Ptr} (form : p.form = .block .composite) :
    p.kind = .list ∧ p.esize = .composite := by
  unfold Ptr.form at form
  cases kind : p.kind with
  | list =>
      rw [kind] at form
      cases esize : p.esize <;> simp [esize] at form
      exact ⟨rfl, rfl⟩
  | _ => simp [kind] at form

theorem form_eq_packed {p : Ptr} (form : p.form = .packed) :
    p.kind = .list ∧ p.esize ≠ .ptr ∧ p.esize ≠ .composite := by
  unfold Ptr.form at form
  cases kind : p.kind with
  | list =>
      rw [kind] at form
      cases esize : p.esize <;> simp [esize] at form ⊢
  | _ => simp [kind] at form

end Ptr

namespace Message

/-- The object that pointer `k` of a struct handle names, and its price. -/
def fieldTarget (m : Message) (s : Ptr) (k : Nat) : Option (Ptr × Nat) :=
  if k ≥ s.pwords then some (nullPtr s.seg 0, 0)
  else m.slotTarget m.depthLimit s.seg (sizeT (s.word + s.dwords + k))

/-- The object that element `i` of a pointer list names, and its price. -/
def itemTarget (m : Message) (list : Ptr) (i : Nat) : Option (Ptr × Nat) :=
  m.slotTarget m.depthLimit list.seg (sizeT (list.word + i))

/-- Data word `j` of row `i`; past the section it is zero. -/
def datum (m : Message) (p : Ptr) (i j : Nat) : Nat :=
  match p.form with
  | .block .struct => if i = 0 ∧ j < p.dwords then m.getU64 p (j * 8) 0 else 0
  | .block .composite =>
      if i < p.count ∧ j < p.dwords then m.getU64 (elemPtr p i) (j * 8) 0 else 0
  | _ => 0

/-- The object behind pointer `k` of row `i`; past the section it is null. -/
def link (m : Message) (p : Ptr) (i k : Nat) : Option (Ptr × Nat) :=
  match p.form with
  | .block .struct => if i = 0 then m.fieldTarget p k else none
  | .block .composite => if i < p.count then m.fieldTarget (elemPtr p i) k else none
  | .block .pointers => if i < p.count ∧ k = 0 then m.itemTarget p i else none
  | _ => none

/-- Bit `b` of a packed body. -/
def listBit (m : Message) (p : Ptr) (b : Nat) : Bool :=
  (m.listByte p (b / 8)).toNat / 2 ^ (b % 8) % 2 == 1

/-- The pointers of a struct handle up to the last that is not null, among the
first `np`. -/
def usedPointers (m : Message) (p : Ptr) : (np : Nat) → Nat
  | 0 => 0
  | np + 1 =>
      match m.fieldTarget p np with
      | some (q, _) => if q.kind = .null then m.usedPointers p np else np + 1
      | none => np + 1

/-- What looking for the last pointer costs. -/
def usedPrice (m : Message) (p : Ptr) : (np : Nat) → Nat
  | 0 => 0
  | np + 1 =>
      match m.fieldTarget p np with
      | some (q, cost) => cost + if q.kind = .null then m.usedPrice p np else 0
      | none => 0

/-- The least number of data words that fits every row. -/
def dataWords (m : Message) (p : Ptr) : Nat :=
  match p.form with
  | .block .struct => m.trimmedDwords p p.dwords
  | .block .composite => (range p.count).sup fun i => m.trimmedDwords (elemPtr p i) p.dwords
  | _ => 0

/-- The least number of pointers that fits every row. -/
def linkWords (m : Message) (p : Ptr) : Nat :=
  match p.form with
  | .block .struct => m.usedPointers p p.pwords
  | .block .composite => (range p.count).sup fun i => m.usedPointers (elemPtr p i) p.pwords
  | .block .pointers => 1
  | _ => 0

/-- The tree of a handle, down to a number of levels. -/
def tree (m : Message) : (room : Nat) → Ptr → Tree
  | 0, _ => .null
  | room + 1, p =>
      match p.form with
      | .null => .null
      | .cap => .null
      | .packed =>
          .packed p.esize p.count fun b =>
            if b < packedBytes p.esize p.count then m.listByte p b else 0
      | .block shape =>
          .block shape p.rows (m.dataWords p) (m.linkWords p) (m.datum p) fun i k =>
            (m.link p i k).elim .null fun priced => m.tree room priced.1

/-- All pointers that a copy of the handle follows can be followed, within a
number of levels. -/
def Readable (m : Message) : (room : Nat) → Ptr → Prop
  | 0, _ => False
  | room + 1, p =>
      p.form ≠ .cap ∧ ∀ i < p.rows, ∀ k < m.linkWords p,
        ∃ q cost, m.link p i k = some (q, cost) ∧ m.Readable room q

/-- What looking for the last pointer of a row costs. -/
def rowPrice (m : Message) (p : Ptr) (i : Nat) : Nat :=
  match p.form with
  | .block .struct => m.usedPrice p p.pwords
  | .block .composite => m.usedPrice (elemPtr p i) p.pwords
  | _ => 0

/-- What the reads of a copy cost. -/
def walkCost (m : Message) : (room : Nat) → Ptr → Nat
  | 0, _ => 0
  | room + 1, p =>
      ∑ i ∈ range p.rows, m.rowPrice p i +
        ∑ i ∈ range p.rows, ∑ k ∈ range (m.linkWords p),
          (m.link p i k).elim 0 fun priced => priced.2 + m.walkCost room priced.1

/-! ## What the readers return -/

section
variable {m : Message} {p : Ptr} {i k left : Nat} {out : Ptr}

theorem getp_agrees (isStruct : p.kind = .struct) :
    Agrees (m.getp p k out left) (m.fieldTarget p k) left := by
  unfold getp fieldTarget
  rw [if_neg (not_not.mpr isStruct)]
  split
  · exact free_agrees _ _
  · exact m.resolvePtr_agrees _ _ _ out left

theorem listGetp_agrees (form : p.form = .block .pointers) (inside : i < p.count) :
    Agrees (m.listGetp p i out left) (m.itemTarget p i) left := by
  obtain ⟨list, esize⟩ := Ptr.form_eq_pointers form
  unfold listGetp
  rw [if_neg (not_not.mpr list), if_neg (not_le.mpr inside), esize]
  exact m.resolvePtr_agrees _ _ _ out left

theorem listGetp_composite (form : p.form = .block .composite) (inside : i < p.count) :
    m.listGetp p i out left = ⟨.ok, elemPtr p i, left⟩ := by
  obtain ⟨list, esize⟩ := Ptr.form_eq_composite form
  unfold listGetp
  rw [if_neg (not_not.mpr list), if_neg (not_le.mpr inside), esize]

end

/-! ## Trailing zeros -/

section
variable {m : Message} {p : Ptr} {x : Nat}

theorem trimmedDwords_le_iff (nd : Nat) :
    m.trimmedDwords p nd ≤ x ↔ ∀ j, x ≤ j → j < nd → m.getU64 p (j * 8) 0 = 0 := by
  induction nd with
  | zero => simp [trimmedDwords]
  | succ nd ih =>
      rw [trimmedDwords]
      split
      · next nonzero =>
        constructor
        · intro le j low high
          omega
        · intro zeros
          by_contra below
          exact nonzero (zeros nd (by omega) (Nat.lt_succ_self nd))
      · next zero =>
        rw [ih]
        constructor
        · intro zeros j low high
          rcases Nat.lt_succ_iff_lt_or_eq.mp high with inside | rfl
          · exact zeros j low inside
          · exact not_not.mp zero
        · exact fun zeros j low high => zeros j low (Nat.lt_succ_of_lt high)

/-- Pointer `k` of a struct handle is null. -/
def FieldNull (m : Message) (p : Ptr) (k : Nat) : Prop :=
  ∃ q cost, m.fieldTarget p k = some (q, cost) ∧ q.kind = .null

theorem fieldNull_past (past : p.pwords ≤ x) : m.FieldNull p x :=
  ⟨_, _, if_pos past, rfl⟩

theorem usedPointers_le_iff (np : Nat) :
    m.usedPointers p np ≤ x ↔ ∀ k, x ≤ k → k < np → m.FieldNull p k := by
  induction np with
  | zero => simp [usedPointers]
  | succ np ih =>
      have stops (notNull : ¬m.FieldNull p np) :
          np + 1 ≤ x ↔ ∀ k, x ≤ k → k < np + 1 → m.FieldNull p k := by
        constructor
        · intro le k low high
          omega
        · intro nulls
          by_contra below
          exact notNull (nulls np (by omega) (Nat.lt_succ_self np))
      rw [usedPointers]
      cases found : m.fieldTarget p np with
      | none =>
          dsimp only
          refine stops ?_
          rintro ⟨q, cost, some, -⟩
          rw [found] at some
          cases some
      | some priced =>
          obtain ⟨q, cost⟩ := priced
          dsimp only
          split
          · next isNull =>
            rw [ih]
            constructor
            · intro nulls k low high
              rcases Nat.lt_succ_iff_lt_or_eq.mp high with inside | rfl
              · exact nulls k low inside
              · exact ⟨q, cost, found, isNull⟩
            · exact fun nulls k low high => nulls k low (Nat.lt_succ_of_lt high)
          · next notNull =>
            refine stops ?_
            rintro ⟨q', cost', found', isNull⟩
            rw [found] at found'
            cases found'
            exact notNull isNull

/-- Behind all pointers that are not null, the section included. -/
theorem usedPointers_le_iff_all :
    m.usedPointers p p.pwords ≤ x ↔ ∀ k, x ≤ k → m.FieldNull p k := by
  rw [usedPointers_le_iff]
  constructor
  · intro nulls k low
    by_cases inside : k < p.pwords
    · exact nulls k low inside
    · exact fieldNull_past (not_lt.mp inside)
  · exact fun nulls k low _ => nulls k low

theorem usedPointers_le (m : Message) (p : Ptr) (np : Nat) : m.usedPointers p np ≤ np :=
  (usedPointers_le_iff np).mpr fun _ low high => absurd low (not_le.mpr high)

theorem trimmedDwords_le (m : Message) (p : Ptr) (nd : Nat) : m.trimmedDwords p nd ≤ nd :=
  (trimmedDwords_le_iff nd).mpr fun _ low high => absurd low (not_le.mpr high)

/-- Pointer `k` of row `i` is null. -/
def Nil (m : Message) (p : Ptr) (i k : Nat) : Prop :=
  ∃ q cost, m.link p i k = some (q, cost) ∧ q.kind = .null

theorem link_past {i : Nat} (past : p.rows ≤ i) (k : Nat) : m.link p i k = none := by
  unfold Ptr.rows at past
  unfold link
  cases form : p.form with
  | block shape =>
      rw [form] at past
      cases shape with
      | struct => exact if_neg (by dsimp only at past; omega)
      | composite => exact if_neg (not_lt.mpr past)
      | pointers => exact if_neg fun inside => absurd inside.1 (not_lt.mpr past)
  | _ => rfl

theorem datum_past_rows {i : Nat} (past : p.rows ≤ i) (j : Nat) : m.datum p i j = 0 := by
  unfold Ptr.rows at past
  unfold datum
  cases form : p.form with
  | block shape =>
      rw [form] at past
      cases shape with
      | struct => exact if_neg (by dsimp only at past; omega)
      | composite => exact if_neg fun inside => absurd inside.1 (not_lt.mpr past)
      | pointers => rfl
  | _ => rfl

theorem link_packed (packed : p.form = .packed) (i k : Nat) : m.link p i k = none := by
  rw [link, packed]

/-- The data words that are kept are those up to the last that is not zero. -/
theorem dataWords_le_iff : m.dataWords p ≤ x ↔ ∀ i j, x ≤ j → m.datum p i j = 0 := by
  unfold dataWords datum
  cases p.form with
  | block shape =>
      cases shape with
      | struct =>
          dsimp only
          rw [trimmedDwords_le_iff]
          constructor
          · intro zeros i j low
            split
            · next inside => exact zeros j low inside.2
            · rfl
          · intro zeros j low high
            have zero := zeros 0 j low
            rwa [if_pos ⟨rfl, high⟩] at zero
      | composite =>
          dsimp only
          rw [Finset.sup_le_iff]
          constructor
          · intro zeros i j low
            split
            · next inside =>
              exact (trimmedDwords_le_iff _).mp (zeros i (mem_range.mpr inside.1)) j low inside.2
            · rfl
          · intro zeros i member
            refine (trimmedDwords_le_iff _).mpr fun j low high => ?_
            have zero := zeros i j low
            rwa [if_pos ⟨mem_range.mp member, high⟩] at zero
      | pointers => simp
  | _ => simp

/-- The pointers that are kept are those up to the last that is not null. -/
theorem linkWords_le_iff (other : p.form ≠ .block .pointers) :
    m.linkWords p ≤ x ↔ ∀ i < p.rows, ∀ k, x ≤ k → m.Nil p i k := by
  unfold linkWords Nil link Ptr.rows
  cases form : p.form with
  | block shape =>
      cases shape with
      | struct =>
          dsimp only
          rw [usedPointers_le_iff_all]
          constructor
          · intro nulls i one k low
            rw [if_pos (Nat.lt_one_iff.mp one)]
            exact nulls k low
          · intro nulls k low
            have null := nulls 0 Nat.one_pos k low
            rwa [if_pos rfl] at null
      | composite =>
          dsimp only
          rw [Finset.sup_le_iff]
          have row (i : Nat) := usedPointers_le_iff_all (m := m) (p := elemPtr p i) (x := x)
          constructor
          · intro nulls i inside k low
            rw [if_pos inside]
            exact (row i).mp (nulls i (mem_range.mpr inside)) k low
          · intro nulls i member
            refine (row i).mpr fun k low => ?_
            have null := nulls i (mem_range.mp member) k low
            rwa [if_pos (mem_range.mp member)] at null
      | pointers => exact absurd form other
  | _ => simp

/-- A data word that is kept last is not zero in some row. -/
theorem exists_datum (some : m.dataWords p ≠ 0) :
    ∃ i < p.rows, m.datum p i (m.dataWords p - 1) ≠ 0 := by
  have last : ¬m.dataWords p ≤ m.dataWords p - 1 := by omega
  rw [dataWords_le_iff] at last
  push Not at last
  obtain ⟨i, j, low, nonzero⟩ := last
  have here : j = m.dataWords p - 1 := by
    by_contra above
    exact nonzero (dataWords_le_iff.mp le_rfl i j (by omega))
  subst here
  refine ⟨i, ?_, nonzero⟩
  by_contra outside
  exact nonzero (datum_past_rows (not_lt.mp outside) _)

/-- A pointer that is kept last is not null in some row. -/
theorem exists_link (other : p.form ≠ .block .pointers) (some : m.linkWords p ≠ 0) :
    ∃ i < p.rows, ¬m.Nil p i (m.linkWords p - 1) := by
  have last : ¬m.linkWords p ≤ m.linkWords p - 1 := by omega
  rw [linkWords_le_iff other] at last
  push Not at last
  obtain ⟨i, inside, k, low, notNull⟩ := last
  have here : k = m.linkWords p - 1 := by
    by_contra above
    exact notNull ((linkWords_le_iff other).mp le_rfl i inside k (by omega))
  exact ⟨i, inside, here ▸ notNull⟩

end

/-! ## Trees -/

section
variable {m : Message} {p q : Ptr} {room : Nat}

theorem form_of_null (null : p.kind = .null) : p.form = .null := by
  unfold Ptr.form
  rw [null]

theorem tree_null (null : p.kind = .null) : m.tree room p = .null := by
  cases room with
  | zero => rfl
  | succ room => rw [tree, form_of_null null]

/-- The tree behind a pointer. -/
def subtree (m : Message) (room : Nat) (p : Ptr) (i k : Nat) : Tree :=
  (m.link p i k).elim .null fun priced => m.tree room priced.1

theorem subtree_of_link {i k cost : Nat} (found : m.link p i k = some (q, cost)) :
    m.subtree room p i k = m.tree room q := by
  rw [subtree, found, Option.elim_some]

theorem subtree_of_none {i k : Nat} (none : m.link p i k = none) :
    m.subtree room p i k = .null := by
  rw [subtree, none, Option.elim_none]

theorem tree_block {shape : Shape} (form : p.form = .block shape) :
    m.tree (room + 1) p = .block shape p.rows (m.dataWords p) (m.linkWords p) (m.datum p)
      (m.subtree room p) := by
  rw [tree, form]
  rfl

theorem tree_packed (form : p.form = .packed) :
    m.tree (room + 1) p = .packed p.esize p.count fun b =>
      if b < packedBytes p.esize p.count then m.listByte p b else 0 := by
  rw [tree, form]

/-- What is not kept of a block is null. -/
theorem subtree_past {i k : Nat} (past : m.linkWords p ≤ k) : m.subtree room p i k = .null := by
  unfold subtree
  by_cases inside : i < p.rows
  · by_cases pointers : p.form = .block .pointers
    · have none : m.link p i k = none := by
        unfold linkWords at past
        unfold link
        rw [pointers] at past ⊢
        exact if_neg fun here => absurd past (by rw [here.2]; exact Nat.not_succ_le_zero 0)
      rw [none, Option.elim_none]
    · obtain ⟨q, cost, found, null⟩ := (linkWords_le_iff pointers).mp past i inside k le_rfl
      rw [found, Option.elim_some, tree_null null]
  · rw [link_past (not_lt.mp inside), Option.elim_none]

end

end Message

end CapnpJanet
