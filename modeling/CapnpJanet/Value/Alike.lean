import CapnpJanet.Logic.Everywhere
import CapnpJanet.Value.View

/-!
# Equal values in two messages

Two handles hold equal values when the same paths lead to objects that look the
same: equal kinds, element sizes and counts, equal data words after zero
extension, and pointers in the same places after null extension.  The bits that
pad the last byte of a packed list are not part of the value.
-/

namespace CapnpJanet

open ByteMemory Finset Paths

namespace Message

/-- One step of a path in both messages: the objects behind the same pointer of
the same row. -/
def Follows (m m' : Message) (pair next : Ptr × Ptr) : Prop :=
  ∃ i k cost cost', m.link pair.1 i k = some (next.1, cost) ∧
    m'.link pair.2 i k = some (next.2, cost')

/-- Two objects look the same, as far as they reach themselves. -/
structure SameHere (m m' : Message) (pair : Ptr × Ptr) : Prop where
  kind : pair.1.kind = pair.2.kind
  esize : pair.1.kind = .list → pair.1.esize = pair.2.esize
  count : pair.1.kind = .list ∨ pair.1.kind = .cap → pair.1.count = pair.2.count
  data : ∀ i j, m.datum pair.1 i j = m'.datum pair.2 i j
  links : ∀ i k, (m.link pair.1 i k).isSome = (m'.link pair.2 i k).isSome
  bits : pair.1.form = .packed → ∀ b < pair.1.count * pair.1.esize.bits,
    m.listBit pair.1 b = m'.listBit pair.2 b

/-- Two handles hold equal values. -/
def ValueEq (m m' : Message) (p p' : Ptr) : Prop :=
  Everywhere (Follows m m') (SameHere m m') (p, p')

/-- The last bytes of two packed lists are padded alike. -/
def PadsAlike (m m' : Message) (pair : Ptr × Ptr) : Prop :=
  pair.1.form = .packed → ∀ b, pair.1.count * pair.1.esize.bits ≤ b →
    b < 8 * packedBytes pair.1.esize pair.1.count → m.listBit pair.1 b = m'.listBit pair.2 b

/-- The packed lists on the same paths are padded alike. -/
def PaddingEq (m m' : Message) (p p' : Ptr) : Prop :=
  Everywhere (Follows m m') (PadsAlike m m') (p, p')

section
variable {m m' : Message} {p p' q q' : Ptr} {i k cost cost' : Nat}

theorem SameHere.form_eq {pair : Ptr × Ptr} (same : SameHere m m' pair) :
    pair.1.form = pair.2.form := by
  obtain ⟨kind, esize, -⟩ := same
  unfold Ptr.form
  rw [← kind]
  cases kindEq : pair.1.kind with
  | list =>
      dsimp only
      rw [esize kindEq]
  | _ => rfl

namespace ValueEq

theorem form_eq (same : ValueEq m m' p p') : p.form = p'.form := same.here.form_eq

theorem kind_of_packed (packed : p.form = .packed) : p.kind = .list := by
  unfold Ptr.form at packed
  cases kindEq : p.kind with
  | list => rfl
  | _ =>
      rw [kindEq] at packed
      cases packed

theorem kind_of_lists {shape : Shape} (form : p.form = .block shape) (other : shape ≠ .struct) :
    p.kind = .list := by
  unfold Ptr.form at form
  cases kindEq : p.kind with
  | list => rfl
  | struct =>
      rw [kindEq] at form
      cases form
      exact absurd rfl other
  | _ =>
      rw [kindEq] at form
      cases form

theorem rows_eq (same : ValueEq m m' p p') : p.rows = p'.rows := by
  unfold Ptr.rows
  rw [← same.form_eq]
  cases form : p.form with
  | block shape =>
      cases shape with
      | struct => rfl
      | pointers => exact same.here.count (.inl (kind_of_lists form (by decide)))
      | composite => exact same.here.count (.inl (kind_of_lists form (by decide)))
  | _ => rfl

theorem link (same : ValueEq m m' p p') (found : m.link p i k = some (q, cost))
    (found' : m'.link p' i k = some (q', cost')) : ValueEq m m' q q' :=
  same.next ⟨i, k, cost, cost', found, found'⟩

/-- A pointer that can be followed in one message can be followed in the other. -/
theorem exists_link (same : ValueEq m m' p p') (found : m.link p i k = some (q, cost)) :
    ∃ q' cost', m'.link p' i k = some (q', cost') ∧ ValueEq m m' q q' := by
  have there := same.here.links i k
  dsimp only at there
  rw [found] at there
  obtain ⟨⟨q', cost'⟩, found'⟩ := Option.isSome_iff_exists.mp there.symm
  exact ⟨q', cost', found', same.link found found'⟩

theorem link_none (same : ValueEq m m' p p') (none : m.link p i k = none) :
    m'.link p' i k = .none := by
  have there := same.here.links i k
  dsimp only at there
  rwa [none, Option.isSome_none, eq_comm, Option.isSome_eq_false_iff,
    Option.isNone_iff_eq_none] at there

theorem symm (same : ValueEq m m' p p') : ValueEq m' m p' p := by
  refine Everywhere.of_invariant (fun pair => ValueEq m m' pair.2 pair.1) same ?_ ?_
  · rintro ⟨r', r⟩ ⟨q', q⟩ here ⟨i, k, cost', cost, found', found⟩
    exact here.link found found'
  · rintro ⟨r', r⟩ here
    have form := here.form_eq
    obtain ⟨kind, esize, count, data, links, bits⟩ := here.here
    dsimp only at kind esize count data links bits form ⊢
    refine ⟨kind.symm, fun list => (esize (kind.trans list)).symm, fun some => ?_,
      fun i j => (data i j).symm, fun i k => (links i k).symm, fun packed b hb => ?_⟩
    · exact (count (by rwa [kind])).symm
    · have list := kind_of_packed (form.trans packed)
      refine (bits (form.trans packed) b ?_).symm
      rwa [esize list, count (.inl list)]

theorem nil_iff (same : ValueEq m m' p p') : m.Nil p i k ↔ m'.Nil p' i k := by
  have forward {m m' : Message} {p p' : Ptr} (same : ValueEq m m' p p')
      (null : m.Nil p i k) : m'.Nil p' i k := by
    obtain ⟨q, cost, found, null⟩ := null
    obtain ⟨q', cost', found', below⟩ := same.exists_link found
    exact ⟨q', cost', found', below.here.kind.symm.trans null⟩
  exact ⟨forward same, forward same.symm⟩

theorem dataWords_eq (same : ValueEq m m' p p') : m.dataWords p = m'.dataWords p' := by
  refine eq_of_forall_ge_iff fun x => ?_
  rw [dataWords_le_iff, dataWords_le_iff]
  exact forall_congr' fun i => forall_congr' fun j => by rw [same.here.data i j]

theorem linkWords_eq (same : ValueEq m m' p p') : m.linkWords p = m'.linkWords p' := by
  have form := same.form_eq
  by_cases pointers : p.form = .block .pointers
  · unfold linkWords
    rw [← form, pointers]
  · refine eq_of_forall_ge_iff fun x => ?_
    rw [linkWords_le_iff pointers, linkWords_le_iff (form ▸ pointers), same.rows_eq]
    refine forall₄_congr fun i _ k _ => same.nil_iff

/-- What holds of the trees of equal values holds of the trees behind their
pointers. -/
theorem subtree_of_tree (same : ValueEq m m' p p') (R : Tree → Tree → Prop) (room : Nat)
    (null : R .null .null)
    (below : ∀ q q', ValueEq m m' q q' → R (m.tree room q) (m'.tree room q')) (i k : Nat) :
    R (m.subtree room p i k) (m'.subtree room p' i k) := by
  cases found : m.link p i k with
  | none => rwa [subtree_of_none found, subtree_of_none (same.link_none found)]
  | some priced =>
      obtain ⟨q, cost⟩ := priced
      obtain ⟨q', cost', found', next⟩ := same.exists_link found
      rw [subtree_of_link found, subtree_of_link found']
      exact below q q' next

/-- Equal values take equally many words. -/
theorem size_eq (same : ValueEq m m' p p') (room : Nat) :
    (m.tree room p).size = (m'.tree room p').size := by
  induction room generalizing p p' with
  | zero => rfl
  | succ room ih =>
      have form := same.form_eq
      cases formEq : p.form with
      | null => rw [tree, tree, ← form, formEq]
      | cap => rw [tree, tree, ← form, formEq]
      | packed =>
          have list := kind_of_packed formEq
          rw [tree_packed formEq, tree_packed (form ▸ formEq), Tree.size, Tree.size]
          have esize : p.esize = p'.esize := same.here.esize list
          have count : p.count = p'.count := same.here.count (.inl list)
          rw [esize, count]
      | block shape =>
          rw [tree_block formEq, tree_block (form ▸ formEq), Tree.size, Tree.size, same.rows_eq,
            same.dataWords_eq, same.linkWords_eq]
          congr 1
          refine sum_congr rfl fun i _ => sum_congr rfl fun k _ => ?_
          exact same.subtree_of_tree (fun t t' => t.size = t'.size) room rfl
            (fun q q' next => ih next) i k

end ValueEq

/-! ## Padding -/

/-- Eight equal bits are equal bytes. -/
theorem byte_eq_of_bits {x y : UInt8}
    (bits : ∀ k < 8, (x.toNat / 2 ^ k % 2 == 1) = (y.toNat / 2 ^ k % 2 == 1)) : x = y := by
  apply UInt8.toNat_inj.mp
  apply Nat.eq_of_testBit_eq
  intro k
  by_cases small : k < 8
  · have bit := bits k small
    rw [Nat.testBit_eq_decide_div_mod_eq, Nat.testBit_eq_decide_div_mod_eq]
    simpa [Nat.beq_eq_true_eq] using bit
  · have large : 2 ^ 8 ≤ 2 ^ k := Nat.pow_le_pow_right (by decide) (not_lt.mp small)
    rw [Nat.testBit_lt_two_pow (x.toNat_lt.trans_le large),
      Nat.testBit_lt_two_pow (y.toNat_lt.trans_le large)]

theorem listByte_eq_iff {b : Nat} : m.listByte p b = m'.listByte p' b ↔
    ∀ k < 8, m.listBit p (8 * b + k) = m'.listBit p' (8 * b + k) := by
  have at' (k : Nat) (small : k < 8) : (8 * b + k) / 8 = b ∧ (8 * b + k) % 8 = k := by omega
  constructor
  · intro same k small
    rw [listBit, listBit, (at' k small).1, same]
  · intro bits
    refine byte_eq_of_bits fun k small => ?_
    have bit := bits k small
    rwa [listBit, listBit, (at' k small).1, (at' k small).2] at bit

/-- Equal values with equal padding have the same tree. -/
theorem tree_eq (same : ValueEq m m' p p') (padding : PaddingEq m m' p p') (room : Nat) :
    m.tree room p = m'.tree room p' := by
  induction room generalizing p p' with
  | zero => rfl
  | succ room ih =>
      have form := same.form_eq
      cases formEq : p.form with
      | null => rw [tree, tree, ← form, formEq]
      | cap => rw [tree, tree, ← form, formEq]
      | packed =>
          have list := ValueEq.kind_of_packed formEq
          have esize : p.esize = p'.esize := same.here.esize list
          have count : p.count = p'.count := same.here.count (.inl list)
          rw [tree_packed formEq, tree_packed (form ▸ formEq), ← esize, ← count]
          congr 1
          funext b
          split
          · next inside =>
            refine listByte_eq_iff.mpr fun k small => ?_
            by_cases value : 8 * b + k < p.count * p.esize.bits
            · exact same.here.bits formEq _ value
            · exact padding.here formEq _ (not_lt.mp value) (by dsimp only; omega)
          · rfl
      | block shape =>
          rw [tree_block formEq, tree_block (form ▸ formEq), same.rows_eq, same.dataWords_eq,
            same.linkWords_eq]
          congr 1
          · funext i j
            exact same.here.data i j
          · funext i k
            cases found : m.link p i k with
            | none => rw [subtree_of_none found, subtree_of_none (same.link_none found)]
            | some priced =>
                obtain ⟨q, cost⟩ := priced
                obtain ⟨q', cost', found', below⟩ := same.exists_link found
                rw [subtree_of_link found, subtree_of_link found']
                exact ih below (padding.next ⟨i, k, cost, cost', found, found'⟩)

end

end Message

end CapnpJanet
