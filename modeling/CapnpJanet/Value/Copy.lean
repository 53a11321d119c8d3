import CapnpJanet.Value.Alike
import CapnpJanet.Value.ReadBack

/-!
# A stored tree has the value of its source

The handle of a tree that was unfolded from a readable object, and is stored in
another message, is equal in value to the object.
-/

namespace CapnpJanet

open ByteMemory Paths

namespace Message

/-- Two null handles, or a readable handle and the handle of its stored tree. -/
def Twins (m m' : Message) (seg : Nat) (pair : Ptr × Ptr) : Prop :=
  pair.1.kind = .null ∧ pair.2.kind = .null ∨
    ∃ room slot pos, m.Readable room pair.1 ∧ (m.tree room pair.1).Stored m' seg slot pos ∧
      pair.2 = (m.tree room pair.1).handle seg slot pos

variable {m m' : Message} {p p' q q' : Ptr} {i k seg slot pos room cost cost' : Nat}

theorem link_of_null (null : p.kind = .null) : m.link p i k = none := by
  rw [link, form_of_null null]

theorem datum_of_null (null : p.kind = .null) : m.datum p i k = 0 := by
  rw [datum, form_of_null null]

theorem datum_packed (packed : p.form = .packed) : m.datum p i k = 0 := by
  rw [datum, packed]

/-- Only blocks have pointers. -/
theorem exists_shape (found : m.link p i k = some (q, cost)) :
    i < p.rows ∧ ∃ shape, p.form = .block shape := by
  have inside : i < p.rows := by
    by_contra outside
    rw [link_past (not_lt.mp outside)] at found
    cases found
  refine ⟨inside, ?_⟩
  unfold Ptr.rows at inside
  cases form : p.form with
  | block shape => exact ⟨shape, rfl⟩
  | _ =>
      rw [form] at inside
      exact absurd inside (Nat.not_lt_zero i)

section
variable {shape : Shape} (form : p.form = .block shape)
include form

/-- A stored copy of a block, written out. -/
theorem stored_block (stored : (m.tree (room + 1) p).Stored m' seg slot pos) :
    (Tree.block shape p.rows (m.dataWords p) (m.linkWords p) (m.datum p)
      (m.subtree room p)).Stored m' seg slot pos := by
  rwa [tree_block form] at stored

/-- The kept pointers of both blocks lead to an object and its copy. -/
theorem twins_of_kept (readable : m.Readable (room + 1) p)
    (stored : (m.tree (room + 1) p).Stored m' seg slot pos) (limit : m'.depthLimit ≠ 0)
    (hi : i < p.rows) (hk : k < m.linkWords p) :
    ∃ q cost q' cost', m.link p i k = some (q, cost) ∧
      m'.link ((m.tree (room + 1) p).handle seg slot pos) i k = some (q', cost') ∧
        Twins m m' seg (q, q') := by
  obtain ⟨q, cost, found, below⟩ := readable.2 i hi k hk
  have block := stored_block form stored
  have there := block.link limit hi hk
  have behind := block.behind hi hk
  rw [subtree_of_link found] at there behind
  rw [tree_block form]
  exact ⟨q, cost, _, _, found, there, .inr ⟨room, _, _, below, behind, rfl⟩⟩

/-- The other pointers of both blocks are null in both, or missing in both. -/
theorem twins_of_rest (stored : (m.tree (room + 1) p).Stored m' seg slot pos)
    (hi : i < p.rows) (notKept : ¬k < m.linkWords p) :
    (m.link p i k = none ∧ m'.link ((m.tree (room + 1) p).handle seg slot pos) i k = none) ∨
      ∃ q cost q' cost', m.link p i k = some (q, cost) ∧
        m'.link ((m.tree (room + 1) p).handle seg slot pos) i k = some (q', cost') ∧
          Twins m m' seg (q, q') := by
  have block := stored_block form stored
  rw [tree_block form]
  by_cases pointers : shape = .pointers
  · subst pointers
    have one : m.linkWords p = 1 := by rw [linkWords, form]
    left
    constructor
    · unfold link
      rw [form]
      exact if_neg fun within => by omega
    · unfold link
      rw [Tree.handle_form_block]
      exact if_neg fun within => by omega
  · have other : p.form ≠ .block .pointers := by
      rw [form]
      exact fun same => pointers (Form.block.inj same)
    obtain ⟨q, cost, found, null⟩ := (linkWords_le_iff other).mp (not_lt.mp notKept) i hi k le_rfl
    exact .inr ⟨q, cost, _, _, found, block.link_past pointers hi (not_lt.mp notKept),
      .inl ⟨null, rfl⟩⟩

end

/-- Twins that are not null are packed lists or blocks. -/
theorem Twins.cases (twins : Twins m m' seg (p, p')) :
    (p.kind = .null ∧ p'.kind = .null) ∨ ∃ room slot pos, m.Readable (room + 1) p ∧
      (m.tree (room + 1) p).Stored m' seg slot pos ∧
        p' = (m.tree (room + 1) p).handle seg slot pos ∧
          (p.form = .packed ∨ ∃ shape, p.form = .block shape) := by
  rcases twins with null | ⟨room, slot, pos, readable, stored, same⟩
  · exact .inl null
  · dsimp only at readable stored same
    cases room with
    | zero => exact readable.elim
    | succ room =>
        cases form : p.form with
        | null =>
            have null := (tree_eq_null_iff readable).mp (by rw [tree, form])
            rw [tree_null null] at same
            exact .inl ⟨null, by rw [same]; rfl⟩
        | cap => exact absurd form readable.1
        | packed => exact .inr ⟨room, slot, pos, readable, stored, same, .inl rfl⟩
        | block shape => exact .inr ⟨room, slot, pos, readable, stored, same, .inr ⟨shape, rfl⟩⟩

/-- What both pointers of a row lead to. -/
theorem Twins.next (twins : Twins m m' seg (p, p')) (limit : m'.depthLimit ≠ 0)
    (found : m.link p i k = some (q, cost)) (found' : m'.link p' i k = some (q', cost')) :
    Twins m m' seg (q, q') := by
  obtain ⟨hi, shape, form⟩ := exists_shape found
  rcases twins.cases with ⟨null, -⟩ | ⟨room, slot, pos, readable, stored, rfl, -⟩
  · rw [link_of_null null] at found
    cases found
  · have follow {r r' : Ptr} {price price' : Nat} (here : m.link p i k = some (r, price))
        (there : m'.link ((m.tree (room + 1) p).handle seg slot pos) i k = some (r', price'))
        (next : Twins m m' seg (r, r')) : Twins m m' seg (q, q') := by
      rw [found] at here
      rw [found'] at there
      cases here
      cases there
      exact next
    by_cases hk : k < m.linkWords p
    · obtain ⟨r, price, r', price', here, there, next⟩ :=
        twins_of_kept form readable stored limit hi hk
      exact follow here there next
    · rcases twins_of_rest form stored hi hk with ⟨none, -⟩ |
        ⟨r, price, r', price', here, there, next⟩
      · rw [found] at none
        cases none
      · exact follow here there next

/-- Both have the same pointers. -/
theorem Twins.links (twins : Twins m m' seg (p, p')) (limit : m'.depthLimit ≠ 0) (i k : Nat) :
    (m.link p i k).isSome = (m'.link p' i k).isSome := by
  rcases twins.cases with ⟨null, null'⟩ |
    ⟨room, slot, pos, readable, stored, rfl, form | ⟨shape, form⟩⟩
  · rw [link_of_null null, link_of_null null']
  · rw [link_packed form, link_packed]
    rw [tree_packed form] at stored ⊢
    exact Tree.handle_form_packed stored.proper _ _ _
  · by_cases hi : i < p.rows
    · by_cases hk : k < m.linkWords p
      · obtain ⟨r, price, r', price', here, there, -⟩ :=
          twins_of_kept form readable stored limit hi hk
        rw [here, there]
        rfl
      · rcases twins_of_rest form stored hi hk with ⟨here, there⟩ |
          ⟨r, price, r', price', here, there, -⟩
        · rw [here, there]
        · rw [here, there]
          rfl
    · rw [link_past (not_lt.mp hi), link_past]
      rw [tree_block form, (stored_block form stored).rows]
      exact not_lt.mp hi

/-- Both look the same. -/
theorem Twins.sameHere (twins : Twins m m' seg (p, p')) (limit : m'.depthLimit ≠ 0) :
    SameHere m m' (p, p') := by
  have links := twins.links limit
  rcases twins.cases with ⟨null, null'⟩ |
    ⟨room, slot, pos, readable, stored, rfl, form | ⟨shape, form⟩⟩
  · refine ⟨null.trans null'.symm, fun list => ?_, fun other => ?_, fun i j => ?_, links,
      fun packed => ?_⟩
    · cases null.symm.trans list
    · rcases other with list | cap
      · cases null.symm.trans list
      · cases null.symm.trans cap
    · exact (datum_of_null null).trans (datum_of_null null').symm
    · cases (form_of_null null).symm.trans packed
  · rw [tree_packed form] at stored links ⊢
    have form' := Tree.handle_form_packed stored.proper seg slot pos
    refine ⟨Ptr.form_eq_packed form |>.1, fun _ => rfl, fun _ => rfl, fun i j => ?_, links,
      fun _ b inside => ?_⟩
    · exact (datum_packed form).trans (datum_packed form').symm
    · dsimp only at inside ⊢
      have within : b / 8 < packedBytes p.esize p.count := by
        unfold packedBytes
        omega
      rw [listBit, listBit, stored.byte within, if_pos within]
  · have block := stored_block form stored
    rw [tree_block form] at links ⊢
    refine ⟨?_, ?_, ?_, fun i j => (block.datum i j).symm, links, fun packed => ?_⟩
    · cases shape with
      | struct => exact Ptr.form_eq_struct form
      | pointers => exact (Ptr.form_eq_pointers form).1
      | composite => exact (Ptr.form_eq_composite form).1
    · intro list
      cases shape with
      | struct => cases (Ptr.form_eq_struct form).symm.trans list
      | pointers => exact (Ptr.form_eq_pointers form).2
      | composite => exact (Ptr.form_eq_composite form).2
    · intro other
      cases shape with
      | struct =>
          have kind := Ptr.form_eq_struct form
          rcases other with list | cap
          · cases kind.symm.trans list
          · cases kind.symm.trans cap
      | pointers =>
          change p.count = p.rows
          rw [Ptr.rows, form]
      | composite =>
          change p.count = p.rows
          rw [Ptr.rows, form]
    · cases form.symm.trans packed

/-- A stored tree is equal in value to the object it was unfolded from. -/
theorem Twins.valueEq (twins : Twins m m' seg (p, p')) (limit : m'.depthLimit ≠ 0) :
    ValueEq m m' p p' := by
  refine Everywhere.of_invariant (Twins m m' seg) twins ?_ ?_
  · rintro ⟨r, r'⟩ ⟨q, q'⟩ here ⟨i, k, cost, cost', found, found'⟩
    exact here.next limit found found'
  · rintro ⟨r, r'⟩ here
    exact here.sameHere limit

end Message

end CapnpJanet
