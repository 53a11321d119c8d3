import CapnpJanet.Message.Bounds
import CapnpJanet.Value.Measure
import CapnpJanet.Value.View

/-!
# The trees of handles

The handles that pointers lead to have sizes that fit the fields of a pointer
word, so their trees are proper.  A tree is as narrow as it can be, because
trailing zero words and null pointers were left out.
-/

namespace CapnpJanet

open Finset

/-- The fields of a handle that a pointer led to: sizes in their ranges, a data
section of whole words, and elements at addresses. -/
structure Ptr.Sound (p : Ptr) : Prop where
  dwords : p.dwords < 2 ^ 16
  pwords : p.pwords < 2 ^ 16
  count : p.form = .packed ∨ p.form = .block .pointers → p.count < 2 ^ 29
  tagged : p.form = .block .composite → ∃ tag, p.count = tagCount tag
  plain : p.dataBits = 0 ∧ p.bodyByte = 0
  addressed : p.form = .block .composite → p.word + p.count * p.stepWords < 2 ^ 64

namespace Message

variable {m : Message} {p q : Ptr} {i k room : Nat}

/-! ## Sizes -/

theorem sound_nullPtr (seg word : Nat) : (nullPtr seg word).Sound :=
  ⟨Nat.two_pow_pos 16, Nat.two_pow_pos 16, fun list => list.elim nofun nofun, nofun, ⟨rfl, rfl⟩,
    nofun⟩

theorem sound_capPtr (seg word w : Nat) : (capPtr seg word w).Sound :=
  ⟨Nat.two_pow_pos 16, Nat.two_pow_pos 16, fun list => list.elim nofun nofun, nofun, ⟨rfl, rfl⟩,
    nofun⟩

theorem sound_structPtr (seg body w : Nat) : (structPtr seg body w).Sound :=
  ⟨wpStructDwords_lt w, wpStructPwords_lt w, fun list => list.elim nofun nofun, nofun, ⟨rfl, rfl⟩,
    nofun⟩

theorem sound_listPtr {w : Nat} (plain : wpListEsize w ≠ .composite) (seg start : Nat) :
    (listPtr seg start w).Sound := by
  refine ⟨Nat.two_pow_pos 16, Nat.two_pow_pos 16, fun _ => wpListCount_lt w, fun composite => ?_,
    ⟨rfl, rfl⟩, fun composite => ?_⟩
  all_goals exact absurd (Ptr.form_eq_composite composite).2 plain

theorem sound_compositePtr {start : Nat} (small : start < 2 ^ 61) (seg tag : Nat) :
    (compositePtr seg start tag).Sound := by
  refine ⟨wpStructDwords_lt tag, wpStructPwords_lt tag, fun list => list.elim nofun nofun,
    fun _ => ⟨tag, rfl⟩, ⟨rfl, rfl⟩, fun _ => ?_⟩
  have need := compositeNeed_lt tag
  change start + 1 + tagCount tag * (wpStructDwords tag + wpStructPwords tag) < 2 ^ 64
  omega

theorem target_sound {depth seg word w cost : Nat}
    (named : m.target depth seg word w = some (q, cost)) : q.Sound := by
  induction depth generalizing seg word w q cost with
  | zero => cases named
  | succ depth ih =>
      rw [target] at named
      split at named
      · cases named
        exact sound_nullPtr seg word
      · cases kind : wpKind w with
        | struct =>
            rw [kind] at named
            dsimp only at named
            unfold structTarget at named
            dsimp only at named
            split at named
            · cases named
            · cases named
              exact sound_structPtr seg _ w
        | list =>
            rw [kind] at named
            dsimp only at named
            unfold listTarget at named
            dsimp only at named
            split at named
            · unfold compositeTarget at named
              dsimp only at named
              split at named
              · cases named
              · next tagIn =>
                have small := (not_not.mp tagIn).lt
                have wordEq := sizeT_of_lt (n := sizeT (word + 1 + wpOffset w) + 1) (by omega)
                rw [Nat.cast_add, Nat.cast_one] at wordEq
                split at named
                · cases named
                · cases named
                  rw [wordEq]
                  exact sound_compositePtr small seg _
            · next plain =>
              unfold primitiveTarget at named
              dsimp only at named
              split at named
              · cases named
              · cases named
                exact sound_listPtr plain seg _
        | cap =>
            rw [kind] at named
            cases named
            exact sound_capPtr seg word w
        | far =>
            rw [kind] at named
            dsimp only at named
            split at named
            · unfold doubleFarTarget at named
              split at named
              · cases named
              · obtain ⟨⟨r, price⟩, atPad, same⟩ := Option.map_eq_some_iff.mp named
                cases same
                unfold padTarget at atPad
                dsimp only at atPad
                split at atPad
                · cases atPad
                · split at atPad
                  · cases atPad
                    exact sound_structPtr _ _ _
                  · split at atPad
                    · split at atPad
                      · cases atPad
                      · cases atPad
                        have small : wpFarOff (m.readWord (wpFarSeg w) (wpFarOff w)) < 2 ^ 29 :=
                          Nat.mod_lt _ (by norm_num)
                        exact sound_compositePtr (by omega) _ _
                    · next plain =>
                      cases atPad
                      exact sound_listPtr plain _ _
                  · cases atPad
            · split at named
              · cases named
              · obtain ⟨⟨r, price⟩, atPad, same⟩ := Option.map_eq_some_iff.mp named
                cases same
                exact ih atPad

theorem slotTarget_sound {depth seg word cost : Nat}
    (named : m.slotTarget depth seg word = some (q, cost)) : q.Sound := by
  unfold slotTarget at named
  split at named
  · cases named
  · obtain ⟨⟨r, price⟩, there, same⟩ := Option.map_eq_some_iff.mp named
    cases same
    exact target_sound there

theorem fieldTarget_sound {cost : Nat} (named : m.fieldTarget p k = some (q, cost)) : q.Sound := by
  unfold fieldTarget at named
  split at named
  · cases named
    exact sound_nullPtr _ _
  · exact slotTarget_sound named

/-- What a pointer of an object leads to. -/
theorem link_sound {cost : Nat} (found : m.link p i k = some (q, cost)) : q.Sound := by
  unfold link at found
  split at found
  · split at found
    · exact fieldTarget_sound found
    · cases found
  · split at found
    · exact fieldTarget_sound found
    · cases found
  · split at found
    · exact slotTarget_sound found
    · cases found
  · cases found

theorem wpOffset_fits (w : Nat) : OffsetFits (wpOffset w) := by
  have small : w / 4 % 2 ^ 30 < 2 ^ 30 := Nat.mod_lt _ (by norm_num)
  unfold wpOffset OffsetFits
  dsimp only
  split <;> omega

/-- The count that a tag word carries can be written to a tag word again. -/
theorem tagCount_makeStruct (tag nd np : Nat) :
    tagCount (wpMakeStruct (tagCount tag) nd np) = tagCount tag := by
  have field : wpMakeStruct (tagCount tag) nd np / 4 % 2 ^ 30 = offsetField (wpOffset tag) := by
    rw [offsetField_makeStruct]
    unfold offsetField tagCount
    omega
  have offset := wpOffset_of_field field (wpOffset_fits tag)
  calc tagCount (wpMakeStruct (tagCount tag) nd np)
      = (wpOffset (wpMakeStruct (tagCount tag) nd np) % 2 ^ 32).toNat := rfl
    _ = tagCount tag := by rw [offset, tagCount]

/-! ## Sections -/

theorem dataWords_le : m.dataWords p ≤ p.dwords := by
  unfold dataWords
  split
  · exact m.trimmedDwords_le p _
  · exact Finset.sup_le fun i _ => m.trimmedDwords_le _ _
  · exact Nat.zero_le _

theorem linkWords_le (other : p.form ≠ .block .pointers) : m.linkWords p ≤ p.pwords := by
  unfold linkWords
  split
  · exact m.usedPointers_le p _
  · exact Finset.sup_le fun i _ => m.usedPointers_le _ _
  · next pointers => exact absurd pointers other
  · exact Nat.zero_le _

theorem sizes_of_sound {shape : Shape} (sound : p.Sound) (form : p.form = .block shape) :
    shape.Sizes p.rows (m.dataWords p) (m.linkWords p) := by
  have narrow : m.dataWords p < 2 ^ 16 := dataWords_le.trans_lt sound.dwords
  cases shape with
  | struct =>
      refine ⟨?_, narrow, (linkWords_le ?_).trans_lt sound.pwords⟩
      · rw [Ptr.rows, form]
      · rw [form]
        decide
  | pointers =>
      refine ⟨?_, ?_, ?_⟩
      · rw [Ptr.rows, form]
        exact sound.count (.inr form)
      · rw [dataWords, form]
      · rw [linkWords, form]
  | composite =>
      refine ⟨?_, narrow, (linkWords_le ?_).trans_lt sound.pwords⟩
      · obtain ⟨tag, count⟩ := sound.tagged form
        rw [Ptr.rows, form]
        dsimp only
        rw [count]
        exact tagCount_makeStruct tag _ _
      · rw [form]
        decide

theorem datum_past {j : Nat} (past : p.rows ≤ i ∨ m.dataWords p ≤ j) : m.datum p i j = 0 :=
  past.elim (fun row => datum_past_rows row j) fun column => dataWords_le_iff.mp le_rfl i j column

/-! ## Trees -/

/-- A block fits the fields of pointer words if its sizes do, and the trees behind
its pointers fit. -/
theorem tree_block_proper {shape : Shape} (form : p.form = .block shape)
    (sizes : shape.Sizes p.rows (m.dataWords p) (m.linkWords p))
    (below : ∀ i k q cost, m.link p i k = some (q, cost) → (m.tree room q).Proper) :
    (m.tree (room + 1) p).Proper := by
  rw [tree_block form]
  refine ⟨sizes, fun i j => datum_past, fun i k past => ?_, fun i k => ?_⟩
  · rcases past with row | column
    · exact subtree_of_none (link_past row k)
    · exact subtree_past column
  · cases found : m.link p i k with
    | none =>
        rw [subtree_of_none found]
        trivial
    | some priced =>
        rw [subtree_of_link found]
        exact below i k _ _ found

/-- The tree of a handle fits the fields of pointer words. -/
theorem tree_proper (sound : p.Sound) (room : Nat) : (m.tree room p).Proper := by
  induction room generalizing p with
  | zero => trivial
  | succ room ih =>
      cases form : p.form with
      | null =>
          rw [tree, form]
          trivial
      | cap =>
          rw [tree, form]
          trivial
      | packed =>
          rw [tree_packed form]
          obtain ⟨-, notPtr, notComposite⟩ := Ptr.form_eq_packed form
          exact ⟨notPtr, notComposite, sound.count (.inl form), fun b past =>
            if_neg (not_lt.mpr past)⟩
      | block shape =>
          exact tree_block_proper form (sizes_of_sound sound form) fun _ _ _ _ found =>
            ih (link_sound found)

/-- Only null has the empty tree. -/
theorem tree_eq_null_iff (readable : m.Readable room p) :
    m.tree room p = .null ↔ p.kind = .null := by
  refine ⟨fun empty => ?_, tree_null⟩
  cases room with
  | zero => exact readable.elim
  | succ room =>
      cases form : p.form with
      | null =>
          unfold Ptr.form at form
          cases kind : p.kind with
          | null => rfl
          | list =>
              rw [kind] at form
              cases esize : p.esize <;> simp [esize] at form
          | _ => simp [kind] at form
      | cap => exact absurd form readable.1
      | packed =>
          rw [tree_packed form] at empty
          cases empty
      | block shape =>
          rw [tree_block form] at empty
          cases empty

/-- The tree of a handle cannot be made narrower. -/
theorem tree_trimmed (readable : m.Readable room p) : (m.tree room p).Trimmed := by
  induction room generalizing p with
  | zero => trivial
  | succ room ih =>
      cases form : p.form with
      | null =>
          rw [tree, form]
          trivial
      | cap =>
          rw [tree, form]
          trivial
      | packed =>
          rw [tree_packed form]
          trivial
      | block shape =>
          rw [tree_block form]
          refine ⟨fun other => ⟨exists_datum, fun some => ?_⟩, fun i hi k hk => ?_⟩
          · have notPointers : p.form ≠ .block .pointers := by
              rw [form]
              exact fun same => other (Form.block.inj same)
            obtain ⟨i, hi, notNil⟩ := exists_link notPointers some
            obtain ⟨q, cost, found, below⟩ := readable.2 i hi (m.linkWords p - 1) (by omega)
            refine ⟨i, hi, fun empty => notNil ⟨q, cost, found, ?_⟩⟩
            rw [subtree_of_link found] at empty
            exact (tree_eq_null_iff below).mp empty
          · obtain ⟨q, cost, found, below⟩ := readable.2 i hi k hk
            rw [subtree_of_link found]
            exact ih below

theorem tree_within (readable : m.Readable room p) : (m.tree room p).Within room := by
  induction room generalizing p with
  | zero => exact readable.elim
  | succ room ih =>
      cases form : p.form with
      | null =>
          rw [tree, form]
          trivial
      | cap =>
          rw [tree, form]
          trivial
      | packed =>
          rw [tree_packed form]
          trivial
      | block shape =>
          rw [tree_block form]
          intro i hi k hk
          obtain ⟨q, cost, found, below⟩ := readable.2 i hi k hk
          rw [subtree_of_link found]
          exact ih below

end Message

end CapnpJanet
