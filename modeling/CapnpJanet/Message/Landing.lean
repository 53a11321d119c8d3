import CapnpJanet.Message.Getters
import CapnpJanet.Message.Target

/-!
# How well-formed pointers resolve

Pointers whose content lies inside its segment resolve to the object they
describe, at the price of its words: near structs, lists of each shape, and
single and double-far pointers to them.  What a writer has to leave in memory
for its pointers to be read back is stated here once.
-/

namespace CapnpJanet

open ByteMemory

namespace Message

variable {m : Message} {seg word w : Nat}

/-- Words of a segment have addresses. -/
theorem lt_of_words_le {i : Nat} (inside : i ≤ (m.seg seg).words) : i < 2 ^ 61 := by
  have fits := (m.seg seg).fits
  omega

/-- A near struct whose sections lie inside the segment. -/
theorem structTarget_eq {body : Nat} (bodyEq : (word : Int) + 1 + wpOffset w = body)
    (segLt : seg < m.nsegs)
    (inside : body + (wpStructDwords w + wpStructPwords w) ≤ (m.seg seg).words) :
    m.structTarget seg word w =
      some (structPtr seg body w, wpStructDwords w + wpStructPwords w) := by
  have addressed := lt_of_words_le inside
  unfold structTarget
  rw [bodyEq, sizeT_of_lt (by omega)]
  dsimp only [structPtr]
  have stopEq : sizeT ((body : Int) + wpStructDwords w + wpStructPwords w) =
      body + (wpStructDwords w + wpStructPwords w) := by
    rw [← sizeT_of_lt (n := body + (wpStructDwords w + wpStructPwords w)) (by omega)]
    congr 1
    omega
  rw [stopEq, if_neg]
  rintro ⟨some, outside⟩
  rcases outside with first | ⟨-, last⟩
  · exact first ⟨segLt, by omega⟩
  · exact last ⟨segLt, by omega⟩

/-- The handle and the price of a resolved struct pointer, wherever its content
lies. -/
theorem structTarget_out {priced : Ptr × Nat} (named : m.structTarget seg word w = some priced) :
    priced = (structPtr seg (sizeT (word + 1 + wpOffset w)) w,
      wpStructDwords w + wpStructPwords w) := by
  unfold structTarget at named
  dsimp only at named
  split at named
  · cases named
  · exact (Option.some.inj named).symm

/-- A packed or pointer list whose body lies inside the segment. -/
theorem primitiveTarget_eq {start : Nat}
    (inside : listBodyWords (wpListEsize w) (wpListCount w) ≠ 0 →
      seg < m.nsegs ∧ start + listBodyWords (wpListEsize w) (wpListCount w) ≤ (m.seg seg).words) :
    m.primitiveTarget seg start w =
      some (listPtr seg start w, listBodyWords (wpListEsize w) (wpListCount w)) := by
  unfold primitiveTarget
  dsimp only [listPtr]
  rw [if_neg]
  rintro ⟨some, last⟩
  obtain ⟨segLt, within⟩ := inside some
  have addressed := lt_of_words_le within
  apply last
  have lastEq : sizeT ((start : Int) + listBodyWords (wpListEsize w) (wpListCount w) - 1) =
      start + listBodyWords (wpListEsize w) (wpListCount w) - 1 := by
    rw [← sizeT_of_lt (n := start + listBodyWords (wpListEsize w) (wpListCount w) - 1) (by omega)]
    congr 1
    omega
  rw [lastEq]
  exact ⟨segLt, by omega⟩

/-- A composite list whose tag and elements lie inside the segment. -/
theorem compositeTarget_eq {start tag : Nat} (segLt : seg < m.nsegs)
    (tagEq : m.readWord seg start = tag)
    (inside : start + 1 + tagCount tag * (wpStructDwords tag + wpStructPwords tag) ≤
      (m.seg seg).words) :
    m.compositeTarget seg start =
      some (compositePtr seg start tag,
        tagCount tag * (wpStructDwords tag + wpStructPwords tag) + 1) := by
  have addressed := lt_of_words_le inside
  have firstEq : sizeT ((start : Int) + 1) = start + 1 := sizeT_of_lt (n := start + 1) (by omega)
  have samePtr : { compositePtr seg start tag with word := start + 1 } =
      compositePtr seg start tag := rfl
  have tagIn : m.InSegment seg start := ⟨segLt, by omega⟩
  unfold compositeTarget
  rw [if_neg (not_not.mpr tagIn), tagEq, firstEq, samePtr]
  have needEq : (compositePtr seg start tag).count * (compositePtr seg start tag).stepWords =
      tagCount tag * (wpStructDwords tag + wpStructPwords tag) := rfl
  dsimp only
  rw [needEq]
  obtain ⟨need, sized⟩ : ∃ need, tagCount tag * (wpStructDwords tag + wpStructPwords tag) = need :=
    ⟨_, rfl⟩
  rw [sized] at addressed inside ⊢
  rw [if_neg]
  rintro ⟨some, last⟩
  apply last
  have lastEq : sizeT (((start + 1 : Nat) : Int) + need - 1) = start + 1 + need - 1 := by
    rw [← sizeT_of_lt (n := start + 1 + need - 1) (by omega)]
    congr 1
    omega
  change m.InSegment seg (sizeT (((start + 1 : Nat) : Int) + need - 1))
  rw [lastEq]
  exact ⟨segLt, by omega⟩

/-- A pointer that is not a far pointer. -/
theorem target_near {depth : Nat} (notNull : w ≠ 0) (near : wpKind w ≠ .far) :
    m.target (depth + 1) seg word w =
      match wpKind w with
      | .struct => m.structTarget seg word w
      | .list => m.listTarget seg word w
      | _ => some (capPtr seg word w, 0) := by
  rw [target, if_neg notNull]
  cases kind : wpKind w with
  | far => exact absurd kind near
  | struct => rfl
  | list => rfl
  | cap => rfl

/-- The pointer in a slot. -/
theorem slotTarget_eq {depth : Nat} (inUse : m.InSegment seg word)
    (reads : m.readWord seg word = w) {p : Ptr} {price : Nat}
    (resolves : m.target depth seg word w = some (p, price)) :
    m.slotTarget depth seg word = some (p, price + 1) := by
  rw [slotTarget, if_neg (not_not.mpr inUse), reads, resolves]
  rfl

/-- A read whose price is covered. -/
theorem resolvePtr_eq {depth left price : Nat} {out p : Ptr}
    (resolves : m.slotTarget depth seg word = some (p, price)) (covered : price ≤ left) :
    m.resolvePtr seg word depth out left = ⟨.ok, p, left - price⟩ :=
  (m.resolvePtr_agrees seg word depth out left).covered p price resolves covered

/-! ## Pointers that were made from their fields -/

/-- A struct handle with its sections at `body`. -/
def structAt (seg body dwords pwords : Nat) : Ptr :=
  { Ptr.zero with seg := seg, word := body, kind := .struct, dwords := dwords, pwords := pwords }

theorem structPtr_make {off : Int} {dwords pwords : Nat} (dwordsLt : dwords < 2 ^ 16)
    (pwordsLt : pwords < 2 ^ 16) (body : Nat) :
    structPtr seg body (wpMakeStruct off dwords pwords) = structAt seg body dwords pwords := by
  simp only [structPtr, structAt, wpStructDwords_makeStruct, wpStructPwords_makeStruct,
    Nat.mod_eq_of_lt dwordsLt, Nat.mod_eq_of_lt pwordsLt]

/-- Reading a slot that holds a near struct pointer. -/
theorem slotTarget_struct {depth body dwords pwords : Nat} {off : Int} (limit : depth ≠ 0)
    (segLt : seg < m.nsegs) (reads : m.readWord seg word = wpMakeStruct off dwords pwords)
    (notNull : wpMakeStruct off dwords pwords ≠ 0) (fits : OffsetFits off)
    (dwordsLt : dwords < 2 ^ 16) (pwordsLt : pwords < 2 ^ 16) (bodyEq : (word : Int) + 1 + off = body)
    (slotIn : word < (m.seg seg).words) (inside : body + (dwords + pwords) ≤ (m.seg seg).words) :
    m.slotTarget depth seg word = some (structAt seg body dwords pwords, dwords + pwords + 1) := by
  obtain ⟨depth, rfl⟩ := Nat.exists_eq_succ_of_ne_zero limit
  apply slotTarget_eq ⟨segLt, slotIn⟩ reads
  rw [target_near notNull (by simp)]
  simp only [wpKind_makeStruct]
  have sizes : wpStructDwords (wpMakeStruct off dwords pwords) +
      wpStructPwords (wpMakeStruct off dwords pwords) = dwords + pwords := by
    rw [wpStructDwords_makeStruct, wpStructPwords_makeStruct, Nat.mod_eq_of_lt dwordsLt,
      Nat.mod_eq_of_lt pwordsLt]
  rw [structTarget_eq (by rw [wpOffset_makeStruct _ _ fits]; exact bodyEq) segLt
    (by rwa [sizes]), structPtr_make dwordsLt pwordsLt, sizes]

/-- Reading a slot that holds a capability pointer. -/
theorem slotTarget_cap {depth capIndex : Nat} (limit : depth ≠ 0) (segLt : seg < m.nsegs)
    (reads : m.readWord seg word = wpMakeCap capIndex) (slotIn : word < (m.seg seg).words) :
    m.slotTarget depth seg word = some (capPtr seg word (wpMakeCap capIndex), 1) := by
  obtain ⟨depth, rfl⟩ := Nat.exists_eq_succ_of_ne_zero limit
  apply slotTarget_eq ⟨segLt, slotIn⟩ reads
  have notNull : wpMakeCap capIndex ≠ 0 := by
    unfold wpMakeCap
    omega
  rw [target_near notNull (by simp)]
  simp only [wpKind_makeCap]

/-- Field reads of a struct handle. -/
theorem getp_structAt {body dwords pwords k left : Nat} {out : Ptr} (hk : k < pwords)
    (small : body + dwords + k < 2 ^ 64) :
    m.getp (structAt seg body dwords pwords) k out left =
      m.resolvePtr seg (body + dwords + k) m.depthLimit out left := by
  have inside : ¬k ≥ pwords := not_le.mpr hk
  unfold getp
  simp only [structAt, ne_eq, not_true_eq_false, if_false, inside]
  congr 1
  exact sizeT_of_lt (n := body + dwords + k) small

theorem getScalar_structAt {width body dwords pwords byteOffset dflt : Nat}
    (inside : byteOffset + width ≤ dwords * 8) :
    m.getScalar width (structAt seg body dwords pwords) byteOffset dflt =
      loadLe width (m.seg seg).data (body * 8 + byteOffset) := by
  unfold getScalar
  rw [if_pos]
  · simp [dataBytes, structAt, Ptr.zero]
  · simp only [dataHasBytes, structAt, dataBitCount, Ptr.zero]
    simp
    omega

end Message

end CapnpJanet
