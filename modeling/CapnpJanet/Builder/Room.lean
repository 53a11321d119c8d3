import CapnpJanet.Builder.Doubling
import CapnpJanet.Logic.Abreast

/-!
# Room in a builder without limits

A builder without limits of its own has room for everything up to the size of the
largest segment, and for nothing above that.  So whether an operation succeeds depends
on its arguments, and not on what else is in the builder.
-/

namespace CapnpJanet

open ByteMemory Outcome

namespace Builder

section
variable {b b' : Builder}

theorem Unlimited.limWords_eq (unlimited : Unlimited b) : b.limWords = builderMaxSegmentWords :=
  unlimited.free.limWords_eq

theorem Unlimited.allocWords_refused (unlimited : Unlimited b) {n : Nat}
    (large : builderMaxSegmentWords < n) : allocWords n b = .error .alloc b := by
  have some := unlimited.wf.nonempty
  unfold allocWords
  dsimp only
  rw [if_neg (by omega), unlimited.limWords_eq, if_pos large]

theorem slot_of_used {body : BPtr} {dwords ptrIndex : Nat}
    (inUse : b.Used body.seg (body.word + dwords + ptrIndex)) :
    slot body dwords ptrIndex b = .ok ⟨body.seg, body.word + dwords + ptrIndex⟩ b :=
  if_neg (not_le.mpr inUse)

theorem withSlot_of_used {body : BPtr} {dwords ptrIndex : Nat} {write : Nat → Nat → BuildM Unit}
    (inUse : b.Used body.seg (body.word + dwords + ptrIndex)) :
    withSlot body dwords ptrIndex write b =
      write body.seg (body.word + dwords + ptrIndex) b := by
  unfold withSlot
  rw [slot_of_used inUse]

/-- Without limits, whether there is room for a list depends on its size alone. -/
theorem writeListBody_abreast (unlimited : Unlimited b) (unlimited' : Unlimited b')
    (seg seg' word word' : Nat) (esize : ElemSize) (count nbytes : Nat)
    (fill fill' : Memory → Nat → Memory) :
    Abreast (fun _ _ => True) (writeListBody seg word esize count nbytes fill b)
      (writeListBody seg' word' esize count nbytes fill' b') := by
  unfold writeListBody writeListPtr
  dsimp only
  by_cases some : wordsFor nbytes ≠ 0
  · rw [if_pos some, if_pos some]
    by_cases small : wordsFor nbytes ≤ builderMaxSegmentWords
    · obtain ⟨s, w, b₁, found⟩ := unlimited.allocWords_total small
      obtain ⟨s', w', b₁', found'⟩ := unlimited'.allocWords_total small
      rw [found, found']
      obtain ⟨b₂, written⟩ := writePtr_total (fun off => wpMakeList off esize count) seg word s w _
      obtain ⟨b₂', written'⟩ :=
        writePtr_total (fun off => wpMakeList off esize count) seg' word' s' w' _
      exact .of_ok written written' trivial
    · rw [unlimited.allocWords_refused (not_le.mp small),
        unlimited'.allocWords_refused (not_le.mp small)]
      exact .error
  · rw [if_neg some, if_neg some]
    obtain ⟨b₁, written⟩ := writePtr_total (fun off => wpMakeList off esize count) seg word seg
      (word + 1) b
    obtain ⟨b₁', written'⟩ := writePtr_total (fun off => wpMakeList off esize count) seg' word' seg'
      (word' + 1) b'
    exact .of_ok written written' trivial

/-- A list of texts is hung into a slot, when its pointers fit into a segment. -/
theorem Unlimited.setListTextN_total (unlimited : Unlimited b) {body : BPtr} {dwords ptrIndex : Nat}
    {items : List (List UInt8)} (inUse : b.Used body.seg (body.word + dwords + ptrIndex))
    (short : ∀ text ∈ items, text.length < 2 ^ 31) (few : items.length ≤ builderMaxSegmentWords) :
    ∃ b', setListTextN body dwords ptrIndex items b = .ok () b' := by
  unfold setListTextN withSlot
  dsimp only
  rw [slot_of_used inUse]
  dsimp only
  by_cases empty : items.length = 0
  · obtain rfl := List.length_eq_zero_iff.mp empty
    obtain ⟨b₁, written⟩ := writePtr_total (fun off => wpMakeList off .ptr 0) body.seg
      (body.word + dwords + ptrIndex) body.seg (body.word + dwords + ptrIndex + 1) b
    refine ⟨b₁, ?_⟩
    rw [if_neg (not_not.mpr empty)]
    dsimp only [List.length_nil]
    rw [writeListPtr, written]
    rfl
  · obtain ⟨listSeg, listStart, b₁, found⟩ := unlimited.allocWords_total few
    have words := allocWords_ends unlimited.wf items.length
    rw [found] at words
    obtain ⟨allocated, -⟩ := words
    obtain ⟨b₂, written⟩ := writePtr_total (fun off => wpMakeList off .ptr items.length) body.seg
      (body.word + dwords + ptrIndex) listSeg listStart b₁
    have pointer := (writePtr_ends allocated.wf (fun off => wpMakeList off .ptr items.length)
      (allocated.used inUse) listSeg listStart).of_ok written
    have grown : Writes (slotBytes body.seg (body.word + dwords + ptrIndex)) b b₁ := allocated.writes
    obtain ⟨b₃, done⟩ := (pointer.unlimited (grown.unlimited unlimited)).writeTexts_total
      (fun i hi => pointer.used (allocated.used_new hi)) short
    refine ⟨b₃, ?_⟩
    rw [if_pos empty, found]
    dsimp only
    rw [writeListPtr, written]
    exact done

theorem Unlimited.setListTextN_refused (unlimited : Unlimited b) {body : BPtr}
    {dwords ptrIndex : Nat} {items : List (List UInt8)}
    (inUse : b.Used body.seg (body.word + dwords + ptrIndex))
    (many : builderMaxSegmentWords < items.length) :
    setListTextN body dwords ptrIndex items b = .error .alloc b := by
  unfold setListTextN withSlot
  dsimp only
  rw [slot_of_used inUse]
  dsimp only
  rw [if_pos (by omega), unlimited.allocWords_refused many]

/-- A list of structs is hung into a slot, when it fits into a segment. -/
theorem Unlimited.setListStruct_total (unlimited : Unlimited b) {body : BPtr}
    {dwords ptrIndex nitems elemDwords elemPwords : Nat}
    (inUse : b.Used body.seg (body.word + dwords + ptrIndex))
    (few : 1 + nitems * (elemDwords + elemPwords) ≤ builderMaxSegmentWords) :
    ∃ first b', setListStruct body dwords ptrIndex nitems elemDwords elemPwords b =
      .ok first b' := by
  obtain ⟨tagSeg, tagWord, b₁, found⟩ := unlimited.allocWords_total few
  obtain ⟨b₂, written⟩ := writePtr_total
    (fun off => wpMakeList off .composite (nitems * (elemDwords + elemPwords))) body.seg
    (body.word + dwords + ptrIndex) tagSeg tagWord
    (b₁.storeW tagSeg tagWord (wpMakeStruct nitems elemDwords elemPwords))
  unfold setListStruct writeListPtr
  rw [slot_of_used inUse]
  dsimp only
  rw [found]
  dsimp only
  rw [written]
  exact ⟨_, _, rfl⟩

theorem Unlimited.setListStruct_refused (unlimited : Unlimited b) {body : BPtr}
    {dwords ptrIndex nitems elemDwords elemPwords : Nat}
    (inUse : b.Used body.seg (body.word + dwords + ptrIndex))
    (many : builderMaxSegmentWords < 1 + nitems * (elemDwords + elemPwords)) :
    setListStruct body dwords ptrIndex nitems elemDwords elemPwords b = .error .alloc b := by
  unfold setListStruct
  rw [slot_of_used inUse]
  dsimp only
  rw [unlimited.allocWords_refused many]

end

end Builder

end CapnpJanet
