import CapnpJanet.Builder.Frame
import CapnpJanet.Logic.Atomic

/-!
# Builder operations that fail

An allocation that fails changes nothing, and a pointer can always be written.  So
an operation that allocates once and then writes leaves the builder as it was when
it fails.  A list of texts allocates again after its pointer is in place; nobody
limits the segments of a builder of the Janet module, and there those allocations
succeed.
-/

namespace CapnpJanet

open ByteMemory Outcome

namespace Builder

variable {b b' : Builder}

theorem allocWords_atomic (wf : b.Wf) (n : Nat) : Atomic (allocWords n) b :=
  .of_ends (allocWords_ends wf n)

/-- A pointer can always be written: a landing pad that finds no room gets a
segment of its own. -/
theorem writePtr_total (make : Int → Nat) (slotSeg slotWord bodySeg bodyWord : Nat) (b : Builder) :
    ∃ b', writePtr make slotSeg slotWord bodySeg bodyWord b = .ok () b' := by
  unfold writePtr
  split
  · exact ⟨_, rfl⟩
  · split
    · exact ⟨_, rfl⟩
    · exact ⟨_, rfl⟩

theorem slot_looks (body : BPtr) (dwords ptrIndex : Nat) : Looks (slot body dwords ptrIndex) := by
  refine ⟨fun b => ?_⟩
  exact (slot_ends (b := b) body dwords ptrIndex).mono (fun _ _ checked => checked.1) fun _ same => same

/-- The check of the slot goes first. -/
theorem withSlot_atomic {body : BPtr} {dwords ptrIndex : Nat} {write : Nat → Nat → BuildM Unit}
    (rest : ∀ seg word, Atomic (write seg word) b) : Atomic (withSlot body dwords ptrIndex write) b := by
  refine ⟨fun run => ?_⟩
  unfold withSlot at run
  split at run
  · next failed =>
    cases run
    exact (slot_looks body dwords ptrIndex).of_error failed
  · next at' b₁ checked =>
    obtain rfl := (slot_looks body dwords ptrIndex).of_ok checked
    exact (rest _ _).of_error run

theorem setScalar_atomic (width : Nat) (body : BPtr) (byteOffset value : Nat) :
    Atomic (setScalar width body byteOffset value) b := by
  refine ⟨fun run => ?_⟩
  unfold setScalar at run
  dsimp only at run
  split at run
  · cases run
    rfl
  · cases run

theorem setBool_atomic (body : BPtr) (bitOffset : Nat) (value : Bool) :
    Atomic (setBool body bitOffset value) b := by
  refine ⟨fun run => ?_⟩
  unfold setBool at run
  dsimp only at run
  split at run
  · cases run
    rfl
  · cases run

theorem clearPtr_atomic (body : BPtr) (dwords ptrIndex : Nat) :
    Atomic (clearPtr body dwords ptrIndex) b := by
  have stores (seg word : Nat) : Atomic (fun b => .ok () (b.storeW seg word 0) : BuildM Unit) b :=
    ⟨nofun⟩
  exact withSlot_atomic stores

/-! ## One allocation -/

theorem writeListBody_atomic (wf : b.Wf) (seg word : Nat) (esize : ElemSize) (count nbytes : Nat)
    (fill : Memory → Nat → Memory) : Atomic (writeListBody seg word esize count nbytes fill) b := by
  refine ⟨fun run => ?_⟩
  unfold writeListBody writeListPtr at run
  split at run
  · split at run
    · next failed =>
      cases run
      exact (allocWords_atomic wf _).of_error failed
    · next startSeg startWord b₁ found =>
      obtain ⟨b₂, written⟩ := writePtr_total (fun off => wpMakeList off esize count) seg word startSeg
        startWord (b₁.setData startSeg (fill (blit (wordsFor nbytes * 8) (b₁.seg startSeg).data
          (startWord * 8) fun _ => 0) (startWord * 8)))
      exact absurd (run.symm.trans written) nofun
  · obtain ⟨b₂, written⟩ := writePtr_total (fun off => wpMakeList off esize count) seg word seg
      (word + 1) b
    exact absurd (run.symm.trans written) nofun

theorem setText_atomic (wf : b.Wf) (body : BPtr) (dwords ptrIndex : Nat) (text : List UInt8) :
    Atomic (setText body dwords ptrIndex text) b :=
  withSlot_atomic fun seg word => writeListBody_atomic wf seg word .byte _ _ _

theorem setDataList_atomic (wf : b.Wf) (body : BPtr) (dwords ptrIndex : Nat) (bytes : List UInt8) :
    Atomic (setDataList body dwords ptrIndex bytes) b :=
  withSlot_atomic fun seg word => writeListBody_atomic wf seg word .byte _ _ _

theorem setListPrim_atomic (wf : b.Wf) (body : BPtr) (dwords ptrIndex : Nat) (esize : ElemSize)
    (nitems elemBytes : Nat) (items : Nat → Nat) :
    Atomic (setListPrim body dwords ptrIndex esize nitems elemBytes items) b :=
  withSlot_atomic fun seg word => writeListBody_atomic wf seg word esize _ _ _

theorem setListBool_atomic (wf : b.Wf) (body : BPtr) (dwords ptrIndex nitems : Nat)
    (items : Nat → Bool) : Atomic (setListBool body dwords ptrIndex nitems items) b :=
  withSlot_atomic fun seg word => writeListBody_atomic wf seg word .bit _ _ _

theorem struct_atomic (wf : b.Wf) (ptr : BPtr) (dwords pwords : Nat) :
    Atomic (struct ptr dwords pwords) b := by
  refine ⟨fun run => ?_⟩
  unfold struct at run
  split at run
  · cases run
  · split at run
    · next failed =>
      cases run
      exact (allocWords_atomic wf _).of_error failed
    · next bodySeg bodyWord b₁ found =>
      obtain ⟨b₂, written⟩ := writePtr_total (fun off => wpMakeStruct off dwords pwords) ptr.seg
        ptr.word bodySeg bodyWord b₁
      rw [writeStructPtr, written] at run
      cases run

theorem setListStruct_atomic (wf : b.Wf) (body : BPtr)
    (dwords ptrIndex nitems elemDwords elemPwords : Nat) :
    Atomic (setListStruct body dwords ptrIndex nitems elemDwords elemPwords) b := by
  refine ⟨fun run => ?_⟩
  unfold setListStruct at run
  dsimp only at run
  split at run
  · next failed =>
    cases run
    exact (slot_looks body dwords ptrIndex).of_error failed
  · next at' b₁ checked =>
    obtain rfl := (slot_looks body dwords ptrIndex).of_ok checked
    split at run
    · next failed =>
      cases run
      exact (allocWords_atomic wf _).of_error failed
    · next tagSeg tagWord b₂ found =>
      obtain ⟨b₃, written⟩ := writePtr_total
        (fun off => wpMakeList off .composite (nitems * (elemDwords + elemPwords))) at'.seg at'.word
        tagSeg tagWord (b₂.storeW tagSeg tagWord (wpMakeStruct nitems elemDwords elemPwords))
      rw [writeListPtr, written] at run
      cases run

/-! ## Builders without limits of their own -/

/-- Segments may grow up to the default limit, and their number is free. -/
structure Unlimited (b : Builder) : Prop where
  wf : b.Wf
  limit : b.maxSegWords = 0
  spreads : b.forceSingle = false

theorem Writes.unlimited {touched : Nat → Nat → Prop} (writes : Writes touched b b')
    (unlimited : Unlimited b) : Unlimited b' :=
  ⟨writes.wf, writes.maxSegWords_eq.trans unlimited.limit,
    writes.forceSingle_eq.trans unlimited.spreads⟩

/-- Without limits, words up to the default limit are there. -/
theorem Unlimited.allocWords_total (unlimited : Unlimited b) {n : Nat}
    (small : n ≤ builderMaxSegmentWords) : ∃ s w b', allocWords n b = .ok (s, w) b' := by
  have some := unlimited.wf.nonempty
  have limit : b.limWords = builderMaxSegmentWords := by
    rw [limWords, unlimited.limit]
    rfl
  unfold allocWords
  dsimp only
  rw [if_neg (by omega), limit, if_neg (not_lt.mpr small), unlimited.spreads]
  split
  · exact ⟨_, _, _, rfl⟩
  · rw [if_neg Bool.false_ne_true]
    generalize (if (b.seg (b.nsegs - 1)).cap ≠ 0 then (b.seg (b.nsegs - 1)).cap * 2 else 16) = double
    rw [if_neg (by omega)]
    exact ⟨_, _, _, rfl⟩

/-- A text of less than the length that a Janet string may have. -/
theorem Unlimited.writeTextAt_total (unlimited : Unlimited b) (seg word : Nat) {text : List UInt8}
    (short : text.length < 2 ^ 31) : ∃ b', writeTextAt seg word text b = .ok () b' := by
  have small : wordsFor (text.length + 1) ≤ builderMaxSegmentWords := by
    unfold wordsFor builderMaxSegmentWords
    omega
  have some : wordsFor (text.length + 1) ≠ 0 := by
    unfold wordsFor
    omega
  obtain ⟨s, w, b₁, found⟩ := unlimited.allocWords_total small
  unfold writeTextAt writeListBody
  rw [if_pos some, found]
  exact writePtr_total _ _ _ _ _ _

theorem Unlimited.writeTexts_total (unlimited : Unlimited b) {seg start : Nat}
    {texts : List (List UInt8)} (inUse : ∀ i < texts.length, b.Used seg (start + i))
    (short : ∀ text ∈ texts, text.length < 2 ^ 31) :
    ∃ b', writeTexts seg start texts b = .ok () b' := by
  induction texts generalizing b start with
  | nil => exact ⟨b, rfl⟩
  | cons text rest ih =>
      obtain ⟨b₁, run⟩ := unlimited.writeTextAt_total seg start (short text List.mem_cons_self)
      have writes := (writeTextAt_confined unlimited.wf (inUse 0 (by simp)) text).of_ok run
      have later : ∀ i < rest.length, b₁.Used seg (start + 1 + i) := by
        intro i hi
        have before := inUse (i + 1) (by simpa using hi)
        rw [show start + 1 + i = start + (i + 1) by omega]
        exact writes.used before
      obtain ⟨b', done⟩ := ih (writes.unlimited unlimited) later fun t member =>
        short t (List.mem_cons_of_mem text member)
      refine ⟨b', ?_⟩
      rw [writeTexts]
      dsimp only
      rw [run]
      exact done

/-- A list of texts fails at its first allocation, if it fails. -/
theorem Unlimited.setListTextN_atomic (unlimited : Unlimited b) (body : BPtr) (dwords ptrIndex : Nat)
    {items : List (List UInt8)} (short : ∀ text ∈ items, text.length < 2 ^ 31) :
    Atomic (setListTextN body dwords ptrIndex items) b := by
  refine ⟨fun run => ?_⟩
  unfold setListTextN withSlot at run
  dsimp only at run
  have checks := slot_ends (b := b) body dwords ptrIndex
  split at run
  · next failed =>
    cases run
    exact (slot_looks body dwords ptrIndex).of_error failed
  · next at' b₁ checked =>
    rw [checked] at checks
    obtain ⟨rfl, -, inUse⟩ := checks
    by_cases empty : items.length = 0
    · obtain rfl := List.length_eq_zero_iff.mp empty
      simp only [List.length_nil, ne_eq, not_true_eq_false, if_false, writeListPtr] at run
      obtain ⟨b₂, written⟩ := writePtr_total (fun off => wpMakeList off .ptr 0) at'.seg at'.word
        at'.seg (at'.word + 1) b₁
      rw [written] at run
      cases run
    · rw [if_pos empty] at run
      split at run
      · next failed =>
        cases run
        exact (allocWords_atomic unlimited.wf _).of_error failed
      · next listSeg listStart b₂ found =>
        have words := allocWords_ends unlimited.wf items.length
        rw [found] at words
        obtain ⟨allocated, -⟩ := words
        obtain ⟨b₃, written⟩ := writePtr_total (fun off => wpMakeList off .ptr items.length) at'.seg
          at'.word listSeg listStart b₂
        rw [writeListPtr, written] at run
        have pointer := (writePtr_ends allocated.wf (fun off => wpMakeList off .ptr items.length)
          (allocated.used inUse) listSeg listStart).of_ok written
        have grown : Writes (slotBytes at'.seg at'.word) b₁ b₂ := allocated.writes
        have unlimited₃ := pointer.unlimited (grown.unlimited unlimited)
        obtain ⟨b₄, done⟩ := unlimited₃.writeTexts_total
          (fun i hi => pointer.used (allocated.used_new hi)) short
        cases run.symm.trans done

end Builder

end CapnpJanet
