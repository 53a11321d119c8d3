import CapnpJanet.Builder.Frame
import CapnpJanet.Builder.Serialize

/-!
# A builder in its first segment

As long as everything fits into the first segment, a builder is one memory and
one count, and each operation has a closed form on them.  The frames that the
RPC layer builds itself stay well inside that segment.
-/

namespace CapnpJanet

open ByteMemory

namespace Builder

/-- A builder with one segment of the default capacity. -/
def single (mem : Memory) (words : Nat) : Builder where
  nsegs := 1
  seg := Function.update (fun _ => BSeg.empty) 0 ⟨mem, words, builderDefaultFirstWords⟩
  maxSegWords := 0
  forceSingle := false

variable {mem : Memory} {words : Nat}

@[simp]
theorem single_seg_zero : (single mem words).seg 0 = ⟨mem, words, builderDefaultFirstWords⟩ := by
  simp [single]

theorem init_eq_single : init = single (fun _ => 0) 0 := by
  simp [init, initSized, appendSegment, single, zero, setSeg, limWords, builderMaxSegmentWords,
    builderDefaultFirstWords]

theorem words_single_le (s : Nat) : ((single mem words).seg s).words ≤ words := by
  by_cases first : s = 0
  · rw [first, single_seg_zero]
  · simp [single, first, BSeg.empty]

theorem wf_single (room : words ≤ builderDefaultFirstWords)
    (clear : ∀ i, words * 8 ≤ i → mem i = 0) : (single mem words).Wf where
  nonempty := Nat.one_pos
  words_le s := by
    by_cases first : s = 0
    · rwa [first, single_seg_zero]
    · simp [single, first, BSeg.empty]
  clear s i behind := by
    by_cases first : s = 0
    · rw [first, single_seg_zero] at behind ⊢
      exact clear i behind
    · simp [single, first, BSeg.empty]
  unused s above := by
    have other : s ≠ 0 := Nat.one_le_iff_ne_zero.mp above
    simp [single, other, BSeg.empty]

theorem framable_single (small : words < 2 ^ 32) : (single mem words).Framable :=
  ⟨Nat.one_lt_two_pow (by decide), fun s => (words_single_le s).trans_lt small⟩

theorem serialize_single (mem : Memory) (some : words ≠ 0) :
    ∃ flat, (single mem words).serialize = .ok flat := by
  refine ⟨_, if_neg ?_⟩
  rintro (none | empty)
  · exact Nat.one_ne_zero none
  · rw [single_seg_zero] at empty
    exact some empty

theorem setData_single (mem' : Memory) : (single mem words).setData 0 mem' = single mem' words := by
  simp [single, setData, setSeg]

theorem bump_single (n : Nat) : (single mem words).bump 0 n = single mem (words + n) := by
  simp [single, bump, setSeg]

theorem storeW_single (word w : Nat) :
    (single mem words).storeW 0 word w = single (storeWord mem word w) words := by
  rw [storeW, setData_single, single_seg_zero]

theorem allocWords_single {n : Nat} (room : words + n ≤ builderDefaultFirstWords) :
    allocWords n (single mem words) = .ok (0, words) (single mem (words + n)) := by
  have limit : (single mem words).limWords = builderMaxSegmentWords := by simp [limWords, single]
  have small : builderDefaultFirstWords ≤ builderMaxSegmentWords := by
    decide
  unfold allocWords
  rw [limit]
  dsimp only
  rw [show (single mem words).nsegs - 1 = 0 from rfl, single_seg_zero,
    if_neg (show (single mem words).nsegs ≠ 0 from Nat.one_ne_zero), if_neg (by omega),
    if_pos (by dsimp only; omega), bump_single]

theorem root_single : root (single mem 0) = .ok ⟨0, 0⟩ (single mem 1) := by
  unfold root
  rw [if_neg (by simp [single]), allocWords_single (by decide)]
  simp

theorem writePtr_single (make : Int → Nat) (slotWord bodyWord : Nat) :
    writePtr make 0 slotWord 0 bodyWord (single mem words) =
      .ok () (single (storeWord mem slotWord (make ((bodyWord : Int) - slotWord - 1))) words) := by
  unfold writePtr
  rw [if_pos rfl, storeW_single]

theorem struct_single {slotWord dwords pwords : Nat} (some : dwords + pwords ≠ 0)
    (room : words + (dwords + pwords) ≤ builderDefaultFirstWords) :
    struct ⟨0, slotWord⟩ dwords pwords (single mem words) =
      .ok ⟨0, words⟩ (single (storeWord mem slotWord
        (wpMakeStruct ((words : Int) - slotWord - 1) dwords pwords)) (words + (dwords + pwords))) := by
  unfold struct
  rw [if_neg some, allocWords_single room]
  dsimp only
  rw [writeStructPtr, writePtr_single]

theorem slot_single {word dwords ptrIndex : Nat} (inside : word + dwords + ptrIndex < words) :
    slot ⟨0, word⟩ dwords ptrIndex (single mem words) =
      .ok ⟨0, word + dwords + ptrIndex⟩ (single mem words) := by
  unfold slot
  dsimp only
  rw [if_neg (by rw [single_seg_zero]; exact not_le.mpr inside)]

theorem setScalar_single {width word byteOffset value : Nat}
    (inside : word * 8 + byteOffset + width ≤ words * 8) :
    setScalar width ⟨0, word⟩ byteOffset value (single mem words) =
      .ok () (single (storeLe width mem (word * 8 + byteOffset) value) words) := by
  have ok : (single mem words).bodyOk ⟨0, word⟩ (word * 8 + byteOffset + width) = true := by
    simpa [bodyOk, single] using inside
  unfold setScalar
  dsimp only
  rw [if_neg (not_not.mpr ok), single_seg_zero, setData_single]

theorem setBool_single (mem : Memory) {word bitOffset : Nat} (value : Bool)
    (inside : word * 8 + bitOffset / 8 + 1 ≤ words * 8) :
    setBool ⟨0, word⟩ bitOffset value (single mem words) =
      .ok () (single (blit 1 mem (word * 8 + bitOffset / 8) fun _ =>
        withBit (mem (word * 8 + bitOffset / 8)) (bitOffset % 8) value) words) := by
  have ok : (single mem words).bodyOk ⟨0, word⟩ (word * 8 + bitOffset / 8 + 1) = true := by
    simpa [bodyOk, single] using inside
  unfold setBool
  dsimp only
  rw [if_neg (not_not.mpr ok), single_seg_zero, setData_single]

theorem setCap_single {word dwords ptrIndex capIndex : Nat}
    (inside : word + dwords + ptrIndex < words) :
    setCap ⟨0, word⟩ dwords ptrIndex capIndex (single mem words) =
      .ok () (single (storeWord mem (word + dwords + ptrIndex) (wpMakeCap capIndex)) words) := by
  unfold setCap
  rw [slot_single inside]
  dsimp only
  rw [storeW_single]

theorem setListStruct_single {word dwords ptrIndex nitems elemDwords elemPwords : Nat}
    (inside : word + dwords + ptrIndex < words)
    (room : words + (1 + nitems * (elemDwords + elemPwords)) ≤ builderDefaultFirstWords) :
    setListStruct ⟨0, word⟩ dwords ptrIndex nitems elemDwords elemPwords (single mem words) =
      .ok ⟨0, words + 1⟩ (single (storeWord
        (storeWord mem words (wpMakeStruct nitems elemDwords elemPwords))
        (word + dwords + ptrIndex) (wpMakeList ((words : Int) - (word + dwords + ptrIndex : Nat) - 1)
          .composite (nitems * (elemDwords + elemPwords))))
        (words + (1 + nitems * (elemDwords + elemPwords)))) := by
  unfold setListStruct
  rw [slot_single inside]
  dsimp only
  rw [allocWords_single room]
  dsimp only
  rw [storeW_single, writeListPtr, writePtr_single]

/-- Writing a text of the first segment: the pointer, and the bytes behind the
words in use, with zeros up to a whole word. -/
theorem setText_single (mem : Memory) {word dwords ptrIndex : Nat} (text : List UInt8)
    (inside : word + dwords + ptrIndex < words)
    (room : words + wordsFor (text.length + 1) ≤ builderDefaultFirstWords) :
    ∃ mem', setText ⟨0, word⟩ dwords ptrIndex text (single mem words) =
        .ok () (single mem' (words + wordsFor (text.length + 1))) ∧
      (∀ i, i < words * 8 ∨ (words + wordsFor (text.length + 1)) * 8 ≤ i →
        i / 8 ≠ word + dwords + ptrIndex → mem' i = mem i) ∧
      ByteMemory.word mem' (word + dwords + ptrIndex) =
        wpMakeList ((words : Int) - (word + dwords + ptrIndex : Nat) - 1) .byte (text.length + 1) ∧
      ∀ i < wordsFor (text.length + 1) * 8, mem' (words * 8 + i) = ofList text i := by
  have some : wordsFor (text.length + 1) ≠ 0 := by
    unfold wordsFor
    omega
  have covers : text.length ≤ wordsFor (text.length + 1) * 8 := by
    unfold wordsFor
    omega
  unfold setText withSlot
  rw [slot_single inside]
  dsimp only
  unfold writeTextAt writeListBody
  rw [if_pos some, allocWords_single room]
  dsimp only
  rw [setData_single, writeListPtr, writePtr_single]
  refine ⟨_, rfl, fun i apart outside => ?_, ?_, fun i hi => ?_⟩
  · rw [storeWord_of_ne outside, single_seg_zero, fillBytes, blit_outside (by omega),
      blit_outside (by omega)]
  · rw [word_storeWord_self]
    exact Nat.mod_eq_of_lt (wpMakeList_lt _ _ _)
  · rw [storeWord_of_ne (by omega), single_seg_zero, fillBytes]
    by_cases given : i < text.length
    · exact blit_inside given
    · rw [blit_outside (by omega), blit_inside (by omega)]
      simp [ofList, not_lt.mp given]

/-! ## Builders within the limit -/

/-- At most `n` segments, none of them above the default limit. -/
structure Limited (n : Nat) (b : Builder) : Prop where
  wf : b.Wf
  few : b.nsegs ≤ n
  small : ∀ s, (b.seg s).words ≤ builderMaxSegmentWords
  limit : b.maxSegWords = 0
  spreads : b.forceSingle = false

section
variable {b b' : Builder} {n k s w : Nat}

theorem Limited.framable (limited : Limited n b) (small : n < 2 ^ 32) : b.Framable :=
  ⟨limited.few.trans_lt small, fun s => (limited.small s).trans_lt (by decide)⟩

theorem limited_single (clear : ∀ i, words * 8 ≤ i → mem i = 0)
    (room : words ≤ builderDefaultFirstWords) : Limited 1 (single mem words) where
  wf := wf_single room clear
  few := le_rfl
  small s := (words_single_le s).trans (room.trans (by decide))
  limit := rfl
  spreads := rfl

/-- Words that fit the limit keep a builder within it. -/
theorem Limited.allocated (limited : Limited n b) (allocated : Allocated b s w k b')
    (few : b'.nsegs ≤ n + 1) (room : w + k ≤ builderMaxSegmentWords) : Limited (n + 1) b' where
  wf := allocated.wf
  few := few
  small t := by
    by_cases here : t = s
    · rw [here, allocated.words_self]
      exact room
    · rw [allocated.words_other t here]
      exact limited.small t
  limit := allocated.maxSegWords_eq.trans limited.limit
  spreads := allocated.forceSingle_eq.trans limited.spreads

theorem Limited.limWords_eq (limited : Limited n b) : b.limWords = builderMaxSegmentWords := by
  rw [limWords, limited.limit]
  rfl

theorem Limited.allocWords (limited : Limited n b) (run : allocWords k b = .ok (s, w) b') :
    Limited (n + 1) b' := by
  have ends := allocWords_ends limited.wf k
  rw [run] at ends
  obtain ⟨allocated, -⟩ := ends
  have limit := limited.limWords_eq
  have few := limited.few
  have sizes : b'.nsegs ≤ n + 1 ∧ w + k ≤ builderMaxSegmentWords := by
    unfold Builder.allocWords at run
    dsimp only at run
    rw [limited.spreads, limit] at run
    split at run
    · cases run
    · split at run
      · cases run
      · next small =>
        split at run
        · next room =>
          cases run
          exact ⟨by rw [bump_nsegs]; omega, room.2⟩
        · rw [if_neg (by simp)] at run
          generalize (if (b.seg (b.nsegs - 1)).cap ≠ 0 then (b.seg (b.nsegs - 1)).cap * 2 else 16) =
            double at run
          split at run
          · cases run
          · obtain ⟨b'', appended, nsegs, -⟩ := appendSegment_spec limited.wf
              (min (max double k) builderMaxSegmentWords)
            rw [appended] at run
            cases run
            exact ⟨by rw [bump_nsegs]; omega, by omega⟩
  exact limited.allocated allocated sizes.1 sizes.2

theorem Limited.storeW (limited : Limited n b) {seg word : Nat} (inUse : b.Used seg word) (v : Nat) :
    Limited n (b.storeW seg word v) where
  wf := (writes_storeW limited.wf inUse v).wf
  few := limited.few
  small s := by
    rw [storeW_words]
    exact limited.small s
  limit := limited.limit
  spreads := limited.spreads

theorem Limited.mono (limited : Limited n b) (more : n ≤ k) : Limited k b :=
  { limited with few := limited.few.trans more }

/-- A pointer takes at most one more segment, for its landing pad. -/
theorem Limited.writePtr (limited : Limited n b) (make : Int → Nat)
    {slotSeg slotWord bodySeg bodyWord : Nat} (inUse : b.Used slotSeg slotWord)
    (run : writePtr make slotSeg slotWord bodySeg bodyWord b = .ok () b') : Limited (n + 1) b' := by
  unfold Builder.writePtr at run
  split at run
  · cases run
    exact (limited.storeW inUse _).mono (Nat.le_succ n)
  · have ends := allocIn_ends limited.wf bodySeg 1
    split at run
    · next pad b₁ found =>
      rw [found] at ends
      obtain ⟨allocated, nsegs⟩ := ends
      have room : (b.seg bodySeg).words + 1 ≤ builderMaxSegmentWords := by
        by_contra above
        unfold allocIn at found
        rw [limited.limWords_eq] at found
        split at found
        · cases found
        · rw [if_pos (by omega)] at found
          cases found
      have few := limited.few
      have limited₁ := limited.allocated allocated (by omega) (by rw [allocated.start]; exact room)
      cases run
      refine (limited₁.storeW (allocated.used_new Nat.one_pos) _).storeW ?_ _
      exact storeW_used.mpr (allocated.used inUse)
    · next found =>
      rw [found] at ends
      subst ends
      split at run
      · cases run
      · next padSeg padWord b₂ added =>
        obtain ⟨b₃, run₃, allocated, nsegs⟩ :=
          allocPadSegment_spec limited.wf (n := 2) (by decide) (by decide)
        cases added.symm.trans run₃
        have few := limited.few
        have limited₂ := limited.allocated allocated (by omega) (by decide)
        cases run
        refine ((limited₂.storeW (allocated.used_new Nat.two_pos) _).storeW ?_ _).storeW ?_ _
        · exact storeW_used.mpr (allocated.used_new Nat.one_lt_two)
        · exact storeW_used.mpr (storeW_used.mpr (allocated.used inUse))

/-- A struct takes at most two more segments. -/
theorem Limited.struct (limited : Limited n b) {ptr body : BPtr} {dwords pwords : Nat}
    (inUse : b.Used ptr.seg ptr.word) (run : struct ptr dwords pwords b = .ok body b') :
    Limited (n + 2) b' := by
  unfold Builder.struct at run
  split at run
  · cases run
    exact (limited.storeW inUse _).mono (by omega)
  · have ends := allocWords_ends limited.wf (dwords + pwords)
    split at run
    · cases run
    · next s w b₁ found =>
      rw [found] at ends
      have limited₁ := limited.allocWords found
      split at run
      · cases run
      · next written =>
        cases run
        exact limited₁.writePtr _ (ends.1.used inUse) written

end

end Builder

end CapnpJanet
