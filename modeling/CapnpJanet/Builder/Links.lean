import CapnpJanet.Builder.Serialize
import CapnpJanet.Builder.Frame
import CapnpJanet.Message.Framing
import CapnpJanet.Message.Landing

/-!
# From a slot to its object

A pointer that the builder writes is near, far or double far, depending on the
room that is left where its object lies.  All three lead to the same object, and
all three are read back alike: what a reader finds does not depend on the
segments.  The words that a far pointer leads through are its landing pad, and
the pointer holds as long as they and the slot are left alone.
-/

namespace CapnpJanet

open ByteMemory Outcome

namespace Builder

/-- No segment is above the default limit. -/
def InLimit (b : Builder) : Prop := ∀ s, (b.seg s).words ≤ builderMaxSegmentWords

theorem inLimit_of_segments {b : Builder} (wf : b.Wf)
    (segments : ∀ s < b.nsegs, (b.seg s).words ≤ builderMaxSegmentWords) : b.InLimit := by
  intro s
  by_cases inside : s < b.nsegs
  · exact segments s inside
  · rw [wf.unused s (not_lt.mp inside)]
    exact Nat.zero_le _

/-- A slot leads to the object at `bodyWord` of segment `bodySeg`, of which
`make` makes the pointer words.  The landing pad lies among the words `own`. -/
inductive Leads (b : Builder) (make : Int → Nat) (bodySeg bodyWord : Nat)
    (own : Nat → Nat → Prop) : (slotSeg slotWord : Nat) → Prop
  | near {slotWord : Nat} (reads : b.wordAt bodySeg slotWord = make ((bodyWord : Int) - slotWord - 1))
      (fits : OffsetFits ((bodyWord : Int) - slotWord - 1)) :
      Leads b make bodySeg bodyWord own bodySeg slotWord
  | far {slotSeg slotWord pad : Nat}
      (reads : b.wordAt slotSeg slotWord = wpMakeFar false pad bodySeg) (held : own bodySeg pad)
      (inUse : b.Used bodySeg pad) (padLt : pad < 2 ^ 29)
      (lands : b.wordAt bodySeg pad = make ((bodyWord : Int) - pad - 1))
      (fits : OffsetFits ((bodyWord : Int) - pad - 1)) :
      Leads b make bodySeg bodyWord own slotSeg slotWord
  | doubleFar {slotSeg slotWord padSeg pad : Nat}
      (reads : b.wordAt slotSeg slotWord = wpMakeFar true pad padSeg) (held : own padSeg pad)
      (tagHeld : own padSeg (pad + 1)) (inUse : b.Used padSeg (pad + 1)) (padLt : pad < 2 ^ 29)
      (lands : b.wordAt padSeg pad = wpMakeFar false bodyWord bodySeg) (bodyLt : bodyWord < 2 ^ 29)
      (tag : b.wordAt padSeg (pad + 1) = make 0) :
      Leads b make bodySeg bodyWord own slotSeg slotWord

variable {b b' : Builder} {make : Int → Nat} {own own' : Nat → Nat → Prop}
  {slotSeg slotWord bodySeg bodyWord : Nat}

/-- The words `own` and the slot decide. -/
theorem Leads.congr (leads : b.Leads make bodySeg bodyWord own slotSeg slotWord)
    (slot : b'.wordAt slotSeg slotWord = b.wordAt slotSeg slotWord)
    (words : ∀ s, (b.seg s).words ≤ (b'.seg s).words)
    (same : ∀ s w, own s w → b.Used s w → b'.wordAt s w = b.wordAt s w) :
    b'.Leads make bodySeg bodyWord own slotSeg slotWord := by
  cases leads with
  | near reads fits => exact .near (slot.trans reads) fits
  | far reads held inUse padLt lands fits =>
      exact .far (slot.trans reads) held (inUse.trans_le (words _)) padLt
        ((same _ _ held inUse).trans lands) fits
  | doubleFar reads held tagHeld inUse padLt lands bodyLt tag =>
      exact .doubleFar (slot.trans reads) held tagHeld (inUse.trans_le (words _)) padLt
        ((same _ _ held (Nat.lt_of_succ_lt inUse)).trans lands) bodyLt
        ((same _ _ tagHeld inUse).trans tag)

theorem Leads.mono (leads : b.Leads make bodySeg bodyWord own slotSeg slotWord)
    (within : ∀ s w, own s w → b.Used s w → own' s w) :
    b.Leads make bodySeg bodyWord own' slotSeg slotWord := by
  cases leads with
  | near reads fits => exact .near reads fits
  | far reads held inUse padLt lands fits =>
      exact .far reads (within _ _ held inUse) inUse padLt lands fits
  | doubleFar reads held tagHeld inUse padLt lands bodyLt tag =>
      exact .doubleFar reads (within _ _ held (Nat.lt_of_succ_lt inUse))
        (within _ _ tagHeld inUse) inUse padLt lands bodyLt tag

theorem wordAt_storeW_self (b : Builder) (seg word : Nat) {w : Nat} (small : w < 2 ^ 64) :
    (b.storeW seg word w).wordAt seg word = w := by
  rw [wordAt_storeW, if_pos ⟨rfl, rfl⟩, Nat.mod_eq_of_lt small]

theorem wordAt_storeW_of_ne (b : Builder) {seg word s i : Nat} (w : Nat)
    (other : s ≠ seg ∨ i ≠ word) : (b.storeW seg word w).wordAt s i = b.wordAt s i := by
  rw [wordAt_storeW, if_neg]
  rintro ⟨rfl, rfl⟩
  rcases other with other | other
  · exact other rfl
  · exact other rfl

/-- A pointer that is written leads to its object, through words that were
not in use. -/
theorem writePtr_leads (wf : b.Wf) (makeLt : ∀ off, make off < 2 ^ 64)
    (inUse : b.Used slotSeg slotWord) (bodyLe : bodyWord ≤ 2 ^ 29)
    (bodyIn : slotSeg ≠ bodySeg → b.Used bodySeg bodyWord)
    (run : writePtr make slotSeg slotWord bodySeg bodyWord b = .ok () b') (limit : b'.InLimit) :
    b'.Leads make bodySeg bodyWord (fun s w => ¬b.Used s w) slotSeg slotWord := by
  have slotLt (words : (b.seg slotSeg).words ≤ (b'.seg slotSeg).words) : slotWord < 2 ^ 29 :=
    inUse.trans_le (words.trans (limit slotSeg))
  unfold writePtr at run
  split at run
  · next same =>
    subst same
    cases run
    refine .near (wordAt_storeW_self _ _ _ (makeLt _)) ?_
    have below := slotLt (storeW_words _ _ _ _ _).ge
    constructor <;> omega
  · next apart =>
    have ends := allocIn_ends wf bodySeg 1
    split at run
    · next pad b₁ found =>
      rw [found] at ends
      obtain ⟨allocated, -⟩ := ends
      have fresh : ¬b.Used bodySeg pad := by simpa using allocated.not_used_before 0
      have used : b₁.Used bodySeg pad := by simpa using allocated.used_new Nat.one_pos
      cases run
      have padLt : pad < 2 ^ 29 := by
        have bound := limit bodySeg
        rw [storeW_words, storeW_words] at bound
        exact used.trans_le bound
      refine .far (wordAt_storeW_self _ _ _ (wpMakeFar_lt _ _ _)) fresh ?_ padLt ?_ ?_
      · rw [storeW_used, storeW_used]
        exact used
      · rw [wordAt_storeW_of_ne _ _ (.inl (Ne.symm apart))]
        exact wordAt_storeW_self _ _ _ (makeLt _)
      · constructor <;> omega
    · next rc b₁ failed =>
      rw [failed] at ends
      subst ends
      obtain ⟨b₂, padRun, allocated, -⟩ := allocPadSegment_spec wf (n := 2) (by decide) (by decide)
      rw [padRun] at run
      cases run
      have other : slotSeg ≠ b₁.nsegs := fun same => (wf.lt_of_used inUse).ne same
      have bodyLt : bodyWord < 2 ^ 29 := by
        have bound := limit bodySeg
        rw [storeW_words, storeW_words, storeW_words] at bound
        exact (allocated.used (bodyIn apart)).trans_le bound
      refine .doubleFar (wordAt_storeW_self _ _ _ (wpMakeFar_lt _ _ _)) ?_ ?_ ?_ (by decide) ?_ bodyLt ?_
      · exact allocated.not_used_before 0
      · exact allocated.not_used_before 1
      · rw [storeW_used, storeW_used, storeW_used]
        exact allocated.used_new Nat.one_lt_two
      · rw [wordAt_storeW_of_ne _ _ (.inl other.symm), wordAt_storeW_of_ne _ _ (.inr (by decide))]
        exact wordAt_storeW_self _ _ _ (wpMakeFar_lt _ _ _)
      · rw [wordAt_storeW_of_ne _ _ (.inl other.symm)]
        exact wordAt_storeW_self _ _ _ (makeLt _)

/-! ## Words that are spared -/

/-- The words `own` that are in use have the same contents in a later builder. -/
structure Spares (own : Nat → Nat → Prop) (b b' : Builder) : Prop where
  words_le : ∀ s, (b.seg s).words ≤ (b'.seg s).words
  same : ∀ s w, own s w → b.Used s w →
    ∀ k < 8, (b'.seg s).data (8 * w + k) = (b.seg s).data (8 * w + k)

theorem Writes.spares {touched : Nat → Nat → Prop} (writes : Writes touched b b')
    (outside : ∀ s i, own s (i / 8) → ¬touched s i) : Spares own b b' where
  words_le := writes.words_le
  same s w held inUse k hk := by
    unfold Used at inUse
    refine writes.kept s _ (by omega) (outside s _ ?_)
    rwa [show (8 * w + k) / 8 = w by omega]

theorem Spares.mono (spares : Spares own' b b') (within : ∀ s w, own s w → b.Used s w → own' s w) :
    Spares own b b' where
  words_le := spares.words_le
  same s w held inUse := spares.same s w (within s w held inUse) inUse

theorem Spares.wordAt_eq (spares : Spares own b b') {s w : Nat} (held : own s w)
    (inUse : b.Used s w) : b'.wordAt s w = b.wordAt s w :=
  word_congr fun k hk => spares.same s w held inUse k hk

/-- A field inside one word. -/
theorem Spares.loadLe_eq (spares : Spares own b b') {s w : Nat} (held : own s w)
    (inUse : b.Used s w) {width offset : Nat} (inside : offset + width ≤ 8) :
    loadLe width (b'.seg s).data (w * 8 + offset) = loadLe width (b.seg s).data (w * 8 + offset) := by
  refine loadLe_congr fun k hk => ?_
  have there := spares.same s w held inUse (offset + k) (by omega)
  rwa [show w * 8 + offset + k = 8 * w + (offset + k) by omega]

theorem Leads.spared (leads : b.Leads make bodySeg bodyWord own slotSeg slotWord)
    (spares : Spares own b b') (held : own slotSeg slotWord) (inUse : b.Used slotSeg slotWord) :
    b'.Leads make bodySeg bodyWord own slotSeg slotWord :=
  leads.congr (spares.wordAt_eq held inUse) spares.words_le fun _ _ => spares.wordAt_eq

/-! ## Placing an object -/

/-- The bytes of `n` words from a handle on. -/
def bodyBytes (body : BPtr) (n : Nat) : Nat → Nat → Prop := fun s i =>
  s = body.seg ∧ body.word * 8 ≤ i ∧ i < (body.word + n) * 8

/-- An object of `n` fresh words has been placed, and a slot leads to it as long
as the segments are within the limit. -/
structure Placed (b : Builder) (slot body : BPtr) (n : Nat) (make : Int → Nat)
    (b' : Builder) : Prop where
  writes : Writes (slotBytes slot.seg slot.word) b b'
  fresh : ∀ i, ¬b.Used body.seg (body.word + i)
  inside : body.word + n ≤ (b'.seg body.seg).words
  leads : b'.InLimit → b'.Leads make body.seg body.word
    (fun s w => ¬b.Used s w ∧ ¬(s = body.seg ∧ body.word ≤ w ∧ w < body.word + n))
    slot.seg slot.word

section
variable {b₁ b₂ : Builder} {slot body : BPtr} {n : Nat}

/-- Allocating words, filling them and writing their pointer places an object,
whose bytes stay as they were filled in. -/
theorem placed_of_run (slot body : BPtr) (allocated : Allocated b body.seg body.word n b₁) (some : n ≠ 0)
    (filled : Writes (bodyBytes body n) b₁ b₂) (makeLt : ∀ off, make off < 2 ^ 64)
    (inUse : b.Used slot.seg slot.word)
    (run : writePtr make slot.seg slot.word body.seg body.word b₂ = .ok () b') :
    Placed b slot body n make b' ∧
      ∀ i < n * 8, (b'.seg body.seg).data (body.word * 8 + i) =
        (b₂.seg body.seg).data (body.word * 8 + i) := by
  have pointer := writePtr_ends filled.wf make (filled.used (allocated.used inUse)) body.seg body.word
  rw [run] at pointer
  have written : Writes (slotBytes slot.seg slot.word) b₂ b' := pointer
  have start := allocated.start
  have size := allocated.words_self
  have grown := filled.words_le body.seg
  have whole := written.words_le body.seg
  have bodyUsed : b₂.Used body.seg body.word := by
    unfold Used
    omega
  have before : Writes (slotBytes slot.seg slot.word) b b₂ :=
    allocated.writes.trans filled fun s i old touches => absurd old (by
      obtain ⟨rfl, low, -⟩ := touches
      omega)
  refine ⟨⟨before.trans written fun _ _ _ touches => touches, allocated.not_used_before, by omega,
    fun limit => ?_⟩, fun i hi => ?_⟩
  · have room := limit body.seg
    unfold builderMaxSegmentWords at room
    refine (writePtr_leads filled.wf makeLt (filled.used (allocated.used inUse)) (by omega)
      (fun _ => bodyUsed) run limit).mono fun s w unused _ => ⟨fun old => unused (before.used old), ?_⟩
    rintro ⟨rfl, low, high⟩
    apply unused
    unfold Used
    omega
  · refine written.kept _ _ (by omega) ?_
    rintro ⟨same, word⟩
    unfold Used at inUse
    rw [← same] at inUse
    omega

/-- A struct is placed with all its words zero. -/
theorem struct_placed (wf : b.Wf) {ptr : BPtr} {dwords pwords : Nat}
    (inUse : b.Used ptr.seg ptr.word) (some : dwords + pwords ≠ 0)
    (run : struct ptr dwords pwords b = .ok body b') :
    Placed b ptr body (dwords + pwords) (fun off => wpMakeStruct off dwords pwords) b' ∧
      ∀ i < (dwords + pwords) * 8, (b'.seg body.seg).data (body.word * 8 + i) = 0 := by
  have ends := allocWords_ends wf (dwords + pwords)
  unfold struct at run
  rw [if_neg some] at run
  split at run
  · cases run
  · next s w b₁ found =>
    rw [found] at ends
    obtain ⟨allocated, -⟩ := ends
    split at run
    · cases run
    · next written =>
      cases run
      obtain ⟨placed, same⟩ := placed_of_run ptr ⟨s, w⟩ allocated some
        (Writes.refl allocated.wf) (fun off => wpMakeStruct_lt off _ _) inUse written
      refine ⟨placed, fun i hi => (same i hi).trans ?_⟩
      rw [allocated.data_eq]
      apply wf.clear
      have start : w = (b.seg s).words := allocated.start
      dsimp only
      omega

/-- A list with a body is placed, filled over zeros. -/
theorem writeListBody_placed (wf : b.Wf) {slotSeg slotWord : Nat} {esize : ElemSize}
    {count nbytes : Nat} {fill : Memory → Nat → Memory} (inUse : b.Used slotSeg slotWord)
    (some : wordsFor nbytes ≠ 0) (fills : FillsOnly nbytes fill)
    (run : writeListBody slotSeg slotWord esize count nbytes fill b = .ok () b') :
    ∃ (body : BPtr) (mem : Memory), Placed b ⟨slotSeg, slotWord⟩ body (wordsFor nbytes)
        (fun off => wpMakeList off esize count) b' ∧
      (∀ i < wordsFor nbytes * 8, mem (body.word * 8 + i) = 0) ∧
      ∀ i < wordsFor nbytes * 8, (b'.seg body.seg).data (body.word * 8 + i) =
        fill mem (body.word * 8) (body.word * 8 + i) := by
  have ends := allocWords_ends wf (wordsFor nbytes)
  unfold writeListBody at run
  rw [if_pos some] at run
  split at run
  · cases run
  · next s w b₁ found =>
    rw [found] at ends
    obtain ⟨allocated, -⟩ := ends
    dsimp only at run
    have start := allocated.start
    have size : (b₁.seg s).words = w + wordsFor nbytes := allocated.words_self
    have covers : nbytes ≤ wordsFor nbytes * 8 := by
      unfold wordsFor
      omega
    generalize clearedEq : blit (wordsFor nbytes * 8) (b₁.seg s).data (w * 8) (fun _ => 0) =
      cleared at run
    have filled : Writes (bodyBytes ⟨s, w⟩ (wordsFor nbytes)) b₁
        (b₁.setData s (fill cleared (w * 8))) := by
      apply writes_setData allocated.wf
      · rintro i ⟨-, -, below⟩
        dsimp only at below
        omega
      · intro i outside
        have apart : i < w * 8 ∨ (w + wordsFor nbytes) * 8 ≤ i := by
          by_contra within
          exact outside ⟨rfl, show w * 8 ≤ i by omega, show i < (w + wordsFor nbytes) * 8 by omega⟩
        rw [fills _ _ _ (by omega), ← clearedEq, blit_outside (by omega)]
    obtain ⟨placed, same⟩ := placed_of_run ⟨slotSeg, slotWord⟩ ⟨s, w⟩ allocated some filled
      (fun off => wpMakeList_lt off esize count) inUse run
    refine ⟨⟨s, w⟩, cleared, placed, fun i hi => ?_, fun i hi => (same i hi).trans ?_⟩
    · rw [← clearedEq]
      exact blit_inside hi
    · simp [setData]

/-- A struct list is placed with its tag, and all its elements zero. -/
theorem setListStruct_placed (wf : b.Wf) {dwords ptrIndex nitems elemDwords elemPwords : Nat}
    {first : BPtr}
    (run : setListStruct body dwords ptrIndex nitems elemDwords elemPwords b = .ok first b') :
    ∃ tag : BPtr, first = ⟨tag.seg, tag.word + 1⟩ ∧
      b.Used body.seg (body.word + dwords + ptrIndex) ∧
      Placed b ⟨body.seg, body.word + dwords + ptrIndex⟩ tag (1 + nitems * (elemDwords + elemPwords))
        (fun off => wpMakeList off .composite (nitems * (elemDwords + elemPwords))) b' ∧
      b'.wordAt tag.seg tag.word = wpMakeStruct nitems elemDwords elemPwords ∧
      ∀ i < nitems * (elemDwords + elemPwords) * 8,
        (b'.seg tag.seg).data ((tag.word + 1) * 8 + i) = 0 := by
  have checked := slot_ends (b := b) body dwords ptrIndex
  unfold setListStruct at run
  split at run
  · cases run
  · next at' b₁ atSlot =>
    rw [atSlot] at checked
    obtain ⟨rfl, rfl, inUse⟩ := checked
    dsimp only at run inUse
    have ends := allocWords_ends wf (1 + nitems * (elemDwords + elemPwords))
    split at run
    · cases run
    · next s w b₂ found =>
      rw [found] at ends
      obtain ⟨allocated, -⟩ := ends
      split at run
      · cases run
      · next written =>
        cases run
        have start : w = (b₁.seg s).words := allocated.start
        have tagUsed : b₂.Used s w := allocated.used_new (i := 0) (by omega)
        have tagged := writes_storeW allocated.wf tagUsed
          (wpMakeStruct nitems elemDwords elemPwords)
        have filled : Writes (bodyBytes ⟨s, w⟩ (1 + nitems * (elemDwords + elemPwords))) b₂ _ :=
          tagged.mono fun s' i _ touches => by
            obtain ⟨rfl, word⟩ := touches
            exact ⟨rfl, show w * 8 ≤ i by omega,
              show i < (w + (1 + nitems * (elemDwords + elemPwords))) * 8 by omega⟩
        obtain ⟨placed, same⟩ := placed_of_run ⟨body.seg, body.word + dwords + ptrIndex⟩ ⟨s, w⟩
          allocated (by omega) filled (fun off => wpMakeList_lt off _ _) inUse
          written
        dsimp only at same
        refine ⟨⟨s, w⟩, rfl, inUse, placed, ?_, fun i hi => ?_⟩
        · calc b'.wordAt s w
              = (b₂.storeW s w (wpMakeStruct nitems elemDwords elemPwords)).wordAt s w := by
                refine word_congr fun k hk => ?_
                have there := same k (by omega)
                rwa [show w * 8 + k = 8 * w + k by omega] at there
            _ = wpMakeStruct nitems elemDwords elemPwords :=
                wordAt_storeW_self _ _ _ (wpMakeStruct_lt _ _ _)
        · have there := same (8 + i) (by omega)
          rw [show w * 8 + (8 + i) = (w + 1) * 8 + i by omega] at there
          rw [there]
          have other : ((b₂.storeW s w (wpMakeStruct nitems elemDwords elemPwords)).seg s).data
              ((w + 1) * 8 + i) = (b₂.seg s).data ((w + 1) * 8 + i) := by
            simp only [storeW, setData, setSeg_seg, if_true]
            exact storeWord_of_ne (by omega)
          rw [other, allocated.data_eq]
          apply wf.clear
          omega

/-- A text is placed as its bytes and zeros. -/
theorem setText_placed (wf : b.Wf) {dwords ptrIndex : Nat} {text : List UInt8}
    (run : setText body dwords ptrIndex text b = .ok () b') :
    ∃ host : BPtr, b.Used body.seg (body.word + dwords + ptrIndex) ∧
      Placed b ⟨body.seg, body.word + dwords + ptrIndex⟩ host (wordsFor (text.length + 1))
        (fun off => wpMakeList off .byte (text.length + 1)) b' ∧
      ∀ i < wordsFor (text.length + 1) * 8, (b'.seg host.seg).data (host.word * 8 + i) =
        ofList text i := by
  obtain ⟨inUse, written⟩ := withSlot_ok run
  have some : wordsFor (text.length + 1) ≠ 0 := by
    unfold wordsFor
    omega
  obtain ⟨host, mem, placed, cleared, same⟩ := writeListBody_placed wf inUse some
    (fillBytes_fillsOnly (Nat.le_succ _)) written
  refine ⟨host, inUse, placed, fun i hi => (same i hi).trans ?_⟩
  rw [fillBytes]
  by_cases inside : i < text.length
  · exact blit_inside inside
  · rw [blit_outside (by omega), cleared i hi]
    simp [ofList, not_lt.mp inside]

end

end Builder

/-! ## Reading through a slot -/

namespace Message

open Builder

variable {m : Message} {b : Builder} {make : Int → Nat} {own : Nat → Nat → Prop}
  {slotSeg slotWord bodySeg bodyWord price : Nat} {p : Ptr}

theorem BuiltFrom.inSegment (built : m.BuiltFrom b) (wf : b.Wf) {s w : Nat} (inUse : b.Used s w) :
    m.InSegment s w := by
  have segLt := wf.lt_of_used inUse
  rw [built.nsegs] at segLt
  exact ⟨segLt, by rw [← built.words s segLt]; exact inUse⟩

theorem BuiltFrom.readWord_eq (built : m.BuiltFrom b) (wf : b.Wf) {s w : Nat}
    (inUse : b.Used s w) : m.readWord s w = b.wordAt s w := by
  obtain ⟨segLt, inside⟩ := built.inSegment wf inUse
  exact word_congr fun k hk => (built.bytes s segLt _ (by omega)).symm

theorem BuiltFrom.loadLe_eq (built : m.BuiltFrom b) {s k n : Nat} (segLt : s < b.nsegs)
    (inside : n + k ≤ (b.seg s).words * 8) :
    loadLe k (m.seg s).data n = loadLe k (b.seg s).data n := by
  rw [built.nsegs] at segLt
  rw [built.words s segLt] at inside
  exact loadLe_congr fun i hi => (built.bytes s segLt _ (by omega)).symm

/-- Every pointer that is made for the object at `bodyWord` of segment `bodySeg`
names `p`, for at most `price`. -/
structure Names (m : Message) (make : Int → Nat) (bodySeg bodyWord : Nat) (p : Ptr)
    (price : Nat) : Prop where
  near : ∀ depth word : Nat, OffsetFits ((bodyWord : Int) - word - 1) →
    ∃ cost ≤ price, m.target (depth + 1) bodySeg word (make ((bodyWord : Int) - word - 1)) =
      some (p, cost)
  landed : bodyWord < 2 ^ 29 →
    ∃ cost ≤ price, m.padTarget (wpMakeFar false bodyWord bodySeg) (make 0) = some (p, cost)

/-- A slot that leads to an object names it, however it leads there. -/
theorem Names.slotTarget (names : m.Names make bodySeg bodyWord p price)
    (leads : b.Leads make bodySeg bodyWord own slotSeg slotWord) (built : m.BuiltFrom b)
    (wf : b.Wf) (few : m.nsegs < 2 ^ 32) (bodyIn : bodySeg < m.nsegs)
    (inUse : b.Used slotSeg slotWord) (depth : Nat) :
    ∃ cost ≤ price + 3, m.slotTarget (depth + 2) slotSeg slotWord = some (p, cost) := by
  have inside := built.inSegment wf inUse
  have notNull (two : Bool) (off seg : Nat) : wpMakeFar two off seg ≠ 0 := by
    unfold wpMakeFar
    split <;> omega
  cases leads with
  | near reads fits =>
      obtain ⟨cost, cheap, resolves⟩ := names.near (depth + 1) slotWord fits
      exact ⟨cost + 1, by omega,
        slotTarget_eq inside ((built.readWord_eq wf inUse).trans reads) resolves⟩
  | @far _ _ pad reads held padUsed padLt lands fits =>
      obtain ⟨cost, cheap, resolves⟩ := names.near depth pad fits
      refine ⟨cost + 1 + 1, by omega,
        slotTarget_eq inside ((built.readWord_eq wf inUse).trans reads) ?_⟩
      rw [target, if_neg (notNull _ _ _), wpKind_makeFar]
      dsimp only
      rw [wpFarTwo_makeFar, wpFarSeg_makeFar, wpFarOff_makeFar, Nat.mod_eq_of_lt padLt,
        Nat.mod_eq_of_lt (bodyIn.trans few), if_neg (by simp),
        if_neg (not_not.mpr (built.inSegment wf padUsed)), built.readWord_eq wf padUsed, lands,
        resolves]
      rfl
  | @doubleFar _ _ padSeg pad reads held tagHeld tagUsed padLt lands bodyLt tag =>
      obtain ⟨cost, cheap, resolves⟩ := names.landed bodyLt
      refine ⟨cost + 2 + 1, by omega,
        slotTarget_eq inside ((built.readWord_eq wf inUse).trans reads) ?_⟩
      have padUsed : b.Used padSeg pad := Nat.lt_of_succ_lt tagUsed
      have padIn := built.inSegment wf tagUsed
      rw [target, if_neg (notNull _ _ _), wpKind_makeFar]
      dsimp only
      rw [wpFarTwo_makeFar, wpFarSeg_makeFar, wpFarOff_makeFar, Nat.mod_eq_of_lt padLt,
        Nat.mod_eq_of_lt (padIn.1.trans few), if_pos rfl, doubleFarTarget, if_neg,
        built.readWord_eq wf padUsed, built.readWord_eq wf tagUsed, lands, tag, resolves]
      · rfl
      · rintro (outside | outside)
        · exact outside (built.inSegment wf padUsed)
        · exact outside padIn

/-! ### Structs and lists -/

/-- What a landing pad with this far word and a tag names. -/
theorem padTarget_far (tag : Nat) (segLt : bodySeg < 2 ^ 32) (bodyLt : bodyWord < 2 ^ 29) :
    m.padTarget (wpMakeFar false bodyWord bodySeg) tag =
      match wpKind tag with
      | .struct =>
          some (structPtr bodySeg bodyWord tag, wpStructDwords tag + wpStructPwords tag)
      | .list =>
          if wpListEsize tag = .composite then
            if ¬m.InSegment bodySeg bodyWord then none
            else
              let out := compositePtr bodySeg bodyWord (m.readWord bodySeg bodyWord)
              some (out, 1 + out.count * out.stepWords)
          else some (listPtr bodySeg bodyWord tag, 0)
      | _ => none := by
  have single : ¬(wpKind (wpMakeFar false bodyWord bodySeg) ≠ .far ∨
      wpFarTwo (wpMakeFar false bodyWord bodySeg) = true) := by
    simp [wpKind_makeFar, wpFarTwo_makeFar]
  unfold padTarget
  rw [wpFarSeg_makeFar, wpFarOff_makeFar, Nat.mod_eq_of_lt segLt, Nat.mod_eq_of_lt bodyLt]
  exact if_neg single

/-- A struct inside its segment. -/
theorem names_struct {dwords pwords : Nat} (segLt : bodySeg < m.nsegs) (few : m.nsegs < 2 ^ 32)
    (inside : bodyWord + (dwords + pwords) ≤ (m.seg bodySeg).words) (some : dwords + pwords ≠ 0)
    (dwordsLt : dwords < 2 ^ 16) (pwordsLt : pwords < 2 ^ 16) :
    m.Names (fun off => wpMakeStruct off dwords pwords) bodySeg bodyWord
      (structAt bodySeg bodyWord dwords pwords) (dwords + pwords) where
  near depth word fits := by
    have notNull (off : Int) : wpMakeStruct off dwords pwords ≠ 0 := by
      unfold wpMakeStruct
      rw [Nat.mod_eq_of_lt dwordsLt, Nat.mod_eq_of_lt pwordsLt]
      omega
    have sizes (off : Int) : wpStructDwords (wpMakeStruct off dwords pwords) +
        wpStructPwords (wpMakeStruct off dwords pwords) = dwords + pwords := by
      rw [wpStructDwords_makeStruct, wpStructPwords_makeStruct, Nat.mod_eq_of_lt dwordsLt,
        Nat.mod_eq_of_lt pwordsLt]
    refine ⟨_, le_rfl, ?_⟩
    rw [target_near (notNull _) (by simp)]
    simp only [wpKind_makeStruct]
    have bodyEq : (word : Int) + 1 +
        wpOffset (wpMakeStruct ((bodyWord : Int) - word - 1) dwords pwords) = bodyWord := by
      rw [wpOffset_makeStruct _ _ fits]
      omega
    rw [structTarget_eq bodyEq segLt (by rwa [sizes]), structPtr_make dwordsLt pwordsLt, sizes]
  landed bodyLt := by
    refine ⟨_, le_rfl, ?_⟩
    rw [padTarget_far _ (segLt.trans few) bodyLt]
    simp only [wpKind_makeStruct]
    rw [structPtr_make dwordsLt pwordsLt, wpStructDwords_makeStruct, wpStructPwords_makeStruct,
      Nat.mod_eq_of_lt dwordsLt, Nat.mod_eq_of_lt pwordsLt]

/-- A struct without sections, whose handle is its own slot. -/
theorem slotTarget_empty (depth : Nat) (inUse : m.InSegment slotSeg slotWord)
    (reads : m.readWord slotSeg slotWord = wpMakeStruct (-1) 0 0) :
    m.slotTarget (depth + 1) slotSeg slotWord = some (structAt slotSeg slotWord 0 0, 1) :=
  slotTarget_struct (Nat.succ_ne_zero depth) inUse.1 reads (by decide) (by constructor <;> decide)
    (by decide) (by decide) (by omega) inUse.2 (by have := inUse.2; omega)

/-- A struct list inside its segment, whose tag is its first word. -/
theorem names_composite {tag words : Nat} (segLt : bodySeg < m.nsegs) (few : m.nsegs < 2 ^ 32)
    (reads : m.readWord bodySeg bodyWord = tag)
    (inside : bodyWord + 1 + tagCount tag * (wpStructDwords tag + wpStructPwords tag) ≤
      (m.seg bodySeg).words) :
    m.Names (fun off => wpMakeList off .composite words) bodySeg bodyWord
      (compositePtr bodySeg bodyWord tag)
      (tagCount tag * (wpStructDwords tag + wpStructPwords tag) + 1) where
  near depth word fits := by
    have notNull (off : Int) : wpMakeList off .composite words ≠ 0 := by
      unfold wpMakeList
      omega
    refine ⟨_, le_rfl, ?_⟩
    rw [target_near (notNull _) (by simp)]
    simp only [wpKind_makeList]
    have start : sizeT ((word : Int) + 1 +
        wpOffset (wpMakeList ((bodyWord : Int) - word - 1) .composite words)) = bodyWord := by
      have below := lt_of_words_le inside
      rw [wpOffset_makeList _ _ fits,
        show (word : Int) + 1 + ((bodyWord : Int) - word - 1) = bodyWord by omega]
      exact sizeT_of_lt (by omega)
    rw [listTarget, if_pos (wpListEsize_makeList _ _ _), start,
      compositeTarget_eq segLt reads inside]
  landed bodyLt := by
    have tagIn : m.InSegment bodySeg bodyWord := ⟨segLt, by omega⟩
    refine ⟨_, le_rfl, ?_⟩
    rw [padTarget_far _ (segLt.trans few) bodyLt]
    simp only [wpKind_makeList]
    rw [if_pos (wpListEsize_makeList _ _ _), if_neg (not_not.mpr tagIn), reads]
    exact congrArg Option.some (Prod.ext rfl (Nat.add_comm _ _))

/-- A packed or pointer list inside its segment. -/
theorem names_list {esize : ElemSize} {count : Nat} (segLt : bodySeg < m.nsegs)
    (few : m.nsegs < 2 ^ 32) (plain : esize ≠ .composite) (countLt : count < 2 ^ 29)
    (inside : bodyWord + listBodyWords esize count ≤ (m.seg bodySeg).words) :
    m.Names (fun off => wpMakeList off esize count) bodySeg bodyWord
      { Ptr.zero with seg := bodySeg, word := bodyWord, kind := .list, esize := esize, count := count }
      (listBodyWords esize count) where
  near depth word fits := by
    have notNull (off : Int) : wpMakeList off esize count ≠ 0 := by
      unfold wpMakeList
      omega
    refine ⟨_, le_rfl, ?_⟩
    rw [target_near (notNull _) (by simp)]
    simp only [wpKind_makeList]
    have start : sizeT ((word : Int) + 1 +
        wpOffset (wpMakeList ((bodyWord : Int) - word - 1) esize count)) = bodyWord := by
      have below := lt_of_words_le inside
      rw [wpOffset_makeList _ _ fits,
        show (word : Int) + 1 + ((bodyWord : Int) - word - 1) = bodyWord by omega]
      exact sizeT_of_lt (by omega)
    rw [listTarget, wpListEsize_makeList, if_neg plain, start, primitiveTarget_eq]
    · simp only [listPtr, wpListEsize_makeList, wpListCount_makeList, Nat.mod_eq_of_lt countLt]
    · simp only [wpListEsize_makeList, wpListCount_makeList, Nat.mod_eq_of_lt countLt]
      exact fun _ => ⟨segLt, inside⟩
  landed bodyLt := by
    refine ⟨0, Nat.zero_le _, ?_⟩
    rw [padTarget_far _ (segLt.trans few) bodyLt]
    simp only [wpKind_makeList]
    rw [wpListEsize_makeList, if_neg plain]
    simp only [listPtr, wpListEsize_makeList, wpListCount_makeList, Nat.mod_eq_of_lt countLt]

end Message

end CapnpJanet
