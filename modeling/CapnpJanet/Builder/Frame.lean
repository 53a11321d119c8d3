import CapnpJanet.Builder.Arena
import CapnpJanet.Builder.Ops

/-!
# What each builder operation leaves alone

Every operation of the builder API changes the bytes it names and words it has
allocated itself, nothing else: all other words in use stay at the same place
with the same contents, so that handles obtained earlier stay valid.  This
holds of failing operations too.
-/

namespace CapnpJanet

open ByteMemory Outcome

namespace Builder

/-- The second builder differs from the first only in the bytes `touched` and
in bytes that were not in use. -/
structure Writes (touched : Nat → Nat → Prop) (b b' : Builder) : Prop where
  wf : b'.Wf
  nsegs_le : b.nsegs ≤ b'.nsegs
  words_le : ∀ s, (b.seg s).words ≤ (b'.seg s).words
  kept : ∀ s i, i < (b.seg s).words * 8 → ¬touched s i → (b'.seg s).data i = (b.seg s).data i
  maxSegWords_eq : b'.maxSegWords = b.maxSegWords
  forceSingle_eq : b'.forceSingle = b.forceSingle

/-- The bytes of one pointer slot. -/
def slotBytes (seg word : Nat) : Nat → Nat → Prop := fun s i => s = seg ∧ i / 8 = word

/-- No byte. -/
def nowhere : Nat → Nat → Prop := fun _ _ => False

/-- Both ways an operation can end, it has changed only the bytes `touched`. -/
def Confined {α : Type} (touched : Nat → Nat → Prop) (x : BuildM α) (b : Builder) : Prop :=
  Ends (x b) (fun _ => Writes touched b) (Writes touched b)

variable {b b' b'' : Builder} {touched touched' : Nat → Nat → Prop}

theorem Confined.of_ok {α : Type} {x : BuildM α} {a : α} (confined : Confined touched x b)
    (run : x b = .ok a b') : Writes touched b b' := by
  unfold Confined at confined
  rw [run] at confined
  exact confined

namespace Writes

theorem refl (wf : b.Wf) : Writes touched b b :=
  ⟨wf, le_rfl, fun _ => le_rfl, fun _ _ _ _ => rfl, rfl, rfl⟩

/-- Two steps after each other.  The second may also change what the first has
allocated. -/
theorem trans (first : Writes touched b b') (second : Writes touched' b' b'')
    (within : ∀ s i, i < (b.seg s).words * 8 → touched' s i → touched s i) :
    Writes touched b b'' where
  wf := second.wf
  nsegs_le := first.nsegs_le.trans second.nsegs_le
  words_le s := (first.words_le s).trans (second.words_le s)
  kept s i inUse outside := by
    have still : i < (b'.seg s).words * 8 :=
      inUse.trans_le (Nat.mul_le_mul_right 8 (first.words_le s))
    rw [second.kept s i still fun touches => outside (within s i inUse touches),
      first.kept s i inUse outside]
  maxSegWords_eq := second.maxSegWords_eq.trans first.maxSegWords_eq
  forceSingle_eq := second.forceSingle_eq.trans first.forceSingle_eq

theorem mono (writes : Writes touched b b')
    (within : ∀ s i, i < (b.seg s).words * 8 → touched s i → touched' s i) :
    Writes touched' b b' :=
  { writes with
    kept := fun s i inUse outside =>
      writes.kept s i inUse fun touches => outside (within s i inUse touches) }

theorem used (writes : Writes touched b b') {s w : Nat} (before : b.Used s w) : b'.Used s w :=
  lt_of_lt_of_le before (writes.words_le s)

/-- A word in use none of whose bytes is touched keeps its contents. -/
theorem wordAt_eq (writes : Writes touched b b') {s w : Nat} (inUse : b.Used s w)
    (outside : ∀ i, i / 8 = w → ¬touched s i) : b'.wordAt s w = b.wordAt s w := by
  apply word_congr
  intro k hk
  apply writes.kept
  · unfold Used at inUse
    omega
  · exact outside _ (by omega)

end Writes

theorem Allocated.writes {s w n : Nat} (allocated : Allocated b s w n b') :
    Writes touched b b' where
  wf := allocated.wf
  nsegs_le := allocated.nsegs_le
  words_le := allocated.words_le
  kept t i _ _ := by rw [allocated.data_eq]
  maxSegWords_eq := allocated.maxSegWords_eq
  forceSingle_eq := allocated.forceSingle_eq

/-- Replacing the bytes of a segment, inside its used words. -/
theorem writes_setData (wf : b.Wf) {seg : Nat} {data : Memory}
    (inside : ∀ i, touched seg i → i < (b.seg seg).words * 8)
    (same : ∀ i, ¬touched seg i → data i = (b.seg seg).data i) :
    Writes touched b (b.setData seg data) := by
  have words : ∀ t, ((b.setData seg data).seg t).words = (b.seg t).words := by
    intro t
    by_cases eq : t = seg <;> simp [setData, eq]
  have kept : ∀ t i, ¬touched t i → ((b.setData seg data).seg t).data i = (b.seg t).data i := by
    intro t i outside
    by_cases eq : t = seg
    · subst eq
      simpa [setData] using same i outside
    · simp [setData, eq]
  refine ⟨⟨wf.nonempty, fun t => ?_, fun t i => ?_, fun t => ?_⟩, le_rfl,
    fun t => (words t).ge, fun t i _ => kept t i, rfl, rfl⟩
  · rw [words]
    by_cases eq : t = seg
    · subst eq
      simpa [setData] using wf.words_le t
    · simpa [setData, eq] using wf.words_le t
  · intro beyond
    rw [words] at beyond
    by_cases touches : touched t i ∧ t = seg
    · obtain ⟨touches, rfl⟩ := touches
      exact absurd (inside i touches) (by omega)
    · by_cases eq : t = seg
      · rw [kept t i fun touches' => touches ⟨touches', eq⟩]
        exact wf.clear t i beyond
      · simpa [setData, eq] using wf.clear t i beyond
  · rw [words]
    exact wf.unused t

/-- Storing a word that is in use. -/
theorem writes_storeW (wf : b.Wf) {seg word : Nat} (inUse : b.Used seg word) (w : Nat) :
    Writes (slotBytes seg word) b (b.storeW seg word w) := by
  apply writes_setData wf
  · rintro i ⟨-, rfl⟩
    unfold Used at inUse
    omega
  · intro i outside
    exact storeWord_of_ne fun eq => outside ⟨rfl, eq⟩

@[simp]
theorem storeW_words (b : Builder) (seg word w s : Nat) :
    ((b.storeW seg word w).seg s).words = (b.seg s).words := by
  by_cases eq : s = seg <;> simp [storeW, setData, eq]

theorem storeW_used {seg word w s i : Nat} : (b.storeW seg word w).Used s i ↔ b.Used s i := by
  unfold Used
  rw [storeW_words]

/-- A stored word, and the others. -/
theorem wordAt_storeW (b : Builder) (seg word w s i : Nat) :
    (b.storeW seg word w).wordAt s i =
      if s = seg ∧ i = word then w % 2 ^ 64 else b.wordAt s i := by
  by_cases eq : s = seg
  · subst eq
    simp [wordAt, storeW, setData, word_storeWord]
  · simp [wordAt, storeW, setData, eq]

/-! ## Pointers -/

/-- A pointer is written into its slot and into words allocated for landing
pads. -/
theorem writePtr_ends (wf : b.Wf) (make : Int → Nat) {slotSeg slotWord : Nat}
    (inUse : b.Used slotSeg slotWord) (bodySeg bodyWord : Nat) :
    Ends (writePtr make slotSeg slotWord bodySeg bodyWord b)
      (fun _ => Writes (slotBytes slotSeg slotWord) b) (· = b) := by
  unfold writePtr
  split
  · exact writes_storeW wf inUse _
  · have single := allocIn_ends wf bodySeg 1
    cases run : allocIn bodySeg 1 b with
    | ok pad b₁ =>
        rw [run] at single
        obtain ⟨allocated, -⟩ := single
        have landing := writes_storeW allocated.wf (allocated.used_new (i := 0) (by omega))
          (make ((bodyWord : Int) - pad - 1))
        have slot := writes_storeW landing.wf (landing.used (allocated.used inUse))
          (wpMakeFar false pad bodySeg)
        refine (allocated.writes.trans landing ?_).trans slot fun _ _ _ touches => touches
        rintro s i old ⟨rfl, padWord⟩
        exact absurd old (by have start := allocated.start; omega)
    | error rc b₁ =>
        simp only [run, ends_error] at single
        subst single
        obtain ⟨b₂, padRun, allocated, -⟩ := allocPadSegment_spec wf (n := 2) (by omega)
          (by unfold builderMaxSegmentWords; omega)
        dsimp only
        rw [padRun]
        have first := writes_storeW allocated.wf (allocated.used_new (i := 0) (by omega))
          (wpMakeFar false bodyWord bodySeg)
        have second := writes_storeW first.wf (first.used (allocated.used_new (i := 1) (by omega)))
          (make 0)
        have slot := writes_storeW second.wf (second.used (first.used (allocated.used inUse)))
          (wpMakeFar true 0 b₁.nsegs)
        have empty := wf.unused b₁.nsegs le_rfl
        refine ((allocated.writes.trans first ?_).trans second ?_).trans slot
          fun _ _ _ touches => touches
        · rintro s i old ⟨rfl, -⟩
          omega
        · rintro s i old ⟨rfl, -⟩
          omega

/-! ## Structs and fields -/

/-- A struct handle is the slot itself when the struct has no sections, and
points to fresh words otherwise. -/
theorem struct_ends (wf : b.Wf) {ptr : BPtr} (inUse : b.Used ptr.seg ptr.word)
    (dwords pwords : Nat) :
    Ends (struct ptr dwords pwords b)
      (fun body b' => Writes (slotBytes ptr.seg ptr.word) b b' ∧
        (body = ptr ∨ ¬b.Used body.seg body.word ∧ body.seg < b'.nsegs))
      (Writes (slotBytes ptr.seg ptr.word) b) := by
  unfold struct
  split
  · exact ⟨writes_storeW wf inUse _, .inl rfl⟩
  have words := allocWords_ends wf (dwords + pwords)
  cases run : allocWords (dwords + pwords) b with
  | error rc b₁ =>
      simp only [run, ends_error] at words
      subst words
      exact Writes.refl wf
  | ok at' b₁ =>
      obtain ⟨bodySeg, bodyWord⟩ := at'
      simp only [run, ends_ok] at words
      obtain ⟨allocated, -⟩ := words
      have fresh := allocated.not_used_before 0
      have pointer := writePtr_ends allocated.wf (fun off => wpMakeStruct off dwords pwords)
        (allocated.used inUse) bodySeg bodyWord
      dsimp only [writeStructPtr]
      cases written : writePtr (fun off => wpMakeStruct off dwords pwords) ptr.seg ptr.word bodySeg
          bodyWord b₁ with
      | error rc b₂ =>
          simp only [written, ends_error] at pointer
          subst pointer
          exact allocated.writes
      | ok _ b₂ =>
          rw [written] at pointer
          have writes : Writes (slotBytes ptr.seg ptr.word) b₁ b₂ := pointer
          exact ⟨allocated.writes.trans writes fun _ _ _ touches => touches,
            .inr ⟨fresh, allocated.seg_lt.trans_le writes.nsegs_le⟩⟩

/-- `body_ok` -/
theorem bodyOk_iff (body : BPtr) (absEnd : Nat) :
    b.bodyOk body absEnd = true ↔ body.seg < b.nsegs ∧ absEnd ≤ (b.seg body.seg).words * 8 := by
  simp [bodyOk]

/-- The bytes of a field: `width` bytes at an offset from a body. -/
def fieldBytes (body : BPtr) (byteOffset width : Nat) : Nat → Nat → Prop := fun s i =>
  s = body.seg ∧ body.word * 8 + byteOffset ≤ i ∧ i < body.word * 8 + byteOffset + width

theorem setScalar_confined (wf : b.Wf) (width : Nat) (body : BPtr) (byteOffset value : Nat) :
    Confined (fieldBytes body byteOffset width) (setScalar width body byteOffset value) b := by
  unfold Confined setScalar
  dsimp only
  split
  · exact Writes.refl wf
  · next inside =>
      have bound := ((bodyOk_iff _ _).mp (not_not.mp inside)).2
      apply writes_setData wf
      · rintro i ⟨-, -, below⟩
        omega
      · intro i outside
        by_cases before : i < body.word * 8 + byteOffset
        · exact storeLe_of_lt before
        · exact storeLe_of_le (not_lt.mp fun below => outside ⟨rfl, not_lt.mp before, below⟩)

theorem setBool_confined (wf : b.Wf) (body : BPtr) (bitOffset : Nat) (value : Bool) :
    Confined (fieldBytes body (bitOffset / 8) 1) (setBool body bitOffset value) b := by
  unfold Confined setBool
  dsimp only
  split
  · exact Writes.refl wf
  · next inside =>
      have bound := ((bodyOk_iff _ _).mp (not_not.mp inside)).2
      apply writes_setData wf
      · rintro i ⟨-, -, below⟩
        omega
      · intro i outside
        apply blit_outside
        by_contra within
        exact outside ⟨rfl, by omega, by omega⟩

theorem slot_ends (body : BPtr) (dwords ptrIndex : Nat) :
    Ends (slot body dwords ptrIndex b)
      (fun at' b' => b' = b ∧ at' = ⟨body.seg, body.word + dwords + ptrIndex⟩ ∧
        b.Used at'.seg at'.word) (· = b) := by
  unfold slot
  dsimp only
  split
  · rfl
  · next inside => exact ⟨rfl, rfl, not_le.mp inside⟩

/-- An operation that has checked its slot has done the rest. -/
theorem withSlot_ok {b' : Builder} {body : BPtr} {dwords ptrIndex : Nat}
    {write : Nat → Nat → BuildM Unit} (run : withSlot body dwords ptrIndex write b = .ok () b') :
    b.Used body.seg (body.word + dwords + ptrIndex) ∧
      write body.seg (body.word + dwords + ptrIndex) b = .ok () b' := by
  have checked := slot_ends (b := b) body dwords ptrIndex
  unfold withSlot at run
  split at run
  · cases run
  · next at' start atSlot =>
    rw [atSlot] at checked
    obtain ⟨rfl, rfl, inUse⟩ := checked
    exact ⟨inUse, run⟩

/-- An operation that checks its slot first is confined where the rest is. -/
theorem withSlot_confined (wf : b.Wf) {body : BPtr} {dwords ptrIndex : Nat}
    {write : Nat → Nat → BuildM Unit}
    (rest : ∀ seg word, b.Used seg word → Confined (slotBytes seg word) (write seg word) b) :
    Confined (slotBytes body.seg (body.word + dwords + ptrIndex))
      (withSlot body dwords ptrIndex write) b := by
  have checked := slot_ends (b := b) body dwords ptrIndex
  unfold Confined withSlot
  cases run : slot body dwords ptrIndex b with
  | error rc b₁ =>
      simp only [run, ends_error] at checked
      subst checked
      exact Writes.refl wf
  | ok at' b₁ =>
      simp only [run, ends_ok] at checked
      obtain ⟨rfl, rfl, inUse⟩ := checked
      exact rest _ _ inUse

theorem storeW_confined (wf : b.Wf) {seg word : Nat} (inUse : b.Used seg word) (w : Nat) :
    Confined (slotBytes seg word) (fun b => .ok () (b.storeW seg word w)) b :=
  writes_storeW wf inUse w

theorem clearPtr_confined (wf : b.Wf) (body : BPtr) (dwords ptrIndex : Nat) :
    Confined (slotBytes body.seg (body.word + dwords + ptrIndex)) (clearPtr body dwords ptrIndex)
      b :=
  withSlot_confined wf fun _ _ inUse => storeW_confined wf inUse 0

theorem setCap_confined (wf : b.Wf) (body : BPtr) (dwords ptrIndex capIndex : Nat) :
    Confined (slotBytes body.seg (body.word + dwords + ptrIndex))
      (setCap body dwords ptrIndex capIndex) b :=
  withSlot_confined wf fun _ _ inUse => storeW_confined wf inUse (wpMakeCap capIndex)

/-! ## Lists -/

/-- A filler that stays inside the `nbytes` bytes it is given. -/
def FillsOnly (nbytes : Nat) (fill : Memory → Nat → Memory) : Prop :=
  ∀ mem p i, i < p ∨ p + nbytes ≤ i → fill mem p i = mem i

theorem fillBytes_fillsOnly {bytes : List UInt8} {nbytes : Nat} (fits : bytes.length ≤ nbytes) :
    FillsOnly nbytes (fillBytes bytes) := by
  intro mem p i outside
  exact blit_outside (by omega)

theorem storeElems_fillsOnly (width : Nat) (items : Nat → Nat) (n : Nat) :
    FillsOnly (n * width) fun mem p => storeElems width items mem p n := by
  intro mem p i outside
  dsimp only
  induction n with
  | zero => rfl
  | succ n ih =>
      have size : (n + 1) * width = n * width + width := Nat.succ_mul n width
      have rest := ih (by omega)
      rw [storeElems, ← rest]
      rcases outside with before | behind
      · exact storeLe_of_lt (by omega)
      · exact storeLe_of_le (by omega)

theorem storeBits_fillsOnly (items : Nat → Bool) (n : Nat) :
    FillsOnly ((n + 7) / 8) fun mem p => storeBits items mem p n := by
  intro mem p i outside
  dsimp only
  induction n with
  | zero => rfl
  | succ n ih =>
      have rest := ih (by omega)
      rw [storeBits]
      split
      · rw [blit_outside (by omega), rest]
      · exact rest

theorem writeListBody_confined (wf : b.Wf) {seg word : Nat} (inUse : b.Used seg word)
    (esize : ElemSize) (count : Nat) {nbytes : Nat} {fill : Memory → Nat → Memory}
    (fills : FillsOnly nbytes fill) :
    Confined (slotBytes seg word) (writeListBody seg word esize count nbytes fill) b := by
  unfold Confined writeListBody
  split
  · next some =>
      have words := allocWords_ends wf (wordsFor nbytes)
      cases run : allocWords (wordsFor nbytes) b with
      | error rc b₁ =>
          simp only [run, ends_error] at words
          subst words
          exact Writes.refl wf
      | ok at' b₁ =>
          obtain ⟨startSeg, startWord⟩ := at'
          simp only [run, ends_ok] at words
          obtain ⟨allocated, -⟩ := words
          dsimp only
          have start := allocated.start
          have size := allocated.words_self
          have room : nbytes ≤ wordsFor nbytes * 8 := by unfold wordsFor; omega
          -- the body is written inside the words just allocated
          have filled : Writes (fun s i => s = startSeg ∧ startWord * 8 ≤ i ∧
              i < (startWord + wordsFor nbytes) * 8) b₁ (b₁.setData startSeg
                (fill (blit (wordsFor nbytes * 8) (b₁.seg startSeg).data (startWord * 8)
                  fun _ => 0) (startWord * 8))) := by
            apply writes_setData allocated.wf
            · rintro i ⟨-, -, below⟩
              omega
            · intro i outside
              have apart : i < startWord * 8 ∨ (startWord + wordsFor nbytes) * 8 ≤ i := by
                by_contra within
                exact outside ⟨rfl, by omega, by omega⟩
              rw [fills _ _ _ (by omega), blit_outside (by omega)]
          have pointer := writePtr_ends filled.wf (fun off => wpMakeList off esize count)
            (filled.used (allocated.used inUse)) startSeg startWord
          have grown : Writes (slotBytes seg word) b b₁ := allocated.writes
          have body := grown.trans filled fun s i old touches => absurd old (by
            obtain ⟨rfl, low, -⟩ := touches
            omega)
          exact pointer.mono (fun _ _ writes => body.trans writes fun _ _ _ touches => touches)
            fun _ unchanged => unchanged.symm ▸ body
  · exact (writePtr_ends wf (fun off => wpMakeList off esize count) inUse seg (word + 1)).mono
      (fun _ _ writes => writes) fun _ unchanged => unchanged.symm ▸ Writes.refl wf

theorem writeTextAt_confined (wf : b.Wf) {seg word : Nat} (inUse : b.Used seg word)
    (text : List UInt8) : Confined (slotBytes seg word) (writeTextAt seg word text) b :=
  writeListBody_confined wf inUse .byte _ (fillBytes_fillsOnly (Nat.le_succ _))

theorem setText_confined (wf : b.Wf) (body : BPtr) (dwords ptrIndex : Nat) (text : List UInt8) :
    Confined (slotBytes body.seg (body.word + dwords + ptrIndex))
      (setText body dwords ptrIndex text) b :=
  withSlot_confined wf fun _ _ inUse => writeTextAt_confined wf inUse text

theorem setDataList_confined (wf : b.Wf) (body : BPtr) (dwords ptrIndex : Nat)
    (bytes : List UInt8) :
    Confined (slotBytes body.seg (body.word + dwords + ptrIndex))
      (setDataList body dwords ptrIndex bytes) b :=
  withSlot_confined wf fun _ _ inUse =>
    writeListBody_confined wf inUse .byte _ (fillBytes_fillsOnly le_rfl)

theorem setListPrim_confined (wf : b.Wf) (body : BPtr) (dwords ptrIndex : Nat) (esize : ElemSize)
    (nitems elemBytes : Nat) (items : Nat → Nat) :
    Confined (slotBytes body.seg (body.word + dwords + ptrIndex))
      (setListPrim body dwords ptrIndex esize nitems elemBytes items) b :=
  withSlot_confined wf fun _ _ inUse =>
    writeListBody_confined wf inUse esize nitems (storeElems_fillsOnly elemBytes items nitems)

theorem setListBool_confined (wf : b.Wf) (body : BPtr) (dwords ptrIndex nitems : Nat)
    (items : Nat → Bool) :
    Confined (slotBytes body.seg (body.word + dwords + ptrIndex))
      (setListBool body dwords ptrIndex nitems items) b :=
  withSlot_confined wf fun _ _ inUse =>
    writeListBody_confined wf inUse .bit nitems (storeBits_fillsOnly items nitems)

/-- The slots of a text list, from `start` on. -/
def slotsFrom (seg start n : Nat) : Nat → Nat → Prop := fun s i =>
  s = seg ∧ start ≤ i / 8 ∧ i / 8 < start + n

theorem writeTexts_confined (wf : b.Wf) {seg start : Nat} (texts : List (List UInt8))
    (inUse : ∀ i < texts.length, b.Used seg (start + i)) :
    Confined (slotsFrom seg start texts.length) (writeTexts seg start texts) b := by
  induction texts generalizing b start with
  | nil => exact Writes.refl wf
  | cons text rest ih =>
      have one := writeTextAt_confined wf (inUse 0 (by simp)) text
      have firstSlot : ∀ s i, i < (b.seg s).words * 8 → slotBytes seg (start + 0) s i →
          slotsFrom seg start (text :: rest).length s i := by
        rintro s i - ⟨rfl, slot⟩
        refine ⟨rfl, by omega, ?_⟩
        rw [slot, List.length_cons]
        omega
      unfold Confined at one ⊢
      rw [writeTexts]
      dsimp only
      rw [Nat.add_zero] at one firstSlot
      cases run : writeTextAt seg start text b with
      | error rc b₁ =>
          rw [run] at one
          exact Writes.mono one firstSlot
      | ok _ b₁ =>
          rw [run] at one
          have writes : Writes (slotBytes seg start) b b₁ := one
          have restUsed : ∀ i < rest.length, b₁.Used seg (start + 1 + i) := by
            intro i hi
            have before := inUse (i + 1) (by simpa using hi)
            rw [show start + 1 + i = start + (i + 1) by omega]
            exact writes.used before
          have tail := ih writes.wf restUsed
          have wider : ∀ s i, i < (b.seg s).words * 8 → slotsFrom seg (start + 1) rest.length s i →
              slotsFrom seg start (text :: rest).length s i := by
            rintro s i - ⟨rfl, low, high⟩
            refine ⟨rfl, by omega, ?_⟩
            rw [List.length_cons]
            omega
          exact tail.mono (fun _ _ after => (writes.mono firstSlot).trans after wider)
            fun _ after => (writes.mono firstSlot).trans after wider

theorem setListTextN_confined (wf : b.Wf) (body : BPtr) (dwords ptrIndex : Nat)
    (items : List (List UInt8)) :
    Confined (slotBytes body.seg (body.word + dwords + ptrIndex))
      (setListTextN body dwords ptrIndex items) b := by
  refine withSlot_confined wf fun seg word inUse => ?_
  unfold Confined
  dsimp only
  by_cases empty : items.length = 0
  · obtain rfl := List.length_eq_zero_iff.mp empty
    have pointer := writePtr_ends wf (fun off => wpMakeList off .ptr 0) inUse seg (word + 1)
    simp only [List.length_nil, ne_eq, not_true_eq_false, if_false, writeListPtr]
    cases written : writePtr (fun off => wpMakeList off .ptr 0) seg word seg (word + 1) b with
    | error rc b₁ =>
        simp only [written, ends_error] at pointer
        subst pointer
        exact Writes.refl wf
    | ok _ b₁ =>
        rw [written] at pointer
        exact pointer
  · rw [if_pos empty]
    have words := allocWords_ends wf items.length
    cases run : allocWords items.length b with
    | error rc b₁ =>
        simp only [run, ends_error] at words
        subst words
        exact Writes.refl wf
    | ok at' b₁ =>
        obtain ⟨listSeg, listStart⟩ := at'
        simp only [run, ends_ok] at words
        obtain ⟨allocated, -⟩ := words
        have pointer := writePtr_ends allocated.wf (fun off => wpMakeList off .ptr items.length)
          (allocated.used inUse) listSeg listStart
        dsimp only [writeListPtr]
        cases written : writePtr (fun off => wpMakeList off .ptr items.length) seg word listSeg
            listStart b₁ with
        | error rc b₂ =>
            simp only [written, ends_error] at pointer
            subst pointer
            exact allocated.writes
        | ok _ b₂ =>
            rw [written] at pointer
            have writes : Writes (slotBytes seg word) b₁ b₂ := pointer
            have before := allocated.writes.trans writes fun _ _ _ touches => touches
            have texts := writeTexts_confined writes.wf items fun i hi =>
              writes.used (allocated.used_new hi)
            have start := allocated.start
            have fresh : ∀ s i, i < (b.seg s).words * 8 → slotsFrom listSeg listStart items.length s i →
                slotBytes seg word s i := by
              rintro s i old ⟨rfl, low, -⟩
              omega
            exact texts.mono (fun _ _ after => before.trans after fresh)
              fun _ after => before.trans after fresh

/-- The first element of a struct list lies behind its tag, in fresh words. -/
theorem setListStruct_ends (wf : b.Wf) (body : BPtr)
    (dwords ptrIndex nitems elemDwords elemPwords : Nat) :
    Ends (setListStruct body dwords ptrIndex nitems elemDwords elemPwords b)
      (fun first b' => Writes (slotBytes body.seg (body.word + dwords + ptrIndex)) b b' ∧
        ¬b.Used first.seg first.word ∧ first.seg < b'.nsegs)
      (Writes (slotBytes body.seg (body.word + dwords + ptrIndex)) b) := by
  have checked := slot_ends (b := b) body dwords ptrIndex
  unfold setListStruct
  cases run : slot body dwords ptrIndex b with
  | error rc b₁ =>
      simp only [run, ends_error] at checked
      subst checked
      exact Writes.refl wf
  | ok at' b₁ =>
      simp only [run, ends_ok] at checked
      obtain ⟨rfl, rfl, inUse⟩ := checked
      dsimp only at inUse ⊢
      have words := allocWords_ends wf (1 + nitems * (elemDwords + elemPwords))
      cases run : allocWords (1 + nitems * (elemDwords + elemPwords)) b₁ with
      | error rc b₂ =>
          simp only [run, ends_error] at words
          subst words
          exact Writes.refl wf
      | ok at' b₂ =>
          obtain ⟨tagSeg, tagWord⟩ := at'
          simp only [run, ends_ok] at words
          obtain ⟨allocated, -⟩ := words
          have start := allocated.start
          have tagged := writes_storeW allocated.wf (allocated.used_new (i := 0) (by omega))
            (wpMakeStruct nitems elemDwords elemPwords)
          rw [Nat.add_zero] at tagged
          have pointer := writePtr_ends tagged.wf
            (fun off => wpMakeList off .composite (nitems * (elemDwords + elemPwords)))
            (tagged.used (allocated.used inUse)) tagSeg tagWord
          have grown : Writes (slotBytes body.seg (body.word + dwords + ptrIndex)) b₁ b₂ :=
            allocated.writes
          have before := grown.trans tagged fun s i old touches => absurd old (by
            obtain ⟨rfl, slot⟩ := touches
            omega)
          dsimp only [writeListPtr]
          cases written : writePtr
              (fun off => wpMakeList off .composite (nitems * (elemDwords + elemPwords))) body.seg
              (body.word + dwords + ptrIndex) tagSeg tagWord
              (b₂.storeW tagSeg tagWord (wpMakeStruct nitems elemDwords elemPwords)) with
          | error rc b₃ =>
              simp only [written, ends_error] at pointer
              subst pointer
              exact before
          | ok _ b₃ =>
              rw [written] at pointer
              have writes : Writes (slotBytes body.seg (body.word + dwords + ptrIndex)) _ b₃ := pointer
              refine ⟨before.trans writes fun _ _ _ touches => touches, ?_, ?_⟩
              · unfold Used
                dsimp only
                omega
              · exact (allocated.seg_lt.trans_le tagged.nsegs_le).trans_le writes.nsegs_le

end Builder

end CapnpJanet
