import CapnpJanet.Builder.Frame
import CapnpJanet.Canonical.Copier

/-!
# What a deep copy leaves alone

A copy writes its slot and words it has allocated itself, whether it succeeds
or fails half way: every other word of the builder that was in use keeps its
contents.
-/

namespace CapnpJanet

open ByteMemory Outcome

namespace Builder

variable {b b' : Builder}

/-- Growing the last segment without a ceiling. -/
theorem grown_growLocal (wf : b.Wf) {s : Nat} (need : Nat) (segLt : s < b.nsegs) :
    Grown b (b.setSeg s (growLocal (b.seg s) need)) ∧ need ≤ (growLocal (b.seg s) need).cap := by
  unfold growLocal
  generalize firstEq : (if (b.seg s).cap ≠ 0 then (b.seg s).cap * 2 else 16) = first
  have larger : (b.seg s).cap ≤ first ∧ 0 < first := by
    rw [← firstEq]
    split <;> omega
  split
  · have grows := le_growCap need first need
    exact ⟨grown_regrow wf segLt (larger.1.trans grows),
      need_le_growCap larger.2 (Nat.le_add_left _ _)⟩
  · next enough =>
      have same : b.setSeg s (b.seg s) = b := by simp [setSeg]
      rw [same]
      exact ⟨Grown.refl wf, not_lt.mp enough⟩

/-- `alloc_local` always succeeds. -/
theorem allocLocal_spec (wf : b.Wf) (n : Nat) :
    ∃ w b', allocLocal n b = .ok (b.nsegs - 1, w) b' ∧ Allocated b (b.nsegs - 1) w n b' ∧
      b'.nsegs = b.nsegs := by
  have some := wf.nonempty
  have segLt : b.nsegs - 1 < b.nsegs := by omega
  unfold allocLocal
  dsimp only
  split
  · next none =>
      subst none
      exact ⟨_, _, rfl, ⟨wf, le_rfl, segLt, rfl, rfl, fun _ _ => rfl, fun _ => rfl, rfl, rfl⟩, rfl⟩
  · rw [if_neg (by omega)]
    obtain ⟨grown, room⟩ := grown_growLocal wf ((b.seg (b.nsegs - 1)).words + n) segLt
    have words := grown.words_eq (b.nsegs - 1)
    refine ⟨_, _, rfl, grown.allocated (allocated_bump grown.wf ?_ ?_), rfl⟩
    · rwa [grown.nsegs_eq]
    · rw [words]
      simpa using room

theorem storeWords_writes (wf : b.Wf) {seg start n : Nat} (w : Nat → Nat)
    (inUse : ∀ i < n, b.Used seg (start + i)) :
    Writes (slotsFrom seg start n) b (b.storeWords seg start w n) := by
  induction n with
  | zero => exact Writes.refl wf
  | succ n ih =>
      have before := ih fun i hi => inUse i (Nat.lt_succ_of_lt hi)
      have last := writes_storeW before.wf (before.used (inUse n (Nat.lt_succ_self n))) (w n)
      have wider : ∀ s i, i < (b.seg s).words * 8 → slotsFrom seg start n s i →
          slotsFrom seg start (n + 1) s i := by
        rintro s i - ⟨rfl, low, high⟩
        exact ⟨rfl, low, by omega⟩
      refine (before.mono wider).trans last ?_
      rintro s i - ⟨rfl, slot⟩
      exact ⟨rfl, by omega, by omega⟩

end Builder

namespace Message

open Builder CopyM

/-- However a copy step ends, it has changed only the bytes `touched`. -/
def Confined {α : Type} (touched : Nat → Nat → Prop) (x : CopyM α) (st : CopyState) : Prop :=
  Ends (x st) (fun _ st' => Writes touched st.b st'.b) fun st' => Writes touched st.b st'.b

/-- A copier of children that stays inside the slot it is given. -/
def CopiesInside (copy : Nat → Nat → Ptr → CopyM Unit) : Prop :=
  ∀ seg word src st, st.b.Wf → st.b.Used seg word → Confined (slotBytes seg word)
    (copy seg word src) st

variable {m : Message} {copy : Nat → Nat → Ptr → CopyM Unit}

theorem allocLocal_ends {st : CopyState} (wf : st.b.Wf) (n : Nat) :
    Ends (allocLocal n st) (fun at' st' => Allocated st.b at'.1 at'.2 n st'.b) fun _ => False := by
  obtain ⟨w, b', run, allocated, -⟩ := allocLocal_spec wf n
  unfold allocLocal
  rw [run]
  exact allocated

theorem orFail_ends {α : Type} {code : Status} {x : CopyM α} {st : CopyState}
    {ok : α → CopyState → Prop} {failed : CopyState → Prop} (ends : Ends (x st) ok failed) :
    Ends (orFail code x st) ok failed := by
  unfold orFail
  cases run : x st with
  | ok a st' =>
      rw [run] at ends
      exact ends
  | error rc st' =>
      rw [run] at ends
      exact ends

/-- A read changes the budget only. -/
theorem reading_ends (read : Nat → Resolved) (st : CopyState) :
    Ends (reading read st) (fun r st' => r = read st.left ∧ st'.b = st.b ∧ st'.left = r.left)
      fun _ => False := ⟨rfl, rfl, rfl⟩

theorem store_confined {seg word : Nat} {st : CopyState} (wf : st.b.Wf)
    (inUse : st.b.Used seg word) (w : Nat) : Confined (slotBytes seg word) (store seg word w) st :=
  writes_storeW wf inUse w

theorem writeStructBodyData_ends {seg body nd : Nat} {src : Ptr} {st : CopyState} (wf : st.b.Wf)
    (inUse : ∀ i < nd, st.b.Used seg (body + i)) :
    Ends (m.writeStructBodyData seg body nd src st)
      (fun _ st' => Writes (slotsFrom seg body nd) st.b st'.b) fun _ => False :=
  storeWords_writes wf _ inUse

/-- Counting the pointers to keep changes the budget only. -/
theorem countPwords_ends (m : Message) (src : Ptr) (st : CopyState) :
    Ends (m.countPwords src st) (fun _ st' => st'.b = st.b) fun _ => False := rfl

theorem countComposite_ends (m : Message) (list : Ptr) (st : CopyState) :
    Ends (m.countComposite list st) (fun _ st' => st'.b = st.b) fun _ => False := rfl

theorem copyChild_confined (inside : CopiesInside copy) {seg slot : Nat} {src : Ptr} {k : Nat}
    {st : CopyState} (wf : st.b.Wf) (inUse : st.b.Used seg slot) :
    Confined (slotBytes seg slot) (m.copyChild copy seg slot src k) st := by
  unfold Confined copyChild
  split
  · refine (reading_ends _ st).bind (fun child st' after => ?_) fun _ none => none.elim
    obtain ⟨-, same, -⟩ := after
    split
    · have refused : Ends ((throw .kind : CopyM PUnit) st') (fun _ _ => False)
          fun st'' => Writes (slotBytes seg slot) st.b st''.b := by
        rw [← same]
        exact Writes.refl (same ▸ wf)
      exact refused.bind (fun _ _ none => none.elim) fun _ writes => writes
    · have copied := inside seg slot child.out st' (same ▸ wf) (same ▸ inUse)
      unfold Confined at copied
      rw [same] at copied
      exact orFail_ends copied
  · exact store_confined wf inUse 0

/-- Steps on fresh slots, one after the other, leave everything older alone. -/
theorem upTo_confined (place : Nat → Nat → Nat → Prop) {touched : Nat → Nat → Prop}
    {st₀ st : CopyState} {n : Nat} {body : Nat → CopyM Unit} (before : Writes touched st₀.b st.b)
    (fresh : ∀ i < n, ∀ s a, a < (st₀.b.seg s).words * 8 → place i s a → touched s a)
    (round : ∀ i < n, ∀ st' : CopyState, st'.b.Wf →
      (∀ s w, st.b.Used s w → st'.b.Used s w) → Confined (place i) (body i) st') :
    Ends (upTo n body st) (fun _ st' => Writes touched st₀.b st'.b)
      fun st' => Writes touched st₀.b st'.b := by
  have steps : Ends (upTo n body st)
      (fun _ st' => Writes touched st₀.b st'.b ∧ ∀ s w, st.b.Used s w → st'.b.Used s w)
      fun st' => Writes touched st₀.b st'.b := by
    refine Ends.upTo (fun _ (st' : CopyState) => Writes touched st₀.b st'.b ∧
      ∀ s w, st.b.Used s w → st'.b.Used s w) ⟨before, fun _ _ old => old⟩ ?_
    rintro i hi st' ⟨writes, still⟩
    refine (round i hi st' writes.wf still).mono (fun _ st'' step => ?_) fun st'' step => ?_
    · exact ⟨writes.trans step (fresh i hi), fun s w old => step.used (still s w old)⟩
    · exact writes.trans step (fresh i hi)
  exact steps.mono (fun _ _ done => done.1) fun _ failed => failed

theorem writeStructToSlot_confined (inside : CopiesInside copy) {seg word : Nat} {src : Ptr}
    {st : CopyState} (wf : st.b.Wf) (inUse : st.b.Used seg word) :
    Confined (slotBytes seg word) (m.writeStructToSlot copy seg word src) st := by
  unfold Confined writeStructToSlot
  dsimp only
  refine (countPwords_ends m src st).bind (fun np st₁ same => ?_) fun _ none => none.elim
  split
  · have stored := store_confined (same ▸ wf) (same ▸ inUse) (wpMakeStruct (-1) 0 0)
    unfold Confined at stored
    rwa [same] at stored
  · refine (allocLocal_ends (same ▸ wf) _).bind (fun at' st₂ allocated => ?_) fun _ none => none.elim
    rw [same] at allocated
    obtain ⟨bodySeg, body⟩ := at'
    dsimp only at allocated ⊢
    have start := allocated.start
    refine (store_confined allocated.wf (allocated.used inUse) _).bind (fun _ st₃ stored => ?_)
      fun _ failed => allocated.writes.trans failed fun _ _ _ touches => touches
    have before₃ := allocated.writes.trans stored fun _ _ _ touches => touches
    have bodyUsed : ∀ i < m.trimmedDwords src src.dwords + np, st₃.b.Used bodySeg (body + i) :=
      fun i hi => stored.used (allocated.used_new hi)
    refine (writeStructBodyData_ends stored.wf fun i hi => bodyUsed i (by omega)).bind
      (fun _ st₄ written => ?_) fun _ none => none.elim
    have before₄ := before₃.trans written fun s i old touches => absurd old (by
      obtain ⟨rfl, low, -⟩ := touches
      omega)
    refine upTo_confined
      (fun k => slotBytes bodySeg (body + m.trimmedDwords src src.dwords + k)) before₄ ?_ ?_
    · rintro k hk s i old ⟨rfl, slot⟩
      omega
    · intro k hk st' wf' still
      refine copyChild_confined inside wf' (still _ _ (written.used ?_))
      rw [Nat.add_assoc]
      exact bodyUsed _ (by omega)

theorem copyElement_confined (inside : CopiesInside copy) {seg first nd np : Nat} {list : Ptr}
    {i : Nat} {st : CopyState} (wf : st.b.Wf)
    (inUse : ∀ k < nd + np, st.b.Used seg (first + i * (nd + np) + k)) :
    Confined (slotsFrom seg (first + i * (nd + np)) (nd + np))
      (m.copyElement copy seg first nd np list i) st := by
  unfold Confined copyElement
  refine (reading_ends _ st).bind (fun el st₁ after => ?_) fun _ none => none.elim
  obtain ⟨-, same, -⟩ := after
  have wf₁ : st₁.b.Wf := same ▸ wf
  rw [← same] at inUse ⊢
  split
  · have refused : Ends ((throw .kind : CopyM PUnit) st₁) (fun _ _ => False)
        fun st' => Writes (slotsFrom seg (first + i * (nd + np)) (nd + np)) st₁.b st'.b :=
      Writes.refl wf₁
    exact refused.bind (fun _ _ none => none.elim) fun _ writes => writes
  · refine (writeStructBodyData_ends wf₁ fun k hk => inUse k (by omega)).bind
      (fun _ st₂ written => ?_) fun _ none => none.elim
    have before : Writes (slotsFrom seg (first + i * (nd + np)) (nd + np)) st₁.b st₂.b :=
      written.mono fun s a _ touches => by
        obtain ⟨rfl, low, high⟩ := touches
        exact ⟨rfl, low, by omega⟩
    refine upTo_confined (fun k => slotBytes seg (first + i * (nd + np) + nd + k)) before ?_ ?_
    · rintro k hk s a - ⟨rfl, slot⟩
      exact ⟨rfl, by omega, by omega⟩
    · intro k hk st' wf' still
      refine copyChild_confined inside wf' (still _ _ (written.used ?_))
      rw [Nat.add_assoc]
      exact inUse _ (by omega)

theorem writeCompositeToSlot_confined (inside : CopiesInside copy) {seg word : Nat} {list : Ptr}
    {st : CopyState} (wf : st.b.Wf) (inUse : st.b.Used seg word) :
    Confined (slotBytes seg word) (m.writeCompositeToSlot copy seg word list) st := by
  unfold Confined writeCompositeToSlot
  refine (countComposite_ends m list st).bind (fun sizes st₁ same => ?_) fun _ none => none.elim
  obtain ⟨nd, np⟩ := sizes
  rw [← same] at wf inUse ⊢
  dsimp only
  refine (allocLocal_ends wf _).bind (fun at' st₂ allocated => ?_) fun _ none => none.elim
  obtain ⟨tagSeg, tagWord⟩ := at'
  dsimp only at allocated ⊢
  have start := allocated.start
  have grown : Writes (slotBytes seg word) st₁.b st₂.b := allocated.writes
  have bodyUsed : ∀ k < list.count * (nd + np), st₂.b.Used tagSeg (tagWord + 1 + k) := by
    intro k hk
    rw [Nat.add_assoc]
    exact allocated.used_new (by omega)
  refine (store_confined allocated.wf (allocated.used_new (i := 0) (by omega)) _).bind
    (fun _ st₃ tagged => ?_) fun _ failed => grown.trans failed ?_
  · have before₃ := grown.trans tagged fun s i old touches => absurd old (by
      obtain ⟨rfl, slot⟩ := touches
      omega)
    refine (store_confined tagged.wf (tagged.used (allocated.used inUse)) _).bind
      (fun _ st₄ stored => ?_) fun _ failed => before₃.trans failed fun _ _ _ touches => touches
    have before₄ := before₃.trans stored fun _ _ _ touches => touches
    refine upTo_confined
      (fun i => slotsFrom tagSeg (tagWord + 1 + i * (nd + np)) (nd + np)) before₄ ?_ ?_
    · rintro i hi s a old ⟨rfl, low, -⟩
      omega
    · intro i hi st' wf' still
      refine copyElement_confined inside wf' fun k hk => still _ _ (stored.used (tagged.used ?_))
      rw [Nat.add_assoc]
      exact bodyUsed _ (by
        calc i * (nd + np) + k < i * (nd + np) + (nd + np) := by omega
          _ = (i + 1) * (nd + np) := (Nat.succ_mul _ _).symm
          _ ≤ list.count * (nd + np) := Nat.mul_le_mul_right _ hi)
  · rintro s i old ⟨rfl, slot⟩
    omega

theorem placePointers_ends {seg word n : Nat} {st : CopyState} (wf : st.b.Wf) :
    Ends (placePointers seg word n st)
      (fun at' st' => Writes (slotBytes seg word) st.b st'.b ∧
        ∀ i < n, ¬st.b.Used at'.1 (at'.2 + i) ∧ st'.b.Used at'.1 (at'.2 + i))
      fun _ => False := by
  unfold placePointers
  split
  · exact (allocLocal_ends wf _).mono (fun at' st' allocated =>
      ⟨allocated.writes, fun i hi => ⟨allocated.not_used_before i, allocated.used_new hi⟩⟩)
      fun _ none => none
  · exact ⟨Writes.refl wf, fun i hi => absurd hi (by omega)⟩

theorem copyPointer_confined (inside : CopiesInside copy) {seg start : Nat} {list : Ptr} {i : Nat}
    {st : CopyState} (wf : st.b.Wf) (inUse : st.b.Used seg (start + i)) :
    Confined (slotBytes seg (start + i)) (m.copyPointer copy seg start list i) st := by
  unfold Confined copyPointer
  refine (reading_ends _ st).bind (fun el st₁ after => ?_) fun _ none => none.elim
  obtain ⟨-, same, -⟩ := after
  rw [← same] at wf inUse ⊢
  split
  · have refused : Ends ((throw .kind : CopyM PUnit) st₁) (fun _ _ => False)
        fun st' => Writes (slotBytes seg (start + i)) st₁.b st'.b := Writes.refl wf
    exact refused.bind (fun _ _ none => none.elim) fun _ writes => writes
  · exact orFail_ends (inside _ _ _ _ wf inUse)

theorem writePointersToSlot_confined (inside : CopiesInside copy) {seg word : Nat} {list : Ptr}
    {st : CopyState} (wf : st.b.Wf) (inUse : st.b.Used seg word) :
    Confined (slotBytes seg word) (m.writePointersToSlot copy seg word list) st := by
  unfold Confined writePointersToSlot
  refine (placePointers_ends wf).bind (fun at' st₁ after => ?_) fun _ none => none.elim
  obtain ⟨grown, slots⟩ := after
  dsimp only
  refine (store_confined grown.wf (grown.used inUse) _).bind (fun _ st₂ stored => ?_)
    fun _ failed => grown.trans failed fun _ _ _ touches => touches
  have before := grown.trans stored fun _ _ _ touches => touches
  refine upTo_confined (fun i => slotBytes at'.1 (at'.2 + i)) before ?_ ?_
  · rintro i hi s a old ⟨rfl, slot⟩
    exact absurd (slots i hi).1 (by unfold Used; omega)
  · intro i hi st' wf' still
    exact copyPointer_confined inside wf' (still _ _ (stored.used (slots i hi).2))

theorem writePackedToSlot_confined {seg word : Nat} {list : Ptr} {st : CopyState} (wf : st.b.Wf)
    (inUse : st.b.Used seg word) :
    Confined (slotBytes seg word) (m.writePackedToSlot seg word list) st := by
  unfold Confined writePackedToSlot
  dsimp only
  generalize sizeEq : (list.count * list.esize.bits + 7) / 8 = nbytes
  split
  · refine (allocLocal_ends wf _).bind (fun at' st₁ allocated => ?_) fun _ none => none.elim
    obtain ⟨startSeg, startWord⟩ := at'
    dsimp only at allocated ⊢
    have start := allocated.start
    have size := allocated.words_self
    have room : nbytes ≤ wordsFor nbytes * 8 := by unfold wordsFor; omega
    have grown : Writes (slotBytes seg word) st.b st₁.b := allocated.writes
    have filled : Ends (m.copyBody startSeg startWord nbytes list st₁)
        (fun _ st₂ => Writes (slotsFrom startSeg startWord (wordsFor nbytes)) st₁.b st₂.b)
        fun _ => False := by
      apply writes_setData allocated.wf
      · rintro i ⟨-, -, below⟩
        omega
      · intro i outside
        have apart : i < startWord * 8 ∨ (startWord + wordsFor nbytes) * 8 ≤ i := by
          by_contra within
          exact outside ⟨rfl, by omega, by omega⟩
        rw [blit_outside (by omega), blit_outside (by omega)]
    refine filled.bind (fun _ st₂ written => ?_) fun _ none => none.elim
    have before := grown.trans written fun s i old touches => absurd old (by
      obtain ⟨rfl, low, -⟩ := touches
      omega)
    exact (store_confined written.wf (written.used (allocated.used inUse)) _).mono
      (fun _ _ stored => before.trans stored fun _ _ _ touches => touches)
      fun _ failed => before.trans failed fun _ _ _ touches => touches
  · exact store_confined wf inUse _

/-- A copy changes its slot and fresh words only. -/
theorem copyPtrToWord_confined (m : Message) (room : Nat) : CopiesInside (m.copyPtrToWord room) := by
  induction room with
  | zero => exact fun _ _ _ _ wf _ => Writes.refl wf
  | succ room ih =>
      intro seg word src st wf inUse
      rw [copyPtrToWord]
      cases src.kind with
      | null => exact store_confined wf inUse 0
      | cap => exact Writes.refl wf
      | struct => exact writeStructToSlot_confined ih wf inUse
      | list =>
          dsimp only [writeListToSlot]
          cases src.esize with
          | composite => exact writeCompositeToSlot_confined ih wf inUse
          | ptr => exact writePointersToSlot_confined ih wf inUse
          | _ => exact writePackedToSlot_confined wf inUse

/-! ## A copy adds no segment -/

/-- The builders of both states have equally many segments. -/
def SameSegs (st st' : CopyState) : Prop := st'.b.nsegs = st.b.nsegs

theorem SameSegs.refl (st : CopyState) : SameSegs st st := rfl

theorem SameSegs.trans (st st' st'' : CopyState) (first : SameSegs st st')
    (second : SameSegs st' st'') : SameSegs st st'' := Eq.trans second first

theorem onBuilder_sameSegs {f : Builder → Builder} (same : ∀ b, (f b).nsegs = b.nsegs) :
    Keeps SameSegs (onBuilder f) := fun st => same st.b

theorem storeWords_nsegs (b : Builder) (seg start : Nat) (w : Nat → Nat) (n : Nat) :
    (b.storeWords seg start w n).nsegs = b.nsegs := by
  induction n with
  | zero => rfl
  | succ n ih => exact ih

theorem store_sameSegs (seg word w : Nat) : Keeps SameSegs (store seg word w) :=
  onBuilder_sameSegs fun _ => rfl

theorem reading_sameSegs (read : Nat → Resolved) : Keeps SameSegs (reading read) := fun _ => rfl

theorem allocLocal_sameSegs (n : Nat) : Keeps SameSegs (allocLocal n) := by
  intro st
  unfold allocLocal Builder.allocLocal
  dsimp only
  split
  · next run =>
    split at run
    · cases run
      rfl
    · split at run
      · cases run
      · cases run
        rfl
  · next run =>
    split at run
    · cases run
    · split at run
      · cases run
        rfl
      · cases run

theorem orFail_sameSegs {α : Type} {code : Status} {x : CopyM α} (keeps : Keeps SameSegs x) :
    Keeps SameSegs (orFail code x) := fun st => orFail_ends (keeps st)

section
variable (keeps : ∀ seg word src, Keeps SameSegs (copy seg word src))
include keeps

theorem copyChild_sameSegs (seg slot : Nat) (src : Ptr) (k : Nat) :
    Keeps SameSegs (m.copyChild copy seg slot src k) := by
  unfold copyChild
  split
  · refine (reading_sameSegs _).bind SameSegs.trans fun child => ?_
    split
    · exact (Keeps.throw SameSegs.refl _).bind SameSegs.trans
        fun _ => orFail_sameSegs (keeps _ _ _)
    · exact orFail_sameSegs (keeps _ _ _)
  · exact store_sameSegs _ _ _

theorem writeStructToSlot_sameSegs (seg word : Nat) (src : Ptr) :
    Keeps SameSegs (m.writeStructToSlot copy seg word src) := by
  unfold writeStructToSlot
  refine Keeps.bind SameSegs.trans (fun _ => rfl) fun np => ?_
  split
  · exact store_sameSegs _ _ _
  · refine (allocLocal_sameSegs _).bind SameSegs.trans fun at' => ?_
    refine (store_sameSegs _ _ _).bind SameSegs.trans fun _ => ?_
    refine (onBuilder_sameSegs fun b => storeWords_nsegs b _ _ _ _).bind SameSegs.trans fun _ => ?_
    exact Keeps.upTo SameSegs.refl SameSegs.trans fun k => copyChild_sameSegs keeps _ _ _ _

theorem writeCompositeToSlot_sameSegs (seg word : Nat) (list : Ptr) :
    Keeps SameSegs (m.writeCompositeToSlot copy seg word list) := by
  unfold writeCompositeToSlot
  refine Keeps.bind SameSegs.trans (fun _ => rfl) fun sizes => ?_
  refine (allocLocal_sameSegs _).bind SameSegs.trans fun at' => ?_
  refine (store_sameSegs _ _ _).bind SameSegs.trans fun _ => ?_
  refine (store_sameSegs _ _ _).bind SameSegs.trans fun _ => ?_
  refine Keeps.upTo SameSegs.refl SameSegs.trans fun i => ?_
  unfold copyElement
  refine (reading_sameSegs _).bind SameSegs.trans fun el => ?_
  have body : Keeps SameSegs (do
      m.writeStructBodyData at'.1 (at'.2 + 1 + i * (sizes.1 + sizes.2)) sizes.1 el.out
      upTo sizes.2 fun k =>
        m.copyChild copy at'.1 (at'.2 + 1 + i * (sizes.1 + sizes.2) + sizes.1 + k) el.out k) :=
    (onBuilder_sameSegs fun b => storeWords_nsegs b _ _ _ _).bind SameSegs.trans fun _ =>
      Keeps.upTo SameSegs.refl SameSegs.trans fun k => copyChild_sameSegs keeps _ _ _ _
  split
  · exact (Keeps.throw SameSegs.refl _).bind SameSegs.trans fun _ => body
  · exact body

theorem writePointersToSlot_sameSegs (seg word : Nat) (list : Ptr) :
    Keeps SameSegs (m.writePointersToSlot copy seg word list) := by
  have placed : Keeps SameSegs (placePointers seg word list.count) := by
    unfold placePointers
    split
    · exact allocLocal_sameSegs _
    · exact Keeps.pure SameSegs.refl _
  unfold writePointersToSlot
  refine placed.bind SameSegs.trans fun at' => ?_
  refine (store_sameSegs _ _ _).bind SameSegs.trans fun _ => ?_
  refine Keeps.upTo SameSegs.refl SameSegs.trans fun i => ?_
  unfold copyPointer
  refine (reading_sameSegs _).bind SameSegs.trans fun el => ?_
  split
  · exact (Keeps.throw SameSegs.refl _).bind SameSegs.trans fun _ => orFail_sameSegs (keeps _ _ _)
  · exact orFail_sameSegs (keeps _ _ _)

end

theorem writePackedToSlot_sameSegs (m : Message) (seg word : Nat) (list : Ptr) :
    Keeps SameSegs (m.writePackedToSlot seg word list) := by
  unfold writePackedToSlot
  dsimp only
  split
  · refine (allocLocal_sameSegs _).bind SameSegs.trans fun at' => ?_
    have filled (nbytes : Nat) : Keeps SameSegs (m.copyBody at'.1 at'.2 nbytes list) :=
      onBuilder_sameSegs fun _ => rfl
    exact (filled _).bind SameSegs.trans fun _ => store_sameSegs _ _ _
  · exact store_sameSegs _ _ _

/-- A copy stays in the segments the builder has. -/
theorem copyPtrToWord_sameSegs (m : Message) (room seg word : Nat) (src : Ptr) :
    Keeps SameSegs (m.copyPtrToWord room seg word src) := by
  induction room generalizing seg word src with
  | zero => exact Keeps.throw SameSegs.refl _
  | succ room ih =>
      rw [copyPtrToWord]
      cases src.kind with
      | null => exact store_sameSegs _ _ _
      | cap => exact Keeps.throw SameSegs.refl _
      | struct => exact writeStructToSlot_sameSegs ih _ _ _
      | list =>
          dsimp only [writeListToSlot]
          cases src.esize with
          | composite => exact writeCompositeToSlot_sameSegs ih _ _ _
          | ptr => exact writePointersToSlot_sameSegs ih _ _ _
          | _ => exact writePackedToSlot_sameSegs _ _ _ _

end Message

namespace Builder

theorem copyPtr_nsegs (slot : BPtr) (m : Message) (src : Ptr) (left : Nat) (b : Builder) :
    Ends (copyPtr slot m src left b) (fun _ b' => b'.nsegs = b.nsegs) fun b' => b'.nsegs = b.nsegs := by
  have copied := m.copyPtrToWord_sameSegs Message.copyRoom slot.seg slot.word src ⟨b, left⟩
  unfold copyPtr
  cases run : m.copyPtrToWord Message.copyRoom slot.seg slot.word src ⟨b, left⟩ with
  | ok _ st =>
      rw [run] at copied
      exact copied
  | error rc st =>
      rw [run] at copied
      exact copied

theorem copyPtr_confined {b : Builder} (wf : b.Wf) {slot : BPtr} (inUse : b.Used slot.seg slot.word)
    (m : Message) (src : Ptr) (left : Nat) :
    Confined (slotBytes slot.seg slot.word) (copyPtr slot m src left) b := by
  have copied := m.copyPtrToWord_confined Message.copyRoom slot.seg slot.word src ⟨b, left⟩ wf inUse
  unfold Confined copyPtr
  unfold Message.Confined at copied
  cases run : m.copyPtrToWord Message.copyRoom slot.seg slot.word src ⟨b, left⟩ with
  | ok _ st =>
      rw [run] at copied
      exact copied
  | error rc st =>
      rw [run] at copied
      exact copied

end Builder

end CapnpJanet
