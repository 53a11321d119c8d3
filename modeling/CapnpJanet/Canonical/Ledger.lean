import CapnpJanet.Message.Bounds
import CapnpJanet.Value.Measure
import CapnpJanet.Value.Nesting

/-!
# What a canonical copy costs

A message can lead to one object along many paths, and to itself, so the size of
its canonical form has no bound in its own size.  What bounds it is the traversal
budget.  The read of a pointer is charged for the body of the object that it
names, and the copy of the object allocates no more words than that: the words in
use and the budget left never add up to more than they did before, whether the
copy succeeds or fails.  The depth counter bounds the copies that are nested.
-/

namespace CapnpJanet

open ByteMemory Outcome

/-- Words of the body that a handle names. -/
def Ptr.bodyWords (p : Ptr) : Nat :=
  match p.form with
  | .block .struct => p.dwords + p.pwords
  | .block .composite => 1 + p.count * (p.dwords + p.pwords)
  | .block .pointers => listBodyWords p.esize p.count
  | .packed => listBodyWords p.esize p.count
  | _ => 0

namespace ReadCall

/-- The reads that follow the pointers of a message from its root, with any
budget. -/
inductive Made (m : Message) : ReadCall → Prop
  | root : Made m .root
  | next {call next : ReadCall} {out : Ptr} {left : Nat} (made : Made m call)
      (ok : (call.run m out left).rc = .ok)
      (based : next.base = some (call.run m out left).out) : Made m next

end ReadCall

namespace Message

/-- No read from the root on meets a double-far pointer. -/
def NoDoubleFar (m : Message) : Prop := ∀ call, ReadCall.Made m call → call.AvoidsDoubleFar m

/-- A handle that reads from the root have come to. -/
def Met (m : Message) (p : Ptr) : Prop := ∀ call : ReadCall, call.base = some p → ReadCall.Made m call

variable {m : Message}

/-! ## What a read is charged -/

theorem bodyWords_listPtr {seg start w : Nat} (plain : wpListEsize w ≠ .composite) :
    (listPtr seg start w).bodyWords = listBodyWords (wpListEsize w) (wpListCount w) := by
  unfold Ptr.bodyWords Ptr.form listPtr
  dsimp only
  cases esize : wpListEsize w <;> first | rfl | exact absurd esize plain

/-- The charge covers the body, unless the pointer is double-far. -/
theorem bodyWords_le_of_target {depth seg word w cost : Nat} {p : Ptr}
    (near : ¬m.usesDoubleFar depth w) (named : m.target depth seg word w = some (p, cost)) :
    p.bodyWords ≤ cost := by
  induction depth generalizing seg word w p cost with
  | zero => cases named
  | succ depth ih =>
      unfold target at named
      unfold usesDoubleFar at near
      split at named
      · cases named
        exact Nat.zero_le _
      · split at named
        · next kind =>
          split at named
          · next two => exact absurd (by simp [kind, two]) near
          · split at named
            · cases named
            · obtain ⟨⟨q, price⟩, priced, same⟩ := Option.map_eq_some_iff.mp named
              cases same
              have rest := ih (fun double => near (by simp [kind, double])) priced
              exact Nat.le_succ_of_le rest
        · unfold structTarget at named
          dsimp only at named
          split at named
          · cases named
          · cases named
            exact le_rfl
        · unfold listTarget at named
          dsimp only at named
          split at named
          · unfold compositeTarget at named
            dsimp only at named
            split at named
            · cases named
            · split at named
              · cases named
              · cases named
                exact (Nat.add_comm _ _).le
          · next plain =>
            unfold primitiveTarget at named
            dsimp only at named
            split at named
            · cases named
            · cases named
              exact (bodyWords_listPtr plain).le
        · cases named
          exact Nat.zero_le _

/-- A read of a pointer is charged for the pointer and for the body that it
names. -/
theorem resolvePtr_paid {seg word left : Nat} {out : Ptr}
    (near : ¬m.usesDoubleFar m.depthLimit (m.readWord seg word))
    (ok : (m.resolvePtr seg word m.depthLimit out left).rc = .ok) :
    (m.resolvePtr seg word m.depthLimit out left).left +
      (m.resolvePtr seg word m.depthLimit out left).out.bodyWords + 1 ≤ left := by
  obtain ⟨cost, enough, named, rest⟩ := (m.resolvePtr_agrees _ _ _ out left).of_ok ok
  unfold slotTarget at named
  split at named
  · cases named
  · obtain ⟨⟨q, price⟩, found, same⟩ := Option.map_eq_some_iff.mp named
    obtain ⟨object, total⟩ := Prod.mk.inj same
    have covered := bodyWords_le_of_target near found
    dsimp only at object total covered
    rw [← object]
    omega

/-- A read through a pointer is charged for the pointer and for the body. -/
theorem run_paid {call : ReadCall} {seg word left : Nat} {out : Ptr} (near : call.AvoidsDoubleFar m)
    (slot : call.slot = some (seg, word)) (ok : (call.run m out left).rc = .ok) :
    (call.run m out left).left + (call.run m out left).out.bodyWords + 1 ≤ left := by
  have nonempty : call = .root → m.nsegs ≠ 0 := by
    rintro rfl empty
    simp [ReadCall.run, root, empty] at ok
  rw [ReadCall.run_eq_resolvePtr out left slot nonempty] at ok ⊢
  exact resolvePtr_paid (near _ _ slot) ok

theorem getp_paid {p : Ptr} {k left : Nat} {out : Ptr}
    (near : (ReadCall.getp p k).AvoidsDoubleFar m) (ok : (m.getp p k out left).rc = .ok) :
    (m.getp p k out left).left + (m.getp p k out left).out.bodyWords ≤ left := by
  by_cases inside : p.kind = .struct ∧ k < p.pwords
  · have paid := run_paid near (if_pos inside) ok
    exact Nat.le_of_succ_le paid
  · unfold getp at ok ⊢
    split at ok
    · cases ok
    · next isStruct =>
      have past : k ≥ p.pwords := not_lt.mp fun below => inside ⟨not_not.mp isStruct, below⟩
      rw [if_neg isStruct, if_pos past]
      exact le_rfl

/-- The elements of a pointer list are read through their pointers. -/
theorem listGetp_paid {p : Ptr} {i left : Nat} {out : Ptr}
    (near : (ReadCall.listGetp p i).AvoidsDoubleFar m) (form : p.form = .block .pointers)
    (ok : (m.listGetp p i out left).rc = .ok) :
    (m.listGetp p i out left).left + (m.listGetp p i out left).out.bodyWords ≤ left := by
  obtain ⟨list, esize⟩ := Ptr.form_eq_pointers form
  by_cases inside : i < p.count
  · have paid := run_paid near (if_pos ⟨list, inside, esize⟩) ok
    exact Nat.le_of_succ_le paid
  · unfold listGetp at ok
    rw [if_neg (not_not.mpr list), if_pos (not_lt.mp inside)] at ok
    cases ok

end Message

/-! ## Words and budget -/

/-- The words of the last segment and the budget add up to at most `paid` more than
before, and no other segment has grown. -/
structure Covered (paid : Nat) (st st' : CopyState) : Prop where
  nsegs_eq : st'.b.nsegs = st.b.nsegs
  others : ∀ s, s ≠ st.b.last → (st'.b.seg s).words = (st.b.seg s).words
  total : (st'.b.seg st.b.last).words + st'.left ≤ (st.b.seg st.b.last).words + st.left + paid

namespace Covered

variable {paid more : Nat} {st st' st'' : CopyState}

theorem last_eq (covered : Covered paid st st') : st'.b.last = st.b.last := by
  rw [Builder.last, covered.nsegs_eq, Builder.last]

theorem refl (st : CopyState) : Covered 0 st st := ⟨rfl, fun _ _ => rfl, le_rfl⟩

theorem trans (first : Covered paid st st') (second : Covered more st' st'') :
    Covered (paid + more) st st'' := by
  refine ⟨second.nsegs_eq.trans first.nsegs_eq, fun s other => ?_, ?_⟩
  · rw [second.others s (first.last_eq ▸ other), first.others s other]
  · have total := second.total
    rw [first.last_eq] at total
    have before := first.total
    omega

theorem mono (covered : Covered paid st st') (enough : paid ≤ more) : Covered more st st' :=
  { covered with total := covered.total.trans (Nat.add_le_add_left enough _) }

/-- A read pays in advance. -/
theorem prepaid (same : st'.b = st.b) (charged : st'.left + paid ≤ st.left)
    (rest : Covered paid st' st'') : Covered 0 st st'' := by
  refine ⟨by rw [rest.nsegs_eq, same], fun s other => ?_, ?_⟩
  · rw [rest.others s (same ▸ other), same]
  · have total := rest.total
    rw [same] at total
    omega

/-- A read that is not followed by a copy. -/
theorem spent (same : st'.b = st.b) (less : st'.left ≤ st.left) : Covered 0 st st' :=
  prepaid same less (refl st')

/-- A step that changes no size and spends nothing. -/
theorem of_words (nsegs : st'.b.nsegs = st.b.nsegs)
    (words : ∀ s, (st'.b.seg s).words = (st.b.seg s).words) (left : st'.left = st.left) :
    Covered 0 st st' :=
  ⟨nsegs, fun s _ => words s, by rw [words, left]; exact le_rfl⟩

end Covered

namespace Message

open CopyM

/-- However a step ends, what it has allocated is covered. -/
def Covers (paid : Nat) {α : Type} (x : CopyM α) : Prop := Keeps (Covered paid) x

section
variable {α β : Type} {n paid more : Nat}

theorem Covers.mono {x : CopyM α} (covers : Covers paid x) (enough : paid ≤ more) :
    Covers more x := fun st =>
  (covers st).mono (fun _ _ covered => covered.mono enough) fun _ covered => covered.mono enough

theorem Covers.bind {x : CopyM α} {f : α → CopyM β} (first : Covers paid x)
    (next : ∀ a, Covers more (f a)) : Covers (paid + more) (x >>= f) := fun st =>
  (first st).bind
    (fun a st' before => (next a st').mono (fun _ _ rest => before.trans rest)
      fun _ rest => before.trans rest)
    fun _ before => before.mono (Nat.le_add_right _ _)

theorem covers_throw (rc : Status) : Covers 0 (throw rc : CopyM α) := Covered.refl

theorem covers_upTo {body : Nat → CopyM Unit} (round : ∀ i, Covers 0 (body i)) :
    Covers 0 (upTo n body) := Keeps.upTo Covered.refl (fun _ _ _ => Covered.trans) round

theorem covers_onBuilder {f : Builder → Builder} (nsegs : ∀ b, (f b).nsegs = b.nsegs)
    (words : ∀ b s, ((f b).seg s).words = (b.seg s).words) : Covers 0 (onBuilder f) := fun _ =>
  Covered.of_words (nsegs _) (words _) rfl

theorem covers_store (seg word w : Nat) : Covers 0 (store seg word w) :=
  covers_onBuilder (fun _ => rfl) fun _ _ => Builder.storeW_words _ _ _ _ _

theorem covers_writeStructBodyData (m : Message) (seg body nd : Nat) (src : Ptr) :
    Covers 0 (m.writeStructBodyData seg body nd src) :=
  covers_onBuilder (fun b => storeWords_nsegs b _ _ _ _)
    fun b s => Builder.storeWords_words b _ _ _ _ s

theorem covers_copyBody (m : Message) (seg start nbytes : Nat) (list : Ptr) :
    Covers 0 (m.copyBody seg start nbytes list) := by
  refine covers_onBuilder (fun _ => rfl) fun b s => ?_
  simp only [Builder.setData, Builder.setSeg_seg]
  split
  · next here => rw [here]
  · rfl

theorem covers_allocLocal (n : Nat) : Covers n (allocLocal n) := by
  intro st
  unfold allocLocal Builder.allocLocal
  dsimp only
  by_cases none : n = 0
  · rw [if_pos none]
    exact (Covered.refl st).mono (Nat.zero_le n)
  · rw [if_neg none]
    by_cases empty : st.b.nsegs = 0
    · rw [if_pos empty]
      exact (Covered.refl st).mono (Nat.zero_le n)
    · rw [if_neg empty]
      have grown (s : BSeg) (need : Nat) : (Builder.growLocal s need).words = s.words := by
        unfold Builder.growLocal
        split <;> rfl
      refine ⟨rfl, fun s other => ?_, ?_⟩
      · have behind : s ≠ st.b.nsegs - 1 := other
        simp only [Builder.bump, Builder.setSeg_seg, if_neg behind]
      · simp only [Builder.bump, Builder.setSeg_seg, Builder.last, if_true, grown]
        omega

end

/-! ## Sizes of a copy -/

theorem trimmedPwords_le (m : Message) (p : Ptr) (np left : Nat) :
    (m.trimmedPwords p np left).1 ≤ np ∧ (m.trimmedPwords p np left).2 ≤ left := by
  induction np generalizing left with
  | zero => exact ⟨le_rfl, le_rfl⟩
  | succ np ih =>
      have read := m.getp_left_le p np Ptr.zero left
      rw [trimmedPwords]
      split
      · exact ⟨le_rfl, read⟩
      · have rest := ih (m.getp p np Ptr.zero left).left
        exact ⟨Nat.le_succ_of_le rest.1, rest.2.trans read⟩

theorem compositeTrim_le {m : Message} {p : Ptr} (form : p.form = .block .composite) (n left : Nat) :
    (m.compositeTrim p n left).1 ≤ p.dwords ∧ (m.compositeTrim p n left).2.1 ≤ p.pwords ∧
      (m.compositeTrim p n left).2.2 ≤ left := by
  obtain ⟨list, esize⟩ := Ptr.form_eq_composite form
  induction n with
  | zero => exact ⟨Nat.zero_le _, Nat.zero_le _, le_rfl⟩
  | succ n ih =>
      rw [compositeTrim]
      generalize m.compositeTrim p n left = before at ih
      obtain ⟨nd, np, rest⟩ := before
      dsimp only at ih ⊢
      unfold listGetp
      rw [if_neg (not_not.mpr list)]
      by_cases past : n ≥ p.count
      · rw [if_pos past, if_pos (by simp)]
        exact ih
      · rw [if_neg past, esize]
        dsimp only
        rw [if_neg (not_not.mpr rfl)]
        have row := m.trimmedPwords_le (elemPtr p n) (elemPtr p n).pwords rest
        have data := m.trimmedDwords_le (elemPtr p n) (elemPtr p n).dwords
        exact ⟨max_le ih.1 data, max_le ih.2.1 row.1, row.2.trans ih.2.2⟩

theorem countPwords_covered (m : Message) (src : Ptr) (st : CopyState) :
    Ends (m.countPwords src st) (fun np st' => np ≤ src.pwords ∧ Covered 0 st st')
      fun _ => False := by
  have trimmed := m.trimmedPwords_le src src.pwords st.left
  exact ⟨trimmed.1, Covered.spent rfl trimmed.2⟩

theorem countComposite_covered {m : Message} {p : Ptr} (form : p.form = .block .composite)
    (st : CopyState) : Ends (m.countComposite p st)
      (fun sizes st' => sizes.1 ≤ p.dwords ∧ sizes.2 ≤ p.pwords ∧ Covered 0 st st')
      fun _ => False := by
  obtain ⟨data, pointers, spent⟩ := m.compositeTrim_le form p.count st.left
  exact ⟨data, pointers, Covered.spent rfl spent⟩

/-! ## The copier -/

/-- A copier allocates for an object no more than its body, apart from what its
own reads are charged for. -/
def CopyCovers (m : Message) (copy : Nat → Nat → Ptr → CopyM Unit) : Prop :=
  ∀ src, m.Met src → ∀ seg word, Covers src.bodyWords (copy seg word src)

section
variable {m : Message} {copy : Nat → Nat → Ptr → CopyM Unit}

/-- What a read has paid for is copied. -/
theorem covers_copyRead (copies : CopyCovers m copy) {seg slot : Nat} {read : Nat → Resolved}
    (spends : ∀ left, (read left).left ≤ left)
    (met : ∀ left, (read left).rc = .ok → m.Met (read left).out)
    (paid : ∀ left, (read left).rc = .ok →
      (read left).left + (read left).out.bodyWords ≤ left) :
    Covers 0 (do
      let child ← reading read
      if child.rc ≠ .ok then throw .kind
      orFail .alloc (copy seg slot child.out)) := by
  intro st
  refine (reading_ends read st).bind (fun child st' after => ?_) fun _ none => none.elim
  obtain ⟨rfl, same, left⟩ := after
  by_cases ok : (read st.left).rc = .ok
  · rw [if_neg (not_not.mpr ok)]
    have covers := copies _ (met _ ok) seg slot st'
    have enough := paid _ ok
    rw [← left] at enough
    exact (orFail_ends covers).mono (fun _ _ rest => Covered.prepaid same enough rest)
      fun _ rest => Covered.prepaid same enough rest
  · rw [if_pos ok]
    have less := spends st.left
    rw [← left] at less
    exact Covered.spent same less

variable (noDouble : m.NoDoubleFar) (copies : CopyCovers m copy)
include noDouble copies

theorem covers_copyChild {src : Ptr} (met : m.Met src) (seg slot k : Nat) :
    Covers 0 (m.copyChild copy seg slot src k) := by
  unfold copyChild
  split
  · exact covers_copyRead copies (fun left => m.getp_left_le src k _ left)
      (fun left ok call based => .next (met (.getp src k) rfl) ok based)
      fun left ok => getp_paid (noDouble _ (met _ rfl)) ok
  · exact covers_store seg slot 0

theorem covers_copyPointer {p : Ptr} (met : m.Met p) (form : p.form = .block .pointers)
    (seg start i : Nat) : Covers 0 (m.copyPointer copy seg start p i) := by
  refine covers_copyRead copies (fun left => m.listGetp_left_le p i _ left)
    (fun left ok call based => .next (met (.listGetp p i) rfl) ok based)
    fun left ok => listGetp_paid (noDouble _ (met _ rfl)) form ok

/-- A row of a copied object. -/
theorem covers_copyRow {src : Ptr} (met : m.Met src) (seg body nd np : Nat) :
    Covers 0 (do
      m.writeStructBodyData seg body nd src
      upTo np fun k => m.copyChild copy seg (body + nd + k) src k) :=
  (covers_writeStructBodyData m seg body nd src).bind fun _ =>
    covers_upTo fun k => covers_copyChild noDouble copies met seg _ k

theorem covers_copyElement {p : Ptr} (met : m.Met p) (seg first nd np i : Nat) :
    Covers 0 (m.copyElement copy seg first nd np p i) := by
  intro st
  refine (reading_ends _ st).bind (fun el st' after => ?_) fun _ none => none.elim
  obtain ⟨rfl, same, left⟩ := after
  have less := m.listGetp_left_le p i Ptr.zero st.left
  rw [← left] at less
  by_cases ok : (m.listGetp p i Ptr.zero st.left).rc = .ok
  · rw [if_neg (not_not.mpr ok)]
    have metElement : m.Met (m.listGetp p i Ptr.zero st.left).out := fun call based =>
      .next (met (.listGetp p i) rfl) ok based
    have row := covers_copyRow noDouble copies metElement seg (first + i * (nd + np)) nd np st'
    exact row.mono (fun _ _ rest => Covered.prepaid same less rest)
      fun _ rest => Covered.prepaid same less rest
  · rw [if_pos ok]
    exact Covered.spent same less

/-! ## Objects -/

theorem covers_writeStructToSlot {src : Ptr} (met : m.Met src) (form : src.form = .block .struct)
    (seg word : Nat) : Covers src.bodyWords (m.writeStructToSlot copy seg word src) := by
  have body : src.bodyWords = src.dwords + src.pwords := by
    rw [Ptr.bodyWords, form]
  have data := m.trimmedDwords_le src src.dwords
  intro st
  refine (m.countPwords_covered src st).bind (fun np st' after => ?_) fun _ none => none.elim
  obtain ⟨few, before⟩ := after
  have object : Covers src.bodyWords (if m.trimmedDwords src src.dwords = 0 ∧ np = 0 then
      store seg word (wpMakeStruct (-1) 0 0)
    else allocLocal (m.trimmedDwords src src.dwords + np) >>= fun at' => do
      store seg word
        (wpMakeStruct ((at'.2 : Int) - word - 1) (m.trimmedDwords src src.dwords) np)
      m.writeStructBodyData at'.1 at'.2 (m.trimmedDwords src src.dwords) src
      upTo np fun k =>
        m.copyChild copy at'.1 (at'.2 + m.trimmedDwords src src.dwords + k) src k) := by
    split
    · exact (covers_store _ _ _).mono (Nat.zero_le _)
    · refine ((covers_allocLocal _).bind fun at' => (covers_store _ _ _).bind fun _ =>
        covers_copyRow noDouble copies met _ _ _ _).mono ?_
      omega
  have rest := object st'
  exact rest.mono (fun _ _ rest => (before.trans rest).mono (Nat.zero_add _).le)
    fun _ rest => (before.trans rest).mono (Nat.zero_add _).le

theorem covers_writeCompositeToSlot {p : Ptr} (met : m.Met p) (form : p.form = .block .composite)
    (seg word : Nat) : Covers p.bodyWords (m.writeCompositeToSlot copy seg word p) := by
  have body : p.bodyWords = 1 + p.count * (p.dwords + p.pwords) := by
    rw [Ptr.bodyWords, form]
  intro st
  refine (m.countComposite_covered form st).bind (fun sizes st' after => ?_) fun _ none => none.elim
  obtain ⟨nd, np⟩ := sizes
  obtain ⟨data, pointers, before⟩ := after
  have content : p.count * (nd + np) ≤ p.count * (p.dwords + p.pwords) :=
    Nat.mul_le_mul_left _ (Nat.add_le_add data pointers)
  have object : Covers p.bodyWords (allocLocal (1 + p.count * (nd + np)) >>= fun at' => do
      store at'.1 at'.2 (wpMakeStruct p.count nd np)
      store seg word
        (wpMakeList ((at'.2 : Int) - word - 1) .composite (p.count * (nd + np)))
      upTo p.count fun i => m.copyElement copy at'.1 (at'.2 + 1) nd np p i) := by
    refine ((covers_allocLocal _).bind fun at' => (covers_store _ _ _).bind fun _ =>
      (covers_store _ _ _).bind fun _ => covers_upTo fun i =>
        covers_copyElement noDouble copies met _ _ _ _ i).mono ?_
    omega
  have rest := object st'
  exact rest.mono (fun _ _ rest => (before.trans rest).mono (Nat.zero_add _).le)
    fun _ rest => (before.trans rest).mono (Nat.zero_add _).le

theorem covers_writePointersToSlot {p : Ptr} (met : m.Met p) (form : p.form = .block .pointers)
    (seg word : Nat) : Covers p.bodyWords (m.writePointersToSlot copy seg word p) := by
  have body : p.bodyWords = p.count := by
    rw [Ptr.bodyWords, form, (Ptr.form_eq_pointers form).2]
    simp only [listBodyWords, ElemSize.bits]
    omega
  have placed : Covers p.count (placePointers seg word p.count) := by
    unfold placePointers
    split
    · exact covers_allocLocal _
    · exact fun st => (Covered.refl st).mono (Nat.zero_le _)
  rw [body]
  exact placed.bind fun at' => (covers_store _ _ _).bind fun _ =>
    covers_upTo fun i => covers_copyPointer noDouble copies met form _ _ i

omit noDouble copies in
theorem covers_writePackedToSlot {p : Ptr} (form : p.form = .packed) (seg word : Nat) :
    Covers p.bodyWords (m.writePackedToSlot seg word p) := by
  have body : Builder.wordsFor ((p.count * p.esize.bits + 7) / 8) ≤ p.bodyWords := by
    rw [Ptr.bodyWords, form]
    simp only [listBodyWords, Builder.wordsFor]
    omega
  unfold writePackedToSlot
  dsimp only
  split
  · refine ((covers_allocLocal _).bind fun at' => (covers_copyBody _ _ _ _ _).bind fun _ =>
      covers_store _ _ _).mono ?_
    omega
  · exact (covers_store _ _ _).mono (Nat.zero_le _)

end

/-- A copy is covered by the charges made for it, however it ends. -/
theorem covers_copyPtrToWord {m : Message} (noDouble : m.NoDoubleFar) (room : Nat) :
    CopyCovers m (m.copyPtrToWord room) := by
  induction room with
  | zero => exact fun src _ _ _ => (covers_throw _).mono (Nat.zero_le _)
  | succ room copies =>
      intro src met seg word
      rw [copyPtrToWord]
      cases kind : src.kind with
      | null => exact (covers_store _ _ _).mono (Nat.zero_le _)
      | cap => exact (covers_throw _).mono (Nat.zero_le _)
      | struct =>
          refine covers_writeStructToSlot noDouble copies met ?_ seg word
          unfold Ptr.form
          rw [kind]
      | list =>
          dsimp only [writeListToSlot]
          cases esize : src.esize with
          | composite =>
              refine covers_writeCompositeToSlot noDouble copies met ?_ seg word
              unfold Ptr.form
              rw [kind, esize]
          | ptr =>
              refine covers_writePointersToSlot noDouble copies met ?_ seg word
              unfold Ptr.form
              rw [kind, esize]
          | _ =>
              refine covers_writePackedToSlot ?_ seg word
              unfold Ptr.form
              rw [kind, esize]

/-! ## Nested copies -/

/-- `capnp_copy_ptr_to_word` at a depth, with its recursive calls made through
`copy`. -/
def copyPtrToWordAt (m : Message) (copy : Nat → Nat → Nat → Ptr → CopyM Unit)
    (depth slotSeg slotWord : Nat) (src : Ptr) : CopyM Unit :=
  if depth > 64 then throw .depth
  else
    match src.kind with
    | .null => store slotSeg slotWord 0
    | .cap => throw .kind
    | .list => m.writeListToSlot (copy (depth + 1)) slotSeg slotWord src
    | .struct => m.writeStructToSlot (copy (depth + 1)) slotSeg slotWord src

/-- At most 65 copies are nested.  A function that keeps to the recursion at
the depths 0 to 65 does from depth 0 on what the copier does, whatever it does
at other depths: it is never called there. -/
theorem copy_nested {m : Message} {copy : Nat → Nat → Nat → Ptr → CopyM Unit}
    (recursion : ∀ depth ≤ copyRoom, copy depth = m.copyPtrToWordAt copy depth) (room : Nat)
    (within : room ≤ copyRoom) : copy (copyRoom - room) = m.copyPtrToWord room := by
  induction room with
  | zero =>
      rw [Nat.sub_zero, recursion _ le_rfl]
      funext seg word src
      exact if_pos (by decide)
  | succ room ih =>
      have deeper : copyRoom - (room + 1) + 1 = copyRoom - room := by omega
      have shallow : ¬copyRoom - (room + 1) > 64 := by
        unfold copyRoom
        omega
      rw [recursion _ (Nat.sub_le _ _)]
      funext seg word src
      rw [copyPtrToWordAt, if_neg shallow, deeper, ih (Nat.le_of_succ_le within)]
      rfl

/-! ## Canonicalization -/

/-- What an object takes in the output is no more than its body. -/
theorem own_tree_le (m : Message) (room : Nat) (p : Ptr) : (m.tree room p).own ≤ p.bodyWords := by
  cases room with
  | zero => exact Nat.zero_le _
  | succ room =>
      cases form : p.form with
      | null => simp [tree, form, Tree.own]
      | cap => simp [tree, form, Tree.own]
      | packed =>
          rw [tree_packed form, Tree.own, Ptr.bodyWords, form]
          simp only [packedWords, packedBytes, listBodyWords]
          omega
      | block shape =>
          have links (q : Ptr) : m.usedPointers q q.pwords ≤ q.pwords := m.usedPointers_le _ _
          have data (q : Ptr) : m.trimmedDwords q q.dwords ≤ q.dwords := m.trimmedDwords_le _ _
          rw [tree_block form, Tree.own, Ptr.bodyWords, form]
          cases shape with
          | struct =>
              have rows : p.rows = 1 := by rw [Ptr.rows, form]
              have width := Nat.add_le_add (data p) (links p)
              have header : Shape.struct.header = 0 := rfl
              rw [rows, dataWords, linkWords, form, Nat.one_mul, header, Nat.zero_add]
              exact width
          | composite =>
              have rows : p.rows = p.count := by rw [Ptr.rows, form]
              rw [rows, dataWords, linkWords, form, Shape.header]
              exact Nat.add_le_add_left (Nat.mul_le_mul_left _ (Nat.add_le_add
                (Finset.sup_le fun i _ => data (elemPtr p i))
                (Finset.sup_le fun i _ => links (elemPtr p i)))) 1
          | pointers =>
              have rows : p.rows = p.count := by rw [Ptr.rows, form]
              have header : Shape.pointers.header = 0 := rfl
              rw [rows, dataWords, linkWords, form, (Ptr.form_eq_pointers form).2, header]
              simp only [listBodyWords, ElemSize.bits]
              omega

/-- The words in use, the root's among them, are no more than the words that have
been charged: word number `w` is accounted for by the charged word of this
number. -/
def Accounted (st : CopyState) : Prop :=
  st.b.nsegs = 1 ∧ (st.b.seg 0).words + st.left ≤ defaultTraversalWords

/-- The copy of `capnp_canonicalize` is paid for, however it ends. -/
theorem canonicalCopy_accounted {m : Message} (noDouble : m.limited.NoDoubleFar) {start : Builder}
    (one : start.nsegs = 1) (words : (start.seg 0).words = 1)
    (ok : (m.limited.root Ptr.zero defaultTraversalWords).rc = .ok) :
    Ends (m.limited.copyPtrToWord copyRoom 0 0
        (m.limited.root Ptr.zero defaultTraversalWords).out
        ⟨start, (m.limited.root Ptr.zero defaultTraversalWords).left⟩)
      (fun _ => Accounted) Accounted := by
  have paid : (m.limited.root Ptr.zero defaultTraversalWords).left +
      (m.limited.root Ptr.zero defaultTraversalWords).out.bodyWords + 1 ≤ defaultTraversalWords :=
    run_paid (noDouble .root .root) rfl ok
  have met : m.limited.Met (m.limited.root Ptr.zero defaultTraversalWords).out := fun call based =>
    .next .root ok based
  have covers := covers_copyPtrToWord noDouble copyRoom _ met 0 0
    ⟨start, (m.limited.root Ptr.zero defaultTraversalWords).left⟩
  have last : start.last = 0 := by rw [Builder.last, one]
  have accounted {st : CopyState} (covered : Covered
      (m.limited.root Ptr.zero defaultTraversalWords).out.bodyWords
      ⟨start, (m.limited.root Ptr.zero defaultTraversalWords).left⟩ st) : Accounted st := by
    have nsegs := covered.nsegs_eq
    have total := covered.total
    dsimp only at nsegs total
    rw [last, words] at total
    exact ⟨nsegs.trans one, by omega⟩
  exact covers.mono (fun _ _ => accounted) fun _ => accounted

/-- Canonicalization cannot be blown up.  At most 65 copies are nested.  The
read of a pointer is charged for no fewer words than the object takes in the
output, and its pointer.  At the end of the copy, also when it fails, every word
in use is accounted for by a charged word, and the output has no more words than
the budget. -/
theorem canonicalize_bounded {m : Message} (noDouble : m.limited.NoDoubleFar) :
    (∀ copy : Nat → Nat → Nat → Ptr → CopyM Unit,
      (∀ depth ≤ copyRoom, copy depth = m.limited.copyPtrToWordAt copy depth) →
        copy 0 = m.limited.copyPtrToWord copyRoom) ∧
    (∀ call, ReadCall.Made m.limited call → call.slot.isSome → ∀ out left,
      (call.run m.limited out left).rc = .ok → ∀ room,
        (m.limited.tree room (call.run m.limited out left).out).own + 1 ≤
          left - (call.run m.limited out left).left) ∧
    (∃ start, Builder.allocLocal 1 { Builder.init with forceSingle := true } = .ok (0, 0) start ∧
      (start.seg 0).words = 1 ∧
        ((m.limited.root Ptr.zero defaultTraversalWords).rc = .ok →
          Ends (m.limited.copyPtrToWord copyRoom 0 0
              (m.limited.root Ptr.zero defaultTraversalWords).out
              ⟨start, (m.limited.root Ptr.zero defaultTraversalWords).left⟩)
            (fun _ => Accounted) Accounted)) ∧
    ∀ raw, m.canonicalize = .ok raw → raw.length ≤ 8 * defaultTraversalWords := by
  obtain ⟨start, run, wf, inUse, last, words⟩ := canonicalStart
  have one : start.nsegs = 1 := by
    have some := wf.nonempty
    unfold Builder.last at last
    omega
  refine ⟨fun copy recursion => copy_nested recursion copyRoom le_rfl,
    fun call made slot out left ok room => ?_,
    ⟨start, run, words, canonicalCopy_accounted noDouble one words⟩, fun raw done => ?_⟩
  · obtain ⟨⟨seg, word⟩, there⟩ := Option.isSome_iff_exists.mp slot
    have paid := run_paid (noDouble call made) there ok
    have own := own_tree_le m.limited room (call.run m.limited out left).out
    omega
  · have ok : (m.limited.root Ptr.zero defaultTraversalWords).rc = .ok := by
      by_contra failed
      unfold canonicalize at done
      dsimp only at done
      rw [show ({ m with depthLimit := defaultDepthLimit } : Message) = m.limited from rfl,
        if_pos failed] at done
      cases done
    have accounted := canonicalCopy_accounted noDouble one words ok
    unfold canonicalize canonicalBuilder at done
    dsimp only at done
    rw [show ({ m with depthLimit := defaultDepthLimit } : Message) = m.limited from rfl,
      if_neg (not_not.mpr ok), run] at done
    dsimp only at done
    cases copy : m.limited.copyPtrToWord copyRoom 0 0
        (m.limited.root Ptr.zero defaultTraversalWords).out
        ⟨start, (m.limited.root Ptr.zero defaultTraversalWords).left⟩ with
    | error rc st =>
        rw [copy] at done
        cases done
    | ok _ st =>
        rw [copy] at done accounted
        cases done
        obtain ⟨-, few⟩ := accounted
        rw [Builder.segBytes, ByteMemory.length_toList]
        omega

/-- The reads of the message that refers to itself come to its struct again, or
to null. -/
theorem selfReferring_made {call : ReadCall} (made : ReadCall.Made selfReferring.limited call) :
    call = .root ∨ call.base = some selfPtr ∨ call.base = some (nullPtr 0 0) := by
  have target : selfReferring.limited.slotTarget defaultDepthLimit 0 0 = some (selfPtr, 2) := by
    decide +kernel
  have found {out : Ptr} {left : Nat}
      (ok : (selfReferring.limited.resolvePtr 0 0 defaultDepthLimit out left).rc = .ok) :
      (selfReferring.limited.resolvePtr 0 0 defaultDepthLimit out left).out = selfPtr := by
    obtain ⟨cost, -, named, -⟩ := (resolvePtr_agrees _ _ _ _ out left).of_ok ok
    rw [target] at named
    exact (congrArg Prod.fst (Option.some.inj named)).symm
  induction made with
  | root => exact .inl rfl
  | @next call next out left made ok based ih =>
      refine .inr ?_
      rw [based]
      have list {p : Ptr} (kind : p.kind ≠ .list) (i : Nat)
          (ok : (selfReferring.limited.listGetp p i out left).rc = .ok) : False := by
        unfold listGetp at ok
        rw [if_pos kind] at ok
        cases ok
      cases call with
      | root => exact .inl (congrArg some (found ok))
      | getp s k =>
          rcases ih with root | self | null
          · cases root
          · cases self
            cases k with
            | zero => exact .inl (congrArg some (found ok))
            | succ k => exact .inr rfl
          · cases null
            cases ok
      | listGetp p i =>
          rcases ih with root | self | null
          · cases root
          · cases self
            exact (list (by decide) i ok).elim
          · cases null
            exact (list (by decide) i ok).elim

theorem selfReferring_noDoubleFar : selfReferring.limited.NoDoubleFar := by
  intro call made seg word slot double
  have near : selfReferring.limited.usesDoubleFar defaultDepthLimit
      (selfReferring.limited.readWord 0 0) = false := by decide +kernel
  obtain ⟨rfl, rfl⟩ : seg = 0 ∧ word = 0 := by
    cases call with
    | root =>
        cases slot
        exact ⟨rfl, rfl⟩
    | getp s k =>
        rcases selfReferring_made made with root | self | null
        · cases root
        · cases self
          by_cases first : k < 1
          · rw [Nat.lt_one_iff.mp first] at slot
            cases slot
            exact ⟨rfl, rfl⟩
          · rw [ReadCall.slot, if_neg fun both => first both.2] at slot
            cases slot
        · cases null
          cases slot
    | listGetp p i =>
        rcases selfReferring_made made with root | self | null
        · cases root
        · cases self
          cases slot
        · cases null
          cases slot
  rw [show selfReferring.limited.depthLimit = defaultDepthLimit from rfl, near] at double
  cases double

/-- The copy of a message that refers to itself is paid for. -/
theorem canonicalize_bounded_selfReferring :
    (selfReferring.limited.root Ptr.zero defaultTraversalWords) =
      ⟨.ok, selfPtr, defaultTraversalWords - 2⟩ ∧
    ∃ start, Builder.allocLocal 1 { Builder.init with forceSingle := true } = .ok (0, 0) start ∧
      Ends (selfReferring.limited.copyPtrToWord copyRoom 0 0 selfPtr
        ⟨start, defaultTraversalWords - 2⟩) (fun _ => Accounted) Accounted := by
  have target : selfReferring.limited.rootTarget = some (selfPtr, 2) := by decide +kernel
  have read := (root_agrees selfReferring.limited Ptr.zero defaultTraversalWords).covered _ _ target
    (by decide)
  obtain ⟨-, -, ⟨start, run, -, accounted⟩, -⟩ := canonicalize_bounded selfReferring_noDoubleFar
  rw [read] at accounted
  exact ⟨read, start, run, accounted rfl⟩

end Message

end CapnpJanet
