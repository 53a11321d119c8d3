import CapnpJanet.Canonical.Emit

/-!
# What a deep copy reads

A copy that succeeds has followed every pointer it keeps, and has spent exactly
what its reads cost: a read that fails while the sizes are counted fails again
when the objects are copied, with no more to spend.  Together with what a copy
lays out, this says exactly when a copy succeeds.
-/

namespace CapnpJanet

open Outcome Finset

namespace Message

open CopyM

variable {m : Message} {copy : Nat → Nat → Ptr → CopyM Unit} {room : Nat}

/-- A pointer of a block can be followed, and what is behind it be copied. -/
def Followed (m : Message) (room : Nat) (p : Ptr) (i k : Nat) : Prop :=
  ∃ q cost, m.link p i k = some (q, cost) ∧ m.Readable room q

/-- A step that succeeds has shown a fact, and spent a price. -/
def Spends (x : CopyM Unit) (fact : Prop) (price : Nat) (st : CopyState) : Prop :=
  Ends (x st) (fun _ st' => fact ∧ st'.left + price = st.left) fun _ => True

/-- A copier that succeeds has read its source, and spent what this costs. -/
def CopySpends (m : Message) (room : Nat) (copy : Nat → Nat → Ptr → CopyM Unit) : Prop :=
  ∀ seg word src st, Spends (copy seg word src) (m.Readable room src) (m.walkCost room src) st

theorem orFail_spends {code : Status} {x : CopyM Unit} {fact : Prop} {price : Nat} {st : CopyState}
    (spends : Spends x fact price st) : Spends (orFail code x) fact price st := orFail_ends spends

theorem store_spends (seg word w : Nat) (st : CopyState) : Spends (store seg word w) True 0 st :=
  ⟨trivial, rfl⟩

theorem allocLocal_spends (n : Nat) (st : CopyState) :
    Ends (allocLocal n st) (fun _ st' => st'.left = st.left) fun _ => True := by
  unfold allocLocal
  cases Builder.allocLocal n st.b with
  | ok at' b => exact rfl
  | error rc b => trivial

/-- A loop that succeeds has shown the fact of every round. -/
theorem upTo_spends {n : Nat} {fact : Nat → Prop} {price : Nat → Nat} {body : Nat → CopyM Unit}
    {st₀ : CopyState} (round : ∀ i < n, ∀ st, Spends (body i) (fact i) (price i) st) :
    Spends (upTo n body) (∀ i < n, fact i) (∑ i ∈ range n, price i) st₀ := by
  refine Ends.upTo (fun i (st : CopyState) =>
    (∀ i' < i, fact i') ∧ st.left + ∑ i' ∈ range i, price i' = st₀.left) ⟨nofun, by simp⟩ ?_
  rintro i hi st ⟨facts, spent⟩
  refine (round i hi st).mono (fun _ st' done => ⟨fun i' hi' => ?_, ?_⟩) fun _ _ => trivial
  · rcases Nat.lt_succ_iff_lt_or_eq.mp hi' with earlier | rfl
    · exact facts i' earlier
    · exact done.1
  · have more := done.2
    rw [sum_range_succ]
    omega

/-! ## One pointer -/

section
variable {seg i k : Nat} {p src : Ptr} {st : CopyState}

/-- What has been read is copied. -/
theorem copyRead_spends (copies : CopySpends m room copy) {slot : Nat} {r : Resolved} {left : Nat}
    {st' : CopyState} (agrees : Agrees r (m.link p i k) left) (spent : st'.left = r.left) :
    Ends ((do
        if r.rc ≠ .ok then throw .kind
        orFail .alloc (copy seg slot r.out) : CopyM Unit) st')
      (fun _ st'' => m.Followed room p i k ∧ st''.left + m.linkCost room p i k = left)
      fun _ => True := by
  split
  · exact trivial
  · next ok =>
    obtain ⟨cost, enough, found, left'⟩ := agrees.of_ok (not_not.mp ok)
    refine (orFail_spends (copies seg slot r.out st')).mono (fun _ st'' done => ?_)
      fun _ _ => trivial
    obtain ⟨readable, total⟩ := done
    refine ⟨⟨_, _, found, readable⟩, ?_⟩
    rw [linkCost, found, Option.elim_some]
    dsimp only
    omega

theorem copyChild_spends (copies : CopySpends m room copy) {slot : Nat}
    (isStruct : src.kind = .struct) (inside : k < src.pwords)
    (row : m.link p i k = m.fieldTarget src k) :
    Spends (m.copyChild copy seg slot src k) (m.Followed room p i k) (m.linkCost room p i k) st := by
  unfold Spends copyChild
  rw [if_pos inside]
  refine (reading_ends _ st).bind (fun child st' after => ?_) fun _ none => none.elim
  obtain ⟨rfl, -, spent⟩ := after
  exact copyRead_spends copies (row ▸ getp_agrees isStruct) spent

theorem copyPointer_spends (copies : CopySpends m room copy) {start : Nat}
    (form : p.form = .block .pointers) (inside : i < p.count) :
    Spends (m.copyPointer copy seg start p i) (m.Followed room p i 0) (m.linkCost room p i 0)
      st := by
  have row : m.link p i 0 = m.itemTarget p i := by
    rw [link, form]
    exact if_pos ⟨inside, rfl⟩
  unfold Spends copyPointer
  refine (reading_ends _ st).bind (fun el st' after => ?_) fun _ none => none.elim
  obtain ⟨rfl, -, spent⟩ := after
  exact copyRead_spends copies (row ▸ listGetp_agrees form inside) spent

/-- The pointers of a row, after its data words. -/
theorem copyRow_spends (copies : CopySpends m room copy) {body nd np : Nat}
    (isStruct : src.kind = .struct) (inside : np ≤ src.pwords)
    (row : ∀ k, m.link p i k = m.fieldTarget src k) :
    Spends (do
        m.writeStructBodyData seg body nd src
        upTo np fun k => m.copyChild copy seg (body + nd + k) src k)
      (∀ k < np, m.Followed room p i k) (∑ k ∈ range np, m.linkCost room p i k) st := by
  have stored : Ends (m.writeStructBodyData seg body nd src st) (fun _ st' => st'.left = st.left)
      fun _ => True := rfl
  refine stored.bind (fun _ st' same => ?_) fun _ _ => trivial
  rw [← same]
  exact upTo_spends fun k hk st' => copyChild_spends copies isStruct (by omega) (row k)

end

/-! ## What is counted -/

section
variable {p : Ptr} {left : Nat}

/-- The price of a field that can be read is at most the budget, or the field
has been read in vain. -/
theorem trimmedPwords_spends (isStruct : p.kind = .struct) (np : Nat) :
    (m.trimmedPwords p np left).2 ≤ left ∧ (m.trimmedPwords p np left).1 ≤ np ∧
      ((∀ k < (m.trimmedPwords p np left).1, ∃ q cost, m.fieldTarget p k = some (q, cost) ∧
          cost ≤ (m.trimmedPwords p np left).2) →
        (m.trimmedPwords p np left).1 = m.usedPointers p np ∧
          (m.trimmedPwords p np left).2 + m.usedPrice p np = left) := by
  induction np generalizing left with
  | zero => exact ⟨le_rfl, le_rfl, fun _ => ⟨rfl, rfl⟩⟩
  | succ np ih =>
      have agrees : Agrees (m.getp p np Ptr.zero left) (m.fieldTarget p np) left :=
        getp_agrees isStruct
      have less := m.getp_left_le p np Ptr.zero left
      rw [trimmedPwords, usedPointers, usedPrice]
      by_cases ok : (m.getp p np Ptr.zero left).rc = .ok
      · obtain ⟨cost, enough, found, spent⟩ := agrees.of_ok ok
        rw [found]
        dsimp only
        by_cases null : (m.getp p np Ptr.zero left).out.kind = .null
        · rw [if_neg (by simp [ok, null]), if_pos null, if_pos null]
          obtain ⟨less', within, rest⟩ := @ih (m.getp p np Ptr.zero left).left
          refine ⟨less'.trans less, within.trans (Nat.le_succ np), fun reads => ?_⟩
          obtain ⟨same, total⟩ := rest reads
          exact ⟨same, by omega⟩
        · rw [if_pos (.inr null), if_neg null, if_neg null]
          exact ⟨less, le_rfl, fun _ => ⟨rfl, by dsimp only; omega⟩⟩
      · rw [if_pos (.inl ok)]
        refine ⟨less, le_rfl, fun reads => ?_⟩
        obtain ⟨q, cost, found, enough⟩ := reads np (Nat.lt_succ_self np)
        refine absurd ?_ ok
        rw [agrees.covered q cost found (enough.trans less)]

theorem compositeTrim_spends (form : p.form = .block .composite) {n : Nat} (within : n ≤ p.count) :
    (m.compositeTrim p n left).2.2 ≤ left ∧ (m.compositeTrim p n left).2.1 ≤ p.pwords ∧
      (m.compositeTrim p n left).1 = ((range n).sup fun i => m.trimmedDwords (elemPtr p i) p.dwords) ∧
      ((∀ i < n, ∀ k < (m.compositeTrim p n left).2.1, ∃ q cost,
          m.fieldTarget (elemPtr p i) k = some (q, cost) ∧
            cost ≤ (m.compositeTrim p n left).2.2) →
        (m.compositeTrim p n left).2.1 =
            ((range n).sup fun i => m.usedPointers (elemPtr p i) p.pwords) ∧
          (m.compositeTrim p n left).2.2 +
            ∑ i ∈ range n, m.usedPrice (elemPtr p i) p.pwords = left) := by
  induction n with
  | zero => exact ⟨le_rfl, Nat.zero_le _, rfl, fun _ => ⟨rfl, rfl⟩⟩
  | succ n ih =>
      obtain ⟨less, narrow, data, rest⟩ := ih (by omega)
      rw [compositeTrim]
      generalize m.compositeTrim p n left = trimmed at *
      obtain ⟨nd, np, left₁⟩ := trimmed
      dsimp only at less narrow data rest ⊢
      rw [listGetp_composite form (by omega), if_neg (by simp)]
      dsimp only
      have isStruct : (elemPtr p n).kind = .struct := rfl
      obtain ⟨less', narrow', exact'⟩ := @trimmedPwords_spends m (elemPtr p n) left₁ isStruct
        (elemPtr p n).pwords
      change _ ≤ p.pwords at narrow'
      generalize m.trimmedPwords (elemPtr p n) (elemPtr p n).pwords left₁ = row at *
      obtain ⟨np', left₂⟩ := row
      dsimp only at less' narrow' exact' ⊢
      refine ⟨less'.trans less, max_le narrow narrow', ?_, fun reads => ?_⟩
      · rw [range_add_one, sup_insert, ← data]
        exact max_comm _ _
      · obtain ⟨same, total⟩ := exact' fun k hk =>
          reads n (Nat.lt_succ_self n) k (lt_max_of_lt_right hk)
        obtain ⟨before, spent⟩ := rest fun i hi k hk => by
          obtain ⟨q, cost, found, enough⟩ := reads i (by omega) k (lt_max_of_lt_left hk)
          exact ⟨q, cost, found, enough.trans less'⟩
        have pwords : (elemPtr p n).pwords = p.pwords := rfl
        rw [pwords] at same total
        refine ⟨?_, ?_⟩
        · rw [range_add_one, sup_insert, ← before, same]
          exact max_comm _ _
        · rw [sum_range_succ]
          omega

end

/-! ## One object -/

section
variable {seg word : Nat} {p : Ptr} {st : CopyState}

theorem writeStructToSlot_spends (copies : CopySpends m room copy)
    (form : p.form = .block .struct) : Spends (m.writeStructToSlot copy seg word p)
      (m.Readable (room + 1) p) (m.walkCost (room + 1) p) st := by
  have isStruct := Ptr.form_eq_struct form
  have rows : p.rows = 1 := by
    rw [Ptr.rows, form]
  have np : m.usedPointers p p.pwords = m.linkWords p := by
    rw [linkWords, form]
  have price : m.rowPrice p 0 = m.usedPrice p p.pwords := by
    rw [rowPrice, form]
  have row (k : Nat) : m.link p 0 k = m.fieldTarget p k := by
    rw [link, form]
    rfl
  obtain ⟨-, within, trimmed⟩ := @trimmedPwords_spends m p st.left isStruct p.pwords
  -- What the rows cost is known when they have been copied, with as many pointers as counted.
  have settle {left : Nat} (followed : ∀ k < (m.trimmedPwords p p.pwords st.left).1,
      m.Followed room p 0 k) (total : left +
        ∑ k ∈ range (m.trimmedPwords p p.pwords st.left).1, m.linkCost room p 0 k =
          (m.trimmedPwords p p.pwords st.left).2) :
      m.Readable (room + 1) p ∧ left + m.walkCost (room + 1) p = st.left := by
    obtain ⟨same, spent⟩ := trimmed fun k hk => by
      obtain ⟨q, cost, found, -⟩ := followed k hk
      refine ⟨q, cost, row k ▸ found, ?_⟩
      have one := single_le_sum (f := fun k => m.linkCost room p 0 k)
        (fun _ _ => Nat.zero_le _) (mem_range.mpr hk)
      rw [linkCost, found, Option.elim_some] at one
      dsimp only at one
      omega
    rw [same, np] at followed total
    rw [walkCost_succ, rows, sum_range_one, sum_range_one, price]
    refine ⟨⟨?_, fun i hi => ?_⟩, by omega⟩
    · rw [form]
      rintro ⟨⟩
    · rw [rows, Nat.lt_one_iff] at hi
      subst hi
      exact followed
  unfold Spends writeStructToSlot
  dsimp only
  have count : Ends (m.countPwords p st) (fun np st' =>
      np = (m.trimmedPwords p p.pwords st.left).1 ∧
        st'.left = (m.trimmedPwords p p.pwords st.left).2) fun _ => False := ⟨rfl, rfl⟩
  refine count.bind (fun np st₁ after => ?_) fun _ none => none.elim
  obtain ⟨rfl, left₁⟩ := after
  split
  · next empty =>
    refine (store_spends _ _ _ st₁).mono (fun _ st₂ done => ?_) fun _ _ => trivial
    refine settle ?_ ?_
    · rw [empty.2]
      exact fun k hk => absurd hk (Nat.not_lt_zero k)
    · rw [empty.2, sum_range_zero]
      exact done.2.trans left₁
  · refine (allocLocal_spends _ st₁).bind (fun at' st₂ left₂ => ?_) fun _ _ => trivial
    refine (store_spends _ _ _ st₂).bind (fun _ st₃ after => ?_) fun _ _ => trivial
    refine (copyRow_spends copies isStruct within row).mono (fun _ st₄ done => ?_) fun _ _ => trivial
    have left₃ := after.2
    exact settle done.1 (by rw [done.2]; omega)

theorem writeCompositeToSlot_spends (copies : CopySpends m room copy)
    (form : p.form = .block .composite) : Spends (m.writeCompositeToSlot copy seg word p)
      (m.Readable (room + 1) p) (m.walkCost (room + 1) p) st := by
  have rows : p.rows = p.count := by
    rw [Ptr.rows, form]
  have np : ((range p.count).sup fun i => m.usedPointers (elemPtr p i) p.pwords) =
      m.linkWords p := by
    rw [linkWords, form]
  have prices : ∑ i ∈ range p.count, m.usedPrice (elemPtr p i) p.pwords =
      ∑ i ∈ range p.count, m.rowPrice p i :=
    sum_congr rfl fun i _ => by rw [rowPrice, form]
  have row (i : Nat) (hi : i < p.count) (k : Nat) :
      m.link p i k = m.fieldTarget (elemPtr p i) k := by
    rw [link, form]
    exact if_pos hi
  obtain ⟨-, within, -, trimmed⟩ := @compositeTrim_spends m p st.left form p.count le_rfl
  unfold Spends writeCompositeToSlot
  have count : Ends (m.countComposite p st) (fun sizes st' =>
      sizes.2 = (m.compositeTrim p p.count st.left).2.1 ∧
        st'.left = (m.compositeTrim p p.count st.left).2.2) fun _ => False := ⟨rfl, rfl⟩
  refine count.bind (fun sizes st₁ after => ?_) fun _ none => none.elim
  obtain ⟨nd, np'⟩ := sizes
  obtain ⟨counted, left₁⟩ := after
  dsimp only at counted
  subst counted
  generalize m.compositeTrim p p.count st.left = sizes at *
  refine (allocLocal_spends _ st₁).bind (fun at' st₂ left₂ => ?_) fun _ _ => trivial
  refine (store_spends _ _ _ st₂).bind (fun _ st₃ after₃ => ?_) fun _ _ => trivial
  refine (store_spends _ _ _ st₃).bind (fun _ st₄ after₄ => ?_) fun _ _ => trivial
  have element (i : Nat) (hi : i < p.count) (st' : CopyState) :
      Spends (m.copyElement copy at'.1 (at'.2 + 1) nd sizes.2.1 p i)
        (∀ k < sizes.2.1, m.Followed room p i k)
        (∑ k ∈ range sizes.2.1, m.linkCost room p i k) st' := by
    unfold Spends copyElement
    refine (reading_ends _ st').bind (fun el st'' after => ?_) fun _ none => none.elim
    obtain ⟨rfl, -, spent⟩ := after
    rw [listGetp_composite form hi] at spent ⊢
    dsimp only at spent ⊢
    rw [if_neg (not_not.mpr rfl), ← spent]
    exact copyRow_spends copies rfl within (row i hi)
  refine (upTo_spends element).mono (fun _ st₅ done => ?_) fun _ _ => trivial
  obtain ⟨followed, total⟩ := done
  have left₃ := after₃.2
  have left₄ := after₄.2
  obtain ⟨same, spent⟩ := trimmed fun i hi k hk => by
    obtain ⟨q, cost, found, -⟩ := followed i hi k hk
    refine ⟨q, cost, row i hi k ▸ found, ?_⟩
    have outer := single_le_sum (f := fun i => ∑ k ∈ range sizes.2.1, m.linkCost room p i k)
      (fun _ _ => Nat.zero_le _) (mem_range.mpr hi)
    have inner := single_le_sum (f := fun k => m.linkCost room p i k)
      (fun _ _ => Nat.zero_le _) (mem_range.mpr hk)
    rw [linkCost, found, Option.elim_some] at inner
    dsimp only at inner outer
    omega
  rw [same, np] at followed total
  rw [prices] at spent
  rw [walkCost_succ, rows]
  refine ⟨⟨?_, ?_⟩, by omega⟩
  · rw [form]
    rintro ⟨⟩
  · rw [rows]
    exact followed

theorem writePointersToSlot_spends (copies : CopySpends m room copy)
    (form : p.form = .block .pointers) : Spends (m.writePointersToSlot copy seg word p)
      (m.Readable (room + 1) p) (m.walkCost (room + 1) p) st := by
  have rows : p.rows = p.count := by
    rw [Ptr.rows, form]
  have np : m.linkWords p = 1 := by
    rw [linkWords, form]
  have price (i : Nat) : m.rowPrice p i = 0 := by
    rw [rowPrice, form]
  have placed : Ends (placePointers seg word p.count st) (fun _ st' => st'.left = st.left)
      fun _ => True := by
    unfold placePointers
    split
    · exact allocLocal_spends _ st
    · exact rfl
  unfold Spends writePointersToSlot
  refine placed.bind (fun at' st₁ left₁ => ?_) fun _ _ => trivial
  refine (store_spends _ _ _ st₁).bind (fun _ st₂ after => ?_) fun _ _ => trivial
  have left₂ := after.2
  refine (upTo_spends fun i hi st' => copyPointer_spends copies form hi).mono
    (fun _ st₃ done => ?_) fun _ _ => trivial
  obtain ⟨followed, total⟩ := done
  rw [walkCost_succ, rows, np]
  simp only [price, sum_const_zero, Nat.zero_add, sum_range_one]
  refine ⟨⟨?_, fun i hi k hk => ?_⟩, by omega⟩
  · rw [form]
    rintro ⟨⟩
  · rw [rows] at hi
    rw [np, Nat.lt_one_iff] at hk
    subst hk
    exact followed i hi

theorem writePackedToSlot_spends (m : Message) (seg word : Nat) (p : Ptr) (st : CopyState) :
    Spends (m.writePackedToSlot seg word p) True 0 st := by
  unfold Spends writePackedToSlot
  dsimp only
  split
  · refine (allocLocal_spends _ st).bind (fun at' st₁ left₁ => ?_) fun _ _ => trivial
    have filled : Ends (m.copyBody at'.1 at'.2 ((p.count * p.esize.bits + 7) / 8) p st₁)
        (fun _ st' => st'.left = st₁.left) fun _ => True := rfl
    refine filled.bind (fun _ st₂ left₂ => ?_) fun _ _ => trivial
    refine (store_spends _ _ _ st₂).mono (fun _ st₃ done => ⟨trivial, ?_⟩) fun _ _ => trivial
    have left₃ := done.2
    omega
  · exact store_spends _ _ _ st

end

/-- A handle without rows is copied without a read. -/
theorem readable_of_no_rows {p : Ptr} (none : p.rows = 0) (notCap : p.form ≠ .cap) :
    m.Readable (room + 1) p ∧ m.walkCost (room + 1) p = 0 := by
  rw [walkCost_succ, none]
  refine ⟨⟨notCap, ?_⟩, rfl⟩
  rw [none]
  exact fun i hi => absurd hi (Nat.not_lt_zero i)

/-- A copy that succeeds has read its source, and spent what this costs. -/
theorem copyPtrToWord_spends (m : Message) (room : Nat) :
    CopySpends m room (m.copyPtrToWord room) := by
  induction room with
  | zero => exact fun _ _ _ _ => trivial
  | succ room ih =>
      intro seg word src st
      have free (none : src.rows = 0) (notCap : src.form ≠ .cap) {x : CopyM Unit}
          (spends : Spends x True 0 st) :
          Spends x (m.Readable (room + 1) src) (m.walkCost (room + 1) src) st := by
        obtain ⟨readable, price⟩ : m.Readable (room + 1) src ∧ m.walkCost (room + 1) src = 0 :=
          readable_of_no_rows none notCap
        rw [price]
        exact spends.mono (fun _ _ done => ⟨readable, done.2⟩) fun _ _ => trivial
      rw [copyPtrToWord]
      cases kind : src.kind with
      | null =>
          have form := form_of_null kind
          exact free (by rw [Ptr.rows, form]) (by rw [form]; rintro ⟨⟩) (store_spends _ _ _ st)
      | cap => exact trivial
      | struct =>
          refine writeStructToSlot_spends ih ?_
          unfold Ptr.form
          rw [kind]
      | list =>
          dsimp only [writeListToSlot]
          have packed (form : src.form = .packed) : Spends (m.writePackedToSlot seg word src)
              (m.Readable (room + 1) src) (m.walkCost (room + 1) src) st :=
            free (by rw [Ptr.rows, form]) (by rw [form]; rintro ⟨⟩)
              (writePackedToSlot_spends m seg word src st)
          cases esize : src.esize with
          | composite =>
              refine writeCompositeToSlot_spends ih ?_
              unfold Ptr.form
              rw [kind, esize]
          | ptr =>
              refine writePointersToSlot_spends ih ?_
              unfold Ptr.form
              rw [kind, esize]
          | _ =>
              refine packed ?_
              unfold Ptr.form
              rw [kind, esize]

end Message

end CapnpJanet
