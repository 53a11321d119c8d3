import CapnpJanet.Message.Resolve

/-!
# What a pointer names, and what reading it costs

Resolution mixes two concerns: which object a pointer word names, and whether
the remaining traversal budget covers it.  `target` is the first alone.  It
gives the handle together with its price, and `resolveWord_agrees` says that
the code returns exactly that handle whenever the budget covers the price, and
fails otherwise.
-/

namespace CapnpJanet

/-- A resolving call that started with `left` words agrees with a priced
outcome: it succeeds exactly when there is an outcome and the budget covers
it, and then returns the handle and deducts the price. -/
structure Agrees (r : Resolved) (outcome : Option (Ptr × Nat)) (left : Nat) : Prop where
  covered : ∀ p cost, outcome = some (p, cost) → cost ≤ left → r = ⟨.ok, p, left - cost⟩
  refused : (∀ p cost, outcome = some (p, cost) → ¬cost ≤ left) → r.rc ≠ .ok

namespace Agrees

variable {r : Resolved} {outcome : Option (Ptr × Nat)} {left : Nat}

theorem of_ok (agrees : Agrees r outcome left) (ok : r.rc = .ok) :
    ∃ cost ≤ left, outcome = some (r.out, cost) ∧ r.left = left - cost := by
  by_contra none
  refine agrees.refused (fun p cost priced enough => none ?_) ok
  have result := agrees.covered p cost priced enough
  exact ⟨cost, enough, by rw [priced, result], by rw [result]⟩

theorem of_fail (failed : r.rc ≠ .ok) : Agrees r none left :=
  ⟨fun _ _ priced => (nomatch priced), fun _ => failed⟩

theorem of_price {p : Ptr} {price : Nat} (covered : price ≤ left → r = ⟨.ok, p, left - price⟩)
    (refused : ¬price ≤ left → r.rc ≠ .ok) : Agrees r (some (p, price)) left := by
  refine ⟨fun q cost priced enough => ?_, fun none => refused (none p price rfl)⟩
  cases priced
  exact covered enough

/-- Deducting a first price before a call adds it to the call's own. -/
theorem charged {first : Nat} {rest : Option (Ptr × Nat)}
    (enough : first ≤ left) (agrees : Agrees r rest (left - first)) :
    Agrees r (rest.map fun priced => (priced.1, priced.2 + first)) left := by
  cases rest with
  | none => exact of_fail (agrees.refused (fun _ _ priced => (nomatch priced)))
  | some priced =>
      obtain ⟨p, cost⟩ := priced
      apply of_price
      · intro total
        have result := agrees.covered p cost rfl (by dsimp only at total; omega)
        rw [result]
        congr 1
        dsimp only
        omega
      · intro total
        refine agrees.refused fun q other priced => ?_
        cases priced
        dsimp only at total
        omega

/-- When not even the first price is covered, the call fails. -/
theorem uncharged {first : Nat} {rest : Option (Ptr × Nat)} (short : ¬first ≤ left)
    (failed : r.rc ≠ .ok) :
    Agrees r (rest.map fun priced => (priced.1, priced.2 + first)) left := by
  cases rest with
  | none => exact of_fail failed
  | some priced =>
      refine of_price (fun total => ?_) fun _ => failed
      omega

end Agrees

theorem charge_of_le {words left : Nat} (h : words ≤ left) :
    charge words left = some (left - words) :=
  if_neg (by omega)

theorem charge_of_not_le {words left : Nat} (h : ¬words ≤ left) : charge words left = none :=
  if_pos (by omega)

theorem chargeFor_agrees (out : Ptr) (words left : Nat) :
    Agrees (chargeFor out words left) (some (out, words)) left := by
  apply Agrees.of_price
  · intro enough
    rw [chargeFor, charge_of_le enough]
  · intro short
    rw [chargeFor, charge_of_not_le short]
    simp

/-- Outcomes that cost nothing. -/
theorem free_agrees (out : Ptr) (left : Nat) : Agrees ⟨.ok, out, left⟩ (some (out, 0)) left :=
  Agrees.of_price (fun _ => rfl) fun short => absurd (Nat.zero_le left) short

namespace Message

/-- The object a struct pointer word at `word` names. -/
def structTarget (m : Message) (seg word w : Nat) : Option (Ptr × Nat) :=
  let body := sizeT (word + 1 + wpOffset w)
  let out := structPtr seg body w
  let stop := sizeT (body + out.dwords + out.pwords)
  if (out.dwords ≠ 0 ∨ out.pwords ≠ 0) ∧
      (¬m.InSegment seg body ∨ (stop > 0 ∧ ¬m.InSegment seg (stop - 1))) then none
  else some (out, out.dwords + out.pwords)

/-- The composite list whose tag word is at `start`. -/
def compositeTarget (m : Message) (seg start : Nat) : Option (Ptr × Nat) :=
  if ¬m.InSegment seg start then none
  else
    let out := { compositePtr seg start (m.readWord seg start) with word := sizeT (start + 1) }
    let need : Nat := out.count * out.stepWords
    if need ≠ 0 ∧ ¬m.InSegment seg (sizeT (out.word + need - 1)) then none
    else some (out, need + 1)

/-- The primitive or pointer list whose body is at `start`. -/
def primitiveTarget (m : Message) (seg start w : Nat) : Option (Ptr × Nat) :=
  let out := listPtr seg start w
  let words := listBodyWords out.esize out.count
  if words ≠ 0 ∧ ¬m.InSegment seg (sizeT (start + words - 1)) then none else some (out, words)

/-- The object a list pointer word at `word` names. -/
def listTarget (m : Message) (seg word w : Nat) : Option (Ptr × Nat) :=
  let start := sizeT (word + 1 + wpOffset w)
  if wpListEsize w = .composite then m.compositeTarget seg start
  else m.primitiveTarget seg start w

/-- The object a two-word landing pad names. -/
def padTarget (m : Message) (pad tag : Nat) : Option (Ptr × Nat) :=
  if wpKind pad ≠ .far ∨ wpFarTwo pad then none
  else
    let cseg := wpFarSeg pad
    let coff := wpFarOff pad
    match wpKind tag with
    | .struct =>
        some (structPtr cseg coff tag, wpStructDwords tag + wpStructPwords tag)
    | .list =>
        if wpListEsize tag = .composite then
          if ¬m.InSegment cseg coff then none
          else
            let out := compositePtr cseg coff (m.readWord cseg coff)
            some (out, 1 + out.count * out.stepWords)
        else some (listPtr cseg coff tag, 0)
    | _ => none

/-- The object a double-far pointer to the pad at `toff` of `tseg` names. -/
def doubleFarTarget (m : Message) (tseg toff : Nat) : Option (Ptr × Nat) :=
  if ¬m.InSegment tseg toff ∨ ¬m.InSegment tseg (toff + 1) then none
  else
    (m.padTarget (m.readWord tseg toff) (m.readWord tseg (toff + 1))).map fun priced =>
      (priced.1, priced.2 + 2)

/-- The object the pointer word `w`, read at `word` of segment `seg`, names
within `depth` levels. -/
def target (m : Message) : (depth : Nat) → (seg word w : Nat) → Option (Ptr × Nat)
  | 0, _, _, _ => none
  | depth + 1, seg, word, w =>
      if w = 0 then some (nullPtr seg word, 0)
      else
        match wpKind w with
        | .far =>
            if wpFarTwo w then m.doubleFarTarget (wpFarSeg w) (wpFarOff w)
            else if ¬m.InSegment (wpFarSeg w) (wpFarOff w) then none
            else
              (m.target depth (wpFarSeg w) (wpFarOff w)
                (m.readWord (wpFarSeg w) (wpFarOff w))).map fun priced => (priced.1, priced.2 + 1)
        | .struct => m.structTarget seg word w
        | .list => m.listTarget seg word w
        | .cap => some (capPtr seg word w, 0)

/-- The object the pointer at `word` of segment `seg` names. -/
def slotTarget (m : Message) (depth seg word : Nat) : Option (Ptr × Nat) :=
  if ¬m.InSegment seg word then none
  else (m.target depth seg word (m.readWord seg word)).map fun priced => (priced.1, priced.2 + 1)

/-! ## The code agrees -/

theorem resolveStruct_agrees (m : Message) (seg word w left : Nat) :
    Agrees (m.resolveStruct seg word w left) (m.structTarget seg word w) left := by
  unfold resolveStruct structTarget
  simp only [ne_eq, boundsWord_eq_ok_iff]
  split
  · exact Agrees.of_fail (by simp)
  · exact chargeFor_agrees _ _ _

theorem resolveComposite_agrees (m : Message) (seg start w left : Nat) :
    Agrees (m.resolveComposite seg start w left) (m.compositeTarget seg start) left := by
  unfold resolveComposite compositeTarget
  simp only [ne_eq, boundsWord_eq_ok_iff]
  by_cases tagIn : m.InSegment seg start
  · simp only [tagIn, not_true_eq_false, if_false]
    by_cases enough : 1 ≤ left
    · rw [charge_of_le enough]
      dsimp only
      split
      · exact Agrees.of_fail (by simp)
      · exact Agrees.charged enough (chargeFor_agrees _ _ _)
    · rw [charge_of_not_le enough]
      dsimp only
      split
      · exact Agrees.of_fail (by simp)
      · exact Agrees.of_price (fun total => absurd total (by omega)) (by simp)
  · simp only [tagIn, not_false_eq_true, if_true]
    exact Agrees.of_fail (by simp)

theorem resolvePrimitive_agrees (m : Message) (seg start w left : Nat) :
    Agrees (m.resolvePrimitive seg start w left) (m.primitiveTarget seg start w) left := by
  unfold resolvePrimitive primitiveTarget
  simp only [ne_eq, boundsWord_eq_ok_iff]
  split
  · exact Agrees.of_fail (by simp)
  · exact chargeFor_agrees _ _ _

theorem resolveList_agrees (m : Message) (seg word w left : Nat) :
    Agrees (m.resolveList seg word w left) (m.listTarget seg word w) left := by
  unfold resolveList listTarget
  dsimp only
  split
  · exact m.resolveComposite_agrees seg _ w left
  · exact m.resolvePrimitive_agrees seg _ w left

theorem resolvePad_agrees (m : Message) (pad tag : Nat) (out : Ptr) (left : Nat) :
    Agrees (m.resolvePad pad tag out left) (m.padTarget pad tag) left := by
  unfold resolvePad padTarget
  simp only [ne_eq, boundsWord_eq_ok_iff]
  split
  · exact Agrees.of_fail (by simp)
  · cases wpKind tag with
    | struct => exact chargeFor_agrees _ _ _
    | list =>
        dsimp only
        split
        · split
          · exact Agrees.of_fail (by simp)
          · exact chargeFor_agrees _ _ _
        · exact free_agrees _ _
    | far => exact Agrees.of_fail (by simp)
    | cap => exact Agrees.of_fail (by simp)

theorem resolveDoubleFar_agrees (m : Message) (tseg toff : Nat) (out : Ptr) (left : Nat) :
    Agrees (m.resolveDoubleFar tseg toff out left) (m.doubleFarTarget tseg toff) left := by
  unfold resolveDoubleFar doubleFarTarget
  simp only [ne_eq, boundsWord_eq_ok_iff]
  split
  · exact Agrees.of_fail (by simp)
  · by_cases enough : 2 ≤ left
    · rw [charge_of_le enough]
      have rest := m.resolvePad_agrees (m.readWord tseg toff) (m.readWord tseg (toff + 1)) out
        (left - 2)
      exact rest.charged enough
    · rw [charge_of_not_le enough]
      refine Agrees.uncharged enough ?_
      simp

/-- Resolution returns the target when the budget covers its price, and fails
otherwise.  The induction follows the chain of single far pointers. -/
theorem resolveWord_agrees (m : Message) (depth seg word w : Nat) (out : Ptr) (left : Nat) :
    Agrees (m.resolveWord depth seg word w out left) (m.target depth seg word w) left := by
  induction depth generalizing seg word w out left with
  | zero => exact Agrees.of_fail (by simp [resolveWord])
  | succ depth ih =>
      unfold resolveWord target
      by_cases isNull : w = 0
      · simp only [isNull, if_true]
        exact free_agrees _ _
      · simp only [isNull, if_false]
        cases kindEq : wpKind w with
        | far =>
            dsimp only
            split
            · exact m.resolveDoubleFar_agrees _ _ _ left
            · simp only [ne_eq, boundsWord_eq_ok_iff]
              split
              · exact Agrees.of_fail (by simp)
              · by_cases enough : 1 ≤ left
                · rw [charge_of_le enough]
                  exact Agrees.charged enough (ih _ _ _ _ _)
                · rw [charge_of_not_le enough]
                  exact Agrees.uncharged enough (by simp)
        | struct => exact m.resolveStruct_agrees seg word w left
        | list => exact m.resolveList_agrees seg word w left
        | cap => exact free_agrees _ _

theorem resolvePtr_agrees (m : Message) (seg word depth : Nat) (out : Ptr) (left : Nat) :
    Agrees (m.resolvePtr seg word depth out left) (m.slotTarget depth seg word) left := by
  unfold resolvePtr slotTarget
  simp only [ne_eq, boundsWord_eq_ok_iff]
  split
  · exact Agrees.of_fail (by simp)
  · by_cases enough : 1 ≤ left
    · rw [charge_of_le enough]
      exact Agrees.charged enough (m.resolveWord_agrees _ _ _ _ _ _)
    · rw [charge_of_not_le enough]
      exact Agrees.uncharged enough (by simp)

/-! ### Budgets -/

section
variable {m : Message} {s : Ptr} {k left : Nat} {out : Ptr}

theorem charge_le {words rest : Nat} (charged : charge words left = some rest) : rest ≤ left := by
  unfold charge at charged
  split at charged
  · cases charged
  · cases charged
    exact Nat.sub_le left words

theorem chargeFor_left_le (out : Ptr) (words left : Nat) :
    (chargeFor out words left).left ≤ left := by
  unfold chargeFor
  cases charged : charge words left with
  | none => exact le_rfl
  | some rest => exact charge_le charged

theorem resolveStruct_left_le (m : Message) (seg word w left : Nat) :
    (m.resolveStruct seg word w left).left ≤ left := by
  unfold resolveStruct
  dsimp only
  split
  · exact le_rfl
  · exact chargeFor_left_le _ _ _

theorem resolveComposite_left_le (m : Message) (seg start w left : Nat) :
    (m.resolveComposite seg start w left).left ≤ left := by
  unfold resolveComposite
  split
  · exact Nat.le_refl left
  · cases charged : charge 1 left with
    | none => exact Nat.le_refl left
    | some rest =>
        dsimp only
        split
        · exact charge_le charged
        · exact (chargeFor_left_le _ _ _).trans (charge_le charged)

theorem resolvePrimitive_left_le (m : Message) (seg start w left : Nat) :
    (m.resolvePrimitive seg start w left).left ≤ left := by
  unfold resolvePrimitive
  dsimp only
  split
  · exact Nat.le_refl left
  · exact chargeFor_left_le _ _ _

theorem resolveList_left_le (m : Message) (seg word w left : Nat) :
    (m.resolveList seg word w left).left ≤ left := by
  unfold resolveList
  dsimp only
  split
  · exact m.resolveComposite_left_le _ _ _ _
  · exact m.resolvePrimitive_left_le _ _ _ _

theorem resolvePad_left_le (m : Message) (pad tag : Nat) (out : Ptr) (left : Nat) :
    (m.resolvePad pad tag out left).left ≤ left := by
  unfold resolvePad
  split
  · exact le_rfl
  · cases wpKind tag with
    | struct => exact chargeFor_left_le _ _ _
    | list =>
        dsimp only
        split
        · split
          · exact le_rfl
          · exact chargeFor_left_le _ _ _
        · exact le_rfl
    | far => exact le_rfl
    | cap => exact le_rfl

/-- Whatever happens, resolution leaves no more than there was. -/
theorem resolveWord_left_le (m : Message) (depth seg word w : Nat) (out : Ptr) (left : Nat) :
    (m.resolveWord depth seg word w out left).left ≤ left := by
  induction depth generalizing seg word w out left with
  | zero => exact le_rfl
  | succ depth ih =>
      unfold resolveWord
      dsimp only
      split
      · exact le_rfl
      · cases wpKind w with
        | struct => exact m.resolveStruct_left_le seg word w left
        | list => exact m.resolveList_left_le seg word w left
        | cap => exact le_rfl
        | far =>
            dsimp only
            split
            · unfold resolveDoubleFar
              split
              · exact le_rfl
              · cases charged : charge 2 left with
                | none => exact le_rfl
                | some rest => exact (m.resolvePad_left_le _ _ _ _).trans (charge_le charged)
            · split
              · exact le_rfl
              · cases charged : charge 1 left with
                | none => exact le_rfl
                | some rest => exact (ih _ _ _ _ _).trans (charge_le charged)

theorem resolvePtr_left_le (m : Message) (seg word depth : Nat) (out : Ptr) (left : Nat) :
    (m.resolvePtr seg word depth out left).left ≤ left := by
  unfold resolvePtr
  split
  · exact le_rfl
  · cases charged : charge 1 left with
    | none => exact le_rfl
    | some rest => exact (m.resolveWord_left_le _ _ _ _ _ _).trans (charge_le charged)

theorem getp_left_le (m : Message) (s : Ptr) (k : Nat) (out : Ptr) (left : Nat) :
    (m.getp s k out left).left ≤ left := by
  unfold getp
  split
  · exact le_rfl
  · split
    · exact le_rfl
    · exact m.resolvePtr_left_le _ _ _ out left

theorem listGetp_left_le (m : Message) (list : Ptr) (i : Nat) (out : Ptr) (left : Nat) :
    (m.listGetp list i out left).left ≤ left := by
  unfold listGetp
  split
  · exact le_rfl
  · split
    · exact le_rfl
    · split
      · exact m.resolvePtr_left_le _ _ _ out left
      · exact le_rfl
      · exact le_rfl

/-- Following a pointer costs something. -/
theorem resolvePtr_spends {seg word depth : Nat}
    (ok : (m.resolvePtr seg word depth out left).rc = .ok) :
    (m.resolvePtr seg word depth out left).left < left := by
  obtain ⟨cost, enough, priced, spent⟩ := (m.resolvePtr_agrees seg word depth out left).of_ok ok
  have positive : 1 ≤ cost := by
    unfold slotTarget at priced
    split at priced
    · cases priced
    · obtain ⟨near, -, same⟩ := Option.map_eq_some_iff.mp priced
      have one : near.2 + 1 = cost := congrArg Prod.snd same
      omega
  omega

theorem root_spends (ok : (m.root out left).rc = .ok) : (m.root out left).left < left := by
  unfold root at ok ⊢
  split at ok
  · cases ok
  · next some =>
    rw [if_neg some]
    exact resolvePtr_spends ok

/-- Only a pointer past the section is read for nothing; it is null. -/
theorem getp_spends (ok : (m.getp s k out left).rc = .ok) :
    (m.getp s k out left).left < left ∨
      (m.getp s k out left).left = left ∧ (m.getp s k out left).out.kind = .null := by
  unfold getp at ok ⊢
  split at ok
  · cases ok
  · next isStruct =>
    rw [if_neg isStruct]
    split at ok
    · next past =>
      rw [if_pos past]
      exact .inr ⟨rfl, rfl⟩
    · next inside =>
      rw [if_neg inside]
      exact .inl (resolvePtr_spends ok)

/-- A read that succeeds gives the same when there is more to spend. -/
theorem getp_covered (ok : (m.getp s k out left).rc = .ok) (out' : Ptr) {left' : Nat}
    (more : left ≤ left') :
    (m.getp s k out' left').rc = .ok ∧ (m.getp s k out' left').out = (m.getp s k out left).out := by
  unfold getp at ok ⊢
  split at ok
  · cases ok
  · next isStruct =>
    simp only [if_neg isStruct]
    split at ok
    · next past =>
      simp only [if_pos past]
      exact ⟨trivial, trivial⟩
    · next inside =>
      simp only [if_neg inside]
      obtain ⟨cost, enough, priced, -⟩ := (m.resolvePtr_agrees _ _ _ out left).of_ok ok
      have covered := (m.resolvePtr_agrees s.seg (sizeT (s.word + s.dwords + k)) m.depthLimit out'
        left').covered _ cost priced (by omega)
      rw [covered]
      exact ⟨rfl, rfl⟩

/-! ### Element counts -/

/-- A list is short, or it is a struct list whose elements have been paid for. -/
def Counted (p : Ptr) (cost : Nat) : Prop :=
  p.kind = .list → p.count < 2 ^ 29 ∨ p.esize = .composite ∧ p.count * (p.dwords + p.pwords) ≤ cost

theorem listPtr_counted (seg start w cost : Nat) : Counted (listPtr seg start w) cost :=
  fun _ => .inl (Nat.mod_lt _ (by decide))

theorem padTarget_counted {pad tag cost : Nat} {p : Ptr}
    (named : m.padTarget pad tag = some (p, cost)) : Counted p cost := by
  unfold padTarget at named
  dsimp only at named
  split at named
  · cases named
  · split at named
    · cases named
      exact fun isList => nomatch isList
    · split at named
      · split at named
        · cases named
        · cases named
          exact fun _ => .inr ⟨rfl, Nat.le_add_left _ 1⟩
      · cases named
        exact listPtr_counted _ _ _ _
    · cases named

theorem listTarget_counted {seg word w cost : Nat} {p : Ptr}
    (named : m.listTarget seg word w = some (p, cost)) : Counted p cost := by
  unfold listTarget at named
  dsimp only at named
  split at named
  · unfold compositeTarget at named
    dsimp only at named
    split at named
    · cases named
    · split at named
      · cases named
      · cases named
        exact fun _ => .inr ⟨rfl, Nat.le_succ _⟩
  · unfold primitiveTarget at named
    dsimp only at named
    split at named
    · cases named
    · cases named
      exact listPtr_counted _ _ _ _

theorem target_counted {depth seg word w cost : Nat} {p : Ptr}
    (named : m.target depth seg word w = some (p, cost)) : Counted p cost := by
  induction depth generalizing seg word w p cost with
  | zero => cases named
  | succ depth ih =>
      have more {near : Ptr × Nat} {n : Nat} (counted : Counted near.1 near.2)
          (same : (near.1, near.2 + n) = (p, cost)) : Counted p cost := by
        cases same
        exact fun isList => (counted isList).imp_right fun ⟨composite, paid⟩ =>
          ⟨composite, Nat.le_add_right_of_le paid⟩
      unfold target at named
      split at named
      · cases named
        exact fun isList => nomatch isList
      · split at named
        · split at named
          · unfold doubleFarTarget at named
            split at named
            · cases named
            · obtain ⟨near, priced, same⟩ := Option.map_eq_some_iff.mp named
              exact more (padTarget_counted priced) same
          · split at named
            · cases named
            · obtain ⟨near, priced, same⟩ := Option.map_eq_some_iff.mp named
              exact more (ih priced) same
        · unfold structTarget at named
          dsimp only at named
          split at named
          · cases named
          · cases named
            exact fun isList => nomatch isList
        · exact listTarget_counted named
        · cases named
          exact fun isList => nomatch isList

/-- The count of a list that is read within a budget. -/
theorem getp_counted (ok : (m.getp s k out left).rc = .ok) : Counted (m.getp s k out left).out left := by
  unfold getp at ok ⊢
  split at ok
  · cases ok
  · next isStruct =>
    rw [if_neg isStruct]
    split at ok
    · next past =>
      rw [if_pos past]
      exact fun isList => nomatch isList
    · next inside =>
      rw [if_neg inside]
      obtain ⟨cost, enough, priced, -⟩ := (m.resolvePtr_agrees _ _ _ out left).of_ok ok
      unfold slotTarget at priced
      split at priced
      · cases priced
      · obtain ⟨near, named, same⟩ := Option.map_eq_some_iff.mp priced
        obtain ⟨object, paid⟩ := Prod.mk.inj same
        rw [← object]
        refine fun isList => (target_counted named isList).imp_right fun ⟨composite, bound⟩ =>
          ⟨composite, by omega⟩

end

end Message

end CapnpJanet
