import CapnpJanet.Message.Target

/-!
# Bounds of the objects a reader hands out

Along paths that use no double-far pointer, the code checks every object it
resolves before it returns the handle.  The check is complete for structs and
composite lists.  For the other lists it looks at the last word of the body
only, so a list that starts before its segment and ends inside it passes: the
end is computed in `size_t` and wraps back into range.  The last section states
exactly when a call returns an object that lies inside its segment.
-/

namespace CapnpJanet

open ByteMemory

/-- Words of content a handle describes. -/
def contentWords (h : Ptr) : Nat :=
  match h.kind with
  | .struct => h.dwords + h.pwords
  | .list =>
      if h.esize = .composite then h.count * h.stepWords else listBodyWords h.esize h.count
  | _ => 0

theorem wpStructDwords_lt (w : Nat) : wpStructDwords w < 2 ^ 16 := Nat.mod_lt _ (by norm_num)

theorem wpStructPwords_lt (w : Nat) : wpStructPwords w < 2 ^ 16 := Nat.mod_lt _ (by norm_num)

theorem wpListCount_lt (w : Nat) : wpListCount w < 2 ^ 29 := Nat.mod_lt _ (by norm_num)

theorem tagCount_lt (tag : Nat) : tagCount tag < 2 ^ 32 := by
  unfold tagCount
  omega

theorem compositeNeed_lt (tag : Nat) :
    tagCount tag * (wpStructDwords tag + wpStructPwords tag) < 2 ^ 50 := by
  have countLt := tagCount_lt tag
  have dwordsLt := wpStructDwords_lt tag
  have pwordsLt := wpStructPwords_lt tag
  calc tagCount tag * (wpStructDwords tag + wpStructPwords tag)
      ≤ 2 ^ 32 * 2 ^ 17 := Nat.mul_le_mul countLt.le (by omega)
    _ < 2 ^ 50 := by norm_num

theorem listBodyWords_le (esize : ElemSize) (count : Nat) : listBodyWords esize count ≤ count := by
  cases esize <;> simp only [listBodyWords, ElemSize.bits] <;> omega

namespace Message

/-- Every content word of the handle lies in its segment, positions taken in
`size_t`. -/
def ContentInside (m : Message) (h : Ptr) : Prop :=
  ∀ i < contentWords h, m.InSegment h.seg (sizeT (h.word + i))

theorem InSegment.lt {m : Message} {seg i : Nat} (inside : m.InSegment seg i) : i < 2 ^ 61 := by
  have := (m.seg seg).fits
  have := inside.2
  omega

/-- A run of words whose first and last word are in the segment lies in it. -/
theorem InSegment.run {m : Message} {seg first n : Nat} (last : m.InSegment seg (first + n - 1))
    {i : Nat} (hi : i < n) : m.InSegment seg (sizeT (first + i)) := by
  have bound := last.lt
  rw [show ((first : Int) + (i : Int)) = ((first + i : Nat) : Int) by push_cast; ring,
    sizeT_of_lt (by omega)]
  exact ⟨last.1, by have := last.2; omega⟩

/-! ## Structs and composite lists -/

theorem structTarget_inside {m : Message} {seg word w : Nat} {priced : Ptr × Nat}
    (named : m.structTarget seg word w = some priced) : m.ContentInside priced.1 := by
  unfold structTarget at named
  dsimp only at named
  split at named
  · cases named
  · next checked =>
    cases named
    have dwordsLt := wpStructDwords_lt w
    have pwordsLt := wpStructPwords_lt w
    intro i hi
    simp only [contentWords, structPtr, Ptr.zero] at hi checked ⊢
    have nonempty : wpStructDwords w ≠ 0 ∨ wpStructPwords w ≠ 0 := by omega
    simp only [nonempty, true_and, not_or, not_and, not_not] at checked
    obtain ⟨first, last⟩ := checked
    have firstLt := first.lt
    set body := sizeT (word + 1 + wpOffset w)
    have stopEq : sizeT ((body : Int) + wpStructDwords w + wpStructPwords w) =
        body + (wpStructDwords w + wpStructPwords w) := by
      rw [← sizeT_of_lt (n := body + (wpStructDwords w + wpStructPwords w)) (by omega)]
      push_cast
      congr 1
      ring
    rw [stopEq] at last
    exact (last (by omega)).run hi

theorem compositeTarget_inside {m : Message} {seg start : Nat} {priced : Ptr × Nat}
    (named : m.compositeTarget seg start = some priced) : m.ContentInside priced.1 := by
  unfold compositeTarget at named
  dsimp only at named
  split at named
  · cases named
  · next tagIn =>
    split at named
    · cases named
    · next checked =>
      cases named
      have startLt := (not_not.mp tagIn).lt
      have needLt := compositeNeed_lt (m.readWord seg start)
      intro i hi
      simp only [contentWords, compositePtr, Ptr.zero, if_true] at hi checked ⊢
      have firstEq : sizeT ((start : Int) + 1) = start + 1 := sizeT_of_lt (n := start + 1) (by omega)
      rw [firstEq] at checked ⊢
      set need := tagCount (m.readWord seg start) *
        (wpStructDwords (m.readWord seg start) + wpStructPwords (m.readWord seg start))
      have lastEq : sizeT (((start + 1 : Nat) : Int) + (need : Nat) - 1) = start + 1 + need - 1 := by
        rw [← sizeT_of_lt (n := start + 1 + need - 1) (by omega)]
        congr 1
        omega
      rw [lastEq] at checked
      have last : m.InSegment seg (start + 1 + need - 1) := by
        by_contra outside
        exact checked ⟨by omega, outside⟩
      exact last.run hi

/-! ## The pointer at the end of a chain of single far pointers -/

/-- A pointer word that is not far, with the position it was read at and the
number of far pointers that led there. -/
structure Near where
  seg : Nat
  word : Nat
  w : Nat
  hops : Nat
deriving DecidableEq

/-- Follow single far pointers to the near pointer they lead to. -/
def nearEnd (m : Message) : (depth : Nat) → (seg word w : Nat) → Option Near
  | 0, _, _, _ => none
  | depth + 1, seg, word, w =>
      match wpKind w with
      | .far =>
          if wpFarTwo w then none
          else if ¬m.InSegment (wpFarSeg w) (wpFarOff w) then none
          else
            (m.nearEnd depth (wpFarSeg w) (wpFarOff w)
              (m.readWord (wpFarSeg w) (wpFarOff w))).map fun near =>
                { near with hops := near.hops + 1 }
      | _ => some ⟨seg, word, w, 0⟩

/-- The chain of far pointers that starts with `w` meets a double-far one. -/
def usesDoubleFar (m : Message) : (depth : Nat) → (w : Nat) → Bool
  | 0, _ => false
  | depth + 1, w =>
      wpKind w = .far ∧
        (wpFarTwo w ∨ m.usesDoubleFar depth (m.readWord (wpFarSeg w) (wpFarOff w)))

/-- The object a near pointer word names. -/
def nearTarget (m : Message) (seg word w : Nat) : Option (Ptr × Nat) :=
  if w = 0 then some (nullPtr seg word, 0)
  else
    match wpKind w with
    | .far => none
    | .struct => m.structTarget seg word w
    | .list => m.listTarget seg word w
    | .cap => some (capPtr seg word w, 0)

/-- Resolution without double-far pointers is resolution of the near pointer
at the end of the chain, plus one word for every landing pad. -/
theorem target_eq_nearTarget {m : Message} {depth seg word w : Nat} {near : Near}
    (chain : m.nearEnd depth seg word w = some near) :
    m.target depth seg word w =
      (m.nearTarget near.seg near.word near.w).map fun priced =>
        (priced.1, priced.2 + near.hops) := by
  induction depth generalizing seg word w near with
  | zero => simp [nearEnd] at chain
  | succ depth ih =>
      unfold nearEnd at chain
      unfold target
      cases kindEq : wpKind w with
      | far =>
          have nonzero : w ≠ 0 := by
            rintro rfl
            simp [wpKind] at kindEq
          simp only [kindEq] at chain
          split at chain
          · cases chain
          · next single =>
            split at chain
            · cases chain
            · next padIn =>
              obtain ⟨rest, restEq, rfl⟩ := Option.map_eq_some_iff.mp chain
              simp only [nonzero, single, padIn, if_false, ih restEq, Option.map_map,
                Bool.false_eq_true]
              congr 1
      | struct =>
          simp only [kindEq, Option.some.injEq] at chain
          subst chain
          simp [nearTarget, kindEq]
      | list =>
          simp only [kindEq, Option.some.injEq] at chain
          subst chain
          simp [nearTarget, kindEq]
      | cap =>
          simp only [kindEq, Option.some.injEq] at chain
          subst chain
          simp [nearTarget, kindEq]

theorem nearEnd_of_target {m : Message} {depth seg word w : Nat} {priced : Ptr × Nat}
    (named : m.target depth seg word w = some priced) (single : ¬m.usesDoubleFar depth w) :
    ∃ near, m.nearEnd depth seg word w = some near := by
  induction depth generalizing seg word w priced with
  | zero => simp [target] at named
  | succ depth ih =>
      unfold target at named
      unfold nearEnd
      unfold usesDoubleFar at single
      cases kindEq : wpKind w with
      | far =>
          have nonzero : w ≠ 0 := by
            rintro rfl
            simp [wpKind] at kindEq
          simp only [kindEq, nonzero, if_false, true_and, decide_eq_true_eq, not_or,
            Bool.not_eq_true] at named single
          simp only [single.1, Bool.false_eq_true, if_false] at named ⊢
          split at named
          · cases named
          · next padIn =>
            obtain ⟨rest, restEq, _⟩ := Option.map_eq_some_iff.mp named
            obtain ⟨near, nearEq⟩ := ih restEq (by simp [single.2])
            simp only [padIn, if_false, nearEq, Option.map_some]
            exact ⟨_, rfl⟩
      | struct => exact ⟨_, rfl⟩
      | list => exact ⟨_, rfl⟩
      | cap => exact ⟨_, rfl⟩

/-! ## Lists that are not composite -/

/-- The list pointer's body starts before word 0 of its segment, yet its last
word lies in the segment. -/
def Near.StartsBelow (m : Message) (near : Near) : Prop :=
  wpKind near.w = .list ∧ wpListEsize near.w ≠ .composite ∧
    near.word + 1 + wpOffset near.w < 0 ∧
    ∃ last : Nat, m.InSegment near.seg last ∧
      (last : Int) =
        near.word + 1 + wpOffset near.w + listBodyWords (wpListEsize near.w) (wpListCount near.w) - 1

theorem contentWords_listPtr {seg start w : Nat} (plain : wpListEsize w ≠ .composite) :
    contentWords (listPtr seg start w) = listBodyWords (wpListEsize w) (wpListCount w) := by
  simp [contentWords, listPtr, plain]

/-- A plain list the code accepts lies in its segment exactly when it does not
start below it. -/
theorem primitiveTarget_inside_iff {m : Message} {near : Near} {priced : Ptr × Nat}
    (posLt : near.word < 2 ^ 61) (kindEq : wpKind near.w = .list)
    (plain : wpListEsize near.w ≠ .composite)
    (named : m.primitiveTarget near.seg (sizeT (near.word + 1 + wpOffset near.w)) near.w =
      some priced) :
    m.ContentInside priced.1 ↔ ¬near.StartsBelow m := by
  have countLt := wpListCount_lt near.w
  have wordsLe := listBodyWords_le (wpListEsize near.w) (wpListCount near.w)
  have offsetLo : -2 ^ 29 ≤ wpOffset near.w ∧ wpOffset near.w < 2 ^ 29 := by
    unfold wpOffset
    dsimp only
    split <;> omega
  unfold primitiveTarget at named
  dsimp only at named
  split at named
  · cases named
  · next checked =>
    cases named
    simp only [listPtr, Ptr.zero] at checked
    have length : contentWords (listPtr near.seg (sizeT (near.word + 1 + wpOffset near.w)) near.w) =
        listBodyWords (wpListEsize near.w) (wpListCount near.w) := contentWords_listPtr plain
    unfold ContentInside
    simp only [listPtr, Ptr.zero] at length ⊢
    rw [length]
    generalize wordsEq : listBodyWords (wpListEsize near.w) (wpListCount near.w) = words at *
    generalize firstEq : (near.word : Int) + 1 + wpOffset near.w = first at *
    by_cases below : first < 0
    · -- the first word is far above every segment once it has wrapped
      constructor
      · rintro inside ⟨_, _, _, last, _, lastEq⟩
        have firstIn := (inside 0 (by omega)).lt
        unfold sizeT at firstIn
        omega
      · intro notBelow i hi
        exfalso
        apply notBelow
        have lastIn : m.InSegment near.seg (sizeT ((sizeT first : Int) + words - 1)) := by
          by_contra outside
          exact checked ⟨by omega, outside⟩
        have lastLt := lastIn.lt
        refine ⟨kindEq, plain, by omega, _, lastIn, ?_⟩
        rw [wordsEq, firstEq]
        unfold sizeT at lastLt ⊢
        omega
    · constructor
      · rintro _ ⟨_, _, isBelow, _⟩
        omega
      · intro _ i hi
        have lastIn : m.InSegment near.seg (sizeT ((sizeT first : Int) + words - 1)) := by
          by_contra outside
          exact checked ⟨by omega, outside⟩
        have startEq : (sizeT first : Int) = first := by
          unfold sizeT
          omega
        have lastEq : sizeT ((sizeT first : Int) + words - 1) = sizeT first + words - 1 := by
          rw [← sizeT_of_lt (n := sizeT first + words - 1) (by omega)]
          congr 1
          omega
        rw [lastEq] at lastIn
        exact lastIn.run hi

theorem nearTarget_inside_iff {m : Message} {near : Near} {priced : Ptr × Nat}
    (posLt : near.word < 2 ^ 61)
    (named : m.nearTarget near.seg near.word near.w = some priced) :
    m.ContentInside priced.1 ↔ ¬near.StartsBelow m := by
  have always (inside : m.ContentInside priced.1) (other : ¬near.StartsBelow m) :
      m.ContentInside priced.1 ↔ ¬near.StartsBelow m := ⟨fun _ => other, fun _ => inside⟩
  unfold nearTarget at named
  split at named
  · next isNull =>
    cases named
    refine always (fun i hi => ?_) fun below => ?_
    · simp [contentWords, nullPtr, Ptr.zero] at hi
    · have kindEq := below.1
      simp [isNull, wpKind] at kindEq
  · cases kindEq : wpKind near.w with
    | far => simp [kindEq] at named
    | struct =>
        simp only [kindEq] at named
        exact always (structTarget_inside named) fun below => by simp [Near.StartsBelow, kindEq] at below
    | cap =>
        simp only [kindEq, Option.some.injEq] at named
        subst named
        refine always (fun i hi => ?_) fun below => ?_
        · simp [contentWords, capPtr, Ptr.zero] at hi
        · simp [Near.StartsBelow, kindEq] at below
    | list =>
        simp only [kindEq, listTarget] at named
        split at named
        · next composite =>
          exact always (compositeTarget_inside named) fun below => below.2.1 composite
        · next plain => exact primitiveTarget_inside_iff posLt kindEq plain named

/-- Every position on a chain of far pointers lies in its segment. -/
theorem nearEnd_inSegment {m : Message} {depth seg word w : Nat} {near : Near}
    (slotIn : m.InSegment seg word) (chain : m.nearEnd depth seg word w = some near) :
    m.InSegment near.seg near.word := by
  induction depth generalizing seg word w near with
  | zero => simp [nearEnd] at chain
  | succ depth ih =>
      unfold nearEnd at chain
      split at chain
      · split at chain
        · cases chain
        · split at chain
          · cases chain
          · next padIn =>
            obtain ⟨rest, restEq, rfl⟩ := Option.map_eq_some_iff.mp chain
            exact (ih (not_not.mp padIn) restEq : m.InSegment rest.seg rest.word)
      · cases chain
        exact slotIn

end Message

/-! ## Reader calls -/

/-- The three calls that resolve a pointer of a message. -/
inductive ReadCall
  | root
  | getp (s : Ptr) (ptrIndex : Nat)
  | listGetp (list : Ptr) (index : Nat)

namespace ReadCall

/-- Run the call. -/
def run (m : Message) (out : Ptr) (left : Nat) : ReadCall → Resolved
  | root => m.root out left
  | getp s ptrIndex => m.getp s ptrIndex out left
  | listGetp list index => m.listGetp list index out left

/-- The handle the call starts from. -/
def base : ReadCall → Option Ptr
  | root => none
  | getp s _ => some s
  | listGetp list _ => some list

/-- The position of the pointer word the call resolves, when it resolves
one. -/
def slot : ReadCall → Option (Nat × Nat)
  | root => some (0, 0)
  | getp s ptrIndex =>
      if s.kind = .struct ∧ ptrIndex < s.pwords then
        some (s.seg, sizeT (s.word + s.dwords + ptrIndex))
      else none
  | listGetp list index =>
      if list.kind = .list ∧ index < list.count ∧ list.esize = .ptr then
        some (list.seg, sizeT (list.word + index))
      else none

/-- The pointer the call resolves is not double-far, and neither is any far
pointer on the way to the object. -/
def AvoidsDoubleFar (m : Message) (call : ReadCall) : Prop :=
  ∀ seg word, call.slot = some (seg, word) → ¬m.usesDoubleFar m.depthLimit (m.readWord seg word)

/-- The pointer the call resolves is, after its far hops, a plain list that
starts below its segment and ends inside it, and the budget covers it. -/
def MeetsListBelow (m : Message) (left : Nat) (call : ReadCall) : Prop :=
  ∃ seg word near, call.slot = some (seg, word) ∧ m.InSegment seg word ∧
    m.nearEnd m.depthLimit seg word (m.readWord seg word) = some near ∧ near.StartsBelow m ∧
    listBodyWords (wpListEsize near.w) (wpListCount near.w) + near.hops + 1 ≤ left

/-- A call that resolves a pointer is `resolve_ptr` at its slot. -/
theorem run_eq_resolvePtr {m : Message} {call : ReadCall} {seg word : Nat} (out : Ptr) (left : Nat)
    (slotEq : call.slot = some (seg, word)) (nonempty : call = root → m.nsegs ≠ 0) :
    call.run m out left = m.resolvePtr seg word m.depthLimit out left := by
  cases call with
  | root =>
      cases slotEq
      simp [run, Message.root, nonempty rfl]
  | getp s ptrIndex =>
      simp only [slot] at slotEq
      split at slotEq
      · next ready =>
        cases slotEq
        simp only [run, Message.getp, ready.1, ne_eq, not_true_eq_false, if_false]
        rw [if_neg (by omega)]
      · cases slotEq
  | listGetp list index =>
      simp only [slot] at slotEq
      split at slotEq
      · next ready =>
        cases slotEq
        simp only [run, Message.listGetp, ready.1, ready.2.2, ne_eq, not_true_eq_false, if_false]
        rw [if_neg (by omega)]
      · cases slotEq

/-- Handles obtained by successful calls along paths without double-far
pointers. -/
inductive Obtained (m : Message) : Ptr → Prop
  | call (call : ReadCall) (out : Ptr) (left : Nat)
      (based : ∀ s, call.base = some s → Obtained m s)
      (ok : (call.run m out left).rc = .ok) (near : call.AvoidsDoubleFar m) :
      Obtained m (call.run m out left).out

/-- What a composite list handle promises about its elements. -/
def CompositeSound (m : Message) (h : Ptr) : Prop :=
  h.kind = .list → h.esize = .composite → h.stepWords = h.dwords + h.pwords ∧ m.ContentInside h

/-- An element of a composite list lies where the list does. -/
theorem elemPtr_inside {m : Message} {list : Ptr} {index : Nat}
    (isList : list.kind = .list) (composite : list.esize = .composite)
    (indexLt : index < list.count) (sound : CompositeSound m list) :
    m.ContentInside (Message.elemPtr list index) := by
  obtain ⟨stepEq, inside⟩ := sound isList composite
  intro i hi
  simp only [contentWords, Message.elemPtr, Ptr.zero] at hi ⊢
  rw [sizeT_add]
  have contentEq : contentWords list = list.count * list.stepWords := by
    simp [contentWords, isList, composite]
  have posLt : index * list.stepWords + i < contentWords list := by
    rw [contentEq]
    calc index * list.stepWords + i < index * list.stepWords + list.stepWords := by omega
      _ = (index + 1) * list.stepWords := by ring
      _ ≤ list.count * list.stepWords := Nat.mul_le_mul_right _ indexLt
  have inPlace := inside _ posLt
  have posEq : (list.word : Int) + (index : Int) * (list.stepWords : Int) + (i : Int) =
      (list.word : Int) + ((index * list.stepWords + i : Nat) : Int) := by
    push_cast
    ring
  rw [posEq]
  exact inPlace

/-- A successful call that resolves no pointer returns a null handle or an
element of a composite list. -/
theorem run_of_slot_none {m : Message} {call : ReadCall} {out : Ptr} {left : Nat}
    (slotEq : call.slot = none) (ok : (call.run m out left).rc = .ok) :
    (∃ seg, (call.run m out left).out = nullPtr seg 0) ∨
      ∃ list index, call = .listGetp list index ∧ list.kind = .list ∧ list.esize = .composite ∧
        index < list.count ∧ (call.run m out left).out = Message.elemPtr list index := by
  cases call with
  | root => cases slotEq
  | getp s ptrIndex =>
      left
      refine ⟨s.seg, ?_⟩
      simp only [run, Message.getp, slot] at ok slotEq ⊢
      split at ok
      · cases ok
      · next isStruct =>
        split at slotEq
        · cases slotEq
        · next beyond =>
          have past : ptrIndex ≥ s.pwords := by
            by_contra within
            exact beyond ⟨not_not.mp isStruct, by omega⟩
          simp [isStruct, past]
  | listGetp list index =>
      right
      simp only [run, Message.listGetp, slot] at ok slotEq ⊢
      split at ok
      · cases ok
      · next isList =>
        split at ok
        · cases ok
        · next within =>
          cases esizeEq : list.esize <;> simp only [esizeEq] at ok slotEq <;> try cases ok
          · split at slotEq
            · cases slotEq
            · next other =>
              exact absurd ⟨not_not.mp isList, by omega, trivial⟩ other
          · exact ⟨list, index, rfl, not_not.mp isList, esizeEq, by omega,
              by simp [isList, within]⟩

theorem nearTarget_compositeSound {m : Message} {seg word w : Nat} {priced : Ptr × Nat}
    (named : m.nearTarget seg word w = some priced) : CompositeSound m priced.1 := by
  intro isList composite
  unfold Message.nearTarget at named
  split at named
  · cases named
    cases isList
  · split at named
    · cases named
    · simp only [Message.structTarget] at named
      split at named
      · cases named
      · cases named
        cases isList
    · simp only [Message.listTarget] at named
      split at named
      · refine ⟨?_, Message.compositeTarget_inside named⟩
        simp only [Message.compositeTarget] at named
        split at named
        · cases named
        · split at named
          · cases named
          · cases named
            rfl
      · next plain =>
        simp only [Message.primitiveTarget] at named
        split at named
        · cases named
        · cases named
          exact absurd composite plain
    · cases named
      cases isList

/-- A successful call on a pointer without double-far hops returns the object
the near pointer at the end of the chain names, for its price. -/
theorem near_of_run {m : Message} {call : ReadCall} {seg word : Nat} {out : Ptr} {left : Nat}
    (slotEq : call.slot = some (seg, word)) (ok : (call.run m out left).rc = .ok)
    (single : call.AvoidsDoubleFar m) :
    m.InSegment seg word ∧
      ∃ near price, m.nearEnd m.depthLimit seg word (m.readWord seg word) = some near ∧
        m.nearTarget near.seg near.word near.w = some ((call.run m out left).out, price) ∧
        price + near.hops + 1 ≤ left := by
  have nonempty : call = root → m.nsegs ≠ 0 := by
    rintro rfl noSegs
    simp [run, Message.root, noSegs] at ok
  rw [run_eq_resolvePtr out left slotEq nonempty] at ok ⊢
  obtain ⟨cost, enough, named, -⟩ :=
    (m.resolvePtr_agrees seg word m.depthLimit out left).of_ok ok
  unfold Message.slotTarget at named
  split at named
  · cases named
  · next slotIn =>
    obtain ⟨⟨p, inner⟩, innerEq, priceEq⟩ := Option.map_eq_some_iff.mp named
    obtain ⟨near, chain⟩ := Message.nearEnd_of_target innerEq (single seg word slotEq)
    rw [Message.target_eq_nearTarget chain] at innerEq
    obtain ⟨⟨q, price⟩, nearEq, costEq⟩ := Option.map_eq_some_iff.mp innerEq
    simp only [Prod.mk.injEq] at priceEq costEq
    refine ⟨not_not.mp slotIn, near, price, chain, ?_, by omega⟩
    rw [nearEq, costEq.1, priceEq.1]

theorem Obtained.compositeSound {m : Message} {h : Ptr} (obtained : Obtained m h) :
    CompositeSound m h := by
  cases obtained with
  | call call out left based ok single =>
      cases slotEq : call.slot with
      | none =>
          rcases run_of_slot_none slotEq ok with ⟨seg, outEq⟩ | ⟨_, _, _, _, _, _, outEq⟩
          · rw [outEq]
            intro isList
            cases isList
          · rw [outEq]
            intro isList
            cases isList
      | some position =>
          obtain ⟨-, near, price, -, named, -⟩ := near_of_run slotEq ok single
          exact nearTarget_compositeSound named

/-- The price of a plain list is the length of its body. -/
theorem nearTarget_of_startsBelow {m : Message} {near : Message.Near}
    (below : near.StartsBelow m) :
    m.nearTarget near.seg near.word near.w =
      some (listPtr near.seg (sizeT (near.word + 1 + wpOffset near.w)) near.w,
        listBodyWords (wpListEsize near.w) (wpListCount near.w)) := by
  obtain ⟨isList, plain, negative, last, lastIn, lastEq⟩ := below
  have nonzero : near.w ≠ 0 := by
    intro isNull
    simp [isNull, wpKind] at isList
  have lastLt := lastIn.lt
  simp only [Message.nearTarget, nonzero, if_false, isList, Message.listTarget, plain,
    Message.primitiveTarget]
  rw [if_neg]
  · rfl
  · rintro ⟨-, outside⟩
    apply outside
    have posEq : sizeT ((sizeT (near.word + 1 + wpOffset near.w) : Int) +
        listBodyWords (wpListEsize near.w) (wpListCount near.w) - 1) = last := by
      rw [← sizeT_of_lt (n := last) (by omega), lastEq, add_sub_assoc, sizeT_add, add_sub_assoc]
    simpa [listPtr, Ptr.zero, posEq] using lastIn

/-- A reader call on a handle obtained without double-far pointers returns only
objects inside their segments, exactly unless it meets a plain list that starts
below its segment and ends inside it. -/
theorem run_inside_iff {m : Message} {call : ReadCall} (out : Ptr) (left : Nat)
    (based : ∀ s, call.base = some s → Obtained m s) (single : call.AvoidsDoubleFar m) :
    ((call.run m out left).rc = .ok → m.ContentInside (call.run m out left).out) ↔
      ¬call.MeetsListBelow m left := by
  constructor
  · rintro inside ⟨seg, word, near, slotEq, slotIn, chain, below, enough⟩
    have posLt := (Message.nearEnd_inSegment slotIn chain).lt
    have named := nearTarget_of_startsBelow below
    have nonempty : call = root → m.nsegs ≠ 0 := by
      rintro rfl noSegs
      cases slotEq
      exact absurd slotIn.1 (by omega)
    have result : m.slotTarget m.depthLimit seg word = some
        (listPtr near.seg (sizeT (near.word + 1 + wpOffset near.w)) near.w,
          listBodyWords (wpListEsize near.w) (wpListCount near.w) + near.hops + 1) := by
      simp [Message.slotTarget, slotIn, Message.target_eq_nearTarget chain, named]
    have runEq := (m.resolvePtr_agrees seg word m.depthLimit out left).covered _ _ result enough
    rw [run_eq_resolvePtr out left slotEq nonempty, runEq] at inside
    exact (Message.nearTarget_inside_iff posLt named).mp (inside rfl) below
  · intro clear ok
    cases slotEq : call.slot with
    | none =>
        rcases run_of_slot_none slotEq ok with
          ⟨seg, outEq⟩ | ⟨list, index, rfl, isList, composite, indexLt, outEq⟩
        · rw [outEq]
          intro i hi
          simp [contentWords, nullPtr, Ptr.zero] at hi
        · rw [outEq]
          exact elemPtr_inside isList composite indexLt (based list rfl).compositeSound
    | some position =>
        obtain ⟨seg, word⟩ := position
        obtain ⟨slotIn, near, price, chain, named, enough⟩ := near_of_run slotEq ok single
        have posLt := (Message.nearEnd_inSegment slotIn chain).lt
        refine (Message.nearTarget_inside_iff posLt named).mpr fun below => ?_
        have priceEq := nearTarget_of_startsBelow below
        rw [named, Option.some.injEq, Prod.mk.injEq] at priceEq
        exact clear ⟨seg, word, near, slotEq, slotIn, chain, below, by omega⟩

/-- One segment of two words: a struct pointer and the data word it names. -/
def oneStructFrame : List UInt8 :=
  [0, 0, 0, 0, 2, 0, 0, 0,
   0, 0, 0, 0, 1, 0, 0, 0,
   42, 0, 0, 0, 0, 0, 0, 0]

/-- The root struct of that message lies inside its segment. -/
theorem run_inside_oneStruct :
    (Frame.message (ofList oneStructFrame)).ContentInside
      (root.run (Frame.message (ofList oneStructFrame)) Ptr.zero defaultTraversalWords).out := by
  have nearEq : (Frame.message (ofList oneStructFrame)).nearEnd 64 0 0
      ((Frame.message (ofList oneStructFrame)).readWord 0 0) =
      some ⟨0, 0, wpMakeStruct 0 1 0, 0⟩ := by
    decide +kernel
  refine (run_inside_iff Ptr.zero defaultTraversalWords (fun _ based => ?_)
    (fun seg word slotEq => ?_)).mpr ?_ (by decide +kernel)
  · cases based
  · cases slotEq
    decide +kernel
  · rintro ⟨seg, word, near, slotEq, -, chain, below, -⟩
    cases slotEq
    cases nearEq.symm.trans chain
    exact absurd below.1 (by decide)

/-- One segment of one word: a byte list of 24 elements that starts two words
before the segment and ends with its only word. -/
def listBelowFrame : List UInt8 :=
  [0, 0, 0, 0, 1, 0, 0, 0,
   0xf5, 0xff, 0xff, 0xff, 0xc2, 0, 0, 0]

/-- The handle the code returns for that list. -/
def listBelowPtr : Ptr :=
  { Ptr.zero with word := 2 ^ 64 - 2, kind := .list, esize := .byte, count := 24 }

/-- The code accepts that list, two of whose three words are not in the
message. -/
theorem run_accepts_list_below :
    messageFromFlat listBelowFrame = .ok (Frame.message (ofList listBelowFrame)) ∧
      root.AvoidsDoubleFar (Frame.message (ofList listBelowFrame)) ∧
      root.run (Frame.message (ofList listBelowFrame)) Ptr.zero defaultTraversalWords =
        ⟨.ok, listBelowPtr, 8388604⟩ ∧
      contentWords listBelowPtr = 3 ∧
      ¬(Frame.message (ofList listBelowFrame)).ContentInside listBelowPtr := by
  refine ⟨parseFlat_of_accepted (by decide +kernel), fun seg word slotEq => ?_, by decide +kernel,
    by decide, fun inside => ?_⟩
  · cases slotEq
    decide +kernel
  · have firstIn := inside 0 (by decide)
    exact absurd firstIn (by decide +kernel)

end ReadCall

end CapnpJanet
