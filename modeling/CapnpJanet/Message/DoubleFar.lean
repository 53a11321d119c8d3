import CapnpJanet.Message.Bounds

/-!
# Double-far pointers against near pointers

A double-far pointer leads to a two-word landing pad: a far word that names the
content and a tag word that describes it.  The code resolves the tag in a
branch of its own instead of handing it to the near branches.  This file
compares the two.  The branch checks neither the words of a struct nor the
elements of a composite list against the content segment, and it neither checks
nor charges the body of a plain list; `run_doubleFar_iff` says that these are
the only differences.
-/

namespace CapnpJanet

open ByteMemory

/-- A landing pad of a double-far pointer, with the number of single far
pointers that led to it. -/
structure Pad where
  seg : Nat
  off : Nat
  hops : Nat
deriving DecidableEq

namespace Message

/-- Follow single far pointers to the double-far pointer they lead to. -/
def doubleEnd (m : Message) : (depth : Nat) → (w : Nat) → Option Pad
  | 0, _ => none
  | depth + 1, w =>
      match wpKind w with
      | .far =>
          if wpFarTwo w then some ⟨wpFarSeg w, wpFarOff w, 0⟩
          else if ¬m.InSegment (wpFarSeg w) (wpFarOff w) then none
          else
            (m.doubleEnd depth (m.readWord (wpFarSeg w) (wpFarOff w))).map fun pad =>
              { pad with hops := pad.hops + 1 }
      | _ => none

/-- Resolution through a double-far pointer is resolution of its landing pad,
plus one word for every landing pad of a single far pointer before it. -/
theorem target_eq_doubleFarTarget {m : Message} {depth w : Nat} {pad : Pad}
    (chain : m.doubleEnd depth w = some pad) (seg word : Nat) :
    m.target depth seg word w =
      (m.doubleFarTarget pad.seg pad.off).map fun priced => (priced.1, priced.2 + pad.hops) := by
  induction depth generalizing seg word w pad with
  | zero => simp [doubleEnd] at chain
  | succ depth ih =>
      unfold doubleEnd at chain
      unfold target
      cases kindEq : wpKind w with
      | far =>
          have nonzero : w ≠ 0 := by
            rintro rfl
            simp [wpKind] at kindEq
          simp only [kindEq] at chain
          split at chain
          · next two =>
            cases chain
            simp [nonzero, two]
          · next single =>
            split at chain
            · cases chain
            · next padIn =>
              obtain ⟨rest, restEq, rfl⟩ := Option.map_eq_some_iff.mp chain
              simp only [nonzero, single, padIn, if_false, ih restEq, Option.map_map,
                Bool.false_eq_true]
              congr 1
      | struct => simp [kindEq] at chain
      | list => simp [kindEq] at chain
      | cap => simp [kindEq] at chain

end Message

namespace Pad

variable (m : Message) (pad : Pad)

/-- The far word of the pad. -/
def far : Nat := m.readWord pad.seg pad.off

/-- The tag word of the pad. -/
def tag : Nat := m.readWord pad.seg (pad.off + 1)

/-- The segment of the content. -/
def contentSeg : Nat := wpFarSeg (pad.far m)

/-- The first word of the content. -/
def contentOff : Nat := wpFarOff (pad.far m)

/-- The composite tag, when the content is a composite list. -/
def elemTag : Nat := m.readWord (pad.contentSeg m) (pad.contentOff m)

/-- Words of a composite list after its tag. -/
def elemWords : Nat :=
  tagCount (pad.elemTag m) * (wpStructDwords (pad.elemTag m) + wpStructPwords (pad.elemTag m))

/-- Words the code charges for the content. -/
def price : Nat :=
  match wpKind (pad.tag m) with
  | .struct => wpStructDwords (pad.tag m) + wpStructPwords (pad.tag m)
  | .list => if wpListEsize (pad.tag m) = .composite then 1 + pad.elemWords m else 0
  | _ => 0

/-- The pad passes the checks the code makes, and the budget covers the slot,
the pads and the price. -/
def Accepted (left : Nat) : Prop :=
  m.InSegment pad.seg pad.off ∧ m.InSegment pad.seg (pad.off + 1) ∧
    wpKind (pad.far m) = .far ∧ ¬wpFarTwo (pad.far m) ∧
    (wpKind (pad.tag m) = .struct ∨
      wpKind (pad.tag m) = .list ∧
        (wpListEsize (pad.tag m) = .composite →
          m.InSegment (pad.contentSeg m) (pad.contentOff m))) ∧
    pad.price m + 2 + pad.hops + 1 ≤ left

/-- The content a pad describes needs no check that the code leaves out: a
struct or the elements of a composite list lie in the content segment, and a
plain list has no body. -/
def Sound : Prop :=
  match wpKind (pad.tag m) with
  | .struct =>
      ∀ i < wpStructDwords (pad.tag m) + wpStructPwords (pad.tag m),
        m.InSegment (pad.contentSeg m) (pad.contentOff m + i)
  | .list =>
      if wpListEsize (pad.tag m) = .composite then
        ∀ i < pad.elemWords m, m.InSegment (pad.contentSeg m) (pad.contentOff m + 1 + i)
      else listBodyWords (wpListEsize (pad.tag m)) (wpListCount (pad.tag m)) = 0
  | _ => True

/-- A near pointer word at `word` of the content segment with the fields of the
tag, naming the content of the pad. -/
structure NearForm (word w : Nat) : Prop where
  nonzero : w ≠ 0
  kind : wpKind w = wpKind (pad.tag m)
  fields : w / 2 ^ 32 = pad.tag m / 2 ^ 32
  content : (word : Int) + 1 + wpOffset w = pad.contentOff m

/-- What a resolved double-far pointer owes its near form: the content lies in
the content segment, and every near form, given the budget without the slot and
pad words, resolves to the same handle and the same remaining budget. -/
def LikeNear (r : Resolved) (left : Nat) : Prop :=
  m.ContentInside r.out ∧ r.out.seg = pad.contentSeg m ∧
    ∀ word w depth out, pad.NearForm m word w →
      m.resolveWord (depth + 1) (pad.contentSeg m) word w out (left - (2 + pad.hops + 1)) =
        ⟨.ok, r.out, r.left⟩

end Pad

/-! ## The pad the code accepts -/

section Fields

variable {w tag : Nat}

theorem wpStructDwords_of_fields (fields : w / 2 ^ 32 = tag / 2 ^ 32) :
    wpStructDwords w = wpStructDwords tag := by
  simp only [wpStructDwords, fields]

theorem wpStructPwords_of_fields (fields : w / 2 ^ 32 = tag / 2 ^ 32) :
    wpStructPwords w = wpStructPwords tag := by
  unfold wpStructPwords
  omega

theorem wpListEsize_of_fields (fields : w / 2 ^ 32 = tag / 2 ^ 32) :
    wpListEsize w = wpListEsize tag := by
  simp only [wpListEsize, fields]

theorem wpListCount_of_fields (fields : w / 2 ^ 32 = tag / 2 ^ 32) :
    wpListCount w = wpListCount tag := by
  unfold wpListCount
  omega

end Fields

namespace Pad

variable {m : Message} {pad : Pad}

/-- The handle the code builds from an accepted pad. -/
def handle (m : Message) (pad : Pad) : Ptr :=
  match wpKind (pad.tag m) with
  | .struct => structPtr (pad.contentSeg m) (pad.contentOff m) (pad.tag m)
  | _ =>
      if wpListEsize (pad.tag m) = .composite then
        compositePtr (pad.contentSeg m) (pad.contentOff m) (pad.elemTag m)
      else listPtr (pad.contentSeg m) (pad.contentOff m) (pad.tag m)

theorem contentOff_lt (m : Message) (pad : Pad) : pad.contentOff m < 2 ^ 29 := Nat.mod_lt _ (by norm_num)

/-- The code returns `handle` for accepted pads and nothing for others. -/
theorem doubleFarTarget_eq :
    m.doubleFarTarget pad.seg pad.off =
      if m.InSegment pad.seg pad.off ∧ m.InSegment pad.seg (pad.off + 1) ∧
          wpKind (pad.far m) = .far ∧ ¬wpFarTwo (pad.far m) ∧
          (wpKind (pad.tag m) = .struct ∨
            wpKind (pad.tag m) = .list ∧
              (wpListEsize (pad.tag m) = .composite →
                m.InSegment (pad.contentSeg m) (pad.contentOff m))) then
        some (pad.handle m, pad.price m + 2)
      else none := by
  unfold Message.doubleFarTarget Message.padTarget handle price
  rw [show m.readWord pad.seg pad.off = pad.far m from rfl,
    show m.readWord pad.seg (pad.off + 1) = pad.tag m from rfl,
    show wpFarSeg (pad.far m) = pad.contentSeg m from rfl,
    show wpFarOff (pad.far m) = pad.contentOff m from rfl]
  by_cases firstIn : m.InSegment pad.seg pad.off
  · by_cases secondIn : m.InSegment pad.seg (pad.off + 1)
    · by_cases isFar : wpKind (pad.far m) = .far
      · by_cases two : wpFarTwo (pad.far m)
        · simp [firstIn, secondIn, two]
        · cases tagKind : wpKind (pad.tag m) with
          | struct => simp [firstIn, secondIn, isFar, two]
          | far => simp [firstIn, secondIn, isFar, two]
          | cap => simp [firstIn, secondIn, isFar, two]
          | list =>
              by_cases composite : wpListEsize (pad.tag m) = .composite
              · by_cases tagIn : m.InSegment (pad.contentSeg m) (pad.contentOff m)
                · simp only [firstIn, secondIn, isFar, two, composite, tagIn]
                  simp [compositePtr, elemWords, elemTag]
                · simp [firstIn, secondIn, isFar, two, composite, tagIn]
              · simp [firstIn, secondIn, isFar, two, composite]
      · simp [firstIn, secondIn, isFar]
    · simp [secondIn]
  · simp [firstIn]

/-- A call on a double-far pointer succeeds exactly on accepted pads. -/
theorem run_of_accepted {call : ReadCall} {seg word left : Nat} (out : Ptr)
    (slotEq : call.slot = some (seg, word)) (slotIn : m.InSegment seg word)
    (chain : m.doubleEnd m.depthLimit (m.readWord seg word) = some pad)
    (accepted : pad.Accepted m left) :
    call.run m out left = ⟨.ok, pad.handle m, left - (pad.price m + 2 + pad.hops + 1)⟩ := by
  obtain ⟨firstIn, secondIn, isFar, single, tagOk, enough⟩ := accepted
  have named : m.slotTarget m.depthLimit seg word =
      some (pad.handle m, pad.price m + 2 + pad.hops + 1) := by
    rw [Message.slotTarget, if_neg (not_not.mpr slotIn), Message.target_eq_doubleFarTarget chain,
      doubleFarTarget_eq, if_pos ⟨firstIn, secondIn, isFar, single, tagOk⟩]
    simp only [Option.map_some]
  rw [ReadCall.run_eq_resolvePtr out left slotEq (fun isRoot => by
    subst isRoot
    cases slotEq
    exact Nat.ne_of_gt (Nat.lt_of_le_of_lt (Nat.zero_le _) slotIn.1))]
  exact (m.resolvePtr_agrees seg word m.depthLimit out left).covered _ _ named enough

theorem accepted_of_run {call : ReadCall} {seg word left : Nat} {out : Ptr}
    (slotEq : call.slot = some (seg, word)) (slotIn : m.InSegment seg word)
    (chain : m.doubleEnd m.depthLimit (m.readWord seg word) = some pad)
    (ok : (call.run m out left).rc = .ok) : pad.Accepted m left := by
  rw [ReadCall.run_eq_resolvePtr out left slotEq (fun isRoot => by
    subst isRoot
    cases slotEq
    exact Nat.ne_of_gt (Nat.lt_of_le_of_lt (Nat.zero_le _) slotIn.1))] at ok
  obtain ⟨cost, enough, named, -⟩ :=
    (m.resolvePtr_agrees seg word m.depthLimit out left).of_ok ok
  rw [Message.slotTarget, if_neg (not_not.mpr slotIn), Message.target_eq_doubleFarTarget chain,
    doubleFarTarget_eq] at named
  split at named
  · next checks =>
    simp only [Option.map_some, Option.some.injEq, Prod.mk.injEq] at named
    obtain ⟨firstIn, secondIn, isFar, single, tagOk⟩ := checks
    exact ⟨firstIn, secondIn, isFar, single, tagOk, by omega⟩
  · simp at named

/-! ## Comparison with the near branches -/

theorem target_of_nearForm {word w : Nat} (form : pad.NearForm m word w) (depth : Nat)
    (tagOk : wpKind (pad.tag m) = .struct ∨ wpKind (pad.tag m) = .list) :
    m.target (depth + 1) (pad.contentSeg m) word w = m.nearTarget (pad.contentSeg m) word w := by
  have isNear : wpKind w ≠ .far := by
    rw [form.kind]
    rcases tagOk with isStruct | isList
    · simp [isStruct]
    · simp [isList]
  unfold Message.target Message.nearTarget
  cases kindEq : wpKind w with
  | far => exact absurd kindEq isNear
  | struct => simp
  | list => simp
  | cap => simp

theorem sizeT_content {word w : Nat} (form : pad.NearForm m word w) :
    sizeT (word + 1 + wpOffset w) = pad.contentOff m := by
  rw [form.content]
  exact sizeT_of_lt (by have offLt := contentOff_lt m pad; omega)

/-- On sound pads every near form names the same object for the same price. -/
theorem nearTarget_of_sound {word w : Nat} (form : pad.NearForm m word w)
    (tagOk : wpKind (pad.tag m) = .struct ∨
      wpKind (pad.tag m) = .list ∧
        (wpListEsize (pad.tag m) = .composite →
          m.InSegment (pad.contentSeg m) (pad.contentOff m)))
    (sound : pad.Sound m) :
    m.nearTarget (pad.contentSeg m) word w = some (pad.handle m, pad.price m) := by
  have offLt := contentOff_lt m pad
  have kindEq := form.kind
  unfold Message.nearTarget
  rw [if_neg form.nonzero]
  unfold Sound at sound
  unfold handle price
  rcases tagOk with isStruct | ⟨isList, tagIn⟩
  · rw [isStruct] at kindEq
    simp only [isStruct] at sound ⊢
    simp only [kindEq, Message.structTarget, sizeT_content form]
    simp only [structPtr, Ptr.zero, wpStructDwords_of_fields form.fields,
      wpStructPwords_of_fields form.fields]
    rw [if_neg]
    rintro ⟨nonempty, outside⟩
    set dwords := wpStructDwords (pad.tag m)
    set pwords := wpStructPwords (pad.tag m)
    have dwordsLt : dwords < 2 ^ 16 := wpStructDwords_lt _
    have pwordsLt : pwords < 2 ^ 16 := wpStructPwords_lt _
    have stopEq : sizeT ((pad.contentOff m : Int) + dwords + pwords) =
        pad.contentOff m + (dwords + pwords) := by
      rw [← sizeT_of_lt (n := pad.contentOff m + (dwords + pwords)) (by omega)]
      push_cast
      congr 1
      ring
    rcases outside with firstOut | ⟨-, lastOut⟩
    · exact firstOut (by simpa using sound 0 (by omega))
    · apply lastOut
      rw [stopEq, show pad.contentOff m + (dwords + pwords) - 1 =
        pad.contentOff m + (dwords + pwords - 1) by omega]
      exact sound _ (by omega)
  · rw [isList] at kindEq
    simp only [isList] at sound ⊢
    simp only [kindEq, Message.listTarget, sizeT_content form, wpListEsize_of_fields form.fields]
    by_cases composite : wpListEsize (pad.tag m) = .composite
    · simp only [composite, if_true, Message.compositeTarget, tagIn composite, not_true_eq_false,
        if_false] at sound ⊢
      have needLt : pad.elemWords m < 2 ^ 50 := compositeNeed_lt _
      have firstEq : sizeT ((pad.contentOff m : Int) + 1) = pad.contentOff m + 1 :=
        sizeT_of_lt (n := pad.contentOff m + 1) (by omega)
      have lastEq : sizeT (((pad.contentOff m + 1 : Nat) : Int) + (pad.elemWords m : Nat) - 1) =
          pad.contentOff m + 1 + pad.elemWords m - 1 := by
        rw [← sizeT_of_lt (n := pad.contentOff m + 1 + pad.elemWords m - 1) (by omega)]
        congr 1
        omega
      rw [if_neg]
      · simp only [compositePtr, firstEq, elemTag]
        rw [Nat.add_comm 1]
        rfl
      · rintro ⟨nonempty, outside⟩
        apply outside
        simp only [compositePtr, firstEq]
        have needEq : tagCount (m.readWord (pad.contentSeg m) (pad.contentOff m)) *
            (wpStructDwords (m.readWord (pad.contentSeg m) (pad.contentOff m)) +
              wpStructPwords (m.readWord (pad.contentSeg m) (pad.contentOff m))) =
            pad.elemWords m := rfl
        simp only [compositePtr, needEq] at nonempty
        rw [needEq, lastEq, show pad.contentOff m + 1 + pad.elemWords m - 1 =
          pad.contentOff m + 1 + (pad.elemWords m - 1) by omega]
        exact sound _ (by omega)
    · simp only [composite, if_false] at sound ⊢
      simp only [Message.primitiveTarget, listPtr, Ptr.zero, wpListEsize_of_fields form.fields,
        wpListCount_of_fields form.fields, sound]
      simp

/-- A near form of a plain list pad: the word before the content, pointing
back at it. -/
theorem exists_nearForm_of_list (isList : wpKind (pad.tag m) = .list) :
    ∃ w, pad.NearForm m (pad.contentOff m) w := by
  refine ⟨pad.tag m / 2 ^ 32 * 2 ^ 32 + ((2 ^ 30 - 1) * 4 + 1), by omega, ?_, by omega, ?_⟩
  · have low : (pad.tag m / 2 ^ 32 * 2 ^ 32 + ((2 ^ 30 - 1) * 4 + 1)) % 4 = 1 := by omega
    rw [isList, wpKind, low]
    rfl
  · have field : (pad.tag m / 2 ^ 32 * 2 ^ 32 + ((2 ^ 30 - 1) * 4 + 1)) / 4 % 2 ^ 30 =
        offsetField (-1) := by
      rw [show offsetField (-1) = 2 ^ 30 - 1 from rfl]
      omega
    rw [wpOffset_of_field field ⟨by decide, by decide⟩]
    ring

theorem handle_seg : (pad.handle m).seg = pad.contentSeg m := by
  unfold handle
  split
  · rfl
  · split <;> rfl

/-- The handle of a sound pad lies inside the content segment. -/
theorem inside_of_sound
    (tagOk : wpKind (pad.tag m) = .struct ∨
      wpKind (pad.tag m) = .list ∧
        (wpListEsize (pad.tag m) = .composite →
          m.InSegment (pad.contentSeg m) (pad.contentOff m)))
    (sound : pad.Sound m) : m.ContentInside (pad.handle m) := by
  have offLt := contentOff_lt m pad
  unfold Sound at sound
  unfold handle
  rcases tagOk with isStruct | ⟨isList, tagIn⟩
  · simp only [isStruct] at sound ⊢
    intro i hi
    simp only [contentWords, structPtr, Ptr.zero] at hi ⊢
    have inPlace := sound i hi
    rwa [← sizeT_of_lt (n := pad.contentOff m + i) (by have := inPlace.lt; omega),
      Nat.cast_add] at inPlace
  · simp only [isList] at sound ⊢
    by_cases composite : wpListEsize (pad.tag m) = .composite
    · simp only [composite, if_true] at sound ⊢
      intro i hi
      simp only [contentWords, compositePtr, Ptr.zero, if_true] at hi ⊢
      have inPlace := sound i hi
      rwa [← sizeT_of_lt (n := pad.contentOff m + 1 + i) (by have := inPlace.lt; omega),
        Nat.cast_add] at inPlace
    · simp only [composite, if_false] at sound ⊢
      intro i hi
      rw [Message.contentWords_listPtr composite] at hi
      omega

/-- A handle inside the content segment leaves only the body of a plain list
unchecked. -/
theorem sound_of_inside (inside : m.ContentInside (pad.handle m))
    (bodyless : wpKind (pad.tag m) = .list → wpListEsize (pad.tag m) ≠ .composite →
      listBodyWords (wpListEsize (pad.tag m)) (wpListCount (pad.tag m)) = 0) :
    pad.Sound m := by
  have offLt := contentOff_lt m pad
  unfold Sound
  unfold handle at inside
  cases tagKind : wpKind (pad.tag m) with
  | struct =>
      simp only [tagKind] at inside ⊢
      intro i hi
      have dwordsLt := wpStructDwords_lt (pad.tag m)
      have pwordsLt := wpStructPwords_lt (pad.tag m)
      have inPlace := inside i (by simpa [contentWords, structPtr, Ptr.zero] using hi)
      simp only [structPtr, Ptr.zero] at inPlace
      rwa [← Nat.cast_add, sizeT_of_lt (by omega)] at inPlace
  | list =>
      by_cases composite : wpListEsize (pad.tag m) = .composite
      · simp only [tagKind, composite, if_true] at inside ⊢
        intro i hi
        have needLt : pad.elemWords m < 2 ^ 50 := compositeNeed_lt _
        have inPlace := inside i (by simpa [contentWords, compositePtr, Ptr.zero, elemWords] using hi)
        simp only [compositePtr, Ptr.zero] at inPlace
        rwa [← Nat.cast_add, sizeT_of_lt (by omega)] at inPlace
      · simp only [composite, if_false]
        exact bodyless tagKind composite
  | far => trivial
  | cap => trivial

/-- A call on a double-far pointer does what a near pointer to the same content
would do, for two more words, exactly when the code refuses the pad or the
content needs none of the checks that the double-far branch leaves out. -/
theorem run_doubleFar_iff (call : ReadCall) {seg word : Nat} (out : Ptr) (left : Nat)
    (slotEq : call.slot = some (seg, word)) (slotIn : m.InSegment seg word)
    (chain : m.doubleEnd m.depthLimit (m.readWord seg word) = some pad) :
    ((call.run m out left).rc = .ok → pad.LikeNear m (call.run m out left) left) ↔
      (pad.Accepted m left → pad.Sound m) := by
  constructor
  · intro likeNear accepted
    have runEq := run_of_accepted out slotEq slotIn chain accepted
    rw [runEq] at likeNear
    obtain ⟨inside, -, nearRun⟩ := likeNear rfl
    refine sound_of_inside inside fun isList plain => ?_
    -- the near form charges the body, the double-far branch does not
    obtain ⟨w, form⟩ := exists_nearForm_of_list isList
    have nearEq := nearRun _ w 0 Ptr.zero form
    have agrees := m.resolveWord_agrees 1 (pad.contentSeg m) (pad.contentOff m) w Ptr.zero
      (left - (2 + pad.hops + 1))
    rw [nearEq] at agrees
    obtain ⟨cost, costLe, named, leftEq⟩ := agrees.of_ok rfl
    rw [target_of_nearForm form 0 (.inr isList)] at named
    have costEq : cost = listBodyWords (wpListEsize (pad.tag m)) (wpListCount (pad.tag m)) := by
      have kindEq := form.kind
      rw [isList] at kindEq
      simp only [Message.nearTarget, form.nonzero, if_false, kindEq, Message.listTarget,
        wpListEsize_of_fields form.fields, plain, Message.primitiveTarget, listPtr,
        wpListCount_of_fields form.fields] at named
      split at named
      · cases named
      · exact (Prod.mk.inj (Option.some.inj named)).2.symm
    have priceEq : pad.price m = 0 := by simp [price, isList, plain]
    dsimp only at leftEq
    omega
  · intro sound ok
    have accepted := accepted_of_run slotEq slotIn chain ok
    have runEq := run_of_accepted out slotEq slotIn chain accepted
    have sound := sound accepted
    obtain ⟨-, -, -, -, tagOk, enough⟩ := accepted
    rw [runEq]
    refine ⟨inside_of_sound tagOk sound, handle_seg, fun nearWord w depth nearOut form => ?_⟩
    have named := target_of_nearForm form depth (tagOk.imp_right And.left)
    rw [nearTarget_of_sound form tagOk sound] at named
    rw [(m.resolveWord_agrees (depth + 1) (pad.contentSeg m) nearWord w nearOut
      (left - (2 + pad.hops + 1))).covered _ _ named (by omega)]
    congr 1
    dsimp only
    omega

/-! ## Instances -/

/-- A root pointer of a message of three segments: double-far to the pad in
segment 2, whose content is the one word of segment 1. -/
def doubleFarStructFrame : List UInt8 :=
  [2, 0, 0, 0, 1, 0, 0, 0, 1, 0, 0, 0, 2, 0, 0, 0,
   6, 0, 0, 0, 2, 0, 0, 0,
   42, 0, 0, 0, 0, 0, 0, 0,
   2, 0, 0, 0, 1, 0, 0, 0,
   0, 0, 0, 0, 1, 0, 0, 0]

/-- A well-formed struct behind a double-far pointer is read like its near
form. -/
theorem run_doubleFar_struct :
    (⟨2, 0, 0⟩ : Pad).LikeNear (Frame.message (ofList doubleFarStructFrame))
      (ReadCall.root.run (Frame.message (ofList doubleFarStructFrame)) Ptr.zero
        defaultTraversalWords) defaultTraversalWords := by
  refine (run_doubleFar_iff .root Ptr.zero defaultTraversalWords rfl (by decide +kernel)
    (by decide +kernel)).mpr (fun _ => ?_) (by decide +kernel)
  have tagEq : (⟨2, 0, 0⟩ : Pad).tag (Frame.message (ofList doubleFarStructFrame)) =
      wpMakeStruct 0 1 0 := by
    decide +kernel
  have inside : (Frame.message (ofList doubleFarStructFrame)).InSegment
      ((⟨2, 0, 0⟩ : Pad).contentSeg (Frame.message (ofList doubleFarStructFrame)))
      ((⟨2, 0, 0⟩ : Pad).contentOff (Frame.message (ofList doubleFarStructFrame))) := by
    decide +kernel
  unfold Sound
  rw [tagEq]
  intro i hi
  rw [show i = 0 by simp at hi; omega]
  exact inside

/-- The same message, but the tag announces a byte list of 16 elements, of which
the content segment holds eight. -/
def doubleFarListFrame : List UInt8 :=
  [2, 0, 0, 0, 1, 0, 0, 0, 1, 0, 0, 0, 2, 0, 0, 0,
   6, 0, 0, 0, 2, 0, 0, 0,
   42, 0, 0, 0, 0, 0, 0, 0,
   2, 0, 0, 0, 1, 0, 0, 0,
   1, 0, 0, 0, 0x82, 0, 0, 0]

/-- The handle the code returns for that list. -/
def doubleFarListPtr : Ptr :=
  { Ptr.zero with seg := 1, word := 0, kind := .list, esize := .byte, count := 16 }

/-- The code returns the whole list, charging the slot and the pads only. -/
theorem run_accepts_doubleFar_list :
    messageFromFlat doubleFarListFrame = .ok (Frame.message (ofList doubleFarListFrame)) ∧
      (Frame.message (ofList doubleFarListFrame)).doubleEnd 64
        ((Frame.message (ofList doubleFarListFrame)).readWord 0 0) = some ⟨2, 0, 0⟩ ∧
      ReadCall.root.run (Frame.message (ofList doubleFarListFrame)) Ptr.zero
        defaultTraversalWords = ⟨.ok, doubleFarListPtr, 8388605⟩ ∧
      ¬(Frame.message (ofList doubleFarListFrame)).ContentInside doubleFarListPtr ∧
      ¬(⟨2, 0, 0⟩ : Pad).LikeNear (Frame.message (ofList doubleFarListFrame))
        ⟨.ok, doubleFarListPtr, 8388605⟩ defaultTraversalWords := by
  have outside : ¬(Frame.message (ofList doubleFarListFrame)).ContentInside doubleFarListPtr := by
    intro inside
    have secondIn := inside 1 (by decide)
    exact absurd secondIn (by decide +kernel)
  exact ⟨parseFlat_of_accepted (by decide +kernel), by decide +kernel, by decide +kernel, outside,
    fun likeNear => outside likeNear.1⟩

end Pad

end CapnpJanet
