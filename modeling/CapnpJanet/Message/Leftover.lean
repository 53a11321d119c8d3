import CapnpJanet.Message.Bounds
import CapnpJanet.Message.Landing

/-!
# What a failing read leaves behind

`resolve_word` fills the handle before it has made its checks.  A read that
fails on the way to the word that describes the object leaves the handle as it
was; one that fails at that word leaves a handle of the kind it names.  A caller
that does not look at the return code is therefore safe exactly when the
described content passes the checks.
-/

namespace CapnpJanet

open ByteMemory

/-- Where a pointer has been followed to: the word `w` describes an object whose
content starts at word `start` of segment `seg`, a position that may lie before
the segment.  `left` words of the budget remain for the content; behind a
double-far pointer the body of a plain list is not charged. -/
structure Landing where
  seg : Nat
  start : Int
  w : Nat
  left : Nat
  pad : Bool

/-- Words of the elements a composite tag announces. -/
def tagWords (tag : Nat) : Nat := tagCount tag * (wpStructDwords tag + wpStructPwords tag)

namespace Message

/-- The words `start .. start + n - 1` lie in the segment. -/
def Spans (m : Message) (seg : Nat) (start : Int) (n : Nat) : Prop :=
  ∀ i < n, 0 ≤ start ∧ m.InSegment seg (start.toNat + i)

end Message

/-- The described content lies in its segment and the budget covers it. -/
def Landing.Holds (m : Message) (l : Landing) : Prop :=
  match wpKind l.w with
  | .struct =>
      m.Spans l.seg l.start (wpStructDwords l.w + wpStructPwords l.w) ∧
        wpStructDwords l.w + wpStructPwords l.w ≤ l.left
  | _ =>
      if wpListEsize l.w = .composite then
        let need := tagWords (m.readWord l.seg l.start.toNat)
        m.Spans l.seg l.start 1 ∧ m.Spans l.seg (l.start + 1) need ∧ need + 1 ≤ l.left
      else
        let need := listBodyWords (wpListEsize l.w) (wpListCount l.w)
        m.Spans l.seg l.start need ∧ (l.pad ∨ need ≤ l.left)

namespace Message

/-- Follow the pointer word `w` to the word that describes its object.  There is
none for null and capability pointers, and when the chain of far pointers
breaks, is too long or too expensive. -/
def landing (m : Message) : (depth : Nat) → (seg word w left : Nat) → Option Landing
  | 0, _, _, _, _ => none
  | depth + 1, seg, word, w, left =>
      if w = 0 then none
      else
        match wpKind w with
        | .far =>
            let pad := m.readWord (wpFarSeg w) (wpFarOff w)
            let tag := m.readWord (wpFarSeg w) (wpFarOff w + 1)
            if wpFarTwo w then
              if m.InSegment (wpFarSeg w) (wpFarOff w) ∧ m.InSegment (wpFarSeg w) (wpFarOff w + 1) ∧
                  2 ≤ left ∧ wpKind pad = .far ∧ ¬wpFarTwo pad ∧
                  (wpKind tag = .struct ∨ wpKind tag = .list) then
                some ⟨wpFarSeg pad, wpFarOff pad, tag, left - 2, true⟩
              else none
            else if m.InSegment (wpFarSeg w) (wpFarOff w) ∧ 1 ≤ left then
              m.landing depth (wpFarSeg w) (wpFarOff w) pad (left - 1)
            else none
        | .cap => none
        | _ => some ⟨seg, word + 1 + wpOffset w, w, left, false⟩

/-- The landing of the pointer in a slot. -/
def slotLanding (m : Message) (seg word left : Nat) : Option Landing :=
  if m.InSegment seg word ∧ 1 ≤ left then
    m.landing m.depthLimit seg word (m.readWord seg word) (left - 1)
  else none

/-- A caller that uses the handle of a read without looking at the return code
gets the null handle or an object inside its segment. -/
def Safe (m : Message) (r : Resolved) : Prop :=
  r.out.kind = .null ∨ r.rc = .ok ∧ m.ContentInside r.out

variable {m : Message} {seg : Nat} {start : Int} {n : Nat}

theorem safe_of_null {r : Resolved} (null : r.out.kind = .null) : m.Safe r := .inl null

/-- For a handle of another kind only success is safe. -/
theorem safe_iff_of_kind {r : Resolved} {outcome : Option (Ptr × Nat)} {left : Nat}
    (agrees : Agrees r outcome left) (kind : r.out.kind ≠ .null) :
    m.Safe r ↔ ∃ p cost, outcome = some (p, cost) ∧ cost ≤ left ∧ m.ContentInside p := by
  constructor
  · rintro (null | ⟨ok, inside⟩)
    · exact absurd null kind
    · obtain ⟨cost, enough, priced, -⟩ := agrees.of_ok ok
      exact ⟨_, cost, priced, enough, inside⟩
  · rintro ⟨p, cost, priced, enough, inside⟩
    have result := agrees.covered p cost priced enough
    rw [result]
    exact .inr ⟨rfl, inside⟩

/-- Positions before a segment wrap around to positions behind it. -/
theorem inside_iff_spans {h : Ptr} (low : -2 ^ 30 ≤ start) (high : start < 2 ^ 63)
    (segEq : h.seg = seg) (wordEq : h.word = sizeT start) (size : contentWords h = n)
    (small : n < 2 ^ 60) : m.ContentInside h ↔ m.Spans seg start n := by
  unfold ContentInside Spans
  rw [size, segEq, wordEq]
  have position : ∀ i < n, 0 ≤ start → sizeT ((sizeT start : Int) + i) = start.toNat + i := by
    intro i hi positive
    rw [sizeT_add, show start + i = ((start.toNat + i : Nat) : Int) by omega,
      sizeT_of_lt (by omega)]
  constructor
  · intro inside i hi
    have first := (inside 0 (by omega)).lt
    have positive : 0 ≤ start := by
      by_contra negative
      rw [sizeT_add] at first
      unfold sizeT at first
      omega
    have within := inside i hi
    rw [position i hi positive] at within
    exact ⟨positive, within⟩
  · intro spans i hi
    obtain ⟨positive, within⟩ := spans i hi
    rwa [position i hi positive]

/-! ## The branches of `resolve_word` -/

@[simp]
theorem chargeFor_out (out : Ptr) (words left : Nat) : (chargeFor out words left).out = out := by
  unfold chargeFor
  cases charge words left <;> rfl

section
variable {word w left : Nat}

theorem resolveStruct_kind : (m.resolveStruct seg word w left).out.kind = .struct := by
  unfold resolveStruct
  dsimp only
  split
  · rfl
  · rw [chargeFor_out]
    rfl

theorem resolveComposite_kind {start : Nat} :
    (m.resolveComposite seg start w left).out.kind = .list := by
  unfold resolveComposite
  split
  · rfl
  · cases charge 1 left with
    | none => rfl
    | some left =>
        dsimp only
        split
        · rfl
        · rw [chargeFor_out]
          rfl

theorem resolvePrimitive_kind {start : Nat} :
    (m.resolvePrimitive seg start w left).out.kind = .list := by
  unfold resolvePrimitive
  dsimp only
  split
  · rfl
  · rw [chargeFor_out]
    rfl

theorem resolveList_kind : (m.resolveList seg word w left).out.kind = .list := by
  unfold resolveList
  dsimp only
  split
  · exact resolveComposite_kind
  · exact resolvePrimitive_kind

theorem offset_bounds (w : Nat) : -2 ^ 29 ≤ wpOffset w ∧ wpOffset w < 2 ^ 29 := by
  unfold wpOffset
  dsimp only
  split <;> omega

/-! ## Named objects inside their segments -/

/-- An outcome the budget covers, inside its segment. -/
def Reaches (m : Message) (left : Nat) (outcome : Option (Ptr × Nat)) : Prop :=
  ∃ p cost, outcome = some (p, cost) ∧ cost ≤ left ∧ m.ContentInside p

/-- The first position of a nonempty run in a segment. -/
theorem Spans.start_eq (spans : m.Spans seg start n) (some : n ≠ 0) :
    ∃ first : Nat, start = first ∧ seg < m.nsegs ∧ first + n ≤ (m.seg seg).words := by
  obtain ⟨positive, first⟩ := spans 0 (Nat.pos_of_ne_zero some)
  obtain ⟨-, last⟩ := spans (n - 1) (by omega)
  have within := last.2
  exact ⟨start.toNat, by omega, first.1, by omega⟩

theorem structTarget_reaches (posLt : word < 2 ^ 61) :
    m.Reaches left (m.structTarget seg word w) ↔
      m.Spans seg (word + 1 + wpOffset w) (wpStructDwords w + wpStructPwords w) ∧
        wpStructDwords w + wpStructPwords w ≤ left := by
  obtain ⟨low, high⟩ := offset_bounds w
  have dwordsLt := wpStructDwords_lt w
  have pwordsLt := wpStructPwords_lt w
  have inside : m.ContentInside (structPtr seg (sizeT (word + 1 + wpOffset w)) w) ↔
      m.Spans seg (word + 1 + wpOffset w) (wpStructDwords w + wpStructPwords w) :=
    inside_iff_spans (by omega) (by omega) rfl rfl rfl (by omega)
  constructor
  · rintro ⟨p, cost, named, enough, within⟩
    obtain ⟨rfl, rfl⟩ := Prod.mk.inj (structTarget_out named)
    exact ⟨inside.mp within, enough⟩
  · rintro ⟨spans, enough⟩
    refine ⟨_, _, ?_, enough, inside.mpr spans⟩
    by_cases none : wpStructDwords w + wpStructPwords w = 0
    · unfold structTarget
      rw [if_neg]
      · rfl
      · rintro ⟨some, -⟩
        simp only [structPtr] at some
        omega
    · obtain ⟨first, startEq, segLt, within⟩ := spans.start_eq none
      rw [structTarget_eq startEq segLt within, startEq, sizeT_of_lt]
      have fits := (m.seg seg).fits
      omega

theorem primitiveTarget_reaches (low : -2 ^ 30 ≤ start) (high : start < 2 ^ 62)
    (plain : wpListEsize w ≠ .composite) :
    m.Reaches left (m.primitiveTarget seg (sizeT start) w) ↔
      m.Spans seg start (listBodyWords (wpListEsize w) (wpListCount w)) ∧
        listBodyWords (wpListEsize w) (wpListCount w) ≤ left := by
  have countLt := wpListCount_lt w
  have small := listBodyWords_le (wpListEsize w) (wpListCount w)
  have inside : m.ContentInside (listPtr seg (sizeT start) w) ↔
      m.Spans seg start (listBodyWords (wpListEsize w) (wpListCount w)) :=
    inside_iff_spans low (by omega) rfl rfl (contentWords_listPtr plain) (by omega)
  constructor
  · rintro ⟨p, cost, named, enough, within⟩
    unfold primitiveTarget at named
    dsimp only at named
    split at named
    · cases named
    · obtain ⟨rfl, rfl⟩ := Prod.mk.inj (Option.some.inj named)
      exact ⟨inside.mp within, enough⟩
  · rintro ⟨spans, enough⟩
    refine ⟨_, _, primitiveTarget_eq fun some => ?_, enough, inside.mpr spans⟩
    obtain ⟨first, startEq, segLt, within⟩ := spans.start_eq some
    have fits := (m.seg seg).fits
    rw [startEq, sizeT_of_lt (by omega)]
    exact ⟨segLt, within⟩

theorem compositeTarget_reaches (low : -2 ^ 30 ≤ start) (high : start < 2 ^ 62) :
    m.Reaches left (m.compositeTarget seg (sizeT start)) ↔
      m.Spans seg start 1 ∧ m.Spans seg (start + 1) (tagWords (m.readWord seg start.toNat)) ∧
        tagWords (m.readWord seg start.toNat) + 1 ≤ left := by
  have needLt : tagWords (m.readWord seg start.toNat) < 2 ^ 50 := compositeNeed_lt _
  have inside (first : Nat) (startEq : start = first) :
      m.ContentInside (compositePtr seg first (m.readWord seg first)) ↔
        m.Spans seg (start + 1) (tagWords (m.readWord seg first)) := by
    rw [startEq, Int.toNat_natCast] at needLt
    refine inside_iff_spans (by omega) (by omega) rfl ?_ rfl (by omega)
    rw [startEq, show (first : Int) + 1 = ((first + 1 : Nat) : Int) by push_cast; rfl,
      sizeT_of_lt (by omega)]
    rfl
  constructor
  · rintro ⟨p, cost, named, enough, within⟩
    unfold compositeTarget at named
    split at named
    · cases named
    · next tagIn =>
      have tagIn := not_not.mp tagIn
      have bound := tagIn.lt
      obtain ⟨first, startEq⟩ : ∃ first : Nat, start = first := by
        refine ⟨start.toNat, ?_⟩
        unfold sizeT at bound
        omega
      rw [startEq, sizeT_of_lt (by omega)] at named tagIn bound
      dsimp only at named
      split at named
      · cases named
      · have firstEq : sizeT ((first : Int) + 1) = first + 1 :=
          sizeT_of_lt (n := first + 1) (by omega)
        obtain ⟨rfl, rfl⟩ := Prod.mk.inj (Option.some.inj named)
        rw [firstEq] at within
        have spans := (inside first startEq).mp within
        refine ⟨fun i hi => ⟨by omega, ?_⟩, ?_, ?_⟩
        · rw [startEq, Int.toNat_natCast, Nat.lt_one_iff.mp hi]
          exact tagIn
        · rw [startEq, Int.toNat_natCast] at *
          exact spans
        · rw [startEq, Int.toNat_natCast]
          exact enough
  · rintro ⟨tagIn, spans, enough⟩
    obtain ⟨first, startEq, segLt, within⟩ := tagIn.start_eq one_ne_zero
    have fits := (m.seg seg).fits
    rw [startEq, Int.toNat_natCast] at spans enough needLt
    rw [startEq, sizeT_of_lt (by omega)]
    refine ⟨_, _, compositeTarget_eq segLt rfl ?_, enough, (inside first startEq).mpr ?_⟩
    · by_cases none : tagWords (m.readWord seg first) = 0
      · unfold tagWords at none
        omega
      · obtain ⟨next, nextEq, -, within⟩ := spans.start_eq none
        unfold tagWords at within
        omega
    · rwa [startEq]

/-- The three descriptions of an object behind a two-word pad. -/
theorem padTarget_reaches {pad tag : Nat} (isFar : wpKind pad = .far) (single : ¬wpFarTwo pad)
    (tagKind : wpKind tag = .struct ∨ wpKind tag = .list) :
    m.Reaches left (m.padTarget pad tag) ↔
      Landing.Holds m ⟨wpFarSeg pad, wpFarOff pad, tag, left, true⟩ := by
  have offLt : wpFarOff pad < 2 ^ 29 := Nat.mod_lt _ (by norm_num)
  have posEq : wpFarOff pad = sizeT (wpFarOff pad : Int) := (sizeT_of_lt (by omega)).symm
  unfold padTarget
  rw [if_neg (by simp [isFar, single])]
  rcases tagKind with isStruct | isList
  · have dwordsLt := wpStructDwords_lt tag
    have pwordsLt := wpStructPwords_lt tag
    have inside : m.ContentInside (structPtr (wpFarSeg pad) (wpFarOff pad) tag) ↔
        m.Spans (wpFarSeg pad) (wpFarOff pad) (wpStructDwords tag + wpStructPwords tag) :=
      inside_iff_spans (by omega) (by omega) rfl posEq rfl (by omega)
    simp only [isStruct, Landing.Holds, Reaches, Option.some.injEq, Prod.mk.injEq]
    rw [← inside]
    constructor
    · rintro ⟨_, _, ⟨rfl, rfl⟩, enough, within⟩
      exact ⟨within, enough⟩
    · rintro ⟨within, enough⟩
      exact ⟨_, _, ⟨rfl, rfl⟩, enough, within⟩
  · by_cases composite : wpListEsize tag = .composite
    · have needLt : tagWords (m.readWord (wpFarSeg pad) (wpFarOff pad)) < 2 ^ 50 :=
        compositeNeed_lt _
      have inside : m.ContentInside (compositePtr (wpFarSeg pad) (wpFarOff pad)
            (m.readWord (wpFarSeg pad) (wpFarOff pad))) ↔
          m.Spans (wpFarSeg pad) ((wpFarOff pad : Int) + 1)
            (tagWords (m.readWord (wpFarSeg pad) (wpFarOff pad))) :=
        inside_iff_spans (by omega) (by omega) rfl
          (sizeT_of_lt (n := wpFarOff pad + 1) (by omega)).symm rfl (by omega)
      have tagIn : m.Spans (wpFarSeg pad) (wpFarOff pad) 1 ↔
          m.InSegment (wpFarSeg pad) (wpFarOff pad) := by
        constructor
        · intro spans
          simpa using (spans 0 one_pos).2
        · intro within i hi
          rw [Nat.lt_one_iff.mp hi]
          exact ⟨by omega, by simpa using within⟩
      simp only [isList, composite, Landing.Holds, Reaches, if_true, Int.toNat_natCast]
      rw [← inside, tagIn]
      constructor
      · rintro ⟨_, _, named, enough, within⟩
        split at named
        · cases named
        · next first =>
          obtain ⟨rfl, rfl⟩ := Prod.mk.inj (Option.some.inj named)
          exact ⟨not_not.mp first, within, by rwa [Nat.add_comm]⟩
      · rintro ⟨first, within, enough⟩
        rw [if_neg (not_not.mpr first)]
        exact ⟨_, _, rfl, by rwa [Nat.add_comm], within⟩
    · have countLt := wpListCount_lt tag
      have small := listBodyWords_le (wpListEsize tag) (wpListCount tag)
      have inside : m.ContentInside (listPtr (wpFarSeg pad) (wpFarOff pad) tag) ↔
          m.Spans (wpFarSeg pad) (wpFarOff pad)
            (listBodyWords (wpListEsize tag) (wpListCount tag)) :=
        inside_iff_spans (by omega) (by omega) rfl posEq (contentWords_listPtr composite) (by omega)
      simp only [isList, composite, Landing.Holds, Reaches, if_false, true_or, and_true,
        Option.some.injEq, Prod.mk.injEq]
      rw [← inside]
      constructor
      · rintro ⟨_, _, ⟨rfl, rfl⟩, -, within⟩
        exact within
      · intro within
        exact ⟨_, _, ⟨rfl, rfl⟩, Nat.zero_le _, within⟩

end

/-! ## The whole chain -/

section
variable {word w left : Nat} {out : Ptr}

theorem resolvePad_kind {pad tag : Nat} (isFar : wpKind pad = .far) (single : ¬wpFarTwo pad)
    (tagKind : wpKind tag = .struct ∨ wpKind tag = .list) :
    (m.resolvePad pad tag out left).out.kind ≠ .null := by
  unfold resolvePad
  rw [if_neg (by simp [isFar, single])]
  rcases tagKind with isStruct | isList
  · simp only [isStruct, chargeFor_out]
    exact nofun
  · simp only [isList]
    split
    · split
      · exact nofun
      · rw [chargeFor_out]
        exact nofun
    · exact nofun

/-- A pad that does not describe an object leaves the handle alone. -/
theorem resolvePad_out {pad tag : Nat}
    (bad : ¬(wpKind pad = .far ∧ ¬wpFarTwo pad ∧ (wpKind tag = .struct ∨ wpKind tag = .list))) :
    (m.resolvePad pad tag out left).out = out := by
  unfold resolvePad
  split
  · rfl
  · next good =>
    cases tagKind : wpKind tag with
    | far => rfl
    | cap => rfl
    | struct => exact absurd ⟨by tauto, by tauto, .inl tagKind⟩ bad
    | list => exact absurd ⟨by tauto, by tauto, .inr tagKind⟩ bad

/-- A read that lands nowhere is safe because the handle stays null. -/
theorem safe_nowhere {r : Resolved} (blank : r.out.kind = .null) :
    m.Safe r ↔ ∀ l, (none : Option Landing) = some l → l.Holds m :=
  ⟨fun _ _ nowhere => (nomatch nowhere), fun _ => safe_of_null blank⟩

theorem resolveDoubleFar_safe_iff {tseg toff : Nat} (blank : out.kind = .null) :
    m.Safe (m.resolveDoubleFar tseg toff out left) ↔
      ∀ l, (if m.InSegment tseg toff ∧ m.InSegment tseg (toff + 1) ∧ 2 ≤ left ∧
          wpKind (m.readWord tseg toff) = .far ∧ ¬wpFarTwo (m.readWord tseg toff) ∧
          (wpKind (m.readWord tseg (toff + 1)) = .struct ∨
            wpKind (m.readWord tseg (toff + 1)) = .list) then
          some (Landing.mk (wpFarSeg (m.readWord tseg toff)) (wpFarOff (m.readWord tseg toff))
            (m.readWord tseg (toff + 1)) (left - 2) true)
        else none) = some l → l.Holds m := by
  unfold resolveDoubleFar
  simp only [ne_eq, boundsWord_eq_ok_iff]
  by_cases padIn : m.InSegment tseg toff ∧ m.InSegment tseg (toff + 1)
  · rw [if_neg (by tauto)]
    by_cases enough : 2 ≤ left
    · rw [charge_of_le enough]
      dsimp only
      generalize m.readWord tseg toff = pad
      generalize m.readWord tseg (toff + 1) = tag
      by_cases good : wpKind pad = .far ∧ ¬wpFarTwo pad ∧ (wpKind tag = .struct ∨ wpKind tag = .list)
      · obtain ⟨isFar, single, tagKind⟩ := good
        rw [if_pos ⟨padIn.1, padIn.2, enough, isFar, single, tagKind⟩,
          safe_iff_of_kind (m.resolvePad_agrees pad tag out (left - 2))
            (resolvePad_kind isFar single tagKind)]
        have reaches : m.Reaches (left - 2) (m.padTarget pad tag) ↔ _ :=
          padTarget_reaches isFar single tagKind
        exact ⟨fun named l same => Option.some.inj same ▸ reaches.mp named,
          fun holds => reaches.mpr (holds _ rfl)⟩
      · rw [if_neg fun all => good all.2.2.2]
        exact safe_nowhere (by rw [resolvePad_out good, blank])
    · rw [charge_of_not_le enough, if_neg fun all => enough all.2.2.1]
      exact safe_nowhere blank
  · rw [if_pos (by tauto), if_neg fun all => padIn ⟨all.1, all.2.1⟩]
    exact safe_nowhere blank

/-- A read is safe exactly when what it lands on holds, if the handle was
null before.  The induction follows the chain of single far pointers. -/
theorem resolveWord_safe_iff (posLt : word < 2 ^ 61) (depth : Nat) (blank : out.kind = .null) :
    m.Safe (m.resolveWord depth seg word w out left) ↔
      ∀ l, m.landing depth seg word w left = some l → l.Holds m := by
  induction depth generalizing seg word w left out with
  | zero => exact safe_nowhere blank
  | succ depth ih =>
      unfold resolveWord landing
      by_cases isNull : w = 0
      · simp only [isNull, if_true]
        exact safe_nowhere rfl
      · simp only [isNull, if_false]
        cases kindEq : wpKind w with
        | far =>
            dsimp only
            split
            · exact resolveDoubleFar_safe_iff blank
            · simp only [ne_eq, boundsWord_eq_ok_iff]
              by_cases padIn : m.InSegment (wpFarSeg w) (wpFarOff w)
              · rw [if_neg (not_not.mpr padIn)]
                by_cases enough : 1 ≤ left
                · rw [charge_of_le enough, if_pos ⟨padIn, enough⟩]
                  exact ih padIn.lt blank
                · rw [charge_of_not_le enough, if_neg fun all => enough all.2]
                  exact safe_nowhere blank
              · rw [if_pos padIn, if_neg fun all => padIn all.1]
                exact safe_nowhere blank
        | struct =>
            have named := safe_iff_of_kind (m := m) (m.resolveStruct_agrees seg word w left)
              (by simp [resolveStruct_kind])
            refine named.trans ((structTarget_reaches posLt).trans ?_)
            simp [Landing.Holds, kindEq]
        | list =>
            obtain ⟨low, high⟩ := offset_bounds w
            have named := safe_iff_of_kind (m := m) (m.resolveList_agrees seg word w left)
              (by simp [resolveList_kind])
            refine named.trans ?_
            unfold listTarget
            dsimp only
            split
            · next composite =>
              refine (compositeTarget_reaches (by omega) (by omega)).trans ?_
              simp [Landing.Holds, kindEq, composite]
            · next plain =>
              refine (primitiveTarget_reaches (by omega) (by omega) plain).trans ?_
              simp [Landing.Holds, kindEq, plain]
        | cap =>
            refine ⟨fun _ _ nowhere => (by cases nowhere), fun _ => .inr ⟨rfl, fun i hi => ?_⟩⟩
            simp [contentWords, capPtr, Ptr.zero] at hi

/-- The same for the pointer in a slot. -/
theorem resolvePtr_safe_iff (blank : out.kind = .null) :
    m.Safe (m.resolvePtr seg word m.depthLimit out left) ↔
      ∀ l, m.slotLanding seg word left = some l → l.Holds m := by
  unfold resolvePtr slotLanding
  simp only [ne_eq, boundsWord_eq_ok_iff]
  by_cases slotIn : m.InSegment seg word
  · rw [if_neg (not_not.mpr slotIn)]
    by_cases enough : 1 ≤ left
    · rw [charge_of_le enough, if_pos ⟨slotIn, enough⟩]
      exact resolveWord_safe_iff slotIn.lt _ blank
    · rw [charge_of_not_le enough, if_neg fun all => enough all.2]
      exact safe_nowhere blank
  · rw [if_pos slotIn, if_neg fun all => slotIn all.1]
    exact safe_nowhere blank

/-- The landing of a pointer field, if the handle has it. -/
def fieldLanding (m : Message) (s : Ptr) (ptrIndex left : Nat) : Option Landing :=
  if s.kind = .struct ∧ ptrIndex < s.pwords then
    m.slotLanding s.seg (sizeT (s.word + s.dwords + ptrIndex)) left
  else none

/-- The same for `capnp_getp`. -/
theorem getp_safe_iff (s : Ptr) (ptrIndex : Nat) (blank : out.kind = .null) :
    m.Safe (m.getp s ptrIndex out left) ↔
      ∀ l, m.fieldLanding s ptrIndex left = some l → l.Holds m := by
  unfold getp fieldLanding
  by_cases isStruct : s.kind = .struct
  · rw [if_neg (not_not.mpr isStruct)]
    by_cases within : ptrIndex < s.pwords
    · rw [if_neg (not_le.mpr within), if_pos ⟨isStruct, within⟩]
      exact resolvePtr_safe_iff blank
    · rw [if_pos (not_lt.mp within), if_neg fun all => within all.2]
      exact safe_nowhere rfl
  · rw [if_pos isStruct, if_neg fun all => isStruct all.1]
    exact safe_nowhere blank

end

end Message

end CapnpJanet
