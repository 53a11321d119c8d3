import CapnpJanet.Message.Bounds
import CapnpJanet.Message.Getters

/-!
# Views of list elements

Schema evolution lets a list of scalars or pointers be read as a list of structs
whose field 0 is the element, and a list of structs as the list of its fields 0.
The element readers and the struct views compute an element's address in
different ways.  Here both are the same position in the list body, and the view
of a scalar sees the bytes of its element only.
-/

namespace CapnpJanet

open ByteMemory

/-- Bytes of an element that has a view of its own. -/
def ElemSize.viewBytes : ElemSize → Option Nat
  | .byte => some 1
  | .two => some 2
  | .four => some 4
  | .eight => some 8
  | _ => none

theorem ElemSize.bits_of_viewBytes {esize : ElemSize} {n : Nat} (sized : esize.viewBytes = some n) :
    esize.bits = 8 * n ∧ n ≠ 0 ∧ esize ≠ .composite := by
  cases esize <;> cases sized <;> exact ⟨rfl, by decide, by decide⟩

/-- A list handle as the readers return it, with its content in its segment. -/
structure Message.InBounds (m : Message) (list : Ptr) : Prop where
  isList : list.kind = .list
  word_lt : list.word < 2 ^ 64
  inside : m.ContentInside list
  steps : list.esize = .composite → list.stepWords = list.dwords + list.pwords

namespace Message

section
variable {m : Message} {list : Ptr} {index : Nat}

/-- A content word of an in-bounds list, at its position without reduction. -/
theorem InBounds.content (bounds : m.InBounds list) {i : Nat} (hi : i < contentWords list) :
    list.word + i < 2 ^ 61 := by
  have first := (bounds.inside 0 (by omega)).lt
  have there := (bounds.inside i hi).lt
  have count := bounds.word_lt
  induction i with
  | zero =>
      rw [show (list.word : Int) + ((0 : Nat) : Int) = ((list.word : Nat) : Int) by simp,
        sizeT_of_lt count] at first
      exact first
  | succ i ih =>
      have before := ih (by omega) (bounds.inside i (by omega)).lt
      rw [show (list.word : Int) + ((i + 1 : Nat) : Int) = ((list.word + (i + 1) : Nat) : Int) by
        push_cast; ring, sizeT_of_lt (by omega)] at there
      exact there

/-! ## Scalar elements -/

/-- The bytes of a scalar element are content. -/
theorem InBounds.element_lt (bounds : m.InBounds list) {n : Nat}
    (sized : list.esize.viewBytes = some n) (inRange : index < list.count) :
    list.word * 8 + index * n + n ≤ 2 ^ 64 := by
  obtain ⟨bits, positive, plain⟩ := ElemSize.bits_of_viewBytes sized
  have upTo : index * n + n ≤ list.count * n := by
    calc index * n + n = (index + 1) * n := by ring
      _ ≤ list.count * n := Nat.mul_le_mul_right _ inRange
  have size : contentWords list = (list.count * n * 8 + 63) / 64 := by
    rw [contentWords, bounds.isList]
    dsimp only
    rw [if_neg plain, listBodyWords, bits]
    ring_nf
  have last := bounds.content (i := contentWords list - 1) (by omega)
  omega

theorem dataBytes_upgradePtr (n : Nat) (list : Ptr) (index : Nat) :
    dataBytes (upgradePtr list index n) = sizeT (list.word * 8 + index * n) := by
  simp only [dataBytes, upgradePtr]
  omega

theorem dataBitCount_upgradePtr {n : Nat} (positive : n ≠ 0) (list : Ptr) (index : Nat) :
    dataBitCount (upgradePtr list index n) = n * 8 := by
  simp [dataBitCount, upgradePtr, positive]

/-- A view reads the bytes of its element, and nothing past them. -/
theorem getScalar_view (bounds : m.InBounds list) {n : Nat}
    (sized : list.esize.viewBytes = some n) (inRange : index < list.count)
    (m' : Message) (width off dflt : Nat) :
    m'.getScalar width (upgradePtr list index n) off dflt =
      if off + width ≤ n then
        loadLe width (m'.seg list.seg).data (list.word * 8 + index * n + off)
      else dflt := by
  obtain ⟨-, positive, -⟩ := ElemSize.bits_of_viewBytes sized
  have below := bounds.element_lt sized inRange
  have start : dataBytes (upgradePtr list index n) = list.word * 8 + index * n := by
    rw [dataBytes_upgradePtr,
      ← sizeT_of_lt (n := list.word * 8 + index * n) (by omega)]
    push_cast
    rfl
  have fits : dataHasBytes (upgradePtr list index n) off width = true ↔ off + width ≤ n := by
    simp only [dataHasBytes, dataBitCount_upgradePtr positive, decide_eq_true_eq]
    simp only [upgradePtr, true_and]
    omega
  unfold getScalar
  simp only [fits, start]
  rfl

theorem getBool_view (bounds : m.InBounds list) {n : Nat}
    (sized : list.esize.viewBytes = some n) (inRange : index < list.count)
    (m' : Message) (bit : Nat) (dflt : Bool) :
    m'.getBool (upgradePtr list index n) bit dflt =
      if bit < n * 8 then
        ((m'.seg list.seg).data (list.word * 8 + index * n + bit / 8)).toNat / 2 ^ (bit % 8) % 2 ==
          1
      else dflt := by
  obtain ⟨-, positive, -⟩ := ElemSize.bits_of_viewBytes sized
  have below := bounds.element_lt sized inRange
  have start : dataBytes (upgradePtr list index n) = list.word * 8 + index * n := by
    rw [dataBytes_upgradePtr,
      ← sizeT_of_lt (n := list.word * 8 + index * n) (by omega)]
    push_cast
    rfl
  unfold getBool
  rw [if_neg (by simp [upgradePtr]), dataBitCount_upgradePtr positive, start]
  by_cases inside : bit < n * 8
  · rw [if_neg (not_le.mpr inside), if_pos inside]
    rfl
  · rw [if_pos (not_lt.mp inside), if_neg inside]

/-- The reader of exactly the element's width reads what the view reads. -/
theorem listGetScalar_view (bounds : m.InBounds list) {esize : ElemSize} {n : Nat}
    (sized : esize.viewBytes = some n) (isSize : list.esize = esize) (inRange : index < list.count)
    (dflt : Nat) : m.listGetScalar esize n list index dflt =
      m.getScalar n (upgradePtr list index n) 0 dflt := by
  subst isSize
  have below := bounds.element_lt sized inRange
  rw [getScalar_view bounds sized inRange, if_pos (by omega)]
  unfold listGetScalar loadElem
  rw [if_neg (not_or.mpr ⟨not_not.mpr bounds.isList, not_le.mpr inRange⟩), if_pos rfl]
  refine loadLe_congr fun k hk => ?_
  unfold listByte
  rw [← sizeT_of_lt (n := list.word * 8 + index * n + 0 + k) (by omega)]
  congr 2
  push_cast
  ring

/-! ## Struct and pointer elements -/

/-- The reader of a composite list reads field 0 of its elements, if their
addresses do not wrap. -/
theorem listGetScalar_elemPtr (isList : list.kind = .list) (composite : list.esize = .composite)
    (inRange : index < list.count)
    (placed : list.dwords ≥ 1 → list.word + index * list.stepWords < 2 ^ 64) {esize : ElemSize}
    (plain : esize ≠ .composite) {width : Nat} (word : width ≤ 8) (some : width ≠ 0) (dflt : Nat) :
    m.listGetScalar esize width list index dflt =
      m.getScalar width (elemPtr list index) 0 dflt := by
  unfold listGetScalar
  rw [if_neg (not_or.mpr ⟨not_not.mpr isList, not_le.mpr inRange⟩),
    if_neg (fun same => plain (same.symm.trans composite))]
  have fits : dataHasBytes (elemPtr list index) 0 width = true ↔ list.dwords ≥ 1 := by
    simp only [dataHasBytes, dataBitCount, elemPtr, Ptr.zero, decide_eq_true_eq]
    constructor
    · rintro ⟨-, -, room⟩
      by_contra empty
      simp [show list.dwords = 0 by omega] at room
      exact some room
    · intro data
      exact ⟨trivial, Nat.zero_le _, by simp; omega⟩
  unfold getScalar
  by_cases data : list.dwords ≥ 1
  · rw [if_pos ⟨composite, data⟩, if_pos (fits.mpr data)]
    have start : dataBytes (elemPtr list index) = (list.word + index * list.stepWords) * 8 := by
      simp only [dataBytes, elemPtr, Ptr.zero, Nat.add_zero]
      rw [← sizeT_of_lt (placed data)]
      push_cast
      rfl
    unfold loadCompositeElem
    rw [start]
    rfl
  · rw [if_neg (fun both => data both.2), if_neg (fun both => data (fits.mp both))]

/-- The elements of an in-bounds list with data have addresses. -/
theorem InBounds.placed (bounds : m.InBounds list) (composite : list.esize = .composite)
    (inRange : index < list.count) (data : list.dwords ≥ 1) :
    list.word + index * list.stepWords < 2 ^ 64 := by
  have steps := bounds.steps composite
  have size : contentWords list = list.count * list.stepWords := by
    rw [contentWords, bounds.isList]
    exact if_pos composite
  have inside : index * list.stepWords < contentWords list := by
    rw [size]
    exact Nat.mul_lt_mul_of_pos_right inRange (by omega)
  exact (bounds.content inside).trans (by decide)

theorem listGetStruct_pointer (isList : list.kind = .list) (pointers : list.esize = .ptr)
    (inRange : index < list.count) (out : Ptr) :
    listGetStruct list index out = (.ok, { Ptr.zero with
      seg := list.seg
      word := sizeT (list.word + index)
      kind := .struct
      pwords := 1 }) := by
  unfold listGetStruct
  rw [if_neg (not_not.mpr isList), if_neg (not_le.mpr inRange), pointers]

theorem listGetp_view (isList : list.kind = .list) (pointers : list.esize = .ptr)
    (inRange : index < list.count) (out : Ptr) (left : Nat) :
    m.getp (listGetStruct list index Ptr.zero).2 0 out left = m.listGetp list index out left := by
  rw [listGetStruct_pointer isList pointers inRange]
  unfold getp listGetp
  rw [if_neg (not_not.mpr rfl), if_neg (show ¬0 ≥ 1 by decide), if_neg (not_not.mpr isList),
    if_neg (not_le.mpr inRange), pointers]
  dsimp only [Ptr.zero]
  rw [Nat.cast_zero, add_zero, add_zero, ← add_zero ((sizeT (list.word + index) : Nat) : Int),
    sizeT_add, add_zero]

/-! ## Views -/

/-- Two messages hold the same bytes in an element of `n` bytes. -/
def SameElement (m m' : Message) (list : Ptr) (index n : Nat) : Prop :=
  ∀ k < n, (m'.seg list.seg).data (list.word * 8 + index * n + k) =
    (m.seg list.seg).data (list.word * 8 + index * n + k)

/-- The struct view of an element agrees with the element readers, and a view of
a scalar reads the bytes of its element only. -/
structure ElementView (m : Message) (list : Ptr) (index : Nat) (view : Ptr) : Prop where
  u8 : list.esize = .composite ∨ list.esize = .byte →
    ∀ dflt, m.listGetU8 list index dflt = m.getU8 view 0 dflt
  u16 : list.esize = .composite ∨ list.esize = .two →
    ∀ dflt, m.listGetU16 list index dflt = m.getU16 view 0 dflt
  u32 : list.esize = .composite ∨ list.esize = .four →
    ∀ dflt, m.listGetU32 list index dflt = m.getU32 view 0 dflt
  u64 : list.esize = .composite ∨ list.esize = .eight →
    ∀ dflt, m.listGetU64 list index dflt = m.getU64 view 0 dflt
  pointer : list.esize = .ptr →
    ∀ out left, m.getp view 0 out left = m.listGetp list index out left
  scalar_private : ∀ n, list.esize.viewBytes = some n → ∀ m', m.SameElement m' list index n →
    ∀ width off dflt, m'.getScalar width view off dflt = m.getScalar width view off dflt
  bool_private : ∀ n, list.esize.viewBytes = some n → ∀ m', m.SameElement m' list index n →
    ∀ bit dflt, m'.getBool view bit dflt = m.getBool view bit dflt
  scalar_past : ∀ n, list.esize.viewBytes = some n → ∀ width off, n < off + width →
    ∀ dflt, m.getScalar width view off dflt = dflt
  bool_past : ∀ n, list.esize.viewBytes = some n → ∀ bit, n * 8 ≤ bit →
    ∀ dflt, m.getBool view bit dflt = dflt

theorem elementView_scalar (bounds : m.InBounds list) {n : Nat}
    (sized : list.esize.viewBytes = some n) (inRange : index < list.count) :
    m.ElementView list index (upgradePtr list index n) := by
  have reads {esize : ElemSize} {k : Nat} (width : esize.viewBytes = some k)
      (shape : list.esize = .composite ∨ list.esize = esize) (dflt : Nat) :
      m.listGetScalar esize k list index dflt =
        m.getScalar k (upgradePtr list index n) 0 dflt := by
    rcases shape with composite | same
    · exact absurd composite (ElemSize.bits_of_viewBytes sized).2.2
    · rw [same, width] at sized
      cases sized
      exact listGetScalar_view bounds width same inRange dflt
  have only {k : Nat} (width : list.esize.viewBytes = some k) : k = n :=
    Option.some.inj (width.symm.trans sized)
  exact {
    u8 := reads rfl
    u16 := reads rfl
    u32 := reads rfl
    u64 := reads rfl
    pointer := fun pointers => by
      rw [pointers] at sized
      cases sized
    scalar_private := by
      intro k width m' same w off dflt
      obtain rfl := only width
      rw [getScalar_view bounds sized inRange, getScalar_view bounds sized inRange]
      by_cases inside : off + w ≤ k
      · rw [if_pos inside, if_pos inside]
        refine loadLe_congr fun i hi => ?_
        rw [add_assoc]
        exact same (off + i) (by omega)
      · rw [if_neg inside, if_neg inside]
    bool_private := by
      intro k width m' same bit dflt
      obtain rfl := only width
      rw [getBool_view bounds sized inRange, getBool_view bounds sized inRange]
      by_cases inside : bit < k * 8
      · rw [if_pos inside, if_pos inside, same (bit / 8) (by omega)]
      · rw [if_neg inside, if_neg inside]
    scalar_past := by
      intro k width w off past dflt
      obtain rfl := only width
      rw [getScalar_view bounds sized inRange, if_neg (by omega)]
    bool_past := by
      intro k width bit past dflt
      obtain rfl := only width
      rw [getBool_view bounds sized inRange, if_neg (by omega)] }

/-- A view of something that is not a scalar has to agree only. -/
theorem elementView_of_none {view : Ptr} (noBytes : list.esize.viewBytes = none)
    (scalars : list.esize = .composite → view = elemPtr list index)
    (pointer : list.esize = .ptr →
      ∀ out left, m.getp view 0 out left = m.listGetp list index out left)
    (bounds : m.InBounds list) (inRange : index < list.count) :
    m.ElementView list index view := by
  have reads {esize : ElemSize} {k : Nat} (width : esize.viewBytes = some k) (small : k ≤ 8)
      (shape : list.esize = .composite ∨ list.esize = esize) (dflt : Nat) :
      m.listGetScalar esize k list index dflt = m.getScalar k view 0 dflt := by
    obtain ⟨-, positive, plain⟩ := ElemSize.bits_of_viewBytes width
    rcases shape with composite | same
    · rw [scalars composite]
      exact listGetScalar_elemPtr bounds.isList composite inRange
        (bounds.placed composite inRange) plain small positive dflt
    · rw [same, width] at noBytes
      cases noBytes
  have never {k : Nat} {P : Prop} (width : list.esize.viewBytes = some k) : P := by
    rw [noBytes] at width
    cases width
  exact {
    u8 := reads rfl (by decide)
    u16 := reads rfl (by decide)
    u32 := reads rfl (by decide)
    u64 := reads rfl (by decide)
    pointer := pointer
    scalar_private := fun _ width => never width
    bool_private := fun _ width => never width
    scalar_past := fun _ width => never width
    bool_past := fun _ width => never width }

end

/-- The views of list elements agree with the element readers, and do not leak.
Lists of voids and bits have no views. -/
theorem listGetStruct_views (m : Message) {list : Ptr} {index : Nat} (bounds : m.InBounds list)
    (inRange : index < list.count) (out : Ptr) :
    if list.esize = .void ∨ list.esize = .bit then (listGetStruct list index out).1 = .kind
    else ∃ view, listGetStruct list index out = (.ok, view) ∧ m.ElementView list index view := by
  have isList := bounds.isList
  unfold listGetStruct
  rw [if_neg (not_not.mpr isList), if_neg (not_le.mpr inRange)]
  cases size : list.esize with
  | void => rfl
  | bit => rfl
  | ptr =>
      rw [if_neg (by decide)]
      refine ⟨(listGetStruct list index Ptr.zero).2, ?_, ?_⟩
      · rw [listGetStruct_pointer isList size inRange]
      · refine elementView_of_none (by rw [size]; rfl) (fun composite => ?_)
          (fun _ => listGetp_view isList size inRange) bounds inRange
        rw [size] at composite
        cases composite
  | composite =>
      rw [if_neg (by decide)]
      refine ⟨elemPtr list index, rfl, ?_⟩
      refine elementView_of_none (by rw [size]; rfl) (fun _ => rfl) (fun pointers => ?_) bounds
        inRange
      rw [size] at pointers
      cases pointers
  | _ =>
      rw [if_neg (by decide)]
      exact ⟨_, rfl, elementView_scalar bounds (congrArg ElemSize.viewBytes size) inRange⟩

/-- A view of the second of three two-byte elements. -/
theorem listGetStruct_views_two :
    let list : Ptr := { Ptr.zero with kind := .list, esize := .two, count := 3, word := 1 }
    let m : Message := ⟨1, fun _ => ⟨fun i => UInt8.ofNat i, 2, by decide⟩, 64⟩
    ∃ view, listGetStruct list 1 Ptr.zero = (.ok, view) ∧ m.ElementView list 1 view := by
  intro list m
  have content : contentWords list = 1 := by simp [list, contentWords, listBodyWords, ElemSize.bits]
  have bounds : m.InBounds list := by
    refine ⟨rfl, by decide, fun i hi => ?_, fun composite => by cases composite⟩
    obtain rfl : i = 0 := by omega
    exact ⟨by decide, by decide⟩
  exact listGetStruct_views m bounds (show 1 < list.count by decide) Ptr.zero

end Message

end CapnpJanet
