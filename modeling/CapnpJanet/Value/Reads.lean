import CapnpJanet.Message.ListViews
import CapnpJanet.Value.Alike
import CapnpJanet.Value.Unfold

/-!
# Reading equal values

The readers cannot tell equal values apart: pointers lead to equal values again,
and scalars, texts and element reads with default 0 agree at every index.  Data
sections agree after zero extension only, so a scalar has to lie on one side of
the end of the shorter section.
-/

namespace CapnpJanet

open ByteMemory Paths

namespace Message

variable {m m' : Message} {p p' q q' : Ptr} {i k : Nat}

/-! ## Data sections -/

/-- The data section of a struct handle, zero extended. -/
def dataSection (m : Message) (p : Ptr) : Memory := fun o =>
  if o < 8 * p.dwords then (m.seg p.seg).data (p.word * 8 + o) else 0

theorem dataBytes_of_sound (sound : p.Sound) : dataBytes p = p.word * 8 := by
  rw [dataBytes, sound.plain.2, Nat.add_zero]

theorem dataBitCount_of_sound (sound : p.Sound) : dataBitCount p = p.dwords * 64 := by
  rw [dataBitCount, if_neg (not_not.mpr sound.plain.1)]

theorem getScalar_of_sound (sound : p.Sound) (isStruct : p.kind = .struct) (width off dflt : Nat) :
    m.getScalar width p off dflt =
      if off + width ≤ 8 * p.dwords then loadLe width (m.dataSection p) off else dflt := by
  have fits : dataHasBytes p off width = true ↔ off + width ≤ 8 * p.dwords := by
    simp only [dataHasBytes, dataBitCount_of_sound sound, isStruct, decide_eq_true_eq, true_and]
    omega
  unfold getScalar
  simp only [fits, dataBytes_of_sound sound]
  split
  · next inside =>
    refine loadLe_congr fun o within => ?_
    rw [dataSection, if_pos (by omega), Nat.add_assoc]
  · rfl

theorem getBool_of_sound (sound : p.Sound) (isStruct : p.kind = .struct) (bit : Nat) :
    m.getBool p bit false = ((m.dataSection p (bit / 8)).toNat / 2 ^ (bit % 8) % 2 == 1) := by
  unfold getBool dataSection
  rw [if_neg (not_not.mpr isStruct), dataBitCount_of_sound sound, dataBytes_of_sound sound]
  by_cases inside : bit < p.dwords * 64
  · rw [if_neg (not_le.mpr inside), if_pos (by omega)]
  · rw [if_pos (not_lt.mp inside), if_neg (by omega)]
    simp

/-- The words of the section are the data words of the only row. -/
theorem word_dataSection (sound : p.Sound) (isStruct : p.kind = .struct) (j : Nat) :
    word (m.dataSection p) j = m.datum p 0 j := by
  have form : p.form = .block .struct := by
    rw [Ptr.form, isStruct]
  rw [datum, form]
  dsimp only
  by_cases inside : j < p.dwords
  · rw [if_pos ⟨rfl, inside⟩, getU64, getScalar_of_sound sound isStruct, if_pos (by omega), word,
      Nat.mul_comm]
  · rw [if_neg fun within => inside within.2]
    exact word_of_clear fun b hb => if_neg (by omega)

theorem ValueEq.dataSection_eq (same : ValueEq m m' p p') (sound : p.Sound) (sound' : p'.Sound)
    (isStruct : p.kind = .struct) : m.dataSection p = m'.dataSection p' := by
  funext o
  apply byte_eq_of_word_eq
  rw [word_dataSection sound isStruct, word_dataSection sound' (same.here.kind ▸ isStruct)]
  exact same.here.data 0 _

/-! ## Handles that are read alike -/

/-- The end of a section of `nd` words is not inside of a field. -/
def Clear (nd off width : Nat) : Prop := 8 * nd ≤ off ∨ off + width ≤ 8 * nd

/-- No section ends inside of a field that lies in one word. -/
theorem clear_of_inWord {nd off width : Nat} (inWord : off % 8 + width ≤ 8) :
    Clear nd off width := by
  unfold Clear
  omega

/-- Two handles with sizes in their ranges, of which the second has no more data
words.  The pointers of the first can be followed. -/
structure Narrows (m : Message) (pair : Ptr × Ptr) : Prop where
  sound : pair.1.Sound
  sound' : pair.2.Sound
  dwords : pair.1.kind ≠ .null → pair.2.dwords ≤ pair.1.dwords
  followed : ∀ i < pair.1.rows, ∀ k, (pair.1.form = .block .pointers → k = 0) →
    (m.link pair.1 i k).isSome

/-- The second handle holds the value of the first, in sections that are at most
as long, and so do all objects behind. -/
structure Mirrors (m m' : Message) (p p' : Ptr) : Prop where
  value : ValueEq m m' p p'
  narrows : Everywhere (Follows m m') (Narrows m) (p, p')

namespace Mirrors

theorem link {cost cost' : Nat} (mirrors : Mirrors m m' p p')
    (found : m.link p i k = some (q, cost)) (found' : m'.link p' i k = some (q', cost')) :
    Mirrors m m' q q' :=
  ⟨mirrors.value.link found found', mirrors.narrows.next ⟨i, k, cost, cost', found, found'⟩⟩

theorem sound (mirrors : Mirrors m m' p p') : p.Sound := mirrors.narrows.here.sound

theorem sound' (mirrors : Mirrors m m' p p') : p'.Sound := mirrors.narrows.here.sound'

theorem getScalar_eq (mirrors : Mirrors m m' p p') {width off : Nat}
    (clear : Clear p'.dwords off width) :
    m.getScalar width p off 0 = m'.getScalar width p' off 0 := by
  have kind : p.kind = p'.kind := mirrors.value.here.kind
  by_cases isStruct : p.kind = .struct
  · have sections := mirrors.value.dataSection_eq mirrors.sound mirrors.sound' isStruct
    have shorter : p'.dwords ≤ p.dwords := mirrors.narrows.here.dwords (by
      dsimp only
      rw [isStruct]
      nofun)
    rw [getScalar_of_sound mirrors.sound isStruct,
      getScalar_of_sound mirrors.sound' (kind ▸ isStruct), ← sections]
    rcases clear with past | inside
    · -- Behind the shorter section there are only zeros.
      have zero : loadLe width (m.dataSection p) off = 0 := by
        refine loadLe_of_clear fun o _ => ?_
        rw [sections]
        exact if_neg (by omega)
      rw [zero, ite_self, ite_self]
    · rw [if_pos inside, if_pos (by omega)]
  · have none {m : Message} {p : Ptr} (other : p.kind ≠ .struct) :
        m.getScalar width p off 0 = 0 := by
      unfold getScalar
      exact if_neg (by simp [dataHasBytes, other])
    rw [none isStruct, none (kind ▸ isStruct)]

theorem getBool_eq (mirrors : Mirrors m m' p p') (bit : Nat) :
    m.getBool p bit false = m'.getBool p' bit false := by
  have kind : p.kind = p'.kind := mirrors.value.here.kind
  by_cases isStruct : p.kind = .struct
  · rw [getBool_of_sound mirrors.sound isStruct, getBool_of_sound mirrors.sound' (kind ▸ isStruct),
      mirrors.value.dataSection_eq mirrors.sound mirrors.sound' isStruct]
  · unfold getBool
    rw [if_pos isStruct, if_pos (kind ▸ isStruct)]

/-! ## Pointers -/

/-- Pointers on the same place lead to objects that are read alike. -/
theorem follow (mirrors : Mirrors m m' p p') (hi : i < p.rows)
    (only : p.form = .block .pointers → k = 0) : ∃ q cost q' cost',
      m.link p i k = some (q, cost) ∧ m'.link p' i k = some (q', cost') ∧ Mirrors m m' q q' := by
  obtain ⟨⟨q, cost⟩, found⟩ :=
    Option.isSome_iff_exists.mp (mirrors.narrows.here.followed i hi k only)
  obtain ⟨q', cost', found', -⟩ := mirrors.value.exists_link found
  exact ⟨q, cost, q', cost', found, found', mirrors.link found found'⟩

end Mirrors

theorem link_elemPtr (form : p.form = .block .composite) (inside : i < p.count) (i' : Nat) :
    m.link (elemPtr p i) i' k = if i' = 0 then m.link p i k else none := by
  rw [link, link, form, if_pos inside]
  rfl

theorem datum_elemPtr (form : p.form = .block .composite) (inside : i < p.count) (i' j : Nat) :
    m.datum (elemPtr p i) i' j = if i' = 0 then m.datum p i j else 0 := by
  have row : (elemPtr p i).form = .block .struct := rfl
  have dwords : (elemPtr p i).dwords = p.dwords := rfl
  rw [datum, datum, row, form]
  dsimp only
  rw [dwords]
  by_cases first : i' = 0
  · rw [if_pos first]
    by_cases hj : j < p.dwords
    · rw [if_pos ⟨first, hj⟩, if_pos ⟨inside, hj⟩]
    · rw [if_neg fun within => hj within.2, if_neg fun within => hj within.2]
  · rw [if_neg fun within => first within.1, if_neg first]

theorem sound_elemPtr (sound : p.Sound) (i : Nat) : (elemPtr p i).Sound :=
  ⟨sound.dwords, sound.pwords, fun list => list.elim nofun nofun, nofun, ⟨rfl, rfl⟩, nofun⟩

/-- The elements of two composite lists are read alike. -/
theorem Mirrors.element (mirrors : Mirrors m m' p p') (form : p.form = .block .composite)
    (inside : i < p.count) : Mirrors m m' (elemPtr p i) (elemPtr p' i) := by
  have form' : p'.form = .block .composite := mirrors.value.form_eq ▸ form
  have list : p.kind = .list := ValueEq.kind_of_lists form (by decide)
  have inside' : i < p'.count := lt_of_lt_of_eq inside (mirrors.value.here.count (.inl list))
  have row : i < p.rows := by
    rw [Ptr.rows, form]
    exact inside
  -- What the pointers of an element lead to is what those of its row lead to.
  have next {pair : Ptr × Ptr} (follows : Follows m m' (elemPtr p i, elemPtr p' i) pair) :
      Follows m m' (p, p') pair := by
    obtain ⟨i', k, cost, cost', found, found'⟩ := follows
    dsimp only at found found'
    rw [link_elemPtr form inside] at found
    rw [link_elemPtr form' inside'] at found'
    split at found
    · next first =>
      rw [if_pos first] at found'
      exact ⟨i, k, cost, cost', found, found'⟩
    · cases found
  constructor
  · refine Everywhere.of_next ⟨rfl, fun list => (by cases list),
      fun other => (by rcases other with ⟨⟨⟩⟩ | ⟨⟨⟩⟩), fun i' j => ?_, fun i' k => ?_,
      fun packed => by cases packed⟩ fun pair follows => mirrors.value.next (next follows)
    · rw [datum_elemPtr form inside, datum_elemPtr form' inside', mirrors.value.here.data i j]
    · dsimp only
      rw [link_elemPtr form inside, link_elemPtr form' inside']
      split
      · exact mirrors.value.here.links i k
      · rfl
  · refine Everywhere.of_next ⟨sound_elemPtr mirrors.sound i, sound_elemPtr mirrors.sound' i,
      fun _ => mirrors.narrows.here.dwords fun null => ?_, fun i' first k _ => ?_⟩
      fun pair follows => mirrors.narrows.next (next follows)
    · cases list.symm.trans null
    dsimp only
    rw [link_elemPtr form inside, if_pos (Nat.lt_one_iff.mp first)]
    refine mirrors.narrows.here.followed i row k fun pointers => ?_
    cases form.symm.trans pointers

/-! ## Packed lists -/

namespace Mirrors

theorem esize_eq (mirrors : Mirrors m m' p p') (list : p.kind = .list) : p.esize = p'.esize :=
  mirrors.value.here.esize list

theorem count_eq (mirrors : Mirrors m m' p p') (list : p.kind = .list) : p.count = p'.count :=
  mirrors.value.here.count (.inl list)

/-- Bytes that only hold elements are equal. -/
theorem listByte_eq (mirrors : Mirrors m m' p p') (packed : p.form = .packed) {b : Nat}
    (inside : 8 * b + 8 ≤ p.count * p.esize.bits) : m.listByte p b = m'.listByte p' b :=
  listByte_eq_iff.mpr fun k hk => mirrors.value.here.bits packed (8 * b + k) (by
    dsimp only
    omega)

theorem listBytes_eq (mirrors : Mirrors m m' p p') (list : p.kind = .list)
    (bytes : p.esize = .byte) {n : Nat} (inside : n ≤ p.count) :
    m.listBytes p n = m'.listBytes p' n := by
  have packed : p.form = .packed := by
    rw [Ptr.form, list, bytes]
  have bits : p.esize.bits = 8 := by
    rw [bytes]
    rfl
  unfold listBytes
  refine List.map_congr_left fun b member => mirrors.listByte_eq packed ?_
  have below := List.mem_range.mp member
  rw [bits]
  omega

theorem textOf_eq (mirrors : Mirrors m m' p p') (list : p.kind = .list)
    (bytes : p.esize = .byte) : m.textOf p = m'.textOf p' := by
  have packed : p.form = .packed := by
    rw [Ptr.form, list, bytes]
  unfold textOf
  rw [← mirrors.count_eq list, ← mirrors.listBytes_eq list bytes le_rfl,
    ← mirrors.listBytes_eq list bytes (Nat.sub_le _ _)]
  by_cases some : p.count > 0
  · rw [mirrors.listByte_eq packed]
    rw [bytes]
    change 8 * (p.count - 1) + 8 ≤ p.count * 8
    omega
  · rw [if_neg fun both => some both.1, if_neg fun both => some both.1]

/-- Field 0 of the elements of two composite lists. -/
theorem listGetScalar_rows (mirrors : Mirrors m m' p p') (list : p.kind = .list)
    (composite : p.esize = .composite) {esize : ElemSize} {width index : Nat}
    (sized : esize.viewBytes = some width) (inside : index < p.count) :
    m.listGetScalar esize width p index 0 = m'.listGetScalar esize width p' index 0 := by
  have kind : p.kind = p'.kind := mirrors.value.here.kind
  obtain ⟨-, positive, plain⟩ := ElemSize.bits_of_viewBytes sized
  have small : width ≤ 8 := by
    cases esize <;> cases sized <;> decide
  have form : p.form = .block .composite := by
    rw [Ptr.form, list, composite]
  have form' : p'.form = .block .composite := mirrors.value.form_eq ▸ form
  have inside' : index < p'.count := mirrors.count_eq list ▸ inside
  have placed {p : Ptr} (sound : p.Sound) (form : p.form = .block .composite)
      (inside : index < p.count) : p.word + index * p.stepWords < 2 ^ 64 := by
    have last := sound.addressed form
    have below := Nat.mul_le_mul_right p.stepWords (Nat.le_of_lt inside)
    omega
  rw [listGetScalar_elemPtr list composite inside (fun _ => placed mirrors.sound form inside)
      plain small positive,
    listGetScalar_elemPtr (kind ▸ list) (mirrors.esize_eq list ▸ composite) inside'
      (fun _ => placed mirrors.sound' form' inside') plain small positive]
  exact (mirrors.element form inside).getScalar_eq (clear_of_inWord (by omega))

/-- The elements of two lists of the reader's width. -/
theorem listGetScalar_elements (mirrors : Mirrors m m' p p') (list : p.kind = .list)
    {width index : Nat} (sized : p.esize.viewBytes = some width) (inside : index < p.count) :
    m.listGetScalar p.esize width p index 0 = m'.listGetScalar p.esize width p' index 0 := by
  have kind : p.kind = p'.kind := mirrors.value.here.kind
  have inside' : index < p'.count := mirrors.count_eq list ▸ inside
  obtain ⟨bits, -, -⟩ := ElemSize.bits_of_viewBytes sized
  have packed : p.form = .packed := by
    rw [Ptr.form, list]
    cases esize : p.esize <;> rw [esize] at sized <;> cases sized
  unfold listGetScalar
  rw [if_neg (not_or.mpr ⟨not_not.mpr list, not_le.mpr inside⟩), if_pos rfl,
    if_neg (not_or.mpr ⟨not_not.mpr (kind ▸ list), not_le.mpr inside'⟩),
    if_pos (mirrors.esize_eq list).symm]
  refine loadLe_congr fun b hb => mirrors.listByte_eq packed ?_
  have upTo : (index + 1) * width ≤ p.count * width := Nat.mul_le_mul_right width inside
  have scaled : p.count * (8 * width) = 8 * (p.count * width) := by ring
  rw [Nat.succ_mul] at upTo
  rw [bits]
  omega

/-- The element readers agree at every index. -/
theorem listGetScalar_eq (mirrors : Mirrors m m' p p') {esize : ElemSize} {width : Nat}
    (sized : esize.viewBytes = some width) (index : Nat) :
    m.listGetScalar esize width p index 0 = m'.listGetScalar esize width p' index 0 := by
  have kind : p.kind = p'.kind := mirrors.value.here.kind
  by_cases past : p.kind ≠ .list ∨ index ≥ p.count
  · have past' : p'.kind ≠ .list ∨ index ≥ p'.count := by
      by_cases list : p.kind = .list
      · rwa [← kind, ← mirrors.count_eq list]
      · exact .inl (kind ▸ list)
    unfold listGetScalar
    rw [if_pos past, if_pos past']
  · obtain ⟨list, inside⟩ := not_or.mp past
    rw [not_not] at list
    rw [ge_iff_le, not_le] at inside
    by_cases composite : p.esize = .composite
    · exact mirrors.listGetScalar_rows list composite sized inside
    · by_cases asked : p.esize = esize
      · subst asked
        exact mirrors.listGetScalar_elements list sized inside
      · -- Neither list has elements of this width.
        have none {m : Message} {p : Ptr} (other : p.esize ≠ esize) (plain : p.esize ≠ .composite) :
            m.listGetScalar esize width p index 0 = 0 := by
          unfold listGetScalar
          rw [if_neg other]
          split
          · rfl
          · exact if_neg fun both => plain both.1
        rw [none asked composite, none (mirrors.esize_eq list ▸ asked)
          (mirrors.esize_eq list ▸ composite)]

theorem listGetBool_eq (mirrors : Mirrors m m' p p') (index : Nat) :
    m.listGetBool p index false = m'.listGetBool p' index false := by
  have kind : p.kind = p'.kind := mirrors.value.here.kind
  unfold listGetBool
  by_cases list : p.kind = .list
  · rw [← kind, ← mirrors.esize_eq list, ← mirrors.count_eq list]
    by_cases bit : p.esize = .bit
    · by_cases inside : index < p.count
      · have packed : p.form = .packed := by
          rw [Ptr.form, list, bit]
        have same := mirrors.value.here.bits packed index (by
          change index < p.count * p.esize.bits
          rw [bit]
          exact inside.trans_eq (Nat.mul_one _).symm)
        unfold listBit at same
        dsimp only at same
        rw [same]
      · rw [if_pos (.inr (.inr (not_lt.mp inside))), if_pos (.inr (.inr (not_lt.mp inside)))]
    · rw [if_pos (.inr (.inl bit)), if_pos (.inr (.inl bit))]
  · rw [if_pos (.inl list), if_pos (.inl (kind ▸ list))]

end Mirrors

/-! ## Pointer reads -/

/-- Reading a pointer field that can be followed. -/
theorem getp_of_link {cost : Nat} (isStruct : p.kind = .struct)
    (found : m.link p 0 k = some (q, cost)) (out : Ptr) (left : Nat) :
    Agrees (m.getp p k out left) (some (q, cost)) left := by
  have form : p.form = .block .struct := by
    rw [Ptr.form, isStruct]
  rw [link, form] at found
  dsimp only at found
  rw [if_pos rfl] at found
  exact found ▸ getp_agrees isStruct

theorem listGetp_of_link {cost : Nat} (form : p.form = .block .pointers) (inside : i < p.count)
    (found : m.link p i 0 = some (q, cost)) (out : Ptr) (left : Nat) :
    Agrees (m.listGetp p i out left) (some (q, cost)) left := by
  rw [link, form] at found
  dsimp only at found
  rw [if_pos ⟨inside, rfl⟩] at found
  exact found ▸ listGetp_agrees form inside

theorem listGetp_of_element (form : p.form = .block .composite) (inside : i < p.count) (out : Ptr)
    (left : Nat) : Agrees (m.listGetp p i out left) (some (elemPtr p i, 0)) left := by
  rw [listGetp_composite form inside]
  exact free_agrees _ _

/-- Calls that read on in both messages fail with the same code, or return
handles that are read alike, each for a price. -/
def Answers (m m' : Message) (call call' : Nat → Resolved) : Prop :=
  (∃ rc ≠ Status.ok, ∀ left left', (call left).rc = rc ∧ (call' left').rc = rc) ∨
    ∃ q cost q' cost', (∀ left, Agrees (call left) (some (q, cost)) left) ∧
      (∀ left, Agrees (call' left) (some (q', cost')) left) ∧ Mirrors m m' q q'

/-- Calls that both succeed return handles that are read alike. -/
theorem Answers.mirrors {call call' : Nat → Resolved} (answers : Answers m m' call call')
    {left left' : Nat} (ok : (call left).rc = .ok) (ok' : (call' left').rc = .ok) :
    Mirrors m m' (call left).out (call' left').out := by
  rcases answers with ⟨rc, notOk, both⟩ | ⟨q, cost, q', cost', here, there, mirrors⟩
  · exact absurd ((both left left').1.symm.trans ok) notOk
  · obtain ⟨_, _, returned, _⟩ := (here left).of_ok ok
    obtain ⟨_, _, returned', _⟩ := (there left').of_ok ok'
    cases returned
    cases returned'
    exact mirrors

theorem Mirrors.getp_answers (mirrors : Mirrors m m' p p') (k : Nat) (out out' : Ptr) :
    Answers m m' (m.getp p k out) (m'.getp p' k out') := by
  have kind : p.kind = p'.kind := mirrors.value.here.kind
  by_cases isStruct : p.kind = .struct
  · have form : p.form = .block .struct := by
      rw [Ptr.form, isStruct]
    obtain ⟨q, cost, q', cost', found, found', next⟩ := mirrors.follow (i := 0) (k := k)
      (by rw [Ptr.rows, form]; exact Nat.one_pos) fun pointers => by cases form.symm.trans pointers
    exact .inr ⟨q, cost, q', cost', getp_of_link isStruct found out,
      getp_of_link (kind ▸ isStruct) found' out', next⟩
  · refine .inl ⟨.kind, by decide, fun left left' => ⟨?_, ?_⟩⟩
    · rw [getp, if_pos isStruct]
    · rw [getp, if_pos (kind ▸ isStruct)]

theorem Mirrors.listGetp_answers (mirrors : Mirrors m m' p p') (index : Nat) (out out' : Ptr) :
    Answers m m' (m.listGetp p index out) (m'.listGetp p' index out') := by
  have kind : p.kind = p'.kind := mirrors.value.here.kind
  by_cases list : p.kind = .list
  · have count := mirrors.count_eq list
    by_cases inside : index < p.count
    · cases esize : p.esize with
      | ptr =>
          have form : p.form = .block .pointers := by
            rw [Ptr.form, list, esize]
          obtain ⟨q, cost, q', cost', found, found', next⟩ :=
            mirrors.follow (i := index) (k := 0) (by rwa [Ptr.rows, form]) fun _ => rfl
          exact .inr ⟨q, cost, q', cost', listGetp_of_link form inside found out,
            listGetp_of_link (mirrors.value.form_eq ▸ form) (count ▸ inside) found' out', next⟩
      | composite =>
          have form : p.form = .block .composite := by
            rw [Ptr.form, list, esize]
          exact .inr ⟨elemPtr p index, 0, elemPtr p' index, 0, listGetp_of_element form inside out,
            listGetp_of_element (mirrors.value.form_eq ▸ form) (count ▸ inside) out',
            mirrors.element form inside⟩
      | _ =>
          refine .inl ⟨.kind, by decide, fun left left' => ⟨?_, ?_⟩⟩
          · rw [listGetp, if_neg (not_not.mpr list), if_neg (not_le.mpr inside), esize]
          · rw [listGetp, if_neg (not_not.mpr (kind ▸ list)), if_neg (not_le.mpr (count ▸ inside)),
              ← mirrors.esize_eq list, esize]
    · refine .inl ⟨.bounds, by decide, fun left left' => ⟨?_, ?_⟩⟩
      · rw [listGetp, if_neg (not_not.mpr list), if_pos (not_lt.mp inside)]
      · rw [listGetp, if_neg (not_not.mpr (kind ▸ list)), if_pos (count ▸ not_lt.mp inside)]
  · refine .inl ⟨.kind, by decide, fun left left' => ⟨?_, ?_⟩⟩
    · rw [listGetp, if_pos list]
    · rw [listGetp, if_pos (kind ▸ list)]

/-! ## Texts and data -/

/-- Two readings give one result, with enough budget each. -/
def SameResult {α : Type} (reading reading' : Nat → α) : Prop :=
  ∃ enough, ∀ left left', enough ≤ left → enough ≤ left' → reading left = reading' left'

/-- What is computed from the answers of two reads is the same if it is the same
for handles that are read alike. -/
theorem Answers.sameResult {α : Type} {call call' : Nat → Resolved}
    (answers : Answers m m' call call') {finish finish' : Resolved → α}
    (failed : ∀ r r', r.rc = r'.rc → r.rc ≠ .ok → finish r = finish' r')
    (found : ∀ q q' left left', Mirrors m m' q q' →
      finish ⟨.ok, q, left⟩ = finish' ⟨.ok, q', left'⟩) :
    SameResult (fun left => finish (call left)) (fun left => finish' (call' left)) := by
  rcases answers with ⟨rc, notOk, both⟩ | ⟨q, cost, q', cost', here, there, mirrors⟩
  · refine ⟨0, fun left left' _ _ => ?_⟩
    obtain ⟨one, other⟩ := both left left'
    exact failed _ _ (one.trans other.symm) (one ▸ notOk)
  · refine ⟨max cost cost', fun left left' enough enough' => ?_⟩
    dsimp only
    rw [(here left).covered q cost rfl (le_of_max_le_left enough),
      (there left').covered q' cost' rfl (le_of_max_le_right enough')]
    exact found q q' _ _ mirrors
/-- What a read of a text makes of the answer of its pointer read. -/
def textRead (m : Message) (r : Resolved) : Status × List UInt8 :=
  if r.rc ≠ .ok then (r.rc, [])
  else if r.out.kind = .null then (.ok, [])
  else if r.out.kind ≠ .list ∨ r.out.esize ≠ .byte then (.kind, [])
  else (.ok, m.textOf r.out)

/-- What a read of data makes of the answer of its pointer read. -/
def dataRead (m : Message) (r : Resolved) : Status × List UInt8 :=
  if r.rc ≠ .ok then (r.rc, [])
  else if r.out.kind = .null then (.ok, [])
  else if r.out.kind ≠ .list ∨ r.out.esize ≠ .byte then (.kind, [])
  else (.ok, m.listBytes r.out r.out.count)

/-- The code and the bytes of a result, without the budget left. -/
def bytesRead (result : Status × List UInt8 × Nat) : Status × List UInt8 := (result.1, result.2.1)

theorem textOf_empty (none : p.count = 0) : m.textOf p = [] := by
  unfold textOf
  rw [none, if_neg fun both => absurd both.1 (Nat.lt_irrefl 0)]
  rfl

theorem getText_eq (left : Nat) :
    bytesRead (m.getText p k left) = m.textRead (m.getp p k Ptr.zero left) := by
  unfold getText textRead bytesRead
  dsimp only
  split
  · rfl
  · split
    · rfl
    · split
      · rfl
      · split
        · next none => rw [textOf_empty none]
        · rfl

theorem getData_eq (left : Nat) :
    bytesRead (m.getData p k left) = m.dataRead (m.getp p k Ptr.zero left) := by
  unfold getData dataRead bytesRead
  dsimp only
  split
  · rfl
  · split
    · rfl
    · split <;> rfl

theorem listGetText_pointer (list : p.kind = .list) (pointers : p.esize = .ptr) (left : Nat) :
    bytesRead (m.listGetText p i left) = m.textRead (m.listGetp p i Ptr.zero left) := by
  unfold listGetText textRead bytesRead
  rw [if_neg (not_not.mpr list), pointers]
  dsimp only
  split
  · rfl
  · split
    · rfl
    · split
      · next isBytes => rw [if_neg (not_or.mpr ⟨not_not.mpr isBytes.1, not_not.mpr isBytes.2⟩)]
      · next notBytes => rw [if_pos (not_and_or.mp notBytes)]

theorem listGetText_composite (form : p.form = .block .composite) (inside : i < p.count)
    (left : Nat) : m.listGetText p i left = m.getText (elemPtr p i) 0 left := by
  obtain ⟨list, composite⟩ := Ptr.form_eq_composite form
  unfold listGetText
  rw [if_neg (not_not.mpr list), composite]
  dsimp only
  rw [listGetp_composite form inside]
  rfl

theorem textRead_ok (left : Nat) : m.textRead ⟨.ok, q, left⟩ =
    if q.kind = .null then (.ok, [])
    else if q.kind ≠ .list ∨ q.esize ≠ .byte then (.kind, [])
    else (.ok, m.textOf q) :=
  rfl

theorem textRead_failed {r r' : Resolved} (same : r.rc = r'.rc) (notOk : r.rc ≠ .ok) :
    m.textRead r = m'.textRead r' := by
  rw [textRead, textRead, if_pos notOk, if_pos (same ▸ notOk), same]

theorem dataRead_ok (left : Nat) : m.dataRead ⟨.ok, q, left⟩ =
    if q.kind = .null then (.ok, [])
    else if q.kind ≠ .list ∨ q.esize ≠ .byte then (.kind, [])
    else (.ok, m.listBytes q q.count) :=
  rfl

theorem dataRead_failed {r r' : Resolved} (same : r.rc = r'.rc) (notOk : r.rc ≠ .ok) :
    m.dataRead r = m'.dataRead r' := by
  rw [dataRead, dataRead, if_pos notOk, if_pos (same ▸ notOk), same]

theorem Mirrors.textRead_eq (mirrors : Mirrors m m' q q') (left left' : Nat) :
    m.textRead ⟨.ok, q, left⟩ = m'.textRead ⟨.ok, q', left'⟩ := by
  have kind : q.kind = q'.kind := mirrors.value.here.kind
  rw [textRead_ok, textRead_ok, ← kind]
  refine if_congr Iff.rfl rfl ?_
  by_cases list : q.kind = .list
  · rw [← mirrors.esize_eq list]
    by_cases bytes : q.esize = .byte
    · rw [mirrors.textOf_eq list bytes]
    · rw [if_pos (.inr bytes), if_pos (.inr bytes)]
  · rw [if_pos (.inl list), if_pos (.inl list)]

theorem Mirrors.dataRead_eq (mirrors : Mirrors m m' q q') (left left' : Nat) :
    m.dataRead ⟨.ok, q, left⟩ = m'.dataRead ⟨.ok, q', left'⟩ := by
  have kind : q.kind = q'.kind := mirrors.value.here.kind
  rw [dataRead_ok, dataRead_ok, ← kind]
  refine if_congr Iff.rfl rfl ?_
  by_cases list : q.kind = .list
  · rw [← mirrors.esize_eq list, ← mirrors.count_eq list]
    by_cases bytes : q.esize = .byte
    · rw [mirrors.listBytes_eq list bytes le_rfl]
    · rw [if_pos (.inr bytes), if_pos (.inr bytes)]
  · rw [if_pos (.inl list), if_pos (.inl list)]

theorem Mirrors.getText_same (mirrors : Mirrors m m' p p') (k : Nat) :
    SameResult (fun left => bytesRead (m.getText p k left))
      fun left => bytesRead (m'.getText p' k left) := by
  simp only [getText_eq]
  exact (mirrors.getp_answers k Ptr.zero Ptr.zero).sameResult (fun _ _ => textRead_failed)
    fun _ _ left left' next => next.textRead_eq left left'

theorem Mirrors.getData_same (mirrors : Mirrors m m' p p') (k : Nat) :
    SameResult (fun left => bytesRead (m.getData p k left))
      fun left => bytesRead (m'.getData p' k left) := by
  simp only [getData_eq]
  exact (mirrors.getp_answers k Ptr.zero Ptr.zero).sameResult (fun _ _ => dataRead_failed)
    fun _ _ left left' next => next.dataRead_eq left left'

/-- Readings that do not depend on the budget. -/
theorem SameResult.of_eq {α : Type} {reading reading' : Nat → α} (result : α)
    (here : ∀ left, reading left = result) (there : ∀ left, reading' left = result) :
    SameResult reading reading' :=
  ⟨0, fun left left' _ _ => (here left).trans (there left').symm⟩

theorem Mirrors.listGetText_same (mirrors : Mirrors m m' p p') (index : Nat) :
    SameResult (fun left => bytesRead (m.listGetText p index left))
      fun left => bytesRead (m'.listGetText p' index left) := by
  have kind : p.kind = p'.kind := mirrors.value.here.kind
  by_cases list : p.kind = .list
  · have list' : p'.kind = .list := kind ▸ list
    have esizes := mirrors.esize_eq list
    cases esize : p.esize with
    | ptr =>
        simp only [listGetText_pointer list esize, listGetText_pointer list' (esizes ▸ esize)]
        exact (mirrors.listGetp_answers index Ptr.zero Ptr.zero).sameResult
          (fun _ _ => textRead_failed) fun _ _ left left' next => next.textRead_eq left left'
    | composite =>
        have form : p.form = .block .composite := by
          rw [Ptr.form, list, esize]
        by_cases inside : index < p.count
        · simp only [listGetText_composite form inside,
            listGetText_composite (mirrors.value.form_eq ▸ form) (mirrors.count_eq list ▸ inside)]
          exact (mirrors.element form inside).getText_same 0
        · have refused {m : Message} {p : Ptr} (list : p.kind = .list)
              (composite : p.esize = .composite) (past : p.count ≤ index) (left : Nat) :
              bytesRead (m.listGetText p index left) = (.bounds, []) := by
            unfold listGetText listGetp
            rw [if_neg (not_not.mpr list), composite]
            dsimp only
            rw [if_neg (not_not.mpr list), if_pos past]
            rfl
          exact .of_eq (.bounds, []) (refused list esize (not_lt.mp inside))
            (refused list' (esizes ▸ esize) (mirrors.count_eq list ▸ not_lt.mp inside))
    | _ =>
        refine .of_eq (.kind, []) (fun left => ?_) fun left => ?_
        · unfold listGetText
          rw [if_neg (not_not.mpr list), esize]
          rfl
        · unfold listGetText
          rw [if_neg (not_not.mpr list'), ← esizes, esize]
          rfl
  · refine .of_eq (.kind, []) (fun left => ?_) fun left => ?_
    · rw [listGetText, if_pos list]
      rfl
    · rw [listGetText, if_pos (kind ▸ list)]
      rfl

/-! ## All readers -/

/-- One read of both messages at the same place, with any budgets. -/
inductive BothRead (m m' : Message) : Ptr × Ptr → Ptr × Ptr → Prop
  | getp (p p' : Ptr) (k : Nat) (out out' : Ptr) (left left' : Nat) :
      (m.getp p k out left).rc = .ok → (m'.getp p' k out' left').rc = .ok →
        BothRead m m' (p, p') ((m.getp p k out left).out, (m'.getp p' k out' left').out)
  | listGetp (p p' : Ptr) (i : Nat) (out out' : Ptr) (left left' : Nat) :
      (m.listGetp p i out left).rc = .ok → (m'.listGetp p' i out' left').rc = .ok →
        BothRead m m' (p, p') ((m.listGetp p i out left).out, (m'.listGetp p' i out' left').out)

/-- Every reader gives the same of both handles, with default 0: scalars that the
end of the second data section does not split, and everything else. -/
structure ReadsAlike (m m' : Message) (pair : Ptr × Ptr) : Prop where
  scalar : ∀ width off, Clear pair.2.dwords off width →
    m.getScalar width pair.1 off 0 = m'.getScalar width pair.2 off 0
  bool : ∀ bit, m.getBool pair.1 bit false = m'.getBool pair.2 bit false
  length : listLen pair.1 = listLen pair.2
  element : ∀ esize width, esize.viewBytes = some width → ∀ index,
    m.listGetScalar esize width pair.1 index 0 = m'.listGetScalar esize width pair.2 index 0
  elementBool : ∀ index, m.listGetBool pair.1 index false = m'.listGetBool pair.2 index false
  pointer : ∀ k out out', SameResult (fun left => (m.getp pair.1 k out left).rc)
    fun left => (m'.getp pair.2 k out' left).rc
  elementPointer : ∀ index out out', SameResult (fun left => (m.listGetp pair.1 index out left).rc)
    fun left => (m'.listGetp pair.2 index out' left).rc
  text : ∀ k, SameResult (fun left => bytesRead (m.getText pair.1 k left))
    fun left => bytesRead (m'.getText pair.2 k left)
  data : ∀ k, SameResult (fun left => bytesRead (m.getData pair.1 k left))
    fun left => bytesRead (m'.getData pair.2 k left)
  elementText : ∀ index, SameResult (fun left => bytesRead (m.listGetText pair.1 index left))
    fun left => bytesRead (m'.listGetText pair.2 index left)

theorem Mirrors.readsAlike (mirrors : Mirrors m m' p p') : ReadsAlike m m' (p, p') where
  scalar _ _ := mirrors.getScalar_eq
  bool := mirrors.getBool_eq
  length := by
    have kind : p.kind = p'.kind := mirrors.value.here.kind
    unfold listLen
    dsimp only
    rw [← kind]
    by_cases list : p.kind = .list
    · rw [mirrors.count_eq list]
    · rw [if_pos list, if_pos list]
  element _ _ := mirrors.listGetScalar_eq
  elementBool := mirrors.listGetBool_eq
  pointer k out out' := (mirrors.getp_answers k out out').sameResult (fun _ _ same _ => same)
    fun _ _ _ _ _ => rfl
  elementPointer index out out' := (mirrors.listGetp_answers index out out').sameResult
    (fun _ _ same _ => same) fun _ _ _ _ _ => rfl
  text := mirrors.getText_same
  data := mirrors.getData_same
  elementText := mirrors.listGetText_same

/-- Handles that mirror each other are read alike, however one reads on. -/
theorem Mirrors.everywhere (mirrors : Mirrors m m' p p') :
    Everywhere (BothRead m m') (ReadsAlike m m') (p, p') := by
  refine Everywhere.of_invariant (fun pair => Mirrors m m' pair.1 pair.2) mirrors ?_
    fun pair => Mirrors.readsAlike
  rintro _ _ here (⟨p, p', k, out, out', left, left', ok, ok'⟩ |
    ⟨p, p', i, out, out', left, left', ok, ok'⟩)
  · exact (here.getp_answers k out out').mirrors ok ok'
  · exact (here.listGetp_answers i out out').mirrors ok ok'

end Message

end CapnpJanet
