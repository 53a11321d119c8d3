import CapnpJanet.Builder.Failures
import CapnpJanet.Builder.ListLengths
import CapnpJanet.Codegen.Handles
import CapnpJanet.Janet.BuildMessage

/-!
# What the fields of a list leave behind

The state of the arena while `capnp/build-message` goes through its fields, as long as
these lie in their sections and do not overlap: every field has its bits, every text is
hosted outside of the struct, and the rest of the struct is zero.  Nothing but the
struct's own words has changed since the loop began, so that the root still leads to it.
-/

namespace CapnpJanet

open ByteMemory Builder Codegen Outcome

namespace Janet

variable {host : Host} {dwords pwords : Nat} {body : BPtr} {b₀ b b' : Builder} {m : Message}

/-! ## The loop -/

/-- The number of a field only matters for its error. -/
theorem readField_index (i j : Nat) {item : JanetValue} {f : ListedField}
    (read : readField host i item = .ok f) : readField host j item = .ok f := by
  unfold readField at read ⊢
  split at read
  · exact read
  all_goals cases read

/-- The fields of a list that can be read. -/
def listedFields (host : Host) (items : List JanetValue) : List ListedField :=
  items.filterMap fun item => (readField host 0 item).toOption

theorem mem_listedFields {items : List JanetValue} {f : ListedField} :
    f ∈ listedFields host items ↔ ∃ item ∈ items, readField host 0 item = .ok f := by
  unfold listedFields
  rw [List.mem_filterMap]
  refine exists_congr fun item => and_congr_right fun _ => ?_
  cases readField host 0 item <;> simp [Except.toOption]

theorem listedFields_append (before after : List JanetValue) :
    listedFields host (before ++ after) = listedFields host before ++ listedFields host after :=
  List.filterMap_append

theorem listedFields_singleton {item : JanetValue} {f : ListedField} {i : Nat}
    (read : readField host i item = .ok f) : listedFields host [item] = [f] := by
  have first := readField_index i 0 read
  simp [listedFields, first, Except.toOption]

theorem setFields_append {i : Nat} {before after : List JanetValue} :
    setFields host dwords body i (before ++ after) b = .ok () b' ↔
      ∃ b₁, setFields host dwords body i before b = .ok () b₁ ∧
        setFields host dwords body (i + before.length) after b₁ = .ok () b' := by
  induction before generalizing i b with
  | nil =>
      rw [List.nil_append, List.length_nil, Nat.add_zero]
      constructor
      · exact fun run => ⟨b, rfl, run⟩
      · rintro ⟨b₁, ⟨⟩, run⟩
        exact run
  | cons item rest ih =>
      rw [List.cons_append, setFields, setFields, List.length_cons,
        show i + (rest.length + 1) = i + 1 + rest.length by omega]
      simp only [bind_eq_ok, ih]
      constructor
      · rintro ⟨f, b₁, read, ⟨⟩, b₂, set, b₃, run, last⟩
        exact ⟨b₃, ⟨f, b₁, read, (), b₂, set, run⟩, last⟩
      · rintro ⟨b₃, ⟨f, b₁, read, ⟨⟩, b₂, set, run⟩, last⟩
        exact ⟨f, b₁, read, (), b₂, set, b₃, run, last⟩

/-- The last field of a list. -/
theorem setFields_concat {items : List JanetValue} {item : JanetValue} :
    setFields host dwords body 0 (items ++ [item]) b = .ok () b' ↔
      ∃ b₁ f, setFields host dwords body 0 items b = .ok () b₁ ∧
        readField host items.length item = .ok f ∧ setListed host dwords body f b₁ = .ok () b' := by
  rw [setFields_append, Nat.zero_add]
  refine exists_congr fun b₁ => ?_
  simp only [setFields, bind_eq_ok, convert_eq_ok]
  constructor
  · rintro ⟨run, f, b₂, ⟨read, rfl⟩, ⟨⟩, b₃, set, ⟨⟩⟩
    exact ⟨f, run, read, set⟩
  · rintro ⟨f, run, read, set⟩
    exact ⟨run, f, b₁, ⟨read, rfl⟩, (), b', set, rfl⟩

/-! ## The start -/

theorem startMessage_ok (run : startMessage dwords pwords Builder.init = .ok body b₀) :
    ∃ b₁, Builder.root Builder.init = .ok ⟨0, 0⟩ b₁ ∧
      Builder.struct ⟨0, 0⟩ dwords pwords b₁ = .ok body b₀ := by
  obtain ⟨root, b₁, rooted, made⟩ := bind_eq_ok.mp run
  obtain rfl := root_eq_ok rooted
  exact ⟨b₁, rooted, made⟩

theorem wf_init : Builder.init.Wf := Arena.wf_initSized builderDefaultFirstWords

theorem unlimited_init : Unlimited Builder.init := ⟨wf_init, rfl, rfl⟩

theorem ceiling_init : Builder.init.Ceiling := by
  rw [init_eq_single]
  exact ceiling_single _ _

/-- The root's slot is in use, and the builder has no limits of its own. -/
theorem root_init {b₁ : Builder} (rooted : Builder.root Builder.init = .ok ⟨0, 0⟩ b₁) :
    Unlimited b₁ ∧ b₁.Ceiling ∧ b₁.Used 0 0 := by
  have ends := root_ends wf_init
  rw [rooted] at ends
  exact ⟨ends.1.unlimited unlimited_init, ceiling_init.root rooted, ends.2.1⟩

/-- The struct is fresh when the loop begins, and all its pointers are null. -/
theorem startMessage_fresh (dwordsLt : dwords < 2 ^ 16) (pwordsLt : pwords < 2 ^ 16)
    (run : startMessage dwords pwords Builder.init = .ok body b₀) :
    Fresh ⟨body, dwords, pwords⟩ b₀ ∧ Unlimited b₀ ∧ b₀.Ceiling ∧ b₀.nsegs ≤ 4 ∧
      ∀ k < pwords, b₀.wordAt body.seg (body.word + dwords + k) = 0 := by
  obtain ⟨b₁, rooted, made⟩ := startMessage_ok run
  obtain ⟨unlimited, ceiling, slotUsed⟩ := root_init rooted
  have here : b₁.Used (⟨0, 0⟩ : BPtr).seg (⟨0, 0⟩ : BPtr).word := slotUsed
  have writes := struct_ends unlimited.wf here dwords pwords
  rw [made] at writes
  refine ⟨fresh_of_struct unlimited.wf dwordsLt pwordsLt slotUsed made, writes.1.unlimited unlimited,
    ceiling.struct made, ?_, fun k hk => ?_⟩
  · have first := root_nsegs_le rooted
    have rest := struct_nsegs_le made
    have one : Builder.init.nsegs = 1 := rfl
    omega
  obtain ⟨-, zero⟩ := struct_placed unlimited.wf slotUsed (by omega) made
  refine word_of_clear fun i hi => ?_
  have there := zero (8 * (dwords + k) + i) (by omega)
  rwa [show body.word * 8 + (8 * (dwords + k) + i) = 8 * (body.word + dwords + k) + i by ring] at there

/-- The root leads to the struct as long as only the struct's words change. -/
theorem root_found (dwordsLt : dwords < 2 ^ 16) (pwordsLt : pwords < 2 ^ 16)
    (run : startMessage dwords pwords Builder.init = .ok body b₀)
    (writes : Writes (bodyBytes body (dwords + pwords)) b₀ b) (built : m.BuiltFrom b)
    (few : m.nsegs < 2 ^ 32) (limit : m.depthLimit = defaultDepthLimit) :
    ∃ cost ≤ dwords + pwords + 3, m.slotTarget m.depthLimit 0 0 =
      some (Message.structAt body.seg body.word dwords pwords, cost) := by
  obtain ⟨fresh, -, ceiling₀, -⟩ := startMessage_fresh dwordsLt pwordsLt run
  obtain ⟨b₁, rooted, made⟩ := startMessage_ok run
  obtain ⟨unlimited, -, slotUsed⟩ := root_init rooted
  rw [limit]
  by_cases empty : dwords + pwords = 0
  · obtain ⟨rfl, rfl⟩ : dwords = 0 ∧ pwords = 0 := by omega
    unfold Builder.struct at made
    rw [if_pos empty] at made
    cases made
    have used : (b₁.storeW 0 0 (wpMakeStruct (-1) 0 0)).Used 0 0 := storeW_used.mpr slotUsed
    have kept := writes.wordAt_eq used fun i _ touches => by
      obtain ⟨-, low, high⟩ := touches
      dsimp only at low high
      omega
    rw [wordAt_storeW_self b₁ 0 0 (wpMakeStruct_lt _ _ _)] at kept
    have reads := (built.readWord_eq writes.wf (writes.used used)).trans kept
    exact ⟨1, by omega, Message.slotTarget_empty 63
      (built.inSegment writes.wf (writes.used used)) reads⟩
  · obtain ⟨placed, -⟩ := struct_placed unlimited.wf slotUsed empty made
    have used : b₀.Used 0 0 := placed.writes.used slotUsed
    have room := fresh.inUse.inside
    have segLt := fresh.wf.lt_of_used (w := 0) (show b₀.Used body.seg 0 by
      unfold Used
      dsimp only at room
      omega)
    have bodyIn := (segLt.trans_le writes.nsegs_le).trans_eq built.nsegs
    have outside {s w : Nat} (apart : ¬(s = body.seg ∧ body.word ≤ w ∧ w < body.word + (dwords + pwords)))
        (inUse : b₀.Used s w) : b.wordAt s w = b₀.wordAt s w := by
      refine writes.wordAt_eq inUse fun i word touches => apart ?_
      obtain ⟨rfl, low, high⟩ := touches
      exact ⟨rfl, by omega, by omega⟩
    have leads := (placed.leads (ceiling₀.inLimit fresh.wf)).congr
      (outside (fun inside => ?_) used) writes.words_le fun s w own inUse => outside own.2 inUse
    · have names := Message.names_struct bodyIn few (by
        rw [← built.words _ bodyIn, ← Nat.add_assoc]
        exact room.trans (writes.words_le _)) empty dwordsLt pwordsLt
      exact names.slotTarget leads built writes.wf few bodyIn (writes.used used) 62
    · obtain ⟨seg, low, -⟩ := inside
      have start : body.word = 0 := Nat.le_zero.mp low
      have first := placed.fresh 0
      rw [start, ← seg] at first
      exact first slotUsed

/-! ## The invariant -/

/-- A slot leads to a text, which has been allocated since the builder `b₀`. -/
def HostsText (b₀ b : Builder) (slot : BPtr) (text : List UInt8) : Prop :=
  ∃ place, Hosts b₀ b (fun off => wpMakeList off .byte (text.length + 1)) slot place
    (wordsFor (text.length + 1)) (ofList text)

/-- The slot of a pointer field. -/
def BuilderPtr.slot (w : BuilderPtr) (k : Nat) : BPtr := ⟨w.body.seg, w.body.word + w.dwords + k⟩

/-- The words of a struct. -/
def BuilderPtr.bytes (w : BuilderPtr) : Nat → Nat → Prop := bodyBytes w.body (w.dwords + w.pwords)

/-- What has been built after some fields: since the loop began with the builder `b₀`,
only the struct's own words have changed.  Each scalar field has its bits and each text
its host, and the rest of the struct is zero. -/
structure Building (host : Host) (w : BuilderPtr) (b₀ : Builder) (done : List ListedField)
    (b : Builder) : Prop where
  unlimited : Unlimited b
  ceiling : b.Ceiling
  few : b.nsegs ≤ 4 + 2 * done.countP (·.kind = .text)
  writes : Writes w.bytes b₀ b
  takes : ∀ f ∈ done, f.Takes host
  inside : ∀ f ∈ done, f.Inside w.dwords w.pwords
  scalars : ∀ f ∈ done, ∀ a, f.kind.accessor = some a → ∀ i ∈ f.area w.dwords,
    bit (b.seg w.body.seg).data (w.start + i) = (f.stored host).testBit (i - a.storage.step * f.off)
  texts : ∀ f ∈ done, f.kind = .text → ∃ view, f.value = .string view ∧
    HostsText b₀ b (w.slot f.off) view.bytes
  clear : ∀ i < w.dwords * 64, (∀ f ∈ done, i ∉ f.area w.dwords) →
    bit (b.seg w.body.seg).data (w.start + i) = false
  nulls : ∀ k < w.pwords, (∀ f ∈ done, f.kind = .text → f.off ≠ k) →
    b.wordAt w.body.seg (w.slot k).word = 0

section
variable {w : BuilderPtr} {done : List ListedField} {f : ListedField}

/-- Before the first field nothing has been set. -/
theorem startMessage_building (dwordsLt : dwords < 2 ^ 16) (pwordsLt : pwords < 2 ^ 16)
    (run : startMessage dwords pwords Builder.init = .ok body b₀) :
    Building host ⟨body, dwords, pwords⟩ b₀ [] b₀ := by
  obtain ⟨fresh, unlimited, ceiling, few, nulls⟩ := startMessage_fresh dwordsLt pwordsLt run
  exact ⟨unlimited, ceiling, few, Writes.refl unlimited.wf, nofun, nofun, nofun, nofun,
    fun i hi _ => fresh.clear i hi, fun k hk _ => nulls k hk⟩

/-- Texts stay where they are when words of the struct are written, other than their
slots. -/
theorem HostsText.later {touched : Nat → Nat → Prop} {k : Nat} {text : List UInt8}
    (hosts : HostsText b₀ b (w.slot k) text) (writes : Writes touched b b') (inUse : w.InUse b₀)
    (within : ∀ s i, touched s i → w.bytes s i)
    (apart : ∀ i, i / 8 = (w.slot k).word → ¬touched w.body.seg i) :
    HostsText b₀ b' (w.slot k) text := by
  obtain ⟨place, hosts⟩ := hosts
  refine ⟨place, hosts.later writes (fun s i touches => ?_) apart⟩
  obtain ⟨rfl, low, high⟩ := within s i touches
  have room := inUse.inside
  unfold Used
  omega

/-- Slots of different pointers lie apart. -/
theorem off_ne_of_disjoint {g : ListedField} (isText : f.kind = .text) (text : g.kind = .text)
    (apart : Disjoint (f.area dwords) (g.area dwords)) : f.off ≠ g.off := by
  intro same
  have inside : 64 * (dwords + f.off) ∈ f.area dwords := by
    unfold ListedField.area
    rw [isText]
    exact mem_bitRun.mpr ⟨le_rfl, by omega⟩
  refine Set.disjoint_left.mp apart inside ?_
  unfold ListedField.area
  rw [text, same]
  exact mem_bitRun.mpr ⟨le_rfl, by omega⟩

/-- One more scalar field. -/
theorem Building.scalar (built : Building host w b₀ done b) (inUse : w.InUse b₀) {a : Accessor}
    (isScalar : f.kind.accessor = some a) (inside : f.Inside w.dwords w.pwords)
    (apart : ∀ g ∈ done, Disjoint (g.area w.dwords) (f.area w.dwords))
    (run : setListed host w.dwords w.body f b = .ok () b') :
    Building host w b₀ (done ++ [f]) b' := by
  obtain ⟨patched, writes⟩ := setListed_scalar built.unlimited.wf isScalar inside run
  have notText : f.kind ≠ .text := by
    intro text
    rw [text] at isScalar
    cases isScalar
  have within (s i : Nat) (touches : bodyBytes w.body w.dwords s i) : w.bytes s i := by
    obtain ⟨rfl, low, high⟩ := touches
    exact ⟨rfl, low, by omega⟩
  have same {i : Nat} (outside : i ∉ f.area w.dwords) :
      bit (b'.seg w.body.seg).data (w.start + i) = bit (b.seg w.body.seg).data (w.start + i) := by
    refine patched.patch.outside _ fun member => outside ?_
    rw [ListedField.area_scalar isScalar]
    have place := mem_bitRun.mp member
    exact mem_bitRun.mpr ⟨by omega, by omega⟩
  refine ⟨writes.unlimited built.unlimited, setListed_ceiling built.ceiling run, ?_,
    built.writes.trans writes fun s i _ => within s i, fun g member => ?_, fun g member => ?_,
    fun g member c scalar i hi => ?_,
    fun g member text => ?_, fun i hi free => ?_, fun k hk free => ?_⟩
  · rw [patched.nsegs_eq, List.countP_append, List.countP_singleton, if_neg (by simpa using notText)]
    exact built.few
  · rcases List.mem_append.mp member with old | new
    · exact built.takes g old
    · exact List.mem_singleton.mp new ▸ ((setListed_ok_iff built.unlimited).mp ⟨b', run⟩).1
  · rcases List.mem_append.mp member with old | new
    · exact built.inside g old
    · exact List.mem_singleton.mp new ▸ inside
  · rcases List.mem_append.mp member with old | new
    · rw [same (Set.disjoint_left.mp (apart g old) hi)]
      exact built.scalars g old c scalar i hi
    · obtain rfl := List.mem_singleton.mp new
      rw [isScalar] at scalar
      cases scalar
      rw [ListedField.area_scalar isScalar] at hi
      have place := mem_bitRun.mp hi
      rw [patched.patch.inside (w.start + i) (mem_bitRun.mpr ⟨by omega, by omega⟩), fieldBits]
      congr 1
      omega
  · rcases List.mem_append.mp member with old | new
    · obtain ⟨view, given, hosts⟩ := built.texts g old text
      refine ⟨view, given, hosts.later writes inUse within fun i word touches => ?_⟩
      obtain ⟨-, low, high⟩ := touches
      simp only [BuilderPtr.slot] at word
      omega
    · exact absurd (List.mem_singleton.mp new ▸ text) notText
  · rw [same (free f (by simp))]
    exact built.clear i hi fun g member => free g (List.mem_append_left _ member)
  · have room := inUse.inside
    have used : b.Used w.body.seg (w.slot k).word := built.writes.used (by
      unfold Used BuilderPtr.slot
      dsimp only
      omega)
    rw [writes.wordAt_eq used fun i word touches => by
      obtain ⟨-, low, high⟩ := touches
      simp only [BuilderPtr.slot] at word
      omega]
    exact built.nulls k hk fun g member => free g (List.mem_append_left _ member)

/-- One more text. -/
theorem Building.text (built : Building host w b₀ done b) (inUse : w.InUse b₀)
    (isText : f.kind = .text) (inside : f.Inside w.dwords w.pwords)
    (apart : ∀ g ∈ done, Disjoint (g.area w.dwords) (f.area w.dwords))
    (run : setListed host w.dwords w.body f b = .ok () b') :
    Building host w b₀ (done ++ [f]) b' := by
  obtain ⟨view, given, set⟩ := setListed_text isText run
  have offLt : f.off < w.pwords := by
    unfold ListedField.Inside at inside
    rwa [isText] at inside
  rw [Nat.mod_eq_of_lt (offLt.trans inUse.pwordsLt)] at set
  have room := inUse.inside
  have wf := built.unlimited.wf
  have writes := (setText_confined wf w.body w.dwords f.off view.bytes).of_ok set
  have within (s i : Nat) (touches : slotBytes w.body.seg (w.body.word + w.dwords + f.off) s i) :
      w.bytes s i := by
    obtain ⟨rfl, word⟩ := touches
    exact ⟨rfl, by omega, by omega⟩
  have same {i : Nat} (hi : i < w.dwords * 64) :
      bit (b'.seg w.body.seg).data (w.start + i) = bit (b.seg w.body.seg).data (w.start + i) := by
    have larger := built.writes.words_le w.body.seg
    refine bit_congr (writes.kept _ _ ?_ ?_) rfl
    · unfold BuilderPtr.start wordBit
      omega
    · rintro ⟨-, word⟩
      unfold BuilderPtr.start wordBit at word
      omega
  refine ⟨writes.unlimited built.unlimited, setListed_ceiling built.ceiling run, ?_,
    built.writes.trans writes fun s i _ => within s i, fun g member => ?_, fun g member => ?_,
    fun g member c scalar i hi => ?_,
    fun g member text => ?_, fun i hi free => ?_, fun k hk free => ?_⟩
  · have before := built.few
    have added := writeListBody_nsegs_le (withSlot_ok set).2
    rw [List.countP_append, List.countP_singleton, if_pos (by simpa using isText)]
    omega
  · rcases List.mem_append.mp member with old | new
    · exact built.takes g old
    · exact List.mem_singleton.mp new ▸ ((setListed_ok_iff built.unlimited).mp ⟨b', run⟩).1
  · rcases List.mem_append.mp member with old | new
    · exact built.inside g old
    · exact List.mem_singleton.mp new ▸ inside
  · rcases List.mem_append.mp member with old | new
    · have section' := (ListedField.inside_scalar scalar).mp (built.inside g old)
      have place := hi
      rw [ListedField.area_scalar scalar] at place
      rw [same ((mem_bitRun.mp place).2.trans_le section')]
      exact built.scalars g old c scalar i hi
    · rw [List.mem_singleton.mp new, isText] at scalar
      cases scalar
  · rcases List.mem_append.mp member with old | new
    · obtain ⟨view, given, hosts⟩ := built.texts g old text
      refine ⟨view, given, hosts.later writes inUse within fun i word touches => ?_⟩
      have ne := off_ne_of_disjoint text isText (apart g old)
      obtain ⟨-, slot⟩ := touches
      simp only [BuilderPtr.slot] at word
      omega
    · obtain rfl := List.mem_singleton.mp new
      obtain ⟨used, written⟩ := withSlot_ok set
      have slotUsed : b.Used (w.slot g.off).seg (w.slot g.off).word := used
      have inLimit := (built.ceiling.writeListBody written).inLimit writes.wf
      obtain ⟨place, hosts⟩ := writeTextAt_hosts wf inLimit slotUsed written
      exact ⟨view, given, place, hosts.earlier fun _ _ => built.writes.used⟩
  · rw [same hi]
    exact built.clear i hi fun g member => free g (List.mem_append_left _ member)
  · have used : b.Used w.body.seg (w.slot k).word := built.writes.used (by
      unfold Used BuilderPtr.slot
      dsimp only
      omega)
    rw [writes.wordAt_eq used fun i word touches => by
      have ne := free f (by simp) isText
      obtain ⟨-, slot⟩ := touches
      simp only [BuilderPtr.slot] at word
      omega]
    exact built.nulls k hk fun g member => free g (List.mem_append_left _ member)

/-- One more field in its section, apart from the others. -/
theorem Building.step (built : Building host w b₀ done b) (inUse : w.InUse b₀)
    (inside : f.Inside w.dwords w.pwords)
    (apart : ∀ g ∈ done, Disjoint (g.area w.dwords) (f.area w.dwords))
    (run : setListed host w.dwords w.body f b = .ok () b') :
    Building host w b₀ (done ++ [f]) b' := by
  cases scalar : f.kind.accessor with
  | some a => exact built.scalar inUse scalar inside apart run
  | none =>
      have text : f.kind = .text := by
        cases kind : f.kind <;> rw [kind] at scalar <;> first | rfl | cases scalar
      exact built.text inUse text inside apart run

/-- No two of the fields overlap. -/
def Apart (dwords : Nat) (fields : List ListedField) : Prop :=
  fields.Pairwise fun f g => Disjoint (f.area dwords) (g.area dwords)

/-- The loop keeps the invariant as long as the fields lie in their sections and do not
overlap. -/
theorem building_of_run (start : Building host w b₀ [] b₀) (inUse : w.InUse b₀)
    (items : List JanetValue) (run : setFields host w.dwords w.body 0 items b₀ = .ok () b)
    (inside : ∀ f ∈ listedFields host items, f.Inside w.dwords w.pwords)
    (apart : Apart w.dwords (listedFields host items)) :
    Building host w b₀ (listedFields host items) b := by
  induction items using List.reverseRecOn generalizing b with
  | nil =>
      cases run
      exact start
  | append_singleton items item ih =>
      obtain ⟨b₁, f, before, read, set⟩ := setFields_concat.mp run
      rw [listedFields_append, listedFields_singleton read] at inside apart ⊢
      have pairs := List.pairwise_append.mp apart
      have built := ih before (fun g member => inside g (List.mem_append_left _ member)) pairs.1
      exact built.step inUse (inside f (by simp)) (fun g member => pairs.2.2 g member f (by simp)) set

/-- There are no more texts than pointers. -/
theorem countP_text_le {fields : List ListedField}
    (inside : ∀ f ∈ fields, f.Inside dwords pwords) (apart : Apart dwords fields) :
    fields.countP (·.kind = .text) ≤ pwords := by
  rw [List.countP_eq_length_filter, ← List.length_map ListedField.off]
  have distinct : ((fields.filter (·.kind = .text)).map ListedField.off).Nodup := by
    refine List.pairwise_map.mpr ((apart.filter _).imp_of_mem fun {f g} left right disjoint => ?_)
    exact off_ne_of_disjoint (by simpa using List.of_mem_filter left)
      (by simpa using List.of_mem_filter right) disjoint
  have within : (fields.filter (·.kind = .text)).map ListedField.off ⊆ List.range pwords := by
    intro k member
    obtain ⟨f, filtered, rfl⟩ := List.mem_map.mp member
    have lies := inside f (List.mem_of_mem_filter filtered)
    have text : f.kind = .text := by simpa using List.of_mem_filter filtered
    unfold ListedField.Inside at lies
    rw [text] at lies
    exact List.mem_range.mpr lies
  simpa using (distinct.subperm within).length_le

end

end Janet

end CapnpJanet
