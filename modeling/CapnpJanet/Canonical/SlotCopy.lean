import CapnpJanet.Builder.Links
import CapnpJanet.Builder.Session
import CapnpJanet.Canonical.Render
import CapnpJanet.Value.Copy
import CapnpJanet.Value.Reads

/-!
# Copies into a slot of any builder

`capnp_builder_copy_ptr` puts the copy behind the words of the last segment and
writes a near pointer into the slot.  A near pointer does not leave its segment, so
a slot of an earlier segment gets a pointer to words of that segment.  A slot of the
last segment reads as a value equal to the source; any other slot does so only if
the copy has no words of its own.
-/

namespace CapnpJanet

open ByteMemory Outcome

/-! ## Handles that are read from a message -/

/-- The handles that `capnp_root`, `capnp_getp` and `capnp_list_getp` return. -/
inductive Message.Handle (m : Message) : Ptr → Prop
  | root (out : Ptr) (left : Nat) (ok : (m.root out left).rc = .ok) :
      Handle m (m.root out left).out
  | getp {s : Ptr} (base : Handle m s) (k : Nat) (out : Ptr) (left : Nat)
      (ok : (m.getp s k out left).rc = .ok) : Handle m (m.getp s k out left).out
  | listGetp {list : Ptr} (base : Handle m list) (i : Nat) (out : Ptr) (left : Nat)
      (ok : (m.listGetp list i out left).rc = .ok) : Handle m (m.listGetp list i out left).out

theorem Message.Handle.sound {m : Message} {p : Ptr} (handle : m.Handle p) : p.Sound := by
  induction handle with
  | root out left ok =>
      obtain ⟨cost, -, named, -⟩ := (m.root_agrees out left).of_ok ok
      unfold rootTarget at named
      split at named
      · cases named
      · exact slotTarget_sound named
  | @getp s base k out left ok ih =>
      by_cases isStruct : s.kind = .struct
      · obtain ⟨cost, -, named, -⟩ := (getp_agrees isStruct).of_ok ok
        exact fieldTarget_sound named
      · rw [Message.getp, if_pos isStruct] at ok
        cases ok
  | @listGetp list base i out left ok ih =>
      unfold Message.listGetp at ok ⊢
      split at ok
      · cases ok
      next isList =>
      split at ok
      · cases ok
      next inside =>
      rw [if_neg isList, if_neg inside]
      cases esize : list.esize <;> rw [esize] at ok
      case ptr =>
        obtain ⟨cost, -, named, -⟩ := (m.resolvePtr_agrees _ _ _ out left).of_ok ok
        exact slotTarget_sound named
      case composite => exact sound_elemPtr ih i
      all_goals cases ok

/-! ## Trees without words -/

namespace Tree

variable {mem mem' : Memory} {t : Tree} {w slot pos pos' seg : Nat}

/-- A tree without words has no rows with pointers. -/
theorem no_slots {shape : Shape} {n nd np i k : Nat} {data : Nat → Nat → Nat}
    {child : Nat → Nat → Tree} (empty : (block shape n nd np data child).size = 0) (hi : i < n)
    (hk : k < np) : False := by
  rw [size_block] at empty
  have inside := row_le hi (nd + np)
  omega

/-- Nothing of a tree without words has a place. -/
theorem Laid.of_empty (laid : Laid mem t w slot pos) (proper : t.Proper) (empty : t.size = 0) :
    Laid mem' t w slot pos' := by
  cases t with
  | null => exact laid
  | packed esize count byte =>
      rw [size] at empty
      refine ⟨?_, fun b hb => by omega⟩
      have pointer := laid.1
      rwa [if_pos empty] at pointer ⊢
  | block shape n nd np data child =>
      have none := empty
      rw [size_block] at none
      refine ⟨?_, fun composite => ?_, fun i hi => ⟨fun j hj => ?_, fun k hk => ?_⟩⟩
      · have pointer := laid.1
        cases shape with
        | struct =>
            have one : n = 1 := proper.1.1
            subst one
            have noWords : nd = 0 ∧ np = 0 := by omega
            unfold Shape.pointer at pointer ⊢
            rwa [if_pos noWords] at pointer ⊢
        | pointers =>
            have one : np = 1 := proper.1.2.2
            subst one
            have noRows : n = 0 := by
              by_contra some
              have inside := row_le (Nat.pos_of_ne_zero some) (nd + 1)
              omega
            unfold Shape.pointer at pointer ⊢
            rwa [if_pos noRows] at pointer ⊢
        | composite =>
            rw [Shape.header] at none
            omega
      · subst composite
        rw [Shape.header] at none
        omega
      · have inside := row_le hi (nd + np)
        omega
      · exact (no_slots empty hi hk).elim

theorem near_of_empty (empty : t.size = 0) : t.Near slot pos := by
  cases t with
  | null => trivial
  | packed esize count byte => exact fun some => absurd empty some
  | block shape n nd np data child =>
      refine ⟨fun some => ?_, fun i hi k hk => (no_slots empty hi hk).elim⟩
      rw [size_block] at empty
      omega

end Tree

/-! ## What a copy is for -/

namespace Builder

/-- What a message reads after a copy into a slot: at the slot a value equal to the
source, and every other word as it was in use before. -/
structure CopyReads (m : Message) (src : Ptr) (slot : BPtr) (b : Builder) (m' : Message) : Prop where
  value : ∃ copy cost, m'.slotTarget m'.depthLimit slot.seg slot.word = some (copy, cost) ∧
    Message.ValueEq m m' src copy
  kept : ∀ s w, b.Used s w → ¬(s = slot.seg ∧ w = slot.word) →
    m'.InSegment s w ∧ m'.readWord s w = b.wordAt s w

/-- The builder after a copy is serialized, and opened as a message with its
segments, which reads the copy. -/
def Preserves (m : Message) (src : Ptr) (slot : BPtr) (b b' : Builder) : Prop :=
  ∃ flat m', b'.serialize = .ok flat ∧ messageFromFlat flat = .ok m' ∧ m'.BuiltFrom b' ∧
    CopyReads m src slot b m'

/-- A tree can be copied into a slot: its words, if it has some, come into the
slot's own segment, every offset fits its field, and the frame has room for the
segments. -/
structure CopyFits (b : Builder) (slot : BPtr) (t : Tree) : Prop where
  here : t.size ≠ 0 → slot.seg = b.last
  near : t.Near slot.word (b.seg b.last).words
  few : b.nsegs ≤ maxSegments
  small : ∀ s < b.nsegs, (b.seg s).words + (if s = b.last then t.size else 0) < 2 ^ 32

variable {b b' : Builder} {m m' : Message} {src : Ptr} {slot : BPtr} {t : Tree} {left rest : Nat}

/-- A copy in the segment of its slot is stored in what is read from the builder. -/
theorem Copied.stored (copied : Copied slot.seg slot.word t b b') (inUse : b.Used slot.seg slot.word)
    (built : m'.BuiltFrom b') (proper : t.Proper) (fits : CopyFits b slot t) :
    ∃ pos, t.Stored m' slot.seg slot.word pos := by
  have wf' : b'.Wf := copied.writes.wf
  have inUse' := copied.writes.used inUse
  obtain ⟨segLt, slotIn⟩ := built.inSegment wf' inUse'
  have laid := copied.laid
  rw [← built.readWord_eq wf' inUse'] at laid
  by_cases empty : t.size = 0
  · exact ⟨slot.word + 1, segLt, slotIn, by rw [empty]; exact slotIn, laid.of_empty proper empty,
      proper, Tree.near_of_empty empty⟩
  · have here := fits.here empty
    have words : (m'.seg slot.seg).words = (b.seg b.last).words + t.size := by
      rw [← built.words _ segLt, here]
      exact copied.adds.last_words
    rw [← here] at laid words
    refine ⟨(b.seg slot.seg).words, segLt, slotIn, words.ge, ?_, proper, here ▸ fits.near⟩
    exact laid.congr fun a low high => (built.bytes _ segLt a (by omega)).symm

/-- A successful copy into a slot that fits: the builder is opened, and the slot
holds the tree of the source. -/
theorem copyPtr_stored (wf : b.Wf) (started : (b.seg 0).words ≠ 0)
    (inUse : b.Used slot.seg slot.word) (proper : (m.tree Message.copyRoom src).Proper)
    (fits : CopyFits b slot (m.tree Message.copyRoom src))
    (run : copyPtr slot m src left b = .ok rest b') :
    ∃ flat m' pos, b'.serialize = .ok flat ∧ messageFromFlat flat = .ok m' ∧ m'.BuiltFrom b' ∧
      m'.depthLimit ≠ 0 ∧ m.Readable Message.copyRoom src ∧
      Writes (slotBytes slot.seg slot.word) b b' ∧
      (m.tree Message.copyRoom src).Stored m' slot.seg slot.word pos := by
  unfold copyPtr at run
  cases copy : m.copyPtrToWord Message.copyRoom slot.seg slot.word src ⟨b, left⟩ with
  | error rc st =>
      rw [copy] at run
      cases run
  | ok _ st =>
      rw [copy] at run
      cases run
      obtain ⟨readable, -, copied⟩ := Message.copied_of_ok wf inUse copy
      dsimp only at copied
      have nsegs : st.b.nsegs = b.nsegs := copied.adds.nsegs_eq
      have some : ¬(st.b.nsegs = 0 ∨ (st.b.seg 0).words = 0) := by
        have grown := copied.writes.words_le 0
        have nonempty := copied.writes.wf.nonempty
        omega
      have done : st.b.serialize = .ok st.b.flatBytes := if_neg some
      obtain ⟨m', parsed, built⟩ := (serialize_reads copied.writes.wf done).mpr
        ⟨nsegs.trans_le fits.few, fun s hs => by
          rw [copied.adds.words_eq]
          exact fits.small s (nsegs ▸ hs)⟩
      have limit : m'.depthLimit ≠ 0 := by
        obtain ⟨-, rfl⟩ := Frame.parseFlat_eq_ok_iff.mp parsed
        exact (by decide : defaultDepthLimit ≠ 0)
      obtain ⟨pos, stored⟩ := copied.stored inUse built proper fits
      exact ⟨_, m', pos, done, parsed, built, limit, readable, copied.writes, stored⟩

/-- A copy that fits preserves its source and everything else. -/
theorem copyPtr_reads (wf : b.Wf) (started : (b.seg 0).words ≠ 0)
    (inUse : b.Used slot.seg slot.word) (sound : src.Sound)
    (fits : CopyFits b slot (m.tree Message.copyRoom src))
    (run : copyPtr slot m src left b = .ok rest b') : Preserves m src slot b b' := by
  obtain ⟨flat, m', pos, done, parsed, built, limit, readable, writes, stored⟩ :=
    copyPtr_stored wf started inUse (Message.tree_proper sound _) fits run
  obtain ⟨cost, found⟩ : ∃ cost, m'.slotTarget m'.depthLimit slot.seg slot.word =
      some ((m.tree Message.copyRoom src).handle slot.seg slot.word pos, cost) :=
    ⟨_, stored.slotTarget limit⟩
  refine ⟨flat, m', done, parsed, built, ⟨_, cost, found, ?_⟩, fun s w used other => ⟨?_, ?_⟩⟩
  · exact Message.Twins.valueEq (.inr ⟨Message.copyRoom, slot.word, pos, readable, stored, rfl⟩) limit
  · exact built.inSegment writes.wf (writes.used used)
  · rw [built.readWord_eq writes.wf (writes.used used)]
    exact writes.wordAt_eq used fun i place named => other ⟨named.1, place.symm.trans named.2⟩

end Builder

/-! ## Slots of earlier segments -/

/-- A message whose root is a struct of one data word. -/
def Message.oneWord (v : Nat) : Message where
  nsegs := 1
  seg _ := ⟨storeWord (storeWord (fun _ => 0) 0 (wpMakeStruct 0 1 0)) 1 v, 2, by decide⟩
  depthLimit := defaultDepthLimit

namespace Message

variable {v : Nat}

/-- Its root. -/
theorem oneWord_root (out : Ptr) :
    (oneWord v).root out 2 = ⟨.ok, structAt 0 1 1 0, 0⟩ := by
  have pointer : (oneWord v).readWord 0 0 = wpMakeStruct 0 1 0 := by
    change word (storeWord (storeWord _ _ _) _ _) 0 = _
    rw [word_storeWord_of_ne (by decide), word_storeWord_self]
    decide
  unfold root
  rw [if_neg (show ¬(oneWord v).nsegs = 0 from Nat.one_ne_zero)]
  have limit : (oneWord v).depthLimit ≠ 0 := (by decide : defaultDepthLimit ≠ 0)
  have fits : OffsetFits 0 := by constructor <;> decide
  exact resolvePtr_eq (slotTarget_struct limit Nat.one_pos pointer (by decide) fits (by decide)
    (by decide) rfl Nat.two_pos le_rfl) le_rfl

theorem oneWord_handle (v : Nat) : (oneWord v).Handle (structAt 0 1 1 0) := by
  have handle := Handle.root (m := oneWord v) Ptr.zero 2 (by rw [oneWord_root])
  rwa [oneWord_root] at handle

/-- The data word of a struct that has one. -/
theorem datum_word (m : Message) (seg body : Nat) :
    m.datum (structAt seg body 1 0) 0 0 = m.readWord seg body := by
  have form : (structAt seg body 1 0).form = .block .struct := rfl
  rw [datum, form]
  refine (if_pos ⟨rfl, Nat.one_pos⟩).trans ?_
  rw [Tree.getU64_structAt Nat.one_pos]
  rfl

theorem oneWord_datum (small : v < 2 ^ 64) : (oneWord v).datum (structAt 0 1 1 0) 0 0 = v := by
  rw [datum_word]
  exact (word_storeWord_self _ 1 v).trans (Nat.mod_eq_of_lt small)

/-- A copy of the root is one word long. -/
theorem oneWord_tree (some : v ≠ 0) (small : v < 2 ^ 64) : ∃ data child,
    (oneWord v).tree copyRoom (structAt 0 1 1 0) = .block .struct 1 1 0 data child := by
  have form : (structAt 0 1 1 0).form = .block .struct := rfl
  have datum := oneWord_datum small
  have words : (oneWord v).dataWords (structAt 0 1 1 0) = 1 := by
    have within : (oneWord v).dataWords (structAt 0 1 1 0) ≤ 1 := dataWords_le
    have positive : ¬(oneWord v).dataWords (structAt 0 1 1 0) ≤ 0 := fun none =>
      some (datum ▸ dataWords_le_iff.mp none 0 0 le_rfl)
    omega
  have links : (oneWord v).linkWords (structAt 0 1 1 0) = 0 :=
    Nat.le_zero.mp (linkWords_le (by rw [form]; decide))
  have rows : (structAt 0 1 1 0).rows = 1 := rfl
  exact ⟨_, _, by rw [copyRoom, tree_block form, words, links, rows]⟩

/-- The root is copied without reading another pointer. -/
theorem oneWord_readable (v : Nat) : (oneWord v).Readable copyRoom (structAt 0 1 1 0) ∧
    (oneWord v).walkCost copyRoom (structAt 0 1 1 0) = 0 := by
  have form : (structAt 0 1 1 0).form = .block .struct := rfl
  have rows : (structAt 0 1 1 0).rows = 1 := rfl
  have links : (oneWord v).linkWords (structAt 0 1 1 0) = 0 :=
    Nat.le_zero.mp (linkWords_le (by rw [form]; decide))
  refine ⟨⟨by rw [form]; decide, fun i hi k hk => ?_⟩, ?_⟩
  · rw [links] at hk
    exact absurd hk (Nat.not_lt_zero k)
  · rw [copyRoom, walkCost, rows, links]
    rfl

/-- A near pointer to a struct of one data word names a word of its own segment. -/
theorem slotTarget_word {m : Message} {depth seg word cost : Nat} {off : Int} {p : Ptr}
    (reads : m.readWord seg word = wpMakeStruct off 1 0)
    (found : m.slotTarget depth seg word = some (p, cost)) :
    p = structAt seg (sizeT (word + 1 + wpOffset (wpMakeStruct off 1 0))) 1 0 ∧
      m.InSegment seg (sizeT (word + 1 + wpOffset (wpMakeStruct off 1 0))) := by
  unfold slotTarget at found
  split at found
  · cases found
  rw [reads] at found
  obtain ⟨⟨named, price⟩, target, same⟩ := Option.map_eq_some_iff.mp found
  obtain rfl : named = p := (Prod.mk.inj same).1
  cases depth with
  | zero => cases target
  | succ depth =>
      have notNull : wpMakeStruct off 1 0 ≠ 0 :=
        Tree.makeStruct_ne_zero (by decide) (by decide) (by decide)
      rw [target_near notNull (by rw [wpKind_makeStruct]; decide), wpKind_makeStruct] at target
      dsimp only at target
      have out := structTarget_out target
      rw [structPtr_make (by decide) (by decide)] at out
      refine ⟨(Prod.mk.inj out).1, ?_⟩
      by_contra outside
      have some : wpStructDwords (wpMakeStruct off 1 0) ≠ 0 := by
        rw [wpStructDwords_makeStruct]
        decide
      unfold structTarget at target
      dsimp only at target
      rw [if_pos ⟨.inl some, .inl outside⟩] at target
      cases target

end Message

namespace Builder

variable {b b' : Builder} {slot : BPtr} {v left rest : Nat}

/-- The pointer that a copy of one data word puts into a slot. -/
def wordPointer (b : Builder) (slot : BPtr) : Nat :=
  wpMakeStruct (((b.seg b.last).words : Int) - slot.word - 1) 1 0

/-- The word that this pointer names in the segment of the slot. -/
def strayWord (b : Builder) (slot : BPtr) : Nat :=
  let body := sizeT (slot.word + 1 + wpOffset (b.wordPointer slot))
  if body = slot.word then b.wordPointer slot else b.wordAt slot.seg body

/-- One data word can be copied into every slot. -/
theorem copyPtr_word (wf : b.Wf) (inUse : b.Used slot.seg slot.word) : ∃ rest b',
    copyPtr slot (Message.oneWord v) (Message.structAt 0 1 1 0) 0 b = .ok rest b' := by
  obtain ⟨readable, free⟩ := Message.oneWord_readable v
  obtain ⟨st, run⟩ := Message.exists_copied wf inUse readable (show _ ≤ (CopyState.mk b 0).left from free.le)
  refine ⟨st.left, st.b, ?_⟩
  unfold copyPtr
  rw [run]

/-- A slot of an earlier segment reads, after a copy of one data word, as a word that
has been in its own segment, if it reads as a word at all. -/
theorem eq_strayWord (wf : b.Wf) (inUse : b.Used slot.seg slot.word) (elsewhere : slot.seg ≠ b.last)
    (some : v ≠ 0) (small : v < 2 ^ 64)
    (run : copyPtr slot (Message.oneWord v) (Message.structAt 0 1 1 0) left b = .ok rest b')
    (preserves : Preserves (Message.oneWord v) (Message.structAt 0 1 1 0) slot b b') :
    v = b.strayWord slot := by
  obtain ⟨flat, m', done, parsed, built, ⟨copy, cost, found, value⟩, kept⟩ := preserves
  unfold copyPtr at run
  cases copied : (Message.oneWord v).copyPtrToWord Message.copyRoom slot.seg slot.word
    (Message.structAt 0 1 1 0) ⟨b, left⟩ with
  | error rc st =>
      rw [copied] at run
      cases run
  | ok _ st =>
      rw [copied] at run
      cases run
      obtain ⟨-, -, copied⟩ := Message.copied_of_ok wf inUse copied
      obtain ⟨data, child, tree⟩ := Message.oneWord_tree some small
      rw [tree] at copied
      dsimp only at copied
      have wf' := copied.writes.wf
      have pointer : m'.readWord slot.seg slot.word = b.wordPointer slot := by
        rw [built.readWord_eq wf' (copied.writes.used inUse)]
        exact copied.laid.1
      -- The pointer is near, so what it names lies in the segment of the slot.
      obtain ⟨rfl, inside⟩ := Message.slotTarget_word pointer found
      have read : v = m'.readWord slot.seg
          (sizeT (slot.word + 1 + wpOffset (b.wordPointer slot))) := by
        have data := value.here.data 0 0
        dsimp only at data
        rw [Message.oneWord_datum small, Message.datum_word] at data
        exact data
      unfold strayWord
      dsimp only
      split
      · next here => rw [read, here, pointer]
      · next other =>
        have used : b.Used slot.seg (sizeT (slot.word + 1 + wpOffset (b.wordPointer slot))) := by
          have words := copied.adds.words_eq slot.seg
          rw [if_neg elsewhere, Nat.add_zero, built.words _ inside.1] at words
          exact inside.2.trans_eq words
        rw [read]
        exact (kept _ _ used fun same => other same.2).2

/-- A copy of one data word fails to reach a slot of an earlier segment. -/
theorem copyPtr_word_fails (wf : b.Wf) (inUse : b.Used slot.seg slot.word)
    (elsewhere : slot.seg ≠ b.last) (some : v ≠ 0) (small : v < 2 ^ 64)
    (other : v ≠ b.strayWord slot) :
    ∃ rest b', copyPtr slot (Message.oneWord v) (Message.structAt 0 1 1 0) 0 b = .ok rest b' ∧
      ¬Preserves (Message.oneWord v) (Message.structAt 0 1 1 0) slot b b' := by
  obtain ⟨rest, b', run⟩ := copyPtr_word wf inUse
  exact ⟨rest, b', run, fun preserves =>
    other (eq_strayWord wf inUse elsewhere some small run preserves)⟩

end Builder

/-! ## Every builder of a session -/

namespace Arena

/-- The invariant of a session, with a first word in use as soon as there are
handles. -/
structure Ready (a : Arena) : Prop extends a.Inv where
  started : a.held.slots = [] ∧ a.held.bodies = [] ∨ (a.b.seg 0).words ≠ 0

/-- Without handles, only the root can give one out. -/
theorem Ready.step {a : Arena} (ready : a.Ready) (next : ArenaCall) : (a.step next).Ready := by
  obtain ⟨inv', grown, -⟩ := ready.toInv.step next
  refine ⟨inv', ?_⟩
  rcases ready.started with ⟨slots, bodies⟩ | some
  · cases next with
    | setMaxSegWords maxWords => exact .inl ⟨slots, bodies⟩
    | build op =>
        by_cases root : op = .root
        · subst root
          unfold Arena.step at inv' ⊢
          dsimp only at inv' ⊢
          cases run : Builder.call a.held .root a.b with
          | error rc b => exact .inl ⟨slots, bodies⟩
          | ok held b =>
              rw [run] at inv'
              obtain ⟨ptr, b₁, first, same⟩ := bind_eq_ok.mp run
              cases same
              have used := inv'.used ptr (List.mem_append_right _ (List.mem_singleton_self ptr))
              rw [Builder.root_eq_ok first] at used
              exact .inr (Nat.pos_iff_ne_zero.mp used)
        · refine .inl ?_
          unfold Arena.step
          obtain ⟨b, ⟨_, _⟩⟩ := a
          subst slots bodies
          cases op <;> first | exact absurd rfl root | exact ⟨rfl, rfl⟩
  · have first := grown 0
    exact .inr (by omega)

theorem ready_after (firstWords : Nat) (session : List ArenaCall) :
    (after firstWords session).Ready :=
  (Run.reached_any session).invariant ⟨inv_init firstWords, .inl ⟨rfl, rfl⟩⟩
    fun _ next ready _ => ready.step next

/-- The first word is in use when there is a slot. -/
theorem Ready.first_used {a : Arena} (ready : a.Ready) {slot : BPtr} (held : slot ∈ a.held.slots) :
    (a.b.seg 0).words ≠ 0 := by
  rcases ready.started with ⟨slots, -⟩ | some
  · rw [slots] at held
    exact absurd held List.not_mem_nil
  · exact some

open Builder

/-- What a copy preserves.  After every session and for every slot held, a copy that
fits the slot reads as a value equal to its source, and every other word in use as
before.  Into a slot of an earlier segment no data word can be copied, but for the one
that happens to be there. -/
theorem copyPtr_preserves (firstWords : Nat) (session : List ArenaCall) {slot : BPtr}
    (held : slot ∈ (after firstWords session).held.slots) :
    (∀ m src left rest b', Message.Handle m src →
      copyPtr slot m src left (after firstWords session).b = .ok rest b' →
        CopyFits (after firstWords session).b slot (m.tree Message.copyRoom src) →
          Preserves m src slot (after firstWords session).b b') ∧
      (slot.seg ≠ (after firstWords session).b.last →
        ∀ v, v ≠ 0 → v < 2 ^ 64 → v ≠ (after firstWords session).b.strayWord slot →
          ∃ rest b', (Message.oneWord v).Handle (Message.structAt 0 1 1 0) ∧
            copyPtr slot (Message.oneWord v) (Message.structAt 0 1 1 0) 0
              (after firstWords session).b = .ok rest b' ∧
            ¬Preserves (Message.oneWord v) (Message.structAt 0 1 1 0) slot
              (after firstWords session).b b') := by
  have ready := ready_after firstWords session
  generalize after firstWords session = a at ready held ⊢
  have inUse := ready.used slot held
  constructor
  · intro m src left rest b' handle run fits
    exact copyPtr_reads ready.wf (ready.first_used held) inUse handle.sound fits run
  · intro elsewhere v some small other
    obtain ⟨rest, b', run, fails⟩ := copyPtr_word_fails ready.wf inUse elsewhere some small other
    exact ⟨rest, b', Message.oneWord_handle v, run, fails⟩

/-- A root with two pointers fills the first segment, so the text of the first pointer
takes a second one. -/
def twoSegments : List ArenaCall :=
  [.build .root, .build (.struct 0 0 2), .build (.setText 0 0 0 [120]), .build (.slot 0 0 0),
    .build (.slot 0 0 1)]

/-- A root in a segment of its own, and its struct in another. -/
def ownSegment : List ArenaCall := [.build .root, .build (.struct 0 0 1), .build (.slot 0 0 0)]

theorem held_twoSegments : ⟨0, 2⟩ ∈ (after 3 twoSegments).held.slots := by decide +kernel

theorem held_ownSegment : ⟨1, 0⟩ ∈ (after 1 ownSegment).held.slots := by decide +kernel

theorem fits_ownSegment : CopyFits (after 1 ownSegment).b ⟨1, 0⟩
    ((Message.oneWord 7).tree Message.copyRoom (Message.structAt 0 1 1 0)) := by
  obtain ⟨data, child, tree⟩ := Message.oneWord_tree (v := 7) (by decide) (by decide)
  have size : (Tree.block .struct 1 1 0 data child).size = 1 := rfl
  rw [tree]
  have last : (after 1 ownSegment).b.last = 1 ∧ (after 1 ownSegment).b.nsegs = 2 ∧
      ((after 1 ownSegment).b.seg 0).words = 1 ∧ ((after 1 ownSegment).b.seg 1).words = 2 := by
    decide +kernel
  obtain ⟨last, nsegs, first, second⟩ := last
  refine ⟨fun _ => last.symm, ?_, by rw [nsegs]; decide, fun s hs => ?_⟩
  · rw [last, second]
    refine ⟨fun _ => ?_, fun i hi k hk => absurd hk (Nat.not_lt_zero k)⟩
    constructor <;> decide
  · rw [nsegs] at hs
    rw [size, last]
    rcases (by omega : s = 0 ∨ s = 1) with rfl | rfl
    · rw [first]
      decide
    · rw [second]
      decide

/-- The data word 7 is copied into the slot of the last segment, and the data word 1 is not
copied into that of the first. -/
theorem copyPtr_preserves_word :
    (∃ rest b', copyPtr ⟨1, 0⟩ (Message.oneWord 7) (Message.structAt 0 1 1 0) 0
        (after 1 ownSegment).b = .ok rest b' ∧
      Preserves (Message.oneWord 7) (Message.structAt 0 1 1 0) ⟨1, 0⟩ (after 1 ownSegment).b b') ∧
    ∃ rest b', (Message.oneWord 1).Handle (Message.structAt 0 1 1 0) ∧
      copyPtr ⟨0, 2⟩ (Message.oneWord 1) (Message.structAt 0 1 1 0) 0 (after 3 twoSegments).b =
        .ok rest b' ∧
      ¬Preserves (Message.oneWord 1) (Message.structAt 0 1 1 0) ⟨0, 2⟩ (after 3 twoSegments).b b' := by
  have inUse : (after 1 ownSegment).b.Used 1 0 := (inv_after 1 ownSegment).used _ held_ownSegment
  constructor
  · obtain ⟨rest, b', run⟩ : ∃ rest b', copyPtr ⟨1, 0⟩ (Message.oneWord 7)
        (Message.structAt 0 1 1 0) 0 (after 1 ownSegment).b = .ok rest b' :=
      copyPtr_word (inv_after 1 ownSegment).wf inUse
    exact ⟨rest, b', run, (copyPtr_preserves 1 ownSegment held_ownSegment).1 _ _ 0 rest b'
      (Message.oneWord_handle 7) run fits_ownSegment⟩
  · exact (copyPtr_preserves 3 twoSegments held_twoSegments).2 (by decide +kernel) 1 (by decide)
      (by decide) (by decide +kernel)

/-- The data word 1, copied into the second pointer of the root, is read as another. -/
theorem copyPtr_misplaces :
    ¬∀ (firstWords : Nat) (session : List ArenaCall) (slot : BPtr) (m : Message) (src : Ptr)
      (left rest : Nat) (b' : Builder), slot ∈ (after firstWords session).held.slots →
        m.Handle src → copyPtr slot m src left (after firstWords session).b = .ok rest b' →
          Preserves m src slot (after firstWords session).b b' := by
  intro preserves
  have inv := inv_after 3 twoSegments
  have inUse : (after 3 twoSegments).b.Used (⟨0, 2⟩ : BPtr).seg (⟨0, 2⟩ : BPtr).word :=
    inv.used _ held_twoSegments
  obtain ⟨rest, b', run, fails⟩ := copyPtr_word_fails (v := 1) inv.wf inUse
    (by decide +kernel) (by decide) (by decide) (by decide +kernel)
  exact fails (preserves 3 twoSegments ⟨0, 2⟩ _ _ 0 rest b' held_twoSegments
    (Message.oneWord_handle 1) run)

end Arena

end CapnpJanet
