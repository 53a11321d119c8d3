import CapnpJanet.Builder.Links
import CapnpJanet.Builder.Program
import CapnpJanet.Builder.Session
import CapnpJanet.Codegen.Storage

/-!
# Struct handles on both sides

A finished builder is opened as a message with the builder's segments.  The
struct handles that the module hands out on the building side start with a zero
data section, and a pointer to such a struct is resolved to a handle that views
it.
-/

namespace CapnpJanet

open ByteMemory Builder Outcome Codegen

namespace Janet

/-! ## Finished builders -/

/-- The message that is opened when a builder has been finished. -/
def Opens (b : Builder) (m : Message) : Prop :=
  ∃ flat, cfunFinishBuilder true b = .ok flat ∧ cfunMessageFromBuffer flat = .ok m

/-- A builder is opened as a message that passes a check. -/
def opensWith (b : Builder) (check : Message → Bool) : Bool :=
  match cfunFinishBuilder true b with
  | .error _ => false
  | .ok flat =>
      match cfunMessageFromBuffer flat with
      | .error _ => false
      | .ok m => check m

variable {b b' : Builder} {m : Message}

theorem opensWith_iff {check : Message → Bool} :
    opensWith b check = true ↔ ∃ m, Opens b m ∧ check m = true := by
  unfold opensWith Opens
  cases finished : cfunFinishBuilder true b with
  | error panic => simp
  | ok flat =>
      cases opened : cfunMessageFromBuffer flat with
      | error panic => simp [opened]
      | ok m => simp [opened]

theorem cfunFinishBuilder_ok {flat : List UInt8} (finished : cfunFinishBuilder true b = .ok flat) :
    b.serialize = .ok flat ∧ flat.length < 2 ^ 31 := by
  unfold cfunFinishBuilder at finished
  rw [if_neg (by decide)] at finished
  cases run : b.serialize with
  | error rc =>
      rw [run] at finished
      cases finished
  | ok bytes =>
      rw [run] at finished
      dsimp only at finished
      split at finished
      · cases finished
      · next fits =>
        cases finished
        exact ⟨rfl, by omega⟩

theorem cfunMessageFromBuffer_ok {flat : List UInt8} (opened : cfunMessageFromBuffer flat = .ok m) :
    messageFromFlat flat = .ok m := by
  unfold cfunMessageFromBuffer at opened
  cases run : messageFromFlat flat with
  | error rc =>
      rw [run] at opened
      cases opened
  | ok m' =>
      rw [run] at opened
      cases opened
      rfl

theorem words_le_wordsBefore (size : Nat → Nat) {n i : Nat} (hi : i < n) :
    size i ≤ Frame.wordsBefore size n := by
  induction n with
  | zero => exact absurd hi (Nat.not_lt_zero i)
  | succ n ih =>
      rw [Frame.wordsBefore]
      by_cases last : i = n
      · subst last
        exact Nat.le_add_left _ _
      · exact (ih (by omega)).trans (Nat.le_add_right _ _)

/-- What the size limit of a finished builder leaves. -/
theorem Opens.small (opens : Opens b m) :
    b.nsegs < 2 ^ 32 ∧ ∀ s < b.nsegs, (b.seg s).words < 2 ^ 28 := by
  obtain ⟨flat, finished, -⟩ := opens
  obtain ⟨done, short⟩ := cfunFinishBuilder_ok finished
  obtain ⟨-, -, rfl⟩ := serialize_eq done
  rw [length_flatBytes] at short
  have table : 4 * b.nsegs ≤ Frame.tableBytes b.nsegs := by
    unfold Frame.tableBytes
    split <;> omega
  refine ⟨by omega, fun s hs => ?_⟩
  have part := words_le_wordsBefore (fun i => (b.seg i).words) hs
  omega

/-- A message opened from a builder has the builder's segments. -/
theorem Opens.builtFrom (wf : b.Wf) (opens : Opens b m) : m.BuiltFrom b := by
  obtain ⟨few, small⟩ := opens.small
  obtain ⟨flat, finished, opened⟩ := opens
  obtain ⟨done, -⟩ := cfunFinishBuilder_ok finished
  have parsed := cfunMessageFromBuffer_ok opened
  obtain ⟨some, -, same⟩ := serialize_eq done
  have segments : b.nsegs ≤ maxSegments := by
    obtain ⟨accepted, -⟩ := Frame.parseFlat_eq_ok_iff.mp parsed
    have count := accepted.2.2.1
    rwa [same, nsegs_flatBytes some few] at count
  obtain ⟨m', parsed', built⟩ := (serialize_reads wf done).mpr
    ⟨segments, fun s hs => (small s hs).trans (by decide)⟩
  rw [parsed] at parsed'
  cases parsed'
  exact built

theorem Opens.inLimit (wf : b.Wf) (opens : Opens b m) : b.InLimit := by
  intro s
  by_cases inside : s < b.nsegs
  · exact ((opens.small.2 s inside).trans (by decide)).le
  · rw [wf.unused s (not_lt.mp inside)]
    exact Nat.zero_le _

/-- Bits of words in use are the same on both sides. -/
theorem bit_eq_of_builtFrom (wf : b.Wf) (built : m.BuiltFrom b) {s i : Nat}
    (inUse : b.Used s (i / 64)) : bit (m.seg s).data i = bit (b.seg s).data i := by
  have segLt := wf.lt_of_used inUse
  rw [built.nsegs] at segLt
  refine bit_congr (built.bytes s segLt _ ?_).symm rfl
  rw [← built.words s segLt]
  unfold Used at inUse
  omega

theorem Opens.bit_eq (wf : b.Wf) (opens : Opens b m) {s i : Nat} (inUse : b.Used s (i / 64)) :
    bit (m.seg s).data i = bit (b.seg s).data i :=
  bit_eq_of_builtFrom wf (opens.builtFrom wf) inUse

/-! ## New structs -/

/-- The ways in which the module hands out a new struct: the root, a struct in a
pointer slot, and an element of a new struct list. -/
inductive Initializes (b : Builder) (w : BuilderPtr) (b' : Builder) : Prop
  | root (rootInitialized : Bool) (dwords pwords : Nat)
      (run : cfunInitRoot rootInitialized dwords pwords b = .ok w b')
  | struct (parent : BuilderPtr) (index dwords pwords : Nat)
      (run : cfunInitStruct parent index dwords pwords b = .ok w b')
  | element (parent : BuilderPtr) (index count dwords pwords : Nat) (list : BuilderList) (i : Nat)
      (run : cfunInitStructList parent index count dwords pwords b = .ok list b')
      (found : cfunStructListAt list i = .ok w)

/-- A struct whose data section is zero. -/
structure Fresh (w : BuilderPtr) (b : Builder) : Prop where
  wf : b.Wf
  inUse : w.InUse b
  clear : ∀ i < w.dwords * 64, bit (b.seg w.body.seg).data (w.start + i) = false

theorem getWordCount_ok {n count : Nat} {caller : String}
    (run : getWordCount n count caller b = .ok () b') : count < 2 ^ 16 ∧ b = b' := by
  unfold getWordCount at run
  split at run
  · cases run
  · split at run
    · cases run
    · next small =>
      cases run
      exact ⟨by omega, rfl⟩

theorem getPointerIndex_ok {w : BuilderPtr} {index : Nat} {caller : String}
    (run : getPointerIndex w index caller b = .ok () b') : index < w.pwords ∧ b = b' := by
  unfold getPointerIndex at run
  split at run
  · cases run
  · split at run
    · cases run
    · next inside =>
      cases run
      exact ⟨not_le.mp inside, rfl⟩

/-- Bits of zero bytes. -/
theorem bit_eq_false {mem : Memory} {i : Nat} (byte : mem (i / 8) = 0) : bit mem i = false := by
  rw [bit, byte]
  exact Nat.zero_testBit _

/-- A struct that is allocated for a slot is fresh. -/
theorem fresh_of_struct (wf : b.Wf) {slot body : BPtr} {dwords pwords : Nat}
    (dwordsLt : dwords < 2 ^ 16) (pwordsLt : pwords < 2 ^ 16) (inUse : b.Used slot.seg slot.word)
    (run : Builder.struct slot dwords pwords b = .ok body b') : Fresh ⟨body, dwords, pwords⟩ b' := by
  by_cases some : dwords + pwords = 0
  · unfold Builder.struct at run
    rw [if_pos some] at run
    cases run
    have writes := writes_storeW wf inUse (wpMakeStruct (-1) 0 0)
    have used := writes.used inUse
    unfold Used at used
    refine ⟨writes.wf, ⟨dwordsLt, pwordsLt, ?_⟩, fun i hi => ?_⟩
    · dsimp only
      omega
    · dsimp only at hi
      omega
  · obtain ⟨placed, zero⟩ := struct_placed wf inUse some run
    refine ⟨placed.writes.wf, ⟨dwordsLt, pwordsLt, ?_⟩, fun i hi => bit_eq_false ?_⟩
    · have inside := placed.inside
      dsimp only
      omega
    · dsimp only at hi
      have byte := zero (i / 8) (by omega)
      unfold BuilderPtr.start wordBit
      rwa [show (64 * body.word + i) / 8 = body.word * 8 + i / 8 by omega]

/-- The elements of a struct list are fresh. -/
theorem fresh_of_element (wf : b.Wf) {parent first : BPtr}
    {parentDwords index count dwords pwords i : Nat} (dwordsLt : dwords < 2 ^ 16)
    (pwordsLt : pwords < 2 ^ 16)
    (run : setListStruct parent parentDwords index count dwords pwords b = .ok first b')
    (inside : i < count) :
    Fresh ⟨⟨first.seg, first.word + i * (dwords + pwords)⟩, dwords, pwords⟩ b' := by
  obtain ⟨tag, rfl, -, placed, -, zero⟩ := setListStruct_placed wf run
  have within : i * (dwords + pwords) + (dwords + pwords) ≤ count * (dwords + pwords) := by
    rw [← Nat.succ_mul]
    exact Nat.mul_le_mul_right _ inside
  have size := placed.inside
  refine ⟨placed.writes.wf, ⟨dwordsLt, pwordsLt, ?_⟩, fun k hk => bit_eq_false ?_⟩
  · dsimp only
    omega
  · dsimp only at hk
    have byte := zero (i * (dwords + pwords) * 8 + k / 8) (by omega)
    unfold BuilderPtr.start wordBit
    dsimp only
    rwa [show (64 * (tag.word + 1 + i * (dwords + pwords)) + k) / 8 =
      (tag.word + 1) * 8 + (i * (dwords + pwords) * 8 + k / 8) by omega]

theorem cfunInitRoot_ok {rootInitialized : Bool} {dwords pwords : Nat} {w : BuilderPtr}
    (run : cfunInitRoot rootInitialized dwords pwords b = .ok w b') :
    ∃ b₁ body, Builder.root b = .ok ⟨0, 0⟩ b₁ ∧
      Builder.struct ⟨0, 0⟩ dwords pwords b₁ = .ok body b' ∧ w = ⟨body, dwords, pwords⟩ ∧
      dwords < 2 ^ 16 ∧ pwords < 2 ^ 16 := by
  unfold cfunInitRoot at run
  obtain ⟨_, _, counted, run⟩ := bind_eq_ok.mp run
  obtain ⟨dwordsLt, rfl⟩ := getWordCount_ok counted
  obtain ⟨_, _, counted, run⟩ := bind_eq_ok.mp run
  obtain ⟨pwordsLt, rfl⟩ := getWordCount_ok counted
  split at run
  · obtain ⟨_, _, thrown, -⟩ := bind_eq_ok.mp run
    cases thrown
  obtain ⟨root, b₁, rooted, run⟩ := bind_eq_ok.mp run
  obtain ⟨body, b₂, made, run⟩ := bind_eq_ok.mp run
  cases run
  rw [checkBuilderResult_eq_ok] at rooted made
  obtain rfl := root_eq_ok rooted
  exact ⟨b₁, body, rooted, made, rfl, dwordsLt, pwordsLt⟩

/-- New structs are fresh. -/
theorem Initializes.fresh {w : BuilderPtr} (wf : b.Wf) (new : Initializes b w b') : Fresh w b' := by
  cases new with
  | root rootInitialized dwords pwords run =>
      obtain ⟨b₁, body, rooted, made, rfl, dwordsLt, pwordsLt⟩ := cfunInitRoot_ok run
      have slotUsed := root_ends wf
      rw [rooted] at slotUsed
      exact fresh_of_struct slotUsed.1.wf dwordsLt pwordsLt slotUsed.2.1 made
  | struct parent index dwords pwords run =>
      unfold cfunInitStruct at run
      obtain ⟨_, _, indexed, run⟩ := bind_eq_ok.mp run
      obtain ⟨-, rfl⟩ := getPointerIndex_ok indexed
      obtain ⟨_, _, counted, run⟩ := bind_eq_ok.mp run
      obtain ⟨dwordsLt, rfl⟩ := getWordCount_ok counted
      obtain ⟨_, _, counted, run⟩ := bind_eq_ok.mp run
      obtain ⟨pwordsLt, rfl⟩ := getWordCount_ok counted
      obtain ⟨at', b₁, found, run⟩ := bind_eq_ok.mp run
      obtain ⟨body, b₂, made, run⟩ := bind_eq_ok.mp run
      cases run
      have checked := slot_ends (b := b) parent.body parent.dwords index
      rw [checkBuilderResult_eq_ok.mp found] at checked
      obtain ⟨rfl, -, slotUsed⟩ := checked
      exact fresh_of_struct wf dwordsLt pwordsLt slotUsed (checkBuilderResult_eq_ok.mp made)
  | element parent index count dwords pwords list i run found =>
      unfold cfunInitStructList at run
      obtain ⟨_, _, indexed, run⟩ := bind_eq_ok.mp run
      obtain ⟨-, rfl⟩ := getPointerIndex_ok indexed
      split at run
      · obtain ⟨_, _, thrown, -⟩ := bind_eq_ok.mp run
        cases thrown
      obtain ⟨_, _, counted, run⟩ := bind_eq_ok.mp run
      obtain ⟨dwordsLt, rfl⟩ := getWordCount_ok counted
      obtain ⟨_, _, counted, run⟩ := bind_eq_ok.mp run
      obtain ⟨pwordsLt, rfl⟩ := getWordCount_ok counted
      obtain ⟨first, b₁, made, run⟩ := bind_eq_ok.mp run
      cases run
      unfold cfunStructListAt at found
      split at found
      · cases found
      split at found
      · cases found
      next inside =>
      cases found
      exact fresh_of_element wf dwordsLt pwordsLt (checkBuilderResult_eq_ok.mp made)
        (not_le.mp inside)

/-! ## The reader's handles -/

theorem Opens.depthLimit (opens : Opens b m) : m.depthLimit = defaultDepthLimit := by
  obtain ⟨flat, -, opened⟩ := opens
  obtain ⟨-, rfl⟩ := Frame.parseFlat_eq_ok_iff.mp (cfunMessageFromBuffer_ok opened)
  rfl

/-- A slot that leads to a struct names a handle that views it. -/
theorem Opens.slot_views (wf : b.Wf) (opens : Opens b m) {w : BuilderPtr} (inUse : w.InUse b)
    (some : w.dwords + w.pwords ≠ 0) {own : Nat → Nat → Prop} {slot : BPtr}
    (leads : b.Leads (fun off => wpMakeStruct off w.dwords w.pwords) w.body.seg w.body.word own
      slot.seg slot.word) (slotUsed : b.Used slot.seg slot.word) (depth : Nat) :
    ∃ p cost, m.slotTarget (depth + 2) slot.seg slot.word = .some (p, cost) ∧
      cost ≤ w.dwords + w.pwords + 3 ∧ p.Views w := by
  have built := opens.builtFrom wf
  have few := opens.small.1
  have room := inUse.inside
  have segLt := wf.lt_of_used (w := 0) (show b.Used w.body.seg 0 by unfold Used; omega)
  rw [built.nsegs] at few segLt
  have names := Message.names_struct segLt few
    (by rw [← built.words _ segLt, ← Nat.add_assoc]; exact room) some inUse.dwordsLt inUse.pwordsLt
  obtain ⟨cost, cheap, named⟩ := names.slotTarget leads built wf few segLt slotUsed depth
  exact ⟨_, cost, named, cheap, views_structAt w⟩

/-- Only the data section of a struct has been rewritten. -/
structure Rewrites (w : BuilderPtr) (b b' : Builder) : Prop where
  wf : b'.Wf
  nsegs_eq : b'.nsegs = b.nsegs
  words_eq : ∀ s, (b'.seg s).words = (b.seg s).words
  kept : ∀ s i, ¬(s = w.body.seg ∧ i ∈ BitRun w.start (w.dwords * 64)) →
    bit (b'.seg s).data i = bit (b.seg s).data i

namespace Rewrites

variable {w : BuilderPtr} {b'' : Builder}

theorem trans (first : Rewrites w b b') (second : Rewrites w b' b'') : Rewrites w b b'' where
  wf := second.wf
  nsegs_eq := second.nsegs_eq.trans first.nsegs_eq
  words_eq s := (second.words_eq s).trans (first.words_eq s)
  kept s i outside := (second.kept s i outside).trans (first.kept s i outside)

/-- Words outside of the struct are kept. -/
theorem wordAt_eq (rewrites : Rewrites w b b') {s i : Nat}
    (outside : ¬(s = w.body.seg ∧ w.body.word ≤ i ∧ i < w.body.word + w.dwords)) :
    b'.wordAt s i = b.wordAt s i := by
  unfold wordAt word
  refine loadLe_eq_of_bits fun k hk => rewrites.kept _ _ ?_
  rintro ⟨rfl, inside⟩
  simp only [BuilderPtr.start, wordBit, mem_bitRun] at inside
  exact outside ⟨rfl, by omega, by omega⟩

end Rewrites

/-- The root of a finished message views the struct that `capnp/init-root` has
returned, whatever has been written to the struct's data section since. -/
theorem root_views (wf : b.Wf) {rootInitialized : Bool} {dwords pwords : Nat} {w : BuilderPtr}
    {b₁ : Builder} (run : cfunInitRoot rootInitialized dwords pwords b = .ok w b₁)
    (rewrites : Rewrites w b₁ b') (opens : Opens b' m) :
    ∃ p left, m.root Ptr.zero defaultTraversalWords = ⟨.ok, p, left⟩ ∧ p.Views w := by
  have fresh := Initializes.fresh wf (.root rootInitialized dwords pwords run)
  have inUse := fresh.inUse.later (rewrites.words_eq _).ge
  obtain ⟨b₀, body, rooted, made, rfl, dwordsLt, pwordsLt⟩ := cfunInitRoot_ok run
  have ends := root_ends wf
  rw [rooted] at ends
  obtain ⟨writes, slotUsed, -⟩ := ends
  have later {s i : Nat} (used : b₁.Used s i) : b'.Used s i := by
    unfold Used at used ⊢
    rwa [rewrites.words_eq]
  have built := opens.builtFrom rewrites.wf
  have some : m.nsegs ≠ 0 := by
    have nonempty := rewrites.wf.nonempty
    rw [built.nsegs] at nonempty
    exact nonempty.ne'
  suffices ∃ p cost, m.slotTarget m.depthLimit 0 0 = .some (p, cost) ∧
      cost ≤ dwords + pwords + 3 ∧ p.Views ⟨body, dwords, pwords⟩ by
    obtain ⟨p, cost, named, cheap, views⟩ := this
    have covered : cost ≤ defaultTraversalWords := by
      unfold defaultTraversalWords
      omega
    refine ⟨p, defaultTraversalWords - cost, ?_, views⟩
    rw [Message.root, if_neg some, Message.resolvePtr_eq named covered]
  rw [opens.depthLimit]
  by_cases empty : dwords + pwords = 0
  · obtain ⟨rfl, rfl⟩ : dwords = 0 ∧ pwords = 0 := by omega
    unfold Builder.struct at made
    rw [if_pos empty] at made
    cases made
    have used := later ((writes_storeW writes.wf slotUsed (wpMakeStruct (-1) 0 0)).used slotUsed)
    have reads := (built.readWord_eq rewrites.wf used).trans
      (rewrites.wordAt_eq fun inside => by
        have low := inside.2.1
        have high := inside.2.2
        dsimp only at low high
        omega)
    rw [wordAt_storeW_self b₀ 0 0 (wpMakeStruct_lt _ _ _)] at reads
    have named := Message.slotTarget_empty 63 (built.inSegment rewrites.wf used) reads
    exact ⟨_, 1, named, by omega, views_structAt ⟨⟨0, 0⟩, 0, 0⟩⟩
  · obtain ⟨placed, -⟩ := struct_placed writes.wf slotUsed empty made
    have leads := placed.leads fun s => by
      rw [← rewrites.words_eq s]
      exact opens.inLimit rewrites.wf s
    refine opens.slot_views rewrites.wf inUse empty (leads.congr ?_ (fun s =>
      (rewrites.words_eq s).ge) fun s i own _ => ?_) (later (placed.writes.used slotUsed)) 62
    · refine rewrites.wordAt_eq ?_
      rintro ⟨seg, low, -⟩
      obtain ⟨i, word⟩ := Nat.exists_eq_add_of_le low
      refine placed.fresh i ?_
      rw [← seg, ← word]
      exact slotUsed
    · refine rewrites.wordAt_eq ?_
      rintro ⟨rfl, low, high⟩
      dsimp only at low high
      exact own.2 ⟨rfl, low, by omega⟩

end Janet

end CapnpJanet
