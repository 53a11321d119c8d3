import CapnpJanet.Builder.SameDraft

/-!
# The round trip under any segment policy

A program of builder calls describes a draft, and the first segment and the limits
of a session are no part of it.  As long as no segment is above the ceiling, every
session of the program is read as the draft says.  Above the ceiling the offsets
of pointers wrap, and lists are read as null.
-/

namespace CapnpJanet

open ByteMemory Builder Run Paths Outcome

namespace Draft

/-! ## Programs and policies -/

/-- The builder calls of a session. -/
def program : List ArenaCall → List BuildOp
  | [] => []
  | .setMaxSegWords _ :: rest => program rest
  | .build op :: rest => op :: program rest

/-- What a program describes, if each of its calls means something where it is made. -/
def describe (ops : List BuildOp) : Option Draft := ops.foldlM call blank

/-- The call returns `CAPNP_OK`. -/
def succeeds (a : Arena) : ArenaCall → Bool
  | .setMaxSegWords _ => true
  | .build op =>
      match Builder.call a.held op a.b with
      | .ok _ _ => true
      | .error _ _ => false

/-- A session of a program in which every call succeeds, and whose segments fit the
table of a frame. -/
structure Carries (ops : List BuildOp) (firstWords : Nat) (session : List ArenaCall) : Prop where
  calls : program session = ops
  succeed : passes Arena.step succeeds (Arena.init firstWords) session = true
  few : (Arena.after firstWords session).b.nsegs ≤ maxSegments

/-- No limit that is set is above the ceiling of a segment, or at least no segment is. -/
def KeepsCeiling (firstWords : Nat) (session : List ArenaCall) : Prop :=
  (∀ limit, .setMaxSegWords limit ∈ session → limit ≤ builderMaxSegmentWords) ∨
    ∀ s < (Arena.after firstWords session).b.nsegs,
      ((Arena.after firstWords session).b.seg s).words ≤ builderMaxSegmentWords

/-- The message that is parsed from what the builder serializes. -/
def Parses (b : Builder) (m : Message) : Prop :=
  ∃ flat, b.serialize = .ok flat ∧ messageFromFlat flat = .ok m

/-- Every walk from the root comes to what the draft says, with a budget that covers
the objects on the way. -/
def ReadsAs (d : Draft) (m : Message) : Prop :=
  ∀ (path : List Step) (left : Nat), d.price d.top + d.dues d.top path ≤ left →
    d.Answers m (m.walk (m.root Ptr.zero left) path) (d.walk d.top path)

/-! ## Sessions of a program -/

section
variable {b b' : Builder} {held held' : Handles} {d : Draft}

/-- No call that draws raises a segment above the ceiling. -/
theorem ceiling_call {op : BuildOp} (ceiling : b.Ceiling) (means : (d.call op).isSome)
    (run : Builder.call held op b = .ok held' b') : b'.Ceiling := by
  have slots {f : BPtr → BuildM Handles} {handle : Option BPtr}
      (run : held.call handle f b = .ok held' b')
      (kept : ∀ ptr, f ptr b = .ok held' b' → b'.Ceiling) : b'.Ceiling := by
    rcases call_eq_ok run with ⟨-, rfl⟩ | ⟨ptr, -, done⟩
    · exact ceiling
    · exact kept ptr done
  cases op with
  | root =>
      obtain ⟨ptr, -, done⟩ := addSlot_eq_ok run
      exact ceiling.root done
  | struct slot dwords pwords =>
      refine slots run fun ptr run => ?_
      obtain ⟨body, -, done⟩ := addBody_eq_ok run
      exact ceiling.struct done
  | slot body dwords ptrIndex =>
      refine slots run fun ptr run => ?_
      obtain ⟨at', -, done⟩ := addSlot_eq_ok run
      have checked := slot_ends (b := b) ptr dwords ptrIndex
      rw [done] at checked
      obtain ⟨rfl, -⟩ := checked
      exact ceiling
  | element body wordDelta =>
      refine slots run fun ptr run => ?_
      obtain ⟨at', -, done⟩ := addBody_eq_ok run
      cases done
      exact ceiling
  | setScalar width body byteOffset value =>
      refine slots run fun ptr run => ?_
      obtain ⟨-, _, done⟩ := keep_eq_ok run
      exact ceiling.setScalar done
  | setBool body bitOffset value =>
      refine slots run fun ptr run => ?_
      obtain ⟨-, _, done⟩ := keep_eq_ok run
      exact ceiling.setBool done
  | clearPtr body dwords ptrIndex =>
      refine slots run fun ptr run => ?_
      obtain ⟨-, _, done⟩ := keep_eq_ok run
      rw [storeW_of_clearPtr done]
      exact ceiling.storeW _ _
  | setCap body dwords ptrIndex capIndex =>
      refine slots run fun ptr run => ?_
      obtain ⟨-, _, done⟩ := keep_eq_ok run
      rw [storeW_of_setCap done]
      exact ceiling.storeW _ _
  | setText body dwords ptrIndex text =>
      refine slots run fun ptr run => ?_
      obtain ⟨-, _, done⟩ := keep_eq_ok run
      exact ceiling.writeListBody (withSlot_ok done).2
  | setData body dwords ptrIndex bytes =>
      refine slots run fun ptr run => ?_
      obtain ⟨-, _, done⟩ := keep_eq_ok run
      exact ceiling.writeListBody (withSlot_ok done).2
  | setListPrim body dwords ptrIndex esize nitems elemBytes items =>
      refine slots run fun ptr run => ?_
      obtain ⟨-, _, done⟩ := keep_eq_ok run
      exact ceiling.writeListBody (withSlot_ok done).2
  | setListBool body dwords ptrIndex nitems items =>
      refine slots run fun ptr run => ?_
      obtain ⟨-, _, done⟩ := keep_eq_ok run
      exact ceiling.writeListBody (withSlot_ok done).2
  | setListText body dwords ptrIndex items =>
      refine slots run fun ptr run => ?_
      obtain ⟨-, _, done⟩ := keep_eq_ok run
      exact ceiling.setListTextN done
  | setListStruct body dwords ptrIndex nitems elemDwords elemPwords =>
      refine slots run fun ptr run => ?_
      obtain ⟨first, -, done⟩ := addBody_eq_ok run
      exact ceiling.setListStruct done
  | copyPtr slot m src left => cases means

end

/-- A call that succeeds draws what it means, below the ceiling. -/
theorem describes_call {a : Arena} {d d' : Draft} {op : BuildOp} (called : d.call op = some d')
    (ok : succeeds a (.build op) = true) :
    means (a, d) (.build op) = true ∧ note a (.build op) d = d' ∧
      (a.b.Ceiling → (a.step (.build op)).b.Ceiling) := by
  have drawn : (d.call op).isSome := Option.isSome_of_mem called
  dsimp only [succeeds, means, note, Arena.step] at ok ⊢
  cases run : Builder.call a.held op a.b with
  | error rc b =>
      rw [run] at ok
      cases ok
  | ok held b =>
      dsimp only
      rw [called]
      exact ⟨rfl, rfl, fun ceiling => ceiling_call ceiling drawn run⟩

/-- A session in which all calls succeed draws what its program describes.  Limits
below the ceiling keep the segments there. -/
theorem session_describes {start : Arena × Draft} {session : List ArenaCall} {a : Arena}
    {e d : Draft}
    (reached : Reached start (observed Arena.step note) (fun o next => means o next) (a, e))
    (described : (program session).foldlM call e = some d)
    (succeed : passes Arena.step succeeds a session = true) :
    Reached start (observed Arena.step note) (fun o next => means o next)
        (session.foldl Arena.step a, d) ∧
      ((∀ limit, .setMaxSegWords limit ∈ session → limit ≤ builderMaxSegmentWords) →
        a.b.Ceiling → (session.foldl Arena.step a).b.Ceiling) := by
  induction session generalizing a e with
  | nil =>
      cases described
      exact ⟨reached, fun _ ceiling => ceiling⟩
  | cons next rest ih =>
      rw [passes, Bool.and_eq_true] at succeed
      obtain ⟨ok, succeed⟩ := succeed
      cases next with
      | setMaxSegWords limit =>
          obtain ⟨ends, kept⟩ := ih (a := a.step (.setMaxSegWords limit)) (reached.step rfl) described
            succeed
          refine ⟨ends, fun small ceiling => kept (fun other inside => ?_) ?_⟩
          · exact small other (List.mem_cons_of_mem _ inside)
          · exact ceiling.setMaxSegWords (small limit List.mem_cons_self)
      | build op =>
          rw [program, List.foldlM_cons] at described
          obtain ⟨e', called, described⟩ := Option.bind_eq_some_iff.mp described
          obtain ⟨drawn, rfl, stays⟩ := describes_call called ok
          obtain ⟨ends, kept⟩ := ih (a := a.step (.build op)) (reached.step drawn) described succeed
          refine ⟨ends, fun small ceiling => kept (fun other inside => ?_) (stays ceiling)⟩
          exact small other (List.mem_cons_of_mem _ inside)

/-- A session that keeps to the ceiling draws what its program describes, and its
segments stay within the limit. -/
theorem Carries.reached {ops : List BuildOp} {d : Draft} {firstWords : Nat} {session : List ArenaCall}
    (carries : Carries ops firstWords session) (described : describe ops = some d)
    (keeps : KeepsCeiling firstWords session) :
    Reached (Arena.init firstWords, blank) (observed Arena.step note) (fun o next => means o next)
        (Arena.after firstWords session, d) ∧
      (Arena.after firstWords session).b.InLimit := by
  obtain ⟨rfl, succeed, -⟩ := carries
  have blank : Reached (Arena.init firstWords, blank) (observed Arena.step note)
      (fun o next => means o next) (Arena.init firstWords, blank) := .start
  obtain ⟨ends, kept⟩ := session_describes blank described succeed
  have wf := (Arena.inv_after firstWords session).wf
  refine ⟨ends, ?_⟩
  rcases keeps with limits | segments
  · exact (kept limits (.initSized firstWords)).inLimit wf
  · exact inLimit_of_segments wf segments

/-- The round trip of a program of builder calls.  Under every policy that keeps to the
ceiling of a segment, what is serialized is parsed and read as the program describes.
So two policies make messages of equal values. -/
theorem program_reads_back {ops : List BuildOp} {d : Draft} (described : describe ops = some d)
    (started : d.started = true) :
    (∀ firstWords session, Carries ops firstWords session → KeepsCeiling firstWords session →
      ∃ m, Parses (Arena.after firstWords session).b m ∧ d.ReadsAs m) ∧
    ∀ firstWords session firstWords' session', Carries ops firstWords session →
      Carries ops firstWords' session' → KeepsCeiling firstWords session →
        KeepsCeiling firstWords' session' → ∀ m m', Parses (Arena.after firstWords session).b m →
          Parses (Arena.after firstWords' session').b m' →
            ∃ p cost p' cost', m.rootTarget = some (p, cost) ∧ m'.rootTarget = some (p', cost') ∧
              Message.ValueEq m m' p p' := by
  have builds {firstWords : Nat} {session : List ArenaCall} (carries : Carries ops firstWords session)
      (keeps : KeepsCeiling firstWords session) {m : Message}
      (parses : Parses (Arena.after firstWords session).b m) : Builds d m := by
    obtain ⟨reached, limit⟩ := carries.reached described keeps
    obtain ⟨flat, done, parsed⟩ := parses
    exact ⟨⟨_, _, flat, reached, limit, carries.few, done, parsed⟩, started⟩
  constructor
  · intro firstWords session carries keeps
    obtain ⟨reached, limit⟩ := carries.reached described keeps
    obtain ⟨flat, m, done, parsed, reads⟩ := session_reads_back reached started limit carries.few
    exact ⟨m, ⟨flat, done, parsed⟩, reads⟩
  · intro firstWords session firstWords' session' carries carries' keeps keeps' m m' parses parses'
    obtain ⟨⟨p, cost, p', cost', root, root', same⟩, -⟩ :=
      canonical_of_alike (builds carries keeps parses) (builds carries' keeps' parses')
    exact ⟨p, cost, p', cost', root, root', same.mpr (.refl d)⟩

/-- The program of `spread`, in one segment. -/
def gathered : List ArenaCall :=
  [.build .root, .build (.struct 0 1 1), .build (.setScalar 8 0 0 7),
    .build (.setText 0 1 0 [104, 105])]

theorem spread_carries : Carries (program spread) 1 spread :=
  ⟨rfl, by decide +kernel, by decide +kernel⟩

theorem gathered_carries : Carries (program spread) 64 gathered :=
  ⟨rfl, by decide +kernel, by decide +kernel⟩

theorem spread_keepsCeiling : KeepsCeiling 1 spread := by
  refine .inl fun limit inside => ?_
  simp only [spread, List.mem_cons, ArenaCall.setMaxSegWords.injEq, reduceCtorEq,
    List.not_mem_nil, or_false] at inside
  rw [inside]
  decide

theorem gathered_keepsCeiling : KeepsCeiling 64 gathered := by
  refine .inl fun limit inside => ?_
  simp [gathered] at inside

theorem describe_spread : describe (program spread) = some spreadEnd.2 := rfl

theorem program_reads_back_spread : (∃ m m', Parses (Arena.after 1 spread).b m ∧
    spreadEnd.2.ReadsAs m ∧ Parses (Arena.after 64 gathered).b m' ∧ spreadEnd.2.ReadsAs m' ∧
    ∃ p cost p' cost', m.rootTarget = some (p, cost) ∧ m'.rootTarget = some (p', cost') ∧
      Message.ValueEq m m' p p') := by
  obtain ⟨reads, same⟩ := program_reads_back describe_spread rfl
  obtain ⟨m, parses, read⟩ := reads 1 spread spread_carries spread_keepsCeiling
  obtain ⟨m', parses', read'⟩ := reads 64 gathered gathered_carries gathered_keepsCeiling
  exact ⟨m, m', parses, read, parses', read', same 1 spread 64 gathered spread_carries
    gathered_carries spread_keepsCeiling gathered_keepsCeiling m m' parses parses'⟩

/-- A list and its landing pad fill all words of a segment that a far pointer reaches.
The text comes behind them, with a landing pad of its own. -/
def tall : List ArenaCall :=
  [.setMaxSegWords (2 ^ 30), .build .root, .build (.struct 0 0 2),
    .build (.setListStruct 0 0 0 32766 16385 0), .build (.setText 0 0 1 [120])]

def tallEnd : Arena × Draft := tall.foldl (observed Arena.step note) (Arena.init 3, blank)

theorem tall_carries : Carries (program tall) 3 tall := ⟨rfl, by decide +kernel, by decide +kernel⟩

/-- The offset of the far pointer to the text has wrapped, and leads into the list. -/
theorem tall_words : (Arena.after 3 tall).b.nsegs = 2 ∧ ((Arena.after 3 tall).b.seg 0).words = 3 ∧
    ((Arena.after 3 tall).b.seg 1).words = 2 ^ 29 + 2 ∧
    (Arena.after 3 tall).b.wordAt 0 0 = wpMakeStruct 0 0 2 ∧
    (Arena.after 3 tall).b.wordAt 0 2 = wpMakeFar false 1 1 ∧
    (Arena.after 3 tall).b.wordAt 1 1 = 0 := by decide +kernel

/-- A far pointer to a zero word is read as null. -/
theorem slotTarget_far_zero {m : Message} {depth seg word w : Nat} (inside : m.InSegment seg word)
    (reads : m.readWord seg word = w) (far : w ≠ 0 ∧ wpKind w = .far ∧ wpFarTwo w = false)
    (padIn : m.InSegment (wpFarSeg w) (wpFarOff w))
    (zero : m.readWord (wpFarSeg w) (wpFarOff w) = 0) :
    m.slotTarget (depth + 2) seg word = some (nullPtr (wpFarSeg w) (wpFarOff w), 2) := by
  obtain ⟨some, kind, single⟩ := far
  refine Message.slotTarget_eq inside reads ?_
  rw [Message.target, if_neg some, kind]
  dsimp only
  rw [single, if_neg Bool.false_ne_true, if_neg (not_not.mpr padIn), zero, Message.target, if_pos rfl]
  rfl

/-- A text behind a large list is read as null. -/
theorem text_behind_tall_lost :
    ¬∀ (ops : List BuildOp) (d : Draft) (firstWords : Nat) (session : List ArenaCall),
      describe ops = some d → d.started = true → Carries ops firstWords session →
        ∃ m, Parses (Arena.after firstWords session).b m ∧ d.ReadsAs m := by
  intro reads
  obtain ⟨m, ⟨flat, done, parsed⟩, read⟩ := reads (program tall) tallEnd.2 3 tall rfl rfl tall_carries
  obtain ⟨segments, first, second, rootWord, slotWord, padWord⟩ := tall_words
  have wf := (Arena.inv_after 3 tall).wf
  have short (s : Nat) (below : s < (Arena.after 3 tall).b.nsegs) :
      ((Arena.after 3 tall).b.seg s).words < 2 ^ 32 := by
    rw [segments] at below
    rcases (by omega : s = 0 ∨ s = 1) with rfl | rfl
    · rw [first]
      decide
    · rw [second]
      decide
  obtain ⟨m', parsed', built⟩ := (serialize_reads wf done).mpr ⟨tall_carries.few, short⟩
  rw [parsed] at parsed'
  cases parsed'
  have deep : m.depthLimit = 62 + 2 := by
    rw [(Frame.parseFlat_eq_ok_iff.mp parsed).2]
    rfl
  have used {s w : Nat} (inside : w < ((Arena.after 3 tall).b.seg s).words) :
      (Arena.after 3 tall).b.Used s w := inside
  have start : (Arena.after 3 tall).b.Used 0 0 := used (first ▸ Nat.zero_lt_succ 2)
  have slot : (Arena.after 3 tall).b.Used 0 2 := used (first ▸ Nat.lt_succ_self 2)
  have pad : (Arena.after 3 tall).b.Used 1 1 := used (second ▸ by decide)
  obtain ⟨cost, cheap, root⟩ : ∃ cost ≤ 3,
      m.rootTarget = some (Message.structAt 0 1 0 2, cost) := by
    have whole : 1 + (0 + 2) ≤ (m.seg 0).words := by
      rw [← built.words 0 (built.inSegment wf start).1, first]
    obtain ⟨cost, cheap, named⟩ := (Message.names_struct (built.inSegment wf start).1
      (by rw [← built.nsegs, segments]; decide) whole (by decide) (by decide) (by decide)).near 63 0
        ⟨by decide, by decide⟩
    refine ⟨cost + 1, Nat.succ_le_succ cheap, ?_⟩
    rw [Message.rootTarget, if_neg (by rw [← built.nsegs, segments]; decide), deep]
    exact Message.slotTarget_eq (built.inSegment wf start)
      ((built.readWord_eq wf start).trans rootWord) named
  have text : m.fieldTarget (Message.structAt 0 1 0 2) 1 = some (nullPtr 1 1, 2) := by
    rw [Message.fieldTarget, if_neg (by decide), deep]
    exact slotTarget_far_zero (built.inSegment wf slot) ((built.readWord_eq wf slot).trans slotWord)
      (by decide) (built.inSegment wf pad) ((built.readWord_eq wf pad).trans padWord)
  have answers := read [.getp 1] (tallEnd.2.price tallEnd.2.top +
    tallEnd.2.dues tallEnd.2.top [.getp 1] + 5) (Nat.le_add_right _ 5)
  generalize tallEnd.2.price tallEnd.2.top + tallEnd.2.dues tallEnd.2.top [.getp 1] = budget at answers
  have left : 2 ≤ budget + 5 - cost := by omega
  rw [(m.root_agrees Ptr.zero (budget + 5)).covered _ _ root (by omega)] at answers
  have leads : tallEnd.2.walk tallEnd.2.top [.getp 1] = .ok (.list 2) := rfl
  rw [leads, Message.walk, if_pos rfl, Message.step,
    (Message.getp_agrees rfl).covered _ _ text left] at answers
  obtain ⟨-, c, -, list, -⟩ := answers
  cases list

end Draft

end CapnpJanet
