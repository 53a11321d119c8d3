import CapnpJanet.Builder.Program
import CapnpJanet.Logic.Runs
import CapnpJanet.Message.Framing

/-!
# Sessions with the arena builder

The states a builder goes through between `capnp_builder_init_sized` and
`capnp_builder_serialize`.  A session is any sequence of calls of the API,
including changes of the segment limit; a call that fails leaves the builder as
far as it got, and the session goes on.  The arena invariant holds in all these
states, and no call disturbs a word in use that it does not name.

The number of segments has no limit on this side.  The parser's table has
room for 16.
-/

namespace CapnpJanet

open ByteMemory Outcome Run

/-- A call on the arena: one that builds, or a change of the segment limit. -/
inductive ArenaCall
  | build (op : BuildOp)
  | setMaxSegWords (maxWords : Nat)

/-- The builder, and the handles that its client holds. -/
structure Arena where
  b : Builder
  held : Handles

namespace Arena

/-- The arena after `capnp_builder_init_sized`. -/
def init (firstWords : Nat) : Arena := ⟨Builder.initSized firstWords, ⟨[], []⟩⟩

/-- The arena after one more call, whether it succeeds or fails. -/
def step (a : Arena) : ArenaCall → Arena
  | .build op =>
      match Builder.call a.held op a.b with
      | .ok held b => ⟨b, held⟩
      | .error _ b => ⟨b, a.held⟩
  | .setMaxSegWords maxWords => ⟨a.b.setMaxSegWords maxWords, a.held⟩

/-- The arena after a session. -/
def after (firstWords : Nat) (session : List ArenaCall) : Arena := session.foldl step (init firstWords)

/-- The bytes that the next call names. -/
def names (a : Arena) : ArenaCall → Nat → Nat → Prop
  | .build op => Builder.touched a.held op
  | .setMaxSegWords _ => Builder.nowhere

/-- The invariant of a session: the arena is well formed, and the slots held
are in use. -/
structure Inv (a : Arena) : Prop where
  wf : a.b.Wf
  used : ∀ ptr ∈ a.held.slots, a.b.Used ptr.seg ptr.word

theorem wf_initSized (firstWords : Nat) : (Builder.initSized firstWords).Wf := by
  refine ⟨Nat.one_pos, fun s => ?_, fun s i => ?_, fun s => ?_⟩
  all_goals
    simp only [Builder.initSized, Builder.appendSegment, Builder.zero, Builder.setSeg_seg]
    split <;> simp [BSeg.empty]

theorem inv_init (firstWords : Nat) : (init firstWords).Inv :=
  ⟨wf_initSized firstWords, fun _ member => absurd member List.not_mem_nil⟩

variable {a : Arena}

/-- A call keeps the invariant, all words in use, and the bytes in use that it
does not name. -/
theorem Inv.step (inv : a.Inv) (next : ArenaCall) :
    (a.step next).Inv ∧ (∀ s, (a.b.seg s).words ≤ ((a.step next).b.seg s).words) ∧
      ∀ s i, i < (a.b.seg s).words * 8 → ¬a.names next s i →
        ((a.step next).b.seg s).data i = (a.b.seg s).data i := by
  cases next with
  | setMaxSegWords maxWords =>
      exact ⟨⟨inv.wf.withLimit maxWords, inv.used⟩, fun _ => le_rfl, fun _ _ _ _ => rfl⟩
  | build op =>
      have one := Builder.call_ends inv.wf inv.used op
      unfold Arena.step
      dsimp only
      cases run : Builder.call a.held op a.b with
      | ok held b =>
          rw [run] at one
          obtain ⟨writes, gains⟩ := one
          refine ⟨⟨writes.wf, fun ptr member => ?_⟩, writes.words_le, writes.kept⟩
          rcases gains.slots ptr member with old | ⟨used, -⟩
          · exact writes.used (inv.used ptr old)
          · exact used
      | error rc b =>
          rw [run] at one
          have writes : Builder.Writes (Builder.touched a.held op) a.b b := one
          exact ⟨⟨writes.wf, fun ptr member => writes.used (inv.used ptr member)⟩, writes.words_le,
            writes.kept⟩

/-- The invariant holds after every session. -/
theorem inv_after (firstWords : Nat) (session : List ArenaCall) : (after firstWords session).Inv :=
  (reached_any session).invariant (inv_init firstWords) fun _ next inv _ => (inv.step next).1

end Arena

namespace Builder

/-- An allocator of `n` words: on a well-formed builder it ends in a well-formed
builder, and when it succeeds the words it returns are zero words that were not
in use and are now. -/
def HandsOutZeros (n : Nat) (alloc : BuildM (Nat × Nat)) : Prop :=
  ∀ b : Builder, b.Wf → Ends (alloc b)
    (fun at' b' => b'.Wf ∧ ∀ i < n, ¬b.Used at'.1 (at'.2 + i) ∧ b'.Used at'.1 (at'.2 + i) ∧
      b.wordAt at'.1 (at'.2 + i) = 0 ∧ b'.wordAt at'.1 (at'.2 + i) = 0) Wf

variable {b b' : Builder}

theorem Allocated.zeros {s w n i : Nat} (wf : b.Wf) (allocated : Allocated b s w n b') (hi : i < n) :
    ¬b.Used s (w + i) ∧ b'.Used s (w + i) ∧ b.wordAt s (w + i) = 0 ∧ b'.wordAt s (w + i) = 0 := by
  have fresh := allocated.not_used_before i
  have zero := wf.wordAt_eq_zero fresh
  exact ⟨fresh, allocated.used_new hi, zero, by rwa [allocated.wordAt_eq]⟩

theorem handsOutZeros_allocWords (n : Nat) : HandsOutZeros n (allocWords n) := fun b wf =>
  (allocWords_ends wf n).mono
    (fun _ _ done => ⟨done.1.wf, fun _ hi => done.1.zeros wf hi⟩)
    fun b' (same : b' = b) => same ▸ wf

theorem handsOutZeros_allocIn (seg n : Nat) :
    HandsOutZeros n (allocIn seg n >>= fun w => pure (seg, w)) := fun b wf =>
  (allocIn_ends wf seg n).bind
    (fun _ _ done => ⟨done.1.wf, fun _ hi => done.1.zeros wf hi⟩)
    fun b' (same : b' = b) => same ▸ wf

theorem handsOutZeros_allocPadSegment : HandsOutZeros 2 (allocPadSegment 2) := by
  intro b wf
  obtain ⟨b', run, allocated, -⟩ := allocPadSegment_spec wf (n := 2) (by decide) (by decide)
  rw [run]
  exact ⟨allocated.wf, fun _ hi => allocated.zeros wf hi⟩

theorem handsOutZeros_allocLocal (n : Nat) : HandsOutZeros n (allocLocal n) := by
  intro b wf
  obtain ⟨w, b', run, allocated, -⟩ := allocLocal_spec wf n
  rw [run]
  exact ⟨allocated.wf, fun _ hi => allocated.zeros wf hi⟩

end Builder

open Builder in
/-- The arena invariant and the frame of each call.  After every session the
words of each segment lie within its capacity, the bytes behind them are zero,
and the slots held are in use.  The next call, whatever it is and however it
ends, leaves every word in use where it is, with the same bytes except those it
names, and takes into use words that were zero.  Each of the four allocators,
in any such state, hands out zero words. -/
theorem Arena.session_sound (firstWords : Nat) (session : List ArenaCall) :
    ((∀ s, ((after firstWords session).b.seg s).words ≤ ((after firstWords session).b.seg s).cap ∧
        ∀ i, ((after firstWords session).b.seg s).words * 8 ≤ i →
          i < ((after firstWords session).b.seg s).cap * 8 →
            ((after firstWords session).b.seg s).data i = 0) ∧
      ∀ ptr ∈ (after firstWords session).held.slots,
        (after firstWords session).b.Used ptr.seg ptr.word) ∧
    (∀ next s w, (after firstWords session).b.Used s w →
      ((after firstWords session).step next).b.Used s w ∧
        ∀ i, i / 8 = w → ¬(after firstWords session).names next s i →
          (((after firstWords session).step next).b.seg s).data i =
            ((after firstWords session).b.seg s).data i) ∧
    (∀ next s w, ¬(after firstWords session).b.Used s w →
      ((after firstWords session).step next).b.Used s w →
        (after firstWords session).b.wordAt s w = 0) ∧
    (after firstWords session).b.Wf ∧
      (∀ n, HandsOutZeros n (allocWords n)) ∧
      (∀ seg n, HandsOutZeros n (allocIn seg n >>= fun w => pure (seg, w))) ∧
      HandsOutZeros 2 (allocPadSegment 2) ∧ ∀ n, HandsOutZeros n (allocLocal n) := by
  have inv := inv_after firstWords session
  generalize after firstWords session = a at inv
  refine ⟨⟨fun s => ⟨inv.wf.words_le s, fun i behind _ => inv.wf.clear s i behind⟩, inv.used⟩,
    fun next s w used => ?_, fun next s w unused _ => inv.wf.wordAt_eq_zero unused, inv.wf,
    handsOutZeros_allocWords, handsOutZeros_allocIn, handsOutZeros_allocPadSegment,
    handsOutZeros_allocLocal⟩
  obtain ⟨-, words_le, kept⟩ := inv.step next
  unfold Used at used ⊢
  refine ⟨used.trans_le (words_le s), fun i place unnamed => kept s i ?_ unnamed⟩
  omega

/-! ## Reading what a session has built -/

namespace Builder

variable {b : Builder} {flat : List UInt8}

/-- The parser gives back the segments of a builder exactly when its table has
room for them and their sizes fit the frame. -/
theorem serialize_reads (wf : b.Wf) (done : b.serialize = .ok flat) :
    (∃ m, messageFromFlat flat = .ok m ∧ m.BuiltFrom b) ↔
      b.nsegs ≤ maxSegments ∧ ∀ s < b.nsegs, (b.seg s).words < 2 ^ 32 := by
  constructor
  · rintro ⟨m, parsed, built⟩
    obtain ⟨accepted, rfl⟩ := Frame.parseFlat_eq_ok_iff.mp parsed
    refine ⟨built.nsegs.trans_le accepted.2.2.1, fun s hs => ?_⟩
    rw [built.nsegs] at hs
    rw [built.words s hs]
    have inside : s < Frame.nsegs (ofList flat) := hs
    simp only [Frame.message, if_pos inside]
    exact Frame.size_lt _ _
  · rintro ⟨few, small⟩
    have fits : b.Framable := by
      refine ⟨few.trans_lt (by decide), fun s => ?_⟩
      by_cases inside : s < b.nsegs
      · exact small s inside
      · rw [wf.unused s (not_lt.mp inside)]
        decide
    obtain ⟨some, -, rfl⟩ := serialize_eq done
    obtain ⟨count, same⟩ := message_flatBytes some fits
    refine ⟨_, parseFlat_of_accepted (Message.accepted_flatBytes some few fits), count.symm,
      fun i hi => ?_, fun i hi k hk => ?_⟩
    · rw [(same i (hi.trans_eq count)).1]
    · have place := same i (hi.trans_eq count)
      rw [place.1] at hk
      exact (place.2 k (by omega)).symm

end Builder

/-- What the builder serializes, the reader opens, as long as the builder has
at most 16 segments of fewer than 2 ^ 32 words.  Beyond that it does not:
the parser refuses the frame or reads other segments. -/
theorem Arena.serialize_reads_iff (firstWords : Nat) (session : List ArenaCall) {flat : List UInt8}
    (done : (after firstWords session).b.serialize = .ok flat) :
    (∃ m, messageFromFlat flat = .ok m ∧ m.BuiltFrom (after firstWords session).b) ↔
      (after firstWords session).b.nsegs ≤ maxSegments ∧
        ∀ s < (after firstWords session).b.nsegs,
          ((after firstWords session).b.seg s).words < 2 ^ 32 :=
  Builder.serialize_reads (inv_after firstWords session).wf done

theorem Arena.serialize_reads_iff_root :
    ∃ flat, (after 1 [.build .root]).b.serialize = .ok flat ∧
      ((∃ m, messageFromFlat flat = .ok m ∧ m.BuiltFrom (after 1 [.build .root]).b) ↔
        (after 1 [.build .root]).b.nsegs ≤ maxSegments ∧
          ∀ s < (after 1 [.build .root]).b.nsegs,
            ((after 1 [.build .root]).b.seg s).words < 2 ^ 32) :=
  ⟨_, if_neg (by decide), Arena.serialize_reads_iff 1 [.build .root] (if_neg (by decide))⟩

/-- A root and eight structs in segments of one word: each struct takes a
segment, and its landing pad another one. -/
def Arena.manySegments : List ArenaCall :=
  .setMaxSegWords 1 :: .build .root :: List.replicate 8 (.build (.struct 0 1 0))

theorem Arena.manySegments_refused :
    ¬∀ (firstWords : Nat) (session : List ArenaCall) (flat : List UInt8),
      (after firstWords session).b.serialize = .ok flat →
        ∃ m, messageFromFlat flat = .ok m ∧ m.BuiltFrom (after firstWords session).b := by
  intro opens
  have built : (after 1 manySegments).b.nsegs = 17 ∧
      ((after 1 manySegments).b.seg 0).words = 1 := by decide +kernel
  have done : (after 1 manySegments).b.serialize =
      .ok (after 1 manySegments).b.flatBytes := by
    refine if_neg ?_
    rw [built.1, built.2]
    decide
  have few := ((Builder.serialize_reads (inv_after 1 manySegments).wf done).mp
    (opens 1 manySegments _ done)).1
  rw [built.1] at few
  exact absurd few (by decide)

end CapnpJanet
