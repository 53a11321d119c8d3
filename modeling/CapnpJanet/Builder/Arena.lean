import CapnpJanet.Builder.Core
import CapnpJanet.Logic.Ends

/-!
# The arena invariant

A builder is well formed when its used words lie inside their segments and
every byte behind them is zero.  Under this invariant an allocation changes no
byte at all: it hands out words that were there, cleared, behind the used ones.
Everything the setters rely on follows from that one fact.
-/

namespace CapnpJanet

open ByteMemory Outcome

namespace Builder

/-- The invariant of the builder's segments. -/
structure Wf (b : Builder) : Prop where
  nonempty : 0 < b.nsegs
  words_le : ∀ s, (b.seg s).words ≤ (b.seg s).cap
  clear : ∀ s i, (b.seg s).words * 8 ≤ i → (b.seg s).data i = 0
  unused : ∀ s, b.nsegs ≤ s → (b.seg s).words = 0

/-- Word `w` of segment `s` is in use. -/
def Used (b : Builder) (s w : Nat) : Prop := w < (b.seg s).words

theorem Wf.lt_of_used {b : Builder} {s w : Nat} (wf : b.Wf) (used : b.Used s w) : s < b.nsegs := by
  by_contra outside
  have empty := wf.unused s (not_lt.mp outside)
  unfold Used at used
  omega

/-- Unused words are zero. -/
theorem Wf.wordAt_eq_zero {b : Builder} {s w : Nat} (wf : b.Wf) (unused : ¬b.Used s w) :
    b.wordAt s w = 0 := by
  refine word_of_clear fun k _ => wf.clear _ _ ?_
  unfold Used at unused
  omega

/-- `n` words at word `w` of segment `s` have been handed out, and nothing else
changed. -/
structure Allocated (b : Builder) (s w n : Nat) (b' : Builder) : Prop where
  wf : b'.Wf
  nsegs_le : b.nsegs ≤ b'.nsegs
  seg_lt : s < b'.nsegs
  start : w = (b.seg s).words
  words_self : (b'.seg s).words = w + n
  words_other : ∀ t, t ≠ s → (b'.seg t).words = (b.seg t).words
  data_eq : ∀ t, (b'.seg t).data = (b.seg t).data
  maxSegWords_eq : b'.maxSegWords = b.maxSegWords
  forceSingle_eq : b'.forceSingle = b.forceSingle

namespace Allocated

variable {b b' : Builder} {s w n : Nat}

theorem words_le (allocated : Allocated b s w n b') (t : Nat) :
    (b.seg t).words ≤ (b'.seg t).words := by
  by_cases same : t = s
  · subst same
    rw [allocated.words_self, allocated.start]
    omega
  · rw [allocated.words_other t same]

theorem used (allocated : Allocated b s w n b') {t i : Nat} (before : b.Used t i) :
    b'.Used t i := lt_of_lt_of_le before (allocated.words_le t)

theorem used_new (allocated : Allocated b s w n b') {i : Nat} (inside : i < n) :
    b'.Used s (w + i) := by
  have size := allocated.words_self
  unfold Used
  omega

theorem wordAt_eq (allocated : Allocated b s w n b') (t i : Nat) :
    b'.wordAt t i = b.wordAt t i := by
  rw [wordAt, wordAt, allocated.data_eq]

theorem not_used_before (allocated : Allocated b s w n b') (i : Nat) : ¬b.Used s (w + i) := by
  have start := allocated.start
  unfold Used
  omega

end Allocated

/-! ## Segments -/

section
variable {b : Builder}

@[simp]
theorem setSeg_seg (b : Builder) (i : Nat) (s : BSeg) (t : Nat) :
    (b.setSeg i s).seg t = if t = i then s else b.seg t := by
  simp [setSeg, Function.update_apply]

@[simp]
theorem bump_seg (b : Builder) (i n t : Nat) :
    (b.bump i n).seg t =
      if t = i then { b.seg i with words := (b.seg i).words + n } else b.seg t := by
  simp [bump]

@[simp]
theorem bump_nsegs (b : Builder) (i n : Nat) : (b.bump i n).nsegs = b.nsegs := rfl

/-- Growing a segment clears bytes that were clear. -/
theorem regrow_data (wf : b.Wf) (s ncap : Nat) :
    (regrow (b.seg s) ncap).data = (b.seg s).data := by
  funext i
  unfold regrow
  by_cases inside : (b.seg s).cap * 8 ≤ i ∧ i < (b.seg s).cap * 8 + (ncap - (b.seg s).cap) * 8
  · obtain ⟨k, rfl⟩ := Nat.exists_eq_add_of_le inside.1
    have old := wf.words_le s
    rw [wf.clear s _ (by omega)]
    exact blit_inside (by omega)
  · exact blit_outside (by omega)

/-- Words handed out at the end of a segment that has room for them. -/
theorem allocated_bump (wf : b.Wf) {s n : Nat} (segLt : s < b.nsegs)
    (room : (b.seg s).words + n ≤ (b.seg s).cap) :
    Allocated b s (b.seg s).words n (b.bump s n) := by
  have other : ∀ t, t ≠ s → (b.bump s n).seg t = b.seg t := fun t ne => by simp [ne]
  have self : (b.bump s n).seg s = { b.seg s with words := (b.seg s).words + n } := by simp
  refine ⟨⟨wf.nonempty, fun t => ?_, fun t i => ?_, fun t => ?_⟩, le_rfl, segLt, rfl, ?_,
    fun t ne => ?_, fun t => ?_, rfl, rfl⟩
  · by_cases same : t = s
    · subst same; rw [self]; exact room
    · rw [other t same]; exact wf.words_le t
  · by_cases same : t = s
    · subst same
      rw [self]
      intro beyond
      exact wf.clear t i (by dsimp only at beyond; omega)
    · rw [other t same]; exact wf.clear t i
  · intro unused
    rw [other t (by rw [bump_nsegs] at unused; omega)]
    exact wf.unused t unused
  · rw [self]
  · rw [other t ne]
  · by_cases same : t = s
    · subst same; rw [self]
    · rw [other t same]

/-- A larger capacity is all that distinguishes the second builder. -/
structure Grown (b b' : Builder) : Prop where
  wf : b'.Wf
  nsegs_eq : b'.nsegs = b.nsegs
  words_eq : ∀ t, (b'.seg t).words = (b.seg t).words
  data_eq : ∀ t, (b'.seg t).data = (b.seg t).data
  maxSegWords_eq : b'.maxSegWords = b.maxSegWords
  forceSingle_eq : b'.forceSingle = b.forceSingle

theorem Grown.refl (wf : b.Wf) : Grown b b := ⟨wf, rfl, fun _ => rfl, fun _ => rfl, rfl, rfl⟩

theorem Grown.allocated {b' b'' : Builder} {s w n : Nat} (grown : Grown b b')
    (allocated : Allocated b' s w n b'') : Allocated b s w n b'' where
  wf := allocated.wf
  nsegs_le := by rw [← grown.nsegs_eq]; exact allocated.nsegs_le
  seg_lt := allocated.seg_lt
  start := by rw [← grown.words_eq]; exact allocated.start
  words_self := allocated.words_self
  words_other t ne := by rw [allocated.words_other t ne, grown.words_eq]
  data_eq t := by rw [allocated.data_eq, grown.data_eq]
  maxSegWords_eq := by rw [allocated.maxSegWords_eq, grown.maxSegWords_eq]
  forceSingle_eq := by rw [allocated.forceSingle_eq, grown.forceSingle_eq]

theorem grown_regrow (wf : b.Wf) {s ncap : Nat} (segLt : s < b.nsegs)
    (larger : (b.seg s).cap ≤ ncap) : Grown b (b.setSeg s (regrow (b.seg s) ncap)) := by
  have words : ∀ t, ((b.setSeg s (regrow (b.seg s) ncap)).seg t).words = (b.seg t).words := by
    intro t
    by_cases same : t = s <;> simp [same, regrow]
  have data : ∀ t, ((b.setSeg s (regrow (b.seg s) ncap)).seg t).data = (b.seg t).data := by
    intro t
    by_cases same : t = s
    · simp [same, regrow_data wf]
    · simp [same]
  refine ⟨⟨wf.nonempty, fun t => ?_, fun t i => ?_, fun t => ?_⟩, rfl, words, data, rfl, rfl⟩
  · rw [words]
    by_cases same : t = s
    · subst same
      simpa [regrow] using (wf.words_le t).trans larger
    · simpa [same] using wf.words_le t
  · rw [words, data]
    exact wf.clear t i
  · rw [words]
    exact wf.unused t

theorem le_growCap (fuel ncap need : Nat) : ncap ≤ growCap fuel ncap need := by
  induction fuel generalizing ncap with
  | zero => exact le_rfl
  | succ fuel ih =>
      rw [growCap]
      split
      · exact le_trans (by omega) (ih (ncap * 2))
      · exact le_rfl

/-- The fuel of the doubling loop suffices. -/
theorem need_le_growCap {fuel ncap need : Nat} (positive : 0 < ncap) (enough : need ≤ ncap + fuel) :
    need ≤ growCap fuel ncap need := by
  induction fuel generalizing ncap with
  | zero => exact enough
  | succ fuel ih =>
      rw [growCap]
      split
      · exact ih (by omega) (by omega)
      · omega

/-! ## Allocators -/

/-- `seg_ensure` gives the capacity it is asked for, or fails and changes
nothing. -/
theorem segEnsure_ends (wf : b.Wf) (seg need : Nat) :
    Ends (segEnsure seg need b)
      (fun _ b' => Grown b b' ∧ seg < b.nsegs ∧ need ≤ (b'.seg seg).cap) (· = b) := by
  unfold segEnsure
  by_cases outside : seg ≥ b.nsegs
  · rw [if_pos outside]
    rfl
  rw [if_neg outside]
  have segLt : seg < b.nsegs := by omega
  by_cases fits : need ≤ (b.seg seg).cap
  · rw [if_pos fits]
    exact ⟨Grown.refl wf, segLt, fits⟩
  rw [if_neg fits]
  split
  · rfl
  generalize (if (b.seg seg).cap ≠ 0 then (b.seg seg).cap * 2 else 16) = first
  dsimp only
  split
  · rfl
  · next enough =>
      refine ⟨grown_regrow wf segLt (by omega), segLt, ?_⟩
      simp only [setSeg_seg, if_true, regrow]
      omega

/-- The state after `append_segment`. -/
theorem appendSegment_spec (wf : b.Wf) (capWords : Nat) :
    ∃ b', appendSegment capWords b = .ok () b' ∧ b'.nsegs = b.nsegs + 1 ∧
      (b'.seg b.nsegs).cap = min (max capWords 1) b.limWords ∧ Grown { b with nsegs := b'.nsegs } b' := by
  refine ⟨_, rfl, rfl, by simp, ?_⟩
  have data : ∀ t, ((b.setSeg b.nsegs ⟨fun _ => 0, 0, min (max capWords 1) b.limWords⟩).seg t).data =
      (b.seg t).data := by
    intro t
    by_cases same : t = b.nsegs
    · subst same
      funext i
      simp only [setSeg_seg, if_true]
      exact (wf.clear _ i (by rw [wf.unused _ le_rfl]; omega)).symm
    · simp [same]
  have words : ∀ t,
      ((b.setSeg b.nsegs ⟨fun _ => 0, 0, min (max capWords 1) b.limWords⟩).seg t).words =
        (b.seg t).words := by
    intro t
    by_cases same : t = b.nsegs
    · subst same
      simp [wf.unused _ le_rfl]
    · simp [same]
  refine ⟨⟨Nat.succ_pos _, fun t => ?_, fun t i => ?_, fun t => ?_⟩, rfl, words, data, rfl, rfl⟩
  · by_cases same : t = b.nsegs
    · subst same; simp
    · simpa [same] using wf.words_le t
  · rw [words, data]
    exact wf.clear t i
  · intro unused
    rw [words]
    exact wf.unused t (by dsimp only at unused; omega)

/-- Words handed out in the segment `append_segment` has just added. -/
theorem allocated_append (wf : b.Wf) {b' : Builder} {capWords n : Nat}
    (appended : appendSegment capWords b = .ok () b')
    (room : n ≤ min (max capWords 1) b.limWords) :
    Allocated b (b'.nsegs - 1) 0 n (b'.bump (b'.nsegs - 1) n) := by
  obtain ⟨b'', run, nsegs, cap, grown⟩ := appendSegment_spec wf capWords
  cases appended.symm.trans run
  have last : b'.nsegs - 1 = b.nsegs := by omega
  have fresh : (b'.seg b.nsegs).words = 0 := by
    rw [grown.words_eq]
    exact wf.unused _ le_rfl
  rw [last]
  have bumped := allocated_bump grown.wf (s := b.nsegs) (n := n) (by omega) (by rw [fresh, cap]; omega)
  rw [fresh] at bumped
  exact {
    wf := bumped.wf
    nsegs_le := by rw [bump_nsegs]; omega
    seg_lt := bumped.seg_lt
    start := (wf.unused _ le_rfl).symm
    words_self := bumped.words_self
    words_other := fun t ne => by rw [bumped.words_other t ne, grown.words_eq]
    data_eq := fun t => by rw [bumped.data_eq, grown.data_eq]
    maxSegWords_eq := by rw [bumped.maxSegWords_eq, grown.maxSegWords_eq]
    forceSingle_eq := by rw [bumped.forceSingle_eq, grown.forceSingle_eq] }

theorem limWords_pos (b : Builder) : 0 < b.limWords := by
  unfold limWords builderMaxSegmentWords
  split <;> omega

/-- `alloc_words` hands out words of the last segment, or fails and changes
nothing. -/
theorem allocWords_ends (wf : b.Wf) (n : Nat) :
    Ends (allocWords n b)
      (fun at' b' => Allocated b at'.1 at'.2 n b' ∧ at'.1 = b'.nsegs - 1) (· = b) := by
  have some := wf.nonempty
  have limit := b.limWords_pos
  unfold allocWords
  dsimp only
  rw [if_neg (by omega)]
  split
  · rfl
  by_cases room : (b.seg (b.nsegs - 1)).words + n ≤ (b.seg (b.nsegs - 1)).cap ∧
      (b.seg (b.nsegs - 1)).words + n ≤ b.limWords
  · rw [if_pos room]
    exact ⟨allocated_bump wf (by omega) room.1, rfl⟩
  rw [if_neg room]
  by_cases single : b.forceSingle = true
  · rw [if_pos single]
    have ensured := segEnsure_ends wf (b.nsegs - 1) ((b.seg (b.nsegs - 1)).words + n)
    cases run : segEnsure (b.nsegs - 1) ((b.seg (b.nsegs - 1)).words + n) b with
    | error rc b' =>
        rw [run] at ensured
        exact ensured
    | ok _ b' =>
        rw [run] at ensured
        obtain ⟨grown, segLt, cap⟩ := ensured
        have words := grown.words_eq (b.nsegs - 1)
        refine ⟨grown.allocated (allocated_bump grown.wf ?_ ?_), ?_⟩
        · rw [grown.nsegs_eq]
          exact segLt
        · dsimp only
          omega
        · simp [grown.nsegs_eq]
  · rw [if_neg single]
    generalize (if (b.seg (b.nsegs - 1)).cap ≠ 0 then (b.seg (b.nsegs - 1)).cap * 2 else 16) =
      double
    split
    · rfl
    · obtain ⟨b', run, -⟩ := appendSegment_spec wf (min (max double n) b.limWords)
      rw [run]
      exact ⟨allocated_append wf run (by omega), rfl⟩

/-- `alloc_in` hands out words at the end of the given segment, or fails and
changes nothing. -/
theorem allocIn_ends (wf : b.Wf) (seg n : Nat) :
    Ends (allocIn seg n b) (fun w b' => Allocated b seg w n b' ∧ b'.nsegs = b.nsegs) (· = b) := by
  unfold allocIn
  split
  · rfl
  split
  · rfl
  have ensured := segEnsure_ends wf seg ((b.seg seg).words + n)
  cases run : segEnsure seg ((b.seg seg).words + n) b with
  | error rc b' =>
      rw [run] at ensured
      exact ensured
  | ok _ b' =>
      rw [run] at ensured
      obtain ⟨grown, segLt, cap⟩ := ensured
      have words := grown.words_eq seg
      refine ⟨grown.allocated (allocated_bump grown.wf ?_ ?_), ?_⟩
      · rw [grown.nsegs_eq]
        exact segLt
      · omega
      · simp [grown.nsegs_eq]

/-- The limit plays no role in the invariant. -/
theorem Wf.withLimit (wf : b.Wf) (limit : Nat) : { b with maxSegWords := limit }.Wf :=
  ⟨wf.nonempty, wf.words_le, wf.clear, wf.unused⟩

theorem Allocated.withLimit {limit s w n : Nat} {b' : Builder}
    (allocated : Allocated { b with maxSegWords := limit } s w n b') :
    Allocated b s w n { b' with maxSegWords := b.maxSegWords } :=
  { allocated with
    wf := allocated.wf.withLimit _
    maxSegWords_eq := rfl }

/-- `alloc_pad_segment` adds a segment for the pad.  The limit is raised for
the call, so there always is room. -/
theorem allocPadSegment_spec (wf : b.Wf) {n : Nat} (positive : 0 < n)
    (small : n ≤ builderMaxSegmentWords) :
    ∃ b', allocPadSegment n b = .ok (b.nsegs, 0) b' ∧ Allocated b b.nsegs 0 n b' ∧
      b'.nsegs = b.nsegs + 1 := by
  have need : max n 1 = n := by omega
  unfold allocPadSegment
  simp only [need]
  -- the builder the segment is appended to differs from `b` in its limit only
  obtain ⟨limit, raisedEq, room⟩ : ∃ limit,
      (if b.maxSegWords ≠ 0 ∧ b.maxSegWords < n then { b with maxSegWords := n } else b) =
        { b with maxSegWords := limit } ∧
      n ≤ ({ b with maxSegWords := limit } : Builder).limWords := by
    by_cases low : b.maxSegWords ≠ 0 ∧ b.maxSegWords < n
    · refine ⟨n, if_pos low, ?_⟩
      simp only [limWords]
      split <;> omega
    · refine ⟨b.maxSegWords, if_neg low, ?_⟩
      simp only [limWords]
      split <;> omega
  rw [raisedEq]
  obtain ⟨b', run, nsegs, -⟩ := appendSegment_spec (wf.withLimit limit) n
  have last : b'.nsegs - 1 = b.nsegs := by
    dsimp only at nsegs
    omega
  have allocated := allocated_append (wf.withLimit limit) run (n := n) (by omega)
  rw [last] at allocated
  rw [run]
  simp only [last]
  exact ⟨_, rfl, allocated.withLimit, nsegs⟩

end

end Builder

end CapnpJanet
