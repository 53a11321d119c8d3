import CapnpJanet.Builder.Links

/-!
# The ceiling of a segment

As long as nobody raises the limit of a segment above the default one, no
allocation makes a segment larger than that.  The capacities carry the
invariant: the words of a segment stay below its capacity, and capacities grow
only up to the limit in force.  Each allocation adds at most one segment.
-/

namespace CapnpJanet

open ByteMemory Outcome

namespace Builder

/-- No segment has room for more than the default limit, and the limit in force
is not above it. -/
structure Ceiling (b : Builder) : Prop where
  caps : ∀ s, (b.seg s).cap ≤ builderMaxSegmentWords
  limit : b.limWords ≤ builderMaxSegmentWords

/-- A segment that cannot be extended is left alone. -/
theorem segEnsure_failed {b b' : Builder} {s n : Nat} {rc : Status}
    (run : segEnsure s n b = .error rc b') : b' = b := by
  unfold segEnsure at run
  split at run
  · cases run
    rfl
  · split at run
    · cases run
    · split at run
      · cases run
        rfl
      · dsimp only at run
        generalize (if (b.seg s).cap ≠ 0 then (b.seg s).cap * 2 else 16) = double at run
        split at run
        · cases run
          rfl
        · cases run

theorem allocIn_failed {b b' : Builder} {s n : Nat} {rc : Status}
    (run : allocIn s n b = .error rc b') : b' = b := by
  unfold allocIn at run
  split at run
  · cases run
    rfl
  · split at run
    · cases run
      rfl
    · split at run
      · next failed =>
        cases run
        exact segEnsure_failed failed
      · cases run

namespace Ceiling

variable {b b' : Builder} {n s w : Nat}

theorem inLimit (ceiling : Ceiling b) (wf : b.Wf) : b.InLimit := fun s =>
  (wf.words_le s).trans (ceiling.caps s)

/-- A segment that is not above the ceiling may be put in place. -/
theorem setSeg (ceiling : Ceiling b) {seg : BSeg} (room : seg.cap ≤ builderMaxSegmentWords) :
    Ceiling (b.setSeg s seg) where
  caps t := by
    rw [setSeg_seg]
    split
    · exact room
    · exact ceiling.caps t
  limit := ceiling.limit

theorem bump (ceiling : Ceiling b) : Ceiling (b.bump s n) := ceiling.setSeg (ceiling.caps s)

theorem setData (ceiling : Ceiling b) (data : Memory) : Ceiling (b.setData s data) :=
  ceiling.setSeg (ceiling.caps s)

theorem storeW (ceiling : Ceiling b) (word v : Nat) : Ceiling (b.storeW s word v) :=
  ceiling.setData _

theorem segEnsure (ceiling : Ceiling b) (run : segEnsure s n b = .ok () b') : Ceiling b' := by
  unfold Builder.segEnsure at run
  split at run
  · cases run
  · split at run
    · cases run
      exact ceiling
    · split at run
      · cases run
      · dsimp only at run
        generalize (if (b.seg s).cap ≠ 0 then (b.seg s).cap * 2 else 16) = double at run
        split at run
        · cases run
        · cases run
          exact ceiling.setSeg ((min_le_right _ _).trans ceiling.limit)

theorem appendSegment (ceiling : Ceiling b) (run : appendSegment n b = .ok () b') : Ceiling b' := by
  cases run
  have room : min (max n 1) b.limWords ≤ builderMaxSegmentWords :=
    (min_le_right _ _).trans ceiling.limit
  have added : Ceiling (b.setSeg b.nsegs ⟨fun _ => 0, 0, min (max n 1) b.limWords⟩) :=
    ceiling.setSeg room
  exact ⟨added.caps, added.limit⟩

theorem allocWords (ceiling : Ceiling b) (run : allocWords n b = .ok (s, w) b') : Ceiling b' := by
  unfold Builder.allocWords at run
  dsimp only at run
  generalize (if (b.seg (b.nsegs - 1)).cap ≠ 0 then (b.seg (b.nsegs - 1)).cap * 2 else 16) =
    double at run
  split at run
  · cases run
  · split at run
    · cases run
    · split at run
      · cases run
        exact ceiling.bump
      · split at run
        · split at run
          · cases run
          · next grown =>
            cases run
            exact (ceiling.segEnsure grown).bump
        · split at run
          · cases run
          · split at run
            · cases run
            · next appended =>
              cases run
              exact (ceiling.appendSegment appended).bump

theorem allocIn (ceiling : Ceiling b) (run : allocIn s n b = .ok w b') : Ceiling b' := by
  unfold Builder.allocIn at run
  split at run
  · cases run
  · split at run
    · cases run
    · split at run
      · cases run
      · next grown =>
        cases run
        exact (ceiling.segEnsure grown).bump

/-- The segment of a landing pad is small, whatever the limit. -/
theorem allocPadSegment (ceiling : Ceiling b) (small : n ≤ builderMaxSegmentWords)
    (run : allocPadSegment n b = .ok (s, w) b') : Ceiling b' := by
  unfold Builder.allocPadSegment at run
  dsimp only at run
  split at run
  · cases run
  · next appended =>
    cases run
    have raised : Ceiling (if b.maxSegWords ≠ 0 ∧ b.maxSegWords < max n 1 then
        { b with maxSegWords := max n 1 } else b) := by
      split
      · refine ⟨ceiling.caps, ?_⟩
        unfold limWords
        dsimp only
        split
        · exact max_le small (by decide)
        · exact le_rfl
      · exact ceiling
    exact Ceiling.bump ⟨(raised.appendSegment appended).caps, ceiling.limit⟩

theorem writePtr (ceiling : Ceiling b) (make : Int → Nat) {slotSeg slotWord bodySeg bodyWord : Nat}
    (run : writePtr make slotSeg slotWord bodySeg bodyWord b = .ok () b') : Ceiling b' := by
  unfold Builder.writePtr at run
  split at run
  · cases run
    exact ceiling.storeW _ _
  · split at run
    · next pad b₁ found =>
      cases run
      exact ((ceiling.allocIn found).storeW _ _).storeW _ _
    · next rc b₁ failed =>
      obtain rfl := allocIn_failed failed
      split at run
      · cases run
      · next added =>
        cases run
        exact (((ceiling.allocPadSegment (by decide) added).storeW _ _).storeW _ _).storeW _ _

theorem writeListBody (ceiling : Ceiling b) {slotSeg slotWord count nbytes : Nat} {esize : ElemSize}
    {fill : Memory → Nat → Memory}
    (run : writeListBody slotSeg slotWord esize count nbytes fill b = .ok () b') : Ceiling b' := by
  unfold Builder.writeListBody at run
  split at run
  · split at run
    · cases run
    · next found => exact ((ceiling.allocWords found).setData _).writePtr _ run
  · exact ceiling.writePtr _ run

theorem writeTexts {texts : List (List UInt8)} (ceiling : Ceiling b)
    (run : writeTexts s w texts b = .ok () b') : Ceiling b' := by
  induction texts generalizing b w with
  | nil =>
      cases run
      exact ceiling
  | cons text rest ih =>
      rw [Builder.writeTexts] at run
      dsimp only at run
      split at run
      · cases run
      · next written => exact ih (ceiling.writeListBody written) run

theorem setListTextN {body : BPtr} {dwords ptrIndex : Nat} {items : List (List UInt8)}
    (ceiling : Ceiling b) (run : setListTextN body dwords ptrIndex items b = .ok () b') :
    Ceiling b' := by
  obtain ⟨-, run⟩ := withSlot_ok run
  split at run
  · cases run
  · next list start b₁ found =>
    have allocated : Ceiling b₁ := by
      split at found
      · exact ceiling.allocWords found
      · cases found
        exact ceiling
    split at run
    · cases run
    · next written => exact (allocated.writePtr _ written).writeTexts run

theorem setListStruct {body first : BPtr} {dwords ptrIndex nitems elemDwords elemPwords : Nat}
    (ceiling : Ceiling b)
    (run : setListStruct body dwords ptrIndex nitems elemDwords elemPwords b = .ok first b') :
    Ceiling b' := by
  unfold Builder.setListStruct slot at run
  dsimp only at run
  split at run
  · cases run
  · next checked =>
    split at checked
    · cases checked
    · cases checked
      split at run
      · cases run
      · next found =>
        split at run
        · cases run
        · next written =>
          cases run
          exact ((ceiling.allocWords found).storeW _ _).writePtr _ written

theorem root {ptr : BPtr} (ceiling : Ceiling b) (run : root b = .ok ptr b') : Ceiling b' := by
  unfold Builder.root at run
  split at run
  · cases run
  · split at run
    · cases run
    · next found =>
      split at run
      · cases run
      · cases run
        exact ceiling.allocWords found

theorem struct (ceiling : Ceiling b) {ptr body : BPtr} {dwords pwords : Nat}
    (run : struct ptr dwords pwords b = .ok body b') : Ceiling b' := by
  unfold Builder.struct at run
  split at run
  · cases run
    exact ceiling.storeW _ _
  · split at run
    · cases run
    · next found =>
      split at run
      · cases run
      · next written =>
        cases run
        exact (ceiling.allocWords found).writePtr _ written

theorem setScalar (ceiling : Ceiling b) {body : BPtr} {width byteOffset value : Nat}
    (run : setScalar width body byteOffset value b = .ok () b') : Ceiling b' := by
  unfold Builder.setScalar at run
  dsimp only at run
  split at run
  · cases run
  · cases run
    exact ceiling.setData _

theorem setBool (ceiling : Ceiling b) {body : BPtr} {bitOffset : Nat} {value : Bool}
    (run : setBool body bitOffset value b = .ok () b') : Ceiling b' := by
  unfold Builder.setBool at run
  dsimp only at run
  split at run
  · cases run
  · cases run
    exact ceiling.setData _

theorem initSized (firstWords : Nat) : Ceiling (initSized firstWords) :=
  appendSegment (b := zero) ⟨fun _ => Nat.zero_le _, le_rfl⟩ rfl

/-- A limit that is not above the ceiling may be set. -/
theorem setMaxSegWords {limit : Nat} (ceiling : Ceiling b) (small : limit ≤ builderMaxSegmentWords) :
    Ceiling (b.setMaxSegWords limit) := by
  refine ⟨ceiling.caps, ?_⟩
  unfold limWords Builder.setMaxSegWords
  dsimp only
  split
  · exact small
  · exact le_rfl

end Ceiling

/-! ## The number of segments -/

section
variable {b b' : Builder} {n s w : Nat}

theorem segEnsure_nsegs (run : segEnsure s n b = .ok () b') : b'.nsegs = b.nsegs := by
  unfold segEnsure at run
  split at run
  · cases run
  · split at run
    · cases run
      rfl
    · split at run
      · cases run
      · dsimp only at run
        generalize (if (b.seg s).cap ≠ 0 then (b.seg s).cap * 2 else 16) = double at run
        split at run
        · cases run
        · cases run
          rfl

theorem allocIn_nsegs (run : allocIn s n b = .ok w b') : b'.nsegs = b.nsegs := by
  unfold allocIn at run
  split at run
  · cases run
  · split at run
    · cases run
    · split at run
      · cases run
      · next ensured =>
        cases run
        exact (bump_nsegs _ _ _).trans (segEnsure_nsegs ensured)

theorem allocWords_nsegs_le (run : allocWords n b = .ok (s, w) b') : b'.nsegs ≤ b.nsegs + 1 := by
  unfold allocWords at run
  dsimp only at run
  generalize (if (b.seg (b.nsegs - 1)).cap ≠ 0 then (b.seg (b.nsegs - 1)).cap * 2 else 16) =
    double at run
  split at run
  · cases run
  split at run
  · cases run
  split at run
  · cases run
    exact Nat.le_succ _
  split at run
  · split at run
    · cases run
    · next ensured =>
      cases run
      exact (segEnsure_nsegs ensured).le.trans (Nat.le_succ _)
  split at run
  · cases run
  · cases run
    exact le_rfl

/-- A pointer takes at most one more segment. -/
theorem writePtr_nsegs_le {make : Int → Nat} {slotSeg slotWord bodySeg bodyWord : Nat}
    (run : writePtr make slotSeg slotWord bodySeg bodyWord b = .ok () b') :
    b'.nsegs ≤ b.nsegs + 1 := by
  unfold writePtr at run
  split at run
  · cases run
    exact Nat.le_succ _
  · split at run
    · next found =>
      cases run
      exact (allocIn_nsegs found).le.trans (Nat.le_succ _)
    · next failed =>
      obtain rfl := allocIn_failed failed
      split at run
      · cases run
      · next added =>
        cases run
        unfold allocPadSegment at added
        dsimp only at added
        split at added
        · cases added
        · next appended =>
          cases appended
          cases added
          change (if _ then _ else _ : Builder).nsegs + 1 ≤ _
          split <;> exact le_rfl

/-- A list takes at most two more segments. -/
theorem writeListBody_nsegs_le {slotSeg slotWord count nbytes : Nat} {esize : ElemSize}
    {fill : Memory → Nat → Memory}
    (run : writeListBody slotSeg slotWord esize count nbytes fill b = .ok () b') :
    b'.nsegs ≤ b.nsegs + 2 := by
  unfold writeListBody at run
  split at run
  · split at run
    · cases run
    · next found =>
      have words := allocWords_nsegs_le found
      have pointer := writePtr_nsegs_le run
      change b'.nsegs ≤ Builder.nsegs _ + 1 at pointer
      exact pointer.trans (Nat.succ_le_succ words)
  · exact (writePtr_nsegs_le run).trans (Nat.le_succ _)

/-- A struct takes at most two more segments. -/
theorem struct_nsegs_le {ptr body : BPtr} {dwords pwords : Nat}
    (run : struct ptr dwords pwords b = .ok body b') : b'.nsegs ≤ b.nsegs + 2 := by
  unfold struct at run
  split at run
  · cases run
    exact Nat.le_add_right _ 2
  · split at run
    · cases run
    · next found =>
      split at run
      · cases run
      · next written =>
        cases run
        exact (writePtr_nsegs_le written).trans (Nat.succ_le_succ (allocWords_nsegs_le found))

theorem root_nsegs_le {ptr : BPtr} (run : root b = .ok ptr b') : b'.nsegs ≤ b.nsegs + 1 := by
  unfold root at run
  split at run
  · cases run
  · split at run
    · cases run
    · next found =>
      split at run
      · cases run
      · cases run
        exact allocWords_nsegs_le found

end

end Builder

end CapnpJanet
