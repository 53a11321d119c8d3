import CapnpJanet.Builder.Ceiling
import CapnpJanet.Builder.Failures
import CapnpJanet.Builder.Program

/-!
# Segments double

A builder without limits of its own asks for a new segment when the last one is full,
and makes it twice as large.  So two neighbouring segments hold more words than the
first of them could, and the sizes go up with the powers of two: the number of segments
is logarithmic in the words of the message.

Words and segments only grow, so it is enough to ask for small segments at the end.
-/

namespace CapnpJanet

open ByteMemory Outcome

namespace Builder

/-- The least room of a segment, if the first one has so many words. -/
def doubled (firstWords s : Nat) : Nat := min (firstWords * 2 ^ s) builderMaxSegmentWords

/-- Every segment has its room, and those that are not the last are full together with
the next one. -/
structure Doubling (firstWords : Nat) (b : Builder) : Prop where
  caps : ∀ s < b.nsegs, doubled firstWords s ≤ (b.seg s).cap
  full : ∀ s, s + 1 < b.nsegs → doubled firstWords s < (b.seg s).words + (b.seg (s + 1)).words

/-- The builder spreads over segments of any size. -/
def Free (b : Builder) : Prop := b.maxSegWords = 0 ∧ b.forceSingle = false

/-- No segment has reached the limit. -/
def Below (b : Builder) : Prop := ∀ s < b.nsegs, (b.seg s).words < builderMaxSegmentWords

/-- A step that only adds words and segments, in the way that keeps them doubling. -/
structure Doubles (firstWords : Nat) (b b' : Builder) : Prop where
  nsegs_le : b.nsegs ≤ b'.nsegs
  words_le : ∀ s < b.nsegs, (b.seg s).words ≤ (b'.seg s).words
  free : b.Free → b'.Free
  keeps : b.Free → b'.Below → b.Doubling firstWords → b'.Doubling firstWords

variable {firstWords : Nat} {b b' b'' : Builder} {n s w : Nat}

theorem doubling_initSized (firstWords : Nat) : (initSized firstWords).Doubling firstWords where
  caps s inside := by
    have first : s = 0 := Nat.lt_one_iff.mp inside
    subst first
    change min (firstWords * 2 ^ 0) builderMaxSegmentWords ≤
      min (max (min (max firstWords 1) builderMaxSegmentWords) 1) builderMaxSegmentWords
    omega
  full s inside := absurd inside (Nat.not_lt.mpr (Nat.le_add_left 1 s))

theorem Free.limWords_eq (free : b.Free) : b.limWords = builderMaxSegmentWords := by
  rw [limWords, free.1]
  rfl

theorem Unlimited.free (unlimited : Unlimited b) : b.Free := ⟨unlimited.limit, unlimited.spreads⟩

namespace Doubles

theorem below (doubles : Doubles firstWords b b') (below : b'.Below) : b.Below := fun s inside =>
  (doubles.words_le s inside).trans_lt (below s (inside.trans_le doubles.nsegs_le))

theorem refl (b : Builder) : Doubles firstWords b b :=
  ⟨le_rfl, fun _ _ => le_rfl, id, fun _ _ => id⟩

theorem trans (first : Doubles firstWords b b') (second : Doubles firstWords b' b'') :
    Doubles firstWords b b'' where
  nsegs_le := first.nsegs_le.trans second.nsegs_le
  words_le s inside :=
    (first.words_le s inside).trans (second.words_le s (inside.trans_le first.nsegs_le))
  free := second.free ∘ first.free
  keeps free below doubling :=
    second.keeps (first.free free) below (first.keeps free (second.below below) doubling)

/-- Words and room may grow in the segments that are there. -/
theorem of_grown (nsegs : b'.nsegs = b.nsegs) (words : ∀ s, (b.seg s).words ≤ (b'.seg s).words)
    (caps : ∀ s, (b.seg s).cap ≤ (b'.seg s).cap) (limit : b'.maxSegWords = b.maxSegWords)
    (spreads : b'.forceSingle = b.forceSingle) : Doubles firstWords b b' where
  nsegs_le := nsegs.ge
  words_le s _ := words s
  free free := ⟨limit.trans free.1, spreads.trans free.2⟩
  keeps _ _ doubling := by
    refine ⟨fun s inside => ?_, fun s inside => ?_⟩
    · exact (doubling.caps s (nsegs ▸ inside)).trans (caps s)
    · exact (doubling.full s (nsegs ▸ inside)).trans_le (Nat.add_le_add (words s) (words (s + 1)))

theorem setSeg {seg : BSeg} (words : (b.seg s).words ≤ seg.words) (caps : (b.seg s).cap ≤ seg.cap) :
    Doubles firstWords b (b.setSeg s seg) := by
  refine of_grown rfl (fun t => ?_) (fun t => ?_) rfl rfl
  · rw [setSeg_seg]
    split
    · next same => exact same ▸ words
    · exact le_rfl
  · rw [setSeg_seg]
    split
    · next same => exact same ▸ caps
    · exact le_rfl

theorem setData (data : Memory) : Doubles firstWords b (b.setData s data) := setSeg le_rfl le_rfl

theorem storeW (word v : Nat) : Doubles firstWords b (b.storeW s word v) := setData _

theorem bump : Doubles firstWords b (b.bump s n) := setSeg (Nat.le_add_right _ _) le_rfl

theorem segEnsure (run : segEnsure s n b = .ok () b') : Doubles firstWords b b' := by
  unfold Builder.segEnsure at run
  split at run
  · cases run
  · split at run
    · cases run
      exact refl b
    · next more =>
      split at run
      · cases run
      · dsimp only at run
        generalize (if (b.seg s).cap ≠ 0 then (b.seg s).cap * 2 else 16) = double at run
        split at run
        · cases run
        · next enough =>
          cases run
          refine setSeg le_rfl ?_
          change (b.seg s).cap ≤ min (growCap n double n) b.limWords
          omega

theorem allocIn (run : allocIn s n b = .ok w b') : Doubles firstWords b b' := by
  unfold Builder.allocIn at run
  split at run
  · cases run
  · split at run
    · cases run
    · split at run
      · cases run
      · next grown =>
        cases run
        exact (segEnsure grown).trans bump

/-- A new segment has twice the room of the last one, which was full. -/
theorem append (some : b.nsegs ≠ 0) (nsegs : b'.nsegs = b.nsegs + 1)
    (old : ∀ s < b.nsegs, b'.seg s = b.seg s)
    (twice : min (2 * (b.seg (b.nsegs - 1)).cap) builderMaxSegmentWords ≤ (b'.seg b.nsegs).cap)
    (full : min (b.seg (b.nsegs - 1)).cap builderMaxSegmentWords <
      (b.seg (b.nsegs - 1)).words + (b'.seg b.nsegs).words)
    (doubling : b.Doubling firstWords) : b'.Doubling firstWords := by
  have last : b.nsegs - 1 < b.nsegs := by omega
  have next : b.nsegs - 1 + 1 = b.nsegs := by omega
  have room := doubling.caps _ last
  unfold doubled at room
  refine ⟨fun s inside => ?_, fun s inside => ?_⟩
  · by_cases before : s < b.nsegs
    · rw [old s before]
      exact doubling.caps s before
    · obtain rfl : s = b.nsegs := by omega
      have power : firstWords * 2 ^ b.nsegs = 2 * (firstWords * 2 ^ (b.nsegs - 1)) := by
        rw [← next, pow_succ, Nat.add_sub_cancel]
        ring
      unfold doubled
      omega
  · by_cases before : s + 1 < b.nsegs
    · rw [old s (by omega), old (s + 1) before]
      exact doubling.full s before
    · obtain rfl : s = b.nsegs - 1 := by omega
      rw [old _ last, next]
      unfold doubled
      omega

/-- The segments after one has been added, and words taken from it. -/
theorem seg_added (b : Builder) (cap n s : Nat) :
    (Builder.bump { b.setSeg b.nsegs ⟨fun _ => 0, 0, cap⟩ with nsegs := b.nsegs + 1 } b.nsegs n).seg s =
      if s = b.nsegs then ⟨fun _ => 0, n, cap⟩ else b.seg s := by
  rw [bump_seg]
  dsimp only
  rw [setSeg_seg, setSeg_seg, if_pos rfl, Nat.zero_add]
  split <;> rfl

/-- An allocation keeps the segments doubling. -/
theorem allocWords (run : allocWords n b = .ok (s, w) b') :
    Doubles firstWords b b' ∧ s < b'.nsegs := by
  unfold Builder.allocWords at run
  dsimp only at run
  have twice : (b.seg (b.nsegs - 1)).cap * 2 ≤
      if (b.seg (b.nsegs - 1)).cap ≠ 0 then (b.seg (b.nsegs - 1)).cap * 2 else 16 := by
    split <;> omega
  generalize (if (b.seg (b.nsegs - 1)).cap ≠ 0 then (b.seg (b.nsegs - 1)).cap * 2 else 16) =
    double at run twice
  split at run
  · cases run
  · next some =>
    split at run
    · cases run
    · next small =>
      split at run
      · cases run
        exact ⟨bump, Nat.sub_one_lt some⟩
      · next full =>
        split at run
        · split at run
          · cases run
          · next grown =>
            cases run
            have ensured : Doubles firstWords b _ := segEnsure grown
            exact ⟨ensured.trans bump, (Nat.sub_one_lt some).trans_le ensured.nsegs_le⟩
        · split at run
          · cases run
          · next enough =>
            cases run
            have added := seg_added b (min (max (min (max double n) b.limWords) 1) b.limWords) n
            have old (s : Nat) (inside : s < b.nsegs) := (added s).trans (if_neg inside.ne)
            refine ⟨⟨Nat.le_succ _, fun s inside => ?_, id, fun free below => ?_⟩, Nat.lt_succ_self _⟩
            · exact (congrArg BSeg.words (old s inside)).ge
            · have limit := free.limWords_eq
              refine append some rfl old ?_ ?_
              · rw [Nat.add_sub_cancel, added, if_pos rfl, limit]
                dsimp only
                omega
              · rw [Nat.add_sub_cancel, added, if_pos rfl]
                dsimp only
                omega

/-- Below the limit there is room for one more word. -/
theorem allocIn_total (free : b.Free) (segLt : s < b.nsegs)
    (below : (b.seg s).words < builderMaxSegmentWords) :
    ∃ w b', Builder.allocIn s 1 b = .ok w b' := by
  have limit := free.limWords_eq
  have ensured : ∃ b', Builder.segEnsure s ((b.seg s).words + 1) b = .ok () b' := by
    unfold Builder.segEnsure
    rw [if_neg (not_le.mpr segLt)]
    split
    · exact ⟨b, rfl⟩
    · rw [if_neg (by omega)]
      have positive : 0 < if (b.seg s).cap ≠ 0 then (b.seg s).cap * 2 else 16 := by
        split <;> omega
      generalize (if (b.seg s).cap ≠ 0 then (b.seg s).cap * 2 else 16) = double at positive ⊢
      have enough : (b.seg s).words + 1 ≤ growCap ((b.seg s).words + 1) double ((b.seg s).words + 1) :=
        need_le_growCap positive (Nat.le_add_left _ _)
      dsimp only
      rw [if_neg (by omega)]
      exact ⟨_, rfl⟩
  obtain ⟨b', run⟩ := ensured
  unfold Builder.allocIn
  rw [if_neg (not_le.mpr segLt), if_neg (by omega), run]
  exact ⟨_, _, rfl⟩

/-- A segment for a pad is only added where a segment has reached the limit. -/
theorem allocPadSegment (reached : b.Free → ¬b.Below) (run : allocPadSegment n b = .ok (s, w) b') :
    Doubles firstWords b b' := by
  unfold Builder.allocPadSegment at run
  dsimp only at run
  obtain ⟨limit, raised⟩ : ∃ limit,
      (if b.maxSegWords ≠ 0 ∧ b.maxSegWords < max n 1 then { b with maxSegWords := max n 1 } else b) =
        { b with maxSegWords := limit } := by
    split
    · exact ⟨_, rfl⟩
    · exact ⟨b.maxSegWords, rfl⟩
  rw [raised] at run
  cases run
  have old (s : Nat) (inside : s < b.nsegs) := (seg_added b (min (max (max n 1) 1)
    (limWords { b with maxSegWords := limit })) (max n 1) s).trans (if_neg inside.ne)
  refine ⟨Nat.le_succ _, fun s inside => (congrArg BSeg.words (old s inside)).ge, id,
    fun free below => ?_⟩
  refine absurd (fun s inside => ?_) (reached free)
  have same := congrArg BSeg.words (old s inside)
  exact same.symm.trans_lt (below s (Nat.lt_succ_of_lt inside))

/-- A pointer keeps the segments doubling.  Below the limit its pad has room in the
segment that it leads to. -/
theorem writePtr {make : Int → Nat} {slotSeg slotWord bodySeg bodyWord : Nat}
    (inside : slotSeg = bodySeg ∨ bodySeg < b.nsegs)
    (run : writePtr make slotSeg slotWord bodySeg bodyWord b = .ok () b') :
    Doubles firstWords b b' := by
  unfold Builder.writePtr at run
  split at run
  · cases run
    exact storeW _ _
  · next apart =>
    have segLt : bodySeg < b.nsegs := inside.resolve_left apart
    split at run
    · next found =>
      cases run
      exact (allocIn found).trans ((storeW _ _).trans (storeW _ _))
    · next failed =>
      have reached (free : b.Free) : ¬b.Below := fun below => by
        obtain ⟨w, b', total⟩ := allocIn_total free segLt (below bodySeg segLt)
        rw [total] at failed
        cases failed
      obtain rfl := allocIn_failed failed
      split at run
      · cases run
      · next added =>
        cases run
        exact (allocPadSegment reached added).trans
          ((storeW _ _).trans ((storeW _ _).trans (storeW _ _)))

/-! ## Calls -/

theorem withSlot {body : BPtr} {dwords ptrIndex : Nat} {write : Nat → Nat → BuildM Unit}
    (keeps : ∀ word, write body.seg word b = .ok () b' → Doubles firstWords b b')
    (run : withSlot body dwords ptrIndex write b = .ok () b') : Doubles firstWords b b' := by
  unfold Builder.withSlot slot at run
  dsimp only at run
  split at run
  · cases run
  · next found =>
    split at found
    · cases found
    · cases found
      exact keeps _ run

theorem writeListBody {slotSeg slotWord count nbytes : Nat} {esize : ElemSize}
    {fill : Memory → Nat → Memory}
    (run : writeListBody slotSeg slotWord esize count nbytes fill b = .ok () b') :
    Doubles firstWords b b' := by
  unfold Builder.writeListBody at run
  split at run
  · split at run
    · cases run
    · next found =>
      obtain ⟨allocated, inside⟩ : Doubles firstWords b _ ∧ _ := allocWords found
      exact allocated.trans ((setData _).trans (writePtr (.inr inside) run))
  · exact writePtr (.inl rfl) run

theorem struct {ptr body : BPtr} {dwords pwords : Nat}
    (run : struct ptr dwords pwords b = .ok body b') : Doubles firstWords b b' := by
  unfold Builder.struct at run
  split at run
  · cases run
    exact storeW _ _
  · split at run
    · cases run
    · next found =>
      obtain ⟨allocated, inside⟩ : Doubles firstWords b _ ∧ _ := allocWords found
      split at run
      · cases run
      · next written =>
        cases run
        exact allocated.trans (writePtr (.inr inside) written)

theorem root {ptr : BPtr} (run : root b = .ok ptr b') : Doubles firstWords b b' := by
  unfold Builder.root at run
  split at run
  · cases run
  · split at run
    · cases run
    · next found =>
      split at run
      · cases run
      · cases run
        exact (allocWords found).1

theorem writeTexts {listSeg listStart : Nat} {texts : List (List UInt8)}
    (run : writeTexts listSeg listStart texts b = .ok () b') : Doubles firstWords b b' := by
  induction texts generalizing listStart b with
  | nil =>
      cases run
      exact refl _
  | cons text rest ih =>
      unfold Builder.writeTexts at run
      split at run
      · cases run
      · next written => exact (writeListBody written).trans (ih run)

theorem setListTextN {body : BPtr} {dwords ptrIndex : Nat} {texts : List (List UInt8)}
    (run : setListTextN body dwords ptrIndex texts b = .ok () b') : Doubles firstWords b b' := by
  refine withSlot (fun word run => ?_) run
  by_cases none : texts.length = 0
  · simp only [none, ne_eq, not_true_eq_false, if_false] at run
    split at run
    · cases run
    · next written => exact (writePtr (.inl rfl) written).trans (writeTexts run)
  · simp only [none, ne_eq, not_false_eq_true, if_true] at run
    split at run
    · cases run
    · next found =>
      obtain ⟨allocated, inside⟩ : Doubles firstWords b _ ∧ _ := allocWords found
      split at run
      · cases run
      · next written =>
        exact allocated.trans ((writePtr (.inr inside) written).trans (writeTexts run))

theorem setListStruct {body first : BPtr} {dwords ptrIndex nitems elemDwords elemPwords : Nat}
    (run : setListStruct body dwords ptrIndex nitems elemDwords elemPwords b = .ok first b') :
    Doubles firstWords b b' := by
  unfold Builder.setListStruct slot at run
  dsimp only at run
  split at run
  · cases run
  · next checked =>
    split at checked
    · cases checked
    · cases checked
      split at run
      · cases run
      · next found =>
        obtain ⟨allocated, inside⟩ : Doubles firstWords b _ ∧ _ := allocWords found
        split at run
        · cases run
        · next written =>
          cases run
          exact allocated.trans ((storeW _ _).trans (writePtr (.inr inside) written))

theorem slot {body ptr : BPtr} {dwords ptrIndex : Nat} (run : slot body dwords ptrIndex b = .ok ptr b') :
    Doubles firstWords b b' := by
  unfold Builder.slot at run
  dsimp only at run
  split at run
  · cases run
  · cases run
    exact refl b

theorem setScalar {width byteOffset value : Nat} {body : BPtr}
    (run : setScalar width body byteOffset value b = .ok () b') : Doubles firstWords b b' := by
  unfold Builder.setScalar at run
  dsimp only at run
  split at run
  · cases run
  · cases run
    exact setData _

theorem setBool {bitOffset : Nat} {value : Bool} {body : BPtr}
    (run : setBool body bitOffset value b = .ok () b') : Doubles firstWords b b' := by
  unfold Builder.setBool at run
  dsimp only at run
  split at run
  · cases run
  · cases run
    exact setData _

/-- A call on a handle does what it does to the builder, and keeps the handle that it
returns. -/
theorem onHandle {α : Type} {held held' : Handles} {handle : Option BPtr} {x : BPtr → BuildM α}
    {make : BPtr → BuildM Handles}
    (made : ∀ ptr, ∃ g : α → Handles, make ptr = x ptr >>= fun a => pure (g a))
    (keeps : ∀ ptr a b', x ptr b = .ok a b' → Doubles firstWords b b')
    (run : held.call handle make b = .ok held' b') : Doubles firstWords b b' := by
  cases handle with
  | none =>
      cases run
      exact refl b
  | some ptr =>
      obtain ⟨g, same⟩ := made ptr
      have done : (x ptr >>= fun a => pure (g a)) b = .ok held' b' := same ▸ run
      obtain ⟨a, b₁, done, rest⟩ := bind_eq_ok.mp done
      cases rest
      exact keeps ptr a _ done

/-- A call keeps the segments doubling, unless it copies a value of another message. -/
theorem call {held held' : Handles} {op : BuildOp}
    (plain : ∀ slot m src left, op ≠ .copyPtr slot m src left)
    (run : Builder.call held op b = .ok held' b') : Doubles firstWords b b' := by
  -- a store into a slot that has been checked
  have stored {body : BPtr} {dwords ptrIndex v : Nat} {b' : Builder}
      (run : Builder.withSlot body dwords ptrIndex (fun seg word b => .ok () (b.storeW seg word v)) b =
        .ok () b') : Doubles firstWords b b' :=
    withSlot (fun word run => by
      cases run
      exact storeW _ _) run
  cases op with
  | copyPtr slot m src left => exact absurd rfl (plain slot m src left)
  | root =>
      obtain ⟨ptr, b₁, done, rest⟩ := bind_eq_ok.mp run
      cases rest
      exact root done
  | element body wordDelta =>
      exact onHandle (fun _ => ⟨_, rfl⟩) (fun _ _ _ run => by
        cases run
        exact refl b) run
  | struct ptr dwords pwords => exact onHandle (fun _ => ⟨_, rfl⟩) (fun _ _ _ run => struct run) run
  | slot body dwords ptrIndex => exact onHandle (fun _ => ⟨_, rfl⟩) (fun _ _ _ run => slot run) run
  | setScalar width body byteOffset value =>
      exact onHandle (fun _ => ⟨_, rfl⟩) (fun _ _ _ run => setScalar run) run
  | setBool body bitOffset value =>
      exact onHandle (fun _ => ⟨_, rfl⟩) (fun _ _ _ run => setBool run) run
  | clearPtr body dwords ptrIndex =>
      exact onHandle (fun _ => ⟨_, rfl⟩) (fun _ _ _ run => stored run) run
  | setCap body dwords ptrIndex capIndex =>
      exact onHandle (fun _ => ⟨_, rfl⟩) (fun _ _ _ run => stored run) run
  | setText body dwords ptrIndex text =>
      exact onHandle (fun _ => ⟨_, rfl⟩) (fun _ _ _ => withSlot fun _ run => writeListBody run) run
  | setData body dwords ptrIndex bytes =>
      exact onHandle (fun _ => ⟨_, rfl⟩) (fun _ _ _ => withSlot fun _ run => writeListBody run) run
  | setListPrim body dwords ptrIndex esize nitems elemBytes items =>
      exact onHandle (fun _ => ⟨_, rfl⟩) (fun _ _ _ => withSlot fun _ run => writeListBody run) run
  | setListBool body dwords ptrIndex nitems items =>
      exact onHandle (fun _ => ⟨_, rfl⟩) (fun _ _ _ => withSlot fun _ run => writeListBody run) run
  | setListText body dwords ptrIndex items =>
      exact onHandle (fun _ => ⟨_, rfl⟩) (fun _ _ _ run => setListTextN run) run
  | setListStruct body dwords ptrIndex nitems elemDwords elemPwords =>
      exact onHandle (fun _ => ⟨_, rfl⟩) (fun _ _ _ run => setListStruct run) run

end Doubles

end Builder

end CapnpJanet
