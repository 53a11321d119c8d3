import CapnpJanet.Rpc.Accounts
import CapnpJanet.Rpc.Questions

/-!
# The parts of a join in any order

The parts of a join are gathered by their numbers, so what the join answers
depends only on the question of each part and on the export that its target
resolved to when it arrived, not on the order in which the parts arrived or on
what arrived in between.
-/

namespace CapnpJanet.Rpc

open Builder Run

/-! ## What a part says -/

/-- The join id, the part count and the part number of a part of a join. -/
def Incoming.joinKey (msg : Incoming) : Option (Nat × Nat × Nat) :=
  if msg.which ≠ msgJoin then none
  else
    let key := msg.message.getp msg.body 1 Ptr.zero msg.left
    if key.rc ≠ .ok ∨ key.out.kind ≠ .struct then none
    else
      let pcount := msg.message.getU16 key.out 4 0
      let pnum := msg.message.getU16 key.out 6 0
      if pcount = 0 ∨ pcount > maxJoinParts ∨ pnum ≥ pcount then none
      else some (msg.message.getU32 key.out 0 0, pcount, pnum)

section
variable {msg : Incoming} {c c' : Conn} {jid count num slot : Nat}

theorem which_of_joinKey (key : msg.joinKey = some (jid, count, num)) : msg.which = msgJoin := by
  unfold Incoming.joinKey at key
  split at key
  · cases key
  · next which => exact not_not.mp which

theorem lt_of_joinKey (key : msg.joinKey = some (jid, count, num)) :
    num < count ∧ count ≤ maxJoinParts := by
  unfold Incoming.joinKey at key
  dsimp only at key
  split at key
  · cases key
  · split at key
    · cases key
    · split at key
      · cases key
      · next numbers =>
        cases key
        omega

/-- Where a part goes is decided by its key. -/
theorem joinPlace_of_joinKey (key : msg.joinKey = some (jid, count, num)) (c : Conn) :
    msg.joinPlace c = match c.joinSlotFind jid count with
      | (none, _) => none
      | (some slot, c) => if (c.joins slot).seen num then none else some (slot, c, num) := by
  unfold Incoming.joinKey at key
  unfold Incoming.joinPlace
  dsimp only at key ⊢
  split at key
  · cases key
  · split at key
    · cases key
    · next struct =>
      rw [if_neg struct]
      split at key
      · cases key
      · next numbers =>
        rw [if_neg numbers]
        cases key
        rfl

/-- A part that has a place has a key. -/
theorem joinKey_of_joinPlace (which : msg.which = msgJoin)
    (place : msg.joinPlace c = some (slot, c', num)) :
    ∃ jid count, msg.joinKey = some (jid, count, num) ∧
      c.joinSlotFind jid count = (some slot, c') ∧ (c'.joins slot).seen num = false := by
  cases key : msg.joinKey with
  | none =>
      unfold Incoming.joinKey at key
      unfold Incoming.joinPlace at place
      dsimp only at key place
      rw [if_neg (not_not.mpr which)] at key
      split at place
      · cases place
      · next struct =>
        rw [if_neg struct] at key
        split at place
        · cases place
        · next numbers =>
          rw [if_neg numbers] at key
          cases key
  | some found =>
      obtain ⟨jid, count, num'⟩ := found
      rw [joinPlace_of_joinKey key] at place
      cases find : c.joinSlotFind jid count with
      | mk slot' c₁ =>
          rw [find] at place
          cases slot' with
          | none => cases place
          | some i =>
              dsimp only at place
              split at place
              · cases place
              · next unseen =>
                simp only [Option.some.injEq, Prod.mk.injEq] at place
                obtain ⟨rfl, rfl, rfl⟩ := place
                exact ⟨jid, count, rfl, find, by simpa using unseen⟩

/-- Finding a slot does not change what a target resolves to. -/
theorem joinTarget_of_joinSlotFind (find : c.joinSlotFind jid count = (some slot, c')) :
    msg.joinTarget c' = msg.joinTarget c := by
  rcases joinSlotFind_cases find with rfl | ⟨-, rfl⟩
  · rfl
  · rfl

end

/-! ## A join that gathers parts -/

/-- A part of a join: its question, and the export that its target resolved to
when it arrived. -/
structure Part where
  qid : Nat
  eid : Option Nat

/-- The number of joins that are open. -/
def Conn.openJoins (c : Conn) : Nat :=
  ((Finset.range maxJoins).filter fun i => (c.joins i).used = true).card

/-- No join is open under an id. -/
def Conn.Closed (c : Conn) (jid : Nat) : Prop :=
  ∀ i < maxJoins, (c.joins i).used = true → (c.joins i).joinId ≠ jid

/-- One slot has gathered some parts of a join, and no other is open under its
id. -/
structure Conn.Gathers (c : Conn) (jid n : Nat) (part : Nat → Part) (seen : Finset Nat)
    (slot : Nat) : Prop where
  index : slot < maxJoins
  used : (c.joins slot).used = true
  joinId : (c.joins slot).joinId = jid
  count : (c.joins slot).partCount = n
  seen_iff : ∀ i < n, (c.joins slot).seen i = true ↔ i ∈ seen
  within : seen ⊆ Finset.range n
  parts : ∀ i ∈ seen, (c.joins slot).qids i = (part i).qid ∧ (c.joins slot).eids i = (part i).eid
  alone : ∀ i < maxJoins, i ≠ slot → (c.joins i).used = true → (c.joins i).joinId ≠ jid

/-- The parts of a join that a connection has gathered: none, as long as no join
is open under its id. -/
def Conn.Gathered (c : Conn) (jid n : Nat) (part : Nat → Part) (seen : Finset Nat) : Prop :=
  seen = ∅ ∧ c.Closed jid ∨ seen.Nonempty ∧ ∃ slot, c.Gathers jid n part seen slot

section
variable {c c' : Conn} {jid n slot : Nat} {part : Nat → Part} {seen : Finset Nat}

/-- Only the slot of a join matters, and that no other slot takes its id. -/
theorem Conn.Gathers.of_slot (gathers : c.Gathers jid n part seen slot)
    (same : c'.joins slot = c.joins slot)
    (alone : ∀ i < maxJoins, i ≠ slot → (c'.joins i).used = true → (c'.joins i).joinId ≠ jid) :
    c'.Gathers jid n part seen slot where
  index := gathers.index
  used := by
    rw [same]
    exact gathers.used
  joinId := by
    rw [same]
    exact gathers.joinId
  count := by
    rw [same]
    exact gathers.count
  seen_iff := by
    rw [same]
    exact gathers.seen_iff
  within := gathers.within
  parts := by
    rw [same]
    exact gathers.parts
  alone := alone

theorem Conn.Gathered.congr (gathered : c.Gathered jid n part seen) (joins : c'.joins = c.joins) :
    c'.Gathered jid n part seen := by
  rcases gathered with ⟨none, closed⟩ | ⟨some, slot, gathers⟩
  · refine .inl ⟨none, ?_⟩
    unfold Conn.Closed
    rw [joins]
    exact closed
  · refine .inr ⟨some, slot, gathers.of_slot (by rw [joins]) ?_⟩
    rw [joins]
    exact gathers.alone

/-- At most seven open joins leave a slot. -/
theorem Conn.exists_free (few : c.openJoins ≤ 7) : ∃ i < maxJoins, (c.joins i).used = false := by
  by_contra full
  have all : (Finset.range maxJoins).filter (fun i => (c.joins i).used = true) =
      Finset.range maxJoins := by
    refine Finset.filter_true_of_mem fun i member => ?_
    by_contra free
    exact full ⟨i, Finset.mem_range.mp member, by simpa using free⟩
  unfold openJoins at few
  rw [all, Finset.card_range] at few
  exact absurd few (by decide)

/-- A closed id finds a slot of its own, if there is one. -/
theorem Conn.Closed.find (closed : c.Closed jid) (few : c.openJoins ≤ 7) (count : Nat) :
    ∃ slot < maxJoins, (c.joins slot).used = false ∧ c.joinSlotFind jid count =
      (some slot,
        c.setJoin slot { Join.zero with used := true, joinId := jid, partCount := count }) := by
  unfold joinSlotFind
  cases known : firstIndex maxJoins fun i => (c.joins i).used && (c.joins i).joinId == jid with
  | some i =>
      obtain ⟨small, holds, -⟩ := firstIndex_eq_some known
      simp only [Bool.and_eq_true, beq_iff_eq] at holds
      exact absurd holds.2 (closed i small holds.1)
  | none =>
      dsimp only
      cases free : firstIndex maxJoins fun i => !(c.joins i).used with
      | none =>
          obtain ⟨i, small, unused⟩ := c.exists_free few
          have taken := firstIndex_eq_none free i small
          simp [unused] at taken
      | some i =>
          obtain ⟨small, unused, -⟩ := firstIndex_eq_some free
          exact ⟨i, small, by simpa using unused, rfl⟩

/-- The id of a join finds its slot. -/
theorem Conn.Gathers.find (gathers : c.Gathers jid n part seen slot) (count : Nat) :
    c.joinSlotFind jid count = (if n = count then some slot else none, c) := by
  unfold joinSlotFind
  cases known : firstIndex maxJoins fun i => (c.joins i).used && (c.joins i).joinId == jid with
  | none =>
      have absent := firstIndex_eq_none known slot gathers.index
      simp [gathers.used, gathers.joinId] at absent
  | some i =>
      obtain ⟨small, holds, -⟩ := firstIndex_eq_some known
      simp only [Bool.and_eq_true, beq_iff_eq] at holds
      have here : i = slot := by
        by_contra other
        exact gathers.alone i small other holds.1 holds.2
      subst here
      dsimp only
      rw [gathers.count]

/-! ## What a part does -/

/-- The number of parts seen. -/
theorem Conn.Gathers.nseen_eq (gathers : c.Gathers jid n part seen slot) (wf : c.JoinsWf) :
    (c.joins slot).nseen = seen.card := by
  rw [(wf slot).nseen_eq gathers.used, gathers.count]
  have flags : ∑ i ∈ Finset.range n, (if (c.joins slot).seen i then 1 else 0) =
      ∑ i ∈ Finset.range n, if i ∈ seen then 1 else 0 := by
    refine Finset.sum_congr rfl fun i member => if_congr ?_ rfl rfl
    exact gathers.seen_iff i (Finset.mem_range.mp member)
  rw [flags, Finset.sum_ite_mem, Finset.inter_eq_right.mpr gathers.within,
    ← Finset.card_eq_sum_ones]

/-- A slot that has just been claimed has gathered nothing. -/
theorem Conn.Closed.open (closed : c.Closed jid) (small : slot < maxJoins) :
    Conn.Gathers
      (c.setJoin slot { Join.zero with used := true, joinId := jid, partCount := n }) jid n part ∅
      slot := by
  have record : (c.setJoin slot
      { Join.zero with used := true, joinId := jid, partCount := n }).joins slot =
        { Join.zero with used := true, joinId := jid, partCount := n } := by
    rw [Conn.setJoin_joins, if_pos rfl]
  constructor
  · exact small
  · rw [record]
  · rw [record]
  · rw [record]
  · intro i _
    rw [record]
    simp [Join.zero]
  · exact Finset.empty_subset _
  · exact fun i member => absurd member (Finset.notMem_empty i)
  · intro i index other
    rw [Conn.setJoin_joins, if_neg other]
    exact closed i index

/-- One more part is gathered. -/
theorem Conn.Gathers.insert (gathers : c.Gathers jid n part seen slot) {p qid : Nat}
    {eid : Option Nat} (small : p < n) (named : qid = (part p).qid ∧ eid = (part p).eid) :
    Conn.Gathers (c.setJoin slot ((c.joins slot).addPart p qid eid)) jid n part
      (Insert.insert p seen) slot := by
  have record : (c.setJoin slot ((c.joins slot).addPart p qid eid)).joins slot =
      (c.joins slot).addPart p qid eid := by
    rw [Conn.setJoin_joins, if_pos rfl]
  constructor
  · exact gathers.index
  · rw [record]
    exact gathers.used
  · rw [record]
    exact gathers.joinId
  · rw [record]
    exact gathers.count
  · intro i index
    rw [record, Finset.mem_insert, Join.addPart]
    by_cases here : i = p
    · simp [here]
    · simpa [here] using gathers.seen_iff i index
  · exact Finset.insert_subset (Finset.mem_range.mpr small) gathers.within
  · intro i member
    rw [record, Join.addPart]
    by_cases here : i = p
    · simp [here, named]
    · simpa [here] using gathers.parts i (Finset.mem_of_mem_insert_of_ne member here)
  · intro i index other
    rw [Conn.setJoin_joins, if_neg other]
    exact gathers.alone i index other

/-- A new part has a place. -/
theorem Conn.Gathered.place {msg : Incoming} {p : Nat} (gathered : c.Gathered jid n part seen)
    (wf : c.JoinsWf) (key : msg.joinKey = some (jid, n, p)) (new : p ∉ seen)
    (room : seen = ∅ → c.openJoins ≤ 7) :
    ∃ slot c₁, msg.joinPlace c = some (slot, c₁, p) ∧ c₁.Gathers jid n part seen slot ∧
      c₁.JoinsWf ∧ msg.joinTarget c₁ = msg.joinTarget c := by
  obtain ⟨small, -⟩ := lt_of_joinKey key
  rcases gathered with ⟨none, closed⟩ | ⟨-, slot, gathers⟩
  · subst none
    obtain ⟨slot, index, -, find⟩ := closed.find (room rfl) n
    obtain ⟨-, -, -, -, opened, -⟩ := joinSlotFind_some wf find
    have gathers : Conn.Gathers _ jid n part ∅ slot := closed.open index
    refine ⟨slot, _, ?_, gathers, opened, joinTarget_of_joinSlotFind find⟩
    have unseen := gathers.seen_iff p small
    rw [joinPlace_of_joinKey key, find]
    dsimp only
    rw [if_neg (by rw [unseen]; exact new)]
  · have find := gathers.find n
    rw [if_pos rfl] at find
    refine ⟨slot, c, ?_, gathers, wf, rfl⟩
    have unseen := gathers.seen_iff p small
    rw [joinPlace_of_joinKey key, find]
    dsimp only
    rw [if_neg (by rw [unseen]; exact new)]

end

/-! ## The outcome -/

/-- Whether all parts of a join have resolved to one export. -/
def agree (n : Nat) (part : Nat → Part) : Bool :=
  (part 0).eid.isSome && (List.range n).all fun i => (part i).eid == (part 0).eid

/-- The frames answer the parts of a join, in the order of their numbers: each
question once, all with the same flag, and the first part with the capability if
the parts agree. -/
structure JoinAnswered (jid n : Nat) (part : Nat → Part) (frames : List (List UInt8)) : Prop where
  count : frames.length = n
  each : ∀ i < n, ∃ flat, frames[i]? = some flat ∧
    IsJoinReturn flat (part i).qid jid (agree n part)
      (if i = 0 ∧ agree n part = true then (part 0).eid else none)

theorem agree_iff {n : Nat} {part : Nat → Part} (some : 0 < n) :
    agree n part = true ↔ ∃ eid, ∀ i < n, (part i).eid = Option.some eid := by
  simp only [agree, Bool.and_eq_true, List.all_eq_true, List.mem_range, beq_iff_eq]
  constructor
  · rintro ⟨isSome, same⟩
    obtain ⟨eid, first⟩ := Option.isSome_iff_exists.mp isSome
    exact ⟨eid, fun i small => (same i small).trans first⟩
  · rintro ⟨eid, all⟩
    exact ⟨by rw [all 0 some]; rfl, fun i small => (all i small).trans (all 0 some).symm⟩

/-- A slot that has gathered all parts answers them. -/
theorem Conn.Gathers.answered {c : Conn} {jid n slot : Nat} {part : Nat → Part}
    (gathers : c.Gathers jid n part (Finset.range n) slot) (some : 0 < n)
    {frames : List (List UInt8)} (answers : (c.joins slot).Answers n frames) :
    JoinAnswered jid n part frames := by
  have parts (i : Nat) (small : i < n) := gathers.parts i (Finset.mem_range.mpr small)
  have same : (c.joins slot).same = agree n part := by
    unfold Join.same agree
    rw [gathers.count, (parts 0 some).2]
    congr 1
    rw [Bool.eq_iff_iff, List.all_eq_true, List.all_eq_true]
    refine forall₂_congr fun i member => ?_
    rw [(parts i (List.mem_range.mp member)).2]
  refine ⟨answers.length_eq, fun i small => ?_⟩
  obtain ⟨flat, found, isReturn⟩ := answers.getElem small
  refine ⟨flat, found, ?_⟩
  rw [(parts i small).1, gathers.joinId, same, Join.joined, same, (parts 0 some).2] at isReturn
  by_cases first : i = 0
  · by_cases agreed : agree n part = true
    · simpa [first, agreed] using isReturn
    · simpa [first, agreed] using isReturn
  · simpa [first] using isReturn

section
variable {msg : Incoming} {c c' : Conn} {v v' : Vat} {frames : List (List UInt8)} {jid n p : Nat}
  {part : Nat → Part} {seen : Finset Nat}

/-- A part with a place is recorded, or completes its join. -/
theorem Handling.of_place (handling : Handling msg c v c' v' frames) (which : msg.which = msgJoin)
    {slot : Nat} {c₁ : Conn} (place : msg.joinPlace c = some (slot, c₁, p)) :
    (msg.joinPart c₁ slot p).nseen ≠ (msg.joinPart c₁ slot p).partCount ∧ frames = [] ∧
        c' = c₁.setJoin slot (msg.joinPart c₁ slot p) ∨
      (msg.joinPart c₁ slot p).nseen = (msg.joinPart c₁ slot p).partCount ∧
        (msg.joinPart c₁ slot p).Answers (msg.joinPart c₁ slot p).partCount frames ∧
        c' = ((msg.joinPart c₁ slot p).joined.elim c₁ c₁.retain).setJoin slot Join.zero := by
  have other {kind : Nat} (this : msg.which = kind) (apart : kind ≠ msgJoin) : False :=
    apart (this.symm.trans which)
  have asked : msg.asks = [msg.questionId] := if_pos (.inr (.inr (.inl which)))
  cases handling with
  | quiet _ asks _ =>
      rcases asks with none | call
      · rw [asked] at none
        cases none
      · exact (other call (by decide)).elim
  | finished this => exact (other this (by decide)).elim
  | released this => exact (other this (by decide)).elim
  | refused _ _ _ notJoin => exact absurd which notJoin
  | bootstrapped this _ _ _ => exact (other this (by decide)).elim
  | called this _ _ => exact (other this (by decide)).elim
  | provided this _ _ _ => exact (other this (by decide)).elim
  | taken this _ _ _ _ _ => exact (other this (by decide)).elim
  | held this _ _ _ _ => exact (other this (by decide)).elim
  | lifted lifts _ => exact (other (which_of_lifts lifts) (by decide)).elim
  | joinRefused _ none _ =>
      rw [place] at none
      cases none
  | joined _ placed waits =>
      rw [place] at placed
      cases placed
      exact .inl ⟨waits, rfl, rfl⟩
  | completed _ placed full answers =>
      rw [place] at placed
      cases placed
      exact .inr ⟨full, answers, rfl⟩
  | echoed asks _ _ _ =>
      rw [asked] at asks
      cases asks

/-- What a new part does: before the last one nothing is sent and the part is
gathered, and the last one answers all. -/
theorem Handling.brings (handling : Handling msg c v c' v' frames) (wf : c.JoinsWf)
    (gathered : c.Gathered jid n part seen) (key : msg.joinKey = some (jid, n, p))
    (new : p ∉ seen) (named : msg.questionId = (part p).qid ∧ msg.joinTarget c = (part p).eid)
    (room : seen = ∅ → c.openJoins ≤ 7) :
    (insert p seen ≠ Finset.range n → frames = [] ∧ c'.Gathered jid n part (insert p seen)) ∧
      (insert p seen = Finset.range n → JoinAnswered jid n part frames ∧ c'.Closed jid) := by
  obtain ⟨small, -⟩ := lt_of_joinKey key
  obtain ⟨slot, c₁, place, gathers, opened, target⟩ := gathered.place wf key new room
  have resolved : msg.joinTarget c₁ = (part p).eid := target.trans named.2
  have next := gathers.insert small ⟨named.1, resolved⟩
  have size : (msg.joinPart c₁ slot p).nseen = (insert p seen).card := by
    rw [Finset.card_insert_of_notMem new, ← gathers.nseen_eq opened]
    rfl
  have count : (msg.joinPart c₁ slot p).partCount = n := gathers.count
  have full : (insert p seen).card = n ↔ insert p seen = Finset.range n := by
    refine ⟨fun all => Finset.eq_of_subset_of_card_le next.within ?_, fun all => ?_⟩
    · rw [Finset.card_range, all]
    · rw [all, Finset.card_range]
  rcases handling.of_place (which_of_joinKey key) place with
    ⟨waits, silent, recorded⟩ | ⟨complete, answers, cleared⟩
  · rw [size, count] at waits
    refine ⟨fun _ => ⟨silent, ?_⟩, fun all => absurd (full.mpr all) waits⟩
    rw [recorded]
    exact .inr ⟨Finset.insert_nonempty p seen, slot, next⟩
  · rw [size, count] at complete
    have all := full.mp complete
    refine ⟨fun more => absurd all more, fun _ => ⟨?_, ?_⟩⟩
    · rw [all] at next
      rw [count] at answers
      refine next.answered (by omega) ?_
      rw [Conn.setJoin_joins, if_pos rfl]
      exact answers
    · intro i index used
      have joins : ((msg.joinPart c₁ slot p).joined.elim c₁ c₁.retain).joins = c₁.joins := by
        cases (msg.joinPart c₁ slot p).joined with
        | none => rfl
        | some _ => rfl
      rw [cleared, Conn.setJoin_joins] at used ⊢
      split at used
      · cases used
      · next apart =>
        rw [if_neg apart, joins]
        rw [joins] at used
        exact gathers.alone i index apart used

/-- A new part takes no export out of use. -/
theorem Handling.part_exporting (handling : Handling msg c v c' v' frames)
    (gathered : c.Gathered jid n part seen) (wf : c.JoinsWf)
    (key : msg.joinKey = some (jid, n, p)) (new : p ∉ seen)
    (room : seen = ∅ → c.openJoins ≤ 7) : c.Exporting c' := by
  obtain ⟨slot, c₁, place, -, -, -⟩ := gathered.place wf key new room
  have opened := Conn.Exporting.of_eq (joinPlace_exports place)
  rcases handling.of_place (which_of_joinKey key) place with ⟨-, -, recorded⟩ | ⟨-, -, cleared⟩
  · rw [recorded]
    exact opened.trans (.of_eq rfl)
  · rw [cleared]
    refine opened.trans (.trans ?_ (.of_eq rfl))
    cases (msg.joinPart c₁ slot p).joined with
    | none => exact Conn.Exporting.refl _
    | some eid => exact c₁.retain_exporting eid

end

/-! ## What other messages do -/

/-- A slot that is found carries the id it was found by, and the others are as
they were. -/
theorem joinSlotFind_slot {c c' : Conn} {jid count slot : Nat}
    (find : c.joinSlotFind jid count = (some slot, c')) :
    (c'.joins slot).joinId = jid ∧ ∀ i, i ≠ slot → c'.joins i = c.joins i := by
  unfold Conn.joinSlotFind at find
  split at find
  · next i known =>
    obtain ⟨-, holds, -⟩ := firstIndex_eq_some known
    simp only [Bool.and_eq_true, beq_iff_eq] at holds
    split at find
    · simp only [Prod.mk.injEq, Option.some.injEq] at find
      obtain ⟨rfl, rfl⟩ := find
      exact ⟨holds.2, fun _ _ => rfl⟩
    · cases find
  · split at find
    · simp only [Prod.mk.injEq, Option.some.injEq] at find
      obtain ⟨rfl, rfl⟩ := find
      refine ⟨?_, fun i other => ?_⟩
      · rw [Conn.setJoin_joins, if_pos rfl]
      · rw [Conn.setJoin_joins, if_neg other]
    · cases find

/-- The message answers the question on its own account: it asks it, lifts an
`Accept` that asked it, or completes a join under another id that has a part
which asked it. -/
inductive Incoming.Owes (msg : Incoming) (c : Conn) (v : Vat) (jid q : Nat) : Prop
  | asked (asked : q ∈ msg.asks)
  | lifted {i : Nat} (lifts : msg.lifts v = some i)
      (accepted : (v.provisions i).acceptQuestionId = q)
  | joined {slot i : Nat} (used : (c.joins slot).used = true)
      (other : (c.joins slot).joinId ≠ jid) (seen : (c.joins slot).seen i = true)
      (named : (c.joins slot).qids i = q)

/-- The message brings no new part of the join: none at all before the first, and
then none but parts that are there already or disagree with the first. -/
def Incoming.Stranger (msg : Incoming) (jid n : Nat) (seen : Finset Nat) : Prop :=
  ∀ count p, msg.joinKey = some (jid, count, p) → seen.Nonempty ∧ (count ≠ n ∨ p ∈ seen)

section
variable {msg : Incoming} {c c' : Conn} {v v' : Vat} {frames : List (List UInt8)} {jid n : Nat}
  {part : Nat → Part} {seen : Finset Nat}

/-- A slot under another id does not matter. -/
theorem Conn.Gathered.of_other (gathered : c.Gathered jid n part seen) {slot : Nat}
    (rest : ∀ i, i ≠ slot → c'.joins i = c.joins i)
    (before : (c.joins slot).used = true → (c.joins slot).joinId ≠ jid)
    (after : (c'.joins slot).used = true → (c'.joins slot).joinId ≠ jid) :
    c'.Gathered jid n part seen := by
  have others (i : Nat) (free : (c.joins i).used = true → (c.joins i).joinId ≠ jid)
      (used : (c'.joins i).used = true) : (c'.joins i).joinId ≠ jid := by
    by_cases here : i = slot
    · subst here
      exact after used
    · rw [rest i here] at used ⊢
      exact free used
  rcases gathered with ⟨none, closed⟩ | ⟨some, mine, gathers⟩
  · exact .inl ⟨none, fun i index => others i (closed i index)⟩
  · have apart : mine ≠ slot := by
      rintro rfl
      exact before gathers.used gathers.joinId
    refine .inr ⟨some, mine, gathers.of_slot (rest mine apart) fun i index other => ?_⟩
    exact others i (gathers.alone i index other)

/-- A stranger that has a place has it in a slot under another id. -/
theorem Conn.Gathered.place_other (gathered : c.Gathered jid n part seen)
    (stranger : msg.Stranger jid n seen) (which : msg.which = msgJoin) {slot p : Nat} {c₁ : Conn}
    (place : msg.joinPlace c = some (slot, c₁, p)) :
    (c₁.joins slot).joinId ≠ jid ∧ (∀ i, i ≠ slot → c₁.joins i = c.joins i) ∧
      ((c.joins slot).used = true → (c.joins slot).joinId ≠ jid) := by
  obtain ⟨jid', count, key, find, unseen⟩ := joinKey_of_joinPlace which place
  obtain ⟨named, rest⟩ := joinSlotFind_slot find
  have different : jid' ≠ jid := by
    rintro rfl
    obtain ⟨some, rejected⟩ := stranger count p key
    rcases gathered with ⟨none, -⟩ | ⟨-, mine, gathers⟩
    · exact absurd none some.ne_empty
    · rw [gathers.find count] at find
      obtain ⟨same, rfl⟩ := Prod.mk.inj find
      split at same
      · next agrees =>
        subst agrees
        cases same
        obtain ⟨small, -⟩ := lt_of_joinKey key
        have there := (gathers.seen_iff p small).mpr (rejected.resolve_left (by simp))
        rw [unseen] at there
        cases there
      · cases same
  refine ⟨named ▸ different, rest, fun used => ?_⟩
  rcases joinSlotFind_cases find with rfl | ⟨unused, -⟩
  · exact named ▸ different
  · rw [unused] at used
    cases used

/-- A message that brings no new part leaves what has been gathered, and what
it answers it owes on its own account. -/
theorem Handling.stranger (handling : Handling msg c v c' v' frames) (sound : Sound c v)
    (gathered : c.Gathered jid n part seen) (stranger : msg.Stranger jid n seen) :
    c'.Gathered jid n part seen ∧
      ∀ flat ∈ frames, ∀ q which, returnOf flat = some ⟨q, which⟩ → msg.Owes c v jid q := by
  have one {flat : List UInt8} {qid which : Nat} {ids : List Nat}
      (isReturn : IsReturn flat qid which ids) (owes : msg.Owes c v jid qid) :
      ∀ reply ∈ [flat], ∀ q which, returnOf reply = some ⟨q, which⟩ → msg.Owes c v jid q := by
    intro reply member q which' read
    rw [List.mem_singleton.mp member, isReturn.read] at read
    rw [← (ReturnInfo.mk.inj (Option.some.inj read)).1]
    exact owes
  have asked (asks : msg.asks = [msg.questionId]) : msg.Owes c v jid msg.questionId :=
    .asked (by rw [asks]; exact List.mem_singleton_self _)
  cases handling with
  | quiet alike _ _ => exact ⟨gathered.congr alike.joins_eq, nofun⟩
  | finished _ => exact ⟨gathered.congr (answerDrop_joins c _), nofun⟩
  | released _ => exact ⟨gathered.congr (released_joins c _ _), nofun⟩
  | refused alike asks isReturn _ =>
      exact ⟨gathered.congr alike.joins_eq, one isReturn (asked asks)⟩
  | bootstrapped which exported isReturn _ =>
      obtain ⟨-, -, -, -, joins⟩ := Conn.exportCap_some exported
      refine ⟨gathered.congr ((World.answerKeep_exports _ _ _).2.trans joins), ?_⟩
      exact one isReturn.toIsReturn (asked (if_pos (.inl which)))
  | called which alike isReturn =>
      refine ⟨gathered.congr ((World.answerKeep_exports _ _ _).2.trans alike.joins_eq), ?_⟩
      exact one isReturn (asked (if_pos (.inr (.inl which))))
  | provided which offers _ isReturn =>
      refine ⟨gathered.congr (World.answerKeep_exports _ _ _).2, ?_⟩
      exact one isReturn (asked (asks_of_offers which offers))
  | taken which presents _ exported isReturn _ =>
      obtain ⟨-, -, -, -, joins⟩ := Conn.exportCap_some exported
      refine ⟨gathered.congr ((World.answerKeep_exports _ _ _).2.trans joins), ?_⟩
      exact one isReturn.toIsReturn (asked (asks_of_presents which presents))
  | held _ _ _ _ exported =>
      obtain ⟨-, -, -, -, joins⟩ := Conn.exportCap_some exported
      exact ⟨gathered.congr joins, nofun⟩
  | lifted lifts isReturn =>
      refine ⟨gathered.congr (World.answerKeep_exports _ _ _).2, ?_⟩
      exact one isReturn.toIsReturn (.lifted lifts rfl)
  | joinRefused which _ isReturn =>
      exact ⟨gathered, one isReturn.toIsReturn (asked (if_pos (.inr (.inr (.inl which)))))⟩
  | @joined slot p c₁ which place _ =>
      obtain ⟨other, rest, before⟩ := gathered.place_other stranger which place
      refine ⟨gathered.of_other (fun i (apart : i ≠ slot) => ?_) before ?_, nofun⟩
      · rw [Conn.setJoin_joins, if_neg apart]
        exact rest i apart
      · rw [Conn.setJoin_joins, if_pos rfl]
        exact fun _ => other
  | @completed slot p c₁ frames which place full answers =>
      obtain ⟨other, rest, before⟩ := gathered.place_other stranger which place
      refine ⟨gathered.of_other (fun i (apart : i ≠ slot) => ?_) before ?_, ?_⟩
      · rw [Conn.setJoin_joins, if_neg apart, ← rest i apart]
        cases (msg.joinPart c₁ slot p).joined with
        | none => rfl
        | some _ => rfl
      · rw [Conn.setJoin_joins, if_pos rfl]
        nofun
      · intro flat member q which' read
        obtain ⟨i, small, isReturn⟩ := answers.mem member
        rw [isReturn.read] at read
        rw [← (ReturnInfo.mk.inj (Option.some.inj read)).1]
        by_cases mine : i = p
        · subst mine
          have named : (msg.joinPart c₁ slot i).qids i = msg.questionId := by
            simp [Incoming.joinPart, Join.addPart]
          rw [named]
          exact asked (if_pos (.inr (.inr (.inl which))))
        · obtain ⟨jid', count, -, find, -⟩ := joinKey_of_joinPlace which place
          obtain ⟨-, used, -, -, -, -⟩ := joinSlotFind_some sound.joins find
          have recorded := (sound.joined place).2.joins slot
          rw [Conn.setJoin_joins, if_pos rfl] at recorded
          have there := recorded.seen_of_full used full i small
          have seen : (c₁.joins slot).seen i = true := by
            simpa [Incoming.joinPart, Join.addPart, mine] using there
          have named : (msg.joinPart c₁ slot p).qids i = (c₁.joins slot).qids i := by
            simp [Incoming.joinPart, Join.addPart, mine]
          rw [named]
          rcases joinSlotFind_cases find with rfl | ⟨-, rfl⟩
          · exact .joined used other seen rfl
          · rw [Conn.setJoin_joins, if_pos rfl] at seen
            cases seen
  | echoed _ silent _ _ =>
      refine ⟨gathered, fun flat member q which read => ?_⟩
      rw [List.mem_singleton.mp member, silent] at read
      cases read

end

/-! ## Runs -/

namespace Net

variable {s₀ s : Net} {k jid n p : Nat} {part : Nat → Part} {seen : Finset Nat} {a : Action}

/-- The action brings a new part of the join: as the first, while at most seven
joins are open. -/
def Brings (s : Net) (k jid n : Nat) (part : Nat → Part) (seen : Finset Nat) (a : Action)
    (p : Nat) : Prop :=
  ∃ msg, a.Delivers k msg ∧ msg.joinKey = some (jid, n, p) ∧ p ∉ seen ∧
    msg.questionId = (part p).qid ∧ msg.joinTarget (s.conn k) = (part p).eid ∧
    (seen = ∅ → (s.conn k).openJoins ≤ 7)

/-- The action brings no new part of the join and frees no export. -/
structure Apart (s : Net) (k jid n : Nat) (seen : Finset Nat) (a : Action) : Prop where
  stranger : ∀ msg, a.Delivers k msg → msg.Stranger jid n seen
  keeps : ∀ e, ((s.conn k).exports e).used = true → (((s.step a).conn k).exports e).used = true

/-- The runs in which some parts of a join arrive, in any order and with anything
else in between, but not yet the last one. -/
inductive Gathering (s₀ : Net) (k jid n : Nat) (part : Nat → Part) : Finset Nat → Net → Prop
  | start (closed : (s₀.conn k).Closed jid) : Gathering s₀ k jid n part ∅ s₀
  | part {seen : Finset Nat} {s : Net} {a : Action} {p : Nat}
      (before : Gathering s₀ k jid n part seen s) (brings : s.Brings k jid n part seen a p)
      (more : insert p seen ≠ Finset.range n) :
      Gathering s₀ k jid n part (insert p seen) (s.step a)
  | other {seen : Finset Nat} {s : Net} {a : Action}
      (before : Gathering s₀ k jid n part seen s) (apart : s.Apart k jid n seen a) :
      Gathering s₀ k jid n part seen (s.step a)

/-- The exports that parts have resolved to are in use. -/
def Live (s : Net) (k : Nat) (part : Nat → Part) (seen : Finset Nat) : Prop :=
  ∀ i ∈ seen, ∀ eid, (part i).eid = some eid → ((s.conn k).exports eid).used = true

theorem Live.step {s' : Net} (live : s.Live k part seen)
    (kept : ∀ e, ((s.conn k).exports e).used = true → ((s'.conn k).exports e).used = true) :
    s'.Live k part seen :=
  fun i member eid named => kept eid (live i member eid named)

/-- A new part is gathered without an answer, or completes the join. -/
theorem brings_step (sound : s.Sound) (gathered : (s.conn k).Gathered jid n part seen)
    (live : s.Live k part seen) (brings : s.Brings k jid n part seen a p) :
    (insert p seen ≠ Finset.range n →
        s.sends a = [] ∧ ((s.step a).conn k).Gathered jid n part (insert p seen)) ∧
      (insert p seen = Finset.range n →
        JoinAnswered jid n part (s.sends a) ∧ ((s.step a).conn k).Closed jid) ∧
      (s.step a).Live k part (insert p seen) := by
  obtain ⟨msg, ⟨env, data, rfl, read⟩, key, new, asked, resolved, room⟩ := brings
  have handling := handling_deliver sound (k := k) env read
  obtain ⟨more, last⟩ := handling.brings (sound k).joins gathered key new ⟨asked, resolved⟩ room
  have exporting := handling.part_exporting gathered (sound k).joins key new room
  rw [step_deliver read]
  have conn : (s.handled k msg (handle env data (s.conn k) s.vat).2).conn k =
      (handle env data (s.conn k) s.vat).2.conn := by
    simp [handled]
  rw [conn]
  refine ⟨more, last, fun i member eid named => ?_⟩
  rw [conn]
  rcases Finset.mem_insert.mp member with rfl | old
  · exact (exporting eid (joinTarget_some (resolved.trans named)).2).1
  · exact (exporting eid (live i old eid named)).1

/-- Anything else leaves the parts that have been gathered, and what it
answers it owes on its own account. -/
theorem apart_step (sound : s.Sound) (gathered : (s.conn k).Gathered jid n part seen)
    (apart : s.Apart k jid n seen a) :
    ((s.step a).conn k).Gathered jid n part seen ∧
      ∀ msg, a.Delivers k msg → ∀ flat ∈ s.sends a, ∀ q which,
        returnOf flat = some ⟨q, which⟩ → msg.Owes (s.conn k) s.vat jid q := by
  have worked {k' : Nat} {c : Conn} (joins : c.joins = (s.conn k').joins) :
      ((s.setConn k' c).conn k).Gathered jid n part seen := by
    by_cases here : k = k'
    · subst here
      rw [show (s.setConn k c).conn k = c from Function.update_self _ _ _]
      exact gathered.congr joins
    · rw [show (s.setConn k' c).conn k = s.conn k from Function.update_of_ne here _ _]
      exact gathered
  have quiet (notDeliver : ∀ k' env data, a ≠ .deliver k' env data) :
      ∀ msg, a.Delivers k msg → ∀ flat ∈ s.sends a, ∀ q which,
        returnOf flat = some ⟨q, which⟩ → msg.Owes (s.conn k) s.vat jid q := by
    rintro msg ⟨env, data, here, -⟩
    exact absurd here (notDeliver k env data)
  have stranger := apart.stranger
  have does := does sound a
  generalize s.step a = s' at does
  cases does with
  | unread unread =>
      refine ⟨gathered, ?_⟩
      rintro msg ⟨env, data, here, read⟩
      cases here
      rw [unread] at read
      cases read
  | @handled k' env data msg w read done handling =>
      by_cases here : k = k'
      · subst here
        rw [show (s.handled k msg w).conn k = w.conn by simp [handled]]
        obtain ⟨kept, owes⟩ := handling.stranger (sound k) gathered
          (stranger msg ⟨env, data, rfl, read⟩)
        refine ⟨kept, ?_⟩
        rintro msg' ⟨env', data', same, read'⟩
        cases same
        rw [read] at read'
        cases read'
        rw [sends, done]
        exact owes
      · refine ⟨?_, ?_⟩
        · rw [show (s.handled k' msg w).conn k = s.conn k by simp [handled, here]]
          exact gathered
        · rintro msg' ⟨env', data', same, -⟩
          cases same
          exact absurd rfl here
  | exported exported =>
      obtain ⟨-, -, -, -, joins⟩ := Conn.exportCap_some exported
      exact ⟨worked joins, quiet fun _ _ _ other => by cases other⟩
  | full => exact ⟨gathered, quiet fun _ _ _ other => by cases other⟩
  | worked notDeliver _ _ joins => exact ⟨worked joins, quiet notDeliver⟩

/-- What is true while parts arrive. -/
theorem gathering_inv (sound : s₀.Sound) (gathering : Gathering s₀ k jid n part seen s) :
    s.Sound ∧ (s.conn k).Gathered jid n part seen ∧ s.Live k part seen := by
  induction gathering with
  | start closed =>
      exact ⟨sound, .inl ⟨rfl, closed⟩, fun i member => absurd member (Finset.notMem_empty i)⟩
  | @part seen s a p _ brings more ih =>
      obtain ⟨sound, gathered, live⟩ := ih
      obtain ⟨early, -, kept⟩ := brings_step sound gathered live brings
      exact ⟨(does sound a).sound sound, (early more).2, kept⟩
  | @other seen s a _ apart ih =>
      obtain ⟨sound, gathered, live⟩ := ih
      exact ⟨(does sound a).sound sound, (apart_step sound gathered apart).1, live.step apart.keeps⟩

/-- A join answers everyone once, in whatever order its parts arrive: until
the last part arrives no part is answered, and what is answered in between is
owed by other messages; the last part has every question answered once, with the
same flag, which is set exactly if all parts have resolved to one export that is
in use, and with that export for the first part; and the slot is free again.
All this depends only on the parts, not on the order of their arrival. -/
theorem join_order_independent (reached : Reached init step (fun _ _ => True) s₀)
    (gathering : Gathering s₀ k jid n part seen s) :
    (∀ a, s.Apart k jid n seen a → ∀ msg, a.Delivers k msg → ∀ flat ∈ s.sends a, ∀ q which,
        returnOf flat = some ⟨q, which⟩ → msg.Owes (s.conn k) s.vat jid q) ∧
      ∀ a p, s.Brings k jid n part seen a p →
        (insert p seen ≠ Finset.range n → s.sends a = []) ∧
        (insert p seen = Finset.range n →
          JoinAnswered jid n part (s.sends a) ∧ ((s.step a).conn k).Closed jid ∧
            (agree n part = true ↔ ∃ eid, (∀ i < n, (part i).eid = some eid) ∧
              (((s.step a).conn k).exports eid).used = true)) := by
  obtain ⟨sound, gathered, live⟩ := gathering_inv (sound_of_reached reached) gathering
  refine ⟨fun a apart => (apart_step sound gathered apart).2, fun a p brings => ?_⟩
  obtain ⟨early, late, kept⟩ := brings_step sound gathered live brings
  refine ⟨fun more => (early more).1, fun last => ?_⟩
  obtain ⟨answered, closed⟩ := late last
  refine ⟨answered, closed, ?_⟩
  have some : 0 < n := by
    obtain ⟨msg, -, key, -⟩ := brings
    exact (Nat.zero_le p).trans_lt (lt_of_joinKey key).1
  rw [agree_iff some]
  constructor
  · rintro ⟨eid, all⟩
    exact ⟨eid, all, kept 0 (last ▸ Finset.mem_range.mpr some) eid (all 0 some)⟩
  · rintro ⟨eid, all, -⟩
    exact ⟨eid, all⟩

/-- Two parts of a join of export 0, as questions 5 and 6. -/
def twoParts (i : Nat) : Part := ⟨5 + i, some 0⟩

/-- A part of a join arrives. -/
theorem brings_of_frame {s : Net} {k jid n : Nat} {part : Nat → Part} {seen : Finset Nat}
    {data : List UInt8} {p : Nat}
    (brings : (readIncoming data).any (fun msg =>
      msg.joinKey == some (jid, n, p) && msg.questionId == (part p).qid &&
        msg.joinTarget (s.conn k) == (part p).eid) = true)
    (new : p ∉ seen) (room : (s.conn k).openJoins ≤ 7) :
    s.Brings k jid n part seen (arrives k data) p := by
  obtain ⟨msg, read, holds⟩ := (Option.any_eq_true _ _).mp brings
  simp only [Bool.and_eq_true, beq_iff_eq] at holds
  obtain ⟨⟨key, asked⟩, resolved⟩ := holds
  exact ⟨msg, ⟨_, data, rfl, read⟩, key, new, asked, resolved, fun _ => room⟩

/-- Two parts of a join of one export are answered alike in either order. -/
theorem join_order_independent_two :
    let s := ([.exportCap 0 1 1] : List Action).foldl step init
    JoinAnswered 9 2 twoParts
        ((s.step (arrives 0 (joinFrame 5 9 2 0 0))).sends (arrives 0 (joinFrame 6 9 2 1 0))) ∧
      JoinAnswered 9 2 twoParts
        ((s.step (arrives 0 (joinFrame 6 9 2 1 0))).sends (arrives 0 (joinFrame 5 9 2 0 0))) := by
  intro s
  have reached : Reached init step (fun _ _ => True) s := reached_any _
  have closed : (s.conn 0).Closed 9 := by
    intro i small
    revert i
    decide +kernel
  have gathering : Gathering s 0 9 2 twoParts ∅ s := .start closed
  constructor
  · have first : s.Brings 0 9 2 twoParts ∅ (arrives 0 (joinFrame 5 9 2 0 0)) 0 :=
      brings_of_frame (by decide +kernel) (by decide) (by decide +kernel)
    have second : (s.step (arrives 0 (joinFrame 5 9 2 0 0))).Brings 0 9 2 twoParts (insert 0 ∅)
        (arrives 0 (joinFrame 6 9 2 1 0)) 1 :=
      brings_of_frame (by decide +kernel) (by decide) (by decide +kernel)
    have last := (join_order_independent reached (.part gathering first (by decide))).2 _ _ second
    exact (last.2 (by decide)).1
  · have first : s.Brings 0 9 2 twoParts ∅ (arrives 0 (joinFrame 6 9 2 1 0)) 1 :=
      brings_of_frame (by decide +kernel) (by decide) (by decide +kernel)
    have second : (s.step (arrives 0 (joinFrame 6 9 2 1 0))).Brings 0 9 2 twoParts (insert 1 ∅)
        (arrives 0 (joinFrame 5 9 2 0 0)) 0 :=
      brings_of_frame (by decide +kernel) (by decide) (by decide +kernel)
    have last := (join_order_independent reached (.part gathering first (by decide))).2 _ _ second
    exact (last.2 (by decide)).1

/-- A part of a join of what a question promises. -/
def promisedJoinFrame (qid joinId count num promised : UInt8) : List UInt8 :=
  [0, 0, 0, 0, 11, 0, 0, 0,
   0, 0, 0, 0, 1, 0, 1, 0,
   12, 0, 0, 0, 0, 0, 0, 0,
   0, 0, 0, 0, 1, 0, 2, 0,
   qid, 0, 0, 0, 0, 0, 0, 0,
   4, 0, 0, 0, 1, 0, 1, 0,
   16, 0, 0, 0, 1, 0, 0, 0,
   0, 0, 0, 0, 1, 0, 0, 0,
   0, 0, 0, 0, 1, 0, 1, 0,
   promised, 0, 0, 0, 0, 0, 0, 0,
   0, 0, 0, 0, 0, 0, 0, 0,
   joinId, 0, 0, 0, count, 0, num, 0]

/-- A promise is joined with the export that it stands for, and its question is
finished in between: the join succeeds if the promise arrives first, and fails if
it arrives last, although no export is freed. -/
theorem promise_joined_in_order :
    let s := ([.setBootstrap 0 1 1, arrives 0 (bootstrapFrame 5)] : List Action).foldl step init
    let promise := arrives 0 (promisedJoinFrame 6 9 2 0 5)
    let finish := arrives 0 (finishFrame 5)
    let direct := arrives 0 (joinFrame 7 9 2 1 0)
    Reached init step (fun _ _ => True) s ∧ (s.conn 0).Closed 9 ∧
      (((s.step promise).step finish).sends direct).map joinResultOf =
        [some (9, true), some (9, true)] ∧
      (((s.step direct).step finish).sends promise).map joinResultOf =
        [some (9, false), some (9, false)] ∧
      ((s.conn 0).exports 0).used = true ∧
        ((((s.step promise).step finish).conn 0).exports 0).used = true ∧
        ((((s.step direct).step finish).conn 0).exports 0).used = true := by
  refine ⟨reached_any _, ?_, by decide +kernel⟩
  intro i small
  revert i
  decide +kernel

end Net

end CapnpJanet.Rpc
