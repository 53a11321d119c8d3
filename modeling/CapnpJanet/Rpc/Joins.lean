import CapnpJanet.Rpc.Effects
import Mathlib.Algebra.Order.BigOperators.Group.Finset

/-!
# Joins answer each part once

A join holds back the answers to its parts until it is complete.  `waiting`
counts the parts of a connection that wait for a question id, and the main
result is that handling a `Join` never answers more than was waiting and asked.
-/

namespace CapnpJanet.Rpc

open Builder

/-! ## Sums with one changed term -/

/-- Sums that differ in one term differ by that term. -/
theorem sum_range_replace {n i : Nat} (hi : i < n) {f g : Nat → Nat}
    (other : ∀ j, j ≠ i → g j = f j) :
    ∑ j ∈ Finset.range n, g j + f i = ∑ j ∈ Finset.range n, f j + g i := by
  have member := Finset.mem_range.mpr hi
  have before := Finset.add_sum_erase _ f member
  have after := Finset.add_sum_erase _ g member
  have rest : ∑ j ∈ (Finset.range n).erase i, g j = ∑ j ∈ (Finset.range n).erase i, f j :=
    Finset.sum_congr rfl fun j hj => other j (Finset.ne_of_mem_erase hj)
  omega

/-- `n` flags sum up to `n` only if all are set. -/
theorem flag_of_sum_eq {n : Nat} {flag : Nat → Bool}
    (all : ∑ i ∈ Finset.range n, (if flag i then 1 else 0) = n) : ∀ i < n, flag i = true := by
  intro i hi
  by_contra unset
  have total : ∑ i ∈ Finset.range n, (if flag i then 1 else 0) <
      ∑ _i ∈ Finset.range n, 1 := by
    refine Finset.sum_lt_sum (fun j _ => ?_) ⟨i, Finset.mem_range.mpr hi, ?_⟩
    · split <;> omega
    · rw [if_neg unset]
      exact one_pos
  rw [all] at total
  simp at total

/-! ## Parts that wait -/

/-- Parts of a join that wait for an answer to question `q`. -/
def Join.waiting (join : Join) (q : Nat) : Nat :=
  if join.used then
    ∑ n ∈ Finset.range join.partCount, if join.seen n ∧ join.qids n = q then 1 else 0
  else 0

/-- Parts of a connection's joins that wait for an answer to question `q`. -/
def Conn.waiting (c : Conn) (q : Nat) : Nat := ∑ i ∈ Finset.range maxJoins, (c.joins i).waiting q

/-- The count of a join is the number of parts it has seen, and its question
ids fit their field. -/
structure Join.Wf (join : Join) : Prop where
  nseen_eq : join.used = true →
    join.nseen = ∑ n ∈ Finset.range join.partCount, if join.seen n then 1 else 0
  ids_lt : ∀ n, join.qids n < 2 ^ 32

/-- All joins of a connection are well formed. -/
def Conn.JoinsWf (c : Conn) : Prop := ∀ i, (c.joins i).Wf

theorem Join.zero_wf : Join.zero.Wf := ⟨nofun, fun _ => Nat.two_pow_pos 32⟩

theorem joinsWf_init : Conn.init.JoinsWf := fun _ => Join.zero_wf

@[simp]
theorem Conn.setJoin_joins (c : Conn) (i : Nat) (join : Join) (j : Nat) :
    (c.setJoin i join).joins j = if j = i then join else c.joins j := by
  simp [setJoin, Function.update_apply]

theorem Conn.JoinsWf.setJoin {c : Conn} (wf : c.JoinsWf) (i : Nat) {join : Join}
    (joinWf : join.Wf) : (c.setJoin i join).JoinsWf := by
  intro j
  rw [setJoin_joins]
  split
  · exact joinWf
  · exact wf j

/-- Replacing a join changes what waits by the difference of the two. -/
theorem Conn.waiting_setJoin (c : Conn) {i : Nat} (hi : i < maxJoins) (join : Join) (q : Nat) :
    (c.setJoin i join).waiting q + (c.joins i).waiting q = c.waiting q + join.waiting q := by
  have replaced := sum_range_replace hi (f := fun j => (c.joins j).waiting q)
    (g := fun j => ((c.setJoin i join).joins j).waiting q) fun j other => by simp [other]
  simpa [waiting] using replaced

/-- One more part waits once its number is taken. -/
theorem Join.waiting_addPart {join : Join} {pnum : Nat} (used : join.used = true)
    (small : pnum < join.partCount) (fresh : join.seen pnum = false) (qid : Nat)
    (eid : Option Nat) (q : Nat) :
    (join.addPart pnum qid eid).waiting q = join.waiting q + if qid = q then 1 else 0 := by
  have replaced := sum_range_replace small
    (f := fun n => if join.seen n ∧ join.qids n = q then 1 else 0)
    (g := fun n => if (join.addPart pnum qid eid).seen n ∧ (join.addPart pnum qid eid).qids n = q
      then 1 else 0) fun n other => by simp [addPart, other]
  have same : (join.addPart pnum qid eid).used = true := used
  unfold waiting
  rw [if_pos used, if_pos same]
  simpa [addPart, fresh] using replaced

theorem Join.Wf.addPart {join : Join} (wf : join.Wf) {pnum : Nat} (used : join.used = true)
    (small : pnum < join.partCount) (fresh : join.seen pnum = false) {qid : Nat}
    (qidLt : qid < 2 ^ 32) (eid : Option Nat) : (join.addPart pnum qid eid).Wf := by
  refine ⟨fun _ => ?_, fun n => ?_⟩
  · have replaced := sum_range_replace small (f := fun n => if join.seen n then 1 else 0)
      (g := fun n => if (join.addPart pnum qid eid).seen n then 1 else 0)
      fun n other => by simp [Join.addPart, other]
    have count := wf.nseen_eq used
    simp only [Join.addPart, Function.update_self, fresh, Bool.false_eq_true, if_false,
      if_true] at replaced ⊢
    omega
  · simp only [Join.addPart, Function.update_apply]
    split
    · exact qidLt
    · exact wf.ids_lt n

/-! ## What a handler owes -/

/-- A handler that was asked `asks` has answered at most what was waiting or
asked.  The vat and the dispatch calls are as before, and no export is lost. -/
structure Serves (w : World) (asks : List Nat) (w' : World) : Prop where
  sent : ∃ frames, w'.sent = w.sent ++ frames ∧
    ∀ q, (answeredIds frames).count q + w'.conn.waiting q ≤ w.conn.waiting q + asks.count q
  joinsWf : w'.conn.JoinsWf
  vat_eq : w'.vat = w.vat
  exporting : w.conn.Exporting w'.conn
  dispatched_eq : w'.dispatched = w.dispatched

theorem Conn.waiting_congr {c c' : Conn} (same : c'.joins = c.joins) (q : Nat) :
    c'.waiting q = c.waiting q := by
  unfold waiting
  rw [same]

/-- Replies to what was asked. -/
theorem Replies.serves {w w' : World} {ids asks : List Nat} (replies : Replies w ids w')
    (wf : w.conn.JoinsWf) (asked : ids.Sublist asks) : Serves w asks w' := by
  obtain ⟨frames, sent, answered⟩ := replies.sent
  refine ⟨⟨frames, sent, fun q => ?_⟩, ?_, replies.vat_eq, replies.exporting,
    replies.dispatched_eq⟩
  · have bound := asked.count_le q
    rw [answered, Conn.waiting_congr replies.joins_eq]
    omega
  · unfold Conn.JoinsWf
    rw [replies.joins_eq]
    exact wf

/-- A handler goes on without new questions. -/
theorem Serves.trans {w w₁ w' : World} {asks asks' : List Nat} (first : Serves w asks w₁)
    (second : Serves w₁ asks' w') : Serves w (asks ++ asks') w' := by
  obtain ⟨frames, sent, bound⟩ := first.sent
  obtain ⟨frames', sent', bound'⟩ := second.sent
  refine ⟨⟨frames ++ frames', ?_, fun q => ?_⟩, second.joinsWf, second.vat_eq.trans first.vat_eq,
    first.exporting.trans second.exporting, second.dispatched_eq.trans first.dispatched_eq⟩
  · rw [sent', sent, List.append_assoc]
  · have before := bound q
    have after := bound' q
    rw [answeredIds_append, List.count_append, List.count_append]
    omega

/-- A change of the joins before anything is sent. -/
theorem Serves.of_conn (w : World) {c : Conn} {asks : List Nat} (wf : c.JoinsWf)
    (exports : c.exports = w.conn.exports)
    (bound : ∀ q, c.waiting q ≤ w.conn.waiting q + asks.count q) :
    Serves w asks { w with conn := c } :=
  ⟨⟨[], by simp, fun q => by simpa [answeredIds] using bound q⟩, wf, rfl,
    Conn.Exporting.of_eq exports, rfl⟩

/-! ## `Join` -/

section
variable (env : Env)

theorem sendJoinResult_replies {qid : Nat} (qidLt : qid < 2 ^ 32) (joinId : Nat) (succeeded : Bool)
    (cap : Option Nat) (w : World) :
    Replies w [qid] (sendJoinResult env qid joinId succeeded cap w).2 := by
  obtain ⟨b, begun, plain, carrying⟩ := beginJoinResult_reads qidLt joinId succeeded
  unfold sendJoinResult
  rw [begun]
  cases cap with
  | none => exact (World.flush_answers plain).replies
  | some eid =>
      obtain ⟨b', finished, reads⟩ := carrying eid
      dsimp only
      rw [finished]
      exact (Replies.of_conn w (Conn.retain_exporting _ eid) rfl).trans
        (World.flush_answers reads).replies

theorem answerParts_replies (join : Join) (idsLt : ∀ n, join.qids n < 2 ^ 32) (n : Nat) (w : World) :
    Replies w ((List.range n).map join.qids) (answerParts env join n w).2 := by
  induction n with
  | zero => exact Replies.refl w
  | succ n ih =>
      rw [answerParts, List.range_succ, List.map_append]
      exact ih.trans (sendJoinResult_replies env (idsLt n) _ _ _ _)

theorem count_map_range (ids : Nat → Nat) (n q : Nat) :
    ((List.range n).map ids).count q = ∑ k ∈ Finset.range n, if ids k = q then 1 else 0 := by
  induction n with
  | zero => rfl
  | succ n ih =>
      rw [List.range_succ, List.map_append, List.count_append, ih, Finset.sum_range_succ]
      simp [List.count_singleton]

/-- A complete join answers exactly the parts that waited. -/
theorem joinComplete_serves {slot : Nat} (hi : slot < maxJoins) {w : World}
    (wf : w.conn.JoinsWf) (used : (w.conn.joins slot).used = true)
    (full : (w.conn.joins slot).nseen = (w.conn.joins slot).partCount) :
    Serves w [] (joinComplete env slot w).2 := by
  have replies := answerParts_replies env (w.conn.joins slot) (wf slot).ids_lt
    (w.conn.joins slot).partCount w
  have allSeen := flag_of_sum_eq (((wf slot).nseen_eq used).symm.trans full)
  have waited (q : Nat) : (w.conn.joins slot).waiting q =
      ((List.range (w.conn.joins slot).partCount).map (w.conn.joins slot).qids).count q := by
    rw [count_map_range, Join.waiting, if_pos used]
    refine Finset.sum_congr rfl fun n member => ?_
    simp [allSeen n (Finset.mem_range.mp member)]
  unfold joinComplete
  dsimp only
  generalize answerParts env (w.conn.joins slot) (w.conn.joins slot).partCount w = done at replies ⊢
  obtain ⟨rc, w₁⟩ := done
  obtain ⟨frames, sent, answered⟩ := replies.sent
  have wf₁ : w₁.conn.JoinsWf := by
    unfold Conn.JoinsWf
    rw [replies.joins_eq]
    exact wf
  refine ⟨⟨frames, sent, fun q => ?_⟩, wf₁.setJoin slot Join.zero_wf, replies.vat_eq,
    replies.exporting, replies.dispatched_eq⟩
  have replaced := w₁.conn.waiting_setJoin hi Join.zero q
  rw [Conn.waiting_congr replies.joins_eq, replies.joins_eq, waited,
    show Join.zero.waiting q = 0 from rfl] at replaced
  rw [answered, List.count_nil]
  dsimp only
  omega

/-- The slot of a join: the one with its id, or a free one, which starts
empty. -/
theorem joinSlotFind_some {c c' : Conn} {jid pcount slot : Nat} (wf : c.JoinsWf)
    (found : c.joinSlotFind jid pcount = (some slot, c')) :
    slot < maxJoins ∧ (c'.joins slot).used = true ∧ (c'.joins slot).partCount = pcount ∧
      c'.exports = c.exports ∧ c'.JoinsWf ∧ ∀ q, c'.waiting q = c.waiting q := by
  unfold Conn.joinSlotFind at found
  split at found
  · next i known =>
    obtain ⟨small, holds, -⟩ := firstIndex_eq_some known
    simp only [Bool.and_eq_true, beq_iff_eq] at holds
    split at found
    · next agrees =>
      simp only [Prod.mk.injEq, Option.some.injEq] at found
      obtain ⟨rfl, rfl⟩ := found
      exact ⟨small, holds.1, agrees, rfl, wf, fun _ => rfl⟩
    · cases found
  · split at found
    · next i free =>
      obtain ⟨small, unused, -⟩ := firstIndex_eq_some free
      simp only [Bool.not_eq_true'] at unused
      simp only [Prod.mk.injEq, Option.some.injEq] at found
      obtain ⟨rfl, rfl⟩ := found
      refine ⟨small, by simp, by simp, rfl, wf.setJoin i ?_, fun q => ?_⟩
      · exact ⟨fun _ => by simp [Join.zero], fun _ => Nat.two_pow_pos 32⟩
      · have replaced := c.waiting_setJoin small
          { Join.zero with used := true, joinId := jid, partCount := pcount } q
        have idle : (c.joins i).waiting q = 0 := by
          rw [Join.waiting, unused]
          rfl
        have empty : Join.waiting
            { Join.zero with used := true, joinId := jid, partCount := pcount } q = 0 := by
          simp [Join.waiting, Join.zero]
        rwa [idle, empty] at replaced
    · cases found

theorem joinSlotFind_none {c c' : Conn} {jid pcount : Nat}
    (found : c.joinSlotFind jid pcount = (none, c')) : c' = c := by
  unfold Conn.joinSlotFind at found
  split at found
  · exact (Prod.mk.inj found).2.symm
  · split at found
    · cases found
    · exact (Prod.mk.inj found).2.symm

/-- A `Join` answers at most what was waiting or asked. -/
theorem handleJoin_serves (m : Message) (body : Ptr) (left : Nat) {w : World}
    (wf : w.conn.JoinsWf) : Serves w [m.getU32 body 0 0] (handleJoin env m body left w).2 := by
  have qidLt := getU32_lt m body 0
  have failed (jid : Nat) {w' : World} (wf' : w'.conn.JoinsWf) :
      Serves w' [m.getU32 body 0 0]
        (sendJoinResult env (m.getU32 body 0 0) jid false none w').2 :=
    (sendJoinResult_replies env qidLt _ _ _ _).serves wf' (List.Sublist.refl _)
  unfold handleJoin
  dsimp only
  split
  · exact failed _ wf
  · generalize m.getU32 (m.getp body 1 Ptr.zero left).out 0 0 = jid
    generalize m.getU16 (m.getp body 1 Ptr.zero left).out 4 0 = pcount
    generalize m.getU16 (m.getp body 1 Ptr.zero left).out 6 0 = pnum
    split
    · exact failed _ wf
    · next bounds =>
      split
      · next c refused =>
        rw [joinSlotFind_none refused]
        exact failed _ wf
      · next slot c found =>
        obtain ⟨slotLt, used, count, exports, wfc, same⟩ := joinSlotFind_some wf found
        have opened : Serves w [] { w with conn := c } :=
          Serves.of_conn w wfc exports fun q => (same q).le
        split
        · exact opened.trans (failed _ wfc)
        · next unseen =>
          have fresh : (c.joins slot).seen pnum = false := by simpa using unseen
          have small : pnum < (c.joins slot).partCount := by omega
          generalize (if (m.getp body 0 Ptr.zero (m.getp body 1 Ptr.zero left).left).rc = .ok then
            (c.resolveTarget m (m.getp body 0 Ptr.zero (m.getp body 1 Ptr.zero left).left).out
              (m.getp body 0 Ptr.zero (m.getp body 1 Ptr.zero left).left).left).1 else none) = eid
          have partWf := (wfc slot).addPart used small fresh qidLt eid
          have added : Serves { w with conn := c } [m.getU32 body 0 0] { w with
              conn := c.setJoin slot ((c.joins slot).addPart pnum (m.getU32 body 0 0) eid) } := by
            refine Serves.of_conn { w with conn := c } (wfc.setJoin slot partWf) rfl fun q => ?_
            have replaced := c.waiting_setJoin slotLt
              ((c.joins slot).addPart pnum (m.getU32 body 0 0) eid) q
            rw [Join.waiting_addPart used small fresh] at replaced
            rw [List.count_singleton]
            simp only [beq_iff_eq]
            omega
          have recorded := opened.trans added
          split
          · next full =>
            have completed := joinComplete_serves env slotLt (w := { w with
              conn := c.setJoin slot ((c.joins slot).addPart pnum (m.getU32 body 0 0) eid) })
              added.joinsWf (by simpa [Join.addPart] using used) (by simpa using full)
            exact recorded.trans completed
          · exact recorded

end

end CapnpJanet.Rpc
