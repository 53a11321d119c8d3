import CapnpJanet.Rpc.Asking

/-!
# The ids of questions

A question takes the next value of a 32-bit counter as its id.  The counter
wraps around without regard to the questions that are still open, and it passes
through the value that means failure.  As long as neither happens the ids in use
are distinct, and what a successful send returns is one of them.
-/

namespace CapnpJanet.Rpc

open Builder Run

/-! ## Distinct ids -/

/-- No two questions in use have the same id. -/
def Conn.DistinctIds (c : Conn) : Prop :=
  ∀ i < maxQuestions, ∀ j < maxQuestions, (c.questions i).used = true →
    (c.questions j).used = true → (c.questions i).questionId = (c.questions j).questionId → i = j

/-- The next id is not the failure value, and no question in use has it. -/
def Conn.NextFresh (c : Conn) : Prop :=
  c.nextQuestionId ≠ noQuestion ∧
    ∀ i < maxQuestions, (c.questions i).used = true → (c.questions i).questionId ≠ c.nextQuestionId

instance (c : Conn) : Decidable c.NextFresh :=
  inferInstanceAs (Decidable (_ ∧ ∀ i < maxQuestions, _))

section
variable {c c' : Conn} {i : Nat}

theorem Conn.DistinctIds.congr (distinct : c.DistinctIds) (same : c.SameIds c') :
    c'.DistinctIds := by
  intro i hi j hj usedI usedJ equal
  rw [same.used] at usedI usedJ
  rw [same.ids, same.ids] at equal
  exact distinct i hi j hj usedI usedJ equal

/-- Emptying entries leaves distinct ids. -/
theorem Conn.DistinctIds.of_fewer (distinct : c.DistinctIds)
    (kept : ∀ j, (c'.questions j).used = true → c'.questions j = c.questions j) :
    c'.DistinctIds := by
  intro i hi j hj usedI usedJ equal
  have sameI := kept i usedI
  have sameJ := kept j usedJ
  rw [sameI] at usedI equal
  rw [sameJ] at usedJ equal
  exact distinct i hi j hj usedI usedJ equal

/-- A claimed id collides exactly if a question in use has it. -/
theorem Conn.distinctIds_claimed_iff (distinct : c.DistinctIds) (slot : c.questionSlot = some i) :
    (c.claimed i).DistinctIds ↔ ∀ j < maxQuestions, (c.questions j).used = true →
      (c.questions j).questionId ≠ c.nextQuestionId := by
  obtain ⟨small, free⟩ := questionSlot_some slot
  have other {j : Nat} (used : (c.questions j).used = true) : j ≠ i := by
    rintro rfl
    rw [free] at used
    cases used
  constructor
  · intro distinct' j hj used equal
    refine other used (distinct' j hj i small ?_ ?_ ?_)
    · rwa [claimed_of_ne c (other used)]
    · rw [claimed_self]
    · rw [claimed_of_ne c (other used), claimed_self, equal]
  · intro fresh j hj l hl usedJ usedL equal
    by_cases hereJ : j = i
    · by_cases hereL : l = i
      · rw [hereJ, hereL]
      · rw [claimed_of_ne c hereL] at usedL equal
        rw [hereJ, claimed_self] at equal
        exact absurd equal.symm (fresh l hl usedL)
    · rw [claimed_of_ne c hereJ] at usedJ equal
      by_cases hereL : l = i
      · rw [hereL, claimed_self] at equal
        exact absurd equal (fresh j hj usedJ)
      · rw [claimed_of_ne c hereL] at usedL equal
        exact distinct j hj l hl usedJ usedL equal

end

/-! ## Runs -/

namespace Net

/-- Every question that is asked finds the table full or the next id fresh. -/
def TakesFresh (s : Net) (a : Nat × Deed) : Prop :=
  ∀ env request, a.2 = .ask env request →
    (s.conn a.1).questionSlot = none ∨ (s.conn a.1).NextFresh

/-- A deed keeps ids distinct if the question it asks, if any, takes a fresh
one. -/
theorem distinctIds_run {c : Conn} (v : Vat) {d : Deed} (distinct : c.DistinctIds)
    (fresh : ∀ env request, d = .ask env request → c.questionSlot = none ∨ c.NextFresh) :
    (d.run c v).conn.DistinctIds := by
  rcases d.kinds with ⟨env, data, rfl⟩ | ⟨env, request, rfl⟩ | ⟨env, qid, rfl⟩ | quiet
  · exact distinct.congr (deliver_sameIds v env data)
  · have asks := request_asks (World.start c v) env request
    change ((World.start c v).request env request).2.conn.DistinctIds
    generalize (World.start c v).request env request = result at asks ⊢
    cases asks with
    | refused => exact distinct
    | failed _ _ =>
        refine distinct.of_fewer fun j used => ?_
        obtain ⟨other, kept⟩ := Conn.questionDrop_kept _ _ used
        exact kept.trans (Conn.claimed_of_ne c other)
    | asked slot _ _ _ =>
        rcases fresh env request rfl with full | next
        · exact absurd (slot.symm.trans full) nofun
        · exact (Conn.distinctIds_claimed_iff distinct slot).mpr next.2
  · rw [finish_conn, Conn.finished]
    split
    · exact distinct
    · exact distinct.of_fewer fun j used => (Conn.questionDrop_kept _ _ used).2
  · obtain ⟨questions, next⟩ := Deed.run_quiet v quiet
    exact distinct.congr (.of_questions questions next)

/-- The ids of a connection stay distinct if its own questions take fresh ones. -/
theorem distinctIds_of_reached {s : Net} {k : Nat}
    (reached : Reached init act (fun s a => a.1 = k → TakesFresh s a) s) :
    (s.conn k).DistinctIds := by
  refine conn_of_reached reached (fun i _ _ _ used => ?_) (fun s d distinct met => ?_)
  · cases used
  · exact distinctIds_run s.vat distinct (met rfl)

/-- Question ids are usable names.  In every run in which each question
takes a fresh id, the ids in use are distinct on every connection; and a send
that succeeds keeps them so, and returns a value that is not the failure value,
exactly if it took a fresh id. -/
theorem question_ids_usable {s : Net} (reached : Reached init act TakesFresh s) (k : Nat) :
    (s.conn k).DistinctIds ∧ ∀ env request flat,
      ((Deed.ask env request).run (s.conn k) s.vat).sent = [flat] → env.send [] flat = 0 →
        ((((World.start (s.conn k) s.vat).request env request).1 ≠ noQuestion ∧
          ((s.act (k, .ask env request)).conn k).DistinctIds) ↔ (s.conn k).NextFresh) := by
  have distinct : (s.conn k).DistinctIds :=
    distinctIds_of_reached (reached.mono fun _ _ met _ => met)
  refine ⟨distinct, fun env request flat sent taken => ?_⟩
  have asks := request_asks (World.start (s.conn k) s.vat) env request
  rw [act_conn_self]
  change ((World.start (s.conn k) s.vat).request env request).2.sent = [flat] at sent
  change _ ∧ ((World.start (s.conn k) s.vat).request env request).2.conn.DistinctIds ↔ _
  generalize (World.start (s.conn k) s.vat).request env request = result at asks sent ⊢
  cases asks with
  | refused => cases sent
  | failed _ untaken => exact absurd taken (untaken flat sent)
  | asked slot _ _ _ =>
      exact and_congr Iff.rfl (Conn.distinctIds_claimed_iff distinct slot)

/-! ## A run through all the ids -/

/-- A question of a connection with a free entry, when frames are taken. -/
theorem bootstrap_taken {c : Conn} (v : Vat) {i : Nat} (slot : c.questionSlot = some i) :
    ∃ flat, (World.start c v).request (returningEnv 0) .bootstrap =
      (c.nextQuestionId, { World.start c v with conn := c.claimed i, sent := [flat] }) := by
  obtain ⟨b, flat, built, done⟩ := bootstrapMessage_sends c.nextQuestionId
  exact ⟨flat, ask_taken (World.start c v) (returningEnv 0) slot built done rfl⟩

/-- Two questions on connection 0, and one on connection 1 between them. -/
def twoQuestions : Net :=
  [0, 1, 0].foldl (fun s k => s.act (k, .ask (returningEnv 0) .bootstrap)) init

/-- The third question of a connection on which two are open. -/
theorem question_ids_usable_third :
    ((twoQuestions.conn 0).questions 0).used = true ∧
      ((twoQuestions.conn 0).questions 1).used = true ∧ (twoQuestions.conn 0).DistinctIds ∧
      ((World.start (twoQuestions.conn 0) twoQuestions.vat).request (returningEnv 0)
        .bootstrap).1 ≠ noQuestion ∧
      ((twoQuestions.act (0, .ask (returningEnv 0) .bootstrap)).conn 0).DistinctIds := by
  have fresh (s : Net) (k : Nat) (next : (s.conn k).NextFresh) :
      TakesFresh s (k, .ask (returningEnv 0) .bootstrap) := fun _ _ _ => .inr next
  have reached : Reached init act TakesFresh twoQuestions :=
    ((Reached.start.step (fresh _ 0 (by decide +kernel))).step
      (fresh _ 1 (by decide +kernel))).step (fresh _ 0 (by decide +kernel))
  obtain ⟨distinct, asks⟩ := question_ids_usable reached 0
  obtain ⟨flat, sends⟩ := bootstrap_taken twoQuestions.vat
    (show (twoQuestions.conn 0).questionSlot = some 2 by decide +kernel)
  have next : (twoQuestions.conn 0).NextFresh := by decide +kernel
  exact ⟨by decide +kernel, by decide +kernel, distinct,
    (asks (returningEnv 0) .bootstrap flat (congrArg (fun r => r.2.sent) sends) rfl).mpr next⟩

/-- The application asks a question and keeps it open, and then it asks and
finishes another question, again and again. -/
def rounds : Nat → Net
  | 0 => init.act (0, .ask (returningEnv 0) .bootstrap)
  | n + 1 => ((rounds n).act (0, .ask (returningEnv 0) .bootstrap)).act
      (0, .finish (returningEnv 0) ((rounds n).conn 0).nextQuestionId)

/-- The first question is open, no other is, and the counter is at `next`. -/
structure OnlyFirst (c : Conn) (next : Nat) : Prop where
  used : (c.questions 0).used = true
  id : (c.questions 0).questionId = 0
  others : ∀ j, j ≠ 0 → (c.questions j).used = false
  counter : c.nextQuestionId = next

theorem OnlyFirst.slot {c : Conn} {next : Nat} (only : OnlyFirst c next) :
    c.questionSlot = some 1 := by
  unfold Conn.questionSlot firstIndex maxQuestions
  rw [show List.range 64 = 0 :: 1 :: (List.range 62).map (· + 2) from rfl, List.find?_cons_of_neg,
    List.find?_cons_of_pos]
  · rw [only.others 1 (by decide)]
    rfl
  · rw [only.used]
    simp

/-- A round takes the second entry and leaves it again. -/
theorem OnlyFirst.round {s : Net} {next : Nat} (only : OnlyFirst (s.conn 0) next)
    (positive : next ≠ 0) :
    OnlyFirst (((s.act (0, .ask (returningEnv 0) .bootstrap)).act
      (0, .finish (returningEnv 0) (s.conn 0).nextQuestionId)).conn 0) ((next + 1) % 2 ^ 32) := by
  obtain ⟨flat, sends⟩ := bootstrap_taken s.vat only.slot
  have asked : (s.act (0, .ask (returningEnv 0) .bootstrap)).conn 0 = (s.conn 0).claimed 1 := by
    rw [act_conn_self]
    exact congrArg (fun r => r.2.conn) sends
  have found : ((s.conn 0).claimed 1).questionFind (s.conn 0).nextQuestionId = some 1 := by
    unfold Conn.questionFind firstIndex maxQuestions
    rw [show List.range 64 = 0 :: 1 :: (List.range 62).map (· + 2) from rfl,
      List.find?_cons_of_neg, List.find?_cons_of_pos]
    · rw [Conn.claimed_self]
      simp
    · rw [Conn.claimed_of_ne _ (by decide), only.id, only.counter]
      simp [positive.symm]
  rw [act_conn_self, finish_conn, asked, Conn.finished, found]
  refine ⟨?_, ?_, fun j other => ?_, ?_⟩
  · exact only.used
  · exact only.id
  · by_cases here : j = 1
    · rw [here]
      rfl
    · have kept : (((s.conn 0).claimed 1).questionDrop 1).questions j = (s.conn 0).questions j :=
        (Function.update_of_ne here _ _).trans (Conn.claimed_of_ne _ here)
      rw [kept]
      exact only.others j other
  · change ((s.conn 0).nextQuestionId + 1) % 2 ^ 32 = _
    rw [only.counter]

/-- After `n` rounds. -/
theorem rounds_onlyFirst {n : Nat} (small : n < 2 ^ 32) :
    OnlyFirst ((rounds n).conn 0) ((n + 1) % 2 ^ 32) := by
  induction n with
  | zero =>
      obtain ⟨flat, sends⟩ := bootstrap_taken init.vat
        (show (init.conn 0).questionSlot = some 0 from rfl)
      have conn : (rounds 0).conn 0 = (init.conn 0).claimed 0 := by
        rw [rounds, act_conn_self]
        exact congrArg (fun r => r.2.conn) sends
      rw [conn]
      refine ⟨by rw [Conn.claimed_self], by rw [Conn.claimed_self]; rfl, fun j other => ?_, rfl⟩
      rw [Conn.claimed_of_ne _ other]
      rfl
  | succ n ih =>
      have counted := Nat.mod_eq_of_lt small
      have only := ih (by omega)
      rw [counted] at only
      exact only.round (Nat.succ_ne_zero n)

theorem rounds_reached (n : Nat) : Reached init act (fun _ _ => True) (rounds n) := by
  induction n with
  | zero => exact Reached.start.step trivial
  | succ n ih => exact (ih.step trivial).step trivial

/-- The counter comes by every value while the first question is open. -/
theorem counter_passes (next : Nat) (small : next < 2 ^ 32) :
    ∃ s, Reached init act (fun _ _ => True) s ∧ OnlyFirst (s.conn 0) next := by
  have only := rounds_onlyFirst (n := (next + (2 ^ 32 - 1)) % 2 ^ 32) (Nat.mod_lt _ (by decide))
  refine ⟨_, rounds_reached ((next + (2 ^ 32 - 1)) % 2 ^ 32), ?_⟩
  rwa [show ((next + (2 ^ 32 - 1)) % 2 ^ 32 + 1) % 2 ^ 32 = next by omega] at only

/-- The id of the first question is given to another one. -/
theorem OnlyFirst.collides {s : Net} (only : OnlyFirst (s.conn 0) 0) :
    ¬((s.act (0, .ask (returningEnv 0) .bootstrap)).conn 0).DistinctIds := by
  obtain ⟨flat, sends⟩ := bootstrap_taken s.vat only.slot
  have asked : (s.act (0, .ask (returningEnv 0) .bootstrap)).conn 0 = (s.conn 0).claimed 1 := by
    rw [act_conn_self]
    exact congrArg (fun r => r.2.conn) sends
  rw [asked]
  intro distinct
  have same := distinct 0 (by decide) 1 (by decide) only.used (by rw [Conn.claimed_self]) (by
    rw [Conn.claimed_self, Conn.claimed_of_ne _ (by decide), only.id, only.counter])
  cases same

/-- Ids collide, and success looks like failure, once the counter has gone
through all its values. -/
theorem question_ids_wrap :
    (∃ s, Reached init act (fun _ _ => True) s ∧ ¬(s.conn 0).DistinctIds) ∧
      ∃ s, Reached init act (fun _ _ => True) s ∧ ∃ flat,
        ((Deed.ask (returningEnv 0) .bootstrap).run (s.conn 0) s.vat).sent = [flat] ∧
          (returningEnv 0).send [] flat = 0 ∧
            ((World.start (s.conn 0) s.vat).request (returningEnv 0) .bootstrap).1 = noQuestion := by
  constructor
  · obtain ⟨s, reached, only⟩ := counter_passes 0 (by decide)
    exact ⟨_, reached.step trivial, only.collides⟩
  · obtain ⟨s, reached, only⟩ := counter_passes noQuestion (by decide)
    obtain ⟨flat, sends⟩ := bootstrap_taken s.vat only.slot
    refine ⟨s, reached, flat, congrArg (fun r => r.2.sent) sends, rfl, ?_⟩
    rw [congrArg Prod.fst sends, only.counter]

end Net

end CapnpJanet.Rpc
