import CapnpJanet.Rpc.System

/-!
# Who lifts an embargo

What runs keep of the vat's provisions, whatever arrives on its connections:
each entry agrees with the history of the frames that wrote it.  Questions are
numbered by each peer for itself, but the provision table is searched by number
alone, so an embargo stays with its introducer only in runs where the search
finds an entry of the connection it was made for.
-/

namespace CapnpJanet.Rpc

open Builder Run

/-! ## Answers held back -/

/-- An entry agrees with what the history records of it. -/
structure Claim.Records (claim : Claim) (p : Provision) : Prop where
  held_used : p.embargoed = true → p.used = true
  introduced : p.used = true → p.questionId = claim.provideId ∧ p.server = claim.pinned
  claimed : p.embargoed = true → p.acceptQuestionId = claim.acceptId ∧
    claim.acceptId < 2 ^ 32 ∧ p.exportId < maxExports

/-- A free entry agrees with any record. -/
theorem Claim.records_free (claim : Claim) {p : Provision} (free : p.used = false)
    (open' : p.embargoed = false) : claim.Records p :=
  ⟨by simp [open'], by simp [free], by simp [open']⟩

@[simp]
theorem Claim.note_same (claim : Claim) (k qid : Nat) (p : Provision) :
    claim.note k qid p p = claim := by
  unfold note
  rw [if_neg (by simp), if_neg (by simp)]

theorem Claim.note_provided (claim : Claim) (k qid : Nat) {p p' : Provision}
    (free : p.used = false) (used : p'.used = true) : claim.note k qid p p' =
      { claim with introducer := k, provideId := qid, pinned := p'.server } :=
  if_pos ⟨free, used⟩

theorem Claim.note_held (claim : Claim) (k qid : Nat) {p p' : Provision} (used : p.used = true)
    (before : p.embargoed = false) (held : p'.embargoed = true) :
    claim.note k qid p p' = { claim with acceptor := k, acceptId := qid } := by
  unfold note
  rw [if_neg (by simp [used]), if_pos ⟨before, held⟩]

namespace Net

/-- Provision `i` holds back the answer to an `Accept` with question `q` on
connection `k`. -/
def Holds (s : Net) (i k q : Nat) : Prop :=
  (s.vat.provisions i).embargoed = true ∧ (s.claims i).acceptor = k ∧ (s.claims i).acceptId = q

instance (s : Net) (i k q : Nat) : Decidable (s.Holds i k q) :=
  inferInstanceAs (Decidable (_ ∧ _ ∧ _))

/-- The answers held back from question `q` on connection `k`. -/
def holding (s : Net) (k q : Nat) : Nat :=
  ∑ i ∈ Finset.range maxProvisions, if s.Holds i k q then 1 else 0

/-- The questions `q` asked on connection `k` that no answer, no waiting part of
a join and no embargo accounts for.  To answer one that is held back, while it
stays held back, takes from this number. -/
def credit (s : Net) (k q : Nat) : Int :=
  (s.asked k).count q - (s.answered k).count q - (s.conn k).waiting q - s.holding k q

/-- What every run keeps. -/
structure Wf (s : Net) : Prop where
  joins : ∀ k, (s.conn k).JoinsWf
  records : ∀ i, (s.claims i).Records (s.vat.provisions i)
  index : ∀ i, (s.vat.provisions i).embargoed = true → i < maxProvisions

theorem wf_init : init.Wf :=
  ⟨fun _ => joinsWf_init, fun _ => Claim.records_free _ rfl rfl, fun _ => nofun⟩

theorem holding_congr {s s' : Net} {k q : Nat} (same : ∀ i, s'.Holds i k q ↔ s.Holds i k q) :
    s'.holding k q = s.holding k q :=
  Finset.sum_congr rfl fun i _ => if_congr (same i) rfl rfl

/-- One entry has changed. -/
theorem holding_replace {s s' : Net} {i k q : Nat} (index : i < maxProvisions)
    (other : ∀ j, j ≠ i → (s'.Holds j k q ↔ s.Holds j k q)) :
    s'.holding k q + (if s.Holds i k q then 1 else 0) =
      s.holding k q + if s'.Holds i k q then 1 else 0 :=
  sum_range_replace index fun j ne => if_congr (other j ne) rfl rfl

/-! ## One message -/

section
variable {s : Net} {k : Nat} {msg : Incoming} {w : World}

theorem handled_claims_eq {i : Nat} (same : w.vat.provisions i = s.vat.provisions i) :
    (s.handled k msg w).claims i = s.claims i := by
  simp [handled, same]

theorem handled_holds_iff {i : Nat} (same : w.vat.provisions i = s.vat.provisions i) (k' q : Nat) :
    (s.handled k msg w).Holds i k' q ↔ s.Holds i k' q := by
  unfold Holds
  rw [handled_claims_eq same, show (s.handled k msg w).vat = w.vat from rfl, same]

/-- What has become of one entry of the provision table. -/
inductive Slot (s : Net) (k : Nat) (msg : Incoming) (w : World) (i : Nat) : Prop
  | kept (same : w.vat.provisions i = s.vat.provisions i)
  | provided (free : (s.vat.provisions i).used = false)
      (used : (w.vat.provisions i).used = true)
      (open' : (w.vat.provisions i).embargoed = false)
      (id : (w.vat.provisions i).questionId = msg.questionId)
  | taken (before : (s.vat.provisions i).embargoed = false)
      (gone : (w.vat.provisions i).used = false) (open' : (w.vat.provisions i).embargoed = false)
  | held (used : (s.vat.provisions i).used = true)
      (before : (s.vat.provisions i).embargoed = false) (eid : Nat) (small : eid < maxExports)
      (result : w.vat.provisions i = { s.vat.provisions i with
        exportId := eid, embargoed := true, acceptQuestionId := msg.questionId })
      (index : i < maxProvisions)
  | lifted (lifts : msg.lifts s.vat = some i) (result : w.vat.provisions i = Provision.zero)

theorem slot_of_set {i : Nat} {p : Provision} (vat : w.vat = s.vat.setProvision i p)
    (changed : w.vat.provisions i = p → Slot s k msg w i) (j : Nat) : Slot s k msg w j := by
  by_cases same : j = i
  · rw [same]
    exact changed (by simp [vat])
  · exact .kept (by simp [vat, same])

/-- Every effect of a message is one of these on every entry. -/
theorem slot_of_effect (effect : Effect msg (World.start (s.conn k) s.vat) w) (i : Nat) :
    Slot s k msg w i := by
  cases effect with
  | kept serves => exact .kept (by rw [serves.vat_eq]; rfl)
  | released _ vat => exact .kept (by rw [vat]; rfl)
  | provided j p free used open' id serves =>
      exact slot_of_set serves.vat_eq
        (fun set => .provided free (by rw [set, used]) (by rw [set, open']) (by rw [set, id])) i
  | taken j p before gone open' serves =>
      exact slot_of_set serves.vat_eq
        (fun set => .taken before (by rw [set, gone]) (by rw [set, open'])) i
  | held j eid index used before _ small _ _ replies =>
      exact slot_of_set replies.vat_eq (fun set => .held used before eid small set index) i
  | lifted env j lifts result =>
      have vat : w.vat = s.vat.setProvision j Provision.zero := by
        rw [result]
        exact World.sendCapReturn_vat _ env _ _
      exact slot_of_set vat (fun set => .lifted lifts set) i

/-- The entries keep their records. -/
theorem records_of_slot {i : Nat} (before : (s.claims i).Records (s.vat.provisions i))
    (idLt : msg.questionId < 2 ^ 32) (slot : Slot s k msg w i) :
    ((s.handled k msg w).claims i).Records (w.vat.provisions i) := by
  have noted : (s.handled k msg w).claims i =
      (s.claims i).note k msg.questionId (s.vat.provisions i) (w.vat.provisions i) := rfl
  cases slot with
  | kept same => rwa [handled_claims_eq same, same]
  | provided free used open' id =>
      rw [noted, Claim.note_provided _ _ _ free used]
      exact ⟨by simp [open'], fun _ => ⟨id, rfl⟩, by simp [open']⟩
  | taken _ gone open' => exact Claim.records_free _ gone open'
  | held used open' eid small result =>
      rw [noted, Claim.note_held _ _ _ used open' (by rw [result]), result]
      exact ⟨fun _ => used, fun _ => before.introduced used, fun _ => ⟨rfl, idLt, small⟩⟩
  | lifted _ result =>
      rw [result]
      exact Claim.records_free _ rfl rfl

/-! ## Questions and answers -/

/-- What a message owes on its own connection decides the credit of its
questions; on the others only an embargo can. -/
theorem credit_le_handled {k' q : Nat}
    (own : k' = k → (answeredIds w.sent).count q + w.conn.waiting q +
      (s.handled k msg w).holding k q ≤
        (s.conn k).waiting q + msg.asks.count q + s.holding k q)
    (other : k' ≠ k → (s.handled k msg w).holding k' q ≤ s.holding k' q) :
    s.credit k' q ≤ (s.handled k msg w).credit k' q := by
  unfold credit
  by_cases same : k' = k
  · subst same
    have owed := own rfl
    simp only [handled, Function.update_self, List.count_append] at owed ⊢
    omega
  · have owed := other same
    simp only [handled, Function.update_of_ne same] at owed ⊢
    omega

/-- A message that served what it asked, and holds nothing more back. -/
theorem credit_of_serves {w₀ : World} (conn : w₀.conn = s.conn k) (sent : w₀.sent = [])
    (serves : Serves w₀ msg.asks w) {k' q : Nat}
    (same : ∀ k', (s.handled k msg w).holding k' q = s.holding k' q) :
    s.credit k' q ≤ (s.handled k msg w).credit k' q := by
  obtain ⟨frames, sentEq, bound⟩ := serves.sent
  refine credit_le_handled (fun _ => ?_) fun _ => (same k').le
  have owed := bound q
  rw [sentEq, sent, List.nil_append, same]
  rw [conn] at owed
  omega

/-- An entry that held nothing back, and still does not. -/
theorem holding_of_open {i : Nat} {p : Provision} (vat : w.vat = s.vat.setProvision i p)
    (before : (s.vat.provisions i).embargoed = false) (open' : p.embargoed = false) (k' q : Nat) :
    (s.handled k msg w).holding k' q = s.holding k' q := by
  refine holding_congr fun j => ?_
  by_cases same : j = i
  · subst same
    have after : ((s.handled k msg w).vat.provisions j).embargoed = false := by
      simp [handled, vat, open']
    constructor
    · intro holds
      rw [holds.1] at after
      cases after
    · intro holds
      rw [holds.1] at before
      cases before
  · exact handled_holds_iff (by simp [vat, same]) k' q

/-- An entry that holds an answer back from now on. -/
theorem holding_of_held {i : Nat} {p : Provision} (index : i < maxProvisions)
    (vat : w.vat = s.vat.setProvision i p) (used : (s.vat.provisions i).used = true)
    (before : (s.vat.provisions i).embargoed = false) (held : p.embargoed = true) (k' q : Nat) :
    (s.handled k msg w).holding k' q =
      s.holding k' q + if k = k' ∧ msg.questionId = q then 1 else 0 := by
  have free : ¬s.Holds i k' q := by
    intro holds
    rw [holds.1] at before
    cases before
  have set : w.vat.provisions i = p := by simp [vat]
  have noted : (s.handled k msg w).claims i =
      { s.claims i with acceptor := k, acceptId := msg.questionId } :=
    Claim.note_held _ _ _ used before (by rw [set, held])
  have now : (s.handled k msg w).Holds i k' q ↔ k = k' ∧ msg.questionId = q := by
    unfold Holds
    rw [noted, show (s.handled k msg w).vat = w.vat from rfl, set, held]
    simp
  have other (j : Nat) (ne : j ≠ i) : (s.handled k msg w).Holds j k' q ↔ s.Holds j k' q :=
    handled_holds_iff (by simp [vat, ne]) k' q
  have replaced := holding_replace index other
  rwa [if_neg free, if_congr now rfl rfl, add_zero] at replaced

/-- An entry that no longer holds an answer back. -/
theorem holding_of_lifted {i : Nat} (index : i < maxProvisions)
    (vat : w.vat = s.vat.setProvision i Provision.zero)
    (held : (s.vat.provisions i).embargoed = true) (k' q : Nat) :
    (s.handled k msg w).holding k' q +
      (if (s.claims i).acceptor = k' ∧ (s.claims i).acceptId = q then 1 else 0) =
        s.holding k' q := by
  have free : ¬(s.handled k msg w).Holds i k' q := by
    intro holds
    have open' : ((s.handled k msg w).vat.provisions i).embargoed = false := by
      simp [handled, vat, Provision.zero]
    rw [holds.1] at open'
    cases open'
  have now : s.Holds i k' q ↔ (s.claims i).acceptor = k' ∧ (s.claims i).acceptId = q := by
    unfold Holds
    rw [held]
    simp
  have other (j : Nat) (ne : j ≠ i) : (s.handled k msg w).Holds j k' q ↔ s.Holds j k' q :=
    handled_holds_iff (by simp [vat, ne]) k' q
  have replaced := holding_replace index other
  rwa [if_neg free, if_congr now rfl rfl, add_zero] at replaced

theorem liftable_some {v : Vat} {i : Nat} (lifts : msg.lifts v = some i) :
    i < maxProvisions ∧ (v.provisions i).embargoed = true := by
  unfold Incoming.lifts liftedBy at lifts
  split at lifts
  · split at lifts
    · obtain ⟨index, holds, -⟩ := firstIndex_eq_some lifts
      simp only [Bool.and_eq_true] at holds
      exact ⟨index, holds.1.2⟩
    · cases lifts
  · cases lifts

/-- The `Return` that a lifted embargo sends, on whatever connection lifted
it. -/
theorem lifted_answered (wf : s.Wf) {env : Env} {i : Nat} (w₀ : World) (vat : w₀.vat = s.vat)
    (lifts : msg.lifts s.vat = some i)
    (result : w = ({ w₀ with vat := w₀.vat.setProvision i Provision.zero }.sendCapReturn env
      (w₀.vat.provisions i).acceptQuestionId (w₀.vat.provisions i).exportId).2) :
    Answered { w₀ with vat := s.vat.setProvision i Provision.zero } (s.claims i).acceptId
      returnTagResults w := by
  obtain ⟨idEq, idLt, small⟩ := (wf.records i).claimed (liftable_some lifts).2
  rw [result, vat, idEq]
  exact World.sendCapReturn_answers _ env idLt (small.trans (by decide))

/-- The answer to an `Accept` that was lifted takes credit on another
connection. -/
theorem credit_of_lifted {i : Nat} (lifts : msg.lifts s.vat = some i)
    (answered : Answered { World.start (s.conn k) s.vat with
      vat := s.vat.setProvision i Provision.zero } (s.claims i).acceptId returnTagResults w)
    (k' q : Nat) :
    s.credit k' q ≤ (s.handled k msg w).credit k' q ∨
      k' = k ∧ (s.claims i).acceptId = q ∧ (s.claims i).acceptor ≠ k ∧
        ∀ j, (s.handled k msg w).Holds j k q → s.Holds j k q := by
  obtain ⟨index, held⟩ := liftable_some lifts
  obtain ⟨flat, sent, read⟩ := answered.sent
  have counted (k' q : Nat) : (s.handled k msg w).holding k' q +
      (if (s.claims i).acceptor = k' ∧ (s.claims i).acceptId = q then 1 else 0) =
        s.holding k' q := holding_of_lifted index answered.vat_eq held k' q
  have ids : answeredIds w.sent = [(s.claims i).acceptId] := by
    rw [sent]
    simp [World.start, answeredIds, read]
  have waiting : w.conn.waiting q = (s.conn k).waiting q := Conn.waiting_congr answered.joins_eq q
  by_cases misrouted : k' = k ∧ (s.claims i).acceptId = q ∧ (s.claims i).acceptor ≠ k
  · obtain ⟨same, id, away⟩ := misrouted
    refine .inr ⟨same, id, away, fun j holds => ?_⟩
    refine (handled_holds_iff ?_ k q).mp holds
    rw [answered.vat_eq]
    by_cases lifted : j = i
    · subst lifted
      have open' : ((s.handled k msg w).vat.provisions j).embargoed = false := by
        rw [show (s.handled k msg w).vat = w.vat from rfl, answered.vat_eq]
        simp [Provision.zero]
      rw [holds.1] at open'
      cases open'
    · simp [lifted]
  · refine .inl (credit_le_handled (fun same => ?_) fun _ => ?_)
    · have total := counted k q
      rw [ids, waiting, List.count_singleton]
      simp only [beq_iff_eq]
      split
      · next id =>
        have here : (s.claims i).acceptor = k := by
          by_contra away
          exact misrouted ⟨same, id, away⟩
        rw [if_pos ⟨here, id⟩] at total
        omega
      · omega
    · have total := counted k' q
      omega

/-- Only the answer to an `Accept` of another connection can take credit. -/
theorem handled_credit (wf : s.Wf) (effect : Effect msg (World.start (s.conn k) s.vat) w)
    (k' q : Nat) : s.credit k' q ≤ (s.handled k msg w).credit k' q ∨
      ∃ i, msg.lifts s.vat = some i ∧ k' = k ∧ (s.claims i).acceptId = q ∧
        (s.claims i).acceptor ≠ k ∧ ∀ j, (s.handled k msg w).Holds j k q → s.Holds j k q := by
  cases effect with
  | kept serves =>
      refine .inl (credit_of_serves rfl rfl serves fun k' => holding_congr fun i => ?_)
      exact handled_holds_iff (by rw [serves.vat_eq]; rfl) k' q
  | released sent vat joins =>
      have same (k' : Nat) : (s.handled k msg w).holding k' q = s.holding k' q :=
        holding_congr fun i => handled_holds_iff (by rw [vat]; rfl) k' q
      refine .inl (credit_le_handled (fun _ => ?_) fun _ => (same k').le)
      rw [sent, Conn.waiting_congr joins, same]
      simp [World.start, answeredIds]
  | provided i p free _ open' _ serves =>
      have before : (s.vat.provisions i).embargoed = false := by
        cases held : (s.vat.provisions i).embargoed with
        | false => rfl
        | true => exact ((wf.records i).held_used held).symm.trans free
      exact .inl (credit_of_serves rfl rfl serves fun k' =>
        holding_of_open serves.vat_eq before open' k' q)
  | taken i p before _ open' serves =>
      exact .inl (credit_of_serves rfl rfl serves fun k' =>
        holding_of_open serves.vat_eq before open' k' q)
  | held i eid index used before asks _ _ _ replies =>
      obtain ⟨frames, sent, answered⟩ := replies.sent
      have counted (k' q : Nat) : (s.handled k msg w).holding k' q =
          s.holding k' q + if k = k' ∧ msg.questionId = q then 1 else 0 :=
        holding_of_held index replies.vat_eq used before rfl k' q
      refine .inl (credit_le_handled (fun _ => ?_) fun other => ?_)
      · rw [counted, sent, Conn.waiting_congr replies.joins_eq, asks, List.count_singleton]
        simp only [World.start, List.nil_append, answered, List.count_nil, beq_iff_eq, true_and]
        omega
      · rw [counted, if_neg fun same => other same.1.symm, add_zero]
  | lifted env i lifts result =>
      have answered := lifted_answered wf (World.start (s.conn k) s.vat) rfl lifts result
      rcases credit_of_lifted lifts answered k' q with kept | taken
      · exact .inl kept
      · exact .inr ⟨i, lifts, taken⟩

theorem joinsWf_of_effect (wf : s.Wf) (effect : Effect msg (World.start (s.conn k) s.vat) w) :
    w.conn.JoinsWf := by
  have replied {w₀ : World} {ids : List Nat} (conn : w₀.conn = s.conn k)
      (replies : Replies w₀ ids w) : w.conn.JoinsWf := by
    unfold Conn.JoinsWf
    rw [replies.joins_eq, conn]
    exact wf.joins k
  cases effect with
  | kept serves => exact serves.joinsWf
  | released _ _ joins =>
      unfold Conn.JoinsWf
      rw [joins]
      exact wf.joins k
  | provided i p _ _ _ _ serves => exact serves.joinsWf
  | taken i p _ _ _ serves => exact serves.joinsWf
  | held i eid _ _ _ _ _ _ _ replies => exact replied rfl replies
  | lifted env i lifts result =>
      have answered := lifted_answered wf (World.start (s.conn k) s.vat) rfl lifts result
      exact replied rfl answered.replies

/-- Only entries of the table hold an answer back. -/
theorem index_of_slot {i : Nat} (before : (s.vat.provisions i).embargoed = true → i < maxProvisions)
    (slot : Slot s k msg w i) (held : (w.vat.provisions i).embargoed = true) :
    i < maxProvisions := by
  cases slot with
  | kept same =>
      rw [same] at held
      exact before held
  | provided _ _ open' =>
      rw [open'] at held
      cases held
  | taken _ _ open' =>
      rw [open'] at held
      cases held
  | held _ _ _ _ _ index => exact index
  | lifted _ result =>
      rw [result] at held
      cases held

/-- A message keeps the records of the history. -/
theorem handled_wf (wf : s.Wf) (effect : Effect msg (World.start (s.conn k) s.vat) w) :
    (s.handled k msg w).Wf where
  joins k' := by
    by_cases same : k' = k
    · subst same
      simpa [handled] using joinsWf_of_effect wf effect
    · simpa [handled, same] using wf.joins k'
  records i := records_of_slot (wf.records i) (getU32_lt _ _ _) (slot_of_effect effect i)
  index i := index_of_slot (wf.index i) (slot_of_effect effect i)

end

/-! ## Steps -/

/-- What an action does: a message is handled, a frame is not read, or the
application works on one connection. -/
inductive Stepped (s : Net) : Action → Net → Prop
  | handled {k : Nat} {env : Env} {data : List UInt8} {msg : Incoming} {w : World}
      (read : readIncoming data = some msg) (done : (handle env data (s.conn k) s.vat).2 = w)
      (effect : Effect msg (World.start (s.conn k) s.vat) w) :
      Stepped s (.deliver k env data) (s.handled k msg w)
  | unread {k : Nat} {env : Env} {data : List UInt8} (unread : readIncoming data = none) :
      Stepped s (.deliver k env data) s
  | worked {a : Action} {k : Nat} {c : Conn} (quiet : ∀ k' msg, ¬a.Delivers k' msg)
      (joins : c.joins = (s.conn k).joins) (exporting : (s.conn k).Exporting c) :
      Stepped s a (s.setConn k c)

theorem stepped {s : Net} (wf : s.Wf) (a : Action) : Stepped s a (s.step a) := by
  cases a with
  | deliver k env data =>
      cases read : readIncoming data with
      | none =>
          rw [step, read]
          exact .unread read
      | some msg =>
          rw [step, read]
          refine .handled read rfl ?_
          rw [handle, read]
          exact handleIncoming_effect env data msg (wf.joins k)
  | exportCap k server dispatch =>
      cases exported : (s.conn k).exportCap server dispatch with
      | mk found c =>
          rw [step, exported]
          cases found with
          | none =>
              rw [Conn.exportCap_none exported]
              exact .worked (by rintro k' msg ⟨env, data, ⟨⟩, -⟩) rfl (Conn.Exporting.refl _)
          | some eid =>
              obtain ⟨-, -, -, exporting, joins⟩ := Conn.exportCap_some exported
              exact .worked (by rintro k' msg ⟨env, data, ⟨⟩, -⟩) joins exporting
  | setBootstrap k server dispatch =>
      exact .worked (by rintro k' msg ⟨env, data, ⟨⟩, -⟩) rfl (Conn.Exporting.refl _)
  | ask k questions introductions nextQuestionId =>
      exact .worked (by rintro k' msg ⟨env, data, ⟨⟩, -⟩) rfl (Conn.Exporting.refl _)

/-- Every step keeps the records of the history. -/
theorem wf_step {s : Net} (wf : s.Wf) (a : Action) : (s.step a).Wf := by
  have step := stepped wf a
  generalize s.step a = s' at step
  cases step with
  | handled _ _ effect => exact handled_wf wf effect
  | unread => exact wf
  | @worked _ k c _ joins _ =>
      refine ⟨fun k' => ?_, wf.records, wf.index⟩
      by_cases same : k' = k
      · subst same
        intro i
        simpa [setConn, joins] using wf.joins k' i
      · simpa [setConn, same] using wf.joins k'

theorem wf_of_reached {meets : Net → Action → Prop} {s : Net}
    (reached : Reached init step meets s) : s.Wf :=
  reached.invariant wf_init fun _ a wf _ => wf_step wf a

/-- Work on a connection that leaves its joins alone leaves all credit alone. -/
theorem credit_setConn (s : Net) {k : Nat} {c : Conn} (joins : c.joins = (s.conn k).joins)
    (k' q : Nat) : (s.setConn k c).credit k' q = s.credit k' q := by
  have waiting : ((s.setConn k c).conn k').waiting q = (s.conn k').waiting q := by
    by_cases same : k' = k
    · rw [same, show (s.setConn k c).conn k = c from Function.update_self _ _ _]
      exact Conn.waiting_congr joins q
    · rw [show (s.setConn k c).conn k' = s.conn k' from Function.update_of_ne same _ _]
  unfold credit
  rw [waiting]
  rfl

/-- A step takes credit only by lifting an embargo on a connection other than
its `Accept`'s. -/
theorem step_credit {s : Net} (wf : s.Wf) (a : Action) (k q : Nat) :
    s.credit k q ≤ (s.step a).credit k q ∨
      ∃ msg i, a.Delivers k msg ∧ msg.lifts s.vat = some i ∧ (s.claims i).acceptId = q ∧
        (s.claims i).acceptor ≠ k ∧ ∀ j, (s.step a).Holds j k q → s.Holds j k q := by
  have step := stepped wf a
  generalize s.step a = s' at step
  cases step with
  | @handled k' env data msg w read done effect =>
      rcases handled_credit wf effect k q with kept | ⟨i, lifts, rfl, taken⟩
      · exact .inl kept
      · exact .inr ⟨msg, i, ⟨env, data, rfl, read⟩, lifts, taken⟩
  | unread => exact .inl le_rfl
  | worked _ joins _ => exact .inl (credit_setConn s joins k q).ge

/-! ## The introducer -/

/-- An entry of the table holds an answer back, and connection `k` has introduced
it as its question `p`. -/
def HeldFor (s : Net) (i k p : Nat) : Prop :=
  i < maxProvisions ∧ (s.vat.provisions i).embargoed = true ∧ (s.claims i).introducer = k ∧
    (s.claims i).provideId = p

/-- Question ids that coincide across connections mislead no `Disembargo`.  Where
one arrives on connection `k` for the question `p`, an entry that another
connection has introduced as its own question `p` comes behind one of `k` in the
table; and if the first entry of `k` holds back an `Accept` of another connection,
no `Accept` held back on `k` has the same question id. -/
structure Unmistaken (s : Net) (a : Action) : Prop where
  provides : ∀ k msg p, a.Delivers k msg → msg.Disembargoes p →
    ∀ j k', k' ≠ k → s.HeldFor j k' p → ∃ i < j, s.HeldFor i k p
  accepts : ∀ k msg p i, a.Delivers k msg → msg.Disembargoes p →
    s.HeldFor i k p → (∀ j < i, ¬s.HeldFor j k p) →
      (s.claims i).acceptor = k ∨ ∀ j, ¬s.Holds j k (s.claims i).acceptId

/-- An action leaves every embargo to its introducer: a provision with an
embargo stays as it is, unless its introducer disembargoes it, and no answer is
sent to a question that is held back before or after. -/
structure LeavesEmbargoes (s : Net) (a : Action) : Prop where
  stays : ∀ i, (s.vat.provisions i).embargoed = true →
    ((s.step a).vat.provisions i = s.vat.provisions i ∧ (s.step a).claims i = s.claims i) ∨
      ∃ msg, a.Delivers (s.claims i).introducer msg ∧ msg.Disembargoes (s.claims i).provideId
  unanswered : ∀ i k q, s.Holds i k q ∨ (s.step a).Holds i k q →
    s.credit k q ≤ (s.step a).credit k q

section
variable {s : Net} {msg : Incoming} {i j k p : Nat}

/-- What the search of `release_provide_embargo` looks for is held for some
connection under the number of the message. -/
theorem heldFor_iff_liftable (wf : s.Wf) : s.HeldFor i (s.claims i).introducer p ↔
    i < maxProvisions ∧ ((s.vat.provisions i).used && (s.vat.provisions i).embargoed &&
      (s.vat.provisions i).questionId == p) = true := by
  have records := wf.records i
  simp only [HeldFor, Bool.and_eq_true, beq_iff_eq, true_and]
  constructor
  · rintro ⟨index, held, named⟩
    have used := records.held_used held
    exact ⟨index, ⟨used, held⟩, (records.introduced used).1.trans named⟩
  · rintro ⟨index, ⟨used, held⟩, named⟩
    exact ⟨index, held, (records.introduced used).1.symm.trans named⟩

/-- A `Disembargo` lifts the first entry that is held under its number. -/
theorem lifts_of_disembargoes (named : msg.Disembargoes p) :
    msg.lifts s.vat = s.vat.liftable p := by
  obtain ⟨which, isStruct, context, same⟩ := named
  rw [Incoming.lifts, if_pos which, liftedBy, if_pos ⟨isStruct, context⟩, same]

/-- An embargo is lifted by a `Disembargo` that names its `Provide`, and no entry
before it is held under that number. -/
theorem disembargoes_of_lifts (wf : s.Wf) (lifts : msg.lifts s.vat = some i) :
    msg.Disembargoes (s.claims i).provideId ∧
      s.HeldFor i (s.claims i).introducer (s.claims i).provideId ∧
        ∀ j < i, ∀ k, ¬s.HeldFor j k (s.claims i).provideId := by
  have named : msg.Disembargoes (msg.message.getU32 msg.body disCtxValueOff 0) := by
    unfold Incoming.lifts liftedBy at lifts
    split at lifts
    · next which =>
      split at lifts
      · next context => exact ⟨which, context.1, context.2, rfl⟩
      · cases lifts
    · cases lifts
  rw [lifts_of_disembargoes named] at lifts
  obtain ⟨index, holds, before⟩ := firstIndex_eq_some lifts
  have held := (heldFor_iff_liftable wf).mpr ⟨index, holds⟩
  have number : (s.claims i).provideId = msg.message.getU32 msg.body disCtxValueOff 0 := held.2.2.2
  rw [number]
  refine ⟨named, held, fun j earlier k other => ?_⟩
  have here : (s.claims j).introducer = k := other.2.2.1
  rw [← here, heldFor_iff_liftable wf, before j earlier] at other
  cases other.2

/-- Where ids mislead no `Disembargo`, it lifts what its connection has
introduced, and answers no question held back on it. -/
theorem Unmistaken.lifts {a : Action} (wf : s.Wf) (unmistaken : s.Unmistaken a)
    (delivers : a.Delivers k msg) (lifts : msg.lifts s.vat = some i) :
    (s.claims i).introducer = k ∧
      ((s.claims i).acceptor = k ∨ ∀ j, ¬s.Holds j k (s.claims i).acceptId) := by
  obtain ⟨named, held, before⟩ := disembargoes_of_lifts wf lifts
  have own : (s.claims i).introducer = k := by
    by_contra stranger
    obtain ⟨j, earlier, other⟩ := unmistaken.provides k msg _ delivers named i _ stranger held
    exact before j earlier k other
  rw [own] at held
  exact ⟨own, unmistaken.accepts k msg _ i delivers named held fun j earlier =>
    before j earlier k⟩

/-- What a message that lifts an embargo leaves: the entry is free, and a question
of the `Accept`'s number has been answered where the message arrived. -/
theorem lifted_of_lifts (wf : s.Wf) (k : Nat) (env : Env) {data : List UInt8}
    (read : readIncoming data = some msg) (lifts : msg.lifts s.vat = some i) :
    ∃ w, s.step (.deliver k env data) = s.handled k msg w ∧
      Answered { World.start (s.conn k) s.vat with
        vat := s.vat.setProvision i Provision.zero } (s.claims i).acceptId returnTagResults w := by
  refine ⟨(handle env data (s.conn k) s.vat).2, by rw [step, read], ?_⟩
  apply lifted_answered wf (World.start (s.conn k) s.vat) rfl lifts
  rw [handle, read]
  exact congrArg Prod.snd (handleIncoming_lifts env data lifts)

/-- The entry of an embargo that has been lifted is free. -/
theorem free_of_lifts (wf : s.Wf) (k : Nat) (env : Env) {data : List UInt8}
    (read : readIncoming data = some msg) (lifts : msg.lifts s.vat = some i) :
    ((s.step (.deliver k env data)).vat.provisions i).embargoed = false := by
  obtain ⟨w, after, answered⟩ := lifted_of_lifts wf k env read lifts
  rw [after, show (s.handled k msg w).vat = w.vat from rfl, answered.vat_eq]
  simp [Provision.zero]

/-- What lifts an embargo in a step that leaves embargoes to their introducers
has arrived where the `Provide` did. -/
theorem LeavesEmbargoes.introducer {env : Env} {data : List UInt8}
    (leaves : s.LeavesEmbargoes (.deliver k env data)) (wf : s.Wf)
    (read : readIncoming data = some msg) (lifts : msg.lifts s.vat = some i) :
    (s.claims i).introducer = k := by
  have held := (liftable_some lifts).2
  rcases leaves.stays i held with ⟨same, -⟩ | ⟨other, ⟨env', data', delivered, -⟩, -⟩
  · have free := free_of_lifts wf k env read lifts
    rw [same, held] at free
    cases free
  · exact (Action.deliver.inj delivered).1.symm

end

/-- A `Provide` of export 0 for a nonce. -/
def provideFrame (qid nonce : UInt8) : List UInt8 :=
  [0, 0, 0, 0, 10, 0, 0, 0,
   0, 0, 0, 0, 1, 0, 1, 0,
   10, 0, 0, 0, 0, 0, 0, 0,
   0, 0, 0, 0, 1, 0, 2, 0,
   qid, 0, 0, 0, 0, 0, 0, 0,
   4, 0, 0, 0, 1, 0, 1, 0,
   8, 0, 0, 0, 1, 0, 1, 0,
   0, 0, 0, 0, 0, 0, 0, 0,
   0, 0, 0, 0, 0, 0, 0, 0,
   nonce, 0, 0, 0, 0, 0, 0, 0,
   0, 0, 0, 0, 0, 0, 0, 0]

/-- An `Accept` of a nonce, with an embargo. -/
def acceptFrame (qid nonce : UInt8) : List UInt8 :=
  [0, 0, 0, 0, 6, 0, 0, 0,
   0, 0, 0, 0, 1, 0, 1, 0,
   11, 0, 0, 0, 0, 0, 0, 0,
   0, 0, 0, 0, 1, 0, 1, 0,
   qid, 0, 0, 0, 1, 0, 0, 0,
   0, 0, 0, 0, 1, 0, 0, 0,
   nonce, 0, 0, 0, 0, 0, 0, 0]

/-- A `Disembargo` of a `Provide` question. -/
def disembargoFrame (provideQid : UInt8) : List UInt8 :=
  [0, 0, 0, 0, 5, 0, 0, 0,
   0, 0, 0, 0, 1, 0, 1, 0,
   13, 0, 0, 0, 0, 0, 0, 0,
   0, 0, 0, 0, 1, 0, 1, 0,
   provideQid, 0, 0, 0, 3, 0, 0, 0,
   0, 0, 0, 0, 0, 0, 0, 0]

/-- A frame arrives at servers that succeed. -/
def arrives (k : Nat) (data : List UInt8) : Action := .deliver k (returningEnv 0) data

/-- A test for `Unmistaken`. -/
def unmistaken (s : Net) : Action → Bool
  | .deliver k _ data => ((readIncoming data).bind fun msg => msg.lifts s.vat).all fun i =>
      (s.claims i).introducer == k && ((s.claims i).acceptor == k ||
        (List.range maxProvisions).all fun j => !decide (s.Holds j k (s.claims i).acceptId))
  | _ => true

end Net

end CapnpJanet.Rpc
