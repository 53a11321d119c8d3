import CapnpJanet.Rpc.Embargo

/-!
# Where an embargoed answer goes

The answer that an embargo holds back is sent on the connection on which the
`Disembargo` arrives, with the question and the export id that its `Accept` has
left in the provision.  In runs where that is the connection of the `Accept`,
and no `Release` has emptied the export meanwhile, the answer reaches its
question and names the server that was provided.
-/

namespace CapnpJanet.Rpc

open Builder Run

namespace Net

/-- The exports of a connection that no message on it may empty are kept. -/
theorem exports_of_effect {s : Net} {k : Nat} {msg : Incoming} {w : World} (wf : s.Wf)
    (effect : Effect msg (World.start (s.conn k) s.vat) w) {e : Nat}
    (used : ((s.conn k).exports e).used = true) (stays : msg.vacates (s.conn k) ≠ some e) :
    (w.conn.exports e).used = true ∧
      (w.conn.exports e).server = ((s.conn k).exports e).server := by
  cases effect with
  | kept serves => exact serves.exporting e used
  | released _ _ _ _ exports => exact exports e used stays
  | provided i p _ _ _ _ serves => exact serves.exporting e used
  | taken i p _ _ _ serves => exact serves.exporting e used
  | held i eid _ _ _ _ _ _ _ replies => exact replies.exporting e used
  | lifted env i lifts result =>
      have answered := lifted_answered wf (World.start (s.conn k) s.vat) rfl lifts result
      rw [answered.exports_eq]
      exact ⟨used, rfl⟩

/-- An action lifts an embargo only on the connection of its `Accept`, and
releases no export that an `Accept` of its connection still waits for. -/
structure Routes (s : Net) (a : Action) : Prop where
  lifts : ∀ k msg i, a.Delivers k msg → msg.lifts s.vat = some i → (s.claims i).acceptor = k
  releases : ∀ k msg i, a.Delivers k msg → (s.vat.provisions i).embargoed = true →
    (s.claims i).acceptor = k → msg.vacates (s.conn k) ≠ some (s.vat.provisions i).exportId

/-- A claim whose export is live on the connection of its `Accept`. -/
def LiveAt (s : Net) (i : Nat) : Prop :=
  ((s.conn (s.claims i).acceptor).exports (s.vat.provisions i).exportId).used = true ∧
    ((s.conn (s.claims i).acceptor).exports (s.vat.provisions i).exportId).server =
      (s.claims i).pinned

/-- What runs that route embargoed answers keep. -/
structure Routed (s : Net) : Prop where
  wf : s.Wf
  credit_nonneg : ∀ k q, 0 ≤ s.credit k q
  live : ∀ i, (s.vat.provisions i).embargoed = true → s.LiveAt i

theorem routed_init : init.Routed := by
  refine ⟨wf_init, fun k q => ?_, nofun⟩
  have holding : init.holding k q = 0 := Finset.sum_eq_zero fun i _ => if_neg nofun
  have waiting : (init.conn k).waiting q = 0 := Finset.sum_eq_zero fun i _ => rfl
  unfold credit
  rw [holding, waiting]
  simp [init]

/-- A claim stays live while its entry, its record and its export do. -/
theorem LiveAt.congr {s s' : Net} {i : Nat} (live : s.LiveAt i)
    (provision : s'.vat.provisions i = s.vat.provisions i) (claim : s'.claims i = s.claims i)
    (kept : ∀ e, ((s.conn (s.claims i).acceptor).exports e).used = true →
      e = (s.vat.provisions i).exportId →
        ((s'.conn (s.claims i).acceptor).exports e).used = true ∧
          ((s'.conn (s.claims i).acceptor).exports e).server =
            ((s.conn (s.claims i).acceptor).exports e).server) : s'.LiveAt i := by
  obtain ⟨used, server⟩ := live
  obtain ⟨used', server'⟩ := kept _ used rfl
  unfold LiveAt
  rw [provision, claim]
  exact ⟨used', server'.trans server⟩

/-- A claim that a message has just made is live. -/
theorem live_of_held {s : Net} {k : Nat} {msg : Incoming} {w : World} (wf : s.Wf)
    (effect : Effect msg (World.start (s.conn k) s.vat) w) {i : Nat}
    (before : (s.vat.provisions i).embargoed = false)
    (after : (w.vat.provisions i).embargoed = true) : (s.handled k msg w).LiveAt i := by
  have unchanged {v : Vat} (vat : w.vat = v) (same : (v.provisions i).embargoed = false) :
      (s.handled k msg w).LiveAt i := by
    rw [vat, same] at after
    cases after
  have other {p : Provision} {j : Nat} (vat : w.vat = s.vat.setProvision j p)
      (open' : p.embargoed = false) : (s.handled k msg w).LiveAt i := by
    refine unchanged vat ?_
    rw [Vat.setProvision_provisions]
    split
    · exact open'
    · exact before
  cases effect with
  | kept serves => exact unchanged serves.vat_eq before
  | released _ vat => exact unchanged vat before
  | provided j p _ _ open' _ serves => exact other serves.vat_eq open'
  | taken j p _ _ open' serves => exact other serves.vat_eq open'
  | held j eid _ used free _ _ exported server replies =>
      have vat := replies.vat_eq
      by_cases same : i = j
      · subst same
        have set : w.vat.provisions i = { s.vat.provisions i with
            exportId := eid, embargoed := true, acceptQuestionId := msg.questionId } := by
          rw [vat]
          simp [World.start]
        have noted : (s.handled k msg w).claims i =
            { s.claims i with acceptor := k, acceptId := msg.questionId } :=
          Claim.note_held _ _ _ used free (by rw [set])
        have conn : (s.handled k msg w).conn k = w.conn := by simp [handled]
        unfold LiveAt
        rw [noted, show (s.handled k msg w).vat = w.vat from rfl, set, conn]
        exact ⟨exported, server.trans ((wf.records i).introduced used).2⟩
      · refine unchanged vat ?_
        rw [Vat.setProvision_provisions, if_neg same]
        exact before
  | lifted env j lifts result =>
      have answered := lifted_answered wf (World.start (s.conn k) s.vat) rfl lifts result
      exact other answered.vat_eq rfl

/-- Every step of such a run keeps the claims live. -/
theorem live_step {s : Net} (routed : s.Routed) {a : Action} (routes : s.Routes a) {i : Nat}
    (held : ((s.step a).vat.provisions i).embargoed = true) : (s.step a).LiveAt i := by
  have step := stepped routed.wf a
  generalize s.step a = s' at step held
  cases step with
  | unread => exact routed.live i held
  | @worked _ k c _ _ exporting =>
      refine (routed.live i held).congr rfl rfl fun e used _ => ?_
      by_cases same : (s.claims i).acceptor = k
      · rw [same] at used ⊢
        simpa [setConn] using exporting e used
      · simpa [setConn, same] using used
  | @handled k env data msg w read done effect =>
      cases slot_of_effect effect i with
      | kept same =>
          have before : (s.vat.provisions i).embargoed = true := by
            rw [← same]
            exact held
          refine (routed.live i before).congr same (handled_claims_eq same) fun e used named => ?_
          by_cases here : (s.claims i).acceptor = k
          · have stays := routes.releases k msg i ⟨env, data, rfl, read⟩ before here
            rw [here] at used ⊢
            rw [← named] at stays
            simpa [handled] using exports_of_effect routed.wf effect used stays
          · simpa [handled, here] using used
      | provided _ _ open' =>
          rw [show (s.handled k msg w).vat = w.vat from rfl, open'] at held
          cases held
      | taken _ _ open' =>
          rw [show (s.handled k msg w).vat = w.vat from rfl, open'] at held
          cases held
      | held _ before => exact live_of_held routed.wf effect before held
      | lifted _ result =>
          rw [show (s.handled k msg w).vat = w.vat from rfl, result] at held
          cases held

theorem routed_step {s : Net} (routed : s.Routed) {a : Action} (routes : s.Routes a) :
    (s.step a).Routed := by
  refine ⟨wf_step routed.wf a, fun k q => ?_, fun i held => live_step routed routes held⟩
  rcases step_credit routed.wf a k q with kept | ⟨msg, i, delivers, lifts, -, away, -⟩
  · exact (routed.credit_nonneg k q).trans kept
  · exact absurd (routes.lifts k msg i delivers lifts) away

/-- The embargoed `Accept` of provision `i` is answered when its embargo is
lifted: on its connection, for its question, and with an export of the server
that was provided. -/
def AnswersAccept (s : Net) (a : Action) (k i : Nat) (sent : List (List UInt8)) : Prop :=
  (s.claims i).acceptor = k ∧ ∃ flat eid, sent = [flat] ∧
    returnOf flat = some ⟨(s.claims i).acceptId, returnTagResults⟩ ∧ capIdOf flat = some eid ∧
      (((s.step a).conn k).exports eid).used = true ∧
        (((s.step a).conn k).exports eid).server = (s.claims i).pinned

/-- Embargoed Accepts are answered once, where they were asked, in every run
whose steps route them. -/
theorem embargoed_accept_answered {s : Net} (reached : Reached init step Routes s) :
    (∀ k q, (s.answered k).count q + (s.conn k).waiting q + s.holding k q ≤ (s.asked k).count q) ∧
      ∀ k env data msg i, s.Routes (.deliver k env data) → readIncoming data = some msg →
        msg.lifts s.vat = some i →
          s.AnswersAccept (.deliver k env data) k i (handle env data (s.conn k) s.vat).2.sent := by
  have routed : s.Routed := reached.invariant routed_init fun _ a routed routes =>
    routed_step routed routes
  refine ⟨fun k q => ?_, fun k env data msg i routes read lifts => ?_⟩
  · have nonneg := routed.credit_nonneg k q
    unfold credit at nonneg
    omega
  · have here := routes.lifts k msg i ⟨env, data, rfl, read⟩ lifts
    obtain ⟨used, server⟩ := routed.live i (liftable_some lifts).2
    rw [here] at used server
    have done : (handle env data (s.conn k) s.vat).2 =
        ({ World.start (s.conn k) s.vat with
          vat := s.vat.setProvision i Provision.zero }.sendCapReturn env
            (s.vat.provisions i).acceptQuestionId (s.vat.provisions i).exportId).2 := by
      rw [handle, read]
      exact congrArg Prod.snd (handleIncoming_lifts env data lifts)
    obtain ⟨idEq, idLt, small⟩ := (routed.wf.records i).claimed (liftable_some lifts).2
    rw [idEq] at done
    have eidLt : (s.vat.provisions i).exportId < 2 ^ 32 := small.trans (by decide)
    obtain ⟨flat, sent, returned, carried⟩ := World.sendCapReturn_carries
      { World.start (s.conn k) s.vat with vat := s.vat.setProvision i Provision.zero } env idLt eidLt
    have answered := World.sendCapReturn_answers
      { World.start (s.conn k) s.vat with vat := s.vat.setProvision i Provision.zero } env idLt eidLt
    have exports : ((s.step (.deliver k env data)).conn k).exports = (s.conn k).exports := by
      rw [step, read, done]
      simpa [Net.handled, World.start] using answered.exports_eq
    rw [done, sent]
    refine ⟨here, flat, (s.vat.provisions i).exportId, rfl, returned, carried, ?_⟩
    rw [exports]
    exact ⟨used, server⟩

/-- A test for `Routes`: it takes a connection without releases of what is
held. -/
def routes (s : Net) : Action → Bool
  | .deliver k _ data => (readIncoming data).all fun msg =>
      (msg.vacates (s.conn k)).isNone && (msg.lifts s.vat).all fun i => (s.claims i).acceptor == k
  | _ => true

theorem routes_sound (s : Net) (a : Action) (passed : s.routes a = true) : s.Routes a := by
  constructor
  · rintro k msg i ⟨env, data, rfl, read⟩ lifts
    simp only [routes, read, Option.all_some, lifts, Bool.and_eq_true, beq_iff_eq] at passed
    exact passed.2
  · rintro k msg i ⟨env, data, rfl, read⟩ - -
    simp only [routes, read, Option.all_some, Bool.and_eq_true, Option.isNone_iff_eq_none] at passed
    rw [passed.1]
    exact nofun

/-- Connection 0 introduces a capability, and connection 1 accepts it with an
embargo. -/
def handoff : List Action :=
  [.exportCap 0 1 1, arrives 0 (provideFrame 7 1), arrives 1 (acceptFrame 3 1)]

/-- The answer of a handoff reaches its question if the `Disembargo` arrives where
the `Accept` did. -/
theorem embargoed_accept_answered_apart :
    ((handoff.foldl step init).claims 0).introducer = 0 ∧
      ((handoff.foldl step init).claims 0).acceptor = 1 ∧
      ∃ msg, readIncoming (disembargoFrame 7) = some msg ∧
        (handoff.foldl step init).AnswersAccept (arrives 1 (disembargoFrame 7)) 1 0
          (handle (returningEnv 0) (disembargoFrame 7) ((handoff.foldl step init).conn 1)
            (handoff.foldl step init).vat).2.sent := by
  have lifting : ((readIncoming (disembargoFrame 7)).any fun msg =>
      msg.lifts (handoff.foldl step init).vat == some 0) = true := by
    decide +kernel
  obtain ⟨msg, read, lifts⟩ := (Option.any_eq_true _ _).mp lifting
  refine ⟨by decide +kernel, by decide +kernel, msg, read, (embargoed_accept_answered ?_).2 1 _ _ msg 0
    (routes_sound _ _ ?_) read (beq_iff_eq.mp lifts)⟩
  · exact Reached.start.of_passes routes_sound (by decide +kernel)
  · decide +kernel

/-- The answer of a handoff is sent to the introducer. -/
theorem embargoed_accept_misrouted :
    Reached init step (fun _ _ => True) (handoff.foldl step init) ∧
      ∃ msg, readIncoming (disembargoFrame 7) = some msg ∧
        msg.Disembargoes ((handoff.foldl step init).claims 0).provideId ∧
        msg.lifts (handoff.foldl step init).vat = some 0 ∧
        ((handoff.foldl step init).claims 0).introducer = 0 ∧
        ((handoff.foldl step init).claims 0).acceptor = 1 ∧
        ((handoff.foldl step init).step (arrives 0 (disembargoFrame 7))).answered 1 = [] ∧
        ¬(handoff.foldl step init).AnswersAccept (arrives 0 (disembargoFrame 7)) 0 0
          (handle (returningEnv 0) (disembargoFrame 7) ((handoff.foldl step init).conn 0)
            (handoff.foldl step init).vat).2.sent := by
  have reached : Reached init step (fun _ _ => True) (handoff.foldl step init) :=
    reached_any handoff
  have lifting : ((readIncoming (disembargoFrame 7)).any fun msg =>
      msg.lifts (handoff.foldl step init).vat == some 0) = true := by
    decide +kernel
  have facts : ((handoff.foldl step init).claims 0).introducer = 0 ∧
      ((handoff.foldl step init).claims 0).acceptor = 1 ∧
      ((handoff.foldl step init).step (arrives 0 (disembargoFrame 7))).answered 1 = [] := by
    decide +kernel
  obtain ⟨msg, read, lifts⟩ := (Option.any_eq_true _ _).mp lifting
  have lifts := beq_iff_eq.mp lifts
  obtain ⟨introducer, acceptor, unanswered⟩ := facts
  refine ⟨reached, msg, read, (disembargoes_of_lifts (wf_of_reached reached) lifts).1, lifts,
    introducer, acceptor, unanswered, ?_⟩
  rintro ⟨here, -⟩
  rw [acceptor] at here
  cases here

end Net

end CapnpJanet.Rpc
