import CapnpJanet.Rpc.Steps
import CapnpJanet.Rpc.Embargo

/-!
# Provisions are claimed once

A `Provide` puts an entry into the vat's table, and an `Accept` on any of the
connections takes one out again.  What has been provided under a nonce is, at
every moment, what has been claimed under it together with what is still
offered, so no entry is handed out twice.
-/

namespace CapnpJanet.Rpc

open Builder Run

/-! ## What is observed -/

/-- One of the frames sent answers the question of the message with results. -/
def Incoming.granted (msg : Incoming) (sent : List (List UInt8)) : Bool :=
  sent.any fun flat => returnOf flat == some ⟨msg.questionId, returnTagResults⟩

/-- An answer is held back that was not held back before. -/
def Vat.holdsMore (v v' : Vat) : Bool :=
  (List.range maxProvisions).any fun i => !(v.provisions i).embargoed && (v'.provisions i).embargoed

/-- The nonce of a `Provide` that is answered with results. -/
def Incoming.provides (msg : Incoming) (c : Conn) (sent : List (List UInt8)) : Option Nat :=
  if msg.which = msgProvide ∧ msg.granted sent then (msg.offers c).map Prod.snd else none

/-- The nonce of an `Accept` that claims a capability: it is answered with
results, or its answer is held back. -/
def Incoming.claims (msg : Incoming) (v v' : Vat) (sent : List (List UInt8)) : Option Nat :=
  if msg.which = msgAccept ∧ (msg.granted sent ∨ v.holdsMore v') then msg.presents else none

/-- How often each nonce was provided and claimed. -/
structure Ledger where
  provided : Nat → Nat
  claimed : Nat → Nat

def Ledger.init : Ledger := ⟨fun _ => 0, fun _ => 0⟩

/-- The ledger after a message has been handled. -/
def Ledger.note (l : Ledger) (msg : Incoming) (c : Conn) (v : Vat) (w : World) : Ledger where
  provided n := l.provided n + if msg.provides c w.sent = some n then 1 else 0
  claimed n := l.claimed n + if msg.claims v w.vat w.sent = some n then 1 else 0

/-- The ledger after an action. -/
def Net.keepLedger (s : Net) : Action → Ledger → Ledger
  | .deliver k env data, l =>
      match readIncoming data with
      | none => l
      | some msg => l.note msg (s.conn k) s.vat (handle env data (s.conn k) s.vat).2
  | _, l => l

/-! ## What is offered -/

/-- The entry offers a capability under a nonce. -/
def Provision.Offers (p : Provision) (n : Nat) : Prop :=
  p.used = true ∧ p.embargoed = false ∧ p.nonce = n

instance (p : Provision) (n : Nat) : Decidable (p.Offers n) :=
  inferInstanceAs (Decidable (_ ∧ _ ∧ _))

/-- The entries that offer a capability under a nonce. -/
def Vat.offered (v : Vat) (n : Nat) : Nat :=
  ∑ i ∈ Finset.range maxProvisions, if (v.provisions i).Offers n then 1 else 0

theorem Vat.offered_setProvision (v : Vat) {i : Nat} (index : i < maxProvisions) (p : Provision)
    (n : Nat) : (v.setProvision i p).offered n + (if (v.provisions i).Offers n then 1 else 0) =
      v.offered n + if p.Offers n then 1 else 0 := by
  have replaced := sum_range_replace index
    (f := fun j => if (v.provisions j).Offers n then 1 else 0)
    (g := fun j => if ((v.setProvision i p).provisions j).Offers n then 1 else 0)
    fun j other => by simp [other]
  simpa [offered] using replaced

theorem Vat.holdsMore_self (v : Vat) : v.holdsMore v = false := by
  simp [holdsMore]

theorem Vat.holdsMore_of_held {v : Vat} {i : Nat} {p : Provision} (index : i < maxProvisions)
    (before : (v.provisions i).embargoed = false) (held : p.embargoed = true) :
    v.holdsMore (v.setProvision i p) = true := by
  refine List.any_eq_true.mpr ⟨i, List.mem_range.mpr index, ?_⟩
  simp [before, held]

/-! ## Grants -/

section
variable {msg : Incoming} {flat : List UInt8} {hosted : List Nat}

theorem granted_of_results (isReturn : IsReturn flat msg.questionId returnTagResults hosted) :
    msg.granted [flat] = true := by
  simp [Incoming.granted, isReturn.read]

theorem granted_of_exception {qid : Nat} (isReturn : IsReturn flat qid returnTagException hosted) :
    msg.granted [flat] = false := by
  have apart : returnTagException ≠ returnTagResults := by decide
  simp [Incoming.granted, isReturn.read, apart]

theorem granted_of_silent (silent : returnOf flat = none) : msg.granted [flat] = false := by
  simp [Incoming.granted, silent]

theorem provides_none {c : Conn} {sent : List (List UInt8)}
    (denied : msg.which = msgProvide → msg.granted sent = false) : msg.provides c sent = none := by
  refine if_neg ?_
  rintro ⟨which, granted⟩
  rw [denied which] at granted
  cases granted

theorem claims_none {v v' : Vat} {sent : List (List UInt8)}
    (denied : msg.which = msgAccept → msg.granted sent = false ∧ v.holdsMore v' = false) :
    msg.claims v v' sent = none := by
  refine if_neg ?_
  rintro ⟨which, claimed⟩
  obtain ⟨quiet, same⟩ := denied which
  rcases claimed with granted | more
  · rw [quiet] at granted
    cases granted
  · rw [same] at more
    cases more

end

/-! ## One message -/

/-- What a message that neither provides nor claims does to the offers. -/
structure Idle (msg : Incoming) (c : Conn) (v v' : Vat) (sent : List (List UInt8)) : Prop where
  provides : msg.provides c sent = none
  claims : msg.claims v v' sent = none
  offered : ∀ n, v'.offered n = v.offered n

/-- A message of another kind, or one that is refused. -/
theorem Idle.of_denied {msg : Incoming} {c : Conn} {v : Vat} {sent : List (List UInt8)}
    (denied : msg.which = msgProvide ∨ msg.which = msgAccept → msg.granted sent = false) :
    Idle msg c v v sent :=
  ⟨provides_none fun which => denied (.inl which),
    claims_none fun which => ⟨denied (.inr which), v.holdsMore_self⟩, fun _ => rfl⟩

theorem Idle.of_other {msg : Incoming} {c : Conn} {v : Vat} {sent : List (List UInt8)}
    (notProvide : msg.which ≠ msgProvide) (notAccept : msg.which ≠ msgAccept) :
    Idle msg c v v sent :=
  .of_denied fun either => (either.elim notProvide notAccept).elim

/-- What a message does to the offers. -/
inductive Trade (msg : Incoming) (c : Conn) (v v' : Vat) (sent : List (List UInt8)) : Prop
  | idle (idle : Idle msg c v v' sent)
  | provided {nonce : Nat} (provides : msg.provides c sent = some nonce)
      (claims : msg.claims v v' sent = none)
      (offered : ∀ n, v'.offered n = v.offered n + if nonce = n then 1 else 0)
  | claimed {nonce : Nat} (provides : msg.provides c sent = none)
      (claims : msg.claims v v' sent = some nonce)
      (offered : ∀ n, v'.offered n + (if nonce = n then 1 else 0) = v.offered n)

/-- Taking an entry out of the offers. -/
theorem offered_of_claimed {v : Vat} {nonce i : Nat} (claims : v.claimable nonce = some i)
    {p : Provision} (gone : ∀ n, ¬p.Offers n) (n : Nat) :
    (v.setProvision i p).offered n + (if nonce = n then 1 else 0) = v.offered n := by
  obtain ⟨index, used, free, named⟩ := claimable_some claims
  have replaced := v.offered_setProvision index p n
  have offers : (v.provisions i).Offers n ↔ nonce = n := by
    simp [Provision.Offers, used, free, named]
  rw [if_neg (gone n), if_congr offers rfl rfl, add_zero] at replaced
  exact replaced

theorem Handling.trade {msg : Incoming} {c c' : Conn} {v v' : Vat} {frames : List (List UInt8)}
    (handling : Handling msg c v c' v' frames) : Trade msg c v v' frames := by
  have other {kind : Nat} (which : msg.which = kind) (notProvide : kind ≠ msgProvide)
      (notAccept : kind ≠ msgAccept) : Trade msg c v v frames := by
    subst which
    exact .idle (.of_other notProvide notAccept)
  cases handling with
  | quiet _ _ => exact .idle (.of_denied fun _ => rfl)
  | finished which => exact other which (by decide) (by decide)
  | released which => exact other which (by decide) (by decide)
  | refused _ _ isReturn => exact .idle (.of_denied fun _ => granted_of_exception isReturn)
  | bootstrapped which _ _ => exact other which (by decide) (by decide)
  | called which _ _ => exact other which (by decide) (by decide)
  | @provided i eid nonce flat which offers free isReturn =>
      have granted := granted_of_results isReturn
      obtain ⟨index, unused, -⟩ := firstIndex_eq_some free
      rw [Bool.not_eq_true'] at unused
      have provides : msg.provides c [flat] = some nonce := by
        rw [Incoming.provides, if_pos ⟨which, granted⟩, offers]
        rfl
      refine .provided provides (claims_none fun accept => ?_) fun n => ?_
      · rw [which] at accept
        exact absurd accept (by decide)
      · have replaced := v.offered_setProvision index { v.provisions i with
            used := true
            nonce := nonce
            server := (c.exports eid).server
            dispatch := (c.exports eid).dispatch
            exportId := eid
            questionId := msg.questionId
            embargoed := false } n
        have before : ¬(v.provisions i).Offers n := by
          simp [Provision.Offers, unused]
        rw [if_neg before, add_zero] at replaced
        rw [replaced]
        exact congrArg _ (if_congr (by simp [Provision.Offers]) rfl rfl)
  | @taken i eid nonce c' flat which presents claims exported isReturn =>
      have claimed : msg.claims v (v.setProvision i { v.provisions i with
          exportId := eid, used := false }) [flat] = some nonce := by
        rw [Incoming.claims,
          if_pos ⟨which, .inl (granted_of_results isReturn.toIsReturn)⟩, presents]
      refine .claimed (provides_none fun provide => ?_) claimed fun n => ?_
      · rw [which] at provide
        exact absurd provide (by decide)
      · exact offered_of_claimed claims (fun _ => by simp [Provision.Offers]) n
  | @held i eid nonce c' which presents embargo claims exported =>
      obtain ⟨index, used, free, named⟩ := claimable_some claims
      have claimed : msg.claims v (v.setProvision i { v.provisions i with
          exportId := eid, embargoed := true, acceptQuestionId := msg.questionId }) [] =
            some nonce := by
        rw [Incoming.claims, if_pos ⟨which, .inr (Vat.holdsMore_of_held index free rfl)⟩, presents]
      refine .claimed (provides_none fun provide => ?_) claimed fun n => ?_
      · rw [which] at provide
        exact absurd provide (by decide)
      · exact offered_of_claimed claims (fun _ => by simp [Provision.Offers]) n
  | @lifted i flat lifts isReturn =>
      obtain ⟨index, held⟩ := Net.liftable_some lifts
      have which := which_of_lifts lifts
      refine .idle ⟨provides_none fun provide => ?_, claims_none fun accept => ?_, fun n => ?_⟩
      · rw [which] at provide
        exact absurd provide (by decide)
      · rw [which] at accept
        exact absurd accept (by decide)
      · have replaced := v.offered_setProvision index Provision.zero n
        have before : ¬(v.provisions i).Offers n := by
          simp [Provision.Offers, held]
        have after : ¬Provision.zero.Offers n := by
          simp [Provision.Offers, Provision.zero]
        rw [if_neg before, if_neg after, add_zero, add_zero] at replaced
        exact replaced
  | joinRefused which _ _ => exact other which (by decide) (by decide)
  | joined which _ _ => exact other which (by decide) (by decide)
  | completed which _ _ _ => exact other which (by decide) (by decide)
  | echoed _ silent => exact .idle (.of_denied fun _ => granted_of_silent silent)

/-! ## One `Accept` -/

/-- The answer to an `Accept` that has claimed entry `i`: it names the export
`eid`, or it is held back with it. -/
def AnswersClaim (msg : Incoming) (i eid : Nat) (v' : Vat) (sent : List (List UInt8)) : Prop :=
  (∃ flat, sent = [flat] ∧ returnOf flat = some ⟨msg.questionId, returnTagResults⟩ ∧
    capIdOf flat = some eid) ∨
  sent = [] ∧ (v'.provisions i).embargoed = true ∧
    (v'.provisions i).acceptQuestionId = msg.questionId ∧ (v'.provisions i).exportId = eid

/-- What an `Accept` does to the provisions. -/
inductive Accepted (msg : Incoming) (c c' : Conn) (v v' : Vat) (sent : List (List UInt8)) : Prop
  | refused (vat_eq : v' = v) (claims : msg.claims v v' sent = none)
  | claimed {i eid nonce : Nat} {p : Provision} (presents : msg.presents = some nonce)
      (claimable : v.claimable nonce = some i)
      (exported : (c.exportCap (v.provisions i).server (v.provisions i).dispatch).1 = some eid)
      (used : (c'.exports eid).used = true)
      (server : (c'.exports eid).server = (v.provisions i).server)
      (vat_eq : v' = v.setProvision i p) (gone : ∀ n, ¬p.Offers n)
      (answers : AnswersClaim msg i eid v' sent)

theorem Handling.accepted {msg : Incoming} {c c' : Conn} {v v' : Vat} {frames : List (List UInt8)}
    (handling : Handling msg c v c' v' frames) (which : msg.which = msgAccept) :
    Accepted msg c c' v v' frames := by
  have idle (denied : msg.granted frames = false) (same : v' = v) :
      Accepted msg c c' v v' frames := by
    refine .refused same (claims_none fun _ => ⟨denied, ?_⟩)
    rw [same]
    exact v.holdsMore_self
  have other {kind : Nat} (this : msg.which = kind) (apart : kind ≠ msgAccept) :
      Accepted msg c c' v v' frames := (apart (this.symm.trans which)).elim
  cases handling with
  | quiet _ _ => exact idle rfl rfl
  | finished this => exact other this (by decide)
  | released this => exact other this (by decide)
  | refused _ _ isReturn => exact idle (granted_of_exception isReturn) rfl
  | bootstrapped this _ _ => exact other this (by decide)
  | called this _ _ => exact other this (by decide)
  | provided this _ _ _ => exact other this (by decide)
  | @taken i eid nonce c' flat _ presents claims exported isReturn =>
      obtain ⟨-, used, server, -, -⟩ := Conn.exportCap_some exported
      have exports := (World.answerKeep_exports c' msg.questionId flat).1
      refine .claimed presents claims (congrArg Prod.fst exported) ?_ ?_ rfl
        (fun n => by simp [Provision.Offers]) (.inl ⟨flat, rfl, isReturn.read, isReturn.capId⟩)
      · rw [exports]
        exact used
      · rw [exports]
        exact server
  | @held i eid nonce c' _ presents embargo claims exported =>
      obtain ⟨-, used, server, -, -⟩ := Conn.exportCap_some exported
      exact .claimed presents claims (congrArg Prod.fst exported) used server rfl
        (fun n => by simp [Provision.Offers]) (.inr ⟨rfl, by simp, by simp, by simp⟩)
  | lifted lifts _ => exact other (which_of_lifts lifts) (by decide)
  | joinRefused this _ _ => exact other this (by decide)
  | joined this _ _ => exact other this (by decide)
  | completed this _ _ _ => exact other this (by decide)
  | echoed _ silent => exact idle (granted_of_silent silent) rfl

/-! ## Runs -/

namespace Net

/-- What was provided under a nonce has been claimed or is still offered. -/
def Balanced (s : Net) (l : Ledger) : Prop := ∀ n, l.provided n = l.claimed n + s.vat.offered n

theorem balanced_init : init.Balanced Ledger.init := by
  intro n
  have none : init.vat.offered n = 0 := by
    refine Finset.sum_eq_zero fun i _ => if_neg ?_
    rintro ⟨used, -⟩
    cases used
  rw [none]
  rfl

/-- Every step keeps the balance. -/
theorem balanced_step {s : Net} {l : Ledger} (sound : s.Sound) (balanced : s.Balanced l)
    (a : Action) : (s.step a).Balanced (s.keepLedger a l) := by
  have does := does sound a
  generalize s.step a = s' at does
  cases does with
  | unread unread =>
      rw [keepLedger, unread]
      exact balanced
  | @handled k env data msg w read done handling =>
      rw [keepLedger, read]
      dsimp only
      rw [done]
      intro n
      have before := balanced n
      dsimp only [handled, Ledger.note]
      cases handling.trade with
      | idle idle => simp [idle.provides, idle.claims, idle.offered n, before]
      | @provided nonce provides claims offered =>
          rw [provides, claims, offered n]
          simp only [Option.some.injEq, reduceCtorEq, if_false]
          omega
      | @claimed nonce provides claims offered =>
          have after := offered n
          rw [provides, claims]
          simp only [Option.some.injEq, reduceCtorEq, if_false]
          omega
  | exported _ => exact balanced
  | full => exact balanced
  | @worked a k c quiet _ _ _ =>
      have kept : s.keepLedger a l = l := by
        cases a with
        | deliver k' env data => exact absurd rfl (quiet k' env data)
        | exportCap _ _ _ => rfl
        | setBootstrap _ _ _ => rfl
        | ask _ _ _ _ => rfl
      rw [kept]
      exact balanced

/-- The ledger is balanced in every run. -/
theorem balanced_of_reached {o : Net × Ledger}
    (reached : Reached (init, Ledger.init) (observed step keepLedger) (fun _ _ => True) o) :
    o.1.Balanced o.2 := by
  have kept : o.1.Sound ∧ o.1.Balanced o.2 := by
    induction reached with
    | start => exact ⟨sound_init, balanced_init⟩
    | @step o _ a _ ih => exact ⟨(does ih.1 a).sound ih.1, balanced_step ih.1 ih.2 a⟩
  exact kept.2

/-- What an `Accept` that arrives does. -/
theorem accepted_deliver {s : Net} (sound : s.Sound) {k : Nat} (env : Env) {data : List UInt8}
    {msg : Incoming} (read : readIncoming data = some msg) (which : msg.which = msgAccept) :
    Accepted msg (s.conn k) ((s.step (.deliver k env data)).conn k) s.vat
      (s.step (.deliver k env data)).vat (s.sends (.deliver k env data)) := by
  have accepted := (handling_deliver sound (k := k) env read).accepted which
  rw [step_deliver read]
  simpa [handled, sends] using accepted

/-- An `Accept` on connection `k` has claimed entry `i` under nonce `n`: the
entry offers nothing any more, the others are as they were, and the answer names
an export of the server that the entry's `Provide` pinned. -/
structure Consumes (s : Net) (a : Action) (k : Nat) (msg : Incoming) (n i : Nat) : Prop where
  offers : (s.vat.provisions i).Offers n
  gone : ∀ n, ¬((s.step a).vat.provisions i).Offers n
  others : ∀ j, j ≠ i → (s.step a).vat.provisions j = s.vat.provisions j
  exported : ∃ eid, (((s.step a).conn k).exports eid).used = true ∧
    (((s.step a).conn k).exports eid).server = (s.claims i).pinned ∧
      AnswersClaim msg i eid (s.step a).vat (s.sends a)

/-- Provisions are claimed at most once, and only by their nonce: in every
run no nonce is claimed more often than it was provided; an `Accept` that claims
takes one entry with its own nonce, and one that finds no entry, or no room for
the export, changes none. -/
theorem provision_claimed_once {s : Net} {l : Ledger}
    (reached : Reached (init, Ledger.init) (observed step keepLedger) (fun _ _ => True) (s, l)) :
    (∀ n, l.claimed n ≤ l.provided n) ∧
      ∀ k env data msg, readIncoming data = some msg → msg.which = msgAccept →
        let a := Action.deliver k env data
        (∀ n, msg.claims s.vat (s.step a).vat (s.sends a) = some n → ∃ i, s.Consumes a k msg n i) ∧
          (∀ i, msg.presents ≠ some (s.vat.provisions i).nonce →
            (s.step a).vat.provisions i = s.vat.provisions i) ∧
          ((∀ i, msg.finds s.vat = some i → ((s.conn k).exportCap (s.vat.provisions i).server
            (s.vat.provisions i).dispatch).1 = none) → (s.step a).vat = s.vat) := by
  have observed : Reached init step (fun _ _ => True) s :=
    reached.of_observed fun _ _ _ _ => trivial
  have sound := sound_of_reached observed
  have wf := wf_of_reached observed
  have balanced : s.Balanced l := balanced_of_reached reached
  refine ⟨fun n => ?_, fun k env data msg read which => ?_⟩
  · have total := balanced n
    omega
  · dsimp only
    have accepted := accepted_deliver sound (k := k) env read which
    refine ⟨fun n claims => ?_, fun i other => ?_, fun refuses => ?_⟩
    · cases accepted with
      | refused _ denied =>
          rw [denied] at claims
          cases claims
      | @claimed i eid nonce p presents claimable exported used server vat gone answers =>
          have named : nonce = n := by
            rw [Incoming.claims, presents] at claims
            split at claims
            · exact Option.some.inj claims
            · cases claims
          subst named
          obtain ⟨-, offered, free, recorded⟩ := claimable_some claimable
          refine ⟨i, ⟨offered, free, recorded⟩, fun n' => ?_, fun j ne => ?_, eid, used, ?_, answers⟩
          · rw [vat, Vat.setProvision_provisions, if_pos rfl]
            exact gone n'
          · rw [vat, Vat.setProvision_provisions, if_neg ne]
          · exact server.trans ((wf.records i).introduced offered).2
    · cases accepted with
      | refused vat _ => rw [vat]
      | @claimed j eid nonce p presents claimable exported used server vat gone answers =>
          have ne : i ≠ j := by
            rintro rfl
            rw [(claimable_some claimable).2.2.2] at other
            exact other presents
          rw [vat, Vat.setProvision_provisions, if_neg ne]
    · cases accepted with
      | refused vat _ => exact vat
      | @claimed i eid nonce p presents claimable exported used server vat gone answers =>
          have found : msg.finds s.vat = some i := by
            rw [Incoming.finds, presents]
            exact claimable
          rw [refuses i found] at exported
          cases exported

/-- A capability is provided on one connection and claimed on another. -/
theorem provision_claimed_once_across :
    let o := ([.exportCap 0 1 1, arrives 0 (provideFrame 7 1)] : List Action).foldl
      (observed step keepLedger) (init, Ledger.init)
    o.2.provided 1 = 1 ∧ o.2.claimed 1 ≤ o.2.provided 1 ∧
      ∃ msg i, readIncoming (acceptFrame 3 1) = some msg ∧
        o.1.Consumes (arrives 1 (acceptFrame 3 1)) 1 msg 1 i := by
  have reached : Reached (init, Ledger.init) (observed step keepLedger) (fun _ _ => True)
      (([.exportCap 0 1 1, arrives 0 (provideFrame 7 1)] : List Action).foldl
        (observed step keepLedger) (init, Ledger.init)) := reached_any _
  have provided : (([.exportCap 0 1 1, arrives 0 (provideFrame 7 1)] : List Action).foldl
      (observed step keepLedger) (init, Ledger.init)).2.provided 1 = 1 := by
    decide +kernel
  have claiming : ((readIncoming (acceptFrame 3 1)).any fun msg =>
      let s := (([.exportCap 0 1 1, arrives 0 (provideFrame 7 1)] : List Action).foldl
        (observed step keepLedger) (init, Ledger.init)).1
      msg.which == msgAccept && msg.claims s.vat (s.step (arrives 1 (acceptFrame 3 1))).vat
        (s.sends (arrives 1 (acceptFrame 3 1))) == some 1) = true := by
    decide +kernel
  obtain ⟨msg, read, facts⟩ := (Option.any_eq_true _ _).mp claiming
  simp only [Bool.and_eq_true, beq_iff_eq] at facts
  obtain ⟨which, claims⟩ := facts
  obtain ⟨balanced, accepts⟩ := provision_claimed_once reached
  obtain ⟨i, consumes⟩ := (accepts 1 _ _ msg read which).1 1 claims
  exact ⟨provided, balanced 1, msg, i, read, consumes⟩

end Net

end CapnpJanet.Rpc
