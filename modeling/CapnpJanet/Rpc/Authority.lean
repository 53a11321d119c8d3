import CapnpJanet.Logic.Authority
import CapnpJanet.Rpc.Accounts
import CapnpJanet.Rpc.Params

/-!
# Connections come by servers only through gifts

The connections of a vat are parties, and a server with the dispatch function it
was registered with is an object.  The application endows a connection with what
it exports there or makes its bootstrap capability; an `Accept` that claims a
provision passes it on from the connection whose `Provide` pinned it.  Nothing
else gives a connection a server, whatever its peer sends.  Beside that, a
connection knows each server under one id.
-/

namespace CapnpJanet.Rpc

open Authority Run

/-- A server and the dispatch function it was registered with. -/
abbrev Registered : Type := Nat × Nat

/-- The registration of an export entry. -/
def Export.registered (e : Export) : Registered := (e.server, e.dispatch)

/-- The registration that a provision pins. -/
def Provision.registered (p : Provision) : Registered := (p.server, p.dispatch)

/-- The server and the function that a dispatch call applies. -/
def Dispatch.registered (d : Dispatch) : Registered := (d.server, d.dispatch)

/-! ## Exports -/

namespace Conn

/-- The registration of the bootstrap capability. -/
def bootstrapRegistered (c : Conn) : Registered := (c.bootstrap, c.bootstrapDispatch)

/-- The entries in use are those of another connection, registered alike. -/
def Within (c' c : Conn) : Prop :=
  ∀ e, (c'.exports e).used = true →
    (c.exports e).used = true ∧ (c'.exports e).registered = (c.exports e).registered

theorem Within.of_eq {c c' : Conn} (same : c'.exports = c.exports) : c'.Within c := by
  intro e used
  rw [same] at used ⊢
  exact ⟨used, rfl⟩

theorem Within.trans {c c' c'' : Conn} (second : c''.Within c') (first : c'.Within c) :
    c''.Within c := by
  intro e used
  obtain ⟨used', same'⟩ := second e used
  obtain ⟨used'', same''⟩ := first e used'
  exact ⟨used'', same'.trans same''⟩

theorem Within.congr {c c' c'' : Conn} (within : c'.Within c) (same : c''.exports = c'.exports) :
    c''.Within c := by
  intro e used
  rw [same] at used ⊢
  exact within e used

theorem within_retain (c : Conn) (i : Nat) : (c.retain i).Within c := by
  intro e used
  by_cases here : e = i
  · subst here
    rw [retain, setExport_exports, if_pos rfl] at used ⊢
    exact ⟨used, rfl⟩
  · rw [retain, setExport_exports, if_neg here] at used ⊢
    exact ⟨used, rfl⟩

theorem within_released (c : Conn) (id count : Nat) : (c.released id count).Within c := by
  unfold released
  split
  · exact .of_eq rfl
  · next busy =>
    intro e used
    by_cases here : e = id
    · subst here
      rw [setExport_exports, if_pos rfl] at used ⊢
      split at used
      · cases used
      · next some =>
        rw [if_neg some]
        exact ⟨used, rfl⟩
    · rw [setExport_exports, if_neg here] at used ⊢
      exact ⟨used, rfl⟩

theorem exportCap_bootstrap {c c' : Conn} {server dispatch eid : Nat}
    (exported : c.exportCap server dispatch = (some eid, c')) :
    c'.bootstrapRegistered = c.bootstrapRegistered := by
  rcases exportCap_cases exported with ⟨-, -, rfl⟩ | ⟨-, -, rfl⟩
  · rfl
  · rfl

/-- The servers of the entries in use were received. -/
def HasExports (c : Conn) (received : Registered → Prop) : Prop :=
  ∀ e, (c.exports e).used = true → received (c.exports e).registered

/-- The servers of a connection were received. -/
structure Has (c : Conn) (received : Registered → Prop) : Prop where
  exports : c.HasExports received
  bootstrap : c.bootstrap ≠ 0 → received c.bootstrapRegistered

section
variable {c c' : Conn} {received received' : Registered → Prop}

theorem Has.mono (has : c.Has received) (more : ∀ o, received o → received' o) :
    c.Has received' :=
  ⟨fun e used => more _ (has.exports e used), fun serving => more _ (has.bootstrap serving)⟩

theorem HasExports.congr (has : c.HasExports received) (same : c'.exports = c.exports) :
    c'.HasExports received := by
  unfold HasExports
  rw [same]
  exact has

theorem HasExports.within (has : c.HasExports received) (within : c'.Within c) :
    c'.HasExports received := by
  intro e used
  obtain ⟨before, same⟩ := within e used
  rw [same]
  exact has e before

/-- An entry in use after an export is an old one, or the new one. -/
theorem HasExports.exportCap (has : c.HasExports received) {server dispatch eid : Nat}
    (exported : c.exportCap server dispatch = (some eid, c'))
    (given : received (server, dispatch)) : c'.HasExports received := by
  rcases exportCap_cases exported with ⟨-, -, rfl⟩ | ⟨-, -, rfl⟩
  · exact has.within (within_retain c eid)
  · intro e used
    by_cases here : e = eid
    · rw [here, setExport_exports, if_pos rfl]
      exact given
    · rw [setExport_exports, if_neg here] at used ⊢
      exact has e used

end

/-- No two entries in use are for the same server, and all lie in the table. -/
structure OneId (c : Conn) : Prop where
  small : ∀ e, (c.exports e).used = true → e < maxExports
  distinct : ∀ e e', (c.exports e).used = true → (c.exports e').used = true →
    (c.exports e).server = (c.exports e').server → e = e'

theorem oneId_init : init.OneId := ⟨nofun, nofun⟩

theorem OneId.within {c c' : Conn} (one : c.OneId) (within : c'.Within c) : c'.OneId := by
  have servers {e : Nat} (used : (c'.exports e).used = true) :
      (c'.exports e).server = (c.exports e).server := congrArg Prod.fst (within e used).2
  refine ⟨fun e used => one.small e (within e used).1, fun e e' used used' same => ?_⟩
  rw [servers used, servers used'] at same
  exact one.distinct e e' (within e used).1 (within e' used').1 same

/-- The entry of a server is the one that the search finds. -/
theorem OneId.found {c : Conn} (one : c.OneId) {e : Nat} (used : (c.exports e).used = true)
    (dispatch : Nat) : c.exportCap (c.exports e).server dispatch = (some e, c.retain e) := by
  unfold exportCap
  cases found : firstIndex maxExports fun i =>
      (c.exports i).used && (c.exports i).server == (c.exports e).server with
  | none =>
      have absent := firstIndex_eq_none found e (one.small e used)
      simp [used] at absent
  | some i =>
      obtain ⟨-, holds, -⟩ := firstIndex_eq_some found
      simp only [Bool.and_eq_true, beq_iff_eq] at holds
      rw [one.distinct i e holds.1 used holds.2]

/-- A server is exported under a new id only if it has none. -/
theorem OneId.exportCap {c c' : Conn} (one : c.OneId) {server dispatch eid : Nat}
    (exported : c.exportCap server dispatch = (some eid, c')) : c'.OneId := by
  have small := (exportCap_some exported).1
  unfold Conn.exportCap at exported
  split at exported
  · next i _ =>
    obtain ⟨-, rfl⟩ := Prod.mk.inj exported
    exact one.within (within_retain c i)
  · next unknown =>
    split at exported
    · next i free =>
      simp only [Prod.mk.injEq, Option.some.injEq] at exported
      obtain ⟨rfl, rfl⟩ := exported
      have stranger {e : Nat} (used : (c.exports e).used = true) :
          (c.exports e).server ≠ server := by
        have absent := firstIndex_eq_none unknown e (one.small e used)
        simpa [used] using absent
      constructor
      · intro e used
        by_cases here : e = i
        · rw [here]
          exact small
        · rw [setExport_exports, if_neg here] at used
          exact one.small e used
      · intro e e' used used' same
        simp only [setExport_exports] at used used' same
        by_cases here : e = i
        · by_cases here' : e' = i
          · rw [here, here']
          · rw [if_pos here, if_neg here'] at same
            rw [if_neg here'] at used'
            exact absurd same.symm (stranger used')
        · by_cases here' : e' = i
          · rw [if_neg here, if_pos here'] at same
            rw [if_neg here] at used
            exact absurd same (stranger used)
          · rw [if_neg here, if_neg here'] at same
            rw [if_neg here] at used
            rw [if_neg here'] at used'
            exact one.distinct e e' used used' same
    · cases exported

end Conn

/-! ## One message -/

/-- The provision that a message claims. -/
def Incoming.takes (msg : Incoming) (v v' : Vat) (sent : List (List UInt8)) : Option Nat :=
  (msg.claims v v' sent).bind fun _ => msg.finds v

/-- Where the exports of a connection come from after a message. -/
inductive Sourced (msg : Incoming) (c c' : Conn) (v v' : Vat) (sent : List (List UInt8)) : Prop
  | within (within : c'.Within c)
  | bootstrapped {eid : Nat} {c₁ : Conn} (serving : c.bootstrap ≠ 0)
      (exported : c.exportCap c.bootstrap c.bootstrapDispatch = (some eid, c₁))
      (same : c'.exports = c₁.exports)
  | claimed {i eid : Nat} {c₁ : Conn} (takes : msg.takes v v' sent = some i)
      (exported : c.exportCap (v.provisions i).server (v.provisions i).dispatch = (some eid, c₁))
      (same : c'.exports = c₁.exports)

theorem takes_of_claimed {msg : Incoming} {v v' : Vat} {sent : List (List UInt8)} {nonce i : Nat}
    (which : msg.which = msgAccept) (presents : msg.presents = some nonce)
    (claims : v.claimable nonce = some i)
    (answered : msg.granted sent = true ∨ v.holdsMore v' = true) :
    msg.takes v v' sent = some i := by
  rw [Incoming.takes, Incoming.claims, if_pos ⟨which, answered⟩, Incoming.finds, presents]
  exact claims

/-- A message adds an export only for the bootstrap capability or a claimed
provision. -/
theorem Handling.sourced {msg : Incoming} {c c' : Conn} {v v' : Vat} {frames : List (List UInt8)}
    (handling : Handling msg c v c' v' frames) : Sourced msg c c' v v' frames := by
  cases handling with
  | quiet alike _ _ => exact .within (.of_eq alike.exports_eq)
  | finished _ =>
      refine .within (.of_eq ?_)
      unfold Conn.answerDrop
      split
      · rfl
      · rfl
  | released _ => exact .within (Conn.within_released c _ _)
  | refused alike _ _ _ => exact .within (.of_eq alike.exports_eq)
  | bootstrapped _ exported _ some =>
      exact .bootstrapped some exported (World.answerKeep_exports _ _ _).1
  | called _ alike _ =>
      exact .within (.of_eq ((World.answerKeep_exports _ _ _).1.trans alike.exports_eq))
  | provided _ _ _ _ =>
      exact .within ((Conn.within_retain c _).congr (World.answerKeep_exports _ _ _).1)
  | taken which presents claims exported isReturn =>
      have granted := granted_of_results isReturn.toIsReturn
      exact .claimed (takes_of_claimed which presents claims (.inl granted)) exported
        (World.answerKeep_exports _ _ _).1
  | held which presents _ claims exported =>
      obtain ⟨index, -, free, -⟩ := claimable_some claims
      exact .claimed (takes_of_claimed which presents claims
        (.inr (Vat.holdsMore_of_held index free rfl))) exported rfl
  | lifted _ _ => exact .within (.of_eq (World.answerKeep_exports _ _ _).1)
  | joinRefused _ _ _ => exact .within (.of_eq rfl)
  | @joined slot pnum c₁ _ place _ =>
      have opened := joinPlace_exports place
      have exports : (c₁.setJoin slot (msg.joinPart c₁ slot pnum)).exports = c.exports := opened
      exact .within (.of_eq exports)
  | @completed slot pnum c₁ frames _ place _ _ =>
      have exports := joinPlace_exports place
      cases joined : (msg.joinPart c₁ slot pnum).joined with
      | none => exact .within (.of_eq exports)
      | some eid =>
          have retained := (Conn.within_retain c₁ eid).trans (.of_eq exports)
          exact .within (retained.congr rfl)
  | echoed _ _ _ _ => exact .within (.of_eq rfl)

theorem joinPlace_bootstrap {msg : Incoming} {c c' : Conn} {slot pnum : Nat}
    (place : msg.joinPlace c = some (slot, c', pnum)) :
    c'.bootstrapRegistered = c.bootstrapRegistered := by
  obtain ⟨jid, pcount, -, -, -, found, -⟩ := joinPlace_some place
  unfold Conn.joinSlotFind at found
  split at found
  · rw [← (Prod.mk.inj found).2]
  · split at found
    · rw [← (Prod.mk.inj found).2]
      rfl
    · cases found

/-- The bootstrap capability is the application's alone. -/
theorem Handling.bootstrap_eq {msg : Incoming} {c c' : Conn} {v v' : Vat}
    {frames : List (List UInt8)} (handling : Handling msg c v c' v' frames) :
    c'.bootstrapRegistered = c.bootstrapRegistered := by
  have kept (c : Conn) (qid : Nat) (flat : List UInt8) :
      (c.answerKeep qid flat).bootstrapRegistered = c.bootstrapRegistered := by
    unfold Conn.answerKeep
    split
    · split
      · rfl
      · rfl
    · rfl
  have alikeKeeps {c c' : Conn} (alike : c.Alike c') :
      c'.bootstrapRegistered = c.bootstrapRegistered := by
    rw [alike]
    rfl
  cases handling with
  | quiet alike _ _ => exact alikeKeeps alike
  | finished _ =>
      unfold Conn.answerDrop
      split
      · rfl
      · rfl
  | released _ =>
      unfold Conn.released
      split
      · rfl
      · rfl
  | refused alike _ _ _ => exact alikeKeeps alike
  | bootstrapped _ exported _ _ => exact (kept _ _ _).trans (Conn.exportCap_bootstrap exported)
  | called _ alike _ => exact (kept _ _ _).trans (alikeKeeps alike)
  | provided _ _ _ _ => exact kept _ _ _
  | taken _ _ _ exported _ => exact (kept _ _ _).trans (Conn.exportCap_bootstrap exported)
  | held _ _ _ _ exported => exact Conn.exportCap_bootstrap exported
  | lifted _ _ => exact kept _ _ _
  | joinRefused _ _ _ => rfl
  | joined _ place _ =>
      have bootstrap := joinPlace_bootstrap place
      exact bootstrap
  | @completed slot pnum c₁ frames _ place _ _ =>
      have bootstrap := joinPlace_bootstrap place
      cases (msg.joinPart c₁ slot pnum).joined with
      | none => exact bootstrap
      | some eid => exact bootstrap
  | echoed _ _ _ _ => rfl

/-- Where a provision in use comes from after a message. -/
inductive ProvisionFrom (c : Conn) (v v' : Vat) (i : Nat) : Prop
  | kept (used : (v.provisions i).used = true)
      (registered : (v'.provisions i).registered = (v.provisions i).registered)
  | provided {eid : Nat} (free : (v.provisions i).used = false)
      (exported : (c.exports eid).used = true)
      (registered : (v'.provisions i).registered = (c.exports eid).registered)

theorem ProvisionFrom.of_set {c : Conn} {v : Vat} {i j : Nat} {p : Provision}
    (used : ((v.setProvision j p).provisions i).used = true)
    (set : p.used = true → ProvisionFrom c v (v.setProvision j p) j) :
    ProvisionFrom c v (v.setProvision j p) i := by
  by_cases here : i = j
  · subst here
    rw [Vat.setProvision_provisions, if_pos rfl] at used
    exact set used
  · have same : (v.setProvision j p).provisions i = v.provisions i := by
      rw [Vat.setProvision_provisions, if_neg here]
    rw [same] at used
    exact .kept used (by rw [same])

/-- A message pins a provision only for an export of its connection. -/
theorem Handling.provisionFrom {msg : Incoming} {c c' : Conn} {v v' : Vat}
    {frames : List (List UInt8)} (handling : Handling msg c v c' v' frames) {i : Nat}
    (used : (v'.provisions i).used = true) : ProvisionFrom c v v' i := by
  cases handling with
  | provided _ offers free _ =>
      obtain ⟨-, unused, -⟩ := firstIndex_eq_some free
      rw [Bool.not_eq_true'] at unused
      refine .of_set used fun _ => .provided unused (offers_some offers).2 ?_
      rw [Vat.setProvision_provisions, if_pos rfl]
      rfl
  | taken _ _ _ _ _ => exact .of_set used fun gone => absurd gone Bool.false_ne_true
  | held _ _ _ claims _ =>
      refine .of_set used fun stays => .kept stays ?_
      rw [Vat.setProvision_provisions, if_pos rfl]
      rfl
  | lifted _ _ => exact .of_set used fun gone => absurd gone Bool.false_ne_true
  | _ => exact .kept used rfl

theorem Claim.note_introducer (claim : Claim) (k qid : Nat) {p : Provision} (p' : Provision)
    (used : p.used = true) : (claim.note k qid p p').introducer = claim.introducer := by
  unfold note
  rw [if_neg (by simp [used])]
  split
  · rfl
  · rfl

/-! ## Gifts -/

namespace Net

/-- The gifts so far, the latest first, after an action. -/
def noteGifts (s : Net) : Action → List (Gift Nat Registered) → List (Gift Nat Registered)
  | .exportCap k server dispatch, gifts => .endow k (server, dispatch) :: gifts
  | .setBootstrap k server dispatch, gifts => .endow k (server, dispatch) :: gifts
  | .deliver k env data, gifts =>
      match readIncoming data with
      | none => gifts
      | some msg =>
          let w := (handle env data (s.conn k) s.vat).2
          match msg.takes s.vat w.vat w.sent with
          | some i => .pass (s.claims i).introducer k (s.vat.provisions i).registered :: gifts
          | none => gifts
  | .ask _ _ _ _, gifts => gifts

/-- Every server in the tables was received by the connection that has it. -/
structure Authorized (s : Net) (gifts : List (Gift Nat Registered)) : Prop where
  lawful : Lawful gifts
  conns : ∀ k, (s.conn k).Has (Received gifts k)
  provisions : ∀ i, (s.vat.provisions i).used = true →
    Received gifts (s.claims i).introducer (s.vat.provisions i).registered

theorem authorized_init : init.Authorized [] :=
  ⟨.nil, fun _ => ⟨nofun, fun serving => (serving rfl).elim⟩, nofun⟩

section
variable {s : Net} {gifts : List (Gift Nat Registered)} {k : Nat}

/-- More gifts authorize as much. -/
theorem Authorized.cons (authorized : s.Authorized gifts) {g : Gift Nat Registered}
    (lawful : Lawful (g :: gifts)) : s.Authorized (g :: gifts) where
  lawful := lawful
  conns k := (authorized.conns k).mono fun _ received => received.cons g
  provisions i used := (authorized.provisions i used).cons g

/-- One connection has changed, and has what it was given. -/
theorem Authorized.setConn (authorized : s.Authorized gifts) {c : Conn}
    (has : c.Has (Received gifts k)) : (s.setConn k c).Authorized gifts := by
  refine ⟨authorized.lawful, fun k' => ?_, authorized.provisions⟩
  rw [show (s.setConn k c).conn = Function.update s.conn k c from rfl]
  by_cases here : k' = k
  · rw [here, Function.update_self]
    exact has
  · rw [Function.update_of_ne here]
    exact authorized.conns k'

/-- A provision in use may be passed on. -/
theorem Authorized.taking (authorized : s.Authorized gifts) (k : Nat) {i : Nat}
    (used : (s.vat.provisions i).used = true) :
    s.Authorized (.pass (s.claims i).introducer k (s.vat.provisions i).registered :: gifts) :=
  authorized.cons (.pass authorized.lawful (authorized.provisions i used) k)

theorem used_of_takes {msg : Incoming} {v v' : Vat} {sent : List (List UInt8)} {i : Nat}
    (takes : msg.takes v v' sent = some i) : (v.provisions i).used = true := by
  unfold Incoming.takes at takes
  obtain ⟨-, -, finds⟩ := Option.bind_eq_some_iff.mp takes
  unfold Incoming.finds at finds
  obtain ⟨nonce, -, claims⟩ := Option.bind_eq_some_iff.mp finds
  exact (claimable_some claims).2.1

/-- A message keeps the authority, if what it claims was passed on. -/
theorem Authorized.handled (authorized : s.Authorized gifts) {msg : Incoming} {w : World}
    (handling : Handling msg (s.conn k) s.vat w.conn w.vat w.sent)
    (taken : ∀ i, msg.takes s.vat w.vat w.sent = some i →
      Received gifts k (s.vat.provisions i).registered) :
    (s.handled k msg w).Authorized gifts := by
  have before := authorized.conns k
  have bootstrap := handling.bootstrap_eq
  have exports : w.conn.HasExports (Received gifts k) := by
    cases handling.sourced with
    | within within => exact before.exports.within within
    | bootstrapped serving exported same =>
        exact (before.exports.exportCap exported (before.bootstrap serving)).congr same
    | claimed takes exported same =>
        exact (before.exports.exportCap exported (taken _ takes)).congr same
  have changed : (s.setConn k w.conn).Authorized gifts := by
    refine authorized.setConn ⟨exports, fun serving => ?_⟩
    rw [show w.conn.bootstrap = (s.conn k).bootstrap from congrArg Prod.fst bootstrap] at serving
    rw [bootstrap]
    exact before.bootstrap serving
  refine ⟨changed.lawful, changed.conns, fun i used => ?_⟩
  have used' : (w.vat.provisions i).used = true := used
  show Received gifts ((s.claims i).note k msg.questionId (s.vat.provisions i)
    (w.vat.provisions i)).introducer (w.vat.provisions i).registered
  cases handling.provisionFrom used with
  | kept before same =>
      rw [Claim.note_introducer _ _ _ _ before, same]
      exact authorized.provisions i before
  | provided free exported registered =>
      rw [Claim.note_provided _ _ _ free used', registered]
      exact before.exports _ exported

/-- Every action keeps the authority. -/
theorem authorized_step (sound : s.Sound) (authorized : s.Authorized gifts) (a : Action) :
    (s.step a).Authorized (s.noteGifts a gifts) := by
  cases a with
  | deliver k env data =>
      cases read : readIncoming data with
      | none =>
          rw [step, noteGifts, read]
          exact authorized
      | some msg =>
          rw [step_deliver read, noteGifts, read]
          dsimp only
          have handling := handling_deliver sound (k := k) env read
          generalize (handle env data (s.conn k) s.vat).2 = w at handling
          cases takes : msg.takes s.vat w.vat w.sent with
          | none =>
              refine authorized.handled handling fun i taken => ?_
              rw [takes] at taken
              cases taken
          | some i =>
              refine (authorized.taking k (used_of_takes takes)).handled handling fun j taken => ?_
              rw [takes] at taken
              cases taken
              exact received_pass _ _ _ _
  | exportCap k server dispatch =>
      have given := authorized.cons (.endow authorized.lawful k (server, dispatch))
      cases exported : (s.conn k).exportCap server dispatch with
      | mk found c =>
          rw [step, exported]
          cases found with
          | none =>
              rw [Conn.exportCap_none exported]
              dsimp only
              rw [setConn_same]
              exact given
          | some eid =>
              have has := given.conns k
              have bootstrap := Conn.exportCap_bootstrap exported
              refine given.setConn
                ⟨has.exports.exportCap exported (received_endow _ _ _), fun serving => ?_⟩
              dsimp only at serving ⊢
              rw [show c.bootstrap = (s.conn k).bootstrap from congrArg Prod.fst bootstrap] at serving
              rw [bootstrap]
              exact has.bootstrap serving
  | setBootstrap k server dispatch =>
      have given := authorized.cons (.endow authorized.lawful k (server, dispatch))
      exact given.setConn ⟨(given.conns k).exports, fun _ => received_endow _ _ _⟩
  | ask k questions introductions nextQuestionId =>
      exact authorized.setConn ⟨(authorized.conns k).exports, (authorized.conns k).bootstrap⟩

end

/-- Every run keeps the authority. -/
theorem authorized_of_reached {o : Net × List (Gift Nat Registered)}
    (reached : Reached (init, []) (observed step noteGifts) (fun _ _ => True) o) :
    o.1.Sound ∧ o.1.Authorized o.2 := by
  induction reached with
  | start => exact ⟨sound_init, authorized_init⟩
  | @step o _ a _ ih => exact ⟨(does ih.1 a).sound ih.1, authorized_step ih.1 ih.2 a⟩

/-- A call resolves to an export in use. -/
theorem callTarget_used {m : Message} {call : Ptr} {left eid : Nat} {c : Conn}
    (found : callTarget m call left c = .ok eid) : (c.exports eid).used = true := by
  unfold callTarget at found
  dsimp only at found
  split at found
  · cases found
  · cases resolved : (c.resolveTarget m (m.getp call 0 Ptr.zero left).out
        (m.getp call 0 Ptr.zero left).left).1 with
    | none =>
        rw [resolved] at found
        cases found
    | some id =>
        rw [resolved] at found
        cases found
        exact (resolveTarget_some resolved).2

/-- A dispatch call is made on an export in use. -/
theorem dispatched_exported {env : Env} {data : List UInt8} {c : Conn} {v : Vat} {d : Dispatch}
    (called : d ∈ (handle env data c v).2.dispatched) :
    ∃ e, (c.exports e).used = true ∧ (c.exports e).registered = d.registered := by
  cases read : readIncoming data with
  | none =>
      rw [handle, read] at called
      cases called
  | some msg =>
      rw [handle, read, handleIncoming_dispatched] at called
      have requested : d ∈ msg.requests c := by simpa [World.start] using called
      unfold Incoming.requests callRequest at requested
      dsimp only at requested
      split at requested
      · cases found : callTarget msg.message msg.body
            (callIntroductions msg.message msg.body msg.left c).2
            (callIntroductions msg.message msg.body msg.left c).1 with
        | error reason =>
            rw [found] at requested
            cases requested
        | ok eid =>
            rw [found, Option.toList_some, List.mem_singleton] at requested
            have used := callTarget_used found
            have exports := (callIntroductions_noting msg.message msg.body msg.left c).exports_eq
            rw [exports] at used
            refine ⟨eid, used, ?_⟩
            rw [requested, callDispatch, exports]
            rfl
      · cases requested

/-- Servers are come by through gifts only: in every run, whatever the peers
send, a server that a connection exports, and a server and function that a call
arriving on it is dispatched to, were registered together by the application on
some connection, and have come from there to this one by a chain of provisions
that were claimed. -/
theorem authority_derived {s : Net} {gifts : List (Gift Nat Registered)}
    (reached : Reached (init, []) (observed step noteGifts) (fun _ _ => True) (s, gifts)) (k : Nat) :
    (∀ e, ((s.conn k).exports e).used = true →
        Derived gifts ((s.conn k).exports e).registered k) ∧
      ∀ env data, ∀ d ∈ (handle env data (s.conn k) s.vat).2.dispatched,
        Derived gifts d.registered k := by
  obtain ⟨-, authorized⟩ := authorized_of_reached reached
  have exports (e : Nat) (used : ((s.conn k).exports e).used = true) :
      Derived gifts ((s.conn k).exports e).registered k :=
    authorized.lawful.derived ((authorized.conns k).exports e used)
  refine ⟨exports, fun env data d called => ?_⟩
  obtain ⟨e, used, same⟩ := dispatched_exported called
  rw [← same]
  exact exports e used

/-- A server exported on connection 0 comes by an accepted provision to
connection 1. -/
theorem authority_derived_passed :
    let o := ([.exportCap 0 1 1, arrives 0 (provideFrame 7 1), arrives 1 (acceptFrame 3 1)] :
      List Action).foldl (observed step noteGifts) (init, [])
    o.2 = [.pass 0 1 (1, 1), .endow 0 (1, 1)] ∧ ((o.1.conn 1).exports 0).used = true ∧
      Derived o.2 ((o.1.conn 1).exports 0).registered 1 := by
  have reached : Reached (init, []) (observed step noteGifts) (fun _ _ => True)
      (([.exportCap 0 1 1, arrives 0 (provideFrame 7 1), arrives 1 (acceptFrame 3 1)] :
        List Action).foldl (observed step noteGifts) (init, [])) := reached_any _
  have gifts : (([.exportCap 0 1 1, arrives 0 (provideFrame 7 1), arrives 1 (acceptFrame 3 1)] :
      List Action).foldl (observed step noteGifts) (init, [])).2 =
        [.pass 0 1 (1, 1), .endow 0 (1, 1)] := by
    decide +kernel
  have used : (((([.exportCap 0 1 1, arrives 0 (provideFrame 7 1), arrives 1 (acceptFrame 3 1)] :
      List Action).foldl (observed step noteGifts) (init, [])).1.conn 1).exports 0).used = true := by
    decide +kernel
  exact ⟨gifts, used, (authority_derived reached 1).1 0 used⟩

/-! ## One id for a server -/

/-- Every action keeps one id for a server on every connection. -/
theorem oneId_step {s : Net} (sound : s.Sound) (one : ∀ k, (s.conn k).OneId) (a : Action) (k : Nat) :
    ((s.step a).conn k).OneId := by
  have update {k' : Nat} {c : Conn} (changed : c.OneId) :
      (Function.update s.conn k' c k).OneId := by
    by_cases here : k = k'
    · rw [here, Function.update_self]
      exact changed
    · rw [Function.update_of_ne here]
      exact one k
  have does := does sound a
  generalize s.step a = s' at does
  cases does with
  | unread _ => exact one k
  | @handled k' env data msg w _ _ handling =>
      refine update ?_
      cases handling.sourced with
      | within within => exact (one k').within within
      | bootstrapped _ exported same => exact ((one k').exportCap exported).within (.of_eq same)
      | claimed _ exported same => exact ((one k').exportCap exported).within (.of_eq same)
  | @exported k' _ _ _ _ exported => exact update ((one k').exportCap exported)
  | full => exact one k
  | @worked _ k' _ _ exports _ _ => exact update ((one k').within (.of_eq exports))

/-- A server has one id on a connection: in every run, whatever the peers
send, no two exports in use on a connection are for the same server, all have
their place in the table, and exporting a server that is already exported gives
the id it has and counts one more reference. -/
theorem one_id_for_server {s : Net} (reached : Reached init step (fun _ _ => True) s) (k : Nat) :
    (s.conn k).OneId ∧ ∀ e, ((s.conn k).exports e).used = true → ∀ dispatch,
      (s.conn k).exportCap ((s.conn k).exports e).server dispatch =
        (some e, (s.conn k).retain e) := by
  have kept : s.Sound ∧ ∀ k, (s.conn k).OneId := by
    induction reached with
    | start => exact ⟨sound_init, fun _ => Conn.oneId_init⟩
    | @step s _ a _ ih => exact ⟨(does ih.1 a).sound ih.1, oneId_step ih.1 ih.2 a⟩
  exact ⟨kept.2 k, fun e used dispatch => (kept.2 k).found used dispatch⟩

/-- The server accepted on connection 1 has an id there, and keeps it. -/
theorem one_id_for_accepted :
    let s := ([.exportCap 0 1 1, arrives 0 (provideFrame 7 1), arrives 1 (acceptFrame 3 1)] :
      List Action).foldl step init
    ((s.conn 1).exportCap 1 1).1 = some 0 := by
  have reached : Reached init step (fun _ _ => True)
      (([.exportCap 0 1 1, arrives 0 (provideFrame 7 1), arrives 1 (acceptFrame 3 1)] :
        List Action).foldl step init) := reached_any _
  have used : (((([.exportCap 0 1 1, arrives 0 (provideFrame 7 1), arrives 1 (acceptFrame 3 1)] :
      List Action).foldl step init).conn 1).exports 0) = ⟨true, 1, 1, 1⟩ := by
    decide +kernel
  have again := (one_id_for_server reached 1).2 0 (by rw [used]) 1
  rw [used] at again
  exact congrArg Prod.fst again

end Net

end CapnpJanet.Rpc
