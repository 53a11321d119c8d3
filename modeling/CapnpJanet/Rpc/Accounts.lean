import CapnpJanet.Rpc.JoinObjects
import CapnpJanet.Rpc.Provisions

/-!
# References to exports

The references to an export entry that the peer has been shown, those that wait
with an embargoed `Accept`, and those that it has released.  The reference count
of the entry is what these make up, together with one more for every `Provide`
of it: that one reaches nobody, and nothing takes it back.
-/

namespace CapnpJanet.Rpc

open Builder Run

/-! ## What a message moves -/

/-- The provisions that hold an answer with an export entry back. -/
def Vat.heldFor (v : Vat) (e : Nat) : Nat :=
  ∑ i ∈ Finset.range maxProvisions,
    if (v.provisions i).embargoed ∧ (v.provisions i).exportId = e then 1 else 0

/-- A `Provide` of the entry that is answered with results. -/
def Incoming.pinned (msg : Incoming) (c : Conn) (sent : List (List UInt8)) (e : Nat) : Nat :=
  if msg.which = msgProvide ∧ msg.granted sent ∧ (msg.offers c).map Prod.fst = some e then 1 else 0

/-- The references to the entry that a `Release` drops. -/
def Incoming.dropped (msg : Incoming) (e : Nat) : Nat :=
  if msg.which = msgRelease ∧ msg.questionId = e then msg.message.getU32 msg.body 4 0 else 0

theorem Vat.heldFor_setProvision (v : Vat) {i : Nat} (index : i < maxProvisions) (p : Provision)
    (e : Nat) : (v.setProvision i p).heldFor e +
        (if (v.provisions i).embargoed ∧ (v.provisions i).exportId = e then 1 else 0) =
      v.heldFor e + if p.embargoed ∧ p.exportId = e then 1 else 0 := by
  have replaced := sum_range_replace index
    (f := fun j => if (v.provisions j).embargoed ∧ (v.provisions j).exportId = e then 1 else 0)
    (g := fun j => if ((v.setProvision i p).provisions j).embargoed ∧
      ((v.setProvision i p).provisions j).exportId = e then 1 else 0)
    fun j other => by simp [other]
  simpa [heldFor] using replaced

/-- A provision that holds no answer back, before and after. -/
theorem Vat.heldFor_of_open (v : Vat) {i : Nat} (index : i < maxProvisions) {p : Provision}
    (before : (v.provisions i).embargoed = false) (after : p.embargoed = false) (e : Nat) :
    (v.setProvision i p).heldFor e = v.heldFor e := by
  have replaced := v.heldFor_setProvision index p e
  simpa [before, after] using replaced

theorem dropped_of_other {msg : Incoming} (other : msg.which ≠ msgRelease) (e : Nat) :
    msg.dropped e = 0 := if_neg fun release => other release.1

theorem pinned_of_other {msg : Incoming} (other : msg.which ≠ msgProvide) (c : Conn)
    (sent : List (List UInt8)) (e : Nat) : msg.pinned c sent e = 0 :=
  if_neg fun provide => other provide.1

theorem pinned_of_denied {msg : Incoming} {sent : List (List UInt8)}
    (denied : msg.granted sent = false) (c : Conn) (e : Nat) : msg.pinned c sent e = 0 := by
  refine if_neg ?_
  rintro ⟨-, granted, -⟩
  rw [denied] at granted
  cases granted

/-- What a message does to an export entry, and to the references to it. -/
inductive Moves (msg : Incoming) (c c' : Conn) (v v' : Vat) (sent : List (List UInt8)) (e : Nat) :
    Prop
  | kept (same : c'.exports e = c.exports e)
      (balance : (hosted sent).count e + v'.heldFor e + msg.pinned c sent e = v.heldFor e)
      (drops : (c.exports e).used = true → msg.dropped e = 0)
  | gained (used : (c.exports e).used = true)
      (entry : c'.exports e = { c.exports e with refcount := int32 ((c.exports e).refcount + 1) })
      (balance : (hosted sent).count e + v'.heldFor e + msg.pinned c sent e = v.heldFor e + 1)
      (drops : msg.dropped e = 0)
  | filled {server dispatch : Nat} (free : (c.exports e).used = false)
      (entry : c'.exports e = ⟨true, 1, server, dispatch⟩)
      (balance : (hosted sent).count e + v'.heldFor e + msg.pinned c sent e = v.heldFor e + 1)
      (drops : msg.dropped e = 0)
  | released (used : (c.exports e).used = true)
      (entry : c'.exports e =
        if int32 ((c.exports e).refcount - int32 (msg.dropped e)) ≤ 0 then Export.zero
        else { c.exports e with
          refcount := int32 ((c.exports e).refcount - int32 (msg.dropped e)) })
      (balance : (hosted sent).count e + v'.heldFor e + msg.pinned c sent e = v.heldFor e)

section
variable {msg : Incoming} {c c' : Conn} {v v' : Vat} {sent : List (List UInt8)}

/-- A message that leaves the exports alone and names none. -/
theorem Moves.of_eq (same : c'.exports = c.exports) {e : Nat} (named : hosted sent = [])
    (held : v'.heldFor e = v.heldFor e) (pins : msg.pinned c sent e = 0)
    (notRelease : msg.which ≠ msgRelease) : Moves msg c c' v v' sent e := by
  refine .kept (by rw [same]) ?_ fun _ => dropped_of_other notRelease e
  rw [named, held, pins, List.count_nil, zero_add, add_zero]

/-- A message that counts one more reference. -/
theorem Moves.of_retain {eid e : Nat} (same : c'.exports = (c.retain eid).exports)
    (used : (c.exports eid).used = true)
    (balance : (hosted sent).count e + v'.heldFor e + msg.pinned c sent e =
      v.heldFor e + if eid = e then 1 else 0)
    (notRelease : msg.which ≠ msgRelease) : Moves msg c c' v v' sent e := by
  by_cases here : eid = e
  · subst here
    rw [if_pos rfl] at balance
    refine .gained used ?_ balance (dropped_of_other notRelease eid)
    rw [same, Conn.retain, Conn.setExport_exports, if_pos rfl]
  · rw [if_neg here, add_zero] at balance
    refine .kept ?_ balance fun _ => dropped_of_other notRelease e
    rw [same, Conn.retain, Conn.setExport_exports, if_neg fun there => here there.symm]

/-- A message that exports a server. -/
theorem Moves.of_exportCap {server dispatch eid e : Nat} {c₁ : Conn}
    (exported : c.exportCap server dispatch = (some eid, c₁)) (same : c'.exports = c₁.exports)
    (balance : (hosted sent).count e + v'.heldFor e + msg.pinned c sent e =
      v.heldFor e + if eid = e then 1 else 0)
    (notRelease : msg.which ≠ msgRelease) : Moves msg c c' v v' sent e := by
  rcases Conn.exportCap_cases exported with ⟨used, -, rfl⟩ | ⟨-, free, rfl⟩
  · exact .of_retain same used balance notRelease
  · by_cases here : eid = e
    · subst here
      rw [if_pos rfl] at balance
      have entry : c'.exports eid = ⟨true, 1, server, dispatch⟩ := by
        rw [same, Conn.setExport_exports, if_pos rfl]
      exact .filled free entry balance (dropped_of_other notRelease eid)
    · rw [if_neg here, add_zero] at balance
      refine .kept ?_ balance fun _ => dropped_of_other notRelease e
      rw [same, Conn.setExport_exports, if_neg fun there => here there.symm]

end

theorem Moves.of_released {msg : Incoming} {c : Conn} {v : Vat} (which : msg.which = msgRelease)
    {e : Nat} (index : e < maxExports) :
    Moves msg c (c.released msg.questionId (msg.message.getU32 msg.body 4 0)) v v [] e := by
  have balance : (hosted []).count e + v.heldFor e + msg.pinned c [] e = v.heldFor e := by
    rw [pinned_of_other (by rw [which]; decide)]
    simp [hosted]
  unfold Conn.released
  split
  · next idle =>
    refine .kept rfl balance fun used => if_neg ?_
    rintro ⟨-, rfl⟩
    rcases idle with outside | free
    · omega
    · rw [free] at used
      cases used
  · next busy =>
    rw [not_or] at busy
    dsimp only
    by_cases here : e = msg.questionId
    · subst here
      have drops : msg.dropped msg.questionId = msg.message.getU32 msg.body 4 0 :=
        if_pos ⟨which, rfl⟩
      refine .released (by simpa using busy.2) ?_ balance
      rw [Conn.setExport_exports, if_pos rfl, drops]
    · refine .kept (by simp [here]) balance fun _ => if_neg ?_
      rintro ⟨-, there⟩
      exact here there.symm

theorem offers_some {msg : Incoming} {c : Conn} {eid nonce : Nat}
    (offers : msg.offers c = some (eid, nonce)) :
    eid < maxExports ∧ (c.exports eid).used = true := by
  unfold Incoming.offers at offers
  dsimp only at offers
  split at offers
  · cases offers
  · split at offers
    · cases offers
    · cases resolved : c.resolveTarget msg.message
          (msg.message.getp msg.body 0 Ptr.zero msg.left).out
          (msg.message.getp msg.body 0 Ptr.zero msg.left).left with
      | mk found left =>
          rw [resolved] at offers
          cases found with
          | none => cases offers
          | some id =>
              dsimp only at offers
              split at offers
              · cases offers
              · obtain ⟨rfl, -⟩ := Prod.mk.inj (Option.some.inj offers)
                exact resolveTarget_some (congrArg Prod.fst resolved)

/-- Every message moves references one by one. -/
theorem Handling.moves {msg : Incoming} {c c' : Conn} {v v' : Vat} {frames : List (List UInt8)}
    (handling : Handling msg c v c' v' frames) (sound : Sound c v)
    (records : ∀ i, (v.provisions i).embargoed = true → (v.provisions i).used = true) {e : Nat}
    (index : e < maxExports) : Moves msg c c' v v' frames e := by
  have apart {kind other : Nat} (which : msg.which = kind) (ne : kind ≠ other) :
      msg.which ≠ other := by
    rw [which]
    exact ne
  have shows {eid : Nat} {flat : List UInt8} (isReturn : IsCapReturn flat msg.questionId eid)
      (other : msg.which ≠ msgProvide) {v' : Vat} (held : v'.heldFor e = v.heldFor e) :
      (hosted [flat]).count e + v'.heldFor e + msg.pinned c [flat] e =
        v.heldFor e + if eid = e then 1 else 0 := by
    rw [hosted_single isReturn.toIsReturn, pinned_of_other other, held, List.count_singleton,
      add_zero, add_comm]
    simp only [beq_iff_eq]
  cases handling with
  | quiet alike _ inert =>
      exact .of_eq alike.exports_eq rfl rfl (pinned_of_denied rfl c e) inert.notRelease
  | finished which =>
      refine .of_eq ?_ rfl rfl (pinned_of_denied rfl c e) (apart which (by decide))
      unfold Conn.answerDrop
      split
      · rfl
      · rfl
  | released which => exact .of_released which index
  | refused alike asks isReturn _ =>
      refine .of_eq alike.exports_eq (hosted_single isReturn) rfl
        (pinned_of_denied (granted_of_exception isReturn) c e) fun release => ?_
      have none : msg.asks = [] := if_neg (by
        rw [release]
        simp [msgRelease, msgBootstrap, msgCall, msgJoin, msgProvide, msgAccept])
      rw [none] at asks
      cases asks
  | bootstrapped which exported isReturn _ =>
      exact .of_exportCap exported (World.answerKeep_exports _ _ _).1
        (shows isReturn (apart which (by decide)) rfl) (apart which (by decide))
  | called which alike isReturn =>
      exact .of_eq ((World.answerKeep_exports _ _ _).1.trans alike.exports_eq)
        (hosted_single isReturn) rfl (pinned_of_other (apart which (by decide)) c _ e)
        (apart which (by decide))
  | @provided i eid nonce flat which offers free isReturn =>
      obtain ⟨small, unused, -⟩ := firstIndex_eq_some free
      rw [Bool.not_eq_true'] at unused
      have before : (v.provisions i).embargoed = false := by
        cases held : (v.provisions i).embargoed with
        | false => rfl
        | true => exact (records i held).symm.trans unused
      have pins : msg.pinned c [flat] e = if eid = e then 1 else 0 := by
        unfold Incoming.pinned
        refine if_congr ?_ rfl rfl
        simp [which, offers, granted_of_results isReturn]
      refine .of_retain (World.answerKeep_exports _ _ _).1 (offers_some offers).2 ?_
        (apart which (by decide))
      rw [hosted_single isReturn, v.heldFor_of_open small before rfl, pins, List.count_nil,
        zero_add]
  | @taken i eid nonce c' flat which presents claims exported isReturn =>
      obtain ⟨small, -, before, -⟩ := claimable_some claims
      have after : ({ v.provisions i with exportId := eid, used := false } : Provision).embargoed =
        false := before
      exact .of_exportCap exported (World.answerKeep_exports _ _ _).1
        (shows isReturn (apart which (by decide)) (v.heldFor_of_open small before after e))
        (apart which (by decide))
  | @held i eid nonce c' which presents embargo claims exported =>
      obtain ⟨small, -, before, -⟩ := claimable_some claims
      refine .of_exportCap exported rfl ?_ (apart which (by decide))
      have replaced := v.heldFor_setProvision small { v.provisions i with
        exportId := eid, embargoed := true, acceptQuestionId := msg.questionId } e
      simp only [before, Bool.false_eq_true, false_and, if_false, add_zero, true_and] at replaced
      rw [pinned_of_other (apart which (by decide)), replaced, add_zero,
        show hosted [] = [] from rfl, List.count_nil, zero_add]
  | @lifted i flat lifts isReturn =>
      obtain ⟨small, held⟩ := Net.liftable_some lifts
      have replaced := v.heldFor_setProvision small Provision.zero e
      have which := which_of_lifts lifts
      refine .kept (by rw [(World.answerKeep_exports _ _ _).1]) ?_ fun _ =>
        dropped_of_other (apart which (by decide)) e
      have open' : ¬(Provision.zero.embargoed = true ∧ Provision.zero.exportId = e) :=
        fun both => Bool.false_ne_true both.1
      simp only [held, true_and, if_neg open', add_zero] at replaced
      rw [hosted_single isReturn.toIsReturn, pinned_of_other (apart which (by decide)), add_zero,
        List.count_singleton, ← replaced, add_comm]
      simp only [beq_iff_eq]
  | joinRefused which place isReturn =>
      exact .of_eq rfl (hosted_single isReturn.toIsReturn) rfl
        (pinned_of_other (apart which (by decide)) c _ e) (apart which (by decide))
  | @joined slot pnum c₁ which place _ =>
      have opened := joinPlace_exports place
      have exports : (c₁.setJoin slot (msg.joinPart c₁ slot pnum)).exports = c.exports := opened
      exact .of_eq exports rfl rfl (pinned_of_denied rfl c e) (apart which (by decide))
  | @completed slot pnum c₁ frames which place full answers =>
      have exports := joinPlace_exports place
      obtain ⟨jid, pcount, -, numLt, -, found, -⟩ := joinPlace_some place
      obtain ⟨-, -, count, -, -, -⟩ := joinSlotFind_some sound.joins found
      have parts : (msg.joinPart c₁ slot pnum).partCount = (c₁.joins slot).partCount := rfl
      have named := answers.hosted (by omega)
      have pins := pinned_of_other (apart which (show msgJoin ≠ msgProvide by decide)) c frames e
      cases joined : (msg.joinPart c₁ slot pnum).joined with
      | none =>
          rw [joined] at named
          have same : (c₁.setJoin slot Join.zero).exports = c.exports := exports
          exact .of_eq same named rfl pins (apart which (by decide))
      | some eid =>
          rw [joined] at named
          have live := (joinTarget_some (joined_eq_target (by omega) joined)).2
          rw [exports] at live
          have retained : ((c₁.retain eid).setJoin slot Join.zero).exports =
              (c.retain eid).exports := by
            simp only [Conn.retain, Conn.setExport, Conn.setJoin, exports]
          refine .of_retain retained live ?_ (apart which (by decide))
          rw [named, pins, Option.toList_some, List.count_singleton, add_zero, add_comm]
          simp only [beq_iff_eq]
  | echoed _ silent inert =>
      exact .of_eq rfl (by simp [hosted, hostedIds_of_none silent]) rfl
        (pinned_of_denied (granted_of_silent silent) c e) inert.notRelease

/-! ## Accounts -/

/-- The references to an export entry since its slot was claimed: those shown to
the peer, those pinned by a `Provide`, and those the peer has released. -/
structure Account where
  shown : Nat
  pinned : Nat
  released : Nat
deriving DecidableEq

def Account.zero : Account := ⟨0, 0, 0⟩

/-- The account of an entry after a message. -/
def Account.note (account : Account) (msg : Incoming) (c c' : Conn) (sent : List (List UInt8))
    (e : Nat) : Account :=
  if (c'.exports e).used then
    ⟨account.shown + (hosted sent).count e, account.pinned + msg.pinned c sent e,
      account.released + msg.dropped e⟩
  else Account.zero

/-- The reference count of an entry in use, by its account. -/
structure Books (entry : Export) (held : Nat) (account : Account) : Prop where
  balance : entry.refcount + account.released = account.shown + held + account.pinned
  owed : account.released ≤ account.shown
  positive : 0 < entry.refcount
  small : entry.refcount < 2 ^ 31

/-- An entry and its account agree. -/
def Booked (entry : Export) (held : Nat) (account : Account) : Prop :=
  if entry.used then Books entry held account else account = Account.zero ∧ held = 0

theorem booked_of_used {entry : Export} {held : Nat} {account : Account}
    (used : entry.used = true) : Booked entry held account ↔ Books entry held account := by
  rw [Booked, if_pos used]

theorem booked_of_free {entry : Export} {held : Nat} {account : Account}
    (free : entry.used = false) : Booked entry held account ↔ account = Account.zero ∧ held = 0 := by
  rw [Booked, if_neg (by simp [free])]

/-- Every message keeps the books, as long as the peer releases only what it
was shown and the count fits its word. -/
theorem Moves.booked {msg : Incoming} {c c' : Conn} {v v' : Vat} {sent : List (List UInt8)}
    {e : Nat} (moves : Moves msg c c' v v' sent e) {account : Account}
    (booked : Booked (c.exports e) (v.heldFor e) account)
    (room : (c.exports e).refcount < 2 ^ 31 - 1)
    (owes : msg.dropped e + account.released ≤ account.shown) (fits : msg.dropped e < 2 ^ 31) :
    Booked (c'.exports e) (v'.heldFor e) (account.note msg c c' sent e) := by
  have noted (used : (c'.exports e).used = true) : account.note msg c c' sent e =
      ⟨account.shown + (hosted sent).count e, account.pinned + msg.pinned c sent e,
        account.released + msg.dropped e⟩ := if_pos used
  have cleared (free : (c'.exports e).used = false) :
      account.note msg c c' sent e = Account.zero := if_neg (by simp [free])
  cases moves with
  | kept same balance drops =>
      cases used : (c.exports e).used with
      | true =>
          have books := (booked_of_used used).mp booked
          rw [← same] at used
          rw [booked_of_used used, noted used, same]
          have := books.balance
          have := drops (by rw [← same]; exact used)
          exact ⟨by dsimp only; omega, by dsimp only; omega, books.positive, books.small⟩
      | false =>
          have closed := (booked_of_free used).mp booked
          rw [← same] at used
          rw [booked_of_free used, cleared used]
          exact ⟨rfl, by omega⟩
  | gained used entry balance drops =>
      have books := (booked_of_used used).mp booked
      have positive := books.positive
      have count : int32 ((c.exports e).refcount + 1) = (c.exports e).refcount + 1 :=
        int32_of_range (by omega) (by omega)
      have after : (c'.exports e).used = true := by rw [entry]; exact used
      have total := books.balance
      have owed := books.owed
      rw [booked_of_used after, noted after, entry, count]
      exact ⟨by dsimp only; omega, by dsimp only; omega, by dsimp only; omega,
        by dsimp only; omega⟩
  | filled free entry balance drops =>
      obtain ⟨rfl, none⟩ := (booked_of_free free).mp booked
      have after : (c'.exports e).used = true := by rw [entry]
      rw [booked_of_used after, noted after, entry]
      simp only [Account.zero, zero_add, drops]
      exact ⟨by dsimp only; omega, by dsimp only; omega, by dsimp only; omega,
        by dsimp only; omega⟩
  | released used entry balance =>
      have books := (booked_of_used used).mp booked
      have total := books.balance
      have positive := books.positive
      have small := books.small
      have word : int32 (msg.dropped e) = msg.dropped e := int32_of_range (by omega) (by omega)
      have count : int32 ((c.exports e).refcount - msg.dropped e) =
          (c.exports e).refcount - msg.dropped e := int32_of_range (by omega) (by omega)
      rw [word, count] at entry
      split at entry
      · have after : (c'.exports e).used = false := by rw [entry]; rfl
        rw [booked_of_free after, cleared after]
        exact ⟨rfl, by omega⟩
      · have after : (c'.exports e).used = true := by rw [entry]; exact used
        rw [booked_of_used after, noted after, entry]
        exact ⟨by dsimp only; omega, by dsimp only; omega, by dsimp only; omega,
          by dsimp only; omega⟩

/-! ## Runs of one connection -/

namespace Net

/-- The accounts of the exports on each connection, after an action. -/
def noteAccounts (s : Net) : Action → (Nat → Nat → Account) → Nat → Nat → Account
  | .deliver k env data, accounts =>
      match readIncoming data with
      | none => accounts
      | some msg =>
          let w := (handle env data (s.conn k) s.vat).2
          Function.update accounts k fun e =>
            (accounts k e).note msg (s.conn k) w.conn w.sent e
  | _, accounts => accounts

/-- An action of a run of connection `k` alone: the application sets its
bootstrap capability, or the peer sends a message.  The peer releases only
references it was shown, and no count outgrows its word. -/
inductive Peer (k : Nat) (s : Net) (accounts : Nat → Nat → Account) : Action → Prop
  | bootstrap {server dispatch : Nat} : Peer k s accounts (.setBootstrap k server dispatch)
  | message {env : Env} {data : List UInt8}
      (owes : ∀ msg, readIncoming data = some msg → msg.which = msgRelease →
        msg.message.getU32 msg.body 4 0 < 2 ^ 31 ∧
          msg.message.getU32 msg.body 4 0 + (accounts k msg.questionId).released ≤
            (accounts k msg.questionId).shown)
      (room : ∀ e < maxExports, ((s.conn k).exports e).refcount < 2 ^ 31 - 1) :
      Peer k s accounts (.deliver k env data)

/-- The accounts of connection `k` agree with its exports. -/
def BooksKept (s : Net) (accounts : Nat → Nat → Account) (k : Nat) : Prop :=
  ∀ e < maxExports, Booked ((s.conn k).exports e) (s.vat.heldFor e) (accounts k e)

theorem books_init (k : Nat) : init.BooksKept (fun _ _ => Account.zero) k := by
  intro e _
  have held : init.vat.heldFor e = 0 := Finset.sum_eq_zero fun i _ => if_neg nofun
  exact (booked_of_free rfl).mpr ⟨rfl, held⟩

/-- Every action of the peer keeps the books. -/
theorem books_step {s : Net} {accounts : Nat → Nat → Account} {k : Nat} (sound : s.Sound)
    (wf : s.Wf) (books : s.BooksKept accounts k) {a : Action} (peer : Peer k s accounts a) :
    (s.step a).BooksKept (s.noteAccounts a accounts) k := by
  cases peer with
  | bootstrap =>
      intro e index
      have booked := books e index
      simpa [step, setConn, Conn.setBootstrap, noteAccounts] using booked
  | @message env data owes room =>
      cases read : readIncoming data with
      | none =>
          rw [noteAccounts, step, read]
          exact books
      | some msg =>
          rw [noteAccounts, step_deliver read, read]
          intro e index
          have moves := (handling_deliver sound (k := k) env read).moves (sound k)
            (fun i => (wf.records i).held_used) index
          have booked := books e index
          have lent : msg.dropped e + (accounts k e).released ≤ (accounts k e).shown ∧
              msg.dropped e < 2 ^ 31 := by
            unfold Incoming.dropped
            split
            · next release =>
              obtain ⟨which, rfl⟩ := release
              exact ⟨(owes msg read which).2, (owes msg read which).1⟩
            · refine ⟨?_, by decide⟩
              cases used : ((s.conn k).exports e).used with
              | true =>
                  have owed := ((booked_of_used used).mp booked).owed
                  omega
              | false =>
                  rw [((booked_of_free used).mp booked).1]
                  exact Nat.le_refl 0
          have after := moves.booked booked (room e index) lent.1 lent.2
          simpa [handled] using after

theorem books_of_reached {k : Nat} {o : Net × (Nat → Nat → Account)}
    (reached : Reached (init, fun _ _ => Account.zero) (observed step noteAccounts)
      (fun o a => Peer k o.1 o.2 a) o) : o.1.Sound ∧ o.1.Wf ∧ o.1.BooksKept o.2 k := by
  induction reached with
  | start => exact ⟨sound_init, wf_init, books_init k⟩
  | @step o _ a peer ih =>
      obtain ⟨sound, wf, books⟩ := ih
      exact ⟨(does sound a).sound sound, wf_step wf a, books_step sound wf books peer⟩

/-- The reference count of an entry is what the peer was shown, and what waits
with an embargoed `Accept`, less what the peer has released; and an entry with
nothing left of these is not in use. -/
structure Accounts (s : Net) (k e : Nat) (account : Account) : Prop where
  refcount_eq : ((s.conn k).exports e).refcount =
    (account.shown : Int) + s.vat.heldFor e - account.released
  freed : s.vat.heldFor e = 0 → account.released ≠ account.shown

/-- References are accounted for exactly as long as no `Provide` has pinned
the entry. -/
theorem refcount_accounts_iff {k : Nat} {s : Net} {accounts : Nat → Nat → Account}
    (reached : Reached (init, fun _ _ => Account.zero) (observed step noteAccounts)
      (fun o a => Peer k o.1 o.2 a) (s, accounts))
    {e : Nat} (index : e < maxExports) (used : ((s.conn k).exports e).used = true) :
    s.Accounts k e (accounts k e) ↔ (accounts k e).pinned = 0 := by
  obtain ⟨-, -, books⟩ := books_of_reached reached
  have booked : Books ((s.conn k).exports e) (s.vat.heldFor e) (accounts k e) :=
    (booked_of_used used).mp (books e index)
  have balance := booked.balance
  have positive := booked.positive
  constructor
  · intro accounts
    have counted := accounts.refcount_eq
    omega
  · intro unpinned
    refine ⟨?_, fun held freed => ?_⟩
    · omega
    · omega

/-- A test for `Peer`. -/
def peer (k : Nat) (s : Net) (accounts : Nat → Nat → Account) : Action → Bool
  | .setBootstrap k' _ _ => k' == k
  | .deliver k' _ data => k' == k &&
      ((readIncoming data).all fun msg => msg.which != msgRelease ||
        decide (msg.message.getU32 msg.body 4 0 < 2 ^ 31) &&
          decide (msg.message.getU32 msg.body 4 0 + (accounts k msg.questionId).released ≤
            (accounts k msg.questionId).shown)) &&
      (List.range maxExports).all fun e => decide (((s.conn k).exports e).refcount < 2 ^ 31 - 1)
  | _ => false

theorem peer_sound {k : Nat} {s : Net} {accounts : Nat → Nat → Account} {a : Action}
    (passed : peer k s accounts a = true) : Peer k s accounts a := by
  cases a with
  | deliver k' env data =>
      simp only [peer, Bool.and_eq_true, beq_iff_eq, List.all_eq_true, List.mem_range,
        decide_eq_true_eq] at passed
      obtain ⟨⟨rfl, owes⟩, room⟩ := passed
      refine .message (fun msg read which => ?_) room
      rw [read, Option.all_some] at owes
      simpa [which] using owes
  | exportCap _ _ _ => cases passed
  | setBootstrap k' _ _ =>
      obtain rfl := beq_iff_eq.mp passed
      exact .bootstrap
  | ask _ _ _ _ => cases passed

/-- A `Bootstrap` question. -/
def bootstrapFrame (qid : UInt8) : List UInt8 :=
  [0, 0, 0, 0, 4, 0, 0, 0,
   0, 0, 0, 0, 1, 0, 1, 0,
   8, 0, 0, 0, 0, 0, 0, 0,
   0, 0, 0, 0, 1, 0, 0, 0,
   qid, 0, 0, 0, 0, 0, 0, 0]

/-- The reference of a `Bootstrap` is accounted for. -/
theorem refcount_accounts_bootstrap :
    let o := ([.setBootstrap 0 1 1, arrives 0 (bootstrapFrame 5)] : List Action).foldl
      (observed step noteAccounts) (init, fun _ _ => Account.zero)
    o.1.Accounts 0 0 (o.2 0 0) := by
  have reached : Reached (init, fun _ _ => Account.zero) (observed step noteAccounts)
      (fun o a => Peer 0 o.1 o.2 a) (([.setBootstrap 0 1 1, arrives 0 (bootstrapFrame 5)] :
        List Action).foldl (observed step noteAccounts) (init, fun _ _ => Account.zero)) :=
    Reached.start.of_passes (fun o a => peer_sound) (by decide +kernel)
  exact (refcount_accounts_iff reached (by decide) (by decide +kernel)).mpr (by decide +kernel)

/-- A capability that was bootstrapped and provided, and then released, stays in
the table. -/
def pinnedRun : List Action :=
  [.setBootstrap 0 1 1, arrives 0 (bootstrapFrame 5), arrives 0 (provideFrame 7 1),
    arrives 0 (releaseFrame 0 1)]

/-- The peer has released all it was shown, but the entry is in use. -/
theorem refcount_of_pinned :
    let o := pinnedRun.foldl (observed step noteAccounts) (init, fun _ _ => Account.zero)
    Reached (init, fun _ _ => Account.zero) (observed step noteAccounts)
        (fun o a => Peer 0 o.1 o.2 a) o ∧
      ((o.1.conn 0).exports 0).used = true ∧ o.2 0 0 = ⟨1, 1, 1⟩ ∧ ¬o.1.Accounts 0 0 (o.2 0 0) := by
  have reached : Reached (init, fun _ _ => Account.zero) (observed step noteAccounts)
      (fun o a => Peer 0 o.1 o.2 a)
      (pinnedRun.foldl (observed step noteAccounts) (init, fun _ _ => Account.zero)) :=
    Reached.start.of_passes (fun o a => peer_sound) (by decide +kernel)
  have facts : (((pinnedRun.foldl (observed step noteAccounts)
      (init, fun _ _ => Account.zero)).1.conn 0).exports 0).used = true ∧
      (pinnedRun.foldl (observed step noteAccounts) (init, fun _ _ => Account.zero)).2 0 0 =
        ⟨1, 1, 1⟩ := by
    decide +kernel
  obtain ⟨used, account⟩ := facts
  refine ⟨reached, used, account, fun accounts => ?_⟩
  have held : (pinnedRun.foldl (observed step noteAccounts)
      (init, fun _ _ => Account.zero)).1.vat.heldFor 0 = 0 := by
    decide +kernel
  exact accounts.freed held (by rw [account])

end Net

end CapnpJanet.Rpc
