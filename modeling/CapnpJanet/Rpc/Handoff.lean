import CapnpJanet.Rpc.Told

/-!
# Handing a capability to a third vat

An introducer provides a capability of a vat under a nonce, and later the
recipient accepts it on a connection of its own.  Whatever arrives meanwhile on
any connection, as long as it does not mention the nonce, the provision stays
where it is, and the recipient gets the capability that was provided.
-/

namespace CapnpJanet.Rpc

open ByteMemory Builder Run

/-! ## A provision that waits -/

/-- The only provision that offers a capability under a nonce. -/
structure Vat.Pins (v : Vat) (n i : Nat) (registered : Registered) : Prop where
  index : i < maxProvisions
  offers : (v.provisions i).Offers n
  registered : (v.provisions i).registered = registered
  alone : ∀ j < maxProvisions, (v.provisions j).Offers n → j = i

/-- A message neither provides nor accepts under a nonce. -/
structure Incoming.Avoids (msg : Incoming) (n : Nat) (c : Conn) : Prop where
  accept : msg.which = msgAccept → msg.presents ≠ some n
  provide : msg.which = msgProvide → ∀ eid, msg.offers c ≠ some (eid, n)

section
variable {msg : Incoming} {c c' : Conn} {v v' : Vat} {sent : List (List UInt8)} {n i : Nat}
  {registered : Registered}

/-- An entry that offers nothing under the nonce may change into one that does
not either. -/
theorem Vat.Pins.setProvision (pins : v.Pins n i registered) {j : Nat} (apart : j ≠ i)
    {p : Provision} (other : ¬p.Offers n) : (v.setProvision j p).Pins n i registered := by
  have same : (v.setProvision j p).provisions i = v.provisions i := by
    rw [Vat.setProvision_provisions, if_neg apart.symm]
  constructor
  · exact pins.index
  · rw [same]
    exact pins.offers
  · rw [same]
    exact pins.registered
  · intro k index offers
    rw [Vat.setProvision_provisions] at offers
    split at offers
    · exact absurd offers other
    · exact pins.alone k index offers

/-- What waits is what an `Accept` of its nonce finds. -/
theorem Vat.Pins.claimable (pins : v.Pins n i registered) : v.claimable n = some i := by
  cases claims : v.claimable n with
  | none =>
      have unfound := firstIndex_eq_none claims i pins.index
      obtain ⟨used, open', nonce⟩ := pins.offers
      simp [used, open', nonce] at unfound
  | some j =>
      obtain ⟨index, used, open', nonce⟩ := claimable_some claims
      rw [pins.alone j index ⟨used, open', nonce⟩]

/-- A message that avoids the nonce leaves the provision in its place. -/
theorem Handling.pins (handling : Handling msg c v c' v' sent) (pins : v.Pins n i registered)
    (avoids : msg.Avoids n c) : v'.Pins n i registered := by
  obtain ⟨used, open', nonce⟩ := pins.offers
  cases handling with
  | quiet _ _ _ => exact pins
  | finished _ => exact pins
  | released _ => exact pins
  | refused _ _ _ _ => exact pins
  | bootstrapped _ _ _ _ => exact pins
  | called _ _ _ => exact pins
  | joinRefused _ _ _ => exact pins
  | joined _ _ _ => exact pins
  | completed _ _ _ _ => exact pins
  | echoed _ _ _ _ => exact pins
  | @provided j eid other _ which offers free _ =>
      apply pins.setProvision
      · rintro rfl
        obtain ⟨-, unused, -⟩ := firstIndex_eq_some free
        simp [used] at unused
      · rintro ⟨-, -, same⟩
        apply avoids.provide which eid
        rw [offers, ← same]
  | @taken j eid other _ _ which presents claims _ _ _ =>
      obtain ⟨-, -, -, same⟩ := claimable_some claims
      apply pins.setProvision
      · rintro rfl
        apply avoids.accept which
        rw [presents, ← same, nonce]
      · rintro ⟨inUse, -, -⟩
        cases inUse
  | @held j eid other _ which presents _ claims _ =>
      obtain ⟨-, -, -, same⟩ := claimable_some claims
      apply pins.setProvision
      · rintro rfl
        apply avoids.accept which
        rw [presents, ← same, nonce]
      · rintro ⟨-, closed, -⟩
        cases closed
  | @lifted j _ lifts _ =>
      obtain ⟨-, held⟩ := Net.liftable_some lifts
      apply pins.setProvision
      · rintro rfl
        rw [open'] at held
        cases held
      · rintro ⟨inUse, -, -⟩
        cases inUse

end

namespace Net

/-- An action that does not mention a nonce. -/
def AvoidsNonce (n : Nat) (s : Net) (a : Action) : Prop :=
  ∀ k env data msg, a = .deliver k env data → readIncoming data = some msg →
    msg.Avoids n (s.conn k)

/-- Actions that do not mention the nonce leave the provision in its place. -/
theorem pins_step {s : Net} (sound : s.Sound) {n i : Nat} {registered : Registered}
    (pins : s.vat.Pins n i registered) {a : Action} (avoids : AvoidsNonce n s a) :
    (s.step a).vat.Pins n i registered := by
  have does := does sound a
  generalize s.step a = s' at does
  cases does with
  | unread _ => exact pins
  | @handled k env data msg w read _ handling =>
      exact handling.pins pins (avoids k env data msg rfl read)
  | exported _ => exact pins
  | full => exact pins
  | worked _ _ _ => exact pins

/-- A provision waits, whatever arrives, until its nonce is mentioned. -/
theorem pins_of_reached {s s' : Net} (sound : s.Sound) {n i : Nat} {registered : Registered}
    (pins : s.vat.Pins n i registered) (reached : Reached s step (AvoidsNonce n) s') :
    s'.Sound ∧ s'.vat.Pins n i registered := by
  induction reached with
  | start => exact ⟨sound, pins⟩
  | @step s a _ avoids ih => exact ⟨(does ih.1 _).sound ih.1, pins_step ih.1 ih.2 avoids⟩

end Net

/-! ## The handoff -/

/-- What a vat does with a `Provide` that it can record. -/
theorem handleProvide_records (env : Env) {msg : Incoming} {w : World} {eid nonce i : Nat}
    (offers : msg.offers w.conn = some (eid, nonce))
    (free : firstIndex maxProvisions (fun i => !(w.vat.provisions i).used) = some i) :
    (handleProvide env msg.message msg.body msg.left w).2.vat =
      w.vat.setProvision i { w.vat.provisions i with
        used := true
        nonce := nonce
        server := (w.conn.exports eid).server
        dispatch := (w.conn.exports eid).dispatch
        exportId := eid
        questionId := msg.questionId
        embargoed := false } := by
  obtain ⟨flat, -, sends⟩ := World.sendEmptyReturn_eq
    { w with conn := w.conn.retain _, vat := w.vat.setProvision i _ } env
    (getU32_lt msg.message msg.body 0)
  rw [handleProvide_provides env offers free]
  exact congrArg (fun result => result.2.vat) sends

/-- A provision that nothing else shares its nonce with is recorded. -/
theorem Vat.pins_of_provided {v : Vat} {n i : Nat} (index : i < maxProvisions)
    (unknown : ∀ j < maxProvisions, ¬(v.provisions j).Offers n) {p : Provision} (offers : p.Offers n) :
    (v.setProvision i p).Pins n i p.registered := by
  have here : (v.setProvision i p).provisions i = p := by
    rw [Vat.setProvision_provisions, if_pos rfl]
  constructor
  · exact index
  · rwa [here]
  · rw [here]
  · intro j small other
    by_contra apart
    rw [Vat.setProvision_provisions, if_neg apart] at other
    exact unknown j small other

/-- A provision that has been claimed is not found again. -/
theorem Vat.Pins.claimed {v : Vat} {n i eid : Nat} {registered : Registered}
    (pins : v.Pins n i registered) :
    (v.setProvision i { v.provisions i with exportId := eid, used := false }).claimable n = none := by
  cases claims : (v.setProvision i
      { v.provisions i with exportId := eid, used := false }).claimable n with
  | none => rfl
  | some j =>
      obtain ⟨index, used, open', nonce⟩ := claimable_some claims
      rw [Vat.setProvision_provisions] at used open' nonce
      split at used
      · cases used
      · next apart =>
        rw [if_neg apart] at open' nonce
        exact absurd (pins.alone j index ⟨used, open', nonce⟩) apart

/-- A capability is handed to a third vat.  An introducer provides a
capability that it imports from a vat, under a nonce that nothing is offered
for, and the vat has room for it.  Then whatever arrives at the vat on any
connection without mentioning the nonce: when the recipient accepts the nonce on
a connection of its own, and this has room for the capability, one frame comes
back, in which the recipient reads the id of an export of the server that was
provided, and nobody finds the nonce any more. -/
theorem handoff_reaches_recipient {s : Net} (sound : s.Sound) {n : Nat}
    (unknown : ∀ i < maxProvisions, ¬(s.vat.provisions i).Offers n)
    {introducer : Conn} (v : Vat) {asking : Env} {e port : Nat} {host : Option (List UInt8)}
    (provides : (Deed.ask asking (.provide e host port n)).Talks introducer) {k : Nat}
    (small : e < maxExports) (used : ((s.conn k).exports e).used = true)
    (room : ∃ i < maxProvisions, (s.vat.provisions i).used = false) (env : Env) :
    ∃ provide, ((Deed.ask asking (.provide e host port n)).run introducer v).sent = [provide] ∧
      ∀ s', Reached (s.step (.deliver k env provide)) Net.step (Net.AvoidsNonce n) s' →
        ∀ recipient v' accepting, (Deed.ask accepting (.accept n false)).Talks recipient →
          ∀ k' eid c', (s'.conn k').exportCap ((s.conn k).exports e).server
              ((s.conn k).exports e).dispatch = (some eid, c') →
            ∀ env', ∃ accept reply,
              ((Deed.ask accepting (.accept n false)).run recipient v').sent = [accept] ∧
                s'.sends (.deliver k' env' accept) = [reply] ∧
                (((s'.step (.deliver k' env' accept)).conn k').exports eid).used = true ∧
                (((s'.step (.deliver k' env' accept)).conn k').exports eid).server =
                  ((s.conn k).exports e).server ∧
                (s'.step (.deliver k' env' accept)).vat.claimable n = none ∧
                ∀ hearing c'' v'' i, c''.questionFind recipient.nextQuestionId = some i →
                  (handle hearing reply c'' v'').2.conn.answerCapId recipient.nextQuestionId = eid := by
  obtain ⟨provide, run, msg, read, heard⟩ := deed_heard introducer v provides
  obtain ⟨which, -, -, offered, -⟩ := heard
  refine ⟨provide, by rw [run], fun s' reached recipient v' accepting accepts k' eid c' exported
    env' => ?_⟩
  -- the provision is recorded
  have offers : msg.offers (s.conn k) = some (e, n) := by
    rw [offered, Conn.imported, if_pos ⟨small, used⟩]
    rfl
  obtain ⟨i, free⟩ : ∃ i, firstIndex maxProvisions (fun i => !(s.vat.provisions i).used) = some i := by
    cases free : firstIndex maxProvisions (fun i => !(s.vat.provisions i).used) with
    | some i => exact ⟨i, rfl⟩
    | none =>
        obtain ⟨i, index, unused⟩ := room
        have taken := firstIndex_eq_none free i index
        simp [unused] at taken
  have vat : (s.step (.deliver k env provide)).vat =
      (handleProvide env msg.message msg.body msg.left (World.start (s.conn k) s.vat)).2.vat := by
    have handled : (handle env provide (s.conn k) s.vat).2 =
        (handleProvide env msg.message msg.body msg.left (World.start (s.conn k) s.vat)).2 := by
      rw [handle, read]
      dsimp only
      rw [handleIncoming, which]
      rfl
    rw [Net.step_deliver read, handled]
    rfl
  have recorded := handleProvide_records env (w := World.start (s.conn k) s.vat) offers free
  rw [← vat] at recorded
  have pins : (s.step (.deliver k env provide)).vat.Pins n i ((s.conn k).exports e).registered := by
    rw [recorded]
    exact Vat.pins_of_provided (firstIndex_eq_some free).1 unknown ⟨rfl, rfl, rfl⟩
  -- it waits
  obtain ⟨-, waits⟩ :=
    Net.pins_of_reached ((Net.does sound (.deliver k env provide)).sound sound) pins reached
  obtain ⟨server, dispatch⟩ := Prod.mk.inj waits.registered
  rw [← server, ← dispatch] at exported
  rw [← server]
  -- it is claimed
  obtain ⟨accept, run', msg', read', heard'⟩ := deed_heard recipient v' accepts
  have qidLt : recipient.nextQuestionId < 2 ^ 32 := by
    cases accepts with
    | ask _ qidLt _ _ => exact qidLt
  have handled := handle_accept read' heard' waits.claimable exported env'
  obtain ⟨index, inUse, hosts, -, -⟩ := Conn.exportCap_some exported
  obtain ⟨reply, sends, reaches⟩ := capReturn_reaches (World.start c'
    (s'.vat.setProvision i { s'.vat.provisions i with exportId := eid, used := false })) env' qidLt
    index
  have conn : ((s'.step (.deliver k' env' accept)).conn k').exports = c'.exports := by
    rw [Net.step_deliver read', handled, sends]
    change (Function.update s'.conn k' _ k').exports = _
    rw [Function.update_self]
    exact (World.answerKeep_exports c' recipient.nextQuestionId reply).1
  refine ⟨accept, reply, by rw [run'], ?_, ?_, ?_, ?_, reaches⟩
  · rw [Net.sends, handled, sends]
    rfl
  · rw [conn]
    exact inUse
  · rw [conn]
    exact hosts
  · rw [Net.step_deliver read', handled, sends]
    exact waits.claimed

/-- A vat that has exported a capability on its first connection. -/
def providing : Net := Net.init.step (.exportCap 0 1 1)

/-- An export on a connection. -/
theorem Net.step_exportCap_conn (s : Net) (k server dispatch : Nat) :
    (s.step (.exportCap k server dispatch)).conn k = ((s.conn k).exportCap server dispatch).2 := by
  simp [Net.step, Net.setConn]

/-- A step on the first connection leaves the second one alone. -/
theorem providing_apart (s : Net) (env : Env) (data : List UInt8) :
    (s.step (.deliver 0 env data)).conn 1 = s.conn 1 := by
  rw [Net.step]
  split
  · rfl
  · rfl

/-- The capability is handed to the peer of the second connection, on which another
one is exported meanwhile, after a call on the first connection. -/
theorem handoff_reaches_second : ∃ provide accept reply,
    let served := (providing.step (.deliver 0 (returningEnv 0) provide)).step
      (.deliver 0 (returningEnv 0) servedCallFrame)
    ((Deed.ask (returningEnv 0) (.provide 0 (some [104]) 1 5)).run Conn.init Vat.init).sent =
        [provide] ∧
      (served.step (.exportCap 1 2 2)).sends (.deliver 1 (returningEnv 0) accept) = [reply] ∧
      (handle (returningEnv 0) reply (Conn.init.claimed 0) Vat.init).2.conn.answerCapId 0 = 1 := by
  have sound : providing.Sound := (Net.does Net.sound_init (.exportCap 0 1 1)).sound Net.sound_init
  have asks {request : Request} (sound : request.Sound 0) :
      (Deed.ask (returningEnv 0) request).Talks Conn.init :=
    .ask (i := 0) rfl (by decide) sound fun _ => rfl
  obtain ⟨provide, sent, handoff⟩ := handoff_reaches_recipient sound (n := 5)
    (fun _ _ offers => absurd offers.1 Bool.false_ne_true) Vat.init
    (asks (.provide (show 0 < 2 ^ 32 by decide) (show [104].length < maxHost by decide)
      (show 1 < 2 ^ 16 by decide) (by decide)))
    (show 0 < maxExports by decide) (show ((providing.conn 0).exports 0).used = true from rfl)
    ⟨0, by decide, rfl⟩ (returningEnv 0)
  -- neither a call nor an export mentions the nonce
  have silent (s : Net) : s.AvoidsNonce 5 (.deliver 0 (returningEnv 0) servedCallFrame) := by
    rintro k env data msg delivered read
    obtain ⟨msg', read', -, isCall, -⟩ := servedCall_read
    obtain ⟨rfl, rfl, rfl⟩ := Action.deliver.inj delivered
    obtain rfl := Option.some.inj (read.symm.trans read')
    exact ⟨fun isProvide => absurd (isCall.symm.trans isProvide) (by decide),
      fun isAccept => absurd (isCall.symm.trans isAccept) (by decide)⟩
  have second : (((providing.step (.deliver 0 (returningEnv 0) provide)).step
      (.deliver 0 (returningEnv 0) servedCallFrame)).step (.exportCap 1 2 2)).conn 1 =
        (Conn.init.exportCap 2 2).2 := by
    have apart : ((providing.step (.deliver 0 (returningEnv 0) provide)).step
        (.deliver 0 (returningEnv 0) servedCallFrame)).conn 1 = Conn.init := by
      rw [providing_apart, providing_apart]
      rfl
    simp only [Net.step_exportCap_conn, apart]
  obtain ⟨accept, reply, -, replied, -, -, -, reads⟩ := handoff _
    ((Reached.start.step (silent _)).step (a := .exportCap 1 2 2) nofun) Conn.init Vat.init
    (returningEnv 0) (asks (.accept (by decide))) 1 1 _ (by rw [second]; rfl) (returningEnv 0)
  exact ⟨provide, accept, reply, sent, replied, reads (returningEnv 0) _ Vat.init 0 rfl⟩

end CapnpJanet.Rpc
