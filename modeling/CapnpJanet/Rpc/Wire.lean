import CapnpJanet.Logic.Lending
import CapnpJanet.Rpc.Authority
import CapnpJanet.Rpc.Learning

/-!
# Capabilities in hand

A vat and a peer that are joined by a queue in each direction.  The references
that the vat's returns show are on their way to the peer, the peer's releases
and calls on their way to the vat, and each side works on whatever has arrived.
A peer that releases only references it has received, and calls only what it has
in hand, never finds a capability gone: each of its calls is dispatched, and to
the server that the capability was given out for.
-/

namespace CapnpJanet.Rpc

open Builder Lending Run

/-! ## What frames carry -/

/-- The export that a call of an imported capability names. -/
def Incoming.calls (msg : Incoming) : Option Nat :=
  if msg.which ≠ msgCall then none
  else
    let left := (callIntroductions msg.message msg.body msg.left Conn.init).2
    let target := msg.message.getp msg.body 0 Ptr.zero left
    if target.rc ≠ .ok ∨ target.out.kind ≠ .struct ∨ msg.message.getU16 target.out 4 0 ≠ 0 then none
    else some (msg.message.getU32 target.out 0 0)

/-- The references to exports that frames show, give back and use. -/
def freight : Freight (Fin maxExports) (List UInt8) where
  shows frame e := (hostedIds frame).count e.val
  returns frame e := ((readIncoming frame).map fun msg => msg.dropped e).getD 0
  uses frame e := ∃ msg, readIncoming frame = some msg ∧ msg.calls = some e.val

theorem total_shows (frames : List (List UInt8)) (e : Fin maxExports) :
    total freight.shows frames e = (hosted frames).count e.val := by
  induction frames with
  | nil => rfl
  | cons frame rest ih =>
      rw [total_cons, ih]
      simp [freight, hosted]

/-- The budget left after the cap table of a call does not depend on the
connection. -/
theorem callIntroductions_left (m : Message) (call : Ptr) (left : Nat) (c c' : Conn) :
    (callIntroductions m call left c).2 = (callIntroductions m call left c').2 := by
  unfold callIntroductions
  dsimp only
  split
  · rfl
  · unfold Conn.noteIntroductions
    dsimp only
    split
    · rfl
    · split
      · rfl
      · rw [noteEntries_eq, noteEntries_eq]

/-- The export that a message names as its target, if it is in use. -/
def Conn.imported (c : Conn) (importedCap : Nat) : Option Nat :=
  if importedCap < maxExports ∧ (c.exports importedCap).used then some importedCap else none

/-- A call of an imported capability makes a dispatch call to it, if it is
exported. -/
theorem callRequest_eq {msg : Incoming} {e : Nat} (calls : msg.calls = some e) (c : Conn) :
    msg.which = msgCall ∧ callRequest msg.message msg.body msg.left c =
      (c.imported e).map (callDispatch msg.message msg.body msg.left c) := by
  unfold Incoming.calls at calls
  split at calls
  · cases calls
  · next which =>
    rw [not_not] at which
    dsimp only at calls
    split at calls
    · cases calls
    · next target =>
      have named := Option.some.inj calls
      simp only [not_or, not_not] at target
      obtain ⟨found, isStruct, tag⟩ := target
      have exports := (callIntroductions_noting msg.message msg.body msg.left c).exports_eq
      rw [callIntroductions_left _ _ _ Conn.init c] at found isStruct tag named
      refine ⟨which, ?_⟩
      unfold callRequest callTarget Conn.resolveTarget Conn.imported
      dsimp only
      rw [if_neg (not_not.mpr found), if_neg (not_not.mpr isStruct), tag, if_neg (by decide),
        if_neg (not_not.mpr rfl), named, exports]
      by_cases live : e < maxExports ∧ (c.exports e).used = true
      · rw [if_pos live]
        dsimp only [Option.map_some]
        unfold callDispatch
        rw [exports]
      · rw [if_neg live]
        rfl

/-- A call of an imported capability that is exported makes a dispatch call to
it. -/
theorem callRequest_of_calls {msg : Incoming} {c : Conn} {e : Nat} (calls : msg.calls = some e)
    (small : e < maxExports) (used : (c.exports e).used = true) : msg.which = msgCall ∧
      callRequest msg.message msg.body msg.left c =
        some (callDispatch msg.message msg.body msg.left c e) := by
  obtain ⟨which, request⟩ := callRequest_eq calls c
  refine ⟨which, ?_⟩
  rw [request, Conn.imported, if_pos ⟨small, used⟩]
  rfl

/-- The dispatch call is made for the server of the export. -/
theorem requests_of_calls {msg : Incoming} {c : Conn} {e : Nat} (calls : msg.calls = some e)
    (small : e < maxExports) (used : (c.exports e).used = true) :
    ∃ d, msg.requests c = [d] ∧ d.registered = (c.exports e).registered ∧
      d.interfaceId = msg.message.getU64 msg.body 8 0 ∧
      d.methodId = msg.message.getU16 msg.body 4 0 := by
  obtain ⟨which, request⟩ := callRequest_of_calls calls small used
  refine ⟨callDispatch msg.message msg.body msg.left c e, ?_, rfl, rfl, rfl⟩
  rw [Incoming.requests, if_pos which, request]
  rfl

/-! ## The lending vat -/

/-- A vat, the accounts of its exports, and the registration that each id stood
for when it was shown last. -/
structure Host where
  net : Net
  accounts : Nat → Nat → Account
  known : Nat → Registered

namespace Host

/-- A fresh vat. -/
def init : Host := ⟨Net.init, fun _ _ => Account.zero, fun _ => (0, 0)⟩

variable (k : Nat)

/-- A frame arrives on connection `k`. -/
def receive (h : Host) (env : Env) (frame : List UInt8) : Host × List (List UInt8) :=
  let a := Action.deliver k env frame
  let sent := h.net.sends a
  (⟨h.net.step a, h.net.noteAccounts a h.accounts, fun e =>
    if e ∈ hosted sent then (((h.net.step a).conn k).exports e).registered else h.known e⟩, sent)

/-- The application sets the bootstrap capability of connection `k`. -/
def serve (h : Host) (bootstrap : Registered) : Host :=
  { h with net := h.net.step (.setBootstrap k bootstrap.1 bootstrap.2) }

/-- No reference count of connection `k` is about to outgrow its word. -/
def Calm (h : Host) : Prop := ∀ e < maxExports, ((h.net.conn k).exports e).refcount < 2 ^ 31 - 1

/-- The references to an export that the peer has been shown and not released. -/
def lent (h : Host) (e : Fin maxExports) : Nat :=
  (h.accounts k e).shown - (h.accounts k e).released

/-- What a host keeps on connection `k`. -/
structure Kept (h : Host) : Prop where
  sound : h.net.Sound
  wf : h.net.Wf
  books : h.net.BooksKept h.accounts k
  known : ∀ e < maxExports, ((h.net.conn k).exports e).used = true → 0 < (h.accounts k e).shown →
    h.known e = ((h.net.conn k).exports e).registered

theorem kept_init : init.Kept k :=
  ⟨Net.sound_init, Net.wf_init, Net.books_init k, nofun⟩

end Host

section
variable {msg : Incoming} {c c' : Conn} {v v' : Vat} {sent : List (List UInt8)} {e : Nat}
  {account : Account}

/-- What a message shows is lent, and what it drops is not any more. -/
theorem Moves.lends (moves : Moves msg c c' v v' sent e)
    (booked : Booked (c.exports e) (v.heldFor e) account)
    (owes : msg.dropped e + account.released ≤ account.shown) :
    (account.note msg c c' sent e).shown - (account.note msg c c' sent e).released +
      msg.dropped e = account.shown - account.released + (hosted sent).count e := by
  cases after : (c'.exports e).used with
  | true =>
      rw [Account.note, if_pos after]
      dsimp only
      omega
  | false =>
      rw [Account.note, if_neg (by simp [after])]
      simp only [Account.zero]
      cases moves with
      | kept same balance _ =>
          rw [same] at after
          obtain ⟨rfl, none⟩ := (booked_of_free after).mp booked
          simp only [Account.zero] at owes ⊢
          omega
      | gained used entry _ _ =>
          rw [entry, used] at after
          cases after
      | filled _ entry _ _ =>
          rw [entry] at after
          cases after
      | released used entry balance =>
          have books := (booked_of_used used).mp booked
          have total := books.balance
          have positive := books.positive
          have small := books.small
          have word : int32 (msg.dropped e) = msg.dropped e :=
            int32_of_range (by omega) (by omega)
          have count : int32 ((c.exports e).refcount - msg.dropped e) =
              (c.exports e).refcount - msg.dropped e := int32_of_range (by omega) (by omega)
          rw [word, count] at entry
          split at entry
          · omega
          · rw [entry, used] at after
            cases after

/-- An entry that references are still known of is not filled anew. -/
theorem Moves.registered_eq (moves : Moves msg c c' v v' sent e)
    (booked : Booked (c.exports e) (v.heldFor e) account) (known : 0 < account.shown)
    (used : (c'.exports e).used = true) :
    (c.exports e).used = true ∧ (c'.exports e).registered = (c.exports e).registered := by
  cases moves with
  | kept same _ _ =>
      rw [same] at used ⊢
      exact ⟨used, rfl⟩
  | gained before entry _ _ =>
      rw [entry]
      exact ⟨before, rfl⟩
  | filled free _ _ _ =>
      obtain ⟨rfl, -⟩ := (booked_of_free free).mp booked
      exact absurd known (Nat.lt_irrefl 0)
  | released before entry _ =>
      rw [entry] at used ⊢
      split at used
      · cases used
      · next some =>
        rw [if_neg some]
        exact ⟨before, rfl⟩

end

namespace Host

variable {k : Nat} {h : Host} {env : Env} {frame : List UInt8}

/-- A frame that cannot be read changes nothing. -/
theorem receive_unread (unread : readIncoming frame = none) : h.receive k env frame = (h, []) := by
  have step : h.net.step (.deliver k env frame) = h.net := by rw [Net.step, unread]
  have sends : h.net.sends (.deliver k env frame) = [] := by
    rw [Net.sends, handle, unread]
    rfl
  have accounts : h.net.noteAccounts (.deliver k env frame) h.accounts = h.accounts := by
    rw [Net.noteAccounts, unread]
  unfold receive
  simp only [step, sends, accounts, hosted, List.flatMap_nil, List.not_mem_nil, if_false]

/-- What a frame that is read does to an export and its account. -/
structure Received (k : Nat) (h : Host) (env : Env) (frame : List UInt8) (msg : Incoming)
    (e : Nat) : Prop where
  moves : Moves msg (h.net.conn k) ((h.receive k env frame).1.net.conn k) h.net.vat
    (h.receive k env frame).1.net.vat (h.receive k env frame).2 e
  noted : (h.receive k env frame).1.accounts k e = (h.accounts k e).note msg (h.net.conn k)
    ((h.receive k env frame).1.net.conn k) (h.receive k env frame).2 e

theorem received_of_read {msg : Incoming} (kept : h.Kept k) (env : Env)
    (read : readIncoming frame = some msg) {e : Nat} (index : e < maxExports) :
    Received k h env frame msg e := by
  have moves := (Net.handling_deliver kept.sound (k := k) env read).moves (kept.sound k)
    (fun i => (kept.wf.records i).held_used) index
  have conn : (h.receive k env frame).1.net.conn k =
      (handle env frame (h.net.conn k) h.net.vat).2.conn := by
    simp only [receive, Net.step_deliver read, Net.handled, Function.update_self]
  have vat : (h.receive k env frame).1.net.vat =
      (handle env frame (h.net.conn k) h.net.vat).2.vat := by
    simp only [receive, Net.step_deliver read, Net.handled]
  have accounts : (h.receive k env frame).1.accounts k e = (h.accounts k e).note msg (h.net.conn k)
      (handle env frame (h.net.conn k) h.net.vat).2.conn
      (handle env frame (h.net.conn k) h.net.vat).2.sent e := by
    simp only [receive, Net.noteAccounts, read, Function.update_self]
  refine ⟨?_, ?_⟩
  · rw [conn, vat]
    exact moves
  · rw [accounts, conn]
    rfl

/-- What a frame gives back of an export. -/
theorem returns_of_read {msg : Incoming} (read : readIncoming frame = some msg)
    (e : Fin maxExports) : freight.returns frame e = msg.dropped e := by
  simp [freight, read]

/-- A frame gives back no more than the peer holds. -/
theorem owes_of_returns {msg : Incoming} (kept : h.Kept k) (read : readIncoming frame = some msg)
    {e : Fin maxExports} (returns : freight.returns frame e ≤ h.lent k e) :
    msg.dropped e + (h.accounts k e).released ≤ (h.accounts k e).shown ∧
      msg.dropped e < 2 ^ 31 := by
  rw [returns_of_read read] at returns
  unfold lent at returns
  have booked := kept.books e e.isLt
  cases used : ((h.net.conn k).exports e).used with
  | true =>
      have books := (booked_of_used used).mp booked
      have total := books.balance
      have owed := books.owed
      have small := books.small
      omega
  | false =>
      obtain ⟨zero, -⟩ := (booked_of_free used).mp booked
      rw [zero] at returns ⊢
      simp only [Account.zero] at returns ⊢
      omega

/-- A frame that arrives keeps the books, and what each id stands for. -/
theorem kept_receive (kept : h.Kept k) (calm : h.Calm k)
    (returns : ∀ e, freight.returns frame e ≤ h.lent k e) :
    (h.receive k env frame).1.Kept k := by
  cases read : readIncoming frame with
  | none =>
      rw [receive_unread read]
      exact kept
  | some msg =>
      refine ⟨(Net.does kept.sound (.deliver k env frame)).sound kept.sound,
        Net.wf_step kept.wf (.deliver k env frame), fun e index => ?_,
        fun e index used shown => ?_⟩
      · obtain ⟨moves, noted⟩ := received_of_read kept env read index
        obtain ⟨owes, fits⟩ := owes_of_returns kept read (returns ⟨e, index⟩)
        rw [noted]
        exact moves.booked (kept.books e index) (calm e index) owes fits
      · obtain ⟨moves, noted⟩ := received_of_read kept env read index
        by_cases named : e ∈ hosted (h.receive k env frame).2
        · exact if_pos named
        · have none : (hosted (h.receive k env frame).2).count e = 0 :=
            List.count_eq_zero_of_not_mem named
          rw [noted, Account.note, if_pos used, none] at shown
          obtain ⟨before, same⟩ := moves.registered_eq (kept.books e index) shown used
          rw [same, ← kept.known e index before shown]
          exact if_neg named

/-- What a frame that arrives shows is lent. -/
theorem lends_receive (kept : h.Kept k) (returns : ∀ e, freight.returns frame e ≤ h.lent k e)
    (e : Fin maxExports) : (h.receive k env frame).1.lent k e + freight.returns frame e =
      h.lent k e + total freight.shows (h.receive k env frame).2 e := by
  rw [total_shows]
  cases read : readIncoming frame with
  | none =>
      rw [receive_unread read]
      simp [freight, read, hosted]
  | some msg =>
      obtain ⟨moves, noted⟩ := received_of_read kept env read e.isLt
      obtain ⟨owes, -⟩ := owes_of_returns kept read (returns e)
      rw [returns_of_read read, lent, noted]
      exact moves.lends (kept.books e e.isLt) owes

/-- The application's bootstrap capability leaves the exports alone. -/
theorem kept_serve (kept : h.Kept k) (bootstrap : Registered) : (h.serve k bootstrap).Kept k := by
  have exports : ((h.serve k bootstrap).net.conn k).exports = (h.net.conn k).exports := by
    simp [serve, Net.step, Net.setConn, Conn.setBootstrap]
  refine ⟨(Net.does kept.sound (.setBootstrap k bootstrap.1 bootstrap.2)).sound kept.sound,
    Net.wf_step kept.wf (.setBootstrap k bootstrap.1 bootstrap.2), fun e index => ?_,
    fun e index used shown => ?_⟩
  · rw [exports]
    exact kept.books e index
  · rw [exports] at used ⊢
    exact kept.known e index used shown

/-- A vat is a lender of references. -/
theorem lender (k : Nat) :
    Lender freight (receive k) (serve k) (Calm k) (Kept k) (lent k) where
  kept _ _ _ kept calm returns := kept_receive kept calm returns
  lends _ _ _ kept _ returns := lends_receive kept returns
  acted _ bootstrap kept _ := kept_serve kept bootstrap
  still _ _ _ _ _ := rfl

end Host

/-! ## The wire -/

/-- A vat and its peer, with the frames on their way between them. -/
abbrev Wire : Type := Line (Fin maxExports) Host (List UInt8)

/-- What a vat and its peer keep. -/
theorem wire_backed {k : Nat} {s : Wire}
    (reached : Reached (Line.init Host.init) (Line.step freight (Host.receive k) (Host.serve k))
      (Line.Fair freight (Host.Calm k)) s) : Backed freight (Host.Kept k) (Host.lent k) s :=
  (Host.lender k).backed (Host.kept_init k) (fun _ => rfl) reached

/-- What is lent is exported, for the server it was given out for. -/
theorem Host.exported_of_lent {k : Nat} {h : Host} (kept : h.Kept k) {e : Fin maxExports}
    (lent : 0 < h.lent k e) : ((h.net.conn k).exports e).used = true ∧
      ((h.net.conn k).exports e).registered = h.known e := by
  have shown : 0 < (h.accounts k e).shown := Nat.lt_of_lt_of_le lent (Nat.sub_le _ _)
  have used : ((h.net.conn k).exports e).used = true := by
    cases used : ((h.net.conn k).exports e).used with
    | true => rfl
    | false =>
        obtain ⟨zero, -⟩ := (booked_of_free used).mp (kept.books e e.isLt)
        rw [zero] at shown
        exact absurd shown (Nat.lt_irrefl 0)
  exact ⟨used, (kept.known e e.isLt used shown).symm⟩

/-- Calls on capabilities in hand reach their servers.  A vat and a peer exchange
frames over two queues, in any interleaving; the peer releases only references it has
received and calls only what stays in its hand, and no refcount of the vat comes to
2^31 - 1, where the `int` would overflow (`Host.Calm`).  Then what the peer has in
hand is exported, for the server it was given out for, and each of its calls, when it
arrives, makes one dispatch call, to that server, for the interface and method it
asks for. -/
theorem calls_reach_servers {k : Nat} {s : Wire}
    (reached : Reached (Line.init Host.init) (Line.step freight (Host.receive k) (Host.serve k))
      (Line.Fair freight (Host.Calm k)) s) :
    (∀ e, s.given e < s.received e → ((s.lender.net.conn k).exports e).used = true ∧
        ((s.lender.net.conn k).exports e).registered = s.lender.known e) ∧
      ∀ env frame rest msg e, s.toLender = frame :: rest → readIncoming frame = some msg →
        msg.calls = some e → e < maxExports →
          ∃ d, (handle env frame (s.lender.net.conn k) s.lender.net.vat).2.dispatched = [d] ∧
            d.registered = s.lender.known e ∧
            d.interfaceId = msg.message.getU64 msg.body 8 0 ∧
            d.methodId = msg.message.getU16 msg.body 4 0 := by
  have backed := wire_backed reached
  refine ⟨fun e hand => Host.exported_of_lent backed.sound (backed.lent_of_hand hand), ?_⟩
  intro env frame rest msg e first read calls small
  have lent := backed.lent_of_use first (e := ⟨e, small⟩) ⟨msg, read, calls⟩
  obtain ⟨used, registered⟩ := Host.exported_of_lent backed.sound lent
  obtain ⟨d, requests, applied, interface, method⟩ := requests_of_calls calls small used
  refine ⟨d, ?_, applied.trans registered, interface, method⟩
  rw [handle, read, handleIncoming_dispatched]
  exact requests

/-- A test for an honest frame. -/
def honest (s : Wire) (frame : List UInt8) : Bool :=
  (List.finRange maxExports).all fun e =>
    decide (s.given e + freight.returns frame e ≤ s.received e) &&
      ((readIncoming frame).all fun msg =>
        msg.calls != some e.val || decide (s.given e + freight.returns frame e < s.received e))

/-- A test for a fair event. -/
def fair (k : Nat) (s : Wire) : Event (List UInt8) Env Registered → Bool
  | .send frame => honest s frame
  | .take => true
  | .arrive _ => (List.range maxExports).all fun e =>
      decide (((s.lender.net.conn k).exports e).refcount < 2 ^ 31 - 1)
  | .work _ => (List.range maxExports).all fun e =>
      decide (((s.lender.net.conn k).exports e).refcount < 2 ^ 31 - 1)

theorem fair_sound {k : Nat} (s : Wire) (event : Event (List UInt8) Env Registered)
    (passed : fair k s event = true) : s.Fair freight (Host.Calm k) event := by
  have calm (passed : (List.range maxExports).all (fun e =>
      decide (((s.lender.net.conn k).exports e).refcount < 2 ^ 31 - 1)) = true) :
      s.lender.Calm k := by
    simpa [Host.Calm] using passed
  cases event with
  | send frame =>
      intro e
      have tested := List.all_eq_true.mp passed e (List.mem_finRange e)
      simp only [Bool.and_eq_true, decide_eq_true_eq] at tested
      refine ⟨tested.1, ?_⟩
      rintro ⟨msg, read, calls⟩
      have stays := tested.2
      rw [read, Option.all_some, calls] at stays
      simpa using stays
  | take => trivial
  | arrive _ => exact calm passed
  | work _ => exact calm passed

/-- The peer asks for the bootstrap capability, takes the answer, and calls
it. -/
def bootstrapAndCall : List (Event (List UInt8) Env Registered) :=
  [.work (9, 7), .send (Net.bootstrapFrame 5), .arrive (returningEnv 0), .take,
    .send (paramsCallFrame 1)]

/-- The call reaches the bootstrap server. -/
theorem calls_reach_bootstrap :
    ∃ d, (handle (returningEnv 0) (paramsCallFrame 1)
        ((bootstrapAndCall.foldl (Line.step freight (Host.receive 0) (Host.serve 0))
          (Line.init Host.init)).lender.net.conn 0)
        (bootstrapAndCall.foldl (Line.step freight (Host.receive 0) (Host.serve 0))
          (Line.init Host.init)).lender.net.vat).2.dispatched = [d] ∧ d.registered = (9, 7) := by
  have reached : Reached (Line.init Host.init) (Line.step freight (Host.receive 0) (Host.serve 0))
      (Line.Fair freight (Host.Calm 0)) (bootstrapAndCall.foldl
        (Line.step freight (Host.receive 0) (Host.serve 0)) (Line.init Host.init)) :=
    Reached.start.of_passes fair_sound (by decide +kernel)
  have first : (bootstrapAndCall.foldl (Line.step freight (Host.receive 0) (Host.serve 0))
      (Line.init Host.init)).toLender = [paramsCallFrame 1] := by
    decide +kernel
  have known : (bootstrapAndCall.foldl (Line.step freight (Host.receive 0) (Host.serve 0))
      (Line.init Host.init)).lender.known 0 = (9, 7) := by
    decide +kernel
  have calling : ((readIncoming (paramsCallFrame 1)).any fun msg => msg.calls == some 0) = true := by
    decide +kernel
  obtain ⟨msg, read, calls⟩ := (Option.any_eq_true _ _).mp calling
  obtain ⟨d, dispatched, applied, -⟩ := (calls_reach_servers reached).2 (returningEnv 0) _ _ msg 0
    first read (beq_iff_eq.mp calls) (by decide)
  exact ⟨d, dispatched, applied.trans known⟩

end CapnpJanet.Rpc
