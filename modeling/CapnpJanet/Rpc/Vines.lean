import CapnpJanet.Rpc.Asking
import CapnpJanet.Rpc.Notices
import Mathlib.Data.List.TakeWhile

/-!
# Introductions and their vines

A vine is held from the descriptor that introduces a capability until the
application closes the introduction.  Closing sends the `Release` of the vine and
empties the entry, whether the `Release` is taken or not.  Nothing else empties
an entry, and nothing else that a connection does of its own accord sends a
`Release`.
-/

namespace CapnpJanet.Rpc

open Builder Run Outcome

/-! ## What a message is answered with -/

/-- The messages that a connection sends in answer to one. -/
def replyTags : List Nat := [msgReturn, msgUnimplemented, msgDisembargo]

/-- If a peer reads the frame, it reads one of these messages. -/
def Tagged (tags : List Nat) (flat : List UInt8) : Prop :=
  ∀ msg, readIncoming flat = some msg → msg.which ∈ tags

theorem Headed.tagged {b : Builder} {tag : Nat} (headed : Headed b tag) {flat : List UInt8}
    (done : b.serialize = .ok flat) : Tagged [tag] flat := fun _ read =>
  List.mem_singleton.mpr (which_serialize done headed.few headed.head headed.size read).1

theorem Tagged.mono {tags tags' : List Nat} {flat : List UInt8} (tagged : Tagged tags flat)
    (sub : ∀ tag ∈ tags, tag ∈ tags') : Tagged tags' flat :=
  fun msg read => sub _ (tagged msg read)

theorem tagged_of_returnOf {flat : List UInt8} {info : ReturnInfo}
    (read : returnOf flat = some info) : Tagged replyTags flat := by
  intro msg incoming
  rw [which_of_returnOf read incoming]
  decide

/-- Building and sending a frame that starts like a message. -/
theorem build_headed (env : Env) {frame : BuildM Unit} {tag : Nat}
    (ends : Ends (frame Builder.init) (fun _ b => Headed b tag) fun _ => True) (w : World) :
    ∀ flat ∈ (w.build frame (w.flush env)).2.sent, flat ∈ w.sent ∨ Tagged [tag] flat := by
  intro flat member
  unfold World.build at member
  cases built : frame Builder.init with
  | error _ _ =>
      rw [built] at member
      exact .inl member
  | ok _ b =>
      rw [built] at member ends
      dsimp only at member
      unfold World.flush at member
      cases done : b.serialize with
      | error _ =>
          rw [done] at member
          exact .inl member
      | ok last =>
          rw [done] at member
          rcases List.mem_append.mp member with old | new
          · exact .inl old
          · rw [List.mem_singleton.mp new]
            exact .inr (Headed.tagged ends done)

section
variable (env : Env) {data : List UInt8} {msg : Incoming} {c : Conn} {v : Vat}

theorem handleDisembargo_tagged (m : Message) (body : Ptr) (left : Nat) (w : World)
    (idle : liftedBy m body w.vat = none) :
    ∀ flat ∈ (handleDisembargo env m body left w).2.sent,
      flat ∈ w.sent ∨ Tagged [msgDisembargo] flat := by
  unfold liftedBy at idle
  unfold handleDisembargo
  split
  · exact fun flat member => .inl member
  · next isStruct =>
    dsimp only
    split
    · next context =>
      rw [if_pos ⟨not_not.mp isStruct, context⟩] at idle
      unfold releaseProvideEmbargo
      rw [idle]
      exact fun flat member => .inl member
    · split
      · exact fun flat member => .inl member
      · exact build_headed env ((disembargoEcho_loopback m _ _ _).mono
          (fun _ _ back => back.toHeaded) fun _ _ => trivial) w

/-- A message that is echoed is answered with its kind of echo. -/
theorem handleIncoming_tagged (asks : msg.asks = []) (inert : msg.Inert v) :
    ∀ flat ∈ (handleIncoming env data msg (World.start c v)).2.sent, Tagged replyTags flat := by
  have none (flat : List UInt8) (member : flat ∈ ([] : List (List UInt8))) : Tagged replyTags flat :=
    absurd member List.not_mem_nil
  have unasked : ¬(msg.which = msgBootstrap ∨ msg.which = msgCall ∨ msg.which = msgJoin ∨
      (msg.which = msgProvide ∨ msg.which = msgAccept) ∧ msg.body.kind = .struct) := by
    intro asked
    rw [Incoming.asks, if_pos asked] at asks
    cases asks
  rw [not_or, not_or, not_or] at unasked
  obtain ⟨notBootstrap, notCall, notJoin, noStruct⟩ := unasked
  unfold handleIncoming
  dsimp only
  rw [if_neg notBootstrap, if_neg notCall, if_neg inert.notFinish, if_neg inert.notRelease,
    if_neg notJoin]
  split
  · next which =>
    intro flat member
    have idle : liftedBy msg.message msg.body v = Option.none := by
      have noLift := inert.noLift
      rwa [Incoming.lifts, if_pos which] at noLift
    rcases handleDisembargo_tagged env _ _ _ (World.start c v) idle flat member with old | tagged
    · exact none flat old
    · exact tagged.mono (by decide)
  · split
    · rw [show (handleReturn msg.message msg.body data msg.left (World.start c v)).sent = [] from
        handleReturn_sent _ _ _ _ _]
      exact none
    · split
      · next which =>
        rw [handleProvide, if_pos fun isStruct => noStruct ⟨.inl which, isStruct⟩]
        exact none
      · split
        · next which =>
          rw [handleAccept, if_pos fun isStruct => noStruct ⟨.inr which, isStruct⟩]
          exact none
        · intro flat member
          rcases build_headed env (unimplementedEcho_headed _ _ _) (World.start c v) flat member
            with old | tagged
          · exact none flat old
          · exact tagged.mono (by decide)

/-- A message is answered with `Return`s, or it is one that is echoed. -/
theorem Handling.returns_or_echoes {c' : Conn} {v' : Vat} {frames : List (List UInt8)}
    (handling : Handling msg c v c' v' frames) :
    (∀ flat ∈ frames, ∃ info, returnOf flat = some info) ∨ msg.asks = [] ∧ msg.Inert v := by
  have nothing : ∀ flat ∈ ([] : List (List UInt8)), ∃ info, returnOf flat = some info := nofun
  have one {last : List UInt8} {qid which : Nat} {hosted : List Nat}
      (isReturn : IsReturn last qid which hosted) :
      ∀ flat ∈ [last], ∃ info, returnOf flat = some info := by
    intro flat member
    rw [List.mem_singleton.mp member]
    exact ⟨_, isReturn.read⟩
  cases handling with
  | quiet _ _ _ => exact .inl nothing
  | finished _ => exact .inl nothing
  | released _ => exact .inl nothing
  | refused _ _ isReturn _ => exact .inl (one isReturn)
  | bootstrapped _ _ isReturn _ => exact .inl (one isReturn.toIsReturn)
  | called _ _ isReturn => exact .inl (one isReturn)
  | provided _ _ _ isReturn => exact .inl (one isReturn)
  | taken _ _ _ _ isReturn _ => exact .inl (one isReturn.toIsReturn)
  | held _ _ _ _ _ => exact .inl nothing
  | lifted _ isReturn => exact .inl (one isReturn.toIsReturn)
  | joinRefused _ _ isReturn => exact .inl (one isReturn.toIsReturn)
  | joined _ _ _ => exact .inl nothing
  | completed _ _ _ answers =>
      refine .inl fun flat member => ?_
      obtain ⟨i, -, isReturn⟩ := answers.mem member
      exact ⟨_, isReturn.read⟩
  | echoed asks _ inert _ => exact .inr ⟨asks, inert⟩

/-- A connection answers a message with a `Return` or an echo. -/
theorem handle_tagged (data : List UInt8) (sound : Sound c v) :
    ∀ flat ∈ (handle env data c v).2.sent, Tagged replyTags flat := by
  have none (flat : List UInt8) (member : flat ∈ ([] : List (List UInt8))) : Tagged replyTags flat :=
    absurd member List.not_mem_nil
  cases read : readIncoming data with
  | none =>
      rw [deliver_unread v env read]
      exact none
  | some msg =>
      have handles : Handles msg (World.start c v) _ := handleIncoming_handles env data sound
      obtain ⟨frames, sent, handling⟩ := handles
      rw [show (World.start c v).sent = [] from rfl, List.nil_append] at sent
      rw [handle, read]
      dsimp only
      rcases handling.returns_or_echoes with returns | ⟨asks, inert⟩
      · rw [sent]
        intro flat member
        obtain ⟨info, isReturn⟩ := returns flat member
        exact tagged_of_returnOf isReturn
      · exact handleIncoming_tagged env asks inert

end

/-! ## Descriptors -/

/-- A `thirdPartyHosted` entry of a cap table, with the values it carries. -/
inductive Descriptor (m : Message) (table : Ptr) : (vineId nonce port : Nat) → List UInt8 → Prop
  | entry {i l₀ l₁ l₂ l₃ l₄ : Nat} {desc tpcd id vat : Ptr} {host : List UInt8}
      (elem : Message.listGetStruct table i Ptr.zero = (.ok, desc))
      (tag : m.getU16 desc capDescTagOff 0 = capDescTagThirdPartyHosted)
      (tpcdRead : m.getp desc 0 Ptr.zero l₀ = ⟨.ok, tpcd, l₁⟩)
      (idRead : m.getp tpcd 0 Ptr.zero l₁ = ⟨.ok, id, l₂⟩)
      (vatRead : m.getp id 0 Ptr.zero l₂ = ⟨.ok, vat, l₃⟩)
      (hostRead : m.getText vat 0 l₃ = (.ok, host, l₄)) :
      Descriptor m table (m.getU32 tpcd 0 0) (m.getU64 id 0 0) (m.getU16 vat 0 0) host

/-- What the `host` buffer of an introduction holds, read as a C string. -/
def Introduction.hostString (x : Introduction) : List UInt8 := x.host.takeWhile (· ≠ 0)

/-- An introduction carries the values of a descriptor of the message. -/
def Introduction.From (x : Introduction) (msg : Incoming) : Prop :=
  ∃ table, Descriptor msg.message table x.vineId x.nonce x.port x.hostString

theorem hostString_eq {x : Introduction} (noNul : 0 ∉ x.host) : x.hostString = x.host := by
  unfold Introduction.hostString
  rw [List.takeWhile_eq_self_iff]
  intro byte member
  simp only [ne_eq, decide_not, Bool.not_eq_eq_eq_not, Bool.not_true, decide_eq_false_iff_not]
  rintro rfl
  exact noNul member

theorem resolved_ok {r : Resolved} (ok : r.rc = .ok) : r = ⟨.ok, r.out, r.left⟩ := by
  cases r
  cases ok
  rfl

/-- What is read from an entry are the values of its descriptor. -/
theorem readIntroduction_some {m : Message} {table : Ptr} {i left left' : Nat} {x : Introduction}
    (read : readIntroduction m table i left = (some x, left')) :
    x.vineId < 2 ^ 32 ∧ Descriptor m table x.vineId x.nonce x.port x.host := by
  unfold readIntroduction at read
  split at read
  · next desc elem =>
    split at read
    · cases read
    · next tag =>
      dsimp only at read
      split at read
      · cases read
      · next tpcd =>
        split at read
        · cases read
        · next id =>
          split at read
          · cases read
          · next vat =>
            split at read
            · cases read
            · next fits =>
              rw [not_or, not_not] at tpcd id vat fits
              cases read
              exact ⟨getU32_lt _ _ _, .entry elem (not_not.mp tag) (resolved_ok tpcd.1)
                (resolved_ok id.1) (resolved_ok vat.1) (Prod.ext fits.1 rfl)⟩
  · cases read

theorem introductionsOf_mem {m : Message} {table : Ptr} {n left : Nat} {x : Introduction}
    (member : x ∈ (introductionsOf m table n left).1) :
    x.vineId < 2 ^ 32 ∧ Descriptor m table x.vineId x.nonce x.port x.host := by
  induction n with
  | zero => cases member
  | succ n ih =>
      rw [introductionsOf] at member
      dsimp only at member
      rcases List.mem_append.mp member with old | new
      · exact ih old
      · rw [Option.mem_toList] at new
        exact readIntroduction_some (Prod.ext new rfl)

theorem payloadIntroductions_mem {m : Message} {payload : Ptr} {left : Nat} {x : Introduction}
    (member : x ∈ payloadIntroductions m payload left) :
    x.vineId < 2 ^ 32 ∧ ∃ table, Descriptor m table x.vineId x.nonce x.port x.host := by
  unfold payloadIntroductions at member
  split at member
  · cases member
  · dsimp only at member
    split at member
    · cases member
    · obtain ⟨small, descriptor⟩ := introductionsOf_mem member
      exact ⟨small, _, descriptor⟩

/-- A message introduces what its descriptors say. -/
theorem introduces_mem {msg : Incoming} {x : Introduction} (member : x ∈ msg.introduces) :
    x.vineId < 2 ^ 32 ∧ ∃ table, Descriptor msg.message table x.vineId x.nonce x.port x.host := by
  unfold Incoming.introduces at member
  split at member
  · dsimp only at member
    split at member
    · cases member
    · exact payloadIntroductions_mem member
  · dsimp only at member
    split at member
    · exact payloadIntroductions_mem member
    · cases member

/-! ## The book of a connection -/

/-- What an observer of a connection writes down: the messages it has read, the
introductions that have left its table, and the `Release`s it has handed to its
send callback of its own accord, each with whether the callback took it. -/
structure VineBook where
  heard : List Incoming
  closed : List Introduction
  released : List (Nat × Nat × Bool)

/-- The `Release`s among frames handed over after others. -/
def handedReleases (env : Env) : (before frames : List (List UInt8)) → List (Nat × Nat × Bool)
  | _, [] => []
  | before, flat :: rest =>
      (releaseOf flat).toList.map (fun r => (r.1, r.2, env.send before flat == 0)) ++
        handedReleases env (before ++ [flat]) rest

/-- The introductions that were in use and are no longer there. -/
def closedBy (c c' : Conn) : List Introduction :=
  ((List.range maxIntroductions).filter fun i =>
    (c.introductions i).used && c'.introductions i != c.introductions i).map c.introductions

namespace Deed

/-- The message that a deed brings. -/
def heard : Deed → List Incoming
  | .deliver _ data => (readIncoming data).toList
  | _ => []

/-- The `Release`s that the connection itself sends: while it handles a message,
and when an introduction is closed. -/
def releases (c : Conn) (v : Vat) : Deed → List (Nat × Nat × Bool)
  | .deliver env data => handedReleases env [] (handle env data c v).2.sent
  | .introductionDone env nonce =>
      handedReleases env [] ((World.start c v).introductionDone env nonce).2.sent
  | _ => []

end Deed

/-- Write down what happens to connection `k`. -/
def noteVines (k : Nat) (s : Net) (a : Nat × Deed) (book : VineBook) : VineBook :=
  if a.1 = k then
    ⟨book.heard ++ a.2.heard, book.closed ++ closedBy (s.conn k) ((s.act a).conn k),
      book.released ++ a.2.releases (s.conn k) s.vat⟩
  else book

/-! ## What one deed does to the introductions -/

section
variable {c : Conn} (v : Vat) (env : Env)

theorem closedBy_eq_nil {c' : Conn}
    (kept : ∀ i, (c.introductions i).used = true → c'.introductions i = c.introductions i) :
    closedBy c c' = [] := by
  unfold closedBy
  rw [List.map_eq_nil_iff, List.filter_eq_nil_iff]
  intro i _
  cases used : (c.introductions i).used with
  | false => simp
  | true => simp [kept i used]

/-- Emptying one entry in use closes its introduction. -/
theorem closedBy_empty {c' : Conn} {i : Nat} (small : i < maxIntroductions)
    (used : (c.introductions i).used = true)
    (emptied : c'.introductions = Function.update c.introductions i Introduction.zero) :
    closedBy c c' = [c.introductions i] := by
  have only : (List.range maxIntroductions).filter (fun j =>
      (c.introductions j).used && c'.introductions j != c.introductions j) = [i] := by
    have test : ∀ j ∈ List.range maxIntroductions, ((c.introductions j).used &&
        c'.introductions j != c.introductions j) = (j == i) := by
      intro j _
      rw [emptied]
      by_cases here : j = i
      · have apart : Introduction.zero ≠ c.introductions i := by
          intro same
          rw [← same] at used
          cases used
        rw [here, Function.update_self, used]
        simpa using apart
      · rw [Function.update_of_ne here]
        simp [here]
    rw [List.filter_congr test, List.filter_beq,
      List.count_eq_one_of_mem List.nodup_range (List.mem_range.mpr small)]
    rfl
  rw [closedBy, only]
  rfl

/-- A message puts its introductions into free entries. -/
theorem deliver_introductions (data : List UInt8) (i : Nat) :
    (handle env data c v).2.conn.introductions i = c.introductions i ∨
      (c.introductions i).used = false ∧ ∃ msg, readIncoming data = some msg ∧
        (handle env data c v).2.conn.introductions i ∈ msg.introduces := by
  cases read : readIncoming data with
  | none =>
      rw [deliver_unread v env read]
      exact .inl rfl
  | some msg =>
      have entry := addIntroductions_entry c msg.introduces i
      have noted {c' : Conn}
          (same : c'.introductions = (c.addIntroductions msg.introduces).introductions) :
          c'.introductions i = c.introductions i ∨ (c.introductions i).used = false ∧
            ∃ msg', some msg = some msg' ∧ c'.introductions i ∈ msg'.introduces := by
        rw [same]
        exact entry.imp_right fun new => ⟨new.1, msg, rfl, new.2⟩
      cases deliver_learns v env read with
      | nothing _ _ same => exact .inl (congrFun same.introductions i)
      | called _ same => exact noted same.introductions
      | returned _ same => exact noted same.introductions

/-- No `Release` is among the answers to a message. -/
theorem handedReleases_tagged (before : List (List UInt8)) {frames : List (List UInt8)}
    (tagged : ∀ flat ∈ frames, Tagged replyTags flat) : handedReleases env before frames = [] := by
  induction frames generalizing before with
  | nil => rfl
  | cons flat rest ih =>
      have silent : releaseOf flat = none := by
        unfold releaseOf
        cases read : readIncoming flat with
        | none => rfl
        | some msg =>
            have which := tagged flat List.mem_cons_self msg read
            refine if_neg fun isRelease => ?_
            rw [isRelease] at which
            revert which
            decide
      rw [handedReleases, silent, ih _ fun other member => tagged other (List.mem_cons_of_mem _ member)]
      rfl

/-- Closing an introduction that is not held does nothing. -/
theorem introductionDone_unknown {nonce : Nat} (unknown : c.introductionFind nonce = none) :
    (World.start c v).introductionDone env nonce = (-1, World.start c v) := by
  have same : (World.start c v).conn.introductionFind nonce = none := unknown
  rw [World.introductionDone, same]

/-- The connection once an entry of its introductions is emptied. -/
def Conn.introductionDrop (c : Conn) (i : Nat) : Conn :=
  { c with introductions := Function.update c.introductions i Introduction.zero }

/-- Closing an introduction sends the `Release` of its vine, and empties its
entry. -/
theorem introductionDone_known {nonce i : Nat} (found : c.introductionFind nonce = some i)
    (small : (c.introductions i).vineId < 2 ^ 32) :
    ∃ flat, releaseOf flat = some ((c.introductions i).vineId, 1) ∧
      (World.start c v).introductionDone env nonce =
        (0, { World.start c v with conn := c.introductionDrop i, sent := [flat] }) := by
  obtain ⟨flat, released, sends⟩ := sendRelease_eq (World.start c v) env small
    (show 1 < 2 ^ 32 by decide)
  have same : (World.start c v).conn.introductionFind nonce = some i := found
  refine ⟨flat, released, ?_⟩
  rw [World.introductionDone, same]
  dsimp only
  rw [show (World.start c v).conn = c from rfl, sends]
  rfl

/-- The other deeds keep out of the table of introductions. -/
theorem Deed.run_introductions {d : Deed} (noFrame : ∀ env data, d ≠ .deliver env data)
    (notDone : ∀ env nonce, d ≠ .introductionDone env nonce) :
    (d.run c v).conn.introductions = c.introductions := by
  cases d with
  | deliver env data => exact absurd rfl (noFrame env data)
  | introductionDone env nonce => exact absurd rfl (notDone env nonce)
  | ask env request =>
      have asks := request_asks (World.start c v) env request
      change ((World.start c v).request env request).2.conn.introductions = _
      generalize (World.start c v).request env request = result at asks ⊢
      cases asks with
      | refused => rfl
      | failed _ _ => rfl
      | asked _ _ _ _ => rfl
  | finish env qid =>
      rw [finish_conn, Conn.finished]
      split
      · rfl
      · rfl
  | release env importId count =>
      rw [Deed.run, sendRelease_conn]
      rfl
  | disembargo env provideQid =>
      have same : ((World.start c v).sendDisembargoProvide env provideQid).2.conn = c :=
        buildFlush_conn env _
      rw [Deed.run, same]
  | exportCap server dispatch => exact (exportCap_sameAsked c server dispatch).introductions
  | setBootstrap server dispatch => rfl

theorem introductionFind_some {nonce i : Nat} (found : c.introductionFind nonce = some i) :
    i < maxIntroductions ∧ (c.introductions i).used = true ∧ (c.introductions i).nonce = nonce := by
  obtain ⟨small, holds, -⟩ := firstIndex_eq_some found
  simp only [Bool.and_eq_true, beq_iff_eq] at holds
  exact ⟨small, holds⟩

end

/-! ## Runs -/

namespace Net

/-- On connection `k` the `Release` of a vine is taken when its introduction is
closed, and the hosts that are introduced have no NUL in them. -/
def PicksUp (k : Nat) (s : Net) (a : Nat × Deed) : Prop :=
  a.1 = k →
    (∀ env nonce, a.2 = .introductionDone env nonce → ∀ i flat,
      (s.conn k).introductionFind nonce = some i →
        releaseOf flat = some (((s.conn k).introductions i).vineId, 1) → env.send [] flat = 0) ∧
    ∀ env data msg, a.2 = .deliver env data → readIncoming data = some msg →
      ∀ x ∈ msg.introduces, 0 ∉ x.host

/-- The book of connection `k` is in order. -/
structure InOrder (k : Nat) (o : Net × VineBook) : Prop where
  sound : o.1.Sound
  paired : o.2.released = o.2.closed.map fun x => (x.vineId, 1, true)
  known : ∀ i, ((o.1.conn k).introductions i).used = true → ∃ msg ∈ o.2.heard,
    (o.1.conn k).introductions i ∈ msg.introduces ∧ 0 ∉ ((o.1.conn k).introductions i).host

/-- What a deed on connection `k` has to do for the book to stay in order: the
`Release`s are those of the introductions closed, and what is new in the table
comes from the message it brings. -/
theorem InOrder.act {k : Nat} {s : Net} {book : VineBook} (kept : InOrder k (s, book)) {d : Deed}
    (paired : d.releases (s.conn k) s.vat =
      (closedBy (s.conn k) (d.run (s.conn k) s.vat).conn).map fun x => (x.vineId, 1, true))
    (known : ∀ i, ((d.run (s.conn k) s.vat).conn.introductions i).used = true →
      (d.run (s.conn k) s.vat).conn.introductions i = (s.conn k).introductions i ∨
        ∃ msg ∈ d.heard, (d.run (s.conn k) s.vat).conn.introductions i ∈ msg.introduces ∧
          0 ∉ ((d.run (s.conn k) s.vat).conn.introductions i).host) :
    InOrder k (observed Net.act (noteVines k) (s, book) (k, d)) := by
  refine ⟨kept.sound.act (k, d), ?_, ?_⟩
  · rw [observed, noteVines, if_pos rfl]
    dsimp only
    rw [act_conn_self, kept.paired, paired, List.map_append]
  · rw [observed, noteVines, if_pos rfl]
    dsimp only
    rw [act_conn_self]
    intro i used
    rcases known i used with same | ⟨msg, member, new⟩
    · rw [same] at used ⊢
      obtain ⟨msg, member, old⟩ := kept.known i used
      exact ⟨msg, List.mem_append_left _ member, old⟩
    · exact ⟨msg, List.mem_append_right _ member, new⟩

/-- Every deed keeps the book in order. -/
theorem InOrder.step {k : Nat} {o : Net × VineBook} (kept : InOrder k o) {a : Nat × Deed}
    (picks : PicksUp k o.1 a) : InOrder k (observed Net.act (noteVines k) o a) := by
  obtain ⟨s, book⟩ := o
  obtain ⟨k', d⟩ := a
  by_cases here : k' = k
  · subst here
    obtain ⟨taken, noNul⟩ := picks rfl
    by_cases isFrame : ∃ env data, d = .deliver env data
    · obtain ⟨env, data, rfl⟩ := isFrame
      have places := deliver_introductions (c := s.conn k') s.vat env data
      refine kept.act ?_ fun i used => ?_
      · rw [Deed.releases, Deed.run, closedBy_eq_nil fun i used => (places i).resolve_right fun new => by
          rw [new.1] at used
          cases used]
        exact handedReleases_tagged env [] (handle_tagged env data (kept.sound k'))
      · refine (places i).imp_right ?_
        rintro ⟨-, msg, read, member⟩
        refine ⟨msg, ?_, member, noNul env data msg rfl read _ member⟩
        rw [Deed.heard, read]
        exact List.mem_cons_self
    by_cases isDone : ∃ env nonce, d = .introductionDone env nonce
    · obtain ⟨env, nonce, rfl⟩ := isDone
      cases found : (s.conn k').introductionFind nonce with
      | none =>
          have idle := introductionDone_unknown s.vat env found
          refine kept.act ?_ fun i _ => .inl ?_
          · rw [Deed.releases, Deed.run, idle]
            exact (congrArg (List.map _) (closedBy_eq_nil fun _ _ => rfl)).symm
          · rw [Deed.run, idle]
            rfl
      | some i =>
          obtain ⟨small, used, -⟩ := introductionFind_some found
          obtain ⟨msg, member, introduced, -⟩ := kept.known i used
          obtain ⟨flat, released, done⟩ := introductionDone_known s.vat env found
            (introduces_mem introduced).1
          have accepted := taken env nonce rfl i flat found released
          refine kept.act ?_ fun j used' => .inl ?_
          · rw [Deed.releases, Deed.run, done, closedBy_empty small used rfl]
            dsimp only
            rw [handedReleases, released, handedReleases, accepted]
            rfl
          · rw [Deed.run, done] at used' ⊢
            dsimp only [Conn.introductionDrop] at used' ⊢
            by_cases same : j = i
            · rw [same, Function.update_self] at used'
              cases used'
            · exact Function.update_of_ne same _ _
    · have noFrame : ∀ env data, d ≠ .deliver env data := fun env data same =>
        isFrame ⟨env, data, same⟩
      have notDone : ∀ env nonce, d ≠ .introductionDone env nonce := fun env nonce same =>
        isDone ⟨env, nonce, same⟩
      have same := Deed.run_introductions (c := s.conn k') s.vat noFrame notDone
      refine kept.act ?_ fun i _ => .inl (congrFun same i)
      rw [closedBy_eq_nil fun i _ => congrFun same i]
      cases d with
      | deliver env data => exact absurd rfl (noFrame env data)
      | introductionDone env nonce => exact absurd rfl (notDone env nonce)
      | _ => rfl
  · refine ⟨kept.sound.act (k', d), ?_, ?_⟩
    · rw [observed, noteVines, if_neg here]
      exact kept.paired
    · rw [observed, noteVines, if_neg here]
      dsimp only
      rw [act_conn_of_ne s (Ne.symm here)]
      exact kept.known

/-- Before anything has happened. -/
def vinesInit : Net × VineBook := (init, ⟨[], [], []⟩)

theorem inOrder_of_reached {k : Nat} {o : Net × VineBook}
    (reached : Reached vinesInit (observed act (noteVines k)) (fun o a => PicksUp k o.1 a) o) :
    InOrder k o := by
  induction reached with
  | start => exact ⟨sound_init, rfl, fun _ => nofun⟩
  | step _ met ih => exact ih.step met

/-- A vine is released exactly when its introduction is closed.  In every
run in which the `Release`s are taken and no host has a NUL in it: one `Release`
of its vine, with count 1, goes with each introduction that leaves the table, and
there is no other; what the table holds is what a message has introduced; and
closing a nonce closes at most one introduction, of that nonce. -/
theorem vine_released_once {k : Nat} {o : Net × VineBook}
    (reached : Reached vinesInit (observed act (noteVines k)) (fun o a => PicksUp k o.1 a) o) :
    o.2.released = o.2.closed.map (fun x => (x.vineId, 1, true)) ∧
    (∀ i, ((o.1.conn k).introductions i).used = true → ∃ msg ∈ o.2.heard,
      (o.1.conn k).introductions i ∈ msg.introduces ∧
        ((o.1.conn k).introductions i).From msg) ∧
    ∀ env nonce,
      ((World.start (o.1.conn k) o.1.vat).introductionDone env nonce).1 = -1 ∧
        (∀ i < maxIntroductions, ((o.1.conn k).introductions i).used = true →
          ((o.1.conn k).introductions i).nonce ≠ nonce) ∧
        (o.1.act (k, .introductionDone env nonce)).conn = o.1.conn ∨
      ((World.start (o.1.conn k) o.1.vat).introductionDone env nonce).1 = 0 ∧
        ∃ i < maxIntroductions, ((o.1.conn k).introductions i).used = true ∧
          ((o.1.conn k).introductions i).nonce = nonce ∧
          (o.1.act (k, .introductionDone env nonce)).conn k = (o.1.conn k).introductionDrop i := by
  have kept := inOrder_of_reached reached
  refine ⟨kept.paired, fun i used => ?_, fun env nonce => ?_⟩
  · obtain ⟨msg, member, introduced, noNul⟩ := kept.known i used
    obtain ⟨-, table, descriptor⟩ := introduces_mem introduced
    refine ⟨msg, member, introduced, table, ?_⟩
    rwa [hostString_eq noNul]
  · cases found : (o.1.conn k).introductionFind nonce with
    | none =>
        have idle := introductionDone_unknown o.1.vat env found
        refine .inl ⟨by rw [idle], fun i small used same => ?_, ?_⟩
        · have absent := firstIndex_eq_none found i small
          rw [used, same] at absent
          simp at absent
        · rw [act_conn, Deed.run, idle]
          exact Function.update_eq_self k o.1.conn
    | some i =>
        obtain ⟨small, used, holds⟩ := introductionFind_some found
        obtain ⟨msg, member, introduced, -⟩ := kept.known i used
        obtain ⟨flat, released, done⟩ := introductionDone_known o.1.vat env found
          (introduces_mem introduced).1
        refine .inr ⟨by rw [done], i, small, used, holds, ?_⟩
        rw [act_conn_self, Deed.run, done]

/-- A `Call` whose cap table introduces a capability: the vine 9, the nonce 3,
and the host "a" with port 80. -/
def introducingFrame : List UInt8 :=
  [0, 0, 0, 0, 21, 0, 0, 0,
   0, 0, 0, 0, 1, 0, 1, 0,
   2, 0, 0, 0, 0, 0, 0, 0,
   0, 0, 0, 0, 3, 0, 3, 0,
   7, 0, 0, 0, 0, 0, 0, 0,
   0, 0, 0, 0, 0, 0, 0, 0,
   0, 0, 0, 0, 0, 0, 0, 0,
   0, 0, 0, 0, 0, 0, 0, 0,
   4, 0, 0, 0, 0, 0, 2, 0,
   0, 0, 0, 0, 0, 0, 0, 0,
   0, 0, 0, 0, 0, 0, 0, 0,
   1, 0, 0, 0, 23, 0, 0, 0,
   4, 0, 0, 0, 1, 0, 1, 0,
   5, 0, 0, 0, 0, 0, 0, 0,
   0, 0, 0, 0, 1, 0, 1, 0,
   9, 0, 0, 0, 0, 0, 0, 0,
   0, 0, 0, 0, 1, 0, 1, 0,
   3, 0, 0, 0, 0, 0, 0, 0,
   0, 0, 0, 0, 1, 0, 1, 0,
   80, 0, 0, 0, 0, 0, 0, 0,
   1, 0, 0, 0, 18, 0, 0, 0,
   97, 0, 0, 0, 0, 0, 0, 0]

/-- The introduction that it makes. -/
def introducedVine : Introduction := ⟨true, 3, 9, 80, [97]⟩

/-- The call arrives, and its introduction is closed. -/
def pickup (env : Env) : Net × VineBook :=
  observed act (noteVines 0)
    (observed act (noteVines 0) vinesInit (0, .deliver env introducingFrame))
    (0, .introductionDone env 3)

/-- An introduction that is closed, with its `Release` taken. -/
theorem vine_released_once_pickup : (pickup (returningEnv 0)).2.released = [(9, 1, true)] := by
  have closed : (pickup (returningEnv 0)).2.closed = [introducedVine] := by
    decide +kernel
  have hosts : ((readIncoming introducingFrame).all fun msg =>
      msg.introduces.all fun x => !x.host.contains 0) = true := by
    decide +kernel
  have reached : Reached vinesInit (observed act (noteVines 0)) (fun o a => PicksUp 0 o.1 a)
      (pickup (returningEnv 0)) := by
    have arrives : PicksUp 0 init (0, .deliver (returningEnv 0) introducingFrame) := by
      refine fun _ => ⟨fun _ _ deed => (nomatch deed), fun env data msg deed read x member => ?_⟩
      cases deed
      rw [read, Option.all_some, List.all_eq_true] at hosts
      simpa using hosts x member
    have closes (s : Net) : PicksUp 0 s (0, .introductionDone (returningEnv 0) 3) := by
      refine fun _ => ⟨fun env nonce deed _ _ _ _ => ?_, fun _ _ _ deed => (nomatch deed)⟩
      cases deed
      rfl
    have heard : Reached vinesInit (observed act (noteVines 0)) (fun o a => PicksUp 0 o.1 a)
        (observed act (noteVines 0) vinesInit (0, .deliver (returningEnv 0) introducingFrame)) :=
      Reached.start.step arrives
    exact heard.step (closes _)
  rw [(vine_released_once reached).1, closed]
  rfl

/-- An environment that takes no frame. -/
def refusingEnv : Env := { returningEnv 0 with send := fun _ _ => 1 }

/-- An introduction is gone although its `Release` was not sent. -/
theorem vine_lost : ∃ o : Net × VineBook,
    Reached vinesInit (observed act (noteVines 0)) (fun _ _ => True) o ∧
      o.2.closed = [introducedVine] ∧ o.2.released = [(9, 1, false)] :=
  ⟨pickup refusingEnv, (Reached.start.step trivial).step trivial, by decide +kernel,
    by decide +kernel⟩

end Net

end CapnpJanet.Rpc
