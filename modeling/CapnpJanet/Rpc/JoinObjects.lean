import CapnpJanet.Rpc.Hosted

/-!
# What a join compares

A part of a join is recorded by the export entry it resolves to, and the entries
are compared when the last part has arrived.  An observer keeps the server that
each part named when it was handled.  The entries stand for these servers as
long as none of them is emptied and filled with another server meanwhile.
-/

namespace CapnpJanet.Rpc

open Builder Run

/-! ## Entries that are filled -/

/-- The servers that a message makes the vat export on its connection. -/
inductive Incoming.Exports (msg : Incoming) (c : Conn) (v : Vat) : Nat → Prop
  | bootstrap (which : msg.which = msgBootstrap) (some : c.bootstrap ≠ 0) :
      msg.Exports c v c.bootstrap
  | accept {i : Nat} (which : msg.which = msgAccept) (finds : msg.finds v = some i) :
      msg.Exports c v (v.provisions i).server

/-- Where the server of an entry in use comes from, when some servers may be
exported. -/
inductive EntryFrom (exports : Nat → Prop) (c c' : Conn) (e : Nat) : Prop
  | kept (used : (c.exports e).used = true) (server : (c'.exports e).server = (c.exports e).server)
  | filled (exported : exports (c'.exports e).server)
      (fills : c.fills (c'.exports e).server = some e)

section
variable {exports : Nat → Prop} {c c₁ c' : Conn} {e : Nat}

theorem EntryFrom.of_eq (same : c'.exports = c.exports) (used : (c'.exports e).used = true) :
    EntryFrom exports c c' e := by
  rw [same] at used
  exact .kept used (by rw [same])

theorem EntryFrom.of_retain {eid : Nat} (same : c'.exports = (c.retain eid).exports)
    (used : (c'.exports e).used = true) : EntryFrom exports c c' e := by
  have kept : (c'.exports e).used = (c.exports e).used ∧
      (c'.exports e).server = (c.exports e).server := by
    rw [same, Conn.retain, Conn.setExport_exports]
    split
    · next here =>
      rw [here]
      exact ⟨rfl, rfl⟩
    · exact ⟨rfl, rfl⟩
  exact .kept (kept.1.symm.trans used) kept.2

theorem EntryFrom.of_exportCap {server dispatch eid : Nat}
    (exported : c.exportCap server dispatch = (some eid, c₁)) (same : c'.exports = c₁.exports)
    (allowed : exports server) (used : (c'.exports e).used = true) : EntryFrom exports c c' e := by
  rcases Conn.exportCap_cases exported with ⟨-, -, rfl⟩ | ⟨fills, -, rfl⟩
  · exact .of_retain same used
  · by_cases here : e = eid
    · subst here
      have named : (c'.exports e).server = server := by
        rw [same]
        simp
      refine .filled ?_ ?_
      · rw [named]
        exact allowed
      · rw [named]
        exact fills
    · have kept : c'.exports e = c.exports e := by
        rw [same]
        simp [here]
      rw [kept] at used
      exact .kept used (by rw [kept])

end

theorem released_used {c : Conn} {id count e : Nat}
    (used : ((c.released id count).exports e).used = true) :
    (c.exports e).used = true ∧
      ((c.released id count).exports e).server = (c.exports e).server := by
  unfold Conn.released at used ⊢
  split at used
  · next idle =>
    rw [if_pos idle]
    exact ⟨used, rfl⟩
  · next busy =>
    rw [if_neg busy]
    dsimp only at used ⊢
    rw [Conn.setExport_exports] at used ⊢
    split at used
    · next here =>
      subst here
      rw [if_pos rfl]
      split at used
      · cases used
      · next stays =>
        rw [if_neg stays]
        exact ⟨used, rfl⟩
    · next other =>
      rw [if_neg other]
      exact ⟨used, rfl⟩

theorem joinSlotFind_exports {c c' : Conn} {jid pcount : Nat} {found : Option Nat}
    (find : c.joinSlotFind jid pcount = (found, c')) : c'.exports = c.exports := by
  unfold Conn.joinSlotFind at find
  split at find
  · rw [← (Prod.mk.inj find).2]
  · split at find
    · rw [← (Prod.mk.inj find).2]
      rfl
    · rw [← (Prod.mk.inj find).2]

theorem joinPlace_exports {msg : Incoming} {c c' : Conn} {slot pnum : Nat}
    (place : msg.joinPlace c = some (slot, c', pnum)) : c'.exports = c.exports := by
  obtain ⟨jid, pcount, -, -, -, found, -⟩ := joinPlace_some place
  exact joinSlotFind_exports found

/-- Entries in use were in use before, for the same server, or have been filled
for an export. -/
theorem Handling.entryFrom {msg : Incoming} {c c' : Conn} {v v' : Vat} {frames : List (List UInt8)}
    (handling : Handling msg c v c' v' frames) {e : Nat} (used : (c'.exports e).used = true) :
    EntryFrom (msg.Exports c v) c c' e := by
  cases handling with
  | quiet alike _ => exact .of_eq alike.exports_eq used
  | finished _ =>
      refine .of_eq ?_ used
      unfold Conn.answerDrop
      split
      · rfl
      · rfl
  | released _ => exact .kept (released_used used).1 (released_used used).2
  | refused alike _ _ _ => exact .of_eq alike.exports_eq used
  | bootstrapped which exported _ some =>
      exact .of_exportCap exported (World.answerKeep_exports _ _ _).1 (.bootstrap which some) used
  | called _ alike _ =>
      exact .of_eq ((World.answerKeep_exports _ _ _).1.trans alike.exports_eq) used
  | provided _ _ _ _ => exact .of_retain (World.answerKeep_exports _ _ _).1 used
  | taken which presents claims exported _ =>
      refine .of_exportCap exported (World.answerKeep_exports _ _ _).1 (.accept which ?_) used
      rw [Incoming.finds, presents]
      exact claims
  | held which presents _ claims exported =>
      refine .of_exportCap exported rfl (.accept which ?_) used
      rw [Incoming.finds, presents]
      exact claims
  | lifted _ _ => exact .of_eq (World.answerKeep_exports _ _ _).1 used
  | joinRefused _ _ _ => exact .of_eq rfl used
  | @joined slot pnum c₁ _ place _ =>
      have opened := joinPlace_exports place
      have exports : (c₁.setJoin slot (msg.joinPart c₁ slot pnum)).exports = c.exports := opened
      exact .of_eq exports used
  | @completed slot pnum c₁ _ _ place _ _ =>
      have exports := joinPlace_exports place
      cases joined : (msg.joinPart c₁ slot pnum).joined with
      | none =>
          rw [joined] at used
          exact .of_eq exports used
      | some eid =>
          rw [joined] at used
          have retained : (c₁.retain eid).exports = (c.retain eid).exports := by
            simp only [Conn.retain, Conn.setExport, exports]
          exact .of_retain retained used
  | echoed _ _ => exact .of_eq rfl used

/-! ## Parts and their servers -/

/-- The server of the export that a part of a join names. -/
def Incoming.joinServer (msg : Incoming) (c : Conn) : Option Nat :=
  (msg.joinTarget c).map fun eid => (c.exports eid).server

/-- The servers that the parts of a connection's joins named when they were
handled, by slot and part. -/
abbrev Servers := Nat → Nat → Option Nat

/-- A part of a join on the connection has been handled. -/
def Servers.note (servers : Servers) (msg : Incoming) (c : Conn) : Servers :=
  if msg.which = msgJoin then
    match msg.joinPlace c with
    | none => servers
    | some (slot, c, pnum) =>
        Function.update servers slot (Function.update (servers slot) pnum (msg.joinServer c))
  else servers

/-- A part of a join waits and is recorded by an export entry. -/
def Conn.Awaits (c : Conn) (slot n e : Nat) : Prop :=
  (c.joins slot).used = true ∧ (c.joins slot).seen n = true ∧ (c.joins slot).eids n = some e

/-- The entries that waiting parts are recorded by, if they are in use, stand for
the servers that the parts named. -/
def Conn.Stands (c : Conn) (servers : Servers) : Prop :=
  ∀ slot n e, c.Awaits slot n e → (c.exports e).used = true →
    servers slot n = some (c.exports e).server

/-- No entry that a waiting part is recorded by is filled with another server. -/
def Conn.Spares (c : Conn) (servers : Servers) (server : Nat) : Prop :=
  ∀ e, c.fills server = some e → ∀ slot n, c.Awaits slot n e → servers slot n = some server

/-- A part that has waited still knows its server. -/
theorem Conn.Stands.waited {c c' : Conn} {servers : Servers} (stands : c.Stands servers)
    {exports : Nat → Prop} (spares : ∀ server, exports server → c.Spares servers server)
    {e slot n : Nat} (from' : EntryFrom exports c c' e) (awaits : c.Awaits slot n e) :
    servers slot n = some (c'.exports e).server := by
  cases from' with
  | kept used same =>
      rw [same]
      exact stands slot n e awaits used
  | filled exported fills => exact spares _ exported e fills slot n awaits

theorem Conn.Awaits.congr {c c' : Conn} (joins : c'.joins = c.joins) {slot n e : Nat}
    (awaits : c'.Awaits slot n e) : c.Awaits slot n e := by
  unfold Conn.Awaits at awaits
  rwa [joins] at awaits

theorem Servers.note_other {servers : Servers} {msg : Incoming} {c : Conn}
    (other : msg.which = msgJoin → msg.joinPlace c = none) : servers.note msg c = servers := by
  unfold note
  split
  · next which => rw [other which]
  · rfl

theorem Servers.note_self {servers : Servers} {msg : Incoming} {c c₁ : Conn} {slot pnum : Nat}
    (which : msg.which = msgJoin) (place : msg.joinPlace c = some (slot, c₁, pnum)) :
    servers.note msg c slot pnum = msg.joinServer c₁ := by
  unfold note
  rw [if_pos which, place]
  simp

theorem Servers.note_of_ne {servers : Servers} {msg : Incoming} {c c₁ : Conn} {slot pnum i n : Nat}
    (which : msg.which = msgJoin) (place : msg.joinPlace c = some (slot, c₁, pnum))
    (other : ¬(i = slot ∧ n = pnum)) : servers.note msg c i n = servers i n := by
  unfold note
  rw [if_pos which, place]
  dsimp only
  by_cases here : i = slot
  · subst here
    rw [Function.update_self, Function.update_of_ne fun there => other ⟨rfl, there⟩]
  · rw [Function.update_of_ne here]

/-- A part finds the slot of its join, or an empty one. -/
theorem joinSlotFind_cases {c c' : Conn} {jid pcount slot : Nat}
    (find : c.joinSlotFind jid pcount = (some slot, c')) :
    c' = c ∨ (c.joins slot).used = false ∧
      c' = c.setJoin slot { Join.zero with used := true, joinId := jid, partCount := pcount } := by
  unfold Conn.joinSlotFind at find
  split at find
  · exact .inl (Prod.mk.inj find).2.symm
  · split at find
    · next i free =>
      obtain ⟨-, unused, -⟩ := firstIndex_eq_some free
      simp only [Prod.mk.injEq, Option.some.injEq] at find
      obtain ⟨rfl, rfl⟩ := find
      exact .inr ⟨by simpa using unused, rfl⟩
    · cases find

/-- Claiming a slot makes no part wait. -/
theorem joinPlace_awaits {msg : Incoming} {c c₁ : Conn} {slot pnum : Nat}
    (place : msg.joinPlace c = some (slot, c₁, pnum)) {i n e : Nat} (awaits : c₁.Awaits i n e) :
    c.Awaits i n e := by
  obtain ⟨jid, pcount, -, -, -, find, -⟩ := joinPlace_some place
  rcases joinSlotFind_cases find with rfl | ⟨-, rfl⟩
  · exact awaits
  · obtain ⟨used, seen, eid⟩ := awaits
    rw [Conn.setJoin_joins] at used seen eid
    split at used
    · next here =>
      rw [if_pos here] at seen
      cases seen
    · next other =>
      rw [if_neg other] at seen eid
      exact ⟨used, seen, eid⟩

/-- A part that waits once another is recorded is that one, or waited before. -/
theorem awaits_of_part {msg : Incoming} {c : Conn} {slot pnum i n e : Nat}
    (awaits : (c.setJoin slot (msg.joinPart c slot pnum)).Awaits i n e) :
    i = slot ∧ n = pnum ∧ msg.joinTarget c = some e ∨ ¬(i = slot ∧ n = pnum) ∧ c.Awaits i n e := by
  obtain ⟨used, seen, eid⟩ := awaits
  rw [Conn.setJoin_joins] at used seen eid
  by_cases here : i = slot
  · subst here
    rw [if_pos rfl] at used seen eid
    by_cases there : n = pnum
    · subst there
      refine .inl ⟨rfl, rfl, ?_⟩
      simpa [Incoming.joinPart, Join.addPart] using eid
    · refine .inr ⟨fun both => there both.2, used, ?_, ?_⟩
      · simpa [Incoming.joinPart, Join.addPart, there] using seen
      · simpa [Incoming.joinPart, Join.addPart, there] using eid
  · rw [if_neg here] at used seen eid
    exact .inr ⟨fun both => here both.1, used, seen, eid⟩

/-- Every message keeps what the entries of waiting parts stand for, if it
fills none of them with another server. -/
theorem Handling.stands {msg : Incoming} {c c' : Conn} {v v' : Vat} {frames : List (List UInt8)}
    {servers : Servers} (handling : Handling msg c v c' v' frames)
    (spares : ∀ server, msg.Exports c v server → c.Spares servers server)
    (stands : c.Stands servers) : c'.Stands (servers.note msg c) := by
  have holds {e slot n : Nat} (awaits : c.Awaits slot n e) (used : (c'.exports e).used = true) :
      servers slot n = some (c'.exports e).server :=
    stands.waited spares (handling.entryFrom used) awaits
  have same (joins : c'.joins = c.joins) (other : msg.which = msgJoin → msg.joinPlace c = none) :
      c'.Stands (servers.note msg c) := by
    rw [Servers.note_other other]
    exact fun slot n e awaits used => holds (awaits.congr joins) used
  have notJoin {kind : Nat} (which : msg.which = kind) (apart : kind ≠ msgJoin) :
      msg.which = msgJoin → msg.joinPlace c = none :=
    fun join => (apart (which.symm.trans join)).elim
  cases handling with
  | quiet alike asks =>
      refine same alike.joins_eq fun join => ?_
      have asked : msg.asks = [msg.questionId] := if_pos (.inr (.inr (.inl join)))
      rcases asks with none | call
      · rw [asked] at none
        cases none
      · rw [join] at call
        exact absurd call (by decide)
  | finished which => exact same (answerDrop_joins c _) (notJoin which (by decide))
  | released which => exact same (released_joins c _ _) (notJoin which (by decide))
  | refused alike _ _ other => exact same alike.joins_eq fun join => (other join).elim
  | bootstrapped which exported _ _ =>
      obtain ⟨-, -, -, -, joins⟩ := Conn.exportCap_some exported
      exact same ((World.answerKeep_exports _ _ _).2.trans joins) (notJoin which (by decide))
  | called which alike _ =>
      exact same ((World.answerKeep_exports _ _ _).2.trans alike.joins_eq)
        (notJoin which (by decide))
  | provided which _ _ _ => exact same (World.answerKeep_exports _ _ _).2 (notJoin which (by decide))
  | taken which _ _ exported _ =>
      obtain ⟨-, -, -, -, joins⟩ := Conn.exportCap_some exported
      exact same ((World.answerKeep_exports _ _ _).2.trans joins) (notJoin which (by decide))
  | held which _ _ _ exported =>
      obtain ⟨-, -, -, -, joins⟩ := Conn.exportCap_some exported
      exact same joins (notJoin which (by decide))
  | lifted lifts _ =>
      exact same (World.answerKeep_exports _ _ _).2 (notJoin (which_of_lifts lifts) (by decide))
  | joinRefused _ place _ => exact same rfl fun _ => place
  | @joined slot pnum c₁ which place _ =>
      intro i n e awaits used
      rcases awaits_of_part awaits with ⟨rfl, rfl, target⟩ | ⟨other, before⟩
      · rw [Servers.note_self which place, Incoming.joinServer, target]
        rfl
      · rw [Servers.note_of_ne which place other]
        exact holds (joinPlace_awaits place before) used
  | @completed slot pnum c₁ _ which place _ _ =>
      intro i n e awaits used
      obtain ⟨waits, seen, eid⟩ := awaits
      rw [Conn.setJoin_joins] at waits seen eid
      split at waits
      · cases waits
      · next other =>
        rw [if_neg other] at seen eid
        have joins : ((msg.joinPart c₁ slot pnum).joined.elim c₁ c₁.retain).joins = c₁.joins := by
          cases (msg.joinPart c₁ slot pnum).joined with
          | none => rfl
          | some _ => rfl
        rw [joins] at waits seen eid
        rw [Servers.note_of_ne which place fun both => other both.1]
        exact holds (joinPlace_awaits place ⟨waits, seen, eid⟩) used
  | echoed asks _ =>
      refine same rfl fun join => ?_
      have asked : msg.asks = [msg.questionId] := if_pos (.inr (.inr (.inl join)))
      rw [asked] at asks
      cases asks

/-! ## The answer -/

/-- All answers to a join tell the same. -/
theorem Join.Answers.result {join : Join} {n : Nat} {frames : List (List UInt8)}
    (answers : join.Answers n frames) :
    ∀ flat ∈ frames, joinResultOf flat = some (join.joinId, join.same) := by
  intro flat sent
  obtain ⟨i, -, isReturn⟩ := answers.mem sent
  exact isReturn.result

/-- The parts of a join that succeeds are recorded by one entry. -/
theorem Join.eids_of_same {join : Join} (same : join.same = true) :
    ∃ eid, join.joined = some eid ∧ ∀ n < join.partCount, join.eids n = some eid := by
  have agree := same
  simp only [Join.same, Bool.and_eq_true, List.all_eq_true, List.mem_range, beq_iff_eq] at agree
  obtain ⟨some, all⟩ := agree
  obtain ⟨eid, first⟩ := Option.isSome_iff_exists.mp some
  refine ⟨eid, ?_, fun n small => (all n small).trans first⟩
  rw [Join.joined, if_pos same, first]

/-- All parts of a complete join are there. -/
theorem Join.Wf.seen_of_full {join : Join} (wf : join.Wf) (used : join.used = true)
    (full : join.nseen = join.partCount) : ∀ n < join.partCount, join.seen n = true :=
  flag_of_sum_eq ((wf.nseen_eq used).symm.trans full)

/-- A join that succeeds carries the server that all its parts named. -/
theorem Handling.one_object {msg : Incoming} {c c' : Conn} {v v' : Vat} {frames : List (List UInt8)}
    {servers : Servers} (handling : Handling msg c v c' v' frames) (sound : Sound c v)
    (stands : c.Stands servers) (which : msg.which = msgJoin) {flat : List UInt8} {joinId : Nat}
    (sent : flat ∈ frames) (succeeded : joinResultOf flat = some (joinId, true)) :
    ∃ slot pnum c₁ eid, msg.joinPlace c = some (slot, c₁, pnum) ∧ hosted frames = [eid] ∧
      (c'.exports eid).used = true ∧ ∀ n < (c₁.joins slot).partCount,
        servers.note msg c slot n = some (c'.exports eid).server := by
  have other {kind : Nat} (this : msg.which = kind) (apart : kind ≠ msgJoin) : False :=
    apart (this.symm.trans which)
  have asked : msg.asks = [msg.questionId] := if_pos (.inr (.inr (.inl which)))
  cases handling with
  | quiet _ _ => cases sent
  | finished this => exact (other this (by decide)).elim
  | released this => exact (other this (by decide)).elim
  | refused _ _ _ notJoin => exact absurd which notJoin
  | bootstrapped this _ _ _ => exact (other this (by decide)).elim
  | called this _ _ => exact (other this (by decide)).elim
  | provided this _ _ _ => exact (other this (by decide)).elim
  | taken this _ _ _ _ => exact (other this (by decide)).elim
  | held this _ _ _ _ => exact (other this (by decide)).elim
  | lifted lifts _ => exact (other (which_of_lifts lifts) (by decide)).elim
  | joinRefused _ _ isReturn =>
      rw [List.mem_singleton.mp sent, isReturn.result] at succeeded
      cases succeeded
  | joined _ _ _ => cases sent
  | @completed slot pnum c₁ frames _ place full answers =>
      obtain ⟨jid, pcount, -, numLt, -, found, -⟩ := joinPlace_some place
      obtain ⟨-, used, count, -, -, -⟩ := joinSlotFind_some sound.joins found
      have same : (msg.joinPart c₁ slot pnum).same = true := by
        rw [answers.result flat sent] at succeeded
        exact (Prod.mk.inj (Option.some.inj succeeded)).2
      obtain ⟨eid, joined, eids⟩ := Join.eids_of_same same
      have parts : (msg.joinPart c₁ slot pnum).partCount = (c₁.joins slot).partCount := rfl
      have target := joined_eq_target (by omega) joined
      have exports := joinPlace_exports place
      have live := (joinTarget_some target).2
      have wf := (sound.joined place).2.joins slot
      rw [Conn.setJoin_joins, if_pos rfl] at wf
      have seen := wf.seen_of_full used full
      have server : (((msg.joinPart c₁ slot pnum).joined.elim c₁ c₁.retain).exports eid).server =
          (c₁.exports eid).server := by
        rw [joined]
        exact (Conn.retain_exporting c₁ eid eid live).2
      refine ⟨slot, pnum, c₁, eid, place, ?_, ?_, fun n small => ?_⟩
      · rw [answers.hosted (by omega), joined]
        rfl
      · rw [joined]
        exact (Conn.retain_exporting c₁ eid eid live).1
      · change _ = some (((msg.joinPart c₁ slot pnum).joined.elim c₁ c₁.retain).exports eid).server
        rw [server]
        by_cases last : n = pnum
        · rw [last, Servers.note_self which place, Incoming.joinServer, target]
          rfl
        · rw [Servers.note_of_ne which place fun both => last both.2]
          have waits : c₁.Awaits slot n eid := by
            refine ⟨used, ?_, ?_⟩
            · simpa [Incoming.joinPart, Join.addPart, last] using seen n small
            · simpa [Incoming.joinPart, Join.addPart, last] using eids n small
          rw [exports] at live ⊢
          exact stands slot n eid (joinPlace_awaits place waits) live
  | echoed asks _ =>
      rw [asked] at asks
      cases asks

/-! ## Runs -/

namespace Net

/-- The servers that parts named on each connection, after an action. -/
def noteServers (s : Net) : Action → (Nat → Servers) → Nat → Servers
  | .deliver k _ data, servers =>
      match readIncoming data with
      | none => servers
      | some msg => Function.update servers k ((servers k).note msg (s.conn k))
  | _, servers => servers

/-- The servers that an action exports on a connection. -/
inductive Exports (s : Net) : Action → Nat → Nat → Prop
  | application {k server dispatch : Nat} : s.Exports (.exportCap k server dispatch) k server
  | message {k server : Nat} {env : Env} {data : List UInt8} {msg : Incoming}
      (read : readIncoming data = some msg) (exports : msg.Exports (s.conn k) s.vat server) :
      s.Exports (.deliver k env data) k server

/-- The action fills no entry that a waiting part is recorded by, unless with the
server that the part named. -/
def Spares (s : Net) (servers : Nat → Servers) (a : Action) : Prop :=
  ∀ k server, s.Exports a k server → (s.conn k).Spares (servers k) server

/-- The entries that waiting parts are recorded by stand for what they named, on
every connection. -/
def Stands (s : Net) (servers : Nat → Servers) : Prop := ∀ k, (s.conn k).Stands (servers k)

theorem stands_init (servers : Nat → Servers) : init.Stands servers := by
  rintro k slot n e ⟨used, -⟩
  cases used

/-- Every step that spares waiting parts keeps what they stand for. -/
theorem stands_step {s : Net} {servers : Nat → Servers} (sound : s.Sound)
    (stands : s.Stands servers) {a : Action} (spares : s.Spares servers a) :
    (s.step a).Stands (s.noteServers a servers) := by
  have worked {k : Nat} {c : Conn} (kept : c.Stands (servers k)) : (s.setConn k c).Stands servers := by
    intro k'
    by_cases here : k' = k
    · subst here
      simpa [setConn] using kept
    · simpa [setConn, here] using stands k'
  have does := does sound a
  generalize s.step a = s' at does
  cases does with
  | unread unread =>
      rw [noteServers, unread]
      exact stands
  | @handled k env data msg w read done handling =>
      rw [noteServers, read]
      intro k'
      by_cases here : k' = k
      · subst here
        simpa [handled] using handling.stands
          (fun server exports => spares k' server (.message read exports)) (stands k')
      · simpa [handled, here] using stands k'
  | @exported k server dispatch eid c exported =>
      obtain ⟨-, -, -, -, joins⟩ := Conn.exportCap_some exported
      refine worked fun slot n e awaits used => ?_
      have allowed : ∀ other, other = server → (s.conn k).Spares (servers k) other := by
        rintro other rfl
        exact spares k other .application
      exact (stands k).waited allowed (.of_exportCap exported rfl rfl used) (awaits.congr joins)
  | full => exact stands
  | @worked a k c quiet exports _ joins =>
      have kept : s.noteServers a servers = servers := by
        cases a with
        | deliver k' env data => exact absurd rfl (quiet k' env data)
        | exportCap _ _ _ => rfl
        | setBootstrap _ _ _ => rfl
        | ask _ _ _ _ => rfl
      rw [kept]
      refine worked fun slot n e awaits used => ?_
      rw [exports] at used ⊢
      exact stands k slot n e (awaits.congr joins) used

theorem stands_of_reached {o : Net × (Nat → Servers)}
    (reached : Reached (init, fun _ _ _ => none) (observed step noteServers)
      (fun o a => o.1.Spares o.2 a) o) : o.1.Sound ∧ o.1.Stands o.2 := by
  induction reached with
  | start => exact ⟨sound_init, stands_init _⟩
  | @step o _ a spares ih => exact ⟨(does ih.1 a).sound ih.1, stands_step ih.1 ih.2 spares⟩

/-- Joins compare objects: in every run that fills no entry of a waiting part
with another server, a join succeeds only if all its parts named one server, and
the answer carries an export of that server. -/
theorem join_one_object {s : Net} {servers : Nat → Servers}
    (reached : Reached (init, fun _ _ _ => none) (observed step noteServers)
      (fun o a => o.1.Spares o.2 a) (s, servers))
    (k : Nat) (env : Env) {data : List UInt8} {msg : Incoming}
    (read : readIncoming data = some msg) (which : msg.which = msgJoin) {flat : List UInt8}
    {joinId : Nat} (sent : flat ∈ s.sends (.deliver k env data))
    (succeeded : joinResultOf flat = some (joinId, true)) :
    let a := Action.deliver k env data
    ∃ slot pnum c eid, msg.joinPlace (s.conn k) = some (slot, c, pnum) ∧
      hosted (s.sends a) = [eid] ∧ (((s.step a).conn k).exports eid).used = true ∧
        ∀ n < (c.joins slot).partCount,
          s.noteServers a servers k slot n = some (((s.step a).conn k).exports eid).server := by
  obtain ⟨sound, stands⟩ := stands_of_reached reached
  have object := (handling_deliver sound (k := k) env read).one_object (sound k) (stands k) which
    sent succeeded
  dsimp only
  rw [step_deliver read]
  simpa [handled, sends, noteServers, read] using object

/-- A part of a join of an export. -/
def joinFrame (qid joinId count num eid : UInt8) : List UInt8 :=
  [0, 0, 0, 0, 9, 0, 0, 0,
   0, 0, 0, 0, 1, 0, 1, 0,
   12, 0, 0, 0, 0, 0, 0, 0,
   0, 0, 0, 0, 1, 0, 2, 0,
   qid, 0, 0, 0, 0, 0, 0, 0,
   4, 0, 0, 0, 1, 0, 1, 0,
   8, 0, 0, 0, 1, 0, 0, 0,
   eid, 0, 0, 0, 0, 0, 0, 0,
   0, 0, 0, 0, 0, 0, 0, 0,
   joinId, 0, 0, 0, count, 0, num, 0]

/-- Between the parts of a join its export is released, and its entry is filled
with another server. -/
def replaced : List Action :=
  [.exportCap 0 1 1, arrives 0 (joinFrame 5 9 2 0 0), arrives 0 (releaseFrame 0 1),
    .exportCap 0 2 2]

/-- A join of two servers succeeds. -/
theorem join_of_two_objects :
    let o := replaced.foldl (observed step noteServers) (init, fun _ _ _ => none)
    Reached (init, fun _ _ _ => none) (observed step noteServers) (fun _ _ => True) o ∧
      (∃ flat ∈ o.1.sends (arrives 0 (joinFrame 6 9 2 1 0)), joinResultOf flat = some (9, true)) ∧
      o.1.noteServers (arrives 0 (joinFrame 6 9 2 1 0)) o.2 0 0 0 = some 1 ∧
      o.1.noteServers (arrives 0 (joinFrame 6 9 2 1 0)) o.2 0 0 1 = some 2 := by
  refine ⟨reached_any _, ?_⟩
  decide +kernel

/-- A message that exports nothing spares all parts. -/
theorem spares_of_other {s : Net} {servers : Nat → Servers} {k : Nat} {env : Env}
    {data : List UInt8} (other : (readIncoming data).all fun msg =>
      msg.which != msgBootstrap && msg.which != msgAccept) :
    s.Spares servers (.deliver k env data) := by
  intro k' server exports
  cases exports with
  | message read exports =>
      rw [read, Option.all_some, Bool.and_eq_true, bne_iff_ne, bne_iff_ne] at other
      cases exports with
      | bootstrap which _ => exact absurd which other.1
      | accept which _ => exact absurd which other.2

/-- Both parts of a join name one export. -/
theorem join_one_object_twice :
    let o := ([.exportCap 0 1 1, arrives 0 (joinFrame 5 9 2 0 0)] : List Action).foldl
      (observed step noteServers) (init, fun _ _ _ => none)
    let a := arrives 0 (joinFrame 6 9 2 1 0)
    ∃ msg slot pnum c eid, readIncoming (joinFrame 6 9 2 1 0) = some msg ∧
      msg.joinPlace (o.1.conn 0) = some (slot, c, pnum) ∧ hosted (o.1.sends a) = [eid] ∧
        (((o.1.step a).conn 0).exports eid).used = true ∧
          ∀ n < (c.joins slot).partCount,
            o.1.noteServers a o.2 0 slot n = some (((o.1.step a).conn 0).exports eid).server := by
  have exported : Reached (init, fun _ _ _ => none) (observed step noteServers)
      (fun o a => o.1.Spares o.2 a) (observed step noteServers (init, fun _ _ _ => none)
        (.exportCap 0 1 1)) := by
    refine .step .start ?_
    rintro k server - e - slot n ⟨used, -⟩
    cases used
  have reached := exported.step (a := arrives 0 (joinFrame 5 9 2 0 0))
    (spares_of_other (by decide +kernel))
  have joining : ((readIncoming (joinFrame 6 9 2 1 0)).any fun msg => msg.which == msgJoin) =
      true := by
    decide +kernel
  have succeeding : ∃ flat ∈ (([.exportCap 0 1 1, arrives 0 (joinFrame 5 9 2 0 0)] :
      List Action).foldl (observed step noteServers) (init, fun _ _ _ => none)).1.sends
        (arrives 0 (joinFrame 6 9 2 1 0)), joinResultOf flat = some (9, true) := by
    decide +kernel
  obtain ⟨msg, read, which⟩ := (Option.any_eq_true _ _).mp joining
  obtain ⟨flat, sent, succeeded⟩ := succeeding
  obtain ⟨slot, pnum, c, eid, joined⟩ :=
    join_one_object reached 0 _ read (beq_iff_eq.mp which) sent succeeded
  exact ⟨msg, slot, pnum, c, eid, read, joined⟩

end Net

end CapnpJanet.Rpc
