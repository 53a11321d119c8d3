import CapnpJanet.Rpc.Routing
import CapnpJanet.Rpc.Steps

/-!
# Capabilities that are handed out

The `senderHosted` entries of the frames a vat sends.  Every answer names an
export that its handler has just claimed or resolved, but for the answer that a
lifted embargo sends: it names the export id that the provision has kept, in
whatever table the `Disembargo` arrives at.
-/

namespace CapnpJanet.Rpc

open Builder Run

/-- The exports that the frames name. -/
def hosted (frames : List (List UInt8)) : List Nat := frames.flatMap hostedIds

/-- All exports that the frames name are in use. -/
def Conn.Hosts (c : Conn) (frames : List (List UInt8)) : Prop :=
  ∀ eid ∈ hosted frames, (c.exports eid).used = true

theorem hosted_single {flat : List UInt8} {qid which : Nat} {ids : List Nat}
    (isReturn : IsReturn flat qid which ids) : hosted [flat] = ids := by
  simp [hosted, isReturn.hosted]

theorem hosted_append (frames frames' : List (List UInt8)) :
    hosted (frames ++ frames') = hosted frames ++ hosted frames' := by
  simp [hosted]

/-- Only the answer to the first part of a join carries a capability. -/
theorem Join.Answers.hosted {join : Join} {n : Nat} {frames : List (List UInt8)}
    (answers : join.Answers n frames) (some : n ≠ 0) : Rpc.hosted frames = join.joined.toList := by
  induction n generalizing frames with
  | zero => exact absurd rfl some
  | succ n ih =>
      obtain ⟨before, flat, rfl, earlier, isReturn⟩ := answers
      rw [hosted_append, hosted_single isReturn.toIsReturn]
      by_cases first : n = 0
      · subst first
        obtain rfl : before = [] := earlier
        rw [if_pos rfl]
        rfl
      · rw [ih earlier first, if_neg first, Option.toList_none, List.append_nil]

/-- A completed join carries the export that its last part has resolved to. -/
theorem joined_eq_target {msg : Incoming} {c : Conn} {slot pnum eid : Nat}
    (small : pnum < (c.joins slot).partCount)
    (joined : (msg.joinPart c slot pnum).joined = some eid) : msg.joinTarget c = some eid := by
  unfold Join.joined at joined
  split at joined
  · next same =>
    simp only [Join.same, Bool.and_eq_true, List.all_eq_true, List.mem_range, beq_iff_eq] at same
    have last := same.2 pnum small
    rw [joined] at last
    simpa [Incoming.joinPart, Join.addPart] using last
  · cases joined

theorem joinTarget_some {msg : Incoming} {c : Conn} {eid : Nat}
    (target : msg.joinTarget c = some eid) : eid < maxExports ∧ (c.exports eid).used = true := by
  unfold Incoming.joinTarget at target
  dsimp only at target
  split at target
  · exact resolveTarget_some target
  · cases target

/-- A frame that names one export. -/
theorem Conn.hosts_single {c : Conn} {flat : List UInt8} {qid which eid : Nat}
    (isReturn : IsReturn flat qid which [eid]) : c.Hosts [flat] ↔ (c.exports eid).used = true := by
  unfold Conn.Hosts
  rw [hosted_single isReturn]
  simp

theorem Conn.hosts_of_nil {c : Conn} {frames : List (List UInt8)} (none : hosted frames = []) :
    c.Hosts frames := by
  intro eid named
  rw [none] at named
  cases named

/-- Every answer names exports in use, unless it was held back before. -/
theorem Handling.hosts {msg : Incoming} {c c' : Conn} {v v' : Vat} {frames : List (List UInt8)}
    (handling : Handling msg c v c' v' frames) (sound : Sound c v) (other : msg.lifts v = none) :
    c'.Hosts frames := by
  have exported {server dispatch eid : Nat} {c₁ : Conn} {flat : List UInt8}
      (exported : c.exportCap server dispatch = (some eid, c₁))
      (isReturn : IsCapReturn flat msg.questionId eid) :
      (c₁.answerKeep msg.questionId flat).Hosts [flat] := by
    rw [Conn.hosts_single isReturn.toIsReturn, (World.answerKeep_exports c₁ _ flat).1]
    exact (Conn.exportCap_some exported).2.1
  cases handling with
  | quiet _ _ => exact Conn.hosts_of_nil rfl
  | finished _ => exact Conn.hosts_of_nil rfl
  | released _ => exact Conn.hosts_of_nil rfl
  | refused _ _ isReturn => exact Conn.hosts_of_nil (hosted_single isReturn)
  | bootstrapped _ claimed isReturn => exact exported claimed isReturn
  | called _ _ isReturn => exact Conn.hosts_of_nil (hosted_single isReturn)
  | provided _ _ _ isReturn => exact Conn.hosts_of_nil (hosted_single isReturn)
  | taken _ _ _ claimed isReturn => exact exported claimed isReturn
  | held _ _ _ _ _ => exact Conn.hosts_of_nil rfl
  | lifted lifts _ =>
      rw [other] at lifts
      cases lifts
  | joinRefused _ _ isReturn => exact Conn.hosts_of_nil (hosted_single isReturn.toIsReturn)
  | joined _ _ _ => exact Conn.hosts_of_nil rfl
  | @completed slot pnum c₁ frames _ place full answers =>
      obtain ⟨jid, pcount, -, numLt, -, found, -⟩ := joinPlace_some place
      obtain ⟨-, -, count, -, -, -⟩ := joinSlotFind_some sound.joins found
      have some : (msg.joinPart c₁ slot pnum).partCount ≠ 0 := by
        have same : (msg.joinPart c₁ slot pnum).partCount = (c₁.joins slot).partCount := rfl
        omega
      intro eid named
      rw [answers.hosted some] at named
      have joined := Option.mem_toList.mp named
      have target := joined_eq_target (by omega) joined
      rw [joined]
      exact (Conn.retain_exporting c₁ eid eid (joinTarget_some target).2).1
  | echoed _ silent => exact Conn.hosts_of_nil (by simp [hosted, hostedIds_of_none silent])

/-! ## Runs -/

namespace Net

/-- The capabilities in the frames of a message are in use exactly if the
message lifts no embargo whose export is not in use where it arrives. -/
theorem sent_caps_live_iff {s : Net} (reached : Reached init step (fun _ _ => True) s) (k : Nat)
    (env : Env) {data : List UInt8} {msg : Incoming} (read : readIncoming data = some msg) :
    ((s.step (.deliver k env data)).conn k).Hosts (s.sends (.deliver k env data)) ↔
      ∀ i, msg.lifts s.vat = some i →
        ((s.conn k).exports (s.vat.provisions i).exportId).used = true := by
  have sound := sound_of_reached reached
  cases lifts : msg.lifts s.vat with
  | none =>
      have hosts := (handling_deliver sound (k := k) env read).hosts (sound k) lifts
      refine iff_of_true ?_ nofun
      rw [step_deliver read]
      simpa [handled, sends] using hosts
  | some i =>
      obtain ⟨idLt, small⟩ := (sound k).held i (liftable_some lifts).2
      have done : handle env data (s.conn k) s.vat =
          { World.start (s.conn k) s.vat with
            vat := s.vat.setProvision i Provision.zero }.sendCapReturn env
              (s.vat.provisions i).acceptQuestionId (s.vat.provisions i).exportId := by
        rw [handle, read]
        exact handleIncoming_lifts env data lifts
      obtain ⟨flat, isReturn, result⟩ := World.sendCapReturn_eq
        { World.start (s.conn k) s.vat with vat := s.vat.setProvision i Provision.zero } env idLt
        (small.trans (by decide))
      rw [result] at done
      rw [step_deliver read, sends, done]
      simp only [handled, World.transmit, World.start, Function.update_self, List.nil_append,
        Option.some.injEq, forall_eq']
      rw [Conn.hosts_single isReturn.toIsReturn, (World.answerKeep_exports _ _ _).1]

/-- Runs that route embargoed answers hand out no capability that is not in
use. -/
theorem sent_caps_live_of_routes {s : Net} (reached : Reached init step Routes s) {k : Nat}
    {env : Env} {data : List UInt8} (routes : s.Routes (.deliver k env data)) :
    ((s.step (.deliver k env data)).conn k).Hosts (s.sends (.deliver k env data)) := by
  have routed : s.Routed := reached.invariant routed_init fun _ a routed routes =>
    routed_step routed routes
  cases read : readIncoming data with
  | none =>
      refine Conn.hosts_of_nil ?_
      rw [sends, handle, read]
      rfl
  | some msg =>
      refine (sent_caps_live_iff (reached.mono fun _ _ _ => trivial) k env read).mpr fun i lifts => ?_
      have here := routes.lifts k msg i ⟨env, data, rfl, read⟩ lifts
      have live := routed.live i (liftable_some lifts).2
      rw [LiveAt, here] at live
      exact live.1

/-- A `Release` of some references to an export. -/
def releaseFrame (id count : UInt8) : List UInt8 :=
  [0, 0, 0, 0, 4, 0, 0, 0,
   0, 0, 0, 0, 1, 0, 1, 0,
   6, 0, 0, 0, 0, 0, 0, 0,
   0, 0, 0, 0, 1, 0, 0, 0,
   id, 0, 0, 0, count, 0, 0, 0]

/-- A capability is introduced and accepted on one connection, with an
embargo. -/
def embargoedAccept : List Action :=
  [.exportCap 0 1 1, arrives 0 (provideFrame 7 1), arrives 0 (acceptFrame 8 1)]

/-- The answer that the lifted embargo sends names an export in use. -/
theorem sent_caps_live_lifted :
    ((((embargoedAccept.foldl step init).step (arrives 0 (disembargoFrame 7))).conn 0).Hosts
      ((embargoedAccept.foldl step init).sends (arrives 0 (disembargoFrame 7)))) := by
  have lifting : ((readIncoming (disembargoFrame 7)).any fun msg =>
      let s := embargoedAccept.foldl step init
      msg.lifts s.vat == some 0 &&
        ((s.conn 0).exports (s.vat.provisions 0).exportId).used) = true := by
    decide +kernel
  obtain ⟨msg, read, facts⟩ := (Option.any_eq_true _ _).mp lifting
  simp only [Bool.and_eq_true, beq_iff_eq] at facts
  obtain ⟨lifts, used⟩ := facts
  refine (sent_caps_live_iff (reached_any _) 0 _ read).mpr fun i lifted => ?_
  rw [lifts] at lifted
  rw [← Option.some.inj lifted]
  exact used

/-- A peer that releases the export of an `Accept` before it lifts the embargo is
answered with an export that is free. -/
theorem sent_cap_dangles :
    let run := embargoedAccept ++ [arrives 0 (releaseFrame 0 3)]
    Reached init step (fun _ _ => True) (run.foldl step init) ∧
      ¬((((run.foldl step init).step (arrives 0 (disembargoFrame 7))).conn 0).Hosts
        ((run.foldl step init).sends (arrives 0 (disembargoFrame 7)))) := by
  refine ⟨reached_any _, fun live => ?_⟩
  have facts : (hosted (((embargoedAccept ++ [arrives 0 (releaseFrame 0 3)]).foldl step init).sends
      (arrives 0 (disembargoFrame 7))) = [0]) ∧
      (((((embargoedAccept ++ [arrives 0 (releaseFrame 0 3)]).foldl step init).step
        (arrives 0 (disembargoFrame 7))).conn 0).exports 0).used = false := by
    decide +kernel
  obtain ⟨named, unused⟩ := facts
  have used := live 0 (by rw [named]; exact List.mem_singleton_self 0)
  rw [unused] at used
  cases used

end Net

end CapnpJanet.Rpc
