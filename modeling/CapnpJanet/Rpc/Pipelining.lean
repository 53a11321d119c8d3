import CapnpJanet.Rpc.Accounts
import CapnpJanet.Rpc.JoinObjects
import CapnpJanet.Rpc.Questions

/-!
# Promised answers

A `PromisedAnswer` names a question and a path of pointer fields into its
answer.  It resolves to whatever capability a peer reads at that path, as long
as the answer is in the table; an answer without a cap table promises nothing.
-/

namespace CapnpJanet.Rpc

open ByteMemory Builder Run

/-! ## Paths -/

/-- Follow a pointer field of a struct. -/
def follow (m : Message) (cursor : Ptr × Nat) (field : Nat) : Option (Ptr × Nat) :=
  if cursor.1.kind ≠ .struct then none
  else
    let next := m.getp cursor.1 field Ptr.zero cursor.2
    if next.rc ≠ .ok then none else some (next.out, next.left)

/-- Entry `n` of a cap table that is read with what a walk has left over. -/
def capOf (m : Message) (payload : Ptr) (cursor : Ptr × Nat) : Option Nat :=
  if cursor.1.kind ≠ .cap then none
  else
    let table := m.getp payload 1 Ptr.zero cursor.2
    if table.rc ≠ .ok ∨ cursor.1.count ≥ listLen table.out then none
    else hostedEntry m table.out cursor.1.count

/-- The export that a peer finds at the end of a path into the content of a
results `Return`. -/
def capAt (frame : List UInt8) (path : List Nat) : Option Nat :=
  match messageFromFlat frame with
  | .error _ => none
  | .ok m =>
      match answerPayload m with
      | none => none
      | some (payload, content, left) =>
          (path.foldlM (follow m) (content, left)).bind (capOf m payload)

/-- The first `n` ops of a transform, if all of them are pointer fields. -/
def transformPath (m : Message) (ops : Ptr) : (n : Nat) → Option (List Nat)
  | 0 => some []
  | n + 1 =>
      match transformPath m ops n, Message.listGetStruct ops n Ptr.zero with
      | some path, (.ok, op) =>
          if m.getU16 op 0 0 ≠ 1 then none else some (path ++ [m.getU16 op 2 0])
      | _, _ => none

/-- The question and the path of a target that is a promised answer. -/
def promiseOf (m : Message) (target : Ptr) (left : Nat) : Option (Nat × List Nat) :=
  if target.kind ≠ .struct ∨ m.getU16 target 4 0 ≠ 1 then none
  else
    let promised := m.getp target 0 Ptr.zero left
    if promised.rc ≠ .ok ∨ promised.out.kind ≠ .struct then none
    else
      let ops := m.getp promised.out 0 Ptr.zero promised.left
      if ops.rc ≠ .ok then none
      else (transformPath m ops.out (listLen ops.out)).map fun path =>
        (m.getU32 promised.out 0 0, path)

section
variable {m stored : Message} {ops : Ptr} {n : Nat} {path : List Nat}

theorem length_transformPath (walked : transformPath m ops n = some path) : path.length = n := by
  induction n generalizing path with
  | zero =>
      cases walked
      rfl
  | succ n ih =>
      unfold transformPath at walked
      split at walked
      · next before _ earlier _ =>
        split at walked
        · cases walked
        · rw [← Option.some.inj walked, List.length_append, ih earlier]
          rfl
      · cases walked

/-- A transform of pointer fields follows its path. -/
theorem walkTransform_eq (walked : transformPath m ops n = some path) (cursor : Ptr × Nat) :
    walkTransform m stored ops n cursor = path.foldlM (follow stored) cursor := by
  induction n generalizing path with
  | zero =>
      cases walked
      rfl
  | succ n ih =>
      unfold transformPath at walked
      split at walked
      · next before op earlier elem =>
        split at walked
        · cases walked
        · next isField =>
          rw [walkTransform, ih earlier, elem, ← Option.some.inj walked, List.foldlM_append]
          cases reached : before.foldlM (follow stored) cursor with
          | none => rfl
          | some end' =>
              obtain ⟨at', left⟩ := end'
              simp only [isField, if_false]
              simp only [Option.bind_eq_bind, Option.bind_some, List.foldlM_cons, List.foldlM_nil,
                follow]
              split
              · rfl
              · split
                · rfl
                · rfl
      · cases walked

/-- A path costs a word for each of its steps, but for a last one to nowhere. -/
theorem length_path {start finish : Ptr × Nat} (walked : path.foldlM (follow m) start = some finish) :
    path.length + finish.2 ≤ start.2 + if finish.1.kind = .null then 1 else 0 := by
  induction path using List.reverseRecOn generalizing finish with
  | nil =>
      cases walked
      simp
  | append_singleton path field ih =>
      rw [List.foldlM_append] at walked
      obtain ⟨middle, before, last⟩ := Option.bind_eq_some_iff.mp walked
      have bound := ih before
      simp only [List.foldlM_cons, List.foldlM_nil] at last
      obtain ⟨next, followed, same⟩ := Option.bind_eq_some_iff.mp last
      cases same
      unfold follow at followed
      split at followed
      · cases followed
      · next isStruct =>
        have struct := not_not.mp isStruct
        dsimp only at followed
        split at followed
        · cases followed
        · next ok =>
          cases followed
          rw [struct, if_neg (by decide), add_zero] at bound
          rw [List.length_append, List.length_singleton]
          rcases Message.getp_spends (not_not.mp ok) with less | ⟨same, null⟩
          · dsimp only
            omega
          · rw [if_pos null]
            dsimp only
            omega

/-- A walk that ends somewhere has not gained any budget. -/
theorem left_path {start finish : Ptr × Nat} (walked : path.foldlM (follow m) start = some finish)
    (isCap : finish.1.kind = .cap) : path.length + finish.2 ≤ start.2 := by
  have bound := length_path walked
  rwa [isCap, if_neg (by decide), add_zero] at bound

end

/-! ## Resolving a promise -/

/-- The payload of an answer is the one a peer reads, with less left to spend
once its content has been read as well. -/
theorem returnPayload_of_answerPayload {m : Message} {payload content : Ptr} {left : Nat}
    (answered : answerPayload m = some (payload, content, left)) :
    ∃ left', returnPayload m = some (payload, left') ∧ left ≤ left' ∧
      left' ≤ defaultTraversalWords := by
  unfold answerPayload at answered
  unfold returnPayload
  dsimp only at answered ⊢
  split at answered
  · cases answered
  · next root =>
    split at answered
    · cases answered
    · next isReturn =>
      split at answered
      · cases answered
      · next ret =>
        split at answered
        · cases answered
        · next isResults =>
          split at answered
          · cases answered
          · next read =>
            split at answered
            · cases answered
            · next content =>
              cases answered
              rw [if_neg root, if_neg isReturn, if_neg ret, if_neg isResults, if_neg read]
              have first := Message.root_spends (not_not.mp root)
              generalize m.root Ptr.zero defaultTraversalWords = atRoot at *
              have second := m.getp_left_le atRoot.out 0 Ptr.zero atRoot.left
              have third := m.getp_left_le (m.getp atRoot.out 0 Ptr.zero atRoot.left).out 0
                Ptr.zero (m.getp atRoot.out 0 Ptr.zero atRoot.left).left
              exact ⟨_, rfl, m.getp_left_le _ _ _ _, by omega⟩

/-- An entry of a cap table that names an export is a `senderHosted`
descriptor. -/
theorem hostedEntry_some {m : Message} {table : Ptr} {n eid : Nat}
    (named : hostedEntry m table n = some eid) :
    ∃ desc, Message.listGetStruct table n Ptr.zero = (.ok, desc) ∧
      m.getU16 desc capDescTagOff 0 = capDescTagSenderHosted ∧
        m.getU32 desc capDescSenderHostedOff 0 = eid := by
  unfold hostedEntry at named
  split at named
  · next desc found =>
    split at named
    · cases named
    · next isHosted => exact ⟨desc, found, not_not.mp isHosted, Option.some.inj named⟩
  · cases named

section
variable {c : Conn} {flat : List UInt8} {path : List Nat} {eid : Nat}

theorem resolveCapTable_of_capOf {stored : Message} {payload : Ptr} {cursor : Ptr × Nat}
    (named : capOf stored payload cursor = some eid) (small : eid < maxExports)
    (used : (c.exports eid).used = true) :
    c.resolveCapTable stored payload cursor.1 cursor.2 = some eid := by
  unfold capOf at named
  unfold Conn.resolveCapTable
  dsimp only at named ⊢
  split at named
  · cases named
  · next isCap =>
    rw [if_neg isCap]
    split at named
    · cases named
    · next table =>
      rw [not_or, not_not] at table
      obtain ⟨desc, found, isHosted, same⟩ := hostedEntry_some named
      rw [if_neg (not_not.mpr table.1), if_neg table.2, found]
      dsimp only
      rw [if_neg (not_not.mpr isHosted), same, if_pos ⟨small, used⟩]

/-- A promise resolves to what a peer reads, if the answer is found and the
export is in use. -/
theorem resolveTarget_of_capAt {m : Message} {target : Ptr} {left q i : Nat}
    (named : capAt flat path = some eid) (small : eid < maxExports)
    (used : (c.exports eid).used = true) (found : c.answerFind q = some i)
    (kept : (c.answers i).frame = flat) (promised : promiseOf m target left = some (q, path)) :
    (c.resolveTarget m target left).1 = some eid := by
  unfold promiseOf at promised
  dsimp only at promised
  split at promised
  · cases promised
  · next isPromise =>
    split at promised
    · cases promised
    · next isStruct =>
      split at promised
      · cases promised
      · next ops =>
        rw [not_or, not_not, not_not] at isPromise isStruct
        obtain ⟨walked, transform, same⟩ := Option.map_eq_some_iff.mp promised
        obtain ⟨question, rfl⟩ := Prod.mk.inj same
        unfold capAt at named
        split at named
        · cases named
        · next stored parsed =>
          split at named
          · cases named
          · next payload content storedLeft answered =>
            obtain ⟨finish, reached, atEnd⟩ := Option.bind_eq_some_iff.mp named
            have isCap : finish.1.kind = .cap := by
              unfold capOf at atEnd
              split at atEnd
              · cases atEnd
              · next isCap => exact not_not.mp isCap
            obtain ⟨_, _, less, most⟩ := returnPayload_of_answerPayload answered
            have short : walked.length ≤ 8388608 := by
              have bound := left_path reached isCap
              unfold defaultTraversalWords at most
              dsimp only at bound
              omega
            rw [length_transformPath transform] at short
            have count : (int32 (listLen (m.getp (m.getp target 0 Ptr.zero left).out 0 Ptr.zero
                (m.getp target 0 Ptr.zero left).left).out)).toNat =
                listLen (m.getp (m.getp target 0 Ptr.zero left).out 0 Ptr.zero
                  (m.getp target 0 Ptr.zero left).left).out := by
              rw [int32_of_range (by omega) (by omega)]
              rfl
            unfold Conn.resolveTarget
            dsimp only
            rw [if_neg (not_not.mpr isPromise.1), if_pos isPromise.2,
              if_neg (not_not.mpr isStruct.1)]
            unfold Conn.resolvePromisedAnswer
            dsimp only
            rw [if_neg (not_not.mpr isStruct.2), question, found]
            dsimp only
            rw [kept, parsed]
            dsimp only
            rw [answered]
            dsimp only
            rw [if_pos (not_not.mp ops), count, walkTransform_eq transform, reached]
            exact resolveCapTable_of_capOf atEnd small used

/-- No path leads to a capability. -/
def Capless (flat : List UInt8) : Prop := ∀ path, capAt flat path = none

/-- An answer that names no export has no capability anywhere. -/
theorem capless_of_hostedIds (none : hostedIds flat = []) : Capless flat := by
  intro path
  refine Option.eq_none_iff_forall_ne_some.mpr fun eid named => ?_
  unfold capAt at named
  split at named
  · cases named
  · next m parsed =>
    have same := messageFromFlat_ok parsed
    subst same
    split at named
    · cases named
    · next payload content left answered =>
      obtain ⟨left', read, less, -⟩ := returnPayload_of_answerPayload answered
      obtain ⟨finish, reached, atEnd⟩ := Option.bind_eq_some_iff.mp named
      unfold capOf at atEnd
      dsimp only at atEnd
      split at atEnd
      · cases atEnd
      · next isCap =>
        split at atEnd
        · cases atEnd
        · next table =>
          rw [not_or, not_not] at table
          have bound := left_path reached (not_not.mp isCap)
          dsimp only at bound
          have more : finish.2 ≤ left' := by omega
          obtain ⟨ok, out⟩ := Message.getp_covered table.1 Ptr.zero more
          have listed : eid ∈ hostedIds flat := by
            unfold hostedIds
            dsimp only
            rw [read]
            dsimp only
            rw [if_neg (not_not.mpr ok), out]
            exact List.mem_filterMap.mpr
              ⟨finish.1.count, List.mem_range.mpr (Nat.lt_of_not_ge table.2), atEnd⟩
          rw [none] at listed
          cases listed

end

/-! ## Kept answers -/

/-- The answer table has the answer to a question. -/
def Conn.Keeps (c : Conn) (q : Nat) (flat : List UInt8) : Prop :=
  ∃ i < maxAnswers, (c.answers i).used = true ∧ (c.answers i).questionId = q ∧
    (c.answers i).frame = flat

section
variable {c c' : Conn} {q qid : Nat} {flat flat' : List UInt8}

theorem Conn.Keeps.congr (keeps : c.Keeps q flat) (same : c'.answers = c.answers) :
    c'.Keeps q flat := by
  unfold Keeps
  rw [same]
  exact keeps

theorem Conn.Keeps.answerKeep (keeps : c.Keeps q flat) (qid : Nat) (flat' : List UInt8) :
    (c.answerKeep qid flat').Keeps q flat := by
  rcases c.answerKeep_cases qid flat' with same | ⟨j, -, free, kept⟩
  · rw [same]
    exact keeps
  · obtain ⟨i, small, used, holds⟩ := keeps
    have apart : i ≠ j := by
      rintro rfl
      rw [free] at used
      cases used
    rw [kept]
    exact ⟨i, small, by simpa [apart] using ⟨used, holds⟩⟩

theorem Conn.Keeps.answerDrop (keeps : c.Keeps q flat) (other : qid ≠ q) :
    (c.answerDrop qid).Keeps q flat := by
  unfold Conn.answerDrop
  cases found : c.answerFind qid with
  | none => exact keeps
  | some j =>
      obtain ⟨i, small, used, named, frame⟩ := keeps
      obtain ⟨-, holds, -⟩ := firstIndex_eq_some found
      simp only [Bool.and_eq_true, beq_iff_eq] at holds
      have apart : i ≠ j := by
        rintro rfl
        exact other (holds.2.symm.trans named)
      exact ⟨i, small, by simpa [apart] using ⟨used, named, frame⟩⟩

/-- A short answer is kept if there is room. -/
theorem Conn.keeps_answerKeep (room : ¬c.AnswersFull) (short : flat.length ≤ maxAnswerBytes) :
    (c.answerKeep q flat).Keeps q flat := by
  unfold Conn.answerKeep
  rw [if_pos short]
  cases found : firstIndex maxAnswers fun i => !(c.answers i).used with
  | none =>
      refine absurd (fun i small => ?_) room
      simpa using firstIndex_eq_none found i small
  | some i =>
      obtain ⟨small, -, -⟩ := firstIndex_eq_some found
      exact ⟨i, small, by simp⟩

/-- A kept answer is found, if it is the only one to its question. -/
theorem Conn.Keeps.found (keeps : c.Keeps q flat) (once : c.stored q ≤ 1) :
    ∃ i, c.answerFind q = some i ∧ (c.answers i).frame = flat := by
  obtain ⟨i, small, used, named, frame⟩ := keeps
  cases found : c.answerFind q with
  | none =>
      have absent := firstIndex_eq_none found i small
      simp [used, named] at absent
  | some j =>
      obtain ⟨index, holds, -⟩ := firstIndex_eq_some found
      simp only [Bool.and_eq_true, beq_iff_eq] at holds
      refine ⟨j, rfl, ?_⟩
      by_contra different
      have apart : i ≠ j := by
        rintro rfl
        exact different frame
      have both : ∑ l ∈ {i, j},
          (if (c.answers l).used = true ∧ (c.answers l).questionId = q then 1 else 0) ≤
            c.stored q := by
        refine Finset.sum_le_sum_of_subset fun l member => ?_
        rcases Finset.mem_insert.mp member with rfl | isSecond
        · exact Finset.mem_range.mpr small
        · rw [Finset.mem_singleton.mp isSecond]
          exact Finset.mem_range.mpr index
      rw [Finset.sum_pair apart, if_pos ⟨used, named⟩, if_pos holds] at both
      omega

theorem mem_resultsFor {which : Nat} {ids : List Nat} (isReturn : IsReturn flat qid which ids)
    (member : flat' ∈ resultsFor q [flat]) : flat' = flat ∧ q = qid ∧ which = returnTagResults := by
  obtain ⟨same, holds⟩ := List.mem_filter.mp member
  rw [List.mem_singleton.mp same, isReturn.read] at holds
  simp only [beq_iff_eq, Option.some.injEq, ReturnInfo.mk.injEq] at holds
  exact ⟨List.mem_singleton.mp same, holds.1.symm, holds.2⟩

end

/-- The message is answered at once with a capability. -/
def Incoming.GivesCap (msg : Incoming) (c : Conn) (v : Vat) : Prop :=
  (msg.which = msgBootstrap ∧ c.bootstrap ≠ 0 ∧
      (c.exportCap c.bootstrap c.bootstrapDispatch).1.isSome) ∨
    msg.which = msgAccept ∧ msg.embargo = false ∧ ∃ i, msg.finds v = some i ∧
      (c.exportCap (v.provisions i).server (v.provisions i).dispatch).1.isSome

namespace Net

/-- Every results `Return` for an open question is kept, or has no capability
to promise. -/
def Kept (s : Net) (qs : Questions) : Prop :=
  ∀ k q, qs.isOpen k q = true → ∀ flat ∈ qs.results k q,
    (s.conn k).Keeps q flat ∨ Capless flat

/-- The answer table has room for every capability that the message gives to an
open question, and no `Join` gives one. -/
structure Keeping (s : Net) (qs : Questions) (k : Nat) (msg : Incoming) : Prop where
  given : msg.GivesCap (s.conn k) s.vat → ¬(s.conn k).AnswersFull
  lifted : ∀ i, msg.lifts s.vat = some i →
    qs.isOpen k (s.vat.provisions i).acceptQuestionId = true → ¬(s.conn k).AnswersFull
  joined : ∀ slot c pnum, msg.which = msgJoin →
    msg.joinPlace (s.conn k) = some (slot, c, pnum) →
      (msg.joinPart c slot pnum).nseen = (msg.joinPart c slot pnum).partCount →
        (msg.joinPart c slot pnum).joined ≠ none →
          qs.isOpen k ((msg.joinPart c slot pnum).qids 0) = false ∧
            (msg.joinPart c slot pnum).qids 0 ≠ msg.questionId

/-- An action that delivers a message keeps the capabilities it gives. -/
def Stores (s : Net) (qs : Questions) (a : Action) : Prop :=
  ∀ k msg, a.Delivers k msg → s.Keeping qs k msg

theorem kept_init : init.Kept Questions.init := nofun

section
variable {s : Net} {k : Nat} {msg : Incoming} {w : World} {qs : Questions}

/-- A message keeps the answers if it keeps the old ones and stores the new. -/
theorem kept_of_sent (kept : s.Kept qs)
    (persists : ∀ q flat, msg.finishes q = false → (s.conn k).Keeps q flat → w.conn.Keeps q flat)
    (sent : ∀ q, qs.isOpen k q = true ∨ q ∈ msg.asks → ∀ flat ∈ resultsFor q w.sent,
      w.conn.Keeps q flat ∨ Capless flat) : (s.handled k msg w).Kept (s.noted k msg w qs) := by
  intro k' q isOpen flat member
  by_cases here : k' = k
  · subst here
    rw [show (s.handled k' msg w).conn k' = w.conn by simp [handled]]
    simp only [noted, Function.update_self, Bool.and_eq_true, Bool.not_eq_true',
      Bool.or_eq_true, decide_eq_true_eq] at isOpen
    obtain ⟨unfinished, known⟩ := isOpen
    simp only [noted, Function.update_self, unfinished, Bool.false_eq_true, if_false] at member
    rcases List.mem_append.mp member with old | new
    · by_cases asked : q ∈ msg.asks
      · rw [if_pos asked] at old
        cases old
      · rw [if_neg asked] at old
        rcases kept k' q (known.resolve_right asked) flat old with keeps | capless
        · exact .inl (persists q flat unfinished keeps)
        · exact .inr capless
    · exact sent q known flat new
  · rw [show (s.handled k msg w).conn k' = s.conn k' by simp [handled, here]]
    simp only [noted, ne_eq, here, not_false_eq_true, Function.update_of_ne] at isOpen member
    exact kept k' q isOpen flat member

/-- Every message keeps the answers that promise something. -/
theorem kept_of_handling {c' : Conn} {v' : Vat} {frames : List (List UInt8)}
    (handling : Handling msg (s.conn k) s.vat c' v' frames) (conn : w.conn = c')
    (sent : w.sent = frames) (kept : s.Kept qs) (keeping : s.Keeping qs k msg) :
    (s.handled k msg w).Kept (s.noted k msg w qs) := by
  have silent (answers : w.conn.answers = (s.conn k).answers) (none : w.sent = []) :
      (s.handled k msg w).Kept (s.noted k msg w qs) := by
    refine kept_of_sent kept (fun q flat _ keeps => keeps.congr answers) fun q _ flat member => ?_
    rw [none] at member
    cases member
  have promising {c₁ : Conn} {qid eid : Nat} {flat : List UInt8}
      (before : c₁.answers = (s.conn k).answers) (after : w.conn = c₁.answerKeep qid flat)
      (only : w.sent = [flat]) (isReturn : IsCapReturn flat qid eid)
      (room : qs.isOpen k qid = true ∨ qid ∈ msg.asks → ¬(s.conn k).AnswersFull) :
      (s.handled k msg w).Kept (s.noted k msg w qs) := by
    refine kept_of_sent kept (fun q flat' _ keeps => ?_) fun q known flat' member => ?_
    · rw [after]
      exact (keeps.congr before).answerKeep qid flat
    · rw [only] at member
      obtain ⟨rfl, rfl, -⟩ := mem_resultsFor isReturn.toIsReturn member
      have free : ¬c₁.AnswersFull := by
        unfold Conn.AnswersFull
        rw [before]
        exact room known
      rw [after]
      exact .inl (Conn.keeps_answerKeep free (by rw [isReturn.length_eq]; decide))
  have plain {qid which : Nat} {flat : List UInt8}
      (persists : ∀ q flat', (s.conn k).Keeps q flat' → w.conn.Keeps q flat')
      (only : w.sent = [flat]) (isReturn : IsReturn flat qid which []) :
      (s.handled k msg w).Kept (s.noted k msg w qs) := by
    refine kept_of_sent kept (fun q flat' _ => persists q flat') fun q _ flat' member => ?_
    rw [only] at member
    rw [(mem_resultsFor isReturn member).1]
    exact .inr (capless_of_hostedIds isReturn.hosted)
  cases handling with
  | quiet alike _ _ => exact silent (by rw [conn, alike.answers_eq]) sent
  | finished which =>
      refine kept_of_sent kept (fun q flat unfinished keeps => ?_) fun q _ flat member => ?_
      · rw [conn]
        refine keeps.answerDrop fun same => ?_
        rw [Incoming.finishes, which, same] at unfinished
        simp at unfinished
      · rw [sent] at member
        cases member
  | released _ =>
      refine silent ?_ sent
      rw [conn]
      unfold Conn.released
      split
      · rfl
      · rfl
  | refused alike _ isReturn _ =>
      exact plain (fun q flat keeps => keeps.congr (by rw [conn, alike.answers_eq])) sent isReturn
  | bootstrapped which exported isReturn some =>
      refine promising (Conn.exportCap_answers exported) conn sent isReturn fun _ => keeping.given ?_
      exact .inl ⟨which, some, by rw [exported]; rfl⟩
  | called _ alike isReturn =>
      refine plain (fun q flat keeps => ?_) sent isReturn
      rw [conn]
      exact (keeps.congr alike.answers_eq).answerKeep _ _
  | @provided i eid _ _ _ _ _ isReturn =>
      refine plain (fun q flat keeps => ?_) sent isReturn
      have same : ((s.conn k).retain eid).answers = (s.conn k).answers := rfl
      rw [conn]
      exact (keeps.congr same).answerKeep _ _
  | taken which presents claims exported isReturn now =>
      refine promising (Conn.exportCap_answers exported) conn sent isReturn fun _ => keeping.given ?_
      refine .inr ⟨which, now, _, ?_, by rw [exported]; rfl⟩
      rw [Incoming.finds, presents]
      exact claims
  | held _ _ _ _ exported =>
      exact silent (by rw [conn, Conn.exportCap_answers exported]) sent
  | lifted lifts isReturn =>
      have asks : msg.asks = [] := if_neg (by
        rw [which_of_lifts lifts]
        simp [msgDisembargo, msgBootstrap, msgCall, msgJoin, msgProvide, msgAccept])
      refine promising rfl conn sent isReturn fun known => keeping.lifted _ lifts ?_
      rw [asks] at known
      exact known.resolve_right List.not_mem_nil
  | joinRefused _ _ isReturn =>
      exact plain (fun q flat keeps => by rwa [conn]) sent isReturn.toIsReturn
  | joined _ place _ =>
      have answers := joinPlace_answers place
      exact silent (by rw [conn]; exact answers) sent
  | @completed slot pnum c₁ _ which place full answers =>
      refine kept_of_sent kept (fun q flat _ keeps => keeps.congr ?_) fun q known flat member => ?_
      · rw [conn, ← joinPlace_answers place]
        cases (msg.joinPart c₁ slot pnum).joined with
        | none => rfl
        | some _ => rfl
      · rw [sent] at member
        obtain ⟨inFrames, named⟩ := List.mem_filter.mp member
        obtain ⟨i, -, isReturn⟩ := answers.mem inFrames
        rw [isReturn.read] at named
        simp only [beq_iff_eq, Option.some.injEq, ReturnInfo.mk.injEq, and_true] at named
        refine .inr (capless_of_hostedIds (isReturn.hosted.trans ?_))
        split
        · next first =>
          rw [Option.toList_eq_nil_iff]
          by_contra carries
          obtain ⟨closed, other⟩ := keeping.joined slot c₁ pnum which place full carries
          rw [first] at named
          rw [named] at closed other
          rcases known with isOpen | asked
          · rw [isOpen] at closed
            cases closed
          · refine other ?_
            rw [show msg.asks = [msg.questionId] from
              if_pos (.inr (.inr (.inl which)))] at asked
            exact List.mem_singleton.mp asked
        · rfl
  | @echoed flat _ unread _ =>
      refine kept_of_sent kept (fun q flat _ keeps => by rwa [conn]) fun q _ flat' member => ?_
      rw [sent] at member
      obtain ⟨same, read⟩ := List.mem_filter.mp member
      rw [List.mem_singleton.mp same, unread] at read
      cases read

end

/-! ## Runs -/

/-- Every step keeps the answers that promise something. -/
theorem kept_step {s : Net} {qs : Questions} (sound : s.Sound) (kept : s.Kept qs) {a : Action}
    (stores : s.Stores qs a) : (s.step a).Kept (s.noteQuestions a qs) := by
  have worked {k : Nat} {c : Conn} (answers : c.answers = (s.conn k).answers) :
      (s.setConn k c).Kept qs := by
    intro k' q isOpen flat member
    by_cases here : k' = k
    · subst here
      rw [show (s.setConn k' c).conn k' = c by simp [setConn]]
      exact (kept k' q isOpen flat member).imp_left fun keeps => keeps.congr answers
    · rw [show (s.setConn k c).conn k' = s.conn k' by simp [setConn, here]]
      exact kept k' q isOpen flat member
  have does := does sound a
  generalize s.step a = s' at does
  cases does with
  | unread unread =>
      rw [noteQuestions, unread]
      exact kept
  | @handled k env data msg w read done handling =>
      rw [noteQuestions, read]
      dsimp only
      rw [done]
      exact kept_of_handling handling rfl rfl kept (stores k msg ⟨env, data, rfl, read⟩)
  | exported exported => exact worked (Conn.exportCap_answers exported)
  | full => exact kept
  | worked quiet _ answers _ =>
      rw [noteQuestions_quiet quiet]
      exact worked answers

theorem kept_of_reached {o : Net × Questions}
    (reached : Reached (init, Questions.init) (observed step noteQuestions)
      (fun o a => o.1.AsksFresh o.2 a ∧ o.1.LiftsOpen o.2 a ∧ o.1.Stores o.2 a) o) :
    o.1.Kept o.2 := by
  have both : o.1.Sound ∧ o.1.Kept o.2 := by
    induction reached with
    | start => exact ⟨sound_init, kept_init⟩
    | @step o _ a meets ih =>
        obtain ⟨sound, kept⟩ := ih
        exact ⟨(does sound a).sound sound, kept_step sound kept meets.2.2⟩
  exact both.2

/-- Answers stay pipelinable until they are finished: in every run whose
answers with capabilities find room in the table and are not those of a `Join`,
a target that promises what a peer reads in the answer to an open question
resolves to that export, as long as it is in use. -/
theorem answers_pipelinable {s : Net} {qs : Questions}
    (reached : Reached (init, Questions.init) (observed step noteQuestions)
      (fun o a => o.1.AsksFresh o.2 a ∧ o.1.LiftsOpen o.2 a ∧ o.1.Stores o.2 a) (s, qs))
    {k q : Nat} (isOpen : qs.isOpen k q = true) {flat : List UInt8}
    (sent : flat ∈ qs.results k q) {path : List Nat} {eid : Nat} (named : capAt flat path = some eid)
    (small : eid < maxExports) (used : ((s.conn k).exports eid).used = true) {m : Message}
    {target : Ptr} {left : Nat} (promised : promiseOf m target left = some (q, path)) :
    ((s.conn k).resolveTarget m target left).1 = some eid := by
  obtain ⟨-, -, single⟩ := single_of_reached (reached.mono fun _ _ meets => ⟨meets.1, meets.2.1⟩)
  have kept : s.Kept qs := kept_of_reached reached
  have once : (s.conn k).stored q ≤ 1 := by
    have bound := single k q
    rw [isOpen, if_pos rfl] at bound
    dsimp only at bound
    omega
  rcases kept k q isOpen flat sent with keeps | capless
  · obtain ⟨i, found, frame⟩ := keeps.found once
    exact resolveTarget_of_capAt named small used found frame promised
  · rw [capless path] at named
    cases named

/-- A test for `Stores` on runs without joins. -/
def stores (s : Net) : Action → Bool
  | .deliver k _ data => (readIncoming data).all fun msg =>
      msg.which != msgJoin && (List.range maxAnswers).any fun i => !((s.conn k).answers i).used
  | _ => true

theorem stores_sound {s : Net} {qs : Questions} {a : Action} (passed : s.stores a = true) :
    s.Stores qs a := by
  rintro k msg ⟨env, data, rfl, read⟩
  rw [stores, read, Option.all_some, Bool.and_eq_true, List.any_eq_true] at passed
  obtain ⟨notJoin, i, small, free⟩ := passed
  have room : ¬(s.conn k).AnswersFull := fun full => by
    rw [full i (List.mem_range.mp small)] at free
    cases free
  refine ⟨fun _ => room, fun _ _ _ => room, fun _ _ _ which => ?_⟩
  rw [which] at notJoin
  cases notJoin

/-- A `Call` of what another question promises, behind the first `n` of one
pointer field. -/
def pipelinedFrame (qid promised n field : UInt8) : List UInt8 :=
  [0, 0, 0, 0, 11, 0, 0, 0,
   0, 0, 0, 0, 1, 0, 1, 0,
   2, 0, 0, 0, 0, 0, 0, 0,
   0, 0, 0, 0, 1, 0, 1, 0,
   qid, 0, 0, 0, 0, 0, 0, 0,
   0, 0, 0, 0, 1, 0, 1, 0,
   0, 0, 0, 0, 1, 0, 0, 0,
   0, 0, 0, 0, 1, 0, 1, 0,
   promised, 0, 0, 0, 0, 0, 0, 0,
   1, 0, 0, 0, 15, 0, 0, 0,
   4 * n, 0, 0, 0, 1, 0, 0, 0,
   1, 0, field, 0, 0, 0, 0, 0]

/-- The target of a message, and the budget after reading it. -/
def targetOf (msg : Incoming) : Ptr × Nat :=
  let target := msg.message.getp msg.body 0 Ptr.zero msg.left
  (target.out, target.left)

/-- The bootstrap capability can be called before its answer is finished. -/
theorem answers_pipelinable_bootstrap :
    let s := (([.setBootstrap 0 1 1, arrives 0 (bootstrapFrame 5)] : List Action).foldl
      (observed step noteQuestions) (init, Questions.init)).1
    ∃ msg, readIncoming (pipelinedFrame 6 5 0 0) = some msg ∧
      ((s.conn 0).resolveTarget msg.message (targetOf msg).1 (targetOf msg).2).1 = some 0 := by
  have tested (o : Net × Questions) (a : Action)
      (passed : (o.1.asksFresh o.2 a && (o.1.liftsOpen o.2 a && o.1.stores a)) = true) :
      o.1.AsksFresh o.2 a ∧ o.1.LiftsOpen o.2 a ∧ o.1.Stores o.2 a := by
    simp only [Bool.and_eq_true] at passed
    exact ⟨asksFresh_sound passed.1, liftsOpen_sound passed.2.1, stores_sound passed.2.2⟩
  have reached : Reached (init, Questions.init) (observed step noteQuestions)
      (fun o a => o.1.AsksFresh o.2 a ∧ o.1.LiftsOpen o.2 a ∧ o.1.Stores o.2 a)
      (([.setBootstrap 0 1 1, arrives 0 (bootstrapFrame 5)] : List Action).foldl
        (observed step noteQuestions) (init, Questions.init)) :=
    Reached.start.of_passes tested (by decide +kernel)
  have answer : (((([.setBootstrap 0 1 1, arrives 0 (bootstrapFrame 5)] : List Action).foldl
      (observed step noteQuestions) (init, Questions.init)).2.results 0 5).any fun flat =>
        capAt flat [] == some 0) = true := by
    decide +kernel
  obtain ⟨flat, sent, named⟩ := List.any_eq_true.mp answer
  have call : ((readIncoming (pipelinedFrame 6 5 0 0)).any fun msg =>
      promiseOf msg.message (targetOf msg).1 (targetOf msg).2 == some (5, [])) = true := by
    decide +kernel
  obtain ⟨msg, read, promised⟩ := (Option.any_eq_true _ _).mp call
  exact ⟨msg, read, answers_pipelinable reached (by decide +kernel) sent (beq_iff_eq.mp named)
    (by decide) (by decide +kernel) (beq_iff_eq.mp promised)⟩

/-- The bootstrap capability is asked for, and joined in one part. -/
def joinedBootstrap : List Action :=
  [.setBootstrap 0 1 1, arrives 0 (bootstrapFrame 5), arrives 0 (joinFrame 6 9 1 0 0)]

/-- The capability in the answer of a `Join` cannot be called, although its
export is in use and the question is not finished. -/
theorem join_not_pipelinable :
    let o := joinedBootstrap.foldl (observed step noteQuestions) (init, Questions.init)
    Reached (init, Questions.init) (observed step noteQuestions)
        (fun o a => o.1.AsksFresh o.2 a) o ∧
      o.2.isOpen 0 6 = true ∧ (∃ flat ∈ o.2.results 0 6, capAt flat [0] = some 0) ∧
        ((o.1.conn 0).exports 0).used = true ∧
          ∃ msg, readIncoming (pipelinedFrame 7 6 1 0) = some msg ∧
            promiseOf msg.message (targetOf msg).1 (targetOf msg).2 = some (6, [0]) ∧
              ((o.1.conn 0).resolveTarget msg.message (targetOf msg).1 (targetOf msg).2).1 =
                none := by
  have answer : ((joinedBootstrap.foldl (observed step noteQuestions)
      (init, Questions.init)).2.results 0 6).any (fun flat => capAt flat [0] == some 0) = true := by
    decide +kernel
  obtain ⟨flat, sent, named⟩ := List.any_eq_true.mp answer
  have call : ((readIncoming (pipelinedFrame 7 6 1 0)).any fun msg =>
      let c := (joinedBootstrap.foldl (observed step noteQuestions) (init, Questions.init)).1.conn 0
      promiseOf msg.message (targetOf msg).1 (targetOf msg).2 == some (6, [0]) &&
        (c.resolveTarget msg.message (targetOf msg).1 (targetOf msg).2).1 == none) = true := by
    decide +kernel
  obtain ⟨msg, read, both⟩ := (Option.any_eq_true _ _).mp call
  simp only [Bool.and_eq_true, beq_iff_eq] at both
  have reached : Reached (init, Questions.init) (observed step noteQuestions)
      (fun o a => o.1.AsksFresh o.2 a)
      (joinedBootstrap.foldl (observed step noteQuestions) (init, Questions.init)) :=
    Reached.start.of_passes (fun _ _ => asksFresh_sound) (by decide +kernel)
  exact ⟨reached, by decide +kernel, ⟨flat, sent, beq_iff_eq.mp named⟩, by decide +kernel, msg,
    read, both⟩

end Net

end CapnpJanet.Rpc
