import CapnpJanet.Rpc.Pipelining

/-!
# Transforms

What a promised answer asks for: a path of pointer fields into a stored answer,
at the end of which a capability is named.  The code reads the transform of a
peer element by element, and takes one that it cannot read for an empty one.
-/

namespace CapnpJanet.Rpc

/-! ## The path of a transform -/

/-- The step of an op; only a `getPointerField` is one. -/
def opSteps (m : Message) (op : Ptr) : List Nat :=
  if m.getU16 op 0 0 = 1 then [m.getU16 op 2 0] else []

/-- The steps of the first `n` ops of a list, if each can be read as an op. -/
def transformSteps (m : Message) (ops : Ptr) : (n : Nat) → Option (List Nat)
  | 0 => some []
  | n + 1 =>
      match transformSteps m ops n, Message.listGetStruct ops n Ptr.zero with
      | some steps, (.ok, op) => some (steps ++ opSteps m op)
      | _, _ => none

/-- The transform pointer of a promised answer can be read, as null or as a
list. -/
def TransformReadable (m : Message) (promised : Ptr) (left : Nat) : Prop :=
  let ops := m.getp promised 0 Ptr.zero left
  ops.rc = .ok ∧ (ops.out.kind = .null ∨ ops.out.kind = .list)

/-- The path that a promised answer asks for. -/
def transformOf (m : Message) (promised : Ptr) (left : Nat) : Option (List Nat) :=
  let ops := m.getp promised 0 Ptr.zero left
  if ops.rc ≠ .ok then none
  else
    match ops.out.kind with
    | .null => some []
    | .list => transformSteps m ops.out ops.out.count
    | _ => none

/-! ## What a promise names -/

/-- The answer to a question is stored, and is a `Return` with these results. -/
def Conn.Stores (c : Conn) (qid : Nat) (stored : Message) (payload : Ptr) (content : Ptr × Nat) :
    Prop :=
  ∃ i, c.answerFind qid = some i ∧ messageFromFlat (c.answers i).frame = .ok stored ∧
    answerPayload stored = some (payload, content)

/-- A path into a stored answer passes only through structs, and ends at a
capability whose descriptor in the cap table names an export in use. -/
def Conn.Names (c : Conn) (stored : Message) (payload : Ptr) (content : Ptr × Nat)
    (steps : List Nat) (eid : Nat) : Prop :=
  ∃ finish, steps.foldlM (follow stored) content = some finish ∧
    capOf stored payload finish = some eid ∧ eid < maxExports ∧ (c.exports eid).used = true

/-- A promised answer names an export. -/
def Conn.Promises (c : Conn) (m : Message) (promised : Ptr) (left eid : Nat) : Prop :=
  ∃ stored payload content steps, c.Stores (m.getU32 promised 0 0) stored payload content ∧
    transformOf m promised left = some steps ∧ c.Names stored payload content steps eid

/-- The content of a stored answer is itself a capability that names an export
in use. -/
def Conn.NamesContent (c : Conn) (qid : Nat) : Prop :=
  ∃ stored payload content eid, c.Stores qid stored payload content ∧
    c.Names stored payload content [] eid

section
variable {c : Conn} {m stored : Message} {promised ops payload : Ptr} {n left eid : Nat}
  {start finish : Ptr × Nat}

/-- One more op is one more step, or none. -/
theorem walkTransform_succ : walkTransform m stored ops (n + 1) start =
    (walkTransform m stored ops n start).bind fun reached =>
      match Message.listGetStruct ops n Ptr.zero with
      | (.ok, op) => (opSteps m op).foldlM (follow stored) reached
      | _ => none := by
  rw [walkTransform]
  cases walkTransform m stored ops n start with
  | none => rfl
  | some reached =>
      obtain ⟨cursor, rest⟩ := reached
      dsimp only [Option.bind_some]
      generalize Message.listGetStruct ops n Ptr.zero = elem
      obtain ⟨rc, op⟩ := elem
      cases rc with
      | ok =>
          dsimp only
          unfold opSteps
          by_cases isField : m.getU16 op 0 0 = 1
          · rw [if_neg (not_not.mpr isField), if_pos isField]
            simp only [List.foldlM_cons, List.foldlM_nil, follow]
            split
            · rfl
            · split
              · rfl
              · rfl
          · rw [if_pos isField, if_neg isField]
            rfl
      | _ => rfl

/-- The loop over the ops follows the steps, if it can read all ops. -/
theorem walkTransform_eq_some_iff :
    walkTransform m stored ops n start = some finish ↔
      ∃ steps, transformSteps m ops n = some steps ∧
        steps.foldlM (follow stored) start = some finish := by
  induction n generalizing finish with
  | zero =>
      rw [walkTransform]
      simp [transformSteps]
  | succ n ih =>
      rw [walkTransform_succ, Option.bind_eq_some_iff]
      constructor
      · rintro ⟨reached, walked, last⟩
        obtain ⟨steps, earlier, followed⟩ := ih.mp walked
        split at last
        · next op elem =>
          refine ⟨steps ++ opSteps m op, ?_, ?_⟩
          · rw [transformSteps, earlier, elem]
          · rw [List.foldlM_append, followed]
            exact last
        · cases last
      · rintro ⟨steps, read, followed⟩
        unfold transformSteps at read
        split at read
        · next before op earlier elem =>
          cases read
          rw [List.foldlM_append] at followed
          obtain ⟨reached, walked, last⟩ := Option.bind_eq_some_iff.mp followed
          refine ⟨reached, ih.mpr ⟨before, earlier, walked⟩, ?_⟩
          rw [elem]
          exact last
        · cases read

/-- An entry of a cap table resolves to the export in use that it names. -/
theorem resolveCapTable_eq_some_iff :
    c.resolveCapTable stored payload finish.1 finish.2 = some eid ↔
      capOf stored payload finish = some eid ∧ eid < maxExports ∧
        (c.exports eid).used = true := by
  constructor
  · intro resolved
    unfold Conn.resolveCapTable at resolved
    unfold capOf
    dsimp only at resolved ⊢
    split at resolved
    · cases resolved
    · next isCap =>
      split at resolved
      · cases resolved
      · next table =>
        split at resolved
        · cases resolved
        · next inside =>
          split at resolved
          · next desc found =>
            split at resolved
            · cases resolved
            · next isHosted =>
              split at resolved
              · next live =>
                cases resolved
                rw [if_neg isCap, if_neg (not_or.mpr ⟨table, inside⟩), hostedEntry, found]
                dsimp only
                rw [if_neg isHosted]
                exact ⟨rfl, live⟩
              · cases resolved
          · cases resolved
  · rintro ⟨named, small, used⟩
    exact resolveCapTable_of_capOf named small used

/-- Elements without data are ops without steps. -/
theorem transformSteps_empty (isList : ops.kind = .list) (composite : ops.esize = .composite)
    (empty : ops.dwords = 0) (inside : n ≤ ops.count) : transformSteps m ops n = some [] := by
  induction n with
  | zero => rfl
  | succ n ih =>
      have elem : Message.listGetStruct ops n Ptr.zero = (.ok, Message.elemPtr ops n) := by
        unfold Message.listGetStruct
        rw [if_neg (not_not.mpr isList), if_neg (by omega), composite]
      have noBytes : m.getU16 (Message.elemPtr ops n) 0 0 = 0 := by
        unfold Message.getU16 Message.getScalar
        rw [if_neg]
        simp [dataHasBytes, dataBitCount, Message.elemPtr, Ptr.zero, empty]
      rw [transformSteps, ih (by omega), elem]
      dsimp only
      rw [opSteps, noBytes]
      rfl

/-- The number of rounds of the loop, which is counted with an `int`, is that of
the ops, or does not matter. -/
theorem transformSteps_int32 (counted : Message.Counted ops left)
    (budget : left ≤ defaultTraversalWords) (isList : ops.kind = .list) :
    transformSteps m ops (int32 (listLen ops)).toNat = transformSteps m ops ops.count := by
  have size : listLen ops = ops.count := if_neg (not_not.mpr isList)
  unfold defaultTraversalWords at budget
  rw [size]
  by_cases small : ops.count < 2 ^ 31
  · rw [int32_of_range (Int.natCast_nonneg _) (by exact_mod_cast small), Int.toNat_natCast]
  · rcases counted isList with short | ⟨composite, paid⟩
    · exact absurd (short.trans (by decide)) small
    · have noWords : ops.dwords + ops.pwords = 0 := by
        by_contra words
        have : ops.count ≤ ops.count * (ops.dwords + ops.pwords) :=
          Nat.le_mul_of_pos_right _ (Nat.pos_of_ne_zero words)
        omega
      have rounds : (int32 ops.count).toNat ≤ ops.count := by
        unfold int32
        omega
      rw [transformSteps_empty isList composite (by omega) rounds,
        transformSteps_empty isList composite (by omega) le_rfl]

/-- How many ops of its transform the code reads. -/
def transformRounds (m : Message) (promised : Ptr) (left : Nat) : Nat :=
  let ops := m.getp promised 0 Ptr.zero left
  if ops.rc = .ok then (int32 (listLen ops.out)).toNat else 0

theorem resolvePromisedAnswer_rounds (isStruct : promised.kind = .struct) :
    (c.resolvePromisedAnswer m promised left).1 = some eid ↔
      ∃ stored payload content, c.Stores (m.getU32 promised 0 0) stored payload content ∧
        ∃ finish, walkTransform m stored (m.getp promised 0 Ptr.zero left).out
            (transformRounds m promised left) content = some finish ∧
          capOf stored payload finish = some eid ∧ eid < maxExports ∧
            (c.exports eid).used = true := by
  unfold Conn.resolvePromisedAnswer transformRounds
  rw [if_neg (not_not.mpr isStruct)]
  generalize m.getp promised 0 Ptr.zero left = ops
  dsimp only
  generalize (if ops.rc = .ok then (int32 (listLen ops.out)).toNat else 0) = rounds
  constructor
  · intro resolved
    cases found : c.answerFind (m.getU32 promised 0 0) with
    | none =>
        rw [found] at resolved
        cases resolved
    | some i =>
        rw [found] at resolved
        dsimp only at resolved
        cases parsed : messageFromFlat (c.answers i).frame with
        | error rc =>
            rw [parsed] at resolved
            cases resolved
        | ok stored =>
            rw [parsed] at resolved
            dsimp only at resolved
            cases answered : answerPayload stored with
            | none =>
                rw [answered] at resolved
                cases resolved
            | some answer =>
                obtain ⟨payload, content, storedLeft⟩ := answer
                rw [answered] at resolved
                dsimp only at resolved
                cases walked : walkTransform m stored ops.out rounds (content, storedLeft) with
                | none =>
                    rw [walked] at resolved
                    cases resolved
                | some finish =>
                    rw [walked] at resolved
                    exact ⟨stored, payload, (content, storedLeft),
                      ⟨i, found, parsed, answered⟩, finish, walked,
                      resolveCapTable_eq_some_iff.mp resolved⟩
  · rintro ⟨stored, payload, content, ⟨i, found, parsed, answered⟩, finish, walked, named⟩
    rw [found]
    dsimp only
    rw [parsed]
    dsimp only
    rw [answered]
    dsimp only
    rw [walked]
    exact resolveCapTable_eq_some_iff.mpr named

/-- What a promised answer resolves to, if its transform can be read. -/
theorem resolvePromisedAnswer_eq_some_iff (isStruct : promised.kind = .struct)
    (budget : left ≤ defaultTraversalWords) (readable : TransformReadable m promised left) :
    (c.resolvePromisedAnswer m promised left).1 = some eid ↔ c.Promises m promised left eid := by
  have rounds : transformSteps m (m.getp promised 0 Ptr.zero left).out
      (transformRounds m promised left) = transformOf m promised left := by
    obtain ⟨ok, shape⟩ := readable
    unfold transformRounds transformOf
    dsimp only
    rw [if_pos ok, if_neg (not_not.mpr ok)]
    rcases shape with isNull | isList
    · have noRounds : (int32 (listLen (m.getp promised 0 Ptr.zero left).out)).toNat = 0 := by
        rw [listLen, if_pos (by rw [isNull]; decide)]
        decide
      rw [isNull, noRounds]
      rfl
    · rw [isList]
      exact transformSteps_int32 (Message.getp_counted ok) budget isList
  rw [resolvePromisedAnswer_rounds isStruct]
  constructor
  · rintro ⟨stored, payload, content, stores, finish, walked, named⟩
    obtain ⟨steps, read, followed⟩ := walkTransform_eq_some_iff.mp walked
    exact ⟨stored, payload, content, steps, stores, rounds.symm.trans read, finish, followed,
      named⟩
  · rintro ⟨stored, payload, content, steps, stores, read, finish, followed, named⟩
    exact ⟨stored, payload, content, stores, finish,
      walkTransform_eq_some_iff.mpr ⟨steps, rounds.trans read, followed⟩, named⟩

/-- A transform that cannot be read is taken for an empty one. -/
theorem resolvePromisedAnswer_unreadable (isStruct : promised.kind = .struct)
    (unreadable : ¬TransformReadable m promised left) :
    (c.resolvePromisedAnswer m promised left).1 = some eid ↔
      ∃ stored payload content, c.Stores (m.getU32 promised 0 0) stored payload content ∧
        c.Names stored payload content [] eid := by
  have rounds : transformRounds m promised left = 0 := by
    unfold transformRounds
    dsimp only
    split
    · next ok =>
      have notList : (m.getp promised 0 Ptr.zero left).out.kind ≠ .list := fun isList =>
        unreadable ⟨ok, .inr isList⟩
      rw [listLen, if_pos notList]
      rfl
    · rfl
  rw [resolvePromisedAnswer_rounds isStruct, rounds]
  rfl

end

/-- A promised answer resolves to what it names, exactly if its transform can
be read, or an empty one would name nothing. -/
theorem resolvePromisedAnswer_promises_iff (c : Conn) {m : Message} {promised : Ptr} {left : Nat}
    (isStruct : promised.kind = .struct) (budget : left ≤ defaultTraversalWords) :
    (∀ eid, (c.resolvePromisedAnswer m promised left).1 = some eid ↔
        c.Promises m promised left eid) ↔
      (TransformReadable m promised left ∨ ¬c.NamesContent (m.getU32 promised 0 0)) := by
  by_cases readable : TransformReadable m promised left
  · exact ⟨fun _ => .inl readable, fun _ eid =>
      resolvePromisedAnswer_eq_some_iff isStruct budget readable⟩
  · have noPath : transformOf m promised left = none := by
      unfold transformOf
      dsimp only
      split
      · rfl
      · next ok =>
        split
        · next isNull => exact absurd ⟨not_not.mp ok, .inl isNull⟩ readable
        · next isList => exact absurd ⟨not_not.mp ok, .inr isList⟩ readable
        · rfl
    have names (eid : Nat) : ¬c.Promises m promised left eid := by
      rintro ⟨_, _, _, _, _, path, _⟩
      rw [noPath] at path
      cases path
    constructor
    · refine fun same => .inr ?_
      rintro ⟨stored, payload, content, eid, stores, named⟩
      exact names eid ((same eid).mp ((resolvePromisedAnswer_unreadable isStruct readable).mpr
        ⟨stored, payload, content, stores, named⟩))
    · rintro (read | nothing) eid
      · exact absurd read readable
      · rw [resolvePromisedAnswer_unreadable isStruct readable]
        constructor
        · rintro ⟨stored, payload, content, stores, named⟩
          exact (nothing ⟨stored, payload, content, eid, stores, named⟩).elim
        · exact fun named => (names eid named).elim

/-- A connection that has answered a `Bootstrap` with its capability. -/
def bootstrapped : Conn :=
  (([.setBootstrap 0 1 1, Net.arrives 0 (Net.bootstrapFrame 5)] : List Action).foldl Net.step
    Net.init).conn 0

/-- The promised answer of a pipelined call, and the budget after reading it. -/
def promisedOf (msg : Incoming) : Ptr × Nat :=
  let target := Net.targetOf msg
  let promised := msg.message.getp target.1 0 Ptr.zero target.2
  (promised.out, promised.left)

/-- An empty transform can be read, and names the answer's content. -/
theorem resolvePromisedAnswer_promises_bootstrap :
    ∃ msg, readIncoming (Net.pipelinedFrame 6 5 0 0) = some msg ∧
      bootstrapped.Promises msg.message (promisedOf msg).1 (promisedOf msg).2 0 := by
  have found : ((readIncoming (Net.pipelinedFrame 6 5 0 0)).any fun msg =>
      let promised := promisedOf msg
      let ops := msg.message.getp promised.1 0 Ptr.zero promised.2
      (promised.1.kind == .struct && decide (promised.2 ≤ defaultTraversalWords)) &&
        ((ops.rc == .ok && ops.out.kind == .list) &&
          (bootstrapped.resolvePromisedAnswer msg.message promised.1 promised.2).1 == some 0)) =
        true := by
    decide +kernel
  obtain ⟨msg, read, facts⟩ := (Option.any_eq_true _ _).mp found
  simp only [Bool.and_eq_true, beq_iff_eq, decide_eq_true_eq] at facts
  obtain ⟨⟨isStruct, budget⟩, ⟨ok, isList⟩, resolved⟩ := facts
  exact ⟨msg, read, ((resolvePromisedAnswer_promises_iff bootstrapped isStruct budget).mpr
    (.inl ⟨ok, .inr isList⟩) 0).mp resolved⟩

/-- A pipelined call whose transform is a struct instead of a list. -/
def misshapenFrame : List UInt8 := ((Net.pipelinedFrame 6 5 0 0).set 72 0).set 76 1

/-- A transform that is not a list redirects the call to the answer's content. -/
theorem resolvePromisedAnswer_redirects :
    ∃ msg, readIncoming misshapenFrame = some msg ∧ (promisedOf msg).1.kind = .struct ∧
      (promisedOf msg).2 ≤ defaultTraversalWords ∧
      (bootstrapped.resolvePromisedAnswer msg.message (promisedOf msg).1 (promisedOf msg).2).1 =
        some 0 ∧
      ¬bootstrapped.Promises msg.message (promisedOf msg).1 (promisedOf msg).2 0 := by
  have found : ((readIncoming misshapenFrame).any fun msg =>
      let promised := promisedOf msg
      (promised.1.kind == .struct && decide (promised.2 ≤ defaultTraversalWords)) &&
        ((bootstrapped.resolvePromisedAnswer msg.message promised.1 promised.2).1 == some 0 &&
          transformOf msg.message promised.1 promised.2 == none)) = true := by
    decide +kernel
  obtain ⟨msg, read, facts⟩ := (Option.any_eq_true _ _).mp found
  simp only [Bool.and_eq_true, beq_iff_eq, decide_eq_true_eq] at facts
  obtain ⟨⟨isStruct, budget⟩, resolved, noPath⟩ := facts
  refine ⟨msg, read, isStruct, budget, resolved, ?_⟩
  rintro ⟨_, _, _, _, _, path, _⟩
  rw [noPath] at path
  cases path

end CapnpJanet.Rpc
