import CapnpJanet.Message.Getters

/-!
# Connection and vat state

The tables of `capnp_rpc.h`.  A C array is a function of the index that is only
used below the array's size; a table is searched from the front.  Servers and
dispatch functions are pointers, of which the code only compares and passes on
the address, so they are numbers, with zero for `NULL`.

An entry that `memset` has cleared is the `zero` of its type.
-/

namespace CapnpJanet.Rpc

/-- `CAPNP_RPC_MAX_EXPORTS` -/
def maxExports : Nat := 64

/-- `CAPNP_RPC_MAX_ANSWERS` -/
def maxAnswers : Nat := 64

/-- `CAPNP_RPC_MAX_ANSWER_BYTES` -/
def maxAnswerBytes : Nat := 8192

/-- `CAPNP_RPC_MAX_QUESTIONS` -/
def maxQuestions : Nat := 64

/-- `CAPNP_RPC_MAX_PROVISIONS` -/
def maxProvisions : Nat := 32

/-- `CAPNP_RPC_MAX_INTRODUCTIONS` -/
def maxIntroductions : Nat := 8

/-- `CAPNP_RPC_MAX_HOST` -/
def maxHost : Nat := 64

/-- `CAPNP_RPC_MAX_JOINS` -/
def maxJoins : Nat := 8

/-- `CAPNP_RPC_MAX_JOIN_PARTS` -/
def maxJoinParts : Nat := 16

/-- Conversion to a 32-bit `int`. -/
def int32 (n : Int) : Int := (n + 2 ^ 31) % 2 ^ 32 - 2 ^ 31

theorem int32_of_range {n : Int} (low : -2 ^ 31 ≤ n) (high : n < 2 ^ 31) : int32 n = n := by
  unfold int32
  rw [Int.emod_eq_of_lt (by omega) (by omega)]
  omega

/-- The first index below `n` that satisfies a test. -/
def firstIndex (n : Nat) (test : Nat → Bool) : Option Nat := (List.range n).find? test

theorem firstIndex_eq_some {n i : Nat} {test : Nat → Bool} (found : firstIndex n test = some i) :
    i < n ∧ test i = true ∧ ∀ j < i, test j = false := by
  obtain ⟨holds, before⟩ := List.find?_range_eq_some.mp found
  refine ⟨List.mem_range.mp before.1, holds, fun j earlier => ?_⟩
  simpa using before.2 j earlier

theorem firstIndex_eq_none {n : Nat} {test : Nat → Bool} (none : firstIndex n test = none) :
    ∀ i < n, test i = false := by
  intro i hi
  simpa using List.find?_eq_none.mp none i (List.mem_range.mpr hi)

/-- `capnp_rpc_export_t` -/
structure Export where
  used : Bool
  refcount : Int
  server : Nat
  dispatch : Nat
deriving DecidableEq, Repr

/-- `capnp_rpc_answer_t`; `len` is the length of `frame`. -/
structure Answer where
  used : Bool
  questionId : Nat
  frame : List UInt8
deriving DecidableEq, Repr

/-- `capnp_rpc_question_t`; `reply_len` is the length of `reply`. -/
structure Question where
  used : Bool
  questionId : Nat
  answered : Bool
  failed : Bool
  reply : List UInt8
deriving DecidableEq, Repr

/-- `capnp_rpc_provision_t` -/
structure Provision where
  used : Bool
  nonce : Nat
  server : Nat
  dispatch : Nat
  exportId : Nat
  questionId : Nat
  embargoed : Bool
  acceptQuestionId : Nat
deriving DecidableEq, Repr

/-- `capnp_rpc_introduction_t` -/
structure Introduction where
  used : Bool
  nonce : Nat
  vineId : Nat
  port : Nat
  host : List UInt8
deriving DecidableEq, Repr

/-- `capnp_rpc_join_t`.  A part that resolved to nothing has the export id
`none`, which is -1 in the source. -/
structure Join where
  used : Bool
  joinId : Nat
  partCount : Nat
  nseen : Nat
  seen : Nat → Bool
  qids : Nat → Nat
  eids : Nat → Option Nat

def Export.zero : Export := ⟨false, 0, 0, 0⟩
def Answer.zero : Answer := ⟨false, 0, []⟩
def Question.zero : Question := ⟨false, 0, false, false, []⟩
def Provision.zero : Provision := ⟨false, 0, 0, 0, 0, 0, false, 0⟩
def Introduction.zero : Introduction := ⟨false, 0, 0, 0, []⟩

/-- The export id zero of a cleared slot is `some 0`; no part of it is seen. -/
def Join.zero : Join := ⟨false, 0, 0, 0, fun _ => false, fun _ => 0, fun _ => some 0⟩

/-- `capnp_rpc_vat_t` -/
structure Vat where
  provisions : Nat → Provision

/-- `capnp_rpc_conn_t`, without the vat it points to and without its send
callback, which belongs to the environment. -/
structure Conn where
  exports : Nat → Export
  answers : Nat → Answer
  questions : Nat → Question
  introductions : Nat → Introduction
  nextQuestionId : Nat
  joins : Nat → Join
  bootstrap : Nat
  bootstrapDispatch : Nat

/-- A vat without provisions. -/
def Vat.init : Vat := ⟨fun _ => Provision.zero⟩

/-- `capnp_rpc_init` -/
def Conn.init : Conn where
  exports := fun _ => Export.zero
  answers := fun _ => Answer.zero
  questions := fun _ => Question.zero
  introductions := fun _ => Introduction.zero
  nextQuestionId := 0
  joins := fun _ => Join.zero
  bootstrap := 0
  bootstrapDispatch := 0

/-- Replace a provision. -/
def Vat.setProvision (v : Vat) (i : Nat) (p : Provision) : Vat :=
  { v with provisions := Function.update v.provisions i p }

@[simp]
theorem Vat.setProvision_provisions (v : Vat) (i : Nat) (p : Provision) (j : Nat) :
    (v.setProvision i p).provisions j = if j = i then p else v.provisions j := by
  simp [setProvision, Function.update_apply]

namespace Conn

/-- Replace an export. -/
def setExport (c : Conn) (i : Nat) (e : Export) : Conn :=
  { c with exports := Function.update c.exports i e }

@[simp]
theorem setExport_exports (c : Conn) (i : Nat) (e : Export) (j : Nat) :
    (c.setExport i e).exports j = if j = i then e else c.exports j := by
  simp [setExport, Function.update_apply]

/-- Replace a join. -/
def setJoin (c : Conn) (i : Nat) (join : Join) : Conn :=
  { c with joins := Function.update c.joins i join }

/-- `capnp_rpc_set_bootstrap` -/
def setBootstrap (c : Conn) (server dispatch : Nat) : Conn :=
  { c with bootstrap := server, bootstrapDispatch := dispatch }

/-- `c->exports[i].refcount++` -/
def retain (c : Conn) (i : Nat) : Conn :=
  c.setExport i { c.exports i with refcount := int32 ((c.exports i).refcount + 1) }

/-- `capnp_rpc_export`: the id a server already has, or the first free one;
`none` is -1. -/
def exportCap (c : Conn) (server dispatch : Nat) : Option Nat × Conn :=
  match firstIndex maxExports fun i => (c.exports i).used && (c.exports i).server == server with
  | some i => (some i, c.retain i)
  | none =>
      match firstIndex maxExports fun i => !(c.exports i).used with
      | some i => (some i, c.setExport i ⟨true, 1, server, dispatch⟩)
      | none => (none, c)

/-- `answer_find` -/
def answerFind (c : Conn) (qid : Nat) : Option Nat :=
  firstIndex maxAnswers fun i => (c.answers i).used && (c.answers i).questionId == qid

/-- `answer_drop` -/
def answerDrop (c : Conn) (qid : Nat) : Conn :=
  match c.answerFind qid with
  | none => c
  | some i =>
      { c with answers := Function.update c.answers i { c.answers i with used := false } }

/-- The answer table part of `flush_answer`: a reply that fits is kept in the
first free entry, if there is one. -/
def answerKeep (c : Conn) (qid : Nat) (flat : List UInt8) : Conn :=
  if flat.length ≤ maxAnswerBytes then
    match firstIndex maxAnswers fun i => !(c.answers i).used with
    | some i => { c with answers := Function.update c.answers i ⟨true, qid, flat⟩ }
    | none => c
  else c

/-! ### What exporting keeps -/

/-- Every export in use is still in use, for the same server. -/
def Exporting (c c' : Conn) : Prop :=
  ∀ e, (c.exports e).used = true →
    (c'.exports e).used = true ∧ (c'.exports e).server = (c.exports e).server

theorem Exporting.refl (c : Conn) : c.Exporting c := fun _ used => ⟨used, rfl⟩

theorem Exporting.trans {c c' c'' : Conn} (first : c.Exporting c') (second : c'.Exporting c'') :
    c.Exporting c'' := by
  intro e used
  obtain ⟨used', server'⟩ := first e used
  obtain ⟨used'', server''⟩ := second e used'
  exact ⟨used'', server''.trans server'⟩

theorem Exporting.of_eq {c c' : Conn} (same : c'.exports = c.exports) : c.Exporting c' := by
  intro e used
  rw [same]
  exact ⟨used, rfl⟩

theorem retain_exporting (c : Conn) (i : Nat) : c.Exporting (c.retain i) := by
  intro e used
  by_cases same : e = i
  · subst same
    simpa [retain] using used
  · simpa [retain, same] using used

/-- An exported server has an id, and its entry names it. -/
theorem exportCap_some {c c' : Conn} {server dispatch eid : Nat}
    (exported : c.exportCap server dispatch = (some eid, c')) :
    eid < maxExports ∧ (c'.exports eid).used = true ∧ (c'.exports eid).server = server ∧
      c.Exporting c' ∧ c'.joins = c.joins := by
  unfold exportCap at exported
  split at exported
  · next i found =>
    obtain ⟨small, holds, -⟩ := firstIndex_eq_some found
    simp only [Bool.and_eq_true, beq_iff_eq] at holds
    simp only [Prod.mk.injEq, Option.some.injEq] at exported
    obtain ⟨rfl, rfl⟩ := exported
    obtain ⟨used, same⟩ := retain_exporting c i i holds.1
    exact ⟨small, used, same.trans holds.2, retain_exporting c i, rfl⟩
  · split at exported
    · next i found =>
      obtain ⟨small, free, -⟩ := firstIndex_eq_some found
      simp only [Prod.mk.injEq, Option.some.injEq] at exported
      obtain ⟨rfl, rfl⟩ := exported
      refine ⟨small, by simp, by simp, fun e used => ?_, rfl⟩
      have other : e ≠ i := by
        rintro rfl
        simp [used] at free
      simpa [other] using used
    · cases exported

/-- The free entry that exporting a server fills, unless it has one already. -/
def fills (c : Conn) (server : Nat) : Option Nat :=
  match firstIndex maxExports fun i => (c.exports i).used && (c.exports i).server == server with
  | some _ => none
  | none => firstIndex maxExports fun i => !(c.exports i).used

/-- Exporting a server counts one more reference to its entry, or fills a free
one. -/
theorem exportCap_cases {c c' : Conn} {server dispatch eid : Nat}
    (exported : c.exportCap server dispatch = (some eid, c')) :
    (c.exports eid).used = true ∧ (c.exports eid).server = server ∧ c' = c.retain eid ∨
      c.fills server = some eid ∧ (c.exports eid).used = false ∧
        c' = c.setExport eid ⟨true, 1, server, dispatch⟩ := by
  unfold exportCap at exported
  split at exported
  · next i found =>
    obtain ⟨-, holds, -⟩ := firstIndex_eq_some found
    simp only [Bool.and_eq_true, beq_iff_eq] at holds
    simp only [Prod.mk.injEq, Option.some.injEq] at exported
    obtain ⟨rfl, rfl⟩ := exported
    exact .inl ⟨holds.1, holds.2, rfl⟩
  · next unknown =>
    split at exported
    · next i found =>
      obtain ⟨-, free, -⟩ := firstIndex_eq_some found
      simp only [Prod.mk.injEq, Option.some.injEq] at exported
      obtain ⟨rfl, rfl⟩ := exported
      refine .inr ⟨?_, by simpa using free, rfl⟩
      rw [fills, unknown]
      exact found
    · cases exported

/-- A full table refuses without a change. -/
theorem exportCap_none {c c' : Conn} {server dispatch : Nat}
    (refused : c.exportCap server dispatch = (none, c')) : c' = c := by
  unfold exportCap at refused
  split at refused
  · cases refused
  · split at refused
    · cases refused
    · exact (Prod.mk.inj refused).2.symm

/-- `question_find` -/
def questionFind (c : Conn) (qid : Nat) : Option Nat :=
  firstIndex maxQuestions fun i => (c.questions i).used && (c.questions i).questionId == qid

end Conn

end CapnpJanet.Rpc
