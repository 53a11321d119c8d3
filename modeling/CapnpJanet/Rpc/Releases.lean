import CapnpJanet.Rpc.Cases
import CapnpJanet.Rpc.Requests

/-!
# Release counts

A `Release` carries an unsigned count, and the table keeps a signed one.  The
count of the message is cast to `int` before it is subtracted, so that a count
of more than half the range adds references.  Where the difference leaves the
range of `int` the code has no defined result; the model wraps it around, and
nothing is said of what it leaves then.
-/

namespace CapnpJanet.Rpc

/-- The export is in use and has references. -/
def Conn.Referenced (c : Conn) (id : Nat) : Prop :=
  id < maxExports ∧ (c.exports id).used = true ∧ 0 < (c.exports id).refcount

instance (c : Conn) (id : Nat) : Decidable (c.Referenced id) :=
  inferInstanceAs (Decidable (_ ∧ _ ∧ _))

/-- A `Release` drops as many references as it counts: an export that has no
more is freed, one that has more keeps the rest, and no other export changes. -/
structure Conn.Drops (c c' : Conn) (id count : Nat) : Prop where
  freed : c.Referenced id → (c.exports id).refcount ≤ count → c'.exports id = Export.zero
  kept : c.Referenced id → (count : Int) < (c.exports id).refcount →
    c'.exports id = { c.exports id with refcount := (c.exports id).refcount - count }
  fewer : c.Referenced id → (c'.exports id).refcount ≤ (c.exports id).refcount
  others : ∀ e, e ≠ id → c'.exports e = c.exports e

/-- The difference that `handle_release` computes for an export with references
is in the range of `int`.  Only then is its result defined. -/
def Conn.Subtracts (c : Conn) (id count : Nat) : Prop :=
  c.Referenced id → -2 ^ 31 ≤ (c.exports id).refcount - int32 count ∧
    (c.exports id).refcount - int32 count < 2 ^ 31

section
variable {c : Conn} {id count : Nat}

/-- The cast of a count. -/
theorem int32_count (countLt : count < 2 ^ 32) :
    int32 count = if count < 2 ^ 31 then (count : Int) else count - 2 ^ 32 := by
  unfold int32
  split <;> omega

/-- The counts whose subtraction is defined: those below half the range, and those
above it by more than the references. -/
theorem subtracts_iff (countLt : count < 2 ^ 32) (typed : (c.exports id).refcount < 2 ^ 31) :
    c.Subtracts id count ↔ (c.Referenced id →
      count < 2 ^ 31 ∨ 2 ^ 31 + (c.exports id).refcount < count) := by
  refine imp_congr_right fun held => ?_
  have positive := held.2.2
  rw [int32_count countLt]
  split <;> omega

/-- What a `Release` writes to the entry of an export with references. -/
theorem released_exports (held : c.Referenced id) : (c.released id count).exports id =
    if int32 ((c.exports id).refcount - int32 count) ≤ 0 then Export.zero
    else { c.exports id with refcount := int32 ((c.exports id).refcount - int32 count) } := by
  obtain ⟨small, used, -⟩ := held
  unfold Conn.released
  rw [if_neg (by simp [used, small])]
  exact (Conn.setExport_exports _ _ _ _).trans (if_pos rfl)

/-- A `Release` of fewer than 2^31 references drops them. -/
theorem released_drops (typed : (c.exports id).refcount < 2 ^ 31)
    (small : c.Referenced id → count < 2 ^ 31) : c.Drops (c.released id count) id count := by
  have left (held : c.Referenced id) : int32 ((c.exports id).refcount - int32 count) =
      (c.exports id).refcount - count := by
    have few := small held
    have positive := held.2.2
    rw [int32_count (few.trans (by decide)), if_pos few]
    apply int32_of_range <;> omega
  refine ⟨fun held all => ?_, fun held some => ?_, fun held => ?_, fun e other => ?_⟩
  · rw [released_exports held, left held, if_pos (by omega)]
  · rw [released_exports held, left held, if_neg (by omega)]
  · have positive := held.2.2
    rw [released_exports held, left held]
    split
    · exact positive.le
    · dsimp only
      omega
  · unfold Conn.released
    split
    · rfl
    · exact (Conn.setExport_exports _ _ _ _).trans (if_neg other)

/-- A `Release` of more than 2^31 references above those that there are adds some. -/
theorem released_adds (countLt : count < 2 ^ 32) (held : c.Referenced id)
    (large : 2 ^ 31 + (c.exports id).refcount < count) :
    ¬c.Drops (c.released id count) id count := by
  intro drops
  have more := drops.fewer held
  have positive := held.2.2
  have left : int32 ((c.exports id).refcount - int32 count) =
      (c.exports id).refcount - count + 2 ^ 32 := by
    rw [int32_count countLt, if_neg (by omega), int32_of_range (by omega) (by omega)]
    omega
  rw [released_exports held, left, if_neg (by omega)] at more
  dsimp only at more
  omega

end

/-- What a readable `Release` does to the connection. -/
theorem handle_release (env : Env) {data : List UInt8} (conn : Conn) (vat : Vat) {msg : Incoming}
    (read : readIncoming data = some msg) (isRelease : msg.which = msgRelease) :
    (handle env data conn vat).2.conn =
      conn.released msg.questionId (msg.message.getU32 msg.body releaseRefcountOff 0) := by
  have result : handleRelease msg.message msg.body (World.start conn vat) =
      { World.start conn vat with
        conn := conn.released msg.questionId (msg.message.getU32 msg.body releaseRefcountOff 0) } :=
    handleRelease_eq _ _ _
  rw [handle, read]
  dsimp only
  unfold handleIncoming
  rw [isRelease]
  exact congrArg World.conn result

/-- A `Release` of an export with references has a defined result and drops what
it counts exactly if it counts fewer than 2^31.  From there on the subtraction
overflows for counts up to 2^31 and the references, and adds references beyond. -/
theorem handle_release_drops_iff (env : Env) {data : List UInt8} (conn : Conn) (vat : Vat)
    {msg : Incoming} (read : readIncoming data = some msg) (isRelease : msg.which = msgRelease)
    (typed : (conn.exports msg.questionId).refcount < 2 ^ 31) :
    let count := msg.message.getU32 msg.body releaseRefcountOff 0
    let conn' := (handle env data conn vat).2.conn
    (conn.Subtracts msg.questionId count ∧ conn.Drops conn' msg.questionId count ↔
        (conn.Referenced msg.questionId → count < 2 ^ 31)) ∧
      (conn.Referenced msg.questionId → 2 ^ 31 ≤ count →
        if 2 ^ 31 + (conn.exports msg.questionId).refcount < count then
          conn.Subtracts msg.questionId count ∧ ¬conn.Drops conn' msg.questionId count
        else ¬conn.Subtracts msg.questionId count) := by
  dsimp only
  rw [handle_release env conn vat read isRelease]
  have countLt := getU32_lt msg.message msg.body releaseRefcountOff
  generalize msg.message.getU32 msg.body releaseRefcountOff 0 = count at countLt ⊢
  generalize msg.questionId = id at typed ⊢
  have subtracts := subtracts_iff countLt typed
  refine ⟨⟨fun ⟨defined, drops⟩ held => ?_, fun small => ⟨?_, released_drops typed small⟩⟩,
    fun held large => ?_⟩
  · refine (subtracts.mp defined held).resolve_right fun large => ?_
    exact released_adds countLt held large drops
  · exact subtracts.mpr fun held => .inl (small held)
  · split
    · next larger => exact ⟨subtracts.mpr fun _ => .inr larger, released_adds countLt held larger⟩
    · next between =>
      intro defined
      rcases subtracts.mp defined held with small | larger
      · omega
      · exact between larger

/-- A `Release` of some references to export 0. -/
def releaseFrame (count : List UInt8) : List UInt8 :=
  [0, 0, 0, 0, 4, 0, 0, 0,
   0, 0, 0, 0, 1, 0, 1, 0,
   6, 0, 0, 0, 0, 0, 0, 0,
   0, 0, 0, 0, 1, 0, 0, 0,
   0, 0, 0, 0] ++ count

/-- A `Release` of one reference frees an export that has one. -/
theorem handle_release_one : ∃ msg, readIncoming (releaseFrame [1, 0, 0, 0]) = some msg ∧
    servingConn.Referenced msg.questionId ∧
      servingConn.Subtracts msg.questionId (msg.message.getU32 msg.body releaseRefcountOff 0) ∧
      servingConn.Drops
        (handle (returningEnv 0) (releaseFrame [1, 0, 0, 0]) servingConn Vat.init).2.conn
        msg.questionId (msg.message.getU32 msg.body releaseRefcountOff 0) := by
  have found : ((readIncoming (releaseFrame [1, 0, 0, 0])).any fun msg =>
      msg.which == msgRelease && msg.questionId == 0 &&
        msg.message.getU32 msg.body releaseRefcountOff 0 == 1) = true := by
    decide +kernel
  obtain ⟨msg, read, facts⟩ := (Option.any_eq_true _ _).mp found
  simp only [Bool.and_eq_true, beq_iff_eq] at facts
  obtain ⟨⟨isRelease, named⟩, counted⟩ := facts
  have typed : (servingConn.exports msg.questionId).refcount < 2 ^ 31 := by
    rw [named]
    decide +kernel
  refine ⟨msg, read, ?_, (handle_release_drops_iff _ _ _ read isRelease typed).1.mpr fun _ => ?_⟩
  · rw [named]
    decide +kernel
  · rw [counted]
    decide

/-- A `Release` of 2^32 - 1 references adds one to an export that has one. -/
theorem handle_release_acquires : ∃ msg, readIncoming (releaseFrame [255, 255, 255, 255]) = some msg ∧
    msg.which = msgRelease ∧ msg.questionId = 0 ∧
      msg.message.getU32 msg.body releaseRefcountOff 0 = 2 ^ 32 - 1 ∧
      servingConn.Referenced 0 ∧ (servingConn.exports 0).refcount = 1 ∧
      servingConn.Subtracts 0 (2 ^ 32 - 1) ∧
      ((handle (returningEnv 0) (releaseFrame [255, 255, 255, 255]) servingConn
        Vat.init).2.conn.exports 0).refcount = 2 ∧
      ¬servingConn.Drops
        (handle (returningEnv 0) (releaseFrame [255, 255, 255, 255]) servingConn Vat.init).2.conn 0
        (2 ^ 32 - 1) := by
  have found : ((readIncoming (releaseFrame [255, 255, 255, 255])).any fun msg =>
      msg.which == msgRelease && msg.questionId == 0 &&
        msg.message.getU32 msg.body releaseRefcountOff 0 == 2 ^ 32 - 1) = true := by
    decide +kernel
  obtain ⟨msg, read, facts⟩ := (Option.any_eq_true _ _).mp found
  simp only [Bool.and_eq_true, beq_iff_eq] at facts
  obtain ⟨⟨isRelease, named⟩, counted⟩ := facts
  have held : servingConn.Referenced 0 := by decide +kernel
  have one : (servingConn.exports 0).refcount = 1 := by decide +kernel
  have two : ((handle (returningEnv 0) (releaseFrame [255, 255, 255, 255]) servingConn
      Vat.init).2.conn.exports 0).refcount = 2 := by decide +kernel
  have defined : servingConn.Subtracts 0 (2 ^ 32 - 1) := fun _ => by decide +kernel
  refine ⟨msg, read, isRelease, named, counted, held, one, defined, two, fun drops => ?_⟩
  have fewer := drops.fewer held
  rw [one, two] at fewer
  omega

end CapnpJanet.Rpc
