import CapnpJanet.Packed.Filled

/-!
# The buffer of the unpacking loop

A round of `capnp_unpack` puts out what `unpackStep` says, if there is room for a
word and 255 more.  The room is made by growing the buffer to twice its capacity
and 2048 bytes more, a sum of type `size_t`: from a capacity of 2^63 - 1024 on it
wraps, the block shrinks, and what is cleared behind it is no longer inside.  The
input decides whether this happens.
-/

namespace CapnpJanet.Packed

open Checked

/-! ## Reading the input -/

/-- What is left of the input at a position. -/
structure Left (input : List UInt8) (ipos : Nat) (rest : List UInt8) : Prop where
  inside : ipos ≤ input.length
  rest : input.drop ipos = rest

namespace Left

variable {input rest : List UInt8} {ipos : Nat} {byte : UInt8}

theorem length (left : Left input ipos rest) : ipos + rest.length = input.length := by
  have inside := left.inside
  rw [← left.rest, List.length_drop]
  omega

theorem byteAt (left : Left input ipos (byte :: rest)) :
    Packed.byteAt input ipos = .ok byte := byteAt_sure left.rest

theorem next (left : Left input ipos (byte :: rest)) : Left input (ipos + 1) rest := by
  have length := left.length
  rw [List.length_cons] at length
  refine ⟨by omega, ?_⟩
  rw [← List.drop_drop, left.rest]
  rfl

theorem skip (left : Left input ipos rest) {n : Nat} (inside : n ≤ rest.length) :
    Left input (ipos + n) (rest.drop n) := by
  have length := left.length
  refine ⟨by omega, ?_⟩
  rw [← List.drop_drop, left.rest]

theorem more (left : Left input ipos (byte :: rest)) : ¬ipos ≥ input.length := by
  have length := left.length
  rw [List.length_cons] at length
  omega

theorem ended (left : Left input ipos []) : ipos ≥ input.length :=
  Nat.le_of_eq left.length.symm

end Left

/-- The computation does what a reader says: it stops with `CAPNP_ERR_PACKED`
where the reader fails. -/
def Follows {α : Type} (spec : Option (List UInt8 × List UInt8))
    (post : List UInt8 → List UInt8 → α → Prop) (x : Except Stop α) : Prop :=
  match spec with
  | none => x = .error .packed
  | some (bytes, rest) => Sure (post bytes rest) x

/-- Filling a word puts out what the tagged bytes say. -/
theorem fillWord_follows {input : List UInt8} (tag : UInt8) {opos : Nat} (n : Nat) {s ipos : Nat}
    {buf : Buffer} {out rest : List UInt8} (holds : Holds ⟨buf, opos + s⟩ out)
    (room : opos + s + n ≤ buf.cap) (left : Left input ipos rest) :
    Follows (readTagged tag (List.range' s n) rest)
      (fun bytes rest' r => Holds ⟨r.1, opos + s + n⟩ (out ++ bytes) ∧ r.1.cap = buf.cap ∧
        Left input r.2 rest')
      (fillWord input tag opos (List.range' s n) buf ipos) := by
  induction n generalizing s ipos buf out rest with
  | zero => exact .value ⟨by rwa [List.append_nil], rfl, left⟩
  | succ n ih =>
      -- the byte that is written here, and the rest of the word behind it
      have onward : ∀ (byte : UInt8) {ipos' rest'}, Left input ipos' rest' →
          Follows ((readTagged tag (List.range' (s + 1) n) rest').map fun p => (byte :: p.1, p.2))
            (fun bytes rest' r => Holds ⟨r.1, opos + s + (n + 1)⟩ (out ++ bytes) ∧
              r.1.cap = buf.cap ∧ Left input r.2 rest')
            (buf.write (opos + s) [byte] >>= fun buf =>
              fillWord input tag opos (List.range' (s + 1) n) buf ipos') := by
        intro byte ipos' rest' left'
        have one : opos + s + [byte].length ≤ buf.cap := by
          rw [List.length_singleton]
          omega
        obtain ⟨buf', written, longer, same⟩ := (holds.write one).exists_ok
        have holds' : Holds ⟨buf', opos + (s + 1)⟩ (out ++ [byte]) := longer
        have tail := ih holds' (by omega) left'
        rw [written]
        change Follows _ _ (fillWord _ _ _ _ buf' _)
        cases read : readTagged tag (List.range' (s + 1) n) rest' with
        | none =>
            rw [read] at tail
            exact tail
        | some p =>
            rw [read] at tail
            refine tail.mono (fun r after => ?_) fun _ => id
            obtain ⟨stored, cap, left''⟩ := after
            rw [List.append_assoc, show opos + (s + 1) + n = opos + s + (n + 1) by omega] at stored
            exact ⟨stored, cap.trans same, left''⟩
      rw [List.range'_succ]
      unfold readTagged fillWord
      by_cases bit : tagBit tag s = true
      · rw [if_pos bit, if_pos bit]
        cases rest with
        | nil =>
            rw [if_pos left.ended]
            exact rfl
        | cons byte rest =>
            rw [if_neg left.more, left.byteAt]
            exact onward byte left.next
      · rw [if_neg bit, if_neg bit]
        exact onward 0 left

theorem runReserve_room {o : Output} {cnt : Nat} (room : o.opos + cnt * 8 ≤ o.buf.cap)
    (small : o.buf.cap ≤ maxBlock) : runReserve o cnt = .ok o := by
  unfold maxBlock at small
  unfold runReserve
  rw [size_of_lt (by omega)]
  exact if_neg (Nat.not_lt_of_le room)

/-- A round puts out what `unpackStep` says, if there is room for it. -/
theorem unpackWord_follows {input out rest : List UInt8} {st : UnpackState}
    (holds : Holds st.out out) (room : st.out.opos + 2048 ≤ st.out.buf.cap)
    (small : st.out.buf.cap ≤ maxBlock) (short : input.length ≤ 2 ^ 61)
    (left : Left input st.ipos rest) (unread : rest ≠ []) :
    Follows (unpackStep rest)
      (fun bytes rest' st' => Holds st'.out (out ++ bytes) ∧ st'.out.buf.cap = st.out.buf.cap ∧
        Left input st'.ipos rest')
      (unpackWord input st) := by
  obtain ⟨tag, rest, rfl⟩ := List.exists_cons_of_ne_nil unread
  unfold unpackWord unpackStep
  rw [left.byteAt]
  change Follows _ _ (fillWord _ _ _ _ _ _ >>= _)
  dsimp only
  have start : Holds ⟨st.out.buf, st.out.opos + 0⟩ out := holds
  have filled := fillWord_follows tag 8 start (by omega) left.next
  rw [← List.range_eq_range'] at filled
  cases read : readTagged tag (List.range 8) rest with
  | none =>
      rw [read] at filled
      have stuck : fillWord input tag st.out.opos (List.range 8) st.out.buf (st.ipos + 1) =
        .error .packed := filled
      rw [stuck]
      exact rfl
  | some p =>
      rw [read] at filled
      obtain ⟨⟨buf, ipos⟩, run, holds', same, left'⟩ := Sure.exists_ok filled
      rw [run]
      obtain ⟨word, rest'⟩ := p
      change Follows _ _ (unpackRun _ _ _)
      dsimp only at holds' same left' ⊢
      have fit : st.out.opos + 8 + 255 * 8 ≤ buf.cap := by omega
      have reserve : ∀ cnt : UInt8, runReserve ⟨buf, st.out.opos + 8⟩ cnt.toNat =
          .ok ⟨buf, st.out.opos + 8⟩ := fun cnt => by
        have few := cnt.toNat_lt
        exact runReserve_room (by dsimp only; omega) (same ▸ small)
      unfold unpackRun
      by_cases zero : tag = 0
      · rw [if_pos zero, if_pos zero]
        cases rest' with
        | nil =>
            rw [if_pos left'.ended]
            exact rfl
        | cons cnt rest' =>
            have few := cnt.toNat_lt
            rw [if_neg left'.more, left'.byteAt]
            change Sure _ (runReserve _ _ >>= _)
            rw [reserve cnt]
            refine (holds'.clear (by omega)).bind fun buf' cleared => .value ?_
            refine ⟨?_, cleared.2.trans same, left'.next⟩
            rw [← List.append_assoc]
            exact cleared.1
      · rw [if_neg zero, if_neg zero]
        by_cases full : tag = 0xff
        · rw [if_pos full, if_pos full]
          cases rest' with
          | nil =>
              rw [if_pos left'.ended]
              exact rfl
          | cons cnt rest' =>
              have few := cnt.toNat_lt
              have length := left'.next.length
              rw [if_neg left'.more, left'.byteAt]
              dsimp only
              change Follows _ _ (if size (ipos + 1 + cnt.toNat * 8) > input.length then _ else _)
              rw [size_of_lt (by omega)]
              by_cases beyond : cnt.toNat * 8 > rest'.length
              · rw [if_pos beyond, if_pos (by omega)]
                exact rfl
              · rw [if_neg beyond, if_neg (by omega)]
                change Sure _ (runReserve _ _ >>= _)
                rw [reserve cnt]
                change Sure _ (if cnt ≠ 0 then _ else _)
                by_cases some : cnt = 0
                · subst some
                  rw [if_neg (not_not.mpr rfl)]
                  refine .value ⟨?_, same, left'.next⟩
                  rw [show (0 : UInt8).toNat * 8 = 0 from rfl, List.take_zero, List.append_nil]
                  exact holds'
                · have words : (rest'.take (cnt.toNat * 8)).length = cnt.toNat * 8 :=
                    List.length_take_of_le (Nat.le_of_not_lt beyond)
                  rw [if_pos some, bytesAt_sure (by omega), left'.next.rest]
                  refine (holds'.push (by dsimp only; omega)).bind fun o pushed => .value ?_
                  rw [List.append_assoc] at pushed
                  exact ⟨pushed.1, pushed.2.trans same, left'.next.skip (Nat.le_of_not_lt beyond)⟩
        · rw [if_neg full, if_neg full]
          exact .value ⟨holds', same, left'⟩

/-! ## Making room -/

theorem Buffer.grow_refused {buf : Buffer} {ncap : Nat} {code : Stop} (large : maxBlock < ncap) :
    buf.grow ncap code = .error code := by
  unfold Buffer.grow Buffer.realloc
  rw [if_neg (Nat.not_le_of_lt large)]

theorem Buffer.grow_shrinks {buf : Buffer} {ncap : Nat} {code : Stop} (short : ncap < buf.cap)
    (small : buf.cap ≤ maxBlock) : buf.grow ncap code = .error .fault := by
  unfold maxBlock at small
  have outside : ¬buf.cap + size (ncap + (2 ^ 64 - buf.cap)) ≤ ncap := by
    unfold size
    omega
  unfold Buffer.grow Buffer.realloc
  rw [if_pos (by unfold maxBlock; omega)]
  exact if_neg outside

theorem Holds.grow {buf : Buffer} {opos ncap : Nat} {out : List UInt8}
    (holds : Holds ⟨buf, opos⟩ out) (longer : buf.cap ≤ ncap) (granted : ncap ≤ maxBlock)
    (code : Stop) :
    Sure (fun buf' => Holds ⟨buf', opos⟩ out ∧ buf'.cap = ncap) (buf.grow ncap code) := by
  have inside : opos ≤ buf.cap := holds.inside
  obtain ⟨nb, run, kept, cap⟩ := (holds.realloc longer granted).exists_ok
  unfold maxBlock at granted
  have behind : buf.cap + size (ncap + (2 ^ 64 - buf.cap)) ≤ nb.cap := by
    unfold size
    omega
  unfold Buffer.grow Buffer.clear
  rw [run]
  dsimp only
  rw [if_pos behind]
  exact .value ⟨kept.moved (inside.trans (longer.trans cap.ge)) fun i lt => if_neg (by omega), cap⟩

section Reserve

variable {o : Output} {out : List UInt8}

theorem unpackReserve_room (room : o.opos + 2048 ≤ o.buf.cap) (small : o.buf.cap ≤ maxBlock) :
    unpackReserve o = .ok o := by
  unfold maxBlock at small
  unfold unpackReserve
  rw [size_of_lt (by omega)]
  exact if_neg (by omega)

/-- Without room, the buffer grows by a formula. -/
theorem unpackReserve_full (holds : Holds o out) (full : o.buf.cap < o.opos + 2048)
    (small : o.buf.cap ≤ maxBlock) : unpackReserve o =
      o.buf.grow (size (o.buf.cap * 2 + 8 * 256)) .alloc >>= fun buf => .ok { o with buf := buf } := by
  have inside : o.opos ≤ o.buf.cap := holds.inside
  unfold maxBlock at small
  unfold unpackReserve
  rw [size_of_lt (by omega)]
  exact if_pos (by omega)

theorem unpackReserve_grown (holds : Holds o out) (full : o.buf.cap < o.opos + 2048)
    (granted : o.buf.cap * 2 + 2048 ≤ maxBlock) :
    Sure (fun o' => Holds o' out ∧ o'.buf.cap = o.buf.cap * 2 + 2048) (unpackReserve o) := by
  rw [unpackReserve_full holds full (by omega)]
  generalize wanted : o.buf.cap * 2 + 8 * 256 = ncap
  have small : ncap ≤ maxBlock := by omega
  have fits : ncap < 2 ^ 64 := by
    unfold maxBlock at small
    omega
  rw [size_of_lt fits]
  exact (holds.grow (by omega) small .alloc).bind fun buf after => .value after

/-- A request beyond `PTRDIFF_MAX` is refused. -/
theorem unpackReserve_refused (holds : Holds o out) (full : o.buf.cap < o.opos + 2048)
    (small : o.buf.cap ≤ maxBlock) (large : maxBlock < o.buf.cap * 2 + 2048)
    (fits : o.buf.cap * 2 + 2048 < 2 ^ 64) : unpackReserve o = .error .alloc := by
  rw [unpackReserve_full holds full small]
  generalize wanted : o.buf.cap * 2 + 8 * 256 = ncap
  rw [size_of_lt (by omega), Buffer.grow_refused (by omega)]
  rfl

/-- A request that wraps is granted, and the clearing that follows it leaves
the block. -/
theorem unpackReserve_wraps (holds : Holds o out) (full : o.buf.cap < o.opos + 2048)
    (small : o.buf.cap ≤ maxBlock) (wraps : 2 ^ 64 ≤ o.buf.cap * 2 + 2048) :
    unpackReserve o = .error .fault := by
  rw [unpackReserve_full holds full small]
  generalize wanted : size (o.buf.cap * 2 + 8 * 256) = ncap
  have short : ncap < o.buf.cap := by
    unfold size at wanted
    unfold maxBlock at small
    omega
  rw [Buffer.grow_shrinks short small]
  rfl

end Reserve

/-! ## Runs -/

/-- The capacity of the buffer after it has grown so many times. -/
def capAfter (n : Nat) : (grown : Nat) → Nat
  | 0 => n * 4 + 64
  | grown + 1 => capAfter n grown * 2 + 2048

theorem capAfter_mono (n : Nat) {j k : Nat} (le : j ≤ k) : capAfter n j ≤ capAfter n k := by
  induction le with
  | refl => exact le_rfl
  | step _ ih => exact ih.trans (by rw [capAfter]; omega)

/-- How a growth to a capacity beyond `PTRDIFF_MAX` ends: the request is refused,
or it wraps and the buffer is left. -/
def refusal (cap : Nat) : Stop := if cap < 2 ^ 64 then .alloc else .fault

/-- What holds of the state before each round of the loop of `capnp_unpack`: some
units have been read, and the buffer has grown some times. -/
structure Unpacking (input : List UInt8) (us : List PackedUnit) (grown : Nat) (st : UnpackState) :
    Prop where
  holds : Holds st.out (us.flatMap PackedUnit.expansion)
  left : ∃ rest, Left input st.ipos rest ∧ input = us.flatMap PackedUnit.bytes ++ rest
  cap : st.out.buf.cap = capAfter input.length grown
  small : st.out.buf.cap ≤ maxBlock

namespace Unpacking

variable {input : List UInt8} {us : List PackedUnit} {grown : Nat} {st : UnpackState}

/-- The round goes on with a state that has room. -/
structure Ready (input : List UInt8) (us : List PackedUnit) (grown : Nat) (st st' : UnpackState) :
    Prop where
  unpacking : Unpacking input us grown st'
  same : st'.ipos = st.ipos
  room : st'.out.opos + 2048 ≤ st'.out.buf.cap
  run : unpackRound input st = unpackWord input st'

/-- How a round starts: with room for a word and 255 more, or with the buffer
grown once; or else it stops, as the request is beyond `PTRDIFF_MAX`. -/
theorem reserve (unpacking : Unpacking input us grown st) :
    (st.out.opos + 2048 ≤ st.out.buf.cap ∧ Ready input us grown st st) ∨
    st.out.buf.cap < st.out.opos + 2048 ∧
      ((∃ st', Ready input us (grown + 1) st st') ∨
        (maxBlock < capAfter input.length (grown + 1) ∧
          unpackRound input st = .error (refusal (capAfter input.length (grown + 1))))) := by
  obtain ⟨holds, left, cap, small⟩ := unpacking
  have next : capAfter input.length (grown + 1) = st.out.buf.cap * 2 + 2048 := by
    rw [capAfter, cap]
  by_cases full : st.out.buf.cap < st.out.opos + 2048
  · refine .inr ⟨full, ?_⟩
    by_cases granted : st.out.buf.cap * 2 + 2048 ≤ maxBlock
    · obtain ⟨o, run, holds', cap'⟩ := (unpackReserve_grown holds full granted).exists_ok
      have inside : st.out.opos ≤ st.out.buf.cap := holds.inside
      have same : o.opos = st.out.opos := holds'.filled.trans holds.filled.symm
      refine .inl ⟨⟨o, st.ipos⟩, ⟨holds', left, cap'.trans next.symm, cap'.trans_le granted⟩, rfl,
        ?_, ?_⟩
      · dsimp only
        omega
      · unfold unpackRound
        rw [run]
        rfl
    · refine .inr ⟨(Nat.lt_of_not_le granted).trans_eq next.symm, ?_⟩
      unfold unpackRound
      rw [next]
      rcases Nat.lt_or_ge (st.out.buf.cap * 2 + 2048) (2 ^ 64) with fits | wraps
      · rw [refusal, if_pos fits, unpackReserve_refused holds full small (by omega) fits]
        rfl
      · rw [refusal, if_neg (Nat.not_lt_of_le wraps), unpackReserve_wraps holds full small wraps]
        rfl
  · have room : st.out.opos + 2048 ≤ st.out.buf.cap := Nat.le_of_not_lt full
    refine .inl ⟨room, ⟨holds, left, cap, small⟩, rfl, room, ?_⟩
    unfold unpackRound
    rw [unpackReserve_room room small]
    rfl

/-- With room, the next unit is put out. -/
theorem word (unpacking : Unpacking input us grown st)
    (room : st.out.opos + 2048 ≤ st.out.buf.cap) (short : input.length ≤ 2 ^ 61) {u : PackedUnit}
    {rest : List UInt8} (left : Left input st.ipos (u.bytes ++ rest)) :
    Sure (fun st' => Unpacking input (us ++ [u]) grown st' ∧ Left input st'.ipos rest)
      (unpackWord input st) := by
  obtain ⟨holds, ⟨rest', left', same⟩, cap, small⟩ := unpacking
  obtain rfl : rest' = u.bytes ++ rest := left'.rest.symm.trans left.rest
  have unread : u.bytes ++ rest ≠ [] := by cases u <;> exact List.cons_ne_nil _ _
  have put := unpackWord_follows holds room small short left unread
  rw [unpackStep_bytes] at put
  refine put.mono (fun st' after => ?_) fun _ => id
  obtain ⟨holds', cap', left''⟩ := after
  refine ⟨⟨?_, ⟨rest, left'', ?_⟩, cap'.trans cap, cap'.trans_le small⟩, left''⟩
  · rwa [List.flatMap_append, List.flatMap_singleton]
  · rw [List.flatMap_append, List.flatMap_singleton, List.append_assoc, same]

end Unpacking

/-- The inputs whose buffer wraps: some complete units, with more input behind
them, fill a buffer that cannot be grown once more in type `size_t`. -/
def Wraps (input : List UInt8) : Prop :=
  ∃ (us : List PackedUnit) (rest : List UInt8) (grown : Nat),
    input = us.flatMap PackedUnit.bytes ++ rest ∧ rest ≠ [] ∧
    capAfter input.length grown < (us.flatMap PackedUnit.expansion).length + 2048 ∧
    capAfter input.length grown ≤ maxBlock ∧ 2 ^ 64 ≤ capAfter input.length (grown + 1)

/-- The inputs whose buffer is refused: some complete units, with more input behind
them, fill a buffer, and the next capacity is beyond `PTRDIFF_MAX`. -/
def Refused (input : List UInt8) : Prop :=
  ∃ (us : List PackedUnit) (rest : List UInt8) (grown : Nat),
    input = us.flatMap PackedUnit.bytes ++ rest ∧ rest ≠ [] ∧
    capAfter input.length grown < (us.flatMap PackedUnit.expansion).length + 2048 ∧
    capAfter input.length grown ≤ maxBlock ∧ maxBlock < capAfter input.length (grown + 1) ∧
    capAfter input.length (grown + 1) < 2 ^ 64

/-- Why the loop stops with a code: the input is no sequence of units, or its buffer
is refused; and why it leaves the buffer. -/
def Stops (input : List UInt8) : Stop → Prop
  | .arg => False
  | .alloc => Refused input
  | .packed => unpack input = .error .packed
  | .fault => Wraps input

/-- A round reads the next unit, or stops. -/
theorem Unpacking.round {input : List UInt8} (short : input.length ≤ 2 ^ 61)
    {us : List PackedUnit} {grown : Nat} {st : UnpackState} (unpacking : Unpacking input us grown st)
    (more : st.ipos < input.length) :
    Within (Stops input)
      (fun st' => (∃ us grown, Unpacking input us grown st') ∧
        input.length - st'.ipos < input.length - st.ipos)
      (unpackRound input st) := by
  obtain ⟨rest, left, same⟩ := unpacking.left
  have unread : rest ≠ [] := fun empty => by
    subst empty
    exact Nat.not_lt_of_le left.ended more
  have onward : ∀ {grown' st'}, Ready input us grown' st st' →
      Within (Stops input)
        (fun st' => (∃ us grown, Unpacking input us grown st') ∧
          input.length - st'.ipos < input.length - st.ipos)
        (unpackRound input st) := by
    intro grown' st' ready
    have left' : Left input st'.ipos rest := ready.same ▸ left
    rw [ready.run]
    cases step : unpackStep rest with
    | none =>
        have put := unpackWord_follows ready.unpacking.holds ready.room ready.unpacking.small short
          left' unread
        rw [step] at put
        rw [show unpackWord input st' = .error .packed from put]
        refine .stop ?_
        rw [same]
        exact unpack_append_stuck us unread step
    | some p =>
        obtain ⟨out, behind⟩ := p
        have shorter := unpackStep_shrinks step
        obtain ⟨u, rfl, -⟩ := bytes_of_unpackStep step
        refine (ready.unpacking.word ready.room short left').mono (fun st'' after => ?_)
          fun _ impossible => impossible.elim
        refine ⟨⟨_, _, after.1⟩, ?_⟩
        have whole := left.length
        have remaining := after.2.length
        omega
  rcases unpacking.reserve with ⟨-, ready⟩ | ⟨full, ⟨st', ready⟩ | ⟨large, stop⟩⟩
  · exact onward ready
  · exact onward ready
  · rw [unpacking.cap, unpacking.holds.filled] at full
    have small := unpacking.small
    rw [unpacking.cap] at small
    rw [stop]
    rcases Nat.lt_or_ge (capAfter input.length (grown + 1)) (2 ^ 64) with fits | wraps
    · rw [refusal, if_pos fits]
      exact .stop ⟨us, rest, grown, same, unread, full, small, large, fits⟩
    · rw [refusal, if_neg (Nat.not_lt_of_le wraps)]
      exact .stop ⟨us, rest, grown, same, unread, full, small, wraps⟩

/-- The state before the first round. -/
theorem unpackBuffered_start {input : List UInt8} (short : input.length * 4 + 64 ≤ maxBlock) :
    ∃ buf, Unpacking input [] 0 ⟨⟨buf, 0⟩, 0⟩ ∧ unpackBuffered input =
      rounds (fun st => decide (st.ipos < input.length)) (unpackRound input) input.length
        ⟨⟨buf, 0⟩, 0⟩ >>= fun st => if st.out.opos % 8 ≠ 0 then .error .packed else .ok st.out := by
  have cap : (if size (input.length * 4 + 64) < 64 then 64 else size (input.length * 4 + 64)) =
      input.length * 4 + 64 := by
    unfold maxBlock at short
    rw [size_of_lt (by omega), if_neg (by omega)]
  have blank := Holds.empty ⟨input.length * 4 + 64, fun _ => none⟩
  obtain ⟨buf, run, -, same⟩ := (blank.clear (Nat.le_of_eq (Nat.zero_add _))).exists_ok
  refine ⟨buf, ⟨.empty buf, ⟨input, ⟨Nat.zero_le _, rfl⟩, rfl⟩, same, same.trans_le short⟩, ?_⟩
  unfold unpackBuffered Buffer.malloc
  dsimp only
  rw [cap, if_pos short]
  change (Buffer.clear _ _ _ >>= _) = _
  rw [run]
  refine congrArg (rounds _ _ _ _ >>= ·) (funext fun st => ?_)
  split <;> rfl

/-- `capnp_unpack` ends with a buffer that holds what `unpack` says, or stops
for a reason. -/
theorem unpackBuffered_within {input : List UInt8} (short : input.length * 4 + 64 ≤ maxBlock) :
    Within (Stops input) (fun o => ∃ out, unpack input = .ok out ∧ Holds o out)
      (unpackBuffered input) := by
  obtain ⟨buf, start, run⟩ := unpackBuffered_start short
  rw [run]
  have round : ∀ st, (∃ us grown, Unpacking input us grown st) →
      decide (st.ipos < input.length) = true → 0 < input.length - st.ipos ∧
        Within (Stops input)
          (fun st' => (∃ us grown, Unpacking input us grown st') ∧
            input.length - st'.ipos < input.length - st.ipos) (unpackRound input st) := by
    rintro st ⟨us, grown, unpacking⟩ again
    have more : st.ipos < input.length := of_decide_eq_true again
    have bound : input.length ≤ 2 ^ 61 := by
      unfold maxBlock at short
      omega
    exact ⟨Nat.sub_pos_of_lt more, unpacking.round bound more⟩
  refine (Within.rounds (fun st => input.length - st.ipos) round ⟨[], 0, start⟩
    (Nat.sub_le _ _)).bind fun st ended => ?_
  obtain ⟨⟨us, grown, unpacking⟩, finished⟩ := ended
  obtain ⟨rest, left, same⟩ := unpacking.left
  have length := left.length
  have none : rest = [] := by
    rw [← List.length_eq_zero_iff]
    have all : input.length ≤ st.ipos := by simpa using finished
    omega
  rw [none, List.append_nil] at same
  have whole : st.out.opos % 8 = 0 := by
    rw [unpacking.holds.filled]
    exact length_expansions_mod us
  rw [if_neg (not_not.mpr whole)]
  exact .value ⟨_, unpack_eq_ok_iff.mpr ⟨us, same, rfl⟩, unpacking.holds⟩

section Faults

variable {input rest : List UInt8} {k : Nat}

theorem rounds_unread {st : UnpackState} {fuel : Nat} (more : st.ipos < input.length)
    (some : 0 < fuel) : rounds (fun st => decide (st.ipos < input.length)) (unpackRound input) fuel st =
      unpackRound input st >>=
        rounds (fun st => decide (st.ipos < input.length)) (unpackRound input) (fuel - 1) :=
  rounds_more (decide_eq_true more) some

/-- If no round is granted more than so many growths, one of them is refused. -/
theorem Unpacking.stops (granted : capAfter input.length k ≤ maxBlock)
    (large : maxBlock < capAfter input.length (k + 1)) {us : List PackedUnit} {grown : Nat}
    {st : UnpackState} (unpacking : Unpacking input us grown st) (few : grown ≤ k)
    {next : UnpackState → Except Stop UnpackState}
    (onward : ∀ {grown' st'}, grown' ≤ k → Ready input us grown' st st' →
      unpackRound input st >>= next = .error (refusal (capAfter input.length (k + 1)))) :
    unpackRound input st >>= next = .error (refusal (capAfter input.length (k + 1))) := by
  rcases unpacking.reserve with ⟨-, ready⟩ | ⟨-, ⟨st', ready⟩ | ⟨refused, stop⟩⟩
  · exact onward few ready
  · -- the last growth is beyond what is granted
    refine onward (Nat.lt_of_le_of_ne few fun last => ?_) ready
    have cap := ready.unpacking.cap
    have small := ready.unpacking.small
    subst last
    exact absurd (cap.ge.trans small) (Nat.not_le_of_lt large)
  · rcases Nat.lt_or_eq_of_le few with less | last
    · have below := capAfter_mono input.length (Nat.succ_le_of_lt less)
      exact absurd (below.trans granted) (Nat.not_le_of_lt refused)
    · subst last
      rw [stop]
      rfl

/-- The run reaches the growth that is refused, however many units are before
it. -/
theorem Unpacking.refused (short : input.length ≤ 2 ^ 61)
    (granted : capAfter input.length k ≤ maxBlock)
    (large : maxBlock < capAfter input.length (k + 1)) (unread : rest ≠ [])
    {us more : List PackedUnit} {grown : Nat} {st : UnpackState}
    (unpacking : Unpacking input us grown st) (few : grown ≤ k)
    (left : Left input st.ipos (more.flatMap PackedUnit.bytes ++ rest))
    (full : capAfter input.length k < ((us ++ more).flatMap PackedUnit.expansion).length + 2048)
    {fuel : Nat} (enough : more.length < fuel) :
    rounds (fun st => decide (st.ipos < input.length)) (unpackRound input) fuel st =
      .error (refusal (capAfter input.length (k + 1))) := by
  induction more generalizing us grown st fuel with
  | nil =>
      have length := left.length
      have again : st.ipos < input.length := by
        have some := List.length_pos_iff.mpr unread
        rw [List.flatMap_nil, List.nil_append] at length
        omega
      rw [rounds_unread again (Nat.zero_lt_of_lt enough)]
      refine unpacking.stops granted large few fun {grown' st'} few' ready => ?_
      -- there is room, which the capacity does not leave
      have cap := ready.unpacking.cap
      have filled := ready.unpacking.holds.filled
      have room := ready.room
      have below := capAfter_mono input.length few'
      rw [List.append_nil] at full
      omega
  | cons u more ih =>
      rw [List.flatMap_cons, List.append_assoc] at left
      have length := left.length
      have again : st.ipos < input.length := by
        have some : 0 < u.bytes.length := by cases u <;> exact Nat.succ_pos _
        rw [List.length_append] at length
        omega
      rw [rounds_unread again (Nat.zero_lt_of_lt enough)]
      refine unpacking.stops granted large few fun {grown' st'} few' ready => ?_
      have left' := ready.same.symm ▸ left
      obtain ⟨st'', run, unpacking', left''⟩ := (ready.unpacking.word ready.room short left').exists_ok
      rw [ready.run, run]
      refine ih unpacking' few' left'' ?_ ?_
      · rwa [List.append_assoc, List.singleton_append]
      · rw [List.length_cons] at enough
        omega

/-- An input whose units fill a buffer that cannot be grown once more. -/
theorem unpackBuffered_stops (short : input.length * 4 + 64 ≤ maxBlock) {us : List PackedUnit}
    (same : input = us.flatMap PackedUnit.bytes ++ rest) (unread : rest ≠ [])
    (full : capAfter input.length k < (us.flatMap PackedUnit.expansion).length + 2048)
    (granted : capAfter input.length k ≤ maxBlock)
    (large : maxBlock < capAfter input.length (k + 1)) :
    unpackBuffered input = .error (refusal (capAfter input.length (k + 1))) := by
  obtain ⟨buf, start, run⟩ := unpackBuffered_start short
  have left : Left input 0 (us.flatMap PackedUnit.bytes ++ rest) := ⟨Nat.zero_le _, same⟩
  have each : us.length ≤ (us.flatMap PackedUnit.bytes).length := by
    clear full large left start same
    induction us with
    | nil => exact Nat.zero_le _
    | cons u us ih =>
        have some : 0 < u.bytes.length := by cases u <;> exact Nat.succ_pos _
        rw [List.flatMap_cons, List.length_append, List.length_cons]
        omega
  have enough : us.length < input.length := by
    have some := List.length_pos_iff.mpr unread
    have length := congrArg List.length same
    rw [List.length_append] at length
    omega
  have bound : input.length ≤ 2 ^ 61 := by
    unfold maxBlock at short
    omega
  rw [run, start.refused bound granted large unread (Nat.zero_le _) left full enough]
  rfl

/-- Where the capacity wraps, the buffer is left. -/
theorem unpackBuffered_faults (short : input.length * 4 + 64 ≤ maxBlock) (wraps : Wraps input) :
    unpackBuffered input = .error .fault := by
  obtain ⟨us, rest, grown, same, unread, full, granted, last⟩ := wraps
  have large : maxBlock < capAfter input.length (grown + 1) := by
    unfold maxBlock
    omega
  rw [unpackBuffered_stops short same unread full granted large, refusal,
    if_neg (Nat.not_lt_of_le last)]

/-- Where the capacity is beyond `PTRDIFF_MAX`, the request is refused. -/
theorem unpackBuffered_refused (short : input.length * 4 + 64 ≤ maxBlock) (refused : Refused input) :
    unpackBuffered input = .error .alloc := by
  obtain ⟨us, rest, grown, same, unread, full, granted, large, fits⟩ := refused
  rw [unpackBuffered_stops short same unread full granted large, refusal, if_pos fits]

end Faults

/-- No access is outside of a buffer, and every byte of the output has been
written. -/
def Safe (r : Except Stop Output) : Prop :=
  r ≠ .error .fault ∧
    ∀ o, r = .ok o → o.opos ≤ o.buf.cap ∧ ∀ i, i < o.opos → (o.buf.data i).isSome

theorem Holds.safe {o : Output} {out : List UInt8} (holds : Holds o out) :
    o.opos ≤ o.buf.cap ∧ ∀ i, i < o.opos → (o.buf.data i).isSome := by
  refine ⟨holds.inside, fun i lt => ?_⟩
  have filled := holds.filled
  rw [holds.stored i lt, List.getElem?_eq_getElem (by omega)]
  rfl

theorem packBuffered_safe {input : List UInt8} (short : input.length < 2 ^ 56) :
    Safe (packBuffered input) := by
  by_cases whole : input.length % 8 = 0
  · obtain ⟨o, run, holds⟩ := (packBuffered_sure whole short).exists_ok
    rw [run]
    refine ⟨nofun, fun o' same => ?_⟩
    cases same
    exact holds.safe
  · have refused : packBuffered input = .error .arg := by
      unfold packBuffered
      rw [if_pos whole]
      rfl
    rw [refused]
    exact ⟨nofun, nofun⟩

/-- The buffers of both loops are never left, unless the capacity of the
unpacking buffer wraps. -/
theorem codec_buffers_safe_iff {input : List UInt8} (short : input.length < 2 ^ 56) :
    Safe (packBuffered input) ∧ Safe (unpackBuffered input) ↔ ¬Wraps input := by
  have granted : input.length * 4 + 64 ≤ maxBlock := by
    unfold maxBlock
    omega
  constructor
  · intro safe wraps
    exact safe.2.1 (unpackBuffered_faults granted wraps)
  · intro fits
    refine ⟨packBuffered_safe short, fun fault => ?_, fun o run => ?_⟩
    · exact fits ((unpackBuffered_within granted).of_error fault)
    · obtain ⟨out, -, holds⟩ := (unpackBuffered_within granted).of_ok run
      exact holds.safe

/-- A zero word does not wrap, as neither buffer is left. -/
theorem codec_buffers_safe_zero_word :
    Safe (packBuffered (List.replicate 8 0)) ∧ Safe (unpackBuffered (List.replicate 8 0)) ↔
      ¬Wraps (List.replicate 8 0) :=
  codec_buffers_safe_iff (by decide)

/-! ## A buffer that wraps -/

/-- Units of two bytes, each for 256 zero words, and the first byte of another. -/
def cutZeros (n : Nat) : List UInt8 :=
  (List.replicate n (PackedUnit.zeros 255)).flatMap PackedUnit.bytes ++ [0]

theorem cutZeros_length (n : Nat) : (cutZeros n).length = 2 * n + 1 := by
  unfold cutZeros
  rw [List.length_append, List.length_flatMap, List.map_replicate, List.sum_replicate_nat,
    Nat.mul_comm]
  rfl

theorem zeros_expansion_length (n : Nat) :
    ((List.replicate n (PackedUnit.zeros 255)).flatMap PackedUnit.expansion).length = 2048 * n := by
  have each : (PackedUnit.zeros 255).expansion.length = 2048 := by
    rw [PackedUnit.expansion, List.length_append, List.length_replicate, List.length_replicate]
    rfl
  rw [List.length_flatMap, List.map_replicate, List.sum_replicate_nat, each, Nat.mul_comm]

theorem capAfter_seven (n : Nat) : capAfter n 7 = n * 512 + 268288 := by
  simp only [capAfter]
  omega

/-- From 2^54 - 525 bytes the buffer grows seven times, to 2^63 - 512 bytes, and
wraps the next time. -/
theorem cutZeros_wraps : Wraps (cutZeros (2 ^ 53 - 263)) := by
  refine ⟨List.replicate (2 ^ 53 - 263) (.zeros 255), [0], 7, rfl, List.cons_ne_nil _ _, ?_, ?_, ?_⟩
  · rw [cutZeros_length, capAfter_seven, zeros_expansion_length]
    omega
  · rw [cutZeros_length, capAfter_seven]
    unfold maxBlock
    omega
  · rw [capAfter, cutZeros_length, capAfter_seven]
    omega

/-- An input below 2^56 bytes that leaves the unpacking buffer. -/
theorem cutZeros_faults : (cutZeros (2 ^ 53 - 263)).length < 2 ^ 56 ∧
    unpackBuffered (cutZeros (2 ^ 53 - 263)) = .error .fault := by
  have length := cutZeros_length (2 ^ 53 - 263)
  refine ⟨?_, unpackBuffered_faults ?_ cutZeros_wraps⟩
  · omega
  · unfold maxBlock
    omega

end CapnpJanet.Packed
