import CapnpJanet.Packed.Buffers
import CapnpJanet.Packed.RoundTrip

/-!
# Filling a buffer

An output holds a byte string if every position below its fill has been written
with the byte of the string.  What is put out with room for it extends the string
and keeps the capacity.  The loop of `capnp_pack` always has room: it ends, for
every input, with the buffer that holds the packed string.
-/

namespace CapnpJanet.Packed

open Checked

/-- The output holds these bytes. -/
structure Holds (o : Output) (out : List UInt8) : Prop where
  filled : o.opos = out.length
  inside : o.opos ≤ o.buf.cap
  stored : ∀ i, i < o.opos → o.buf.data i = out[i]?

namespace Holds

variable {o : Output} {buf : Buffer} {out : List UInt8} {opos : Nat}

theorem empty (buf : Buffer) : Holds ⟨buf, 0⟩ [] :=
  ⟨rfl, Nat.zero_le _, fun _ lt => absurd lt (Nat.not_lt_zero _)⟩

/-- A buffer that keeps what is below the fill holds the same bytes. -/
theorem moved (holds : Holds ⟨buf, opos⟩ out) {buf' : Buffer} (room : opos ≤ buf'.cap)
    (same : ∀ i, i < opos → buf'.data i = buf.data i) : Holds ⟨buf', opos⟩ out :=
  ⟨holds.filled, room, fun i lt => (same i lt).trans (holds.stored i lt)⟩

/-- Bytes written behind the fill extend what is held. -/
theorem extend (holds : Holds ⟨buf, opos⟩ out) {buf' : Buffer} {bytes : List UInt8}
    (room : opos + bytes.length ≤ buf'.cap)
    (kept : ∀ i, i < opos → buf'.data i = buf.data i)
    (added : ∀ i, i < bytes.length → buf'.data (opos + i) = bytes[i]?) :
    Holds ⟨buf', opos + bytes.length⟩ (out ++ bytes) := by
  have filled : opos = out.length := holds.filled
  refine ⟨?_, room, fun i lt => ?_⟩
  · rw [List.length_append, filled]
  · by_cases before : i < opos
    · rw [List.getElem?_append_left (filled ▸ before)]
      exact (kept i before).trans (holds.stored i before)
    · obtain ⟨k, rfl⟩ := Nat.exists_eq_add_of_le (Nat.le_of_not_lt before)
      rw [List.getElem?_append_right (by omega), filled, Nat.add_sub_cancel_left, ← filled]
      exact added k (Nat.lt_of_add_lt_add_left lt)

theorem write (holds : Holds ⟨buf, opos⟩ out) {bytes : List UInt8}
    (room : opos + bytes.length ≤ buf.cap) :
    Sure (fun buf' => Holds ⟨buf', opos + bytes.length⟩ (out ++ bytes) ∧ buf'.cap = buf.cap)
      (buf.write opos bytes) := by
  unfold Buffer.write
  rw [if_pos room]
  refine .value ⟨holds.extend room (fun i lt => if_neg (by omega)) fun i lt => ?_, rfl⟩
  have within : opos ≤ opos + i ∧ opos + i < opos + bytes.length := by omega
  refine (if_pos within).trans ?_
  rw [Nat.add_sub_cancel_left]

theorem push (holds : Holds o out) {bytes : List UInt8}
    (room : o.opos + bytes.length ≤ o.buf.cap) :
    Sure (fun o' => Holds o' (out ++ bytes) ∧ o'.buf.cap = o.buf.cap) (o.push bytes) :=
  (holds.write room).bind fun _ written => .value written

theorem clear (holds : Holds ⟨buf, opos⟩ out) {n : Nat} (room : opos + n ≤ buf.cap) :
    Sure (fun buf' => Holds ⟨buf', opos + n⟩ (out ++ List.replicate n 0) ∧ buf'.cap = buf.cap)
      (buf.clear opos n) := by
  unfold Buffer.clear
  rw [if_pos room]
  generalize zeros : List.replicate n (0 : UInt8) = bytes
  have length : n = bytes.length := by rw [← zeros, List.length_replicate]
  subst length
  refine .value ⟨holds.extend room (fun i lt => if_neg (by omega)) fun i lt => ?_, rfl⟩
  have within : opos ≤ opos + i ∧ opos + i < opos + bytes.length := by omega
  refine (if_pos within).trans ?_
  rw [← zeros, List.getElem?_replicate, if_pos lt]

/-- A longer block holds the same bytes. -/
theorem realloc (holds : Holds ⟨buf, opos⟩ out) {n : Nat} (longer : buf.cap ≤ n)
    (granted : n ≤ maxBlock) :
    Sure (fun buf' => Holds ⟨buf', opos⟩ out ∧ buf'.cap = n) (buf.realloc n) := by
  have inside : opos ≤ buf.cap := holds.inside
  unfold Buffer.realloc
  rw [if_pos granted]
  exact .value ⟨holds.moved (inside.trans longer) fun i lt => if_pos (by omega), rfl⟩

end Holds

/-! ## Reads -/

theorem byteAt_sure {input rest : List UInt8} {i : Nat} {byte : UInt8}
    (here : input.drop i = byte :: rest) : byteAt input i = .ok byte := by
  have found : input[i]? = some byte := by
    rw [← List.head?_drop, here]
    rfl
  unfold byteAt
  rw [found]

theorem bytesAt_sure {input : List UInt8} {i n : Nat} (inside : i + n ≤ input.length) :
    bytesAt input i n = .ok ((input.drop i).take n) := if_pos inside

/-! ## Packing -/

/-- The words that a run counts are words of the input. -/
theorem countRun_sure {input : List UInt8} (whole : input.length % 8 = 0)
    (test : List UInt8 → Bool) (limit w : Nat) :
    Sure (fun run => run = runLength test limit (input.drop (w * 8)))
      (countRun input test limit w) := by
  induction limit generalizing w with
  | zero => exact .value rfl
  | succ limit ih =>
      have left : (input.drop (w * 8)).length = input.length - w * 8 := List.length_drop
      unfold countRun runLength
      by_cases more : w < input.length / 8
      · rw [if_pos more, bytesAt_sure (by omega)]
        change Sure _ (if test _ = true then _ else _)
        by_cases passes : test ((input.drop (w * 8)).take 8) = true
        · rw [if_pos passes, if_pos ⟨by omega, passes⟩, List.drop_drop, ← Nat.succ_mul]
          refine (ih (w + 1)).bind fun run same => ?_
          exact .value (congrArg (· + 1) same)
        · rw [if_neg passes, if_neg fun both => passes both.2]
          exact .value rfl
      · rw [if_neg more, if_neg fun both => more (by omega)]
        exact .value rfl

theorem pushTagged_sure (tag : UInt8) (word : List UInt8) (ks : List Nat) {o : Output}
    {out : List UInt8} (holds : Holds o out) (room : o.opos + ks.length ≤ o.buf.cap) :
    Sure (fun o' => Holds o' (out ++ (ks.filter (tagBit tag)).map fun k => word.getD k 0) ∧
      o'.buf.cap = o.buf.cap) (pushTagged tag word ks o) := by
  induction ks generalizing o out with
  | nil => exact .value ⟨by rwa [List.filter_nil, List.map_nil, List.append_nil], rfl⟩
  | cons k ks ih =>
      rw [List.length_cons] at room
      unfold pushTagged
      by_cases bit : tagBit tag k = true
      · rw [if_pos bit, List.filter_cons_of_pos bit]
        have one : o.opos + [word.getD k 0].length ≤ o.buf.cap := by
          rw [List.length_singleton]
          omega
        refine (holds.push one).bind fun o' pushed => ?_
        have fill := pushed.1.filled
        rw [List.length_append, List.length_singleton, ← holds.filled] at fill
        refine (ih pushed.1 (by omega)).mono (fun o'' after => ?_) fun _ => id
        rw [List.append_assoc] at after
        exact ⟨after.1, after.2.trans pushed.2⟩
      · rw [if_neg bit, List.filter_cons_of_neg bit]
        exact ih holds (by omega)

theorem tagged_few (tag : UInt8) (word : List UInt8) : (tagged tag word).length ≤ 8 := by
  unfold tagged
  rw [List.length_map]
  exact List.length_filter_le _ _

/-- A round puts out ten bytes at most for each word that it takes. -/
theorem packStep_length {input : List UInt8} (long : 8 ≤ input.length) :
    (packStep input).1.length * 8 + 10 * (packStep input).2.length ≤ 10 * input.length := by
  have few := tagged_few (wordTag (input.take 8)) (input.take 8)
  unfold packStep
  dsimp only
  split
  · have run := runLength_le wordAllZero 255 (input.drop 8)
    simp only [List.length_append, List.length_cons, List.length_nil, List.length_drop] at run ⊢
    omega
  · split
    · have run := runLength_le wordFewerThanTwoZeros 255 (input.drop 8)
      simp only [List.length_append, List.length_cons, List.length_take, List.length_drop] at run ⊢
      omega
    · simp only [List.length_cons, List.length_drop]
      omega

theorem size_of_lt {n : Nat} (lt : n < 2 ^ 64) : size n = n := Nat.mod_eq_of_lt lt

/-- There is room for a round: the tag, eight bytes, the count and 255 words. -/
theorem packReserve_sure {o : Output} {out : List UInt8} (holds : Holds o out)
    (some : 2 ≤ o.buf.cap) (few : o.opos < 2 ^ 58) :
    Sure (fun o' => Holds o' out ∧ o'.opos = o.opos ∧ o'.opos + 2050 ≤ o'.buf.cap)
      (packReserve o) := by
  have inside : o.opos ≤ o.buf.cap := holds.inside
  unfold packReserve
  rw [size_of_lt (by omega)]
  by_cases full : o.opos + 10 + 8 * 255 > o.buf.cap
  · rw [if_pos full, size_of_lt (by omega)]
    have granted : o.buf.cap * 2 + 8 * 256 ≤ maxBlock := by
      unfold maxBlock
      omega
    refine (holds.realloc (by omega) granted).bind fun buf after => .value ⟨after.1, rfl, ?_⟩
    have grown : buf.cap = o.buf.cap * 2 + 8 * 256 := after.2
    change o.opos + 2050 ≤ buf.cap
    omega
  · rw [if_neg full]
    exact .value ⟨holds, rfl, by omega⟩

/-- A round puts out what `packStep` says, and takes the same words. -/
theorem packRound_sure {input out : List UInt8} (whole : input.length % 8 = 0) {st : PackState}
    (holds : Holds st.out out) (more : st.w < input.length / 8) (some : 2 ≤ st.out.buf.cap)
    (few : st.out.opos < 2 ^ 58) :
    Sure (fun st' => Holds st'.out (out ++ (packStep (input.drop (st.w * 8))).1) ∧
      input.drop (st'.w * 8) = (packStep (input.drop (st.w * 8))).2 ∧ st.w < st'.w ∧
      st'.w ≤ input.length / 8 ∧ 2 ≤ st'.out.buf.cap) (packRound input st) := by
  unfold packRound packStep
  refine (packReserve_sure holds some few).bind fun o reserved => ?_
  have reading : bytesAt input (st.w * 8) 8 = _ := bytesAt_sure (by omega)
  rw [reading]
  have after : (input.drop (st.w * 8)).drop 8 = input.drop ((st.w + 1) * 8) := by
    rw [List.drop_drop, Nat.succ_mul]
  have length : (input.drop ((st.w + 1) * 8)).length = input.length - (st.w + 1) * 8 :=
    List.length_drop
  have skip : ∀ run, (input.drop ((st.w + 1) * 8)).drop (run * 8) = input.drop ((st.w + 1 + run) * 8) :=
    fun run => by rw [List.drop_drop, ← Nat.add_mul]
  have few := tagged_few (wordTag ((input.drop (st.w * 8)).take 8)) ((input.drop (st.w * 8)).take 8)
  change Sure _ (Output.push _ _ >>= _)
  dsimp only
  rw [after]
  generalize (input.drop (st.w * 8)).take 8 = word at few
  have fill := reserved.1.filled
  have tagRoom : o.opos + [wordTag word].length ≤ o.buf.cap := by
    rw [List.length_singleton]
    omega
  refine (reserved.1.push tagRoom).bind fun o₁ first => ?_
  have fill₁ := first.1.filled
  rw [List.length_append, List.length_singleton] at fill₁
  refine (pushTagged_sure _ word (List.range 8) first.1 ?_).bind fun o₂ second => ?_
  · rw [List.length_range]
    omega
  change Holds o₂ ((out ++ [wordTag word]) ++ tagged (wordTag word) word) ∧ _ at second
  rw [List.append_assoc, List.singleton_append] at second
  have fill₂ := second.1.filled
  rw [List.length_append, List.length_cons] at fill₂
  have capacity : o₂.buf.cap = o.buf.cap := second.2.trans first.2
  by_cases zero : wordTag word = 0
  · rw [if_pos zero, if_pos zero]
    refine (countRun_sure whole _ 255 (st.w + 1)).bind fun run counted => ?_
    subst counted
    have bound := runLength_le wordAllZero 255 (input.drop ((st.w + 1) * 8))
    generalize runLength wordAllZero 255 (input.drop ((st.w + 1) * 8)) = run at bound
    have countRoom : o₂.opos + [UInt8.ofNat run].length ≤ o₂.buf.cap := by
      rw [List.length_singleton]
      omega
    refine (second.1.push countRoom).bind fun o₃ third => ?_
    rw [List.append_assoc] at third
    exact .value ⟨third.1, (skip run).symm, by dsimp only; omega, by dsimp only; omega,
      by dsimp only; omega⟩
  · rw [if_neg zero, if_neg zero]
    by_cases full : word.countP (fun byte => byte != 0) = 8
    · rw [if_pos full, if_pos full]
      refine (countRun_sure whole _ 255 (st.w + 1)).bind fun run counted => ?_
      subst counted
      have bound := runLength_le wordFewerThanTwoZeros 255 (input.drop ((st.w + 1) * 8))
      generalize runLength wordFewerThanTwoZeros 255 (input.drop ((st.w + 1) * 8)) = run at bound
      have countRoom : o₂.opos + [UInt8.ofNat run].length ≤ o₂.buf.cap := by
        rw [List.length_singleton]
        omega
      refine (second.1.push countRoom).bind fun o₃ third => ?_
      rw [List.append_assoc] at third
      by_cases some : run = 0
      · subst some
        rw [if_neg (not_not.mpr rfl)]
        exact .value ⟨third.1, rfl, Nat.lt_succ_self _, more, by dsimp only; omega⟩
      · rw [if_pos some, bytesAt_sure (by omega)]
        have fill₃ := third.1.filled
        rw [List.length_append, List.length_append, List.length_cons, List.length_singleton] at fill₃
        have words : ((input.drop ((st.w + 1) * 8)).take (run * 8)).length = run * 8 :=
          List.length_take_of_le bound.2
        refine (third.1.push (by omega)).bind fun o₄ fourth => ?_
        rw [List.append_assoc, List.append_assoc, List.singleton_append] at fourth
        exact .value ⟨fourth.1, (skip run).symm, by dsimp only; omega, by dsimp only; omega,
          by dsimp only; omega⟩
    · rw [if_neg full, if_neg full]
      exact .value ⟨second.1, rfl, Nat.lt_succ_self _, more, by dsimp only; omega⟩

theorem packFrom_of_ne_nil {input : List UInt8} (some : input ≠ []) :
    packFrom input = (packStep input).1 ++ packFrom (packStep input).2 := by
  obtain ⟨byte, bytes, rfl⟩ := List.exists_cons_of_ne_nil some
  rw [packFrom]

/-- What holds of the state before each round of the loop of `capnp_pack`. -/
structure Packing (input : List UInt8) (st : PackState) : Prop where
  holds : ∃ out, Holds st.out out ∧ out ++ packFrom (input.drop (st.w * 8)) = packFrom input
  taken : st.w ≤ input.length / 8
  few : st.out.opos ≤ 10 * st.w
  some : st.w < input.length / 8 → 2 ≤ st.out.buf.cap

theorem Packing.round {input : List UInt8} (whole : input.length % 8 = 0)
    (small : input.length < 2 ^ 56) {st : PackState} (packing : Packing input st)
    (more : st.w < input.length / 8) :
    Sure (fun st' => Packing input st' ∧ input.length / 8 - st'.w < input.length / 8 - st.w)
      (packRound input st) := by
  obtain ⟨out, holds, left⟩ := packing.holds
  have few := packing.few
  refine (packRound_sure whole holds more (packing.some more) (by omega)).mono
    (fun st' after => ?_) fun _ => id
  obtain ⟨holds', rest, forward, taken, some⟩ := after
  have here : (input.drop (st.w * 8)).length = input.length - st.w * 8 := List.length_drop
  have size := packStep_length (show 8 ≤ (input.drop (st.w * 8)).length by omega)
  rw [← rest, here, List.length_drop] at size
  have fill := holds'.filled
  have fill₀ := holds.filled
  rw [List.length_append] at fill
  refine ⟨⟨⟨_, holds', ?_⟩, taken, by omega, fun _ => some⟩, by omega⟩
  have unread : input.drop (st.w * 8) ≠ [] := by
    rw [← List.length_pos_iff, here]
    omega
  rw [← left, packFrom_of_ne_nil unread, rest, List.append_assoc]

/-- The buffer of `capnp_pack` ends with the packed string, whatever the
input: no access is outside of a buffer. -/
theorem packBuffered_sure {input : List UInt8} (whole : input.length % 8 = 0)
    (small : input.length < 2 ^ 56) :
    Sure (fun o => Holds o (packFrom input)) (packBuffered input) := by
  unfold packBuffered
  rw [if_neg (not_not.mpr whole)]
  dsimp only
  generalize nwords : input.length / 8 = n
  have granted : Sure (fun buf : Buffer => n ≠ 0 → 2 ≤ buf.cap)
      (Buffer.malloc (if n ≠ 0 then size (n * 10) else 1)) := by
    rw [size_of_lt (by omega)]
    unfold Buffer.malloc
    split_ifs with some inside
    · exact .value fun _ => by dsimp only; omega
    · unfold maxBlock at inside
      omega
    · exact .value fun some => absurd some (by assumption)
    · unfold maxBlock at *
      omega
  refine granted.bind fun buf some => ?_
  have start : Packing input ⟨⟨buf, 0⟩, 0⟩ :=
    ⟨⟨[], .empty buf, by rw [Nat.zero_mul, List.drop_zero, List.nil_append]⟩, Nat.zero_le _,
      Nat.zero_le _, fun more => some (by omega)⟩
  have round : ∀ st, Packing input st → decide (st.w < n) = true → 0 < n - st.w ∧
      Sure (fun st' => Packing input st' ∧ n - st'.w < n - st.w) (packRound input st) := by
    intro st packing again
    have more : st.w < n := of_decide_eq_true again
    subst nwords
    exact ⟨Nat.sub_pos_of_lt more, packing.round whole small more⟩
  refine (Within.rounds (fun st => n - st.w) round start (Nat.sub_le _ _)).bind fun st ended => ?_
  obtain ⟨out, holds, left⟩ := ended.1.holds
  have all : n ≤ st.w := by simpa using ended.2
  rw [List.drop_eq_nil_of_le (by omega), packFrom, List.append_nil] at left
  exact .value (left ▸ holds)

end CapnpJanet.Packed
