import CapnpJanet.Canonical.Frame
import CapnpJanet.Value.View

/-!
# What a deep copy lays out

A copy of a handle that can be read, with a budget that covers its reads, lays
out the tree of the handle: the slot gets the pointer word, and the objects
follow in preorder at the end of the last segment.
-/

namespace CapnpJanet

open ByteMemory Outcome Finset

namespace Builder

/-- The last segment, which copies allocate in. -/
def last (b : Builder) : Nat := b.nsegs - 1

/-- The last segment has `n` more words in use, and nothing else was added. -/
structure Adds (n : Nat) (b b' : Builder) : Prop where
  nsegs_eq : b'.nsegs = b.nsegs
  words_eq : ∀ s, (b'.seg s).words = (b.seg s).words + if s = b.last then n else 0

/-- A slot has been filled with a tree. -/
structure Copied (seg word : Nat) (t : Tree) (b b' : Builder) : Prop where
  writes : Writes (slotBytes seg word) b b'
  adds : Adds t.size b b'
  laid : t.Laid (b'.seg b.last).data (b'.wordAt seg word) word (b.seg b.last).words

variable {b b' b'' : Builder} {n n' : Nat}

namespace Adds

theorem last_eq (adds : Adds n b b') : b'.last = b.last := by
  rw [last, last, adds.nsegs_eq]

theorem last_words (adds : Adds n b b') :
    (b'.seg b.last).words = (b.seg b.last).words + n := by
  rw [adds.words_eq, if_pos rfl]

theorem none (nsegs : b'.nsegs = b.nsegs) (words : ∀ s, (b'.seg s).words = (b.seg s).words) :
    Adds 0 b b' :=
  ⟨nsegs, fun s => by rw [words s, ite_self, Nat.add_zero]⟩

theorem trans (first : Adds n b b') (second : Adds n' b' b'') : Adds (n + n') b b'' := by
  refine ⟨second.nsegs_eq.trans first.nsegs_eq, fun s => ?_⟩
  rw [second.words_eq, first.words_eq, first.last_eq]
  split <;> omega

theorem of_storeW (b : Builder) (seg word w : Nat) : Adds 0 b (b.storeW seg word w) :=
  none rfl (storeW_words b seg word w)

end Adds

/-- Allocation adds words. -/
theorem allocLocal_adds (wf : b.Wf) (n : Nat) :
    ∃ b', allocLocal n b = .ok (b.last, (b.seg b.last).words) b' ∧
      Allocated b b.last (b.seg b.last).words n b' ∧ Adds n b b' := by
  obtain ⟨w, b', run, allocated, nsegs⟩ := allocLocal_spec wf n
  have start : w = (b.seg b.last).words := allocated.start
  subst start
  refine ⟨b', run, allocated, nsegs, fun s => ?_⟩
  by_cases here : s = b.last
  · subst here
    rw [if_pos rfl]
    exact allocated.words_self
  · rw [if_neg here]
    exact allocated.words_other s here

theorem storeWords_words (b : Builder) (seg start : Nat) (w : Nat → Nat) (n s : Nat) :
    ((b.storeWords seg start w n).seg s).words = (b.seg s).words := by
  induction n with
  | zero => rfl
  | succ n ih => rw [storeWords, storeW_words, ih]

/-- The words that have been stored. -/
theorem wordAt_storeWords (b : Builder) (seg start : Nat) (w : Nat → Nat) {n j : Nat}
    (inside : j < n) : (b.storeWords seg start w n).wordAt seg (start + j) = w j % 2 ^ 64 := by
  induction n with
  | zero => exact absurd inside (Nat.not_lt_zero j)
  | succ n ih =>
      rw [storeWords, wordAt_storeW]
      rcases Nat.lt_succ_iff_lt_or_eq.mp inside with earlier | rfl
      · rw [if_neg fun here => by omega]
        exact ih earlier
      · rw [if_pos ⟨rfl, rfl⟩]

/-! ## Rows -/

/-- What a step does that fills a row of a block and lays out the objects behind
it. -/
structure RowFilled (seg start nd np : Nat) (data : Nat → Nat) (child : Nat → Tree)
    (b b' : Builder) : Prop where
  writes : Writes (slotsFrom seg start (nd + np)) b b'
  adds : Adds (∑ k ∈ range np, (child k).size) b b'
  laid : Tree.RowLaid (b'.seg seg).data start nd np data child (b.seg seg).words

/-- A slot is a row of one pointer. -/
theorem Copied.rowFilled {seg slot : Nat} {data : Nat → Nat} {child : Nat → Tree}
    (copied : Copied seg slot (child 0) b b') (here : seg = b.last) :
    RowFilled seg slot 0 1 data child b b' := by
  subst here
  constructor
  · refine copied.writes.mono ?_
    rintro s a - ⟨rfl, rfl⟩
    exact ⟨rfl, le_rfl, by omega⟩
  · rw [sum_range_one]
    exact copied.adds
  · refine ⟨nofun, fun k one => ?_⟩
    rw [Nat.lt_one_iff.mp one]
    exact copied.laid

/-- What the first `n` of such steps do, row after row. -/
structure RowsFilled (seg start nd np : Nat) (data : Nat → Nat → Nat) (child : Nat → Nat → Tree)
    (n : Nat) (b b' : Builder) : Prop where
  writes : Writes (slotsFrom seg start (n * (nd + np))) b b'
  adds : Adds (∑ i ∈ range n, ∑ k ∈ range np, (child i k).size) b b'
  laid : ∀ i < n, Tree.RowLaid (b'.seg seg).data (start + i * (nd + np)) nd np (data i) (child i)
    ((b.seg seg).words + ∑ i' ∈ range i, ∑ k ∈ range np, (child i' k).size)

/-- The first of such steps. -/
theorem RowFilled.rows {seg start nd np : Nat} {data : Nat → Nat → Nat}
    {child : Nat → Nat → Tree} (filled : RowFilled seg start nd np (data 0) (child 0) b b') :
    RowsFilled seg start nd np data child 1 b b' := by
  constructor
  · rw [Nat.one_mul]
    exact filled.writes
  · rw [sum_range_one]
    exact filled.adds
  · intro i one
    rw [Nat.lt_one_iff.mp one, Nat.zero_mul, sum_range_zero]
    exact filled.laid

/-- One more row leaves those before it and the objects behind them. -/
theorem RowsFilled.next {seg start nd np n : Nat} {data : Nat → Nat → Nat}
    {child : Nat → Nat → Tree} (here : seg = b.last)
    (inUse : ∀ x < (n + 1) * (nd + np), b.Used seg (start + x))
    (filled : RowsFilled seg start nd np data child n b b')
    (row : RowFilled seg (start + n * (nd + np)) nd np (data n) (child n) b' b'') :
    RowsFilled seg start nd np data child (n + 1) b b'' := by
  rw [Nat.succ_mul] at inUse
  have words : (b'.seg seg).words =
      (b.seg seg).words + ∑ i ∈ range n, ∑ k ∈ range np, (child i k).size := by
    rw [here]
    exact filled.adds.last_words
  constructor
  · rw [Nat.succ_mul]
    refine (filled.writes.mono ?_).trans row.writes ?_
    · rintro s a - ⟨rfl, low, high⟩
      exact ⟨rfl, low, by omega⟩
    · rintro s a - ⟨rfl, low, high⟩
      exact ⟨rfl, by omega, by omega⟩
  · rw [sum_range_succ]
    exact filled.adds.trans row.adds
  · intro i hi
    rcases Nat.lt_succ_iff_lt_or_eq.mp hi with earlier | rfl
    · have before := Tree.row_le earlier (nd + np)
      have behind := sum_le_sum_of_subset (f := fun j => ∑ k ∈ range np, (child j k).size)
        (range_subset_range.mpr (Nat.succ_le_of_lt earlier))
      rw [sum_range_succ] at behind
      refine (filled.laid i earlier).congr (fun a low high => ?_) fun a low high => ?_
      · refine row.writes.kept seg a ?_ ?_
        · have used := filled.writes.used (inUse (a / 8 - start) (by omega))
          unfold Builder.Used at used
          omega
        · rintro ⟨-, low', -⟩
          omega
      · refine row.writes.kept seg a (by omega) ?_
        rintro ⟨-, low', high'⟩
        have used := inUse (a / 8 - start) (by omega)
        unfold Builder.Used at used
        omega
    · rw [← words]
      exact row.laid

end Builder

namespace Message

open Builder CopyM

variable {m : Message} {copy : Nat → Nat → Ptr → CopyM Unit} {room : Nat}

/-- What following a pointer and copying what is behind it costs. -/
def linkCost (m : Message) (room : Nat) (p : Ptr) (i k : Nat) : Nat :=
  (m.link p i k).elim 0 fun priced => priced.2 + m.walkCost room priced.1

/-- A step fills a slot with a tree, for a price. -/
def Fills (x : CopyM Unit) (seg word : Nat) (t : Tree) (price : Nat) (st : CopyState) : Prop :=
  Ends (x st) (fun _ st' => Copied seg word t st.b st'.b ∧ st'.left + price = st.left)
    fun _ => False

/-- A copier fills its slot with the tree of its source. -/
def Copies (m : Message) (room : Nat) (copy : Nat → Nat → Ptr → CopyM Unit) : Prop :=
  ∀ seg word src st, st.b.Wf → st.b.Used seg word → m.Readable room src →
    m.walkCost room src ≤ st.left →
      Fills (copy seg word src) seg word (m.tree room src) (m.walkCost room src) st

/-! ## One pointer -/

theorem orFail_fills {code : Status} {x : CopyM Unit} {seg word price : Nat} {t : Tree}
    {st : CopyState} (fills : Fills x seg word t price st) :
    Fills (orFail code x) seg word t price st := orFail_ends fills

/-- A slot without content is filled by its word. -/
theorem store_fills {seg word w : Nat} {t : Tree} {st : CopyState} (wf : st.b.Wf)
    (inUse : st.b.Used seg word) (small : w < 2 ^ 64) (empty : t.size = 0)
    (laid : ∀ mem pos, t.Laid mem w word pos) : Fills (store seg word w) seg word t 0 st := by
  refine ⟨⟨writes_storeW wf inUse w, ?_, ?_⟩, rfl⟩
  · rw [empty]
    exact Adds.of_storeW _ _ _ _
  · dsimp only
    rw [wordAt_storeW, if_pos ⟨rfl, rfl⟩, Nat.mod_eq_of_lt small]
    exact laid _ _

/-- What has been read is copied. -/
theorem copyRead_fills (copies : Copies m room copy) {seg slot i k cost : Nat} {p q : Ptr}
    {st st' : CopyState} (wf : st.b.Wf) (inUse : st.b.Used seg slot)
    (found : m.link p i k = some (q, cost)) (readable : m.Readable room q)
    (enough : m.linkCost room p i k ≤ st.left) (same : st'.b = st.b)
    (spent : st'.left + cost = st.left) :
    Ends (orFail .alloc (copy seg slot q) st')
      (fun _ st'' => Copied seg slot (m.subtree room p i k) st.b st''.b ∧
        st''.left + m.linkCost room p i k = st.left) fun _ => False := by
  have price : m.linkCost room p i k = cost + m.walkCost room q := by
    rw [linkCost, found, Option.elim_some]
  rw [price] at enough ⊢
  rw [subtree_of_link found, ← same]
  refine (orFail_fills (copies seg slot q st' (same ▸ wf) (same ▸ inUse) readable
    (by omega))).mono (fun _ st'' done => ⟨done.1, ?_⟩) fun _ none => none
  have left := done.2
  omega

theorem copyChild_fills (copies : Copies m room copy) {seg slot i k cost : Nat} {p q src : Ptr}
    {st : CopyState} (wf : st.b.Wf) (inUse : st.b.Used seg slot) (isStruct : src.kind = .struct)
    (inside : k < src.pwords) (row : m.link p i k = m.fieldTarget src k)
    (found : m.link p i k = some (q, cost)) (readable : m.Readable room q)
    (enough : m.linkCost room p i k ≤ st.left) :
    Fills (m.copyChild copy seg slot src k) seg slot (m.subtree room p i k)
      (m.linkCost room p i k) st := by
  have price : cost ≤ st.left := by
    rw [linkCost, found, Option.elim_some] at enough
    omega
  have read : m.getp src k Ptr.zero st.left = ⟨.ok, q, st.left - cost⟩ :=
    (getp_agrees isStruct).covered q cost (row ▸ found) price
  unfold Fills copyChild
  rw [if_pos inside]
  refine (reading_ends _ st).bind (fun child st' after => ?_) fun _ none => none
  obtain ⟨rfl, same, left⟩ := after
  rw [read] at left ⊢
  dsimp only at left ⊢
  rw [if_neg (not_not.mpr rfl)]
  exact copyRead_fills copies wf inUse found readable enough same (by omega)

theorem copyPointer_fills (copies : Copies m room copy) {seg start i cost : Nat} {p q : Ptr}
    {st : CopyState} (wf : st.b.Wf) (inUse : st.b.Used seg (start + i))
    (form : p.form = .block .pointers) (inside : i < p.count)
    (found : m.link p i 0 = some (q, cost)) (readable : m.Readable room q)
    (enough : m.linkCost room p i 0 ≤ st.left) :
    Fills (m.copyPointer copy seg start p i) seg (start + i) (m.subtree room p i 0)
      (m.linkCost room p i 0) st := by
  have price : cost ≤ st.left := by
    rw [linkCost, found, Option.elim_some] at enough
    omega
  have row : m.link p i 0 = m.itemTarget p i := by
    rw [link, form]
    exact if_pos ⟨inside, rfl⟩
  have read : m.listGetp p i Ptr.zero st.left = ⟨.ok, q, st.left - cost⟩ :=
    (listGetp_agrees form inside).covered q cost (row ▸ found) price
  unfold Fills copyPointer
  refine (reading_ends _ st).bind (fun el st' after => ?_) fun _ none => none
  obtain ⟨rfl, same, left⟩ := after
  rw [read] at left ⊢
  dsimp only at left ⊢
  rw [if_neg (not_not.mpr rfl)]
  exact copyRead_fills copies wf inUse found readable enough same (by omega)

/-! ## Rows of a source -/

section
variable {seg start nd np n : Nat} {data : Nat → Nat → Nat} {child : Nat → Nat → Tree}

/-- Steps that fill one row each lay out a block. -/
theorem upTo_rows {price : Nat → Nat} {body : Nat → CopyM Unit} {st₀ : CopyState}
    (wf : st₀.b.Wf) (here : seg = st₀.b.last)
    (inUse : ∀ x < n * (nd + np), st₀.b.Used seg (start + x))
    (enough : ∑ i ∈ range n, price i ≤ st₀.left)
    (round : ∀ i < n, ∀ st : CopyState, st.b.Wf → seg = st.b.last →
      (∀ x < nd + np, st.b.Used seg (start + i * (nd + np) + x)) → price i ≤ st.left →
        Ends (body i st) (fun _ st' =>
          RowFilled seg (start + i * (nd + np)) nd np (data i) (child i) st.b st'.b ∧
            st'.left + price i = st.left) fun _ => False) :
    Ends (upTo n body st₀) (fun _ st => RowsFilled seg start nd np data child n st₀.b st.b ∧
      st.left + ∑ i ∈ range n, price i = st₀.left) fun _ => False := by
  refine Ends.upTo (fun i (st : CopyState) =>
    RowsFilled seg start nd np data child i st₀.b st.b ∧
      st.left + ∑ i' ∈ range i, price i' = st₀.left) ?_ ?_
  · exact ⟨⟨Writes.refl wf, Adds.none rfl fun _ => rfl, nofun⟩, by simp⟩
  · rintro i hi st ⟨filled, left⟩
    have inside := Tree.row_le hi (nd + np)
    have used (x : Nat) (hx : x < nd + np) : st.b.Used seg (start + i * (nd + np) + x) := by
      rw [Nat.add_assoc]
      exact filled.writes.used (inUse _ (by omega))
    have fewer := sum_le_sum_of_subset (f := price) (range_subset_range.mpr
      (Nat.succ_le_of_lt hi))
    rw [sum_range_succ] at fewer
    refine (round i hi st filled.writes.wf (here.trans filled.adds.last_eq.symm) used
      (by omega)).mono (fun _ st' done => ?_) fun _ none => none
    refine ⟨filled.next here (fun x hx => inUse x (by rw [Nat.succ_mul] at hx; omega)) done.1, ?_⟩
    have spent := done.2
    rw [sum_range_succ]
    omega

end

theorem datum_lt (m : Message) (p : Ptr) (i j : Nat) : m.datum p i j < 2 ^ 64 := by
  have scalar (s : Ptr) (k : Nat) : m.getU64 s k 0 < 2 ^ 64 := by
    unfold getU64 getScalar
    split
    · exact loadLe_lt 8 _ _
    · exact Nat.two_pow_pos 64
  unfold datum
  cases p.form with
  | block shape =>
      cases shape with
      | pointers => exact Nat.two_pow_pos 64
      | _ =>
          dsimp only
          split
          · exact scalar _ _
          · exact Nat.two_pow_pos 64
  | _ => exact Nat.two_pow_pos 64

section
variable {seg : Nat} {p src : Ptr} {st : CopyState} {i : Nat}

/-- The data words of a row are stored. -/
theorem writeStructBodyData_stores {body nd : Nat} (wf : st.b.Wf)
    (inUse : ∀ j < nd, st.b.Used seg (body + j))
    (data : ∀ j, m.datum p i j = if j < src.dwords then m.getU64 src (j * 8) 0 else 0) :
    Ends (m.writeStructBodyData seg body nd src st)
      (fun _ st' => Writes (slotsFrom seg body nd) st.b st'.b ∧ Adds 0 st.b st'.b ∧
        (∀ j < nd, st'.b.wordAt seg (body + j) = m.datum p i j) ∧ st'.left = st.left)
      fun _ => False := by
  refine ⟨storeWords_writes wf _ inUse, ?_, fun j hj => ?_, rfl⟩
  · exact Adds.none (storeWords_nsegs _ _ _ _ _) (storeWords_words _ _ _ _ _)
  · rw [wordAt_storeWords _ _ _ _ hj, ← data j, Nat.mod_eq_of_lt (m.datum_lt p i j)]

/-- The pointers of a row are copied. -/
theorem copyChildren_fill (copies : Copies m room copy) {start np : Nat} (wf : st.b.Wf)
    (here : seg = st.b.last) (inUse : ∀ k < np, st.b.Used seg (start + k))
    (isStruct : src.kind = .struct) (inside : np ≤ src.pwords)
    (row : ∀ k, m.link p i k = m.fieldTarget src k)
    (readable : ∀ k < np, ∃ q cost, m.link p i k = some (q, cost) ∧ m.Readable room q)
    (enough : ∑ k ∈ range np, m.linkCost room p i k ≤ st.left) :
    Ends (upTo np (fun k => m.copyChild copy seg (start + k) src k) st)
      (fun _ st' => RowsFilled seg start 0 1 (fun _ _ => 0) (fun k _ => m.subtree room p i k) np
          st.b st'.b ∧
        st'.left + ∑ k ∈ range np, m.linkCost room p i k = st.left) fun _ => False := by
  refine upTo_rows wf here (fun x hx => inUse x (by omega)) enough ?_
  intro k hk st' wf' here' used covered
  obtain ⟨q, cost, found, below⟩ := readable k hk
  have slot := used 0 Nat.one_pos
  simp only [Nat.zero_add, Nat.mul_one, Nat.add_zero] at slot ⊢
  refine (copyChild_fills copies wf' slot isStruct (hk.trans_le inside) (row k) found below
    covered).mono (fun _ st'' done => ⟨done.1.rowFilled here', done.2⟩) fun _ none => none

/-- A row of a struct or of a composite list is copied: data words and
pointers. -/
theorem copyRow_fills (copies : Copies m room copy) {body nd np : Nat} (wf : st.b.Wf)
    (here : seg = st.b.last) (inUse : ∀ x < nd + np, st.b.Used seg (body + x))
    (isStruct : src.kind = .struct) (inside : np ≤ src.pwords)
    (data : ∀ j, m.datum p i j = if j < src.dwords then m.getU64 src (j * 8) 0 else 0)
    (row : ∀ k, m.link p i k = m.fieldTarget src k)
    (readable : ∀ k < np, ∃ q cost, m.link p i k = some (q, cost) ∧ m.Readable room q)
    (enough : ∑ k ∈ range np, m.linkCost room p i k ≤ st.left) :
    Ends ((do
        m.writeStructBodyData seg body nd src
        upTo np fun k => m.copyChild copy seg (body + nd + k) src k : CopyM Unit) st)
      (fun _ st' => RowFilled seg body nd np (m.datum p i) (m.subtree room p i) st.b st'.b ∧
        st'.left + ∑ k ∈ range np, m.linkCost room p i k = st.left) fun _ => False := by
  have own (x : Nat) (hx : x < nd + np) : body + x < (st.b.seg seg).words := inUse x hx
  refine (writeStructBodyData_stores wf (fun j (hj : j < nd) => inUse j (by omega)) data).bind
    (fun _ st₁ stored => ?_) fun _ none => none
  obtain ⟨writes, adds, words, left⟩ := stored
  have slots (k : Nat) (hk : k < np) : st₁.b.Used seg (body + nd + k) := by
    rw [Nat.add_assoc]
    exact writes.used (inUse _ (by omega))
  refine (copyChildren_fill copies writes.wf (here.trans adds.last_eq.symm) slots isStruct inside
    row readable (left ▸ enough)).mono (fun _ st₂ done => ?_) fun _ none => none
  obtain ⟨filled, spent⟩ := done
  have total : ∑ k ∈ range np, ∑ _k' ∈ range 1, (m.subtree room p i k).size =
      ∑ k ∈ range np, (m.subtree room p i k).size := sum_congr rfl fun k _ => sum_range_one _
  refine ⟨⟨?_, ?_, fun j hj => ?_, fun k hk => ?_⟩, by omega⟩
  · refine (writes.mono ?_).trans filled.writes ?_
    · rintro s a - ⟨rfl, low, high⟩
      exact ⟨rfl, low, by omega⟩
    · rintro s a - ⟨rfl, low, high⟩
      exact ⟨rfl, by omega, by omega⟩
  · rw [← total]
    simpa using adds.trans filled.adds
  · rw [← words j hj]
    refine filled.writes.wordAt_eq (writes.used (inUse j (by omega))) ?_
    rintro a at' ⟨-, low, -⟩
    omega
  · have laid := (filled.laid k hk).2 0 Nat.one_pos
    simpa [adds.words_eq, Nat.add_assoc] using laid

end

/-! ## What is kept -/

section
variable {p : Ptr} {left : Nat}

/-- Looking for the last pointer finds it, if the budget covers the reads. -/
theorem trimmedPwords_eq (isStruct : p.kind = .struct) (np : Nat)
    (resolves : ∀ k < m.usedPointers p np, (m.fieldTarget p k).isSome)
    (enough : m.usedPrice p np ≤ left) :
    m.trimmedPwords p np left = (m.usedPointers p np, left - m.usedPrice p np) := by
  induction np generalizing left with
  | zero => rfl
  | succ np ih =>
      rw [trimmedPwords]
      rw [usedPointers] at resolves ⊢
      rw [usedPrice] at enough ⊢
      cases found : m.fieldTarget p np with
      | none =>
          rw [found] at resolves
          have there := resolves np (Nat.lt_succ_self np)
          rw [found] at there
          cases there
      | some priced =>
          obtain ⟨q, cost⟩ := priced
          rw [found] at resolves enough
          dsimp only at resolves enough ⊢
          have read : m.getp p np Ptr.zero left = ⟨.ok, q, left - cost⟩ :=
            (getp_agrees isStruct).covered q cost found (by omega)
          rw [read]
          by_cases null : q.kind = .null
          · rw [if_pos null] at resolves enough ⊢
            rw [if_pos null, if_neg (by simp [null])]
            dsimp only
            rw [ih resolves (by omega), Nat.sub_sub]
          · rw [if_neg null] at resolves enough ⊢
            rw [if_neg null, if_pos (.inr null)]
            rfl

/-- Looking for the sizes that fit every element finds them. -/
theorem compositeTrim_eq (form : p.form = .block .composite) {n : Nat} (within : n ≤ p.count)
    (resolves : ∀ i < n, ∀ k < m.usedPointers (elemPtr p i) p.pwords,
      (m.fieldTarget (elemPtr p i) k).isSome)
    (enough : ∑ i ∈ range n, m.usedPrice (elemPtr p i) p.pwords ≤ left) :
    m.compositeTrim p n left =
      ((range n).sup fun i => m.trimmedDwords (elemPtr p i) p.dwords,
        (range n).sup fun i => m.usedPointers (elemPtr p i) p.pwords,
        left - ∑ i ∈ range n, m.usedPrice (elemPtr p i) p.pwords) := by
  induction n with
  | zero => simp [compositeTrim]
  | succ n ih =>
      rw [sum_range_succ] at enough
      rw [compositeTrim, ih (by omega) (fun i hi => resolves i (Nat.lt_succ_of_lt hi)) (by omega)]
      dsimp only
      rw [listGetp_composite form (by omega)]
      have covered : m.usedPrice (elemPtr p n) p.pwords ≤
          left - ∑ i ∈ range n, m.usedPrice (elemPtr p i) p.pwords := by
        omega
      have row := trimmedPwords_eq rfl p.pwords (resolves n (Nat.lt_succ_self n)) covered
      rw [if_neg (by simp), show (elemPtr p n).pwords = p.pwords from rfl, row,
        range_add_one, sup_insert, sup_insert, ← range_add_one, sum_range_succ]
      refine Prod.ext (sup_comm _ _) (Prod.ext (sup_comm _ _) ?_)
      dsimp only
      omega

end

/-! ## One object -/

section
variable {seg word : Nat} {p : Ptr} {st : CopyState}

theorem walkCost_succ (m : Message) (room : Nat) (p : Ptr) : m.walkCost (room + 1) p =
    ∑ i ∈ range p.rows, m.rowPrice p i +
      ∑ i ∈ range p.rows, ∑ k ∈ range (m.linkWords p), m.linkCost room p i k := rfl

theorem allocLocal_added (wf : st.b.Wf) (n : Nat) :
    Ends (allocLocal n st) (fun at' st' => at' = (st.b.last, (st.b.seg st.b.last).words) ∧
      Allocated st.b st.b.last (st.b.seg st.b.last).words n st'.b ∧ Adds n st.b st'.b ∧
        st'.left = st.left) fun _ => False := by
  obtain ⟨b', run, allocated, adds⟩ := allocLocal_adds wf n
  unfold allocLocal
  rw [run]
  exact ⟨rfl, allocated, adds, rfl⟩

theorem store_stores (seg word w : Nat) (st : CopyState) :
    Ends (store seg word w st)
      (fun _ st' => st'.b = st.b.storeW seg word w ∧ st'.left = st.left) fun _ => False :=
  ⟨rfl, rfl⟩

/-- A block that has just been allocated is filled row by row, after its tag and
its pointer have been stored. -/
theorem block_copied {b b₁ b₂ b₃ : Builder} (inUse : b.Used seg word)
    {shape : Shape} {n nd np : Nat} {data : Nat → Nat → Nat} {child : Nat → Nat → Tree}
    (adds : Adds (shape.header + n * (nd + np)) b b₁) (stored : Writes (slotBytes seg word) b b₂)
    (storedAdds : Adds 0 b₁ b₂)
    (pointer : b₂.wordAt seg word =
      shape.pointer n nd np (((b.seg b.last).words : Int) - word - 1))
    (tag : shape = .composite → b₂.wordAt b.last (b.seg b.last).words = wpMakeStruct n nd np)
    (filled : RowsFilled b.last ((b.seg b.last).words + shape.header) nd np data child n b₂ b₃) :
    Copied seg word (.block shape n nd np data child) b b₃ := by
  have start : (b₂.seg b.last).words =
      (b.seg b.last).words + (shape.header + n * (nd + np)) := by
    have first := adds.last_words
    have second := storedAdds.words_eq b.last
    rw [ite_self, Nat.add_zero] at second
    rw [second, first]
  have apart (s w : Nat) (old : b.Used s w) (a : Nat) (at' : a / 8 = w) :
      ¬slotsFrom b.last ((b.seg b.last).words + shape.header) (n * (nd + np)) s a := by
    rintro ⟨rfl, low, -⟩
    unfold Builder.Used at old
    omega
  constructor
  · refine stored.trans filled.writes fun s a old touches => ?_
    exact absurd touches (apart s (a / 8) (by unfold Builder.Used; omega) a rfl)
  · rw [Tree.size_block, Tree.before_total]
    exact (adds.trans storedAdds).trans filled.adds
  · rw [Tree.laid_block_iff]
    have slotUsed : b₂.Used seg word := stored.used inUse
    refine ⟨?_, fun composite => ?_, fun i hi => ?_⟩
    · rw [filled.writes.wordAt_eq slotUsed fun a at' => apart seg word inUse a at', pointer]
    · have tagUsed : b₂.Used b.last (b.seg b.last).words := by
        unfold Builder.Used
        rw [start, composite, Shape.header]
        omega
      rw [← tag composite]
      refine filled.writes.wordAt_eq tagUsed ?_
      rintro a at' ⟨-, low, -⟩
      rw [at', composite, Shape.header] at low
      omega
    · have laid := filled.laid i hi
      have place : Tree.placeOf shape n nd np child (b.seg b.last).words i 0 =
          (b₂.seg b.last).words + ∑ i' ∈ range i, ∑ k ∈ range np, (child i' k).size := by
        rw [Tree.placeOf, Tree.before_total, start]
        omega
      rw [place]
      exact laid

/-- Storing the words of a block that has just been allocated. -/
theorem writes_stored {b b₁ : Builder} {n : Nat} (x w : Nat) (inUse : b.Used seg word)
    (allocated : Allocated b b.last (b.seg b.last).words n b₁) :
    Writes (slotBytes seg word) b (b₁.storeW seg word w) ∧
      (0 < n → Writes (slotBytes seg word) b
        ((b₁.storeW b.last (b.seg b.last).words x).storeW seg word w)) := by
  have slot := allocated.used inUse
  refine ⟨allocated.writes.trans (writes_storeW allocated.wf slot w) fun _ _ _ same => same,
    fun some => ?_⟩
  have tagged := writes_storeW allocated.wf (allocated.used_new some) x
  rw [Nat.add_zero] at tagged
  refine (allocated.writes.trans tagged ?_).trans
    (writes_storeW tagged.wf (tagged.used slot) w) fun _ _ _ same => same
  rintro s a old ⟨rfl, at'⟩
  omega

theorem writeStructToSlot_fills (copies : Copies m room copy) (wf : st.b.Wf)
    (inUse : st.b.Used seg word) (form : p.form = .block .struct)
    (readable : m.Readable (room + 1) p) (enough : m.walkCost (room + 1) p ≤ st.left) :
    Fills (m.writeStructToSlot copy seg word p) seg word (m.tree (room + 1) p)
      (m.walkCost (room + 1) p) st := by
  have isStruct := Ptr.form_eq_struct form
  have rows : p.rows = 1 := by
    rw [Ptr.rows, form]
  have nd : m.trimmedDwords p p.dwords = m.dataWords p := by
    rw [dataWords, form]
  have np : m.usedPointers p p.pwords = m.linkWords p := by
    rw [linkWords, form]
  have price : m.rowPrice p 0 = m.usedPrice p p.pwords := by
    rw [rowPrice, form]
  have row (k : Nat) : m.link p 0 k = m.fieldTarget p k := by
    rw [link, form]
    rfl
  have data (j : Nat) : m.datum p 0 j = if j < p.dwords then m.getU64 p (j * 8) 0 else 0 := by
    rw [datum, form]
    simp
  have found : ∀ k < m.linkWords p, ∃ q cost, m.link p 0 k = some (q, cost) ∧ m.Readable room q :=
    readable.2 0 (by rw [rows]; exact Nat.one_pos)
  rw [walkCost_succ, rows, sum_range_one, sum_range_one, price] at enough ⊢
  rw [tree_block form, rows]
  have counted : m.trimmedPwords p p.pwords st.left =
      (m.linkWords p, st.left - m.usedPrice p p.pwords) := by
    rw [← np]
    refine trimmedPwords_eq isStruct _ (fun k hk => ?_) (by omega)
    obtain ⟨q, cost, there, -⟩ := found k (by rwa [← np])
    rw [← row, there]
    rfl
  unfold Fills writeStructToSlot
  dsimp only
  rw [nd]
  have count : Ends (m.countPwords p st) (fun np st' => np = m.linkWords p ∧ st'.b = st.b ∧
      st'.left + m.usedPrice p p.pwords = st.left) fun _ => False := by
    unfold countPwords
    rw [counted]
    exact ⟨rfl, rfl, by dsimp only; omega⟩
  refine count.bind (fun n st₁ after => ?_) fun _ none => none
  obtain ⟨rfl, same, left⟩ := after
  rw [← same] at wf inUse ⊢
  split
  · next empty =>
    obtain ⟨noData, noLinks⟩ := empty
    rw [noData, noLinks]
    refine (store_fills wf inUse (wpMakeStruct_lt _ _ _) (t := .block .struct 1 0 0 (m.datum p)
      (m.subtree room p)) (by simp [Tree.size, Shape.header]) ?_).mono
      (fun _ st₂ done => ⟨done.1, ?_⟩) fun _ none => none
    · intro mem pos
      have noWord {k : Nat} {P : Prop} (hk : k < 0) : P := absurd hk (Nat.not_lt_zero k)
      exact ⟨by simp [Shape.pointer], fun composite => (by cases composite),
        fun i _ => ⟨fun j hj => noWord hj, fun k hk => noWord hk⟩⟩
    · have spent := done.2
      rw [sum_range_zero]
      omega
  · next some =>
    refine (allocLocal_added wf (m.dataWords p + m.linkWords p)).bind
      (fun at' st₂ after => ?_) fun _ none => none
    obtain ⟨rfl, allocated, adds, left₂⟩ := after
    dsimp only
    refine (store_stores _ _ _ st₂).bind (fun _ st₃ after => ?_) fun _ none => none
    obtain ⟨same₃, left₃⟩ := after
    have stored := (writes_stored 0 (wpMakeStruct (((st₁.b.seg st₁.b.last).words : Int) - word - 1)
      (m.dataWords p) (m.linkWords p)) inUse allocated).1
    have storedAdds := Adds.of_storeW st₂.b seg word (wpMakeStruct
      (((st₁.b.seg st₁.b.last).words : Int) - word - 1) (m.dataWords p) (m.linkWords p))
    rw [← same₃] at stored storedAdds
    refine (copyRow_fills copies stored.wf (adds.trans storedAdds).last_eq.symm (fun x hx => ?_)
      isStruct (np ▸ usedPointers_le m p p.pwords) data row found ?_).mono
      (fun _ st₄ done => ⟨?_, ?_⟩) fun _ none => none
    · rw [same₃]
      exact storeW_used.mpr (allocated.used_new hx)
    · omega
    · refine block_copied inUse (by simpa [Shape.header] using adds) stored storedAdds ?_
        (fun composite => by cases composite) (by simpa [Shape.header] using done.1.rows)
      rw [same₃, wordAt_storeW, if_pos ⟨rfl, rfl⟩, Nat.mod_eq_of_lt (wpMakeStruct_lt _ _ _)]
      exact (if_neg some).symm
    · have spent := done.2
      omega

theorem copyElement_fills (copies : Copies m room copy) {first i : Nat} (wf : st.b.Wf)
    (here : seg = st.b.last) (form : p.form = .block .composite) (inside : i < p.count)
    (inUse : ∀ x < m.dataWords p + m.linkWords p,
      st.b.Used seg (first + i * (m.dataWords p + m.linkWords p) + x))
    (readable : ∀ k < m.linkWords p, ∃ q cost, m.link p i k = some (q, cost) ∧ m.Readable room q)
    (enough : ∑ k ∈ range (m.linkWords p), m.linkCost room p i k ≤ st.left) :
    Ends (m.copyElement copy seg first (m.dataWords p) (m.linkWords p) p i st)
      (fun _ st' => RowFilled seg (first + i * (m.dataWords p + m.linkWords p)) (m.dataWords p)
          (m.linkWords p) (m.datum p i) (m.subtree room p i) st.b st'.b ∧
        st'.left + ∑ k ∈ range (m.linkWords p), m.linkCost room p i k = st.left)
      fun _ => False := by
  have row (k : Nat) : m.link p i k = m.fieldTarget (elemPtr p i) k := by
    rw [link, form]
    exact if_pos inside
  have data (j : Nat) : m.datum p i j =
      if j < (elemPtr p i).dwords then m.getU64 (elemPtr p i) (j * 8) 0 else 0 := by
    rw [datum, form]
    refine if_congr ?_ rfl rfl
    rw [and_iff_right inside]
    rfl
  have within : m.linkWords p ≤ (elemPtr p i).pwords := by
    rw [linkWords, form]
    exact Finset.sup_le fun k _ => usedPointers_le m _ _
  unfold copyElement
  refine (reading_ends _ st).bind (fun el st₁ after => ?_) fun _ none => none
  obtain ⟨rfl, same, left⟩ := after
  rw [listGetp_composite form inside] at left ⊢
  dsimp only at left ⊢
  rw [if_neg (not_not.mpr rfl)]
  rw [← same] at wf here inUse ⊢
  rw [← left] at enough ⊢
  exact copyRow_fills copies wf here inUse rfl within data row readable enough

theorem writeCompositeToSlot_fills (copies : Copies m room copy) (wf : st.b.Wf)
    (inUse : st.b.Used seg word) (form : p.form = .block .composite)
    (readable : m.Readable (room + 1) p) (enough : m.walkCost (room + 1) p ≤ st.left) :
    Fills (m.writeCompositeToSlot copy seg word p) seg word (m.tree (room + 1) p)
      (m.walkCost (room + 1) p) st := by
  have rows : p.rows = p.count := by
    rw [Ptr.rows, form]
  have found := readable.2
  have prices : ∑ i ∈ range p.count, m.rowPrice p i =
      ∑ i ∈ range p.count, m.usedPrice (elemPtr p i) p.pwords :=
    sum_congr rfl fun i _ => by rw [rowPrice, form]
  rw [rows] at found
  rw [walkCost_succ, rows, prices] at enough ⊢
  rw [tree_block form, rows]
  have counted : m.compositeTrim p p.count st.left = (m.dataWords p, m.linkWords p,
      st.left - ∑ i ∈ range p.count, m.usedPrice (elemPtr p i) p.pwords) := by
    rw [dataWords, linkWords, form]
    refine compositeTrim_eq form le_rfl (fun i hi k hk => ?_) (by omega)
    have least : m.usedPointers (elemPtr p i) p.pwords ≤ m.linkWords p := by
      rw [linkWords, form]
      exact Finset.le_sup (f := fun i => m.usedPointers (elemPtr p i) p.pwords) (mem_range.mpr hi)
    obtain ⟨q, cost, there, -⟩ := found i hi k (hk.trans_le least)
    rw [link, form] at there
    dsimp only at there
    rw [if_pos hi] at there
    rw [there]
    rfl
  have count : Ends (m.countComposite p st) (fun sizes st' =>
      sizes = (m.dataWords p, m.linkWords p) ∧ st'.b = st.b ∧
        st'.left + ∑ i ∈ range p.count, m.usedPrice (elemPtr p i) p.pwords = st.left)
      fun _ => False := by
    unfold countComposite
    rw [counted]
    exact ⟨rfl, rfl, by dsimp only; omega⟩
  unfold Fills writeCompositeToSlot
  refine count.bind (fun sizes st₁ after => ?_) fun _ none => none
  obtain ⟨rfl, same, left⟩ := after
  rw [← same] at wf inUse ⊢
  dsimp only
  refine (allocLocal_added wf _).bind (fun at' st₂ after => ?_) fun _ none => none
  obtain ⟨rfl, allocated, adds, left₂⟩ := after
  dsimp only
  refine (store_stores _ _ _ st₂).bind (fun _ st₃ after => ?_) fun _ none => none
  obtain ⟨same₃, left₃⟩ := after
  refine (store_stores _ _ _ st₃).bind (fun _ st₄ after => ?_) fun _ none => none
  obtain ⟨same₄, left₄⟩ := after
  rw [same₃] at same₄
  generalize tagEq : wpMakeStruct (p.count : Int) (m.dataWords p) (m.linkWords p) = tag at same₄
  generalize pointerEq : wpMakeList (((st₁.b.seg st₁.b.last).words : Int) - word - 1) .composite
    (p.count * (m.dataWords p + m.linkWords p)) = pointer at same₄
  have stored := (writes_stored tag pointer inUse allocated).2 (by omega)
  have storedAdds := (Adds.of_storeW st₂.b st₁.b.last (st₁.b.seg st₁.b.last).words tag).trans
    (Adds.of_storeW _ seg word pointer)
  rw [← same₄] at stored storedAdds
  have here : st₁.b.last = st₄.b.last := (adds.trans storedAdds).last_eq.symm
  have used (x : Nat) (hx : x < p.count * (m.dataWords p + m.linkWords p)) :
      st₄.b.Used st₁.b.last ((st₁.b.seg st₁.b.last).words + 1 + x) := by
    rw [same₄, Nat.add_assoc]
    exact storeW_used.mpr (storeW_used.mpr (allocated.used_new (by omega)))
  have filled : Ends (upTo p.count (fun i => m.copyElement copy st₁.b.last
      ((st₁.b.seg st₁.b.last).words + 1) (m.dataWords p) (m.linkWords p) p i) st₄)
      (fun _ st' => RowsFilled st₁.b.last ((st₁.b.seg st₁.b.last).words + 1) (m.dataWords p)
          (m.linkWords p) (m.datum p) (m.subtree room p) p.count st₄.b st'.b ∧
        st'.left + ∑ i ∈ range p.count, ∑ k ∈ range (m.linkWords p), m.linkCost room p i k =
          st₄.left) fun _ => False := by
    refine upTo_rows stored.wf here used (by omega) ?_
    intro i hi st' wf' here' inUse' covered
    exact copyElement_fills copies wf' here' form hi inUse' (found i hi) covered
  refine filled.mono (fun _ st₅ done => ⟨?_, ?_⟩) fun _ none => none
  · refine block_copied inUse adds stored storedAdds ?_ (fun _ => ?_) done.1
    · rw [same₄, wordAt_storeW, if_pos ⟨rfl, rfl⟩, ← pointerEq,
        Nat.mod_eq_of_lt (wpMakeList_lt _ _ _)]
      rfl
    · rw [same₄, wordAt_storeW, if_neg, wordAt_storeW, if_pos ⟨rfl, rfl⟩, ← tagEq,
        Nat.mod_eq_of_lt (wpMakeStruct_lt _ _ _)]
      rintro ⟨rfl, rfl⟩
      exact absurd inUse (lt_irrefl _)
  · have spent := done.2
    omega

theorem writePointersToSlot_fills (copies : Copies m room copy) (wf : st.b.Wf)
    (inUse : st.b.Used seg word) (form : p.form = .block .pointers)
    (readable : m.Readable (room + 1) p) (enough : m.walkCost (room + 1) p ≤ st.left) :
    Fills (m.writePointersToSlot copy seg word p) seg word (m.tree (room + 1) p)
      (m.walkCost (room + 1) p) st := by
  have rows : p.rows = p.count := by
    rw [Ptr.rows, form]
  have nd : m.dataWords p = 0 := by
    rw [dataWords, form]
  have np : m.linkWords p = 1 := by
    rw [linkWords, form]
  have datum (i : Nat) : m.datum p i = fun _ => 0 := by
    funext j
    rw [Message.datum, form]
  have price (i : Nat) : m.rowPrice p i = 0 := by
    rw [rowPrice, form]
  have found := readable.2
  rw [rows, np] at found
  rw [walkCost_succ, rows, np] at enough ⊢
  simp only [price, sum_const_zero, Nat.zero_add, sum_range_one] at enough ⊢
  rw [tree_block form, rows, nd, np]
  have zero : m.datum p = fun _ _ => 0 := funext datum
  unfold Fills writePointersToSlot placePointers
  by_cases none : p.count = 0
  · rw [if_neg (not_not.mpr none), none, zero]
    have empty : wpMakeList (((word + 1 : Nat) : Int) - word - 1) .ptr 0 =
        Shape.pointers.pointer 0 0 1 0 := by
      rw [Shape.pointer, if_pos rfl]
      congr 1
      omega
    have size : (Tree.block .pointers 0 0 1 (fun _ _ => 0) (m.subtree room p)).size = 0 := rfl
    refine (store_fills wf inUse (wpMakeList_lt _ _ _) size fun mem pos => ?_).mono
      (fun _ st' done => ⟨done.1, by have spent := done.2; simpa using spent⟩) fun _ none => none
    exact ⟨by rw [empty]; rfl, nofun, nofun⟩
  · rw [if_pos none]
    refine (allocLocal_added wf p.count).bind (fun at' st₁ after => ?_) fun _ none => none
    obtain ⟨rfl, allocated, adds, left₁⟩ := after
    dsimp only
    refine (store_stores _ _ _ st₁).bind (fun _ st₂ after => ?_) fun _ none => none
    obtain ⟨same, left₂⟩ := after
    generalize pointerEq : wpMakeList (((st.b.seg st.b.last).words : Int) - word - 1) .ptr
      p.count = pointer at same
    have stored := (writes_stored 0 pointer inUse allocated).1
    have storedAdds := Adds.of_storeW st₁.b seg word pointer
    rw [← same] at stored storedAdds
    have here : st.b.last = st₂.b.last := (adds.trans storedAdds).last_eq.symm
    have used (x : Nat) (hx : x < p.count * (0 + 1)) :
        st₂.b.Used st.b.last ((st.b.seg st.b.last).words + x) := by
      rw [same]
      exact storeW_used.mpr (allocated.used_new (by omega))
    have filled : Ends (upTo p.count (fun i => m.copyPointer copy st.b.last
        (st.b.seg st.b.last).words p i) st₂)
        (fun _ st' => RowsFilled st.b.last (st.b.seg st.b.last).words 0 1 (fun _ _ => 0)
            (m.subtree room p) p.count st₂.b st'.b ∧
          st'.left + ∑ i ∈ range p.count, m.linkCost room p i 0 = st₂.left) fun _ => False := by
      refine upTo_rows stored.wf here used (by omega) ?_
      intro i hi st' wf' here' inUse' covered
      obtain ⟨q, cost, link, below⟩ := found i hi 0 Nat.one_pos
      have slot := inUse' 0 Nat.one_pos
      simp only [Nat.zero_add, Nat.mul_one, Nat.add_zero] at slot ⊢
      refine (copyPointer_fills copies wf' slot form hi link below covered).mono
        (fun _ st'' done => ⟨done.1.rowFilled here', done.2⟩) fun _ none => none
    refine filled.mono (fun _ st₃ done => ⟨?_, ?_⟩) fun _ none => none
    · rw [zero]
      refine block_copied inUse (by simpa [Shape.header] using adds) stored storedAdds ?_
        (fun composite => by cases composite) (by simpa [Shape.header] using done.1)
      rw [same, wordAt_storeW, if_pos ⟨rfl, rfl⟩, ← pointerEq,
        Nat.mod_eq_of_lt (wpMakeList_lt _ _ _), Shape.pointer, if_neg none]
    · have spent := done.2
      omega

/-- The body of a packed list is copied behind the words in use. -/
theorem copyBody_copies {start nbytes : Nat} (wf : st.b.Wf)
    (inUse : ∀ x < Builder.wordsFor nbytes, st.b.Used seg (start + x)) :
    Ends (m.copyBody seg start nbytes p st)
      (fun _ st' => Writes (slotsFrom seg start (Builder.wordsFor nbytes)) st.b st'.b ∧
        Adds 0 st.b st'.b ∧ (∀ b < 8 * Builder.wordsFor nbytes,
          (st'.b.seg seg).data (8 * start + b) = if b < nbytes then m.listByte p b else 0) ∧
        st'.left = st.left) fun _ => False := by
  have room : nbytes ≤ Builder.wordsFor nbytes * 8 := by
    unfold Builder.wordsFor
    omega
  have segment (data : Memory) : ((st.b.setData seg data).seg seg).data = data := by
    simp [setData]
  refine ⟨writes_setData wf ?_ fun a outside => ?_, ?_, fun b hb => ?_, rfl⟩
  · rintro a ⟨-, low, high⟩
    have used := inUse (a / 8 - start) (by omega)
    unfold Builder.Used at used
    omega
  · have apart : a < start * 8 ∨ (start + Builder.wordsFor nbytes) * 8 ≤ a := by
      by_contra within
      exact outside ⟨rfl, by omega, by omega⟩
    rw [blit_outside (by omega), blit_outside (by omega)]
  · refine Adds.none rfl fun s => ?_
    by_cases same : s = seg <;> simp [setData, same]
  · dsimp only
    rw [segment, Nat.mul_comm 8 start]
    split
    · next inside => exact blit_inside inside
    · next past =>
      rw [blit_outside (by omega)]
      exact blit_inside (by omega)

theorem writePackedToSlot_fills (wf : st.b.Wf) (inUse : st.b.Used seg word)
    (form : p.form = .packed) : Fills (m.writePackedToSlot seg word p) seg word
      (m.tree (room + 1) p) 0 st := by
  rw [tree_packed form]
  unfold Fills writePackedToSlot
  have words : Builder.wordsFor ((p.count * p.esize.bits + 7) / 8) =
      packedWords p.esize p.count := rfl
  have bytes : (p.count * p.esize.bits + 7) / 8 = packedBytes p.esize p.count := rfl
  dsimp only
  rw [words, bytes]
  split
  · next some =>
    refine (allocLocal_added wf _).bind (fun at' st₁ after => ?_) fun _ none => none
    obtain ⟨rfl, allocated, adds, left₁⟩ := after
    dsimp only
    refine (copyBody_copies allocated.wf fun x hx => allocated.used_new hx).bind
      (fun _ st₂ after => ?_) fun _ none => none
    obtain ⟨writes, bodyAdds, body, left₂⟩ := after
    refine (store_stores _ _ _ st₂).mono (fun _ st₃ after => ?_) fun _ none => none
    obtain ⟨same, left₃⟩ := after
    generalize pointerEq : wpMakeList (((st.b.seg st.b.last).words : Int) - word - 1) p.esize
      p.count = pointer at same
    have slot := writes.used (allocated.used inUse)
    have stored := writes_storeW writes.wf slot pointer
    rw [← same] at stored
    refine ⟨⟨?_, ?_, ?_, fun b hb => ?_⟩, by omega⟩
    · refine (allocated.writes.trans writes ?_).trans stored fun _ _ _ touches => touches
      rintro s a old ⟨rfl, low, -⟩
      omega
    · rw [Tree.size]
      have storedAdds := Adds.of_storeW st₂.b seg word pointer
      rw [← same] at storedAdds
      exact (adds.trans bodyAdds).trans storedAdds
    · rw [same, wordAt_storeW, if_pos ⟨rfl, rfl⟩, ← pointerEq,
        Nat.mod_eq_of_lt (wpMakeList_lt _ _ _), if_neg some]
    · have kept := stored.kept st.b.last (8 * (st.b.seg st.b.last).words + b) ?_ ?_
      · rw [kept]
        exact body b hb
      · have last := writes.used (allocated.used_new (i := b / 8) (by omega))
        unfold Builder.Used at last
        omega
      · rintro ⟨rfl, at'⟩
        unfold Builder.Used at inUse
        omega
  · next none =>
    have empty := not_not.mp none
    refine store_fills wf inUse (wpMakeList_lt _ _ _) empty fun mem pos => ⟨?_, fun b hb => ?_⟩
    · rw [if_pos empty]
    · rw [empty] at hb
      exact absurd hb (Nat.not_lt_zero b)

end

/-- A copy lays out the tree of its source. -/
theorem copyPtrToWord_copies (m : Message) (room : Nat) : Copies m room (m.copyPtrToWord room) := by
  induction room with
  | zero => exact fun _ _ _ _ _ _ readable => readable.elim
  | succ room ih =>
      intro seg word src st wf inUse readable enough
      rw [copyPtrToWord]
      cases kind : src.kind with
      | null =>
          have form := form_of_null kind
          have none : src.rows = 0 := by
            rw [Ptr.rows, form]
          have price : m.walkCost (room + 1) src = 0 := by
            rw [walkCost_succ, none]
            rfl
          rw [price, tree_null kind]
          exact store_fills wf inUse (Nat.two_pow_pos 64) rfl fun _ _ => rfl
      | cap =>
          refine absurd ?_ readable.1
          unfold Ptr.form
          rw [kind]
      | struct =>
          have form : src.form = .block .struct := by
            unfold Ptr.form
            rw [kind]
          exact writeStructToSlot_fills ih wf inUse form readable enough
      | list =>
          dsimp only [writeListToSlot]
          have packed (form : src.form = .packed) : Fills (m.writePackedToSlot seg word src) seg
              word (m.tree (room + 1) src) (m.walkCost (room + 1) src) st := by
            have none : src.rows = 0 := by
              rw [Ptr.rows, form]
            have price : m.walkCost (room + 1) src = 0 := by
              rw [walkCost_succ, none]
              rfl
            rw [price]
            exact writePackedToSlot_fills wf inUse form
          cases esize : src.esize with
          | composite =>
              refine writeCompositeToSlot_fills ih wf inUse ?_ readable enough
              unfold Ptr.form
              rw [kind, esize]
          | ptr =>
              refine writePointersToSlot_fills ih wf inUse ?_ readable enough
              unfold Ptr.form
              rw [kind, esize]
          | _ =>
              refine packed ?_
              unfold Ptr.form
              rw [kind, esize]

end Message

end CapnpJanet
