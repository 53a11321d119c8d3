import CapnpJanet.Builder.Drawn

/-!
# The arena draws what its client means

Each call of the builder API that succeeds, and means something, draws just that.
The proof hangs one object at a time: a struct, a list, or the texts of a list one
after the other.  Whichever segments the allocator takes the words from, and
whether the pointer is near, far or double far, the draft is the same.
-/

namespace CapnpJanet

open ByteMemory Outcome Builder

namespace Draft

/-! ## Bodies that are hung -/

section
variable {b b' : Builder} {at' host : BPtr} {n : Nat} {make : Int → Nat}

theorem hung_of_placed (placed : Placed b at' host n make b') (body : n ≠ 0) (some : make 0 ≠ 0)
    (limit : b'.InLimit) : Hung b at' host n make b' where
  writes := placed.writes
  fresh i _ := placed.fresh i
  segLt := by
    have inside := placed.inside
    exact placed.writes.wf.lt_of_used (show b'.Used host.seg host.word by unfold Used; omega)
  inside := placed.inside
  leads := placed.leads limit
  hollow null := absurd null some

theorem makeList_ne_zero (off : Int) (esize : ElemSize) (count : Nat) :
    wpMakeList off esize count ≠ 0 := by
  unfold wpMakeList
  omega

theorem makeStruct_ne_zero (off : Int) {dwords pwords : Nat} (dwordsLt : dwords < 2 ^ 16)
    (pwordsLt : pwords < 2 ^ 16) (some : dwords + pwords ≠ 0) :
    wpMakeStruct off dwords pwords ≠ 0 := by
  unfold wpMakeStruct
  rw [Nat.mod_eq_of_lt dwordsLt, Nat.mod_eq_of_lt pwordsLt]
  omega

/-- A list without a body is behind its slot. -/
theorem hung_empty (wf : b.Wf) (inUse : b.Used at'.seg at'.word) (makeLt : ∀ off, make off < 2 ^ 64)
    (some : make 0 ≠ 0)
    (run : writePtr make at'.seg at'.word at'.seg (at'.word + 1) b = .ok () b') :
    Hung b at' ⟨at'.seg, at'.word + 1⟩ 0 make b' := by
  unfold writePtr at run
  rw [if_pos rfl] at run
  cases run
  refine ⟨writes_storeW wf inUse _, nofun, wf.lt_of_used inUse, ?_,
    .near (wordAt_storeW_self _ _ _ (makeLt _)) ?_, fun null => absurd null some⟩
  · rw [storeW_words]
    exact inUse
  · have near : ((at'.word + 1 : Nat) : Int) - at'.word - 1 = 0 := by omega
    dsimp only
    rw [near]
    constructor <;> decide

/-- A list is hung with what it has been filled with over zeros. -/
theorem writeListBody_hung (wf : b.Wf) {esize : ElemSize} {count nbytes : Nat}
    {fill : Memory → Nat → Memory} (inUse : b.Used at'.seg at'.word) (fills : FillsOnly nbytes fill)
    (run : writeListBody at'.seg at'.word esize count nbytes fill b = .ok () b')
    (limit : b'.InLimit) :
    ∃ (host : BPtr) (mem : Memory), Hung b at' host (wordsFor nbytes)
        (fun off => wpMakeList off esize count) b' ∧
      (∀ i < wordsFor nbytes * 8, mem (host.word * 8 + i) = 0) ∧
      ∀ i < wordsFor nbytes * 8, (b'.seg host.seg).data (host.word * 8 + i) =
        fill mem (host.word * 8) (host.word * 8 + i) := by
  by_cases empty : wordsFor nbytes = 0
  · unfold writeListBody at run
    rw [if_neg (not_not.mpr empty)] at run
    rw [empty]
    exact ⟨_, fun _ => 0, hung_empty wf inUse (fun off => wpMakeList_lt _ _ _)
      (makeList_ne_zero _ _ _) run, nofun, nofun⟩
  · obtain ⟨host, mem, placed, cleared, bytes⟩ := writeListBody_placed wf inUse empty fills run
    exact ⟨host, mem, hung_of_placed placed empty (makeList_ne_zero _ _ _) limit, cleared, bytes⟩

variable (wf : b.Wf) (inUse : b.Used at'.seg at'.word) (limit : b'.InLimit)
include wf inUse limit

theorem scalars_hung {esize : ElemSize} {width n : Nat} {items : Nat → Nat}
    (run : writeListBody at'.seg at'.word esize n (n * width)
      (fun mem p => storeElems width items mem p n) b = .ok () b') :
    ∃ host, Hung b at' host (Content.flat (.scalars esize width n items)).words
        (Content.flat (.scalars esize width n items)).pointer b' ∧
      (Content.flat (.scalars esize width n items)).Filled b' host := by
  obtain ⟨host, mem, hung, -, bytes⟩ :=
    writeListBody_hung wf inUse (storeElems_fillsOnly width items n) run limit
  refine ⟨host, hung, fun i hi => ?_⟩
  rw [← loadLe_storeElems width items mem (host.word * 8) hi]
  refine loadLe_congr fun k hk => ?_
  have room := Tree.row_le hi width
  have there := bytes (i * width + k) (by unfold wordsFor; omega)
  rwa [← Nat.add_assoc] at there

theorem bits_hung {n : Nat} {items : Nat → Bool}
    (run : writeListBody at'.seg at'.word .bit n ((n + 7) / 8)
      (fun mem p => storeBits items mem p n) b = .ok () b') :
    ∃ host, Hung b at' host (Content.flat (.bits n items)).words
        (Content.flat (.bits n items)).pointer b' ∧
      (Content.flat (.bits n items)).Filled b' host := by
  obtain ⟨host, mem, hung, cleared, bytes⟩ :=
    writeListBody_hung wf inUse (storeBits_fillsOnly items n) run limit
  refine ⟨host, hung, fun i hi => ?_⟩
  have inside : i / 8 < wordsFor ((n + 7) / 8) * 8 := by
    unfold wordsFor
    omega
  rw [bytes _ inside, bitOf_storeBits items i (cleared _ inside)]

theorem bytes_hung {bytes given : List UInt8} (fits : given.length ≤ bytes.length)
    (same : ∀ k, ofList bytes k = ofList given k)
    (run : writeListBody at'.seg at'.word .byte bytes.length bytes.length (fillBytes given) b =
      .ok () b') :
    ∃ host, Hung b at' host (Content.flat (.bytes bytes)).words
        (Content.flat (.bytes bytes)).pointer b' ∧
      (Content.flat (.bytes bytes)).Filled b' host := by
  obtain ⟨host, mem, hung, cleared, filled⟩ :=
    writeListBody_hung wf inUse (fillBytes_fillsOnly fits) run limit
  refine ⟨host, hung, fun k hk => ?_⟩
  have inside : k < wordsFor bytes.length * 8 := by
    unfold wordsFor
    omega
  rw [filled k inside, same, fillBytes]
  by_cases before : k < given.length
  · exact blit_inside before
  · rw [blit_outside (by omega), cleared k inside]
    simp [ofList, not_lt.mp before]

theorem text_hung {text : List UInt8}
    (run : writeTextAt at'.seg at'.word text b = .ok () b') :
    ∃ host, Hung b at' host (Content.flat (.bytes (text ++ [0]))).words
        (Content.flat (.bytes (text ++ [0]))).pointer b' ∧
      (Content.flat (.bytes (text ++ [0]))).Filled b' host := by
  have length : (text ++ [0]).length = text.length + 1 := by simp
  unfold writeTextAt at run
  rw [← length] at run
  exact bytes_hung wf inUse limit (by simp) (ofList_nul text) run

end

/-! ## Blocks that are hung -/

section
variable {b b' : Builder} {at' host : BPtr}

/-- Words that are zero hold no data and no pointers. -/
theorem filled_of_clear {shape : Shape} {n nd np : Nat}
    (tag : shape = .composite → b.wordAt host.seg host.word = wpMakeStruct n nd np)
    (clear : ∀ k < n * (nd + np) * 8,
      (b.seg host.seg).data ((host.word + shape.header) * 8 + k) = 0) :
    (Content.block shape n nd np fun _ _ => 0).Filled b host ∧
      Bare b host (Content.block shape n nd np fun _ _ => 0) := by
  refine ⟨⟨tag, fun i hi k hk => ?_⟩, fun i hi k hk => word_of_clear fun x hx => ?_⟩
  · have room := Tree.row_le hi (nd + np)
    have there := clear (i * (nd + np) * 8 + k) (by omega)
    rwa [show (host.word + shape.header) * 8 + (i * (nd + np) * 8 + k) =
      (host.word + shape.header + i * (nd + np)) * 8 + k by ring] at there
  · have room := Tree.row_le hi (nd + np)
    have there := clear ((i * (nd + np) + nd + k) * 8 + x) (by omega)
    rw [Tree.slotOf]
    rwa [show (host.word + shape.header) * 8 + ((i * (nd + np) + nd + k) * 8 + x) =
      8 * (host.word + shape.header + i * (nd + np) + nd + k) + x by ring] at there

/-- Where there is no tag, zeros from the first word on are enough. -/
theorem filled_of_zeros {shape : Shape} {n nd np : Nat} (noTag : shape.header = 0)
    (clear : ∀ k < n * (nd + np) * 8, (b.seg host.seg).data (host.word * 8 + k) = 0) :
    (Content.block shape n nd np fun _ _ => 0).Filled b host ∧
      Bare b host (Content.block shape n nd np fun _ _ => 0) := by
  apply filled_of_clear
  · intro composite
    rw [composite] at noTag
    cases noTag
  · rwa [noTag, Nat.add_zero]

/-- A struct is hung with zeros; without sections it is its own slot. -/
theorem struct_hung (wf : b.Wf) {dwords pwords : Nat} (inUse : b.Used at'.seg at'.word)
    (dwordsLt : dwords < 2 ^ 16) (pwordsLt : pwords < 2 ^ 16)
    (run : Builder.struct at' dwords pwords b = .ok host b') (limit : b'.InLimit) :
    Hung b at' host (Content.block .struct 1 dwords pwords fun _ _ => 0).words
        (Content.block .struct 1 dwords pwords fun _ _ => 0).pointer b' ∧
      (Content.block .struct 1 dwords pwords fun _ _ => 0).Filled b' host ∧
      Bare b' host (Content.block .struct 1 dwords pwords fun _ _ => 0) := by
  have header : Shape.struct.header = 0 := rfl
  have words : (Content.block .struct 1 dwords pwords fun _ _ => 0).words = dwords + pwords := by
    rw [Content.words, header]
    omega
  rw [words]
  by_cases none : dwords + pwords = 0
  · unfold Builder.struct at run
    rw [if_pos none] at run
    cases run
    obtain ⟨rfl, rfl⟩ : dwords = 0 ∧ pwords = 0 := by omega
    have stored : (b.storeW at'.seg at'.word (wpMakeStruct (-1) 0 0)).wordAt at'.seg at'.word =
        wpMakeStruct (-1) 0 0 := wordAt_storeW_self _ _ _ (wpMakeStruct_lt _ _ _)
    refine ⟨⟨writes_storeW wf inUse _, fun a inside => absurd inside (Nat.not_lt_zero a),
      wf.lt_of_used inUse, ?_, .near ?_ ?_,
      fun _ => stored⟩, filled_of_zeros header ?_⟩
    · rw [storeW_words]
      exact inUse.le
    · rw [stored, Content.pointer]
      congr 1
      omega
    · constructor <;> omega
    · intro k hk
      omega
  · obtain ⟨placed, clear⟩ := struct_placed wf inUse none run
    refine ⟨hung_of_placed placed none (makeStruct_ne_zero _ dwordsLt pwordsLt none) limit,
      filled_of_zeros header fun k hk => clear k (by omega)⟩

/-- A struct list is hung with its tag and zeros. -/
theorem setListStruct_hung (wf : b.Wf) {body first : BPtr}
    {dwords ptrIndex nitems elemDwords elemPwords : Nat}
    (run : setListStruct body dwords ptrIndex nitems elemDwords elemPwords b = .ok first b')
    (limit : b'.InLimit) :
    ∃ host, first = ⟨host.seg, host.word + 1⟩ ∧
      Hung b ⟨body.seg, body.word + dwords + ptrIndex⟩ host
        (Content.block .composite nitems elemDwords elemPwords fun _ _ => 0).words
        (Content.block .composite nitems elemDwords elemPwords fun _ _ => 0).pointer b' ∧
      (Content.block .composite nitems elemDwords elemPwords fun _ _ => 0).Filled b' host ∧
      Bare b' host (Content.block .composite nitems elemDwords elemPwords fun _ _ => 0) := by
  obtain ⟨host, rfl, inUse, placed, tag, clear⟩ := setListStruct_placed wf run
  have body : 1 + nitems * (elemDwords + elemPwords) ≠ 0 := by omega
  exact ⟨host, rfl, hung_of_placed placed body (makeList_ne_zero _ _ _) limit,
    filled_of_clear (fun _ => tag) clear⟩

/-- A list of pointers is hung, and then the texts are written into it. -/
theorem setListTextN_hung (wf : b.Wf) {body : BPtr} {dwords ptrIndex : Nat} {items : List (List UInt8)}
    (run : setListTextN body dwords ptrIndex items b = .ok () b') (limit : b'.InLimit) :
    ∃ (host : BPtr) (b₁ : Builder), Hung b ⟨body.seg, body.word + dwords + ptrIndex⟩ host
        (Content.block .pointers items.length 0 1 fun _ _ => 0).words
        (Content.block .pointers items.length 0 1 fun _ _ => 0).pointer b₁ ∧
      (Content.block .pointers items.length 0 1 fun _ _ => 0).Filled b₁ host ∧
      Bare b₁ host (Content.block .pointers items.length 0 1 fun _ _ => 0) ∧
      writeTexts host.seg host.word items b₁ = .ok () b' := by
  have header : Shape.pointers.header = 0 := rfl
  have words : (Content.block .pointers items.length 0 1 fun _ _ => 0).words = items.length := by
    rw [Content.words, header]
    omega
  rw [words]
  have checked := slot_ends (b := b) body dwords ptrIndex
  unfold setListTextN withSlot at run
  split at run
  · cases run
  · next place start atSlot =>
    rw [atSlot] at checked
    obtain ⟨rfl, rfl, inUse⟩ := checked
    dsimp only at run inUse
    by_cases empty : items = []
    · subst empty
      simp only [List.length_nil, ne_eq, not_true_eq_false, if_false] at run
      split at run
      · cases run
      · next written =>
        cases run
        have here : start.Used (⟨body.seg, body.word + dwords + ptrIndex⟩ : BPtr).seg
            (⟨body.seg, body.word + dwords + ptrIndex⟩ : BPtr).word := inUse
        have zeros (host : BPtr) : (Content.block .pointers 0 0 1 fun _ _ => 0).Filled b' host ∧
            Bare b' host (Content.block .pointers 0 0 1 fun _ _ => 0) :=
          filled_of_zeros header fun k hk => by omega
        exact ⟨_, _, hung_empty wf here (fun off => wpMakeList_lt _ _ _) (makeList_ne_zero _ _ _)
          written, (zeros _).1, (zeros _).2, rfl⟩
    · have some : items.length ≠ 0 := fun none => empty (List.length_eq_zero_iff.mp none)
      rw [if_pos some] at run
      have ends := allocWords_ends wf items.length
      split at run
      · cases run
      · next s w b₁ found =>
        rw [found] at ends
        obtain ⟨allocated, -⟩ := ends
        split at run
        · cases run
        · next b₂ written =>
          obtain ⟨placed, same⟩ := placed_of_run ⟨body.seg, body.word + dwords + ptrIndex⟩ ⟨s, w⟩
            allocated some (Writes.refl allocated.wf) (fun off => wpMakeList_lt off _ _) inUse written
          have slots (j : Nat) (hj : j < items.length) : b₂.Used s (w + j) := by
            have inside := placed.inside
            unfold Used
            dsimp only at inside
            omega
          have later := (writeTexts_confined placed.writes.wf items slots).of_ok run
          have limit₂ : b₂.InLimit := fun t => (later.words_le t).trans (limit t)
          have clear : ∀ k < items.length * (0 + 1) * 8, (b₂.seg s).data (w * 8 + k) = 0 := by
            intro k hk
            have there := same k (by omega)
            dsimp only at there
            rw [there, allocated.data_eq]
            apply wf.clear
            have begins := allocated.start
            dsimp only at begins
            omega
          have zeros : (Content.block .pointers items.length 0 1 fun _ _ => 0).Filled b₂ ⟨s, w⟩ ∧
              Bare b₂ ⟨s, w⟩ (Content.block .pointers items.length 0 1 fun _ _ => 0) :=
            filled_of_zeros header clear
          exact ⟨⟨s, w⟩, b₂, hung_of_placed placed some (makeList_ne_zero _ _ _) limit₂, zeros.1,
            zeros.2, run⟩

end

/-! ## What grows -/

/-- The objects are where they were, with the rows they had. -/
structure Grows (d : Draft) (place : Nat → BPtr) (d' : Draft) (place' : Nat → BPtr) : Prop where
  started : d.started = true → d'.started = true
  nodes : ∀ id c, d.drawing.nodes[id]? = some c → place' id = place id ∧
    ∃ c', d'.drawing.nodes[id]? = some c' ∧ (∀ pos i, c'.rowWord pos i = c.rowWord pos i) ∧
      ∀ shape n nd np row, c = .block shape n nd np row → ∃ row', c' = .block shape n nd np row'

/-- Where a handle for a row points. -/
def RowAt (d : Draft) (place : Nat → BPtr) (row : Nat × Nat) (ptr : BPtr) : Prop :=
  ∃ c, d.drawing.nodes[row.1]? = some c ∧
    ptr = ⟨(place row.1).seg, c.rowWord (place row.1).word row.2⟩

section
variable {d d' d'' : Draft} {place place' place'' : Nat → BPtr} {b b' : Builder}
  {s : Slot (Nat × Nat)} {at' : BPtr} {c : Content}

theorem Grows.of_nodes (nodes : d'.drawing.nodes = d.drawing.nodes)
    (started : d.started = true → d'.started = true) : Grows d place d' place :=
  ⟨started, fun _ c found => ⟨rfl, c, nodes ▸ found, fun _ _ => rfl, fun _ _ _ _ row same =>
    ⟨row, same⟩⟩⟩

theorem Grows.trans (first : Grows d place d' place') (second : Grows d' place' d'' place'') :
    Grows d place d'' place'' := by
  refine ⟨fun begun => second.started (first.started begun), fun id c found => ?_⟩
  obtain ⟨place₁, c₁, found₁, rows₁, block₁⟩ := first.nodes id c found
  obtain ⟨place₂, c₂, found₂, rows₂, block₂⟩ := second.nodes id c₁ found₁
  refine ⟨place₂.trans place₁, c₂, found₂, fun pos i => (rows₂ pos i).trans (rows₁ pos i),
    fun shape n nd np row same => ?_⟩
  obtain ⟨row₁, same₁⟩ := block₁ shape n nd np row same
  exact block₂ shape n nd np row₁ same₁

theorem grows_hang (born : Forest.Born d.drawing.nodes.length s) (c : Content) (host : BPtr) :
    Grows d place (d.hang s c) (Function.update place d.drawing.nodes.length host) := by
  refine ⟨id, fun id c' found => ⟨?_, c', Forest.node_hang_old found born c, fun _ _ => rfl,
    fun _ _ _ _ row same => ⟨row, same⟩⟩⟩
  exact Function.update_of_ne (List.getElem?_eq_some_iff.mp found).1.ne _ _

theorem grows_rewrite {id i n nd np : Nat} {shape : Shape} {row : Nat → Memory} (data : Memory)
    (found : d.drawing.nodes[id]? = some (.block shape n nd np row)) :
    Grows d place (d.rewrite id i shape n nd np row data) place := by
  refine ⟨fun begun => begun, fun id' c found' => ⟨rfl, ?_⟩⟩
  by_cases same : id' = id
  · subst same
    rw [found] at found'
    cases found'
    refine ⟨_, Forest.node_rewrite_self (List.getElem?_eq_some_iff.mp found).1, fun _ _ => rfl,
      fun shape' n' nd' np' row' same => ?_⟩
    obtain ⟨rfl, rfl, rfl, rfl, rfl⟩ := Content.block.inj same
    exact ⟨_, rfl⟩
  · exact ⟨c, (Forest.node_rewrite_of_ne same).trans found', fun _ _ => rfl,
      fun _ _ _ _ row same => ⟨row, same⟩⟩

theorem Live.grows (live : Live d place s at') (grows : Grows d place d' place') :
    Live d' place' s at' := by
  cases live with
  | root started => exact .root (grows.started started)
  | @field id i k n nd np shape row found hi hk =>
      obtain ⟨samePlace, c', found', -, block⟩ := grows.nodes id _ found
      obtain ⟨row', rfl⟩ := block shape n nd np row rfl
      rw [← samePlace]
      exact .field found' hi hk

theorem RowAt.grows {row : Nat × Nat} {ptr : BPtr} (at' : RowAt d place row ptr)
    (grows : Grows d place d' place') : RowAt d' place' row ptr := by
  obtain ⟨c, found, rfl⟩ := at'
  obtain ⟨samePlace, c', found', rows, -⟩ := grows.nodes row.1 c found
  refine ⟨c', found', ?_⟩
  rw [samePlace, rows]

/-! ## Texts -/

/-- Hanging an object, with the handles that go on pointing where they did. -/
theorem Drawn.hang_grows (drawn : Drawn d place b) (live : Live d place s at') {host : BPtr}
    (hung : Hung b at' host c.words c.pointer b') (fits : c.Fits) (filled : c.Filled b' host)
    (bare : Bare b' host c) : ∃ place', Drawn (d.hang s c) place' b' ∧
      Grows d place (d.hang s c) place' ∧ place' d.drawing.nodes.length = host :=
  ⟨_, drawn.hang live hung fits filled bare, grows_hang live.born c host,
    Function.update_self _ _ _⟩

theorem fits_bytes {given : List UInt8} (short : given.length < 2 ^ 29) :
    (Content.flat (.bytes given)).Fits :=
  ⟨short, nofun, nofun, nofun⟩

theorem fits_bits {n : Nat} {items : Nat → Bool} (short : n < 2 ^ 29) :
    (Content.flat (.bits n items)).Fits :=
  ⟨short, nofun, nofun, nofun⟩

/-- Texts that are written into the pointers of a list are drawn. -/
theorem writeTexts_drawn (drawn : Drawn d place b) {list n start : Nat} {row : Nat → Memory}
    (found : d.drawing.nodes[list]? = some (.block .pointers n 0 1 row)) {texts : List (List UInt8)}
    (room : start + texts.length ≤ n) (short : ∀ text ∈ texts, text.length + 1 < 2 ^ 29)
    (run : writeTexts (place list).seg ((place list).word + start) texts b = .ok () b')
    (limit : b'.InLimit) :
    ∃ place', Drawn (d.hangTexts list start texts) place' b' ∧
      Grows d place (d.hangTexts list start texts) place' := by
  induction texts generalizing d place b start row with
  | nil =>
      cases run
      exact ⟨place, drawn, .of_nodes rfl id⟩
  | cons text rest ih =>
      rw [List.length_cons] at room
      have live (j : Nat) (hj : j < n) : Live d place (.field list (j, 0))
          ⟨(place list).seg, (place list).word + j⟩ := by
        have field : Live d place (.field list (j, 0)) _ := .field found hj Nat.one_pos
        rwa [show Tree.slotOf .pointers 0 1 (place list).word j 0 = (place list).word + j by
          simp [Tree.slotOf, Shape.header]] at field
      have here := live start (by omega)
      have used := here.used drawn
      rw [writeTexts] at run
      dsimp only at run
      split at run
      · cases run
      · next b₁ first =>
        have writes := (writeTextAt_confined drawn.wf used text).of_ok first
        have restUsed (j : Nat) (hj : j < rest.length) :
            b₁.Used (place list).seg ((place list).word + start + 1 + j) := by
          have used := (live (start + 1 + j) (by omega)).used drawn
          dsimp only at used
          rw [show (place list).word + (start + 1 + j) = (place list).word + start + 1 + j by omega]
            at used
          exact writes.used used
        have later := (writeTexts_confined writes.wf rest restUsed).of_ok run
        have limit₁ : b₁.InLimit := fun t => (later.words_le t).trans (limit t)
        obtain ⟨host, hung, filled⟩ := text_hung drawn.wf used limit₁ first
        have length : (text ++ [0]).length = text.length + 1 := by simp
        obtain ⟨place₁, drawn₁, grows₁, -⟩ := drawn.hang_grows here hung
          (fits_bytes (length.trans_lt (short text List.mem_cons_self))) filled trivial
        obtain ⟨samePlace, c', found', -, block⟩ := grows₁.nodes list _ found
        obtain ⟨row', rfl⟩ := block _ _ _ _ _ rfl
        rw [← samePlace, Nat.add_assoc] at run
        obtain ⟨place₂, drawn₂, grows₂⟩ := ih drawn₁ found' (by omega)
          (fun text member => short text (List.mem_cons_of_mem _ member)) run
        exact ⟨place₂, drawn₂, grows₁.trans grows₂⟩

end

end Draft

end CapnpJanet
