import CapnpJanet.Builder.Drawing
import CapnpJanet.Builder.Failures
import CapnpJanet.Builder.Session
import Mathlib.Data.List.Forall2

/-!
# Sessions and their drafts

The client's handles point where the slots and rows of its draft are drawn.  Each
call that succeeds draws what it means, and a call that fails draws nothing, but
for a list of texts, of which some may have been written.  So after every session
the arena draws the draft, whatever the sizes of its segments and whenever their
limit was changed.
-/

namespace CapnpJanet

open ByteMemory Outcome Builder Run

namespace Draft

/-- The builder draws the draft, and the handles point at its slots and rows. -/
structure Draws (d : Draft) (place : Nat → BPtr) (held : Handles) (b : Builder) : Prop where
  drawn : Drawn d place b
  slots : List.Forall₂ (Live d place) d.slots held.slots
  bodies : List.Forall₂ (RowAt d place) d.bodies held.bodies

/-- Elements of the same number are related. -/
theorem related_of_getElem? {α β : Type} {r : α → β → Prop} {xs : List α} {ys : List β}
    (all : List.Forall₂ r xs ys) (i : Nat) :
    (xs[i]? = none ∧ ys[i]? = none) ∨ ∃ x y, xs[i]? = some x ∧ ys[i]? = some y ∧ r x y := by
  induction all generalizing i with
  | nil => exact .inl ⟨rfl, rfl⟩
  | @cons x y _ _ related _ ih =>
      cases i with
      | zero => exact .inr ⟨x, y, rfl, rfl, related⟩
      | succ i => exact ih i

/-! ## Handles -/

section
variable {d d' : Draft} {place place' : Nat → BPtr} {held held' : Handles} {b b' : Builder}

/-- Handles go on pointing where they did. -/
theorem Draws.grown (draws : Draws d place held b) (drawn : Drawn d' place' b')
    (grows : Grows d place d' place') (slots : d'.slots = d.slots) (bodies : d'.bodies = d.bodies) :
    Draws d' place' held b' := by
  refine ⟨drawn, ?_, ?_⟩
  · rw [slots]
    exact draws.slots.imp fun _ _ live => live.grows grows
  · rw [bodies]
    exact draws.bodies.imp fun _ _ at' => at'.grows grows

/-- Handles are no part of the drawing. -/
theorem Drawn.of_handles (drawn : Drawn d place b) (slots : List (Slot (Nat × Nat)))
    (bodies : List (Nat × Nat)) : Drawn { d with slots := slots, bodies := bodies } place b := by
  refine ⟨drawn.wf, drawn.blank, drawn.started, drawn.kept, drawn.apart, fun s other live => ?_⟩
  have before : Live d place s other := by
    cases live with
    | root started => exact .root started
    | field found hi hk => exact .field found hi hk
  exact (drawn.shows s other before).later rfl (fun _ => le_rfl)
    (fun _ c found => ⟨rfl, c, found, rfl⟩) fun _ _ spare _ => ⟨spare, rfl⟩

theorem Draws.addBody (draws : Draws d place held b) {row : Nat × Nat} {ptr : BPtr}
    (at' : RowAt d place row ptr) :
    Draws (d.addBody row) place { held with bodies := held.bodies ++ [ptr] } b where
  drawn := draws.drawn.of_handles d.slots (d.bodies ++ [row])
  slots := draws.slots.imp fun _ _ live => live.grows (.of_nodes rfl id)
  bodies := List.rel_append (draws.bodies.imp fun _ _ at' => at'.grows (.of_nodes rfl id))
    (.cons at' .nil)

theorem Draws.addSlot (draws : Draws d place held b) {s : Slot (Nat × Nat)} {ptr : BPtr}
    (live : Live d place s ptr) :
    Draws { d with slots := d.slots ++ [s] } place { held with slots := held.slots ++ [ptr] } b where
  drawn := draws.drawn.of_handles (d.slots ++ [s]) d.bodies
  slots := List.rel_append (draws.slots.imp fun _ _ live => live.grows (.of_nodes rfl id))
    (.cons (live.grows (.of_nodes rfl id)) .nil)
  bodies := draws.bodies.imp fun _ _ at' => at'.grows (.of_nodes rfl id)

/-- A call on a handle is made if there is one of that number. -/
theorem call_eq_ok {handle : Option BPtr} {f : BPtr → BuildM Handles}
    (run : held.call handle f b = .ok held' b') :
    (held' = held ∧ b' = b) ∨ ∃ ptr, handle = some ptr ∧ f ptr b = .ok held' b' := by
  cases handle with
  | none =>
      cases run
      exact .inl ⟨rfl, rfl⟩
  | some ptr => exact .inr ⟨ptr, rfl, run⟩

theorem keep_eq_ok {α : Type} {x : BuildM α} (run : held.keep x b = .ok held' b') :
    held' = held ∧ ∃ a, x b = .ok a b' := by
  obtain ⟨a, b₁, done, kept⟩ := bind_eq_ok.mp run
  cases kept
  exact ⟨rfl, a, done⟩

theorem addBody_eq_ok {x : BuildM BPtr} (run : held.addBody x b = .ok held' b') :
    ∃ ptr, held' = { held with bodies := held.bodies ++ [ptr] } ∧ x b = .ok ptr b' := by
  obtain ⟨ptr, b₁, done, kept⟩ := bind_eq_ok.mp run
  cases kept
  exact ⟨ptr, rfl, done⟩

theorem addSlot_eq_ok {x : BuildM BPtr} (run : held.addSlot x b = .ok held' b') :
    ∃ ptr, held' = { held with slots := held.slots ++ [ptr] } ∧ x b = .ok ptr b' := by
  obtain ⟨ptr, b₁, done, kept⟩ := bind_eq_ok.mp run
  cases kept
  exact ⟨ptr, rfl, done⟩

/-! ## Calls on pointers -/

/-- What a call does that is made on a pointer of a row: without the handle nothing,
and otherwise the slot of the pointer is drawn behind the row's data. -/
theorem Draws.onSlot (draws : Draws d place held b) {body dwords ptrIndex : Nat}
    {f : Slot (Nat × Nat) → Option Draft} {call : BPtr → BuildM Handles}
    (means : d.onSlot body dwords ptrIndex f = some d')
    (run : held.call held.bodies[body]? call b = .ok held' b')
    (drawn : ∀ s ptr, f s = some d' →
      Live d place s ⟨ptr.seg, ptr.word + dwords + ptrIndex⟩ → call ptr b = .ok held' b' →
        ∃ place', Draws d' place' held' b') : ∃ place', Draws d' place' held' b' := by
  unfold Draft.onSlot at means
  rcases related_of_getElem? draws.bodies body with ⟨none, none'⟩ | ⟨row, ptr, found, handle, at'⟩
  · rw [none] at means
    rw [none'] at run
    cases means
    cases run
    exact ⟨place, draws⟩
  · rw [found] at means
    rw [handle] at run
    obtain ⟨c, object, rfl⟩ := at'
    obtain ⟨s, slotAt, applied⟩ := Option.bind_eq_some_iff.mp means
    unfold Draft.slotAt at slotAt
    rw [object] at slotAt
    cases c with
    | flat list => cases slotAt
    | block shape n nd np data =>
        dsimp only at slotAt
        split at slotAt
        · next inside =>
          cases slotAt
          obtain ⟨hi, rfl, hk⟩ := inside
          exact drawn _ _ applied (.field object hi hk) run
        · cases slotAt

/-- A pointer slot is overwritten with a word. -/
theorem Draws.putWord (draws : Draws d place held b) {s : Slot (Nat × Nat)} {at' : BPtr}
    (live : Live d place s at') {l : Link Nat} {w : Nat} (small : w < 2 ^ 64)
    (shows : ∀ b₁ : Builder, b₁.wordAt at'.seg at'.word = w → Shows d place b₁ at' l) :
    Draws (d.put s l) place held (b.storeW at'.seg at'.word w) :=
  draws.grown (draws.drawn.put live (writes_storeW draws.drawn.wf (live.used draws.drawn) w)
      (shows _ (wordAt_storeW_self b _ _ small)))
    (.of_nodes (Forest.nodes_put _ _ _) fun begun => begun) rfl rfl

/-- An object is hung into a slot. -/
theorem Draws.hang (draws : Draws d place held b) {s : Slot (Nat × Nat)} {at' host : BPtr}
    {c : Content} (live : Live d place s at') (hung : Hung b at' host c.words c.pointer b')
    (fits : c.Fits) (filled : c.Filled b' host) (bare : Bare b' host c) :
    ∃ place', Draws (d.hang s c) place' held b' ∧ place' d.drawing.nodes.length = host ∧
      (d.hang s c).drawing.nodes[d.drawing.nodes.length]? = some c := by
  obtain ⟨place', drawn, grows, new⟩ := draws.drawn.hang_grows live hung fits filled bare
  exact ⟨place', draws.grown drawn grows rfl rfl, new, Forest.node_hang_new live.born⟩

/-! ## Calls on data -/

/-- Bytes of a data section are stored alike in the arena and in the draft. -/
structure Stores (ptr : BPtr) (offset width : Nat) (store : Memory → Memory) (b b' : Builder) :
    Prop where
  writes : Writes (fieldBytes ptr offset width) b b'
  stored : ∀ (row : Memory) (n : Nat), offset + width ≤ n →
    (∀ k < n, (b.seg ptr.seg).data (ptr.word * 8 + k) = row k) →
      ∀ k < n, (b'.seg ptr.seg).data (ptr.word * 8 + k) = store row k

theorem setScalar_stores (wf : b.Wf) {width : Nat} {ptr : BPtr} {offset value : Nat}
    (run : setScalar width ptr offset value b = .ok () b') :
    Stores ptr offset width (fun data => storeLe width data offset value) b b' := by
  refine ⟨(setScalar_confined wf width ptr offset value).of_ok run, fun row n inside same k hk => ?_⟩
  unfold setScalar at run
  dsimp only at run
  split at run
  · cases run
  · cases run
    simp only [setData, setSeg_seg, if_true]
    by_cases here : offset ≤ k ∧ k < offset + width
    · rw [storeLe, storeLe, if_pos (by omega), if_pos here]
      congr 2
      rw [Nat.add_sub_add_left]
    · rw [storeLe, storeLe, if_neg (by omega), if_neg here]
      exact same k hk

theorem setBool_stores (wf : b.Wf) {ptr : BPtr} {bitOffset : Nat} {value : Bool}
    (run : setBool ptr bitOffset value b = .ok () b') :
    Stores ptr (bitOffset / 8) 1 (fun data => blit 1 data (bitOffset / 8) fun _ =>
      withBit (data (bitOffset / 8)) (bitOffset % 8) value) b b' := by
  refine ⟨(setBool_confined wf ptr bitOffset value).of_ok run, fun row n inside same k hk => ?_⟩
  unfold setBool at run
  dsimp only at run
  split at run
  · cases run
  · cases run
    simp only [setData, setSeg_seg, if_true]
    by_cases here : bitOffset / 8 ≤ k ∧ k < bitOffset / 8 + 1
    · rw [blit, blit, if_pos (by omega), if_pos here, same _ (by omega)]
    · rw [blit, blit, if_neg (by omega), if_neg here]
      exact same k hk

theorem Draws.onData (draws : Draws d place held b) {body offset width : Nat}
    {store : Memory → Memory} {op : BPtr → BuildM Unit}
    (means : d.onData body (offset + width) store = some d')
    (run : held.call held.bodies[body]? (fun ptr => held.keep (op ptr)) b = .ok held' b')
    (stores : ∀ ptr, op ptr b = .ok () b' → Stores ptr offset width store b b') :
    ∃ place', Draws d' place' held' b' := by
  unfold Draft.onData at means
  rcases related_of_getElem? draws.bodies body with ⟨none, none'⟩ | ⟨row, ptr, found, handle, at'⟩
  · rw [none] at means
    rw [none'] at run
    cases means
    cases run
    exact ⟨place, draws⟩
  · rw [found] at means
    rw [handle] at run
    obtain ⟨rfl, _, done⟩ := keep_eq_ok run
    obtain ⟨id, i⟩ := row
    obtain ⟨c, object, rfl⟩ := at'
    dsimp only at means object
    rw [object] at means
    cases c with
    | flat list => cases means
    | block shape n nd np data =>
        dsimp only at means
        split at means
        · next inside =>
          cases means
          have stored := stores _ done
          exact ⟨place, draws.grown (draws.drawn.rewrite object inside.1 inside.2 stored.writes
              (stored.stored (data i) (nd * 8) inside.2
                ((draws.drawn.kept id _ object).filled.2 i inside.1)))
            (grows_rewrite _ object) rfl rfl⟩
        · cases means

/-! ## Every call -/

theorem root_draws (draws : Draws d place held b) (blank : d.started = false)
    (run : held.addSlot root b = .ok held' b') :
    Draws { d with started := true, slots := d.slots ++ [.root] } place held' b' := by
  obtain ⟨ptr, rfl, done⟩ := addSlot_eq_ok run
  obtain rfl := root_eq_ok done
  have ends := root_ends draws.drawn.wf
  rw [done] at ends
  obtain ⟨writes, used, fresh⟩ := ends
  have zero : b'.wordAt 0 0 = 0 := by
    have allocates := allocWords_ends draws.drawn.wf 1
    unfold root at done
    split at done
    · cases done
    · split at done
      · cases done
      · next seg w b₁ found =>
        rw [found] at allocates
        split at done
        · cases done
        · cases done
          rw [allocates.1.wordAt_eq]
          exact draws.drawn.wf.wordAt_eq_zero fresh
  have empty := draws.drawn.blank blank
  have nodes : d.drawing.nodes = [] := by
    rw [empty]
    rfl
  have noNode {id : Nat} {c : Content} : d.drawing.nodes[id]? ≠ some c := by
    rw [nodes]
    exact nofun
  have started : Drawn { d with started := true } place b' := by
    refine ⟨writes.wf, nofun, fun _ => used, fun _ _ found => absurd found noNode,
      fun _ _ _ _ found => absurd found noNode, fun s other live => ?_⟩
    cases live with
    | root _ =>
        have null : d.drawing.link .root = .null := by
          rw [empty]
          rfl
        dsimp only
        rw [null]
        exact zero
    | field found _ _ => exact absurd found noNode
  exact (draws.grown started (.of_nodes rfl fun _ => rfl) rfl rfl).addSlot (.root rfl)

theorem storeW_of_clearPtr {ptr : BPtr} {dwords ptrIndex : Nat}
    (run : clearPtr ptr dwords ptrIndex b = .ok () b') :
    b' = b.storeW ptr.seg (ptr.word + dwords + ptrIndex) 0 := by
  change withSlot ptr dwords ptrIndex (fun seg word b => .ok () (b.storeW seg word 0)) b = _ at run
  obtain ⟨-, written⟩ := withSlot_ok run
  cases written
  rfl

theorem storeW_of_setCap {ptr : BPtr} {dwords ptrIndex capIndex : Nat}
    (run : setCap ptr dwords ptrIndex capIndex b = .ok () b') :
    b' = b.storeW ptr.seg (ptr.word + dwords + ptrIndex) (wpMakeCap capIndex) := by
  change withSlot ptr dwords ptrIndex
    (fun seg word b => .ok () (b.storeW seg word (wpMakeCap capIndex))) b = _ at run
  obtain ⟨-, written⟩ := withSlot_ok run
  cases written
  rfl

theorem handles_hangTexts (d : Draft) (list start : Nat) (texts : List (List UInt8)) :
    (d.hangTexts list start texts).slots = d.slots ∧
      (d.hangTexts list start texts).bodies = d.bodies := by
  induction texts generalizing d start with
  | nil => exact ⟨rfl, rfl⟩
  | cons text rest ih => exact ih _ _

theorem started_hangTexts (d : Draft) (list start : Nat) (texts : List (List UInt8)) :
    (d.hangTexts list start texts).started = d.started := by
  induction texts generalizing d start with
  | nil => rfl
  | cons text rest ih => exact ih _ _

/-- A call that succeeds draws what it means. -/
theorem Draws.call (draws : Draws d place held b) (op : BuildOp) (means : d.call op = some d')
    (run : Builder.call held op b = .ok held' b') (limit : b'.InLimit) :
    ∃ place', Draws d' place' held' b' := by
  have wf := draws.drawn.wf
  cases op with
  | root =>
      rw [Draft.call] at means
      split at means
      · cases means
      · next blank =>
        cases means
        exact ⟨place, root_draws draws (Bool.not_eq_true _ ▸ blank) run⟩
  | struct slot dwords pwords =>
      rw [Draft.call] at means
      rw [Builder.call] at run
      rcases related_of_getElem? draws.slots slot with ⟨none, none'⟩ | ⟨s, ptr, found, handle, live⟩
      · rw [none] at means
        rw [none'] at run
        cases means
        cases run
        exact ⟨place, draws⟩
      · rw [found] at means
        rw [handle] at run
        dsimp only at means
        split at means
        · next sizes =>
          cases means
          obtain ⟨host, rfl, done⟩ := addBody_eq_ok run
          obtain ⟨hung, filled, bare⟩ := struct_hung wf (live.used draws.drawn) sizes.1 sizes.2
            done limit
          obtain ⟨place', hangs, new, object⟩ := draws.hang live hung ⟨rfl, sizes⟩ filled bare
          refine ⟨place', hangs.addBody ⟨_, object, ?_⟩⟩
          dsimp only
          rw [new, Content.rowWord, show Shape.struct.header = 0 from rfl]
          simp
        · cases means
  | slot body dwords ptrIndex =>
      refine draws.onSlot means run fun s ptr same live done => ?_
      cases same
      obtain ⟨at', rfl, checks⟩ := addSlot_eq_ok done
      have checked := slot_ends (b := b) ptr dwords ptrIndex
      rw [checks] at checked
      obtain ⟨rfl, rfl, -⟩ := checked
      exact ⟨place, draws.addSlot live⟩
  | element body wordDelta =>
      rw [Draft.call] at means
      rw [Builder.call] at run
      rcases related_of_getElem? draws.bodies body with ⟨none, none'⟩ | ⟨row, ptr, found, handle, at'⟩
      · rw [none] at means
        rw [none'] at run
        cases means
        cases run
        exact ⟨place, draws⟩
      · rw [found] at means
        rw [handle] at run
        obtain ⟨at₁, rfl, done⟩ := addBody_eq_ok run
        cases done
        obtain ⟨next, steps, rfl⟩ := Option.map_eq_some_iff.mp means
        obtain ⟨c, object, rfl⟩ := at'
        unfold elementAt at steps
        rw [object] at steps
        cases c with
        | flat list => cases steps
        | block shape n nd np data =>
            dsimp only at steps
            split at steps
            · next whole =>
              cases steps
              refine ⟨place, draws.addBody ⟨_, object, ?_⟩⟩
              have parts := Nat.div_add_mod' wordDelta (nd + np)
              rw [whole.1, Nat.add_zero] at parts
              dsimp only [Content.rowWord]
              rw [Nat.add_mul, parts, Nat.add_assoc]
            · cases steps
  | setScalar width body byteOffset value =>
      rw [Draft.call] at means
      exact draws.onData means run fun ptr done => setScalar_stores wf done
  | setBool body bitOffset value =>
      rw [Draft.call] at means
      exact draws.onData means run fun ptr done => setBool_stores wf done
  | clearPtr body dwords ptrIndex =>
      refine draws.onSlot means run fun s ptr same live done => ?_
      cases same
      obtain ⟨rfl, _, done⟩ := keep_eq_ok done
      rw [storeW_of_clearPtr done]
      exact ⟨place, draws.putWord live (Nat.two_pow_pos 64) fun _ zero => zero⟩
  | setCap body dwords ptrIndex capIndex =>
      refine draws.onSlot means run fun s ptr same live done => ?_
      cases same
      obtain ⟨rfl, _, done⟩ := keep_eq_ok done
      rw [storeW_of_setCap done]
      exact ⟨place, draws.putWord live (wpMakeCap_lt capIndex) fun _ cap => cap⟩
  | setText body dwords ptrIndex text =>
      refine draws.onSlot means run fun s ptr same live done => ?_
      obtain ⟨rfl, _, done⟩ := keep_eq_ok done
      obtain ⟨used, written⟩ := withSlot_ok done
      split at same
      · next short =>
        cases same
        obtain ⟨host, hung, filled⟩ := text_hung wf (live.used draws.drawn) limit written
        obtain ⟨place', hangs, -, -⟩ := draws.hang live hung (fits_bytes (by simpa using short))
          filled trivial
        exact ⟨place', hangs⟩
      · cases same
  | setData body dwords ptrIndex bytes =>
      refine draws.onSlot means run fun s ptr same live done => ?_
      obtain ⟨rfl, _, done⟩ := keep_eq_ok done
      obtain ⟨used, written⟩ := withSlot_ok done
      split at same
      · next short =>
        cases same
        obtain ⟨host, hung, filled⟩ :=
          bytes_hung wf (live.used draws.drawn) limit le_rfl (fun _ => rfl) written
        obtain ⟨place', hangs, -, -⟩ := draws.hang live hung (fits_bytes short) filled trivial
        exact ⟨place', hangs⟩
      · cases same
  | setListPrim body dwords ptrIndex esize nitems elemBytes items =>
      refine draws.onSlot means run fun s ptr same live done => ?_
      obtain ⟨rfl, _, done⟩ := keep_eq_ok done
      obtain ⟨used, written⟩ := withSlot_ok done
      split at same
      · next sizes =>
        cases same
        obtain ⟨host, hung, filled⟩ := scalars_hung wf (live.used draws.drawn) limit written
        obtain ⟨place', hangs, -, -⟩ := draws.hang live hung
          ⟨sizes.1, sizes.2.2.1, sizes.2.2.2, fun _ _ _ _ same => by cases same; exact sizes.2.1⟩
          filled trivial
        exact ⟨place', hangs⟩
      · cases same
  | setListBool body dwords ptrIndex nitems items =>
      refine draws.onSlot means run fun s ptr same live done => ?_
      obtain ⟨rfl, _, done⟩ := keep_eq_ok done
      obtain ⟨used, written⟩ := withSlot_ok done
      split at same
      · next short =>
        cases same
        obtain ⟨host, hung, filled⟩ := bits_hung wf (live.used draws.drawn) limit written
        obtain ⟨place', hangs, -, -⟩ := draws.hang live hung (fits_bits short) filled trivial
        exact ⟨place', hangs⟩
      · cases same
  | setListText body dwords ptrIndex items =>
      refine draws.onSlot means run fun s ptr same live done => ?_
      obtain ⟨rfl, _, done⟩ := keep_eq_ok done
      split at same
      · next short =>
        cases same
        obtain ⟨host, b₁, hung, filled, bare, texts⟩ := setListTextN_hung wf done limit
        obtain ⟨place₁, hangs, new, object⟩ := draws.hang live hung ⟨short.1, rfl, rfl⟩ filled bare
        rw [← new] at texts
        change writeTexts _ (_ + 0) _ _ = _ at texts
        obtain ⟨place', drawn, grows⟩ := writeTexts_drawn hangs.drawn object (by omega) short.2 texts
          limit
        obtain ⟨slots, bodies⟩ := handles_hangTexts _ d.drawing.nodes.length 0 items
        exact ⟨place', hangs.grown drawn grows slots bodies⟩
      · cases same
  | setListStruct body dwords ptrIndex nitems elemDwords elemPwords =>
      refine draws.onSlot means run fun s ptr same live done => ?_
      obtain ⟨first, rfl, made⟩ := addBody_eq_ok done
      split at same
      · next sizes =>
        cases same
        obtain ⟨host, rfl, hung, filled, bare⟩ := setListStruct_hung wf made limit
        have count := tagCount_of_fits (sizes.1.trans (by decide)) (.inl sizes.1) elemDwords elemPwords
        obtain ⟨place', hangs, new, object⟩ := draws.hang live hung ⟨count, sizes.2⟩ filled bare
        refine ⟨place', hangs.addBody ⟨_, object, ?_⟩⟩
        dsimp only
        rw [new, Content.rowWord, show Shape.composite.header = 1 from rfl]
        simp
      · cases same
  | copyPtr slot m src left => cases means

/-! ## Calls that fail -/

/-- The calls that draw all or nothing. -/
def whole : BuildOp → Bool
  | .setListText _ _ _ _ | .copyPtr _ _ _ _ => false
  | _ => true

theorem call_atomic {handle : Option BPtr} {f : BPtr → BuildM Handles}
    (rest : ∀ ptr, Atomic (f ptr) b) : Atomic (held.call handle f) b := by
  cases handle with
  | none => exact ⟨nofun⟩
  | some ptr => exact rest ptr

theorem setCap_atomic (ptr : BPtr) (dwords ptrIndex capIndex : Nat) :
    Atomic (setCap ptr dwords ptrIndex capIndex) b :=
  withSlot_atomic fun seg word =>
    (⟨nofun⟩ : Atomic (fun b => .ok () (b.storeW seg word (wpMakeCap capIndex)) : BuildM Unit) b)

/-- A call that draws all or nothing and fails leaves the words in use as they were. -/
theorem writes_of_failed (wf : b.Wf) {op : BuildOp} (all : whole op = true) {rc : Status}
    (run : Builder.call held op b = .error rc b') : Writes nowhere b b' := by
  have still (atomic : Atomic (Builder.call held op) b) : Writes nowhere b b' := by
    rw [atomic.of_error run]
    exact Writes.refl wf
  cases op with
  | root =>
      have ends : Ends (Builder.call held .root b) (fun _ => Writes nowhere b) (Writes nowhere b) :=
        (root_ends wf).bind (fun _ _ done => done.1) fun _ writes => writes
      rw [run] at ends
      exact ends
  | struct slot dwords pwords =>
      exact still (call_atomic fun ptr => (struct_atomic wf ptr dwords pwords).before_pure _)
  | slot body dwords ptrIndex =>
      exact still (call_atomic fun ptr =>
        ((slot_looks ptr dwords ptrIndex).atomic b).before_pure _)
  | element body wordDelta => exact still (call_atomic fun ptr => ⟨nofun⟩)
  | setScalar width body byteOffset value =>
      exact still (call_atomic fun ptr => (setScalar_atomic width ptr byteOffset value).before_pure _)
  | setBool body bitOffset value =>
      exact still (call_atomic fun ptr => (setBool_atomic ptr bitOffset value).before_pure _)
  | clearPtr body dwords ptrIndex =>
      exact still (call_atomic fun ptr => (clearPtr_atomic ptr dwords ptrIndex).before_pure _)
  | setCap body dwords ptrIndex capIndex =>
      exact still (call_atomic fun ptr => (setCap_atomic ptr dwords ptrIndex capIndex).before_pure _)
  | setText body dwords ptrIndex text =>
      exact still (call_atomic fun ptr => (setText_atomic wf ptr dwords ptrIndex text).before_pure _)
  | setData body dwords ptrIndex bytes =>
      exact still (call_atomic fun ptr =>
        (setDataList_atomic wf ptr dwords ptrIndex bytes).before_pure _)
  | setListPrim body dwords ptrIndex esize nitems elemBytes items =>
      exact still (call_atomic fun ptr =>
        (setListPrim_atomic wf ptr dwords ptrIndex esize nitems elemBytes items).before_pure _)
  | setListBool body dwords ptrIndex nitems items =>
      exact still (call_atomic fun ptr =>
        (setListBool_atomic wf ptr dwords ptrIndex nitems items).before_pure _)
  | setListStruct body dwords ptrIndex nitems elemDwords elemPwords =>
      exact still (call_atomic fun ptr =>
        (setListStruct_atomic wf ptr dwords ptrIndex nitems elemDwords elemPwords).before_pure _)
  | setListText _ _ _ _ => cases all
  | copyPtr _ _ _ _ => cases all

theorem Drawn.untouched (drawn : Drawn d place b) (writes : Writes nowhere b b') :
    Drawn d place b' where
  wf := writes.wf
  blank := drawn.blank
  started begun := writes.used (drawn.started begun)
  kept id c found := (drawn.kept id c found).later writes fun _ _ touch => touch
  apart := drawn.apart
  shows s at' live := (drawn.shows s at' live).later
    (writes.wordAt_eq (live.used drawn) fun _ _ touch => touch) writes.words_le
    (fun _ c found => ⟨rfl, c, found, rfl⟩)
    fun _ _ spare used => ⟨spare, writes.wordAt_eq used fun _ _ touch => touch⟩

/-- The limit of the segments is no part of the drawing. -/
theorem Drawn.withLimit (drawn : Drawn d place b) (limit : Nat) :
    Drawn d place { b with maxSegWords := limit } where
  wf := drawn.wf.withLimit limit
  blank := drawn.blank
  started := drawn.started
  kept id c found :=
    have kept := drawn.kept id c found
    ⟨kept.fits, kept.segLt, kept.inside, kept.filled.congr (fun _ _ => rfl) kept.fits, kept.behind⟩
  apart := drawn.apart
  shows s at' live := (drawn.shows s at' live).later rfl (fun _ => le_rfl)
    (fun _ c found => ⟨rfl, c, found, rfl⟩) fun _ _ spare _ => ⟨spare, rfl⟩

end

/-! ## What keeps its sizes -/

/-- An object is a block of these sizes, whatever its data are. -/
def Sized (d : Draft) (id : Nat) (shape : Shape) (n nd np : Nat) : Prop :=
  ∃ row, d.drawing.nodes[id]? = some (.block shape n nd np row)

section
variable {d d' : Draft} {id n nd np : Nat} {shape : Shape}

theorem Sized.of_nodes (sized : d.Sized id shape n nd np) (nodes : d'.drawing.nodes = d.drawing.nodes) :
    d'.Sized id shape n nd np := by
  unfold Sized
  rw [nodes]
  exact sized

theorem Sized.hang (sized : d.Sized id shape n nd np) (s : Slot (Nat × Nat)) (c : Content) :
    (d.hang s c).Sized id shape n nd np := by
  obtain ⟨row, found⟩ := sized
  by_cases born : Forest.Born d.drawing.nodes.length s
  · exact ⟨row, Forest.node_hang_old found born c⟩
  · refine ⟨row, ?_⟩
    rw [Draft.hang, Forest.hang, if_neg born]
    exact found

theorem Sized.hangTexts (sized : d.Sized id shape n nd np) (list start : Nat)
    (texts : List (List UInt8)) : (d.hangTexts list start texts).Sized id shape n nd np := by
  induction texts generalizing d start with
  | nil => exact sized
  | cons text rest ih => exact ih (sized.hang _ _) (start + 1)

/-- What a call does with a slot. -/
theorem onSlot_cases {body dwords ptrIndex : Nat} {f : Slot (Nat × Nat) → Option Draft}
    (means : d.onSlot body dwords ptrIndex f = some d') : d' = d ∨ ∃ s, f s = some d' := by
  unfold Draft.onSlot at means
  cases found : d.bodies[body]? with
  | none =>
      rw [found] at means
      exact .inl (Option.some.inj means).symm
  | some row =>
      rw [found] at means
      obtain ⟨s, -, applied⟩ := Option.bind_eq_some_iff.mp means
      exact .inr ⟨s, applied⟩

/-- A call on the data of a row changes no more than the data. -/
theorem Sized.onData (sized : d.Sized id shape n nd np) {body stop : Nat} {store : Memory → Memory}
    (means : d.onData body stop store = some d') : d'.Sized id shape n nd np := by
  unfold Draft.onData at means
  cases found : d.bodies[body]? with
  | none =>
      rw [found] at means
      cases means
      exact sized
  | some at' =>
      obtain ⟨other, i⟩ := at'
      rw [found] at means
      dsimp only at means
      cases object : d.drawing.nodes[other]? with
      | none =>
          rw [object] at means
          cases means
      | some c =>
          rw [object] at means
          cases c with
          | flat list => cases means
          | block shape' n' nd' np' data =>
              dsimp only at means
              split at means
              · cases means
                obtain ⟨row, here⟩ := sized
                by_cases same : id = other
                · subst same
                  rw [object] at here
                  cases here
                  exact ⟨_, Forest.node_rewrite_self (List.getElem?_eq_some_iff.mp object).1⟩
                · exact ⟨row, (Forest.node_rewrite_of_ne same).trans here⟩
              · cases means

/-- A block keeps its sizes. -/
theorem Sized.call (sized : d.Sized id shape n nd np) {op : BuildOp} (means : d.call op = some d') :
    d'.Sized id shape n nd np := by
  -- a call on a slot that may hang something there
  have onSlot {body dwords ptrIndex : Nat} {f : Slot (Nat × Nat) → Option Draft}
      (means : d.onSlot body dwords ptrIndex f = some d')
      (kept : ∀ s, f s = some d' → d'.Sized id shape n nd np) : d'.Sized id shape n nd np := by
    rcases onSlot_cases means with rfl | ⟨s, applied⟩
    · exact sized
    · exact kept s applied
  cases op with
  | root =>
      rw [Draft.call] at means
      split at means
      · cases means
      · cases means
        exact sized.of_nodes rfl
  | struct slot dwords pwords =>
      rw [Draft.call] at means
      split at means
      · cases means
        exact sized
      · split at means
        · cases means
          exact (sized.hang _ _).of_nodes rfl
        · cases means
  | slot body dwords ptrIndex =>
      refine onSlot means fun s same => ?_
      cases same
      exact sized.of_nodes rfl
  | element body wordDelta =>
      rw [Draft.call] at means
      split at means
      · cases means
        exact sized
      · obtain ⟨row, -, rfl⟩ := Option.map_eq_some_iff.mp means
        exact sized.of_nodes rfl
  | setScalar width body byteOffset value =>
      rw [Draft.call] at means
      exact sized.onData means
  | setBool body bitOffset value =>
      rw [Draft.call] at means
      exact sized.onData means
  | clearPtr body dwords ptrIndex =>
      refine onSlot means fun s same => ?_
      cases same
      exact sized.of_nodes (Forest.nodes_put _ _ _)
  | setCap body dwords ptrIndex capIndex =>
      refine onSlot means fun s same => ?_
      cases same
      exact sized.of_nodes (Forest.nodes_put _ _ _)
  | setText body dwords ptrIndex text =>
      refine onSlot means fun s same => ?_
      split at same
      · cases same
        exact sized.hang _ _
      · cases same
  | setData body dwords ptrIndex bytes =>
      refine onSlot means fun s same => ?_
      split at same
      · cases same
        exact sized.hang _ _
      · cases same
  | setListPrim body dwords ptrIndex esize nitems elemBytes items =>
      refine onSlot means fun s same => ?_
      split at same
      · cases same
        exact sized.hang _ _
      · cases same
  | setListBool body dwords ptrIndex nitems items =>
      refine onSlot means fun s same => ?_
      split at same
      · cases same
        exact sized.hang _ _
      · cases same
  | setListText body dwords ptrIndex items =>
      refine onSlot means fun s same => ?_
      split at same
      · cases same
        exact (sized.hang _ _).hangTexts _ _ _
      · cases same
  | setListStruct body dwords ptrIndex nitems elemDwords elemPwords =>
      refine onSlot means fun s same => ?_
      split at same
      · cases same
        exact (sized.hang _ _).of_nodes rfl
      · cases same
  | copyPtr slot m src left => cases means

end

/-! ## Sessions -/

/-- What a call leaves of the draft. -/
def note (a : Arena) (next : ArenaCall) (d : Draft) : Draft :=
  match next with
  | .setMaxSegWords _ => d
  | .build op =>
      match Builder.call a.held op a.b with
      | .ok _ _ => (d.call op).getD d
      | .error _ _ => d

/-- The calls of a client that keeps to its structs: those that succeed mean
something, and those that fail draw all or nothing. -/
def means (o : Arena × Draft) : ArenaCall → Bool
  | .setMaxSegWords _ => true
  | .build op =>
      match Builder.call o.1.held op o.1.b with
      | .ok _ _ => (o.2.call op).isSome
      | .error _ _ => whole op

theorem draws_init (firstWords : Nat) (place : Nat → BPtr) :
    Draws blank place (Arena.init firstWords).held (Arena.init firstWords).b where
  drawn := ⟨Arena.wf_initSized firstWords, fun _ => rfl, nofun, nofun, nofun, fun s at' live => by
    cases live with
    | root started => cases started
    | field found _ _ => cases found⟩
  slots := .nil
  bodies := .nil

/-- The arena draws the draft, as long as its segments stay within the limit. -/
def Drafted (o : Arena × Draft) : Prop :=
  o.1.Inv ∧ (o.1.b.InLimit → ∃ place, Draws o.2 place o.1.held o.1.b)

/-- A call keeps the arena drawing the draft. -/
theorem Drafted.step {o : Arena × Draft} (drafted : Drafted o) {next : ArenaCall}
    (kept : means o next) : Drafted (observed Arena.step note o next) := by
  obtain ⟨a, d⟩ := o
  obtain ⟨inv, drawn⟩ := drafted
  obtain ⟨inv', words, -⟩ := inv.step next
  refine ⟨inv', fun limit => ?_⟩
  obtain ⟨place, draws⟩ := drawn fun s => (words s).trans (limit s)
  cases next with
  | setMaxSegWords maxWords =>
      exact ⟨place, draws.drawn.withLimit maxWords, draws.slots, draws.bodies⟩
  | build op =>
      dsimp only [observed, Arena.step, note, means] at kept limit ⊢
      cases run : Builder.call a.held op a.b with
      | ok held b =>
          rw [run] at kept limit
          dsimp only at kept limit ⊢
          obtain ⟨d', called⟩ := Option.isSome_iff_exists.mp kept
          rw [called]
          exact draws.call op called run limit
      | error rc b =>
          rw [run] at kept limit
          dsimp only at kept ⊢
          exact ⟨place, draws.drawn.untouched (writes_of_failed draws.drawn.wf kept run), draws.slots,
            draws.bodies⟩

/-- After every session the arena draws its draft. -/
theorem drafted_of_reached {firstWords : Nat} {o : Arena × Draft}
    (reached : Reached (Arena.init firstWords, blank) (observed Arena.step note)
      (fun o next => means o next) o) : Drafted o := by
  apply reached.invariant
  · exact ⟨Arena.inv_init firstWords, fun _ => ⟨fun _ => ⟨0, 0⟩, draws_init firstWords _⟩⟩
  · exact fun o next drafted kept => drafted.step kept

end Draft

end CapnpJanet
