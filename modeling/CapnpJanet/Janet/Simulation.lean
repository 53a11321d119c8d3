import CapnpJanet.Builder.Doubling
import CapnpJanet.Janet.Scripted

/-!
# Scripts are sessions

A script and the session of its builder calls go side by side: the handles of the
script are the bodies that the session holds, in the same order, and each handle
carries the sizes of the object that it is for.  A function that succeeds is a step
of the session that means something, and one that panics is none.
-/

namespace CapnpJanet

open ByteMemory Outcome Builder Run Codegen Draft

namespace Janet

/-! ## Functions that panic -/

section
variable {w : BuilderWrap} {held : List Handle}

theorem onBuilder_atomic {α : Type} {x : CfunM α} (atomic : Atomic x w.builder) :
    Atomic (WrapM.onBuilder x) w := by
  refine ⟨fun run => ?_⟩
  unfold WrapM.onBuilder at run
  split at run
  · cases run
  · next failed =>
    cases run
    rw [atomic.of_error failed]

theorem onBuilder_looks {α : Type} {x : CfunM α} (looks : Looks x) : Looks (WrapM.onBuilder x) := by
  refine ⟨fun w => ?_⟩
  unfold WrapM.onBuilder
  cases run : x w.builder with
  | ok a b =>
      obtain rfl := looks.of_ok run
      exact ends_ok.mpr rfl
  | error panic b =>
      obtain rfl := looks.of_error run
      exact ends_error.mpr rfl

theorem onPtr_atomic {ptr : Nat} {f : BuilderPtr → WrapM (List Handle)}
    (rest : ∀ p, Atomic (f p) w) : Atomic (onPtr held ptr f) w := by
  unfold onPtr
  split
  · exact rest _
  · exact (Looks.throw _).atomic w

theorem onList_atomic {list : Nat} {f : BuilderList → WrapM (List Handle)}
    (rest : ∀ l, Atomic (f l) w) : Atomic (onList held list f) w := by
  unfold onList
  split
  · exact rest _
  · exact (Looks.throw _).atomic w

theorem keep_atomic {x : CfunM Unit} (atomic : Atomic x w.builder) : Atomic (keep held x) w :=
  (onBuilder_atomic atomic).before_pure _

theorem hold_atomic {α : Type} {handle : α → Handle} {x : WrapM α} (atomic : Atomic x w) :
    Atomic (hold held handle x) w :=
  atomic.before_pure _

/-- A builder without words has room for its root. -/
theorem root_total (firstWords : Nat) : ∃ b, Builder.root (Builder.initSized firstWords) = .ok ⟨0, 0⟩ b := by
  have nsegs : (Builder.initSized firstWords).nsegs = 1 := rfl
  have words : ((Builder.initSized firstWords).seg 0).words = 0 := rfl
  have cap : 1 ≤ ((Builder.initSized firstWords).seg 0).cap := by
    change 1 ≤ min (max (min (max firstWords 1) builderMaxSegmentWords) 1) builderMaxSegmentWords
    exact le_min (le_max_right _ _) (by decide)
  have limit : (Builder.initSized firstWords).limWords = builderMaxSegmentWords := rfl
  refine ⟨(Builder.initSized firstWords).bump 0 1, ?_⟩
  unfold Builder.root Builder.allocWords
  dsimp only
  rw [nsegs, Nat.sub_self, words, limit, if_neg (by decide), if_neg (by decide), if_neg (by decide),
    if_pos ⟨by omega, by decide⟩]
  rfl

/-- Without limits there is room for every struct. -/
theorem struct_total {b : Builder} (unlimited : Unlimited b) (ptr : BPtr) {dwords pwords : Nat}
    (dwordsLt : dwords < 2 ^ 16) (pwordsLt : pwords < 2 ^ 16) :
    ∃ body b', Builder.struct ptr dwords pwords b = .ok body b' := by
  unfold Builder.struct
  split
  · exact ⟨_, _, rfl⟩
  · have small : dwords + pwords ≤ builderMaxSegmentWords := by
      unfold builderMaxSegmentWords
      omega
    obtain ⟨s, word, b₁, found⟩ := unlimited.allocWords_total small
    obtain ⟨b₂, written⟩ := writePtr_total (fun off => wpMakeStruct off dwords pwords) ptr.seg
      ptr.word s word b₁
    rw [found]
    dsimp only
    rw [writeStructPtr, written]
    exact ⟨_, _, rfl⟩

theorem unlimited_initSized (firstWords : Nat) : Unlimited (Builder.initSized firstWords) :=
  ⟨Arena.wf_initSized firstWords, rfl, rfl⟩

/-- `capnp/init-root` gives up before it does anything, if it does. -/
theorem initRoot_atomic {firstWords : Nat}
    (fresh : w.rootInitialized = false → w.builder = Builder.initSized firstWords)
    (dwords pwords : Nat) : Atomic (initRoot dwords pwords) w := by
  refine .after_look (onBuilder_looks (getWordCount_looks _ _ _)) fun _ counted => ?_
  refine .after_look (onBuilder_looks (getWordCount_looks _ _ _)) fun _ counted' => ?_
  refine .after_look ⟨fun _ => rfl⟩ fun got seen => ?_
  cases seen
  have dwordsLt := (getWordCount_ok (onBuilder_eq_ok.mp counted).1).1
  have pwordsLt := (getWordCount_ok (onBuilder_eq_ok.mp counted').1).1
  split
  · exact .refuse _ _
  · next unmarked =>
    have new := fresh (Bool.not_eq_true _ ▸ unmarked)
    obtain ⟨b₁, rooted⟩ := root_total firstWords
    rw [← new] at rooted
    have unlimited : Unlimited b₁ := by
      have ends := root_ends (new ▸ (unlimited_initSized firstWords).wf)
      rw [rooted] at ends
      exact ends.1.unlimited (new ▸ unlimited_initSized firstWords)
    obtain ⟨body, b₂, made⟩ := struct_total unlimited ⟨0, 0⟩ dwordsLt pwordsLt
    refine Atomic.before_total (onBuilder_atomic ?_) fun root w₁ done => ?_
    · refine ⟨fun failed => ?_⟩
      unfold CfunM.checkBuilderResult at failed
      rw [rooted] at failed
      cases failed
    · obtain ⟨done, -⟩ := onBuilder_eq_ok.mp done
      rw [checkBuilderResult_eq_ok, rooted] at done
      cases done
      refine ⟨⟨body, dwords, pwords⟩, ⟨b₂, true⟩, ?_⟩
      refine bind_eq_ok.mpr ⟨(), { w₁ with rootInitialized := true }, rfl, ?_⟩
      refine bind_eq_ok.mpr ⟨body, ⟨b₂, true⟩, onBuilder_eq_ok.mpr ⟨?_, rfl⟩, rfl⟩
      exact checkBuilderResult_eq_ok.mpr made

/-- A function that panics leaves the builder as it was. -/
theorem run_atomic {firstWords : Nat}
    (fresh : w.rootInitialized = false → w.builder = Builder.initSized firstWords)
    (unlimited : Unlimited w.builder) (call : Call) : Atomic (call.run held) w := by
  have wf := unlimited.wf
  cases call with
  | initRoot dwords pwords => exact hold_atomic (initRoot_atomic fresh dwords pwords)
  | initStruct parent index dwords pwords =>
      exact onPtr_atomic fun p => hold_atomic (onBuilder_atomic (cfunInitStruct_atomic wf dwords pwords))
  | initStructList parent index count dwords pwords =>
      exact onPtr_atomic fun p =>
        hold_atomic (onBuilder_atomic (cfunInitStructListOf_atomic wf count dwords pwords))
  | structListAt list index =>
      exact onList_atomic fun l => hold_atomic (onBuilder_atomic ((convert_looks _).atomic _))
  | set accessor ptr offset value dflt =>
      exact onPtr_atomic fun p => keep_atomic (accessor.set_atomic offset value dflt)
  | clearPointer ptr index => exact onPtr_atomic fun p => keep_atomic cfunClearPointer_atomic
  | setText ptr index value => exact onPtr_atomic fun p => keep_atomic (cfunSetText_atomic wf value)
  | setData ptr index value => exact onPtr_atomic fun p => keep_atomic (cfunSetData_atomic wf value)
  | setList kind ptr index values =>
      exact onPtr_atomic fun p => keep_atomic (cfunSetList_atomic wf kind values)
  | setListText ptr index values =>
      exact onPtr_atomic fun p => keep_atomic (cfunSetListText_atomic unlimited values)
  | setListVoid ptr index count =>
      exact onPtr_atomic fun p => keep_atomic (cfunSetListVoid_atomic wf count)

end

/-! ## Steps of a session -/

section
variable {d d' : Draft} {held held' : Handles} {b b' : Builder}

/-- A session draws a draft with a builder without limits of its own. -/
structure Follows (firstWords : Nat) (d : Draft) (held : Handles) (b : Builder) : Prop where
  drafted : Drafted (⟨b, held⟩, d)
  unlimited : Unlimited b
  doubling : b.Below → b.Doubling firstWords

/-- A step of the session that means something. -/
theorem Follows.call {firstWords : Nat} (follows : Follows firstWords d held b) {op : BuildOp}
    (means : d.call op = some d') (run : Builder.call held op b = .ok held' b') :
    Follows firstWords d' held' b' := by
  have inv := follows.drafted.1
  have kept : Draft.means (⟨b, held⟩, d) (.build op) = true := by
    unfold Draft.means
    dsimp only
    rw [run]
    exact Option.isSome_iff_exists.mpr ⟨d', means⟩
  have next := follows.drafted.step kept
  unfold observed Arena.step Draft.note at next
  dsimp only at next
  rw [run] at next
  dsimp only at next
  rw [means] at next
  have ends := call_ends inv.wf inv.used op
  rw [run] at ends
  have doubles : Doubles firstWords b b' := by
    refine Doubles.call (fun slot m src left copies => ?_) run
    rw [copies] at means
    cases means
  exact ⟨next, ends.1.unlimited follows.unlimited, fun below =>
    doubles.keeps follows.unlimited.free below (follows.doubling (doubles.below below))⟩

/-- What a call means that is made on a pointer of a row. -/
theorem onSlot_eq {ptr index id i n nd np : Nat} {shape : Shape}
    (row : d.bodies[ptr]? = some (id, i)) (sized : d.Sized id shape n nd np) (hi : i < n)
    (inside : index < np) (f : Slot (Nat × Nat) → Option Draft) :
    d.onSlot ptr nd index f = f (.field id (i, index)) := by
  obtain ⟨data, found⟩ := sized
  unfold Draft.onSlot Draft.slotAt
  rw [row]
  dsimp only
  rw [found]
  dsimp only
  rw [if_pos ⟨hi, rfl, inside⟩]
  rfl

/-- What a call means that is made on the data of a row. -/
theorem onData_eq {ptr stop id i n nd np : Nat} {shape : Shape} {data : Nat → Memory}
    (row : d.bodies[ptr]? = some (id, i))
    (found : d.drawing.nodes[id]? = some (.block shape n nd np data)) (hi : i < n)
    (inside : stop ≤ nd * 8) (store : Memory → Memory) :
    d.onData ptr stop store = some { d with
      drawing := d.drawing.rewrite id
        (.block shape n nd np (Function.update data i (store (data i)))) } := by
  unfold Draft.onData
  rw [row]
  dsimp only
  rw [found]
  dsimp only
  rw [if_pos ⟨hi, inside⟩]

/-- A field of a row can be stored. -/
theorem setOp_means {s : Storage} {ptr offset bits id i n nd np : Nat} {shape : Shape}
    (row : d.bodies[ptr]? = some (id, i)) (sized : d.Sized id shape n nd np) (hi : i < n)
    (inside : s.step * offset + s.width ≤ nd * 64) :
    ∃ d', d.call (setOp s ptr offset bits) = some d' ∧ d'.bodies = d.bodies ∧ d'.slots = d.slots ∧
      d'.started = d.started := by
  obtain ⟨data, found⟩ := sized
  cases s with
  | bool =>
      simp only [Storage.step, Storage.width] at inside
      have within : offset / 8 + 1 ≤ nd * 8 := by omega
      rw [setOp, Draft.call, onData_eq row found hi within]
      exact ⟨_, rfl, rfl, rfl, rfl⟩
  | int t =>
      simp only [Storage.step, Storage.width] at inside
      have within : offset + t.bytes ≤ nd * 8 := by omega
      rw [setOp, Draft.call, onData_eq row found hi within]
      exact ⟨_, rfl, rfl, rfl, rfl⟩
  | real bytes =>
      simp only [Storage.step, Storage.width] at inside
      have within : offset + bytes ≤ nd * 8 := by omega
      rw [setOp, Draft.call, onData_eq row found hi within]
      exact ⟨_, rfl, rfl, rfl, rfl⟩

theorem call_setOp {s : Storage} {ptr offset bits : Nat} {body : BPtr}
    (found : held.bodies[ptr]? = some body) (run : storeField s body offset bits b = .ok () b') :
    Builder.call held (setOp s ptr offset bits) b = .ok held b' := by
  have kept (op : BPtr → BuildM Unit) (run : op body b = .ok () b') :
      held.call held.bodies[ptr]? (fun body => held.keep (op body)) b = .ok held b' := by
    rw [found]
    exact bind_eq_ok.mpr ⟨(), b', run, rfl⟩
  cases s with
  | bool => exact kept (fun body => Builder.setBool body offset (bits.testBit 0)) run
  | int t => exact kept (fun body => Builder.setScalar t.bytes body offset bits) run
  | real bytes => exact kept (fun body => Builder.setScalar bytes body offset bits) run

/-- A list of scalars or bools can be hung into a pointer. -/
theorem listOp_means {kind : ListKind} {ptr index id i n nd np : Nat} {shape : Shape}
    {bits : List Nat} (row : d.bodies[ptr]? = some (id, i)) (sized : d.Sized id shape n nd np)
    (hi : i < n) (inside : index < np) (few : bits.length < 2 ^ 29) :
    ∃ d', d.call (listOp kind ptr nd index bits) = some d' ∧ d'.bodies = d.bodies ∧
      d'.slots = d.slots ∧ d'.started = d.started := by
  cases kind with
  | bool =>
      rw [listOp, Draft.call, onSlot_eq row sized hi inside, if_pos few]
      exact ⟨_, rfl, rfl, rfl, rfl⟩
  | _ =>
      rw [listOp, Draft.call, onSlot_eq row sized hi inside,
        if_pos ⟨few, by decide, by decide, by decide⟩]
      · exact ⟨_, rfl, rfl, rfl, rfl⟩
      · intro same
        cases same

theorem call_listOp {kind : ListKind} {ptr dwords index : Nat} {bits : List Nat} {body : BPtr}
    (found : held.bodies[ptr]? = some body)
    (run : kind.setList body dwords index bits b = .ok () b') :
    Builder.call held (listOp kind ptr dwords index bits) b = .ok held b' := by
  have kept (op : BPtr → BuildM Unit) (run : op body b = .ok () b') :
      held.call held.bodies[ptr]? (fun body => held.keep (op body)) b = .ok held b' := by
    rw [found]
    exact bind_eq_ok.mpr ⟨(), b', run, rfl⟩
  cases kind with
  | bool => exact kept (fun body => Builder.setListBool body dwords index bits.length _) run
  | _ => exact kept (fun body => Builder.setListPrim body dwords index _ bits.length _ _) run

end

/-! ## Scripts and sessions -/

/-- A handle is for a row of the draft, or for the rows of a list, and carries their
sizes. -/
inductive For (d : Draft) : Nat × Nat → Handle → Prop
  | ptr {id i n : Nat} {shape : Shape} {p : BuilderPtr} (short : p.dwords < 2 ^ 16)
      (sized : d.Sized id shape n p.dwords p.pwords) (inside : i < n) : For d (id, i) (.ptr p)
  | list {id : Nat} {l : BuilderList} (short : l.elemDwords < 2 ^ 16)
      (sized : d.Sized id .composite l.count l.elemDwords l.elemPwords) : For d (id, 0) (.list l)

/-- The session holds a body for each handle of the script. -/
structure Simulates (firstWords : Nat) (s : Script) (d : Draft) (slots : List BPtr) : Prop where
  follows : Follows firstWords d ⟨slots, s.held.map Handle.body⟩ s.wrap.builder
  numbered : slots.length = d.slots.length
  handles : List.Forall₂ (For d) d.bodies s.held
  marked : s.wrap.rootInitialized = d.started
  fresh : s.wrap.rootInitialized = false → s.wrap.builder = Builder.initSized firstWords ∧ s.held = []

section
variable {firstWords : Nat} {s : Script} {d d' : Draft} {slots slots' : List BPtr} {w' : BuilderWrap}

theorem For.call {row : Nat × Nat} {h : Handle} (is : For d row h) {op : BuildOp}
    (means : d.call op = some d') : For d' row h := by
  cases is with
  | ptr short sized inside => exact .ptr short (sized.call means) inside
  | list short sized => exact .list short (sized.call means)

/-- The row and the body that a handle stands for. -/
theorem Simulates.found (sim : Simulates firstWords s d slots) {ptr : Nat} {h : Handle}
    (found : s.held[ptr]? = some h) :
    ∃ row, d.bodies[ptr]? = some row ∧ For d row h ∧
      (s.held.map Handle.body)[ptr]? = some h.body := by
  rcases related_of_getElem? sim.handles ptr with ⟨-, none⟩ | ⟨row, h', row', found', is⟩
  · rw [none] at found
    cases found
  · rw [found] at found'
    cases found'
    refine ⟨row, row', is, ?_⟩
    rw [List.getElem?_map, found]
    rfl

theorem Simulates.marked_of_found (sim : Simulates firstWords s d slots) {ptr : Nat} {h : Handle}
    (found : s.held[ptr]? = some h) : s.wrap.rootInitialized = true := by
  cases mark : s.wrap.rootInitialized with
  | true => rfl
  | false =>
      rw [(sim.fresh mark).2] at found
      cases found

/-- A call that returns its argument. -/
theorem Simulates.kept (sim : Simulates firstWords s d slots) {ptr : Nat} {h : Handle}
    (found : s.held[ptr]? = some h) {op : BuildOp} (means : d.call op = some d')
    (same : d'.bodies = d.bodies ∧ d'.slots = d.slots ∧ d'.started = d.started)
    (mark : w'.rootInitialized = s.wrap.rootInitialized)
    (run : Builder.call ⟨slots, s.held.map Handle.body⟩ op s.wrap.builder =
      .ok ⟨slots, s.held.map Handle.body⟩ w'.builder) :
    Simulates firstWords ⟨w', s.held⟩ d' slots where
  follows := sim.follows.call means run
  numbered := by
    rw [same.2.1]
    exact sim.numbered
  handles := by
    rw [same.1]
    exact sim.handles.imp fun _ _ is => is.call means
  marked := by
    rw [same.2.2]
    exact mark.trans sim.marked
  fresh unmarked := by
    rw [sim.marked_of_found found] at mark
    exact absurd (mark.symm.trans unmarked) nofun

/-- A call that returns a new handle. -/
theorem Simulates.grown (sim : Simulates firstWords s d slots) {row : Nat × Nat} {h : Handle}
    (follows : Follows firstWords d' ⟨slots', s.held.map Handle.body ++ [h.body]⟩ w'.builder)
    (numbered : slots'.length = d'.slots.length) (bodies : d'.bodies = d.bodies ++ [row])
    (older : ∀ row h, For d row h → For d' row h) (is : For d' row h)
    (mark : w'.rootInitialized = true) (started : d'.started = true) :
    Simulates firstWords ⟨w', s.held ++ [h]⟩ d' slots' where
  follows := by
    rw [List.map_append]
    exact follows
  numbered := numbered
  handles := by
    rw [bodies]
    exact List.rel_append (sim.handles.imp older) (.cons is .nil)
  marked := mark.trans started.symm
  fresh unmarked := absurd (mark.symm.trans unmarked) nofun

theorem step_of_ok {call : Call} {held' : List Handle}
    (run : call.run s.held s.wrap = .ok held' w') : s.step call = ⟨w', held'⟩ := by
  unfold Script.step
  rw [run]

theorem note_of_ok {call : Call} {held' : List Handle} (run : call.run s.held s.wrap = .ok held' w')
    (d : Draft) : s.note call d =
      (call.ops s.held d.slots.length).foldl (fun d op => (d.call op).getD d) d := by
  unfold Script.note
  rw [run]

/-- A function that makes one call. -/
theorem note_of_op {call : Call} {held' : List Handle} (run : call.run s.held s.wrap = .ok held' w')
    {op : BuildOp} (ops : call.ops s.held d.slots.length = [op]) (means : d.call op = some d') :
    s.note call d = d' := by
  rw [note_of_ok run, ops, List.foldl_cons, List.foldl_nil, means]
  rfl

/-- A call on a struct that returns it stores a field, or hangs something into a
pointer. -/
theorem Simulates.stores (sim : Simulates firstWords s d slots) {call : Call} {ptr : Nat}
    (x : BuilderPtr → CfunM Unit) (op : Nat → BuildOp) {held' : List Handle}
    (shape : call.run s.held = onPtr s.held ptr fun p => keep s.held (x p))
    (ops : ∀ n, call.ops s.held n = [op (s.held[ptr]?.elim 0 Handle.dwords)])
    (run : call.run s.held s.wrap = .ok held' w')
    (stores : ∀ (p : BuilderPtr) (id i n : Nat) (shape : Shape), d.bodies[ptr]? = some (id, i) →
      p.dwords < 2 ^ 16 → d.Sized id shape n p.dwords p.pwords → i < n →
        (s.held.map Handle.body)[ptr]? = some p.body → x p s.wrap.builder = .ok () w'.builder →
          (∃ d', d.call (op p.dwords) = some d' ∧ d'.bodies = d.bodies ∧ d'.slots = d.slots ∧
            d'.started = d.started) ∧
          Builder.call ⟨slots, s.held.map Handle.body⟩ (op p.dwords) s.wrap.builder =
            .ok ⟨slots, s.held.map Handle.body⟩ w'.builder) :
    Simulates firstWords (s.step call) (s.note call d) slots := by
  have called := run
  rw [shape] at called
  obtain ⟨p, found, done⟩ := onPtr_eq_ok called
  obtain ⟨rfl, done, mark⟩ := keep_eq_ok done
  obtain ⟨⟨id, i⟩, row, is, body⟩ := sim.found found
  cases is with
  | ptr short sized inside =>
      obtain ⟨⟨d', means, same⟩, made⟩ := stores p id i _ _ row short sized inside body done
      have one : call.ops s.held d.slots.length = [op p.dwords] := by
        rw [ops, found]
        rfl
      rw [step_of_ok run, note_of_op run one means]
      exact sim.kept found means same mark made

end

/-! ## Structs and lists -/

section
variable {firstWords : Nat} {s : Script} {d d' : Draft} {slots : List BPtr} {w' : BuilderWrap}
  {held' : List Handle}

/-- A struct is hung into the slot that was handed out last. -/
theorem struct_means (d : Draft) {slot : Slot (Nat × Nat)} {dwords pwords : Nat}
    (dwordsLt : dwords < 2 ^ 16) (pwordsLt : pwords < 2 ^ 16)
    (born : Forest.Born d.drawing.nodes.length slot) :
    ∃ d', Draft.call { d with slots := d.slots ++ [slot] } (.struct d.slots.length dwords pwords) =
        some d' ∧ d'.slots = d.slots ++ [slot] ∧
      d'.bodies = d.bodies ++ [(d.drawing.nodes.length, 0)] ∧ d'.started = d.started ∧
      d'.Sized d.drawing.nodes.length .struct 1 dwords pwords := by
  rw [Draft.call]
  dsimp only
  rw [List.getElem?_concat_length]
  dsimp only
  rw [if_pos ⟨dwordsLt, pwordsLt⟩]
  exact ⟨_, rfl, rfl, rfl, rfl, _, Forest.node_hang_new born⟩

theorem call_struct (held : Handles) {b b' : Builder} {slot body : BPtr} {dwords pwords n : Nat}
    (last : held.slots.length = n) (run : Builder.struct slot dwords pwords b = .ok body b') :
    Builder.call { held with slots := held.slots ++ [slot] } (.struct n dwords pwords) b =
      .ok ⟨held.slots ++ [slot], held.bodies ++ [body]⟩ b' := by
  rw [Builder.call, ← last]
  dsimp only
  rw [List.getElem?_concat_length]
  exact bind_eq_ok.mpr ⟨body, b', run, rfl⟩

/-- A new struct in a slot that has just been handed out. -/
theorem Simulates.newStruct (sim : Simulates firstWords s d slots) {slot : Slot (Nat × Nat)}
    {ptr body : BPtr} {b : Builder} (begun : Bool) {dwords pwords : Nat}
    (follows : Follows firstWords { d with started := begun, slots := d.slots ++ [slot] }
      ⟨slots ++ [ptr], s.held.map Handle.body⟩ b)
    (older : ∀ row h, For d row h →
      For { d with started := begun, slots := d.slots ++ [slot] } row h)
    (dwordsLt : dwords < 2 ^ 16) (pwordsLt : pwords < 2 ^ 16)
    (born : Forest.Born d.drawing.nodes.length slot)
    (run : Builder.struct ptr dwords pwords b = .ok body w'.builder)
    (mark : w'.rootInitialized = true) (started : begun = true) :
    ∃ d', Draft.call { d with started := begun, slots := d.slots ++ [slot] }
        (.struct d.slots.length dwords pwords) = some d' ∧
      Simulates firstWords ⟨w', s.held ++ [.ptr ⟨body, dwords, pwords⟩]⟩ d' (slots ++ [ptr]) := by
  obtain ⟨d', means, slots', bodies, started', sized⟩ :=
    struct_means { d with started := begun } dwordsLt pwordsLt born
  refine ⟨d', means, ?_⟩
  have next := follows.call means
    (call_struct ⟨slots, s.held.map Handle.body⟩ sim.numbered run)
  refine sim.grown next ?_ bodies (fun row h is => (older row h is).call means) ?_ mark
    (started'.trans started)
  · rw [slots', List.length_append, List.length_append, sim.numbered]
    rfl
  · exact .ptr dwordsLt sized Nat.one_pos

/-- `capnp/init-root` -/
theorem Simulates.initRoot (sim : Simulates firstWords s d slots) {dwords pwords : Nat}
    (run : (Call.initRoot dwords pwords).run s.held s.wrap = .ok held' w') :
    ∃ slots', Simulates firstWords (s.step (.initRoot dwords pwords))
      (s.note (.initRoot dwords pwords) d) slots' := by
  have held : hold s.held .ptr (Janet.initRoot dwords pwords) s.wrap = .ok held' w' := run
  obtain ⟨p, rfl, done⟩ := hold_eq_ok held
  obtain ⟨unmarked, mark, dwordsLt, pwordsLt, body, b₁, rooted, made, rfl⟩ := initRoot_eq_ok done
  have blank : d.started = false := sim.marked.symm.trans unmarked
  have root : d.call .root = some { d with started := true, slots := d.slots ++ [.root] } := by
    rw [Draft.call, blank]
    rfl
  have called : Builder.call ⟨slots, s.held.map Handle.body⟩ .root s.wrap.builder =
      .ok ⟨slots ++ [⟨0, 0⟩], s.held.map Handle.body⟩ b₁ := bind_eq_ok.mpr ⟨_, b₁, rooted, rfl⟩
  obtain ⟨d', means, next⟩ := sim.newStruct true (sim.follows.call root called)
    (fun _ _ is => is.call root) dwordsLt pwordsLt trivial made mark rfl
  refine ⟨slots ++ [⟨0, 0⟩], ?_⟩
  rw [step_of_ok run, note_of_ok run]
  have noted : (Call.ops s.held d.slots.length (.initRoot dwords pwords)).foldl
      (fun d op => (d.call op).getD d) d = d' := by
    rw [Call.ops, List.foldl_cons, List.foldl_cons, List.foldl_nil, root, Option.getD_some, means,
      Option.getD_some]
  rw [noted]
  exact next

/-- `capnp/init-struct` -/
theorem Simulates.initStruct (sim : Simulates firstWords s d slots) {parent index dwords pwords : Nat}
    (run : (Call.initStruct parent index dwords pwords).run s.held s.wrap = .ok held' w') :
    ∃ slots', Simulates firstWords (s.step (.initStruct parent index dwords pwords))
      (s.note (.initStruct parent index dwords pwords) d) slots' := by
  obtain ⟨p, found, done⟩ := onPtr_eq_ok (f := fun p =>
    hold s.held .ptr (WrapM.onBuilder (cfunInitStruct p index dwords pwords))) run
  obtain ⟨q, rfl, held⟩ := hold_eq_ok done
  obtain ⟨done, mark⟩ := onBuilder_eq_ok.mp held
  obtain ⟨inside, dwordsLt, pwordsLt, slot, body, b₁, checked, made, rfl⟩ := cfunInitStruct_eq_ok done
  obtain ⟨⟨id, i⟩, row, is, handle⟩ := sim.found found
  cases is with
  | ptr short sized hi =>
      have marked := sim.marked_of_found found
      have begun : d.started = true := sim.marked.symm.trans marked
      have ends := slot_ends (b := s.wrap.builder) p.body p.dwords index
      rw [checked] at ends
      obtain ⟨rfl, rfl, -⟩ := ends
      have taken : d.call (.slot parent p.dwords index) =
          some { d with slots := d.slots ++ [.field id (i, index)] } := by
        rw [Draft.call, onSlot_eq row sized hi inside]
      have called : Builder.call ⟨slots, s.held.map Handle.body⟩ (.slot parent p.dwords index)
          s.wrap.builder = .ok ⟨slots ++ [⟨p.body.seg, p.body.word + p.dwords + index⟩],
            s.held.map Handle.body⟩ s.wrap.builder := by
        rw [Builder.call]
        dsimp only
        rw [handle]
        exact bind_eq_ok.mpr ⟨_, _, checked, rfl⟩
      have born : Forest.Born d.drawing.nodes.length (Slot.field id (i, index)) := by
        obtain ⟨data, object⟩ := sized
        exact (List.getElem?_eq_some_iff.mp object).1
      obtain ⟨d', means, next⟩ := sim.newStruct d.started
        (sim.follows.call taken called) (fun _ _ is => is.call taken) dwordsLt pwordsLt born made
        (mark.trans marked) begun
      refine ⟨slots ++ [⟨p.body.seg, p.body.word + p.dwords + index⟩], ?_⟩
      rw [step_of_ok run, note_of_ok run]
      have noted : (Call.ops s.held d.slots.length (.initStruct parent index dwords pwords)).foldl
          (fun d op => (d.call op).getD d) d = d' := by
        rw [Call.ops, found, Option.elim_some, Handle.dwords, List.foldl_cons, List.foldl_cons,
          List.foldl_nil, taken, Option.getD_some, means, Option.getD_some]
      rw [noted]
      exact next

/-- `capnp/init-struct-list` -/
theorem Simulates.initStructList (sim : Simulates firstWords s d slots)
    {parent index dwords pwords : Nat} {count : Argument} (few : count.count < 2 ^ 29)
    (run : (Call.initStructList parent index count dwords pwords).run s.held s.wrap =
      .ok held' w') :
    ∃ slots', Simulates firstWords (s.step (.initStructList parent index count dwords pwords))
      (s.note (.initStructList parent index count dwords pwords) d) slots' := by
  obtain ⟨p, found, done⟩ := onPtr_eq_ok (f := fun p =>
    hold s.held .list (WrapM.onBuilder (cfunInitStructListOf p index count dwords pwords))) run
  obtain ⟨l, rfl, held⟩ := hold_eq_ok done
  obtain ⟨done, mark⟩ := onBuilder_eq_ok.mp held
  obtain ⟨inside, dwordsLt, pwordsLt, body, made, rfl⟩ := cfunInitStructListOf_eq_ok done
  obtain ⟨⟨id, i⟩, row, is, handle⟩ := sim.found found
  cases is with
  | ptr short sized hi =>
      have marked := sim.marked_of_found found
      have born : Forest.Born d.drawing.nodes.length (Slot.field id (i, index)) := by
        obtain ⟨data, object⟩ := sized
        exact (List.getElem?_eq_some_iff.mp object).1
      obtain ⟨d', means, slots', bodies, started, sized'⟩ : ∃ d', d.call
          (.setListStruct parent p.dwords index count.count dwords pwords) = some d' ∧
            d'.slots = d.slots ∧ d'.bodies = d.bodies ++ [(d.drawing.nodes.length, 0)] ∧
            d'.started = d.started ∧
            d'.Sized d.drawing.nodes.length .composite count.count dwords pwords := by
        rw [Draft.call, onSlot_eq row sized hi inside, if_pos ⟨few, dwordsLt, pwordsLt⟩]
        exact ⟨_, rfl, rfl, rfl, rfl, _, Forest.node_hang_new born⟩
      have called : Builder.call ⟨slots, s.held.map Handle.body⟩
          (.setListStruct parent p.dwords index count.count dwords pwords) s.wrap.builder =
            .ok ⟨slots, s.held.map Handle.body ++ [body]⟩ w'.builder := by
        rw [Builder.call]
        dsimp only
        rw [handle]
        exact bind_eq_ok.mpr ⟨_, _, made, rfl⟩
      have one : Call.ops s.held d.slots.length (.initStructList parent index count dwords pwords) =
          [.setListStruct parent p.dwords index count.count dwords pwords] := by
        rw [Call.ops, found]
        rfl
      refine ⟨slots, ?_⟩
      rw [step_of_ok run, note_of_op run one means]
      exact sim.grown (h := .list ⟨body, count.count, dwords, pwords⟩)
        (sim.follows.call means called) (by rw [slots', sim.numbered]) bodies
        (fun _ _ is => is.call means) (.list dwordsLt sized') (mark.trans marked)
        (started.trans (sim.marked.symm.trans marked))

/-- `capnp/struct-list-at` -/
theorem Simulates.structListAt (sim : Simulates firstWords s d slots) {list index : Nat}
    (run : (Call.structListAt list index).run s.held s.wrap = .ok held' w') :
    ∃ slots', Simulates firstWords (s.step (.structListAt list index))
      (s.note (.structListAt list index) d) slots' := by
  obtain ⟨l, found, done⟩ := onList_eq_ok (f := fun l =>
    hold s.held .ptr (WrapM.onBuilder (CfunM.convert (cfunStructListAt l index)))) run
  obtain ⟨q, rfl, held⟩ := hold_eq_ok done
  obtain ⟨done, mark⟩ := onBuilder_eq_ok.mp held
  obtain ⟨given, same⟩ := convert_eq_ok.mp done
  obtain ⟨inside, rfl⟩ := cfunStructListAt_eq_ok given
  obtain ⟨⟨id, i⟩, row, is, handle⟩ := sim.found found
  cases is with
  | list short sized =>
      have marked := sim.marked_of_found found
      -- without sections all elements are where the first one is
      obtain ⟨k, hk, element⟩ : ∃ k < l.count, d.call
          (.element list (index * (l.elemDwords + l.elemPwords))) = some (d.addBody (id, k)) := by
        obtain ⟨data, object⟩ := sized
        rw [Draft.call, row]
        dsimp only
        unfold Draft.elementAt
        dsimp only
        rw [object]
        dsimp only
        rcases Nat.eq_zero_or_pos (l.elemDwords + l.elemPwords) with none | some
        · rw [none]
          have first : 0 < l.count := Nat.zero_lt_of_lt inside
          exact ⟨0, first, by simp [first]⟩
        · refine ⟨index, inside, ?_⟩
          rw [Nat.mul_mod_left, Nat.mul_div_cancel index some, Nat.zero_add, if_pos ⟨rfl, inside⟩]
          rfl
      have called : Builder.call ⟨slots, s.held.map Handle.body⟩
          (.element list (index * (l.elemDwords + l.elemPwords))) s.wrap.builder =
            .ok ⟨slots, s.held.map Handle.body ++
              [⟨l.first.seg, l.first.word + index * (l.elemDwords + l.elemPwords)⟩]⟩ w'.builder := by
        rw [Builder.call]
        dsimp only
        rw [handle]
        exact bind_eq_ok.mpr ⟨_, _, congrArg _ same, rfl⟩
      have one : Call.ops s.held d.slots.length (.structListAt list index) =
          [.element list (index * (l.elemDwords + l.elemPwords))] := by
        rw [Call.ops, found]
        rfl
      refine ⟨slots, ?_⟩
      rw [step_of_ok run, note_of_op run one element]
      exact sim.grown (sim.follows.call element called) sim.numbered rfl
        (fun _ _ is => is.call element) (.ptr short (sized.of_nodes rfl) hk) (mark.trans marked)
        (sim.marked.symm.trans marked)

end

/-! ## Every call -/

section
variable {s : Script} {d : Draft} {slots : List BPtr} {firstWords : Nat}

/-- A pointer of a struct is given something to hold. -/
theorem Simulates.storesAt (sim : Simulates firstWords s d slots) {call : Call}
    {ptr index : Nat} (x : BuilderPtr → CfunM Unit) (op : Nat → BuildOp)
    (write : BPtr → Nat → BuildM Unit) {held' : List Handle} {w' : BuilderWrap}
    {f : Slot (Nat × Nat) → Option Draft}
    (shape : call.run s.held = onPtr s.held ptr fun p => keep s.held (x p))
    (ops : ∀ n, call.ops s.held n = [op (s.held[ptr]?.elim 0 Handle.dwords)])
    (run : call.run s.held s.wrap = .ok held' w')
    (inside : ∀ (p : BuilderPtr) (b b' : Builder), x p b = .ok () b' →
      index < p.pwords ∧ write p.body p.dwords b = .ok () b')
    (means : ∀ dwords, d.call (op dwords) = d.onSlot ptr dwords index f)
    (hangs : ∀ slot, ∃ d', f slot = some d' ∧ d'.bodies = d.bodies ∧ d'.slots = d.slots ∧
      d'.started = d.started)
    (calls : ∀ (held : Handles) (dwords : Nat), Builder.call held (op dwords) =
      held.call held.bodies[ptr]? fun body => held.keep (write body dwords)) :
    Simulates firstWords (s.step call) (s.note call d) slots := by
  apply sim.stores x op shape ops run
  intro p id i n sh row short sized hi body done
  obtain ⟨below, written⟩ := inside p _ _ done
  constructor
  · rw [means, onSlot_eq row sized hi below]
    exact hangs _
  · rw [calls]
    dsimp only
    rw [body]
    exact bind_eq_ok.mpr ⟨(), _, written, rfl⟩

theorem Simulates.step_of_error (sim : Simulates firstWords s d slots) {call : Call}
    {panic : Panic} {w' : BuilderWrap} (run : call.run s.held s.wrap = .error panic w') :
    s.step call = s := by
  have same := (run_atomic (fun unmarked => (sim.fresh unmarked).1) sim.follows.unlimited
    call).of_error run
  unfold Script.step
  rw [run, same]

theorem note_of_error {call : Call} {panic : Panic} {w' : BuilderWrap}
    (run : call.run s.held s.wrap = .error panic w') : s.note call d = d := by
  unfold Script.note
  rw [run]

/-- A call keeps the script and its session side by side. -/
theorem Simulates.step (sim : Simulates firstWords s d slots) (call : Call)
    (counts : call.counts = true) :
    ∃ slots', Simulates firstWords (s.step call) (s.note call d) slots' := by
  cases run : call.run s.held s.wrap with
  | error panic w' =>
      rw [sim.step_of_error run, note_of_error run]
      exact ⟨slots, sim⟩
  | ok held' w' =>
      cases call with
      | initRoot dwords pwords => exact sim.initRoot run
      | initStruct parent index dwords pwords => exact sim.initStruct run
      | initStructList parent index count dwords pwords =>
          exact sim.initStructList (of_decide_eq_true counts) run
      | structListAt list index => exact sim.structListAt run
      | set accessor ptr offset value dflt =>
          refine ⟨slots, sim.stores (fun p => accessor.set p offset value dflt)
            (fun _ => setOp accessor.storage ptr offset
              (accessor.storage.toBits value ^^^ accessor.storage.defaultBits dflt))
            rfl (fun _ => rfl) run ?_⟩
          intro p id i n shape row short sized hi body done
          obtain ⟨inside, stored⟩ := set_eq_ok short done
          exact ⟨setOp_means row sized hi inside, call_setOp body stored⟩
      | clearPointer ptr index =>
          refine ⟨slots, sim.storesAt (fun p => cfunClearPointer p index)
            (fun dwords => .clearPtr ptr dwords index)
            (fun body dwords => Builder.clearPtr body dwords index)
            rfl (fun _ => rfl) run ?_ (fun _ => rfl) (fun _ => ⟨_, rfl, rfl, rfl, rfl⟩)
            fun _ _ => rfl⟩
          intro p b b' done
          obtain ⟨_, _, indexed, done⟩ := bind_eq_ok.mp done
          obtain ⟨inside, rfl⟩ := getPointerIndex_ok indexed
          exact ⟨inside, checkBuilderResult_eq_ok.mp done⟩
      | setText ptr index value =>
          refine ⟨slots, sim.storesAt (fun p => cfunSetText p index value)
            (fun dwords => .setText ptr dwords index value.text)
            (fun body dwords => Builder.setText body dwords index value.text)
            rfl (fun _ => rfl) run (fun _ _ _ => cfunSetText_eq_ok) (fun _ => rfl) ?_ fun _ _ => rfl⟩
          intro slot
          rw [if_pos (of_decide_eq_true counts)]
          exact ⟨_, rfl, rfl, rfl, rfl⟩
      | setData ptr index value =>
          refine ⟨slots, sim.storesAt (fun p => cfunSetData p index value)
            (fun dwords => .setData ptr dwords index value.text)
            (fun body dwords => Builder.setDataList body dwords index value.text)
            rfl (fun _ => rfl) run (fun _ _ _ => cfunSetData_eq_ok) (fun _ => rfl) ?_ fun _ _ => rfl⟩
          intro slot
          rw [if_pos (of_decide_eq_true counts)]
          exact ⟨_, rfl, rfl, rfl, rfl⟩
      | setList kind ptr index values =>
          refine ⟨slots, sim.stores (fun p => cfunSetList kind p index values)
            (fun dwords => listOp kind ptr dwords index
              (values.items.map (ArgItem.bits kind.storage)))
            rfl (fun _ => rfl) run ?_⟩
          intro p id i n shape row short sized hi body done
          obtain ⟨inside, stored⟩ := cfunSetList_eq_ok done
          have few : (values.items.map (ArgItem.bits kind.storage)).length < 2 ^ 29 := by
            rw [List.length_map]
            exact of_decide_eq_true counts
          exact ⟨listOp_means row sized hi inside few, call_listOp body stored⟩
      | setListText ptr index values =>
          refine ⟨slots, sim.storesAt (fun p => cfunSetListText p index values)
            (fun dwords => .setListText ptr dwords index (values.items.map ArgItem.text))
            (fun body dwords =>
              Builder.setListTextN body dwords index (values.items.map ArgItem.text))
            rfl (fun _ => rfl) run (fun _ _ _ => cfunSetListText_eq_ok) (fun _ => rfl) ?_
            fun _ _ => rfl⟩
          intro slot
          simp only [Call.counts, Bool.and_eq_true, decide_eq_true_eq, List.all_eq_true] at counts
          have short : (values.items.map ArgItem.text).length < 2 ^ 29 ∧
              ∀ text ∈ values.items.map ArgItem.text, text.length + 1 < 2 ^ 29 := by
            constructor
            · rw [List.length_map]
              exact counts.1
            · intro text member
              obtain ⟨item, among, rfl⟩ := List.mem_map.mp member
              exact counts.2 item among
          rw [if_pos short]
          obtain ⟨slots, bodies⟩ := handles_hangTexts
            (d.hang slot (.block .pointers (values.items.map ArgItem.text).length 0 1 fun _ _ => 0))
            d.drawing.nodes.length 0 (values.items.map ArgItem.text)
          exact ⟨_, rfl, bodies, slots, started_hangTexts _ _ _ _⟩
      | setListVoid ptr index count =>
          refine ⟨slots, sim.storesAt (fun p => cfunSetListVoid p index count)
            (fun dwords => .setListPrim ptr dwords index .void count.count 0 fun _ => 0)
            (fun body dwords => Builder.setListVoid body dwords index count.count)
            rfl (fun _ => rfl) run (fun _ _ _ => cfunSetListVoid_eq_ok) (fun _ => rfl) ?_
            fun _ _ => rfl⟩
          intro slot
          rw [if_pos ⟨of_decide_eq_true counts, by decide, by decide, by decide⟩]
          exact ⟨_, rfl, rfl, rfl, rfl⟩

end

end Janet

end CapnpJanet
