import CapnpJanet.Builder.SameDraft
import CapnpJanet.Janet.Abreast
import CapnpJanet.Janet.ReadBack

/-!
# The first segment is only a hint

`capnp/new-builder` takes the number of words of the first segment.  Two scripts that
make the same calls on builders with different first segments go side by side: call by
call both succeed or both panic with the same message, and what they have drawn is the
same.  The words of the two messages are placed differently, and no reader can tell.
-/

namespace CapnpJanet

open ByteMemory Outcome Builder Run Codegen Draft

namespace Janet

open CfunM

/-! ## What a script holds -/

/-- A handle without its place. -/
def Handle.sizes : Handle → Handle
  | ptr p => ptr ⟨⟨0, 0⟩, p.dwords, p.pwords⟩
  | list l => list ⟨⟨0, 0⟩, l.count, l.elemDwords, l.elemPwords⟩

/-- The words of a handle are in use; those of a list are the words of its elements. -/
def Handle.InUse (b : Builder) : Handle → Prop
  | ptr p => p.InUse b
  | list l => ∀ i < l.count, BuilderPtr.InUse
      ⟨⟨l.first.seg, l.first.word + i * (l.elemDwords + l.elemPwords)⟩, l.elemDwords, l.elemPwords⟩ b

section
variable {b b' : Builder} {w w' : BuilderWrap} {held held' : List Handle}

theorem Handle.InUse.later {h : Handle} (inUse : h.InUse b)
    (grows : ∀ s, (b.seg s).words ≤ (b'.seg s).words) : h.InUse b' := by
  cases h with
  | ptr p => exact BuilderPtr.InUse.later inUse (grows _)
  | list l => exact fun i inside => (inUse i inside).later (grows _)

theorem storeField_grows (wf : b.Wf) {s : Storage} {body : BPtr} {offset bits : Nat}
    (run : storeField s body offset bits b = .ok () b') (i : Nat) :
    (b.seg i).words ≤ (b'.seg i).words := by
  cases s with
  | bool => exact ((setBool_confined wf body offset _).of_ok run).words_le i
  | int t => exact ((setScalar_confined wf t.bytes body offset bits).of_ok run).words_le i
  | real bytes => exact ((setScalar_confined wf bytes body offset bits).of_ok run).words_le i

theorem setList_grows (wf : b.Wf) {kind : ListKind} {body : BPtr} {dwords index : Nat}
    {bits : List Nat} (run : kind.setList body dwords index bits b = .ok () b') (i : Nat) :
    (b.seg i).words ≤ (b'.seg i).words := by
  cases kind with
  | bool => exact ((setListBool_confined wf body dwords index bits.length _).of_ok run).words_le i
  | _ =>
      exact ((setListPrim_confined wf body dwords index _ bits.length _ _).of_ok run).words_le i

/-- The root of a new builder is in use, and so is what was in use before. -/
theorem initRoot_inUse (wf : w.builder.Wf) {dwords pwords : Nat} {q : BuilderPtr}
    (run : initRoot dwords pwords w = .ok q w') :
    (∀ i, (w.builder.seg i).words ≤ (w'.builder.seg i).words) ∧ q.InUse w'.builder := by
  obtain ⟨-, -, dwordsLt, pwordsLt, body, b₁, rooted, made, rfl⟩ := initRoot_eq_ok run
  have first := root_ends wf
  rw [rooted] at first
  have structs := struct_ends first.1.wf first.2.1 dwords pwords
  rw [made] at structs
  exact ⟨fun i => (first.1.words_le i).trans (structs.1.words_le i),
    (fresh_of_struct first.1.wf dwordsLt pwordsLt first.2.1 made).inUse⟩

theorem cfunInitStruct_inUse (wf : b.Wf) {p q : BuilderPtr} {index dwords pwords : Nat}
    (run : cfunInitStruct p index dwords pwords b = .ok q b') :
    (∀ i, (b.seg i).words ≤ (b'.seg i).words) ∧ q.InUse b' := by
  obtain ⟨-, dwordsLt, pwordsLt, slot, body, b₁, checked, made, rfl⟩ := cfunInitStruct_eq_ok run
  have ends := slot_ends (b := b) p.body p.dwords index
  rw [checked] at ends
  obtain ⟨rfl, rfl, used⟩ := ends
  have structs := struct_ends wf used dwords pwords
  rw [made] at structs
  exact ⟨structs.1.words_le, (fresh_of_struct wf dwordsLt pwordsLt used made).inUse⟩

theorem cfunInitStructListOf_inUse (wf : b.Wf) {p : BuilderPtr} {l : BuilderList}
    {index dwords pwords : Nat} {count : Argument}
    (run : cfunInitStructListOf p index count dwords pwords b = .ok l b') :
    (∀ i, (b.seg i).words ≤ (b'.seg i).words) ∧ Handle.InUse b' (.list l) := by
  obtain ⟨-, dwordsLt, pwordsLt, first, made, rfl⟩ := cfunInitStructListOf_eq_ok run
  have lists := setListStruct_ends wf p.body p.dwords index count.count dwords pwords
  rw [made] at lists
  exact ⟨lists.1.words_le, fun i within =>
    (fresh_of_element wf dwordsLt pwordsLt made within).inUse⟩

/-- A call on a struct that returns it leaves every handle where it is. -/
theorem inUse_of_keep {ptr : Nat} {x : BuilderPtr → CfunM Unit}
    (inUse : ∀ h ∈ held, h.InUse w.builder)
    (run : onPtr held ptr (fun p => keep held (x p)) w = .ok held' w')
    (grows : ∀ p, p.InUse w.builder → x p w.builder = .ok () w'.builder →
      ∀ i, (w.builder.seg i).words ≤ (w'.builder.seg i).words) :
    ∀ h ∈ held', h.InUse w'.builder := by
  obtain ⟨p, found, done⟩ := onPtr_eq_ok run
  obtain ⟨rfl, done, -⟩ := keep_eq_ok done
  have here : Handle.InUse w.builder (.ptr p) := inUse _ (List.mem_of_getElem? found)
  exact fun h member => (inUse h member).later (grows p here done)

/-- A new handle, behind the others. -/
theorem inUse_concat {h : Handle} (inUse : ∀ h ∈ held, h.InUse b)
    (grows : ∀ i, (b.seg i).words ≤ (b'.seg i).words) (new : h.InUse b') :
    ∀ k ∈ held ++ [h], k.InUse b' := by
  intro k member
  rcases List.mem_append.mp member with old | last
  · exact (inUse k old).later grows
  · rw [List.mem_singleton.mp last]
    exact new

end

section
variable {firstWords : Nat} {s : Script} {d : Draft} {slots : List BPtr}

/-- What a script holds stays in use. -/
theorem Simulates.inUse_step (sim : Simulates firstWords s d slots)
    (inUse : ∀ h ∈ s.held, h.InUse s.wrap.builder) (call : Call) :
    ∀ h ∈ (s.step call).held, h.InUse (s.step call).wrap.builder := by
  have unlimited := sim.follows.unlimited
  have wf := unlimited.wf
  cases run : call.run s.held s.wrap with
  | error panic w' =>
      rw [sim.step_of_error run]
      exact inUse
  | ok held' w' =>
      rw [step_of_ok run]
      change ∀ h ∈ held', h.InUse w'.builder
      cases call with
      | initRoot dwords pwords =>
          obtain ⟨q, rfl, done⟩ := hold_eq_ok (x := Janet.initRoot dwords pwords) run
          obtain ⟨grows, new⟩ := initRoot_inUse wf done
          exact inUse_concat inUse grows new
      | initStruct parent index dwords pwords =>
          obtain ⟨p, found, done⟩ := onPtr_eq_ok (f := fun p =>
            hold s.held .ptr (WrapM.onBuilder (cfunInitStruct p index dwords pwords))) run
          obtain ⟨q, rfl, result⟩ := hold_eq_ok done
          obtain ⟨grows, new⟩ := cfunInitStruct_inUse wf (onBuilder_eq_ok.mp result).1
          exact inUse_concat inUse grows new
      | initStructList parent index count dwords pwords =>
          obtain ⟨p, found, done⟩ := onPtr_eq_ok (f := fun p =>
            hold s.held .list (WrapM.onBuilder (cfunInitStructListOf p index count dwords pwords))) run
          obtain ⟨l, rfl, result⟩ := hold_eq_ok done
          obtain ⟨grows, new⟩ := cfunInitStructListOf_inUse wf (onBuilder_eq_ok.mp result).1
          exact inUse_concat inUse grows new
      | structListAt list index =>
          obtain ⟨l, found, done⟩ := onList_eq_ok (f := fun l =>
            hold s.held .ptr (WrapM.onBuilder (CfunM.convert (cfunStructListAt l index)))) run
          obtain ⟨q, rfl, result⟩ := hold_eq_ok done
          obtain ⟨called, -⟩ := onBuilder_eq_ok.mp result
          obtain ⟨given, same⟩ := convert_eq_ok.mp called
          obtain ⟨inside, rfl⟩ := cfunStructListAt_eq_ok given
          have here : Handle.InUse s.wrap.builder (.list l) := inUse _ (List.mem_of_getElem? found)
          rw [← same]
          exact inUse_concat inUse (fun _ => le_rfl) (here index inside)
      | set accessor ptr offset value dflt =>
          exact inUse_of_keep inUse run fun p here done =>
            storeField_grows wf (set_eq_ok here.dwordsLt done).2
      | clearPointer ptr index =>
          refine inUse_of_keep inUse run fun p here done => ?_
          obtain ⟨_, _, indexed, done⟩ := bind_eq_ok.mp done
          obtain ⟨-, rfl⟩ := getPointerIndex_ok indexed
          exact ((clearPtr_confined wf _ _ _).of_ok (checkBuilderResult_eq_ok.mp done)).words_le
      | setText ptr index value =>
          exact inUse_of_keep inUse run fun p here done =>
            ((setText_confined wf _ _ _ _).of_ok (cfunSetText_eq_ok done).2).words_le
      | setData ptr index value =>
          exact inUse_of_keep inUse run fun p here done =>
            ((setDataList_confined wf _ _ _ _).of_ok (cfunSetData_eq_ok done).2).words_le
      | setList kind ptr index values =>
          exact inUse_of_keep inUse run fun p here done =>
            setList_grows wf (cfunSetList_eq_ok done).2
      | setListText ptr index values =>
          exact inUse_of_keep inUse run fun p here done =>
            ((setListTextN_confined wf _ _ _ _).of_ok (cfunSetListText_eq_ok done).2).words_le
      | setListVoid ptr index count =>
          exact inUse_of_keep inUse run fun p here done =>
            ((setListPrim_confined wf _ _ _ _ _ _ _).of_ok (cfunSetListVoid_eq_ok done).2).words_le

end

/-! ## Two scripts -/

/-- Handles of the same sizes, in the same order. -/
def SameSizes (held held' : List Handle) : Prop := held.map Handle.sizes = held'.map Handle.sizes

section
variable {w w' : BuilderWrap} {held held' : List Handle}

theorem onBuilder_abreast {α β : Type} {R : α → β → Prop} {x : CfunM α} {y : CfunM β}
    (abreast : Abreast R (x w.builder) (y w'.builder)) :
    Abreast R (WrapM.onBuilder x w) (WrapM.onBuilder y w') := by
  unfold WrapM.onBuilder
  cases run : x w.builder with
  | ok a b =>
      obtain ⟨a', b', run', related⟩ := abreast.ok_of_ok run
      rw [run']
      exact .ok related
  | error panic b =>
      obtain ⟨b', run'⟩ := abreast.error_of_error run
      rw [run']
      exact .error

/-- The same handle, or none, on both sides. -/
theorem SameSizes.getElem? (same : SameSizes held held') (i : Nat) :
    held[i]?.map Handle.sizes = held'[i]?.map Handle.sizes := by
  rw [← List.getElem?_map, ← List.getElem?_map]
  exact congrArg (·[i]?) same

theorem SameSizes.found (same : SameSizes held held') (i : Nat) :
    held[i]? = none ∧ held'[i]? = none ∨
      ∃ h h', held[i]? = some h ∧ held'[i]? = some h' ∧ h'.sizes = h.sizes := by
  have both := same.getElem? i
  cases found : held[i]? with
  | none =>
      rw [found, Option.map_none, eq_comm, Option.map_eq_none_iff] at both
      exact .inl ⟨rfl, both⟩
  | some h =>
      rw [found, Option.map_some, eq_comm, Option.map_eq_some_iff] at both
      obtain ⟨h', found', sizes⟩ := both
      exact .inr ⟨h, h', rfl, found', sizes⟩

theorem onPtr_abreast (same : SameSizes held held') {ptr : Nat}
    {R : List Handle → List Handle → Prop} {f f' : BuilderPtr → WrapM (List Handle)}
    (rest : ∀ p p', .ptr p ∈ held → .ptr p' ∈ held' → p.dwords = p'.dwords →
      p.pwords = p'.pwords → Abreast R (f p w) (f' p' w')) :
    Abreast R (onPtr held ptr f w) (onPtr held' ptr f' w') := by
  unfold onPtr
  rcases same.found ptr with ⟨none, none'⟩ | ⟨h, h', found, found', sizes⟩
  · rw [none, none']
    exact .error
  · rw [found, found']
    cases h with
    | ptr p =>
        cases h' with
        | ptr p' =>
            obtain ⟨-, dwords, pwords⟩ := BuilderPtr.mk.inj (Handle.ptr.inj sizes)
            exact rest p p' (List.mem_of_getElem? found) (List.mem_of_getElem? found')
              dwords.symm pwords.symm
        | list l' => cases sizes
    | list l =>
        cases h' with
        | ptr p' => cases sizes
        | list l' => exact .error

theorem onList_abreast (same : SameSizes held held') {list : Nat}
    {R : List Handle → List Handle → Prop} {f f' : BuilderList → WrapM (List Handle)}
    (rest : ∀ l l', l.count = l'.count → l.elemDwords = l'.elemDwords →
      l.elemPwords = l'.elemPwords → Abreast R (f l w) (f' l' w')) :
    Abreast R (onList held list f w) (onList held' list f' w') := by
  unfold onList
  rcases same.found list with ⟨none, none'⟩ | ⟨h, h', found, found', sizes⟩
  · rw [none, none']
    exact .error
  · rw [found, found']
    cases h with
    | ptr p =>
        cases h' with
        | ptr p' => exact .error
        | list l' => cases sizes
    | list l =>
        cases h' with
        | ptr p' => cases sizes
        | list l' =>
            obtain ⟨-, count, dwords, pwords⟩ := BuilderList.mk.inj (Handle.list.inj sizes)
            exact rest l l' count.symm dwords.symm pwords.symm

theorem SameSizes.concat (same : SameSizes held held') {h h' : Handle} (sizes : h.sizes = h'.sizes) :
    SameSizes (held ++ [h]) (held' ++ [h']) := by
  unfold SameSizes at same ⊢
  rw [List.map_append, List.map_append, same, List.map_singleton, List.map_singleton, sizes]

theorem keep_abreast (same : SameSizes held held') {x y : CfunM Unit}
    (abreast : Abreast (fun _ _ => True) (x w.builder) (y w'.builder)) :
    Abreast SameSizes (keep held x w) (keep held' y w') :=
  (onBuilder_abreast abreast).before_pure fun _ _ _ => same

theorem hold_abreast (same : SameSizes held held') {α : Type} {handle : α → Handle}
    {x y : WrapM α} (abreast : Abreast (fun a a' => (handle a).sizes = (handle a').sizes) (x w) (y w')) :
    Abreast SameSizes (hold held handle x w) (hold held' handle y w') :=
  abreast.before_pure fun _ _ sizes => same.concat sizes

theorem unlimited_of_root {firstWords : Nat} {b b' : Builder} {root : BPtr}
    (new : b = Builder.initSized firstWords) (run : Builder.root b = .ok root b') : Unlimited b' := by
  have unlimited : Unlimited b := new ▸ unlimited_initSized firstWords
  have ends := root_ends unlimited.wf
  rw [run] at ends
  exact ends.1.unlimited unlimited

/-- `capnp/init-root` on two new builders. -/
theorem initRoot_abreast {firstWords firstWords' : Nat}
    (marked : w.rootInitialized = w'.rootInitialized)
    (fresh : w.rootInitialized = false → w.builder = Builder.initSized firstWords)
    (fresh' : w'.rootInitialized = false → w'.builder = Builder.initSized firstWords')
    (dwords pwords : Nat) :
    Abreast (fun p p' => p.dwords = p'.dwords ∧ p.pwords = p'.pwords) (initRoot dwords pwords w)
      (initRoot dwords pwords w') := by
  unfold initRoot
  refine .after_look (onBuilder_looks (getWordCount_looks _ _ _))
    (onBuilder_looks (getWordCount_looks _ _ _)) (onBuilder_abreast (getWordCount_abreast _ _ _))
    fun _ _ counted _ _ => ?_
  refine .after_look (onBuilder_looks (getWordCount_looks _ _ _))
    (onBuilder_looks (getWordCount_looks _ _ _)) (onBuilder_abreast (getWordCount_abreast _ _ _))
    fun _ _ counted' _ _ => ?_
  have dwordsLt := (getWordCount_ok (onBuilder_eq_ok.mp counted).1).1
  have pwordsLt := (getWordCount_ok (onBuilder_eq_ok.mp counted').1).1
  have seen : Abreast (fun v v' => v = w ∧ v' = w') ((get : WrapM BuilderWrap) w)
      ((get : WrapM BuilderWrap) w') := .ok ⟨rfl, rfl⟩
  refine .after_look ⟨fun _ => rfl⟩ ⟨fun _ => rfl⟩ seen fun v v' _ _ both => ?_
  obtain ⟨rfl, rfl⟩ := both
  rw [← marked]
  split
  · exact .error
  · next unmarked =>
    have new := Bool.not_eq_true _ ▸ unmarked
    obtain ⟨b₁, rooted⟩ := root_total firstWords
    obtain ⟨b₁', rooted'⟩ := root_total firstWords'
    rw [← fresh new] at rooted
    rw [← fresh' (marked.symm.trans new)] at rooted'
    have roots : Abreast (fun _ _ => True) (Builder.root v.builder) (Builder.root v'.builder) :=
      .of_ok rooted rooted' trivial
    refine .bind (onBuilder_abreast (checkBuilderResult_abreast roots _))
      fun root root' w₁ w₁' done done' _ => ?_
    have unlimited : Unlimited w₁.builder :=
      unlimited_of_root (fresh new) (checkBuilderResult_eq_ok.mp (onBuilder_eq_ok.mp done).1)
    have unlimited' : Unlimited w₁'.builder :=
      unlimited_of_root (fresh' (marked.symm.trans new))
        (checkBuilderResult_eq_ok.mp (onBuilder_eq_ok.mp done').1)
    have structs := struct_abreast unlimited unlimited' root root' dwordsLt pwordsLt
    have marks : Abreast (fun _ _ => True)
        ((modify fun w => { w with rootInitialized := true } : WrapM Unit) w₁)
        ((modify fun w => { w with rootInitialized := true } : WrapM Unit) w₁') := .ok trivial
    refine .bind marks fun _ _ w₂ w₂' mark mark' _ => ?_
    cases mark
    cases mark'
    refine .before_pure (R := fun _ _ => True) ?_ fun _ _ _ => ⟨rfl, rfl⟩
    exact onBuilder_abreast (checkBuilderResult_abreast structs _)

end

section
variable {firstWords firstWords' : Nat} {s s' : Script} {d : Draft} {slots slots' : List BPtr}

/-- Two scripts have made the same calls on builders of different first segments, and
have drawn the same. -/
structure SideBySide (firstWords firstWords' : Nat) (s s' : Script) (d : Draft) : Prop where
  first : ∃ slots, Simulates firstWords s d slots
  second : ∃ slots, Simulates firstWords' s' d slots
  inUse : ∀ h ∈ s.held, h.InUse s.wrap.builder
  inUse' : ∀ h ∈ s'.held, h.InUse s'.wrap.builder
  sizes : SameSizes s.held s'.held

/-- Every call ends alike in two scripts that have made the same calls. -/
theorem SideBySide.run_abreast (beside : SideBySide firstWords firstWords' s s' d) (call : Call) :
    Abreast SameSizes (call.run s.held s.wrap) (call.run s'.held s'.wrap) := by
  obtain ⟨slots, sim⟩ := beside.first
  obtain ⟨slots', sim'⟩ := beside.second
  have same := beside.sizes
  have sits (p : BuilderPtr) (member : .ptr p ∈ s.held) : Sits p s.wrap.builder :=
    ⟨sim.follows.unlimited, beside.inUse (.ptr p) member⟩
  have sits' (p : BuilderPtr) (member : .ptr p ∈ s'.held) : Sits p s'.wrap.builder :=
    ⟨sim'.follows.unlimited, beside.inUse' (.ptr p) member⟩
  cases call with
  | initRoot dwords pwords =>
      refine hold_abreast same ((initRoot_abreast (sim.marked.trans sim'.marked.symm)
        (fun unmarked => (sim.fresh unmarked).1) (fun unmarked => (sim'.fresh unmarked).1)
        dwords pwords).mono fun p p' sizes => ?_)
      rw [Handle.sizes, Handle.sizes, sizes.1, sizes.2]
  | initStruct parent index dwords pwords =>
      refine onPtr_abreast same fun p p' member member' _ ptrs => hold_abreast same ?_
      refine (onBuilder_abreast (cfunInitStruct_abreast (sits p member) (sits' p' member') ptrs index
        dwords pwords)).mono fun p p' sizes => ?_
      rw [Handle.sizes, Handle.sizes, sizes.1, sizes.2]
  | initStructList parent index count dwords pwords =>
      refine onPtr_abreast same fun p p' member member' _ ptrs => hold_abreast same ?_
      refine (onBuilder_abreast (cfunInitStructListOf_abreast (sits p member) (sits' p' member') ptrs
        index count dwords pwords)).mono fun l l' sizes => ?_
      rw [Handle.sizes, Handle.sizes, sizes.1, sizes.2.1, sizes.2.2]
  | structListAt list index =>
      refine onList_abreast same fun l l' count dwords pwords =>
        hold_abreast same (onBuilder_abreast ?_)
      unfold cfunStructListAt
      rw [count]
      split
      · exact .error
      · split
        · exact .error
        · refine .ok ?_
          rw [Handle.sizes, Handle.sizes, dwords, pwords]
  | set accessor ptr offset value dflt =>
      exact onPtr_abreast same fun p p' member member' data _ => keep_abreast same
        (set_abreast (sits p member) (sits' p' member') data accessor offset value dflt)
  | clearPointer ptr index =>
      exact onPtr_abreast same fun p p' member member' _ ptrs => keep_abreast same
        (cfunClearPointer_abreast (sits p member) (sits' p' member') ptrs index)
  | setText ptr index value =>
      exact onPtr_abreast same fun p p' member member' _ ptrs => keep_abreast same
        (cfunSetText_abreast (sits p member) (sits' p' member') ptrs index value)
  | setData ptr index value =>
      exact onPtr_abreast same fun p p' member member' _ ptrs => keep_abreast same
        (cfunSetData_abreast (sits p member) (sits' p' member') ptrs index value)
  | setList kind ptr index values =>
      exact onPtr_abreast same fun p p' member member' _ ptrs => keep_abreast same
        (cfunSetList_abreast (sits p member) (sits' p' member') ptrs kind index values)
  | setListText ptr index values =>
      exact onPtr_abreast same fun p p' member member' _ ptrs => keep_abreast same
        (cfunSetListText_abreast (sits p member) (sits' p' member') ptrs index values)
  | setListVoid ptr index count =>
      exact onPtr_abreast same fun p p' member member' _ ptrs => keep_abreast same
        (cfunSetListVoid_abreast (sits p member) (sits' p' member') ptrs index count)

/-- How a call panics, if it does. -/
def Script.panic (s : Script) (call : Call) : Option Panic :=
  match call.run s.held s.wrap with
  | .ok _ _ => none
  | .error panic _ => some panic

/-- How the calls of a script panic, one after the other. -/
def Script.panics : Script → List Call → List (Option Panic)
  | _, [] => []
  | s, first :: rest => s.panic first :: (s.step first).panics rest

/-- The calls of the builder do not depend on where the handles are. -/
theorem Call.ops_eq {held held' : List Handle} (same : SameSizes held held') (n : Nat)
    (call : Call) : call.ops held n = call.ops held' n := by
  have number (f : Handle → Nat) (placeless : ∀ h, f h.sizes = f h) (i : Nat) :
      held[i]?.elim 0 f = held'[i]?.elim 0 f := by
    have both := congrArg (Option.elim · 0 f) (same.getElem? i)
    rw [Option.elim_map, Option.elim_map, show f ∘ Handle.sizes = f from funext placeless] at both
    exact both
  have data := number Handle.dwords fun h => by cases h <;> rfl
  have steps := number Handle.step fun h => by cases h <;> rfl
  cases call with
  | initRoot dwords pwords => rfl
  | set accessor ptr offset value dflt => rfl
  | structListAt list index => rw [Call.ops, Call.ops, steps]
  | initStruct parent index dwords pwords => rw [Call.ops, Call.ops, data]
  | initStructList parent index count dwords pwords => rw [Call.ops, Call.ops, data]
  | clearPointer ptr index => rw [Call.ops, Call.ops, data]
  | setText ptr index value => rw [Call.ops, Call.ops, data]
  | setData ptr index value => rw [Call.ops, Call.ops, data]
  | setList kind ptr index values => rw [Call.ops, Call.ops, data]
  | setListText ptr index values => rw [Call.ops, Call.ops, data]
  | setListVoid ptr index count => rw [Call.ops, Call.ops, data]

/-- A call keeps two scripts side by side. -/
theorem SideBySide.step (beside : SideBySide firstWords firstWords' s s' d) {call : Call}
    (counts : call.counts = true) :
    s.panic call = s'.panic call ∧ s'.note call d = s.note call d ∧
      SideBySide firstWords firstWords' (s.step call) (s'.step call) (s.note call d) := by
  have abreast := beside.run_abreast call
  obtain ⟨slots, sim⟩ := beside.first
  obtain ⟨slots', sim'⟩ := beside.second
  have alike : s.panic call = s'.panic call ∧ s'.note call d = s.note call d ∧
      SameSizes (s.step call).held (s'.step call).held := by
    cases run : call.run s.held s.wrap with
    | ok held w =>
        obtain ⟨held', w', run', same⟩ := abreast.ok_of_ok run
        refine ⟨?_, ?_, ?_⟩
        · rw [Script.panic, Script.panic, run, run']
        · rw [note_of_ok run, note_of_ok run', Call.ops_eq beside.sizes]
        · rw [step_of_ok run, step_of_ok run']
          exact same
    | error panic w =>
        obtain ⟨w', run'⟩ := abreast.error_of_error run
        refine ⟨?_, ?_, ?_⟩
        · rw [Script.panic, Script.panic, run, run']
        · rw [note_of_error run, note_of_error run']
        · rw [sim.step_of_error run, sim'.step_of_error run']
          exact beside.sizes
  obtain ⟨panics, drawn, sizes⟩ := alike
  refine ⟨panics, drawn, sim.step call counts, ?_, sim.inUse_step beside.inUse call,
    sim'.inUse_step beside.inUse' call, sizes⟩
  rw [← drawn]
  exact sim'.step call counts

/-- Calls keep two scripts side by side, one after the other. -/
theorem SideBySide.run {calls : List Call} (counts : ∀ call ∈ calls, call.counts = true)
    (beside : SideBySide firstWords firstWords' s s' d) :
    s.panics calls = s'.panics calls ∧
      (calls.foldl (observed Script.step Script.note) (s', d)).2 =
        (calls.foldl (observed Script.step Script.note) (s, d)).2 ∧
      SideBySide firstWords firstWords' (calls.foldl (observed Script.step Script.note) (s, d)).1
        (calls.foldl (observed Script.step Script.note) (s', d)).1
        (calls.foldl (observed Script.step Script.note) (s, d)).2 := by
  induction calls generalizing s s' d with
  | nil => exact ⟨rfl, rfl, beside⟩
  | cons call rest ih =>
      obtain ⟨panics, drawn, next⟩ := beside.step (counts call List.mem_cons_self)
      obtain ⟨later, end', last⟩ := ih (fun c member => counts c (List.mem_cons_of_mem call member)) next
      rw [List.foldl_cons, List.foldl_cons]
      unfold observed at end' last ⊢
      dsimp only at end' last ⊢
      rw [drawn]
      refine ⟨?_, end', last⟩
      rw [Script.panics, Script.panics, panics, later]

end

/-- A script after these calls, with what it has drawn. -/
def after (wrap : BuilderWrap) (calls : List Call) : Script × Draft :=
  calls.foldl (observed Script.step Script.note) (⟨wrap, []⟩, blank)

/-- Nobody can tell the first segment.  Two scripts that make the same calls on
builders with first segments of any sizes panic at the same calls with the same
messages, hold handles of the same sizes, and draw the same.  If both finish their
builders, with at most 16 segments, then both messages tell a reading script the same
along every path, and their canonical forms are the same bytes. -/
theorem first_segment_unseen {given given' : Option Nat} {wrap wrap' : BuilderWrap}
    (new : cfunNewBuilder given = .ok wrap) (new' : cfunNewBuilder given' = .ok wrap')
    {calls : List Call} (counts : ∀ call ∈ calls, call.counts = true) :
    Script.panics ⟨wrap, []⟩ calls = Script.panics ⟨wrap', []⟩ calls ∧
    SameSizes (after wrap calls).1.held (after wrap' calls).1.held ∧
    (after wrap' calls).2 = (after wrap calls).2 ∧
    ∀ flat flat',
      cfunFinishBuilder (after wrap calls).1.wrap.rootInitialized
        (after wrap calls).1.wrap.builder = .ok flat →
      cfunFinishBuilder (after wrap' calls).1.wrap.rootInitialized
        (after wrap' calls).1.wrap.builder = .ok flat' →
      (after wrap calls).1.wrap.builder.nsegs ≤ maxSegments →
      (after wrap' calls).1.wrap.builder.nsegs ≤ maxSegments →
      ∃ m m', cfunMessageFromBuffer flat = .ok m ∧ cfunMessageFromBuffer flat' = .ok m' ∧
        (∀ path left, (∀ step ∈ path, Indexed step) →
          (after wrap calls).2.price (after wrap calls).2.top +
              (after wrap calls).2.dues (after wrap calls).2.top (path.map taken) ≤ left →
            Told (after wrap calls).2 m (readAlong m path left)
                ((after wrap calls).2.walk (after wrap calls).2.top (path.map taken)) ∧
              Told (after wrap calls).2 m' (readAlong m' path left)
                ((after wrap calls).2.walk (after wrap calls).2.top (path.map taken))) ∧
        ∀ raw raw', m.canonicalize = .ok raw → m'.canonicalize = .ok raw' → raw = raw' := by
  obtain rfl := cfunNewBuilder_eq_ok new
  obtain rfl := cfunNewBuilder_eq_ok new'
  have start : SideBySide (given.getD builderDefaultFirstWords)
      (given'.getD builderDefaultFirstWords)
      ⟨⟨Builder.initSized (given.getD builderDefaultFirstWords), false⟩, []⟩
      ⟨⟨Builder.initSized (given'.getD builderDefaultFirstWords), false⟩, []⟩ blank :=
    ⟨⟨[], simulates_init _⟩, ⟨[], simulates_init _⟩, fun _ member => absurd member List.not_mem_nil,
      fun _ member => absurd member List.not_mem_nil, rfl⟩
  obtain ⟨panics, drawn, beside⟩ := start.run counts
  refine ⟨panics, beside.sizes, drawn, fun flat flat' finished finished' few few' => ?_⟩
  obtain ⟨slots, sim⟩ := beside.first
  obtain ⟨slots', sim'⟩ := beside.second
  obtain ⟨started, place, m, opened, holds, built, segments, deep⟩ := sim.opens finished few
  obtain ⟨-, place', m', opened', holds', built', segments', deep'⟩ := sim'.opens finished' few'
  refine ⟨m, m', opened, opened', fun path left indexed enough => ⟨?_, ?_⟩, ?_⟩
  · exact told holds started built segments deep indexed enough
  · exact told holds' started built' segments' deep' indexed enough
  · have held : HeldBy _ place m := ⟨⟨_, holds, built⟩, segments, deep⟩
    exact held.canonical_eq ⟨⟨_, holds', built'⟩, segments', deep'⟩ started started (.refl _)

theorem first_segment_unseen_menu :
    Script.panics ⟨⟨Builder.initSized 1, false⟩, []⟩ menu =
      Script.panics ⟨⟨Builder.init, false⟩, []⟩ menu ∧
    ∃ m m', cfunMessageFromBuffer
        (after ⟨Builder.initSized 1, false⟩ menu).1.wrap.builder.flatBytes = .ok m ∧
      cfunMessageFromBuffer (after ⟨Builder.init, false⟩ menu).1.wrap.builder.flatBytes = .ok m' ∧
      ∀ raw raw', m.canonicalize = .ok raw → m'.canonicalize = .ok raw' → raw = raw' := by
  have new : cfunNewBuilder (some 1) = .ok ⟨Builder.initSized 1, false⟩ := rfl
  have new' : cfunNewBuilder none = .ok ⟨Builder.init, false⟩ := rfl
  have counts : ∀ call ∈ menu, call.counts = true := by decide
  obtain ⟨panics, -, -, opens⟩ := first_segment_unseen new new' counts
  obtain ⟨m, m', opened, opened', -, canonical⟩ :=
    opens _ _ rfl rfl (by decide +kernel) (by decide +kernel)
  exact ⟨panics, m, m', opened, opened', canonical⟩

example : (after ⟨Builder.initSized 1, false⟩ menu).1.wrap.builder.nsegs = 2 := by decide +kernel

example : (after ⟨Builder.init, false⟩ menu).1.wrap.builder.nsegs = 1 := by decide +kernel

end Janet

end CapnpJanet
