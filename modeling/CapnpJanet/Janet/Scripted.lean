import CapnpJanet.Janet.Scripts

/-!
# Scripts draw their drafts

The builder calls that a function of the module makes always mean something: the
function has checked its arguments against the sizes that the handle carries, and
these are the sizes of the object that the handle is for.  A function that panics
has made none of its calls.  So the builder of a script draws the script's draft,
whatever the arguments are.
-/

namespace CapnpJanet

open ByteMemory Outcome Builder Run Codegen

namespace Janet

/-! ## Functions that succeed -/

section
variable {w w' : BuilderWrap} {held held' : List Handle} {b b' : Builder} {p : BuilderPtr}

theorem onBuilder_eq_ok {α : Type} {x : CfunM α} {a : α} :
    WrapM.onBuilder x w = .ok a w' ↔
      x w.builder = .ok a w'.builder ∧ w'.rootInitialized = w.rootInitialized := by
  obtain ⟨b₁, marked⟩ := w'
  unfold WrapM.onBuilder
  cases x w.builder with
  | ok a₁ b₂ => simp [eq_comm, and_assoc]
  | error panic b₂ => simp

theorem onPtr_eq_ok {ptr : Nat} {f : BuilderPtr → WrapM (List Handle)}
    (run : onPtr held ptr f w = .ok held' w') :
    ∃ p, held[ptr]? = some (.ptr p) ∧ f p w = .ok held' w' := by
  unfold onPtr at run
  cases found : held[ptr]? with
  | none =>
      rw [found] at run
      cases run
  | some handle =>
      rw [found] at run
      cases handle with
      | ptr p => exact ⟨p, rfl, run⟩
      | list l => cases run

theorem onList_eq_ok {list : Nat} {f : BuilderList → WrapM (List Handle)}
    (run : onList held list f w = .ok held' w') :
    ∃ l, held[list]? = some (.list l) ∧ f l w = .ok held' w' := by
  unfold onList at run
  cases found : held[list]? with
  | none =>
      rw [found] at run
      cases run
  | some handle =>
      rw [found] at run
      cases handle with
      | list l => exact ⟨l, rfl, run⟩
      | ptr p => cases run

theorem keep_eq_ok {x : CfunM Unit} (run : keep held x w = .ok held' w') :
    held' = held ∧ x w.builder = .ok () w'.builder ∧ w'.rootInitialized = w.rootInitialized := by
  obtain ⟨_, w₁, done, kept⟩ := bind_eq_ok.mp run
  cases kept
  exact ⟨rfl, onBuilder_eq_ok.mp done⟩

theorem hold_eq_ok {α : Type} {handle : α → Handle} {x : WrapM α}
    (run : hold held handle x w = .ok held' w') :
    ∃ a, held' = held ++ [handle a] ∧ x w = .ok a w' := by
  obtain ⟨a, w₁, done, kept⟩ := bind_eq_ok.mp run
  cases kept
  exact ⟨a, rfl, done⟩

/-- Both calls that `capnp/init-root` makes. -/
theorem initRoot_eq_ok {dwords pwords : Nat} (run : initRoot dwords pwords w = .ok p w') :
    w.rootInitialized = false ∧ w'.rootInitialized = true ∧ dwords < 2 ^ 16 ∧ pwords < 2 ^ 16 ∧
      ∃ body b₁, Builder.root w.builder = .ok ⟨0, 0⟩ b₁ ∧
        Builder.struct ⟨0, 0⟩ dwords pwords b₁ = .ok body w'.builder ∧ p = ⟨body, dwords, pwords⟩ := by
  obtain ⟨_, w₁, counted, run⟩ := bind_eq_ok.mp run
  obtain ⟨counted, mark₁⟩ := onBuilder_eq_ok.mp counted
  obtain ⟨dwordsLt, same₁⟩ := getWordCount_ok counted
  obtain ⟨_, w₂, counted, run⟩ := bind_eq_ok.mp run
  obtain ⟨counted, mark₂⟩ := onBuilder_eq_ok.mp counted
  obtain ⟨pwordsLt, same₂⟩ := getWordCount_ok counted
  obtain ⟨_, _, ⟨⟩, run⟩ := bind_eq_ok.mp run
  dsimp only at run
  split at run
  · obtain ⟨_, _, thrown, -⟩ := bind_eq_ok.mp run
    cases thrown
  · next unmarked =>
    obtain ⟨root, w₃, rooted, run⟩ := bind_eq_ok.mp run
    obtain ⟨rooted, -⟩ := onBuilder_eq_ok.mp rooted
    obtain ⟨_, w₄, ⟨⟩, run⟩ := bind_eq_ok.mp run
    obtain ⟨body, w₅, made, done⟩ := bind_eq_ok.mp run
    obtain ⟨made, mark₅⟩ := onBuilder_eq_ok.mp made
    cases done
    rw [checkBuilderResult_eq_ok] at rooted made
    obtain rfl := root_eq_ok rooted
    rw [← same₂, ← same₁] at rooted
    rw [← mark₁, ← mark₂]
    exact ⟨Bool.not_eq_true _ ▸ unmarked, mark₅, dwordsLt, pwordsLt, body, w₃.builder, rooted, made, rfl⟩

theorem cfunInitStruct_eq_ok {parent : BuilderPtr} {index dwords pwords : Nat}
    (run : cfunInitStruct parent index dwords pwords b = .ok p b') :
    index < parent.pwords ∧ dwords < 2 ^ 16 ∧ pwords < 2 ^ 16 ∧
      ∃ slot body b₁, Builder.slot parent.body parent.dwords index b = .ok slot b₁ ∧
        Builder.struct slot dwords pwords b₁ = .ok body b' ∧ p = ⟨body, dwords, pwords⟩ := by
  obtain ⟨_, _, indexed, run⟩ := bind_eq_ok.mp run
  obtain ⟨inside, rfl⟩ := getPointerIndex_ok indexed
  obtain ⟨_, _, counted, run⟩ := bind_eq_ok.mp run
  obtain ⟨dwordsLt, rfl⟩ := getWordCount_ok counted
  obtain ⟨_, _, counted, run⟩ := bind_eq_ok.mp run
  obtain ⟨pwordsLt, rfl⟩ := getWordCount_ok counted
  obtain ⟨slot, b₁, found, run⟩ := bind_eq_ok.mp run
  obtain ⟨body, b₂, made, done⟩ := bind_eq_ok.mp run
  cases done
  exact ⟨inside, dwordsLt, pwordsLt, slot, body, b₁, checkBuilderResult_eq_ok.mp found,
    checkBuilderResult_eq_ok.mp made, rfl⟩

theorem cfunInitStructListOf_eq_ok {parent : BuilderPtr} {index dwords pwords : Nat}
    {count : Argument} {l : BuilderList}
    (run : cfunInitStructListOf parent index count dwords pwords b = .ok l b') :
    index < parent.pwords ∧ dwords < 2 ^ 16 ∧ pwords < 2 ^ 16 ∧
      ∃ first, Builder.setListStruct parent.body parent.dwords index count.count dwords pwords b =
        .ok first b' ∧ l = ⟨first, count.count, dwords, pwords⟩ := by
  unfold cfunInitStructListOf at run
  split at run
  · next n =>
    obtain ⟨_, _, indexed, run⟩ := bind_eq_ok.mp run
    obtain ⟨inside, rfl⟩ := getPointerIndex_ok indexed
    split at run
    · obtain ⟨_, _, thrown, -⟩ := bind_eq_ok.mp run
      cases thrown
    · obtain ⟨_, _, counted, run⟩ := bind_eq_ok.mp run
      obtain ⟨dwordsLt, rfl⟩ := getWordCount_ok counted
      obtain ⟨_, _, counted, run⟩ := bind_eq_ok.mp run
      obtain ⟨pwordsLt, rfl⟩ := getWordCount_ok counted
      obtain ⟨first, b₁, made, done⟩ := bind_eq_ok.mp run
      cases done
      exact ⟨inside, dwordsLt, pwordsLt, first, checkBuilderResult_eq_ok.mp made, rfl⟩
  · obtain ⟨_, _, -, thrown⟩ := bind_eq_ok.mp run
    cases thrown

theorem cfunStructListAt_eq_ok {l : BuilderList} {index : Nat}
    (found : cfunStructListAt l index = .ok p) :
    index < l.count ∧ p = ⟨⟨l.first.seg, l.first.word + index * (l.elemDwords + l.elemPwords)⟩,
      l.elemDwords, l.elemPwords⟩ := by
  unfold cfunStructListAt at found
  split at found
  · cases found
  · split at found
    · cases found
    · next inside =>
      cases found
      exact ⟨not_le.mp inside, rfl⟩

/-- A pointer is checked, an argument converted, and a pointer written. -/
theorem pointer_eq_ok {α : Type} {index : Nat} {caller : String} {given : Except Panic α}
    {write : α → BuildM Unit}
    (run : (do
      getPointerIndex p index caller
      let a ← CfunM.convert given
      CfunM.checkBuilderResult caller (write a)) b = .ok () b') :
    index < p.pwords ∧ ∃ a, given = .ok a ∧ write a b = .ok () b' := by
  obtain ⟨_, _, indexed, run⟩ := bind_eq_ok.mp run
  obtain ⟨inside, rfl⟩ := getPointerIndex_ok indexed
  obtain ⟨a, _, converted, run⟩ := bind_eq_ok.mp run
  obtain ⟨taken, rfl⟩ := convert_eq_ok.mp converted
  exact ⟨inside, a, taken, checkBuilderResult_eq_ok.mp run⟩

end

/-! ## Arguments that are taken -/

theorem getInteger_given {t : IntType} {n : Nat} {value : Value} {i : Int}
    (taken : getInteger t n value = .ok i) : value = .integer i := by
  unfold getInteger at taken
  split at taken
  · split at taken
    · cases taken
      rfl
    · cases taken
  · cases taken

theorem getByteArg_given {t : IntType} {typeName caller : String} {n : Nat} {value : Value} {i : Int}
    (taken : getByteArg t typeName caller n value = .ok i) : value = .integer i := by
  unfold getByteArg at taken
  cases wide : getInteger .i32 n value with
  | error panic =>
      rw [wide] at taken
      cases taken
  | ok j =>
      rw [wide] at taken
      simp only [bind, Except.bind] at taken
      split at taken
      · cases taken
        exact getInteger_given wide
      · cases taken

theorem getBoolean_given {n : Nat} {value : Value} {a : Bool} (taken : getBoolean n value = .ok a) :
    value = .boolean a := by
  unfold getBoolean at taken
  split at taken
  · cases taken
    rfl
  · cases taken

theorem getReal_given {bytes n : Nat} {value : Value} {bits : Nat}
    (taken : getReal bytes n value = .ok bits) : value = .real bits := by
  unfold getReal at taken
  split at taken
  · split at taken
    · cases taken
      rfl
    · cases taken
  · cases taken

/-- An item of which a conversion takes a value. -/
theorem itemValue_eq_ok {α : Type} {get : Nat → Value → Except Panic α} {n : Nat} {item : ArgItem}
    {a : α} (taken : item.value get n = .ok a) : ∃ v, item = .scalar v ∧ get n v = .ok a := by
  cases item with
  | scalar v => exact ⟨v, rfl, taken⟩
  | bytes view => cases taken
  | other => cases taken

theorem getBytes_eq_ok {n : Nat} {item : ArgItem} {view : ByteView}
    (taken : item.getBytes n = .ok view) : view.bytes = item.text := by
  cases item with
  | scalar v => cases taken
  | bytes view => 
      cases taken
      rfl
  | other => cases taken

/-- An argument that is no tuple. -/
theorem single_eq_ok {α : Type} {get : Nat → ArgItem → Except Panic α} {n : Nat}
    {value : Argument} {a : α} (taken : value.single get n = .ok a) :
    ∃ one, value = .item one ∧ get n one = .ok a := by
  cases value with
  | item one => exact ⟨one, rfl, taken⟩
  | indexed view => cases taken

theorem getIndexed_eq_ok {n : Nat} {values : Argument} {view : ItemView}
    (taken : values.getIndexed n = .ok view) : view.items = values.items := by
  cases values with
  | item one => cases taken
  | indexed view =>
      cases taken
      rfl

/-- What a conversion of all items gives. -/
theorem mapM_eq_ok {α β γ : Type} {f : α → Except Panic β} {g : α → γ} {h : β → γ}
    (given : ∀ a b, f a = .ok b → h b = g a) {items : List α} {bs : List β}
    (run : items.mapM f = .ok bs) : bs.map h = items.map g := by
  induction items generalizing bs with
  | nil =>
      cases run
      rfl
  | cons a rest ih =>
      rw [List.mapM_cons] at run
      cases first : f a with
      | error panic =>
          rw [first] at run
          cases run
      | ok b =>
          cases others : rest.mapM f with
          | error panic =>
              rw [first, others] at run
              cases run
          | ok bs' =>
              rw [first, others] at run
              cases run
              rw [List.map_cons, List.map_cons, given a b first, ih others]

/-- The bits that an item is converted to. -/
theorem itemBits_eq_ok {kind : ListKind} {caller : String} {item : ArgItem} {bits : Nat}
    (taken : kind.itemBits caller item = .ok bits) : bits = item.bits kind.storage := by
  have integer {t : IntType} {get : Nat → Value → Except Panic Int}
      (given : ∀ n v i, get n v = .ok i → v = .integer i)
      (taken : t.toBits <$> item.value get 0 = .ok bits) : bits = item.bits (.int t) := by
    cases value : item.value get 0 with
    | error panic =>
        rw [value] at taken
        cases taken
    | ok i =>
        rw [value] at taken
        cases taken
        obtain ⟨v, rfl, got⟩ := itemValue_eq_ok value
        rw [given 0 v i got]
        rfl
  have real {bytes : Nat} (taken : item.value (getReal bytes) 0 = .ok bits) :
      bits = item.bits (.real bytes) := by
    obtain ⟨v, rfl, got⟩ := itemValue_eq_ok taken
    rw [getReal_given got]
    rfl
  cases kind with
  | bool =>
      cases value : item.value getBoolean 0 with
      | error panic =>
          rw [ListKind.itemBits, value] at taken
          cases taken
      | ok a =>
          rw [ListKind.itemBits, value] at taken
          cases taken
          obtain ⟨v, rfl, got⟩ := itemValue_eq_ok value
          rw [getBoolean_given got]
          rfl
  | i8 => exact integer (fun _ _ _ => getByteArg_given) taken
  | u8 => exact integer (fun _ _ _ => getByteArg_given) taken
  | i16 => exact integer (fun _ _ _ => getInteger_given) taken
  | u16 => exact integer (fun _ _ _ => getInteger_given) taken
  | i32 => exact integer (fun _ _ _ => getInteger_given) taken
  | u32 => exact integer (fun _ _ _ => getInteger_given) taken
  | i64 => exact integer (fun _ _ _ => getInteger_given) taken
  | u64 => exact integer (fun _ _ _ => getInteger_given) taken
  | f32 => exact real taken
  | f64 => exact real taken

/-! ## Setters that succeed -/

section
variable {b b' : Builder} {p : BuilderPtr} {index : Nat}

/-- The operation of the builder behind a setter. -/
def storeField (s : Storage) (body : BPtr) (offset bits : Nat) : BuildM Unit :=
  match s with
  | .bool => Builder.setBool body offset (bits.testBit 0)
  | .int t => Builder.setScalar t.bytes body offset bits
  | .real bytes => Builder.setScalar bytes body offset bits

/-- A setter of the module is that operation, for what it can store. -/
def StoresBy (set : BuilderPtr → Nat → Value → Option Value → CfunM Unit) (s : Storage) : Prop :=
  ∀ (p : BuilderPtr) (b : Builder) (offset : Nat) (value : Value) (dflt : Option Value),
    offset < 2 ^ 32 → s.Holds value → s.HoldsDefault dflt →
      s.step * offset + s.width ≤ p.dwords * 64 → ∃ caller, set p offset value dflt b =
        CfunM.checkBuilderResult caller
          (storeField s p.body offset (s.toBits value ^^^ s.defaultBits dflt)) b

theorem setInteger_stores {t : IntType} {caller : String} {getArg : Nat → Value → Except Panic Int}
    (accepts : ∀ n i, t.InRange i → getArg n (.integer i) = .ok i) :
    StoresBy (setInteger t caller getArg) (.int t) := by
  intro p b offset value dflt small holds default inside
  simp only [Storage.step, Storage.width] at inside
  exact ⟨caller, setInteger_eq accepts small holds default (by omega)⟩

theorem setReal_stores (bytes : Nat) (caller : String) :
    StoresBy (setReal bytes caller) (.real bytes) := by
  intro p b offset value dflt small holds default inside
  simp only [Storage.step, Storage.width] at inside
  exact ⟨caller, setReal_eq small holds default (by omega)⟩

theorem cfunSetBool_stores : StoresBy cfunSetBool .bool := by
  intro p b offset value dflt small holds default inside
  simp only [Storage.step, Storage.width] at inside
  exact ⟨_, cfunSetBool_eq small holds default (by omega)⟩

theorem set_storesBy (a : Accessor) : StoresBy a.set a.storage := by
  have byte (t : IntType) (narrow : t.bytes = 1) (typeName caller : String) :
      StoresBy (setInteger t caller (getByteArg t typeName caller)) (.int t) :=
    setInteger_stores fun n _ inRange => getByteArg_ok narrow typeName caller n inRange
  have wide (t : IntType) (caller : String) : StoresBy (setInteger t caller (getInteger t)) (.int t) :=
    setInteger_stores fun n _ inRange => getInteger_ok n inRange
  cases a with
  | bool => exact cfunSetBool_stores
  | i8 => exact byte .i8 rfl "Int8" "capnp/set-i8"
  | u8 => exact byte .u8 rfl "UInt8" "capnp/set-u8"
  | i16 => exact wide .i16 "capnp/set-i16"
  | u16 => exact wide .u16 "capnp/set-u16"
  | i32 => exact wide .i32 "capnp/set-i32"
  | u32 => exact wide .u32 "capnp/set-u32"
  | i64 => exact wide .i64 "capnp/set-i64"
  | u64 => exact wide .u64 "capnp/set-u64"
  | f32 => exact setReal_stores 4 "capnp/set-f32"
  | f64 => exact setReal_stores 8 "capnp/set-f64"

/-- A setter stores inside of the data section. -/
theorem set_eq_ok {a : Accessor} {offset : Nat} {value : Value} {dflt : Option Value}
    (short : p.dwords < 2 ^ 16) (run : a.set p offset value dflt b = .ok () b') :
    a.storage.step * offset + a.storage.width ≤ p.dwords * 64 ∧
      storeField a.storage p.body offset (a.storage.toBits value ^^^ a.storage.defaultBits dflt) b =
        .ok () b' := by
  obtain ⟨⟨inside, holds, default⟩, -⟩ := a.set_refuses p b b' offset value dflt run
  have small : offset < 2 ^ 32 := by
    have some : 1 ≤ a.storage.step := by cases a <;> decide
    have le := Nat.mul_le_mul_right offset some
    omega
  obtain ⟨caller, same⟩ := set_storesBy a p b offset value dflt small holds default inside
  rw [same] at run
  exact ⟨inside, checkBuilderResult_eq_ok.mp run⟩

theorem cfunSetText_eq_ok {value : Argument} (run : cfunSetText p index value b = .ok () b') :
    index < p.pwords ∧ Builder.setText p.body p.dwords index value.text b = .ok () b' := by
  obtain ⟨inside, view, taken, done⟩ := pointer_eq_ok run
  obtain ⟨one, rfl, got⟩ := single_eq_ok taken
  rw [getBytes_eq_ok got] at done
  exact ⟨inside, done⟩

theorem cfunSetData_eq_ok {value : Argument} (run : cfunSetData p index value b = .ok () b') :
    index < p.pwords ∧ Builder.setDataList p.body p.dwords index value.text b = .ok () b' := by
  obtain ⟨inside, view, taken, done⟩ := pointer_eq_ok run
  obtain ⟨one, rfl, got⟩ := single_eq_ok taken
  rw [getBytes_eq_ok got] at done
  exact ⟨inside, done⟩

theorem cfunSetListVoid_eq_ok {count : Argument}
    (run : cfunSetListVoid p index count b = .ok () b') :
    index < p.pwords ∧ Builder.setListVoid p.body p.dwords index count.count b = .ok () b' := by
  obtain ⟨inside, n, taken, done⟩ := pointer_eq_ok run
  obtain ⟨one, rfl, got⟩ := single_eq_ok taken
  obtain ⟨v, rfl, given⟩ := itemValue_eq_ok got
  rw [getInteger_given given]
  exact ⟨inside, done⟩

/-- A pointer is checked, and the items of an argument are converted one by one. -/
theorem items_eq_ok {α β : Type} {caller : String} {values : Argument} {convertItem : ArgItem → Except Panic α}
    {g : ArgItem → β} {h : α → β} (given : ∀ item a, convertItem item = .ok a → h a = g item)
    {write : List α → BuildM Unit}
    (run : (do
      getPointerIndex p index caller
      let view ← CfunM.convert (values.getIndexed 2)
      let as ← CfunM.convert (view.items.mapM convertItem)
      CfunM.checkBuilderResult caller (write as)) b = .ok () b') :
    index < p.pwords ∧ ∃ as, as.map h = values.items.map g ∧ write as b = .ok () b' := by
  obtain ⟨_, _, indexed, run⟩ := bind_eq_ok.mp run
  obtain ⟨inside, rfl⟩ := getPointerIndex_ok indexed
  obtain ⟨view, _, converted, run⟩ := bind_eq_ok.mp run
  obtain ⟨taken, rfl⟩ := convert_eq_ok.mp converted
  obtain ⟨as, _, converted, run⟩ := bind_eq_ok.mp run
  obtain ⟨items, rfl⟩ := convert_eq_ok.mp converted
  rw [← getIndexed_eq_ok taken]
  exact ⟨inside, as, mapM_eq_ok given items, checkBuilderResult_eq_ok.mp run⟩

theorem cfunSetList_eq_ok {kind : ListKind} {values : Argument}
    (run : cfunSetList kind p index values b = .ok () b') :
    index < p.pwords ∧ kind.setList p.body p.dwords index
      (values.items.map (ArgItem.bits kind.storage)) b = .ok () b' := by
  obtain ⟨inside, bits, same, done⟩ :=
    items_eq_ok (g := ArgItem.bits kind.storage) (h := id) (fun _ _ => itemBits_eq_ok) run
  rw [List.map_id] at same
  rw [← same]
  exact ⟨inside, done⟩

theorem cfunSetListText_eq_ok {values : Argument}
    (run : cfunSetListText p index values b = .ok () b') :
    index < p.pwords ∧
      Builder.setListTextN p.body p.dwords index (values.items.map ArgItem.text) b = .ok () b' := by
  obtain ⟨inside, views, same, done⟩ :=
    items_eq_ok (g := ArgItem.text) (h := ByteView.bytes) (fun _ _ => getBytes_eq_ok) run
  rw [← same]
  exact ⟨inside, done⟩

end

end Janet

end CapnpJanet
