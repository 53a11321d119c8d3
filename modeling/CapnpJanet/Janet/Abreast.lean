import CapnpJanet.Builder.Room
import CapnpJanet.Janet.Simulation

/-!
# Functions of the module on two builders

A function of the module that is called with the same arguments on structs of the same
sizes, in two builders without limits, succeeds on both or panics on both with the same
message.  Every check is made on the arguments and the sizes; and where the checks have
passed, there is room in the one builder when there is room in the other.
-/

namespace CapnpJanet

open ByteMemory Outcome Builder Run Codegen Draft

namespace Janet

open CfunM

/-! ## Checks -/

section
variable {b b' : Builder} {p p' : BuilderPtr}

/-- An argument that both convert. -/
theorem after_convert {α β γ : Type} {R : β → γ → Prop} (given : Except Panic α)
    {f : α → CfunM β} {g : α → CfunM γ} (rest : ∀ a, Abreast R (f a b) (g a b')) :
    Abreast R ((convert given >>= f) b) ((convert given >>= g) b') := by
  cases given with
  | ok a => exact rest a
  | error panic => exact .error

/-- A pointer index that both check. -/
theorem after_pointerIndex {β γ : Type} {R : β → γ → Prop} (same : p.pwords = p'.pwords)
    {index : Nat} {caller : String} {f : Unit → CfunM β} {g : Unit → CfunM γ}
    (rest : index < p.pwords → index < p'.pwords → Abreast R (f () b) (g () b')) :
    Abreast R ((getPointerIndex p index caller >>= f) b)
      ((getPointerIndex p' index caller >>= g) b') := by
  have checks : Abreast (fun _ _ => True) (getPointerIndex p index caller b)
      (getPointerIndex p' index caller b') := by
    unfold getPointerIndex
    rw [same]
    split
    · exact .error
    · split
      · exact .error
      · exact .ok trivial
  exact .after_look (getPointerIndex_looks _ _ _) (getPointerIndex_looks _ _ _) checks
    fun _ _ checked checked' _ => rest (getPointerIndex_ok checked).1 (getPointerIndex_ok checked').1

theorem getWordCount_abreast (n count : Nat) (caller : String) :
    Abreast (fun _ _ => True) (getWordCount n count caller b) (getWordCount n count caller b') := by
  unfold getWordCount
  split
  · exact .error
  · split
    · exact .error
    · exact .ok trivial

/-- A number of words that both check. -/
theorem after_wordCount {β γ : Type} {R : β → γ → Prop} {n count : Nat} {caller : String}
    {f : Unit → CfunM β} {g : Unit → CfunM γ}
    (rest : count < 2 ^ 16 → Abreast R (f () b) (g () b')) :
    Abreast R ((getWordCount n count caller >>= f) b) ((getWordCount n count caller >>= g) b') :=
  .after_look (getWordCount_looks _ _ _) (getWordCount_looks _ _ _) (getWordCount_abreast _ _ _)
    fun _ _ counted _ _ => rest (getWordCount_ok counted).1

theorem requireDataRange_abreast (same : p.dwords = p'.dwords) (offset width : Nat)
    (caller : String) :
    Abreast (fun _ _ => True) (requireDataRange p offset width caller b)
      (requireDataRange p' offset width caller b') := by
  unfold requireDataRange
  rw [same]
  split
  · exact .error
  · exact .ok trivial

theorem requireBoolRange_abreast (same : p.dwords = p'.dwords) (offset : Nat) (caller : String) :
    Abreast (fun _ _ => True) (requireBoolRange p offset caller b)
      (requireBoolRange p' offset caller b') := by
  unfold requireBoolRange
  rw [same]
  split
  · exact .error
  · exact .ok trivial

/-- A function of the module ends as the operation of the builder does. -/
theorem checkBuilderResult_abreast {α β : Type} {R : α → β → Prop} {x : BuildM α} {y : BuildM β}
    (abreast : Abreast R (x b) (y b')) (caller : String) :
    Abreast R (checkBuilderResult caller x b) (checkBuilderResult caller y b') := by
  unfold checkBuilderResult
  cases run : x b with
  | ok a b₁ =>
      obtain ⟨a', b₁', run', related⟩ := abreast.ok_of_ok run
      rw [run']
      exact .ok related
  | error rc b₁ =>
      obtain ⟨b₁', run'⟩ := abreast.error_of_error run
      rw [run']
      exact .error

end

/-- There is room for a struct in both. -/
theorem struct_abreast {b b' : Builder} (unlimited : Unlimited b) (unlimited' : Unlimited b')
    (slot slot' : BPtr) {dwords pwords : Nat} (dwordsLt : dwords < 2 ^ 16)
    (pwordsLt : pwords < 2 ^ 16) :
    Abreast (fun _ _ => True) (Builder.struct slot dwords pwords b)
      (Builder.struct slot' dwords pwords b') := by
  obtain ⟨body, _, made⟩ := struct_total unlimited slot dwordsLt pwordsLt
  obtain ⟨body', _, made'⟩ := struct_total unlimited' slot' dwordsLt pwordsLt
  exact .of_ok made made' trivial

/-! ## Structs of the same sizes -/

/-- A struct has its words in a builder without limits. -/
structure Sits (p : BuilderPtr) (b : Builder) : Prop where
  unlimited : Unlimited b
  inUse : p.InUse b

theorem Sits.slot {p : BuilderPtr} {b : Builder} (sits : Sits p b) {index : Nat}
    (inside : index < p.pwords) : b.Used p.body.seg (p.body.word + p.dwords + index) := by
  have room := sits.inUse.inside
  unfold Used
  omega

/-- A field of the data section can be stored. -/
theorem Sits.bodyOk {p : BuilderPtr} {b : Builder} (sits : Sits p b) {offset width : Nat}
    (some : 0 < width) (inside : offset + width ≤ p.dwords * 8) :
    b.bodyOk p.body (p.body.word * 8 + offset + width) = true := by
  have room := sits.inUse.inside
  have used : b.Used p.body.seg p.body.word := by
    unfold Used
    omega
  exact (bodyOk_iff _ _).mpr ⟨sits.unlimited.wf.lt_of_used used, by omega⟩

theorem Sits.setScalar_total {p : BuilderPtr} {b : Builder} (sits : Sits p b) {offset width : Nat}
    (some : 0 < width) (inside : offset + width ≤ p.dwords * 8) (value : Nat) :
    ∃ b', Builder.setScalar width p.body offset value b = .ok () b' := by
  unfold Builder.setScalar
  dsimp only
  rw [if_neg (not_not.mpr (sits.bodyOk some inside))]
  exact ⟨_, rfl⟩

theorem Sits.setBool_total {p : BuilderPtr} {b : Builder} (sits : Sits p b) {offset : Nat}
    (inside : offset < p.dwords * 64) (value : Bool) :
    ∃ b', Builder.setBool p.body offset value b = .ok () b' := by
  unfold Builder.setBool
  dsimp only
  rw [if_neg (not_not.mpr (sits.bodyOk Nat.one_pos (by omega)))]
  exact ⟨_, rfl⟩

section
variable {b b' : Builder} {p p' : BuilderPtr} (sits : Sits p b) (sits' : Sits p' b')
  (sameData : p.dwords = p'.dwords) (samePtrs : p.pwords = p'.pwords)
include sits sits'

section
include sameData

/-- A range that both check, and then a value that both store. -/
theorem setScalar_abreast {width : Nat} (some : 0 < width) (caller : String)
    (offset value : Nat) :
    Abreast (fun _ _ => True)
      ((do
        requireDataRange p offset width caller
        checkBuilderResult caller (Builder.setScalar width p.body offset value)) b)
      ((do
        requireDataRange p' offset width caller
        checkBuilderResult caller (Builder.setScalar width p'.body offset value)) b') := by
  refine .after_look (requireDataRange_looks _ _ _ _) (requireDataRange_looks _ _ _ _)
    (requireDataRange_abreast sameData _ _ _) fun _ _ checked checked' _ => ?_
  obtain ⟨_, stored⟩ := sits.setScalar_total some (requireDataRange_eq_ok checked) value
  obtain ⟨_, stored'⟩ := sits'.setScalar_total some (requireDataRange_eq_ok checked') value
  exact checkBuilderResult_abreast (.of_ok stored stored' trivial) caller

theorem setInteger_abreast {t : IntType} (caller : String)
    (getArg : Nat → Value → Except Panic Int) (offset : Nat) (value : Value) (dflt : Option Value) :
    Abreast (fun _ _ => True) (setInteger t caller getArg p offset value dflt b)
      (setInteger t caller getArg p' offset value dflt b') := by
  have some : 0 < t.bytes := by cases t <;> decide
  unfold setInteger
  split
  · exact .error
  refine after_convert _ fun value => after_convert _ fun dflt => ?_
  exact setScalar_abreast sits sits' sameData some caller offset _

theorem setReal_abreast {bytes : Nat} (some : 0 < bytes) (caller : String) (offset : Nat)
    (value : Value) (dflt : Option Value) :
    Abreast (fun _ _ => True) (setReal bytes caller p offset value dflt b)
      (setReal bytes caller p' offset value dflt b') := by
  unfold setReal
  split
  · exact .error
  refine after_convert _ fun value => after_convert _ fun dflt => ?_
  exact setScalar_abreast sits sits' sameData some caller offset _

theorem cfunSetBool_abreast (offset : Nat) (value : Value) (dflt : Option Value) :
    Abreast (fun _ _ => True) (cfunSetBool p offset value dflt b)
      (cfunSetBool p' offset value dflt b') := by
  unfold cfunSetBool
  split
  · exact .error
  refine after_convert _ fun value => after_convert _ fun dflt => ?_
  refine .after_look (requireBoolRange_looks _ _ _) (requireBoolRange_looks _ _ _)
    (requireBoolRange_abreast sameData _ _) fun _ _ checked checked' _ => ?_
  obtain ⟨_, stored⟩ := sits.setBool_total (requireBoolRange_eq_ok checked) _
  obtain ⟨_, stored'⟩ := sits'.setBool_total (requireBoolRange_eq_ok checked') _
  exact checkBuilderResult_abreast (.of_ok stored stored' trivial) _

theorem set_abreast (a : Accessor) (offset : Nat) (value : Value) (dflt : Option Value) :
    Abreast (fun _ _ => True) (a.set p offset value dflt b) (a.set p' offset value dflt b') := by
  have integer (t : IntType) (caller : String) (getArg : Nat → Value → Except Panic Int) :
      Abreast (fun _ _ => True) (setInteger t caller getArg p offset value dflt b)
        (setInteger t caller getArg p' offset value dflt b') :=
    setInteger_abreast sits sits' sameData caller getArg offset value dflt
  have real (bytes : Nat) (some : 0 < bytes) (caller : String) :
      Abreast (fun _ _ => True) (setReal bytes caller p offset value dflt b)
        (setReal bytes caller p' offset value dflt b') :=
    setReal_abreast sits sits' sameData some caller offset value dflt
  cases a with
  | bool => exact cfunSetBool_abreast sits sits' sameData offset value dflt
  | i8 => exact integer .i8 "capnp/set-i8" (getI8Arg "capnp/set-i8")
  | u8 => exact integer .u8 "capnp/set-u8" (getU8Arg "capnp/set-u8")
  | i16 => exact integer .i16 "capnp/set-i16" (getInteger .i16)
  | u16 => exact integer .u16 "capnp/set-u16" (getInteger .u16)
  | i32 => exact integer .i32 "capnp/set-i32" (getInteger .i32)
  | u32 => exact integer .u32 "capnp/set-u32" (getInteger .u32)
  | i64 => exact integer .i64 "capnp/set-i64" (getInteger .i64)
  | u64 => exact integer .u64 "capnp/set-u64" (getInteger .u64)
  | f32 => exact real 4 (by decide) "capnp/set-f32"
  | f64 => exact real 8 (by decide) "capnp/set-f64"

end

include samePtrs

omit sits sits' in
/-- A pointer is checked, an argument converted, and a pointer written. -/
theorem pointer_abreast {α : Type} {index : Nat} {caller : String} (given : Except Panic α)
    {write write' : α → BuildM Unit}
    (rest : ∀ a, index < p.pwords → index < p'.pwords →
      Abreast (fun _ _ => True) (write a b) (write' a b')) :
    Abreast (fun _ _ => True)
      ((do
        getPointerIndex p index caller
        let a ← convert given
        checkBuilderResult caller (write a)) b)
      ((do
        getPointerIndex p' index caller
        let a ← convert given
        checkBuilderResult caller (write' a)) b') := by
  refine after_pointerIndex samePtrs fun inside inside' => after_convert _ fun a => ?_
  exact checkBuilderResult_abreast (rest a inside inside') caller

theorem cfunClearPointer_abreast (index : Nat) :
    Abreast (fun _ _ => True) (cfunClearPointer p index b) (cfunClearPointer p' index b') := by
  unfold cfunClearPointer
  refine after_pointerIndex samePtrs fun inside inside' => checkBuilderResult_abreast ?_ _
  unfold Builder.clearPtr
  rw [slot_of_used (sits.slot inside), slot_of_used (sits'.slot inside')]
  exact .ok trivial

omit samePtrs in
/-- There is room for a list in the slots of both, or in neither. -/
theorem withSlot_abreast {index : Nat} (inside : index < p.pwords) (inside' : index < p'.pwords)
    (esize : ElemSize) (count nbytes : Nat) (fill : Memory → Nat → Memory) :
    Abreast (fun _ _ => True)
      (withSlot p.body p.dwords index
        (fun seg word => writeListBody seg word esize count nbytes fill) b)
      (withSlot p'.body p'.dwords index
        (fun seg word => writeListBody seg word esize count nbytes fill) b') := by
  rw [withSlot_of_used (sits.slot inside), withSlot_of_used (sits'.slot inside')]
  exact writeListBody_abreast sits.unlimited sits'.unlimited _ _ _ _ _ _ _ _ _

theorem cfunSetText_abreast (index : Nat) (value : Argument) :
    Abreast (fun _ _ => True) (cfunSetText p index value b) (cfunSetText p' index value b') := by
  refine pointer_abreast samePtrs _ fun view inside inside' => ?_
  exact withSlot_abreast sits sits' inside inside' _ _ _ _

theorem cfunSetData_abreast (index : Nat) (value : Argument) :
    Abreast (fun _ _ => True) (cfunSetData p index value b) (cfunSetData p' index value b') := by
  refine pointer_abreast samePtrs _ fun view inside inside' => ?_
  exact withSlot_abreast sits sits' inside inside' _ _ _ _

omit samePtrs in
theorem setList_abreast {index : Nat} (inside : index < p.pwords) (inside' : index < p'.pwords)
    (kind : ListKind) (bits : List Nat) :
    Abreast (fun _ _ => True) (kind.setList p.body p.dwords index bits b)
      (kind.setList p'.body p'.dwords index bits b') := by
  cases kind <;> exact withSlot_abreast sits sits' inside inside' _ _ _ _

theorem cfunSetList_abreast (kind : ListKind) (index : Nat) (values : Argument) :
    Abreast (fun _ _ => True) (cfunSetList kind p index values b)
      (cfunSetList kind p' index values b') := by
  unfold cfunSetList cfunSetListValues
  refine after_pointerIndex samePtrs fun inside inside' => ?_
  refine after_convert _ fun view => after_convert _ fun bits => ?_
  exact checkBuilderResult_abreast (setList_abreast sits sits' inside inside' kind bits) _

theorem cfunSetListText_abreast (index : Nat) (values : Argument) :
    Abreast (fun _ _ => True) (cfunSetListText p index values b)
      (cfunSetListText p' index values b') := by
  unfold cfunSetListText
  refine after_pointerIndex samePtrs fun inside inside' => ?_
  refine after_convert _ fun view => after_convert _ fun views => ?_
  have short : ∀ text ∈ views.map ByteView.bytes, text.length < 2 ^ 31 := by
    intro text member
    obtain ⟨view, -, rfl⟩ := List.mem_map.mp member
    exact view.short
  have slot := sits.slot inside
  have slot' := sits'.slot inside'
  refine checkBuilderResult_abreast ?_ _
  by_cases few : (views.map ByteView.bytes).length ≤ builderMaxSegmentWords
  · obtain ⟨_, done⟩ := sits.unlimited.setListTextN_total slot short few
    obtain ⟨_, done'⟩ := sits'.unlimited.setListTextN_total slot' short few
    exact .of_ok done done' trivial
  · exact .of_error (sits.unlimited.setListTextN_refused slot (not_le.mp few))
      (sits'.unlimited.setListTextN_refused slot' (not_le.mp few))

theorem cfunSetListVoid_abreast (index : Nat) (count : Argument) :
    Abreast (fun _ _ => True) (cfunSetListVoid p index count b)
      (cfunSetListVoid p' index count b') :=
  pointer_abreast samePtrs _ fun _ inside inside' =>
    withSlot_abreast sits sits' inside inside' _ _ _ _

/-- New structs have the same sizes. -/
theorem cfunInitStruct_abreast (index dwords pwords : Nat) :
    Abreast (fun q q' => q.dwords = q'.dwords ∧ q.pwords = q'.pwords)
      (cfunInitStruct p index dwords pwords b) (cfunInitStruct p' index dwords pwords b') := by
  unfold cfunInitStruct
  refine after_pointerIndex samePtrs fun inside inside' => ?_
  refine after_wordCount fun dwordsLt => after_wordCount fun pwordsLt => ?_
  have slots : Abreast (fun _ _ => True) (Builder.slot p.body p.dwords index b)
      (Builder.slot p'.body p'.dwords index b') :=
    .of_ok (slot_of_used (sits.slot inside)) (slot_of_used (sits'.slot inside')) trivial
  refine .after_look (checkBuilderResult_looks (Builder.slot_looks _ _ _))
    (checkBuilderResult_looks (Builder.slot_looks _ _ _)) (checkBuilderResult_abreast slots _)
    fun slot slot' _ _ _ => ?_
  have structs := struct_abreast sits.unlimited sits'.unlimited slot slot' dwordsLt pwordsLt
  exact (checkBuilderResult_abreast structs _).before_pure fun _ _ _ => ⟨rfl, rfl⟩

/-- New lists have the same sizes. -/
theorem cfunInitStructList_abreast (index count dwords pwords : Nat) :
    Abreast (fun l l' => l.count = l'.count ∧ l.elemDwords = l'.elemDwords ∧
        l.elemPwords = l'.elemPwords)
      (cfunInitStructList p index count dwords pwords b)
      (cfunInitStructList p' index count dwords pwords b') := by
  unfold cfunInitStructList
  refine after_pointerIndex samePtrs fun inside inside' => ?_
  have slot := sits.slot inside
  have slot' := sits'.slot inside'
  split
  · exact .error
  refine after_wordCount fun dwordsLt => after_wordCount fun pwordsLt => ?_
  have made : Abreast (fun _ _ => True)
      (Builder.setListStruct p.body p.dwords index count dwords pwords b)
      (Builder.setListStruct p'.body p'.dwords index count dwords pwords b') := by
    by_cases few : 1 + count * (dwords + pwords) ≤ builderMaxSegmentWords
    · obtain ⟨_, _, done⟩ := sits.unlimited.setListStruct_total slot few
      obtain ⟨_, _, done'⟩ := sits'.unlimited.setListStruct_total slot' few
      exact .of_ok done done' trivial
    · exact .of_error (sits.unlimited.setListStruct_refused slot (not_le.mp few))
        (sits'.unlimited.setListStruct_refused slot' (not_le.mp few))
  exact (checkBuilderResult_abreast made _).before_pure fun _ _ _ => ⟨rfl, rfl, rfl⟩

theorem cfunInitStructListOf_abreast (index : Nat) (count : Argument) (dwords pwords : Nat) :
    Abreast (fun l l' => l.count = l'.count ∧ l.elemDwords = l'.elemDwords ∧
        l.elemPwords = l'.elemPwords)
      (cfunInitStructListOf p index count dwords pwords b)
      (cfunInitStructListOf p' index count dwords pwords b') := by
  unfold cfunInitStructListOf
  split
  · exact cfunInitStructList_abreast sits sits' samePtrs index _ dwords pwords
  · exact after_pointerIndex samePtrs fun _ _ => .error

end

end Janet

end CapnpJanet
