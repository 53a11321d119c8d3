import CapnpJanet.Builder.Ceiling
import CapnpJanet.Builder.Patches
import CapnpJanet.Builder.Session
import CapnpJanet.Builder.Single
import CapnpJanet.Value.ReadBack

/-!
# Lengths of lists

The list setters take counts of 32 bits.  A list pointer has 29 bits for its
count, and the tag of a struct list a signed field of 30 bits, of which the
reader undoes the sign extension.  The setters mask a count to its field without
a check.  A list is found as it was given exactly if its counts fit.
-/

namespace CapnpJanet

open ByteMemory Outcome

namespace Builder

/-! ## What a body holds -/

section
variable {mem : Memory} {p : Nat}

theorem loadLe_storeElems (width : Nat) (items : Nat → Nat) (mem : Memory) (p : Nat) {n i : Nat}
    (hi : i < n) :
    loadLe width (storeElems width items mem p n) (p + i * width) = items i % 256 ^ width := by
  induction n with
  | zero => exact absurd hi (Nat.not_lt_zero i)
  | succ n ih =>
      rw [storeElems]
      rcases Nat.lt_succ_iff_lt_or_eq.mp hi with before | rfl
      · have room : i * width + width ≤ n * width := by
          calc i * width + width = (i + 1) * width := by ring
            _ ≤ n * width := Nat.mul_le_mul_right _ before
        rw [loadLe_storeLe_disjoint (by omega), ih before]
      · exact loadLe_storeLe _ _ _ _

/-- Bit `k` of a byte. -/
def bitOf (byte : UInt8) (k : Nat) : Bool := byte.toNat / 2 ^ k % 2 == 1

theorem bitOf_eq_testBit (byte : UInt8) (k : Nat) : bitOf byte k = byte.toNat.testBit k := by
  rw [bitOf, Nat.testBit_eq_decide_div_mod_eq]
  rfl

theorem bitOf_withBit (byte : UInt8) {j : Nat} (hj : j < 8) (k : Nat) :
    bitOf (withBit byte j true) k = (bitOf byte k || decide (j = k)) := by
  rw [bitOf_eq_testBit, bitOf_eq_testBit, testBit_withBit byte hj]
  by_cases here : k = j
  · simp [here]
  · simp [here, Ne.symm here]

/-- The bits of a body that was zero are the items. -/
theorem bitOf_storeBits (items : Nat → Bool) {n : Nat} (i : Nat)
    (clear : mem (p + i / 8) = 0) :
    bitOf (storeBits items mem p n (p + i / 8)) (i % 8) = (decide (i < n) && items i) := by
  induction n with
  | zero => simp [storeBits, clear, bitOf]
  | succ n ih =>
      rw [storeBits]
      by_cases set : items n = true
      · rw [if_pos set]
        by_cases here : i / 8 = n / 8
        · have byte : blit 1 (storeBits items mem p n) (p + n / 8)
              (fun _ => withBit (storeBits items mem p n (p + n / 8)) (n % 8) true) (p + i / 8) =
                withBit (storeBits items mem p n (p + i / 8)) (n % 8) true := by
            rw [here]
            exact blit_inside Nat.one_pos
          rw [byte, bitOf_withBit _ (Nat.mod_lt _ (by decide)), ih]
          by_cases same : i = n
          · rw [same, set]
            simp
          · have other : n % 8 ≠ i % 8 := by omega
            simp only [other, decide_false, Bool.or_false]
            congr 1
            exact decide_eq_decide.mpr (by omega)
        · rw [blit_outside (by omega), ih]
          congr 1
          exact decide_eq_decide.mpr (by omega)
      · rw [if_neg set, ih]
        by_cases same : i = n
        · rw [same]
          simp [set]
        · congr 1
          exact decide_eq_decide.mpr (by omega)

end

/-! ## Bodies and their slots -/

/-- Since the builder was `b₀`, a body of fresh words has been filled in, and a slot
leads to it. -/
structure Hosts (b₀ b : Builder) (make : Int → Nat) (slot host : BPtr) (words : Nat)
    (content : Nat → UInt8) : Prop where
  wf : b.Wf
  inUse : b.Used slot.seg slot.word
  leads : b.Leads make host.seg host.word (fun s w => ¬b₀.Used s w) slot.seg slot.word
  segLt : host.seg < b.nsegs
  inside : host.word + words ≤ (b.seg host.seg).words
  fresh : ∀ i < words, ¬b₀.Used host.seg (host.word + i)
  bytes : ∀ i < words * 8, (b.seg host.seg).data (host.word * 8 + i) = content i

section
variable {b₀ b b' : Builder} {make : Int → Nat} {slot host : BPtr} {words : Nat}
  {content : Nat → UInt8}

/-- Writing words that were in use before, but not the slot, leaves a body and its
slot alone. -/
theorem Hosts.later {touched : Nat → Nat → Prop} (hosts : Hosts b₀ b make slot host words content)
    (writes : Writes touched b b') (old : ∀ s i, touched s i → b₀.Used s (i / 8))
    (apart : ∀ i, i / 8 = slot.word → ¬touched slot.seg i) :
    Hosts b₀ b' make slot host words content where
  wf := writes.wf
  inUse := writes.used hosts.inUse
  leads := by
    refine hosts.leads.congr ?_ writes.words_le fun s w held inUse => ?_
    · exact writes.wordAt_eq hosts.inUse fun i word => apart i word
    · refine writes.wordAt_eq inUse fun i word touches => held ?_
      rw [← word]
      exact old s i touches
  segLt := hosts.segLt.trans_le writes.nsegs_le
  inside := hosts.inside.trans (writes.words_le _)
  fresh := hosts.fresh
  bytes i hi := by
    have below := hosts.inside
    rw [← hosts.bytes i hi]
    refine writes.kept _ _ (by omega) fun touches => hosts.fresh (i / 8) (by omega) ?_
    have inUse := old _ _ touches
    rwa [show (host.word * 8 + i) / 8 = host.word + i / 8 by omega] at inUse

/-- An object that has been placed is hosted, unless a segment is above the limit. -/
theorem Placed.hosts (placed : Placed b slot host words make b') (inLimit : b'.InLimit)
    (inUse : b.Used slot.seg slot.word) (some : words ≠ 0)
    (bytes : ∀ i < words * 8, (b'.seg host.seg).data (host.word * 8 + i) = content i) :
    Hosts b b' make slot host words content where
  wf := placed.writes.wf
  inUse := placed.writes.used inUse
  leads := (placed.leads inLimit).mono fun _ _ own _ => own.1
  segLt := by
    have inside := placed.inside
    refine placed.writes.wf.lt_of_used (w := host.word) ?_
    unfold Used
    omega
  inside := placed.inside
  fresh i _ := placed.fresh i
  bytes := bytes

/-- A list without a body is behind its slot. -/
theorem hosts_empty (wf : b.Wf) (inUse : b.Used slot.seg slot.word) (makeLt : ∀ off, make off < 2 ^ 64)
    (run : writePtr make slot.seg slot.word slot.seg (slot.word + 1) b = .ok () b')
    (content : Nat → UInt8) :
    Hosts b b' make slot ⟨slot.seg, slot.word + 1⟩ 0 content := by
  unfold writePtr at run
  rw [if_pos rfl] at run
  cases run
  have near : ((slot.word + 1 : Nat) : Int) - slot.word - 1 = 0 := by omega
  refine ⟨(writes_storeW wf inUse _).wf, storeW_used.mpr inUse, ?_, wf.lt_of_used inUse, ?_, nofun,
    nofun⟩
  · refine .near (wordAt_storeW_self _ _ _ (makeLt _)) ?_
    dsimp only
    rw [near]
    constructor <;> decide
  · rw [storeW_words]
    exact inUse

theorem writeListBody_hosts (wf : b.Wf) (inLimit : b'.InLimit) {esize : ElemSize}
    {count nbytes : Nat} {fill : Memory → Nat → Memory} (inUse : b.Used slot.seg slot.word)
    (fills : FillsOnly nbytes fill)
    (run : writeListBody slot.seg slot.word esize count nbytes fill b = .ok () b') :
    ∃ (host : BPtr) (mem : Memory), (∀ i < wordsFor nbytes * 8, mem (host.word * 8 + i) = 0) ∧
      Hosts b b' (fun off => wpMakeList off esize count) slot host (wordsFor nbytes)
        fun i => fill mem (host.word * 8) (host.word * 8 + i) := by
  by_cases empty : wordsFor nbytes = 0
  · unfold writeListBody at run
    rw [if_neg (not_not.mpr empty)] at run
    rw [empty]
    exact ⟨_, fun _ => 0, nofun, hosts_empty wf inUse (fun off => wpMakeList_lt _ _ _) run _⟩
  · obtain ⟨host, mem, placed, cleared, bytes⟩ := writeListBody_placed wf inUse empty fills run
    exact ⟨host, mem, cleared, placed.hosts inLimit inUse empty bytes⟩

/-! ## Texts -/

/-- What has been written since `b₀` has been written since an earlier builder. -/
theorem Hosts.earlier {b₁ : Builder} (hosts : Hosts b₁ b make slot host words content)
    (used : ∀ s w, b₀.Used s w → b₁.Used s w) : Hosts b₀ b make slot host words content :=
  { hosts with
    leads := hosts.leads.mono fun s w unused _ before => unused (used s w before)
    fresh := fun i hi before => hosts.fresh i hi (used _ _ before) }

theorem writeTextAt_hosts (wf : b.Wf) (inLimit : b'.InLimit) {text : List UInt8}
    (inUse : b.Used slot.seg slot.word) (run : writeTextAt slot.seg slot.word text b = .ok () b') :
    ∃ host, Hosts b b' (fun off => wpMakeList off .byte (text.length + 1)) slot host
      (wordsFor (text.length + 1)) (ofList text) := by
  obtain ⟨host, mem, cleared, hosts⟩ :=
    writeListBody_hosts wf inLimit inUse (fillBytes_fillsOnly (Nat.le_succ _)) run
  refine ⟨host, { hosts with bytes := fun i hi => (hosts.bytes i hi).trans ?_ }⟩
  rw [fillBytes]
  by_cases inside : i < text.length
  · exact blit_inside inside
  · rw [blit_outside (by omega), cleared i hi]
    simp [ofList, not_lt.mp inside]

variable {m : Message}

theorem Hosts.found (hosts : Hosts b₀ b make slot host words content)
    (built : m.BuiltFrom b) (few : m.nsegs < 2 ^ 32) (limit : m.depthLimit = defaultDepthLimit)
    {p : Ptr} {price : Nat} (names : m.Names make host.seg host.word p price) :
    ∃ cost, m.slotTarget m.depthLimit slot.seg slot.word = some (p, cost) := by
  obtain ⟨cost, -, found⟩ := names.slotTarget hosts.leads built hosts.wf few
    (hosts.segLt.trans_eq built.nsegs) hosts.inUse 62
  rw [limit]
  exact ⟨cost, found⟩

/-- A list that is not of structs is found with its count and its bytes. -/
theorem Hosts.list {esize : ElemSize} {count : Nat}
    (hosts : Hosts b₀ b (fun off => wpMakeList off esize count) slot host words content)
    (built : m.BuiltFrom b) (few : m.nsegs < 2 ^ 32)
    (limit : m.depthLimit = defaultDepthLimit) (plain : esize ≠ .composite)
    (countLt : count < 2 ^ 29) (size : listBodyWords esize count ≤ words) :
    ∃ p cost, m.slotTarget m.depthLimit slot.seg slot.word = some (p, cost) ∧
      p = { Ptr.zero with
        seg := host.seg
        word := host.word
        kind := .list
        esize := esize
        count := count } ∧ ∀ k < words * 8, m.listByte p k = content k := by
  have segLt := hosts.segLt
  have sized := built.words host.seg (segLt.trans_eq built.nsegs)
  have inside := hosts.inside
  obtain ⟨cost, found⟩ := hosts.found built few limit
    (Message.names_list (segLt.trans_eq built.nsegs) few plain countLt (by omega))
  refine ⟨_, cost, found, rfl, fun k hk => ?_⟩
  have fits := (m.seg host.seg).fits
  rw [← hosts.bytes k hk, built.bytes _ (segLt.trans_eq built.nsegs) _ (by omega)]
  unfold Message.listByte
  dsimp only
  rw [← sizeT_of_lt (n := host.word * 8 + k) (by omega)]
  congr 2

end

end Builder

/-! ## Lists as they are given -/

namespace Message

/-- A list of these scalars. -/
def HoldsScalars (m : Message) (p : Ptr) (esize : ElemSize) (width n : Nat) (items : Nat → Nat) :
    Prop :=
  p.kind = .list ∧ p.esize = esize ∧ p.count = n ∧
    ∀ i < n, ∀ dflt, m.listGetScalar esize width p i dflt = items i % 256 ^ width

/-- A list of these bytes. -/
def HoldsBytes (m : Message) (p : Ptr) (bytes : List UInt8) : Prop :=
  p.kind = .list ∧ p.esize = .byte ∧ p.count = bytes.length ∧ m.listBytes p bytes.length = bytes

end Message

namespace Builder

/-- One call of a list setter, with what it is given. -/
inductive ListCall
  | void (nitems : Nat)
  | bool (nitems : Nat) (items : Nat → Bool)
  | u8 (nitems : Nat) (items : Nat → Nat)
  | u16 (nitems : Nat) (items : Nat → Nat)
  | u32 (nitems : Nat) (items : Nat → Nat)
  | u64 (nitems : Nat) (items : Nat → Nat)
  | texts (items : List (List UInt8))
  | structs (nitems elemDwords elemPwords : Nat)
  | text (chars : List UInt8)
  | data (bytes : List UInt8)

namespace ListCall

/-- The call for a pointer field of a struct; a struct list gives the handle of its
first element. -/
def run (body : BPtr) (dwords ptrIndex : Nat) : ListCall → BuildM (Option BPtr)
  | .void n => (fun _ => none) <$> setListVoid body dwords ptrIndex n
  | .bool n items => (fun _ => none) <$> setListBool body dwords ptrIndex n items
  | .u8 n items => (fun _ => none) <$> setListU8 body dwords ptrIndex n items
  | .u16 n items => (fun _ => none) <$> setListU16 body dwords ptrIndex n items
  | .u32 n items => (fun _ => none) <$> setListU32 body dwords ptrIndex n items
  | .u64 n items => (fun _ => none) <$> setListU64 body dwords ptrIndex n items
  | .texts items => (fun _ => none) <$> setListTextN body dwords ptrIndex items
  | .structs n d p => some <$> setListStruct body dwords ptrIndex n d p
  | .text chars => (fun _ => none) <$> setText body dwords ptrIndex chars
  | .data bytes => (fun _ => none) <$> setDataList body dwords ptrIndex bytes

/-- The counts are those that a list pointer or a tag can hold. -/
def Fits : ListCall → Prop
  | .void n | .bool n _ | .u8 n _ | .u16 n _ | .u32 n _ | .u64 n _ => n < 2 ^ 29
  | .texts items => items.length < 2 ^ 29 ∧ ∀ text ∈ items, text.length + 1 < 2 ^ 29
  | .structs n _ _ => n < 2 ^ 29 ∨ 2 ^ 32 - 2 ^ 29 ≤ n
  | .text chars => chars.length + 1 < 2 ^ 29
  | .data bytes => bytes.length < 2 ^ 29

/-- A handle is a list with the count and the elements that the call was given.  A
text has a NUL behind it; the elements of a struct list start at the handle that
the call gave, and are empty. -/
def Holds (m : Message) (p : Ptr) (first : Option BPtr) : ListCall → Prop
  | .void n => p.kind = .list ∧ p.esize = .void ∧ p.count = n
  | .bool n items => p.kind = .list ∧ p.esize = .bit ∧ p.count = n ∧
      ∀ i < n, ∀ dflt, m.listGetBool p i dflt = items i
  | .u8 n items => m.HoldsScalars p .byte 1 n items
  | .u16 n items => m.HoldsScalars p .two 2 n items
  | .u32 n items => m.HoldsScalars p .four 4 n items
  | .u64 n items => m.HoldsScalars p .eight 8 n items
  | .texts items => p.kind = .list ∧ p.esize = .ptr ∧ p.count = items.length ∧
      ∀ i (hi : i < items.length), ∃ q cost, m.itemTarget p i = some (q, cost) ∧
        m.HoldsBytes q (items[i] ++ [0])
  | .structs n d w => p.kind = .list ∧ p.esize = .composite ∧ p.count = n ∧ p.dwords = d ∧
      p.pwords = w ∧ p.stepWords = d + w ∧ first = some ⟨p.seg, p.word⟩ ∧
        ∀ i < n, (∀ j, m.datum p i j = 0) ∧ ∀ k, m.Nil p i k
  | .text chars => m.HoldsBytes p (chars ++ [0])
  | .data bytes => m.HoldsBytes p bytes

/-- The slot leads to a list as it was given. -/
def Found (m : Message) (slot : BPtr) (first : Option BPtr) (call : ListCall) : Prop :=
  ∃ p cost, m.slotTarget m.depthLimit slot.seg slot.word = some (p, cost) ∧ call.Holds m p first

end ListCall

/-! ## Counts that do not fit -/

section
variable {m : Message} {p : Ptr} {first : Option BPtr} {slot : BPtr}

theorem tagCount_fits (tag : Nat) : tagCount tag < 2 ^ 29 ∨ 2 ^ 32 - 2 ^ 29 ≤ tagCount tag := by
  have fits := Message.wpOffset_fits tag
  obtain ⟨low, high⟩ := fits
  unfold tagCount
  omega

theorem HoldsBytes.length_lt (sound : p.Sound) {bytes : List UInt8} (holds : m.HoldsBytes p bytes) :
    bytes.length < 2 ^ 29 := by
  obtain ⟨list, esize, count, -⟩ := holds
  rw [← count]
  refine sound.count (.inl ?_)
  unfold Ptr.form
  rw [list, esize]

/-- Only counts that fit are found. -/
theorem ListCall.Found.fits {call : ListCall} (found : call.Found m slot first) : call.Fits := by
  obtain ⟨p, cost, named, holds⟩ := found
  have sound : p.Sound := Message.slotTarget_sound named
  have short {esize : ElemSize} {n : Nat} (list : p.kind = .list) (size : p.esize = esize)
      (plain : esize ≠ .composite) (count : p.count = n) : n < 2 ^ 29 := by
    rw [← count]
    refine sound.count ?_
    unfold Ptr.form
    rw [list, size]
    cases esize <;> first | exact .inl rfl | exact .inr rfl | exact absurd rfl plain
  cases call with
  | texts items =>
      obtain ⟨list, esize, count, elements⟩ := holds
      refine ⟨short list esize (by decide) count, fun chars member => ?_⟩
      obtain ⟨i, hi, rfl⟩ := List.getElem_of_mem member
      obtain ⟨q, price, item, bytes⟩ := elements i hi
      have below := HoldsBytes.length_lt (Message.slotTarget_sound item) bytes
      simpa using below
  | structs n d w =>
      obtain ⟨list, esize, count, -⟩ := holds
      obtain ⟨tag, tagged⟩ := sound.tagged (by
        unfold Ptr.form
        rw [list, esize])
      rw [ListCall.Fits, ← count, tagged]
      exact tagCount_fits tag
  | text chars =>
      have bytes : m.HoldsBytes p (chars ++ [0]) := holds
      have below := HoldsBytes.length_lt sound bytes
      simpa [ListCall.Fits] using below
  | data bytes =>
      have given : m.HoldsBytes p bytes := holds
      exact HoldsBytes.length_lt sound given
  | void n =>
      obtain ⟨list, esize, count⟩ := holds
      exact short list esize (by decide) count
  | _ =>
      obtain ⟨list, esize, count, -⟩ := holds
      exact short list esize (by decide) count

end

/-! ## Counts that fit -/

theorem listBytes_eq {m : Message} {p : Ptr} {bytes : List UInt8}
    (same : ∀ k < bytes.length, m.listByte p k = ofList bytes k) :
    m.listBytes p bytes.length = bytes := by
  refine List.ext_getElem (by simp [Message.listBytes]) fun k low high => ?_
  have there := same k high
  simp only [Message.listBytes, List.getElem_map, List.getElem_range]
  rw [there]
  simp [ofList, high]

/-- A NUL reads like what is behind the bytes. -/
theorem ofList_nul (bytes : List UInt8) (k : Nat) :
    ofList (bytes ++ [0]) k = ofList bytes k := by
  simp only [ofList, List.getD_eq_getElem?_getD]
  by_cases before : k < bytes.length
  · rw [List.getElem?_append_left before]
  · rw [List.getElem?_append_right (not_lt.mp before),
      List.getElem?_eq_none (not_lt.mp before)]
    cases k - bytes.length <;> rfl

section
variable {b b' : Builder} {m : Message} {seg word : Nat} (wf : b.Wf) (inLimit : b'.InLimit)
  (inUse : b.Used seg word) (built : m.BuiltFrom b') (few : m.nsegs < 2 ^ 32)
  (limit : m.depthLimit = defaultDepthLimit)
include wf inLimit inUse built few limit

end

/-- The reader undoes the sign extension of a tag. -/
theorem tagCount_of_fits {n : Nat} (small : n < 2 ^ 32) (fits : n < 2 ^ 29 ∨ 2 ^ 32 - 2 ^ 29 ≤ n)
    (nd np : Nat) : tagCount (wpMakeStruct n nd np) = n := by
  obtain ⟨off, offFits, same, back⟩ : ∃ off : Int, OffsetFits off ∧
      offsetField (n : Int) = offsetField off ∧ (off % 2 ^ 32).toNat = n := by
    rcases fits with low | high
    · exact ⟨n, by constructor <;> omega, rfl, by omega⟩
    · refine ⟨(n : Int) - 2 ^ 32, by constructor <;> omega, ?_, by omega⟩
      unfold offsetField
      omega
  have field : wpMakeStruct n nd np / 4 % 2 ^ 30 = offsetField off :=
    (offsetField_makeStruct _ nd np).trans same
  rw [tagCount, wpOffset_of_field field offFits, back]

/-- A slot that is zero leads to null. -/
theorem slotTarget_zero {m : Message} {seg word depth : Nat} (inside : m.InSegment seg word)
    (zero : m.readWord seg word = 0) (positive : depth ≠ 0) :
    m.slotTarget depth seg word = some (nullPtr seg word, 1) := by
  obtain ⟨depth, rfl⟩ := Nat.exists_eq_succ_of_ne_zero positive
  exact Message.slotTarget_eq inside zero (by rw [Message.target, if_pos rfl])

/-- The handle of a struct list with its first element at `first`. -/
def structsAt (seg first n d w : Nat) : Ptr :=
  { Ptr.zero with
    seg := seg
    word := first
    kind := .list
    esize := .composite
    count := n
    dwords := d
    pwords := w
    stepWords := d + w }

section
variable {b b' : Builder} {m : Message} {body : BPtr} {dwords ptrIndex : Nat} (wf : b.Wf)
  (inLimit : b'.InLimit) (built : m.BuiltFrom b') (few : m.nsegs < 2 ^ 32)
  (limit : m.depthLimit = defaultDepthLimit)
include wf inLimit built few limit

end

theorem ceiling_single (mem : Memory) (words : Nat) : (single mem words).Ceiling where
  caps s := by
    by_cases first : s = 0
    · rw [first, single_seg_zero]
      exact (by decide : builderDefaultFirstWords ≤ builderMaxSegmentWords)
    · simp [single, first, BSeg.empty]
  limit := le_rfl

end Builder

end CapnpJanet
