import CapnpJanet.Janet.Cfuns
import CapnpJanet.Logic.Walks
import CapnpJanet.Message.Bounds

/-!
# Lists as Janet sequences

The hooks `ptr_get`, `ptr_next` and `ptr_length` of `janet_mod.c`, which make a
pointer answer to `get`, `next` and `length`.  All three count with the 32 bits
of `capnp_list_len`, but two of them convert the count and the key to `int32_t`.

What C makes of a number that does not fit into `int32_t` is up to the machine,
and a parameter of the hooks.  A Janet number is a rational number here.
-/

namespace CapnpJanet

open ByteMemory

namespace Janet

/-- A key of `get` and `next`. -/
inductive Key
  | nil
  | number (value : Rat)
  | keyword (name : String)
  | other
deriving DecidableEq

/-- What `get` finds. -/
inductive Item
  | nil
  | method (name : String)
  | element (p : Ptr)

/-- An integer as a key. -/
def Key.index (z : Int) : Key := .number z

/-- `(int32_t)` of a `uint32_t` -/
def toInt32 (n : Nat) : Int := if n % 2 ^ 32 < 2 ^ 31 then n % 2 ^ 32 else n % 2 ^ 32 - 2 ^ 32

/-- A value as an `int32_t`, with what the machine makes of one that does not fit. -/
def int32 (machine : Int → Int) (z : Int) : Int :=
  if -2 ^ 31 ≤ z ∧ z < 2 ^ 31 then z else machine z

/-- `(int32_t)janet_unwrap_number(key)` -/
def keyInt32 (machine : Int → Int) (value : Rat) : Int :=
  int32 machine (value.num.tdiv value.den)

/-- `ptr_kind_name` -/
def ptrKindName (p : Ptr) : String :=
  match p.kind with
  | .struct => "struct"
  | .list => "list"
  | .cap => "cap"
  | .null => "null"

/-- `ptr_methods` -/
def ptrMethods : List String :=
  ["kind", "ptr", "u8", "i8", "u16", "i16", "u32", "i32", "u64", "i64", "f32", "f64", "bool", "text",
    "bool-at", "i8-at", "u8-at", "i16-at", "u16-at", "i32-at", "u32-at", "i64-at", "u64-at", "f32-at",
    "f64-at", "text-at"]

/-- `janet_nextmethod` -/
def nextMethod (methods : List String) (key : Key) : Key :=
  let rest :=
    match key with
    | .nil => methods
    | .keyword name => (methods.dropWhile (· ≠ name)).tail
    | _ => []
  match rest with
  | [] => .nil
  | name :: _ => .keyword name

/-- `ptr_get`, with the traversal budget that is left after it. -/
def ptrGet (machine : Int → Int) (m : Message) (p : Ptr) (key : Key) (left : Nat) :
    Except Panic Item × Nat :=
  match key with
  | .keyword name => (.ok (if name ∈ ptrMethods then .method name else .nil), left)
  | .number value =>
      if p.kind ≠ .list then
        (.error (.text ("capnp/ptr: cannot index a " ++ ptrKindName p ++ ", only a list")), left)
      else
        let i := keyInt32 machine value
        let n := toInt32 (listLen p)
        if i < 0 ∨ i ≥ n then (.ok .nil, left)
        else
          let r := m.listGetp p i.toNat Ptr.zero left
          if r.rc ≠ .ok then
            (.error (.text ("capnp/ptr: element " ++ toString i ++ " unreadable")), r.left)
          else (.ok (.element r.out), r.left)
  | _ => (.ok .nil, left)

/-- `ptr_next` -/
def ptrNext (machine : Int → Int) (p : Ptr) (key : Key) : Key :=
  if p.kind ≠ .list then nextMethod ptrMethods key
  else
    let n := toInt32 (listLen p)
    match key with
    | .nil => if n > 0 then .number 0 else .nil
    | .number value =>
        let i := int32 machine (keyInt32 machine value + 1)
        if i < n then .number i else .nil
    | _ => .nil

/-- `ptr_length` -/
def ptrLength (p : Ptr) : Except Panic Nat :=
  if p.kind ≠ .list then
    .error (.text ("capnp/ptr: length needs a list, got a " ++ ptrKindName p))
  else .ok (listLen p)

/-! ## Sequences -/

/-- `get` at each of these keys, one after the other, yields an element. -/
def YieldsElements (get : Key → Nat → Except Panic Item × Nat) : List Key → (left : Nat) → Prop
  | [], _ => True
  | key :: keys, left =>
      (∃ el, (get key left).1 = .ok (.element el)) ∧ YieldsElements get keys (get key left).2

/-- A consistent sequence: `next` walks over the indices below the length in
order, `get` yields an element at each of them, and nil at any other integer. -/
structure Sequence (machine : Int → Int) (m : Message) (p : Ptr) (left : Nat) : Prop where
  walk : ∀ n, ptrLength p = .ok n →
    Walks.Walk (ptrNext machine p) .nil .nil ((List.range n).map fun i : Nat => Key.index i)
  elements : ∀ n, ptrLength p = .ok n →
    YieldsElements (ptrGet machine m p) ((List.range n).map fun i : Nat => Key.index i) left
  outside : ∀ n, ptrLength p = .ok n → ∀ z : Int, z < 0 ∨ (n : Int) ≤ z → ∀ left,
    (ptrGet machine m p (.index z) left).1 = .ok .nil

/-- The object that the pointer of an element names, and its price. -/
def elemTarget (m : Message) (list : Ptr) (i : Nat) : Option (Ptr × Nat) :=
  m.slotTarget m.depthLimit list.seg (sizeT (list.word + i))

/-- Every element of a pointer list names an object, and the budget covers them
all. -/
def Readable (m : Message) (list : Ptr) (left : Nat) : Prop :=
  (∀ i, i < list.count → (elemTarget m list i).isSome) ∧
    ((List.range list.count).map fun i => (elemTarget m list i).elim 0 Prod.snd).sum ≤ left

/-- The condition under which a list is a sequence. -/
structure Indexable (machine : Int → Int) (m : Message) (list : Ptr) (left : Nat) : Prop where
  /-- The count fits into `int32_t`. -/
  counted : list.count < 2 ^ 31
  /-- The elements are structs, or pointers that can be read. -/
  wide : list.count = 0 ∨ list.esize = .composite ∨ list.esize = .ptr ∧ Readable m list left
  /-- No key that does not fit into `int32_t` becomes an index. -/
  keys : ∀ z, ¬(-2 ^ 31 ≤ z ∧ z < 2 ^ 31) → ¬(0 ≤ machine z ∧ machine z < list.count)

section

variable {machine : Int → Int} {m : Message} {list : Ptr} {left : Nat}

theorem toInt32_of_lt {n : Nat} (lt : n < 2 ^ 31) : toInt32 n = n := by
  unfold toInt32
  rw [Nat.mod_eq_of_lt (by omega), if_pos lt]
  omega

theorem toInt32_neg {n : Nat} (ge : 2 ^ 31 ≤ n) (lt : n < 2 ^ 32) : toInt32 n < 0 := by
  unfold toInt32
  rw [Nat.mod_eq_of_lt lt, if_neg (Nat.not_lt_of_le ge)]
  omega

theorem int32_of_fits {z : Int} (fits : -2 ^ 31 ≤ z ∧ z < 2 ^ 31) : int32 machine z = z := if_pos fits

theorem keyInt32_index (z : Int) : keyInt32 machine (z : Rat) = int32 machine z := by
  unfold keyInt32
  rw [Rat.num_intCast, Rat.den_intCast]
  exact congrArg _ (Int.tdiv_one z)

theorem listLen_of_list (isList : list.kind = .list) : listLen list = list.count :=
  if_neg (not_not.mpr isList)

theorem ptrLength_of_list (isList : list.kind = .list) : ptrLength list = .ok list.count := by
  unfold ptrLength
  rw [if_neg (not_not.mpr isList), listLen_of_list isList]

/-- `get` with an integer outside of the list. -/
theorem ptrGet_outside (isList : list.kind = .list) {z : Int}
    (outside : int32 machine z < 0 ∨ int32 machine z ≥ toInt32 list.count) :
    ptrGet machine m list (.index z) left = (.ok .nil, left) := by
  unfold ptrGet Key.index
  dsimp only
  rw [if_neg (not_not.mpr isList), keyInt32_index, listLen_of_list isList, if_pos outside]

/-- `get` with an integer inside of the list. -/
theorem ptrGet_inside (isList : list.kind = .list) {z : Int}
    (inside : ¬(int32 machine z < 0 ∨ int32 machine z ≥ toInt32 list.count)) :
    ptrGet machine m list (.index z) left =
      let r := m.listGetp list (int32 machine z).toNat Ptr.zero left
      if r.rc ≠ .ok then
        (.error (.text ("capnp/ptr: element " ++ toString (int32 machine z) ++ " unreadable")), r.left)
      else (.ok (.element r.out), r.left) := by
  unfold ptrGet Key.index
  dsimp only
  rw [if_neg (not_not.mpr isList), keyInt32_index, listLen_of_list isList, if_neg inside]

theorem ptrGet_index (isList : list.kind = .list) (counted : list.count < 2 ^ 31) {i : Nat}
    (lt : i < list.count) : ptrGet machine m list (.index i) left =
      let r := m.listGetp list i Ptr.zero left
      if r.rc ≠ .ok then
        (.error (.text ("capnp/ptr: element " ++ toString (i : Int) ++ " unreadable")), r.left)
      else (.ok (.element r.out), r.left) := by
  have same : int32 machine (i : Int) = i := int32_of_fits (by omega)
  rw [ptrGet_inside isList (by rw [same, toInt32_of_lt counted]; omega), same, Int.toNat_natCast]

theorem index_ne_nil (i : Int) : Key.index i ≠ .nil := nofun

/-- The walk of a list that counts below 2^31. -/
theorem walk_indices (isList : list.kind = .list) (counted : list.count < 2 ^ 31) :
    Walks.Walk (ptrNext machine list) .nil .nil ((List.range list.count).map fun i : Nat => Key.index i) := by
  refine Walks.Walk.range (fun i => index_ne_nil i) ?_ fun i lt => ?_
  · unfold ptrNext
    rw [if_neg (not_not.mpr isList), listLen_of_list isList, toInt32_of_lt counted]
    dsimp only
    by_cases some : 0 < list.count
    · rw [if_pos some, if_pos (by omega)]
      rfl
    · rw [if_neg some, if_neg (by omega)]
  · unfold ptrNext Key.index
    rw [if_neg (not_not.mpr isList), listLen_of_list isList, toInt32_of_lt counted]
    dsimp only
    have here : keyInt32 machine ((i : Int) : Rat) = i :=
      (keyInt32_index i).trans (int32_of_fits (by omega))
    have onward : int32 machine ((i : Int) + 1) = (i : Int) + 1 := int32_of_fits (by omega)
    rw [here, onward]
    by_cases more : i + 1 < list.count
    · rw [if_pos more, if_pos (by omega)]
      rfl
    · rw [if_neg more, if_neg (by omega)]

/-- A list that counts from 2^31 on is walked as if it were empty. -/
theorem walk_large (isList : list.kind = .list) (large : 2 ^ 31 ≤ list.count)
    (fits : list.count < 2 ^ 32) : Walks.Walk (ptrNext machine list) .nil .nil [] := by
  refine .done ?_
  have negative := toInt32_neg large fits
  unfold ptrNext
  rw [if_neg (not_not.mpr isList), listLen_of_list isList]
  exact if_neg (by omega)

/-- An element of a pointer list is read if it names an object that the budget
covers. -/
theorem ptrGet_pointer (isList : list.kind = .list) (pointers : list.esize = .ptr)
    (counted : list.count < 2 ^ 31) {i : Nat} (lt : i < list.count) :
    ((∃ el, (ptrGet machine m list (.index i) left).1 = .ok (.element el)) ↔
      ∃ p cost, elemTarget m list i = some (p, cost) ∧ cost ≤ left) ∧
    ∀ p cost, elemTarget m list i = some (p, cost) → cost ≤ left →
      (ptrGet machine m list (.index i) left).2 = left - cost := by
  have resolves : m.listGetp list i Ptr.zero left =
      m.resolvePtr list.seg (sizeT (list.word + i)) m.depthLimit Ptr.zero left := by
    unfold Message.listGetp
    rw [if_neg (not_not.mpr isList), if_neg (Nat.not_le_of_lt lt), pointers]
  have agrees : Agrees (m.listGetp list i Ptr.zero left) (elemTarget m list i) left := by
    rw [resolves]
    exact m.resolvePtr_agrees _ _ _ _ _
  rw [ptrGet_index isList counted lt]
  dsimp only
  constructor
  · constructor
    · rintro ⟨el, got⟩
      by_cases ok : (m.listGetp list i Ptr.zero left).rc = .ok
      · obtain ⟨cost, enough, priced, -⟩ := agrees.of_ok ok
        exact ⟨_, cost, priced, enough⟩
      · rw [if_pos ok] at got
        cases got
    · rintro ⟨p, cost, priced, enough⟩
      rw [agrees.covered p cost priced enough, if_neg (not_not.mpr rfl)]
      exact ⟨p, rfl⟩
  · intro p cost priced enough
    rw [agrees.covered p cost priced enough, if_neg (not_not.mpr rfl)]

/-- The elements of a pointer list are read in order if they all name objects
and the budget covers them together. -/
theorem pointers_yield (isList : list.kind = .list) (pointers : list.esize = .ptr)
    (counted : list.count < 2 ^ 31) (k : Nat) : ∀ i left, i + k ≤ list.count →
    (YieldsElements (ptrGet machine m list) ((List.range' i k).map fun i : Nat => Key.index i) left ↔
      (∀ j, i ≤ j → j < i + k → (elemTarget m list j).isSome) ∧
        ((List.range' i k).map fun i => (elemTarget m list i).elim 0 Prod.snd).sum ≤ left) := by
  induction k with
  | zero =>
      intro i left _
      exact ⟨fun _ => ⟨fun j ge lt => by omega, Nat.zero_le _⟩, fun _ => trivial⟩
  | succ k ih =>
      intro i left inside
      have lt : i < list.count := by omega
      have head : _ ∧ ∀ p cost, elemTarget m list i = some (p, cost) → cost ≤ left →
          (ptrGet machine m list (.index i) left).2 = left - cost :=
        ptrGet_pointer isList pointers counted lt
      rw [List.range'_succ, List.map_cons, List.map_cons, List.sum_cons]
      change (∃ el, _) ∧ YieldsElements _ _ _ ↔ _
      rw [head.1]
      constructor
      · rintro ⟨⟨p, cost, priced, enough⟩, rest⟩
        rw [head.2 p cost priced enough, ih (i + 1) _ (by omega)] at rest
        refine ⟨fun j ge lt => ?_, ?_⟩
        · rcases Nat.lt_or_eq_of_le ge with gt | rfl
          · exact rest.1 j gt (by omega)
          · rw [priced]
            rfl
        · rw [priced]
          change cost + _ ≤ left
          omega
      · rintro ⟨each, total⟩
        obtain ⟨⟨p, cost⟩, priced⟩ := Option.isSome_iff_exists.mp (each i le_rfl (by omega))
        rw [priced] at total
        change cost + _ ≤ left at total
        have enough : cost ≤ left := by omega
        refine ⟨⟨p, cost, priced, enough⟩, ?_⟩
        rw [head.2 p cost priced enough, ih (i + 1) _ (by omega)]
        exact ⟨fun j ge lt => each j (by omega) (by omega), by omega⟩

/-- The elements of a struct list are read whatever the budget. -/
theorem structs_yield (isList : list.kind = .list) (composite : list.esize = .composite)
    (counted : list.count < 2 ^ 31) (is : List Nat) (inside : ∀ i ∈ is, i < list.count) (left : Nat) :
    YieldsElements (ptrGet machine m list) (is.map fun i : Nat => Key.index i) left := by
  induction is generalizing left with
  | nil => trivial
  | cons i is ih =>
      have lt := inside i List.mem_cons_self
      refine ⟨⟨Message.elemPtr list i, ?_⟩, ih (fun j member => inside j (.tail i member)) _⟩
      rw [ptrGet_index isList counted lt]
      unfold Message.listGetp
      rw [if_neg (not_not.mpr isList), if_neg (Nat.not_le_of_lt lt), composite]
      rfl

/-- The first element of any other list is not read. -/
theorem packed_fails (isList : list.kind = .list) (counted : list.count < 2 ^ 31)
    (some : list.count ≠ 0) (structs : list.esize ≠ .composite) (pointers : list.esize ≠ .ptr)
    (el : Ptr) : (ptrGet machine m list (.index (0 : Nat)) left).1 ≠ .ok (.element el) := by
  have lt : 0 < list.count := Nat.pos_of_ne_zero some
  have refused : (m.listGetp list 0 Ptr.zero left).rc = .kind := by
    unfold Message.listGetp
    rw [if_neg (not_not.mpr isList), if_neg (Nat.not_le_of_lt lt)]
    cases size : list.esize with
    | composite => exact absurd size structs
    | ptr => exact absurd size pointers
    | _ => rfl
  rw [ptrGet_index isList counted lt]
  dsimp only
  rw [refused, if_pos (by decide)]
  exact nofun

end

/-- A list is a consistent sequence exactly if it counts below 2^31, its
elements are structs or pointers that can be read, and the machine makes no index
of a key that does not fit. -/
theorem sequence_iff {machine : Int → Int} {m : Message} {list : Ptr} {left : Nat}
    (isList : list.kind = .list) (fits : list.count < 2 ^ 32) :
    Sequence machine m list left ↔ Indexable machine m list left := by
  have length := ptrLength_of_list isList
  constructor
  · intro sequence
    have counted : list.count < 2 ^ 31 := by
      by_contra large
      have none := (walk_large isList (Nat.le_of_not_lt large) fits).unique (sequence.walk _ length)
      have zero := congrArg List.length none
      rw [List.length_map, List.length_range] at zero
      exact large (zero ▸ by decide)
    have elements := sequence.elements _ length
    refine ⟨counted, ?_, fun z beyond index => ?_⟩
    · by_cases some : list.count = 0
      · exact .inl some
      · by_cases structs : list.esize = .composite
        · exact .inr (.inl structs)
        · by_cases pointers : list.esize = .ptr
          · rw [List.range_eq_range', pointers_yield isList pointers counted _ 0 _ (by omega)] at elements
            refine .inr (.inr ⟨pointers, fun i lt => elements.1 i (Nat.zero_le i) (by omega), ?_⟩)
            rw [List.range_eq_range']
            exact elements.2
          · obtain ⟨n, succ⟩ := Nat.exists_eq_succ_of_ne_zero some
            rw [succ, List.range_succ_eq_map, List.map_cons] at elements
            obtain ⟨el, got⟩ := elements.1
            exact absurd got (packed_fails isList counted some structs pointers el)
    · have same : int32 machine z = machine z := if_neg beyond
      have nil := sequence.outside _ length z (by omega) left
      rw [ptrGet_inside isList (by rw [same, toInt32_of_lt counted]; omega)] at nil
      dsimp only at nil
      split at nil <;> cases nil
  · intro indexable
    obtain ⟨counted, wide, keys⟩ := indexable
    refine ⟨fun n same => ?_, fun n same => ?_, fun n same z beyond left => ?_⟩
    · obtain rfl : list.count = n := Except.ok.inj (length.symm.trans same)
      exact walk_indices isList counted
    · obtain rfl : list.count = n := Except.ok.inj (length.symm.trans same)
      rcases wide with none | structs | ⟨pointers, each, total⟩
      · rw [none]
        trivial
      · exact structs_yield isList structs counted _ (fun i member => List.mem_range.mp member) left
      · rw [List.range_eq_range'] at total ⊢
        exact (pointers_yield isList pointers counted _ 0 left (by omega)).mpr
          ⟨fun i _ lt => each i (by omega), total⟩
    · obtain rfl : list.count = n := Except.ok.inj (length.symm.trans same)
      have outside : int32 machine z < 0 ∨ int32 machine z ≥ toInt32 list.count := by
        rw [toInt32_of_lt counted]
        by_cases inRange : -2 ^ 31 ≤ z ∧ z < 2 ^ 31
        · rw [int32_of_fits inRange]
          exact beyond
        · have elsewhere := keys z inRange
          rw [show int32 machine z = machine z from if_neg inRange]
          omega
      rw [ptrGet_outside isList outside]

/-- A root list of two structs of one word. -/
def structListFrame : List UInt8 :=
  [0, 0, 0, 0, 4, 0, 0, 0,
   1, 0, 0, 0, 0x17, 0, 0, 0,
   8, 0, 0, 0, 1, 0, 0, 0,
   1, 0, 0, 0, 0, 0, 0, 0,
   2, 0, 0, 0, 0, 0, 0, 0]

/-- The handle of that list. -/
def structListPtr : Ptr :=
  { Ptr.zero with
    word := 2, kind := .list, esize := .composite, count := 2, dwords := 1, stepWords := 1 }

/-- The two structs are a sequence, on a machine that makes INT32_MIN of what does
not fit. -/
theorem sequence_of_structs :
    ((Frame.message (ofList structListFrame)).root Ptr.zero defaultTraversalWords).out =
      structListPtr ∧
    Sequence (fun _ => -2 ^ 31) (Frame.message (ofList structListFrame)) structListPtr
      defaultTraversalWords := by
  refine ⟨by decide +kernel, (sequence_iff rfl (by decide)).mpr ⟨by decide, .inr (.inl rfl), ?_⟩⟩
  intro z _ index
  omega

/-! ## Lists that are no sequences -/

/-- A root list of one byte. -/
def byteListFrame : List UInt8 :=
  [0, 0, 0, 0, 2, 0, 0, 0,
   1, 0, 0, 0, 0x0a, 0, 0, 0,
   42, 0, 0, 0, 0, 0, 0, 0]

/-- The handle of that list. -/
def byteListPtr : Ptr := { Ptr.zero with word := 1, kind := .list, esize := .byte, count := 1 }

/-- A root list of structs without words, with the count -1 in its tag. -/
def hugeListFrame : List UInt8 :=
  [0, 0, 0, 0, 2, 0, 0, 0,
   1, 0, 0, 0, 7, 0, 0, 0,
   0xfc, 0xff, 0xff, 0xff, 0, 0, 0, 0]

/-- The handle of that list. -/
def hugeListPtr : Ptr :=
  { Ptr.zero with word := 2, kind := .list, esize := .composite, count := 2 ^ 32 - 1 }

/-- Two lists that are decoded and are no sequences, whatever the machine:
`get` gives up at the only index of the byte list, and `next` finds no index in a
list that has a length of 2^32 - 1. -/
theorem lists_without_sequence :
    (messageFromFlat byteListFrame = .ok (Frame.message (ofList byteListFrame)) ∧
      (Frame.message (ofList byteListFrame)).root Ptr.zero defaultTraversalWords =
        ⟨.ok, byteListPtr, defaultTraversalWords - 2⟩ ∧
      ∀ machine left, ptrLength byteListPtr = .ok 1 ∧
        (ptrGet machine (Frame.message (ofList byteListFrame)) byteListPtr (.index 0) left).1 =
          .error (.text "capnp/ptr: element 0 unreadable") ∧
        ¬Sequence machine (Frame.message (ofList byteListFrame)) byteListPtr left) ∧
    messageFromFlat hugeListFrame = .ok (Frame.message (ofList hugeListFrame)) ∧
      (Frame.message (ofList hugeListFrame)).root Ptr.zero defaultTraversalWords =
        ⟨.ok, hugeListPtr, defaultTraversalWords - 2⟩ ∧
      ∀ machine left, ptrLength hugeListPtr = .ok (2 ^ 32 - 1) ∧
        ptrNext machine hugeListPtr .nil = .nil ∧
        ¬Sequence machine (Frame.message (ofList hugeListFrame)) hugeListPtr left := by
  refine ⟨⟨parseFlat_of_accepted (by decide +kernel), by decide +kernel, fun machine left => ?_⟩,
    parseFlat_of_accepted (by decide +kernel), by decide +kernel, fun machine left => ?_⟩
  · refine ⟨rfl, rfl, fun sequence => ?_⟩
    obtain ⟨el, got⟩ := (sequence.elements 1 rfl).1
    cases got
  · refine ⟨rfl, rfl, fun sequence => ?_⟩
    have none : Walks.Walk (ptrNext machine hugeListPtr) .nil .nil [] := .done rfl
    have zero := congrArg List.length (none.unique (sequence.walk _ rfl))
    rw [List.length_map, List.length_range] at zero
    exact absurd zero (by decide)

end Janet

end CapnpJanet
