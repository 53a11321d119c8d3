import CapnpJanet.Builder.Reading
import CapnpJanet.Value.Alike

/-!
# Messages that hold a draft

What a reader finds at an object of a draft, in the terms in which the values of
messages are compared: data words, pointers, and the bits of a list.  A message
that holds what a builder has drawn has the same at every handle that stands for
the object.
-/

namespace CapnpJanet

open ByteMemory Builder Run Paths

namespace Draft

/-! ## Data words and pointers -/

/-- Data word `j` of row `i`; past the section it is zero. -/
def datum (d : Draft) (ref : Ref) (i j : Nat) : Nat :=
  match ref with
  | .row id i' =>
      match d.drawing.nodes[id]? with
      | some (.block _ _ nd _ row) => if i = 0 ∧ j < nd then loadLe 8 (row i') (j * 8) else 0
      | _ => 0
  | .list id =>
      match d.drawing.nodes[id]? with
      | some (.block .composite n nd _ row) =>
          if i < n ∧ j < nd then loadLe 8 (row i) (j * 8) else 0
      | _ => 0
  | _ => 0

/-- What is behind pointer `k` of row `i`. -/
def behind (d : Draft) (ref : Ref) (i k : Nat) : Option Ref :=
  match ref with
  | .row id i' => if i = 0 then (d.follow (.row id i') (.getp k)).toOption else none
  | .list id =>
      match d.drawing.nodes[id]? with
      | some (.block .composite n _ _ _) =>
          if i < n then (d.follow (.row id i) (.getp k)).toOption else none
      | some (.block _ n _ _ _) =>
          if i < n ∧ k = 0 then (d.follow (.list id) (.listGetp i)).toOption else none
      | _ => none
  | _ => none

/-- The message holds what a builder has drawn. -/
structure HeldBy (d : Draft) (place : Nat → BPtr) (m : Message) : Prop where
  drawn : ∃ b, Drawn d place b ∧ m.BuiltFrom b
  few : m.nsegs < 2 ^ 32
  limit : m.depthLimit = defaultDepthLimit

/-- A list without pointers is packed. -/
theorem form_flat {list : Flat} (fits : (Content.flat list).Fits) (host : BPtr) :
    ((Content.flat list).handle host).form = .packed := by
  obtain ⟨-, pointers, composite, -⟩ := fits
  unfold Ptr.form Content.handle
  dsimp only
  cases size : list.esize with
  | ptr => exact absurd size pointers
  | composite => exact absurd size composite
  | _ => rfl

section
variable {d : Draft} {place : Nat → BPtr} {m : Message} {p : Ptr} {ref next : Ref} {i j k : Nat}
  (held : HeldBy d place m)
include held

/-- The pointer of a row leads to what a step of a reader comes to. -/
theorem HeldBy.fieldTarget {id : Nat} (stands : Stands d place p (.row id i))
    (follows : d.follow (.row id i) (.getp k) = .ok next) :
    ∃ q cost, m.fieldTarget p k = some (q, cost) ∧ Stands d place q next := by
  obtain ⟨b, drawn, built⟩ := held.drawn
  obtain ⟨q, cost, -, read, stands'⟩ :=
    drawn.getp built held.few held.limit stands follows le_rfl
  have kind : p.kind = .struct := stands.kind
  have agrees : Agrees (m.getp p k Ptr.zero (d.price next)) (m.fieldTarget p k)
      (d.price next) := Message.getp_agrees kind
  rw [read] at agrees
  obtain ⟨price, -, named, -⟩ := agrees.of_ok rfl
  exact ⟨q, price, named, stands'⟩

/-- The pointer of a list leads to what a step of a reader comes to. -/
theorem HeldBy.itemTarget {id : Nat} (stands : Stands d place p (.list id))
    (form : p.form = .block .pointers) (inside : i < p.count)
    (follows : d.follow (.list id) (.listGetp i) = .ok next) :
    ∃ q cost, m.itemTarget p i = some (q, cost) ∧ Stands d place q next := by
  obtain ⟨b, drawn, built⟩ := held.drawn
  obtain ⟨q, cost, -, read, stands'⟩ :=
    drawn.listGetp built held.few held.limit stands follows le_rfl
  have agrees : Agrees (m.listGetp p i Ptr.zero (d.price next)) (m.itemTarget p i)
      (d.price next) := Message.listGetp_agrees form inside
  rw [read] at agrees
  obtain ⟨price, -, named, -⟩ := agrees.of_ok rfl
  exact ⟨q, price, named, stands'⟩

/-- The object behind a pointer stands for what the draft has there. -/
def Leads (d : Draft) (place : Nat → BPtr) (found : Option (Ptr × Nat)) : Option Ref → Prop
  | none => found = none
  | some next => ∃ q cost, found = some (q, cost) ∧ Stands d place q next

/-- The pointers of a row. -/
theorem HeldBy.leads_row {id : Nat} (stands : Stands d place p (.row id i)) :
    Leads d place (m.fieldTarget p k) (d.follow (.row id i) (.getp k)).toOption := by
  have row := stands
  obtain ⟨shape, n, nd, np, data, found, -⟩ := row
  cases follows : d.follow (.row id i) (.getp k) with
  | ok next => exact held.fieldTarget stands follows
  | error rc =>
      rw [follow, found] at follows
      dsimp only at follows
      split at follows <;> cases follows

omit held in
theorem Leads.isSome_eq {found : Option (Ptr × Nat)} {behind : Option Ref}
    (leads : Leads d place found behind) : found.isSome = behind.isSome := by
  cases behind with
  | none =>
      rw [show found = none from leads]
      rfl
  | some next =>
      obtain ⟨q, cost, rfl, -⟩ := leads
      rfl

omit held in
theorem Leads.of_some {q : Ptr} {cost : Nat} {behind : Option Ref}
    (leads : Leads d place (some (q, cost)) behind) :
    ∃ next, behind = some next ∧ Stands d place q next := by
  cases behind with
  | none => cases leads
  | some next =>
      obtain ⟨q', cost', same, stands⟩ := leads
      cases same
      exact ⟨next, rfl, stands⟩

/-- Pointers lead to what the draft has behind them. -/
theorem HeldBy.link (stands : Stands d place p ref) :
    Leads d place (m.link p i k) (d.behind ref i k) := by
  have kind := stands.kind
  cases ref with
  | null =>
      rw [Message.link, Message.form_of_null kind]
      rfl
  | cap a =>
      have form : p.form = .cap := by
        rw [Ptr.form, kind]
        rfl
      rw [Message.link, form]
      rfl
  | row id i' =>
      have form : p.form = .block .struct := by
        rw [Ptr.form, kind]
        rfl
      rw [Message.link, form, behind]
      dsimp only
      split
      · exact held.leads_row stands
      · rfl
  | list id =>
      obtain ⟨b, drawn, built⟩ := held.drawn
      have list := stands
      obtain ⟨c, found, other, rfl⟩ := list
      rw [behind, found]
      cases c with
      | flat list =>
          rw [Message.link_packed (form_flat (drawn.kept id _ found).fits _)]
          rfl
      | block shape n nd np row =>
          cases shape with
          | struct => exact absurd rfl (other n nd np row)
          | composite =>
              have form : ((Content.block .composite n nd np row).handle (place id)).form =
                  .block .composite := rfl
              have count : ((Content.block .composite n nd np row).handle (place id)).count = n := rfl
              rw [Message.link, form]
              dsimp only
              rw [count]
              by_cases hi : i < n
              · rw [if_pos hi, if_pos hi]
                exact held.leads_row ((drawn.kept id _ found).element built found hi)
              · rw [if_neg hi, if_neg hi]
                rfl
          | pointers =>
              have form : ((Content.block .pointers n nd np row).handle (place id)).form =
                  .block .pointers := rfl
              have count : ((Content.block .pointers n nd np row).handle (place id)).count = n := rfl
              rw [Message.link, form]
              dsimp only
              rw [count]
              by_cases inside : i < n ∧ k = 0
              · rw [if_pos inside, if_pos inside]
                cases follows : d.follow (.list id) (.listGetp i) with
                | ok next => exact held.itemTarget stands form inside.1 follows
                | error rc =>
                    rw [follow, found] at follows
                    dsimp only at follows
                    rw [if_pos inside.1] at follows
                    cases follows
              · rw [if_neg inside, if_neg inside]
                rfl

/-- Data words are those of the draft. -/
theorem HeldBy.datum (stands : Stands d place p ref) : m.datum p i j = d.datum ref i j := by
  have kind := stands.kind
  obtain ⟨b, drawn, built⟩ := held.drawn
  -- a data word of a row
  have word {q : Ptr} {id i' : Nat} (stands : Stands d place q (.row id i')) {nd : Nat}
      (inside : j < nd) {shape : Shape} {n np : Nat} {row : Nat → Memory}
      (found : d.drawing.nodes[id]? = some (.block shape n nd np row)) :
      m.getU64 q (j * 8) 0 = loadLe 8 (row i') (j * 8) := by
    obtain ⟨shape', n', nd', np', row', found', -, -, -, scalars, -⟩ := stands.looks built drawn
    rw [found] at found'
    obtain ⟨rfl, rfl, rfl, rfl, rfl⟩ := Content.block.inj (Option.some.inj found')
    rw [Message.getU64, scalars, if_pos (by omega)]
  cases ref with
  | null =>
      rw [Message.datum, Message.form_of_null kind]
      rfl
  | cap a =>
      have form : p.form = .cap := by
        rw [Ptr.form, kind]
        rfl
      rw [Message.datum, form]
      rfl
  | row id i' =>
      have row := stands
      obtain ⟨shape, n, nd, np, data, found, -, seg, at', rfl, -⟩ := row
      have form : (Message.structAt seg at' nd np).form = .block .struct := rfl
      have dwords : (Message.structAt seg at' nd np).dwords = nd := rfl
      rw [Message.datum, form, Draft.datum, found]
      dsimp only
      rw [dwords]
      split
      · next inside => exact word stands inside.2 found
      · rfl
  | list id =>
      have list := stands
      obtain ⟨c, found, other, rfl⟩ := list
      have kept := drawn.kept id _ found
      rw [Draft.datum, found]
      cases c with
      | flat list => rw [Message.datum, form_flat kept.fits]
      | block shape n nd np row =>
          cases shape with
          | struct => exact absurd rfl (other n nd np row)
          | composite =>
              have form : ((Content.block .composite n nd np row).handle (place id)).form =
                  .block .composite := rfl
              have sizes : ((Content.block .composite n nd np row).handle (place id)).count = n ∧
                  ((Content.block .composite n nd np row).handle (place id)).dwords = nd := ⟨rfl, rfl⟩
              rw [Message.datum, form]
              dsimp only
              rw [sizes.1, sizes.2]
              split
              · next inside => exact word (kept.element built found inside.1) inside.2 found
              · rfl
          | pointers => rfl

end

/-! ## Sizes and bits of lists -/

/-- The bytes of a list: those it is filled with, and zeros behind them. -/
def Flat.body : Flat → Memory
  | .scalars _ width n items => Builder.storeElems width items (fun _ => 0) 0 n
  | .bits n items => Builder.storeBits items (fun _ => 0) 0 n
  | .bytes given => ofList given

/-- The element size of a list. -/
def Content.esize : Content → ElemSize
  | .block .composite _ _ _ _ => .composite
  | .block _ _ _ _ _ => .ptr
  | .flat list => list.esize

/-- The element size of a list; what is no list has none. -/
def esize (d : Draft) : Ref → ElemSize
  | .list id => (d.drawing.nodes[id]?).elim .void Content.esize
  | _ => .void

/-- The elements of a list, or the index of a capability. -/
def count (d : Draft) : Ref → Nat
  | .list id => (d.drawing.nodes[id]?).elim 0 Content.count
  | .cap a => a % 2 ^ 32
  | _ => 0

/-- Bit `x` of a list without pointers. -/
def listBit (d : Draft) (ref : Ref) (x : Nat) : Bool :=
  match ref with
  | .list id =>
      match d.drawing.nodes[id]? with
      | some (.flat list) => bitOf (list.body (x / 8)) (x % 8)
      | _ => false
  | _ => false

theorem Flat.bit_body (n : Nat) (items : Nat → Bool) (x : Nat) :
    bitOf ((Flat.bits n items).body (x / 8)) (x % 8) = (decide (x < n) && items x) := by
  have stored : bitOf (Builder.storeBits items (fun _ => 0) 0 n (0 + x / 8)) (x % 8) =
      (decide (x < n) && items x) := bitOf_storeBits items x rfl
  rwa [Nat.zero_add] at stored

/-- A filled list has the bytes of its body. -/
theorem Content.Filled.byte_eq {b : Builder} {host : BPtr} {list : Flat}
    (filled : (Content.flat list).Filled b host) {k : Nat} (inside : k < list.size) :
    (b.seg host.seg).data (host.word * 8 + k) = list.body k := by
  match list with
  | .scalars esize width n items =>
      rw [Flat.size] at inside
      have some : 0 < width := by
        rcases Nat.eq_zero_or_pos width with rfl | some
        · rw [Nat.mul_zero] at inside
          exact absurd inside (Nat.not_lt_zero k)
        · exact some
      have element : k / width < n := Nat.div_lt_of_lt_mul (by rwa [Nat.mul_comm])
      have stored := loadLe_storeElems width items (fun _ => 0) 0 element
      have same := (filled (k / width) element).trans stored.symm
      have byte := bytes_eq_of_loadLe_eq same (k % width) (Nat.mod_lt k some)
      rwa [Nat.add_assoc, Nat.zero_add, Nat.div_add_mod'] at byte
  | .bits n items =>
      rw [Flat.size] at inside
      refine Message.byte_eq_of_bits fun x hx => ?_
      have stored := filled (8 * k + x) (by omega)
      rwa [← Flat.bit_body, show (8 * k + x) / 8 = k by omega,
        show (8 * k + x) % 8 = x by omega] at stored
  | .bytes given => exact filled k inside

/-- The bytes of a packed list. -/
theorem Content.Fits.packedBytes_eq {list : Flat} (fits : (Content.flat list).Fits) :
    packedBytes list.esize list.count = list.size := by
  obtain ⟨-, -, -, width⟩ := fits
  rw [packedBytes]
  cases list with
  | scalars esize width' n items =>
      rw [Flat.esize, Flat.count, Flat.size, width esize width' n items rfl,
        show n * (8 * width') = 8 * (n * width') by ring]
      omega
  | bits n items =>
      simp only [Flat.esize, Flat.count, Flat.size, ElemSize.bits]
      omega
  | bytes given =>
      simp only [Flat.esize, Flat.count, Flat.size, ElemSize.bits]
      omega

/-- The bits behind those of a list are zero. -/
theorem Content.Fits.padding {list : Flat} (fits : (Content.flat list).Fits) {x : Nat}
    (past : list.count * list.esize.bits ≤ x) (inside : x < 8 * list.size) :
    bitOf (list.body (x / 8)) (x % 8) = false := by
  obtain ⟨-, -, -, width⟩ := fits
  cases list with
  | scalars esize width' n items =>
      rw [Flat.esize, Flat.count, width esize width' n items rfl] at past
      rw [Flat.size] at inside
      rw [show n * (8 * width') = 8 * (n * width') by ring] at past
      omega
  | bits n items =>
      simp only [Flat.esize, Flat.count, ElemSize.bits, Nat.mul_one] at past
      rw [Flat.bit_body, decide_eq_false (not_lt.mpr past), Bool.false_and]
  | bytes given =>
      simp only [Flat.esize, Flat.count, Flat.size, ElemSize.bits] at past inside
      omega

section
variable {d : Draft} {place : Nat → BPtr} {p : Ptr} {ref : Ref}

theorem Stands.esize_eq (stands : Stands d place p ref) (list : p.kind = .list) :
    p.esize = d.esize ref := by
  have kind := stands.kind
  rw [list] at kind
  match ref with
  | .list id =>
      obtain ⟨c, found, other, rfl⟩ := stands
      rw [esize, found]
      match c with
      | .block .struct n nd np row => exact absurd rfl (other n nd np row)
      | .block .composite n nd np row => rfl
      | .block .pointers n nd np row => rfl
      | .flat list => rfl

theorem Stands.count_eq (stands : Stands d place p ref) (counted : p.kind = .list ∨ p.kind = .cap) :
    p.count = d.count ref := by
  have kind := stands.kind
  match ref with
  | .null =>
      rw [kind] at counted
      exact absurd counted (not_or.mpr ⟨nofun, nofun⟩)
  | .cap a => exact stands.2
  | .row id i =>
      rw [kind] at counted
      exact absurd counted (not_or.mpr ⟨nofun, nofun⟩)
  | .list id =>
      obtain ⟨c, found, other, rfl⟩ := stands
      rw [count, found]
      match c with
      | .block .struct n nd np row => exact absurd rfl (other n nd np row)
      | .block .composite n nd np row => rfl
      | .block .pointers n nd np row => rfl
      | .flat list => rfl

/-- What is no list has no element size. -/
theorem esize_of_kind (other : ref.kind ≠ .list) : d.esize ref = .void := by
  cases ref with
  | list id => exact absurd rfl other
  | _ => rfl

/-- What is neither a list nor a capability counts nothing. -/
theorem count_of_kind (list : ref.kind ≠ .list) (cap : ref.kind ≠ .cap) : d.count ref = 0 := by
  cases ref with
  | list id => exact absurd rfl list
  | cap a => exact absurd rfl cap
  | _ => rfl

end

/-! ## Bits of a message -/

section
variable {d : Draft} {place : Nat → BPtr} {m : Message} {p : Ptr} {ref : Ref} {x : Nat}
  (held : HeldBy d place m)
include held

/-- A packed list stands for a list without pointers. -/
theorem HeldBy.flat_of_packed (stands : Stands d place p ref) (packed : p.form = .packed) :
    ∃ id list b, ref = .list id ∧ d.drawing.nodes[id]? = some (.flat list) ∧
      p = (Content.flat list).handle (place id) ∧ Kept b (place id) (.flat list) ∧
      m.BuiltFrom b := by
  obtain ⟨b, drawn, built⟩ := held.drawn
  have kind := stands.kind
  rw [Message.ValueEq.kind_of_packed packed] at kind
  match ref with
  | .list id =>
      obtain ⟨c, found, other, rfl⟩ := stands
      match c with
      | .flat list => exact ⟨id, list, b, rfl, found, rfl, drawn.kept id _ found, built⟩
      | .block .struct n nd np row => exact absurd rfl (other n nd np row)
      | .block .composite n nd np row => cases packed
      | .block .pointers n nd np row => cases packed

/-- The bits of a list are those of the draft, with those that pad it. -/
theorem HeldBy.listBit (stands : Stands d place p ref) (packed : p.form = .packed)
    (inside : x < 8 * packedBytes p.esize p.count) : m.listBit p x = d.listBit ref x := by
  obtain ⟨id, list, b, rfl, found, rfl, kept, built⟩ := held.flat_of_packed stands packed
  have bytes : packedBytes ((Content.flat list).handle (place id)).esize
      ((Content.flat list).handle (place id)).count = list.size := kept.fits.packedBytes_eq
  rw [Draft.listBit, found]
  dsimp only
  rw [← kept.filled.byte_eq (k := x / 8) (by omega), ← kept.listByte_eq built (by omega)]
  rfl

/-- A list is padded with zeros. -/
theorem HeldBy.padding (stands : Stands d place p ref) (packed : p.form = .packed)
    (past : p.count * p.esize.bits ≤ x) (inside : x < 8 * packedBytes p.esize p.count) :
    m.listBit p x = false := by
  rw [held.listBit stands packed inside]
  obtain ⟨id, list, b, rfl, found, rfl, kept, -⟩ := held.flat_of_packed stands packed
  have bytes : packedBytes ((Content.flat list).handle (place id)).esize
      ((Content.flat list).handle (place id)).count = list.size := kept.fits.packedBytes_eq
  rw [Draft.listBit, found]
  exact kept.fits.padding past (by omega)

/-- What is no packed list has no bits. -/
theorem HeldBy.listBit_of_form (stands : Stands d place p ref) (other : p.form ≠ .packed) :
    d.listBit ref x = false := by
  obtain ⟨b, drawn, -⟩ := held.drawn
  match ref with
  | .null => rfl
  | .cap a => rfl
  | .row id i => rfl
  | .list id =>
      obtain ⟨c, found, -, rfl⟩ := stands
      rw [Draft.listBit, found]
      match c with
      | .flat list => exact absurd (form_flat (drawn.kept id _ found).fits _) other
      | .block shape n nd np row => rfl

end

end Draft

end CapnpJanet
