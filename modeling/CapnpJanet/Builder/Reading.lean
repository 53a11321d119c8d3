import CapnpJanet.Builder.Drafting

/-!
# Reading what has been drawn

A reader goes from the root along pointers and elements.  For a draft that is a
walk from object to object; for a message it is one call after the other, each of
which takes its words from the traversal budget.  When the message holds what the
arena has drawn, both come to the same: at every step the readers find the object
that hangs from the slot, with the data that was stored last, or fail with the same
code.  So what a client reads depends on what was built, and on no segment.
-/

namespace CapnpJanet

open ByteMemory Builder Run

namespace Draft

/-! ## Walks -/

/-- What a reader comes to: nothing, a capability, a row of an object, or a list. -/
inductive Ref
  | null
  | cap (capIndex : Nat)
  | row (id i : Nat)
  | list (id : Nat)

/-- The kind of the handle that a reader gets. -/
def Ref.kind : Ref → PtrKind
  | .null => .null
  | .cap _ => .cap
  | .row _ _ => .struct
  | .list _ => .list

/-- One step of a reader: to a pointer of a struct, or to an element of a list. -/
inductive Step
  | getp (ptrIndex : Nat)
  | listGetp (index : Nat)

/-- What hangs from a slot. -/
def resolve (d : Draft) : Link Nat → Ref
  | .null => .null
  | .leaf a => .cap a
  | .node id =>
      match d.drawing.nodes[id]? with
      | some (.block .struct _ _ _ _) => .row id 0
      | _ => .list id

/-- Where one step leads. -/
def follow (d : Draft) : Ref → Step → Except Status Ref
  | .row id i, .getp k =>
      match d.drawing.nodes[id]? with
      | some (.block _ _ _ np _) =>
          if k < np then .ok (d.resolve (d.drawing.link (.field id (i, k)))) else .ok .null
      | _ => .error .kind
  | .list id, .listGetp i =>
      match d.drawing.nodes[id]? with
      | some (.block .composite n _ _ _) => if i < n then .ok (.row id i) else .error .bounds
      | some (.block _ n _ _ _) =>
          if i < n then .ok (d.resolve (d.drawing.link (.field id (i, 0)))) else .error .bounds
      | some (.flat list) => if i < list.count then .error .kind else .error .bounds
      | none => .error .kind
  | _, _ => .error .kind

/-- Where a walk leads. -/
def walk (d : Draft) : Ref → List Step → Except Status Ref
  | ref, [] => .ok ref
  | ref, step :: rest => (d.follow ref step).bind fun next => d.walk next rest

/-- The most that coming to an object costs: its words, and three for the pointers
that lead there. -/
def price (d : Draft) : Ref → Nat
  | .row id _ | .list id => (d.drawing.nodes[id]?).elim 0 Content.words + 3
  | _ => 3

/-- The most that a walk costs. -/
def dues (d : Draft) : Ref → List Step → Nat
  | _, [] => 0
  | ref, step :: rest =>
      match d.follow ref step with
      | .ok next => d.price next + d.dues next rest
      | .error _ => 0

end Draft

namespace Message

/-- `capnp_getp` or `capnp_list_getp` -/
def step (m : Message) (p : Ptr) (left : Nat) : Draft.Step → Resolved
  | .getp k => m.getp p k Ptr.zero left
  | .listGetp i => m.listGetp p i Ptr.zero left

/-- Calls one after the other, each on the handle that the one before has given, up
to the first that fails. -/
def walk (m : Message) : Resolved → List Draft.Step → Resolved
  | r, [] => r
  | r, step :: rest => if r.rc = .ok then m.walk (m.step r.out r.left step) rest else r

/-- An element of a pointer list is behind its slot. -/
theorem listGetp_pointers {m : Message} {p : Ptr} {i left : Nat} {out : Ptr} (list : p.kind = .list)
    (pointers : p.esize = .ptr) (inside : i < p.count) :
    m.listGetp p i out left = m.resolvePtr p.seg (sizeT (p.word + i)) m.depthLimit out left := by
  unfold listGetp
  rw [if_neg (not_not.mpr list), if_neg (not_le.mpr inside), pointers]

/-- A higher price is a price. -/
theorem Names.costs_le {m : Message} {make : Int → Nat} {bodySeg bodyWord price price' : Nat}
    {p : Ptr} (names : m.Names make bodySeg bodyWord p price) (le : price ≤ price') :
    m.Names make bodySeg bodyWord p price' where
  near depth word fits := by
    obtain ⟨cost, cheap, resolves⟩ := names.near depth word fits
    exact ⟨cost, cheap.trans le, resolves⟩
  landed bodyLt := by
    obtain ⟨cost, cheap, resolves⟩ := names.landed bodyLt
    exact ⟨cost, cheap.trans le, resolves⟩

theorem walk_of_failed {m : Message} {r : Resolved} (failed : r.rc ≠ .ok) (path : List Draft.Step) :
    m.walk r path = r := by
  cases path with
  | nil => rfl
  | cons step rest => exact if_neg failed

end Message

namespace Draft

/-! ## What readers find at an object -/

/-- A list as its handle and its elements are read. -/
def Content.Listed (m : Message) (p : Ptr) : Content → Prop
  | .block .composite n nd np _ =>
      p.esize = .composite ∧ p.count = n ∧ p.dwords = nd ∧ p.pwords = np
  | .block _ n _ _ _ => p.esize = .ptr ∧ p.count = n
  | .flat (.scalars esize width n items) => m.HoldsScalars p esize width n items
  | .flat (.bits n items) => p.esize = .bit ∧ p.count = n ∧
      ∀ i < n, ∀ dflt, m.listGetBool p i dflt = items i
  | .flat (.bytes given) => m.HoldsBytes p given

/-- What the readers find at a handle: for a row of an object its data, with the
default for what is outside. -/
def Looks (d : Draft) (m : Message) (p : Ptr) : Ref → Prop
  | .null => p.kind = .null
  | .cap a => p.kind = .cap ∧ p.count = a % 2 ^ 32
  | .row id i => ∃ shape n nd np row, d.drawing.nodes[id]? = some (.block shape n nd np row) ∧
      p.kind = .struct ∧ p.dwords = nd ∧ p.pwords = np ∧
      (∀ width byteOffset dflt, m.getScalar width p byteOffset dflt =
        if byteOffset + width ≤ nd * 8 then loadLe width (row i) byteOffset else dflt) ∧
      ∀ bitOffset dflt, m.getBool p bitOffset dflt =
        if bitOffset < nd * 64 then bitOf (row i (bitOffset / 8)) (bitOffset % 8) else dflt
  | .list id => ∃ c, d.drawing.nodes[id]? = some c ∧ p.kind = .list ∧ c.Listed m p

/-- A call ends as the walk does. -/
def Answers (d : Draft) (m : Message) (r : Resolved) : Except Status Ref → Prop
  | .ok ref => r.rc = .ok ∧ d.Looks m r.out ref
  | .error rc => r.rc = rc

/-! ## Handles for objects -/

namespace Content

/-- Elements of a list. -/
def count : Content → Nat
  | .block _ n _ _ _ => n
  | .flat list => list.count

/-- The handle of an object at a host. -/
def handle (host : BPtr) : Content → Ptr
  | .block .struct _ nd np _ => Message.structAt host.seg host.word nd np
  | .block .composite n nd np _ => structsAt host.seg (host.word + 1) n nd np
  | .block .pointers n _ _ _ =>
      { Ptr.zero with seg := host.seg, word := host.word, kind := .list, esize := .ptr, count := n }
  | .flat list =>
      { Ptr.zero with
        seg := host.seg
        word := host.word
        kind := .list
        esize := list.esize
        count := list.count }

end Content

/-- The words of a list without pointers hold its elements. -/
theorem Content.Fits.size_le {list : Flat} (fits : (Content.flat list).Fits) :
    listBodyWords list.esize list.count ≤ (Content.flat list).words := by
  obtain ⟨-, -, -, width⟩ := fits
  rw [Content.words, listBodyWords, wordsFor]
  cases list with
  | scalars esize width' n items =>
      rw [Flat.esize, Flat.count, Flat.size, width esize width' n items rfl,
        show n * (8 * width') = n * width' * 8 by ring]
      omega
  | bits n items =>
      simp only [Flat.esize, Flat.count, Flat.size, ElemSize.bits]
      omega
  | bytes given =>
      simp only [Flat.esize, Flat.count, Flat.size, ElemSize.bits]
      omega

section
variable {b : Builder} {m : Message} {host : BPtr} {c : Content} (kept : Kept b host c)
  (built : m.BuiltFrom b) (few : m.nsegs < 2 ^ 32)
include kept built few

/-- A pointer for an object names its handle. -/
theorem Kept.names (wf : b.Wf) (some : c.pointer 0 ≠ 0) :
    m.Names c.pointer host.seg host.word (c.handle host) c.words := by
  have segLt : host.seg < m.nsegs := kept.segLt.trans_eq built.nsegs
  have inside := kept.inside
  have tag (used : b.Used host.seg host.word) := built.readWord_eq wf used
  rw [built.words host.seg segLt] at inside
  match c with
  | .block .struct n nd np row =>
      obtain ⟨rfl, ndLt, npLt⟩ := kept.fits
      have words : (Content.block .struct 1 nd np row).words = nd + np := by
        rw [Content.words, show Shape.struct.header = 0 from rfl]
        omega
      rw [words] at inside ⊢
      refine Message.names_struct segLt few inside (fun none => some ?_) ndLt npLt
      obtain ⟨rfl, rfl⟩ : nd = 0 ∧ np = 0 := by omega
      rfl
  | .block .composite n nd np row =>
      obtain ⟨count, ndLt, npLt⟩ := kept.fits
      have words : (Content.block .composite n nd np row).words = n * (nd + np) + 1 := by
        rw [Content.words, Shape.header]
        omega
      rw [words] at inside ⊢
      have reads : m.readWord host.seg host.word = wpMakeStruct n nd np := by
        rw [tag, kept.filled.1 rfl]
        have used := kept.inside
        rw [words] at used
        unfold Used
        omega
      have sizes : wpStructDwords (wpMakeStruct n nd np) = nd ∧
          wpStructPwords (wpMakeStruct n nd np) = np := by
        rw [wpStructDwords_makeStruct, wpStructPwords_makeStruct, Nat.mod_eq_of_lt ndLt,
          Nat.mod_eq_of_lt npLt]
        exact ⟨rfl, rfl⟩
      have handle : compositePtr host.seg host.word (wpMakeStruct n nd np) =
          structsAt host.seg (host.word + 1) n nd np := by
        rw [compositePtr, count, sizes.1, sizes.2]
        rfl
      have names : m.Names (fun off => wpMakeList off .composite (n * (nd + np))) host.seg host.word _ _ :=
        Message.names_composite segLt few reads (by rw [count, sizes.1, sizes.2]; omega)
      rwa [count, sizes.1, sizes.2, handle] at names
  | .block .pointers n nd np row =>
      obtain ⟨countLt, rfl, rfl⟩ := kept.fits
      have words : (Content.block .pointers n 0 1 row).words = listBodyWords .ptr n := by
        rw [Content.words, show Shape.pointers.header = 0 from rfl, listBodyWords, ElemSize.bits]
        omega
      rw [words] at inside ⊢
      exact Message.names_list segLt few (by decide) countLt inside
  | .flat list =>
      have size := kept.fits.size_le
      obtain ⟨countLt, -, plain, -⟩ := kept.fits
      exact (Message.names_list segLt few plain countLt (by omega)).costs_le size

end

/-- A handle stands for what a reader has come to.  Where a struct without sections
is makes no difference. -/
def Stands (d : Draft) (place : Nat → BPtr) (p : Ptr) : Ref → Prop
  | .null => p.kind = .null
  | .cap a => p.kind = .cap ∧ p.count = a % 2 ^ 32
  | .row id i => ∃ shape n nd np row, d.drawing.nodes[id]? = some (.block shape n nd np row) ∧
      i < n ∧ ∃ seg word, p = Message.structAt seg word nd np ∧
        (nd + np ≠ 0 → seg = (place id).seg ∧
          word = (Content.block shape n nd np row).rowWord (place id).word i)
  | .list id => ∃ c, d.drawing.nodes[id]? = some c ∧
      (∀ n nd np row, c ≠ .block .struct n nd np row) ∧ p = c.handle (place id)

/-- A call ends as the walk does, with a handle that stands for what it comes to. -/
def ComesTo (d : Draft) (place : Nat → BPtr) (r : Resolved) : Except Status Ref → Prop
  | .ok ref => r.rc = .ok ∧ Stands d place r.out ref
  | .error rc => r.rc = rc

theorem price_node {d : Draft} {id : Nat} {c : Content} (found : d.drawing.nodes[id]? = some c) :
    d.price (d.resolve (.node id)) = c.words + 3 := by
  rw [resolve]
  split <;> rw [price, found, Option.elim_some]

/-- Only a struct without sections has a pointer that could be null. -/
theorem Content.eq_of_pointer_zero {c : Content} (fits : c.Fits) (null : c.pointer 0 = 0) :
    ∃ row, c = .block .struct 1 0 0 row := by
  match c with
  | .block .struct n nd np row =>
      obtain ⟨rfl, ndLt, npLt⟩ := fits
      by_cases none : nd + np = 0
      · obtain ⟨rfl, rfl⟩ : nd = 0 ∧ np = 0 := by omega
        exact ⟨row, rfl⟩
      · exact absurd null (makeStruct_ne_zero 0 ndLt npLt none)
  | .block .composite n nd np row => exact absurd null (makeList_ne_zero _ _ _)
  | .block .pointers n nd np row => exact absurd null (makeList_ne_zero _ _ _)
  | .flat list => exact absurd null (makeList_ne_zero _ _ _)

/-- The handle of an object stands for it. -/
theorem Kept.stands {d : Draft} {place : Nat → BPtr} {b : Builder} {id : Nat} {c : Content}
    (kept : Kept b (place id) c) (found : d.drawing.nodes[id]? = some c) :
    Stands d place (c.handle (place id)) (d.resolve (.node id)) := by
  rw [resolve, found]
  cases c with
  | flat list => exact ⟨_, found, (fun _ _ _ _ same => by cases same), rfl⟩
  | block shape n nd np row =>
      cases shape with
      | struct =>
          obtain ⟨rfl, -⟩ := kept.fits
          refine ⟨_, 1, nd, np, row, found, Nat.one_pos, _, _, rfl, fun _ => ⟨rfl, ?_⟩⟩
          rw [Content.rowWord, show Shape.struct.header = 0 from rfl]
          omega
      | composite => exact ⟨_, found, (fun _ _ _ _ same => by cases same), rfl⟩
      | pointers => exact ⟨_, found, (fun _ _ _ _ same => by cases same), rfl⟩

/-- The words of an object have addresses. -/
theorem Kept.addressed {b : Builder} {m : Message} {host : BPtr} {c : Content} (kept : Kept b host c)
    (built : m.BuiltFrom b) : host.word + c.words < 2 ^ 61 := by
  have inside := kept.inside
  have fits := (m.seg host.seg).fits
  rw [built.words host.seg (kept.segLt.trans_eq built.nsegs)] at inside
  omega

/-- The elements of a struct list are its rows. -/
theorem elemPtr_structsAt {seg first n nd np i : Nat} (hi : i < n)
    (addressed : first + n * (nd + np) < 2 ^ 61) :
    Message.elemPtr (structsAt seg first n nd np) i =
      Message.structAt seg (first + i * (nd + np)) nd np := by
  have room := Tree.row_le hi (nd + np)
  unfold Message.elemPtr Message.structAt structsAt
  dsimp only
  congr 1
  rw [← sizeT_of_lt (n := first + i * (nd + np)) (by omega)]
  push_cast
  rfl

/-- An element of a struct list stands for its row. -/
theorem Kept.element {d : Draft} {place : Nat → BPtr} {b : Builder} {m : Message}
    {id i n nd np : Nat} {row : Nat → Memory}
    (kept : Kept b (place id) (.block .composite n nd np row)) (built : m.BuiltFrom b)
    (found : d.drawing.nodes[id]? = some (.block .composite n nd np row)) (hi : i < n) :
    Stands d place
      (Message.elemPtr ((Content.block .composite n nd np row).handle (place id)) i) (.row id i) := by
  have small := kept.addressed built
  rw [Content.words, show Shape.composite.header = 1 from rfl] at small
  exact ⟨_, n, nd, np, row, found, hi, _, _, elemPtr_structsAt hi (by omega), fun _ => ⟨rfl, rfl⟩⟩

/-! ## Steps that lead nowhere -/

section
variable {d : Draft} {place : Nat → BPtr} {m : Message} {p : Ptr} {ref : Ref} {left : Nat}

/-- The kind of a handle. -/
theorem Stands.kind (stands : Stands d place p ref) :
    p.kind = ref.kind := by
  match ref with
  | .null => exact stands
  | .cap a => exact stands.1
  | .row id i =>
      obtain ⟨_, _, _, _, _, _, _, _, _, rfl, _⟩ := stands
      rfl
  | .list id =>
      obtain ⟨c, -, list, rfl⟩ := stands
      match c with
      | .block .struct n nd np row => exact absurd rfl (list n nd np row)
      | .block .composite n nd np row => rfl
      | .block .pointers n nd np row => rfl
      | .flat _ => rfl

theorem getp_rc_of_kind (other : p.kind ≠ .struct) (k : Nat) (out : Ptr) :
    (m.getp p k out left).rc = .kind := by
  rw [Message.getp, if_pos other]

theorem listGetp_rc_of_kind (other : p.kind ≠ .list) (i : Nat) (out : Ptr) :
    (m.listGetp p i out left).rc = .kind := by
  rw [Message.listGetp, if_pos other]

theorem listGetp_rc_of_count {i : Nat} (list : p.kind = .list) (past : ¬i < p.count) (out : Ptr) :
    (m.listGetp p i out left).rc = .bounds := by
  rw [Message.listGetp, if_neg (not_not.mpr list), if_pos (not_lt.mp past)]

theorem listGetp_rc_of_flat {i : Nat} (list : p.kind = .list) (pointers : p.esize ≠ .ptr)
    (composite : p.esize ≠ .composite) (inside : i < p.count) (out : Ptr) :
    (m.listGetp p i out left).rc = .kind := by
  rw [Message.listGetp, if_neg (not_not.mpr list), if_neg (not_le.mpr inside)]
  cases size : p.esize with
  | ptr => exact absurd size pointers
  | composite => exact absurd size composite
  | _ => rfl

/-- A step that leads nowhere fails with the code that the draft gives. -/
theorem Stands.step_fails {b : Builder} (drawn : Drawn d place b) {step : Step} {rc : Status}
    (stands : Stands d place p ref) (fails : d.follow ref step = .error rc) :
    (m.step p left step).rc = rc ∧ rc ≠ .ok := by
  have kind := stands.kind
  cases step with
  | getp k =>
      have wrong (other : p.kind ≠ .struct) : (m.step p left (.getp k)).rc = .kind ∧ Status.kind ≠ .ok :=
        ⟨getp_rc_of_kind other k _, by decide⟩
      cases ref with
      | row id i =>
          obtain ⟨shape, n, nd, np, row, found, -⟩ := stands
          rw [follow, found] at fails
          dsimp only at fails
          split at fails <;> cases fails
      | null =>
          cases fails
          exact wrong (kind.trans_ne nofun)
      | cap a =>
          cases fails
          exact wrong (kind.trans_ne nofun)
      | list id =>
          cases fails
          exact wrong (kind.trans_ne nofun)
  | listGetp i =>
      have wrong (other : p.kind ≠ .list) :
          (m.step p left (.listGetp i)).rc = .kind ∧ Status.kind ≠ .ok :=
        ⟨listGetp_rc_of_kind other i _, by decide⟩
      cases ref with
      | list id =>
          obtain ⟨c, found, list, rfl⟩ := stands
          have fits := (drawn.kept id c found).fits
          rw [follow, found] at fails
          match c with
          | .block .struct n nd np row => exact absurd rfl (list n nd np row)
          | .block .composite n nd np row =>
              dsimp only at fails
              split at fails
              · cases fails
              · next past =>
                cases fails
                exact ⟨listGetp_rc_of_count (m := m) rfl past _, nofun⟩
          | .block .pointers n nd np row =>
              dsimp only at fails
              split at fails
              · cases fails
              · next past =>
                cases fails
                exact ⟨listGetp_rc_of_count (m := m) rfl past _, nofun⟩
          | .flat given =>
              dsimp only at fails
              split at fails
              · next inside =>
                cases fails
                exact ⟨listGetp_rc_of_flat (m := m) rfl fits.2.1 fits.2.2.1 inside _, nofun⟩
              · next past =>
                cases fails
                exact ⟨listGetp_rc_of_count (m := m) rfl past _, nofun⟩
      | null =>
          cases fails
          exact wrong (kind.trans_ne nofun)
      | cap a =>
          cases fails
          exact wrong (kind.trans_ne nofun)
      | row id j =>
          cases fails
          exact wrong (kind.trans_ne nofun)

end

/-! ## Steps that lead to an object -/

section
variable {d : Draft} {place : Nat → BPtr} {b : Builder} {m : Message} (drawn : Drawn d place b)
  (built : m.BuiltFrom b) (few : m.nsegs < 2 ^ 32) (limit : m.depthLimit = defaultDepthLimit)
include drawn built few limit

/-- What a slot shows is what a reader finds there. -/
theorem Drawn.found {s : Slot (Nat × Nat)} {at' : BPtr} (live : Live d place s at') :
    ∃ p cost, m.slotTarget m.depthLimit at'.seg at'.word = some (p, cost) ∧
      cost ≤ d.price (d.resolve (d.drawing.link s)) ∧
      Stands d place p (d.resolve (d.drawing.link s)) := by
  have used := live.used drawn
  have inside := built.inSegment drawn.wf used
  have reads := built.readWord_eq drawn.wf used
  have deep : m.depthLimit ≠ 0 := by
    rw [limit]
    decide
  have shows := drawn.shows s at' live
  cases held : d.drawing.link s with
  | null =>
      rw [held] at shows
      exact ⟨_, 1, slotTarget_zero inside (reads.trans shows) deep, Nat.le_add_left 1 2, rfl⟩
  | leaf a =>
      rw [held] at shows
      exact ⟨_, 1, Message.slotTarget_cap deep inside.1 (reads.trans shows) inside.2,
        Nat.le_add_left 1 2, rfl, makeCap_index a⟩
  | node id =>
      rw [held] at shows
      obtain ⟨c, found, leads, hollow⟩ := shows
      have kept := drawn.kept id c found
      by_cases null : c.pointer 0 = 0
      · obtain ⟨row, rfl⟩ := Content.eq_of_pointer_zero kept.fits null
        refine ⟨Message.structAt at'.seg at'.word 0 0, 1, ?_, ?_, ?_⟩
        · rw [limit]
          exact Message.slotTarget_empty 63 inside (reads.trans (hollow null))
        · rw [price_node found]
          exact Nat.le_add_left 1 _
        · rw [resolve, found]
          exact ⟨_, 1, 0, 0, row, found, Nat.one_pos, _, _, rfl, fun some => absurd rfl some⟩
      · obtain ⟨cost, cheap, named⟩ := (kept.names built few drawn.wf null).slotTarget leads built
          drawn.wf few (kept.segLt.trans_eq built.nsegs) used 62
        rw [limit]
        refine ⟨_, cost, named, ?_, kept.stands found⟩
        rw [price_node found]
        exact cheap

/-- A call that follows a slot. -/
theorem Drawn.followed {s : Slot (Nat × Nat)} {at' : BPtr} (live : Live d place s at') {left : Nat}
    (out : Ptr) (enough : d.price (d.resolve (d.drawing.link s)) ≤ left) :
    ∃ q cost, cost ≤ d.price (d.resolve (d.drawing.link s)) ∧
      m.resolvePtr at'.seg at'.word m.depthLimit out left = ⟨.ok, q, left - cost⟩ ∧
      Stands d place q (d.resolve (d.drawing.link s)) := by
  obtain ⟨q, cost, named, cheap, stands⟩ := drawn.found built few limit live
  exact ⟨q, cost, cheap, Message.resolvePtr_eq named (cheap.trans enough), stands⟩

/-- `capnp_getp` on a row follows its pointers, and finds null behind them. -/
theorem Drawn.getp {p : Ptr} {id i k left : Nat} {next : Ref} (stands : Stands d place p (.row id i))
    (follows : d.follow (.row id i) (.getp k) = .ok next) (enough : d.price next ≤ left) :
    ∃ q cost, cost ≤ d.price next ∧ m.getp p k Ptr.zero left = ⟨.ok, q, left - cost⟩ ∧
      Stands d place q next := by
  obtain ⟨shape, n, nd, np, row, found, hi, seg, word, rfl, host⟩ := stands
  rw [follow, found] at follows
  dsimp only at follows
  by_cases hk : k < np
  · rw [if_pos hk] at follows
    cases follows
    obtain ⟨rfl, rfl⟩ := host (by omega)
    have live : Live d place (.field id (i, k)) _ := .field found hi hk
    have small := (drawn.kept id _ found).addressed built
    have within : Within (place id) (Content.block shape n nd np row).words _ _ := Live.within hi hk
    have last := within.2.2
    obtain ⟨q, cost, cheap, read, stands⟩ := drawn.followed built few limit live Ptr.zero enough
    refine ⟨q, cost, cheap, ?_, stands⟩
    rw [Message.getp_structAt hk]
    · exact read
    · rw [Tree.slotOf] at last
      rw [Content.rowWord]
      omega
  · rw [if_neg hk] at follows
    cases follows
    refine ⟨nullPtr seg 0, 0, Nat.zero_le _, ?_, rfl⟩
    exact if_pos (not_lt.mp hk)

/-- `capnp_list_getp` on a list gives its rows, or follows its pointers. -/
theorem Drawn.listGetp {p : Ptr} {id i left : Nat} {next : Ref}
    (stands : Stands d place p (.list id))
    (follows : d.follow (.list id) (.listGetp i) = .ok next) (enough : d.price next ≤ left) :
    ∃ q cost, cost ≤ d.price next ∧ m.listGetp p i Ptr.zero left = ⟨.ok, q, left - cost⟩ ∧
      Stands d place q next := by
  obtain ⟨c, found, list, rfl⟩ := stands
  have kept := drawn.kept id c found
  have small := kept.addressed built
  rw [follow, found] at follows
  match c with
  | .block .struct n nd np row => exact absurd rfl (list n nd np row)
  | .block .composite n nd np row =>
      dsimp only at follows
      split at follows
      · next hi =>
        cases follows
        exact ⟨_, 0, Nat.zero_le _, Message.listGetp_composite (p := structsAt _ _ n nd np) rfl hi,
          kept.element built found hi⟩
      · cases follows
  | .block .pointers n nd np row =>
      obtain ⟨-, rfl, rfl⟩ := kept.fits
      dsimp only at follows
      split at follows
      · next hi =>
        cases follows
        have live : Live d place (.field id (i, 0)) _ := .field found hi Nat.one_pos
        obtain ⟨q, cost, cheap, read, stands⟩ := drawn.followed built few limit live Ptr.zero enough
        refine ⟨q, cost, cheap, ?_, stands⟩
        have here : sizeT ((place id).word + i) =
            Tree.slotOf .pointers 0 1 (place id).word i 0 := by
          rw [Content.words, show Shape.pointers.header = 0 from rfl] at small
          rw [Tree.slotOf, show Shape.pointers.header = 0 from rfl]
          exact (sizeT_of_lt (n := (place id).word + i) (by omega)).trans (by omega)
        rw [Message.listGetp_pointers rfl rfl hi]
        dsimp only [Content.handle]
        rw [here]
        exact read
      · cases follows
  | .flat list =>
      dsimp only at follows
      split at follows <;> cases follows

/-- A step of a reader comes to the object that hangs there. -/
theorem Drawn.step {p : Ptr} {ref next : Ref} {step : Step} {left : Nat}
    (stands : Stands d place p ref) (follows : d.follow ref step = .ok next)
    (enough : d.price next ≤ left) :
    ∃ q cost, cost ≤ d.price next ∧ m.step p left step = ⟨.ok, q, left - cost⟩ ∧
      Stands d place q next := by
  cases step with
  | getp k =>
      cases ref with
      | row id i => exact drawn.getp built few limit stands follows enough
      | null => cases follows
      | cap a => cases follows
      | list id => cases follows
  | listGetp i =>
      cases ref with
      | list id => exact drawn.listGetp built few limit stands follows enough
      | null => cases follows
      | cap a => cases follows
      | row id j => cases follows

/-- A walk of a reader comes to what the draft says, and costs no more than that. -/
theorem Drawn.walk {r : Resolved} {ref : Ref} {path : List Step} (ok : r.rc = .ok)
    (stands : Stands d place r.out ref) (enough : d.dues ref path ≤ r.left) :
    ComesTo d place (m.walk r path) (d.walk ref path) := by
  induction path generalizing r ref with
  | nil => exact ⟨ok, stands⟩
  | cons step rest ih =>
      rw [Message.walk, if_pos ok, Draft.walk]
      rw [dues] at enough
      cases follows : d.follow ref step with
      | error rc =>
          obtain ⟨fails, failed⟩ := stands.step_fails drawn (m := m) follows
          rw [Message.walk_of_failed (fails.trans_ne failed)]
          exact fails
      | ok next =>
          rw [follows] at enough
          dsimp only at enough
          obtain ⟨q, cost, cheap, read, stands'⟩ :=
            drawn.step built few limit stands follows (Nat.le_of_add_right_le enough)
          rw [read]
          refine ih rfl stands' ?_
          dsimp only
          omega

end

/-! ## Data -/

section
variable {d : Draft} {place : Nat → BPtr} {b : Builder} {m : Message} {host : BPtr}
  (built : m.BuiltFrom b)
include built

/-- The bytes of an object. -/
theorem Kept.byte_eq {c : Content} (kept : Kept b host c) {k : Nat}
    (inside : k < (host.word + c.words) * 8) :
    (m.seg host.seg).data k = (b.seg host.seg).data k := by
  have segLt : host.seg < m.nsegs := kept.segLt.trans_eq built.nsegs
  have whole := kept.inside
  rw [built.words host.seg segLt] at whole
  exact (built.bytes host.seg segLt k (by omega)).symm

/-- The bytes of a list. -/
theorem Kept.listByte_eq {list : Flat} (kept : Kept b host (.flat list)) {k : Nat}
    (inside : k < list.size) :
    m.listByte ((Content.flat list).handle host) k = (b.seg host.seg).data (host.word * 8 + k) := by
  have small := kept.addressed built
  rw [Content.words, wordsFor] at small
  rw [← kept.byte_eq built (by rw [Content.words, wordsFor]; omega)]
  unfold Message.listByte Content.handle
  dsimp only
  rw [← sizeT_of_lt (n := host.word * 8 + k) (by omega)]
  congr 2

/-- A list is read as it was given. -/
theorem Kept.listed {c : Content} (kept : Kept b host c)
    (list : ∀ n nd np row, c ≠ .block .struct n nd np row) : c.Listed m (c.handle host) := by
  have filled := kept.filled
  match c with
  | .block .struct n nd np row => exact absurd rfl (list n nd np row)
  | .block .composite n nd np row => exact ⟨rfl, rfl, rfl, rfl⟩
  | .block .pointers n nd np row => exact ⟨rfl, rfl⟩
  | .flat (.scalars esize width n items) =>
      refine ⟨rfl, rfl, rfl, fun i hi dflt => ?_⟩
      have room := Tree.row_le hi width
      rw [← filled i hi]
      unfold Message.listGetScalar Message.loadElem
      have size : ((Content.flat (.scalars esize width n items)).handle host).esize = esize := rfl
      rw [if_neg, if_pos size]
      · refine loadLe_congr fun k hk => ?_
        rw [kept.listByte_eq built (by rw [Flat.size]; omega)]
        congr 1
        omega
      · rintro (notList | past)
        · exact notList rfl
        · exact absurd hi (not_lt.mpr past)
  | .flat (.bits n items) =>
      refine ⟨rfl, rfl, fun i hi dflt => ?_⟩
      have stored := filled i (by omega)
      rw [decide_eq_true hi, Bool.true_and] at stored
      rw [← stored]
      unfold Message.listGetBool
      rw [if_neg]
      · rw [kept.listByte_eq built (by rw [Flat.size]; omega)]
        rfl
      · rintro (notList | notBit | past)
        · exact notList rfl
        · exact notBit rfl
        · exact absurd hi (not_lt.mpr past)
  | .flat (.bytes given) =>
      refine ⟨rfl, rfl, rfl, listBytes_eq fun k hk => ?_⟩
      rw [← filled k hk]
      exact kept.listByte_eq built hk

/-- The data of a row is read as it was stored, and is the default behind it. -/
theorem Kept.row_looks {shape : Shape} {n nd np i : Nat} {row : Nat → Memory}
    (kept : Kept b host (.block shape n nd np row)) (hi : i < n) {seg word : Nat}
    (at' : nd + np ≠ 0 → seg = host.seg ∧
      word = (Content.block shape n nd np row).rowWord host.word i) :
    (∀ width byteOffset dflt,
      m.getScalar width (Message.structAt seg word nd np) byteOffset dflt =
        if byteOffset + width ≤ nd * 8 then loadLe width (row i) byteOffset else dflt) ∧
      ∀ bitOffset dflt, m.getBool (Message.structAt seg word nd np) bitOffset dflt =
        if bitOffset < nd * 64 then bitOf (row i (bitOffset / 8)) (bitOffset % 8) else dflt := by
  have byte {k : Nat} (hk : k < nd * 8) : (m.seg seg).data (word * 8 + k) = row i k := by
    obtain ⟨rfl, rfl⟩ := at' (by omega)
    have room := Tree.row_le hi (nd + np)
    rw [← kept.filled.2 i hi k hk]
    apply kept.byte_eq built
    rw [Content.words, Content.rowWord]
    omega
  constructor
  · intro width byteOffset dflt
    split
    · next inside =>
      rw [Message.getScalar_structAt inside]
      refine loadLe_congr fun k hk => ?_
      rw [Nat.add_assoc]
      exact byte (by omega)
    · next outside =>
      unfold Message.getScalar
      rw [if_neg]
      simp only [dataHasBytes, Message.structAt, dataBitCount, Ptr.zero, decide_eq_true_eq]
      simp only [ne_eq, not_true_eq_false, if_false]
      omega
  · intro bitOffset dflt
    unfold Message.getBool
    have kind : (Message.structAt seg word nd np).kind = .struct := rfl
    have bits : dataBitCount (Message.structAt seg word nd np) = nd * 64 := rfl
    rw [if_neg (not_not.mpr kind), bits]
    by_cases inside : bitOffset < nd * 64
    · rw [if_neg (not_le.mpr inside), if_pos inside, ← byte (by omega)]
      rfl
    · rw [if_pos (not_lt.mp inside), if_neg inside]

/-- A handle that stands for an object looks like it. -/
theorem Stands.looks (drawn : Drawn d place b) {p : Ptr} {ref : Ref}
    (stands : Stands d place p ref) : d.Looks m p ref := by
  match ref with
  | .null => exact stands
  | .cap a => exact stands
  | .row id i =>
      obtain ⟨shape, n, nd, np, row, found, hi, seg, word, rfl, at'⟩ := stands
      exact ⟨shape, n, nd, np, row, found, rfl, rfl, rfl,
        (drawn.kept id _ found).row_looks built hi at'⟩
  | .list id =>
      have kind := stands.kind
      obtain ⟨c, found, list, rfl⟩ := stands
      exact ⟨c, found, kind, (drawn.kept id c found).listed built list⟩

end

/-! ## What a session has built -/

/-- Where every reader starts. -/
def top (d : Draft) : Ref := d.resolve (d.drawing.link .root)

section
variable {d : Draft} {place : Nat → BPtr} {b : Builder} {m : Message} (drawn : Drawn d place b)
  (started : d.started = true) (built : m.BuiltFrom b) (few : m.nsegs < 2 ^ 32)
  (limit : m.depthLimit = defaultDepthLimit) (path : List Step) {left : Nat}
  (enough : d.price d.top + d.dues d.top path ≤ left)
include drawn started built few limit enough

/-- A walk from the root comes to what the draft says. -/
theorem Drawn.comes :
    ComesTo d place (m.walk (m.root Ptr.zero left) path) (d.walk d.top path) := by
  have segLt := drawn.wf.lt_of_used (drawn.started started)
  have start : d.price d.top ≤ left := Nat.le_of_add_right_le enough
  obtain ⟨q, cost, cheap, read, stands⟩ :=
    drawn.followed built few limit (.root started) Ptr.zero start
  have root : m.root Ptr.zero left = ⟨.ok, q, left - cost⟩ := by
    rw [Message.root, if_neg (by rw [← built.nsegs]; omega)]
    exact read
  have rest : d.dues d.top path ≤ (⟨.ok, q, left - cost⟩ : Resolved).left := by
    change cost ≤ d.price d.top at cheap
    dsimp only
    omega
  rw [root]
  exact drawn.walk built few limit rfl stands rest

/-- A message that holds what the arena has drawn is read as the draft says. -/
theorem Drawn.reads : d.Answers m (m.walk (m.root Ptr.zero left) path) (d.walk d.top path) := by
  have comes := drawn.comes started built few limit path enough
  cases leads : d.walk d.top path with
  | ok last =>
      rw [leads] at comes
      exact ⟨comes.1, comes.2.looks built drawn⟩
  | error rc =>
      rw [leads] at comes
      exact comes

end

/-- What is within the limit can be parsed again. -/
theorem parsed_of_inLimit {b : Builder} (wf : b.Wf) (limit : b.InLimit) (few : b.nsegs ≤ maxSegments)
    {flat : List UInt8} (done : b.serialize = .ok flat) :
    ∃ m, messageFromFlat flat = .ok m ∧ m.BuiltFrom b ∧ m.nsegs < 2 ^ 32 ∧
      m.depthLimit = defaultDepthLimit := by
  have small : ∀ s < b.nsegs, (b.seg s).words < 2 ^ 32 := fun s _ => (limit s).trans_lt (by decide)
  obtain ⟨m, parsed, built⟩ := (serialize_reads wf done).mpr ⟨few, small⟩
  refine ⟨m, parsed, built, ?_, ?_⟩
  · rw [← built.nsegs]
    exact few.trans_lt (by decide)
  · obtain ⟨-, rfl⟩ := Frame.parseFlat_eq_ok_iff.mp parsed
    rfl

/-- What has been started can be serialized. -/
theorem Drawn.serialize_eq {d : Draft} {place : Nat → BPtr} {b : Builder} (drawn : Drawn d place b)
    (started : d.started = true) : b.serialize = .ok b.flatBytes := by
  have used := drawn.started started
  have some := drawn.wf.nonempty
  unfold Used at used
  exact if_neg (by omega)

/-- What a session has built is what a reader finds.  Whatever the sizes of the
segments are and whenever their limit was changed, a message of at most 16 segments
within the default limit is serialized and parsed again, and every walk from its
root comes to what the draft says, if the traversal budget has the words of the
objects on the way and three for each. -/
theorem session_reads_back {firstWords : Nat} {o : Arena × Draft}
    (reached : Reached (Arena.init firstWords, blank) (observed Arena.step note)
      (fun o next => means o next) o)
    (started : o.2.started = true) (limit : o.1.b.InLimit) (few : o.1.b.nsegs ≤ maxSegments) :
    ∃ flat m, o.1.b.serialize = .ok flat ∧ messageFromFlat flat = .ok m ∧
      ∀ (path : List Step) (left : Nat), o.2.price o.2.top + o.2.dues o.2.top path ≤ left →
        o.2.Answers m (m.walk (m.root Ptr.zero left) path) (o.2.walk o.2.top path) := by
  obtain ⟨inv, drafted⟩ := drafted_of_reached reached
  obtain ⟨place, draws⟩ := drafted limit
  have done := draws.drawn.serialize_eq started
  obtain ⟨m, parsed, built, short, deep⟩ := parsed_of_inLimit inv.wf limit few done
  exact ⟨_, m, done, parsed, fun path left enough =>
    draws.drawn.reads started built short deep path enough⟩

/-- A struct with a number and a text, each object in a segment of its own. -/
def spread : List ArenaCall :=
  [.setMaxSegWords 2, .build .root, .build (.struct 0 1 1), .build (.setScalar 8 0 0 7),
    .build (.setText 0 1 0 [104, 105])]

/-- The arena and the draft after it. -/
def spreadEnd : Arena × Draft := spread.foldl (observed Arena.step note) (Arena.init 1, blank)

theorem session_reads_back_spread :
    ∃ flat m, spreadEnd.1.b.serialize = .ok flat ∧ messageFromFlat flat = .ok m ∧
      ∀ (path : List Step) (left : Nat),
        spreadEnd.2.price spreadEnd.2.top + spreadEnd.2.dues spreadEnd.2.top path ≤ left →
          spreadEnd.2.Answers m (m.walk (m.root Ptr.zero left) path)
            (spreadEnd.2.walk spreadEnd.2.top path) := by
  have reached : Reached (Arena.init 1, blank) (observed Arena.step note)
      (fun o next => means o next) spreadEnd :=
    Reached.start.of_passes (fun _ _ kept => kept) (by decide +kernel)
  exact session_reads_back reached (by decide +kernel)
    (inLimit_of_segments (drafted_of_reached reached).1.wf (by decide +kernel)) (by decide +kernel)

example : spreadEnd.1.b.nsegs = 4 := by decide +kernel

example : spreadEnd.2.walk spreadEnd.2.top [.getp 0] = .ok (.list 1) := rfl

end Draft

end CapnpJanet
