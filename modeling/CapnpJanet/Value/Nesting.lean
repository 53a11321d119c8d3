import CapnpJanet.Canonical.Render

/-!
# Chains of reads and the depth limit

A chain starts at the root and reads on from each result.  `capnp_root`,
`capnp_getp` and `capnp_list_getp` all hand the limit of the message to
`resolve_ptr`, so every read starts with the whole of it and the limit counts
the far pointers of one read only.  What ends a chain is the traversal budget.
`Within` looks at the message instead: how far down its objects reach that the
budget can pay for.
-/

namespace CapnpJanet

/-- How a chain reads on: pointer `k` of a struct, or element `i` of a list. -/
inductive Child
  | pointer (k : Nat)
  | element (i : Nat)
deriving DecidableEq, Repr

/-- The read goes through a pointer; the elements of a composite list are in
its body. -/
def Ptr.through (p : Ptr) : Child → Bool
  | .pointer _ => true
  | .element _ => p.esize = .ptr

/-- A read that comes to an object. -/
def Resolved.Reaches (r : Resolved) : Prop := r.rc = .ok ∧ r.out.kind ≠ .null

/-- The pointers in each row of a handle. -/
def Ptr.width (p : Ptr) : Nat :=
  match p.form with
  | .block .struct => p.pwords
  | .block .composite => p.pwords
  | .block .pointers => 1
  | _ => 0

namespace Message

/-- One read of a chain. -/
def readChild (m : Message) (p : Ptr) (child : Child) (out : Ptr) (left : Nat) : Resolved :=
  match child with
  | .pointer k => m.getp p k out left
  | .element i => m.listGetp p i out left

/-- A null pointer leads to no object. -/
def followed (through : Bool) (q : Ptr) : Nat := if through ∧ q.kind ≠ .null then 1 else 0

/-- A chain of successful reads that starts with a budget: how many pointers it
has followed, the handle it has come to and the budget it has left. -/
inductive Chain (m : Message) (left : Nat) : (count : Nat) → Ptr → (rest : Nat) → Prop
  | root {out p : Ptr} {rest : Nat} (read : m.root out left = ⟨.ok, p, rest⟩) :
      Chain m left (followed true p) p rest
  | next {count rest rest' : Nat} {p out q : Ptr} (chain : Chain m left count p rest)
      (child : Child) (read : m.readChild p child out rest = ⟨.ok, q, rest'⟩) :
      Chain m left (count + followed (p.through child) q) q rest'

/-- The message under another limit. -/
def withLimit (m : Message) (limit : Nat) : Message := { m with depthLimit := limit }

/-- The depth limit bounds the chains of a message: none follows more pointers,
and a read that would be the next is refused with `CAPNP_ERR_DEPTH` when it is
one that another limit lets through. -/
structure DepthBounds (m : Message) (left : Nat) : Prop where
  bounded : ∀ count p rest, Chain m left count p rest → count ≤ m.depthLimit
  noRoot : m.depthLimit = 0 → ∀ out limit,
    Resolved.Reaches ((m.withLimit limit).root out left) → (m.root out left).rc = .depth
  refused : ∀ p rest, Chain m left m.depthLimit p rest → ∀ child out limit,
    p.through child = true →
      Resolved.Reaches ((m.withLimit limit).readChild p child out rest) →
        (m.readChild p child out rest).rc = .depth

/-- The objects below a handle, as far as a budget covers reading down to them,
lie within a number of levels, its own included. -/
def Within (m : Message) : (levels : Nat) → Ptr → (left : Nat) → Prop
  | 0, p, _ => p.kind = .null
  | levels + 1, p, left =>
      ∀ i < p.rows, ∀ k < p.width, ∀ priced ∈ m.link p i k,
        priced.2 ≤ left → m.Within levels priced.1 (left - priced.2)

/-- The objects of a message, as far as a budget covers reading down to them,
lie within its depth limit. -/
def Shallow (m : Message) (left : Nat) : Prop :=
  ∀ priced ∈ m.rootTarget,
    priced.2 ≤ left → m.Within m.depthLimit priced.1 (left - priced.2)

/-! ## Reads under another limit -/

section
variable {m : Message} {seg word limit left : Nat} {p q out : Ptr}

/-- Only the number of levels tells the limits apart. -/
theorem resolveWord_withLimit (depth w : Nat) :
    (m.withLimit limit).resolveWord depth seg word w out left =
      m.resolveWord depth seg word w out left := by
  induction depth generalizing seg word w out left with
  | zero => rfl
  | succ depth ih =>
      unfold resolveWord
      dsimp only
      simp only [ih]
      rfl

/-- What another number of levels lets through, this one lets through too or
refuses for want of levels.  The induction follows the far pointers. -/
theorem resolveWord_levels {other : Nat} (depth w : Nat)
    (ok : (m.resolveWord other seg word w out left).rc = .ok) :
    m.resolveWord depth seg word w out left = m.resolveWord other seg word w out left ∨
      (m.resolveWord depth seg word w out left).rc = .depth := by
  induction depth generalizing other seg word w out left with
  | zero => exact .inr rfl
  | succ depth ih =>
      cases other with
      | zero => cases ok
      | succ other =>
          rw [resolveWord] at ok
          rw [resolveWord, resolveWord]
          split
          · exact .inl rfl
          · next some =>
            rw [if_neg some] at ok
            cases kind : wpKind w with
            | far =>
                rw [kind] at ok
                dsimp only at ok ⊢
                split
                · exact .inl rfl
                · next single =>
                  rw [if_neg single] at ok
                  split
                  · exact .inl rfl
                  · next inside =>
                    rw [if_neg inside] at ok
                    cases paid : charge 1 left with
                    | none => exact .inl rfl
                    | some rest =>
                        rw [paid] at ok
                        exact ih _ ok
            | _ => exact .inl rfl

theorem resolvePtr_levels
    (reaches : ((m.withLimit limit).resolvePtr seg word limit out left).rc = .ok) :
    m.resolvePtr seg word m.depthLimit out left =
        (m.withLimit limit).resolvePtr seg word limit out left ∨
      (m.resolvePtr seg word m.depthLimit out left).rc = .depth := by
  have bounds : (m.withLimit limit).boundsWord seg word = m.boundsWord seg word := rfl
  unfold resolvePtr at reaches ⊢
  rw [bounds] at reaches ⊢
  split
  · exact .inl rfl
  · next inside =>
    rw [if_neg inside] at reaches
    cases paid : charge 1 left with
    | none => exact .inl rfl
    | some rest =>
        rw [paid] at reaches
        dsimp only at reaches ⊢
        rw [resolveWord_withLimit] at reaches ⊢
        exact resolveWord_levels _ _ reaches

theorem readChild_levels {child : Child} (isPointer : p.through child = true)
    (reaches : Resolved.Reaches ((m.withLimit limit).readChild p child out left)) :
    m.readChild p child out left = (m.withLimit limit).readChild p child out left ∨
      (m.readChild p child out left).rc = .depth := by
  obtain ⟨ok, -⟩ := reaches
  cases child with
  | pointer k =>
      unfold readChild getp at ok ⊢
      dsimp only at ok ⊢
      split
      · exact .inl rfl
      · next isStruct =>
        rw [if_neg isStruct] at ok
        split
        · exact .inl rfl
        · next inside =>
          rw [if_neg inside] at ok
          exact resolvePtr_levels ok
  | element i =>
      have pointers : p.esize = .ptr := of_decide_eq_true isPointer
      unfold readChild listGetp at ok ⊢
      dsimp only at ok ⊢
      split
      · exact .inl rfl
      · next isList =>
        rw [if_neg isList] at ok
        split
        · exact .inl rfl
        · next inside =>
          rw [if_neg inside, pointers] at ok
          rw [pointers]
          exact resolvePtr_levels ok

theorem root_levels (reaches : Resolved.Reaches ((m.withLimit limit).root out left)) :
    m.root out left = (m.withLimit limit).root out left ∨ (m.root out left).rc = .depth := by
  obtain ⟨ok, -⟩ := reaches
  unfold root at ok ⊢
  have segments : (m.withLimit limit).nsegs = m.nsegs := rfl
  rw [segments] at ok ⊢
  split
  · exact .inl rfl
  · next some =>
    rw [if_neg some] at ok
    exact resolvePtr_levels ok

end

/-! ## Chains and the objects below a handle -/

section
variable {m : Message} {left count rest cost levels i k : Nat} {p q : Ptr}

theorem followed_null {through : Bool} (null : q.kind = .null) : followed through q = 0 :=
  if_neg fun both => both.2 null

theorem followed_some (some : q.kind ≠ .null) : followed true q = 1 := if_pos ⟨rfl, some⟩

/-- A pointer of a row is read on a chain. -/
theorem Chain.link (chain : Chain m left count p rest) (row : i < p.rows) (inside : k < p.width)
    (found : m.link p i k = some (q, cost)) (enough : cost ≤ rest) :
    Chain m left (count + followed true q) q (rest - cost) := by
  unfold Message.link at found
  unfold Ptr.rows at row
  unfold Ptr.width at inside
  cases form : p.form with
  | block shape =>
      rw [form] at found row inside
      cases shape with
      | struct =>
          have first : i = 0 := Nat.lt_one_iff.mp row
          dsimp only at found
          rw [if_pos first] at found
          have agrees : Agrees (m.getp p k p rest) (m.fieldTarget p k) rest :=
            getp_agrees (Ptr.form_eq_struct form)
          exact chain.next (.pointer k) (agrees.covered q cost found enough)
      | composite =>
          dsimp only at found
          rw [if_pos row] at found
          have element : m.listGetp p i p rest = ⟨.ok, elemPtr p i, rest⟩ :=
            listGetp_composite form row
          have inBody : followed (p.through (.element i)) (elemPtr p i) = 0 := by
            rw [Ptr.through, (Ptr.form_eq_composite form).2]
            rfl
          have agrees : Agrees (m.getp (elemPtr p i) k p rest) (m.fieldTarget (elemPtr p i) k) rest :=
            getp_agrees rfl
          have reached := (chain.next (.element i) element).next (.pointer k)
            (agrees.covered q cost found enough)
          rwa [inBody] at reached
      | pointers =>
          dsimp only at found
          have first : k = 0 := Nat.lt_one_iff.mp inside
          rw [if_pos ⟨row, first⟩] at found
          have agrees : Agrees (m.listGetp p i p rest) (m.itemTarget p i) rest :=
            listGetp_agrees form row
          have behind : p.through (.element i) = true :=
            decide_eq_true (Ptr.form_eq_pointers form).2
          have reached := chain.next (.element i) (agrees.covered q cost found enough)
          rwa [behind] at reached
  | _ =>
      rw [form] at row
      exact absurd row (Nat.not_lt_zero i)

theorem within_null (null : p.kind = .null) : m.Within levels p left := by
  cases levels with
  | zero => exact null
  | succ levels =>
      intro i row
      unfold Ptr.rows at row
      rw [form_of_null null] at row
      exact absurd row (Nat.not_lt_zero i)

/-- If no chain is longer than the limit, then what a chain comes to lies within
the levels that are left. -/
theorem within_of_bounded
    (bounded : ∀ count p rest, Chain m left count p rest → count ≤ m.depthLimit)
    (chain : Chain m left count p rest) (sum : count + levels = m.depthLimit) :
    m.Within (levels + 1) p rest := by
  induction levels generalizing count p rest with
  | zero =>
      intro i row k inside priced found enough
      by_contra some
      have longer := bounded _ _ _ (chain.link row inside found enough)
      rw [followed_some some] at longer
      omega
  | succ levels ih =>
      intro i row k inside priced found enough
      have longer := chain.link row inside found enough
      by_cases null : priced.1.kind = .null
      · exact within_null null
      · rw [followed_some null] at longer
        exact ih longer (by omega)

/-- Where a chain has come to in a shallow message. -/
def Placed (m : Message) (count : Nat) (p : Ptr) (rest : Nat) : Prop :=
  count ≤ m.depthLimit ∧
    (p.kind = .null ∨ ∃ levels, count + levels = m.depthLimit ∧ m.Within (levels + 1) p rest)

/-- One pointer further. -/
theorem Placed.link (sum : count + levels = m.depthLimit)
    (within : m.Within (levels + 1) p rest) (row : i < p.rows) (inside : k < p.width)
    (found : m.link p i k = some (q, cost)) (enough : cost ≤ rest) :
    m.Placed (count + followed true q) q (rest - cost) := by
  have below := within i row k inside (q, cost) found enough
  by_cases null : q.kind = .null
  · rw [followed_null null]
    exact ⟨by omega, .inl null⟩
  · rw [followed_some null]
    cases levels with
    | zero => exact absurd below null
    | succ levels => exact ⟨by omega, .inr ⟨levels, by omega, below⟩⟩

theorem Ptr.form_of_struct {p : Ptr} (isStruct : p.kind = .struct) : p.form = .block .struct := by
  rw [Ptr.form, isStruct]

/-- One read further. -/
theorem Placed.next {rest' : Nat} {out : Ptr} (placed : m.Placed count p rest) (child : Child)
    (read : m.readChild p child out rest = ⟨.ok, q, rest'⟩) :
    m.Placed (count + followed (p.through child) q) q rest' := by
  obtain ⟨few, null | ⟨levels, sum, within⟩⟩ := placed
  · cases child <;> simp [readChild, getp, listGetp, null] at read
  cases child with
  | pointer k =>
      have isStruct : p.kind = .struct := by
        by_contra other
        rw [readChild, getp, if_pos other] at read
        cases read
      have form := Ptr.form_of_struct isStruct
      have agrees : Agrees (m.getp p k out rest) (m.fieldTarget p k) rest := getp_agrees isStruct
      rw [readChild] at read
      rw [read] at agrees
      obtain ⟨cost, enough, found, spent⟩ := agrees.of_ok rfl
      by_cases inside : k < p.pwords
      · have below : m.Placed (count + followed true q) q (rest - cost) :=
          Placed.link (i := 0) (k := k) sum within (by rw [Ptr.rows, form]; exact Nat.one_pos)
            (by rwa [Ptr.width, form]) (by rw [Message.link, form]; exact found) enough
        rwa [← spent] at below
      · rw [fieldTarget, if_pos (not_lt.mp inside)] at found
        have null : q.kind = .null := by
          cases found
          rfl
        rw [followed_null null]
        exact ⟨few, .inl null⟩
  | element i =>
      rw [readChild] at read
      by_cases pointers : p.form = .block .pointers
      · have inside : i < p.count := by
          by_contra past
          rw [listGetp, if_neg (not_not.mpr (Ptr.form_eq_pointers pointers).1),
            if_pos (not_lt.mp past)] at read
          cases read
        have agrees : Agrees (m.listGetp p i out rest) (m.itemTarget p i) rest :=
          listGetp_agrees pointers inside
        rw [read] at agrees
        obtain ⟨cost, enough, found, spent⟩ := agrees.of_ok rfl
        have behind : p.through (.element i) = true :=
          decide_eq_true (Ptr.form_eq_pointers pointers).2
        have below : m.Placed (count + followed true q) q (rest - cost) :=
          Placed.link (i := i) (k := 0) sum within (by rwa [Ptr.rows, pointers])
            (by rw [Ptr.width, pointers]; exact Nat.one_pos)
            (by rw [Message.link, pointers]; exact (if_pos ⟨inside, rfl⟩).trans found) enough
        rw [behind]
        rwa [← spent] at below
      by_cases composite : p.form = .block .composite
      · have inside : i < p.count := by
          by_contra past
          rw [listGetp, if_neg (not_not.mpr (Ptr.form_eq_composite composite).1),
            if_pos (not_lt.mp past)] at read
          cases read
        rw [listGetp_composite composite inside] at read
        cases read
        have inBody : followed (p.through (.element i)) (elemPtr p i) = 0 := by
          rw [Ptr.through, (Ptr.form_eq_composite composite).2]
          rfl
        rw [inBody]
        refine ⟨few, .inr ⟨levels, sum, fun row first k within' priced found => ?_⟩⟩
        have here : row = 0 := Nat.lt_one_iff.mp first
        subst here
        refine within i (by rwa [Ptr.rows, composite]) k (by rwa [Ptr.width, composite]) priced ?_
        rw [Message.link, composite]
        exact (if_pos inside).trans found
      · unfold listGetp at read
        split at read
        · cases read
        · next isList =>
          split at read
          · cases read
          · rw [not_not] at isList
            unfold Ptr.form at pointers composite
            rw [isList] at pointers composite
            cases esize : p.esize with
            | ptr => exact absurd (by rw [esize]) pointers
            | composite => exact absurd (by rw [esize]) composite
            | _ =>
                rw [esize] at read
                cases read

theorem placed_of_chain (shallow : m.Shallow left) (chain : Chain m left count p rest) :
    m.Placed count p rest := by
  induction chain with
  | @root out p rest read =>
      have agrees := m.root_agrees out left
      rw [read] at agrees
      obtain ⟨cost, enough, found, spent⟩ := agrees.of_ok rfl
      have within := shallow (p, cost) found enough
      by_cases null : p.kind = .null
      · rw [followed_null null]
        exact ⟨Nat.zero_le _, .inl null⟩
      · rw [followed_some null]
        rw [← spent] at within
        cases limit : m.depthLimit with
        | zero =>
            rw [limit] at within
            exact absurd within null
        | succ levels =>
            rw [limit] at within
            exact ⟨by omega, .inr ⟨levels, by omega, within⟩⟩
  | next _ child read ih => exact ih.next child read

/-- The depth limit bounds the chains of exactly the messages whose objects
lie within it: those for which the limit makes no difference. -/
theorem depth_bounds_iff (m : Message) (left : Nat) : m.DepthBounds left ↔ m.Shallow left := by
  constructor
  · rintro ⟨bounded, -, -⟩ priced found enough
    have chain : Chain m left (followed true priced.1) priced.1 (left - priced.2) :=
      Chain.root ((m.root_agrees priced.1 left).covered _ _ found enough)
    by_cases null : priced.1.kind = .null
    · exact within_null null
    · rw [followed_some null] at chain
      have one := bounded _ _ _ chain
      obtain ⟨levels, same⟩ := Nat.exists_eq_add_of_le one
      rw [same, Nat.add_comm]
      exact within_of_bounded bounded chain same.symm
  · intro shallow
    have bounded (count : Nat) (p : Ptr) (rest : Nat) (chain : Chain m left count p rest) :
        count ≤ m.depthLimit := (placed_of_chain shallow chain).1
    refine ⟨bounded, fun limit out other reaches => ?_, ?_⟩
    · rcases root_levels reaches with same | refused
      · obtain ⟨ok, some⟩ := reaches
        rw [← same] at ok some
        have chain : Chain m left (followed true (m.root out left).out) (m.root out left).out
            (m.root out left).left := Chain.root (by rw [← ok])
        have longer := bounded _ _ _ chain
        rw [followed_some some] at longer
        omega
      · exact refused
    · intro p rest chain child out other isPointer reaches
      rcases readChild_levels isPointer reaches with same | refused
      · obtain ⟨ok, some⟩ := reaches
        rw [← same] at ok some
        have read : m.readChild p child out rest =
            ⟨.ok, (m.readChild p child out rest).out, (m.readChild p child out rest).left⟩ := by
          rw [← ok]
        have longer := bounded _ _ _ (chain.next child read)
        rw [isPointer, followed_some some] at longer
        omega
      · exact refused

end

/-- A message whose root is a struct with one pointer, which is the root
pointer itself. -/
def selfReferring : Message where
  nsegs := 1
  seg := fun _ => ⟨ByteMemory.ofList [252, 255, 255, 255, 0, 0, 1, 0], 1, by decide⟩
  depthLimit := defaultDepthLimit

/-- The struct at the root of it. -/
def selfPtr : Ptr := { Ptr.zero with kind := .struct, pwords := 1 }

theorem selfReferring_chain (left : Nat) (n : Nat) (enough : 2 * (n + 1) ≤ left) :
    Chain selfReferring left (n + 1) selfPtr (left - 2 * (n + 1)) := by
  have target : selfReferring.rootTarget = some (selfPtr, 2) := by
    decide +kernel
  induction n with
  | zero => exact Chain.root ((root_agrees _ selfPtr left).covered _ _ target enough)
  | succ n ih =>
      have read : selfReferring.getp selfPtr 0 selfPtr (left - 2 * (n + 1)) =
          ⟨.ok, selfPtr, left - 2 * (n + 1) - 2⟩ := by
        have agrees : Agrees (selfReferring.getp selfPtr 0 selfPtr (left - 2 * (n + 1))) _ _ :=
          getp_agrees rfl
        exact agrees.covered _ _ target (by omega)
      have rest : left - 2 * (n + 1) - 2 = left - 2 * (n + 1 + 1) := by omega
      rw [rest] at read
      exact (ih (by omega)).next (.pointer 0) read

/-- A chain follows more pointers than the limit allows. -/
theorem depth_not_bounded : ¬selfReferring.DepthBounds defaultTraversalWords := fun bounds =>
  absurd (bounds.bounded _ _ _ (selfReferring_chain defaultTraversalWords 64 (by decide)))
    (by decide)

end Message

end CapnpJanet
