import Mathlib.Data.List.Basic
import Mathlib.Logic.Function.Basic

/-!
# Forests that are drawn slot by slot

Nodes come one after the other and keep their number.  Each has a content and
slots, and a slot holds nothing, a leaf, or a node.  A drawing has one more slot,
its root.  It grows by hanging a new node into a slot, and changes by emptying a
slot, by putting a leaf there, and by changing the content of a node; whatever is
cut off stays where it is.
-/

/-- What a slot holds. -/
inductive Link (α : Type) where
  | null
  | leaf (a : α)
  | node (id : Nat)

/-- A slot of a drawing: its root, or a slot of a node. -/
inductive Slot (κ : Type) where
  | root
  | field (id : Nat) (key : κ)
deriving DecidableEq

/-- A link when the nodes have other numbers. -/
def Link.rename {α : Type} (name : Nat → Nat) : Link α → Link α
  | .null => .null
  | .leaf a => .leaf a
  | .node id => .node (name id)

/-- A slot when the nodes have other numbers. -/
def Slot.rename {κ : Type} (name : Nat → Nat) : Slot κ → Slot κ
  | .root => .root
  | .field id key => .field (name id) key

/-- The root, or a slot of one of these nodes. -/
def Slot.Of {κ : Type} (seen : Nat → Prop) : Slot κ → Prop
  | .root => True
  | .field id _ => seen id

/-- The contents of the nodes, and what the slots hold.  A node that has not come
yet holds nothing. -/
structure Forest (κ α δ : Type) where
  nodes : List δ
  link : Slot κ → Link α
  unborn : ∀ id key, nodes.length ≤ id → link (.field id key) = .null

namespace Forest

variable {κ α δ : Type}

/-- The root, or a slot of one of the first `n` nodes. -/
def Born (n : Nat) : Slot κ → Prop
  | .root => True
  | .field id _ => id < n

instance (n : Nat) : (s : Slot κ) → Decidable (Born n s)
  | .root => instDecidableTrue
  | .field id _ => Nat.decLt id n

/-- A drawing without nodes. -/
def empty : Forest κ α δ := ⟨[], fun _ => .null, fun _ _ _ => rfl⟩

/-- A node has another content. -/
def rewrite (f : Forest κ α δ) (id : Nat) (d : δ) : Forest κ α δ :=
  { f with
    nodes := f.nodes.set id d
    unborn := fun id' key unborn => f.unborn id' key (by rwa [List.length_set] at unborn) }

variable {f : Forest κ α δ} {s : Slot κ} {l : Link α} {d : δ} {id : Nat}

theorem born_mono {n n' : Nat} (more : n ≤ n') (born : Born n s) : Born n' s := by
  cases s with
  | root => trivial
  | field id key => exact Nat.lt_of_lt_of_le born more

theorem node_rewrite_self (inside : id < f.nodes.length) :
    (f.rewrite id d).nodes[id]? = some d := by
  rw [rewrite, List.getElem?_set_self inside]

theorem node_rewrite_of_ne {id' : Nat} (other : id' ≠ id) :
    (f.rewrite id d).nodes[id']? = f.nodes[id']? := by
  rw [rewrite, List.getElem?_set_ne other.symm]

/-- What hangs from the root of one drawing hangs from the root of another, with
other numbers.  The nodes that are seen include those that hang from seen slots; what
else there is makes no difference. -/
structure Renames (f f' : Forest κ α δ) (seen : Nat → Prop) (name : Nat → Nat) : Prop where
  nodes : ∀ id, seen id → f'.nodes[name id]? = f.nodes[id]?
  links : ∀ s, Slot.Of seen s → f'.link (s.rename name) = (f.link s).rename name
  closed : ∀ s id, Slot.Of seen s → f.link s = .node id → seen id

variable [DecidableEq κ]

/-- A slot holds something else. -/
def put (f : Forest κ α δ) (s : Slot κ) (l : Link α) : Forest κ α δ :=
  if born : Born f.nodes.length s then
    { f with
      link := Function.update f.link s l
      unborn := fun id key unborn => by
        rw [Function.update_of_ne]
        · exact f.unborn id key unborn
        · rintro rfl
          exact (Nat.not_lt.mpr unborn born).elim }
  else f

/-- A new node hangs from a slot. -/
def hang (f : Forest κ α δ) (s : Slot κ) (d : δ) : Forest κ α δ :=
  if Born f.nodes.length s then
    put { f with
      nodes := f.nodes ++ [d]
      unborn := fun id key unborn => f.unborn id key (by
        rw [List.length_append, List.length_singleton] at unborn
        exact Nat.le_of_succ_le unborn) } s (.node f.nodes.length)
  else f

@[simp]
theorem nodes_put (f : Forest κ α δ) (s : Slot κ) (l : Link α) : (f.put s l).nodes = f.nodes := by
  unfold put
  split <;> rfl

theorem link_put_self (born : Born f.nodes.length s) : (f.put s l).link s = l := by
  rw [put, dif_pos born]
  exact Function.update_self s l f.link

theorem link_put_of_ne {t : Slot κ} (other : t ≠ s) : (f.put s l).link t = f.link t := by
  unfold put
  split
  · exact Function.update_of_ne other l f.link
  · rfl

theorem nodes_hang (born : Born f.nodes.length s) : (f.hang s d).nodes = f.nodes ++ [d] := by
  rw [hang, if_pos born, nodes_put]

theorem node_hang_new (born : Born f.nodes.length s) :
    (f.hang s d).nodes[f.nodes.length]? = some d := by
  rw [nodes_hang born, List.getElem?_concat_length]

theorem node_hang_old (found : f.nodes[id]? = some d) (born : Born f.nodes.length s) (d' : δ) :
    (f.hang s d').nodes[id]? = some d := by
  rw [nodes_hang born, List.getElem?_append_left (List.getElem?_eq_some_iff.mp found).1]
  exact found

/-- The nodes after one more has been hung: the new one and those that were. -/
theorem node_hang_cases {d' : δ} (born : Born f.nodes.length s)
    (found : (f.hang s d).nodes[id]? = some d') :
    (id = f.nodes.length ∧ d' = d) ∨ f.nodes[id]? = some d' := by
  rw [nodes_hang born] at found
  rcases Nat.lt_trichotomy id f.nodes.length with before | same | past
  · rw [List.getElem?_append_left before] at found
    exact .inr found
  · subst same
    rw [List.getElem?_concat_length] at found
    exact .inl ⟨rfl, (Option.some.inj found).symm⟩
  · rw [List.getElem?_eq_none (by rwa [List.length_append, List.length_singleton])] at found
    cases found

theorem link_hang_self (born : Born f.nodes.length s) :
    (f.hang s d).link s = .node f.nodes.length := by
  rw [hang, if_pos born]
  apply link_put_self
  apply born_mono _ born
  rw [List.length_append]
  exact Nat.le_add_right _ _

theorem link_hang_of_ne {t : Slot κ} (other : t ≠ s) : (f.hang s d).link t = f.link t := by
  unfold hang
  split
  · exact link_put_of_ne other
  · rfl

/-- A new node holds nothing. -/
theorem link_hang_new (born : Born f.nodes.length s) (key : κ) :
    (f.hang s d).link (.field f.nodes.length key) = .null := by
  rw [link_hang_of_ne]
  · exact f.unborn _ key (Nat.le_refl _)
  · rintro rfl
    exact (Nat.lt_irrefl _ born).elim

end Forest
