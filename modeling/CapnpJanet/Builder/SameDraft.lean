import CapnpJanet.Builder.Held
import CapnpJanet.Canonical.Function

/-!
# Messages of drafts that are alike

Two drafts are alike if readers that start at their roots and take the same steps
come to objects that look the same.  In which order the objects came, which of them
have been cut off since, and which handles the client holds is all the same then.
Two sessions whose drafts are alike make messages of equal values, in segments of
any sizes, and the canonical forms of these are the same bytes; and only such
drafts do.
-/

namespace CapnpJanet

open ByteMemory Builder Run Paths

namespace Draft

/-! ## Drafts that are alike -/

/-- One step along the same pointer in both drafts. -/
def Follows (d d' : Draft) (pair next : Ref × Ref) : Prop :=
  ∃ i k, d.behind pair.1 i k = some next.1 ∧ d'.behind pair.2 i k = some next.2

/-- Two objects look the same, as far as they reach themselves.  Data words that
are zero and pointers that are null may be missing at the end of a row. -/
structure SameHere (d d' : Draft) (pair : Ref × Ref) : Prop where
  kind : pair.1.kind = pair.2.kind
  esize : d.esize pair.1 = d'.esize pair.2
  count : d.count pair.1 = d'.count pair.2
  data : ∀ i j, d.datum pair.1 i j = d'.datum pair.2 i j
  links : ∀ i k, (d.behind pair.1 i k).isSome = (d'.behind pair.2 i k).isSome
  bits : ∀ x < d.count pair.1 * (d.esize pair.1).bits, d.listBit pair.1 x = d'.listBit pair.2 x

/-- What the same steps lead to looks the same. -/
def AlikeFrom (d d' : Draft) (ref ref' : Ref) : Prop :=
  Everywhere (Follows d d') (SameHere d d') (ref, ref')

/-- Two drafts look the same to every reader. -/
def Alike (d d' : Draft) : Prop := d.AlikeFrom d' d.top d'.top

theorem SameHere.refl (d : Draft) (ref : Ref) : SameHere d d (ref, ref) :=
  ⟨rfl, rfl, rfl, fun _ _ => rfl, fun _ _ => rfl, fun _ _ => rfl⟩

/-- A draft is alike itself. -/
theorem Alike.refl (d : Draft) : Alike d d := by
  refine Everywhere.of_invariant (fun pair => pair.1 = pair.2) rfl ?_ ?_
  · rintro ⟨ref, ref'⟩ ⟨next, next'⟩ same ⟨i, k, behind, behind'⟩
    dsimp only at same behind behind' ⊢
    subst same
    rw [behind] at behind'
    exact Option.some.inj behind'
  · rintro ⟨ref, ref'⟩ same
    dsimp only at same
    subst same
    exact .refl d ref

/-! ## Other numbers -/

namespace Ref

/-- The same place when the objects have other numbers. -/
def rename (name : Nat → Nat) : Ref → Ref
  | .null => .null
  | .cap a => .cap a
  | .row id i => .row (name id) i
  | .list id => .list (name id)

/-- A place in one of these objects, or in none. -/
def Of (seen : Nat → Prop) : Ref → Prop
  | .row id _ | .list id => seen id
  | _ => True

end Ref

section
variable {d d' : Draft} {seen : Nat → Prop} {name : Nat → Nat} {ref : Ref}

/-- A step ends at the same place, which is seen. -/
def Carried (seen : Nat → Prop) (name : Nat → Nat) (there here : Except Status Ref) : Prop :=
  there = here.map (Ref.rename name) ∧ ∀ next, here = .ok next → next.Of seen

theorem Carried.ok {there here : Ref} (same : there = here.rename name) (inside : here.Of seen) :
    Carried seen name (.ok there) (.ok here) := by
  refine ⟨congrArg Except.ok same, fun next ends => ?_⟩
  cases ends
  exact inside

theorem Carried.error (rc : Status) : Carried seen name (.error rc) (.error rc) := ⟨rfl, nofun⟩

theorem Carried.ite {c : Prop} [Decidable c] {there there' here here' : Except Status Ref}
    (yes : Carried seen name there here) (no : Carried seen name there' here') :
    Carried seen name (if c then there else there') (if c then here else here') := by
  split
  · exact yes
  · exact no

/-- A pointer leads to the same object, which is seen. -/
def Leading (seen : Nat → Prop) (name : Nat → Nat) (there here : Option Ref) : Prop :=
  there = here.map (Ref.rename name) ∧ ∀ next, here = some next → next.Of seen

theorem Leading.none : Leading seen name none none := ⟨rfl, nofun⟩

theorem Leading.ite {c : Prop} [Decidable c] {there here : Option Ref}
    (leading : Leading seen name there here) :
    Leading seen name (if c then there else Option.none) (if c then here else Option.none) := by
  split
  · exact leading
  · exact .none

theorem Carried.leading {there here : Except Status Ref} (carried : Carried seen name there here) :
    Leading seen name there.toOption here.toOption := by
  obtain ⟨rfl, inside⟩ := carried
  cases here with
  | error rc => exact .none
  | ok next =>
      refine ⟨rfl, fun next' same => ?_⟩
      cases same
      exact inside next rfl

variable (renames : d.drawing.Renames d'.drawing seen name)
include renames

/-- What hangs from a seen slot is seen, under its other number. -/
theorem carried_resolve {s : Slot (Nat × Nat)} (here : s.Of seen) :
    Carried seen name (.ok (d'.resolve (d'.drawing.link (s.rename name))))
      (.ok (d.resolve (d.drawing.link s))) := by
  rw [renames.links s here]
  cases link : d.drawing.link s with
  | null => exact .ok rfl trivial
  | leaf a => exact .ok rfl trivial
  | node id =>
      have inside := renames.closed s id here link
      rw [Link.rename, resolve, resolve, renames.nodes id inside]
      split
      · exact .ok rfl inside
      · exact .ok rfl inside

/-- A step from a place that is seen. -/
theorem carried_follow (ref : Ref) (here : ref.Of seen) (step : Step) :
    Carried seen name (d'.follow (ref.rename name) step) (d.follow ref step) := by
  cases step with
  | getp k =>
      cases ref with
      | row id i =>
          have pointer := carried_resolve renames (s := .field id (i, k)) here
          rw [Ref.rename, follow, follow, renames.nodes id here]
          cases d.drawing.nodes[id]? with
          | none => exact .error _
          | some c =>
              cases c with
              | block shape n nd np row => exact .ite pointer (.ok rfl trivial)
              | flat list => exact .error _
      | null => exact .error _
      | cap a => exact .error _
      | list id => exact .error _
  | listGetp i =>
      cases ref with
      | list id =>
          have pointer := carried_resolve renames (s := .field id (i, 0)) here
          rw [Ref.rename, follow, follow, renames.nodes id here]
          cases d.drawing.nodes[id]? with
          | none => exact .error _
          | some c =>
              cases c with
              | flat list => exact .ite (.error _) (.error _)
              | block shape n nd np row =>
                  cases shape with
                  | composite => exact .ite (.ok rfl here) (.error _)
                  | struct => exact .ite pointer (.error _)
                  | pointers => exact .ite pointer (.error _)
      | null => exact .error _
      | cap a => exact .error _
      | row id j => exact .error _

/-- What is behind a pointer of a place that is seen. -/
theorem leading_behind (here : ref.Of seen) (i k : Nat) :
    Leading seen name (d'.behind (ref.rename name) i k) (d.behind ref i k) := by
  cases ref with
  | row id i' => exact .ite (carried_follow renames (.row id i') here (.getp k)).leading
  | list id =>
      have pointer := (carried_follow renames (.list id) here (.listGetp i)).leading
      have element := (carried_follow renames (.row id i) here (.getp k)).leading
      rw [Ref.rename, behind, behind, renames.nodes id here]
      cases d.drawing.nodes[id]? with
      | none => exact .none
      | some c =>
          cases c with
          | flat list => exact .none
          | block shape n nd np row =>
              cases shape with
              | composite => exact .ite element
              | struct => exact .ite pointer
              | pointers => exact .ite pointer
  | null => exact .none
  | cap a => exact .none

/-- An object looks the same under its other number. -/
theorem sameHere_renamed (here : ref.Of seen) : SameHere d d' (ref, ref.rename name) := by
  have links (i k : Nat) :
      (d.behind ref i k).isSome = (d'.behind (ref.rename name) i k).isSome := by
    rw [(leading_behind renames here i k).1, Option.isSome_map]
  cases ref with
  | null => exact ⟨rfl, rfl, rfl, fun _ _ => rfl, links, fun _ _ => rfl⟩
  | cap a => exact ⟨rfl, rfl, rfl, fun _ _ => rfl, links, fun _ _ => rfl⟩
  | row id i =>
      refine ⟨rfl, rfl, rfl, fun j l => ?_, links, fun _ _ => rfl⟩
      dsimp only
      rw [Ref.rename, datum, datum, renames.nodes id here]
  | list id =>
      refine ⟨rfl, ?_, ?_, fun j l => ?_, links, fun x _ => ?_⟩
      · dsimp only
        rw [Ref.rename, esize, esize, renames.nodes id here]
      · dsimp only
        rw [Ref.rename, count, count, renames.nodes id here]
      · dsimp only
        rw [Ref.rename, datum, datum, renames.nodes id here]
      · dsimp only
        rw [Ref.rename, listBit, listBit, renames.nodes id here]

/-- The numbers of the objects make no difference, and neither does what is not seen
from the root. -/
theorem Alike.of_renames : Alike d d' := by
  have top : d'.top = d.top.rename name ∧ d.top.Of seen := by
    obtain ⟨same, inside⟩ := carried_resolve renames (s := .root) trivial
    exact ⟨Except.ok.inj same, inside _ rfl⟩
  refine Everywhere.of_invariant (fun pair => pair.2 = pair.1.rename name ∧ pair.1.Of seen) top ?_ ?_
  · rintro ⟨ref, ref'⟩ ⟨next, next'⟩ ⟨same, here⟩ ⟨i, k, behind, behind'⟩
    dsimp only at same here behind behind' ⊢
    obtain ⟨carried, inside⟩ := leading_behind renames here i k
    rw [same, carried, behind] at behind'
    exact ⟨(Option.some.inj behind').symm, inside next behind⟩
  · rintro ⟨ref, ref'⟩ ⟨same, here⟩
    dsimp only at same here
    rw [same]
    exact sameHere_renamed renames here

end

/-! ## Two messages -/

section
variable {d d' : Draft} {place place' : Nat → BPtr} {m m' : Message} {p p' : Ptr} {ref ref' : Ref}
  (held : HeldBy d place m) (held' : HeldBy d' place' m')
include held held'

/-- Handles look the same when what they stand for does. -/
theorem HeldBy.sameHere (stands : Stands d place p ref) (stands' : Stands d' place' p' ref')
    (same : SameHere d d' (ref, ref')) : Message.SameHere m m' (p, p') := by
  obtain ⟨kind, esize, count, data, links, bits⟩ := same
  have kinds : p.kind = p'.kind := stands.kind.trans (kind.trans stands'.kind.symm)
  have sizes (list : p.kind = .list) : p.esize = p'.esize :=
    (stands.esize_eq list).trans (esize.trans (stands'.esize_eq (kinds.symm.trans list)).symm)
  have counts (counted : p.kind = .list ∨ p.kind = .cap) : p.count = p'.count :=
    (stands.count_eq counted).trans (count.trans (stands'.count_eq (kinds ▸ counted)).symm)
  refine ⟨kinds, sizes, counts, fun i j => ?_, fun i k => ?_, fun packed x inside => ?_⟩
  · exact (held.datum stands).trans ((data i j).trans (held'.datum stands').symm)
  · exact (held.link stands).isSome_eq.trans
      ((links i k).trans (held'.link stands').isSome_eq.symm)
  · dsimp only at packed inside ⊢
    have list := Message.ValueEq.kind_of_packed packed
    have form : p.form = p'.form := by
      unfold Ptr.form
      rw [← kinds, list]
      dsimp only
      rw [sizes list]
    have here : x < 8 * packedBytes p.esize p.count := by
      unfold packedBytes
      omega
    have there : x < 8 * packedBytes p'.esize p'.count := by rwa [← sizes list, ← counts (.inl list)]
    rw [stands.count_eq (.inl list), stands.esize_eq list] at inside
    rw [held.listBit stands packed here, held'.listBit stands' (form ▸ packed) there]
    exact bits x inside

/-- What handles stand for looks the same when they do. -/
theorem HeldBy.sameHere_of_message (stands : Stands d place p ref) (stands' : Stands d' place' p' ref')
    (same : Message.SameHere m m' (p, p')) : SameHere d d' (ref, ref') := by
  have form : p.form = p'.form := same.form_eq
  obtain ⟨kind, esize, count, data, links, bits⟩ := same
  dsimp only at kind esize count data links bits
  have kinds : ref.kind = ref'.kind := stands.kind.symm.trans (kind.trans stands'.kind)
  have sizes : d.esize ref = d'.esize ref' := by
    by_cases list : p.kind = .list
    · rw [← stands.esize_eq list, ← stands'.esize_eq (kind.symm.trans list), esize list]
    · have other : ref.kind ≠ .list := stands.kind ▸ list
      rw [esize_of_kind other, esize_of_kind (kinds ▸ other)]
  have counts : d.count ref = d'.count ref' := by
    by_cases counted : p.kind = .list ∨ p.kind = .cap
    · rw [← stands.count_eq counted, ← stands'.count_eq (kind ▸ counted), count counted]
    · have other : ref.kind ≠ .list ∧ ref.kind ≠ .cap := by rwa [stands.kind, not_or] at counted
      rw [count_of_kind other.1 other.2, count_of_kind (kinds ▸ other.1) (kinds ▸ other.2)]
  refine ⟨kinds, sizes, counts, fun i j => ?_, fun i k => ?_, fun x inside => ?_⟩
  · exact (held.datum stands).symm.trans ((data i j).trans (held'.datum stands'))
  · exact (held.link stands).isSome_eq.symm.trans
      ((links i k).trans (held'.link stands').isSome_eq)
  · dsimp only at inside ⊢
    by_cases packed : p.form = .packed
    · have list := Message.ValueEq.kind_of_packed packed
      rw [← stands.count_eq (.inl list), ← stands.esize_eq list] at inside
      have here : x < 8 * packedBytes p.esize p.count := by
        unfold packedBytes
        omega
      have there : x < 8 * packedBytes p'.esize p'.count := by
        rwa [← esize list, ← count (.inl list)]
      rw [← held.listBit stands packed here, ← held'.listBit stands' (form ▸ packed) there]
      exact bits packed x inside
    · rw [held.listBit_of_form stands packed, held'.listBit_of_form stands' (form ▸ packed)]

/-- A step in the messages is a step in the drafts. -/
theorem HeldBy.follows_of_message (stands : Stands d place p ref) (stands' : Stands d' place' p' ref')
    {q q' : Ptr} (follows : Message.Follows m m' (p, p') (q, q')) :
    ∃ next next', Follows d d' (ref, ref') (next, next') ∧ Stands d place q next ∧
      Stands d' place' q' next' := by
  obtain ⟨i, k, cost, cost', found, found'⟩ := follows
  have leads : Leads d place _ (d.behind ref i k) := held.link stands
  have leads' : Leads d' place' _ (d'.behind ref' i k) := held'.link stands'
  rw [found] at leads
  rw [found'] at leads'
  obtain ⟨next, behind, here⟩ := leads.of_some
  obtain ⟨next', behind', here'⟩ := leads'.of_some
  exact ⟨next, next', ⟨i, k, behind, behind'⟩, here, here'⟩

/-- A step in the drafts is a step in the messages. -/
theorem HeldBy.follows (stands : Stands d place p ref) (stands' : Stands d' place' p' ref')
    {next next' : Ref} (follows : Follows d d' (ref, ref') (next, next')) :
    ∃ q q', Message.Follows m m' (p, p') (q, q') ∧ Stands d place q next ∧
      Stands d' place' q' next' := by
  obtain ⟨i, k, behind, behind'⟩ := follows
  have leads : Leads d place (m.link p i k) (d.behind ref i k) := held.link stands
  have leads' : Leads d' place' (m'.link p' i k) (d'.behind ref' i k) := held'.link stands'
  dsimp only at behind behind'
  rw [behind] at leads
  rw [behind'] at leads'
  obtain ⟨q, cost, found, here⟩ := leads
  obtain ⟨q', cost', found', here'⟩ := leads'
  exact ⟨q, q', ⟨i, k, cost, cost', found, found'⟩, here, here'⟩

/-- Handles hold equal values exactly if what they stand for is alike. -/
theorem HeldBy.valueEq_iff (stands : Stands d place p ref) (stands' : Stands d' place' p' ref') :
    Message.ValueEq m m' p p' ↔ AlikeFrom d d' ref ref' := by
  constructor
  · intro same
    refine same.simulated
      (fun handles refs => Stands d place handles.1 refs.1 ∧ Stands d' place' handles.2 refs.2)
      ⟨stands, stands'⟩ ?_ ?_
    · rintro ⟨q, q'⟩ ⟨r, r'⟩ ⟨next, next'⟩ ⟨here, here'⟩ follows
      obtain ⟨t, t', step, there, there'⟩ := held.follows held' here here' follows
      exact ⟨(t, t'), step, there, there'⟩
    · rintro ⟨q, q'⟩ ⟨r, r'⟩ ⟨here, here'⟩ same
      exact held.sameHere_of_message held' here here' same
  · intro alike
    refine alike.simulated
      (fun refs handles => Stands d place handles.1 refs.1 ∧ Stands d' place' handles.2 refs.2)
      ⟨stands, stands'⟩ ?_ ?_
    · rintro ⟨r, r'⟩ ⟨q, q'⟩ ⟨t, t'⟩ ⟨here, here'⟩ follows
      obtain ⟨next, next', step, there, there'⟩ := held.follows_of_message held' here here' follows
      exact ⟨(next, next'), step, there, there'⟩
    · rintro ⟨r, r'⟩ ⟨q, q'⟩ ⟨here, here'⟩ same
      exact held.sameHere held' here here' same

/-- Equal values are padded alike, since builders pad with zeros. -/
theorem HeldBy.paddingEq (stands : Stands d place p ref) (stands' : Stands d' place' p' ref')
    (same : Message.ValueEq m m' p p') : Message.PaddingEq m m' p p' := by
  refine Everywhere.of_invariant (fun pair => Message.ValueEq m m' pair.1 pair.2 ∧
    ∃ ref ref', Stands d place pair.1 ref ∧ Stands d' place' pair.2 ref')
    ⟨same, ref, ref', stands, stands'⟩ ?_ ?_
  · rintro ⟨q, q'⟩ ⟨t, t'⟩ ⟨same, r, r', here, here'⟩ follows
    obtain ⟨next, next', -, there, there'⟩ := held.follows_of_message held' here here' follows
    exact ⟨same.next follows, next, next', there, there'⟩
  · rintro ⟨q, q'⟩ ⟨same, r, r', here, here'⟩ packed x past inside
    have form : q.form = q'.form := same.form_eq
    have list := Message.ValueEq.kind_of_packed packed
    have esize : q.esize = q'.esize := same.here.esize list
    have count : q.count = q'.count := same.here.count (.inl list)
    dsimp only at packed past inside ⊢
    rw [held.padding here packed past inside,
      held'.padding here' (form ▸ packed) (by rwa [← esize, ← count]) (by rwa [← esize, ← count])]

end

/-! ## Two sessions -/

/-- A message that a session has built, serialized and parsed again. -/
structure Builds (d : Draft) (m : Message) : Prop where
  session : ∃ firstWords a flat, Reached (Arena.init firstWords, blank) (observed Arena.step note)
      (fun o next => means o next) (a, d) ∧ a.b.InLimit ∧ a.b.nsegs ≤ maxSegments ∧
    a.b.serialize = .ok flat ∧ messageFromFlat flat = .ok m
  started : d.started = true

theorem Builds.held {d : Draft} {m : Message} (builds : Builds d m) : ∃ place, HeldBy d place m := by
  obtain ⟨firstWords, a, flat, reached, limit, few, done, parsed⟩ := builds.session
  obtain ⟨inv, drafted⟩ := drafted_of_reached reached
  obtain ⟨place, draws⟩ := drafted limit
  obtain ⟨m', parsed', built, short, deep⟩ := parsed_of_inLimit inv.wf limit few done
  rw [parsed] at parsed'
  cases parsed'
  exact ⟨place, ⟨a.b, draws.drawn, built⟩, short, deep⟩

/-- The root stands for the top of the draft. -/
theorem HeldBy.root {d : Draft} {place : Nat → BPtr} {m : Message} (held : HeldBy d place m)
    (started : d.started = true) :
    ∃ p cost, m.rootTarget = some (p, cost) ∧ Stands d place p d.top := by
  obtain ⟨b, drawn, built⟩ := held.drawn
  obtain ⟨p, cost, named, -, stands⟩ := drawn.found built held.few held.limit (.root started)
  have segLt := drawn.wf.lt_of_used (drawn.started started)
  have some : m.nsegs ≠ 0 := by
    rw [← built.nsegs]
    exact (Nat.zero_lt_of_lt segLt).ne'
  exact ⟨p, cost, (if_neg some).trans named, stands⟩

/-- Messages whose drafts are alike have the same canonical form. -/
theorem HeldBy.canonical_eq {d d' : Draft} {place place' : Nat → BPtr} {m m' : Message}
    (held : HeldBy d place m) (held' : HeldBy d' place' m') (started : d.started = true)
    (started' : d'.started = true) (alike : Alike d d') :
    ∀ raw raw', m.canonicalize = .ok raw → m'.canonicalize = .ok raw' → raw = raw' := by
  obtain ⟨p, cost, root, stands⟩ := held.root started
  obtain ⟨p', cost', root', stands'⟩ := held'.root started'
  have same := (held.valueEq_iff held' stands stands').mpr alike
  have padding := held.paddingEq held' stands stands' same
  intro raw raw' done done'
  have limited {m : Message} (limit : m.depthLimit = defaultDepthLimit) : m.limited = m := by
    rw [Message.limited, ← limit]
  obtain ⟨q, price, named, -, -, renders⟩ := Message.canonicalize_eq_ok_iff.mp done
  obtain ⟨q', price', named', -, -, renders'⟩ := Message.canonicalize_eq_ok_iff.mp done'
  rw [limited held.limit] at named renders
  rw [limited held'.limit] at named' renders'
  rw [root] at named
  rw [root'] at named'
  cases named
  cases named'
  rw [← Message.tree_eq same padding Message.copyRoom] at renders'
  exact renders.unique renders'

/-- The canonical form of a message depends on what hangs from its root, and on
nothing else.  The messages of two sessions have roots, which hold equal values
exactly if the drafts of the sessions are alike.  Then the canonical forms are the
same bytes, whatever the sizes of the segments, the order of the calls, the objects
that have been cut off, and the handles of the clients are. -/
theorem canonical_of_alike {d d' : Draft} {m m' : Message} (builds : Builds d m)
    (builds' : Builds d' m') :
    (∃ p cost p' cost', m.rootTarget = some (p, cost) ∧ m'.rootTarget = some (p', cost') ∧
      (Message.ValueEq m m' p p' ↔ Alike d d')) ∧
    (Alike d d' → ∀ raw raw', m.canonicalize = .ok raw → m'.canonicalize = .ok raw' →
      raw = raw') := by
  obtain ⟨place, held⟩ := builds.held
  obtain ⟨place', held'⟩ := builds'.held
  obtain ⟨p, cost, root, stands⟩ := held.root builds.started
  obtain ⟨p', cost', root', stands'⟩ := held'.root builds'.started
  exact ⟨⟨p, cost, p', cost', root, root', held.valueEq_iff held' stands stands'⟩,
    held.canonical_eq held' builds.started builds'.started⟩

/-- A session of calls that mean something makes a message. -/
theorem exists_builds {firstWords : Nat} {session : List ArenaCall} {o : Arena × Draft}
    (ends : session.foldl (observed Arena.step note) (Arena.init firstWords, blank) = o)
    (passed : passes (observed Arena.step note) means (Arena.init firstWords, blank) session = true)
    (started : o.2.started = true)
    (segments : ∀ s < o.1.b.nsegs, (o.1.b.seg s).words ≤ builderMaxSegmentWords)
    (few : o.1.b.nsegs ≤ maxSegments) : ∃ m, Builds o.2 m ∧ m.nsegs = o.1.b.nsegs := by
  have reached : Reached (Arena.init firstWords, blank) (observed Arena.step note)
      (fun o next => means o next) o := by
    rw [← ends]
    exact Reached.start.of_passes (fun _ _ kept => kept) passed
  obtain ⟨inv, drafted⟩ := drafted_of_reached reached
  have limit := inLimit_of_segments inv.wf segments
  obtain ⟨place, draws⟩ := drafted limit
  have done := draws.drawn.serialize_eq started
  obtain ⟨m, parsed, built, -⟩ := parsed_of_inLimit inv.wf limit few done
  exact ⟨m, ⟨⟨firstWords, o.1, _, reached, limit, few, done, parsed⟩, started⟩, built.nsegs.symm⟩

/-- Two texts are set one after the other, in segments of their own. -/
def forth : List ArenaCall :=
  [.setMaxSegWords 2, .build .root, .build (.struct 0 0 2), .build (.setText 0 0 0 [97]),
    .build (.setText 0 0 1 [98])]

/-- The same texts the other way round, in one segment, after a text that is cut
off. -/
def back : List ArenaCall :=
  [.build .root, .build (.struct 0 0 2), .build (.setText 0 0 1 [99]),
    .build (.setText 0 0 1 [98]), .build (.setText 0 0 0 [97])]

def forthEnd : Arena × Draft := forth.foldl (observed Arena.step note) (Arena.init 1, blank)

def backEnd : Arena × Draft := back.foldl (observed Arena.step note) (Arena.init 64, blank)

/-- A struct of two pointers. -/
def pair : Content := .block .struct 1 0 2 fun _ _ => 0

/-- A text. -/
def letter (c : UInt8) : Content := .flat (.bytes [c, 0])

theorem forth_drawing : forthEnd.2.drawing = ((Forest.empty.hang .root pair).hang
    (.field 0 (0, 0)) (letter 97)).hang (.field 0 (0, 1)) (letter 98) := rfl

theorem back_drawing : backEnd.2.drawing = (((Forest.empty.hang .root pair).hang
    (.field 0 (0, 1)) (letter 99)).hang (.field 0 (0, 1)) (letter 98)).hang (.field 0 (0, 0))
      (letter 97) := rfl

theorem field_ne {id : Nat} {key key' : Nat × Nat} (other : key ≠ key') :
    Slot.field id key ≠ Slot.field id key' := fun same => other (Slot.field.inj same).2

/-- The second and third object of the one are the fourth and third of the other. -/
theorem forth_renames_back : forthEnd.2.drawing.Renames backEnd.2.drawing (· < 3)
    fun id => if id = 1 then 3 else id where
  nodes id seen := by
    match id with
    | 0 | 1 | 2 => rfl
  links s seen := by
    match s with
    | .root => rfl
    | .field 1 key | .field 2 key => rfl
    | .field 0 key =>
        by_cases first : key = (0, 0)
        · rw [first]
          rfl
        · by_cases second : key = (0, 1)
          · rw [second]
            rfl
          · rw [forth_drawing, back_drawing, show (Slot.field 0 key).rename _ = .field 0 key from rfl]
            rw [Forest.link_hang_of_ne (field_ne second), Forest.link_hang_of_ne (field_ne first),
              Forest.link_hang_of_ne (field_ne first), Forest.link_hang_of_ne (field_ne second),
              Forest.link_hang_of_ne (field_ne second)]
            rfl
  closed s id seen link := by
    match s with
    | .root =>
        cases link
        exact Nat.zero_lt_succ 2
    | .field 1 key | .field 2 key => cases link
    | .field 0 key =>
        by_cases first : key = (0, 0)
        · rw [first] at link
          cases link
          decide
        · by_cases second : key = (0, 1)
          · rw [second] at link
            cases link
            decide
          · rw [forth_drawing, Forest.link_hang_of_ne (field_ne second),
              Forest.link_hang_of_ne (field_ne first)] at link
            cases link

theorem canonical_of_alike_texts : ∃ m m', m.nsegs = 5 ∧ m'.nsegs = 1 ∧
    (∃ p cost p' cost', m.rootTarget = some (p, cost) ∧ m'.rootTarget = some (p', cost') ∧
      Message.ValueEq m m' p p') ∧
    ∀ raw raw', m.canonicalize = .ok raw → m'.canonicalize = .ok raw' → raw = raw' := by
  obtain ⟨m, builds, five⟩ := exists_builds (o := forthEnd) rfl (by decide +kernel)
    (by decide +kernel) (by decide +kernel) (by decide +kernel)
  obtain ⟨m', builds', one⟩ := exists_builds (o := backEnd) rfl (by decide +kernel)
    (by decide +kernel) (by decide +kernel) (by decide +kernel)
  have alike : Alike forthEnd.2 backEnd.2 := .of_renames forth_renames_back
  obtain ⟨⟨p, cost, p', cost', root, root', same⟩, canonical⟩ := canonical_of_alike builds builds'
  exact ⟨m, m', five, one, ⟨p, cost, p', cost', root, root', same.mpr alike⟩, canonical alike⟩

end Draft

end CapnpJanet
