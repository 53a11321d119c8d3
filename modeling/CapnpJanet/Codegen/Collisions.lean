import CapnpJanet.Codegen.Names
import Mathlib

/-!
# When generated names collide

The definitions of one type have different names, but for a short list of clashes
between a field's identifier and a name that the generator chooses.  Definitions of
two types meet when the types have the same short name, and when one of them is a
group of the other: its lower-case name continues the struct's name as the
struct's own definitions do.
-/

namespace CapnpJanet

namespace Codegen

/-! ## Clashes -/

/-- The word that a setter, an initializer or a getter has before the field. -/
def Verb.word : Verb → Option Name
  | set => some ['s', 'e', 't']
  | init => some ['i', 'n', 'i', 't']
  | get => some ['g', 'e', 't']
  | tag | getAt | bare => none

/-- Different definitions of the same name: a group field called like another
definition, an initializer for a field `root`, a getter for a field with `-at` at
its end, and a tag whose field begins with a verb where another field ends in
`tag`. -/
inductive Clash : Definition → Definition → Prop
  | bare {d : Definition} (named : d ≠ .fixed .enum) (other : ∀ k, d ≠ .field .bare k) :
      Clash d (.field .bare d.body)
  | root : Clash (.fixed .initRoot) (.field .init ['r', 'o', 'o', 't'])
  | at (k : Name) : Clash (.field .getAt k) (.field .get (k ++ ['-', 'a', 't']))
  | tag {v : Verb} {word : Name} (verb : v.word = some word) :
      Clash (.field .tag word) (.field v ['t', 'a', 'g'])
  | tagOf {v : Verb} {word : Name} (verb : v.word = some word) (m : Name) :
      Clash (.field .tag (word ++ '-' :: m)) (.field v (m ++ ['-', 't', 'a', 'g']))

theorem body_of_verb {v : Verb} {word : Name} (verb : v.word = some word) (k : Name) :
    (Definition.field v k).body = word ++ '-' :: k := by
  cases v <;> cases verb <;> rfl

theorem Clash.body_eq {d e : Definition} (clash : Clash d e) : d.body = e.body := by
  cases clash with
  | bare named other => rfl
  | root => rfl
  | «at» k => simp [Definition.body]
  | tag verb =>
      rw [body_of_verb verb]
      rfl
  | tagOf verb m =>
      rw [body_of_verb verb]
      simp [Definition.body]

theorem Clash.ne {d e : Definition} (clash : Clash d e) : d ≠ e := by
  cases clash with
  | bare named other => exact other _
  | root => nofun
  | «at» k => nofun
  | @tag v word verb =>
      intro same
      obtain ⟨rfl, -⟩ := Definition.field.inj same
      cases verb
  | @tagOf v word verb m =>
      intro same
      obtain ⟨rfl, -⟩ := Definition.field.inj same
      cases verb

theorem Clash.named {d e : Definition} (clash : Clash d e) :
    d ≠ .fixed .enum ∧ e ≠ .fixed .enum := by
  cases clash with
  | bare named other => exact ⟨named, nofun⟩
  | root => exact ⟨nofun, nofun⟩
  | «at» k => exact ⟨nofun, nofun⟩
  | tag verb => exact ⟨nofun, nofun⟩
  | tagOf verb m => exact ⟨nofun, nofun⟩

/-! ## There are no others -/

/-- A tag that reads like a setter, an initializer or a getter. -/
theorem tag_eq_verb {v : Verb} {word k l : Name} (verb : v.word = some word)
    (same : k ++ ['-', 't', 'a', 'g'] = word ++ '-' :: l) :
    Clash (.field .tag k) (.field v l) := by
  rcases List.append_eq_append_iff.mp same with ⟨rest, whole, tail⟩ | ⟨rest, rfl, tail⟩
  · cases rest with
    | nil =>
        obtain rfl := List.append_nil k ▸ whole
        obtain rfl : ['t', 'a', 'g'] = l := (List.cons.inj tail).2
        exact .tag verb
    | cons c rest =>
        -- there is one dash only in the tail
        have dash : '-' ∈ ['t', 'a', 'g'] := by
          rw [(List.cons.inj tail).2]
          simp
        exact absurd dash (by decide)
  · cases rest with
    | nil =>
        obtain rfl := (List.cons.inj tail).2
        rw [List.append_nil]
        exact .tag verb
    | cons c m =>
        obtain ⟨rfl, rfl⟩ := List.cons.inj tail
        exact .tagOf verb m

theorem getLast_append (k : Name) {tail : Name} (some : tail ≠ []) :
    (k ++ tail).getLast? = tail.getLast? := by
  simp [List.getLast?_append, List.getLast?_eq_some_getLast some]

/-- Only tags end in `tag`. -/
theorem tag_getLast (k : Name) : (Definition.field .tag k).body.getLast? = some 'g' :=
  getLast_append k (List.cons_ne_nil _ _)

theorem getAt_getLast (k : Name) : (Definition.field .getAt k).body.getLast? = some 't' :=
  getLast_append (['g', 'e', 't', '-'] ++ k) (List.cons_ne_nil _ _)

/-- Fixed names are not the names of accessors. -/
theorem fixed_eq_field {f : Fixed} (named : f ≠ .enum) {v : Verb} {k : Name}
    (same : (Definition.fixed f).body = (Definition.field v k).body) :
    Clash (.fixed f) (.field v k) := by
  cases v with
  | tag =>
      have last := congrArg List.getLast? same
      rw [tag_getLast] at last
      cases f <;> first | exact absurd rfl named | exact absurd last (by decide)
  | set => cases f <;> first | exact absurd rfl named | simp [Definition.body] at same
  | init =>
      cases f with
      | initRoot =>
          obtain rfl : ['r', 'o', 'o', 't'] = k := by simpa [Definition.body] using same
          exact .root
      | enum => exact absurd rfl named
      | _ => simp [Definition.body] at same
  | get => cases f <;> first | exact absurd rfl named | simp [Definition.body] at same
  | getAt => cases f <;> first | exact absurd rfl named | simp [Definition.body] at same
  | bare =>
      obtain rfl : (Definition.fixed f).body = k := same
      exact .bare (fun same => named (Definition.fixed.inj same)) nofun

/-- A field without a verb may be called like any other definition. -/
theorem field_eq_bare {v : Verb} {k l : Name}
    (same : (Definition.field v k).body = (Definition.field .bare l).body) :
    Definition.field v k = .field .bare l ∨ Clash (.field v k) (.field .bare l) := by
  obtain rfl : (Definition.field v k).body = l := same
  by_cases bare : v = .bare
  · subst bare
    exact .inl rfl
  · exact .inr (.bare nofun fun m other => bare (Definition.field.inj other).1)

/-- A tag and another definition for a field. -/
theorem tag_eq_field {w : Verb} {k l : Name}
    (same : (Definition.field .tag k).body = (Definition.field w l).body) :
    Definition.field .tag k = .field w l ∨ Clash (.field .tag k) (.field w l) := by
  cases w with
  | tag => exact .inl (congrArg (Definition.field .tag) (List.append_cancel_right same))
  | set => exact .inr (tag_eq_verb rfl same)
  | init => exact .inr (tag_eq_verb rfl same)
  | get => exact .inr (tag_eq_verb rfl same)
  | getAt =>
      have last := congrArg List.getLast? same
      rw [tag_getLast, getAt_getLast] at last
      exact absurd last (by decide)
  | bare => exact field_eq_bare same

/-- Two definitions for fields. -/
theorem field_eq_field {v w : Verb} {k l : Name}
    (same : (Definition.field v k).body = (Definition.field w l).body) :
    Definition.field v k = .field w l ∨ Clash (.field v k) (.field w l) ∨
      Clash (.field w l) (.field v k) := by
  have swap {d e : Definition} (or : d = e ∨ Clash d e) : e = d ∨ Clash e d ∨ Clash d e :=
    or.imp Eq.symm .inr
  cases v with
  | tag => exact (tag_eq_field same).imp id .inl
  | bare => exact swap (field_eq_bare same.symm)
  | set =>
      cases w with
      | tag => exact swap (tag_eq_field same.symm)
      | bare => exact (field_eq_bare same).imp id .inl
      | set => exact .inl (congrArg (Definition.field .set) (List.append_cancel_left same))
      | _ => simp [Definition.body] at same
  | init =>
      cases w with
      | tag => exact swap (tag_eq_field same.symm)
      | bare => exact (field_eq_bare same).imp id .inl
      | init => exact .inl (congrArg (Definition.field .init) (List.append_cancel_left same))
      | _ => simp [Definition.body] at same
  | get =>
      cases w with
      | tag => exact swap (tag_eq_field same.symm)
      | bare => exact (field_eq_bare same).imp id .inl
      | get => exact .inl (congrArg (Definition.field .get) (List.append_cancel_left same))
      | getAt =>
          obtain rfl : k = l ++ ['-', 'a', 't'] := by simpa [Definition.body] using same
          exact .inr (.inr (.at l))
      | _ => simp [Definition.body] at same
  | getAt =>
      cases w with
      | tag => exact swap (tag_eq_field same.symm)
      | bare => exact (field_eq_bare same).imp id .inl
      | get =>
          obtain rfl : k ++ ['-', 'a', 't'] = l := by simpa [Definition.body] using same
          exact .inr (.inl (.at k))
      | getAt =>
          have fields := List.append_cancel_right same
          exact .inl (congrArg (Definition.field .getAt) (List.append_cancel_left fields))
      | _ => simp [Definition.body] at same

/-- The definitions of one type have different names, but for the clashes. -/
theorem suffix_eq_iff (d e : Definition) :
    d.suffix = e.suffix ↔ d = e ∨ Clash d e ∨ Clash e d := by
  have named {d : Definition} (h : d ≠ .fixed .enum) : d.suffix = '-' :: d.body := if_neg h
  constructor
  · intro same
    by_cases first : d = .fixed .enum
    · subst first
      by_cases second : e = .fixed .enum
      · exact .inl second.symm
      · rw [named second] at same
        exact absurd same nofun
    by_cases second : e = .fixed .enum
    · subst second
      rw [named first] at same
      exact absurd same nofun
    rw [named first, named second] at same
    have bodies := (List.cons.inj same).2
    cases d with
    | fixed f =>
        have f_named : f ≠ .enum := fun same => first (congrArg Definition.fixed same)
        cases e with
        | fixed g =>
            cases f <;> cases g <;>
              first | exact .inl rfl | exact absurd rfl first | exact absurd rfl second |
                exact absurd bodies (by decide)
        | field w l => exact .inr (.inl (fixed_eq_field f_named bodies))
    | field v k =>
        cases e with
        | fixed g =>
            have g_named : g ≠ .enum := fun same => second (congrArg Definition.fixed same)
            exact .inr (.inr (fixed_eq_field g_named bodies.symm))
        | field w l => exact field_eq_field bodies
  · rintro (rfl | clash | clash)
    · rfl
    · rw [named clash.named.1, named clash.named.2, clash.body_eq]
    · rw [named clash.named.1, named clash.named.2, clash.body_eq]

/-! ## The definitions of a node -/

/-- What is defined for a field of a struct with so many union members. -/
def NamedField.Gets (nodes : List NamedNode) (discriminantCount : Nat) (f : NamedField) (v : Verb) :
    Prop :=
  (v = .tag ∧ discriminantCount > 0 ∧ f.tagged) ∨ f.writer = some v ∨ v ∈ f.readers nodes

/-- What a struct defines. -/
def StructDefines (nodes : List NamedNode) (isGroup : Bool) (discriminantCount : Nat)
    (fields : Option (List NamedField)) : Definition → Prop
  | .fixed .dataWords | .fixed .pointerWords => True
  | .fixed .discriminantByte | .fixed .which => fields ≠ none ∧ discriminantCount > 0
  | .fixed .fields => fields ≠ none
  | .fixed .initRoot => fields ≠ none ∧ ¬isGroup
  | .fixed .enum | .fixed .interfaceId | .fixed .methods => False
  | .field v ident =>
      ∃ f ∈ fields.getD [], f.ident = ident ∧ f.Gets nodes discriminantCount v

/-- What a node defines. -/
def NamedNode.Defines (nodes : List NamedNode) (node : NamedNode) (d : Definition) : Prop :=
  match node.which with
  | .struct isGroup discriminantCount fields => StructDefines nodes isGroup discriminantCount fields d
  | .enum hasEnumerants => d = .fixed .enum ∧ hasEnumerants
  | .interface methods => d = .fixed .interfaceId ∨ d = .fixed .methods ∧ methods ≠ 0
  | .other => False

section
variable {nodes : List NamedNode} {isGroup : Bool} {discriminantCount : Nat}

theorem mem_structDefinitions_iff {fields : Option (List NamedField)} {d : Definition} :
    d ∈ structDefinitions nodes isGroup discriminantCount fields ↔
      StructDefines nodes isGroup discriminantCount fields d := by
  cases fields with
  | none =>
      cases d with
      | fixed f => cases f <;> simp [structDefinitions, StructDefines]
      | field v k => simp [structDefinitions, StructDefines]
  | some fields =>
      cases d with
      | fixed f =>
          cases f <;> cases isGroup <;> by_cases some : discriminantCount > 0 <;>
            simp [structDefinitions, StructDefines, some]
      | field v k =>
          have tags : Definition.field v k ∈ (if discriminantCount > 0 then
              [.fixed .discriminantByte, .fixed .which] ++
                (fields.filter NamedField.tagged).map fun f => .field .tag f.ident else []) ↔
              ∃ f ∈ fields, f.ident = k ∧ v = .tag ∧ discriminantCount > 0 ∧ f.tagged := by
            by_cases some : discriminantCount > 0
            · simp only [some, if_true, List.mem_append, List.mem_cons, reduceCtorEq, List.not_mem_nil,
                or_self, false_or, List.mem_map, List.mem_filter, Definition.field.injEq, true_and]
              constructor
              · rintro ⟨f, ⟨member, tagged⟩, rfl, rfl⟩
                exact ⟨f, member, rfl, rfl, tagged⟩
              · rintro ⟨f, member, rfl, rfl, tagged⟩
                exact ⟨f, ⟨member, tagged⟩, rfl, rfl⟩
            · simp [some]
          have writers : Definition.field v k ∈
              (fields.filterMap fun f => f.writer.map fun v => .field v f.ident) ↔
                ∃ f ∈ fields, f.ident = k ∧ f.writer = Option.some v := by
            simp only [List.mem_filterMap, Option.map_eq_some_iff, Definition.field.injEq]
            constructor
            · rintro ⟨f, member, w, written, rfl, rfl⟩
              exact ⟨f, member, rfl, written⟩
            · rintro ⟨f, member, rfl, written⟩
              exact ⟨f, member, v, written, rfl, rfl⟩
          have readers : Definition.field v k ∈
              (fields.flatMap fun f => (f.readers nodes).map fun v => .field v f.ident) ↔
                ∃ f ∈ fields, f.ident = k ∧ v ∈ f.readers nodes := by
            simp only [List.mem_flatMap, List.mem_map, Definition.field.injEq]
            constructor
            · rintro ⟨f, member, w, reads, rfl, rfl⟩
              exact ⟨f, member, rfl, reads⟩
            · rintro ⟨f, member, rfl, reads⟩
              exact ⟨f, member, v, reads, rfl, rfl⟩
          have root : Definition.field v k ∉ (if isGroup then [] else [.fixed .initRoot]) := by
            cases isGroup <;> simp
          simp only [structDefinitions, StructDefines, List.mem_append, tags, writers, readers, root,
            List.mem_cons, List.not_mem_nil, reduceCtorEq, or_false, false_or, Option.getD_some,
            NamedField.Gets]
          constructor
          · rintro ((⟨f, member, named, tag⟩ | ⟨f, member, named, written⟩) |
              ⟨f, member, named, reads⟩)
            · exact ⟨f, member, named, .inl tag⟩
            · exact ⟨f, member, named, .inr (.inl written)⟩
            · exact ⟨f, member, named, .inr (.inr reads)⟩
          · rintro ⟨f, member, named, tag | written | reads⟩
            · exact .inl (.inl ⟨f, member, named, tag⟩)
            · exact .inl (.inr ⟨f, member, named, written⟩)
            · exact .inr ⟨f, member, named, reads⟩

theorem mem_definitions_iff {node : NamedNode} {d : Definition} :
    d ∈ node.definitions nodes ↔ node.Defines nodes d := by
  unfold NamedNode.definitions NamedNode.Defines
  cases node.which with
  | struct isGroup discriminantCount fields => exact mem_structDefinitions_iff
  | enum hasEnumerants => cases hasEnumerants <;> simp
  | interface methods => by_cases none : methods = 0 <;> simp [none]
  | other => simp

/-- Builders are set or initialized. -/
theorem NamedField.writer_verb {f : NamedField} {v : Verb} (written : f.writer = some v) :
    v = .set ∨ v = .init := by
  unfold NamedField.writer at written
  split at written
  · exact .inr (Option.some.inj written).symm
  · split at written
    · exact .inl (Option.some.inj written).symm
    · split at written <;> first
        | exact .inl (Option.some.inj written).symm
        | exact .inr (Option.some.inj written).symm
        | cases written
        | skip
      split at written
      · exact .inr (Option.some.inj written).symm
      · split at written
        · exact .inl (Option.some.inj written).symm
        · cases written
  · cases written

/-- Readers get, and groups have no verb. -/
theorem NamedField.readers_verbs (nodes : List NamedNode) (f : NamedField) : f.readers nodes = [] ∨
    f.readers nodes = [.bare] ∨ f.readers nodes = [.get] ∨ f.readers nodes = [.get, .getAt] := by
  unfold NamedField.readers
  split
  · split
    · exact .inr (.inl rfl)
    · exact .inl rfl
  · split
    all_goals first | exact .inr (.inr (.inl rfl)) | exact .inl rfl | skip
    split
    · exact .inr (.inr (.inr rfl))
    · exact .inr (.inr (.inl rfl))
  · exact .inl rfl

theorem NamedField.reader_verb {f : NamedField} {v : Verb} (reads : v ∈ f.readers nodes) :
    v = .get ∨ v = .getAt ∨ v = .bare := by
  rcases f.readers_verbs nodes with h | h | h | h <;> rw [h] at reads <;> simp at reads <;>
    tauto

/-- Fields of the same identifier have no definition in common. -/
def FieldsApart (nodes : List NamedNode) (discriminantCount : Nat) (f g : NamedField) : Prop :=
  f.ident = g.ident → ∀ v, ¬(f.Gets nodes discriminantCount v ∧ g.Gets nodes discriminantCount v)

/-- The definitions that two fields have in common are tags, builders or readers. -/
theorem fieldsApart_iff {f g : NamedField} : FieldsApart nodes discriminantCount f g ↔
    (discriminantCount > 0 → f.tagged → g.tagged → f.ident ≠ g.ident) ∧
      (∀ v, f.writer = some v → g.writer = some v → f.ident ≠ g.ident) ∧
        ∀ v, v ∈ f.readers nodes → v ∈ g.readers nodes → f.ident ≠ g.ident := by
  unfold FieldsApart NamedField.Gets
  constructor
  · intro apart
    exact ⟨fun some first second same => apart same .tag
        ⟨.inl ⟨rfl, some, first⟩, .inl ⟨rfl, some, second⟩⟩,
      fun v first second same => apart same v ⟨.inr (.inl first), .inr (.inl second)⟩,
      fun v first second same => apart same v ⟨.inr (.inr first), .inr (.inr second)⟩⟩
  · rintro ⟨tags, writers, readers⟩ same v
      ⟨⟨rfl, some, first⟩ | first | first, ⟨tag, more, second⟩ | second | second⟩
    · exact tags some first second same
    · rcases NamedField.writer_verb second with h | h <;> cases h
    · rcases NamedField.reader_verb second with h | h | h <;> cases h
    · subst tag
      rcases NamedField.writer_verb first with h | h <;> cases h
    · exact writers v first second same
    · rcases NamedField.writer_verb first with rfl | rfl <;>
        rcases NamedField.reader_verb second with h | h | h <;> cases h
    · subst tag
      rcases NamedField.reader_verb first with h | h | h <;> cases h
    · rcases NamedField.writer_verb second with rfl | rfl <;>
        rcases NamedField.reader_verb first with h | h | h <;> cases h
    · exact readers v first second same

/-- Tags, builders and readers are kept apart by what they are. -/
theorem nodup_parts_iff (T W G : List Definition) (tags : ∀ d ∈ T, ∃ k, d = .field .tag k)
    (writers : ∀ d ∈ W, ∃ k, d = .field .set k ∨ d = .field .init k)
    (readers : ∀ d ∈ G, ∃ k, d = .field .get k ∨ d = .field .getAt k ∨ d = .field .bare k)
    (member isGroup : Bool) :
    ([Definition.fixed .dataWords, .fixed .pointerWords] ++
      ((if member then [Definition.fixed .discriminantByte, .fixed .which] ++ T else []) ++ [Definition.fixed .fields] ++
        (if isGroup then [] else [Definition.fixed .initRoot]) ++ W ++ G)).Nodup ↔
      (member → T.Nodup) ∧ W.Nodup ∧ G.Nodup := by
  have tagFixed (f : Fixed) : .fixed f ∉ T := fun inside => by
    obtain ⟨k, same⟩ := tags _ inside
    cases same
  have writerFixed (f : Fixed) : .fixed f ∉ W := fun inside => by
    obtain ⟨k, same | same⟩ := writers _ inside <;> cases same
  have readerFixed (f : Fixed) : .fixed f ∉ G := fun inside => by
    obtain ⟨k, same | same | same⟩ := readers _ inside <;> cases same
  have tagWriter : ∀ d ∈ T, d ∉ W := fun d first second => by
    obtain ⟨k, rfl⟩ := tags d first
    obtain ⟨l, same | same⟩ := writers _ second <;> cases same
  have tagReader : ∀ d ∈ T, d ∉ G := fun d first second => by
    obtain ⟨k, rfl⟩ := tags d first
    obtain ⟨l, same | same | same⟩ := readers _ second <;> cases same
  have writerReader : ∀ d ∈ W, d ∉ G := fun d first second => by
    obtain ⟨k, rfl | rfl⟩ := writers d first <;>
      obtain ⟨l, same | same | same⟩ := readers _ second <;> cases same
  cases member <;> cases isGroup <;>
    simp [List.nodup_append', tagFixed, writerFixed, readerFixed, List.disjoint_left] <;> grind

/-- A struct makes no definition twice when its fields are apart. -/
theorem nodup_structDefinitions_iff {fields : List NamedField} :
    (structDefinitions nodes isGroup discriminantCount (some fields)).Nodup ↔
      fields.Pairwise (FieldsApart nodes discriminantCount) := by
  have tags : ((fields.filter NamedField.tagged).map fun f => Definition.field .tag f.ident).Nodup ↔
      fields.Pairwise fun f g => f.tagged → g.tagged → f.ident ≠ g.ident := by
    rw [List.Nodup, List.pairwise_map, List.pairwise_filter]
    simp
  have writers : (fields.filterMap fun f => f.writer.map fun v => Definition.field v f.ident).Nodup ↔
      fields.Pairwise fun f g => ∀ v, f.writer = some v → g.writer = some v → f.ident ≠ g.ident := by
    rw [List.Nodup, List.pairwise_filterMap]
    refine List.Pairwise.iff fun f g => ?_
    simp only [Option.map_eq_some_iff]
    constructor
    · intro apart v first second same
      exact apart _ ⟨v, first, rfl⟩ _ ⟨v, second, rfl⟩ (congrArg (Definition.field v) same)
    · rintro apart _ ⟨v, first, rfl⟩ _ ⟨w, second, rfl⟩ same
      obtain ⟨rfl, idents⟩ := Definition.field.inj same
      exact apart v first second idents
  have readers : (fields.flatMap fun f => (f.readers nodes).map fun v =>
      Definition.field v f.ident).Nodup ↔
        fields.Pairwise fun f g => ∀ v, v ∈ f.readers nodes → v ∈ g.readers nodes →
          f.ident ≠ g.ident := by
    rw [List.nodup_flatMap]
    have each : ∀ f ∈ fields,
        ((f.readers nodes).map fun v => Definition.field v f.ident).Nodup := fun f _ => by
      rcases f.readers_verbs nodes with h | h | h | h <;> rw [h] <;> simp
    rw [and_iff_right each]
    refine List.Pairwise.iff fun f g => ?_
    rw [Function.onFun, List.disjoint_left]
    simp only [List.mem_map, not_exists, not_and]
    constructor
    · intro apart v first second same
      exact apart ⟨v, first, rfl⟩ v second (congrArg (Definition.field v) same.symm)
    · rintro apart _ ⟨v, first, rfl⟩ w second same
      obtain ⟨rfl, idents⟩ := Definition.field.inj same
      exact apart w first second idents.symm
  have parts := nodup_parts_iff
    ((fields.filter NamedField.tagged).map fun f => Definition.field .tag f.ident)
    (fields.filterMap fun f => f.writer.map fun v => Definition.field v f.ident)
    (fields.flatMap fun f => (f.readers nodes).map fun v => Definition.field v f.ident)
    (fun d member => by
      obtain ⟨f, -, rfl⟩ := List.mem_map.mp member
      exact ⟨_, rfl⟩)
    (fun d member => by
      obtain ⟨f, -, written⟩ := List.mem_filterMap.mp member
      obtain ⟨v, verb, rfl⟩ := Option.map_eq_some_iff.mp written
      exact ⟨f.ident, (NamedField.writer_verb verb).imp (by rintro rfl; rfl) (by rintro rfl; rfl)⟩)
    (fun d member => by
      obtain ⟨f, -, read⟩ := List.mem_flatMap.mp member
      obtain ⟨v, verb, rfl⟩ := List.mem_map.mp read
      exact ⟨f.ident, (NamedField.reader_verb verb).imp (by rintro rfl; rfl)
        (Or.imp (by rintro rfl; rfl) (by rintro rfl; rfl))⟩)
    (decide (discriminantCount > 0)) isGroup
  have split : fields.Pairwise (FieldsApart nodes discriminantCount) ↔
      (discriminantCount > 0 → fields.Pairwise fun f g => f.tagged → g.tagged → f.ident ≠ g.ident) ∧
        (fields.Pairwise fun f g => ∀ v, f.writer = some v → g.writer = some v → f.ident ≠ g.ident) ∧
          fields.Pairwise fun f g => ∀ v, v ∈ f.readers nodes → v ∈ g.readers nodes →
            f.ident ≠ g.ident := by
    rw [List.Pairwise.iff fun f g => fieldsApart_iff, List.pairwise_and_iff, List.pairwise_and_iff]
    refine and_congr_left' ?_
    by_cases some : discriminantCount > 0
    · simp [some]
    · simp [some, List.pairwise_of_forall]
  rw [split, ← tags, ← writers, ← readers]
  simpa [structDefinitions] using parts

/-- No node makes a definition twice. -/
theorem nodup_definitions_iff {node : NamedNode} : (node.definitions nodes).Nodup ↔
    ∀ isGroup discriminantCount fields, node.which = .struct isGroup discriminantCount (some fields) →
      fields.Pairwise (FieldsApart nodes discriminantCount) := by
  unfold NamedNode.definitions
  cases node.which with
  | struct isGroup discriminantCount fields =>
      cases fields with
      | none => simp [structDefinitions]
      | some fields =>
          rw [nodup_structDefinitions_iff]
          constructor
          · rintro apart _ _ _ ⟨⟩
            exact apart
          · exact fun apart => apart isGroup discriminantCount fields rfl
  | enum hasEnumerants => cases hasEnumerants <;> simp
  | interface methods => by_cases none : methods = 0 <;> simp [none]
  | other => simp

/-- A node defines no name twice when it makes no definition twice and none of
them clash. -/
theorem nodup_names_iff {node : NamedNode} :
    ((node.definitions nodes).map fun d => node.typeName ++ d.suffix).Nodup ↔
      (node.definitions nodes).Nodup ∧
        ∀ d e, node.Defines nodes d → node.Defines nodes e → ¬Clash d e := by
  constructor
  · intro distinct
    have definitions := distinct.of_map
    refine ⟨definitions, fun d e first second clash => clash.ne ?_⟩
    have inj := (List.nodup_map_iff_inj_on definitions).mp distinct
    exact inj d (mem_definitions_iff.mpr first) e (mem_definitions_iff.mpr second)
      (congrArg (node.typeName ++ ·) ((suffix_eq_iff d e).mpr (.inr (.inl clash))))
  · rintro ⟨definitions, apart⟩
    refine (List.nodup_map_iff_inj_on definitions).mpr fun d first e second same => ?_
    have first := mem_definitions_iff.mp first
    have second := mem_definitions_iff.mp second
    rcases (suffix_eq_iff d e).mp (List.append_cancel_left same) with same | clash | clash
    · exact same
    · exact absurd clash (apart d e first second)
    · exact absurd clash (apart e d second first)

/-! ## Lower case -/

/-- No capital letters. -/
def Lower (name : Name) : Prop := ∀ c ∈ name, c.isUpper = false

theorem Lower.append {first rest : Name} (h : Lower first) (h' : Lower rest) : Lower (first ++ rest) :=
  fun c member => (List.mem_append.mp member).elim (h c) (h' c)

theorem lower_singleton {c : Char} (h : c.isUpper = false) : Lower [c] := fun d member => by
  rw [List.mem_singleton.mp member]
  exact h

theorem lower_of_all (name : Name) (all : (name.all fun c => !c.isUpper) = true) : Lower name :=
  fun c member => by simpa using List.all_eq_true.mp all c member

theorem lower_janetFieldIdentLoop (outn : Nat) {rest out : Name} (lower : Lower out) :
    Lower (janetFieldIdentLoop outn rest out) := by
  induction rest generalizing out with
  | nil => exact lower
  | cons c rest ih =>
      rw [janetFieldIdentLoop]
      split
      · split
        · dsimp only
          refine ih (Lower.append ?_ (lower_singleton (Char.isUpper_toLower_eq_false c)))
          split
          · exact lower.append (lower_singleton rfl)
          · exact lower
        · next small =>
          split
          · exact ih (lower.append (lower_singleton (Bool.eq_false_iff.mpr small)))
          · exact ih (lower.append (lower_singleton rfl))
      · exact lower

/-- Identifiers of fields are in lower case. -/
theorem lower_ident (f : NamedField) : Lower f.ident := by
  unfold NamedField.ident janetFieldIdent
  dsimp only
  split
  · exact fun c member => lower_of_all ['a', 'n', 'o', 'n'] (by decide) c (List.mem_of_mem_take member)
  · exact lower_janetFieldIdentLoop 128 nofun

/-- Whatever a type is called, what follows its name is in lower case. -/
theorem lower_suffix {node : NamedNode} {d : Definition} (defines : node.Defines nodes d) :
    Lower d.suffix := by
  have dash {body : Name} (lower : Lower body) : Lower ('-' :: body) :=
    (lower_singleton rfl).append lower
  have body : Lower d.body := by
    cases d with
    | fixed f => cases f <;> exact lower_of_all _ (by decide)
    | field v k =>
        have ident : Lower k := by
          unfold NamedNode.Defines at defines
          split at defines
          · obtain ⟨f, -, rfl, -⟩ := defines
            exact lower_ident f
          · exact absurd defines.1 nofun
          · rcases defines with same | ⟨same, -⟩ <;> cases same
          · exact defines.elim
        cases v with
        | tag => exact ident.append (lower_of_all _ (by decide))
        | set => exact (lower_of_all ['s', 'e', 't', '-'] (by decide)).append ident
        | init => exact (lower_of_all ['i', 'n', 'i', 't', '-'] (by decide)).append ident
        | get => exact (lower_of_all ['g', 'e', 't', '-'] (by decide)).append ident
        | getAt =>
            exact ((lower_of_all ['g', 'e', 't', '-'] (by decide)).append ident).append (lower_of_all _ (by decide))
        | bare => exact ident
  unfold Definition.suffix
  split
  · exact nofun
  · exact dash body

/-! ## Two types -/

/-- A definition of a type is called like one of another type, whose name goes on in
lower case where the first type's name ends: that of a group in a struct. -/
def Continues (nodes : List NamedNode) (n m : NamedNode) : Prop :=
  ∃ r d e, r ≠ [] ∧ Lower r ∧ m.typeName = n.typeName ++ r ∧ n.Defines nodes d ∧
    m.Defines nodes e ∧ d.suffix = r ++ e.suffix

/-- Two types of one name, with definitions that are the same or clash. -/
def Twins (nodes : List NamedNode) (n m : NamedNode) : Prop :=
  n.typeName = m.typeName ∧ ∃ d e, n.Defines nodes d ∧ m.Defines nodes e ∧
    (d = e ∨ Clash d e ∨ Clash e d)

/-- Definitions of two types have the same name when the types are twins or one
continues the other. -/
theorem disjoint_names_iff {n m : NamedNode} :
    List.Disjoint ((n.definitions nodes).map fun d => n.typeName ++ d.suffix)
        ((m.definitions nodes).map fun e => m.typeName ++ e.suffix) ↔
      ¬Twins nodes n m ∧ ¬Continues nodes n m ∧ ¬Continues nodes m n := by
  have meet : ¬List.Disjoint ((n.definitions nodes).map fun d => n.typeName ++ d.suffix)
      ((m.definitions nodes).map fun e => m.typeName ++ e.suffix) ↔
        ∃ d e, n.Defines nodes d ∧ m.Defines nodes e ∧
          n.typeName ++ d.suffix = m.typeName ++ e.suffix := by
    rw [List.disjoint_left]
    push Not
    constructor
    · rintro ⟨_, first, second⟩
      obtain ⟨d, defines, rfl⟩ := List.mem_map.mp first
      obtain ⟨e, defines', same⟩ := List.mem_map.mp second
      exact ⟨d, e, mem_definitions_iff.mp defines, mem_definitions_iff.mp defines', same.symm⟩
    · rintro ⟨d, e, defines, defines', same⟩
      refine ⟨_, List.mem_map_of_mem (mem_definitions_iff.mpr defines), ?_⟩
      rw [same]
      exact List.mem_map_of_mem (mem_definitions_iff.mpr defines')
  rw [← not_iff_not, meet]
  constructor
  · rintro ⟨d, e, defines, defines', same⟩ ⟨twins, forward, backward⟩
    rcases List.append_eq_append_iff.mp same with ⟨r, longer, rest⟩ | ⟨r, longer, rest⟩
    · by_cases empty : r = []
      · subst empty
        rw [List.append_nil] at longer
        exact twins ⟨longer.symm, d, e, defines, defines', (suffix_eq_iff d e).mp rest⟩
      · have lower : Lower r := fun c member =>
          lower_suffix defines c (rest ▸ List.mem_append_left _ member)
        exact forward ⟨r, d, e, empty, lower, longer, defines, defines', rest⟩
    · by_cases empty : r = []
      · subst empty
        rw [List.append_nil] at longer
        exact twins ⟨longer, d, e, defines, defines', (suffix_eq_iff d e).mp rest.symm⟩
      · have lower : Lower r := fun c member =>
          lower_suffix defines' c (rest ▸ List.mem_append_left _ member)
        exact backward ⟨r, e, d, empty, lower, longer, defines', defines, rest⟩
  · intro some
    by_contra none
    refine some ⟨?_, ?_, ?_⟩
    · rintro ⟨same, d, e, defines, defines', meets⟩
      refine none ⟨d, e, defines, defines', ?_⟩
      rw [same, (suffix_eq_iff d e).mpr meets]
    · rintro ⟨r, d, e, -, -, longer, defines, defines', rest⟩
      refine none ⟨d, e, defines, defines', ?_⟩
      rw [longer, rest, List.append_assoc]
    · rintro ⟨r, e, d, -, -, longer, defines', defines, rest⟩
      refine none ⟨d, e, defines, defines', ?_⟩
      rw [longer, rest, List.append_assoc]

/-! ## Modules -/

/-- The condition under which all names of a module are different.  In every struct,
fields of one identifier have no definition in common, and no definitions clash.  No
two types are twins, none continues another, and none makes `file-id`. -/
structure Collisionless (nodes : List NamedNode) : Prop where
  fields : ∀ node ∈ nodes, ∀ isGroup discriminantCount fields,
    node.which = .struct isGroup discriminantCount (some fields) →
      fields.Pairwise (FieldsApart nodes discriminantCount)
  clashes : ∀ node ∈ nodes, ∀ d e, node.Defines nodes d → node.Defines nodes e → ¬Clash d e
  types : nodes.Pairwise fun n m => ¬Twins nodes n m ∧ ¬Continues nodes n m ∧ ¬Continues nodes m n
  fileId : ∀ node ∈ nodes,
    ¬(node.typeName = ['f', 'i', 'l', 'e', '-', 'i', 'd'] ∧ node.Defines nodes (.fixed .enum)) ∧
      ¬(node.typeName = ['f', 'i', 'l', 'e'] ∧ node.Defines nodes (.field .bare ['i', 'd']))

/-- `file-id` is an enum of that name, or the group `id` of a type `file`. -/
theorem eq_fileId_iff {type : Name} {d : Definition} :
    type ++ d.suffix = ['f', 'i', 'l', 'e', '-', 'i', 'd'] ↔
      type = ['f', 'i', 'l', 'e', '-', 'i', 'd'] ∧ d = .fixed .enum ∨
        type = ['f', 'i', 'l', 'e'] ∧ d = .field .bare ['i', 'd'] := by
  by_cases enum : d = .fixed .enum
  · subst enum
    simp [Definition.suffix]
  have suffix : d.suffix = '-' :: d.body := if_neg enum
  have id_iff : d.body = ['i', 'd'] ↔ d = .field .bare ['i', 'd'] := by
    refine ⟨fun same => ?_, by rintro rfl; rfl⟩
    cases d with
    | fixed f => cases f <;> exact absurd same (by decide)
    | field v k =>
        cases v with
        | tag =>
            have last := congrArg List.getLast? same
            rw [tag_getLast] at last
            exact absurd last (by decide)
        | bare => exact congrArg (Definition.field .bare) same
        | _ => simp [Definition.body] at same
  simp only [suffix, enum, and_false, false_or, ← id_iff]
  constructor
  · intro same
    have same : type ++ '-' :: d.body = ['f', 'i', 'l', 'e'] ++ '-' :: ['i', 'd'] := same
    rcases List.append_eq_append_iff.mp same with ⟨rest, file, id⟩ | ⟨rest, file, id⟩
    · cases rest with
      | nil => exact ⟨by simpa using file.symm, (List.cons.inj id).2⟩
      | cons c rest =>
          obtain ⟨rfl, -⟩ := List.cons.inj id
          have dash : '-' ∈ ['f', 'i', 'l', 'e'] := by simp [file]
          exact absurd dash (by decide)
    · cases rest with
      | nil => exact ⟨by simpa using file, (List.cons.inj id).2.symm⟩
      | cons c rest =>
          have dash : '-' ∈ ['i', 'd'] := by simp [(List.cons.inj id).2]
          exact absurd dash (by decide)
  · rintro ⟨rfl, same⟩
    rw [same]
    rfl

/-- The names that a generated module defines are all different if and only if the
schema is collisionless. -/
theorem nodup_moduleNames_iff (nodes : List NamedNode) :
    (moduleNames nodes).Nodup ↔ Collisionless nodes := by
  have perNode : (nodes.flatMap fun node =>
      (node.definitions nodes).map fun d => node.typeName ++ d.suffix).Nodup ↔
        (∀ node ∈ nodes, (node.definitions nodes).Nodup ∧
          ∀ d e, node.Defines nodes d → node.Defines nodes e → ¬Clash d e) ∧
        nodes.Pairwise fun n m =>
          ¬Twins nodes n m ∧ ¬Continues nodes n m ∧ ¬Continues nodes m n := by
    rw [List.nodup_flatMap]
    refine and_congr (forall₂_congr fun node _ => nodup_names_iff) (List.Pairwise.iff fun n m => ?_)
    exact disjoint_names_iff
  have fileId : ['f', 'i', 'l', 'e', '-', 'i', 'd'] ∉ (nodes.flatMap fun node =>
      (node.definitions nodes).map fun d => node.typeName ++ d.suffix) ↔ ∀ node ∈ nodes,
        ¬(node.typeName = ['f', 'i', 'l', 'e', '-', 'i', 'd'] ∧ node.Defines nodes (.fixed .enum)) ∧
          ¬(node.typeName = ['f', 'i', 'l', 'e'] ∧ node.Defines nodes (.field .bare ['i', 'd'])) := by
    constructor
    · intro absent node member
      refine ⟨fun made => absent ?_, fun made => absent ?_⟩
      · refine List.mem_flatMap.mpr ⟨node, member, List.mem_map.mpr ⟨_,
          mem_definitions_iff.mpr made.2, eq_fileId_iff.mpr (.inl ⟨made.1, rfl⟩)⟩⟩
      · refine List.mem_flatMap.mpr ⟨node, member, List.mem_map.mpr ⟨_,
          mem_definitions_iff.mpr made.2, eq_fileId_iff.mpr (.inr ⟨made.1, rfl⟩)⟩⟩
    · intro none made
      obtain ⟨node, member, there⟩ := List.mem_flatMap.mp made
      obtain ⟨d, defines, same⟩ := List.mem_map.mp there
      have defines := mem_definitions_iff.mp defines
      rcases eq_fileId_iff.mp same with ⟨type, rfl⟩ | ⟨type, rfl⟩
      · exact (none node member).1 ⟨type, defines⟩
      · exact (none node member).2 ⟨type, defines⟩
  rw [moduleNames, List.nodup_cons, fileId, perNode]
  constructor
  · rintro ⟨fileId, each, types⟩
    exact ⟨fun node member => nodup_definitions_iff.mp (each node member).1,
      fun node member => (each node member).2, types, fileId⟩
  · rintro ⟨fields, clashes, types, fileId⟩
    exact ⟨fileId, fun node member =>
      ⟨nodup_definitions_iff.mpr (fields node member), clashes node member⟩, types⟩

end

/-! ## Valid schemas -/

/-- A capitalized name, which a nested type and a group continue behind a dot. -/
def isTypeName : Name → Bool
  | [] => false
  | c :: rest => c.isUpper && rest.all fun d => d.isAlphanum || d == '.'

/-- A name that starts in lower case. -/
def isFieldName : Name → Bool
  | [] => false
  | c :: rest => c.isLower && rest.all Char.isAlphanum

/-- The naming rules of a schema: type names and the names of a struct's fields are
well formed and different. -/
structure NamingRules (nodes : List NamedNode) : Prop where
  types : ∀ node ∈ nodes, isTypeName (afterLast ':' node.displayName)
  distinctTypes : (nodes.map fun node => afterLast ':' node.displayName).Nodup
  fields : ∀ node ∈ nodes, ∀ isGroup discriminantCount fields,
    node.which = .struct isGroup discriminantCount (some fields) →
      (∀ f ∈ fields, isFieldName f.name) ∧ (fields.map NamedField.name).Nodup

/-- `struct Foo { root @0 :Foo; x @1 :List(UInt8); xAt @2 :UInt8; }` -/
def rootNode : NamedNode where
  id := 1
  displayName := ['a', '.', 'c', 'a', 'p', 'n', 'p', ':', 'F', 'o', 'o']
  which := .struct false 0 (some [
    ⟨['r', 'o', 'o', 't'], ⟨0, .slot 0 .struct none⟩, ⟨1, .unknown, 0⟩⟩,
    ⟨['x'], ⟨0, .slot 1 .list none⟩, ⟨0, .uint8, 0⟩⟩,
    ⟨['x', 'A', 't'], ⟨0, .slot 0 .uint8 none⟩, ⟨0, .unknown, 0⟩⟩])

/-- A struct that follows the naming rules defines `Foo-init-root` and `Foo-get-x-at`
twice. -/
theorem rules_allow_collisions : NamingRules [rootNode] ∧
    (moduleNames [rootNode]).count
      ['F', 'o', 'o', '-', 'i', 'n', 'i', 't', '-', 'r', 'o', 'o', 't'] = 2 ∧
    (moduleNames [rootNode]).count
      ['F', 'o', 'o', '-', 'g', 'e', 't', '-', 'x', '-', 'a', 't'] = 2 ∧
    ¬(moduleNames [rootNode]).Nodup := by
  refine ⟨⟨?_, by decide, ?_⟩, by decide +kernel, by decide +kernel, by decide +kernel⟩
  · intro node member
    rw [List.mem_singleton.mp member]
    decide
  · intro node member isGroup discriminantCount fields isStruct
    rw [List.mem_singleton.mp member] at isStruct
    obtain ⟨-, -, same⟩ := NodeWhich.struct.inj (isStruct : NodeWhich.struct _ _ _ = _)
    rw [← Option.some.inj same]
    decide

end Codegen

end CapnpJanet
