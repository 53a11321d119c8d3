import CapnpJanet.Codegen.Arms
import Mathlib.Data.List.Nodup

/-!
# The names that a generated module defines

Every definition that `capnpc_janet.c` prints for a node is named after the short
name of its type.  What follows that name is fixed, or made of the identifier of a
field with something before or after it.  A C string is a list of characters
here, and each of them stands for a byte.
-/

namespace CapnpJanet

namespace Codegen

/-- A C string. -/
abbrev Name := List Char

/-! ## Identifiers -/

/-- `janet_ident`, into a buffer of `outn` bytes. -/
def janetIdent (outn : Nat) (name : Name) : Name :=
  let out := (name.take (outn - 1)).map fun c =>
    if c.isAlphanum ∨ c = '-' ∨ c = '_' then c else '-'
  if out = [] then ['a', 'n', 'o', 'n'].take (outn - 1) else out

/-- The loop of `janet_field_ident`, with what is in the buffer. -/
def janetFieldIdentLoop (outn : Nat) : (rest out : Name) → Name
  | [], out => out
  | c :: rest, out =>
      if out.length + 1 < outn then
        if c.isUpper then
          let dash := out.length > 0 ∧ out.getLast? ≠ some '-' ∧ out.length + 2 < outn
          janetFieldIdentLoop outn rest ((if dash then out ++ ['-'] else out) ++ [c.toLower])
        else if c.isAlphanum ∨ c = '-' ∨ c = '_' then janetFieldIdentLoop outn rest (out ++ [c])
        else janetFieldIdentLoop outn rest (out ++ ['-'])
      else out

/-- `janet_field_ident` -/
def janetFieldIdent (outn : Nat) (name : Name) : Name :=
  let out := janetFieldIdentLoop outn name []
  if out = [] then ['a', 'n', 'o', 'n'].take (outn - 1) else out

/-- What stands behind the last `c` of a string: `strrchr`, one character on. -/
def afterLast (c : Char) (name : Name) : Name := (name.reverse.takeWhile (· ≠ c)).reverse

/-- `type_short_name` -/
def typeShortName (outn : Nat) (display : Name) : Name :=
  janetIdent outn (afterLast '/' (afterLast ':' display))

/-! ## Nodes -/

/-- A field with its name. -/
structure NamedField where
  name : Name
  field : Field
  detail : TypeDetail

/-- `fname`: the buffers of field names have 128 bytes. -/
def NamedField.ident (f : NamedField) : Name := janetFieldIdent 128 f.name

/-- `Node.which`, with what the emitters read for the names.  The fields of a struct
and the enumerants of an enum may be missing; an interface has some number of
methods. -/
inductive NodeWhich
  | struct (isGroup : Bool) (discriminantCount : Nat) (fields : Option (List NamedField))
  | enum (hasEnumerants : Bool)
  | interface (methods : Nat)
  | other

/-- A node of the request. -/
structure NamedNode where
  id : Nat
  displayName : Name
  which : NodeWhich

/-- `sname`, `ename` and `iname`: the buffers of type names have 256 bytes. -/
def NamedNode.typeName (node : NamedNode) : Name := typeShortName 256 node.displayName

/-! ## Definitions -/

/-- Definitions that a type has whatever its fields are called. -/
inductive Fixed
  | dataWords | pointerWords | discriminantByte | which | fields | initRoot
  | enum | interfaceId | methods
deriving DecidableEq, Repr

/-- What is defined for a field: its tag, its setter or initializer, its getter and
the one of its elements, and the function of a group, which has no verb. -/
inductive Verb
  | tag | set | init | get | getAt | bare
deriving DecidableEq, Repr

/-- A top-level definition of a type. -/
inductive Definition
  | fixed (f : Fixed)
  | field (v : Verb) (ident : Name)
deriving DecidableEq, Repr

/-- What a definition's name has behind the dash that follows the type name. -/
def Definition.body : Definition → Name
  | fixed .dataWords => ['d', 'a', 't', 'a', '-', 'w', 'o', 'r', 'd', 's']
  | fixed .pointerWords => ['p', 'o', 'i', 'n', 't', 'e', 'r', '-', 'w', 'o', 'r', 'd', 's']
  | fixed .discriminantByte => ['d', 'i', 's', 'c', 'r', 'i', 'm', 'i', 'n', 'a', 'n', 't', '-', 'b', 'y', 't', 'e']
  | fixed .which => ['w', 'h', 'i', 'c', 'h']
  | fixed .fields => ['f', 'i', 'e', 'l', 'd', 's']
  | fixed .initRoot => ['i', 'n', 'i', 't', '-', 'r', 'o', 'o', 't']
  | fixed .enum => []
  | fixed .interfaceId => ['i', 'n', 't', 'e', 'r', 'f', 'a', 'c', 'e', '-', 'i', 'd']
  | fixed .methods => ['m', 'e', 't', 'h', 'o', 'd', 's']
  | field .tag ident => ident ++ ['-', 't', 'a', 'g']
  | field .set ident => ['s', 'e', 't', '-'] ++ ident
  | field .init ident => ['i', 'n', 'i', 't', '-'] ++ ident
  | field .get ident => ['g', 'e', 't', '-'] ++ ident
  | field .getAt ident => ['g', 'e', 't', '-'] ++ ident ++ ['-', 'a', 't']
  | field .bare ident => ident

/-- What a definition's name has behind the type name.  An enum is defined under the
type name itself. -/
def Definition.suffix (d : Definition) : Name :=
  if d = .fixed .enum then [] else '-' :: d.body

/-- The function that `emit_struct` prints for a field among the builders. -/
def NamedField.writer (f : NamedField) : Option Verb :=
  match f.field.which with
  | .group _ => some .init
  | .slot _ type _ =>
      if (scalarSetter type).isSome then some .set
      else
        match type with
        | .void | .text | .data => some .set
        | .struct => some .init
        | .list =>
            if f.detail.element = .struct then some .init
            else if (listAccessor 0 f.detail.element).isSome then some .set
            else none
        | _ => none
  | .other => none

/-- The functions that `emit_struct` prints for a field among the readers.  The one
of a group is printed when the request has the node of the group. -/
def NamedField.readers (nodes : List NamedNode) (f : NamedField) : List Verb :=
  match f.field.which with
  | .group id => if nodes.any fun node => node.id == id then [.bare] else []
  | .slot _ type _ =>
      match type with
      | .bool | .int8 | .uint8 | .int16 | .uint16 | .enum | .int32 | .uint32 | .int64 | .uint64
      | .float32 | .float64 | .text | .data | .struct => [.get]
      | .list =>
          if (listAccessor 0 f.detail.element).isSome ∧ f.detail.element ≠ .void then [.get, .getAt]
          else [.get]
      | _ => []
  | .other => []

/-- A field with a tag. -/
def NamedField.tagged (f : NamedField) : Bool := f.field.discriminant ≠ 0xffff

/-- `emit_struct` -/
def structDefinitions (nodes : List NamedNode) (isGroup : Bool) (discriminantCount : Nat)
    (fields : Option (List NamedField)) : List Definition :=
  [.fixed .dataWords, .fixed .pointerWords] ++
    match fields with
    | none => []
    | some fields =>
        (if discriminantCount > 0 then
          [.fixed .discriminantByte, .fixed .which] ++
            (fields.filter NamedField.tagged).map fun f => .field .tag f.ident
        else []) ++
        [.fixed .fields] ++ (if isGroup then [] else [.fixed .initRoot]) ++
        (fields.filterMap fun f => f.writer.map fun v => .field v f.ident) ++
        fields.flatMap fun f => (f.readers nodes).map fun v => .field v f.ident

/-- The definitions that `emit_struct`, `emit_enum` and `emit_interface` print for a
node. -/
def NamedNode.definitions (nodes : List NamedNode) (node : NamedNode) : List Definition :=
  match node.which with
  | .struct isGroup discriminantCount fields =>
      structDefinitions nodes isGroup discriminantCount fields
  | .enum hasEnumerants => if hasEnumerants then [.fixed .enum] else []
  | .interface methods =>
      .fixed .interfaceId :: if methods = 0 then [] else [.fixed .methods]
  | .other => []

/-- The names that `write_module` defines. -/
def moduleNames (nodes : List NamedNode) : List Name :=
  ['f', 'i', 'l', 'e', '-', 'i', 'd'] :: nodes.flatMap fun node =>
    (node.definitions nodes).map fun d => node.typeName ++ d.suffix

end Codegen

end CapnpJanet
