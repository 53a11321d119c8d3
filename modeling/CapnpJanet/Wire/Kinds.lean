/-!
# Wire constants and error codes

The enumerations of `capnp_kinds.h`.  The C code keeps them in `int` variables;
here each is a type of its own, and `Status.code` gives back the number where a
caller only sees an `int`.
-/

namespace CapnpJanet

/-- Return codes: `CAPNP_OK` and the `CAPNP_ERR_*` constants. -/
inductive Status
  | ok | bounds | kind | depth | traversal | alloc | framing | packed | arg | segment | io
deriving DecidableEq, Repr

/-- The number a C caller sees. -/
def Status.code : Status → Int
  | .ok => 0
  | .bounds => 1
  | .kind => 2
  | .depth => 3
  | .traversal => 4
  | .alloc => 5
  | .framing => 6
  | .packed => 7
  | .arg => 8
  | .segment => 9
  | .io => 10

/-- Wire pointer kinds, bits 0-1 of a pointer word (`CAPNP_WK_*`). -/
inductive WireKind
  | struct | list | far | cap
deriving DecidableEq, Repr

/-- Resolved pointer kinds (`CAPNP_PK_*`). -/
inductive PtrKind
  | null | struct | list | cap
deriving DecidableEq, Repr

/-- List element size codes, bits 32-34 of a list pointer (`CAPNP_SZ_*`). -/
inductive ElemSize
  | void | bit | byte | two | four | eight | ptr | composite
deriving DecidableEq, Repr

namespace ElemSize

/-- The three-bit code of an element size. -/
def code : ElemSize → Nat
  | void => 0
  | bit => 1
  | byte => 2
  | two => 3
  | four => 4
  | eight => 5
  | ptr => 6
  | composite => 7

/-- Decode a three-bit code; larger numbers do not occur. -/
def ofCode : Nat → ElemSize
  | 0 => void
  | 1 => bit
  | 2 => byte
  | 3 => two
  | 4 => four
  | 5 => eight
  | 6 => ptr
  | _ => composite

/-- Bits one element occupies in the body of a list that is not composite. -/
def bits : ElemSize → Nat
  | void => 0
  | bit => 1
  | byte => 8
  | two => 16
  | four => 32
  | eight => 64
  | ptr => 64
  | composite => 0

@[simp]
theorem ofCode_code (size : ElemSize) : ofCode size.code = size := by
  cases size <;> rfl

theorem code_lt (size : ElemSize) : size.code < 8 := by
  cases size <;> decide

end ElemSize

/-- `CAPNP_DEFAULT_TRAVERSAL_WORDS` -/
def defaultTraversalWords : Nat := 8388608

/-- `CAPNP_DEFAULT_DEPTH_LIMIT` -/
def defaultDepthLimit : Nat := 64

/-- `CAPNP_MAX_SEGMENTS`, the size of a message's segment table. -/
def maxSegments : Nat := 16

end CapnpJanet
