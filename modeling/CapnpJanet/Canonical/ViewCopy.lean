import CapnpJanet.Canonical.SlotCopy
import CapnpJanet.Message.ListViews

/-!
# Copies of upgrade views

The struct view of a list element can be copied into a builder like any struct.
The copier counts data in words and reads them with a getter that refuses a data
section of less than a word, so the copy of a one-, two- or four-byte element is
an empty struct.  A view keeps its field exactly if it is of whole words, or the
element is zero.
-/

namespace CapnpJanet

open ByteMemory Outcome

namespace Message

/-! ## Data sections in one piece -/

section
variable {m : Message} {p : Ptr} {n : Nat}

end

/-! ## Fields of a struct and of its copy -/

section
variable {m m' : Message} {el copy : Ptr} {n n' : Nat}

end

/-! ## Views -/

/-- An element keeps its field in a copy of its view: it fills whole words, or is
zero. -/
def Keeps (m : Message) (list : Ptr) (index : Nat) : Prop :=
  ∀ n, list.esize.viewBytes = some n →
    n = 8 ∨ m.getScalar n (upgradePtr list index n) 0 0 = 0

section
variable {m m' : Message} {list el copy out : Ptr} {index n room seg slot pos : Nat}

end

end Message

namespace Builder

variable {b b' : Builder} {m : Message} {t : Tree}

end Builder

end CapnpJanet
