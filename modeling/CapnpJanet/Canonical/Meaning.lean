import CapnpJanet.Canonical.FixedPoint
import CapnpJanet.Value.Copy
import CapnpJanet.Value.Reads

/-!
# What the canonical form means

The framed output of a canonicalization is taken by the parser, and its root
holds the value of the original root: every reader gives the same on both, with
default 0 and enough budget.  The data sections of the output have lost their
trailing zero words, so a scalar that begins in the output's section and ends
behind it is the exception: it reads as 0.
-/

namespace CapnpJanet

open ByteMemory Paths

namespace Message

variable {m m' : Message} {p p' : Ptr} {seg cost : Nat}

/-! ## Stored trees and their sources -/

/-- The handle of a stored tree has the sections of its source, trimmed. -/
theorem Twins.narrows (twins : Twins m m' seg (p, p')) (sound : p.Sound) (sound' : p'.Sound) :
    Narrows m (p, p') := by
  rcases twins.cases with ⟨null, -⟩ | ⟨room, slot, pos, readable, stored, rfl, form⟩
  · refine ⟨sound, sound', fun some => absurd null some, fun i hi => ?_⟩
    rw [Ptr.rows, form_of_null null] at hi
    exact absurd hi (Nat.not_lt_zero i)
  · refine ⟨sound, sound', fun _ => ?_, fun i hi k only => ?_⟩
    · rcases form with packed | ⟨shape, form⟩
      · rw [tree_packed packed]
        exact Nat.zero_le _
      · rw [tree_block form]
        cases shape with
        | pointers => exact Nat.zero_le _
        | _ => exact dataWords_le
    · by_cases kept : k < m.linkWords p
      · obtain ⟨q, cost, found, -⟩ := readable.2 i hi k kept
        exact Option.isSome_iff_exists.mpr ⟨_, found⟩
      · have other : p.form ≠ .block .pointers := fun pointers => kept (by
          rw [only pointers, linkWords, pointers]
          exact Nat.one_pos)
        obtain ⟨q, cost, found, -⟩ := (linkWords_le_iff other).mp (not_lt.mp kept) i hi k le_rfl
        exact Option.isSome_iff_exists.mpr ⟨_, found⟩

theorem Twins.mirrors (twins : Twins m m' seg (p, p')) (limit : m'.depthLimit ≠ 0)
    (sound : p.Sound) (sound' : p'.Sound) : Mirrors m m' p p' := by
  refine ⟨twins.valueEq limit, Everywhere.of_invariant
    (fun pair => Twins m m' seg pair ∧ pair.1.Sound ∧ pair.2.Sound) ⟨twins, sound, sound'⟩ ?_ ?_⟩
  · rintro ⟨r, r'⟩ ⟨q, q'⟩ ⟨here, -, -⟩ ⟨i, k, cost, cost', found, found'⟩
    exact ⟨here.next limit found found', link_sound found, link_sound found'⟩
  · rintro ⟨r, r'⟩ ⟨here, sound, sound'⟩
    exact here.narrows sound sound'

/-! ## The original and its canonical form -/

/-- A canonical form of at most 2^29 words reads as the original. -/
theorem canonicalize_reads_alike {framed : List UInt8} (done : m.canonicalizeFramed = .ok framed)
    (short : framed.length ≤ 8 * (1 + 2 ^ 29)) :
    ∃ m' p cost p' cost', messageFromFlat framed = .ok m' ∧
      (∀ out left, Agrees (m.limited.root out left) (some (p, cost)) left) ∧
      (∀ out left, Agrees (m'.root out left) (some (p', cost')) left) ∧
      ValueEq m.limited m' p p' ∧
      Everywhere (BothRead m.limited m') (ReadsAlike m.limited m') (p, p') := by
  obtain ⟨raw, body, rfl⟩ := canonicalizeFramed_eq_ok_iff.mp done
  obtain ⟨p, cost, named, readable, -, renders⟩ := canonicalize_eq_ok_iff.mp body
  have length := renders.length
  have framedLength : (frameOf raw).length = 8 + raw.length := by
    simp [frameOf]
    omega
  have small : 1 + (m.limited.tree copyRoom p).size ≤ 2 ^ 29 := by omega
  have sound := rootTarget_sound named
  have stored := renders.stored (tree_proper sound copyRoom)
    (Tree.near_of_small Nat.one_pos (by omega)) (by omega)
  have limit : (messageOf raw).depthLimit ≠ 0 := by
    change defaultDepthLimit ≠ 0
    decide
  have again := rootTarget_of_stored stored limit
  have twins : Twins m.limited (messageOf raw) 0
      (p, (m.limited.tree copyRoom p).handle 0 0 1) :=
    .inr ⟨copyRoom, 0, 1, readable, stored, rfl⟩
  have mirrors := twins.mirrors limit sound (rootTarget_sound again)
  exact ⟨messageOf raw, p, cost, _, _, messageFromFlat_frameOf raw,
    fun out left => named ▸ m.limited.root_agrees out left,
    fun out left => again ▸ (messageOf raw).root_agrees out left, mirrors.value,
    mirrors.everywhere⟩

/-- A root of two data words, with one byte set in the first. -/
def twoWordsFrame (at' : Nat) : List UInt8 :=
  [0, 0, 0, 0, 3, 0, 0, 0, 0, 0, 0, 0, 2, 0, 0, 0] ++ (List.replicate 16 0).set at' 7

/-- The canonical form of that root. -/
def oneWordFrame (at' : Nat) : List UInt8 :=
  [0, 0, 0, 0, 2, 0, 0, 0, 0, 0, 0, 0, 1, 0, 0, 0] ++ (List.replicate 8 0).set at' 7

/-- The canonical form of a root with a number in its first data word. -/
theorem canonicalize_reads_alike_trimmed :
    ∃ m' p cost p' cost', messageFromFlat (oneWordFrame 0) = .ok m' ∧
      (∀ out left, Agrees ((Frame.message (ofList (twoWordsFrame 0))).limited.root out left)
        (some (p, cost)) left) ∧
      (∀ out left, Agrees (m'.root out left) (some (p', cost')) left) ∧
      ValueEq (Frame.message (ofList (twoWordsFrame 0))).limited m' p p' ∧
      Everywhere (BothRead (Frame.message (ofList (twoWordsFrame 0))).limited m')
        (ReadsAlike (Frame.message (ofList (twoWordsFrame 0))).limited m') (p, p') :=
  canonicalize_reads_alike (by decide +kernel) (by decide)

/-- A scalar that crosses the end of the canonical section is lost: the
two bytes at 7 hold 7 in a root of two data words, and 0 in its canonical form. -/
theorem split_scalar_lost : ∃ m m' p p' left left',
    messageFromFlat (twoWordsFrame 7) = .ok m ∧
      m.root Ptr.zero defaultTraversalWords = ⟨.ok, p, left⟩ ∧ p.pwords = 0 ∧
      m.ContentInside p ∧ m.canonicalizeFramed = .ok (oneWordFrame 7) ∧
      messageFromFlat (oneWordFrame 7) = .ok m' ∧
      m'.root Ptr.zero defaultTraversalWords = ⟨.ok, p', left'⟩ ∧
      m.getU16 p 7 0 = 7 ∧ m'.getU16 p' 7 0 = 0 := by
  refine ⟨Frame.message (ofList (twoWordsFrame 7)), Frame.message (ofList (oneWordFrame 7)),
    structAt 0 1 2 0, structAt 0 1 1 0, defaultTraversalWords - 3, defaultTraversalWords - 2,
    parseFlat_of_accepted (by decide +kernel), by decide +kernel, rfl, fun i inside => ?_,
    by decide +kernel, parseFlat_of_accepted (by decide +kernel), by decide +kernel,
    by decide +kernel, by decide +kernel⟩
  have few : i < 2 := inside
  obtain rfl | rfl : i = 0 ∨ i = 1 := by omega
  · decide +kernel
  · decide +kernel

end Message

end CapnpJanet
