import CapnpJanet.Builder.Single
import CapnpJanet.Canonical.Walk

/-!
# Canonicalization

What `capnp_canonicalize` writes is the layout of the root's tree: the root
pointer and the objects in preorder, in one segment.  It succeeds exactly when
the root and everything behind it can be read within the budget, and the bytes
are then determined by the tree.
-/

namespace CapnpJanet

open ByteMemory Outcome Finset

namespace Message

/-- The message as `capnp_canonicalize` reads it: with the default depth
limit. -/
def limited (m : Message) : Message := { m with depthLimit := defaultDepthLimit }

/-- The object that the root pointer names, and its price. -/
def rootTarget (m : Message) : Option (Ptr × Nat) :=
  if m.nsegs = 0 then none else m.slotTarget m.depthLimit 0 0

theorem root_agrees (m : Message) (out : Ptr) (left : Nat) :
    Agrees (m.root out left) m.rootTarget left := by
  unfold root rootTarget
  split
  · exact Agrees.of_fail (by simp)
  · exact m.resolvePtr_agrees _ _ _ out left

/-! ## Copies that succeed -/

section
variable {m : Message} {room seg word : Nat} {src : Ptr} {st st' : CopyState}

theorem copied_of_ok (wf : st.b.Wf) (inUse : st.b.Used seg word)
    (run : m.copyPtrToWord room seg word src st = .ok () st') :
    m.Readable room src ∧ st'.left + m.walkCost room src = st.left ∧
      Builder.Copied seg word (m.tree room src) st.b st'.b := by
  have spent := (copyPtrToWord_spends m room seg word src st).of_ok run
  have copied := (copyPtrToWord_copies m room seg word src st wf inUse spent.1
    (by have total := spent.2; omega)).of_ok run
  exact ⟨spent.1, spent.2, copied.1⟩

theorem exists_copied (wf : st.b.Wf) (inUse : st.b.Used seg word) (readable : m.Readable room src)
    (enough : m.walkCost room src ≤ st.left) :
    ∃ st', m.copyPtrToWord room seg word src st = .ok () st' := by
  have copies := copyPtrToWord_copies m room seg word src st wf inUse readable enough
  unfold Fills at copies
  cases run : m.copyPtrToWord room seg word src st with
  | ok _ st' => exact ⟨st', rfl⟩
  | error rc st' =>
      rw [run] at copies
      exact copies.elim

end

/-! ## The canonical bytes -/

/-- The bytes are the layout of a tree behind one root pointer. -/
structure Renders (raw : List UInt8) (t : Tree) : Prop where
  length : raw.length = 8 * (1 + t.size)
  laid : t.Laid (ofList raw) (word (ofList raw) 0) 0 1

/-- The bytes are determined by the tree. -/
theorem Renders.unique {raw raw' : List UInt8} {t : Tree} (renders : Renders raw t)
    (renders' : Renders raw' t) : raw = raw' := by
  obtain ⟨first, rest⟩ := renders.laid.unique renders'.laid
  refine List.ext_getElem (renders.length.trans renders'.length.symm) fun a low high => ?_
  have same : ofList raw a = ofList raw' a := by
    by_cases atRoot : a < 8
    · apply byte_eq_of_word_eq
      rw [show a / 8 = 0 by omega]
      exact first
    · exact rest a (by omega) (by rw [renders.length] at low; omega)
  simpa [ofList, low, high] using same

/-- The builder that `capnp_canonicalize` starts from: one word is in use. -/
theorem canonicalStart : ∃ b, Builder.allocLocal 1 { Builder.init with forceSingle := true } =
    .ok (0, 0) b ∧ b.Wf ∧ b.Used 0 0 ∧ b.last = 0 ∧ (b.seg 0).words = 1 := by
  have wf : Builder.Wf { Builder.init with forceSingle := true } := by
    have single : (Builder.single (fun _ => 0) 0).Wf :=
      Builder.wf_single (Nat.zero_le _) fun _ _ => rfl
    rw [← Builder.init_eq_single] at single
    exact ⟨single.nonempty, single.words_le, single.clear, single.unused⟩
  obtain ⟨b, run, allocated, adds⟩ := Builder.allocLocal_adds wf 1
  have last : Builder.last { Builder.init with forceSingle := true } = 0 := rfl
  have empty : (Builder.init.seg 0).words = 0 := by
    rw [Builder.init_eq_single, Builder.single_seg_zero]
  rw [last] at run allocated
  dsimp only at run allocated
  rw [empty] at run allocated
  refine ⟨b, run, allocated.wf, ?_, adds.last_eq.trans last, ?_⟩
  · simpa using allocated.used_new Nat.one_pos
  · simpa using allocated.words_self

/-- What `canonicalBuilder` leaves when it succeeds. -/
theorem canonicalBuilder_renders {m : Message} {root : Resolved} {b : Builder}
    (done : m.canonicalBuilder root = (.ok, b)) :
    m.Readable copyRoom root.out ∧ m.walkCost copyRoom root.out ≤ root.left ∧
      Renders (Builder.segBytes (b.seg 0)) (m.tree copyRoom root.out) := by
  obtain ⟨start, run, wf, inUse, last, words⟩ := canonicalStart
  unfold canonicalBuilder at done
  dsimp only at done
  rw [run] at done
  dsimp only at done
  cases copy : m.copyPtrToWord copyRoom 0 0 root.out ⟨start, root.left⟩ with
  | error rc st =>
      rw [copy] at done
      cases done
  | ok _ st =>
      rw [copy] at done
      cases done
      obtain ⟨readable, spent, copied⟩ := copied_of_ok wf inUse copy
      dsimp only at spent copied
      have size : (st.b.seg 0).words = 1 + (m.tree copyRoom root.out).size := by
        have added := copied.adds.last_words
        rwa [last, words] at added
      have bytes (a : Nat) (inside : a < 8 * (1 + (m.tree copyRoom root.out).size)) :
          ofList (Builder.segBytes (st.b.seg 0)) a = (st.b.seg 0).data a := by
        rw [Builder.segBytes, ofList_toList (by rw [size]; omega), Nat.zero_add]
      refine ⟨readable, by omega, ?_, ?_⟩
      · rw [Builder.segBytes, ByteMemory.length_toList, size]
        omega
      · have root : word (ofList (Builder.segBytes (st.b.seg 0))) 0 = st.b.wordAt 0 0 :=
          word_congr fun k hk => bytes _ (by omega)
        have laid := copied.laid
        rw [last, words] at laid
        rw [root]
        exact laid.congr fun a low high => bytes a (by omega)

/-- What can be read within the budget can be canonicalized. -/
theorem exists_canonicalize {m : Message} {p : Ptr} {cost : Nat}
    (named : m.limited.rootTarget = some (p, cost)) (readable : m.limited.Readable copyRoom p)
    (enough : cost + m.limited.walkCost copyRoom p ≤ defaultTraversalWords) :
    ∃ raw, m.canonicalize = .ok raw ∧ Renders raw (m.limited.tree copyRoom p) := by
  have read := (m.limited.root_agrees Ptr.zero defaultTraversalWords).covered p cost named (by omega)
  obtain ⟨start, run, wf, inUse, last, words⟩ := canonicalStart
  obtain ⟨st, copy⟩ : ∃ st, m.limited.copyPtrToWord copyRoom 0 0 p
      ⟨start, defaultTraversalWords - cost⟩ = .ok () st :=
    exists_copied wf inUse readable (by dsimp only; omega)
  have filled : m.limited.canonicalBuilder ⟨.ok, p, defaultTraversalWords - cost⟩ = (.ok, st.b) := by
    unfold canonicalBuilder
    dsimp only
    rw [run]
    dsimp only
    rw [copy]
  obtain ⟨-, -, renders⟩ := canonicalBuilder_renders filled
  refine ⟨Builder.segBytes (st.b.seg 0), ?_, renders⟩
  unfold canonicalize
  dsimp only
  rw [show ({ m with depthLimit := defaultDepthLimit } : Message) = m.limited from rfl, read,
    if_neg (not_not.mpr rfl), filled]

/-- When canonicalization succeeds, and with which bytes. -/
theorem canonicalize_eq_ok_iff {m : Message} {raw : List UInt8} :
    m.canonicalize = .ok raw ↔ ∃ p cost, m.limited.rootTarget = some (p, cost) ∧
      m.limited.Readable copyRoom p ∧
        cost + m.limited.walkCost copyRoom p ≤ defaultTraversalWords ∧
          Renders raw (m.limited.tree copyRoom p) := by
  constructor
  · intro done
    have agrees := m.limited.root_agrees Ptr.zero defaultTraversalWords
    unfold canonicalize at done
    dsimp only at done
    rw [show ({ m with depthLimit := defaultDepthLimit } : Message) = m.limited from rfl] at done
    split at done
    · cases done
    · next ok =>
      obtain ⟨cost, enough, named, left⟩ := agrees.of_ok (not_not.mp ok)
      cases filled : m.limited.canonicalBuilder (m.limited.root Ptr.zero defaultTraversalWords) with
      | mk rc b =>
          rw [filled] at done
          cases rc with
          | ok =>
              cases done
              obtain ⟨readable, covered, renders⟩ := canonicalBuilder_renders filled
              exact ⟨_, cost, named, readable, by omega, renders⟩
          | _ => cases done
  · rintro ⟨p, cost, named, readable, enough, renders⟩
    obtain ⟨raw', done, again⟩ := exists_canonicalize named readable enough
    rwa [renders.unique again]

end Message

end CapnpJanet
