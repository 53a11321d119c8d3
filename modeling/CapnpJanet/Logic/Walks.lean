import Mathlib.Init

/-!
# Walks of an iteration protocol

A protocol of iteration says which key comes after a key, the first key being the
one after a key that starts, and stops with a key that no element has.  A walk
lists the keys in order; there is one at most.
-/

namespace Walks

universe u

variable {κ : Type u} {next : κ → κ} {stop : κ}

/-- The keys that iteration visits after a key, up to where it stops. -/
inductive Walk (next : κ → κ) (stop : κ) : κ → List κ → Prop
  | done {key : κ} : next key = stop → Walk next stop key []
  | step {key : κ} {keys : List κ} : next key ≠ stop → Walk next stop (next key) keys →
      Walk next stop key (next key :: keys)

namespace Walk

/-- There is one walk at most. -/
theorem unique {key : κ} {keys keys' : List κ} (walk : Walk next stop key keys)
    (walk' : Walk next stop key keys') : keys = keys' := by
  induction walk generalizing keys' with
  | done ends =>
      cases walk' with
      | done => rfl
      | step more => exact absurd ends more
  | step more _ ih =>
      cases walk' with
      | done ends => exact absurd ends more
      | step _ rest => exact congrArg _ (ih rest)

/-- Keys numbered from `i` on, each of which comes after the one before it. -/
theorem indexed {index : Nat → κ} (some : ∀ i, index i ≠ stop) {n : Nat}
    (after : ∀ i, i < n → next (index i) = if i + 1 < n then index (i + 1) else stop) (k : Nat) :
    ∀ i, i + 1 + k = n → Walk next stop (index i) ((List.range' (i + 1) k).map index) := by
  induction k with
  | zero =>
      intro i last
      refine .done ?_
      rw [after i (by omega), if_neg (by omega)]
  | succ k ih =>
      intro i before
      have onward : next (index i) = index (i + 1) := by
        rw [after i (by omega), if_pos (by omega)]
      rw [List.range'_succ, List.map_cons, ← onward]
      refine .step ?_ ?_
      · rw [onward]
        exact some _
      · rw [onward]
        exact ih (i + 1) (by omega)

/-- A protocol that counts visits all indices in order. -/
theorem range {start : κ} {index : Nat → κ} (some : ∀ i, index i ≠ stop) {n : Nat}
    (first : next start = if 0 < n then index 0 else stop)
    (after : ∀ i, i < n → next (index i) = if i + 1 < n then index (i + 1) else stop) :
    Walk next stop start ((List.range n).map index) := by
  cases n with
  | zero => exact .done (first.trans (if_neg (Nat.lt_irrefl 0)))
  | succ n =>
      have onward : next start = index 0 := first.trans (if_pos (Nat.succ_pos n))
      rw [List.range_eq_range', List.range'_succ, List.map_cons, ← onward]
      refine .step ?_ ?_
      · rw [onward]
        exact some 0
      · rw [onward]
        exact indexed some after n 0 (Nat.add_comm _ _)

end Walk

end Walks
