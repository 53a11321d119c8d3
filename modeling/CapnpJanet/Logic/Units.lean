import Mathlib.Data.List.Basic

/-!
# Readers of self-delimiting units

A reader takes one unit from the front of a list and says what the unit means.
If it accepts exactly the printed units, the loop that reads until the list is
empty accepts exactly the concatenations of units.  Concatenations then can be
joined, and none can be cut inside a unit.
-/

namespace Units

universe u v w

variable {α : Type u} {β : Type v} {υ : Type w}

/-- One step of a loop over a list: the meaning of the unit in front and the
rest of the list, which is shorter. -/
structure Reader (α : Type u) (β : Type v) where
  step : List α → Option (β × List α)
  shrinks : ∀ {xs : List α} {y : β} {rest : List α}, step xs = some (y, rest) → rest.length < xs.length

/-- Read units until the list is empty. -/
def Reader.run (r : Reader α β) : List α → Option (List β)
  | [] => some []
  | x :: xs =>
      match _ : r.step (x :: xs) with
      | none => none
      | some (y, rest) => (r.run rest).map (y :: ·)
termination_by xs => xs.length
decreasing_by exact r.shrinks ‹_›

namespace Reader

variable {r : Reader α β} {xs rest : List α} {y : β}

theorem run_nil : r.run [] = some [] := by
  rw [run]

theorem run_of_none (some : xs ≠ []) (stuck : r.step xs = none) : r.run xs = none := by
  obtain ⟨x, xs, rfl⟩ := List.exists_cons_of_ne_nil some
  rw [run]
  split
  · rfl
  · next taken =>
    rw [stuck] at taken
    cases taken

theorem run_of_some (taken : r.step xs = some (y, rest)) : r.run xs = (r.run rest).map (y :: ·) := by
  cases xs with
  | nil => exact absurd (r.shrinks taken) (Nat.not_lt_zero _)
  | cons x xs =>
      rw [run]
      split
      · next stuck =>
        rw [stuck] at taken
        cases taken
      · next taken' =>
        rw [taken] at taken'
        cases taken'
        rfl

end Reader

/-- A reader accepts exactly the units that `print` prints, and nothing of a
list that does not start with one. -/
structure Delimits (r : Reader α β) (print : υ → List α) (meaning : υ → β) : Prop where
  reads : ∀ u rest, r.step (print u ++ rest) = some (meaning u, rest)
  printed : ∀ {xs y rest}, r.step xs = some (y, rest) → ∃ u, xs = print u ++ rest ∧ y = meaning u

namespace Delimits

variable {r : Reader α β} {print : υ → List α} {meaning : υ → β}

/-- What is read of a sequence of units, whatever follows it. -/
theorem run_append (delimits : Delimits r print meaning) (us : List υ) (rest : List α) :
    r.run (us.flatMap print ++ rest) = (r.run rest).map (us.map meaning ++ ·) := by
  induction us with
  | nil => simp
  | cons u us ih =>
      rw [List.flatMap_cons, List.append_assoc, Reader.run_of_some (delimits.reads u _), ih,
        Option.map_map]
      rfl

/-- The loop accepts exactly the sequences of units. -/
theorem run_eq_some_iff (delimits : Delimits r print meaning) {xs : List α} {ys : List β} :
    r.run xs = some ys ↔ ∃ us : List υ, xs = us.flatMap print ∧ ys = us.map meaning := by
  constructor
  · intro accepted
    induction xs using Reader.run.induct r generalizing ys with
    | case1 =>
        rw [Reader.run_nil] at accepted
        cases accepted
        exact ⟨[], rfl, rfl⟩
    | case2 x xs stuck =>
        rw [Reader.run_of_none (List.cons_ne_nil x xs) stuck] at accepted
        cases accepted
    | case3 x xs y rest taken ih =>
        rw [Reader.run_of_some taken] at accepted
        obtain ⟨others, tail, rfl⟩ := Option.map_eq_some_iff.mp accepted
        obtain ⟨us, rfl, rfl⟩ := ih tail
        obtain ⟨u, start, rfl⟩ := delimits.printed taken
        exact ⟨u :: us, start, rfl⟩
  · rintro ⟨us, rfl, rfl⟩
    have whole := delimits.run_append us []
    rwa [List.append_nil, Reader.run_nil, Option.map_some, List.append_nil] at whole

/-- A unit that is cut is not read. -/
theorem step_take (delimits : Delimits r print meaning) (u : υ) {n : Nat}
    (cut : n < (print u).length) : r.step ((print u).take n) = none := by
  by_contra accepted
  obtain ⟨⟨y, rest⟩, taken⟩ := Option.ne_none_iff_exists'.mp accepted
  obtain ⟨other, start, -⟩ := delimits.printed taken
  -- the whole unit would be read as the other unit, with a rest
  have whole : print u = print other ++ (rest ++ (print u).drop n) := by
    rw [← List.append_assoc, ← start, List.take_append_drop]
  have first := delimits.reads other (rest ++ (print u).drop n)
  have second := delimits.reads u []
  rw [← whole] at first
  rw [List.append_nil, first] at second
  have empty := congrArg (fun read => read.map fun p => p.2.length) second
  simp at empty
  omega

/-- A sequence cut inside its last unit is rejected. -/
theorem run_take (delimits : Delimits r print meaning) (us : List υ) (u : υ) {n : Nat} (some : 0 < n)
    (cut : n < (print u).length) : r.run (us.flatMap print ++ (print u).take n) = none := by
  have left : (print u).take n ≠ [] := by
    rw [← List.length_pos_iff, List.length_take]
    omega
  rw [delimits.run_append, Reader.run_of_none left (delimits.step_take u cut), Option.map_none]

end Delimits

end Units
