import Mathlib.Data.List.Infix

/-!
# Logs of a window

Items enter a window and leave it, each with a verdict.  A log of a window is in
order when the items leave in the order in which they entered, there are never
more of them inside than the window has room for, and nothing enters after an
item has left with a bad verdict.
-/

namespace Window

universe u

variable {ι : Type u}

/-- An item enters the window, or leaves it with a verdict. -/
inductive Event (ι : Type u)
  | enter (i : ι)
  | leave (i : ι) (bad : Bool)
deriving DecidableEq, Repr

/-- The items that enter, in their order. -/
def entered : List (Event ι) → List ι
  | [] => []
  | .enter i :: rest => i :: entered rest
  | .leave _ _ :: rest => entered rest

/-- The items that leave with their verdicts, in their order. -/
def left : List (Event ι) → List (ι × Bool)
  | [] => []
  | .enter _ :: rest => left rest
  | .leave i bad :: rest => (i, bad) :: left rest

/-- The first item that leaves with a bad verdict. -/
def firstBad (log : List (Event ι)) : Option ι := ((left log).find? Prod.snd).map Prod.fst

section
variable (log more : List (Event ι))

theorem entered_append : entered (log ++ more) = entered log ++ entered more := by
  induction log with
  | nil => rfl
  | cons e rest ih => cases e <;> simp [entered, ih]

theorem left_append : left (log ++ more) = left log ++ left more := by
  induction log with
  | nil => rfl
  | cons e rest ih => cases e <;> simp [left, ih]

theorem firstBad_enter (i : ι) : firstBad (log ++ [.enter i]) = firstBad log := by
  rw [firstBad, left_append, left, left, List.append_nil, firstBad]

theorem firstBad_leave (i : ι) (bad : Bool) :
    firstBad (log ++ [.leave i bad]) = (firstBad log).or (if bad then some i else none) := by
  rw [firstBad, left_append, left, left, List.find?_append, firstBad]
  cases (left log).find? Prod.snd with
  | none => cases bad <;> rfl
  | some first => rfl

/-- There is a first bad item as soon as there is a bad one. -/
theorem firstBad_eq_none_iff : firstBad log = none ↔ ∀ out ∈ left log, out.2 = false := by
  simp [firstBad]

end

/-- The log is in order, with `inside` the items still in the window. -/
structure Ordered (limit : Nat) (log : List (Event ι)) (inside : List ι) : Prop where
  order : entered log = (left log).map Prod.fst ++ inside
  bounded : ∀ before, before <+: log → (entered before).length ≤ (left before).length + limit
  silent : ∀ before i after, log = before ++ .leave i true :: after → entered after = []

namespace Ordered

variable {limit : Nat} {log : List (Event ι)} {inside : List ι} {i : ι}

theorem nil (limit : Nat) : Ordered limit ([] : List (Event ι)) [] where
  order := rfl
  bounded before beginning := by
    rw [List.prefix_nil.mp beginning]
    exact Nat.zero_le _
  silent _ _ _ same := absurd same (by simp)

/-- What is inside fits the window. -/
theorem length_le (ordered : Ordered limit log inside) : inside.length ≤ limit := by
  have whole := ordered.bounded log (List.prefix_refl log)
  rw [ordered.order, List.length_append, List.length_map] at whole
  omega

/-- One more event keeps the bound if the whole log does. -/
theorem bounded_concat (ordered : Ordered limit log inside) (e : Event ι)
    (whole : (entered (log ++ [e])).length ≤ (left (log ++ [e])).length + limit)
    (before : List (Event ι)) (beginning : before <+: log ++ [e]) :
    (entered before).length ≤ (left before).length + limit := by
  rcases List.prefix_concat_iff.mp beginning with rfl | shorter
  · exact whole
  · exact ordered.bounded before shorter

/-- A bad item in a longer log is one of the log, or the event that was
added. -/
theorem silent_concat (ordered : Ordered limit log inside) (e : Event ι)
    (quiet : firstBad log ≠ none → entered [e] = []) (before : List (Event ι)) (j : ι)
    (after : List (Event ι)) (same : log ++ [e] = before ++ .leave j true :: after) :
    entered after = [] := by
  rcases List.eq_nil_or_concat after with rfl | ⟨after', last, rfl⟩
  · rfl
  · rw [List.concat_eq_append, ← List.cons_append, ← List.append_assoc] at same
    obtain ⟨here, added⟩ := List.append_inj' same rfl
    have earlier := ordered.silent before j after' here
    rw [List.concat_eq_append, entered_append, earlier, ← added]
    refine quiet fun none => ?_
    have fine := (firstBad_eq_none_iff log).mp none (j, true) (by
      rw [here, left_append]
      exact List.mem_append_right _ List.mem_cons_self)
    cases fine

/-- The oldest item leaves. -/
theorem leave (ordered : Ordered limit log (i :: inside)) (bad : Bool) :
    Ordered limit (log ++ [.leave i bad]) inside where
  order := by
    rw [entered_append, left_append, ordered.order]
    simp [entered, left]
  bounded := by
    refine ordered.bounded_concat _ ?_
    have whole := ordered.bounded log (List.prefix_refl log)
    rw [entered_append, left_append, List.length_append, List.length_append]
    simp only [entered, left, List.length_nil, List.length_cons]
    omega
  silent := ordered.silent_concat _ fun _ => rfl

/-- An item enters when there is room and nothing bad has left. -/
theorem enter (ordered : Ordered limit log inside) (room : inside.length < limit)
    (fine : firstBad log = none) (i : ι) :
    Ordered limit (log ++ [.enter i]) (inside ++ [i]) where
  order := by
    rw [entered_append, left_append, ordered.order]
    simp [entered, left]
  bounded := by
    refine ordered.bounded_concat _ ?_
    rw [entered_append, left_append, ordered.order, List.length_append, List.length_append,
      List.length_append, List.length_map]
    simp only [entered, left, List.length_nil, List.length_cons]
    omega
  silent := ordered.silent_concat _ fun some => absurd fine some

end Ordered

end Window
