import Mathlib.Init

/-!
# Who has come by what

Parties come by objects in two ways: an object is endowed from outside, or a
party that has come by it passes it on.  A history of such gifts is lawful if
nobody passes on what he has not come by; in a lawful history every object that
a party has reached it through a chain of gifts that starts with an endowment.
-/

namespace Authority

universe u v

variable {Party : Type u} {Object : Type v}

/-- One way a party comes by an object. -/
inductive Gift (Party : Type u) (Object : Type v) where
  | endow (p : Party) (o : Object)
  | pass (p q : Party) (o : Object)
deriving DecidableEq

/-- The party and the object of a gift. -/
def Gift.delivered : Gift Party Object → Party × Object
  | .endow p o => (p, o)
  | .pass _ q o => (q, o)

/-- A party has come by an object. -/
def Received (gifts : List (Gift Party Object)) (p : Party) (o : Object) : Prop :=
  ∃ g ∈ gifts, g.delivered = (p, o)

/-- A history, the latest gift first, in which what is passed on was received
before. -/
inductive Lawful : List (Gift Party Object) → Prop
  | nil : Lawful []
  | endow {gifts : List (Gift Party Object)} (lawful : Lawful gifts) (p : Party) (o : Object) :
      Lawful (.endow p o :: gifts)
  | pass {gifts : List (Gift Party Object)} (lawful : Lawful gifts) {p : Party} {o : Object}
      (received : Received gifts p o) (q : Party) : Lawful (.pass p q o :: gifts)

/-- A chain of gifts leads from an endowment to a party. -/
inductive Derived (gifts : List (Gift Party Object)) (o : Object) : Party → Prop
  | endowed {p : Party} (given : .endow p o ∈ gifts) : Derived gifts o p
  | passed {p q : Party} (derived : Derived gifts o p) (given : .pass p q o ∈ gifts) :
      Derived gifts o q

variable {gifts gifts' : List (Gift Party Object)} {p q : Party} {o : Object}

theorem Received.mono (received : Received gifts p o) (more : gifts ⊆ gifts') :
    Received gifts' p o := by
  obtain ⟨g, member, delivered⟩ := received
  exact ⟨g, more member, delivered⟩

theorem Received.cons (received : Received gifts p o) (g : Gift Party Object) :
    Received (g :: gifts) p o := received.mono (List.subset_cons_self g gifts)

theorem received_endow (gifts : List (Gift Party Object)) (p : Party) (o : Object) :
    Received (.endow p o :: gifts) p o := ⟨_, List.mem_cons_self, rfl⟩

theorem received_pass (gifts : List (Gift Party Object)) (p q : Party) (o : Object) :
    Received (.pass p q o :: gifts) q o := ⟨_, List.mem_cons_self, rfl⟩

theorem Derived.mono (derived : Derived gifts o p) (more : gifts ⊆ gifts') :
    Derived gifts' o p := by
  induction derived with
  | endowed given => exact .endowed (more given)
  | passed _ given ih => exact .passed ih (more given)

/-- What is received is derived: connectivity comes only from
connectivity. -/
theorem Lawful.derived (lawful : Lawful gifts) (received : Received gifts p o) :
    Derived gifts o p := by
  induction lawful generalizing p o with
  | nil =>
      obtain ⟨g, member, -⟩ := received
      cases member
  | @endow gifts lawful p' o' ih =>
      obtain ⟨g, member, delivered⟩ := received
      rcases List.mem_cons.mp member with rfl | before
      · obtain ⟨rfl, rfl⟩ := Prod.mk.inj delivered
        exact .endowed List.mem_cons_self
      · exact (ih ⟨g, before, delivered⟩).mono (List.subset_cons_self _ _)
  | @pass gifts lawful p' o' had q' ih =>
      obtain ⟨g, member, delivered⟩ := received
      rcases List.mem_cons.mp member with rfl | before
      · obtain ⟨rfl, rfl⟩ := Prod.mk.inj delivered
        exact .passed ((ih had).mono (List.subset_cons_self _ _)) List.mem_cons_self
      · exact (ih ⟨g, before, delivered⟩).mono (List.subset_cons_self _ _)

end Authority
