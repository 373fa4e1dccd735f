import Mathlib.Data.List.Basic

/-!
# Steps of a trace and what came before them

A trace is the list of what happened, in order.  A rule on a step and the steps
before it is checked from the front of the trace, one step at a time.
-/

namespace IdoProject
namespace Transition

variable {Step : Type u}

/-- Every step of a trace meets the rule, which is given the steps before it;
the trace itself comes after a past. -/
def EachAfter
    (rule : List Step → Step → Prop)
    (past trace : List Step) : Prop :=
  ∀ before step after, trace = before ++ step :: after →
    rule (past ++ before) step

variable {rule : List Step → Step → Prop}
variable {past trace : List Step}

@[simp] theorem eachAfter_nil :
    EachAfter rule past [] := by
  intro before step after split
  exact absurd split (by simp)

/-- The first step is looked at with the past alone, the others with the first
step in their past. -/
@[simp] theorem eachAfter_cons
    {step : Step} :
    EachAfter rule past (step :: trace) ↔
      rule past step ∧ EachAfter rule (past ++ [step]) trace := by
  constructor
  · intro each
    constructor
    · have first := each [] step trace rfl
      rwa [List.append_nil] at first
    · intro before later after split
      have behind := each (step :: before) later after (by rw [split]; rfl)
      rwa [List.append_cons] at behind
  · rintro ⟨first, others⟩ before later after split
    cases before with
    | nil =>
        obtain ⟨rfl, -⟩ := List.cons.inj split
        rwa [List.append_nil]
    | cons other before =>
        obtain ⟨rfl, rest⟩ := List.cons.inj split
        rw [List.append_cons]
        exact others before later after rest

end Transition
end IdoProject
