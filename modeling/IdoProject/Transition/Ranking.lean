import IdoProject.Transition.Machine
import IdoProject.Transition.Parties
import Mathlib.Algebra.Order.Ring.Int
import Mathlib.Order.WellFounded

/-!
# Machines that come to rest

Some of a machine's actions are its own; the others are taken by its
surroundings.  Where every action of its own makes a rank smaller, and ranks do
not fall for ever, the machine cannot go on for ever by itself, and whatever it
does it can be brought to a state in which none of its own actions is left.  The
rank of a machine with many parties is made of weights that the parties have.
-/

namespace IdoProject
namespace Transition

namespace Machine

variable {State : Type u} {Action : Type v} {Rank : Type w}

/-- None of the machine's own actions is enabled. -/
def AtRest
    (machine : Machine State Action)
    (own : Action → Prop)
    (state : State) : Prop :=
  ∀ action, own action → machine.step state action = none

/-- The machine cannot take infinitely many actions of its own in a row. -/
def Halts
    (machine : Machine State Action)
    (own : Action → Prop)
    (state : State) : Prop :=
  ∀ states : Nat → State, states 0 = state →
    ∃ index, ¬∃ action, own action ∧
      machine.step (states index) action = some (states (index + 1))

section Rules

variable [Preorder Rank] [WellFoundedLT Rank]
variable {machine : Machine State Action}
variable {own : Action → Prop}
variable {invariant : State → Prop}
variable {rank : State → Rank}
variable {start : State}

/-- A rank that every own action makes smaller. -/
theorem halts_of_rank
    (kept : ∀ state action next, invariant state → own action →
      machine.step state action = some next → invariant next)
    (falls : ∀ state action next, invariant state → own action →
      machine.step state action = some next → rank next < rank state)
    (initially : invariant start) :
    machine.Halts own start := by
  intro states first
  by_contra never
  push Not at never
  have holds : ∀ index, invariant (states index) := by
    intro index
    induction index with
    | zero => exact first ▸ initially
    | succ index inductionHypothesis =>
        obtain ⟨action, mine, fired⟩ := never index
        exact kept _ action _ inductionHypothesis mine fired
  obtain ⟨index, stays⟩ :=
    @WellFounded.not_rel_apply_succ Rank (· < ·) _ fun index => rank (states index)
  obtain ⟨action, mine, fired⟩ := never index
  exact stays (falls _ action _ (holds index) mine fired)

/-- Some run of own actions ends in a state of rest. -/
theorem exists_run_atRest
    (kept : ∀ state action next, invariant state → own action →
      machine.step state action = some next → invariant next)
    (falls : ∀ state action next, invariant state → own action →
      machine.step state action = some next → rank next < rank state)
    (initially : invariant start) :
    ∃ actions finish, (∀ action ∈ actions, own action) ∧
      machine.run start actions = some finish ∧ machine.AtRest own finish := by
  have ranked := InvImage.wf rank (@wellFounded_lt Rank _ _)
  induction start using ranked.induction with
  | h state inductionHypothesis =>
      by_cases rests : machine.AtRest own state
      · exact ⟨[], state, by simp, rfl, rests⟩
      · unfold AtRest at rests
        push Not at rests
        obtain ⟨action, mine, enabled⟩ := rests
        obtain ⟨next, fired⟩ := Option.ne_none_iff_exists'.mp enabled
        obtain ⟨actions, finish, all, ran, resting⟩ :=
          inductionHypothesis next (falls state action next initially mine fired)
            (kept state action next initially mine fired)
        refine ⟨action :: actions, finish, ?_, ?_, resting⟩
        · exact List.forall_mem_cons.mpr ⟨mine, all⟩
        · rw [run_cons, fired]
          exact ran

end Rules

end Machine

/-! ## The weight of all parties -/

section Weights

variable {Party : Type u}
variable {parties : List Party}
variable {id : Nat}
variable {party changed : Party}
variable {weight : Party → Nat}

/-- The total weight when one party is replaced. -/
theorem sum_weight_set
    (listed : parties[id]? = some party) :
    ((parties.set id changed).map weight).sum + weight party =
      (parties.map weight).sum + weight changed := by
  induction parties generalizing id with
  | nil => cases listed
  | cons first parties inductionHypothesis =>
      cases id with
      | zero =>
          cases listed
          simp only [List.set_cons_zero, List.map_cons, List.sum_cons]
          omega
      | succ id =>
          have rest := inductionHypothesis listed
          simp only [List.set_cons_succ, List.map_cons, List.sum_cons]
          omega

/-- A change in place that leaves every weight leaves the total. -/
theorem map_weight_modify
    {change : Party → Party}
    (same : ∀ party, weight (change party) = weight party) :
    (parties.modify id change).map weight = parties.map weight := by
  apply List.ext_getElem?
  intro other
  rw [List.getElem?_map, List.getElem?_map, List.getElem?_modify]
  cases parties[other]? with
  | none => rfl
  | some party =>
      by_cases here : id = other
      · simp [here, same]
      · simp [here]

end Weights

end Transition
end IdoProject
