import IdoProject.Transition.Machine

/-!
# One machine that follows another

Where every step of a machine is matched by a run of another one, from related
states to related states, so is every run.
-/

namespace IdoProject
namespace Transition
namespace Machine

section Runs

variable {State : Type u} {Action : Type v}
variable {machine : Machine State Action}

/-- A run goes on with another one. -/
theorem run_append
    {start : State}
    {actions others : List Action} :
    machine.run start (actions ++ others) =
      (machine.run start actions).bind fun middle =>
        machine.run middle others := by
  induction actions generalizing start with
  | nil => rfl
  | cons action actions inductionHypothesis =>
      rw [List.cons_append, run_cons, run_cons, Option.bind_assoc]
      exact Option.bind_congr fun next _ => inductionHypothesis

/-- Two runs, one after the other. -/
theorem run_trans
    {start middle finish : State}
    {actions others : List Action}
    (first : machine.run start actions = some middle)
    (second : machine.run middle others = some finish) :
    machine.run start (actions ++ others) = some finish := by
  rw [run_append, first, Option.bind_some, second]

/-- A run of one step. -/
theorem run_singleton
    {start : State}
    {action : Action} :
    machine.run start [action] = machine.step start action := by
  rw [run_cons]
  exact Option.bind_fun_some _

end Runs

section Simulation

variable {State : Type u} {Action : Type v}
variable {Image : Type w} {Move : Type x}
variable {machine : Machine State Action}
variable {other : Machine Image Move}
variable {related : State → Image → Prop}

/-- The other machine matches every run if it matches every step. -/
theorem exists_run_of_matched
    (matched : ∀ state action next image, related state image →
      machine.step state action = some next →
        ∃ moves final, other.run image moves = some final ∧ related next final)
    {start finish : State}
    {image : Image}
    {actions : List Action}
    (initially : related start image)
    (ran : machine.run start actions = some finish) :
    ∃ moves final, other.run image moves = some final ∧
      related finish final := by
  induction actions generalizing start image with
  | nil =>
      rw [run_nil, Option.some.injEq] at ran
      exact ⟨[], image, rfl, ran ▸ initially⟩
  | cons action actions inductionHypothesis =>
      obtain ⟨next, fired, rest⟩ := exists_step_of_run_cons ran
      obtain ⟨moves, middle, moved, between⟩ :=
        matched start action next image initially fired
      obtain ⟨later, final, followed, finally_⟩ :=
        inductionHypothesis between rest
      exact ⟨moves ++ later, final, run_trans moved followed, finally_⟩

end Simulation

end Machine
end Transition
end IdoProject
