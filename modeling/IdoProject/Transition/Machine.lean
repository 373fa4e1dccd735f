import Mathlib.Logic.Basic
import Mathlib.Order.Basic

/-!
# Labelled machines and their runs

A machine fires one action at a time.  An action that is not enabled in a state
has no successor, so a run is a list of actions each of which is enabled where
it is taken.  The induction over a run is done once, in the rules of this
module: a predicate kept by every step, a predicate kept by every step that
meets a guard, and a predicate whose preservation by one step is equivalent to
the guard of that step.
-/

namespace IdoProject
namespace Transition

/-- A labelled machine.  `step` is `none` where the action is not enabled. -/
structure Machine (State : Type u) (Action : Type v) where
  /-- Successor of a state under one action. -/
  step : State → Action → Option State

namespace Machine

variable {State : Type u} {Action : Type v}

/-- Fire a list of actions in order. -/
def run (machine : Machine State Action) :
    State → List Action → Option State
  | state, [] => some state
  | state, action :: actions =>
      (machine.step state action).bind fun next => run machine next actions

/-- Every action of the list meets the guard in the state where it is taken. -/
def Guarded
    (machine : Machine State Action)
    (guard : State → Action → Prop) : State → List Action → Prop
  | _, [] => True
  | state, action :: actions =>
      guard state action ∧
        ∀ next, machine.step state action = some next →
          Guarded machine guard next actions

/-- Every state of the run satisfies the property, the first one included. -/
def Always
    (machine : Machine State Action)
    (property : State → Prop) : State → List Action → Prop
  | state, [] => property state
  | state, action :: actions =>
      property state ∧
        ∀ next, machine.step state action = some next →
          Always machine property next actions

section Basic

variable (machine : Machine State Action)

@[simp] theorem run_nil (state : State) :
    machine.run state [] = some state := rfl

@[simp] theorem run_cons
    (state : State)
    (action : Action)
    (actions : List Action) :
    machine.run state (action :: actions) =
      (machine.step state action).bind fun next =>
        machine.run next actions := rfl

/-- A guard that is decidable can be checked along a run. -/
instance decidableGuarded
    (guard : State → Action → Prop)
    [∀ state action, Decidable (guard state action)] :
    (state : State) → (actions : List Action) →
      Decidable (machine.Guarded guard state actions)
  | _, [] => .isTrue trivial
  | state, action :: actions =>
      match enabled : machine.step state action with
      | none =>
          decidable_of_iff (guard state action)
            ⟨fun meets => ⟨meets, fun next fired => by
              rw [enabled] at fired; cases fired⟩, fun guarded => guarded.1⟩
      | some next =>
          have := decidableGuarded guard next actions
          decidable_of_iff
            (guard state action ∧ machine.Guarded guard next actions)
            ⟨fun both => ⟨both.1, fun other fired => by
              rw [enabled] at fired; cases fired; exact both.2⟩,
              fun guarded => ⟨guarded.1, guarded.2 next enabled⟩⟩

end Basic

section Rules

variable {machine : Machine State Action}
variable {property invariant : State → Prop}
variable {guard : State → Action → Prop}
variable {start finish : State}
variable {actions : List Action}

/-- The first step of a successful nonempty run. -/
theorem exists_step_of_run_cons
    {action : Action}
    (ran : machine.run start (action :: actions) = some finish) :
    ∃ next, machine.step start action = some next ∧
      machine.run next actions = some finish := by
  rw [run_cons, Option.bind_eq_some_iff] at ran
  exact ran

/-- A guard on the actions alone can be checked on the list. -/
theorem guarded_of_forall
    {allowed : Action → Prop}
    (all : ∀ action ∈ actions, allowed action) :
    machine.Guarded (fun _ action => allowed action) start actions := by
  induction actions generalizing start with
  | nil => trivial
  | cons action actions inductionHypothesis =>
      exact ⟨all action List.mem_cons_self, fun next _ =>
        inductionHypothesis fun other present =>
          all other (List.mem_cons_of_mem _ present)⟩

/-- Two guards that a run meets are met together. -/
theorem guarded_and
    {other : State → Action → Prop}
    (guarded : machine.Guarded guard start actions)
    (also : machine.Guarded other start actions) :
    machine.Guarded (fun state action => guard state action ∧ other state action)
      start actions := by
  induction actions generalizing start with
  | nil => trivial
  | cons action actions inductionHypothesis =>
      exact ⟨⟨guarded.1, also.1⟩, fun next fired =>
        inductionHypothesis (guarded.2 next fired) (also.2 next fired)⟩

/-- A predicate kept by every step that meets the guard holds at the end of
every guarded run that starts in it. -/
theorem guarded_invariant
    (preserved : ∀ state action next, invariant state →
      guard state action → machine.step state action = some next →
        invariant next)
    (ran : machine.run start actions = some finish)
    (guarded : machine.Guarded guard start actions)
    (initially : invariant start) :
    invariant finish := by
  induction actions generalizing start with
  | nil =>
      rw [run_nil, Option.some.injEq] at ran
      exact ran ▸ initially
  | cons action actions inductionHypothesis =>
      obtain ⟨next, fired, rest⟩ := exists_step_of_run_cons ran
      exact inductionHypothesis rest (guarded.2 next fired)
        (preserved start action next initially guarded.1 fired)

/-- A predicate kept by every step that meets the guard holds in every state of
a guarded run, and so does what follows from it. -/
theorem always_of_guarded
    (preserved : ∀ state action next, invariant state →
      guard state action → machine.step state action = some next →
        invariant next)
    (implied : ∀ state, invariant state → property state)
    (guarded : machine.Guarded guard start actions)
    (initially : invariant start) :
    machine.Always property start actions := by
  induction actions generalizing start with
  | nil => exact implied start initially
  | cons action actions inductionHypothesis =>
      exact ⟨implied start initially, fun next fired =>
        inductionHypothesis (guarded.2 next fired)
          (preserved start action next initially guarded.1 fired)⟩

/-- In a guarded run every step also meets what the guard implies where the
invariant holds. -/
theorem guarded_mono
    {weaker : State → Action → Prop}
    (preserved : ∀ state action next, invariant state →
      guard state action → machine.step state action = some next →
        invariant next)
    (implied : ∀ state action, invariant state → guard state action →
      weaker state action)
    (guarded : machine.Guarded guard start actions)
    (initially : invariant start) :
    machine.Guarded weaker start actions := by
  induction actions generalizing start with
  | nil => trivial
  | cons action actions inductionHypothesis =>
      exact ⟨implied start action initially guarded.1, fun next fired =>
        inductionHypothesis (guarded.2 next fired)
          (preserved start action next initially guarded.1 fired)⟩

/-- A predicate kept by every step holds at the end of every run that starts
in it. -/
theorem run_invariant
    (preserved : ∀ state action next, invariant state →
      machine.step state action = some next → invariant next)
    (ran : machine.run start actions = some finish)
    (initially : invariant start) :
    invariant finish := by
  have guarded : machine.Guarded (fun _ _ => True) start actions :=
    guarded_of_forall fun _ _ => trivial
  exact guarded_invariant
    (fun state action next holds _ fired =>
      preserved state action next holds fired)
    ran guarded initially

/-- A property of every state of a run holds of the first one. -/
theorem Always.first
    (always : machine.Always property start actions) :
    property start := by
  cases actions with
  | nil => exact always
  | cons => exact always.1

/-- A predicate kept by every step between two states with the property holds at
the end of every run that stays in the property. -/
theorem invariant_of_always
    (preserved : ∀ state action next, invariant state → property state →
      property next → machine.step state action = some next → invariant next)
    (ran : machine.run start actions = some finish)
    (always : machine.Always property start actions)
    (initially : invariant start) :
    invariant finish ∧ property finish := by
  induction actions generalizing start with
  | nil =>
      rw [run_nil, Option.some.injEq] at ran
      rw [← ran]
      exact ⟨initially, always⟩
  | cons action actions inductionHypothesis =>
      obtain ⟨next, fired, rest⟩ := exists_step_of_run_cons ran
      have later := always.2 next fired
      exact inductionHypothesis rest later
        (preserved start action next initially always.1 later.first fired)

/-- What a guarded step carries backward holds before every step of a guarded
run that ends in it. -/
theorem guarded_back
    (condition : State → Prop)
    (back : ∀ state action next, guard state action →
      machine.step state action = some next →
        condition next → condition state)
    (ran : machine.run start actions = some finish)
    (guarded : machine.Guarded guard start actions)
    (finally_ : condition finish) :
    condition start ∧
      machine.Guarded (fun state action => guard state action ∧ condition state)
        start actions := by
  induction actions generalizing start with
  | nil =>
      rw [run_nil, Option.some.injEq] at ran
      exact ⟨ran ▸ finally_, trivial⟩
  | cons action actions inductionHypothesis =>
      obtain ⟨next, fired, rest⟩ := exists_step_of_run_cons ran
      obtain ⟨holds, later⟩ :=
        inductionHypothesis rest (guarded.2 next fired)
      have before := back start action next guarded.1 fired holds
      refine ⟨before, ⟨guarded.1, before⟩, fun other also => ?_⟩
      rw [fired] at also
      cases also
      exact later

/-- Where the guard of a step decides whether the step keeps the property, a
run stays in the property exactly when all its steps meet the guard.  The
invariant is what the argument may use of every state. -/
theorem always_iff_guarded
    (kept : ∀ state action next, invariant state →
      machine.step state action = some next → invariant next)
    (decides : ∀ state action next, invariant state → property state →
      machine.step state action = some next →
        (property next ↔ guard state action))
    (ran : machine.run start actions = some finish)
    (initially : invariant start)
    (holds : property start) :
    machine.Always property start actions ↔
      machine.Guarded guard start actions := by
  induction actions generalizing start with
  | nil => exact ⟨fun _ => trivial, fun _ => holds⟩
  | cons action actions inductionHypothesis =>
      obtain ⟨next, fired, rest⟩ := exists_step_of_run_cons ran
      have step := decides start action next initially holds fired
      have later := inductionHypothesis rest (kept start action next initially fired)
      have only : ∀ other, machine.step start action = some other →
          other = next := by
        intro other also
        rw [fired] at also
        exact (Option.some.inj also).symm
      constructor
      · rintro ⟨_, always⟩
        have nextAlways := always next fired
        have nextHolds : property next := nextAlways.first
        refine ⟨step.mp nextHolds, fun other also => ?_⟩
        rw [only other also]
        exact (later nextHolds).mp nextAlways
      · rintro ⟨meets, guarded⟩
        refine ⟨holds, fun other also => ?_⟩
        rw [only other also]
        exact (later (step.mpr meets)).mpr (guarded next fired)

/-- Where the guard keeps the invariant and a step that does not meet it breaks
the property, a run of allowed actions stays in the property exactly when all
its steps meet the guard. -/
theorem always_iff_guarded_of_allowed
    {allowed : Action → Prop}
    (preserved : ∀ state action next, invariant state → allowed action →
      guard state action → machine.step state action = some next →
        invariant next)
    (implied : ∀ state, invariant state → property state)
    (needed : ∀ state action next, invariant state → allowed action →
      machine.step state action = some next → property next →
        guard state action)
    (all : ∀ action ∈ actions, allowed action)
    (ran : machine.run start actions = some finish)
    (initially : invariant start) :
    machine.Always property start actions ↔
      machine.Guarded guard start actions := by
  constructor
  · intro always
    induction actions generalizing start with
    | nil => trivial
    | cons action actions inductionHypothesis =>
        obtain ⟨next, fired, rest⟩ := exists_step_of_run_cons ran
        have first := all action List.mem_cons_self
        have later := always.2 next fired
        have meets :=
          needed start action next initially first fired later.first
        refine ⟨meets, fun other also => ?_⟩
        rw [fired] at also
        cases also
        exact inductionHypothesis
          (fun other present => all other (List.mem_cons_of_mem _ present)) rest
          (preserved start action next initially first meets fired) later
  · intro guarded
    exact always_of_guarded
      (fun state action next holds both fired =>
        preserved state action next holds both.1 both.2 fired)
      implied (guarded_and (guarded_of_forall all) guarded) initially

/-- Where the guard keeps the invariant and a step that does not meet it breaks
the property, a run stays in the property exactly when all its steps meet the
guard. -/
theorem always_iff_guarded_of_needed
    (preserved : ∀ state action next, invariant state →
      guard state action → machine.step state action = some next →
        invariant next)
    (implied : ∀ state, invariant state → property state)
    (needed : ∀ state action next, invariant state →
      machine.step state action = some next → property next →
        guard state action)
    (ran : machine.run start actions = some finish)
    (initially : invariant start) :
    machine.Always property start actions ↔
      machine.Guarded guard start actions :=
  @always_iff_guarded_of_allowed _ _ _ _ _ _ _ _ _ (fun _ => True)
    (fun state action next holds _ => preserved state action next holds)
    implied
    (fun state action next holds _ => needed state action next holds)
    (fun _ _ => trivial) ran initially

end Rules

end Machine
end Transition
end IdoProject
