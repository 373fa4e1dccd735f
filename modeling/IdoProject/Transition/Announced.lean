import Mathlib.Data.List.Basic
import Mathlib.Logic.Function.Basic

/-!
# Writers that announce what they write

Threads share a store of values by keys.  The program of a thread is the list of
statements it has left to run; some write the value of a key, and some announce
a key to those who read it.  A program announces its writes when behind every
write there is an announcement of its key.  Where all programs do, a value that
was written is announced already or is going to be, whatever point the threads
have come to.
-/

namespace IdoProject
namespace Transition

/-- The key that a statement writes, and the key that it announces. -/
structure Effects (Statement : Type u) (Key : Type v) where
  writes : Statement → Option Key
  announces : Statement → Option Key

namespace Effects

variable {Statement : Type u} {Key : Type v}

/-- The program has an announcement of the key left to run. -/
def Owes
    (effects : Effects Statement Key)
    (program : List Statement)
    (key : Key) : Prop :=
  ∃ statement ∈ program, effects.announces statement = some key

/-- Behind every write there is an announcement of its key. -/
def Announced (effects : Effects Statement Key) : List Statement → Prop
  | [] => True
  | statement :: rest =>
      (∀ key, effects.writes statement = some key → effects.Owes rest key) ∧
        effects.Announced rest

variable {effects : Effects Statement Key}
variable {statement : Statement}
variable {first second rest : List Statement}
variable {key : Key}

@[simp] theorem not_owes_nil : ¬effects.Owes [] key := by
  rintro ⟨statement, present, -⟩
  exact absurd present List.not_mem_nil

@[simp] theorem owes_cons_iff :
    effects.Owes (statement :: rest) key ↔
      effects.announces statement = some key ∨ effects.Owes rest key :=
  List.exists_mem_cons_iff _ _ _

theorem owes_append_iff :
    effects.Owes (first ++ second) key ↔
      effects.Owes first key ∨ effects.Owes second key := by
  unfold Owes
  constructor
  · rintro ⟨statement, present, announces⟩
    rcases List.mem_append.mp present with inFirst | inSecond
    · exact Or.inl ⟨statement, inFirst, announces⟩
    · exact Or.inr ⟨statement, inSecond, announces⟩
  · rintro (⟨statement, present, announces⟩ | ⟨statement, present, announces⟩)
    · exact ⟨statement, List.mem_append_left _ present, announces⟩
    · exact ⟨statement, List.mem_append_right _ present, announces⟩

theorem announced_append
    (one : effects.Announced first)
    (other : effects.Announced second) :
    effects.Announced (first ++ second) := by
  induction first with
  | nil => exact other
  | cons statement rest inductionHypothesis =>
      refine ⟨fun key writes => ?_, inductionHypothesis one.2⟩
      exact owes_append_iff.mpr (Or.inl (one.1 key writes))

/-- Statements that write nothing have nothing to announce. -/
theorem announced_of_quiet
    (quiet : ∀ statement ∈ first, effects.writes statement = none) :
    effects.Announced first := by
  induction first with
  | nil => trivial
  | cons statement rest inductionHypothesis =>
      rw [List.forall_mem_cons] at quiet
      refine ⟨fun key writes => ?_, inductionHypothesis quiet.2⟩
      rw [quiet.1] at writes
      cases writes

end Effects

/-- Threads with their programs, and the store they share. -/
@[ext]
structure Shared
    (Thread : Type u)
    (Statement : Type v)
    (Key : Type w)
    (Value : Type x) where
  programs : Thread → List Statement
  values : Key → Value

namespace Shared

variable {Thread : Type u} [DecidableEq Thread]
variable {Statement : Type v} {Key : Type w} {Value : Type x}

/-- Some thread has an announcement of the key left to run. -/
def Owes
    (shared : Shared Thread Statement Key Value)
    (effects : Effects Statement Key)
    (key : Key) : Prop :=
  ∃ thread, effects.Owes (shared.programs thread) key

/-- Every program announces its writes. -/
def Announced
    (shared : Shared Thread Statement Key Value)
    (effects : Effects Statement Key) : Prop :=
  ∀ thread, effects.Announced (shared.programs thread)

/-- Give a thread another program, and the store other values. -/
def setProgram
    (shared : Shared Thread Statement Key Value)
    (thread : Thread)
    (program : List Statement)
    (values : Key → Value) : Shared Thread Statement Key Value where
  programs := Function.update shared.programs thread program
  values := values

section SetProgram

variable (shared : Shared Thread Statement Key Value)
variable (program : List Statement)
variable (values : Key → Value)

@[simp] theorem programs_setProgram_self
    (thread : Thread) :
    (shared.setProgram thread program values).programs thread = program := by
  simp [setProgram]

@[simp] theorem programs_setProgram_of_ne
    {thread other : Thread}
    (different : other ≠ thread) :
    (shared.setProgram thread program values).programs other =
      shared.programs other := by
  simp [setProgram, different]

end SetProgram

/-- A step: a thread runs its next statement, which may give it others that
neither write nor announce, or a thread that has ended is given a program. -/
inductive Step
    (effects : Effects Statement Key)
    (shared : Shared Thread Statement Key Value) :
    Option Statement → Shared Thread Statement Key Value → Prop
  | run (thread : Thread) (statement : Statement) (rest later : List Statement)
      (values : Key → Value)
      (program : shared.programs thread = statement :: rest)
      (quiet : ∀ other ∈ later, effects.writes other = none)
      (kept : ∀ key, effects.writes statement ≠ some key →
        values key = shared.values key) :
      Step effects shared (some statement)
        (shared.setProgram thread (later ++ rest) values)
  | begin (thread : Thread) (script : List Statement)
      (ended : shared.programs thread = [])
      (announced : effects.Announced script) :
      Step effects shared none
        (shared.setProgram thread script shared.values)

variable {effects : Effects Statement Key}
variable {shared next : Shared Thread Statement Key Value}
variable {ran : Option Statement}
variable {key : Key}

/-- Every step keeps the programs announcing their writes. -/
theorem Step.announced
    (step : Step effects shared ran next)
    (announced : shared.Announced effects) :
    next.Announced effects := by
  intro other
  cases step with
  | run thread statement rest later values program quiet kept =>
      have before := announced thread
      rw [program] at before
      by_cases same : other = thread
      · rw [same, programs_setProgram_self]
        exact Effects.announced_append (Effects.announced_of_quiet quiet)
          before.2
      · rw [programs_setProgram_of_ne _ _ _ same]
        exact announced other
  | begin thread script ended scripted =>
      by_cases same : other = thread
      · rw [same, programs_setProgram_self]
        exact scripted
      · rw [programs_setProgram_of_ne _ _ _ same]
        exact announced other

/-- A step keeps the value of a key or owes its announcement. -/
theorem Step.kept_or_owes
    (step : Step effects shared ran next)
    (announced : shared.Announced effects) :
    next.values key = shared.values key ∨ next.Owes effects key := by
  cases step with
  | run thread statement rest later values program quiet kept =>
      by_cases writes : effects.writes statement = some key
      · right
        have before := announced thread
        rw [program] at before
        refine ⟨thread, ?_⟩
        rw [programs_setProgram_self, Effects.owes_append_iff]
        exact Or.inr (before.1 key writes)
      · exact Or.inl (kept key writes)
  | begin => exact Or.inl rfl

/-- An announcement that was owed is owed still, or is the statement that
ran. -/
theorem Step.owes_or_announces
    (step : Step effects shared ran next)
    (owes : shared.Owes effects key) :
    next.Owes effects key ∨
      ∃ statement, ran = some statement ∧
        effects.announces statement = some key := by
  obtain ⟨other, owes⟩ := owes
  cases step with
  | run thread statement rest later values program quiet kept =>
      by_cases same : other = thread
      · rw [same, program, Effects.owes_cons_iff] at owes
        rcases owes with announces | later_
        · exact Or.inr ⟨statement, rfl, announces⟩
        · refine Or.inl ⟨thread, ?_⟩
          rw [programs_setProgram_self, Effects.owes_append_iff]
          exact Or.inr later_
      · refine Or.inl ⟨other, ?_⟩
        rwa [programs_setProgram_of_ne _ _ _ same]
  | begin thread script ended scripted =>
      refine Or.inl ⟨other, ?_⟩
      have different : other ≠ thread := by
        rintro rfl
        rw [ended] at owes
        exact Effects.not_owes_nil owes
      rwa [programs_setProgram_of_ne _ _ _ different]

end Shared

end Transition
end IdoProject
