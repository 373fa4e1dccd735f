import Mathlib.Logic.Function.Basic
import Mathlib.Data.List.Basic

/-!
# A cell that is filled once

Threads look into a cell and fill it if it is empty.  A thread that finds it
empty takes a lock, looks again, and creates and assigns an object if nobody has
done so meanwhile.  Whatever the order of the steps, one object is created at
most, the cell keeps it, and a thread that is through finds it there.
-/

namespace IdoProject
namespace Transition

/-- Where a thread stands. -/
inductive LazyStage (Object : Type u) where
  /-- Before it looks into the cell. -/
  | checking
  /-- Before it takes the lock. -/
  | entering
  /-- With the lock, before it looks again. -/
  | rechecking
  /-- With the lock, before it creates an object. -/
  | creating
  /-- With the lock, before it assigns the object. -/
  | assigning (object : Object)
  /-- Before it gives the lock back. -/
  | leaving
  /-- It is through. -/
  | done
  deriving DecidableEq

namespace LazyStage

variable {Object : Type u}

/-- The thread has the lock. -/
def Inside : LazyStage Object → Prop
  | .rechecking | .creating | .assigning _ | .leaving => True
  | .checking | .entering | .done => False

/-- The thread knows that the cell is filled. -/
def past : LazyStage Object → Bool
  | .leaving | .done => true
  | _ => false

/-- A thread that has looked and still has the lock is about to give it back. -/
theorem eq_leaving
    {stage : LazyStage Object}
    (inside : stage.Inside)
    (past : stage.past = true) :
    stage = .leaving := by
  cases stage with
  | leaving => rfl
  | done => exact inside.elim
  | checking | entering | rechecking | creating | assigning => cases past

end LazyStage

/-- The cell, its lock, the objects created so far and the threads. -/
structure LazyCell (Thread : Type u) (Object : Type v) where
  value : Option Object := none
  owner : Option Thread := none
  created : List Object := []
  stage : Thread → LazyStage Object := fun _ => .checking

namespace LazyCell

variable {Thread : Type u} {Object : Type v}

/-- What holds of a thread at a stage. -/
structure Fits
    (cell : LazyCell Thread Object)
    (thread : Thread)
    (stage : LazyStage Object) : Prop where
  /-- The thread is inside if it has the lock. -/
  owner : stage.Inside ↔ cell.owner = some thread
  /-- It creates an object for an empty cell alone. -/
  empty : stage = .creating → cell.value = none
  /-- The object it is about to assign is the only one. -/
  assigning : ∀ object, stage = .assigning object →
    cell.value = none ∧ cell.created = [object]
  /-- It knows that the cell is filled only if it is. -/
  filled : stage.past = true → cell.value.isSome = true

/-- What holds whatever the threads have done. -/
structure Safe (cell : LazyCell Thread Object) : Prop where
  threads : ∀ thread, cell.Fits thread (cell.stage thread)
  /-- The object that was created is in the cell, or about to be. -/
  created : cell.created = cell.value.toList ∨
    ∃ thread object, cell.stage thread = .assigning object

section Safe

variable {cell middle : LazyCell Thread Object}
variable {thread other : Thread}
variable {stage : LazyStage Object}

/-- Before anything has happened. -/
theorem safe_fresh : ({} : LazyCell Thread Object).Safe where
  threads _ := ⟨iff_of_false id nofun, nofun, nofun, nofun⟩
  created := Or.inl rfl

/-- A thread that is outside. -/
theorem fits_of_outside
    (outside : ¬stage.Inside)
    (owner : cell.owner ≠ some thread)
    (filled : stage.past = true → cell.value.isSome = true) :
    cell.Fits thread stage where
  owner := iff_of_false outside owner
  empty here := absurd (here ▸ trivial) outside
  assigning _ here := absurd (here ▸ trivial) outside
  filled := filled

/-- Two threads are not inside together. -/
theorem Safe.exclusive
    (safe : cell.Safe)
    (inside : (cell.stage thread).Inside)
    (inOther : (cell.stage other).Inside) :
    other = thread := by
  have owner := (safe.threads thread).owner.mp inside
  have also := (safe.threads other).owner.mp inOther
  exact Option.some.inj (also.symm.trans owner)

/-- One object at most is created. -/
theorem Safe.created_le
    (safe : cell.Safe) :
    cell.created.length ≤ 1 := by
  rcases safe.created with same | ⟨thread, object, here⟩
  · rw [same]
    cases cell.value <;> simp
  · rw [((safe.threads thread).assigning object here).2]
    exact Nat.le_refl 1

/-- The cell holds the object that was created. -/
theorem Safe.created_eq
    (safe : cell.Safe)
    {object : Object}
    (value : cell.value = some object) :
    cell.created = [object] := by
  rcases safe.created with same | ⟨thread, other, here⟩
  · rw [same, value]
    rfl
  · rw [((safe.threads thread).assigning other here).1] at value
    cases value

/-- No object was created before the one that is created now. -/
theorem Safe.created_nil
    (safe : cell.Safe)
    (here : cell.stage thread = .creating) :
    cell.created = [] := by
  rcases safe.created with same | ⟨other, object, assigning⟩
  · rw [same, (safe.threads thread).empty here]
    rfl
  · have same : other = thread := by
      apply safe.exclusive
      · rw [here]
        trivial
      · rw [assigning]
        trivial
    rw [same, here] at assigning
    cases assigning

/-- The objects, seen by a thread that does not assign one. -/
theorem Safe.created_of_ne
    (safe : cell.Safe)
    (here : ∀ object, cell.stage thread ≠ .assigning object) :
    cell.created = cell.value.toList ∨
      (∃ object, stage = .assigning object) ∨
      ∃ other object, other ≠ thread ∧ cell.stage other = .assigning object := by
  refine safe.created.imp_right fun ⟨other, object, assigning⟩ => ?_
  refine .inr ⟨other, object, ?_, assigning⟩
  rintro rfl
  exact here object assigning

/-- What a thread that is inside does to the cell leaves the others alone. -/
theorem Safe.others
    (safe : cell.Safe)
    (inside : (cell.stage thread).Inside)
    (stages : middle.stage = cell.stage)
    (owner : middle.owner = cell.owner ∨ middle.owner = none)
    (filled : cell.value.isSome = true → middle.value.isSome = true)
    (different : other ≠ thread) :
    middle.Fits other (middle.stage other) := by
  have outside : ¬(cell.stage other).Inside :=
    fun inOther => different (safe.exclusive inside inOther)
  rw [stages]
  apply fits_of_outside outside
  · rcases owner with same | free
    · rw [same]
      exact fun owned => outside ((safe.threads other).owner.mpr owned)
    · rw [free]
      nofun
  · exact fun past => filled ((safe.threads other).filled past)

end Safe

section Step

variable [DecidableEq Thread]

/-- A thread goes on to a stage. -/
def goto
    (cell : LazyCell Thread Object)
    (thread : Thread)
    (stage : LazyStage Object) : LazyCell Thread Object :=
  { cell with stage := Function.update cell.stage thread stage }

/-- A step of a thread.  It waits while another thread has the lock. -/
def step
    (cell : LazyCell Thread Object)
    (thread : Thread)
    (fresh : Object) : Option (LazyCell Thread Object) :=
  match cell.stage thread with
  | .checking =>
      some (cell.goto thread (if cell.value.isSome then .done else .entering))
  | .entering =>
      if cell.owner.isNone then
        some ({ cell with owner := some thread }.goto thread .rechecking)
      else none
  | .rechecking =>
      some (cell.goto thread (if cell.value.isSome then .leaving else .creating))
  | .creating =>
      some ({ cell with created := cell.created ++ [fresh] }.goto thread
        (.assigning fresh))
  | .assigning object =>
      some ({ cell with value := some object }.goto thread .leaving)
  | .leaving => some ({ cell with owner := none }.goto thread .done)
  | .done => none

variable {cell middle next : LazyCell Thread Object}
variable {thread other : Thread}
variable {stage : LazyStage Object}
variable {fresh : Object}

@[simp] theorem stage_goto_self :
    (cell.goto thread stage).stage thread = stage := by
  simp [goto]

@[simp] theorem stage_goto_of_ne
    (different : other ≠ thread) :
    (cell.goto thread stage).stage other = cell.stage other := by
  simp [goto, different]

/-- A thread goes on to a stage, the cell being otherwise as `middle`. -/
theorem Safe.goto
    (own : middle.Fits thread stage)
    (others : ∀ other, other ≠ thread → middle.Fits other (middle.stage other))
    (created : middle.created = middle.value.toList ∨
      (∃ object, stage = .assigning object) ∨
      ∃ other object, other ≠ thread ∧ middle.stage other = .assigning object) :
    (middle.goto thread stage).Safe where
  threads other := by
    by_cases same : other = thread
    · rw [same, stage_goto_self]
      exact ⟨own.owner, own.empty, own.assigning, own.filled⟩
    · rw [stage_goto_of_ne same]
      have fits := others other same
      exact ⟨fits.owner, fits.empty, fits.assigning, fits.filled⟩
  created := by
    refine created.imp_right ?_
    rintro (⟨object, here⟩ | ⟨other, object, different, here⟩)
    · exact ⟨thread, object, by rw [stage_goto_self, here]⟩
    · exact ⟨other, object, by rw [stage_goto_of_ne different, here]⟩

/-- A thread takes the lock. -/
theorem Safe.lock
    (safe : cell.Safe)
    (here : cell.stage thread = .entering)
    (free : cell.owner = none) :
    ({ cell with owner := some thread }.goto thread .rechecking).Safe := by
  apply Safe.goto
  case own => exact ⟨iff_of_true trivial rfl, nofun, nofun, nofun⟩
  case others =>
    intro other different
    have fits := safe.threads other
    have owner := fits.owner
    rw [free] at owner
    apply fits_of_outside
    · exact fun inside => nomatch owner.mp inside
    · exact fun same => different (Option.some.inj same).symm
    · exact fits.filled
  case created =>
    apply safe.created_of_ne
    rw [here]
    nofun

/-- A thread creates an object. -/
theorem Safe.create
    (safe : cell.Safe)
    (here : cell.stage thread = .creating) :
    ({ cell with created := cell.created ++ [fresh] }.goto thread
      (.assigning fresh)).Safe := by
  have inside : (cell.stage thread).Inside := here ▸ trivial
  have fits := safe.threads thread
  apply Safe.goto
  case own =>
    refine ⟨iff_of_true trivial (fits.owner.mp inside), nofun, ?_, nofun⟩
    intro object assigning
    cases assigning
    refine ⟨fits.empty here, ?_⟩
    rw [safe.created_nil here]
    rfl
  case others =>
    exact fun other => safe.others inside rfl (.inl rfl) id
  case created => exact .inr (.inl ⟨fresh, rfl⟩)

/-- A thread assigns the object. -/
theorem Safe.assign
    (safe : cell.Safe)
    {object : Object}
    (here : cell.stage thread = .assigning object) :
    ({ cell with value := some object }.goto thread .leaving).Safe := by
  have inside : (cell.stage thread).Inside := here ▸ trivial
  have fits := safe.threads thread
  apply Safe.goto
  case own =>
    exact ⟨iff_of_true trivial (fits.owner.mp inside), nofun, nofun, fun _ => rfl⟩
  case others =>
    exact fun other => safe.others inside rfl (.inl rfl) fun _ => rfl
  case created => exact .inl (fits.assigning object here).2

/-- A thread gives the lock back. -/
theorem Safe.unlock
    (safe : cell.Safe)
    (here : cell.stage thread = .leaving) :
    ({ cell with owner := none }.goto thread .done).Safe := by
  have inside : (cell.stage thread).Inside := here ▸ trivial
  have filled := (safe.threads thread).filled (here ▸ rfl)
  apply Safe.goto
  case own => exact ⟨iff_of_false id nofun, nofun, nofun, fun _ => filled⟩
  case others =>
    exact fun other => safe.others inside rfl (.inr rfl) id
  case created =>
    apply safe.created_of_ne
    rw [here]
    nofun

/-- A thread looks at the cell. -/
theorem Safe.look
    (safe : cell.Safe)
    (here : ∀ object, cell.stage thread ≠ .assigning object)
    (same : stage.Inside ↔ (cell.stage thread).Inside)
    (empty : stage = .creating → cell.value = none)
    (assigning : ∀ object, stage ≠ .assigning object)
    (filled : stage.past = true → cell.value.isSome = true) :
    (cell.goto thread stage).Safe := by
  apply Safe.goto
  case own =>
    refine ⟨same.trans (safe.threads thread).owner, empty, ?_, filled⟩
    exact fun object equal => absurd equal (assigning object)
  case others => exact fun other _ => safe.threads other
  case created => exact safe.created_of_ne here

/-- Every step keeps what holds. -/
theorem Safe.step
    (safe : cell.Safe)
    (stepped : cell.step thread fresh = some next) :
    next.Safe := by
  unfold LazyCell.step at stepped
  cases here : cell.stage thread with
  | checking =>
      rw [here] at stepped
      cases stepped
      apply safe.look
      all_goals
        cases value : cell.value <;> simp [here, LazyStage.Inside, LazyStage.past]
  | entering =>
      rw [here] at stepped
      obtain ⟨free, same⟩ := Option.ite_none_right_eq_some.mp stepped
      cases same
      exact safe.lock here (Option.isNone_iff_eq_none.mp free)
  | rechecking =>
      rw [here] at stepped
      cases stepped
      apply safe.look
      all_goals
        cases value : cell.value <;> simp [here, LazyStage.Inside, LazyStage.past]
  | creating =>
      rw [here] at stepped
      cases stepped
      exact safe.create here
  | assigning object =>
      rw [here] at stepped
      cases stepped
      exact safe.assign here
  | leaving =>
      rw [here] at stepped
      cases stepped
      exact safe.unlock here
  | done =>
      rw [here] at stepped
      cases stepped

/-- A step moves one thread, which fills the cell at most when it leaves. -/
theorem exists_goto_of_step
    (stepped : cell.step thread fresh = some next) :
    ∃ (middle : LazyCell Thread Object) (stage : LazyStage Object),
      next = middle.goto thread stage ∧ middle.stage = cell.stage ∧
      (middle.value = cell.value ∨
        stage.past = true ∧ (cell.stage thread).past = false) ∧
      ((cell.stage thread).past = true → stage.past = true) := by
  unfold LazyCell.step at stepped
  cases here : cell.stage thread with
  | checking | rechecking | creating =>
      rw [here] at stepped
      cases stepped
      exact ⟨_, _, rfl, rfl, .inl rfl, nofun⟩
  | entering =>
      rw [here] at stepped
      obtain ⟨-, same⟩ := Option.ite_none_right_eq_some.mp stepped
      cases same
      exact ⟨_, _, rfl, rfl, .inl rfl, nofun⟩
  | assigning object =>
      rw [here] at stepped
      cases stepped
      exact ⟨_, _, rfl, rfl, .inr ⟨rfl, rfl⟩, nofun⟩
  | leaving =>
      rw [here] at stepped
      cases stepped
      exact ⟨_, _, rfl, rfl, .inl rfl, fun _ => rfl⟩
  | done =>
      rw [here] at stepped
      cases stepped

/-- The other threads stay where they are. -/
theorem stage_step_of_ne
    (stepped : cell.step thread fresh = some next)
    (different : other ≠ thread) :
    next.stage other = cell.stage other := by
  obtain ⟨middle, stage, rfl, same, -⟩ := exists_goto_of_step stepped
  rw [stage_goto_of_ne different, same]

/-- A thread that is past its look into the cell stays so. -/
theorem past_step
    (stepped : cell.step thread fresh = some next)
    (past : (cell.stage thread).past = true) :
    (next.stage thread).past = true := by
  obtain ⟨middle, stage, rfl, -, -, kept⟩ := exists_goto_of_step stepped
  rw [stage_goto_self]
  exact kept past

/-- A thread that does not leave leaves the cell as it is. -/
theorem value_step_of_past
    (stepped : cell.step thread fresh = some next)
    (here : (cell.stage thread).past = true ∨
      (next.stage thread).past = false) :
    next.value = cell.value := by
  obtain ⟨middle, stage, rfl, -, same | ⟨past, before⟩, -⟩ :=
    exists_goto_of_step stepped
  · exact same
  · rw [stage_goto_self, past, before] at here
    simp at here

/-- A cell that is filled keeps its object. -/
theorem Safe.value_step
    (safe : cell.Safe)
    {object : Object}
    (stepped : cell.step thread fresh = some next)
    (value : cell.value = some object) :
    next.value = some object := by
  unfold LazyCell.step at stepped
  cases here : cell.stage thread with
  | checking | rechecking | creating | leaving =>
      rw [here] at stepped
      cases stepped
      exact value
  | entering =>
      rw [here] at stepped
      obtain ⟨-, same⟩ := Option.ite_none_right_eq_some.mp stepped
      cases same
      exact value
  | assigning other =>
      rw [((safe.threads thread).assigning other here).1] at value
      cases value
  | done =>
      rw [here] at stepped
      cases stepped

/-- A thread inside always goes on. -/
theorem step_of_inside
    (inside : (cell.stage thread).Inside) :
    (cell.step thread fresh).isSome = true := by
  unfold LazyCell.step
  cases here : cell.stage thread with
  | rechecking | creating | assigning object | leaving => rfl
  | checking | entering | done =>
      rw [here] at inside
      exact inside.elim

/-- A thread that is not through goes on, or the one that has the lock does. -/
theorem Safe.progress
    (safe : cell.Safe)
    (waiting : cell.stage thread ≠ .done) :
    (cell.step thread fresh).isSome = true ∨
      ∃ owner, cell.owner = some owner ∧ (cell.stage owner).Inside := by
  cases here : cell.stage thread with
  | checking =>
      left
      rw [LazyCell.step, here]
      rfl
  | entering =>
      cases held : cell.owner with
      | none =>
          left
          rw [LazyCell.step, here]
          simp [held]
      | some owner => exact .inr ⟨owner, rfl, (safe.threads owner).owner.mpr held⟩
  | rechecking | creating | assigning object | leaving =>
      exact .inl (step_of_inside (here ▸ trivial))
  | done => exact absurd here waiting

end Step

end LazyCell

end Transition
end IdoProject
