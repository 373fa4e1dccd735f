import IdoProject.Engine.Steps

/-!
# The branch of `loadModel` that nobody takes

A load fails in a coroutine of its own, so `getInstance` throws only where there
is no `instance`, and there always is one.  In every run the `catch` of
`loadModel` is not reached, no error is shown, and a `loadModel` thread ends by
posting the runnable that stores its model.
-/

namespace IdoProject
namespace Engine

open Java
open Llama
open Transition

/-- Between the creation of `instance` and its use. -/
def Location.hasInstance : Location → Bool
  | .loadTest | .launching | .marking => true
  | _ => false

/-- The thread has posted the runnable that stores a model. -/
def World.Posted (world : World) (id : Nat) (model : Model) : Prop :=
  ∃ contextSize, Runnable.store id model contextSize ∈ world.ui ++ world.ran


section Steps

/-- What holds of a thread in a run of any kind. -/
structure Prepared (world : World) (id : Nat) (thread : Thread) : Prop where
  /-- `instance` is there when it is used. -/
  hasInstance : thread.location.hasInstance = true → world.hasInstance = true
  /-- No exception is caught. -/
  uncaught : thread.location ≠ .catching
  /-- A `loadModel` thread that has ended has posted its runnable. -/
  posted : ∀ model, thread.program = .loadModel model →
    thread.location = .done → world.Posted id model

/-- What holds of a process that has not ended. -/
structure Ready (world : World) : Prop where
  threads : ∀ id thread, world.threads[id]? = some thread →
    Prepared world id thread
  /-- A loaded model has an `instance`. -/
  hasInstance : world.isLoaded = true → world.hasInstance = true
  /-- No error is shown. -/
  silent : ∀ id, .showError id ∉ world.ui ++ world.ran

variable {device : Device}
variable {world next : World}

theorem Prepared.mono
    {id : Nat}
    {thread : Thread}
    (prepared : Prepared world id thread)
    (hasInstance : world.hasInstance = true → next.hasInstance = true)
    (posted : ∀ runnable, runnable ∈ world.ui ++ world.ran →
      runnable ∈ next.ui ++ next.ran) :
    Prepared next id thread where
  hasInstance here := hasInstance (prepared.hasInstance here)
  uncaught := prepared.uncaught
  posted model program here :=
    have ⟨contextSize, present⟩ := prepared.posted model program here
    ⟨contextSize, posted _ present⟩

/-- A thread that goes on to a statement at which nothing is required. -/
theorem prepared_of_location
    {id : Nat}
    {thread : Thread}
    (hasInstance : thread.location.hasInstance = false)
    (uncaught : thread.location ≠ .catching)
    (running : ∀ model, thread.program = .loadModel model →
      thread.location ≠ .done) :
    Prepared world id thread where
  hasInstance here := by
    rw [hasInstance] at here
    cases here
  uncaught := uncaught
  posted model program here := absurd here (running model program)

/-- A thread returns from `unloadModel`. -/
theorem prepared_afterUnload
    {id : Nat}
    {thread : Thread} :
    Prepared world id { thread with location := thread.program.afterUnload } := by
  apply prepared_of_location
  all_goals
    cases program : thread.program <;>
      simp [Program.afterUnload, Location.hasInstance]

/-- A thread returns from `getInstance`. -/
theorem prepared_afterGetInstance
    {id : Nat}
    {thread : Thread} :
    Prepared world id
      { thread with location := thread.program.afterGetInstance } := by
  apply prepared_of_location
  all_goals
    cases program : thread.program <;>
      simp [Program.afterGetInstance, Location.hasInstance]

/-- A step in which a thread moves, the process being otherwise as `middle`. -/
theorem Ready.goto
    {middle : World}
    {id : Nat}
    {thread : Thread}
    {location : Location}
    (ready : Ready world)
    (threads : middle.threads = world.threads)
    (hasInstance : world.hasInstance = true → middle.hasInstance = true)
    (loaded : middle.isLoaded = true → middle.hasInstance = true)
    (posted : ∀ runnable, runnable ∈ world.ui ++ world.ran →
      runnable ∈ middle.ui ++ middle.ran)
    (silent : ∀ id, .showError id ∉ middle.ui ++ middle.ran)
    (moved : Prepared middle id { thread with location := location }) :
    Ready (middle.goto id thread location) where
  threads := by
    apply forall_set
    · intro other seen _ found
      rw [threads] at found
      exact (ready.threads other seen found).mono hasInstance posted
    · exact moved.mono (fun present => present) fun _ present => present
  hasInstance := loaded
  silent := silent

/-- The process as it starts has nothing that could be wrong. -/
theorem ready_fresh {prefs : Prefs} : Ready (World.fresh prefs) :=
  ⟨nofun, nofun, fun _ => List.not_mem_nil⟩

/-- Every step keeps what holds of a process that has not ended. -/
theorem ready_step
    {action : Action}
    (ready : world.alive = true → Ready world)
    (stepped : (machine device).step world action = some next) :
    next.alive = true → Ready next := by
  intro alive
  cases effect_of_step stepped with
  | call program =>
      have ready := ready alive
      refine ⟨?_, ready.hasInstance, ready.silent⟩
      apply forall_append
      · intro other seen found
        exact (ready.threads other seen found).mono
          (fun present => present) fun _ present => present
      · intro other
        apply prepared_of_location
        all_goals cases program <;> simp [Program.entry, Location.hasInstance]
  | @unloadTest id thread found here =>
      have ready := ready alive
      apply ready.goto rfl (fun present => present) ready.hasInstance
        (fun _ present => present) ready.silent
      split
      next => exact prepared_of_location rfl nofun nofun
      next => exact prepared_afterUnload
  | @unloading id thread found here =>
      have ready := ready alive
      exact ready.goto rfl (fun present => present) ready.hasInstance
        (fun _ present => present) ready.silent
        (prepared_of_location rfl nofun nofun)
  | @clearing id thread found here =>
      have ready := ready alive
      exact ready.goto rfl (fun present => present) nofun
        (fun _ present => present) ready.silent prepared_afterUnload
  | @calculating id thread found here =>
      have ready := ready alive
      exact ready.goto rfl (fun present => present) ready.hasInstance
        (fun _ present => present) ready.silent
        (prepared_of_location rfl nofun nofun)
  | @instantiating id thread found here =>
      have ready := ready alive
      exact ready.goto rfl (fun _ => rfl) (fun _ => rfl)
        (fun _ present => present) ready.silent
        ⟨fun _ => rfl, nofun, nofun⟩
  | @loadTest id thread found here absent =>
      have ready := ready alive
      have present := (ready.threads id thread found).hasInstance (here ▸ rfl)
      exact ready.goto rfl (fun present => present) ready.hasInstance
        (fun _ present => present) ready.silent ⟨fun _ => present, nofun, nofun⟩
  | @skipLoad id thread found here skips =>
      have ready := ready alive
      exact ready.goto rfl (fun present => present) ready.hasInstance
        (fun _ present => present) ready.silent prepared_afterGetInstance
  | @launching id thread path found here given present =>
      have ready := ready alive
      exact ready.goto rfl (fun present => present) ready.hasInstance
        (fun _ present => present) ready.silent ⟨fun _ => present, nofun, nofun⟩
  | @noInstance id thread found here absent =>
      have present := ((ready alive).threads id thread found).hasInstance
        (here ▸ rfl)
      rw [absent] at present
      cases present
  | @marking id thread found here =>
      have ready := ready alive
      have present := (ready.threads id thread found).hasInstance (here ▸ rfl)
      exact ready.goto rfl (fun present => present) (fun _ => present)
        (fun _ present => present) ready.silent prepared_afterGetInstance
  | @posting id thread model found here program =>
      have ready := ready alive
      refine ready.goto rfl (fun present => present) ready.hasInstance ?_ ?_ ?_
      · intro runnable present
        simp only [List.mem_append, List.mem_singleton] at present ⊢
        tauto
      · intro other shown
        have silent := ready.silent other
        simp only [List.mem_append, List.mem_singleton, reduceCtorEq,
          or_false] at shown silent
        exact silent shown
      · refine ⟨nofun, nofun, fun other also _ => ?_⟩
        have same : Program.loadModel other = .loadModel model :=
          also.symm.trans program
        cases same
        exact ⟨thread.contextSize, by simp⟩
  | @catching id thread found here =>
      exact absurd here ((ready alive).threads id thread found).uncaught
  | loaded | failed | unloaded =>
      have ready := ready alive
      refine ⟨?_, ready.hasInstance, ready.silent⟩
      intro other seen found
      exact (ready.threads other seen found).mono
        (fun present => present) fun _ present => present
  | died => cases alive
  | @ui runnable rest queued =>
      have ready := ready alive
      have same : ∀ other, other ∈ rest ++ (world.ran ++ [runnable]) ↔
          other ∈ world.ui ++ world.ran := by
        intro other
        rw [queued]
        simp only [List.mem_append, List.mem_cons, List.not_mem_nil]
        tauto
      refine ⟨?_, ready.hasInstance, fun id shown =>
        ready.silent id ((same _).mp shown)⟩
      intro other seen found
      exact (ready.threads other seen found).mono
        (fun present => present) fun _ present => (same _).mpr present

end Steps

end Engine
end IdoProject
