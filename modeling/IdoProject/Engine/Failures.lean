import IdoProject.Engine.Sections

/-!
# Failed loads

When all work has finished, `LLMW.isLoaded` and the preferences should tell what
the engine has loaded.  They do in the runs that nothing disturbs.  They do not
where a load of `loadModel` fails, since no such failure is seen.
-/

namespace IdoProject
namespace Engine

open Java
open Llama
open Transition

namespace World

/-- Failed loads are seen as failed loads. -/
structure FailuresSeen (device : Device) (prefs : Prefs) (world : World) :
    Prop where
  /-- `LLMW.isLoaded` is true exactly when a model is loaded. -/
  loaded : world.isLoaded = true ↔ world.android.isLoaded = true
  /-- A model is stored only if its load succeeded. -/
  stored : ∀ id model contextSize, .store id model contextSize ∈ world.ran →
    (id, device.absolutePath model.filename) ∈ world.succeeded
  /-- A thread whose load did not succeed has shown the error and stored
  nothing. -/
  failed : ∀ id thread model, world.threads[id]? = some thread →
    thread.program = .loadModel model →
    (id, device.absolutePath model.filename) ∉ world.succeeded →
      .showError id ∈ world.ran ∧
        ∀ other contextSize, .store id other contextSize ∉ world.ran
  /-- Nothing else has written the preferences. -/
  prefs : world.prefs = world.ran.foldl Runnable.apply prefs


end World

section Runs

variable {device : Device}
variable {prefs : Prefs}
variable {world next : World}
variable {actions : List Action}

theorem sound_fresh : Sound device (World.fresh prefs) :=
  ⟨rfl, nofun, Nat.zero_le _, rfl, nofun⟩

/-- Only runnables write the preferences. -/
theorem prefs_step
    {action : Action}
    (before : world.prefs = world.ran.foldl Runnable.apply prefs)
    (stepped : (machine device).step world action = some next) :
    next.prefs = next.ran.foldl Runnable.apply prefs := by
  cases effect_of_step stepped with
  | @ui runnable rest queued =>
      show runnable.apply world.prefs = (world.ran ++ [runnable]).foldl _ _
      rw [List.foldl_append, ← before]
      rfl
  | _ => exact before

/-- Without an error shown, a failure of a load that `loadModel` asked for goes
unseen: when all work of a process that is still alive has finished, every
`loadModel` thread has stored its model. -/
theorem stored_of_finished
    {id : Nat}
    {thread : Thread}
    {model : Model}
    (ran : (machine device).run (World.fresh prefs) actions = some world)
    (alive : world.alive = true)
    (finished : world.Finished)
    (found : world.threads[id]? = some thread)
    (program : thread.program = .loadModel model) :
    ∃ contextSize, .store id model contextSize ∈ world.ran := by
  have ready : Ready world :=
    Machine.run_invariant (fun _ _ _ => ready_step) ran (fun _ => ready_fresh)
      alive
  have ended := finished.2.2 alive thread (List.mem_of_getElem? found)
  obtain ⟨contextSize, present⟩ :=
    (ready.threads id thread found).posted model program ended
  rw [finished.2.1] at present
  exact ⟨contextSize, present⟩

/-- A run with a failed load of `loadModel` that the process survives does not
end well. -/
theorem not_failuresSeen_of_failed
    {id : Nat}
    {thread : Thread}
    {model : Model}
    (ran : (machine device).run (World.fresh prefs) actions = some world)
    (alive : world.alive = true)
    (finished : world.Finished)
    (found : world.threads[id]? = some thread)
    (program : thread.program = .loadModel model)
    (failed : (id, device.absolutePath model.filename) ∉ world.succeeded) :
    ¬world.FailuresSeen device prefs := by
  intro seen
  obtain ⟨contextSize, stored⟩ :=
    stored_of_finished ran alive finished found program
  exact failed (seen.stored id model contextSize stored)

/-- What is sound is well when all work has finished. -/
theorem failuresSeen_of_sound
    (sound : Sound device world)
    (written : world.prefs = world.ran.foldl Runnable.apply prefs)
    (finished : world.Finished) :
    world.FailuresSeen device prefs := by
  obtain ⟨launched, ui, ended⟩ := finished
  have served : ∀ id model, world.Served device id model →
      (id, device.absolutePath model.filename) ∈ world.succeeded := by
    rintro id model (pending | done)
    · rw [launched] at pending
      cases pending
    · exact done
  refine ⟨sound.isLoaded_iff ⟨launched, ui, ended⟩, ?_, ?_, written⟩
  · intro id model contextSize present
    exact served id model
      (sound.posted id model contextSize (List.mem_append_right _ present))
  · intro id thread model found program failed
    have here := ended sound.alive thread (List.mem_of_getElem? found)
    exact absurd (served id model ((sound.threads id thread found).served model
      program (here ▸ rfl))) failed

end Runs

/-- In a run that nothing disturbs, `LLMW` and the preferences tell what the
engine has loaded whenever all work has finished. -/
theorem failures_seen
    (device : Device)
    (prefs : Prefs)
    (actions : List Action)
    (undisturbed : (machine device).Guarded Undisturbed (World.fresh prefs)
      actions) :
    (machine device).Always
      (fun world => world.Finished → world.FailuresSeen device prefs)
      (World.fresh prefs) actions := by
  have preserved : ∀ world action next,
      (Ready world ∧ Sound device world ∧
        world.prefs = world.ran.foldl Runnable.apply prefs) →
      Undisturbed world action →
      (machine device).step world action = some next →
        Ready next ∧ Sound device next ∧
          next.prefs = next.ran.foldl Runnable.apply prefs := by
    rintro world action next ⟨ready, sound, written⟩ undisturbed stepped
    have sound := sound_step ready sound undisturbed stepped
    exact ⟨ready_step (fun _ => ready) stepped sound.alive, sound,
      prefs_step written stepped⟩
  apply Machine.always_of_guarded preserved _ undisturbed
  · exact ⟨ready_fresh, sound_fresh, rfl⟩
  · rintro world ⟨_, sound, written⟩ finished
    exact failuresSeen_of_sound sound written finished

/-- A phone with 8 GB, on which an uncaught exception may end the process. -/
def phone (dies : Bool) : Device where
  absolutePath filename := jstr "/files/" ++ filename
  totalMem := 8589934592
  dies := dies

/-- An entry of the catalogue. -/
def entry (filename : JString) : Model where
  path := []
  name := filename
  size := jstr "1 GB"
  description := []
  filename := filename

/-- A thread loads "a", another one unloads it and loads "b". -/
def modelsInTurn : List Action :=
  [.call (.loadModel (entry (jstr "a"))), .call (.loadModel (entry (jstr "b")))] ++
    List.replicate 7 (.thread 0) ++ List.replicate 8 (.thread 1) ++
      [.arrive 0 {}, .arrive 0 {}, .arrive 0 {}, .ui, .thread 1, .ui]

theorem failures_seen_of_models_in_turn :
    ((machine (phone true)).run (World.fresh {}) modelsInTurn).map
        (fun world => (decide world.Finished, world.isLoaded,
          world.android.loadedPath)) =
      some (true, true, some (jstr "/files/b")) ∧
    (machine (phone true)).Always
      (fun world => world.Finished → world.FailuresSeen (phone true) {})
      (World.fresh {}) modelsInTurn :=
  ⟨by decide +kernel, failures_seen _ _ _ (by decide +kernel)⟩

/-- The only load fails in `load_model`, after its thread has set the flag and
stored the model. -/
def failedLoad : List Action :=
  [.call (.loadModel (entry (jstr "a")))] ++ List.replicate 7 (.thread 0) ++
    [.ui, .arrive 0 { model := .throws (jstr "load_model() failed") }]

/-- The model is stored though its load failed, whether the process ends with
the exception or goes on.  If it goes on, the flag stays set as well. -/
theorem not_failuresSeen_of_failed_load :
    (∃ world, (machine (phone true)).run (World.fresh {}) failedLoad =
        some world ∧ world.Finished ∧
      world.prefs.currentModel = some (entry (jstr "a")) ∧
      ¬world.FailuresSeen (phone true) {}) ∧
    ∃ world, (machine (phone false)).run (World.fresh {}) failedLoad =
        some world ∧ world.Finished ∧
      world.prefs.currentModel = some (entry (jstr "a")) ∧
      world.isLoaded = true ∧ world.android.isLoaded = false ∧
      ¬world.FailuresSeen (phone false) {} := by
  constructor
  · obtain ⟨world, ran, seen⟩ := Option.map_eq_some_iff.mp
      (show ((machine (phone true)).run (World.fresh {}) failedLoad).map
          (fun world => (decide world.Finished, world.prefs.currentModel,
            world.succeeded.isEmpty,
            world.ran.contains (.store 0 (entry (jstr "a")) 4096))) =
        some (true, some (entry (jstr "a")), true, true) by decide +kernel)
    simp only [Prod.mk.injEq, decide_eq_true_eq, List.isEmpty_iff,
      List.contains_iff_mem] at seen
    obtain ⟨finished, current, none, shown⟩ := seen
    refine ⟨world, ran, finished, current, fun seen => ?_⟩
    have succeeded := seen.stored 0 (entry (jstr "a")) 4096 shown
    rw [none] at succeeded
    cases succeeded
  · obtain ⟨world, ran, seen⟩ := Option.map_eq_some_iff.mp
      (show ((machine (phone false)).run (World.fresh {}) failedLoad).map
          (fun world => (decide world.Finished, world.prefs.currentModel,
            world.isLoaded, world.android.isLoaded)) =
        some (true, some (entry (jstr "a")), true, false) by decide +kernel)
    simp only [Prod.mk.injEq, decide_eq_true_eq] at seen
    obtain ⟨finished, current, flag, idle⟩ := seen
    refine ⟨world, ran, finished, current, flag, idle, fun seen => ?_⟩
    have loaded := seen.loaded.mp flag
    rw [idle] at loaded
    cases loaded

end Engine
end IdoProject
