import IdoProject.Engine.Wrapper
import Mathlib.Data.List.Perm.Basic

/-!
# What a step of the engine does

The steps of the machine, sorted by the statement, coroutine or runnable that
they execute, and how they move the threads that are counted at some statement
and the coroutines that are on their way.
-/

namespace IdoProject
namespace Engine

open Java
open Llama
open Transition

/-- The steps.  Every constructor has the condition under which the step is
taken and the state it leads to. -/
inductive Effect (device : Device) (world : World) : Action → World → Prop where
  /-- A thread is started. -/
  | call
      (program : Program) :
      Effect device world (.call program) (world.call program)
  /-- `if (isLoaded)` in `unloadModel`. -/
  | unloadTest {id : Nat} {thread : Thread}
      (found : world.threads[id]? = some thread)
      (here : thread.location = .unloadTest) :
      Effect device world (.thread id) (world.goto id thread
        (if world.isLoaded then .unloading else thread.program.afterUnload))
  /-- `instance?.unload()` -/
  | unloading {id : Nat} {thread : Thread}
      (found : world.threads[id]? = some thread)
      (here : thread.location = .unloading) :
      Effect device world (.thread id)
        ({ world with
          launched := if world.hasInstance then world.launched ++ [Coroutine.unload]
            else world.launched }.goto id thread .clearing)
  /-- `isLoaded = false` -/
  | clearing {id : Nat} {thread : Thread}
      (found : world.threads[id]? = some thread)
      (here : thread.location = .clearing) :
      Effect device world (.thread id)
        ({ world with isLoaded := false }.goto id thread
          thread.program.afterUnload)
  /-- `calculateOptimalContextSize` -/
  | calculating {id : Nat} {thread : Thread}
      (found : world.threads[id]? = some thread)
      (here : thread.location = .calculating) :
      Effect device world (.thread id)
        (world.goto id
          { thread with
            contextSize :=
              calculateOptimalContextSize device world.prefs.contextSize }
          .instantiating)
  /-- The creation of `instance`. -/
  | instantiating {id : Nat} {thread : Thread}
      (found : world.threads[id]? = some thread)
      (here : thread.location = .instantiating) :
      Effect device world (.thread id)
        ({ world with hasInstance := true }.goto id thread .loadTest)
  /-- `if (!isLoaded && modelPath != null)` in `getInstance`, taken. -/
  | loadTest {id : Nat} {thread : Thread}
      (found : world.threads[id]? = some thread)
      (here : thread.location = .loadTest)
      (absent : world.isLoaded = false) :
      Effect device world (.thread id) (world.goto id thread .launching)
  /-- The same test, not taken. -/
  | skipLoad {id : Nat} {thread : Thread}
      (found : world.threads[id]? = some thread)
      (here : thread.location = .loadTest)
      (skips : world.isLoaded = true ∨ thread.program.modelPath device = none) :
      Effect device world (.thread id)
        (world.goto id thread thread.program.afterGetInstance)
  /-- `instance!!.load(modelPath)` -/
  | launching {id : Nat} {thread : Thread} {path : JString}
      (found : world.threads[id]? = some thread)
      (here : thread.location = .launching)
      (given : thread.program.modelPath device = some path)
      (present : world.hasInstance = true) :
      Effect device world (.thread id)
        ((world.launchLoad id thread path).goto id thread .marking)
  /-- `instance!!` throws. -/
  | noInstance {id : Nat} {thread : Thread}
      (found : world.threads[id]? = some thread)
      (here : thread.location = .launching)
      (absent : world.hasInstance = false) :
      Effect device world (.thread id)
        (world.goto id thread thread.program.afterException)
  /-- `isLoaded = true` -/
  | marking {id : Nat} {thread : Thread}
      (found : world.threads[id]? = some thread)
      (here : thread.location = .marking) :
      Effect device world (.thread id)
        ({ world with isLoaded := true }.goto id thread
          thread.program.afterGetInstance)
  /-- `runOnUiThread` after the load. -/
  | posting {id : Nat} {thread : Thread} {model : Model}
      (found : world.threads[id]? = some thread)
      (here : thread.location = .posting)
      (program : thread.program = .loadModel model) :
      Effect device world (.thread id)
        ({ world with
          ui := world.ui ++ [Runnable.store id model thread.contextSize]
          unposted := world.unposted.eraseP (·.1 = id) }.goto id thread .done)
  /-- `runOnUiThread` in the `catch`. -/
  | catching {id : Nat} {thread : Thread}
      (found : world.threads[id]? = some thread)
      (here : thread.location = .catching) :
      Effect device world (.thread id)
        ({ world with
          ui := world.ui ++ [Runnable.showError id] }.goto id thread .done)
  /-- A load succeeds. -/
  | loaded {position id : Nat} {path : JString} {results : NativeResults}
      (found : world.launched[position]? = some (.load id path))
      (idle : world.android.isLoaded = false)
      (succeeds : results.Succeeds) :
      Effect device world (.arrive position results)
        { world with
          launched := world.launched.eraseIdx position
          android := (world.android.load path results).1
          succeeded := world.succeeded ++ [(id, path)] }
  /-- A load fails, and its exception is logged. -/
  | failed {position id : Nat} {path : JString} {results : NativeResults}
      (found : world.launched[position]? = some (.load id path))
      (fails : ¬(world.android.isLoaded = false ∧ results.Succeeds))
      (survives : device.dies = false) :
      Effect device world (.arrive position results)
        { world with
          launched := world.launched.eraseIdx position
          android := (world.android.load path results).1 }
  /-- A load fails, and its exception ends the process. -/
  | died {position id : Nat} {path : JString} {results : NativeResults}
      (found : world.launched[position]? = some (.load id path))
      (fails : ¬(world.android.isLoaded = false ∧ results.Succeeds))
      (dies : device.dies = true) :
      Effect device world (.arrive position results)
        { world with launched := world.launched.eraseIdx position }.die
  /-- An unload runs. -/
  | unloaded {position : Nat} {results : NativeResults}
      (found : world.launched[position]? = some .unload) :
      Effect device world (.arrive position results)
        { world with
          launched := world.launched.eraseIdx position
          android := world.android.unload }
  /-- The UI thread runs a runnable. -/
  | ui {runnable : Runnable} {rest : List Runnable}
      (queued : world.ui = runnable :: rest) :
      Effect device world .ui
        { world with
          prefs := runnable.apply world.prefs
          ui := rest
          ran := world.ran ++ [runnable] }

section Inversion

variable {device : Device}
variable {world next : World}

/-- A statement of a thread is one of the steps. -/
theorem effect_of_execute
    {id : Nat}
    {thread : Thread}
    (found : world.threads[id]? = some thread)
    (executed : world.execute device id thread = some next) :
    Effect device world (.thread id) next := by
  unfold World.execute at executed
  cases here : thread.location with
  | unloadTest =>
      rw [here] at executed
      cases executed
      exact .unloadTest found here
  | unloading =>
      rw [here] at executed
      cases executed
      exact .unloading found here
  | clearing =>
      rw [here] at executed
      cases executed
      exact .clearing found here
  | calculating =>
      rw [here] at executed
      cases executed
      exact .calculating found here
  | instantiating =>
      rw [here] at executed
      cases executed
      exact .instantiating found here
  | loadTest =>
      rw [here] at executed
      cases executed
      split
      next taken =>
        rw [Bool.and_eq_true, Bool.not_eq_true'] at taken
        exact .loadTest found here taken.1
      next skipped =>
        apply Effect.skipLoad found here
        rw [Bool.and_eq_true, Bool.not_eq_true', not_and_or,
          Bool.not_eq_false, Bool.not_eq_true, Option.isSome_eq_false_iff,
          Option.isNone_iff_eq_none] at skipped
        exact skipped
  | launching =>
      rw [here] at executed
      obtain ⟨path, given, launched⟩ := Option.map_eq_some_iff.mp executed
      cases present : world.hasInstance with
      | true =>
          rw [present, if_pos rfl] at launched
          cases launched
          exact .launching found here given present
      | false =>
          rw [present, if_neg Bool.false_ne_true] at launched
          cases launched
          exact .noInstance found here present
  | marking =>
      rw [here] at executed
      cases executed
      exact .marking found here
  | posting =>
      rw [here] at executed
      cases program : thread.program with
      | loadModel model =>
          rw [program] at executed
          cases executed
          exact .posting found here program
      | getInstance modelPath =>
          rw [program] at executed
          cases executed
      | unloadModel =>
          rw [program] at executed
          cases executed
  | catching =>
      rw [here] at executed
      cases executed
      exact .catching found here
  | done =>
      rw [here] at executed
      cases executed

/-- A coroutine that runs is one of the steps. -/
theorem effect_of_arrive
    {position : Nat}
    {results : NativeResults}
    (arrived : world.arrive device position results = some next) :
    Effect device world (.arrive position results) next := by
  unfold World.arrive at arrived
  split at arrived
  next id path found =>
    have ok := @Android.load_eq_ok_iff world.android path results
    simp only [World.runLoad] at arrived
    split at arrived
    next android result =>
      rw [result] at ok
      obtain ⟨idle, succeeds⟩ := ok.mp rfl
      have step := @Effect.loaded device world position id path results
        found idle succeeds
      rw [result] at step
      cases arrived
      exact step
    next android message result =>
      have fails : ¬(world.android.isLoaded = false ∧ results.Succeeds) := by
        intro both
        have succeeded := ok.mpr both
        rw [result] at succeeded
        cases succeeded
      split at arrived
      next dies =>
        cases arrived
        exact .died found fails dies
      next survives =>
        have step := @Effect.failed device world position id path results
          found fails (Bool.not_eq_true _ ▸ survives)
        rw [result] at step
        cases arrived
        exact step
  next found =>
    cases arrived
    exact .unloaded found
  next => cases arrived

/-- Every step of the machine is one of the steps. -/
theorem effect_of_step
    {action : Action}
    (stepped : (machine device).step world action = some next) :
    Effect device world action next := by
  cases action with
  | call program =>
      replace stepped :
          (if world.alive then some (world.call program) else none) =
            some next := stepped
      split at stepped
      next =>
        cases stepped
        exact .call program
      next => cases stepped
  | thread id =>
      replace stepped :
          (if world.alive then
            world.threads[id]?.bind (world.execute device id) else none) =
            some next := stepped
      split at stepped
      next =>
        obtain ⟨thread, found, executed⟩ := Option.bind_eq_some_iff.mp stepped
        exact effect_of_execute found executed
      next => cases stepped
  | arrive position results => exact effect_of_arrive stepped
  | ui =>
      replace stepped : world.runUi = some next := stepped
      unfold World.runUi at stepped
      split at stepped
      next => cases stepped
      next runnable rest queued =>
        cases stepped
        exact .ui queued

end Inversion

section Threads

variable {threads : List Thread}
variable {id : Nat}
variable {old new : Thread}

/-- The number of threads at some of the statements. -/
def count (threads : List Thread) (which : Location → Bool) : Nat :=
  threads.countP fun thread => which thread.location

theorem count_set
    (which : Location → Bool)
    (found : threads[id]? = some old) :
    count (threads.set id new) which + (which old.location).toNat =
      count threads which + (which new.location).toNat := by
  obtain ⟨inside, rfl⟩ := List.getElem?_eq_some_iff.mp found
  have set := @List.countP_set Thread (fun thread => which thread.location)
    threads id new inside
  have present : which threads[id].location = true → 0 < count threads which :=
    fun here => List.countP_pos_iff.mpr ⟨_, List.getElem_mem inside, here⟩
  unfold count at present ⊢
  rw [set]
  cases here : which threads[id].location with
  | false => cases which new.location <;> simp
  | true =>
      have := present here
      cases which new.location <;> simp <;> omega

theorem count_append (which : Location → Bool) :
    count (threads ++ [new]) which =
      count threads which + (which new.location).toNat := by
  unfold count
  rw [List.countP_append, List.countP_singleton]
  cases which new.location <;> rfl

theorem count_eq_zero
    {which : Location → Bool}
    (none : count threads which = 0)
    (found : threads[id]? = some old) :
    which old.location = false :=
  Bool.not_eq_true _ ▸ List.countP_eq_zero.mp none old (List.mem_of_getElem? found)

/-- Where at most one thread is counted, the others are not. -/
theorem others_of_count_le_one
    {which : Location → Bool}
    (free : which .done = false)
    (alone : count threads which ≤ 1)
    (found : threads[id]? = some old)
    (here : which old.location = true)
    {other : Nat}
    {seen : Thread}
    (different : other ≠ id)
    (also : threads[other]? = some seen) :
    which seen.location = false := by
  have set := @count_set threads id old { old with location := .done } which found
  rw [here, free] at set
  simp only [Bool.toNat_true, Bool.toNat_false] at set
  have gone : (threads.set id { old with location := .done })[other]? =
      some seen := by
    rw [List.getElem?_set_ne different.symm]
    exact also
  exact count_eq_zero (by omega) gone

/-- A property of all threads after one of them has moved. -/
theorem forall_set
    {property : Nat → Thread → Prop}
    (others : ∀ other seen, other ≠ id → threads[other]? = some seen →
      property other seen)
    (moved : property id new) :
    ∀ other seen, (threads.set id new)[other]? = some seen →
      property other seen := by
  intro other seen found
  rw [List.getElem?_set] at found
  split at found
  next same =>
    split at found
    next =>
      cases found
      exact same ▸ moved
    next => cases found
  next different => exact others other seen (Ne.symm different) found

/-- A property of all threads after another one has been started. -/
theorem forall_append
    {property : Nat → Thread → Prop}
    (others : ∀ other seen, threads[other]? = some seen → property other seen)
    (started : ∀ other, property other new) :
    ∀ other seen, (threads ++ [new])[other]? = some seen →
      property other seen := by
  intro other seen found
  rw [List.getElem?_append] at found
  split at found
  next => exact others other seen found
  next =>
    rw [List.getElem?_singleton, Option.ite_none_right_eq_some] at found
    cases found.2
    exact started other

end Threads

section Coroutines

variable {launched : List Coroutine}
variable {position : Nat}
variable {coroutine : Coroutine}

/-- The coroutine is a load. -/
def Coroutine.isLoad : Coroutine → Bool
  | .load _ _ => true
  | .unload => false

/-- The loads on their way. -/
def loads (launched : List Coroutine) : Nat :=
  launched.countP Coroutine.isLoad

/-- The unloads on their way. -/
def unloads (launched : List Coroutine) : Nat :=
  launched.countP fun coroutine => !coroutine.isLoad

/-- A coroutine that arrives is on its way no more. -/
theorem perm_eraseIdx (found : launched[position]? = some coroutine) :
    List.Perm (coroutine :: launched.eraseIdx position) launched := by
  obtain ⟨inside, rfl⟩ := List.getElem?_eq_some_iff.mp found
  exact List.getElem_cons_eraseIdx_perm inside

/-- What is on its way before and after a coroutine that arrives. -/
theorem exists_append_of_getElem? (found : launched[position]? = some coroutine) :
    ∃ before after, launched = before ++ coroutine :: after ∧
      launched.eraseIdx position = before ++ after ∧
      launched.take position = before := by
  obtain ⟨inside, rfl⟩ := List.getElem?_eq_some_iff.mp found
  refine ⟨launched.take position, launched.drop (position + 1), ?_,
    List.eraseIdx_eq_take_drop_succ _ _, rfl⟩
  rw [← List.drop_eq_getElem_cons inside, List.take_append_drop]

theorem loads_eraseIdx (found : launched[position]? = some coroutine) :
    loads (launched.eraseIdx position) + coroutine.isLoad.toNat =
      loads launched := by
  have counted := (perm_eraseIdx found).countP_eq Coroutine.isLoad
  rw [List.countP_cons] at counted
  unfold loads
  rw [← counted]
  cases coroutine.isLoad <;> rfl

theorem unloads_eraseIdx (found : launched[position]? = some coroutine) :
    unloads (launched.eraseIdx position) + (!coroutine.isLoad).toNat =
      unloads launched := by
  have counted := (perm_eraseIdx found).countP_eq fun coroutine =>
    !coroutine.isLoad
  rw [List.countP_cons] at counted
  unfold unloads
  rw [← counted]
  cases coroutine.isLoad <;> rfl

end Coroutines

end Engine
end IdoProject
