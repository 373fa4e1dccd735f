import IdoProject.Engine.Steps

/-!
# The context size settles

`loadModel` computes a context size from the stored one and stores the result,
on threads that run interleaved.  Computing it again gives the same size, so all
of them store the same one, whatever their order.
-/

namespace IdoProject
namespace Engine

open Transition

section Size

variable {device : Device}

/-- A size that counts as not given is replaced by the one for the memory. -/
theorem calculateOptimalContextSize_of_default
    {size : Int}
    (default : ¬(size > 0 ∧ size ≠ 2048)) :
    calculateOptimalContextSize device size =
      calculateOptimalContextSize device 0 := by
  have none : ¬((0 : Int) > 0 ∧ (0 : Int) ≠ 2048) := by decide
  unfold calculateOptimalContextSize
  rw [if_neg default, if_neg none]

theorem calculateOptimalContextSize_zero_pos :
    0 < calculateOptimalContextSize device 0 := by
  unfold calculateOptimalContextSize
  rw [if_neg (by decide)]
  dsimp only
  split
  · decide
  · split <;> decide

theorem calculateOptimalContextSize_pos
    (size : Int) :
    0 < calculateOptimalContextSize device size := by
  by_cases given : size > 0 ∧ size ≠ 2048
  · rw [calculateOptimalContextSize, if_pos given]
    exact given.1
  · rw [calculateOptimalContextSize_of_default given]
    exact calculateOptimalContextSize_zero_pos

/-- A context size that was computed is computed again. -/
theorem calculateOptimalContextSize_idempotent
    (size : Int) :
    calculateOptimalContextSize device
        (calculateOptimalContextSize device size) =
      calculateOptimalContextSize device size := by
  by_cases given : size > 0 ∧ size ≠ 2048
  · have same : calculateOptimalContextSize device size = size := if_pos given
    rw [same, same]
  · rw [calculateOptimalContextSize_of_default given]
    by_cases standard : calculateOptimalContextSize device 0 = 2048
    · exact calculateOptimalContextSize_of_default fun other => other.2 standard
    · exact if_pos ⟨calculateOptimalContextSize_zero_pos, standard⟩

end Size

/-- Behind the computation of the context size in `loadModel`. -/
def Location.sized : Location → Bool
  | .instantiating | .loadTest | .launching | .marking | .posting => true
  | .unloadTest | .unloading | .clearing | .calculating | .catching | .done =>
      false

/-- The context sizes in a process that began with the size `first`. -/
structure Sized (device : Device) (first : Int) (world : World) : Prop where
  /-- The stored size is the first one or the best one for it. -/
  prefs : world.prefs.contextSize = first ∨
    world.prefs.contextSize = calculateOptimalContextSize device first
  /-- Every thread that has computed a size has computed the best one. -/
  threads : ∀ (id : Nat) (thread : Thread) (model : Model),
    world.threads[id]? = some thread →
      thread.program = .loadModel model → thread.location.sized = true →
        thread.contextSize = calculateOptimalContextSize device first
  /-- Whatever is stored, or is going to be, is the best one. -/
  stored : ∀ id model size, Runnable.store id model size ∈ world.ui ++ world.ran →
    size = calculateOptimalContextSize device first
  /-- Once a size was stored, the stored one is the best one. -/
  settled : ∀ id model size, Runnable.store id model size ∈ world.ran →
    world.prefs.contextSize = calculateOptimalContextSize device first

section Steps

variable {device : Device}
variable {first : Int}
variable {world next : World}

theorem sized_fresh
    (prefs : Prefs) :
    Sized device prefs.contextSize (.fresh prefs) where
  prefs := .inl rfl
  threads _ _ _ found := nomatch found
  stored _ _ _ present := nomatch present
  settled _ _ _ present := nomatch present

/-- A thread goes on to a statement. -/
theorem Sized.goto
    {middle : World}
    {id : Nat}
    {thread : Thread}
    {location : Location}
    (sized : Sized device first world)
    (threads : middle.threads = world.threads)
    (prefs : middle.prefs = world.prefs)
    (ran : middle.ran = world.ran)
    (stored : ∀ id model size,
      Runnable.store id model size ∈ middle.ui ++ middle.ran →
        size = calculateOptimalContextSize device first)
    (moved : ∀ model, thread.program = .loadModel model →
      location.sized = true →
        thread.contextSize = calculateOptimalContextSize device first) :
    Sized device first (middle.goto id thread location) where
  prefs := by
    rw [World.goto, prefs]
    exact sized.prefs
  threads other seen model found program here := by
    have all := @forall_set middle.threads id { thread with location := location }
      (fun _ seen => ∀ model, seen.program = .loadModel model →
        seen.location.sized = true →
          seen.contextSize = calculateOptimalContextSize device first)
      (fun other seen _ found model program here =>
        sized.threads other seen model (threads ▸ found) program here)
      moved
    exact all other seen found model program here
  stored := stored
  settled id model size present := by
    rw [World.goto, ran] at present
    rw [World.goto, prefs]
    exact sized.settled id model size present

/-- A thread that was not behind the computation, or stays behind it. -/
theorem Sized.goto_of_sized
    {middle : World}
    {id : Nat}
    {thread : Thread}
    {location : Location}
    (sized : Sized device first world)
    (found : world.threads[id]? = some thread)
    (same : middle.threads = world.threads ∧ middle.prefs = world.prefs ∧
      middle.ui = world.ui ∧ middle.ran = world.ran)
    (before : location.sized = true → thread.location.sized = true) :
    Sized device first (middle.goto id thread location) := by
  obtain ⟨threads, prefs, ui, ran⟩ := same
  apply sized.goto threads prefs ran
  · rw [ui, ran]
    exact sized.stored
  · exact fun model program here =>
      sized.threads id thread model found program (before here)

/-- A thread returns from `unloadModel`. -/
theorem sized_afterUnload
    {program : Program} :
    program.afterUnload.sized = false := by
  cases program <;> rfl

/-- Every step keeps the context sizes. -/
theorem Sized.step
    {action : Action}
    (sized : Sized device first world)
    (stepped : (machine device).step world action = some next) :
    Sized device first next := by
  cases effect_of_step stepped with
  | call program =>
      refine ⟨sized.prefs, ?_, sized.stored, sized.settled⟩
      have all := @forall_append world.threads
        { program := program, location := program.entry }
        (fun _ seen => ∀ model, seen.program = .loadModel model →
          seen.location.sized = true →
            seen.contextSize = calculateOptimalContextSize device first)
        (fun other seen found model => sized.threads other seen model found)
        (by
          rintro - model rfl here
          cases here)
      exact fun id thread model found => all id thread found model
  | @unloadTest id thread found here =>
      apply sized.goto_of_sized found ⟨rfl, rfl, rfl, rfl⟩
      split
      next => nofun
      next => rw [sized_afterUnload]; nofun
  | @unloading id thread found here =>
      exact sized.goto_of_sized found ⟨rfl, rfl, rfl, rfl⟩ nofun
  | @clearing id thread found here =>
      refine sized.goto_of_sized found ⟨rfl, rfl, rfl, rfl⟩ ?_
      rw [sized_afterUnload]
      nofun
  | @calculating id thread found here =>
      refine sized.goto rfl rfl rfl sized.stored fun _ _ _ => ?_
      rcases sized.prefs with same | same
      · rw [same]
      · rw [same, calculateOptimalContextSize_idempotent]
  | @instantiating id thread found here | @loadTest id thread found here
  | @launching id thread path found here | @marking id thread found here
  | @skipLoad id thread found here =>
      exact sized.goto_of_sized found ⟨rfl, rfl, rfl, rfl⟩ fun _ => here ▸ rfl
  | @noInstance id thread found here =>
      exact sized.goto_of_sized found ⟨rfl, rfl, rfl, rfl⟩ fun _ => here ▸ rfl
  | @posting id thread model found here program =>
      have own := sized.threads id thread model found program (here ▸ rfl)
      refine sized.goto rfl rfl rfl ?_ nofun
      intro other stored size present
      simp only [List.mem_append, List.mem_singleton, Runnable.store.injEq]
        at present
      rcases present with (queued | ⟨-, -, rfl⟩) | ran
      · exact sized.stored other stored size (List.mem_append_left _ queued)
      · exact own
      · exact sized.stored other stored size (List.mem_append_right _ ran)
  | @catching id thread found here =>
      refine sized.goto rfl rfl rfl ?_ nofun
      intro other stored size present
      apply sized.stored other stored size
      simpa using present
  | loaded | failed | unloaded =>
      exact ⟨sized.prefs, sized.threads, sized.stored, sized.settled⟩
  | died =>
      refine ⟨sized.prefs, sized.threads, ?_, sized.settled⟩
      exact fun id model size present =>
        sized.stored id model size (List.mem_append_right _ present)
  | @ui runnable rest queued =>
      have stored : ∀ id model size,
          Runnable.store id model size ∈ rest ++ (world.ran ++ [runnable]) →
            size = calculateOptimalContextSize device first := by
        intro id model size present
        apply sized.stored id model size
        rw [queued]
        simp only [List.mem_append, List.mem_cons, List.not_mem_nil] at present ⊢
        tauto
      cases runnable with
      | store id model size =>
          have best := stored id model size (by simp)
          exact ⟨.inr best, sized.threads, stored, fun _ _ _ _ => best⟩
      | showError id =>
          refine ⟨sized.prefs, sized.threads, stored, fun other model size ran => ?_⟩
          apply sized.settled other model size
          simpa using ran

/-- In every run of the threads that load and unload models, on any device and
from any stored size, every load stores the best context size for the stored
one, which is positive and stays the best one when it is computed again. -/
theorem contextSize_settles
    (prefs : Prefs)
    (actions : List Action) :
    (machine device).Always (Sized device prefs.contextSize) (.fresh prefs)
        actions ∧
      0 < calculateOptimalContextSize device prefs.contextSize ∧
      calculateOptimalContextSize device
          (calculateOptimalContextSize device prefs.contextSize) =
        calculateOptimalContextSize device prefs.contextSize := by
  refine ⟨?_, calculateOptimalContextSize_pos _,
    calculateOptimalContextSize_idempotent _⟩
  exact Machine.always_of_guarded
    (fun _ _ _ sized _ stepped => Sized.step sized stepped)
    (fun _ sized => sized)
    (Machine.guarded_of_forall fun _ _ => trivial) (sized_fresh prefs)

end Steps

end Engine
end IdoProject
