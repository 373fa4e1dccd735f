import IdoProject.Engine.Uncaught

/-!
# The sections between a test of `isLoaded` and the assignment

`unloadModel` and `getInstance` test `isLoaded`, launch a coroutine and then
assign the flag.  Where these sections do not overlap and every coroutine finds
the engine in the state it expects, the flag is what the engine will be once the
coroutines on their way have run.
-/

namespace IdoProject
namespace Engine

open Java
open Llama
open Transition

namespace Location

/-- Between a test of `isLoaded` and the assignment. -/
def inSection : Location → Bool
  | .unloading | .clearing | .launching | .marking => true
  | _ => false

/-- At a test of `isLoaded`. -/
def tests : Location → Bool
  | .unloadTest | .loadTest => true
  | _ => false

/-- After the unload has been launched, before the flag says so. -/
def isClearing : Location → Bool
  | .clearing => true
  | _ => false

/-- After the load has been launched, before the flag says so. -/
def isMarking : Location → Bool
  | .marking => true
  | _ => false

/-- After the launch of the load. -/
def afterLaunch : Location → Bool
  | .marking | .posting | .done => true
  | _ => false

end Location

/-- The program is `loadModel`. -/
def Program.isLoadModel : Program → Bool
  | .loadModel _ => true
  | .getInstance _ | .unloadModel => false

/-- The load of the thread is on its way or has succeeded. -/
def World.Served (device : Device) (world : World) (id : Nat) (model : Model) :
    Prop :=
  .load id (device.absolutePath model.filename) ∈ world.launched ∨
    (id, device.absolutePath model.filename) ∈ world.succeeded

/-- Nothing disturbs the sections and the coroutines. -/
def Undisturbed (world : World) : Action → Prop
  | .thread id =>
      ∀ thread ∈ world.threads[id]?,
        -- the flag is tested only when nobody is about to assign it
        (thread.location.tests = true →
          count world.threads Location.inSection = 0) ∧
        -- a model that is to be loaded finds the flag cleared
        (thread.location = .loadTest → thread.program.isLoadModel = true →
          world.isLoaded = false)
  | .arrive position results =>
      ∀ coroutine ∈ world.launched[position]?,
        if coroutine.isLoad then
          world.android.isLoaded = false ∧ results.Succeeds
        else world.android.isLoaded = true
  | .call _ | .ui => True

instance (world : World) : DecidablePred (Undisturbed world)
  | .thread id =>
      inferInstanceAs (Decidable (∀ thread ∈ world.threads[id]?, _ ∧ _))
  | .arrive position _ =>
      inferInstanceAs (Decidable (∀ coroutine ∈ world.launched[position]?,
        if coroutine.isLoad then _ else _))
  | .call _ | .ui => .isTrue trivial

/-- What holds of a thread. -/
structure Located (device : Device) (world : World) (id : Nat) (thread : Thread) :
    Prop where
  /-- An unload is under way only where the flag is set. -/
  unloading : thread.location = .unloading ∨ thread.location = .clearing →
    world.isLoaded = true
  /-- A load is under way only where the flag is cleared. -/
  launching : thread.location = .launching ∨ thread.location = .marking →
    world.isLoaded = false
  /-- A `loadModel` thread has launched its load. -/
  served : ∀ model, thread.program = .loadModel model →
    thread.location.afterLaunch = true → world.Served device id model

/-- What holds of the process. -/
structure Sound (device : Device) (world : World) : Prop where
  alive : world.alive = true
  threads : ∀ id thread, world.threads[id]? = some thread →
    Located device world id thread
  /-- The sections do not overlap. -/
  alone : count world.threads Location.inSection ≤ 1
  /-- The flag is what the engine will be. -/
  balance : loads world.launched + world.android.isLoaded.toNat +
      count world.threads Location.isClearing =
    unloads world.launched + world.isLoaded.toNat +
      count world.threads Location.isMarking
  /-- A model is stored for a load that has been launched. -/
  posted : ∀ id model contextSize,
    .store id model contextSize ∈ world.ui ++ world.ran →
      world.Served device id model

section Steps

variable {device : Device}
variable {world next : World}

/-- A load that is on its way goes on or succeeds. -/
theorem served_mono
    {id : Nat}
    {model : Model}
    (launched : ∀ path, .load id path ∈ world.launched →
      .load id path ∈ next.launched ∨ (id, path) ∈ next.succeeded)
    (succeeded : ∀ entry, entry ∈ world.succeeded → entry ∈ next.succeeded)
    (served : world.Served device id model) :
    next.Served device id model := by
  rcases served with pending | done
  · exact launched _ pending
  · exact .inr (succeeded _ done)

theorem Located.mono
    {id : Nat}
    {thread : Thread}
    (located : Located device world id thread)
    (flag : thread.location.inSection = true → next.isLoaded = world.isLoaded)
    (served : ∀ model, world.Served device id model →
      next.Served device id model) :
    Located device next id thread where
  unloading here := by
    rw [flag (by rcases here with here | here <;> rw [here] <;> rfl)]
    exact located.unloading here
  launching here := by
    rw [flag (by rcases here with here | here <;> rw [here] <;> rfl)]
    exact located.launching here
  served model program here := served model (located.served model program here)

/-- A thread outside the sections. -/
theorem located_outside
    {id : Nat}
    {thread : Thread}
    (outside : thread.location.inSection = false)
    (served : ∀ model, thread.program = .loadModel model →
      thread.location.afterLaunch = true → world.Served device id model) :
    Located device world id thread where
  unloading here := by
    rcases here with here | here <;> rw [here] at outside <;> cases outside
  launching here := by
    rcases here with here | here <;> rw [here] at outside <;> cases outside
  served := served

/-- A thread that has not launched a load of its own. -/
theorem located_before
    {id : Nat}
    {thread : Thread}
    (outside : thread.location.inSection = false)
    (before : ∀ model, thread.program = .loadModel model →
      thread.location.afterLaunch = false) :
    Located device world id thread :=
  located_outside outside fun model program after => by
    rw [before model program] at after
    cases after

/-- A thread in the section of `unloadModel`. -/
theorem located_unloading
    {id : Nat}
    {thread : Thread}
    (here : thread.location = .unloading ∨ thread.location = .clearing)
    (set : world.isLoaded = true) :
    Located device world id thread where
  unloading _ := set
  launching other := by
    rcases here with here | here <;> rw [here] at other <;> cases other <;>
      contradiction
  served model program after := by
    rcases here with here | here <;> rw [here] at after <;> cases after

/-- A thread in the section of `getInstance`. -/
theorem located_launching
    {id : Nat}
    {thread : Thread}
    (here : thread.location = .launching ∨ thread.location = .marking)
    (cleared : world.isLoaded = false)
    (served : ∀ model, thread.program = .loadModel model →
      thread.location = .marking → world.Served device id model) :
    Located device world id thread where
  unloading other := by
    rcases here with here | here <;> rw [here] at other <;> cases other <;>
      contradiction
  launching _ := cleared
  served model program after := by
    rcases here with here | here
    · rw [here] at after
      cases after
    · exact served model program here

/-- A thread returns from `unloadModel`. -/
theorem located_afterUnload
    {id : Nat}
    {thread : Thread} :
    Located device world id
      { thread with location := thread.program.afterUnload } := by
  apply located_before
  all_goals
    cases program : thread.program <;>
      simp [Program.afterUnload, Location.inSection, Location.afterLaunch]

/-- A thread returns from `getInstance`. -/
theorem located_afterGetInstance
    {id : Nat}
    {thread : Thread}
    (served : ∀ model, thread.program = .loadModel model →
      world.Served device id model) :
    Located device world id
      { thread with location := thread.program.afterGetInstance } := by
  refine located_outside ?_ fun model program _ => served model program
  cases thread.program <;> rfl

/-- A step in which a thread moves, the process being otherwise as `middle`.
The last condition but two weighs what the step launches and assigns. -/
theorem Sound.goto
    {middle : World}
    {id : Nat}
    {old thread : Thread}
    {location : Location}
    (sound : Sound device world)
    (found : world.threads[id]? = some old)
    (threads : middle.threads = world.threads)
    (alive : middle.alive = true)
    (android : middle.android = world.android)
    (flag : ∀ other seen, other ≠ id → world.threads[other]? = some seen →
      seen.location.inSection = true → middle.isLoaded = world.isLoaded)
    (served : ∀ other model, world.Served device other model →
      middle.Served device other model)
    (enters : location.inSection = true → old.location.inSection = true ∨
      count world.threads Location.inSection = 0)
    (weighed : loads middle.launched + unloads world.launched +
        world.isLoaded.toNat + location.isClearing.toNat +
        old.location.isMarking.toNat =
      loads world.launched + unloads middle.launched + middle.isLoaded.toNat +
        old.location.isClearing.toNat + location.isMarking.toNat)
    (posted : ∀ id model contextSize,
      .store id model contextSize ∈ middle.ui ++ middle.ran →
        middle.Served device id model)
    (moved : Located device middle id { thread with location := location }) :
    Sound device (middle.goto id thread location) where
  alive := alive
  threads := by
    apply forall_set
    · intro other seen different also
      rw [threads] at also
      exact (sound.threads other seen also).mono (flag other seen different also)
        (served other)
    · exact moved.mono (fun _ => rfl) fun _ done => done
  alone := by
    have counted := @count_set world.threads id old
      { thread with location := location } Location.inSection found
    have alone := sound.alone
    show count (middle.threads.set id _) Location.inSection ≤ 1
    rw [threads]
    cases inside : location.inSection with
    | false =>
        rw [inside] at counted
        simp only [Bool.toNat_false] at counted
        omega
    | true =>
        rw [inside] at counted
        rcases enters inside with before | empty
        · rw [before] at counted
          simp only [Bool.toNat_true] at counted
          omega
        · simp only [Bool.toNat_true] at counted
          omega
  balance := by
    have clearing := @count_set world.threads id old
      { thread with location := location } Location.isClearing found
    have marking := @count_set world.threads id old
      { thread with location := location } Location.isMarking found
    have balance := sound.balance
    show loads middle.launched + middle.android.isLoaded.toNat +
        count (middle.threads.set id _) Location.isClearing =
      unloads middle.launched + middle.isLoaded.toNat +
        count (middle.threads.set id _) Location.isMarking
    rw [threads, android]
    simp only at clearing marking
    omega
  posted := posted

/-- A move that launches and assigns nothing. -/
theorem Sound.move
    {id : Nat}
    {old thread : Thread}
    {location : Location}
    (sound : Sound device world)
    (found : world.threads[id]? = some old)
    (enters : location.inSection = true →
      count world.threads Location.inSection = 0)
    (weighed : location.isClearing.toNat + old.location.isMarking.toNat =
      old.location.isClearing.toNat + location.isMarking.toNat)
    (moved : Located device world id { thread with location := location }) :
    Sound device (world.goto id thread location) :=
  sound.goto found rfl sound.alive rfl (fun _ _ _ _ _ => rfl)
    (fun _ _ done => done) (fun inside => .inr (enters inside)) (by omega)
    sound.posted moved

section Statements

variable {id : Nat}
variable {thread : Thread}

/-- Where a thread is in its section, no other one is. -/
theorem Sound.others
    (sound : Sound device world)
    (found : world.threads[id]? = some thread)
    (inside : thread.location.inSection = true)
    {other : Nat}
    {seen : Thread}
    (different : other ≠ id)
    (also : world.threads[other]? = some seen) :
    seen.location.inSection ≠ true := by
  rw [others_of_count_le_one rfl sound.alone found inside different also]
  exact Bool.false_ne_true

/-- `instance?.unload()` -/
theorem Sound.unloading
    (sound : Sound device world)
    (found : world.threads[id]? = some thread)
    (here : thread.location = .unloading) :
    Sound device
      ({ world with launched := world.launched ++ [Coroutine.unload] }.goto
        id thread .clearing) := by
  have set := (sound.threads id thread found).unloading (.inl here)
  have kept : ∀ other model, world.Served device other model →
      World.Served device
        { world with launched := world.launched ++ [Coroutine.unload] }
        other model := fun _ _ =>
    served_mono (fun _ pending => .inl (List.mem_append_left _ pending))
      fun _ done => done
  refine sound.goto found rfl sound.alive rfl (fun _ _ _ _ _ => rfl) kept
    (fun _ => .inl (here ▸ rfl)) ?_
    (fun other model size present =>
      kept other model (sound.posted other model size present))
    (located_unloading (.inr rfl) set)
  rw [here]
  simp [loads, unloads, Coroutine.isLoad, Location.isClearing,
    Location.isMarking]
  omega

/-- `isLoaded = false` -/
theorem Sound.clearing
    (sound : Sound device world)
    (found : world.threads[id]? = some thread)
    (here : thread.location = .clearing) :
    Sound device
      ({ world with isLoaded := false }.goto id thread
        thread.program.afterUnload) := by
  have set := (sound.threads id thread found).unloading (.inr here)
  refine sound.goto found rfl sound.alive rfl ?_ (fun _ _ done => done)
    (fun _ => .inl (here ▸ rfl)) ?_ sound.posted located_afterUnload
  · intro other seen different also inside
    exact absurd inside (sound.others found (here ▸ rfl) different also)
  · rw [here, set]
    cases thread.program <;>
      simp [Program.afterUnload, Location.isClearing, Location.isMarking]

/-- `instance!!.load(modelPath)` -/
theorem Sound.launching
    {path : JString}
    (sound : Sound device world)
    (found : world.threads[id]? = some thread)
    (here : thread.location = .launching)
    (given : thread.program.modelPath device = some path) :
    Sound device ((world.launchLoad id thread path).goto id thread .marking) := by
  have cleared := (sound.threads id thread found).launching (.inl here)
  have kept : ∀ other model, world.Served device other model →
      (world.launchLoad id thread path).Served device other model :=
    fun _ _ =>
      served_mono (fun _ pending => .inl (List.mem_append_left _ pending))
        fun _ done => done
  refine sound.goto found rfl sound.alive rfl (fun _ _ _ _ _ => rfl) kept
    (fun _ => .inl (here ▸ rfl)) ?_
    (fun other model size present =>
      kept other model (sound.posted other model size present))
    (located_launching (.inr rfl) cleared fun model program _ => ?_)
  · rw [here]
    simp [World.launchLoad, loads, unloads, Coroutine.isLoad,
      Location.isClearing, Location.isMarking]
    omega
  · have program : thread.program = .loadModel model := program
    rw [program] at given
    cases given
    exact .inl (List.mem_append_right _ (List.mem_singleton_self _))

/-- `isLoaded = true` -/
theorem Sound.marking
    (sound : Sound device world)
    (found : world.threads[id]? = some thread)
    (here : thread.location = .marking) :
    Sound device
      ({ world with isLoaded := true }.goto id thread
        thread.program.afterGetInstance) := by
  have located := sound.threads id thread found
  have cleared := located.launching (.inr here)
  refine sound.goto found rfl sound.alive rfl ?_ (fun _ _ done => done)
    (fun _ => .inl (here ▸ rfl)) ?_ sound.posted
    (located_afterGetInstance fun model program =>
      located.served model program (here ▸ rfl))
  · intro other seen different also inside
    exact absurd inside (sound.others found (here ▸ rfl) different also)
  · rw [here, cleared]
    cases thread.program <;>
      simp [Program.afterGetInstance, Location.isClearing,
        Location.isMarking]

/-- `runOnUiThread` after the load. -/
theorem Sound.posting
    {model : Model}
    (sound : Sound device world)
    (found : world.threads[id]? = some thread)
    (here : thread.location = .posting)
    (program : thread.program = .loadModel model) :
    Sound device
      ({ world with
        ui := world.ui ++ [Runnable.store id model thread.contextSize]
        unposted := world.unposted.eraseP (·.1 = id) }.goto id thread .done) := by
  have served := (sound.threads id thread found).served model program
    (here ▸ rfl)
  refine sound.goto found rfl sound.alive rfl (fun _ _ _ _ _ => rfl)
    (fun _ _ done => done)
    (fun inside => absurd inside Bool.false_ne_true) ?_ ?_
    (located_outside rfl fun other also _ => ?_)
  · rw [here]
    simp [Location.isClearing, Location.isMarking]
  · intro other stored contextSize present
    simp only [List.mem_append, List.mem_singleton, Runnable.store.injEq]
      at present
    rcases present with (queued | ⟨rfl, rfl, -⟩) | ran
    · exact sound.posted other stored contextSize
        (List.mem_append_left _ queued)
    · exact served
    · exact sound.posted other stored contextSize
        (List.mem_append_right _ ran)
  · have same : Program.loadModel other = .loadModel model :=
      also.symm.trans program
    cases same
    exact served

/-- What a step of a thread preserves. -/
theorem sound_thread
    (ready : Ready world)
    (sound : Sound device world)
    (undisturbed : Undisturbed world (.thread id))
    (effect : Effect device world (.thread id) next) :
    Sound device next := by
  cases effect with
  | @unloadTest _ thread found here =>
      have free := (undisturbed thread found).1 (here ▸ rfl)
      cases set : world.isLoaded with
      | true =>
          rw [if_pos rfl]
          exact sound.move found (fun _ => free) (here ▸ rfl)
            (located_unloading (.inl rfl) set)
      | false =>
          rw [if_neg Bool.false_ne_true]
          refine sound.move found (fun _ => free) ?_ located_afterUnload
          rw [here]
          cases thread.program <;> rfl
  | @unloading _ thread found here =>
      have set := (sound.threads id thread found).unloading (.inl here)
      rw [if_pos (ready.hasInstance set)]
      exact sound.unloading found here
  | clearing found here => exact sound.clearing found here
  | @calculating _ thread found here =>
      exact sound.move found (fun inside => absurd inside Bool.false_ne_true)
        (here ▸ rfl) (located_before rfl fun _ _ => rfl)
  | @instantiating _ thread found here =>
      refine sound.goto found rfl sound.alive rfl (fun _ _ _ _ _ => rfl)
        (fun _ _ done => done)
        (fun inside => absurd inside Bool.false_ne_true) ?_ sound.posted
        (located_before rfl fun _ _ => rfl)
      rw [here]
      simp [Location.isClearing, Location.isMarking]
  | @loadTest _ thread found here absent =>
      have free := (undisturbed thread found).1 (here ▸ rfl)
      refine sound.move found (fun _ => free) (here ▸ rfl)
        (located_launching (.inl rfl) absent fun model _ other => ?_)
      cases other
  | @skipLoad _ thread found here skips =>
      have cleared := (undisturbed thread found).2 here
      have free := (undisturbed thread found).1 (here ▸ rfl)
      refine sound.move found (fun _ => free) ?_ (located_afterGetInstance ?_)
      · rw [here]
        cases thread.program <;> rfl
      · intro model program
        rw [program] at cleared skips
        rw [cleared rfl] at skips
        cases skips <;> contradiction
  | launching found here given present => exact sound.launching found here given
  | @noInstance _ thread found here absent =>
      have present := (ready.threads id thread found).hasInstance (here ▸ rfl)
      rw [absent] at present
      cases present
  | marking found here => exact sound.marking found here
  | posting found here program => exact sound.posting found here program
  | @catching _ thread found here =>
      exact absurd here (ready.threads id thread found).uncaught

end Statements

/-- A step in which a coroutine arrives, the threads staying where they are.
The last condition but one weighs the arrival. -/
theorem Sound.arrive
    {position : Nat}
    {coroutine : Coroutine}
    {android : Android}
    {succeeded : List (Nat × JString)}
    (sound : Sound device world)
    (found : world.launched[position]? = some coroutine)
    (done : ∀ entry, entry ∈ world.succeeded → entry ∈ succeeded)
    (arrived : ∀ id path, coroutine = .load id path → (id, path) ∈ succeeded)
    (weighed : android.isLoaded.toNat + (!coroutine.isLoad).toNat =
      world.android.isLoaded.toNat + coroutine.isLoad.toNat) :
    Sound device
      { world with
        launched := world.launched.eraseIdx position
        android := android
        succeeded := succeeded } := by
  have kept : ∀ other model, world.Served device other model →
      World.Served device
        { world with
          launched := world.launched.eraseIdx position
          android := android
          succeeded := succeeded } other model := by
    intro other model
    refine served_mono (fun path pending => ?_) done
    rcases List.mem_cons.mp ((perm_eraseIdx found).mem_iff.mpr pending)
      with here | later
    · exact .inr (arrived other path here.symm)
    · exact .inl later
  refine ⟨sound.alive, ?_, sound.alone, ?_, ?_⟩
  · intro other seen also
    exact (sound.threads other seen also).mono (fun _ => rfl) (kept other)
  · have pending := loads_eraseIdx found
    have others := unloads_eraseIdx found
    have balance := sound.balance
    show loads (world.launched.eraseIdx position) + android.isLoaded.toNat +
        count world.threads Location.isClearing =
      unloads (world.launched.eraseIdx position) + world.isLoaded.toNat +
        count world.threads Location.isMarking
    omega
  · intro other model contextSize present
    exact kept other model (sound.posted other model contextSize present)

/-- What the arrival of a coroutine preserves. -/
theorem sound_arrive
    {position : Nat}
    {results : NativeResults}
    (sound : Sound device world)
    (undisturbed : Undisturbed world (.arrive position results))
    (effect : Effect device world (.arrive position results) next) :
    Sound device next := by
  cases effect with
  | @loaded _ id path _ found idle succeeds =>
      have loaded :=
        (@Android.load_of_succeeds world.android path results idle succeeds).2.1
      apply sound.arrive found
      · exact fun _ done => List.mem_append_left _ done
      · intro other file same
        cases same
        exact List.mem_append_right _ (List.mem_singleton_self _)
      · rw [loaded, idle]
        rfl
  | failed found fails | died found fails =>
      exact absurd (undisturbed _ found) fails
  | unloaded found =>
      have loaded : world.android.isLoaded = true := undisturbed _ found
      apply sound.arrive found
      · exact fun _ done => done
      · intro other file same
        cases same
      · rw [loaded, Android.isLoaded_unload]
        rfl

/-- What every undisturbed step preserves. -/
theorem sound_step
    {action : Action}
    (ready : Ready world)
    (sound : Sound device world)
    (undisturbed : Undisturbed world action)
    (stepped : (machine device).step world action = some next) :
    Sound device next := by
  have effect := effect_of_step stepped
  cases action with
  | call program =>
      cases effect with
      | call =>
          have balance := sound.balance
          refine ⟨sound.alive, ?_, ?_, ?_, sound.posted⟩
          · apply forall_append
            · intro other seen found
              exact (sound.threads other seen found).mono (fun _ => rfl)
                fun _ done => done
            · intro other
              apply located_before
              all_goals
                cases program <;>
                  simp [Program.entry, Location.inSection, Location.afterLaunch]
          · show count (world.threads ++ _) Location.inSection ≤ 1
            rw [count_append]
            have alone := sound.alone
            cases program <;> exact alone
          · show loads world.launched + world.android.isLoaded.toNat +
                count (world.threads ++ _) Location.isClearing =
              unloads world.launched + world.isLoaded.toNat +
                count (world.threads ++ _) Location.isMarking
            rw [count_append, count_append]
            cases program <;> exact balance
  | thread id => exact sound_thread ready sound undisturbed effect
  | arrive position results => exact sound_arrive sound undisturbed effect
  | ui =>
      cases effect with
      | @ui runnable rest queued =>
          refine ⟨sound.alive, ?_, sound.alone, sound.balance, ?_⟩
          · intro other seen found
            exact (sound.threads other seen found).mono (fun _ => rfl)
              fun _ done => done
          · intro other model contextSize present
            apply sound.posted other model contextSize
            rw [queued]
            simp only [List.mem_append, List.mem_cons, List.not_mem_nil]
              at present ⊢
            tauto

end Steps

section Finished

variable {device : Device}
variable {world : World}

/-- No thread is at a statement when all of them have ended. -/
theorem Sound.count_of_finished
    (sound : Sound device world)
    (finished : world.Finished)
    (which : Location → Bool)
    (free : which .done = false) :
    count world.threads which = 0 := by
  apply List.countP_eq_zero.mpr
  intro thread present
  rw [finished.2.2 sound.alive thread present, free]
  exact Bool.false_ne_true

/-- The flag tells what the engine has loaded when all work has finished. -/
theorem Sound.isLoaded_iff
    (sound : Sound device world)
    (finished : world.Finished) :
    world.isLoaded = true ↔ world.android.isLoaded = true := by
  have balance := sound.balance
  rw [sound.count_of_finished finished Location.isClearing rfl,
    sound.count_of_finished finished Location.isMarking rfl,
    finished.1] at balance
  simp only [loads, unloads, List.countP_nil] at balance
  cases set : world.isLoaded <;> cases loaded : world.android.isLoaded <;>
    simp [set, loaded] at balance ⊢

end Finished

end Engine
end IdoProject
