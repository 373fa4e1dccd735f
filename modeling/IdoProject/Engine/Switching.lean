import IdoProject.Engine.Failures

/-!
# Switching models

Any number of `loadModel` threads, each of which unloads the model before it and
loads its own.  When all work has finished, the file that is loaded should be
that of the current model.  It is, if nothing disturbs the threads, the loads
reach the run loop in the order in which they were launched, and the threads post
their runnables in that order as well.
-/

namespace IdoProject
namespace Engine

open Java
open Llama
open Transition

/-- The file of a load. -/
def Coroutine.path? : Coroutine → Option JString
  | .load _ path => some path
  | .unload => none

/-- The model of a runnable that stores one. -/
def Runnable.model? : Runnable → Option Model
  | .store _ model _ => some model
  | .showError _ => none

/-- The thread will still set the flag. -/
def Location.reloads : Location → Bool
  | .calculating | .instantiating | .loadTest | .launching | .marking => true
  | _ => false

/-- The load is launched, the runnable is not posted. -/
def Location.isUnposted : Location → Bool
  | .marking | .posting => true
  | _ => false

/-- Only `loadModel` is called, and no native step fails. -/
def Action.Switches : Action → Prop
  | .call program => program.isLoadModel = true
  | .arrive _ results => results.Succeeds
  | .thread _ | .ui => True

instance : DecidablePred Action.Switches
  | .call program => inferInstanceAs (Decidable (program.isLoadModel = true))
  | .arrive _ results => inferInstanceAs (Decidable results.Succeeds)
  | .thread _ | .ui => .isTrue trivial

/-- The model of a thread that posts its runnable next. -/
def Thread.posting? (thread : Thread) : Option Model :=
  match thread.location, thread.program with
  | .posting, .loadModel model => some model
  | _, _ => none

/-- Loads arrive, and runnables are posted, in the order of the launches. -/
def InOrder (world : World) : Action → Prop
  | .thread id =>
      ∀ model ∈ world.threads[id]?.bind Thread.posting?,
        world.unposted.head? = some (id, model)
  | .arrive position _ =>
      ∀ coroutine ∈ world.launched[position]?, coroutine.isLoad = true →
        loads (world.launched.take position) = 0
  | .call _ | .ui => True

instance (world : World) : DecidablePred (InOrder world)
  | .thread id =>
      inferInstanceAs (Decidable
        (∀ model ∈ world.threads[id]?.bind Thread.posting?,
          world.unposted.head? = some (id, model)))
  | .arrive position _ =>
      inferInstanceAs (Decidable
        (∀ coroutine ∈ world.launched[position]?, coroutine.isLoad = true →
          loads (world.launched.take position) = 0))
  | .call _ | .ui => .isTrue trivial

namespace World

/-- A model is loaded, it is the current one, and nothing is going on. -/
structure Settled (device : Device) (world : World) : Prop where
  alive : world.alive = true
  hasInstance : world.hasInstance = true
  isLoaded : world.isLoaded = true
  loaded : world.android.isLoaded = true
  current : world.android.loadedPath =
    world.prefs.getCurrentModelFilename.map device.absolutePath
  file : world.android.loadedPath.isSome = true
  threads : world.threads = []
  launched : world.launched = []
  ui : world.ui = []
  unposted : world.unposted = []
  ran : world.ran = []

/-- The current model is loaded, and the flag says that one is. -/
structure Switched (device : Device) (world : World) : Prop where
  isLoaded : world.isLoaded = true
  loaded : world.android.isLoaded = true
  current : world.prefs.getCurrentModelFilename.isSome = true ∧
    world.android.loadedPath =
      world.prefs.getCurrentModelFilename.map device.absolutePath

/-- The loaded file and the files on their way. -/
def files (world : World) : List JString :=
  world.android.loadedPath.toList ++ world.launched.filterMap Coroutine.path?

/-- The current model and those that will be stored. -/
def models (world : World) : List Model :=
  world.prefs.currentModel.toList ++ world.ui.filterMap Runnable.model? ++
    world.unposted.map Prod.snd

end World

/-- What holds in an orderly run. -/
structure Chosen (device : Device) (world : World) : Prop where
  /-- Every thread switches models. -/
  switches : ∀ (id : Nat) (thread : Thread), world.threads[id]? = some thread →
    thread.program.isLoadModel = true
  /-- A loaded model has a file. -/
  file : world.android.isLoaded = world.android.loadedPath.isSome
  /-- The last file is that of the last model. -/
  agrees : ∀ path, world.files.getLast? = some path →
    world.models.getLast?.map (fun model => device.absolutePath model.filename) =
      some path
  /-- The threads that have not posted are as many as are at these statements. -/
  unposted : world.unposted.length = count world.threads Location.isUnposted
  /-- The flag is set, or will be. -/
  reloads : world.isLoaded = true ∨
    ∃ (id : Nat) (thread : Thread), world.threads[id]? = some thread ∧
      thread.location.reloads = true

section Steps

variable {device : Device}
variable {world next : World}

/-- A step in which a thread moves, the process being otherwise as `middle`. -/
theorem Chosen.goto
    {middle : World}
    {id : Nat}
    {old thread : Thread}
    {location : Location}
    (chosen : Chosen device world)
    (found : world.threads[id]? = some old)
    (threads : middle.threads = world.threads)
    (program : thread.program = old.program)
    (android : middle.android = world.android)
    (agrees : ∀ path, middle.files.getLast? = some path →
      middle.models.getLast?.map
        (fun model => device.absolutePath model.filename) = some path)
    (unposted : middle.unposted.length + old.location.isUnposted.toNat =
      world.unposted.length + location.isUnposted.toNat)
    (set : world.isLoaded = true →
      middle.isLoaded = true ∨ location.reloads = true)
    (reloads : old.location.reloads = true →
      middle.isLoaded = true ∨ location.reloads = true) :
    Chosen device (middle.goto id thread location) where
  switches := by
    apply forall_set
    · intro other seen _ also
      rw [threads] at also
      exact chosen.switches other seen also
    · show thread.program.isLoadModel = true
      rw [program]
      exact chosen.switches id old found
  file := by
    show middle.android.isLoaded = middle.android.loadedPath.isSome
    rw [android]
    exact chosen.file
  agrees := agrees
  unposted := by
    have counted := @count_set world.threads id old
      { thread with location := location } Location.isUnposted found
    have before := chosen.unposted
    show middle.unposted.length =
      count (middle.threads.set id _) Location.isUnposted
    rw [threads]
    simp only at counted
    omega
  reloads := by
    have inside := (List.getElem?_eq_some_iff.mp found).1
    have here : (middle.threads.set id { thread with location := location })[id]? =
        some { thread with location := location } := by
      rw [threads]
      exact List.getElem?_set_self inside
    have either : middle.isLoaded = true ∨ location.reloads = true →
        middle.isLoaded = true ∨ ∃ (other : Nat) (seen : Thread),
          (middle.threads.set id { thread with location := location })[other]? =
            some seen ∧ seen.location.reloads = true := by
      rintro (now | later)
      · exact .inl now
      · exact .inr ⟨id, _, here, later⟩
    rcases chosen.reloads with flag | ⟨other, seen, also, later⟩
    · exact either (set flag)
    · by_cases same : other = id
      · rw [same, found] at also
        cases also
        exact either (reloads later)
      · refine .inr ⟨other, seen, ?_, later⟩
        show (middle.threads.set id _)[other]? = some seen
        rw [List.getElem?_set_ne (Ne.symm same), threads]
        exact also

/-- A move that leaves files and models as they are. -/
theorem Chosen.move
    {id : Nat}
    {old thread : Thread}
    {location : Location}
    (chosen : Chosen device world)
    (found : world.threads[id]? = some old)
    (program : thread.program = old.program)
    (unposted : old.location.isUnposted = location.isUnposted)
    (reloads : old.location.reloads = true → location.reloads = true) :
    Chosen device (world.goto id thread location) :=
  chosen.goto found rfl program rfl chosen.agrees (by rw [unposted]) .inl
    fun before => .inr (reloads before)

/-- The program of a `loadModel` thread. -/
theorem Chosen.program
    {id : Nat}
    {thread : Thread}
    (chosen : Chosen device world)
    (found : world.threads[id]? = some thread) :
    ∃ model, thread.program = .loadModel model := by
  have switches := chosen.switches id thread found
  cases program : thread.program with
  | loadModel model => exact ⟨model, rfl⟩
  | getInstance _ | unloadModel =>
      rw [program] at switches
      cases switches

/-- What a step of a thread preserves. -/
theorem chosen_thread
    {id : Nat}
    (ready : Ready world)
    (chosen : Chosen device world)
    (undisturbed : Undisturbed world (.thread id))
    (inOrder : InOrder world (.thread id))
    (effect : Effect device world (.thread id) next) :
    Chosen device next := by
  cases effect with
  | @unloadTest _ thread found here =>
      obtain ⟨model, program⟩ := chosen.program found
      have settled : thread.location.reloads = false := by
        rw [here]
        rfl
      rw [program]
      refine chosen.move found rfl ?_ fun before => ?_
      · rw [here]
        split <;> rfl
      · rw [settled] at before
        cases before
  | @unloading _ thread found here =>
      refine chosen.goto found rfl rfl rfl ?_ (by rw [here]; rfl) .inl
        fun before => ?_
      · intro path last
        apply chosen.agrees path
        rw [← last]
        split
        · simp [World.files, List.filterMap_append, Coroutine.path?]
        · rfl
      · rw [here] at before
        cases before
  | @clearing _ thread found here =>
      obtain ⟨model, program⟩ := chosen.program found
      rw [program]
      exact chosen.goto found rfl rfl rfl chosen.agrees (by rw [here]; rfl)
        (fun _ => .inr rfl) (fun _ => .inr rfl)
  | @calculating _ thread found here =>
      exact chosen.move found rfl (here ▸ rfl) fun _ => rfl
  | @instantiating _ thread found here =>
      exact chosen.goto found rfl rfl rfl chosen.agrees (by rw [here]; rfl) .inl
        fun _ => .inr rfl
  | @loadTest _ thread found here absent =>
      exact chosen.move found rfl (here ▸ rfl) fun _ => rfl
  | @skipLoad _ thread found here skips =>
      obtain ⟨model, program⟩ := chosen.program found
      have cleared := (undisturbed thread found).2 here
        (program ▸ rfl)
      rw [program, cleared] at skips
      cases skips <;> contradiction
  | @launching _ thread path found here given present =>
      obtain ⟨model, program⟩ := chosen.program found
      rw [program] at given
      cases given
      refine chosen.goto found rfl rfl rfl ?_ ?_ .inl fun _ => .inr rfl
      · intro path last
        simp only [World.files, World.models, World.launchLoad, program,
          List.filterMap_append, List.map_append] at last ⊢
        simp [Coroutine.path?] at last
        simp [last]
      · simp [World.launchLoad, program, here, Location.isUnposted]
  | @noInstance _ thread found here absent =>
      have present := (ready.threads id thread found).hasInstance (here ▸ rfl)
      rw [absent] at present
      cases present
  | @marking _ thread found here =>
      obtain ⟨model, program⟩ := chosen.program found
      rw [program]
      exact chosen.goto found rfl rfl rfl chosen.agrees (by rw [here]; rfl)
        (fun _ => .inl rfl) fun _ => .inl rfl
  | @posting _ thread model found here program =>
      have posts : world.threads[id]?.bind Thread.posting? = some model := by
        rw [found, Option.bind_some, Thread.posting?, here, program]
      obtain ⟨rest, queue⟩ := List.head?_eq_some_iff.mp (inOrder model posts)
      have posted : world.unposted.eraseP (·.1 = id) = rest := by
        rw [queue]
        simp
      refine chosen.goto found rfl rfl rfl ?_ ?_ .inl fun before => ?_
      · intro path last
        have agrees := chosen.agrees path last
        simp only [World.models, queue, List.filterMap_append,
          List.map_cons] at agrees ⊢
        simpa [Runnable.model?] using agrees
      · rw [posted, queue, here]
        simp [Location.isUnposted]
      · rw [here] at before
        cases before
  | @catching _ thread found here =>
      exact absurd here (ready.threads id thread found).uncaught

/-- What the arrival of a coroutine preserves. -/
theorem chosen_arrive
    {position : Nat}
    {results : NativeResults}
    (chosen : Chosen device world)
    (undisturbed : Undisturbed world (.arrive position results))
    (inOrder : InOrder world (.arrive position results))
    (effect : Effect device world (.arrive position results) next) :
    Chosen device next := by
  cases effect with
  | @loaded _ id path _ found idle succeeds =>
      have first : loads (world.launched.take position) = 0 :=
        inOrder _ found rfl
      obtain ⟨-, isLoaded, loadedPath⟩ :=
        @Android.load_of_succeeds world.android path results idle succeeds
      obtain ⟨before, after, launched, erased, taken⟩ :=
        exists_append_of_getElem? found
      rw [taken] at first
      have none : before.filterMap Coroutine.path? = [] := by
        rw [List.filterMap_eq_nil_iff]
        intro coroutine present
        have other := List.countP_eq_zero.mp first coroutine present
        cases coroutine with
        | load _ _ => exact absurd rfl other
        | unload => rfl
      refine ⟨chosen.switches, ?_, ?_, chosen.unposted, chosen.reloads⟩
      · show (world.android.load path results).1.isLoaded = _
        rw [isLoaded, loadedPath]
        rfl
      · intro file last
        apply chosen.agrees file
        rw [← last]
        simp only [World.files, loadedPath, erased]
        rw [Android.loadedPath_of_idle idle, launched]
        simp [none, Coroutine.path?]
  | failed found fails | died found fails =>
      exact absurd (undisturbed _ found) fails
  | unloaded found =>
      obtain ⟨before, after, launched, erased, -⟩ :=
        exists_append_of_getElem? found
      refine ⟨chosen.switches, ?_, ?_, chosen.unposted, chosen.reloads⟩
      · show world.android.unload.isLoaded = _
        rw [Android.isLoaded_unload, Android.loadedPath_unload]
        rfl
      · intro file last
        apply chosen.agrees file
        have same : world.launched.filterMap Coroutine.path? =
            (world.launched.eraseIdx position).filterMap Coroutine.path? := by
          rw [erased, launched, List.filterMap_append, List.filterMap_append]
          rfl
        replace last : ((world.launched.eraseIdx position).filterMap
            Coroutine.path?).getLast? = some file := by
          simpa only [World.files, Android.loadedPath_unload, Option.toList_none,
            List.nil_append] using last
        rw [World.files, same, List.getLast?_append, last]
        rfl

/-- What every step of an orderly run preserves. -/
theorem chosen_step
    {action : Action}
    (ready : Ready world)
    (chosen : Chosen device world)
    (switches : action.Switches)
    (undisturbed : Undisturbed world action)
    (inOrder : InOrder world action)
    (stepped : (machine device).step world action = some next) :
    Chosen device next := by
  have effect := effect_of_step stepped
  cases action with
  | call program =>
      cases effect with
      | call =>
          refine ⟨?_, chosen.file, chosen.agrees, ?_, ?_⟩
          · exact forall_append chosen.switches fun _ => switches
          · show world.unposted.length = count (world.threads ++ _) _
            rw [count_append, chosen.unposted]
            cases program <;> rfl
          · apply chosen.reloads.imp_right
            rintro ⟨id, thread, found, later⟩
            refine ⟨id, thread, ?_, later⟩
            show (world.threads ++ _)[id]? = some thread
            rw [List.getElem?_append_left (List.getElem?_eq_some_iff.mp found).1]
            exact found
  | thread id => exact chosen_thread ready chosen undisturbed inOrder effect
  | arrive position results =>
      exact chosen_arrive chosen undisturbed inOrder effect
  | ui =>
      cases effect with
      | @ui runnable rest queued =>
          refine ⟨chosen.switches, chosen.file, ?_, chosen.unposted,
            chosen.reloads⟩
          intro path last
          have agrees := chosen.agrees path last
          cases runnable with
          | store id model contextSize =>
              simp only [World.models, queued] at agrees ⊢
              simpa [Runnable.apply, Runnable.model?, Prefs.setCurrentModel,
                Prefs.setContextSize, List.getLast?_append] using agrees
          | showError id =>
              simp only [World.models, queued] at agrees ⊢
              simpa [Runnable.apply, Runnable.model?] using agrees

end Steps

section Runs

variable {device : Device}
variable {start world : World}

theorem getLast?_toList {α : Type} (option : Option α) :
    option.toList.getLast? = option := by
  cases option <;> rfl

/-- What an orderly run starts from. -/
theorem ready_of_settled (settled : start.Settled device) : Ready start where
  threads id thread found := by
    rw [settled.threads] at found
    cases found
  hasInstance _ := settled.hasInstance
  silent id shown := by
    rw [settled.ui, settled.ran] at shown
    cases shown

theorem sound_of_settled (settled : start.Settled device) :
    Sound device start where
  alive := settled.alive
  threads id thread found := by
    rw [settled.threads] at found
    cases found
  alone := by
    rw [settled.threads]
    exact Nat.zero_le _
  balance := by
    rw [settled.threads, settled.launched, settled.loaded, settled.isLoaded]
    rfl
  posted id model contextSize shown := by
    rw [settled.ui, settled.ran] at shown
    cases shown

theorem chosen_of_settled (settled : start.Settled device) :
    Chosen device start where
  switches id thread found := by
    rw [settled.threads] at found
    cases found
  file := settled.loaded.trans settled.file.symm
  agrees path last := by
    have current := settled.current
    rw [World.files, settled.launched] at last
    rw [World.models, settled.ui, settled.unposted]
    simp only [List.filterMap_nil, List.append_nil, List.map_nil,
      getLast?_toList] at last ⊢
    rw [← last, current, Prefs.getCurrentModelFilename, Option.map_map]
    rfl
  unposted := by
    rw [settled.unposted, settled.threads]
    rfl
  reloads := .inl settled.isLoaded

/-- What holds in an orderly run is what is wanted when all work has finished. -/
theorem switched_of_chosen
    (sound : Sound device world)
    (chosen : Chosen device world)
    (finished : world.Finished) :
    world.Switched device := by
  have isLoaded : world.isLoaded = true := by
    rcases chosen.reloads with set | ⟨id, thread, found, later⟩
    · exact set
    · have ended := finished.2.2 sound.alive thread (List.mem_of_getElem? found)
      rw [ended] at later
      cases later
  have loaded := (sound.isLoaded_iff finished).mp isLoaded
  have unposted : world.unposted = [] := by
    rw [← List.length_eq_zero_iff, chosen.unposted]
    exact sound.count_of_finished finished Location.isUnposted rfl
  obtain ⟨path, file⟩ :=
    Option.isSome_iff_exists.mp (chosen.file.symm.trans loaded)
  have agrees := chosen.agrees path
  rw [World.files, World.models, finished.1, finished.2.1, unposted, file]
    at agrees
  simp only [List.filterMap_nil, List.append_nil, List.map_nil,
    getLast?_toList, forall_const] at agrees
  refine ⟨isLoaded, loaded, ?_, ?_⟩
  · cases current : world.prefs.currentModel with
    | none =>
        rw [current] at agrees
        cases agrees
    | some model => simp [Prefs.getCurrentModelFilename, current]
  · rw [file, ← agrees, Prefs.getCurrentModelFilename, Option.map_map]
    rfl

end Runs

/-- Switching models ends with the chosen model: from a settled process, any
number of `loadModel` threads whose loads succeed, if nothing disturbs them and
loads arrive and runnables are posted in the order of the launches. -/
theorem switching_ends_with_current
    (device : Device)
    (start : World)
    (actions : List Action)
    (settled : start.Settled device)
    (switches : ∀ action ∈ actions, action.Switches)
    (undisturbed : (machine device).Guarded Undisturbed start actions)
    (inOrder : (machine device).Guarded InOrder start actions) :
    (machine device).Always
      (fun world => world.Finished → world.Switched device) start actions := by
  have preserved : ∀ world action next,
      (Ready world ∧ Sound device world ∧ Chosen device world) →
      (action.Switches ∧ Undisturbed world action ∧ InOrder world action) →
      (machine device).step world action = some next →
        Ready next ∧ Sound device next ∧ Chosen device next := by
    rintro world action next ⟨ready, sound, chosen⟩
      ⟨switches, undisturbed, inOrder⟩ stepped
    have soundNext := sound_step ready sound undisturbed stepped
    exact ⟨ready_step (fun _ => ready) stepped soundNext.alive, soundNext,
      chosen_step ready chosen switches undisturbed inOrder stepped⟩
  apply Machine.always_of_guarded preserved
  · rintro world ⟨_, sound, chosen⟩ finished
    exact switched_of_chosen sound chosen finished
  · exact Machine.guarded_and (Machine.guarded_of_forall switches)
      (Machine.guarded_and undisturbed inOrder)
  · exact ⟨ready_of_settled settled, sound_of_settled settled,
      chosen_of_settled settled⟩

/-- The model of a file is loaded and current. -/
def settledOn (filename : JString) : World where
  android := (({} : Android).load ((phone true).absolutePath filename) {}).1
  hasInstance := true
  isLoaded := true
  prefs := { currentModel := some (entry filename) }

/-- Two switches, to "a" and to "b", whose threads overlap outside their
sections. -/
def twoSwitches : List Action :=
  [.call (.loadModel (entry (jstr "a"))), .call (.loadModel (entry (jstr "b")))] ++
    List.replicate 8 (.thread 0) ++ List.replicate 8 (.thread 1) ++
      List.replicate 4 (.arrive 0 {}) ++ [.thread 0, .thread 1, .ui, .ui]

theorem switching_ends_with_current_of_two_switches :
    ((machine (phone true)).run (settledOn (jstr "m")) twoSwitches).map
        (fun world => (decide world.Finished, world.isLoaded,
          world.android.loadedPath)) =
      some (true, true, some (jstr "/files/b")) ∧
    (machine (phone true)).Always
      (fun world => world.Finished → world.Switched (phone true))
      (settledOn (jstr "m")) twoSwitches := by
  refine ⟨by decide +kernel, switching_ends_with_current _ _ _ ?_ ?_
    (by decide +kernel) (by decide +kernel)⟩
  · constructor <;> decide +kernel
  · decide +kernel

/-- The thread for "b" skips the unload, since the one for "a" has cleared the
flag, and skips the load, since the one for "a" has set it. -/
def skippedSwitch : List Action :=
  [.call (.loadModel (entry (jstr "a"))), .call (.loadModel (entry (jstr "b")))] ++
    List.replicate 3 (.thread 0) ++ List.replicate 3 (.thread 1) ++
      List.replicate 5 (.thread 0) ++ [.thread 1, .thread 0, .thread 1] ++
        [.arrive 0 {}, .arrive 0 {}, .ui, .ui]

/-- The model "b" is current while "a" is loaded. -/
theorem not_switched_of_skipped_switch :
    (settledOn (jstr "m")).Settled (phone true) ∧
      (∀ action ∈ skippedSwitch, action.Switches) ∧
      ∃ world, (machine (phone true)).run (settledOn (jstr "m")) skippedSwitch =
          some world ∧ world.Finished ∧
        world.prefs.getCurrentModelFilename = some (jstr "b") ∧
        world.android.loadedPath = some (jstr "/files/a") ∧
        ¬world.Switched (phone true) := by
  refine ⟨by constructor <;> decide +kernel, by decide +kernel, ?_⟩
  obtain ⟨world, ran, seen⟩ := Option.map_eq_some_iff.mp
    (show ((machine (phone true)).run (settledOn (jstr "m")) skippedSwitch).map
        (fun world => (decide world.Finished, world.prefs.getCurrentModelFilename,
          world.android.loadedPath)) =
      some (true, some (jstr "b"), some (jstr "/files/a")) by decide +kernel)
  simp only [Prod.mk.injEq, decide_eq_true_eq] at seen
  obtain ⟨finished, current, file⟩ := seen
  refine ⟨world, ran, finished, current, file, fun switched => ?_⟩
  have same := switched.current.2
  rw [current, file] at same
  exact absurd same (by decide +kernel)

end Engine
end IdoProject
