import IdoProject.Llama.Loading
import IdoProject.Prefs
import IdoProject.Transition.Machine

/-!
# The wrapper of the engine and the threads that use it

`LLMW` keeps one flag, `isLoaded`, and hands every load and unload to a coroutine
of its own, which reaches the run loop of `LLamaAndroid` at some later time.  The
threads are calls of `LLMW.getInstance`, `LLMW.unloadModel` and
`ModelSettingsActivity.loadModel`; they run interleaved, one statement at a time,
each seeing what the others have assigned, and `loadModel` ends with a runnable
for the UI thread.
-/

namespace IdoProject
namespace Engine

open Java
open Llama
open Transition

/-- What does not change while the process runs. -/
structure Device where
  /-- `new File(getFilesDir(), filename).getAbsolutePath()` -/
  absolutePath : JString → JString
  /-- `MemoryInfo.totalMem` -/
  totalMem : Nat
  /-- An exception that nobody catches in a coroutine of `GlobalScope` ends the
  process. -/
  dies : Bool

/-- `ModelUtils.calculateOptimalContextSize` -/
def calculateOptimalContextSize (device : Device) (userSavedSize : Int) : Int :=
  if userSavedSize > 0 ∧ userSavedSize ≠ 2048 then userSavedSize
  else
    let availableMemMB := device.totalMem / 1048576
    if availableMemMB > 7500 then 4096
    else if availableMemMB > 5500 then 2048
    else 1024

/-- What a thread is asked to do. -/
inductive Program where
  /-- `LLMW.getInstance(modelPath)` -/
  | getInstance (modelPath : Option JString)
  /-- `LLMW.unloadModel()` -/
  | unloadModel
  /-- The thread of `ModelSettingsActivity.loadModel(model, position)`.  Its call
  `getInstance(modelPath, contextSize)` is `getInstance(modelPath)`. -/
  | loadModel (model : Model)
  deriving DecidableEq

/-- The statement a thread executes next. -/
inductive Location where
  /-- The test of `isLoaded` in `unloadModel`. -/
  | unloadTest
  /-- `instance?.unload()` -/
  | unloading
  /-- `isLoaded = false` -/
  | clearing
  /-- `calculateOptimalContextSize` in `loadModel`. -/
  | calculating
  /-- The creation of `instance` in `getInstance`. -/
  | instantiating
  /-- The test of `isLoaded` and `modelPath` in `getInstance`. -/
  | loadTest
  /-- `instance!!.load(modelPath)` -/
  | launching
  /-- `isLoaded = true` -/
  | marking
  /-- `runOnUiThread` at the end of `loadModel`. -/
  | posting
  /-- `runOnUiThread` in the `catch` of `loadModel`. -/
  | catching
  /-- The thread has ended. -/
  | done
  deriving DecidableEq

/-- A thread. -/
structure Thread where
  program : Program
  location : Location
  /-- The local variable `contextSize` of `loadModel`. -/
  contextSize : Int := 0
  deriving DecidableEq

/-- A coroutine launched on `GlobalScope` that has not reached the run loop. -/
inductive Coroutine where
  /-- `llamaAndroid.load(path)`, launched by a thread. -/
  | load (thread : Nat) (path : JString)
  /-- `llamaAndroid.unload()` -/
  | unload
  deriving DecidableEq

/-- A runnable of a `loadModel` thread. -/
inductive Runnable where
  /-- Store the model and the context size. -/
  | store (thread : Nat) (model : Model) (contextSize : Int)
  /-- Show "Failed to load model." -/
  | showError (thread : Nat)
  deriving DecidableEq

/-- The effect of a runnable on the preferences. -/
def Runnable.apply (prefs : Prefs) : Runnable → Prefs
  | .store _ model contextSize =>
      (prefs.setCurrentModel model).setContextSize contextSize
  | .showError _ => prefs

namespace Program

/-- First statement of a thread. -/
def entry : Program → Location
  | .getInstance _ => .instantiating
  | .unloadModel | .loadModel _ => .unloadTest

/-- Where `unloadModel` returns to. -/
def afterUnload : Program → Location
  | .loadModel _ => .calculating
  | .getInstance _ | .unloadModel => .done

/-- Where `getInstance` returns to. -/
def afterGetInstance : Program → Location
  | .loadModel _ => .posting
  | .getInstance _ | .unloadModel => .done

/-- Where the thread goes on after an exception in `getInstance`. -/
def afterException : Program → Location
  | .loadModel _ => .catching
  | .getInstance _ | .unloadModel => .done

/-- The argument `modelPath` of `getInstance`. -/
def modelPath (device : Device) : Program → Option JString
  | .getInstance modelPath => modelPath
  | .loadModel model => some (device.absolutePath model.filename)
  | .unloadModel => none

end Program

/-- The process, its threads and the preferences. -/
structure World where
  /-- The process has not ended. -/
  alive : Bool := true
  /-- The object behind `LLamaAndroid.instance()`. -/
  android : Android := {}
  /-- `LLMW.instance` is not null. -/
  hasInstance : Bool := false
  /-- `LLMW.isLoaded` -/
  isLoaded : Bool := false
  prefs : Prefs
  /-- Every thread so far. -/
  threads : List Thread := []
  /-- The coroutines on their way to the run loop, in the order of their launch. -/
  launched : List Coroutine := []
  /-- The queue of the UI thread. -/
  ui : List Runnable := []
  /-- The loads that succeeded: the thread that asked for it and the file. -/
  succeeded : List (Nat × JString) := []
  /-- The `loadModel` threads that launched a load and have not posted their
  runnable, in the order of the launches. -/
  unposted : List (Nat × Model) := []
  /-- The runnables that ran. -/
  ran : List Runnable := []

/-- What happens next. -/
inductive Action where
  /-- A thread is started. -/
  | call (program : Program)
  /-- A thread executes its next statement. -/
  | thread (id : Nat)
  /-- A launched coroutine reaches the run loop; if it is a load, the native
  steps give these results. -/
  | arrive (position : Nat) (results : NativeResults)
  /-- The UI thread runs the first runnable of its queue. -/
  | ui
  deriving DecidableEq

namespace World

/-- The process as it starts. -/
def fresh (prefs : Prefs) : World :=
  { prefs := prefs }

/-- Start a thread. -/
def call (world : World) (program : Program) : World :=
  { world with
    threads := world.threads ++ [{ program := program, location := program.entry }] }

/-- A thread goes on to a statement. -/
def goto
    (world : World)
    (id : Nat)
    (thread : Thread)
    (location : Location) : World :=
  { world with threads := world.threads.set id { thread with location := location } }

/-- A thread launches a load. -/
def launchLoad
    (world : World)
    (id : Nat)
    (thread : Thread)
    (path : JString) : World :=
  { world with
    launched := world.launched ++ [.load id path]
    unposted := match thread.program with
      | .loadModel model => world.unposted ++ [(id, model)]
      | .getInstance _ | .unloadModel => world.unposted }

/-- One statement of a thread. -/
def execute
    (device : Device)
    (world : World)
    (id : Nat)
    (thread : Thread) : Option World :=
  match thread.location with
  | .unloadTest =>
      some (world.goto id thread
        (if world.isLoaded then .unloading else thread.program.afterUnload))
  | .unloading =>
      let launched :=
        if world.hasInstance then world.launched ++ [Coroutine.unload]
        else world.launched
      some ({ world with launched := launched }.goto id thread .clearing)
  | .clearing =>
      some ({ world with isLoaded := false }.goto id thread
        thread.program.afterUnload)
  | .calculating =>
      let contextSize :=
        calculateOptimalContextSize device world.prefs.contextSize
      some (world.goto id { thread with contextSize := contextSize } .instantiating)
  | .instantiating =>
      some ({ world with hasInstance := true }.goto id thread .loadTest)
  | .loadTest =>
      some (world.goto id thread
        (if !world.isLoaded && (thread.program.modelPath device).isSome then
          .launching
        else thread.program.afterGetInstance))
  | .launching =>
      (thread.program.modelPath device).map fun path =>
        if world.hasInstance then
          (world.launchLoad id thread path).goto id thread .marking
        else world.goto id thread thread.program.afterException
  | .marking =>
      some ({ world with isLoaded := true }.goto id thread
        thread.program.afterGetInstance)
  | .posting =>
      match thread.program with
      | .loadModel model =>
          some ({ world with
            ui := world.ui ++ [Runnable.store id model thread.contextSize]
            unposted := world.unposted.eraseP (·.1 = id) }.goto id thread .done)
      | .getInstance _ | .unloadModel => none
  | .catching =>
      some ({ world with
        ui := world.ui ++ [Runnable.showError id] }.goto id thread .done)
  | .done => none

/-- The process ends with everything in it; the preferences are on disk. -/
def die (world : World) : World :=
  { world with
    alive := false
    android := {}
    hasInstance := false
    isLoaded := false
    launched := []
    ui := [] }

/-- A launched load runs on the run loop. -/
def runLoad
    (device : Device)
    (world : World)
    (id : Nat)
    (path : JString)
    (results : NativeResults) : World :=
  match world.android.load path results with
  | (android, .ok ()) =>
      { world with
        android := android
        succeeded := world.succeeded ++ [(id, path)] }
  | (android, .error _) =>
      if device.dies then world.die else { world with android := android }

/-- A launched coroutine runs on the run loop. -/
def arrive
    (device : Device)
    (world : World)
    (position : Nat)
    (results : NativeResults) : Option World :=
  let others := { world with launched := world.launched.eraseIdx position }
  match world.launched[position]? with
  | some (.load id path) => some (others.runLoad device id path results)
  | some .unload => some { others with android := world.android.unload }
  | none => none

/-- The UI thread runs a runnable. -/
def runUi (world : World) : Option World :=
  match world.ui with
  | [] => none
  | runnable :: ui =>
      some { world with
        prefs := runnable.apply world.prefs
        ui := ui
        ran := world.ran ++ [runnable] }

/-- All work has finished. -/
def Finished (world : World) : Prop :=
  world.launched = [] ∧ world.ui = [] ∧
    (world.alive = true → ∀ thread ∈ world.threads, thread.location = .done)

instance (world : World) : Decidable world.Finished :=
  inferInstanceAs (Decidable (_ ∧ _ ∧ (_ → _)))

end World

/-- What one action does. -/
def step (device : Device) (world : World) : Action → Option World
  | .call program => if world.alive then some (world.call program) else none
  | .thread id =>
      if world.alive then world.threads[id]?.bind (world.execute device id) else none
  | .arrive position results => world.arrive device position results
  | .ui => world.runUi

/-- Threads, coroutines and runnables in any order. -/
def machine (device : Device) : Machine World Action where
  step := step device

end Engine
end IdoProject
