import IdoProject.Settings.Activity
import Mathlib.Logic.Function.Basic

/-!
# The screens of the app

`AiActivity` beside the model settings.  A view model outlives the activity that
shows it, and it keeps the engine in a field of its own, `llmw`, which
`initializeModel` assigns; `sendMessage` asks for the static flag of the engine
only.  A callback of the activity runs on the main thread, one statement at a
time where the threads of the engine can come in between.
-/

namespace IdoProject
namespace Settings

open Java
open Storage
open Transition

/-- An `AiActivity` with its view model. -/
structure AiActivity where
  /-- `viewModel.llmw` is not null. -/
  llmw : Bool := false
  isGenerating : Bool := false
  /-- `generate` has been called: its runnables can be posted, and more than one
  of them calls `finalizeGeneration`. -/
  generated : Bool := false
  /-- `btnSend` is enabled. -/
  sendEnabled : Bool := true
  /-- The dialog of `showDebugOptions` is shown, which can click `btnSend`. -/
  debugShown : Bool := false
  finished : Bool := false
  /-- History: `initializeModel` found the engine loaded, or the file of the
  saved model. -/
  engineFound : Bool := false
  deriving DecidableEq

/-- A statement of `AiActivity` or `ChatViewModel` that looks at what other
threads change. -/
inductive Statement where
  /-- `refreshModelState` -/
  | refreshModelState
  /-- The first test of `initializeModel`. -/
  | initializeModel (savedFilename : Option JString)
  /-- `if (modelFile.exists())` -/
  | ifExists (savedFilename : JString)
  /-- `else if (LLMW.isLoaded())` -/
  | elseIfLoaded
  /-- The assignment to `llmw`, when the call of `getInstance` has returned. -/
  | assign (thread : Nat)
  deriving DecidableEq

/-- The process with its screens. -/
structure Screens where
  settings : World
  activityAt : Nat → AiActivity := fun _ => {}
  nextActivity : Nat := 0
  /-- The `AiActivity` between `onResume` and `onPause`. -/
  resumed : Option Nat := none
  /-- `ModelSettingsActivity` is between `onResume` and `onPause`. -/
  modelSettings : Bool := false
  /-- What the main thread has to run of a callback, and for which activity. -/
  main : Option (Nat × Statement) := none
  /-- An exception on the main thread has ended the process. -/
  crashed : Bool := false

/-- What happens on the screens. -/
inductive Event where
  /-- A step of the service, of the engine or of the model settings. -/
  | settings (action : Action)
  /-- An `AiActivity` is created with a new view model. -/
  | onCreate
  /-- An `AiActivity` is created for a view model that exists. -/
  | recreate (index : Nat)
  /-- `onActivityResult` with the result of the model settings. -/
  | onActivityResult (index : Nat)
  | onResume (index : Nat)
  | onPause
  /-- `ModelSettingsActivity.onResume` -/
  | resumeModelSettings
  /-- `ModelSettingsActivity.onPause` -/
  | pauseModelSettings
  /-- A long press on `btnSend`. -/
  | showDebugOptions
  /-- The dialog is left without a message. -/
  | closeDebugOptions
  /-- A click on `btnSend` with a text to send, or the option of the dialog that
  enters a text and clicks it. -/
  | sendMessage
  /-- `finalizeGeneration` -/
  | finalizeGeneration (index : Nat)
  | onLogout
  /-- The main thread goes on with a callback. -/
  | main
  /-- The process is killed and started again. -/
  | restart

namespace Screens

/-- `LLMW.isLoaded` -/
def isLoaded (screens : Screens) : Bool :=
  screens.settings.engine.isLoaded

/-- The process lives. -/
def living (screens : Screens) : Bool :=
  screens.settings.engine.alive && !screens.settings.service.crashed &&
    !screens.crashed

/-- The process lives and its main thread has nothing left to run. -/
def idle (screens : Screens) : Bool :=
  screens.living && screens.main.isNone &&
    screens.settings.service.main.isEmpty

/-- Change one activity. -/
def modify
    (screens : Screens)
    (index : Nat)
    (change : AiActivity → AiActivity) : Screens :=
  { screens with
    activityAt := Function.update screens.activityAt index
      (change (screens.activityAt index)) }

/-- Run a callback from a statement on. -/
def running
    (screens : Screens)
    (index : Nat)
    (statement : Statement) : Screens :=
  { screens with main := some (index, statement) }

/-- The callback returns. -/
def returned (screens : Screens) : Screens :=
  { screens with main := none }

/-- `initializeModel` calls `getInstance`, which is a thread of the engine here;
the main thread waits for it. -/
def getInstance
    (screens : Screens)
    (index : Nat)
    (modelPath : Option JString) : Screens :=
  { screens.modify index ({ · with engineFound := true }) with
    settings := { screens.settings with
      engine := screens.settings.engine.call (.getInstance modelPath) }
    main := some (index, .assign screens.settings.engine.threads.length) }

/-- One statement of a callback. -/
def execute
    (device : Engine.Device)
    (screens : Screens)
    (index : Nat) : Statement → Option Screens
  | .refreshModelState =>
      let saved := screens.settings.engine.prefs.getCurrentModelFilename
      if screens.isLoaded then
        some (screens.modify index ({ · with sendEnabled := true })).returned
      else
        let disabled := screens.modify index ({ · with sendEnabled := false })
        some (match saved with
          | none => disabled.returned
          | some filename =>
              disabled.running index (.initializeModel (some filename)))
  | .initializeModel savedFilename =>
      match screens.isLoaded, savedFilename with
      | false, some filename =>
          some (screens.running index (.ifExists filename))
      | _, _ => some (screens.running index .elseIfLoaded)
  | .ifExists savedFilename =>
      if screens.settings.fileExists savedFilename then
        some (screens.getInstance index
          (some (device.absolutePath savedFilename)))
      else some screens.returned
  | .elseIfLoaded =>
      if screens.isLoaded then some (screens.getInstance index none)
      else some screens.returned
  | .assign thread =>
      -- `getInstance` throws nowhere, and it does not return null.
      match screens.settings.engine.threads[thread]? with
      | none => none
      | some called =>
          if called.location = .done then
            some (screens.modify index ({ · with llmw := true })).returned
          else none

/-- `AiActivity.sendMessage` of a text that is not empty, with
`ChatViewModel.sendMessage`: `generate` dereferences `llmw` at its end.  A dialog
is dismissed by its option first. -/
def sendMessage (screens : Screens) (index : Nat) : Screens :=
  if screens.isLoaded then
    { screens.modify index
        ({ · with
          isGenerating := true
          generated := true
          sendEnabled := false
          debugShown := false }) with
      crashed := !(screens.activityAt index).llmw }
  else screens.modify index ({ · with debugShown := false })

/-- `onLogout`: every activity is finished.  `LLMW.unloadModel` is a thread of
the engine here. -/
def onLogout (screens : Screens) : Screens :=
  { screens with
    settings := { screens.settings with
      engine :=
        { screens.settings.engine.call .unloadModel with
          prefs := screens.settings.engine.prefs.clearCardensials } }
    activityAt := fun index =>
      { screens.activityAt index with finished := true }
    resumed := none }

/-- A new process, with the preferences and the files of the old one. -/
def restart (screens : Screens) : Screens :=
  { settings := start screens.settings.service.disk
      screens.settings.engine.prefs screens.settings.modelOptions }

/-- Whether a step of the model settings can be taken: not in the middle of a
callback if it is one of the main thread, and with the activity on the screen if
it is one of its handlers.  The calls of `getInstance` and `unloadModel` are
those of the callbacks. -/
def admits (screens : Screens) : Action → Bool
  | .engine (.call _) => false
  | .loadModel _ | .onDownloadComplete _ | .deleteModel _ _ =>
      screens.main.isNone && screens.modelSettings
  | .engine .ui | .service (.onStartCommand _) | .service .main
  | .service .onDestroy => screens.main.isNone
  | .service _ | .engine _ => true

/-- One step. -/
def step
    (device : Engine.Device)
    (screens : Screens) : Event → Option Screens
  | .restart => some screens.restart
  | .settings action =>
      if screens.living && screens.admits action then
        (screens.settings.step device action).map fun settings =>
          { screens with settings := settings }
      else none
  | .main =>
      if screens.living then
        screens.main.bind fun (index, statement) =>
          screens.execute device index statement
      else none
  | .onCreate =>
      if screens.idle && screens.resumed.isNone then
        some ({ screens.modify screens.nextActivity (fun _ => {}) with
          nextActivity := screens.nextActivity + 1 }.running
            screens.nextActivity (.initializeModel
              screens.settings.engine.prefs.getCurrentModelFilename))
      else none
  | .recreate index =>
      if screens.idle && screens.resumed.isNone &&
          !(screens.activityAt index).finished then
        some ((screens.modify index
          (fun activity =>
            { activity with
              sendEnabled := !activity.isGenerating
              debugShown := false })).running index
            (.initializeModel
              screens.settings.engine.prefs.getCurrentModelFilename))
      else none
  | .onActivityResult index =>
      if screens.idle && screens.resumed.isNone then
        some (screens.running index .refreshModelState)
      else none
  | .onResume index =>
      if screens.idle && screens.resumed.isNone && !screens.modelSettings &&
          index < screens.nextActivity &&
          !(screens.activityAt index).finished then
        some ({ screens with resumed := some index }.running index
          .refreshModelState)
      else none
  | .onPause =>
      if screens.idle then some { screens with resumed := none } else none
  | .resumeModelSettings =>
      if screens.idle && screens.resumed.isNone then
        some { screens with modelSettings := true }
      else none
  | .pauseModelSettings =>
      if screens.idle then some { screens with modelSettings := false }
      else none
  | .showDebugOptions =>
      screens.resumed.bind fun index =>
        if screens.idle && (screens.activityAt index).sendEnabled then
          some (screens.modify index ({ · with debugShown := true }))
        else none
  | .closeDebugOptions =>
      screens.resumed.bind fun index =>
        if screens.idle && (screens.activityAt index).debugShown then
          some (screens.modify index ({ · with debugShown := false }))
        else none
  | .sendMessage =>
      screens.resumed.bind fun index =>
        if screens.idle && ((screens.activityAt index).sendEnabled ||
            (screens.activityAt index).debugShown) then
          some (screens.sendMessage index)
        else none
  | .finalizeGeneration index =>
      if screens.idle && (screens.activityAt index).generated then
        some (screens.modify index
          ({ · with isGenerating := false, sendEnabled := true }))
      else none
  | .onLogout => if screens.idle then some screens.onLogout else none

end Screens

/-- The screens as a machine. -/
def screensMachine (device : Engine.Device) : Machine Screens Event where
  step := Screens.step device

end Settings
end IdoProject
