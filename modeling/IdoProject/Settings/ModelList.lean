import IdoProject.Download.Announced
import IdoProject.Settings.Activity
import Mathlib.Logic.Function.Basic

/-!
# The list of models

`ModelSettingsActivity` with its `ModelAdapter` and `ModelDownloadReceiver`: the
broadcasts that are on their way to the receiver, the rows the list has on the
screen, and the rows that it has been told to bind again.  A row is bound by
itself, between any two steps of the other threads, and reads the registry of
the service then.
-/

namespace IdoProject
namespace Settings

open Java
open Storage
open Transition

/-- The click listener of the button of a row. -/
inductive OnClick where
  /-- `downloadListener.onDownloadClick` -/
  | downloadModel
  /-- `useModelListener.onUseModelClick` -/
  | useModel
  deriving DecidableEq

/-- The views of a row, and what its listener for a long click captured. -/
structure ViewHolder where
  modelName : JString := jstr "Model Name"
  modelSize : JString := jstr "0.0 GB"
  modelDescription : JString := jstr "Model description goes here."
  fileExists : Bool := false
  /-- `downloadButton` is visible. -/
  downloadButton : Bool := true
  buttonText : JString := jstr "Download"
  buttonEnabled : Bool := true
  onClick : Option OnClick := none
  /-- `cancelButton` is visible. -/
  cancelButton : Bool := false
  /-- `downloadProgressLayout` is visible. -/
  downloadProgressLayout : Bool := false
  /-- The argument of `downloadProgressBar.setProgress`. -/
  downloadProgressBar : JInt := 0
  downloadProgressText : JString := jstr "0%"
  deriving DecidableEq

namespace ViewHolder

/-- The views that tell how far a download is. -/
def showProgress (holder : ViewHolder) (progress : JInt) : ViewHolder :=
  { holder with
    downloadButton := false
    cancelButton := true
    downloadProgressLayout := true
    downloadProgressBar := progress
    downloadProgressText := jstr (toString progress.toInt) ++ jstr "%" }

/-- `bind` -/
def bind
    (holder : ViewHolder)
    (model : Model)
    (fileExists : Bool)
    (currentModelFilename : Option JString)
    (progress : Option JInt) : ViewHolder :=
  let named :=
    { holder with
      modelName := model.name
      modelSize := model.size
      modelDescription := model.description
      fileExists := fileExists }
  match progress with
  | some progress => named.showProgress progress
  | none =>
      let offered :=
        { named with
          downloadButton := true
          cancelButton := false
          downloadProgressLayout := false }
      if currentModelFilename = some model.filename then
        { offered with
          buttonText := jstr "Active"
          buttonEnabled := false
          onClick := none }
      else if fileExists then
        { offered with
          buttonText := jstr "Use Model"
          buttonEnabled := true
          onClick := some .useModel }
      else
        { offered with
          buttonText := jstr "Download"
          buttonEnabled := true
          onClick := some .downloadModel }

/-- The row tells how far a download is, or offers the button. -/
def Shows (holder : ViewHolder) : Option JInt → Prop
  | some progress =>
      holder.downloadButton = false ∧ holder.cancelButton = true ∧
        holder.downloadProgressLayout = true ∧
          holder.downloadProgressBar = progress ∧
            holder.downloadProgressText =
              jstr (toString progress.toInt) ++ jstr "%"
  | none =>
      holder.downloadButton = true ∧ holder.cancelButton = false ∧
        holder.downloadProgressLayout = false

end ViewHolder

/-- What the list has been told of a row since it was bound. -/
inductive Change where
  /-- `notifyItemChanged(position, "update_progress")` -/
  | payload
  /-- `notifyItemChanged(position)`, or `notifyDataSetChanged()`. -/
  | full
  deriving DecidableEq

/-- The activity with its list, over the service and the engine. -/
structure ModelList where
  world : World
  /-- Between `onResume` and `onPause`, while the receiver is registered. -/
  resumed : Bool := false
  /-- The broadcasts that have not reached the receiver. -/
  inbox : List Download.Broadcast := []
  /-- `downloadProgressMap` of the adapter is the registry, and not null. -/
  downloadProgressMap : Bool := false
  /-- `currentModelFilename` of the adapter. -/
  currentModelFilename : Option JString
  /-- The rows on the screen, by their position. -/
  rows : Nat → Option ViewHolder := fun _ => none
  /-- The rows that are to be bound again. -/
  changed : Nat → Option Change := fun _ => none

/-- What happens next. -/
inductive ListAction where
  /-- A step of the service or of the engine, a tap, or a confirmed deletion. -/
  | world (action : Action)
  /-- The runnable of `loadModels`. -/
  | showModels (models : List Model)
  | onResume
  | onPause
  /-- `onReceive`, for one of the broadcasts. -/
  | onReceive (index : Nat)
  /-- `onBindViewHolder`.  The list takes a holder that it has or inflates
  one. -/
  | onBindViewHolder (position : Nat) (holder : ViewHolder)
  /-- A row leaves the screen. -/
  | recycle (position : Nat)

namespace ModelList

/-- `adapter.notifyDataSetChanged()` -/
def notifyDataSetChanged (list : ModelList) : ModelList :=
  { list with changed := fun _ => some .full }

/-- `adapter.notifyItemChanged(position, …)` -/
def notifyItemChanged
    (list : ModelList)
    (position : Nat)
    (change : Change) : ModelList :=
  { list with
    changed := Function.update list.changed position
      (if list.changed position = some .full then some .full
      else some change) }

/-- `findModelPosition` -/
def findModelPosition (list : ModelList) (filename : JString) : Option Nat :=
  list.world.modelOptions.findIdx? fun model => model.filename = filename

/-- `updateCurrentModelStatus`, without the two texts above the list. -/
def updateCurrentModelStatus (list : ModelList) : ModelList :=
  { list with
    currentModelFilename :=
      list.world.engine.prefs.getCurrentModelFilename }.notifyDataSetChanged

/-- `loadModel` disables the button of the row, if the row is on the screen. -/
def disableButton (list : ModelList) (position : Nat) : ModelList :=
  { list with
    rows := Function.update list.rows position
      ((list.rows position).map fun holder =>
        { holder with buttonEnabled := false }) }

/-- The progress that the adapter finds for a file. -/
def progress (list : ModelList) (filename : JString) : Option JInt :=
  if list.downloadProgressMap then
    list.world.service.ongoingDownloads.lookup filename
  else none

/-- `refreshDownloadStatus` -/
def refreshDownloadStatus (list : ModelList) : ModelList :=
  { list with downloadProgressMap := true }.notifyDataSetChanged

/-- The receiver is registered while the activity is resumed. -/
def deliver (list : ModelList) : Option Download.Statement → ModelList
  | some (.sendBroadcast intent) =>
      if list.resumed then { list with inbox := list.inbox ++ [intent] }
      else list
  | _ => list

/-- The list after a step of the rest of the process. -/
def after (list : ModelList) (world : World) : Action → ModelList
  | .service action =>
      { list with world := world }.deliver
        (list.world.service.statement? action)
  | .engine .ui =>
      match list.world.engine.ui with
      | .store _ _ _ :: _ => { list with world := world }.updateCurrentModelStatus
      | _ => { list with world := world }
  | .loadModel position => { list with world := world }.disableButton position
  | .deleteModel position deleted =>
      match list.world.modelOptions[position]? with
      | some model =>
          if list.world.fileExists model.filename && deleted then
            let rest :=
              if list.world.engine.prefs.getCurrentModelFilename =
                  some model.filename then
                { list with world := world }.updateCurrentModelStatus
              else { list with world := world }
            rest.notifyItemChanged position .full
          else { list with world := world }
      | none => { list with world := world }
  | _ => { list with world := world }

/-- `onReceive`, with the callback of the activity. -/
def receive (list : ModelList) (intent : Download.Broadcast) : ModelList :=
  let refreshed := { list with downloadProgressMap := true }
  match list.findModelPosition intent.filename with
  | none => refreshed
  | some position =>
      match intent with
      | .progress _ _ => refreshed.notifyItemChanged position .payload
      | .complete filename =>
          { refreshed with
            world := list.world.onDownloadComplete filename }.disableButton
              position
      | .failed _ => refreshed.notifyItemChanged position .full

/-- `onBindViewHolder`.  A holder on the screen that has only been told of its
progress is kept, and its other views are left alone. -/
def bind
    (list : ModelList)
    (position : Nat)
    (model : Model)
    (holder : ViewHolder) : ViewHolder :=
  let progress := list.progress model.filename
  match list.rows position, list.changed position, progress with
  | some bound, some .payload, some progress => bound.showProgress progress
  | _, _, _ =>
      holder.bind model (list.world.fileExists model.filename)
        list.currentModelFilename progress

/-- A step of the activity on the main thread. -/
def onMain (list : ModelList) : ListAction → Option ModelList
  | .world _ => none
  | .showModels models =>
      if list.world.modelOptions = [] then
        some { list with
          world := { list.world with
            modelOptions := models } }.notifyDataSetChanged
      else none
  | .onResume =>
      if list.resumed then none
      else some { list with resumed := true }.refreshDownloadStatus
  | .onPause =>
      if list.resumed then some { list with resumed := false, inbox := [] }
      else none
  | .onReceive index =>
      list.inbox[index]?.map fun intent =>
        { list with inbox := list.inbox.eraseIdx index }.receive intent
  | .onBindViewHolder position holder =>
      list.world.modelOptions[position]?.map fun model =>
        { list with
          rows := Function.update list.rows position
            (some (list.bind position model holder))
          changed := Function.update list.changed position none }
  | .recycle position =>
      some { list with
        rows := Function.update list.rows position none
        changed := Function.update list.changed position none }

/-- One step of the process. -/
def step
    (device : Engine.Device)
    (list : ModelList) : ListAction → Option ModelList
  | .world (.onDownloadComplete _) => none
  | .world action =>
      (list.world.step device action).map fun world => list.after world action
  | action =>
      if list.world.engine.alive && !list.world.service.crashed &&
          list.world.service.main.isEmpty then
        list.onMain action
      else none

/-- The process as a machine. -/
def machine (device : Engine.Device) : Machine ModelList ListAction where
  step := step device

/-- The activity as it is created, in a process that has just started. -/
def start (disk : Download.Files) (prefs : Prefs) : ModelList where
  world := Settings.start disk prefs []
  currentModelFilename := prefs.getCurrentModelFilename

end ModelList

end Settings
end IdoProject
