import IdoProject.Download.Threads
import IdoProject.Engine.Sections

/-!
# The model settings

`ModelSettingsActivity` beside the download service and the engine.  Its handlers
and the runnables of its threads run on the main thread, when that has no
statement of the service left to run; the threads of the engine and the callbacks
of the service run in between.
-/

namespace IdoProject
namespace Settings

open Java
open Storage
open Transition

/-- The activity with all it uses.  The preferences are those of the engine, the
files directory is that of the service. -/
structure World where
  service : Download.World
  engine : Engine.World
  modelOptions : List Model

/-- What happens next. -/
inductive Action where
  /-- A step of the service: an intent of `startDownload` or `cancelDownload`
  arrives, or one of its threads goes on. -/
  | service (action : Download.Action)
  /-- A step of the engine, or a runnable of a `loadModel` thread. -/
  | engine (action : Engine.Action)
  /-- `loadModel(model, position)`, from a tap. -/
  | loadModel (position : Nat)
  /-- `onDownloadComplete(filename)` -/
  | onDownloadComplete (filename : JString)
  /-- `deleteModel(model, position)`, with what `file.delete()` returns. -/
  | deleteModel (position : Nat) (deleted : Bool)

namespace World

/-- `new File(getFilesDir(), filename).exists()` -/
def fileExists (world : World) (filename : JString) : Bool :=
  (world.service.disk.lookup filename).isSome

/-- `loadModel` starts a thread. -/
def loadModel (world : World) (model : Model) : World :=
  { world with engine := world.engine.call (.loadModel model) }

/-- `onDownloadComplete` -/
def onDownloadComplete (world : World) (filename : JString) : World :=
  match world.modelOptions.find? fun model => model.filename = filename with
  | some model => world.loadModel model
  | none => world

/-- `deleteModel`.  Its call of `LLMW.unloadModel` is one of the threads of the
engine. -/
def deleteModel (world : World) (model : Model) (deleted : Bool) : World :=
  if world.fileExists model.filename && deleted then
    let service :=
      { world.service with disk := world.service.disk.unlink model.filename }
    if world.engine.prefs.getCurrentModelFilename = some model.filename then
      { world with
        service := service
        engine :=
          { world.engine.call .unloadModel with
            prefs := world.engine.prefs.clearCurrentModel } }
    else { world with service := service }
  else world

/-- A step on the main thread. -/
def onMain (world : World) (next : Option World) : Option World :=
  if world.service.main.isEmpty then next else none

/-- One step of the process. -/
def step
    (device : Engine.Device)
    (world : World)
    (action : Action) : Option World :=
  if !world.engine.alive || world.service.crashed then none
  else match action with
    | .service (.deleteModel _) => none
    | .service action =>
        (world.service.step action).map fun service =>
          { world with service := service }
    | .engine (.call (.loadModel _)) => none
    | .engine .ui =>
        world.onMain ((Engine.step device world.engine .ui).map fun engine =>
          { world with engine := engine })
    | .engine action =>
        (Engine.step device world.engine action).map fun engine =>
          { world with engine := engine }
    | .loadModel position =>
        world.onMain (world.modelOptions[position]?.map world.loadModel)
    | .onDownloadComplete filename =>
        world.onMain
          (if .complete filename ∈ world.service.sent then
            some (world.onDownloadComplete filename)
          else none)
    | .deleteModel position deleted =>
        world.onMain (world.modelOptions[position]?.map fun model =>
          world.deleteModel model deleted)

end World

/-- The process as a machine. -/
def machine (device : Engine.Device) : Machine World Action where
  step := World.step device

/-- The process as it starts. -/
def start (disk : Download.Files) (prefs : Prefs) (modelOptions : List Model) :
    World where
  service := Download.start disk
  engine := Engine.World.fresh prefs
  modelOptions := modelOptions

/-! ## What a step does -/

/-- The steps.  A death of the process is a step of the service or of the engine
like any other. -/
inductive Moves (device : Engine.Device) (world : World) : Action → World → Prop
  | service (action : Download.Action) (next : Download.World)
      (other : ∀ filename, action ≠ .deleteModel filename)
      (moves : Download.Moves world.service action next) :
      Moves device world (.service action) { world with service := next }
  | engine (action : Engine.Action) (next : Engine.World)
      (stepped : (Engine.machine device).step world.engine action = some next) :
      Moves device world (.engine action) { world with engine := next }
  | loadModel (position : Nat) (model : Model) :
      Moves device world (.loadModel position) (world.loadModel model)
  | onDownloadComplete (filename : JString) :
      Moves device world (.onDownloadComplete filename)
        (world.onDownloadComplete filename)
  | deleteModel (position : Nat) (model : Model) (deleted : Bool) :
      Moves device world (.deleteModel position deleted)
        (world.deleteModel model deleted)

section Inversion

variable {device : Engine.Device}
variable {world next : World}
variable {action : Action}

theorem eq_some_of_onMain
    {outcome : Option World}
    (fired : world.onMain outcome = some next) :
    outcome = some next := by
  unfold World.onMain at fired
  split at fired
  · exact fired
  · cases fired

theorem moves_of_step
    (fired : world.step device action = some next) :
    world.engine.alive = true ∧ Moves device world action next := by
  unfold World.step at fired
  split at fired
  case isTrue => cases fired
  case isFalse living =>
    rw [Bool.not_eq_true, Bool.or_eq_false_iff, Bool.not_eq_false'] at living
    refine ⟨living.1, ?_⟩
    split at fired
    case h_1 => cases fired
    case h_2 action other =>
      obtain ⟨service, stepped, rfl⟩ := Option.map_eq_some_iff.mp fired
      exact .service action service other (Download.moves_of_step stepped).2
    case h_3 => cases fired
    case h_4 =>
      obtain ⟨engine, stepped, rfl⟩ :=
        Option.map_eq_some_iff.mp (eq_some_of_onMain fired)
      exact .engine .ui engine stepped
    case h_5 action _ _ =>
      obtain ⟨engine, stepped, rfl⟩ := Option.map_eq_some_iff.mp fired
      exact .engine action engine stepped
    case h_6 position =>
      obtain ⟨model, _, rfl⟩ :=
        Option.map_eq_some_iff.mp (eq_some_of_onMain fired)
      exact .loadModel position model
    case h_7 filename =>
      have reached := eq_some_of_onMain fired
      split at reached <;> cases reached
      exact .onDownloadComplete filename
    case h_8 position deleted =>
      obtain ⟨model, _, rfl⟩ :=
        Option.map_eq_some_iff.mp (eq_some_of_onMain fired)
      exact .deleteModel position model deleted

end Inversion

end Settings
end IdoProject
