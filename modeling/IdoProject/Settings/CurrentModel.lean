import IdoProject.Download.Steps
import IdoProject.Settings.Activity

/-!
# The file of the current model

`loadModel` makes a model the current one in a runnable that runs some time after
the tap, without a look at the file; `deleteModel` forgets the current model only
if it is the one deleted; a callback that was cancelled deletes its file whatever
the current model is.
-/

namespace IdoProject
namespace Settings

open Java
open Storage
open Transition

/-- A thread of `loadModel` has not ended, or its runnable has not run. -/
def Loading (engine : Engine.World) : Prop :=
  (∃ thread ∈ engine.threads,
    thread.program.isLoadModel = true ∧ thread.location ≠ .done) ∨
    engine.ui ≠ []

instance (engine : Engine.World) : Decidable (Loading engine) :=
  inferInstanceAs (Decidable ((∃ thread ∈ engine.threads,
    thread.program.isLoadModel = true ∧ thread.location ≠ .done) ∨
    engine.ui ≠ []))

/-- The model that is stored by the runnable with which the last load ends. -/
def lastStored? (engine : Engine.World) : Option Model :=
  match engine.ui with
  | [.store _ model _] =>
      if Loading { engine with ui := [] } then none else some model
  | _ => none

namespace World

/-- While the process lives and no load is in flight, the file of the current
model exists. -/
def CurrentExists (world : World) : Prop :=
  world.engine.alive = true → ¬Loading world.engine →
    ∀ model, world.engine.prefs.currentModel = some model →
      world.fileExists model.filename = true

/-- The last load in flight ends while the file of its model exists, and a
cancelled callback does not delete the file of the current model while no load
is in flight. -/
def Careful (world : World) : Action → Prop
  | .engine .ui =>
      ∀ model ∈ lastStored? world.engine,
        world.fileExists model.filename = true
  | .service (.delete id _) =>
      ¬Loading world.engine → ∀ call ∈ world.service.calls[id]?,
        world.engine.prefs.getCurrentModelFilename ≠ some call.filename
  | _ => True

instance decidableCurrentExists (world : World) :
    Decidable world.CurrentExists :=
  inferInstanceAs (Decidable (world.engine.alive = true →
    ¬Loading world.engine → ∀ model ∈ world.engine.prefs.currentModel,
      world.fileExists model.filename = true))

instance decidableCareful (world : World) :
    (action : Action) → Decidable (world.Careful action)
  | .engine .ui =>
      inferInstanceAs (Decidable (∀ model ∈ lastStored? world.engine,
        world.fileExists model.filename = true))
  | .service (.delete id _) =>
      inferInstanceAs (Decidable (¬Loading world.engine →
        ∀ call ∈ world.service.calls[id]?,
          world.engine.prefs.getCurrentModelFilename ≠ some call.filename))
  | .engine (.call _) | .engine (.thread _) | .engine (.arrive _ _)
  | .loadModel _ | .onDownloadComplete _ | .deleteModel _ _ => .isTrue trivial
  | .service (.onStartCommand _) | .service .main | .service .onDestroy
  | .service (.deleteModel _) | .service (.onFailure _)
  | .service (.onResponse _ _ _ _) | .service (.openOutput _ _)
  | .service (.read _ _) | .service (.check _) | .service (.write _ _)
  | .service (.close _ _) | .service (.callback _) => .isTrue trivial

end World

section Engines

open Engine

variable {device : Device}
variable {engine next : Engine.World}
variable {action : Engine.Action}

/-- A load stays in flight while a thread moves that is not a load or does not
end. -/
theorem Loading.goto
    {middle : Engine.World}
    {id : Nat}
    {before thread : Thread}
    {location : Location}
    (loading : Loading engine)
    (threads : middle.threads = engine.threads)
    (ui : engine.ui ≠ [] → middle.ui ≠ [])
    (found : engine.threads[id]? = some before)
    (program : thread.program = before.program)
    (moved : before.program.isLoadModel = true →
      location ≠ .done ∨ middle.ui ≠ []) :
    Loading (middle.goto id thread location) := by
  rcases loading with ⟨other, present, isLoad, running⟩ | waiting
  · obtain ⟨position, listed⟩ := List.mem_iff_getElem?.mp present
    by_cases same : position = id
    · subst same
      rw [found] at listed
      cases listed
      refine (moved isLoad).imp (fun goesOn => ?_) id
      refine ⟨{ thread with location := location }, ?_, program ▸ isLoad,
        goesOn⟩
      have within := (List.getElem?_eq_some_iff.mp found).1
      refine List.mem_iff_getElem?.mpr ⟨position, ?_⟩
      change (middle.threads.set position _)[position]? = _
      rw [threads, List.getElem?_set_self within]
    · refine Or.inl ⟨other, List.mem_iff_getElem?.mpr ⟨position, ?_⟩, isLoad,
        running⟩
      change (middle.threads.set id _)[position]? = _
      rw [threads, List.getElem?_set_ne (Ne.symm same), listed]
  · exact Or.inr (ui waiting)

/-- `loadModel` goes on behind the calls it makes. -/
theorem goesOn_of_isLoadModel
    {program : Program}
    (isLoad : program.isLoadModel = true) :
    program.afterUnload ≠ .done ∧ program.afterGetInstance ≠ .done ∧
      program.afterException ≠ .done := by
  cases program with
  | loadModel model =>
      simp [Program.afterUnload, Program.afterGetInstance,
        Program.afterException]
  | getInstance | unloadModel => cases isLoad

/-- A load in flight ends only when its runnable runs. -/
theorem loading_step
    (stepped : (Engine.machine device).step engine action = some next)
    (other : action ≠ .ui)
    (alive : next.alive = true)
    (loading : Loading engine) :
    Loading next := by
  have same (waiting : engine.ui ≠ []) : engine.ui ≠ [] := waiting
  cases effect_of_step stepped with
  | call program =>
      exact loading.imp_left fun ⟨thread, present, running⟩ =>
        ⟨thread, List.mem_append_left _ present, running⟩
  | unloadTest found =>
      refine loading.goto rfl same found rfl fun isLoad => Or.inl ?_
      split
      · simp
      · exact (goesOn_of_isLoadModel isLoad).1
  | unloading found | instantiating found | loadTest found | launching found =>
      exact loading.goto rfl same found rfl fun _ => Or.inl (by simp)
  | calculating found =>
      exact loading.goto rfl same found rfl fun _ => Or.inl (by simp)
  | clearing found =>
      exact loading.goto rfl same found rfl fun isLoad =>
        Or.inl (goesOn_of_isLoadModel isLoad).1
  | skipLoad found | marking found =>
      exact loading.goto rfl same found rfl fun isLoad =>
        Or.inl (goesOn_of_isLoadModel isLoad).2.1
  | noInstance found =>
      exact loading.goto rfl same found rfl fun isLoad =>
        Or.inl (goesOn_of_isLoadModel isLoad).2.2
  | posting found | catching found => exact Or.inr (by simp [Engine.World.goto])
  | loaded | failed | unloaded => exact loading
  | died => cases alive
  | ui => exact absurd rfl other

/-- Only runnables change the current model. -/
theorem prefs_of_step
    (stepped : (Engine.machine device).step engine action = some next)
    (other : action ≠ .ui) :
    next.prefs = engine.prefs ∧
      (next.alive = true → engine.alive = true) := by
  cases effect_of_step stepped with
  | ui => exact absurd rfl other
  | died => exact ⟨rfl, fun alive => by cases alive⟩
  | _ => exact ⟨rfl, id⟩

/-- The runnable with which the last load ends stores its model. -/
theorem lastStored_of_ui
    (ready : Ready engine)
    (stepped : (Engine.machine device).step engine .ui = some next)
    (ended : ¬Loading next) :
    ∃ model, lastStored? engine = some model ∧
      next.prefs.currentModel = some model := by
  cases effect_of_step stepped with
  | @ui runnable rest queued =>
      have finished : rest = [] := by
        by_contra waiting
        exact ended (Or.inr waiting)
      subst finished
      cases runnable with
      | showError id =>
          exact absurd (by rw [queued]; simp) (ready.silent id)
      | store id model contextSize =>
          refine ⟨model, ?_, rfl⟩
          unfold lastStored?
          rw [queued]
          exact if_neg ended

/-- The runnable that stores the last model ends the last load. -/
theorem ended_of_lastStored
    {model : Model}
    (last : lastStored? engine = some model)
    (stepped : (Engine.machine device).step engine .ui = some next) :
    ¬Loading next ∧ next.prefs.currentModel = some model ∧
      next.alive = engine.alive := by
  cases effect_of_step stepped with
  | @ui runnable rest queued =>
      unfold lastStored? at last
      split at last
      case h_1 id stored contextSize alone =>
        split at last
        case isTrue => cases last
        case isFalse ended =>
          cases last
          obtain ⟨rfl, rfl⟩ := List.cons.inj (queued.symm.trans alone)
          exact ⟨ended, rfl, rfl⟩
      case h_2 => cases last

end Engines

section Steps

variable {device : Engine.Device}
variable {world next : World}
variable {action : Action}

/-- What holds in every state of a careful run. -/
structure Consistent (world : World) : Prop where
  current : world.CurrentExists
  ready : world.engine.alive = true → Engine.Ready world.engine

/-- A step of the service removes no file but that of a cancelled callback. -/
theorem Consistent.service
    {serviceAction : Download.Action}
    {service : Download.World}
    (consistent : Consistent world)
    (careful : world.Careful (.service serviceAction))
    (other : ∀ filename, serviceAction ≠ .deleteModel filename)
    (moves : Download.Moves world.service serviceAction service) :
    Consistent { world with service := service } := by
  refine ⟨fun alive idle model current => ?_, consistent.ready⟩
  have before := consistent.current alive idle model current
  rcases Download.lookup_of_moves moves other before with present |
    ⟨id, _, call, rfl, listed, same⟩
  · exact present
  · refine absurd ?_ (careful idle call (by rw [listed]; rfl))
    have stored : world.engine.prefs.currentModel = some model := current
    rw [Prefs.getCurrentModelFilename, stored, ← same]
    rfl

/-- A step of the engine ends the last load in flight with a model whose file
exists. -/
theorem Consistent.engine
    {engineAction : Engine.Action}
    {engine : Engine.World}
    (consistent : Consistent world)
    (careful : world.Careful (.engine engineAction))
    (stepped : (Engine.machine device).step world.engine engineAction =
      some engine) :
    Consistent { world with engine := engine } := by
  refine ⟨fun alive idle model current => ?_,
    Engine.ready_step consistent.ready stepped⟩
  by_cases onUi : engineAction = .ui
  · subst onUi
    have living : world.engine.alive = true := by
      cases Engine.effect_of_step stepped with
      | ui => exact alive
    obtain ⟨stored, last, now⟩ :=
      lastStored_of_ui (consistent.ready living) stepped idle
    obtain rfl : stored = model := Option.some.inj (now.symm.trans current)
    exact careful stored last
  · obtain ⟨prefs, living⟩ := prefs_of_step stepped onUi
    have before : world.engine.prefs.currentModel = some model :=
      (congrArg Prefs.currentModel prefs).symm.trans current
    exact consistent.current (living alive)
      (fun loading => idle (loading_step stepped onUi alive loading)) model
      before

/-- A load is in flight from the tap on. -/
theorem Consistent.loadModel
    (consistent : Consistent world)
    (alive : world.engine.alive = true)
    (model : Model) :
    Consistent (world.loadModel model) := by
  refine ⟨fun _ idle => absurd (Or.inl ?_) idle,
    @Engine.ready_step ⟨id, 0, false⟩ world.engine _
      (.call (.loadModel model)) consistent.ready (if_pos alive)⟩
  exact ⟨_, List.mem_append_right _ (List.mem_singleton_self _), rfl, by
    simp [Engine.Program.entry]⟩

/-- The current model is forgotten if it is the one deleted. -/
theorem Consistent.deleteModel
    (consistent : Consistent world)
    (alive : world.engine.alive = true)
    (model : Model)
    (deleted : Bool) :
    Consistent (world.deleteModel model deleted) := by
  unfold World.deleteModel
  split
  case isFalse => exact consistent
  case isTrue =>
    dsimp only
    split
    case isTrue =>
      refine ⟨fun _ _ other current => (by cases current), fun _ => ?_⟩
      have ready := @Engine.ready_step ⟨id, 0, false⟩ world.engine _
        (.call .unloadModel) consistent.ready (if_pos alive) alive
      exact ⟨fun id thread listed => (ready.threads id thread listed).mono
        (fun present => present) fun _ present => present,
        ready.hasInstance, ready.silent⟩
    case isFalse different =>
      refine ⟨fun alive idle other current => ?_, consistent.ready⟩
      have before := consistent.current alive idle other current
      have stored : world.engine.prefs.currentModel = some other := current
      rw [Prefs.getCurrentModelFilename, stored] at different
      change ((world.service.disk.unlink model.filename).lookup
        other.filename).isSome = true
      rw [Disk.lookup_unlink_of_ne fun same => different (congrArg some same)]
      exact before

theorem Consistent.step
    (consistent : Consistent world)
    (careful : world.Careful action)
    (fired : world.step device action = some next) :
    Consistent next := by
  obtain ⟨alive, moves⟩ := moves_of_step fired
  cases moves with
  | service action service other moves =>
      exact consistent.service careful other moves
  | engine action engine stepped => exact consistent.engine careful stepped
  | loadModel position model => exact consistent.loadModel alive model
  | onDownloadComplete filename =>
      unfold World.onDownloadComplete
      split
      · exact consistent.loadModel alive _
      · exact consistent
  | deleteModel position model deleted =>
      exact consistent.deleteModel alive model deleted

/-- A step that is not careful leaves a current model without a file. -/
theorem careful_of_currentExists
    (fired : world.step device action = some next)
    (exists_ : next.CurrentExists) :
    world.Careful action := by
  obtain ⟨alive, moves⟩ := moves_of_step fired
  cases moves with
  | loadModel | onDownloadComplete | deleteModel => trivial
  | engine action engine stepped =>
      cases action with
      | call | thread | arrive => trivial
      | ui =>
          intro model last
          obtain ⟨idle, current, living⟩ := ended_of_lastStored last stepped
          exact exists_ (living.trans alive) idle model current
  | service action service other moves =>
      cases action with
      | delete id =>
          intro idle call listed same
          obtain ⟨model, current, name⟩ := Option.map_eq_some_iff.mp same
          have present := exists_ alive idle model current
          change (service.disk.lookup model.filename).isSome = true at present
          rw [name, Download.lookup_of_delete moves listed] at present
          cases present
      | _ => trivial

end Steps

section Runs

open Download (miniModel opened)

/-- In a run from a state in which the current model exists, it exists in every
state without a load in flight exactly when every step is careful. -/
theorem currentExists_iff_careful
    (device : Engine.Device)
    (disk : Download.Files)
    (prefs : Prefs)
    (modelOptions : List Model)
    (exists_ : ∀ model, prefs.currentModel = some model →
      (disk.lookup model.filename).isSome = true)
    (actions : List Action)
    {finish : World}
    (ran : (machine device).run (start disk prefs modelOptions) actions =
      some finish) :
    (machine device).Always World.CurrentExists
        (start disk prefs modelOptions) actions ↔
      (machine device).Guarded World.Careful
        (start disk prefs modelOptions) actions :=
  Machine.always_iff_guarded_of_needed
    (fun _ _ _ (consistent : Consistent _) careful fired =>
      consistent.step careful fired)
    (fun _ consistent => consistent.current)
    (fun _ _ _ _ fired exists_ => careful_of_currentExists fired exists_)
    ran ⟨fun _ _ => exists_, fun _ => Engine.ready_fresh⟩

/-- A tablet with 4 GB. -/
def tablet : Engine.Device where
  absolutePath filename := jstr "/files/" ++ filename
  totalMem := 4294967296
  dies := true

/-- A download of an empty file is completed, and the load of the model begins. -/
def downloaded : List Action :=
  List.map Action.service
    (opened miniModel [] ++ [.read 0 .endOfStream, .close 0 true] ++
      List.replicate 6 (.callback 0)) ++
    .onDownloadComplete miniModel.filename ::
      List.replicate 7 (.engine (.thread 0)) ++ [.engine (.arrive 0 {})]

/-- A download is cancelled and started again, and the second one is completed;
its model is loaded before the callback of the first one goes on. -/
def restarted : List Action :=
  List.map Action.service
    (opened miniModel [1] ++
      [.read 0 (.bytes 1),
        .onStartCommand (.cancelDownload (some miniModel.filename))] ++
      List.replicate 10 .main ++
      .onStartCommand (.download (some miniModel)) :: List.replicate 7 .main ++
      [.onResponse 1 true (some []) true, .openOutput 1 true,
        .read 1 .endOfStream, .close 1 true] ++
      List.replicate 6 (.callback 1)) ++
    .onDownloadComplete miniModel.filename ::
      List.replicate 7 (.engine (.thread 0)) ++
        [.engine (.arrive 0 {}), .engine .ui]

/-- A model is downloaded, loaded and deleted. -/
theorem currentExists_of_deleted_later :
    (machine tablet).Always World.CurrentExists
      (start Disk.empty {} [miniModel])
      (downloaded ++ [.engine .ui, .deleteModel 0 true]) := by
  obtain ⟨finish, ran⟩ := Option.isSome_iff_exists.mp
    (show ((machine tablet).run (start Disk.empty {} [miniModel])
      (downloaded ++ [.engine .ui, .deleteModel 0 true])).isSome by
        decide +kernel)
  exact (currentExists_iff_careful tablet Disk.empty {} [miniModel]
    (fun _ stored => by cases stored) _ ran).mpr (by decide +kernel)

/-- A model is deleted while it is loaded, or by the callback of a cancelled
download after it has been loaded: it is the current model all the same. -/
theorem not_currentExists_of_deleted :
    (∃ finish,
      (machine tablet).run (start Disk.empty {} [miniModel])
          (downloaded ++ [.deleteModel 0 true, .engine .ui]) = some finish ∧
        ¬finish.CurrentExists) ∧
    ∃ finish,
      (machine tablet).run (start Disk.empty {} [miniModel])
          (restarted ++ [.service (.check 0), .service (.delete 0 true)]) =
        some finish ∧
        ¬finish.CurrentExists := by
  constructor
  · obtain ⟨finish, ran, seen⟩ := Option.map_eq_some_iff.mp
      (show ((machine tablet).run (start Disk.empty {} [miniModel])
          (downloaded ++ [.deleteModel 0 true, .engine .ui])).map
          (fun finish => decide finish.CurrentExists) = some false by
        decide +kernel)
    exact ⟨finish, ran, of_decide_eq_false seen⟩
  · obtain ⟨finish, ran, seen⟩ := Option.map_eq_some_iff.mp
      (show ((machine tablet).run (start Disk.empty {} [miniModel])
          (restarted ++ [.service (.check 0), .service (.delete 0 true)])).map
          (fun finish => decide finish.CurrentExists) = some false by
        decide +kernel)
    exact ⟨finish, ran, of_decide_eq_false seen⟩

end Runs

end Settings
end IdoProject
