import IdoProject.Settings.CurrentModel
import IdoProject.Settings.ModelList

/-!
# The rows and the registry

A row of the list of models shows what the registry of the service said when it
was bound.  The service broadcasts what it writes, the receiver has the row bound
again or starts a load, and the end of a load has all rows bound again.  So a row
of the resumed activity that does not show the registry is always waiting for
something that will have it bound.
-/

namespace IdoProject
namespace Settings

open Java
open Storage
open Transition

namespace ViewHolder

theorem shows_showProgress
    (holder : ViewHolder)
    (progress : JInt) :
    (holder.showProgress progress).Shows (some progress) :=
  ⟨rfl, rfl, rfl, rfl, rfl⟩

theorem shows_bind
    (holder : ViewHolder)
    (model : Model)
    (fileExists : Bool)
    (currentModelFilename : Option JString)
    (progress : Option JInt) :
    (holder.bind model fileExists currentModelFilename progress).Shows
      progress := by
  cases progress with
  | some progress => exact shows_showProgress _ progress
  | none =>
      unfold bind
      dsimp only
      split
      · exact ⟨rfl, rfl, rfl⟩
      · split <;> exact ⟨rfl, rfl, rfl⟩

end ViewHolder

namespace ModelList

variable {device : Engine.Device}
variable {list next : ModelList}
variable {position : Nat}
variable {filename : JString}

/-- Something is on its way that will have the row of the file bound again: the
list has been told, a broadcast about the file is to be sent or to be received,
or a load is in flight. -/
def Awaits
    (list : ModelList)
    (position : Nat)
    (filename : JString) : Prop :=
  list.changed position ≠ none ∨
    list.world.service.shared.Owes Download.effects filename ∨
    (∃ intent ∈ list.inbox, intent.filename = filename) ∨
    Loading list.world.engine

/-- A row shows the registry or waits to be bound.  If a file is listed twice,
this is about its first row. -/
def RowKept (list : ModelList) (position : Nat) : Prop :=
  ∀ holder model, list.rows position = some holder →
    list.world.modelOptions[position]? = some model →
    list.findModelPosition model.filename = some position →
      holder.Shows
          (list.world.service.ongoingDownloads.lookup model.filename) ∨
        list.Awaits position model.filename

/-- Nothing is on its way to the list: the service has nothing left to send,
every broadcast has been received, and no load is in flight. -/
def AtRest (list : ModelList) : Prop :=
  list.world.service.main = [] ∧
    (∀ call ∈ list.world.service.calls, call.program = []) ∧
    list.inbox = [] ∧ ¬Loading list.world.engine

instance (list : ModelList) : Decidable list.AtRest :=
  inferInstanceAs (Decidable (_ ∧ (∀ call ∈ _, Download.Call.program call = []) ∧
    _ ∧ ¬_))

/-- At rest, a row that is not to be bound waits for nothing. -/
theorem AtRest.not_awaits
    (rest : list.AtRest)
    (untold : list.changed position = none) :
    ¬list.Awaits position filename := by
  obtain ⟨main, calls, received, ended⟩ := rest
  rintro (told | ⟨thread, statement, present, -⟩ | ⟨intent, present, -⟩ | loading)
  · exact told untold
  · cases thread with
    | none =>
        change statement ∈ list.world.service.main at present
        rw [main] at present
        cases present
    | some id =>
        change statement ∈ list.world.service.callProgram id at present
        unfold Download.World.callProgram at present
        cases listed : list.world.service.calls[id]? with
        | none =>
            rw [listed] at present
            cases present
        | some call =>
            have ran_out := calls call (List.mem_of_getElem? listed)
            rw [listed, Option.map_some, Option.getD_some, ran_out] at present
            cases present
  · rw [received] at present
    cases present
  · exact ended loading

theorem rowKept_of_awaits
    (awaits : ∀ filename, list.Awaits position filename) :
    list.RowKept position :=
  fun _ model _ _ _ => Or.inr (awaits model.filename)

/-- What a step leaves of a list that is not told to bind its rows again. -/
structure Later (list next : ModelList) : Prop where
  rows : ∀ position holder, next.rows position = some holder →
    ∃ before, list.rows position = some before ∧
      ∀ progress, before.Shows progress → holder.Shows progress
  modelOptions : next.world.modelOptions = list.world.modelOptions
  awaits : ∀ position filename, list.Awaits position filename →
    next.Awaits position filename
  registry : ∀ position filename,
    next.world.service.ongoingDownloads.lookup filename =
        list.world.service.ongoingDownloads.lookup filename ∨
      next.Awaits position filename

theorem Later.rowKept
    (later : Later list next)
    (kept : list.RowKept position) :
    next.RowKept position := by
  intro holder model bound listed first
  obtain ⟨before, boundBefore, shows⟩ := later.rows position holder bound
  rw [findModelPosition, later.modelOptions] at first
  rw [later.modelOptions] at listed
  rcases kept before model boundBefore listed first with shown | awaits
  · rcases later.registry position model.filename with same | awaits
    · rw [same]
      exact Or.inl (shows _ shown)
    · exact Or.inr awaits
  · exact Or.inr (later.awaits position model.filename awaits)

theorem Later.trans
    {last : ModelList}
    (first : Later list next)
    (second : Later next last) :
    Later list last where
  rows position holder bound := by
    obtain ⟨middle, boundMiddle, shows⟩ := second.rows position holder bound
    obtain ⟨before, boundBefore, showsBefore⟩ :=
      first.rows position middle boundMiddle
    exact ⟨before, boundBefore, fun progress shown =>
      shows progress (showsBefore progress shown)⟩
  modelOptions := second.modelOptions.trans first.modelOptions
  awaits position filename awaits :=
    second.awaits position filename (first.awaits position filename awaits)
  registry position filename := by
    rcases second.registry position filename with same | awaits
    · rw [same]
      exact (first.registry position filename).imp_right
        (second.awaits position filename)
    · exact Or.inr awaits

section Changes

/-- Disabling a button leaves what the row shows. -/
theorem later_disableButton :
    Later list (list.disableButton position) where
  rows other holder bound := by
    unfold disableButton at bound
    dsimp only at bound
    by_cases same : other = position
    · rw [same, Function.update_self] at bound
      obtain ⟨before, boundBefore, rfl⟩ := Option.map_eq_some_iff.mp bound
      refine ⟨before, same ▸ boundBefore, fun progress shown => ?_⟩
      cases progress <;> exact shown
    · rw [Function.update_of_ne same] at bound
      exact ⟨holder, bound, fun _ shown => shown⟩
  modelOptions := rfl
  awaits _ _ awaits := awaits
  registry _ _ := Or.inl rfl

/-- The list remembers that a row is to be bound. -/
theorem later_notifyItemChanged
    {change : Change} :
    Later list (list.notifyItemChanged position change) where
  rows _ holder bound := ⟨holder, bound, fun _ shown => shown⟩
  modelOptions := rfl
  awaits other _ awaits := by
    refine awaits.imp_left fun told => ?_
    unfold notifyItemChanged
    dsimp only
    by_cases same : other = position
    · rw [same, Function.update_self]
      split <;> exact Option.some_ne_none _
    · rwa [Function.update_of_ne same]
  registry _ _ := Or.inl rfl

theorem awaits_notifyItemChanged
    {change : Change} :
    (list.notifyItemChanged position change).Awaits position filename := by
  left
  unfold notifyItemChanged
  dsimp only
  rw [Function.update_self]
  split <;> exact Option.some_ne_none _

theorem awaits_notifyDataSetChanged :
    list.notifyDataSetChanged.Awaits position filename :=
  Or.inl (Option.some_ne_none _)

/-- A load is in flight from its beginning. -/
theorem loading_loadModel
    (world : World)
    (model : Model) :
    Loading (world.loadModel model).engine := by
  refine Or.inl ⟨_, List.mem_append_right _ (List.mem_singleton_self _), rfl, ?_⟩
  simp [Engine.Program.entry]

/-- A completed download of a listed file begins a load. -/
theorem loading_onDownloadComplete
    (found : list.findModelPosition filename = some position) :
    Loading (list.world.onDownloadComplete filename).engine := by
  unfold World.onDownloadComplete
  split
  case h_1 model _ => exact loading_loadModel list.world model
  case h_2 absent =>
    obtain ⟨below, matches_, -⟩ :=
      List.findIdx?_eq_some_iff_getElem.mp found
    have never := List.find?_eq_none.mp absent _ (List.getElem_mem below)
    exact absurd matches_ never

end Changes

section Steps

/-- What holds of the list in every run. -/
structure Kept (list : ModelList) : Prop where
  announced : list.world.service.shared.Announced Download.effects
  ready : list.world.engine.alive = true → Engine.Ready list.world.engine
  mapped : list.resumed = true → list.downloadProgressMap = true
  rows : list.world.engine.alive = true → list.resumed = true →
    ∀ position, list.RowKept position

/-- A delivery changes the inbox alone, which has what the statement sends. -/
structure Delivered
    (list : ModelList)
    (statement : Option Download.Statement)
    (next : ModelList) : Prop where
  world : next.world = list.world
  resumed : next.resumed = list.resumed
  map : next.downloadProgressMap = list.downloadProgressMap
  rows : next.rows = list.rows
  changed : next.changed = list.changed
  inbox : ∀ intent ∈ list.inbox, intent ∈ next.inbox
  sent : ∀ intent, statement = some (.sendBroadcast intent) →
    list.resumed = true → intent ∈ next.inbox

theorem delivered_deliver
    (list : ModelList)
    (statement : Option Download.Statement) :
    Delivered list statement (list.deliver statement) := by
  unfold deliver
  split
  case h_1 intent =>
    split
    case isTrue =>
      refine ⟨rfl, rfl, rfl, rfl, rfl, fun other present =>
        List.mem_append_left _ present, fun other same _ => ?_⟩
      cases same
      exact List.mem_append_right _ (List.mem_singleton_self intent)
    case isFalse paused =>
      exact ⟨rfl, rfl, rfl, rfl, rfl, fun _ present => present,
        fun _ _ resumed => absurd resumed paused⟩
  case h_2 statement other =>
    exact ⟨rfl, rfl, rfl, rfl, rfl, fun _ present => present,
      fun intent same _ => absurd same (other intent)⟩

/-- A step of the service changes the progress of a file with a broadcast still
to be sent, and what it sends goes to the receiver. -/
theorem Kept.service
    {action : Download.Action}
    {service : Download.World}
    (kept : Kept list)
    (moves : Download.Moves list.world.service action service) :
    Kept ({ list with world := { list.world with service := service } }.deliver
      (list.world.service.statement? action)) := by
  have delivered := delivered_deliver
    { list with world := { list.world with service := service } }
    (list.world.service.statement? action)
  generalize ModelList.deliver _ _ = next at delivered
  have later (resumed : list.resumed = true) : Later list next :=
    { rows := fun position holder bound =>
        ⟨holder, delivered.rows ▸ bound, fun _ shown => shown⟩
      modelOptions := by rw [delivered.world]
      awaits := by
        intro position filename awaits
        unfold Awaits
        rw [delivered.changed, delivered.world]
        rcases awaits with told | owes | ⟨intent, present, named⟩ | loading
        · exact Or.inl told
        · rcases Download.owes_or_sends_of_moves moves owes with
            still | ⟨intent, sends, named⟩
          · exact Or.inr (Or.inl still)
          · exact Or.inr (Or.inr (Or.inl
              ⟨intent, delivered.sent intent sends resumed, named⟩))
        · exact Or.inr (Or.inr (Or.inl
            ⟨intent, delivered.inbox intent present, named⟩))
        · exact Or.inr (Or.inr (Or.inr loading))
      registry := by
        intro position filename
        unfold Awaits
        rw [delivered.world]
        exact (Download.lookup_or_owes_of_moves moves kept.announced
          filename).imp_right fun owes => Or.inr (Or.inl owes) }
  exact
    { announced := by
        rw [delivered.world]
        exact Download.announced_of_moves moves kept.announced
      ready := by
        rw [delivered.world]
        exact kept.ready
      mapped := by
        rw [delivered.resumed, delivered.map]
        exact kept.mapped
      rows := by
        rw [delivered.resumed, delivered.world]
        exact fun alive resumed position =>
          (later resumed).rowKept (kept.rows alive resumed position) }

theorem Kept.notifyDataSetChanged
    (announced : list.world.service.shared.Announced Download.effects)
    (ready : list.world.engine.alive = true → Engine.Ready list.world.engine)
    (mapped : list.resumed = true → list.downloadProgressMap = true) :
    Kept list.notifyDataSetChanged where
  announced := announced
  ready := ready
  mapped := mapped
  rows _ _ _ := rowKept_of_awaits fun _ => awaits_notifyDataSetChanged

/-- A list with another process over the same threads of the service, in which
a load is in flight still. -/
theorem Later.of_world
    {world : World}
    (service : world.service.shared = list.world.service.shared)
    (modelOptions : world.modelOptions = list.world.modelOptions)
    (loading : Loading list.world.engine → Loading world.engine) :
    Later list { list with world := world } where
  rows _ holder bound := ⟨holder, bound, fun _ shown => shown⟩
  modelOptions := modelOptions
  awaits _ _ := by
    unfold Awaits
    rw [service]
    exact Or.imp_right (Or.imp_right (Or.imp_right loading))
  registry _ filename :=
    Or.inl (congrArg (fun shared => shared.values filename) service)

/-- A step of the engine leaves a load in flight, or its end has all rows bound
again. -/
theorem Kept.engine
    {action : Engine.Action}
    {engine : Engine.World}
    (kept : Kept list)
    (alive : list.world.engine.alive = true)
    (stepped : (Engine.machine device).step list.world.engine action =
      some engine) :
    Kept (list.after { list.world with engine := engine } (.engine action)) := by
  have ready := Engine.ready_step kept.ready stepped
  by_cases onUi : action = .ui
  · subst onUi
    cases Engine.effect_of_step stepped with
    | @ui runnable rest queued =>
        cases runnable with
        | showError id =>
            refine absurd ?_ ((kept.ready alive).silent id)
            rw [queued]
            exact List.mem_append_left _ List.mem_cons_self
        | store id model contextSize =>
            unfold after
            dsimp only
            rw [queued]
            exact .notifyDataSetChanged kept.announced ready kept.mapped
  · have same : list.after { list.world with engine := engine }
        (.engine action) =
          { list with world := { list.world with engine := engine } } := by
      cases action with
      | ui => exact absurd rfl onUi
      | call | thread | arrive => rfl
    rw [same]
    refine ⟨kept.announced, ready, kept.mapped, fun living resumed position => ?_⟩
    refine Later.rowKept (.of_world rfl rfl ?_) (kept.rows alive resumed position)
    exact loading_step stepped onUi living

theorem Kept.loadModel
    (kept : Kept list)
    (alive : list.world.engine.alive = true)
    (model : Model) :
    Kept { list with world := list.world.loadModel model } where
  announced := kept.announced
  ready := @Engine.ready_step ⟨id, 0, false⟩ list.world.engine _
    (.call (.loadModel model)) kept.ready (if_pos alive)
  mapped := kept.mapped
  rows _ _ _ := rowKept_of_awaits fun _ =>
    Or.inr (Or.inr (Or.inr (loading_loadModel list.world model)))

/-- A deletion leaves the registry and the loads alone. -/
theorem Kept.deleteModel
    (kept : Kept list)
    (alive : list.world.engine.alive = true)
    (model : Model)
    (deleted : Bool) :
    Kept { list with world := list.world.deleteModel model deleted } := by
  have ready := @Engine.ready_step ⟨id, 0, false⟩ list.world.engine _
    (.call .unloadModel) kept.ready (if_pos alive) alive
  unfold World.deleteModel
  split
  case isFalse => exact kept
  case isTrue =>
    dsimp only
    split
    case isTrue =>
      refine ⟨kept.announced, fun _ => ?_, kept.mapped, fun _ resumed position => ?_⟩
      · exact ⟨fun id thread listed => (ready.threads id thread listed).mono
          (fun present => present) fun _ present => present,
          ready.hasInstance, ready.silent⟩
      · refine Later.rowKept (.of_world rfl rfl fun loading => ?_)
          (kept.rows alive resumed position)
        exact loading.imp_left fun ⟨thread, present, running⟩ =>
          ⟨thread, List.mem_append_left _ present, running⟩
    case isFalse =>
      exact ⟨kept.announced, kept.ready, kept.mapped, fun _ resumed position =>
        kept.rows alive resumed position⟩

/-- A list with the same process and the same receiver. -/
theorem Kept.later
    (kept : Kept list)
    (later : Later list next)
    (world : next.world = list.world)
    (resumed : next.resumed = list.resumed)
    (map : next.downloadProgressMap = list.downloadProgressMap) :
    Kept next where
  announced := world ▸ kept.announced
  ready := world ▸ kept.ready
  mapped on := map ▸ kept.mapped (resumed ▸ on)
  rows alive on position :=
    later.rowKept (kept.rows (world ▸ alive) (resumed ▸ on) position)

/-- Taking a broadcast from the inbox leaves the rows of other files alone. -/
theorem awaits_erase
    {index : Nat}
    {intent : Download.Broadcast}
    (found : list.inbox[index]? = some intent)
    (other : intent.filename ≠ filename)
    (awaits : list.Awaits position filename) :
    Awaits { list with inbox := list.inbox.eraseIdx index } position
      filename := by
  rcases awaits with told | owes | ⟨kept, present, named⟩ | loading
  · exact Or.inl told
  · exact Or.inr (Or.inl owes)
  · refine Or.inr (Or.inr (Or.inl ⟨kept, ?_, named⟩))
    obtain ⟨place, within, here⟩ := List.getElem_of_mem present
    refine List.mem_eraseIdx_iff_getElem.mpr ⟨place, within, ?_, here⟩
    rintro rfl
    rw [List.getElem?_eq_getElem within, here] at found
    exact other (Option.some.inj found ▸ named)
  · exact Or.inr (Or.inr (Or.inr loading))

/-- A completed download keeps the rows, all of which wait for the load. -/
theorem Kept.onDownloadComplete
    (announced : list.world.service.shared.Announced Download.effects)
    (ready : list.world.engine.alive = true → Engine.Ready list.world.engine)
    (mapped : list.downloadProgressMap = true)
    (alive : list.world.engine.alive = true)
    (found : list.findModelPosition filename = some position) :
    Kept { list with world := list.world.onDownloadComplete filename } := by
  refine ⟨?_, ?_, fun _ => mapped, fun _ _ _ => rowKept_of_awaits fun _ =>
    Or.inr (Or.inr (Or.inr (loading_onDownloadComplete found)))⟩
  · unfold World.onDownloadComplete
    split <;> exact announced
  · unfold World.onDownloadComplete
    split
    case h_1 model _ =>
      exact @Engine.ready_step ⟨id, 0, false⟩ list.world.engine _
        (.call (.loadModel model)) ready (if_pos alive)
    case h_2 => exact ready

/-- A broadcast that is received has the row of its file bound again, now or at
the end of a load. -/
theorem Kept.receive
    (kept : Kept list)
    (alive : list.world.engine.alive = true)
    {index : Nat}
    {intent : Download.Broadcast}
    (found : list.inbox[index]? = some intent) :
    Kept ({ list with inbox := list.inbox.eraseIdx index }.receive intent) := by
  -- The rows of the other files are as they were.
  have others (on : list.resumed = true) (position : Nat)
      {holder : ViewHolder} {model : Model}
      (bound : list.rows position = some holder)
      (listed : list.world.modelOptions[position]? = some model)
      (first : list.findModelPosition model.filename = some position)
      (other : intent.filename ≠ model.filename) :=
    (kept.rows alive on position holder model bound listed first).imp_right
      (awaits_erase found other)
  unfold ModelList.receive
  dsimp only
  split
  case h_1 absent =>
    refine ⟨kept.announced, kept.ready, fun _ => rfl, fun _ on position => ?_⟩
    intro holder model bound listed first
    refine others on position bound listed first fun same => ?_
    have missing : list.findModelPosition model.filename = none :=
      same ▸ absent
    exact absurd (first.symm.trans missing) (Option.some_ne_none position)
  case h_2 place hit =>
    -- The row of the file is told to be bound.
    have told (change : Change) :
        Kept (notifyItemChanged { list with
          inbox := list.inbox.eraseIdx index
          downloadProgressMap := true } place change) := by
      refine ⟨kept.announced, kept.ready, fun _ => rfl, fun _ on position => ?_⟩
      intro holder model bound listed first
      by_cases same : intent.filename = model.filename
      · have here : list.findModelPosition model.filename = some place :=
          same ▸ hit
        obtain rfl : position = place :=
          Option.some.inj (first.symm.trans here)
        exact Or.inr awaits_notifyItemChanged
      · exact (others on position bound listed first same).imp_right
          (later_notifyItemChanged.awaits position model.filename)
    cases intent with
    | progress => exact told .payload
    | failed => exact told .full
    | complete filename =>
        have completed := @Kept.onDownloadComplete
          { list with
            inbox := list.inbox.eraseIdx index
            downloadProgressMap := true } place filename kept.announced
          kept.ready rfl alive hit
        exact completed.later later_disableButton rfl rfl rfl

/-- Another row is left alone by what is done to one. -/
theorem RowKept.setRow
    {other : Nat}
    {row : Option ViewHolder}
    (different : other ≠ position)
    (kept : list.RowKept other) :
    RowKept { list with
      rows := Function.update list.rows position row
      changed := Function.update list.changed position none } other := by
  intro holder model bound listed first
  change Function.update _ _ _ _ = _ at bound
  rw [Function.update_of_ne different] at bound
  refine (kept holder model bound listed first).imp_right ?_
  refine Or.imp_left fun told => ?_
  change Function.update _ _ _ _ ≠ _
  rwa [Function.update_of_ne different]

/-- A row that is bound shows the registry. -/
theorem Kept.bind
    (kept : Kept list)
    {model : Model}
    (listed : list.world.modelOptions[position]? = some model)
    (holder : ViewHolder) :
    Kept { list with
      rows := Function.update list.rows position
        (some (list.bind position model holder))
      changed := Function.update list.changed position none } := by
  refine ⟨kept.announced, kept.ready, kept.mapped, fun alive resumed other => ?_⟩
  by_cases same : other = position
  · subst same
    intro shown found bound also first
    change Function.update _ _ _ _ = _ at bound
    rw [Function.update_self] at bound
    cases bound
    obtain rfl : model = found := Option.some.inj (listed.symm.trans also)
    left
    have progress : list.progress model.filename =
        list.world.service.ongoingDownloads.lookup model.filename :=
      if_pos (kept.mapped resumed)
    unfold bind
    dsimp only
    rw [progress]
    split
    case h_1 bound value _ _ read =>
      rw [read]
      exact ViewHolder.shows_showProgress bound value
    case h_2 => exact ViewHolder.shows_bind _ _ _ _ _
  · exact (kept.rows alive resumed other).setRow same

/-- A step of the activity keeps the rows. -/
theorem Kept.onMain
    {action : ListAction}
    (kept : Kept list)
    (alive : list.world.engine.alive = true)
    (fired : list.onMain action = some next) :
    Kept next := by
  cases action with
  | world action => cases fired
  | showModels models =>
      unfold ModelList.onMain at fired
      dsimp only at fired
      split at fired <;> cases fired
      exact .notifyDataSetChanged kept.announced kept.ready kept.mapped
  | onResume =>
      unfold ModelList.onMain at fired
      dsimp only at fired
      split at fired <;> cases fired
      exact .notifyDataSetChanged kept.announced kept.ready fun _ => rfl
  | onPause =>
      unfold ModelList.onMain at fired
      dsimp only at fired
      split at fired <;> cases fired
      exact ⟨kept.announced, kept.ready, fun on => absurd on Bool.false_ne_true,
        fun _ on => absurd on Bool.false_ne_true⟩
  | onReceive index =>
      obtain ⟨intent, found, rfl⟩ := Option.map_eq_some_iff.mp fired
      exact kept.receive alive found
  | onBindViewHolder position holder =>
      obtain ⟨model, listed, rfl⟩ := Option.map_eq_some_iff.mp fired
      exact kept.bind listed holder
  | recycle position =>
      cases fired
      refine ⟨kept.announced, kept.ready, kept.mapped, fun alive resumed other => ?_⟩
      by_cases same : other = position
      · subst same
        intro holder model bound
        change Function.update _ _ _ _ = _ at bound
        rw [Function.update_self] at bound
        cases bound
      · exact (kept.rows alive resumed other).setRow same

/-- Every step keeps the rows. -/
theorem Kept.step
    {action : ListAction}
    (kept : Kept list)
    (fired : list.step device action = some next) :
    Kept next := by
  unfold ModelList.step at fired
  split at fired
  case h_1 => cases fired
  case h_2 action notComplete =>
    obtain ⟨world, stepped, rfl⟩ := Option.map_eq_some_iff.mp fired
    obtain ⟨alive, moves⟩ := moves_of_step stepped
    cases moves with
    | service action service other moves => exact kept.service moves
    | engine action engine ran => exact kept.engine alive ran
    | loadModel position model =>
        exact (kept.loadModel alive model).later later_disableButton rfl rfl rfl
    | onDownloadComplete filename => exact absurd rfl (notComplete filename)
    | deleteModel position model deleted =>
        have afterwards := kept.deleteModel alive model deleted
        unfold after
        dsimp only
        split
        case h_1 =>
          split
          case isTrue =>
            split
            case isTrue =>
              have updated : Kept (updateCurrentModelStatus { list with
                  world := list.world.deleteModel model deleted }) :=
                .notifyDataSetChanged afterwards.announced afterwards.ready
                  afterwards.mapped
              exact updated.later later_notifyItemChanged rfl rfl rfl
            case isFalse =>
              exact afterwards.later later_notifyItemChanged rfl rfl rfl
          case isFalse => exact afterwards
        case h_2 => exact afterwards
  case h_3 =>
    split at fired
    case isTrue ready =>
      rw [Bool.and_eq_true, Bool.and_eq_true] at ready
      exact kept.onMain ready.1.1 fired
    case isFalse => cases fired

end Steps

section Runs

open Download (miniModel opened)

/-- In every run, every row of the resumed activity shows what the registry of
the service says about its file or waits to be bound, and at rest it shows the
registry if the list has not been told otherwise. -/
theorem rows_show_registry
    (device : Engine.Device)
    (disk : Download.Files)
    (prefs : Prefs)
    (actions : List ListAction)
    (ran : (machine device).run (start disk prefs) actions = some list)
    (alive : list.world.engine.alive = true)
    (resumed : list.resumed = true) :
    ∀ position, list.RowKept position ∧
      (list.AtRest → list.changed position = none →
        ∀ holder model, list.rows position = some holder →
          list.world.modelOptions[position]? = some model →
          list.findModelPosition model.filename = some position →
            holder.Shows
              (list.world.service.ongoingDownloads.lookup model.filename)) := by
  have kept : Kept list := Machine.run_invariant
    (fun _ _ _ (kept : Kept _) fired => kept.step fired) ran
    { announced := by
        rintro (_ | id)
        · trivial
        · trivial
      ready := fun _ => Engine.ready_fresh
      mapped := fun on => absurd on Bool.false_ne_true
      rows := fun _ _ _ _ _ bound => by cases bound }
  intro position
  refine ⟨kept.rows alive resumed position, ?_⟩
  intro rest untold holder model bound listed first
  exact (kept.rows alive resumed position holder model bound listed
    first).resolve_right (rest.not_awaits untold)

/-- A download of an empty file while its row is on the screen: the row is bound
again for the progress, and at the end of the load. -/
def watched : List ListAction :=
  .showModels [miniModel] :: .onResume :: .onBindViewHolder 0 {} ::
    ((opened miniModel []).map fun action => .world (.service action)) ++
    [.onReceive 0, .onBindViewHolder 0 {},
      .world (.service (.read 0 .endOfStream)),
      .world (.service (.close 0 true))] ++
    List.replicate 7 (.world (.service (.callback 0))) ++
    .onReceive 0 :: List.replicate 7 (.world (.engine (.thread 0))) ++
    [.world (.engine (.arrive 0 {})), .world (.engine .ui),
      .onBindViewHolder 0 {}]

/-- The row offers no download any more. -/
theorem rows_show_completed_download :
    ∃ finish holder,
      (machine tablet).run (start Disk.empty {}) watched = some finish ∧
      finish.rows 0 = some holder ∧ holder.buttonText = jstr "Active" ∧
      holder.Shows none := by
  obtain ⟨finish, ran, seen⟩ := Option.map_eq_some_iff.mp
    (show ((machine tablet).run (start Disk.empty {}) watched).map (fun finish =>
        decide (finish.world.engine.alive = true ∧ finish.resumed = true ∧
          finish.AtRest ∧ finish.changed 0 = none ∧
          (finish.rows 0).map ViewHolder.buttonText = some (jstr "Active") ∧
          finish.world.modelOptions = [miniModel] ∧
          finish.findModelPosition miniModel.filename = some 0 ∧
          (finish.world.service.ongoingDownloads.lookup
            miniModel.filename).isNone = true)) = some true by
      decide +kernel)
  rw [decide_eq_true_eq] at seen
  obtain ⟨alive, resumed, rest, untold, active, models, first, ended⟩ := seen
  obtain ⟨holder, bound, text⟩ := Option.map_eq_some_iff.mp active
  have shown := (rows_show_registry tablet Disk.empty {} watched ran alive
    resumed 0).2 rest untold holder miniModel bound (by rw [models]; rfl) first
  rw [Option.isNone_iff_eq_none.mp ended] at shown
  exact ⟨finish, holder, ran, bound, text, shown⟩

end Runs

end ModelList

end Settings
end IdoProject
