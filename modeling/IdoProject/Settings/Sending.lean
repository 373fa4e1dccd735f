import IdoProject.Settings.CurrentModel
import IdoProject.Settings.Navigation

/-!
# Sending with an engine

`AiActivity.sendMessage` asks whether the process has an engine, `generate` uses
the one of its view model.  `onResume` calls `initializeModel` only while no
engine is loaded, so the button can be enabled on a view model that has looked
for an engine when there was none and never since.
-/

namespace IdoProject
namespace Settings

open Transition

namespace Screens

/-- A click on `btnSend` of the activity passes the test of `isModelLoaded`. -/
def CanSend (screens : Screens) (index : Nat) : Prop :=
  screens.idle = true ∧ screens.resumed = some index ∧
    ((screens.activityAt index).sendEnabled ||
      (screens.activityAt index).debugShown) = true ∧
    screens.isLoaded = true

/-- No `null` has been dereferenced, and a click would not do it. -/
def SendHasEngine (screens : Screens) : Prop :=
  screens.crashed = false ∧
    ∀ index, screens.CanSend index → (screens.activityAt index).llmw = true

/-- `refreshModelState` on the screen finds an engine loaded only for a view
model that has found one, or the file of the saved model, before. -/
def EngineFound (screens : Screens) : Event → Prop
  | .main =>
      ∀ index ∈ screens.resumed,
        screens.main = some (index, .refreshModelState) →
          screens.isLoaded = true →
            (screens.activityAt index).engineFound = true
  | _ => True

instance (screens : Screens) (index : Nat) :
    Decidable (screens.CanSend index) :=
  inferInstanceAs (Decidable (screens.idle = true ∧
    screens.resumed = some index ∧
    ((screens.activityAt index).sendEnabled ||
      (screens.activityAt index).debugShown) = true ∧
    screens.isLoaded = true))

instance decidableEngineFound (screens : Screens) :
    (event : Event) → Decidable (screens.EngineFound event)
  | .main =>
      inferInstanceAs (Decidable (∀ index ∈ screens.resumed,
        screens.main = some (index, .refreshModelState) →
          screens.isLoaded = true →
            (screens.activityAt index).engineFound = true))
  | .settings _ | .onCreate | .recreate _ | .onActivityResult _
  | .onResume _ | .onPause | .resumeModelSettings | .pauseModelSettings
  | .showDebugOptions | .closeDebugOptions | .sendMessage
  | .finalizeGeneration _ | .onLogout | .restart => .isTrue trivial

/-- The callback of an activity that the main thread has to go on with. -/
def pending (screens : Screens) (index : Nat) : Option Statement :=
  screens.main.bind fun (owner, statement) =>
    if owner = index then some statement else none

/-- A callback is that of one activity. -/
theorem pending_of_main
    {screens : Screens}
    {index : Nat}
    {current : Option Statement}
    (main : screens.main = current.map (index, ·))
    (other : Nat) :
    screens.pending other = if other = index then current else none := by
  rw [pending, main]
  cases current with
  | none => simp
  | some statement => simp [eq_comm]

@[simp] theorem activityAt_returned (screens : Screens) :
    screens.returned.activityAt = screens.activityAt := rfl

@[simp] theorem activityAt_modify_self
    (screens : Screens)
    (index : Nat)
    (change : AiActivity → AiActivity) :
    (screens.modify index change).activityAt index =
      change (screens.activityAt index) :=
  Function.update_self ..

end Screens

namespace AiActivity

/-- What the fields of an activity and of its view model say of one another.
The button is trusted only while the activity is on the screen and has been
refreshed. -/
structure Sound
    (activity : AiActivity)
    (pending : Option Statement)
    (resumed : Prop) : Prop where
  engineFound :
    activity.engineFound = true ↔
      activity.llmw = true ∨ ∃ thread, pending = some (.assign thread)
  generated : activity.generated = true → activity.llmw = true
  debugShown : activity.debugShown = true → activity.llmw = true
  sendEnabled :
    resumed → pending ≠ some .refreshModelState →
      activity.sendEnabled = true → activity.llmw = true

section Changes

variable {activity : AiActivity}
variable {pending later : Option Statement}
variable {resumed shown : Prop}

/-- A view model that is not waiting for `getInstance` has the engine it has
found. -/
theorem Sound.llmw_of_engineFound
    (sound : activity.Sound pending resumed)
    (waiting : ∀ thread, pending ≠ some (.assign thread))
    (found : activity.engineFound = true) :
    activity.llmw = true :=
  (sound.engineFound.mp found).resolve_right fun ⟨thread, same⟩ =>
    waiting thread same

/-- A new activity with a new view model. -/
theorem sound_new
    (waits : ∀ thread, later ≠ some (.assign thread))
    (hidden : ¬shown) :
    AiActivity.Sound {} later shown where
  engineFound := by simp [waits]
  generated := by simp
  debugShown := by simp
  sendEnabled := fun visible => absurd visible hidden

/-- A step that neither calls `getInstance` nor returns from it. -/
theorem Sound.of_quiet
    (sound : activity.Sound pending resumed)
    (waiting : ∀ thread, pending ≠ some (.assign thread))
    (waits : ∀ thread, later ≠ some (.assign thread))
    {generated debugShown sendEnabled isGenerating finished : Bool}
    (generates : generated = true → activity.llmw = true)
    (shows_ : debugShown = true → activity.llmw = true)
    (enables : shown → later ≠ some .refreshModelState →
      sendEnabled = true → activity.llmw = true) :
    AiActivity.Sound
      { activity with
        generated := generated
        debugShown := debugShown
        sendEnabled := sendEnabled
        isGenerating := isGenerating
        finished := finished } later shown where
  engineFound :=
    ⟨fun found => Or.inl (sound.llmw_of_engineFound waiting found),
      fun either => sound.engineFound.mpr (Or.inl (either.resolve_right
        fun ⟨thread, same⟩ => waits thread same))⟩
  generated := generates
  debugShown := shows_
  sendEnabled := enables

/-- A step that leaves the activity as it is. -/
theorem Sound.of_unchanged
    (sound : activity.Sound pending resumed)
    (waiting : ∀ thread, pending ≠ some (.assign thread))
    (waits : ∀ thread, later ≠ some (.assign thread))
    (refreshed : pending ≠ some .refreshModelState) :
    activity.Sound later resumed :=
  sound.of_quiet waiting waits sound.generated sound.debugShown
    fun shown _ => sound.sendEnabled shown refreshed

/-- `getInstance` is called. -/
theorem Sound.called
    (sound : activity.Sound pending resumed)
    (refreshed : pending ≠ some .refreshModelState)
    (thread : Nat) :
    AiActivity.Sound { activity with engineFound := true }
      (some (.assign thread)) resumed where
  engineFound := ⟨fun _ => Or.inr ⟨thread, rfl⟩, fun _ => rfl⟩
  generated := sound.generated
  debugShown := sound.debugShown
  sendEnabled shown _ := sound.sendEnabled shown refreshed

/-- `getInstance` has returned. -/
theorem Sound.assigned
    {thread : Nat}
    (sound : activity.Sound (some (.assign thread)) resumed) :
    AiActivity.Sound { activity with llmw := true } none resumed where
  engineFound :=
    ⟨fun _ => Or.inl rfl,
      fun _ => sound.engineFound.mpr (Or.inr ⟨thread, rfl⟩)⟩
  generated _ := rfl
  debugShown _ := rfl
  sendEnabled _ _ _ := rfl

end Changes

end AiActivity

namespace Screens

/-- What holds in every state of a run in which the engine is found.  A callback
of an activity begins when the service has nothing left to run on the main
thread, and no command arrives before it has returned. -/
structure Sound (screens : Screens) : Prop where
  notCrashed : screens.crashed = false
  waits : screens.main ≠ none → screens.settings.service.main = []
  activities (index : Nat) :
    (screens.activityAt index).Sound (screens.pending index)
      (screens.resumed = some index)

section Steps

variable {device : Engine.Device}
variable {screens next : Screens}
variable {index : Nat}

theorem sound_fresh (settings : World) :
    Screens.Sound { settings := settings } where
  notCrashed := rfl
  waits busy := absurd rfl busy
  activities _ := AiActivity.sound_new (by simp [pending]) (by simp)

theorem idle_iff :
    screens.idle = true ↔
      screens.living = true ∧ screens.main = none ∧
        screens.settings.service.main = [] := by
  simp [idle, and_assoc]

/-- The activity that the main thread runs. -/
theorem Sound.own
    (sound : screens.Sound)
    {current : Option Statement}
    (main : screens.main = current.map (index, ·)) :
    (screens.activityAt index).Sound current
      (screens.resumed = some index) := by
  have own := sound.activities index
  rw [pending_of_main main, if_pos rfl] at own
  exact own

theorem Sound.own_of_idle
    (sound : screens.Sound)
    (idle : screens.idle = true)
    (index : Nat) :
    (screens.activityAt index).Sound none (screens.resumed = some index) :=
  @Sound.own _ index sound none (idle_iff.mp idle).2.1

/-- The button of an activity on the screen, or its dialog, is clicked. -/
theorem Sound.llmw_of_click
    (sound : screens.Sound)
    (idle : screens.idle = true)
    (shown : screens.resumed = some index)
    (click : ((screens.activityAt index).sendEnabled ||
      (screens.activityAt index).debugShown) = true) :
    (screens.activityAt index).llmw = true := by
  have own := sound.own_of_idle idle index
  rcases Bool.or_eq_true_iff.mp click with enabled | dialog
  · exact own.sendEnabled shown (by simp) enabled
  · exact own.debugShown dialog

/-- One activity has its turn on the main thread. -/
theorem Sound.turn
    (sound : screens.Sound)
    (current later : Option Statement)
    {activity : AiActivity}
    (main : screens.main = current.map (index, ·))
    (nextMain : next.main = later.map (index, ·))
    (activityAt : next.activityAt =
      Function.update screens.activityAt index activity)
    (resumed : ∀ other, other ≠ index → next.resumed = some other →
      screens.resumed = some other)
    (crashed : next.crashed = false)
    (waits : next.settings.service.main = [])
    (own : activity.Sound later (next.resumed = some index)) :
    next.Sound where
  notCrashed := crashed
  waits _ := waits
  activities other := by
    rw [activityAt, pending_of_main nextMain]
    have sound := sound.activities other
    rw [pending_of_main main] at sound
    by_cases same : other = index
    · subst same
      rw [Function.update_self, if_pos rfl]
      exact own
    · rw [if_neg same] at sound
      rw [Function.update_of_ne same, if_neg same]
      exact ⟨sound.engineFound, sound.generated, sound.debugShown,
        fun shown => sound.sendEnabled (resumed other same shown)⟩

/-- A callback goes on, or returns. -/
theorem Sound.goesOn
    {statement : Statement}
    (sound : screens.Sound)
    (main : screens.main = some (index, statement))
    (later : Option Statement)
    {activity : AiActivity}
    (nextMain : next.main = later.map (index, ·))
    (activityAt : next.activityAt =
      Function.update screens.activityAt index activity)
    (resumed : next.resumed = screens.resumed)
    (crashed : next.crashed = screens.crashed)
    (service : next.settings.service = screens.settings.service)
    (own : activity.Sound later (screens.resumed = some index)) :
    next.Sound :=
  sound.turn (some statement) later main nextMain activityAt
    (fun _ _ shown => resumed ▸ shown) (crashed.trans sound.notCrashed)
    (by rw [service]; exact sound.waits (by rw [main]; simp))
    (resumed ▸ own)

/-- A statement of a callback, if a refresh on the screen finds an engine only
where the view model has found one. -/
theorem Sound.execute
    {statement : Statement}
    (sound : screens.Sound)
    (main : screens.main = some (index, statement))
    (found : screens.EngineFound .main)
    (fired : screens.execute device index statement = some next) :
    next.Sound := by
  have own := @Sound.own _ index sound (some statement) main
  cases statement with
  | refreshModelState =>
      simp only [Screens.execute] at fired
      split at fired
      case isTrue loaded =>
        cases fired
        refine sound.goesOn main none rfl rfl rfl rfl rfl ?_
        refine own.of_quiet (by simp) (by simp) own.generated own.debugShown ?_
        exact fun shown _ _ =>
          own.llmw_of_engineFound (by simp) (found index shown main loaded)
      case isFalse =>
        cases fired
        -- The button is disabled before the saved model is looked at.
        split
        · refine sound.goesOn main none rfl rfl rfl rfl rfl ?_
          exact own.of_quiet (by simp) (by simp) own.generated own.debugShown
            fun _ _ enabled => by cases enabled
        · refine sound.goesOn main (some (.initializeModel _)) rfl rfl rfl rfl
            rfl ?_
          exact own.of_quiet (by simp) (by simp) own.generated own.debugShown
            fun _ _ enabled => by cases enabled
  | initializeModel savedFilename =>
      have same := (Function.update_eq_self index screens.activityAt).symm
      simp only [Screens.execute] at fired
      split at fired
      · cases fired
        exact sound.goesOn main (some (.ifExists _)) rfl same rfl rfl rfl
          (own.of_unchanged (by simp) (by simp) (by simp))
      · cases fired
        exact sound.goesOn main (some .elseIfLoaded) rfl same rfl rfl rfl
          (own.of_unchanged (by simp) (by simp) (by simp))
  | ifExists | elseIfLoaded =>
      have same := (Function.update_eq_self index screens.activityAt).symm
      simp only [Screens.execute] at fired
      split at fired
      · cases fired
        exact sound.goesOn main (some (.assign _)) rfl rfl rfl rfl rfl
          (own.called (by simp) _)
      · cases fired
        exact sound.goesOn main none rfl same rfl rfl rfl
          (own.of_unchanged (by simp) (by simp) (by simp))
  | assign thread =>
      simp only [Screens.execute] at fired
      split at fired
      · cases fired
      split at fired
      · cases fired
        exact sound.goesOn main none rfl rfl rfl rfl rfl own.assigned
      · cases fired

/-- In the middle of a callback the service has nothing to run on the main
thread. -/
theorem waits_of_settings
    {action : Action}
    {settings : World}
    (waits : screens.main ≠ none → screens.settings.service.main = [])
    (admitted : screens.admits action = true)
    (stepped : screens.settings.step device action = some settings)
    (busy : screens.main ≠ none) :
    settings.service.main = [] := by
  cases (moves_of_step stepped).2 with
  | service action service other moves =>
      refine (Download.main_of_moves moves ?_ ?_ ?_).trans (waits busy)
      · rintro intent rfl
        simp [admits, busy] at admitted
      · rintro rfl
        simp [admits, busy] at admitted
      · rintro rfl
        simp [admits, busy] at admitted
  | engine => exact waits busy
  | loadModel | onDownloadComplete | deleteModel =>
      simp [admits, busy] at admitted

/-- A step of the service, the engine or the model settings. -/
theorem Sound.settings
    {action : Action}
    {settings : World}
    (sound : screens.Sound)
    (admitted : screens.admits action = true)
    (stepped : screens.settings.step device action = some settings) :
    Sound { screens with settings := settings } where
  notCrashed := sound.notCrashed
  activities := sound.activities
  waits := by
    intro (busy : screens.main ≠ none)
    exact waits_of_settings sound.waits admitted stepped busy

/-- A callback that does not wait for another thread. -/
theorem Sound.begins
    (sound : screens.Sound)
    (idle : screens.idle = true)
    (later : Option Statement)
    {activity : AiActivity}
    (nextMain : next.main = later.map (index, ·))
    (activityAt : next.activityAt =
      Function.update screens.activityAt index activity)
    (resumed : ∀ other, other ≠ index → next.resumed = some other →
      screens.resumed = some other)
    (crashed : next.crashed = false)
    (service : next.settings.service = screens.settings.service)
    (own : activity.Sound later (next.resumed = some index)) :
    next.Sound :=
  have ⟨_, main, waits⟩ := idle_iff.mp idle
  sound.turn none later main nextMain activityAt resumed crashed
    (service ▸ waits) own

theorem Sound.onCreate
    (sound : screens.Sound)
    (fired : screens.step device .onCreate = some next) :
    next.Sound := by
  obtain ⟨ready, begun⟩ := Option.ite_none_right_eq_some.mp fired
  cases begun
  obtain ⟨idle, hidden⟩ := Bool.and_eq_true_iff.mp ready
  have unseen (index : Nat) : ¬screens.resumed = some index := by
    simp [Option.isNone_iff_eq_none.mp hidden]
  exact sound.begins idle (some (.initializeModel _)) rfl rfl
    (fun _ _ shown => shown) sound.notCrashed rfl
    (AiActivity.sound_new (by simp) (unseen _))

theorem Sound.recreate
    (sound : screens.Sound)
    (fired : screens.step device (.recreate index) = some next) :
    next.Sound := by
  obtain ⟨ready, begun⟩ := Option.ite_none_right_eq_some.mp fired
  cases begun
  simp only [Bool.and_eq_true, and_assoc] at ready
  obtain ⟨idle, hidden, _⟩ := ready
  have unseen (index : Nat) : ¬screens.resumed = some index := by
    simp [Option.isNone_iff_eq_none.mp hidden]
  have own := sound.own_of_idle idle index
  exact sound.begins idle (some (.initializeModel _)) rfl rfl
    (fun _ _ shown => shown) sound.notCrashed rfl
    (own.of_quiet (by simp) (by simp) own.generated
      (fun shown => by cases shown)
      fun shown => absurd shown (unseen _))

/-- Until it has been refreshed, nothing is said of the button. -/
theorem Sound.onActivityResult
    (sound : screens.Sound)
    (fired : screens.step device (.onActivityResult index) = some next) :
    next.Sound := by
  obtain ⟨ready, begun⟩ := Option.ite_none_right_eq_some.mp fired
  cases begun
  obtain ⟨idle, _⟩ := Bool.and_eq_true_iff.mp ready
  have own := sound.own_of_idle idle index
  exact sound.begins idle (some .refreshModelState) rfl
    (Function.update_eq_self index screens.activityAt).symm
    (fun _ _ shown => shown) sound.notCrashed rfl
    (own.of_quiet (by simp) (by simp) own.generated own.debugShown
      fun _ refreshed => absurd rfl refreshed)

theorem Sound.onResume
    (sound : screens.Sound)
    (fired : screens.step device (.onResume index) = some next) :
    next.Sound := by
  obtain ⟨ready, begun⟩ := Option.ite_none_right_eq_some.mp fired
  cases begun
  simp only [Bool.and_eq_true, and_assoc] at ready
  have own := sound.own_of_idle ready.1 index
  have only (other : Nat) (different : other ≠ index)
      (shown : some index = some other) : screens.resumed = some other :=
    absurd (Option.some.inj shown).symm different
  exact sound.begins ready.1 (some .refreshModelState) rfl
    (Function.update_eq_self index screens.activityAt).symm only
    sound.notCrashed rfl
    (own.of_quiet (by simp) (by simp) own.generated own.debugShown
      fun _ refreshed => absurd rfl refreshed)

theorem Sound.showDebugOptions
    (sound : screens.Sound)
    (fired : screens.step device .showDebugOptions = some next) :
    next.Sound := by
  obtain ⟨index, shown, pressed⟩ := Option.bind_eq_some_iff.mp fired
  obtain ⟨ready, opened⟩ := Option.ite_none_right_eq_some.mp pressed
  cases opened
  obtain ⟨idle, enabled⟩ := Bool.and_eq_true_iff.mp ready
  have own := sound.own_of_idle idle index
  have llmw := own.sendEnabled shown (by simp) enabled
  exact sound.begins idle none (idle_iff.mp idle).2.1 rfl
    (fun _ _ shown => shown) sound.notCrashed rfl
    (own.of_quiet (by simp) (by simp) own.generated (fun _ => llmw)
      fun _ _ _ => llmw)

theorem Sound.closeDebugOptions
    (sound : screens.Sound)
    (fired : screens.step device .closeDebugOptions = some next) :
    next.Sound := by
  obtain ⟨index, _, pressed⟩ := Option.bind_eq_some_iff.mp fired
  obtain ⟨ready, closed⟩ := Option.ite_none_right_eq_some.mp pressed
  cases closed
  obtain ⟨idle, _⟩ := Bool.and_eq_true_iff.mp ready
  have own := sound.own_of_idle idle index
  exact sound.begins idle none (idle_iff.mp idle).2.1 rfl
    (fun _ _ shown => shown) sound.notCrashed rfl
    (own.of_quiet (by simp) (by simp) own.generated
      (fun shown => by cases shown)
      fun shown _ => own.sendEnabled shown (by simp))

/-- A message is sent with the engine of the view model. -/
theorem Sound.sendMessage
    (sound : screens.Sound)
    (fired : screens.step device .sendMessage = some next) :
    next.Sound := by
  obtain ⟨index, shown, clicked⟩ := Option.bind_eq_some_iff.mp fired
  obtain ⟨ready, sent⟩ := Option.ite_none_right_eq_some.mp clicked
  cases sent
  obtain ⟨idle, click⟩ := Bool.and_eq_true_iff.mp ready
  have llmw := sound.llmw_of_click idle shown click
  have own := sound.own_of_idle idle index
  unfold Screens.sendMessage
  split
  · exact sound.begins idle none (idle_iff.mp idle).2.1 rfl
      (fun _ _ shown => shown) (by simp [llmw]) rfl
      (own.of_quiet (by simp) (by simp) (fun _ => llmw)
        (fun _ => llmw) fun _ _ _ => llmw)
  · exact sound.begins idle none (idle_iff.mp idle).2.1 rfl
      (fun _ _ shown => shown) sound.notCrashed rfl
      (own.of_quiet (by simp) (by simp) own.generated (fun _ => llmw)
        fun _ _ _ => llmw)

theorem Sound.finalizeGeneration
    (sound : screens.Sound)
    (fired : screens.step device (.finalizeGeneration index) = some next) :
    next.Sound := by
  obtain ⟨ready, finalized⟩ := Option.ite_none_right_eq_some.mp fired
  cases finalized
  obtain ⟨idle, generated⟩ := Bool.and_eq_true_iff.mp ready
  have own := sound.own_of_idle idle index
  exact sound.begins idle none (idle_iff.mp idle).2.1 rfl
    (fun _ _ shown => shown) sound.notCrashed rfl
    (own.of_quiet (by simp) (by simp) own.generated own.debugShown
      fun _ _ _ => own.generated generated)

/-- No activity is on the screen, and the view models are as they were. -/
theorem Sound.hidden
    (sound : screens.Sound)
    (finished : Nat → Bool)
    (settings : World)
    (service : settings.service = screens.settings.service) :
    Screens.Sound
      { screens with
        settings := settings
        activityAt := fun index =>
          { screens.activityAt index with finished := finished index }
        resumed := none } where
  notCrashed := sound.notCrashed
  waits busy := service ▸ sound.waits busy
  activities index :=
    have own := sound.activities index
    ⟨own.engineFound, own.generated, own.debugShown,
      fun shown => by cases shown⟩

/-- A step keeps the invariant, if a refresh on the screen finds an engine only
where the view model has found one. -/
theorem Sound.step
    {event : Event}
    (sound : screens.Sound)
    (found : screens.EngineFound event)
    (fired : screens.step device event = some next) :
    next.Sound := by
  cases event with
  | restart =>
      cases fired
      exact sound_fresh _
  | settings action =>
      obtain ⟨ready, stepped⟩ := Option.ite_none_right_eq_some.mp fired
      obtain ⟨settings, taken, rfl⟩ := Option.map_eq_some_iff.mp stepped
      exact sound.settings (Bool.and_eq_true_iff.mp ready).2 taken
  | main =>
      obtain ⟨_, went⟩ := Option.ite_none_right_eq_some.mp fired
      obtain ⟨⟨index, statement⟩, main, executed⟩ :=
        Option.bind_eq_some_iff.mp went
      exact sound.execute main found executed
  | onCreate => exact sound.onCreate fired
  | recreate index => exact sound.recreate fired
  | onActivityResult index => exact sound.onActivityResult fired
  | onResume index => exact sound.onResume fired
  | onPause =>
      obtain ⟨_, paused⟩ := Option.ite_none_right_eq_some.mp fired
      cases paused
      exact sound.hidden _ _ rfl
  | resumeModelSettings | pauseModelSettings =>
      obtain ⟨_, changed⟩ := Option.ite_none_right_eq_some.mp fired
      cases changed
      exact ⟨sound.notCrashed, sound.waits, sound.activities⟩
  | showDebugOptions => exact sound.showDebugOptions fired
  | closeDebugOptions => exact sound.closeDebugOptions fired
  | sendMessage => exact sound.sendMessage fired
  | finalizeGeneration index => exact sound.finalizeGeneration fired
  | onLogout =>
      obtain ⟨_, left⟩ := Option.ite_none_right_eq_some.mp fired
      cases left
      exact sound.hidden _ _ rfl

/-- The engine of a click is there. -/
theorem Sound.sendHasEngine (sound : screens.Sound) : screens.SendHasEngine :=
  ⟨sound.notCrashed, fun _ ⟨idle, shown, click, _⟩ =>
    sound.llmw_of_click idle shown click⟩

/-- After a refresh on the screen that finds an engine, a click passes the
test. -/
theorem Sound.engineFound_of_sendHasEngine
    {event : Event}
    (sound : screens.Sound)
    (fired : screens.step device event = some next)
    (has : next.SendHasEngine) :
    screens.EngineFound event := by
  cases event with
  | main =>
      intro index shown main loaded
      have waits := sound.waits (by rw [main]; simp)
      have own := @Sound.own _ index sound (some .refreshModelState) main
      obtain ⟨living, went⟩ := Option.ite_none_right_eq_some.mp fired
      obtain ⟨⟨owner, statement⟩, current, executed⟩ :=
        Option.bind_eq_some_iff.mp went
      obtain ⟨rfl, rfl⟩ :=
        Prod.mk.inj (Option.some.inj (main.symm.trans current))
      obtain rfl := Option.some.inj ((if_pos loaded).symm.trans executed)
      have llmw := has.2 index ⟨idle_iff.mpr ⟨living, rfl, waits⟩, shown,
        by simp, loaded⟩
      exact own.engineFound.mpr (Or.inl (by simpa using llmw))
  | _ => trivial

end Steps

section Runs

open Storage
open Download (miniModel)

/-- In a run from the start of the process a click that passes the test of
`isModelLoaded` finds the engine of the view model exactly when every refresh on
the screen that finds an engine is that of a view model which has found one, or
the file of the saved model, before. -/
theorem always_sendHasEngine_iff
    (device : Engine.Device)
    (disk : Download.Files)
    (prefs : Prefs)
    (modelOptions : List Model)
    (events : List Event)
    {finish : Screens}
    (ran : (screensMachine device).run
      { settings := start disk prefs modelOptions } events = some finish) :
    (screensMachine device).Always SendHasEngine
        { settings := start disk prefs modelOptions } events ↔
      (screensMachine device).Guarded EngineFound
        { settings := start disk prefs modelOptions } events :=
  Machine.always_iff_guarded_of_needed
    (fun _ _ _ (sound : Screens.Sound _) found fired =>
      sound.step found fired)
    (fun _ sound => sound.sendHasEngine)
    (fun _ _ _ sound fired has =>
      sound.engineFound_of_sendHasEngine fired has)
    ran (sound_fresh _)

/-- From the first start to the model settings, where a model is downloaded and
loaded. -/
def firstModel : List Event :=
  [.onCreate, .main, .main, .onResume 0, .main, .onPause,
      .resumeModelSettings] ++
    downloaded.map .settings ++ [.settings (.engine .ui)]

/-- The app is started again, and a message is sent. -/
def sentAfterRestart : List Event :=
  [.restart, .onCreate, .main, .main] ++
    List.replicate 4 (.settings (.engine (.thread 0))) ++
    [.main, .onResume 0, .main, .sendMessage]

/-- Back on the screen of the messages. -/
def back : List Event :=
  [.pauseModelSettings, .onActivityResult 0, .main, .onResume 0, .main]

/-- The first model is used after a restart. -/
theorem sendHasEngine_after_restart :
    (screensMachine tablet).Always SendHasEngine
      { settings := start Disk.empty {} [miniModel] }
      (firstModel ++ sentAfterRestart) := by
  obtain ⟨finish, ran⟩ := Option.isSome_iff_exists.mp
    (show ((screensMachine tablet).run
      { settings := start Disk.empty {} [miniModel] }
      (firstModel ++ sentAfterRestart)).isSome by decide +kernel)
  exact (always_sendHasEngine_iff tablet Disk.empty {} [miniModel] _ ran).mpr
    (by decide +kernel)

/-- The first model that is loaded passes the test of `isModelLoaded`, and the
first message ends the process. -/
theorem not_sendHasEngine_of_first_model :
    (∃ finish,
      (screensMachine tablet).run
          { settings := start Disk.empty {} [miniModel] }
          (firstModel ++ back) = some finish ∧
        finish.CanSend 0 ∧ (finish.activityAt 0).llmw = false) ∧
    ∃ finish,
      (screensMachine tablet).run
          { settings := start Disk.empty {} [miniModel] }
          (firstModel ++ back ++ [.sendMessage]) = some finish ∧
        finish.crashed = true := by
  constructor
  · obtain ⟨finish, ran, seen⟩ := Option.map_eq_some_iff.mp
      (show ((screensMachine tablet).run
          { settings := start Disk.empty {} [miniModel] }
          (firstModel ++ back)).map
          (fun finish => decide (finish.CanSend 0 ∧
            (finish.activityAt 0).llmw = false)) = some true by
        decide +kernel)
    exact ⟨finish, ran, of_decide_eq_true seen⟩
  · obtain ⟨finish, ran, seen⟩ := Option.map_eq_some_iff.mp
      (show ((screensMachine tablet).run
          { settings := start Disk.empty {} [miniModel] }
          (firstModel ++ back ++ [.sendMessage])).map
          (fun finish => finish.crashed) = some true by
        decide +kernel)
    exact ⟨finish, ran, seen⟩

end Runs

end Screens

end Settings
end IdoProject
