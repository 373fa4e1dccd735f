import IdoProject.Settings.Sending

/-!
# One message at a time

The observer of `isGenerating` disables the button for the time of an answer,
and `refreshModelState` enables it on every return to the screen, whether an
answer is being generated or not.  An enabled button is enough to send: the
dialog of a long press brings a text of its own.
-/

namespace IdoProject
namespace Settings

open Transition

namespace Screens

/-- While an answer is generated for the view model of an activity, no action on
its screen leads to `ChatViewModel.sendMessage`. -/
def NoSecondSend (screens : Screens) : Prop :=
  ∀ index, (screens.activityAt index).isGenerating = true →
    ¬screens.CanSend index

/-- `refreshModelState` on the screen finds an engine loaded only while no
answer is generated. -/
def RefreshedIdle (screens : Screens) : Event → Prop
  | .main =>
      ∀ index ∈ screens.resumed,
        screens.main = some (index, .refreshModelState) →
          screens.isLoaded = true →
            (screens.activityAt index).isGenerating = false
  | _ => True

instance decidableRefreshedIdle (screens : Screens) :
    (event : Event) → Decidable (screens.RefreshedIdle event)
  | .main =>
      inferInstanceAs (Decidable (∀ index ∈ screens.resumed,
        screens.main = some (index, .refreshModelState) →
          screens.isLoaded = true →
            (screens.activityAt index).isGenerating = false))
  | .settings _ | .onCreate | .recreate _ | .onActivityResult _
  | .onResume _ | .onPause | .resumeModelSettings | .pauseModelSettings
  | .showDebugOptions | .closeDebugOptions | .sendMessage
  | .finalizeGeneration _ | .onLogout | .restart => .isTrue trivial

/-- What holds in every state of a run in which the screen is refreshed while no
answer is generated: the dialog is open only then, and the button of a refreshed
activity on the screen is enabled only then. -/
structure Exclusive (screens : Screens) : Prop where
  waits : screens.main ≠ none → screens.settings.service.main = []
  dialog (index : Nat) :
    (screens.activityAt index).debugShown = true →
      (screens.activityAt index).isGenerating = false
  button (index : Nat) :
    screens.resumed = some index →
      screens.main ≠ some (index, .refreshModelState) →
        (screens.activityAt index).sendEnabled = true →
          (screens.activityAt index).isGenerating = false

section Steps

variable {device : Engine.Device}
variable {screens next : Screens}
variable {index : Nat}

theorem exclusive_fresh (settings : World) :
    Screens.Exclusive { settings := settings } where
  waits busy := absurd rfl busy
  dialog _ shown := by cases shown
  button _ shown := by cases shown

theorem Exclusive.noSecondSend
    (exclusive : screens.Exclusive) :
    screens.NoSecondSend := by
  rintro index generating ⟨idle, shown, click, -⟩
  have waiting : screens.main ≠ some (index, .refreshModelState) := by
    rw [(idle_iff.mp idle).2.1]
    simp
  have not_generating : (screens.activityAt index).isGenerating = false := by
    rcases Bool.or_eq_true_iff.mp click with enabled | dialog
    · exact exclusive.button index shown waiting enabled
    · exact exclusive.dialog index dialog
  rw [generating] at not_generating
  cases not_generating

/-- One activity is changed, and no other one comes to the screen or is
refreshed. -/
theorem Exclusive.turn
    (exclusive : screens.Exclusive)
    {activity : AiActivity}
    (activityAt : next.activityAt =
      Function.update screens.activityAt index activity)
    (waits : next.main ≠ none → next.settings.service.main = [])
    (others : ∀ other, other ≠ index → next.resumed = some other →
      screens.resumed = some other ∧
        screens.main ≠ some (other, .refreshModelState))
    (dialog : activity.debugShown = true → activity.isGenerating = false)
    (button : next.resumed = some index →
      next.main ≠ some (index, .refreshModelState) →
        activity.sendEnabled = true → activity.isGenerating = false) :
    next.Exclusive where
  waits := waits
  dialog other := by
    rw [activityAt]
    by_cases same : other = index
    · subst same
      rw [Function.update_self]
      exact dialog
    · rw [Function.update_of_ne same]
      exact exclusive.dialog other
  button other := by
    rw [activityAt]
    by_cases same : other = index
    · subst same
      rw [Function.update_self]
      exact button
    · rw [Function.update_of_ne same]
      intro shown _ enabled
      obtain ⟨before, waiting⟩ := others other same shown
      exact exclusive.button other before waiting enabled

/-- A callback of one activity that the main thread goes on with, or that
returns. -/
theorem Exclusive.goesOn
    (exclusive : screens.Exclusive)
    {statement : Statement}
    {activity : AiActivity}
    (main : screens.main = some (index, statement))
    (activityAt : next.activityAt =
      Function.update screens.activityAt index activity)
    (resumed : next.resumed = screens.resumed)
    (service : next.settings.service = screens.settings.service)
    (dialog : activity.debugShown = true → activity.isGenerating = false)
    (button : screens.resumed = some index →
      activity.sendEnabled = true → activity.isGenerating = false) :
    next.Exclusive := by
  apply exclusive.turn activityAt _ _ dialog
  · exact fun shown _ => button (resumed ▸ shown)
  · rw [service]
    exact fun _ => exclusive.waits (by rw [main]; simp)
  · intro other different shown
    refine ⟨resumed ▸ shown, ?_⟩
    rw [main]
    simp [Ne.symm different]

/-- A statement of a callback that looks for the engine leaves the activity as
it is, as far as the button is concerned. -/
theorem Exclusive.looksOn
    (exclusive : screens.Exclusive)
    {statement : Statement}
    {activity : AiActivity}
    (main : screens.main = some (index, statement))
    (other : statement ≠ .refreshModelState)
    (activityAt : next.activityAt =
      Function.update screens.activityAt index activity)
    (resumed : next.resumed = screens.resumed)
    (service : next.settings.service = screens.settings.service)
    (enabled : activity.sendEnabled = (screens.activityAt index).sendEnabled)
    (shown : activity.debugShown = (screens.activityAt index).debugShown)
    (generating :
      activity.isGenerating = (screens.activityAt index).isGenerating) :
    next.Exclusive := by
  apply exclusive.goesOn main activityAt resumed service
  · rw [shown, generating]
    exact exclusive.dialog index
  · rw [enabled, generating]
    intro visible
    apply exclusive.button index visible
    rw [main]
    simp [other]

/-- A statement of a callback, if the screen is refreshed while no answer is
generated. -/
theorem Exclusive.execute
    {statement : Statement}
    (exclusive : screens.Exclusive)
    (main : screens.main = some (index, statement))
    (refreshed : screens.RefreshedIdle .main)
    (fired : screens.execute device index statement = some next) :
    next.Exclusive := by
  have same := (Function.update_eq_self index screens.activityAt).symm
  cases statement with
  | refreshModelState =>
      simp only [Screens.execute] at fired
      split at fired
      case isTrue loaded =>
        cases fired
        exact exclusive.goesOn main rfl rfl rfl (exclusive.dialog index)
          fun shown _ => refreshed index shown main loaded
      case isFalse =>
        cases fired
        split
        · exact exclusive.goesOn main rfl rfl rfl (exclusive.dialog index)
            fun _ enabled => by cases enabled
        · exact exclusive.goesOn main rfl rfl rfl (exclusive.dialog index)
            fun _ enabled => by cases enabled
  | initializeModel savedFilename =>
      simp only [Screens.execute] at fired
      split at fired <;> cases fired <;>
        exact exclusive.looksOn main (by simp) same rfl rfl rfl rfl rfl
  | ifExists | elseIfLoaded =>
      simp only [Screens.execute] at fired
      split at fired
      · cases fired
        exact exclusive.looksOn main (by simp) rfl rfl rfl rfl rfl rfl
      · cases fired
        exact exclusive.looksOn main (by simp) same rfl rfl rfl rfl rfl
  | assign thread =>
      simp only [Screens.execute] at fired
      split at fired
      · cases fired
      split at fired
      · cases fired
        exact exclusive.looksOn main (by simp) rfl rfl rfl rfl rfl rfl
      · cases fired

/-- A callback or a click while the main thread has nothing to run. -/
theorem Exclusive.begins
    (exclusive : screens.Exclusive)
    {activity : AiActivity}
    (idle : screens.idle = true)
    (activityAt : next.activityAt =
      Function.update screens.activityAt index activity)
    (service : next.settings.service = screens.settings.service)
    (resumed : ∀ other, other ≠ index → next.resumed = some other →
      screens.resumed = some other)
    (dialog : activity.debugShown = true → activity.isGenerating = false)
    (button : next.resumed = some index →
      next.main ≠ some (index, .refreshModelState) →
        activity.sendEnabled = true → activity.isGenerating = false) :
    next.Exclusive := by
  obtain ⟨-, main, waits⟩ := idle_iff.mp idle
  apply exclusive.turn activityAt _ _ dialog button
  · rw [service]
    exact fun _ => waits
  · intro other different shown
    refine ⟨resumed other different shown, ?_⟩
    rw [main]
    simp

/-- The button of an idle activity on the screen. -/
theorem Exclusive.button_of_idle
    (exclusive : screens.Exclusive)
    (idle : screens.idle = true)
    (shown : screens.resumed = some index)
    (enabled : (screens.activityAt index).sendEnabled = true) :
    (screens.activityAt index).isGenerating = false := by
  apply exclusive.button index shown _ enabled
  rw [(idle_iff.mp idle).2.1]
  simp

/-- An event of the screens, if the screen is refreshed while no answer is
generated. -/
theorem Exclusive.step
    {event : Event}
    (exclusive : screens.Exclusive)
    (refreshed : screens.RefreshedIdle event)
    (fired : screens.step device event = some next) :
    next.Exclusive := by
  cases event with
  | restart =>
      cases fired
      exact exclusive_fresh _
  | settings action =>
      obtain ⟨ready, stepped⟩ := Option.ite_none_right_eq_some.mp fired
      obtain ⟨settings, taken, rfl⟩ := Option.map_eq_some_iff.mp stepped
      refine ⟨?_, exclusive.dialog, exclusive.button⟩
      intro (busy : screens.main ≠ none)
      exact waits_of_settings exclusive.waits
        (Bool.and_eq_true_iff.mp ready).2 taken busy
  | main =>
      obtain ⟨_, went⟩ := Option.ite_none_right_eq_some.mp fired
      obtain ⟨⟨index, statement⟩, main, executed⟩ :=
        Option.bind_eq_some_iff.mp went
      exact exclusive.execute main refreshed executed
  | onCreate =>
      obtain ⟨ready, begun⟩ := Option.ite_none_right_eq_some.mp fired
      cases begun
      obtain ⟨idle, _⟩ := Bool.and_eq_true_iff.mp ready
      exact exclusive.begins idle rfl rfl (fun _ _ shown => shown)
        (fun _ => rfl) fun _ _ _ => rfl
  | recreate index =>
      obtain ⟨ready, begun⟩ := Option.ite_none_right_eq_some.mp fired
      cases begun
      simp only [Bool.and_eq_true, and_assoc] at ready
      refine exclusive.begins ready.1 rfl rfl (fun _ _ shown => shown)
        (fun shown => by cases shown) ?_
      intro _ _ enabled
      simpa using enabled
  | onActivityResult index =>
      obtain ⟨ready, begun⟩ := Option.ite_none_right_eq_some.mp fired
      cases begun
      obtain ⟨idle, hidden⟩ := Bool.and_eq_true_iff.mp ready
      refine exclusive.begins idle
        (Function.update_eq_self index screens.activityAt).symm rfl
        (fun _ _ shown => shown) (exclusive.dialog index) ?_
      exact fun _ refreshed => absurd rfl refreshed
  | onResume index =>
      obtain ⟨ready, begun⟩ := Option.ite_none_right_eq_some.mp fired
      cases begun
      simp only [Bool.and_eq_true, and_assoc] at ready
      refine exclusive.begins ready.1
        (Function.update_eq_self index screens.activityAt).symm rfl ?_
        (exclusive.dialog index) fun _ refreshed => absurd rfl refreshed
      intro other different (shown : some index = some other)
      exact absurd (Option.some.inj shown).symm different
  | onPause =>
      obtain ⟨_, paused⟩ := Option.ite_none_right_eq_some.mp fired
      cases paused
      exact ⟨exclusive.waits, exclusive.dialog,
        fun _ shown => by cases shown⟩
  | resumeModelSettings | pauseModelSettings =>
      obtain ⟨_, changed⟩ := Option.ite_none_right_eq_some.mp fired
      cases changed
      exact ⟨exclusive.waits, exclusive.dialog, exclusive.button⟩
  | showDebugOptions =>
      obtain ⟨index, shown, pressed⟩ := Option.bind_eq_some_iff.mp fired
      obtain ⟨ready, opened⟩ := Option.ite_none_right_eq_some.mp pressed
      cases opened
      obtain ⟨idle, enabled⟩ := Bool.and_eq_true_iff.mp ready
      have free := exclusive.button_of_idle idle shown enabled
      exact exclusive.begins idle rfl rfl (fun _ _ shown => shown)
        (fun _ => free) fun _ _ _ => free
  | closeDebugOptions =>
      obtain ⟨index, shown, pressed⟩ := Option.bind_eq_some_iff.mp fired
      obtain ⟨ready, closed⟩ := Option.ite_none_right_eq_some.mp pressed
      cases closed
      obtain ⟨idle, opened⟩ := Bool.and_eq_true_iff.mp ready
      have free := exclusive.dialog index opened
      exact exclusive.begins idle rfl rfl (fun _ _ shown => shown)
        (fun _ => free) fun _ _ _ => free
  | sendMessage =>
      obtain ⟨index, shown, clicked⟩ := Option.bind_eq_some_iff.mp fired
      obtain ⟨ready, sent⟩ := Option.ite_none_right_eq_some.mp clicked
      cases sent
      obtain ⟨idle, -⟩ := Bool.and_eq_true_iff.mp ready
      unfold Screens.sendMessage
      split
      · exact exclusive.begins idle rfl rfl (fun _ _ shown => shown)
          (fun opened => by cases opened) fun _ _ enabled => by cases enabled
      · exact exclusive.begins idle rfl rfl (fun _ _ shown => shown)
          (fun opened => by cases opened)
          fun _ _ enabled => exclusive.button_of_idle idle shown enabled
  | finalizeGeneration index =>
      obtain ⟨ready, finalized⟩ := Option.ite_none_right_eq_some.mp fired
      cases finalized
      obtain ⟨idle, -⟩ := Bool.and_eq_true_iff.mp ready
      exact exclusive.begins idle rfl rfl (fun _ _ shown => shown)
        (fun _ => rfl) fun _ _ _ => rfl
  | onLogout =>
      obtain ⟨_, left⟩ := Option.ite_none_right_eq_some.mp fired
      cases left
      exact ⟨exclusive.waits, exclusive.dialog,
        fun _ shown => by cases shown⟩

/-- A refresh on the screen that finds an engine while an answer is generated
lets the next message be sent. -/
theorem Exclusive.refreshedIdle_of_noSecondSend
    {event : Event}
    (exclusive : screens.Exclusive)
    (fired : screens.step device event = some next)
    (has : next.NoSecondSend) :
    screens.RefreshedIdle event := by
  cases event with
  | main =>
      intro index shown main loaded
      have waits := exclusive.waits (by rw [main]; simp)
      obtain ⟨living, went⟩ := Option.ite_none_right_eq_some.mp fired
      obtain ⟨⟨owner, statement⟩, current, executed⟩ :=
        Option.bind_eq_some_iff.mp went
      obtain ⟨rfl, rfl⟩ :=
        Prod.mk.inj (Option.some.inj (main.symm.trans current))
      obtain rfl := Option.some.inj ((if_pos loaded).symm.trans executed)
      rw [← Bool.not_eq_true]
      intro generating
      refine has index (by simpa using generating) ⟨?_, shown, by simp, loaded⟩
      exact idle_iff.mpr ⟨living, rfl, waits⟩
  | _ => trivial

end Steps

section Runs

open Storage
open Download (miniModel)

/-- In a run from the start of the process no message can be sent while an
answer is generated exactly when the screen is refreshed with an engine loaded
only while no answer is. -/
theorem always_noSecondSend_iff
    (device : Engine.Device)
    (disk : Download.Files)
    (prefs : Prefs)
    (modelOptions : List Model)
    (events : List Event)
    {finish : Screens}
    (ran : (screensMachine device).run
      { settings := start disk prefs modelOptions } events = some finish) :
    (screensMachine device).Always NoSecondSend
        { settings := start disk prefs modelOptions } events ↔
      (screensMachine device).Guarded RefreshedIdle
        { settings := start disk prefs modelOptions } events :=
  Machine.always_iff_guarded_of_needed
    (fun _ _ _ (exclusive : Screens.Exclusive _) refreshed fired =>
      exclusive.step refreshed fired)
    (fun _ exclusive => exclusive.noSecondSend)
    (fun _ _ _ exclusive fired has =>
      exclusive.refreshedIdle_of_noSecondSend fired has)
    ran (exclusive_fresh _)

/-- A message is sent with the first model, its answer is finished, and the
screen is left and shown again. -/
theorem noSecondSend_after_answer :
    (screensMachine tablet).Always NoSecondSend
      { settings := start Disk.empty {} [miniModel] }
      (firstModel ++ sentAfterRestart ++
        [.finalizeGeneration 0, .onPause, .onResume 0, .main]) := by
  obtain ⟨finish, ran⟩ := Option.isSome_iff_exists.mp
    (show ((screensMachine tablet).run
      { settings := start Disk.empty {} [miniModel] }
      (firstModel ++ sentAfterRestart ++
        [.finalizeGeneration 0, .onPause, .onResume 0, .main])).isSome by
      decide +kernel)
  exact (always_noSecondSend_iff tablet Disk.empty {} [miniModel] _ ran).mpr
    (by decide +kernel)

/-- The screen is left and shown again while the answer is generated: the button
is enabled, and the next message is sent. -/
theorem second_send_after_return :
    ∃ finish second,
      (screensMachine tablet).run
          { settings := start Disk.empty {} [miniModel] }
          (firstModel ++ sentAfterRestart ++
            [.onPause, .onResume 0, .main]) = some finish ∧
        (finish.activityAt 0).isGenerating = true ∧ finish.CanSend 0 ∧
        (screensMachine tablet).run finish
          [.showDebugOptions, .sendMessage] = some second := by
  obtain ⟨finish, ran, seen⟩ := Option.map_eq_some_iff.mp
    (show ((screensMachine tablet).run
        { settings := start Disk.empty {} [miniModel] }
        (firstModel ++ sentAfterRestart ++
          [.onPause, .onResume 0, .main])).map
        (fun finish => decide ((finish.activityAt 0).isGenerating = true ∧
          finish.CanSend 0 ∧
          ((screensMachine tablet).run finish
            [.showDebugOptions, .sendMessage]).isSome = true)) = some true by
      decide +kernel)
  obtain ⟨generating, click, sent⟩ := of_decide_eq_true seen
  obtain ⟨second, sent⟩ := Option.isSome_iff_exists.mp sent
  exact ⟨finish, second, ran, generating, click, sent⟩

end Runs

end Screens

end Settings
end IdoProject
