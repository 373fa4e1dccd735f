import IdoProject.Chat.Attribution
import IdoProject.Store.Serving

/-!
# The chat screen and the file system

The screen keeps the chat store under user names.  In an undisturbed run it
comes about by calls for plain names, so that the files of the phone hold what
the screen has stored.
-/

namespace IdoProject
namespace Chat

open Java Store
open Store.Directories (Call Plain Serves serveAll performAll)

/-- One store is left of another by calls for plain names. -/
def PlainCalls (files after : UserFiles) : Prop :=
  ∃ calls : List Call,
    (∀ call ∈ calls, ∀ username ∈ call.usernames, Plain username) ∧
      after = serveAll files calls

namespace PlainCalls

variable {files middle after : UserFiles}

theorem of_eq (same : after = files) : PlainCalls files after :=
  ⟨[], List.forall_mem_nil _, same⟩

theorem of_call
    (call : Call)
    (plain : ∀ username ∈ call.usernames, Plain username) :
    PlainCalls files (call.serve files) :=
  ⟨[call], List.forall_mem_singleton.mpr plain, rfl⟩

theorem trans
    (first : PlainCalls files middle)
    (second : PlainCalls middle after) :
    PlainCalls files after := by
  obtain ⟨calls, plain, rfl⟩ := first
  obtain ⟨others, also, rfl⟩ := second
  exact ⟨calls ++ others, List.forall_mem_append.mpr ⟨plain, also⟩,
    List.foldl_append.symm⟩

end PlainCalls

/-- A stream event saves for a generation with a runnable, or nothing. -/
theorem App.files_of_stream
    {toLowerCase : JString → JString}
    {app next : App}
    {event : App.Event}
    (stream : event.isStream = true)
    (fired : app.step toLowerCase event = some next) :
    next.files = app.files ∨
      ∃ generation chatId messages,
        (∃ entry ∈ app.viewModel.posted, entry.1 = generation) ∧
          next.files = app.files.saveMessages app.username chatId messages := by
  obtain ⟨_, fires⟩ := App.fires_of_step fired
  cases fires with
  | saveSettings | loadChats | loadMessages | createNewChat | deleteChat
  | sendMessage => cases stream
  | deliver | post | endStream => exact Or.inl rfl
  | runPosted index token rest queued =>
      rw [App.runToken_eq]
      split
      case h_1 | h_2 =>
        exact Or.inr ⟨index, _, _, ⟨(index, token), by rw [queued]; simp, rfl⟩,
          rfl⟩
      case h_3 | h_4 => exact Or.inl rfl

namespace Screen

variable {toLowerCase : JString → JString}
variable {screen next : Screen}
variable {event : Event}
variable {index : Nat}

theorem loadChats_files :
    (screen.loadChats index).files = screen.files := by
  unfold Screen.loadChats observeChats
  split <;> rfl

/-- Whoever is signed in has a plain name. -/
theorem Sound.plain_username
    {account : Nat}
    (sound : screen.Sound)
    (session : screen.session = some account) :
    Plain (Prefs.orNull screen.prefs.username) := by
  obtain ⟨plain, username, stored, row, -⟩ := sound.signedIn account session
  rw [stored]
  exact plain username (List.mem_of_getElem? row)

theorem plainCalls_createNewChat
    (plain : Plain (Prefs.orNull screen.prefs.username)) :
    PlainCalls screen.files (screen.createNewChat index).files :=
  .of_call (.saveChats _ _) (List.forall_mem_singleton.mpr plain)

theorem plainCalls_startNewChatFromUI
    (plain : Plain (Prefs.orNull screen.prefs.username)) :
    PlainCalls screen.files (screen.startNewChatFromUI index).files := by
  rw [startNewChatFromUI_eq]
  exact @plainCalls_createNewChat { screen with isInChat := true } index plain

/-- An undisturbed event stores for plain names. -/
theorem Sound.plainCalls
    (sound : screen.Sound)
    (undisturbed : screen.Undisturbed event)
    (fired : screen.step toLowerCase event = some next) :
    PlainCalls screen.files next.files := by
  have own {index : Nat} (current : screen.current = some index) :
      Plain (Prefs.orNull screen.prefs.username) :=
    sound.plain_username (sound.opened index current).2
  cases fires_of_step fired with
  | signUp | logIn | openAgain | recreate =>
      exact .of_eq (loadChats_files.trans loadChats_files)
  | resume => exact .of_eq loadChats_files
  | logOut | saveSettings | selectChat => exact .of_eq rfl
  | saveNewUsername index input current =>
      rcases saveNewUsername_cases screen input with
        same | ⟨⟨written, changed⟩, same⟩
      · rw [same]
        exact .of_eq rfl
      · rw [same]
        have typed := ((undisturbed.resolve_left written).resolve_left
          changed).2
        exact .of_call (.renameUserDirectory _ _)
          (List.forall_mem_cons.mpr
            ⟨own current, List.forall_mem_singleton.mpr typed⟩)
  | newChat index current =>
      exact (plainCalls_createNewChat (own current)).trans
        (plainCalls_startNewChatFromUI (own current))
  | deleteChat index chat current =>
      have removed : PlainCalls screen.files
          (screen.withApp index ((screen.app index).deleteChat chat)).files :=
        .of_call (.removeChat _ _) (List.forall_mem_singleton.mpr (own current))
      unfold Screen.onChatDelete observeChats
      dsimp only
      split <;> split <;> exact removed
  | send index input current =>
      unfold Screen.sendMessage
      dsimp only
      split
      case isTrue => exact .of_eq rfl
      case isFalse =>
        split
        case isTrue => exact .of_eq rfl
        case isFalse => exact plainCalls_startNewChatFromUI (own current)
  | stream index event app started isStream ran =>
      rcases App.files_of_stream isStream ran with
        same | ⟨generation, chatId, messages, ⟨entry, queued, rfl⟩, saved⟩
      · exact .of_eq same
      · have owned := sound.owned index started
        have session := (owned.pending entry.1 (owned.posted entry queued)
          (Or.inl ⟨entry, queued, rfl⟩)).2
        rw [show (screen.withApp index app).files = _ from saved]
        exact .of_call (.saveMessages _ _ _)
          (List.forall_mem_singleton.mpr (sound.plain_username session))

/-- In every undisturbed run that begins without directories, the store of the
screen comes about by calls; and where Gson reads their lists back, the same
calls leave files on the phone from which every plain name loads what the
screen has stored. -/
theorem files_serve_screen
    {filesDir : List FileName}
    {files : Files}
    {accounts : List JString}
    {prefs : Prefs}
    {events : List Event}
    (chatGson : Gson ChatRecord)
    (messageGson : Gson Message)
    (proper : files.Proper)
    (holder : files.IsDirectory filesDir)
    (fresh : ∀ username, ∀ plain : Plain username,
      files.entryAt (filesDir ++ [plain.name]) = none)
    (guarded : (machine toLowerCase).Guarded Undisturbed
      { accounts := accounts, prefs := prefs } events)
    (ran : (machine toLowerCase).run { accounts := accounts, prefs := prefs }
      events = some screen) :
    ∃ calls, screen.files = serveAll (fun _ => none) calls ∧
      ((∀ call ∈ calls, call.Legible chatGson messageGson) →
        ∀ username, Plain username →
          Directories.loadChats filesDir chatGson
              (performAll filesDir chatGson messageGson files calls) username =
            some (screen.files.loadChats username) ∧
          ∀ chatId, Directories.loadMessages filesDir messageGson
              (performAll filesDir chatGson messageGson files calls) username
              chatId =
            some (screen.files.loadMessages username chatId)) := by
  have kept : ∀ (screen : Screen) event next,
      (Sound screen ∧ Shown screen) ∧
          PlainCalls (fun _ => none) screen.files →
        Undisturbed screen event →
          (machine toLowerCase).step screen event = some next →
            (Sound next ∧ Shown next) ∧
              PlainCalls (fun _ => none) next.files :=
    fun _ _ _ holds undisturbed fired =>
      ⟨sound_step holds.1.1 holds.1.2 undisturbed fired,
        holds.2.trans (holds.1.1.plainCalls undisturbed fired)⟩
  have initially : Shown { accounts := accounts, prefs := prefs } := by
    intro index present
    cases present
  obtain ⟨-, calls, plain, stored⟩ := Transition.Machine.guarded_invariant kept
    ran guarded ⟨⟨sound_launch accounts prefs _, initially⟩, .of_eq rfl⟩
  refine ⟨calls, stored, fun legible username own => ?_⟩
  obtain ⟨serves, left⟩ :=
    Directories.serves_performAll proper holder fresh plain legible
  rw [stored]
  exact ⟨(serves.loadChats own).trans left.loadChats, fun chatId =>
    (serves.loadMessages own).trans left.loadMessages⟩

end Screen
end Chat
end IdoProject
