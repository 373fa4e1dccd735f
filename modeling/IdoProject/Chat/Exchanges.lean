import IdoProject.Chat.Attribution
import IdoProject.Chat.Forging

/-!
# Transcripts are exchanges

Message objects are shared by the lists, the generations and the runnables, and
lists are changed in place while other activities, other users and late
runnables go on.  Whatever the order, every list of messages, in memory and on
disk, is a sequence of exchanges: a question that is not blank, and one answer.
No question or answer is ever stored on its own.
-/

namespace IdoProject
namespace Chat

open Java Store

/-- A question of the user that is not blank, and the answer to it. -/
structure IsExchange (question answer : Message) : Prop where
  asked : question.sender = 0
  trimmed : trim question.content = question.content
  written : question.content ≠ []
  answered : answer.sender = 1

/-- A transcript is exchanges one after the other. -/
inductive Exchanges : List Message → Prop
  | nil : Exchanges []
  | cons {question answer : Message} {rest : List Message}
      (first : IsExchange question answer)
      (later : Exchanges rest) :
      Exchanges (question :: answer :: rest)

namespace Exchanges

theorem append
    {messages others : List Message}
    (exchanges : Exchanges messages)
    (also : Exchanges others) :
    Exchanges (messages ++ others) := by
  induction exchanges with
  | nil => exact also
  | cons first _ inductionHypothesis => exact .cons first inductionHypothesis

/-- Giving answers another content keeps the exchanges. -/
theorem map_of_kept
    {before after : Nat → Message}
    {objects : List Nat}
    (exchanges : Exchanges (objects.map before))
    (questions : ∀ object ∈ objects, (before object).sender = 0 →
      after object = before object)
    (answers : ∀ object ∈ objects, (before object).sender = 1 →
      (after object).sender = 1) :
    Exchanges (objects.map after) := by
  generalize same : objects.map before = messages at exchanges
  induction exchanges generalizing objects with
  | nil =>
      rw [List.map_eq_nil_iff.mp same]
      exact .nil
  | cons first _ inductionHypothesis =>
      obtain ⟨question, others, rfl, rfl, tail⟩ := List.map_eq_cons_iff.mp same
      obtain ⟨answer, rest, rfl, rfl, last⟩ := List.map_eq_cons_iff.mp tail
      rw [List.forall_mem_cons, List.forall_mem_cons] at questions answers
      rw [List.map_cons, List.map_cons]
      have kept := questions.1 first.asked
      refine .cons ⟨?_, ?_, ?_, answers.2.1 first.answered⟩
        (inductionHypothesis questions.2.2 answers.2.2 last)
      · rw [kept]
        exact first.asked
      · rw [kept]
        exact first.trimmed
      · rw [kept]
        exact first.written

end Exchanges

/-- Every message file is a transcript. -/
def FiledExchanges (files : UserFiles) : Prop :=
  ∀ username chatId, Exchanges (files.loadMessages username chatId)

namespace FiledExchanges

variable {files : UserFiles}

/-- A directory of transcripts under one name. -/
theorem update
    (filed : FiledExchanges files)
    (username : JString)
    (directory : Option (UserDirectory (List ChatRecord) (List Message)))
    (own : ∀ chatId,
      Exchanges (((directory.getD {}).messages chatId).getD [])) :
    FiledExchanges (Function.update files username directory) := by
  intro other chatId
  unfold UserFiles.loadMessages UserFiles.directory
  rw [Function.update_apply]
  split
  · exact own chatId
  · exact filed other chatId

theorem saveChats
    (filed : FiledExchanges files)
    (username : JString)
    (chats : List ChatRecord) :
    FiledExchanges (files.saveChats username chats) :=
  filed.update username _ (filed username)

theorem saveMessages
    (filed : FiledExchanges files)
    (username : JString)
    (chatId : JInt)
    {messages : List Message}
    (exchanges : Exchanges messages) :
    FiledExchanges (files.saveMessages username chatId messages) := by
  refine filed.update username _ fun other => ?_
  dsimp only [Option.getD_some]
  rw [Function.update_apply]
  split
  · exact exchanges
  · exact filed username other

theorem removeChat
    (filed : FiledExchanges files)
    (username : JString)
    (chatId : JInt) :
    FiledExchanges (files.removeChat username chatId) := by
  intro other otherId
  by_cases same : other = username
  case pos =>
    rw [same, UserFiles.loadMessages_removeChat]
    split
    · exact .nil
    · exact filed username otherId
  case neg =>
    have kept : (files.removeChat username chatId) other = files other := by
      unfold UserFiles.removeChat UserFiles.saveChats
      cases files username with
      | none => rfl
      | some directory =>
          dsimp only
          split
          · rw [Function.update_of_ne same, Function.update_of_ne same]
          · rfl
    unfold UserFiles.loadMessages UserFiles.directory
    rw [kept]
    exact filed other otherId

theorem renameUserDirectory
    (filed : FiledExchanges files)
    (oldUsername newUsername : JString) :
    FiledExchanges
      (files.renameUserDirectory oldUsername newUsername).1 := by
  unfold UserFiles.renameUserDirectory
  split
  case h_1 moved there missing =>
    refine FiledExchanges.update (filed.update oldUsername none ?_) newUsername
      (some moved) fun chatId => ?_
    · exact fun _ => .nil
    · have own := filed oldUsername chatId
      unfold UserFiles.loadMessages UserFiles.directory at own
      rw [there] at own
      exact own
  case h_2 | h_3 => exact filed

end FiledExchanges

namespace App

/-- Every list of messages is a transcript, and the AI messages of the
generations are answers. -/
structure Transcribed (app : App) : Prop where
  wellFormed : app.WellFormed
  lists : ∀ list, Exchanges (app.viewModel.conversation list)
  answers : ∀ index < app.viewModel.nextGeneration,
    (app.viewModel.messageAt
      (app.viewModel.generationAt index).aiMsgObject).sender = 1
  saved : ∀ save ∈ app.saves, Exchanges save.messages
  filed : FiledExchanges app.files

namespace Transcribed

variable {toLowerCase : JString → JString}
variable {app next : App}
variable {index : Nat}

/-- Where lists and messages stay, they are as transcribed as they were. -/
theorem of_same
    (transcribed : app.Transcribed)
    (wellFormed : next.WellFormed)
    (lists : next.viewModel.listAt = app.viewModel.listAt)
    (contents : next.viewModel.messageAt = app.viewModel.messageAt)
    (count : next.viewModel.nextGeneration = app.viewModel.nextGeneration)
    (objects : ∀ index, (next.viewModel.generationAt index).aiMsgObject =
      (app.viewModel.generationAt index).aiMsgObject)
    (saves : next.saves = app.saves)
    (filed : FiledExchanges next.files) :
    next.Transcribed where
  wellFormed := wellFormed
  lists := by
    unfold ViewModel.conversation
    rw [lists, contents]
    exact transcribed.lists
  answers := by
    rw [contents, count]
    simp only [objects]
    exact transcribed.answers
  saved := by
    rw [saves]
    exact transcribed.saved
  filed := filed

/-- Giving the answer of a generation another content. -/
theorem setContent
    (transcribed : app.Transcribed)
    (started : index < app.viewModel.nextGeneration)
    (content : JString) :
    (app.withViewModel (app.viewModel.setContent
      (app.viewModel.generationAt index).aiMsgObject content)).Transcribed := by
  have written (message : Nat) :
      (app.viewModel.setContent (app.viewModel.generationAt index).aiMsgObject
        content).messageAt message =
      if message = (app.viewModel.generationAt index).aiMsgObject then
        { app.viewModel.messageAt
            (app.viewModel.generationAt index).aiMsgObject with
          content := content }
      else app.viewModel.messageAt message :=
    Function.update_apply _ _ _ _
  have answer := transcribed.answers index started
  have sender (message : Nat) :
      ((app.viewModel.setContent (app.viewModel.generationAt index).aiMsgObject
        content).messageAt message).sender =
      (app.viewModel.messageAt message).sender := by
    rw [written]
    split
    case isTrue same => rw [same]
    case isFalse => rfl
  refine
    { wellFormed := transcribed.wellFormed.of_same rfl rfl rfl rfl rfl rfl
      lists := fun list => ?_
      answers := fun other inside =>
        (sender _).trans (transcribed.answers other inside)
      saved := transcribed.saved
      filed := transcribed.filed }
  refine (transcribed.lists list).map_of_kept
    (fun object _ user => ?_) (fun object _ answers => ?_)
  · refine (written object).trans (if_neg fun same => ?_)
    rw [same, answer] at user
    cases user
  · exact (sender object).trans answers

/-- Finalizing saves the list in the live data. -/
theorem finalizeGeneration
    (transcribed : app.Transcribed)
    (started : index < app.viewModel.nextGeneration) :
    (app.finalizeGeneration index).Transcribed where
  wellFormed := transcribed.wellFormed.finalizeGeneration started
  lists := transcribed.lists
  answers := transcribed.answers
  saved := by
    intro save present
    rcases List.mem_append.mp present with earlier | new
    · exact transcribed.saved save earlier
    · rw [List.mem_singleton.mp new]
      exact transcribed.lists app.viewModel.messages
  filed := transcribed.filed.saveMessages _ _
    (transcribed.lists app.viewModel.messages)

/-- The runnable of a token of a generation that has started. -/
theorem runToken
    (transcribed : app.Transcribed)
    (started : index < app.viewModel.nextGeneration)
    (token : JString) :
    (app.runToken toLowerCase index token).Transcribed := by
  have counted : (app.withViewModel
      (app.viewModel.countToken index)).Transcribed :=
    transcribed.of_same (transcribed.wellFormed.setGeneration _ started rfl)
      rfl rfl rfl (fun _ => setGeneration_aiMsgObject rfl) rfl transcribed.filed
  have stopped : (app.withViewModel
      (app.viewModel.countToken index).stop).Transcribed :=
    counted.of_same (counted.wellFormed.of_same rfl rfl rfl rfl rfl rfl)
      rfl rfl rfl (fun _ => rfl) rfl counted.filed
  have appended : (app.withViewModel
      ((app.viewModel.countToken index).appendToken token)).Transcribed :=
    counted.of_same (counted.wellFormed.of_same rfl rfl rfl rfl rfl rfl)
      rfl rfl rfl (fun _ => rfl) rfl counted.filed
  have message : ((app.viewModel.countToken index).generationAt
      index).aiMsgObject = (app.viewModel.generationAt index).aiMsgObject := by
    rw [countToken_generationAt_self]
  rw [runToken_eq, ← message]
  split
  · exact stopped.finalizeGeneration started
  · exact (stopped.setContent started _).finalizeGeneration started
  · exact stopped.of_same stopped.wellFormed.crash rfl rfl rfl (fun _ => rfl)
      rfl stopped.filed
  · exact appended.setContent started _

/-- A transcript from disk as a new list in the live data. -/
theorem replaceMessages
    (transcribed : app.Transcribed)
    {messages : List Message}
    (exchanges : Exchanges messages) :
    (app.withViewModel
      (app.viewModel.replaceMessages messages)).Transcribed := by
  have older (message : Nat) (before : message < app.viewModel.nextMessage) :
      (app.viewModel.replaceMessages messages).messageAt message =
        app.viewModel.messageAt message :=
    if_pos before
  refine
    { wellFormed := transcribed.wellFormed.replaceMessages messages
      lists := fun list => ?_
      answers := fun index inside => ?_
      saved := transcribed.saved
      filed := transcribed.filed }
  · by_cases new : list = app.viewModel.nextList
    · have shown := conversation_replaceMessages app.viewModel messages
      rw [new]
      change Exchanges ((app.viewModel.replaceMessages messages).conversation
        (app.viewModel.replaceMessages messages).messages)
      rw [shown]
      exact exchanges
    · have kept : (app.viewModel.replaceMessages messages).listAt list =
          app.viewModel.listAt list :=
        Function.update_of_ne new _ _
      have same : (app.viewModel.replaceMessages messages).conversation list =
          app.viewModel.conversation list := by
        unfold ViewModel.conversation
        rw [kept]
        exact List.map_congr_left fun message present =>
          older message (transcribed.wellFormed.listed list message present)
      change Exchanges
        ((app.viewModel.replaceMessages messages).conversation list)
      rw [same]
      exact transcribed.lists list
  · have before := transcribed.wellFormed.allocated index inside
    exact (congrArg Message.sender (older _ before)).trans
      (transcribed.answers index inside)

/-- A question that is not blank, with its empty answer. -/
theorem sendMessage
    (transcribed : app.Transcribed)
    {userText : JString}
    (trimmed : trim userText = userText)
    (written : userText ≠ [])
    (chatId : JInt) :
    (app.withViewModel (app.viewModel.sendMessage app.prefs userText
      chatId)).Transcribed := by
  have message := sendMessage_messageAt app userText chatId
  have older (list : Nat) : (app.viewModel.listAt list).map
      (app.viewModel.sendMessage app.prefs userText chatId).messageAt =
        app.viewModel.conversation list := by
    refine List.map_congr_left fun object present => ?_
    have before := transcribed.wellFormed.listed list object present
    rw [message, if_neg (by omega), if_neg (by omega)]
  refine
    { wellFormed := transcribed.wellFormed.sendMessage userText chatId
      lists := fun list => ?_
      answers := fun index inside => ?_
      saved := transcribed.saved
      filed := transcribed.filed }
  · change Exchanges ((Function.update app.viewModel.listAt
      app.viewModel.messages (app.viewModel.listAt app.viewModel.messages ++
        [app.viewModel.nextMessage, app.viewModel.nextMessage + 1]) list).map
      (app.viewModel.sendMessage app.prefs userText chatId).messageAt)
    rw [Function.update_apply]
    split
    · rw [List.map_append, older]
      refine (transcribed.lists _).append ?_
      rw [List.map_cons, List.map_singleton, message, message,
        if_neg (by omega), if_pos rfl, if_pos rfl]
      exact .cons ⟨rfl, trimmed, written, rfl⟩ .nil
    · rw [older]
      exact transcribed.lists list
  · change index < app.viewModel.nextGeneration + 1 at inside
    change ((app.viewModel.sendMessage app.prefs userText chatId).messageAt
      ((app.viewModel.sendMessage app.prefs userText chatId).generationAt
        index).aiMsgObject).sender = 1
    by_cases new : index = app.viewModel.nextGeneration
    case pos =>
      rw [new, sendMessage_generationAt_new, message, if_pos rfl]
    case neg =>
      have kept : (app.viewModel.sendMessage app.prefs userText
          chatId).generationAt index = app.viewModel.generationAt index :=
        Function.update_of_ne new _ _
      have before := transcribed.wellFormed.allocated index (by omega)
      rw [kept, message, if_neg (by omega), if_neg (by omega)]
      exact transcribed.answers index (by omega)

/-- A view model that has just been created. -/
theorem launch
    (prefs : Prefs)
    {files : UserFiles}
    (filed : FiledExchanges files) :
    App.Transcribed { prefs := prefs, files := files } where
  wellFormed := wellFormed_launch prefs files
  lists := fun _ => .nil
  answers := fun _ before => absurd before (Nat.not_lt_zero _)
  saved := fun _ present => absurd present List.not_mem_nil
  filed := filed

/-- Beside other saves and settings, and with other files. -/
theorem elsewhere
    (transcribed : app.Transcribed)
    (same : next.viewModel = app.viewModel)
    (unsaved : next.saves = [])
    (filed : FiledExchanges next.files) :
    next.Transcribed := by
  have wellFormed := transcribed.wellFormed
  refine
    { wellFormed := ?_
      lists := by rw [same]; exact transcribed.lists
      answers := by rw [same]; exact transcribed.answers
      saved := by simp [unsaved]
      filed := filed }
  exact
    { future := by rw [same]; exact wellFormed.future
      listed := by rw [same]; exact wellFormed.listed
      allocated := by rw [same]; exact wellFormed.allocated
      distinct := by rw [same]; exact wellFormed.distinct
      posted := by rw [same]; exact wellFormed.posted
      saved := by simp [unsaved] }

theorem loadChats
    (transcribed : app.Transcribed) :
    app.loadChats.Transcribed :=
  transcribed.of_same (transcribed.wellFormed.of_same rfl rfl rfl rfl rfl rfl)
    rfl rfl rfl (fun _ => rfl) rfl transcribed.filed

theorem createNewChat
    (transcribed : app.Transcribed) :
    app.createNewChat.Transcribed := by
  have replaced := transcribed.replaceMessages Exchanges.nil
  exact replaced.of_same
    (replaced.wellFormed.of_same rfl rfl rfl rfl rfl rfl)
    rfl rfl rfl (fun _ => rfl) rfl (transcribed.filed.saveChats _ _)

theorem deleteChat
    (transcribed : app.Transcribed)
    (chat : ChatObject) :
    (app.deleteChat chat).Transcribed :=
  transcribed.of_same (transcribed.wellFormed.of_same rfl rfl rfl rfl rfl rfl)
    rfl rfl rfl (fun _ => rfl) rfl (transcribed.filed.removeChat _ _)

theorem loadMessages
    (transcribed : app.Transcribed)
    (chatId : JInt) :
    (app.loadMessages chatId).Transcribed :=
  transcribed.replaceMessages (transcribed.filed _ _)

/-- Flows, their callbacks and the main looper. -/
theorem stream
    {event : Event}
    (transcribed : app.Transcribed)
    (isStream : event.isStream = true)
    (fired : app.step toLowerCase event = some next) :
    next.Transcribed := by
  have wellFormed := transcribed.wellFormed.step fired
  obtain ⟨-, fires⟩ := fires_of_step fired
  cases fires with
  | saveSettings | loadChats | loadMessages | createNewChat | deleteChat
  | sendMessage => cases isStream
  | deliver | post | endStream =>
      exact transcribed.of_same wellFormed rfl rfl rfl
        (fun _ => setGeneration_aiMsgObject rfl) rfl transcribed.filed
  | runPosted index token rest queued =>
      have popped : (app.withViewModel
          { app.viewModel with posted := rest }).Transcribed :=
        transcribed.of_same (transcribed.wellFormed.popped queued) rfl rfl rfl
          (fun _ => rfl) rfl transcribed.filed
      refine popped.runToken
        (transcribed.wellFormed.posted (index, token) ?_) token
      rw [queued]
      exact List.mem_cons_self

end Transcribed
end App

namespace Screen

/-- All view models of the process work on transcripts, and only transcripts
have been saved. -/
structure Transcribed (screen : Screen) : Prop where
  apps : ∀ index, (screen.app index).Transcribed
  saved : ∀ entry ∈ screen.saves, Exchanges entry.2.messages

namespace Transcribed

variable {toLowerCase : JString → JString}
variable {screen next : Screen}
variable {index : Nat}

theorem filed
    (transcribed : screen.Transcribed) :
    FiledExchanges screen.files :=
  (transcribed.apps 0).filed

/-- Beside the view models. -/
theorem of_same
    (transcribed : screen.Transcribed)
    (viewModels : next.viewModelAt = screen.viewModelAt)
    (saves : next.saves = screen.saves)
    (filed : FiledExchanges next.files) :
    next.Transcribed := by
  refine ⟨fun index => ?_, by rw [saves]; exact transcribed.saved⟩
  exact (transcribed.apps index).elsewhere
    (congrFun viewModels index) rfl filed

/-- What one view model does on transcripts. -/
theorem withApp
    {app : App}
    (transcribed : screen.Transcribed)
    (own : app.Transcribed) :
    (screen.withApp index app).Transcribed := by
  refine ⟨fun other => ?_, fun entry present => ?_⟩
  · by_cases same : other = index
    · subst same
      exact own.elsewhere (Function.update_self _ _ _) rfl own.filed
    · exact (transcribed.apps other).elsewhere
        (Function.update_of_ne same _ _) rfl own.filed
  · rcases List.mem_append.mp present with earlier | new
    · exact transcribed.saved entry earlier
    · obtain ⟨save, inside, rfl⟩ := List.mem_map.mp new
      exact own.saved save inside

theorem observeChats
    (transcribed : screen.Transcribed) :
    (screen.observeChats index).Transcribed := by
  unfold Screen.observeChats
  split
  · exact transcribed.of_same rfl rfl transcribed.filed
  · exact transcribed

theorem loadChats
    (transcribed : screen.Transcribed) :
    (screen.loadChats index).Transcribed :=
  (transcribed.withApp (transcribed.apps index).loadChats).observeChats

theorem createNewChat
    (transcribed : screen.Transcribed) :
    (screen.createNewChat index).Transcribed := by
  have created : (screen.withApp index
      (screen.app index).createNewChat).Transcribed :=
    transcribed.withApp (transcribed.apps index).createNewChat
  exact created.of_same rfl rfl created.filed

theorem startNewChatFromUI
    (transcribed : screen.Transcribed) :
    (screen.startNewChatFromUI index).Transcribed := by
  have inChat : ({ screen with isInChat := true } : Screen).Transcribed :=
    transcribed.of_same rfl rfl transcribed.filed
  have created : ({ screen with isInChat := true }.createNewChat
      index).Transcribed := inChat.createNewChat
  rw [startNewChatFromUI_eq]
  exact created.of_same rfl rfl created.filed

theorem onChatSelected
    (transcribed : screen.Transcribed)
    (chat : ChatObject) :
    (screen.onChatSelected index chat).Transcribed := by
  have shown : ({ screen with
      currentChatId := chat.id
      isInChat := true } : Screen).Transcribed :=
    transcribed.of_same rfl rfl transcribed.filed
  have loaded : ({ screen with
      currentChatId := chat.id
      isInChat := true }.withApp index
        ((screen.app index).loadMessages chat.id)).Transcribed :=
    shown.withApp ((transcribed.apps index).loadMessages chat.id)
  exact loaded.of_same rfl rfl loaded.filed

theorem onChatDelete
    (transcribed : screen.Transcribed)
    (chat : ChatObject) :
    (screen.onChatDelete index chat).Transcribed := by
  have deleted : ((screen.withApp index
      ((screen.app index).deleteChat chat)).observeChats index).Transcribed :=
    (transcribed.withApp ((transcribed.apps index).deleteChat chat)).observeChats
  unfold Screen.onChatDelete
  dsimp only
  split
  · exact deleted.of_same rfl rfl deleted.filed
  · exact deleted

theorem sendMessage
    (transcribed : screen.Transcribed)
    (input : JString) :
    (screen.sendMessage index input).Transcribed := by
  unfold Screen.sendMessage
  dsimp only
  split
  case isTrue => exact transcribed
  case isFalse written =>
    have text : trim input ≠ [] := fun blank => written (by rw [blank]; rfl)
    split
    · exact transcribed.withApp
        ((transcribed.apps index).sendMessage (trim_trim input) text _)
    · have started : (screen.startNewChatFromUI index).Transcribed :=
        transcribed.startNewChatFromUI
      exact started.withApp
        ((started.apps index).sendMessage (trim_trim input) text _)

theorem openActivity
    (transcribed : screen.Transcribed)
    (account : Nat) :
    (screen.openActivity account).Transcribed := by
  refine Transcribed.loadChats (Transcribed.loadChats ⟨fun other => ?_,
    transcribed.saved⟩)
  by_cases new : other = screen.nextViewModel
  · rw [new]
    exact (App.Transcribed.launch {} transcribed.filed).elsewhere
      (Function.update_self _ _ _) rfl transcribed.filed
  · exact (transcribed.apps other).elsewhere (Function.update_of_ne new _ _)
      rfl transcribed.filed

theorem saveNewUsername
    (transcribed : screen.Transcribed)
    (input : JString) :
    (screen.saveNewUsername input).Transcribed := by
  rcases saveNewUsername_cases screen input with same | ⟨-, same⟩
  · rw [same]
    exact transcribed
  · rw [same]
    exact transcribed.of_same rfl rfl
      (transcribed.filed.renameUserDirectory _ _)

/-- Every event keeps it, whatever the other events are. -/
theorem step
    {event : Event}
    (transcribed : screen.Transcribed)
    (fired : screen.step toLowerCase event = some next) :
    next.Transcribed := by
  have filed := transcribed.filed
  cases fires_of_step fired with
  | signUp username password =>
      apply Transcribed.openActivity
      exact transcribed.of_same rfl rfl filed
  | logIn account username password =>
      apply Transcribed.openActivity
      exact transcribed.of_same rfl rfl filed
  | logOut | saveSettings => exact transcribed.of_same rfl rfl filed
  | openAgain account => exact transcribed.openActivity account
  | recreate index =>
      apply Transcribed.loadChats
      apply Transcribed.loadChats
      exact transcribed.of_same rfl rfl filed
  | resume => exact transcribed.loadChats
  | saveNewUsername index input => exact transcribed.saveNewUsername input
  | newChat => exact transcribed.createNewChat.startNewChatFromUI
  | selectChat index chat => exact transcribed.onChatSelected chat
  | deleteChat index chat => exact transcribed.onChatDelete chat
  | send index input => exact transcribed.sendMessage input
  | stream index event app started isStream ran =>
      exact transcribed.withApp ((transcribed.apps index).stream isStream ran)

/-- A process that has just started. -/
theorem launch
    (accounts : List JString)
    (prefs : Prefs)
    {files : UserFiles}
    (filed : FiledExchanges files) :
    Transcribed { accounts := accounts, prefs := prefs, files := files } := by
  refine ⟨fun index => ?_,
    fun entry present => absurd present List.not_mem_nil⟩
  exact (App.Transcribed.launch prefs filed).elsewhere rfl rfl filed

end Transcribed

/-- Whatever happens in the process, in whatever order, with any number of
activities, users and generations side by side: every list of messages in
memory, every message file and everything that was ever saved is a sequence of
exchanges, if the files were so at the start. -/
theorem exchanges_of_run
    (toLowerCase : JString → JString)
    (accounts : List JString)
    (prefs : Prefs)
    (files : UserFiles)
    (events : List Event)
    (finish : Screen)
    (filed : FiledExchanges files)
    (ran : (machine toLowerCase).run
      { accounts := accounts, prefs := prefs, files := files } events =
        some finish) :
    (∀ index list,
        Exchanges ((finish.viewModelAt index).conversation list)) ∧
      (∀ username chatId,
        Exchanges (finish.files.loadMessages username chatId)) ∧
      ∀ entry ∈ finish.saves, Exchanges entry.2.messages := by
  have transcribed : finish.Transcribed :=
    Transition.Machine.run_invariant
      (fun _ _ _ holds fired => holds.step fired) ran
      (Transcribed.launch accounts prefs filed)
  exact ⟨fun index list => (transcribed.apps index).lists list,
    transcribed.filed, transcribed.saved⟩

/-- A new chat is opened while the answer in chat 1 is on its way: what
overwrites the file of chat 1 is a sequence of exchanges as well. -/
theorem exchanges_of_overwritten_chat :
    ∃ finish, (machine toLowerCaseAscii).run {}
        [.signUp (jstr "ann") (jstr "Abcdef1!"), .send (jstr "hi "),
          .stream 0 (.deliver 0 (jstr "ok###")), .stream 0 (.post 0), .newChat,
          .send (jstr "ho"), .stream 0 .runPosted] = some finish ∧
      finish.files.loadMessages (jstr "ann") 1 =
        [⟨jstr "ho", 0⟩, ⟨[], 1⟩] ∧
      Exchanges (finish.files.loadMessages (jstr "ann") 1) := by
  obtain ⟨finish, ran, stored⟩ := Option.map_eq_some_iff.mp
    (show ((machine toLowerCaseAscii).run
        { accounts := [], prefs := {}, files := fun _ => none }
        [.signUp (jstr "ann") (jstr "Abcdef1!"), .send (jstr "hi "),
          .stream 0 (.deliver 0 (jstr "ok###")), .stream 0 (.post 0), .newChat,
          .send (jstr "ho"), .stream 0 .runPosted]).map
        (fun screen => screen.files.loadMessages (jstr "ann") 1) =
      some [⟨jstr "ho", 0⟩, ⟨[], 1⟩] by decide +kernel)
  exact ⟨finish, ran, stored, (exchanges_of_run toLowerCaseAscii [] {}
    (fun _ => none) _ finish (fun _ _ => .nil) ran).2.1 _ _⟩

end Screen

end Chat
end IdoProject
