import IdoProject.Chat.ViewModel

/-!
# The chat screen

The process around the view models: the table of user names, the credentials in
the preferences, and the `AiActivity` that is open.  Every activity that is
opened gets a view model of its own, except when it is re-created; a view model
whose activity is gone keeps its flows and its posted runnables.  The main
looper may take the runnables of different view models in any order.

The model is loaded whenever a message is sent.  The chat store is the one under
user names, so that a name is taken as one component of a path.
-/

namespace IdoProject
namespace Chat

open Java Store

/-- The process with its chat screen. -/
structure Screen where
  viewModelAt : Nat → ViewModel := fun _ => {}
  nextViewModel : Nat := 0
  /-- History: the account that was signed in when a view model was created. -/
  accountOf : Nat → Nat := fun _ => 0
  /-- History: the account and the chat whose messages a list was made for. -/
  conversationOf : Nat → Nat → Option (Nat × JInt) := fun _ _ => none
  /-- View model of the `AiActivity` that is open. -/
  current : Option Nat := none
  currentChatId : JInt := -1
  isInChat : Bool := false
  /-- The column `Username` of the table of users. -/
  accounts : List JString := []
  /-- History: the row whose user signed in. -/
  session : Option Nat := none
  prefs : Prefs := {}
  files : UserFiles := fun _ => none
  /-- History: the saves of finished generations, with their view model. -/
  saves : List (Nat × Save) := []
  crashed : Bool := false

namespace Screen

/-- What one view model works on. -/
def app (screen : Screen) (index : Nat) : App :=
  { viewModel := screen.viewModelAt index
    prefs := screen.prefs
    files := screen.files
    crashed := screen.crashed }

/-- Write back what one view model has worked on. -/
def withApp (screen : Screen) (index : Nat) (app : App) : Screen :=
  { screen with
    viewModelAt := Function.update screen.viewModelAt index app.viewModel
    files := app.files
    saves := screen.saves ++ app.saves.map fun save => (index, save)
    crashed := app.crashed }

/-- Note for whom the list in the live data was made. -/
def noteConversation
    (screen : Screen)
    (index : Nat)
    (chatId : JInt) : Screen :=
  { screen with
    conversationOf := Function.update screen.conversationOf index
      (Function.update (screen.conversationOf index)
        (screen.viewModelAt index).messages
        (some (screen.accountOf index, chatId))) }

/-- `AiActivity.resetUI`. -/
def resetUI (screen : Screen) : Screen :=
  { screen with isInChat := false }

/-- The observer of the `chats` live data. -/
def observeChats (screen : Screen) (index : Nat) : Screen :=
  if (screen.viewModelAt index).chats.isEmpty then screen.resetUI else screen

/-- `loadChats` of the view model, with the observer. -/
def loadChats (screen : Screen) (index : Nat) : Screen :=
  (screen.withApp index (screen.app index).loadChats).observeChats index

/-- `createNewChat` of the view model.  The list of chats is not empty then, so
the observer does nothing. -/
def createNewChat (screen : Screen) (index : Nat) : Screen :=
  (screen.withApp index (screen.app index).createNewChat).noteConversation index
    (App.maxId (screen.viewModelAt index).chats + 1)

/-- `AiActivity.startNewChatFromUI`. -/
def startNewChatFromUI (screen : Screen) (index : Nat) : Screen :=
  let created := { screen with isInChat := true }.createNewChat index
  match (created.viewModelAt index).chats.getLast? with
  | none => created
  | some last => { created with currentChatId := last.id }

/-- `AiActivity.onNewChat`. -/
def onNewChat (screen : Screen) (index : Nat) : Screen :=
  (screen.createNewChat index).startNewChatFromUI index

/-- `AiActivity.onChatSelected`. -/
def onChatSelected
    (screen : Screen)
    (index : Nat)
    (chat : ChatObject) : Screen :=
  ({ screen with
    currentChatId := chat.id
    isInChat := true }.withApp index
      ((screen.app index).loadMessages chat.id)).noteConversation index chat.id

/-- `AiActivity.onChatDelete`, once it is confirmed. -/
def onChatDelete
    (screen : Screen)
    (index : Nat)
    (chat : ChatObject) : Screen :=
  let deleted :=
    (screen.withApp index ((screen.app index).deleteChat chat)).observeChats index
  if deleted.currentChatId = chat.id then deleted.resetUI else deleted

/-- `AiActivity.sendMessage`. -/
def sendMessage
    (screen : Screen)
    (index : Nat)
    (input : JString) : Screen :=
  let text := trim input
  if text.isEmpty then screen
  else
    let shown :=
      if screen.isInChat then screen else screen.startNewChatFromUI index
    shown.withApp index ((shown.app index).withViewModel
      ((shown.viewModelAt index).sendMessage shown.prefs text
        shown.currentChatId))

/-- A new `AiActivity` with a new view model: `onCreate` and `onResume`. -/
def openActivity (screen : Screen) (account : Nat) : Screen :=
  let index := screen.nextViewModel
  let opened :=
    { screen with
      viewModelAt := Function.update screen.viewModelAt index {}
      nextViewModel := index + 1
      accountOf := Function.update screen.accountOf index account
      current := some index
      currentChatId := -1
      isInChat := false }
  (opened.loadChats index).loadChats index

/-- `saveCardensials` for a row of the table, and the chat screen. -/
def signIn
    (screen : Screen)
    (account : Nat)
    (username password : JString) : Screen :=
  { screen with
    prefs := screen.prefs.saveCardensials username password
    session := some account }.openActivity account

/-- `SettingsActivity.saveNewUsername`. -/
def saveNewUsername (screen : Screen) (input : JString) : Screen :=
  let newName := trim input
  let oldName := Prefs.orNull screen.prefs.username
  if newName.isEmpty then screen
  else if screen.prefs.username = some newName then screen
  else if oldName ∈ screen.accounts then
    { screen with
      accounts := screen.accounts.map fun name =>
        if name = oldName then newName else name
      files := (screen.files.renameUserDirectory oldName newName).1
      prefs := screen.prefs.saveCardensials newName
        (screen.prefs.password.getD []) }
  else screen

/-- What can happen to the process. -/
inductive Event
  /-- `SignUpActivity` has inserted a row and signs its user in. -/
  | signUp (username password : JString)
  /-- `MainActivity` signs in the user of a row. -/
  | logIn (account : Nat) (password : JString)
  | logOut
  /-- `MainActivity` finds a signed-in user, or the activity was closed. -/
  | openAgain
  /-- The open activity is re-created, with the same view model. -/
  | recreate
  | resume
  | saveNewUsername (input : JString)
  | saveSettings (prefs : Prefs)
  | newChat
  | selectChat (chat : ChatObject)
  | deleteChat (chat : ChatObject)
  | send (input : JString)
  /-- A flow, its callback or the main looper goes on for one view model. -/
  | stream (index : Nat) (event : App.Event)

/-- An event of the open activity. -/
def onCurrent (screen : Screen) (act : Nat → Screen) : Option Screen :=
  screen.current.map act

/-- One event.  A process that has died does nothing. -/
def step
    (toLowerCase : JString → JString)
    (screen : Screen) : Event → Option Screen
  | event =>
      if screen.crashed then none
      else match event with
        | .signUp username password =>
            some ({ screen with
              accounts := screen.accounts ++ [username] }.signIn
                screen.accounts.length username password)
        | .logIn account password =>
            (screen.accounts[account]?).bind fun username =>
              if trim username = username then
                some (screen.signIn account username password)
              else none
        | .logOut =>
            screen.onCurrent fun _ =>
              { screen with
                prefs := screen.prefs.clearCardensials
                session := none
                current := none }
        | .openAgain => screen.session.map screen.openActivity
        | .recreate =>
            screen.onCurrent fun index =>
              ({ screen with
                currentChatId := -1
                isInChat := false }.loadChats index).loadChats index
        | .resume => screen.onCurrent screen.loadChats
        | .saveNewUsername input =>
            screen.onCurrent fun _ => screen.saveNewUsername input
        | .saveSettings prefs =>
            some { screen with
              prefs := { prefs with
                username := screen.prefs.username
                password := screen.prefs.password
                isLoggedIn := screen.prefs.isLoggedIn } }
        | .newChat => screen.onCurrent screen.onNewChat
        | .selectChat chat =>
            screen.current.bind fun index =>
              if chat ∈ (screen.viewModelAt index).exposed then
                some (screen.onChatSelected index chat)
              else none
        | .deleteChat chat =>
            screen.current.bind fun index =>
              if chat ∈ (screen.viewModelAt index).exposed then
                some (screen.onChatDelete index chat)
              else none
        | .send input =>
            screen.onCurrent fun index => screen.sendMessage index input
        | .stream index event =>
            if index < screen.nextViewModel ∧ event.isStream = true then
              ((screen.app index).step toLowerCase event).map
                (screen.withApp index)
            else none

/-- The process as a labelled machine. -/
def machine
    (toLowerCase : JString → JString) : Transition.Machine Screen Event where
  step := Screen.step toLowerCase

end Screen
end Chat
end IdoProject
