import IdoProject.Chat.Prompt
import IdoProject.Chat.Reply
import IdoProject.Transition.Machine

/-!
# The chat view model

`ChatViewModel` with the objects it shares between its methods: messages and
message lists are heap objects, so that a list that is replaced and a list that
is changed in place are told apart.  A generation is the set of variables that
the token callback of one `generate` call captures, together with the native
flow that feeds it.  Background callbacks and main-looper runnables are separate
actions; a callback first tests `stopGeneration` and only then posts.

File operations succeed in this module.
-/

namespace IdoProject
namespace Chat

open Java Store

/-- A `Chat` object.  It has no `equals`, so `remove` compares the identity. -/
structure ChatObject extends ChatRecord where
  identity : Nat
  deriving DecidableEq

/-- Variables captured by the callback of one `generate` call, and the flow
that calls it. -/
structure Generation where
  prompt : JString := []
  aiMsgObject : Nat := 0
  chatId : JInt := 0
  maxTokens : Int := 0
  /-- Below `2 ^ 31`, since `LLamaAndroid.send` emits at most 256 tokens. -/
  tokenCount : Int := 0
  /-- The flow is still being collected. -/
  streaming : Bool := false
  /-- A token that passed the test of `stopGeneration` and is not posted yet. -/
  posting : Option JString := none
  /-- History: the tokens the flow has handed to the callback. -/
  delivered : List JString := []
  /-- History: the list object to which the pair of messages was appended. -/
  list : Nat := 0
  deriving DecidableEq

/-- A call of `JsonHelper.saveMessages` by `finalizeGeneration`. -/
structure Save where
  /-- History: the generation that was finalized. -/
  generation : Nat
  /-- History: content of its AI message at that moment. -/
  reply : JString
  username : Option JString
  chatId : JInt
  list : Nat
  messages : List Message
  deriving DecidableEq

/-- Fields and heap of one view model, and the runnables it has posted. -/
structure ViewModel where
  stopGeneration : Bool := false
  fullResponseBuffer : JString := []
  /-- The list object in the `messages` live data. -/
  messages : Nat := 0
  chats : List ChatObject := []
  isGenerating : Bool := false
  streamToken : Option JString := none
  finishedResponse : Option JString := none
  messageAt : Nat → Message := fun _ => ⟨[], 0⟩
  nextMessage : Nat := 0
  listAt : Nat → List Nat := fun _ => []
  nextList : Nat := 1
  nextChat : Nat := 0
  /-- History: every object the `chats` live data has exposed. -/
  exposed : List ChatObject := []
  generationAt : Nat → Generation := fun _ => {}
  nextGeneration : Nat := 0
  /-- Runnables in the queue of the main looper, with their generation. -/
  posted : List (Nat × JString) := []

namespace ViewModel

/-- Contents of a message list. -/
def conversation (viewModel : ViewModel) (list : Nat) : List Message :=
  (viewModel.listAt list).map viewModel.messageAt

/-- `Message.setContent`. -/
def setContent
    (viewModel : ViewModel)
    (message : Nat)
    (content : JString) : ViewModel :=
  { viewModel with
    messageAt := Function.update viewModel.messageAt message
      { viewModel.messageAt message with content := content } }

/-- Write back the variables of one generation. -/
def setGeneration
    (viewModel : ViewModel)
    (index : Nat)
    (generation : Generation) : ViewModel :=
  { viewModel with
    generationAt := Function.update viewModel.generationAt index generation }

/-- `tokenCount[0]++`. -/
def countToken (viewModel : ViewModel) (index : Nat) : ViewModel :=
  let generation := viewModel.generationAt index
  viewModel.setGeneration index
    { generation with tokenCount := generation.tokenCount + 1 }

/-- `stopGeneration = true`. -/
def stop (viewModel : ViewModel) : ViewModel :=
  { viewModel with stopGeneration := true }

/-- Append a token to the buffer and publish it. -/
def appendToken (viewModel : ViewModel) (token : JString) : ViewModel :=
  { viewModel with
    fullResponseBuffer := viewModel.fullResponseBuffer ++ token
    streamToken := some token }

/-- Put a new list object into the `messages` live data. -/
def replaceMessages
    (viewModel : ViewModel)
    (messages : List Message) : ViewModel :=
  { viewModel with
    messageAt := fun index =>
      if index < viewModel.nextMessage then viewModel.messageAt index
      else messages.getD (index - viewModel.nextMessage) ⟨[], 0⟩
    nextMessage := viewModel.nextMessage + messages.length
    listAt := Function.update viewModel.listAt viewModel.nextList
      (List.range' viewModel.nextMessage messages.length)
    nextList := viewModel.nextList + 1
    messages := viewModel.nextList }

/-- Put a list into the `chats` live data. -/
def setChats (viewModel : ViewModel) (chats : List ChatObject) : ViewModel :=
  { viewModel with
    chats := chats
    exposed := viewModel.exposed ++ chats }

/-- `sendMessage`, with the part of `generate` that runs on the main thread. -/
def sendMessage
    (viewModel : ViewModel)
    (prefs : Prefs)
    (userText : JString)
    (chatId : JInt) : ViewModel :=
  let userMsg := viewModel.nextMessage
  let aiMsg := viewModel.nextMessage + 1
  let prompt := buildPrompt prefs
    (viewModel.conversation viewModel.messages) userText
  { viewModel with
    messageAt := Function.update
      (Function.update viewModel.messageAt userMsg ⟨userText, 0⟩)
      aiMsg ⟨[], 1⟩
    nextMessage := viewModel.nextMessage + 2
    listAt := Function.update viewModel.listAt viewModel.messages
      (viewModel.listAt viewModel.messages ++ [userMsg, aiMsg])
    isGenerating := true
    fullResponseBuffer := []
    stopGeneration := false
    generationAt := Function.update viewModel.generationAt
      viewModel.nextGeneration
      { prompt := prompt
        aiMsgObject := aiMsg
        chatId := chatId
        maxTokens := prefs.maxResponseTokens
        streaming := true
        list := viewModel.messages }
    nextGeneration := viewModel.nextGeneration + 1 }

/-- The flow hands a token to the callback, which tests `stopGeneration`. -/
def deliver
    (viewModel : ViewModel)
    (index : Nat)
    (token : JString) : Option ViewModel :=
  let generation := viewModel.generationAt index
  if index < viewModel.nextGeneration ∧ generation.streaming = true ∧
      generation.posting = none then
    some (viewModel.setGeneration index
      { generation with
        delivered := generation.delivered ++ [token]
        posting := if viewModel.stopGeneration then none else some token })
  else none

/-- The callback posts the token that passed the test. -/
def post (viewModel : ViewModel) (index : Nat) : Option ViewModel :=
  let generation := viewModel.generationAt index
  match generation.posting with
  | none => none
  | some token =>
      some
        { viewModel.setGeneration index { generation with posting := none } with
          posted := viewModel.posted ++ [(index, token)] }

/-- The flow ends: no further token, the bound of the native loop, or an
exception that `LLMW.send` catches.  Nothing else is called. -/
def endStream (viewModel : ViewModel) (index : Nat) : Option ViewModel :=
  let generation := viewModel.generationAt index
  if generation.streaming = true ∧ generation.posting = none then
    some (viewModel.setGeneration index { generation with streaming := false })
  else none

end ViewModel

/-- One view model in the process that runs it. -/
structure App where
  viewModel : ViewModel := {}
  prefs : Prefs := {}
  files : UserFiles := fun _ => none
  /-- History: the saves of finished generations. -/
  saves : List Save := []
  /-- An exception on the main thread has ended the process. -/
  crashed : Bool := false

namespace App

/-- Write back the view model. -/
def withViewModel (app : App) (viewModel : ViewModel) : App :=
  { app with viewModel := viewModel }

/-- Name of the signed-in user's directory. -/
def username (app : App) : JString :=
  Prefs.orNull app.prefs.username

/-- `loadChats`: a new object for every stored chat. -/
def loadChats (app : App) : App :=
  let records := app.files.loadChats app.username
  let loadedChats := records.mapIdx fun index record =>
    { record with identity := app.viewModel.nextChat + index }
  { app with
    viewModel := { app.viewModel.setChats loadedChats with
      nextChat := app.viewModel.nextChat + records.length } }

/-- `loadMessages`. -/
def loadMessages (app : App) (chatId : JInt) : App :=
  app.withViewModel (app.viewModel.replaceMessages
    (app.files.loadMessages app.username chatId))

/-- Largest id of a list of chats, and 0 for none above it. -/
def maxId (chats : List ChatObject) : JInt :=
  chats.foldl
    (fun largest chat => if chat.id > largest then chat.id else largest) 0

/-- `createNewChat`. -/
def createNewChat (app : App) : App :=
  let newId := maxId app.viewModel.chats + 1
  let newChat : ChatObject :=
    { name := jstr "Chat " ++ jstr (toString newId)
      id := newId
      identity := app.viewModel.nextChat }
  let currentChats := app.viewModel.chats ++ [newChat]
  { app with
    viewModel :=
      { app.viewModel.setChats currentChats with
        nextChat := app.viewModel.nextChat + 1 }.replaceMessages []
    files := app.files.saveChats app.username
      (currentChats.map ChatObject.toChatRecord) }

/-- `deleteChat`: by id on disk, by identity in memory. -/
def deleteChat (app : App) (chat : ChatObject) : App :=
  { app with
    viewModel := app.viewModel.setChats
      (app.viewModel.chats.eraseP (·.identity == chat.identity))
    files := app.files.removeChat app.username chat.id }

/-- `finalizeGeneration`: the user name and the list are read again here. -/
def finalizeGeneration (app : App) (index : Nat) : App :=
  let generation := app.viewModel.generationAt index
  let list := app.viewModel.messages
  let messages := app.viewModel.conversation list
  { app with
    viewModel := { app.viewModel with
      isGenerating := false
      finishedResponse := some app.viewModel.fullResponseBuffer }
    files := app.files.saveMessages app.username generation.chatId messages
    saves := app.saves ++
      [{ generation := index
         reply := (app.viewModel.messageAt generation.aiMsgObject).content
         username := app.prefs.username
         chatId := generation.chatId
         list := list
         messages := messages }] }

/-- An exception on the main thread: the process dies, with its flows and its
queue. -/
def crash (app : App) : App :=
  { app with
    viewModel := { app.viewModel with
      posted := []
      generationAt := fun index =>
        { app.viewModel.generationAt index with
          streaming := false
          posting := none } }
    crashed := true }

/-- The runnable of one token. -/
def runToken
    (toLowerCase : JString → JString)
    (app : App)
    (index : Nat)
    (token : JString) : App :=
  let viewModel := app.viewModel.countToken index
  let generation := viewModel.generationAt index
  let currentFull := viewModel.fullResponseBuffer ++ token
  match judge toLowerCase generation.maxTokens generation.tokenCount
      currentFull with
  | .limit => (app.withViewModel viewModel.stop).finalizeGeneration index
  | .cut cleaned =>
      (app.withViewModel (viewModel.stop.setContent generation.aiMsgObject
        cleaned)).finalizeGeneration index
  | .outOfBounds => (app.withViewModel viewModel.stop).crash
  | .extend =>
      app.withViewModel ((viewModel.appendToken token).setContent
        generation.aiMsgObject currentFull)

/-- The main looper takes the first posted runnable. -/
def runPosted
    (toLowerCase : JString → JString)
    (app : App) : Option App :=
  match app.viewModel.posted with
  | [] => none
  | (index, token) :: rest =>
      some ((app.withViewModel { app.viewModel with posted := rest }).runToken
        toLowerCase index token)

/-- What can happen to a view model while one user is signed in. -/
inductive Event
  /-- Settings are changed; the user name is not one of them. -/
  | saveSettings (prefs : Prefs)
  | loadChats
  | loadMessages (chatId : JInt)
  | createNewChat
  | deleteChat (chat : ChatObject)
  | sendMessage (userText : JString) (chatId : JInt)
  | deliver (index : Nat) (token : JString)
  | post (index : Nat)
  | endStream (index : Nat)
  | runPosted

/-- Events of a flow, of its callback and of the main looper. -/
def Event.isStream : Event → Bool
  | .deliver _ _ | .post _ | .endStream _ | .runPosted => true
  | _ => false

/-- One event.  A process that has died does nothing. -/
def step
    (toLowerCase : JString → JString)
    (app : App) : Event → Option App
  | event =>
      if app.crashed then none
      else match event with
        | .saveSettings prefs =>
            some { app with
              prefs := { prefs with
                username := app.prefs.username
                password := app.prefs.password
                isLoggedIn := app.prefs.isLoggedIn } }
        | .loadChats => some app.loadChats
        | .loadMessages chatId => some (app.loadMessages chatId)
        | .createNewChat => some app.createNewChat
        | .deleteChat chat =>
            if chat ∈ app.viewModel.exposed then some (app.deleteChat chat)
            else none
        | .sendMessage userText chatId =>
            some (app.withViewModel
              (app.viewModel.sendMessage app.prefs userText chatId))
        | .deliver index token =>
            (app.viewModel.deliver index token).map app.withViewModel
        | .post index => (app.viewModel.post index).map app.withViewModel
        | .endStream index =>
            (app.viewModel.endStream index).map app.withViewModel
        | .runPosted => app.runPosted toLowerCase

/-- The view model as a labelled machine. -/
def machine
    (toLowerCase : JString → JString) : Transition.Machine App Event where
  step := App.step toLowerCase

end App
end Chat
end IdoProject
