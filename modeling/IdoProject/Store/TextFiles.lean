import IdoProject.Store.UserFiles
import IdoProject.Syntax.Brackets

/-!
# The chat store as text files

`JsonHelper` on the texts in the files, with the points at which a write may
stop.  A file is truncated when it is opened for writing, so that a write that
stops leaves a beginning of the new text; where the beginning ends inside the
bytes of one character, a reader sees replacement characters in its place.

Gson is not modelled.  A list is written as a JSON array of its items, and what
is read back is a parameter.
-/

namespace IdoProject
namespace Store

open Java Syntax

/-- What a code unit is in a JSON text. -/
def jsonKind (unit : JChar) : Kind :=
  if unit = 91 ∨ unit = 123 then .opens
  else if unit = 93 ∨ unit = 125 then .closes
  else if unit = 34 then .quote
  else if unit = 92 then .escape
  else .other

/-- Gson for lists of one type. -/
structure Gson (Item : Type u) where
  /-- The JSON text of one item. -/
  itemJson : Item → JString
  /-- `fromJson`, which is `none` when it throws and `some none` for null. -/
  fromJson : JString → Option (Option (List Item))

namespace Gson

variable {Item : Type u}

/-- `gson.toJson` of a list. -/
def toJson (gson : Gson Item) (items : List Item) : JString :=
  enclosed 91 44 93 (items.map gson.itemJson)

/-- Gson returns null for an empty text and throws for a text that ends before
its brackets are closed. -/
structure Strict (gson : Gson Item) : Prop where
  /-- An empty text is null. -/
  empty : gson.fromJson [] = some none
  /-- An unterminated text is no JSON. -/
  unterminated : ∀ text, Unterminated jsonKind text →
    gson.fromJson text = none

/-- Gson writes the items of the list as JSON values on one line and reads the
list back. -/
structure ReadsBack (gson : Gson Item) (items : List Item) : Prop where
  /-- An item is a JSON value. -/
  balanced : ∀ item ∈ items, Balanced jsonKind (gson.itemJson item)
  /-- Line breaks are escaped. -/
  oneLine : ∀ item ∈ items, ∀ unit ∈ gson.itemJson item,
    unit ≠ 10 ∧ unit ≠ 13
  /-- The list is read back. -/
  fromJson : gson.fromJson (gson.toJson items) = some (some items)

end Gson

/-- `readFile`, which joins the lines without their line breaks. -/
def readFile (text : JString) : JString :=
  text.filter fun unit => unit ≠ 10 ∧ unit ≠ 13

/-- How far a call that writes a file comes. -/
inductive Fate where
  /-- It stops before the file is opened, the directory made or not. -/
  | notOpened (madeDirectory : Bool)
  /-- It stops with so many characters of the new text in the file, and so many
  replacement characters for one that was cut. -/
  | stopped (count replaced : Nat)

/-- The fate of a call that writes the whole text. -/
def Fate.complete (data : JString) : Fate :=
  .stopped data.length 0

/-- Only a character of several bytes can be cut. -/
def Fate.Possible (data : JString) : Fate → Prop
  | .notOpened _ => True
  | .stopped count replaced =>
      replaced = 0 ∨ ∃ unit, data[count]? = some unit ∧ 0x80 ≤ unit

/-- What is in the file afterwards. -/
def Fate.leaves (data : JString) (before : Option JString) :
    Fate → Option JString
  | .notOpened _ => before
  | .stopped count replaced =>
      some (data.take count ++ List.replicate replaced 0xFFFD)

/-- The directories `user_<name>` that exist, with the texts in their files. -/
abbrev TextFiles := JString → Option (UserDirectory JString JString)

/-- The list in a file, where `none` is null. -/
def load
    {Item : Type u}
    (gson : Gson Item) : Option JString → Option (List Item)
  | none => some []
  | some text =>
      match gson.fromJson (readFile text) with
      | none => some []
      | some items => items

namespace TextFiles

variable (chatGson : Gson ChatRecord)
variable (messageGson : Gson Message)

/-- The directory, empty where it is missing. -/
def directory (files : TextFiles) (username : JString) :
    UserDirectory JString JString :=
  (files username).getD {}

/-- `loadChats` -/
def loadChats
    (files : TextFiles)
    (username : JString) : Option (List ChatRecord) :=
  load chatGson (files.directory username).chats

/-- `loadMessages` -/
def loadMessages
    (files : TextFiles)
    (username : JString)
    (chatId : JInt) : Option (List Message) :=
  load messageGson ((files.directory username).messages chatId)

/-- `saveChats` -/
def saveChats
    (files : TextFiles)
    (username : JString)
    (chats : List ChatRecord)
    (fate : Fate) : TextFiles :=
  match fate with
  | .notOpened false => files
  | _ =>
      Function.update files username
        (some { files.directory username with
          chats := fate.leaves (chatGson.toJson chats)
            (files.directory username).chats })

/-- `saveMessages` -/
def saveMessages
    (files : TextFiles)
    (username : JString)
    (chatId : JInt)
    (messages : List Message)
    (fate : Fate) : TextFiles :=
  match fate with
  | .notOpened false => files
  | _ =>
      Function.update files username
        (some { files.directory username with
          messages := Function.update (files.directory username).messages
            chatId (fate.leaves (messageGson.toJson messages)
              ((files.directory username).messages chatId)) })

/-- Delete the message file of a chat. -/
def deleteMessages
    (files : TextFiles)
    (username : JString)
    (chatId : JInt) : TextFiles :=
  match files username with
  | none => files
  | some found =>
      Function.update files username
        (some { found with
          messages := Function.update found.messages chatId none })

/-- `removeChat`.  Null in place of the chats is an exception that the method
swallows; an exception in `saveChats` is swallowed there, and unless the process
has died the message file is deleted all the same. -/
def removeChat
    (files : TextFiles)
    (username : JString)
    (chatId : JInt)
    (fate : Fate)
    (died : Bool) : TextFiles :=
  match files username, files.loadChats chatGson username with
  | some _, some chats =>
      if chats.any (·.id == chatId) then
        let saved := files.saveChats chatGson username
          (chats.eraseP (·.id == chatId)) fate
        if died then saved else saved.deleteMessages username chatId
      else files
  | _, _ => files

end TextFiles

/-! ## Complete writes -/

section Complete

variable {Item : Type u}
variable {gson : Gson Item}
variable {items : List Item}
variable {chatGson : Gson ChatRecord}
variable {messageGson : Gson Message}
variable {files : UserFiles}
variable {username : JString} {chatId : JInt}

/-- A text on one line is read as it is. -/
theorem readFile_eq
    {text : JString}
    (oneLine : ∀ unit ∈ text, unit ≠ 10 ∧ unit ≠ 13) :
    readFile text = text := by
  apply List.filter_eq_self.mpr
  intro unit present
  simpa using oneLine unit present

/-- A list is written on one line. -/
theorem Gson.ReadsBack.oneLine_toJson
    (readsBack : gson.ReadsBack items) :
    ∀ unit ∈ gson.toJson items, unit ≠ 10 ∧ unit ≠ 13 := by
  intro unit present
  rcases mem_enclosed present with rfl | rfl | rfl | ⟨text, listed, own⟩
  · decide
  · decide
  · decide
  · obtain ⟨item, stored, rfl⟩ := List.mem_map.mp listed
    exact readsBack.oneLine item stored unit own

/-- A list that was written completely is read back. -/
theorem Gson.ReadsBack.load_toJson
    (readsBack : gson.ReadsBack items) :
    load gson (some (gson.toJson items)) = some items := by
  simp only [load, readFile_eq readsBack.oneLine_toJson, readsBack.fromJson]

theorem Fate.leaves_complete
    (data : JString)
    (before : Option JString) :
    (Fate.complete data).leaves data before = some data := by
  simp [Fate.complete, Fate.leaves]

/-- A directory of lists as texts. -/
def UserDirectory.toText
    (chatGson : Gson ChatRecord)
    (messageGson : Gson Message)
    (directory : UserDirectory (List ChatRecord) (List Message)) :
    UserDirectory JString JString where
  chats := directory.chats.map chatGson.toJson
  messages := fun chatId =>
    (directory.messages chatId).map messageGson.toJson

/-- The store of lists as text files. -/
def UserFiles.toText
    (chatGson : Gson ChatRecord)
    (messageGson : Gson Message)
    (files : UserFiles) : TextFiles :=
  fun username => (files username).map
    (UserDirectory.toText chatGson messageGson)

theorem directory_toText :
    (files.toText chatGson messageGson).directory username =
      (files.directory username).toText chatGson messageGson := by
  unfold TextFiles.directory UserFiles.directory UserFiles.toText
  cases files username with
  | none => rfl
  | some found => rfl

/-- Loading from the text files is loading the list. -/
theorem loadChats_toText
    (readsBack : ∀ chats, (files.directory username).chats = some chats →
      chatGson.ReadsBack chats) :
    (files.toText chatGson messageGson).loadChats chatGson username =
      some (files.loadChats username) := by
  unfold TextFiles.loadChats UserFiles.loadChats
  rw [directory_toText]
  unfold UserDirectory.toText
  cases stored : (files.directory username).chats with
  | none => rfl
  | some chats => exact (readsBack chats stored).load_toJson

/-- Loading from the text files is loading the list. -/
theorem loadMessages_toText
    (readsBack : ∀ messages,
      (files.directory username).messages chatId = some messages →
        messageGson.ReadsBack messages) :
    (files.toText chatGson messageGson).loadMessages messageGson username
        chatId =
      some (files.loadMessages username chatId) := by
  unfold TextFiles.loadMessages UserFiles.loadMessages
  rw [directory_toText]
  unfold UserDirectory.toText
  dsimp only
  cases stored : (files.directory username).messages chatId with
  | none => rfl
  | some messages => exact (readsBack messages stored).load_toJson

/-- Writing another directory of lists writes its texts. -/
theorem update_toText
    (directory : UserDirectory (List ChatRecord) (List Message)) :
    Function.update (files.toText chatGson messageGson) username
        (some (directory.toText chatGson messageGson)) =
      UserFiles.toText chatGson messageGson
        (Function.update files username (some directory)) := by
  funext other
  by_cases same : other = username
  · subst same
    simp [UserFiles.toText]
  · simp [UserFiles.toText, same]

/-- A complete write of the chats is the write of the list. -/
theorem saveChats_toText
    (chats : List ChatRecord) :
    (files.toText chatGson messageGson).saveChats chatGson username chats
        (.complete (chatGson.toJson chats)) =
      (files.saveChats username chats).toText chatGson messageGson := by
  unfold UserFiles.saveChats
  rw [← update_toText]
  dsimp only [TextFiles.saveChats, Fate.complete]
  rw [← Fate.complete, Fate.leaves_complete, directory_toText]
  rfl

/-- A complete write of the messages is the write of the list. -/
theorem saveMessages_toText
    (messages : List Message) :
    (files.toText chatGson messageGson).saveMessages messageGson username
        chatId messages (.complete (messageGson.toJson messages)) =
      (files.saveMessages username chatId messages).toText chatGson
        messageGson := by
  unfold UserFiles.saveMessages
  rw [← update_toText]
  dsimp only [TextFiles.saveMessages, Fate.complete]
  rw [← Fate.complete, Fate.leaves_complete, directory_toText]
  congr 3
  funext other
  by_cases same : other = chatId
  · subst same
    simp [UserDirectory.toText]
  · simp [UserDirectory.toText, same]

/-- Deleting a message file deletes the list. -/
theorem deleteMessages_toText
    {directory : UserDirectory (List ChatRecord) (List Message)}
    (found : files username = some directory) :
    (files.toText chatGson messageGson).deleteMessages username chatId =
      UserFiles.toText chatGson messageGson
        (Function.update files username
          (some { directory with
            messages := Function.update directory.messages chatId none })) := by
  rw [← update_toText]
  have text : files.toText chatGson messageGson username =
      some (directory.toText chatGson messageGson) := by
    rw [UserFiles.toText, found, Option.map_some]
  unfold TextFiles.deleteMessages
  rw [text]
  dsimp only
  congr 2
  unfold UserDirectory.toText
  congr 1
  funext other
  by_cases same : other = chatId
  · subst same
    simp
  · simp [same]

/-- A removal that is not interrupted is the removal from the lists. -/
theorem removeChat_toText
    (loaded : (files.toText chatGson messageGson).loadChats chatGson username =
      some (files.loadChats username)) :
    (files.toText chatGson messageGson).removeChat chatGson username chatId
        (.complete (chatGson.toJson
          ((files.loadChats username).eraseP (·.id == chatId)))) false =
      (files.removeChat username chatId).toText chatGson messageGson := by
  unfold TextFiles.removeChat UserFiles.removeChat
  rw [loaded]
  cases found : files username with
  | none =>
      rw [UserFiles.toText, found]
      rfl
  | some directory =>
      rw [show files.toText chatGson messageGson username =
          some (directory.toText chatGson messageGson) by
        rw [UserFiles.toText, found, Option.map_some]]
      dsimp only
      split
      · rw [if_neg Bool.false_ne_true, saveChats_toText]
        apply deleteMessages_toText
        simp [UserFiles.saveChats, UserFiles.directory, found]
      · rfl

end Complete

end Store
end IdoProject
