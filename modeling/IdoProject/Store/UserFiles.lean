import IdoProject.Java.Text
import Mathlib.Logic.Function.Basic

/-!
# The chat store of the users

Every user has a directory with the list of chats and one message file for each
chat.  The operations of `JsonHelper` are given here on the stored lists, as
they act when every file operation succeeds and every user name is one component
of a path.
-/

namespace IdoProject
namespace Store

open Java

/-- A message as the screen shows it and a message file stores it.  The sender
is 1 for the assistant and 0 for the user. -/
structure Message where
  content : JString
  sender : Int
  deriving DecidableEq

/-- An entry of `chats.json`.  The chat's model is always null and is not
written. -/
structure ChatRecord where
  name : JString
  id : JInt
  deriving DecidableEq

/-- A user's directory: `chats.json`, and `chat_<id>.json` for every chat. -/
structure UserDirectory (Chats Messages : Type) where
  chats : Option Chats := none
  messages : JInt → Option Messages := fun _ => none

/-- The directories `user_<name>` that exist, by user name. -/
abbrev UserFiles := JString → Option (UserDirectory (List ChatRecord) (List Message))

namespace UserFiles

/-- The directory, created empty where it is missing. -/
def directory (files : UserFiles) (username : JString) :
    UserDirectory (List ChatRecord) (List Message) :=
  (files username).getD {}

/-- The stored chats, none when there is no file. -/
def loadChats (files : UserFiles) (username : JString) : List ChatRecord :=
  (files.directory username).chats.getD []

/-- Write the chat list, creating the directory first where it is missing. -/
def saveChats
    (files : UserFiles)
    (username : JString)
    (chats : List ChatRecord) : UserFiles :=
  Function.update files username
    (some { files.directory username with chats := some chats })

/-- Drop the first entry with the given id and delete its message file. -/
def removeChat
    (files : UserFiles)
    (username : JString)
    (chatId : JInt) : UserFiles :=
  match files username with
  | none => files
  | some _ =>
      let chats := files.loadChats username
      if chats.any (·.id == chatId) then
        let saved := files.saveChats username (chats.eraseP (·.id == chatId))
        Function.update saved username
          (some { saved.directory username with
            messages := Function.update (saved.directory username).messages
              chatId none })
      else files

/-- The stored messages of one chat, none when there is no file. -/
def loadMessages
    (files : UserFiles)
    (username : JString)
    (chatId : JInt) : List Message :=
  ((files.directory username).messages chatId).getD []

/-- Write the message file of one chat, creating the directory first where it
is missing. -/
def saveMessages
    (files : UserFiles)
    (username : JString)
    (chatId : JInt)
    (messages : List Message) : UserFiles :=
  Function.update files username
    (some { files.directory username with
      messages := Function.update (files.directory username).messages
        chatId (some messages) })

/-- `renameUserDirectory`: the system moves the directory unless something is
already there under the new name, and has nothing to do where the names are the
same. -/
def renameUserDirectory
    (files : UserFiles)
    (oldUsername newUsername : JString) : UserFiles × Bool :=
  match files oldUsername, files newUsername with
  | some moved, none =>
      (Function.update (Function.update files oldUsername none)
        newUsername (some moved), true)
  | some _, some _ => (files, oldUsername = newUsername)
  | none, _ => (files, false)

/-- `deleteUserDirectory`. -/
def deleteUserDirectory (files : UserFiles) (username : JString) : UserFiles :=
  Function.update files username none

section Laws

variable (files : UserFiles)
variable (username : JString)

@[simp] theorem loadChats_saveChats (chats : List ChatRecord) :
    (files.saveChats username chats).loadChats username = chats := by
  simp [loadChats, saveChats, directory]

/-- Saving messages leaves the chat list alone. -/
@[simp] theorem loadChats_saveMessages
    (other : JString)
    (chatId : JInt)
    (messages : List Message) :
    (files.saveMessages other chatId messages).loadChats username =
      files.loadChats username := by
  by_cases same : username = other
  · subst same
    simp [loadChats, saveMessages, directory]
  · simp [loadChats, saveMessages, directory, same]

/-- Removing a chat erases the first entry with its id. -/
theorem loadChats_removeChat (chatId : JInt) :
    (files.removeChat username chatId).loadChats username =
      (files.loadChats username).eraseP (·.id == chatId) := by
  unfold removeChat
  split
  case h_1 missing =>
    simp [loadChats, directory, missing]
  case h_2 =>
    dsimp only
    split
    case isTrue present =>
      simp [loadChats, saveChats, directory]
    case isFalse absent =>
      rw [List.eraseP_of_forall_not]
      intro record listed
      simp only [List.any_eq_true, not_exists, not_and] at absent
      exact absent record listed

/-- Saving the chat list leaves the messages alone. -/
@[simp] theorem loadMessages_saveChats
    (chats : List ChatRecord)
    (chatId : JInt) :
    (files.saveChats username chats).loadMessages username chatId =
      files.loadMessages username chatId := by
  simp [loadMessages, saveChats, directory]

/-- Saving the messages of a chat leaves those of the other chats alone. -/
theorem loadMessages_saveMessages_of_ne
    {chatId other : JInt}
    (messages : List Message)
    (different : other ≠ chatId) :
    (files.saveMessages username chatId messages).loadMessages username other =
      files.loadMessages username other := by
  simp [loadMessages, saveMessages, directory, different]

/-- Of two saves of one chat the later one stays. -/
theorem saveMessages_saveMessages
    (chatId : JInt)
    (earlier later : List Message) :
    (files.saveMessages username chatId earlier).saveMessages username chatId
        later = files.saveMessages username chatId later := by
  simp [saveMessages, directory]

/-- Removing a stored chat removes its messages, and no others. -/
theorem loadMessages_removeChat (chatId other : JInt) :
    (files.removeChat username chatId).loadMessages username other =
      if other = chatId ∧ chatId ∈ (files.loadChats username).map (·.id) then []
      else files.loadMessages username other := by
  have listed : (files.loadChats username).any (·.id == chatId) = true ↔
      chatId ∈ (files.loadChats username).map (·.id) := by
    simp
  unfold removeChat
  split
  case h_1 missing =>
    have empty : files.loadMessages username other = [] := by
      simp [loadMessages, directory, missing]
    rw [empty, ite_self]
  case h_2 =>
    dsimp only
    split
    case isTrue present =>
      by_cases same : other = chatId
      · rw [if_pos ⟨same, listed.mp present⟩, same]
        simp [loadMessages, directory]
      · rw [if_neg fun both => same both.1]
        simp [loadMessages, saveChats, directory, same]
    case isFalse absent =>
      rw [if_neg fun both => absent (listed.mpr both.2)]

end Laws

end UserFiles
end Store
end IdoProject
