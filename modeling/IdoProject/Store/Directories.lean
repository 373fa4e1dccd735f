import IdoProject.Java.Files
import IdoProject.Store.TextFiles

/-!
# The chat store in the file system

`JsonHelper` on paths: the user name is put behind `user_` unescaped, and what
becomes of the text is left to `File` and to the system.  Whatever the name is,
an operation changes nothing but what overlaps the path that the directory of
the user resolves to.
-/

namespace IdoProject
namespace Store

open Java Storage

/-- `deleteRecursive`, to a depth. -/
def deleteRecursive : Nat → Files → File → Files × Bool
  | 0, files, fileOrDirectory => fileOrDirectory.delete files
  | depth + 1, files, fileOrDirectory =>
      let emptied :=
        if fileOrDirectory.isDirectory files then
          (fileOrDirectory.listFiles files).foldl
            (fun files child => (deleteRecursive depth files child).1) files
        else files
      fileOrDirectory.delete emptied

/-- Length of the longest path. -/
def height (files : Files) : Nat :=
  (files.map fun entry => entry.1.length).foldr max 0

section Depth

variable {files some_ : Files}
variable {file : File}
variable {depth : Nat}

theorem height_le_iff
    {bound : Nat} :
    height files ≤ bound ↔ ∀ entry ∈ files, entry.1.length ≤ bound := by
  induction files with
  | nil => simp [height]
  | cons entry files inductionHypothesis =>
      unfold height at inductionHypothesis ⊢
      rw [List.map_cons, List.foldr_cons, max_le_iff, List.forall_mem_cons,
        inductionHypothesis]

theorem height_le_of_sublist
    (fewer : some_.Sublist files) :
    height some_ ≤ height files :=
  height_le_iff.mpr fun entry member =>
    height_le_iff.mp le_rfl entry (fewer.subset member)

theorem delete_sublist :
    (file.delete files).1.Sublist files := by
  unfold File.delete FileSystem.remove
  split
  · exact List.Sublist.refl _
  · split
    · exact List.Sublist.refl _
    · split
      · exact List.filter_sublist
      · exact List.Sublist.refl _

theorem deleteRecursive_sublist :
    (deleteRecursive depth files file).1.Sublist files := by
  induction depth generalizing files file with
  | zero => exact delete_sublist
  | succ depth inductionHypothesis =>
      have emptied (children : List File) (some_ : Files) :
          (children.foldl (fun files child =>
            (deleteRecursive depth files child).1) some_).Sublist some_ := by
        induction children generalizing some_ with
        | nil => exact List.Sublist.refl _
        | cons child children restHypothesis =>
            exact (restHypothesis _).trans inductionHypothesis
      rw [deleteRecursive]
      refine delete_sublist.trans ?_
      split
      · exact emptied _ _
      · exact List.Sublist.refl _

/-- What is listed is below the directory, and something stands there. -/
theorem exists_of_mem_listFiles
    {child : File}
    (listed : child ∈ file.listFiles files) :
    ∃ place, ∃ name : FileName, files.locate file.parts = some place ∧
      child = file.child name.text ∧ place.length + 1 ≤ height files := by
  unfold File.listFiles at listed
  split at listed
  case h_1 => cases listed
  case h_2 place arrives =>
    obtain ⟨name, stands, rfl⟩ := List.mem_map.mp listed
    obtain ⟨entry, member, last⟩ := List.mem_filterMap.mp stands
    split at last
    case isFalse => cases last
    case isTrue above =>
      obtain ⟨front, whole⟩ := List.getLast?_eq_some_iff.mp last
      have high := height_le_iff.mp le_rfl entry member
      rw [whole, List.dropLast_concat] at above
      rw [whole, above, List.length_append, List.length_singleton] at high
      exact ⟨place, name, arrives, rfl, high⟩

/-- A depth below which nothing stands is enough. -/
theorem deleteRecursive_succ
    (enough : ∀ place, files.locate file.parts = some place →
      height files ≤ place.length + depth) :
    deleteRecursive (depth + 1) files file =
      deleteRecursive depth files file := by
  induction depth generalizing files file with
  | zero =>
      have none_ : file.listFiles files = [] := by
        rw [List.eq_nil_iff_forall_not_mem]
        intro child listed
        obtain ⟨place, name, arrives, -, high⟩ := exists_of_mem_listFiles listed
        have low := enough place arrives
        omega
      rw [deleteRecursive, deleteRecursive, none_, List.foldl_nil, ite_self]
  | succ depth inductionHypothesis =>
      have emptied (children : List File) (some_ : Files)
          (fewer : some_.Sublist files)
          (listed : ∀ child ∈ children, child ∈ file.listFiles files) :
          children.foldl (fun files child =>
              (deleteRecursive (depth + 1) files child).1) some_ =
            children.foldl (fun files child =>
              (deleteRecursive depth files child).1) some_ := by
        induction children generalizing some_ with
        | nil => rfl
        | cons child children restHypothesis =>
            rw [List.forall_mem_cons] at listed
            have same : deleteRecursive (depth + 1) some_ child =
                deleteRecursive depth some_ child := by
              apply inductionHypothesis
              intro deeper leads
              obtain ⟨place, name, arrives, rfl, -⟩ :=
                exists_of_mem_listFiles listed.1
              have lower := height_le_of_sublist fewer
              have high := enough place arrives
              rw [FileSystem.resolve_of_walk leads, File.parts_child,
                partsOf_name, resolve_append, resolve_down,
                ← FileSystem.resolve_of_walk arrives, List.length_append,
                List.length_singleton]
              omega
            rw [List.foldl_cons, List.foldl_cons, same]
            exact restHypothesis _ (deleteRecursive_sublist.trans fewer)
              listed.2
      rw [deleteRecursive, emptied _ _ (List.Sublist.refl _) fun _ => id]
      rfl

/-- The depth of the recursion is bounded by the longest path. -/
theorem deleteRecursive_of_height_le
    (deep : height files ≤ depth) :
    deleteRecursive depth files file =
      deleteRecursive (height files) files file := by
  induction depth, deep using Nat.le_induction with
  | base => rfl
  | succ depth deep inductionHypothesis =>
      rw [deleteRecursive_succ fun place _ => by omega, inductionHypothesis]

end Depth

namespace Directories

/-- What `readFile` is given: the text of a file that exists. -/
def textAt (files : Files) (file : File) : Option JString :=
  if file.isInvalid then none
  else (files.locate file.parts).bind fun place =>
    match files.entryAt place with
    | some (.file text) => some text
    | _ => none

section Operations

variable (filesDir : List FileName)
variable (chatGson : Gson ChatRecord)
variable (messageGson : Gson Message)

/-- The directory of a user. -/
def userDirectory (username : JString) : File :=
  (File.ofPath filesDir).child (jstr "user_" ++ username)

/-- Name of the message file of a chat. -/
def chatFile (chatId : JInt) : JString :=
  jstr "chat_" ++ jstr (toString chatId) ++ jstr ".json"

/-- `deleteUserDirectory` -/
def deleteUserDirectory (files : Files) (username : JString) : Files × Bool :=
  deleteRecursive (height files) files (userDirectory filesDir username)

/-- `renameUserDirectory` -/
def renameUserDirectory
    (files : Files)
    (oldUsername newUsername : JString) : Files × Bool :=
  let oldDir := userDirectory filesDir oldUsername
  let newDir := userDirectory filesDir newUsername
  if oldDir.existsIn files then oldDir.renameTo files newDir else (files, false)

/-- `loadChats`, where `none` is null. -/
def loadChats (files : Files) (username : JString) : Option (List ChatRecord) :=
  let file := (File.ofPath filesDir).child
    (jstr "user_" ++ username ++ jstr "/chats.json")
  load chatGson (textAt files file)

/-- Make the directory of a user where it does not exist. -/
def prepared (files : Files) (username : JString) : Files :=
  let dir := userDirectory filesDir username
  if dir.existsIn files then files else (dir.mkdirs files).1

/-- `saveChats` -/
def saveChats
    (files : Files)
    (username : JString)
    (chats : List ChatRecord) : Files :=
  let made := prepared filesDir files username
  let file := (userDirectory filesDir username).child (jstr "chats.json")
  (file.write made (chatGson.toJson chats)).getD made

/-- `removeChat` -/
def removeChat
    (files : Files)
    (username : JString)
    (chatId : JInt) : Files :=
  let dir := userDirectory filesDir username
  if dir.existsIn files then
    match loadChats filesDir chatGson files username with
    | none => files
    | some chats =>
        if chats.any (·.id == chatId) then
          let saved := saveChats filesDir chatGson files username
            (chats.eraseP (·.id == chatId))
          ((dir.child (chatFile chatId)).delete saved).1
        else files
  else files

/-- `saveMessages` -/
def saveMessages
    (files : Files)
    (username : JString)
    (chatId : JInt)
    (messages : List Message) : Files :=
  let made := prepared filesDir files username
  let file := (userDirectory filesDir username).child (chatFile chatId)
  (file.write made (messageGson.toJson messages)).getD made

end Operations

section Paths

variable {filesDir : List FileName}
variable {username : JString}
variable {chatId : JInt}

/-- Where the directory of a user is. -/
def directoryPath
    (filesDir : List FileName)
    (username : JString) : List FileName :=
  resolve [] (userDirectory filesDir username).parts

theorem directoryPath_eq :
    directoryPath filesDir username =
      resolve filesDir (partsOf (jstr "user_" ++ username)) := by
  unfold directoryPath userDirectory
  rw [File.parts_child, resolve_append, File.resolve_ofPath]

theorem slash_not_mem_chatFile :
    slash ∉ chatFile chatId := by
  have digits : slash ∉ jstr (toString chatId) := by
    intro member
    have code : slash.toNat = 47 := rfl
    rcases @mem_jstr_toString chatId.toInt _ member with sign | digit
    · exact absurd sign (by decide)
    · omega
  unfold chatFile
  rw [List.mem_append, List.mem_append, not_or, not_or]
  exact ⟨⟨by decide +kernel, digits⟩, by decide +kernel⟩

/-- A text without a separator that does not begin with a dot is a name. -/
theorem partsOf_of_head
    {text : JString}
    {first : JChar}
    (begins : text.head? = some first)
    (undotted : first ≠ 46)
    (single : slash ∉ text) :
    ∃ name : FileName, partsOf text = [.down name] := by
  have different {other : JString} (dotted : other.head? ≠ some first) :
      text ≠ other := by
    rintro rfl
    exact dotted begins
  have other : (46 : JChar) ≠ first := Ne.symm undotted
  exact ⟨_, @partsOf_name ⟨text, different (by simp), single,
    different (by simpa using other), different (by simpa using other)⟩⟩

theorem exists_partsOf_chatFile :
    ∃ name : FileName, partsOf (chatFile chatId) = [.down name] :=
  partsOf_of_head (show (chatFile chatId).head? = some 99 from rfl) (by decide)
    slash_not_mem_chatFile

end Paths

section Frames

variable {filesDir : List FileName}
variable {chatGson : Gson ChatRecord}
variable {messageGson : Gson Message}
variable {files : Files}
variable {username : JString}
variable {path : List FileName}

/-- A file that is deleted with all that is in it. -/
theorem entryAt_deleteRecursive
    {depth : Nat}
    {file : File}
    (outside : ¬resolve [] file.parts <+: path) :
    (deleteRecursive depth files file).1.entryAt path =
      files.entryAt path := by
  induction depth generalizing files file with
  | zero =>
      exact File.entryAt_delete fun same =>
        outside (same ▸ List.prefix_refl path)
  | succ depth inductionHypothesis =>
      have other : path ≠ resolve [] file.parts := fun same =>
        outside (same ▸ List.prefix_refl path)
      -- Every child is below the directory.
      have emptied (children : List File) (some_ : Files)
          (below : ∀ child ∈ children, ¬resolve [] child.parts <+: path) :
          (children.foldl (fun files child =>
            (deleteRecursive depth files child).1) some_).entryAt path =
              some_.entryAt path := by
        induction children generalizing some_ with
        | nil => rfl
        | cons child children restHypothesis =>
            rw [List.forall_mem_cons] at below
            rw [List.foldl_cons, restHypothesis _ below.2,
              inductionHypothesis below.1]
      rw [deleteRecursive, File.entryAt_delete other]
      split
      case isFalse => rfl
      case isTrue =>
        apply emptied
        intro child listed inside
        unfold File.listFiles at listed
        split at listed
        case h_1 => cases listed
        case h_2 place arrives =>
          obtain ⟨name, -, rfl⟩ := List.mem_map.mp listed
          rw [File.parts_child, partsOf_name, resolve_append, resolve_down]
            at inside
          exact outside ((List.prefix_append _ _).trans inside)

theorem entryAt_deleteUserDirectory
    (apart : ¬Overlaps (directoryPath filesDir username) path) :
    (deleteUserDirectory filesDir files username).1.entryAt path =
      files.entryAt path :=
  entryAt_deleteRecursive (not_or.mp apart).1

theorem entryAt_renameUserDirectory
    {oldUsername newUsername : JString}
    (apart : ¬Overlaps (directoryPath filesDir oldUsername) path)
    (also : ¬Overlaps (directoryPath filesDir newUsername) path) :
    (renameUserDirectory filesDir files oldUsername newUsername).1.entryAt
      path = files.entryAt path := by
  unfold renameUserDirectory
  dsimp only
  split
  · exact File.entryAt_renameTo (not_or.mp apart).1 (not_or.mp also).1
  · rfl

theorem entryAt_prepared
    (apart : ¬Overlaps (directoryPath filesDir username) path) :
    (prepared filesDir files username).entryAt path = files.entryAt path := by
  unfold prepared
  dsimp only
  split
  · rfl
  · exact File.entryAt_mkdirs (not_or.mp apart).2

/-- A file in the directory of a user that has a name of its own. -/
theorem ne_of_not_overlaps
    {child : JString}
    (named : ∃ name : FileName, partsOf child = [.down name])
    (apart : ¬Overlaps (directoryPath filesDir username) path) :
    path ≠
      resolve [] ((userDirectory filesDir username).child child).parts := by
  obtain ⟨name, parts⟩ := named
  rintro rfl
  apply (not_or.mp apart).1
  rw [File.parts_child, parts, resolve_append, resolve_down]
  exact List.prefix_append _ _

/-- The directory is made and a file in it is written. -/
theorem entryAt_write_prepared
    {child text : JString}
    (named : ∃ name : FileName, partsOf child = [.down name])
    (apart : ¬Overlaps (directoryPath filesDir username) path) :
    ((((userDirectory filesDir username).child child).write
        (prepared filesDir files username) text).getD
          (prepared filesDir files username)).entryAt path =
      files.entryAt path := by
  cases wrote : ((userDirectory filesDir username).child child).write
      (prepared filesDir files username) text with
  | none => exact entryAt_prepared apart
  | some written =>
      rw [Option.getD_some,
        File.entryAt_write (ne_of_not_overlaps named apart) wrote]
      exact entryAt_prepared apart

theorem exists_partsOf_chats :
    ∃ name : FileName, partsOf (jstr "chats.json") = [.down name] :=
  partsOf_of_head (show (jstr "chats.json").head? = some 99 by decide +kernel)
    (by decide) (by decide +kernel)

theorem entryAt_saveChats
    {chats : List ChatRecord}
    (apart : ¬Overlaps (directoryPath filesDir username) path) :
    (saveChats filesDir chatGson files username chats).entryAt path =
      files.entryAt path := by
  unfold saveChats
  exact entryAt_write_prepared exists_partsOf_chats apart

theorem entryAt_saveMessages
    {chatId : JInt}
    {messages : List Message}
    (apart : ¬Overlaps (directoryPath filesDir username) path) :
    (saveMessages filesDir messageGson files username chatId messages).entryAt
      path = files.entryAt path := by
  unfold saveMessages
  exact entryAt_write_prepared exists_partsOf_chatFile apart

theorem entryAt_removeChat
    {chatId : JInt}
    (apart : ¬Overlaps (directoryPath filesDir username) path) :
    (removeChat filesDir chatGson files username chatId).entryAt path =
      files.entryAt path := by
  unfold removeChat
  dsimp only
  split
  case isFalse => rfl
  case isTrue =>
    split
    case h_1 => rfl
    case h_2 chats loaded =>
      split
      case isFalse => rfl
      case isTrue =>
        rw [File.entryAt_delete
          (ne_of_not_overlaps exists_partsOf_chatFile apart)]
        exact entryAt_saveChats apart

end Frames

/-- A call that writes. -/
inductive Call
  | saveChats (username : JString) (chats : List ChatRecord)
  | saveMessages (username : JString) (chatId : JInt) (messages : List Message)
  | removeChat (username : JString) (chatId : JInt)
  | deleteUserDirectory (username : JString)
  | renameUserDirectory (oldUsername newUsername : JString)

/-- The names of the user it is made for. -/
def Call.usernames : Call → List JString
  | .saveChats username _ | .saveMessages username _ _ | .removeChat username _
  | .deleteUserDirectory username => [username]
  | .renameUserDirectory oldUsername newUsername => [oldUsername, newUsername]

section Calls

variable (filesDir : List FileName)
variable (chatGson : Gson ChatRecord)
variable (messageGson : Gson Message)

/-- What it leaves. -/
def Call.perform (files : Files) : Call → Files
  | .saveChats username chats =>
      Directories.saveChats filesDir chatGson files username chats
  | .saveMessages username chatId messages =>
      Directories.saveMessages filesDir messageGson files username chatId
        messages
  | .removeChat username chatId =>
      Directories.removeChat filesDir chatGson files username chatId
  | .deleteUserDirectory username =>
      (Directories.deleteUserDirectory filesDir files username).1
  | .renameUserDirectory oldUsername newUsername =>
      (Directories.renameUserDirectory filesDir files oldUsername
        newUsername).1

/-- A call changes nothing but what overlaps the directories of its user. -/
theorem Call.entryAt_perform
    {files : Files}
    {call : Call}
    {path : List FileName}
    (apart : ∀ username ∈ call.usernames,
      ¬Overlaps (directoryPath filesDir username) path) :
    (call.perform filesDir chatGson messageGson files).entryAt path =
      files.entryAt path := by
  cases call with
  | saveChats username chats =>
      rw [perform]
      exact entryAt_saveChats (apart username List.mem_cons_self)
  | saveMessages username chatId messages =>
      rw [perform]
      exact entryAt_saveMessages (apart username List.mem_cons_self)
  | removeChat username chatId =>
      rw [perform]
      exact entryAt_removeChat (apart username List.mem_cons_self)
  | deleteUserDirectory username =>
      rw [perform]
      exact entryAt_deleteUserDirectory (apart username List.mem_cons_self)
  | renameUserDirectory oldUsername newUsername =>
      rw [perform]
      exact entryAt_renameUserDirectory (apart oldUsername List.mem_cons_self)
        (apart newUsername (List.mem_cons_of_mem _ List.mem_cons_self))

end Calls

end Directories
end Store
end IdoProject
