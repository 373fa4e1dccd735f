import IdoProject.Storage.TreeCalls
import IdoProject.Store.Deleting

/-!
# The files stay a proper tree

Whatever the names of the users are, with separators, dots or the character 0 in
them, no call of `JsonHelper` breaks the tree: every file keeps a directory to
stand in, every path has one entry, and no name gets the character 0.  So the
recursive delete is right in every state that the calls can reach.
-/

namespace IdoProject
namespace Java

open Storage FileSystem

section Names

variable {text piece : JString}
variable {name : FileName}

/-- The pieces of a text are made of its units. -/
theorem mem_of_mem_piece
    {unit : JChar}
    (listed : piece ∈ text.splitOn slash)
    (member : unit ∈ piece) :
    unit ∈ text := by
  induction text generalizing piece with
  | nil =>
      rw [List.splitOn_nil, List.mem_singleton] at listed
      rw [listed] at member
      exact absurd member List.not_mem_nil
  | cons first text inductionHypothesis =>
      rw [List.splitOn_cons_eq_if_modifyHead] at listed
      split at listed
      case isTrue =>
        rcases List.mem_cons.mp listed with rfl | later
        · exact absurd member List.not_mem_nil
        · exact List.mem_cons_of_mem _ (inductionHypothesis later member)
      case isFalse =>
        obtain ⟨head, rest, whole⟩ :=
          List.exists_cons_of_ne_nil (List.splitOn_ne_nil slash text)
        rw [whole, List.modifyHead_cons] at listed
        rw [whole] at inductionHypothesis
        rcases List.mem_cons.mp listed with rfl | later
        · rcases List.mem_cons.mp member with rfl | further
          · exact List.mem_cons_self
          · exact List.mem_cons_of_mem _
              (inductionHypothesis List.mem_cons_self further)
        · exact List.mem_cons_of_mem _
            (inductionHypothesis (List.mem_cons_of_mem _ later) member)

/-- A name in a valid path is a valid name. -/
theorem valid_of_mem_partsOf
    (valid : 0 ∉ text)
    (listed : .down name ∈ partsOf text) :
    0 ∉ name.text := by
  obtain ⟨piece, among, part⟩ := List.mem_filterMap.mp listed
  have same : name.text = piece := by
    unfold partOf at part
    split at part
    · cases part
    · split at part
      · cases part
      · split at part
        · cases part
        · split at part
          · rw [Option.some.injEq, PathPart.down.injEq] at part
            rw [← part]
          · cases part
  rw [same]
  exact fun member => valid (mem_of_mem_piece among member)

end Names

namespace File

variable {files written : Files}
variable {file dest : File}
variable {text : JString}

/-- A tree made of the old names and of those in a valid path. -/
theorem proper_of_among
    {left : Files}
    (proper : files.Proper)
    (valid : ¬file.isInvalid)
    (tree : left.IsTree)
    (among : Among file.parts files left) :
    left.Proper := by
  refine ⟨tree, fun entry member name own => ?_⟩
  rcases among entry member name own with listed | ⟨other, before, also⟩
  · apply valid_of_mem_partsOf _ listed
    unfold isInvalid at valid
    rwa [List.contains_iff_mem] at valid
  · exact proper.valid other before name also

theorem proper_mkdir
    (proper : files.Proper) :
    (file.mkdir files).1.Proper := by
  unfold mkdir
  split
  case isTrue => exact proper
  case isFalse valid =>
    obtain ⟨tree, among⟩ := @IsTree.mkdir _ _ _ _ file.parts proper.tree
    exact proper_of_among proper valid tree among

theorem proper_delete
    (proper : files.Proper) :
    (file.delete files).1.Proper := by
  unfold delete
  split
  case isTrue => exact proper
  case isFalse valid =>
    obtain ⟨tree, among⟩ := @IsTree.remove _ _ _ _ file.parts proper.tree
    exact proper_of_among proper valid tree among

theorem proper_renameTo
    (proper : files.Proper) :
    (file.renameTo files dest).1.Proper := by
  unfold renameTo
  split
  case isTrue => exact proper
  case isFalse valid =>
    obtain ⟨tree, among⟩ :=
      @IsTree.rename _ _ _ _ file.parts dest.parts proper.tree
    exact proper_of_among proper (not_or.mp valid).2 tree among

theorem proper_write
    (proper : files.Proper)
    (wrote : file.write files text = some written) :
    written.Proper := by
  unfold write at wrote
  split at wrote
  case isTrue => cases wrote
  case isFalse valid =>
    obtain ⟨tree, among⟩ := proper.tree.write wrote
    exact proper_of_among proper valid tree among

theorem proper_mkdirInParent
    {path parent : List FileName}
    {made : Files × Bool}
    (proper : made.1.Proper) :
    (mkdirInParent path parent made).1.Proper := by
  unfold mkdirInParent
  split
  · exact proper_mkdir proper
  · exact proper

theorem proper_mkdirsCanonical
    {names : List FileName}
    (proper : files.Proper) :
    (mkdirsCanonical files names).1.Proper := by
  induction names with
  | nil => exact proper
  | cons name names inductionHypothesis =>
      rw [mkdirsCanonical]
      split
      · exact proper
      · split
        · exact proper_mkdir proper
        · exact proper_mkdirInParent inductionHypothesis

theorem proper_mkdirs
    (proper : files.Proper) :
    (mkdirs files file).1.Proper := by
  unfold mkdirs
  split
  · exact proper
  · split
    · exact proper_mkdir proper
    · split
      · exact proper
      · split
        · exact proper
        · exact proper_mkdirInParent (proper_mkdirsCanonical proper)

end File
end Java

namespace Store
namespace Directories

open Java Storage

section Calls

variable {filesDir : List FileName}
variable {chatGson : Gson ChatRecord}
variable {messageGson : Gson Message}
variable {files : Files}
variable {username : JString}

theorem proper_deleteRecursive
    {depth : Nat}
    {file : File}
    (proper : files.Proper) :
    (deleteRecursive depth files file).1.Proper := by
  induction depth generalizing files file with
  | zero => exact File.proper_delete proper
  | succ depth inductionHypothesis =>
      have emptied (children : List File) (some_ : Files)
          (proper : some_.Proper) :
          Files.Proper (children.foldl (fun files child =>
            (deleteRecursive depth files child).1) some_) := by
        induction children generalizing some_ with
        | nil => exact proper
        | cons child children restHypothesis =>
            exact restHypothesis _ (inductionHypothesis proper)
      rw [deleteRecursive]
      apply File.proper_delete
      split
      · exact emptied _ _ proper
      · exact proper

theorem proper_prepared
    (proper : files.Proper) :
    (prepared filesDir files username).Proper := by
  unfold prepared
  dsimp only
  split
  · exact proper
  · exact File.proper_mkdirs proper

/-- A file is written, or the exception is swallowed. -/
theorem proper_getD_write
    {file : File}
    {text : JString}
    (proper : files.Proper) :
    ((file.write files text).getD files).Proper := by
  cases wrote : file.write files text with
  | none => exact proper
  | some written => exact File.proper_write proper wrote

theorem proper_saveChats
    {chats : List ChatRecord}
    (proper : files.Proper) :
    (saveChats filesDir chatGson files username chats).Proper :=
  proper_getD_write (proper_prepared proper)

theorem proper_removeChat
    {chatId : JInt}
    (proper : files.Proper) :
    (removeChat filesDir chatGson files username chatId).Proper := by
  unfold removeChat
  dsimp only
  split
  case isFalse => exact proper
  case isTrue =>
    split
    case h_1 => exact proper
    case h_2 =>
      split
      case isFalse => exact proper
      case isTrue => exact File.proper_delete (proper_saveChats proper)

theorem proper_perform
    {call : Call}
    (proper : files.Proper) :
    (call.perform filesDir chatGson messageGson files).Proper := by
  cases call with
  | saveChats => exact proper_saveChats proper
  | saveMessages => exact proper_getD_write (proper_prepared proper)
  | removeChat => exact proper_removeChat proper
  | deleteUserDirectory => exact proper_deleteRecursive proper
  | renameUserDirectory =>
      rw [Call.perform, renameUserDirectory]
      split
      · exact File.proper_renameTo proper
      · exact proper

end Calls

/-- What calls leave one after the other. -/
def performAll
    (filesDir : List FileName)
    (chatGson : Gson ChatRecord)
    (messageGson : Gson Message)
    (files : Files)
    (calls : List Call) : Files :=
  calls.foldl (fun files call => call.perform filesDir chatGson messageGson files)
    files

theorem proper_performAll
    {filesDir : List FileName}
    {chatGson : Gson ChatRecord}
    {messageGson : Gson Message}
    {files : Files}
    {calls : List Call}
    (proper : files.Proper) :
    (performAll filesDir chatGson messageGson files calls).Proper := by
  induction calls generalizing files with
  | nil => exact proper
  | cons call calls inductionHypothesis =>
      exact inductionHypothesis (proper_perform proper)

/-- Starting from a proper tree, no order of calls, for any names of users,
breaks the tree; and after all of them the directory of a user whose name has no
separator is deleted with everything in it and nothing else. -/
theorem tree_kept_by_all_calls
    (filesDir : List FileName)
    (chatGson : Gson ChatRecord)
    (messageGson : Gson Message)
    (files : Files)
    (calls : List Call)
    (proper : files.Proper) :
    let left := performAll filesDir chatGson messageGson files calls
    left.Proper ∧
      ∀ username, slash ∉ username →
        (userDirectory filesDir username).existsIn left →
          deleteUserDirectory filesDir left username =
            (left.filter fun entry =>
              ¬directoryPath filesDir username <+: entry.1, true) :=
  ⟨proper_performAll proper, fun _ single exists_ =>
    deleteUserDirectory_eq (proper_performAll proper) single exists_⟩

/-- Names that lead out of the files directory, and a chat of another user. -/
theorem tree_kept_by_calls_that_lead_up :
    let bare : Gson ChatRecord := ⟨fun _ => [], fun _ => none⟩
    let messages : Gson Message := ⟨fun _ => [], fun _ => none⟩
    let files : Files := [([], .directory)]
    let left := performAll [] bare messages files
      [.saveChats (jstr "a") [], .saveMessages (jstr "a/../../b\x00") 1 [],
        .renameUserDirectory (jstr "a") (jstr "/../c"),
        .deleteUserDirectory (jstr "/.."), .saveMessages (jstr "d") 1 []]
    left.Proper ∧ (deleteUserDirectory [] left (jstr "d")).2 = true := by
  intro bare messages files left
  have proper : files.Proper := by
    refine ⟨⟨by decide, ?_⟩, by decide⟩
    intro path name entry member
    have same := congrArg Prod.fst (List.mem_singleton.mp member)
    exact absurd same (List.concat_ne_nil _ _)
  obtain ⟨kept, deleted⟩ := tree_kept_by_all_calls [] bare messages files
    [.saveChats (jstr "a") [], .saveMessages (jstr "a/../../b\x00") 1 [],
      .renameUserDirectory (jstr "a") (jstr "/../c"),
      .deleteUserDirectory (jstr "/.."), .saveMessages (jstr "d") 1 []] proper
  refine ⟨kept, ?_⟩
  rw [deleted (jstr "d") (by decide +kernel) (by decide +kernel)]

end Directories
end Store
end IdoProject
