import IdoProject.Accounts.Activities
import IdoProject.Store.Directories
import IdoProject.Store.Interrupted

/-!
# The directories of the users

The user name is a piece of a path text, and the checks of a name let the
separator through.  The users are kept apart exactly when one part is left of
every name, its `..` cancelled, and no two names leave the same one.
-/

namespace IdoProject
namespace Accounts

open Java Storage Store Store.Directories

/-- The directories of different names are different entries of the files
directory, and what is done for a user leaves the files of the others alone. -/
structure Apart
    (filesDir : List FileName)
    (chatGson : Gson ChatRecord)
    (messageGson : Gson Message)
    (names : Set JString) : Prop where
  different : ∀ first ∈ names, ∀ second ∈ names, first ≠ second →
    directoryPath filesDir first ≠ directoryPath filesDir second
  direct : ∀ first ∈ names, ∀ second ∈ names, first ≠ second →
    ∃ name, directoryPath filesDir first = filesDir ++ [name]
  uncontained : ∀ first ∈ names, ∀ second ∈ names, first ≠ second →
    ¬directoryPath filesDir first <+: directoryPath filesDir second
  untouched : ∀ call : Call, (∀ username ∈ call.usernames, username ∈ names) →
    ∀ other ∈ names, other ∉ call.usernames → ∀ (files : Files) (path),
      directoryPath filesDir other <+: path →
        (call.perform filesDir chatGson messageGson files).entryAt path =
          files.entryAt path

/-- What is left of the parts that a name makes. -/
def partsLeft (username : JString) : Option (List FileName) :=
  cancel [] (partsOf (jstr "user_" ++ username))

/-- One part is left of either name, and not the same one. -/
def DifferentParts (first second : JString) : Prop :=
  ∃ name other, partsLeft first = some [name] ∧
    partsLeft second = some [other] ∧ name ≠ other

section Names

variable {filesDir : List FileName}
variable {chatGson : Gson ChatRecord}
variable {messageGson : Gson Message}
variable {names : Set JString}
variable {username first second : JString}

/-- The directory of a name that leaves one part. -/
theorem directoryPath_of_partsLeft
    {name : FileName}
    (left : partsLeft username = some [name]) :
    directoryPath filesDir username = filesDir ++ [name] := by
  have leads := @resolve_of_cancel _ filesDir [] [name] _ left
  rwa [List.append_nil, ← directoryPath_eq] at leads

/-- The names of different users leave a part each wherever the files directory
is. -/
theorem exists_partsLeft_of_apart
    (apart : ∀ filesDir, Apart filesDir chatGson messageGson names)
    (member : first ∈ names)
    (also : second ∈ names)
    (other : first ≠ second) :
    ∃ name, partsLeft first = some [name] := by
  apply forall_resolve_eq_iff.mp
  intro filesDir
  rw [← directoryPath_eq]
  exact (apart filesDir).direct first member second also other

/-- A call for one user does not reach the directory of another one. -/
theorem not_overlaps_of_differentParts
    {path : List FileName}
    (separate : DifferentParts first second)
    (below : directoryPath filesDir second <+: path) :
    ¬Overlaps (directoryPath filesDir first) path := by
  obtain ⟨name, other, left, also, different⟩ := separate
  intro overlaps
  apply not_overlaps_of_ne different
  rw [← directoryPath_of_partsLeft left, ← directoryPath_of_partsLeft also]
  exact overlaps.of_prefix below

end Names

/-- Wherever the files directory is: users with these names have directories of
their own in it, and no operation for one of them reaches a file of another,
exactly when one part is left of every name and every two of them leave
different parts. -/
theorem apart_iff_differentParts
    (chatGson : Gson ChatRecord)
    (messageGson : Gson Message)
    (names : Set JString) :
    (∀ filesDir, Apart filesDir chatGson messageGson names) ↔
      names.Pairwise DifferentParts := by
  constructor
  · intro apart first member second also other
    obtain ⟨name, left⟩ := exists_partsLeft_of_apart apart member also other
    obtain ⟨last, right⟩ :=
      exists_partsLeft_of_apart apart also member other.symm
    refine ⟨name, last, left, right, fun same => ?_⟩
    apply (apart []).different first member second also other
    rw [directoryPath_of_partsLeft left, directoryPath_of_partsLeft right, same]
  · intro separate filesDir
    refine ⟨?_, ?_, ?_, ?_⟩
    · intro first member second also other same
      obtain ⟨name, last, left, right, different⟩ := separate member also other
      rw [directoryPath_of_partsLeft left, directoryPath_of_partsLeft right,
        List.append_cancel_left_eq, List.cons.injEq] at same
      exact different same.1
    · intro first member second also other
      obtain ⟨name, last, left, -, -⟩ := separate member also other
      exact ⟨name, directoryPath_of_partsLeft left⟩
    · intro first member second also other inside
      exact not_overlaps_of_differentParts (separate member also other)
        (List.prefix_refl _) (Or.inl inside)
    · intro call own other member another files path below
      apply Call.entryAt_perform
      intro username named
      refine not_overlaps_of_differentParts
        (separate (own username named) member ?_) below
      rintro rfl
      exact another named

/-- A name without a separator is left as it is. -/
theorem partsLeft_of_slashless
    {username : JString}
    (single : slash ∉ username) :
    ∃ name, name.text = jstr "user_" ++ username ∧
      partsLeft username = some [name] := by
  have single : slash ∉ jstr "user_" ++ username := by
    rw [List.mem_append, not_or]
    exact ⟨by decide +kernel, single⟩
  have first : (jstr "user_" ++ username).head? = some 117 := rfl
  have special : ∀ text : JString, text.head? ≠ some 117 →
      jstr "user_" ++ username ≠ text := by
    rintro text other rfl
    exact other first
  let name : FileName :=
    { text := jstr "user_" ++ username
      nonempty := special [] (by decide)
      single := single
      notHere := special [46] (by decide)
      notUp := special [46, 46] (by decide) }
  refine ⟨name, rfl, ?_⟩
  rw [partsLeft, show jstr "user_" ++ username = name.text from rfl,
    partsOf_name]
  rfl

/-- Names without a separator are kept apart. -/
theorem differentParts_of_slashless
    {first second : JString}
    (single : slash ∉ first)
    (also : slash ∉ second)
    (other : first ≠ second) :
    DifferentParts first second := by
  obtain ⟨name, text, left⟩ := partsLeft_of_slashless single
  obtain ⟨last, lastText, right⟩ := partsLeft_of_slashless also
  refine ⟨name, last, left, right, fun same => other ?_⟩
  rw [same, lastText, List.append_cancel_left_eq] at text
  exact text.symm

/-- A path from its text. -/
def pathOf (text : JString) : List FileName :=
  resolve [] (partsOf text)

/-- The files of one user who has a list of chats. -/
def bobsFiles : Files :=
  [([], .directory), (pathOf (jstr "/files"), .directory),
    (pathOf (jstr "/files/user_bob"), .directory),
    (pathOf (jstr "/files/user_bob/chats.json"), .file (jstr "[]"))]

/-- Two accepted names with the same directory: when the user `bob/` deletes the
account, the chats of `bob` are deleted. -/
theorem trailing_separator_shares_directory :
    validateUsername (jstr "bob") = .ok () ∧
      validateUsername (jstr "bob/") = .ok () ∧
      bobsFiles.entryAt (pathOf (jstr "/files/user_bob/chats.json")) =
        some (.file (jstr "[]")) ∧
      (deleteUserDirectory (pathOf (jstr "/files")) bobsFiles
        (jstr "bob/")).1.entryAt
          (pathOf (jstr "/files/user_bob/chats.json")) = none ∧
      ¬∀ filesDir, Apart filesDir miniChats miniMessages
        {jstr "bob", jstr "bob/"} := by
  refine ⟨rfl, rfl, by decide +kernel, by decide +kernel, fun apart => ?_⟩
  apply (apart []).different (jstr "bob") (by simp) (jstr "bob/") (by simp)
    (by decide +kernel)
  decide +kernel

end Accounts
end IdoProject
