import IdoProject.Accounts.Phone
import IdoProject.Store.Interrupted

/-!
# Renaming a user

A rename updates the table, moves the directory and stores the new name in the
preferences, one after the other.  Nothing asks whether the new name is taken,
and nothing looks at the result of the move, which the system may refuse.  This
module says when the user still has the history, and everybody else theirs.
-/

namespace IdoProject
namespace Accounts

open Java Store
open Store.Directories (Plain Serves userDirectory)

namespace Phone

section Renaming

variable (filesDir : List FileName)
variable (chatGson : Gson ChatRecord)
variable (messageGson : Gson Message)

/-- What is loaded for two names is the same. -/
structure SameHistory
    (files : Files)
    (username : JString)
    (other : Files)
    (otherName : JString) : Prop where
  chats : Directories.loadChats filesDir chatGson files username =
    Directories.loadChats filesDir chatGson other otherName
  messages : ∀ chatId,
    Directories.loadMessages filesDir messageGson files username chatId =
      Directories.loadMessages filesDir messageGson other otherName chatId

/-- Nothing is loaded for a name. -/
structure NoHistory (files : Files) (username : JString) : Prop where
  chats : Directories.loadChats filesDir chatGson files username = some []
  messages : ∀ chatId,
    Directories.loadMessages filesDir messageGson files username chatId =
      some []

/-- The rename moved the history of one row's user to the new name, and left
every other row and the history of its user alone. -/
structure RenamedOnly
    (before after : Phone)
    (current newName : JString) : Prop where
  history : SameHistory filesDir chatGson messageGson before.files current
    after.files newName
  others : ∃ own ∈ before.accounts.table.rows, own.username = current ∧
    after.accounts.table.rows = before.accounts.table.rows.map (fun row =>
      if row.id = own.id then { row with username := newName } else row) ∧
    ∀ other ∈ before.accounts.table.rows, other.id ≠ own.id →
      SameHistory filesDir chatGson messageGson before.files other.username
        after.files other.username

/-- A rename that is reported keeps the data of the user and of everybody else;
one that is not reported changes nothing. -/
def DataKept
    (phone : Phone)
    (refused : Bool)
    (current input : JString) : Prop :=
  if (phone.saveNewUsername filesDir refused current input).2 = .updated then
    RenamedOnly filesDir chatGson messageGson phone
      (phone.saveNewUsername filesDir refused current input).1 current
      (trim input)
  else (phone.saveNewUsername filesDir refused current input).1 = phone

/-- Where the rename is carried out, one row has the old name; and either the
directory is moved, and no row has the new name unless there is no history to
give away, or nothing is moved, and what the two names have stored is the same
already. -/
def Separable
    (phone : Phone)
    (refused : Bool)
    (current input : JString) : Prop :=
  trim input ≠ [] → trim input ≠ current →
    current ∈ phone.accounts.table.usernames →
      (∃ row ∈ phone.accounts.table.rows, OnlyRow phone.accounts current row) ∧
        if refused = false ∧
            (userDirectory filesDir current).existsIn phone.files = true ∧
            (userDirectory filesDir (trim input)).existsIn phone.files = false
        then
          trim input ∉ phone.accounts.table.usernames ∨
            NoHistory filesDir chatGson messageGson phone.files current
        else
          SameHistory filesDir chatGson messageGson phone.files current
            phone.files (trim input)

end Renaming

section Histories

variable {filesDir : List FileName}
variable {chatGson : Gson ChatRecord}
variable {messageGson : Gson Message}
variable {files other last : Files}
variable {username otherName lastName : JString}
variable {store another : TextFiles}

/-- A history is read from the directory alone. -/
theorem sameHistory_of_eq
    (serves : Serves filesDir files store)
    (also : Serves filesDir other another)
    (plain : Plain username)
    (plainOther : Plain otherName)
    (same : store username = another otherName) :
    SameHistory filesDir chatGson messageGson files username other
      otherName := by
  have directory : store.directory username = another.directory otherName := by
    unfold TextFiles.directory
    rw [same]
  constructor
  · rw [serves.loadChats plain, also.loadChats plainOther]
    unfold TextFiles.loadChats
    rw [directory]
  · intro chatId
    rw [serves.loadMessages plain, also.loadMessages plainOther]
    unfold TextFiles.loadMessages
    rw [directory]

theorem noHistory_of_missing
    (serves : Serves filesDir files store)
    (plain : Plain username)
    (missing : store username = none) :
    NoHistory filesDir chatGson messageGson files username := by
  constructor
  · rw [serves.loadChats plain, TextFiles.loadChats, TextFiles.directory,
      missing]
    rfl
  · intro chatId
    rw [serves.loadMessages plain, TextFiles.loadMessages, TextFiles.directory,
      missing]
    rfl

/-- Two names with the same history have none together. -/
theorem SameHistory.noHistory_iff
    (same : SameHistory filesDir chatGson messageGson files username other
      otherName) :
    NoHistory filesDir chatGson messageGson files username ↔
      NoHistory filesDir chatGson messageGson other otherName := by
  constructor
  · rintro ⟨chats, messages⟩
    exact ⟨same.chats ▸ chats, fun chatId =>
      same.messages chatId ▸ messages chatId⟩
  · rintro ⟨chats, messages⟩
    exact ⟨same.chats.trans chats, fun chatId =>
      (same.messages chatId).trans (messages chatId)⟩

theorem NoHistory.sameHistory
    (nothing : NoHistory filesDir chatGson messageGson files username)
    (also : NoHistory filesDir chatGson messageGson other otherName) :
    SameHistory filesDir chatGson messageGson files username other otherName :=
  ⟨nothing.chats.trans also.chats.symm, fun chatId =>
    (nothing.messages chatId).trans (also.messages chatId).symm⟩

end Histories

section Requests

variable {filesDir : List FileName}
variable {phone : Phone}
variable {refused : Bool}
variable {current input : JString}

/-- A request that is not carried out changes nothing. -/
theorem saveNewUsername_of_refused
    (stays : ¬(trim input ≠ [] ∧ trim input ≠ current ∧
      current ∈ phone.accounts.table.usernames)) :
    (phone.saveNewUsername filesDir refused current input).1 = phone ∧
      (phone.saveNewUsername filesDir refused current input).2 ≠ .updated := by
  unfold saveNewUsername
  by_cases written : trim input = []
  · rw [saveNewUsername_of_empty written]
    exact ⟨rfl, by simp⟩
  · by_cases changed : trim input = current
    · rw [saveNewUsername_of_same written changed]
      dsimp only
      rw [if_pos changed]
      exact ⟨rfl, by simp⟩
    · have missing : current ∉ phone.accounts.table.usernames :=
        fun present => stays ⟨written, changed, present⟩
      rw [saveNewUsername_of_not_mem written changed missing]
      exact ⟨rfl, by simp⟩

/-- A request that is carried out updates the table and moves the directory. -/
theorem saveNewUsername_of_updated
    (written : trim input ≠ [])
    (changed : trim input ≠ current)
    (present : current ∈ phone.accounts.table.usernames) :
    (phone.saveNewUsername filesDir refused current input).1.accounts.table =
        (phone.accounts.table.updateUsername current (trim input)).1 ∧
      (phone.saveNewUsername filesDir refused current input).1.files =
        renamed filesDir phone.files refused current (trim input) ∧
      (phone.saveNewUsername filesDir refused current input).2 = .updated := by
  unfold saveNewUsername
  rw [saveNewUsername_of_mem written changed present]
  dsimp only
  rw [if_neg changed]
  exact ⟨rfl, rfl, rfl⟩

end Requests

section Rows

variable {phone : Phone}
variable {current newName : JString}

/-- The update of the names renames one row exactly when one row has the old
name. -/
theorem updateUsername_renames_iff
    {own : User}
    (numbered : Numbered phone.accounts.table)
    (changed : newName ≠ current)
    (present : own ∈ phone.accounts.table.rows)
    (named : own.username = current) :
    ((phone.accounts.table.updateUsername current newName).1.rows =
        phone.accounts.table.rows.map fun row =>
          if row.id = own.id then { row with username := newName } else row) ↔
      OnlyRow phone.accounts current own := by
  have sameId : ∀ row ∈ phone.accounts.table.rows,
      row.id = own.id → row = own := fun row inside equal =>
    List.inj_on_of_nodup_map numbered.distinct inside present equal
  have table : (phone.accounts.table.updateUsername current newName).1.rows =
      phone.accounts.table.rows.map fun row =>
        if row.username = current then { row with username := newName }
        else row := rfl
  rw [table, List.map_inj_left]
  constructor
  · intro equal
    refine ⟨named, fun other inside also => sameId other inside ?_⟩
    by_contra different
    have renamed := equal other inside
    rw [if_pos also, if_neg different] at renamed
    exact changed ((congrArg User.username renamed).trans also)
  · rintro ⟨_, only⟩ row inside
    have same : row.username = current ↔ row.id = own.id :=
      ⟨fun also => congrArg User.id (only row inside also),
        fun equal => (congrArg User.username (sameId row inside equal)).trans
          named⟩
    simp only [same]

end Rows

section Moves

variable {filesDir : List FileName}
variable {chatGson : Gson ChatRecord}
variable {messageGson : Gson Message}
variable {files : Files}
variable {store : TextFiles}
variable {current newName : JString}

/-- The history after a directory was moved is that of the old name, and nobody
else's history is another one. -/
theorem sameHistory_of_moved
    (serves : Serves filesDir files store)
    (plain : Plain current)
    (also : Plain newName)
    (there : (store current).isSome = true)
    (missing : store newName = none) :
    SameHistory filesDir chatGson messageGson files current
        (Directories.renameUserDirectory filesDir files current newName).1
        newName ∧
      ∀ username, Plain username → username ≠ current → username ≠ newName →
        SameHistory filesDir chatGson messageGson files username
          (Directories.renameUserDirectory filesDir files current newName).1
          username := by
  obtain ⟨moved, here⟩ := Option.isSome_iff_exists.mp there
  obtain ⟨after, -⟩ := serves.rename plain also here missing
  constructor
  · apply sameHistory_of_eq serves after plain also
    rw [here, Function.update_self]
  · intro username third notOld notNew
    apply sameHistory_of_eq serves after third third
    rw [Function.update_of_ne notNew, Function.update_of_ne notOld]

end Moves

section Renames

variable {filesDir : List FileName}
variable {chatGson : Gson ChatRecord}
variable {messageGson : Gson Message}
variable {phone : Phone}
variable {refused : Bool}
variable {current input : JString}

/-- Where one row has the old name, the histories are right after the rename
exactly when the rename was separable. -/
theorem histories_iff
    {own : User}
    (housed : Housed filesDir phone)
    (plain : Plain current)
    (typed : Plain (trim input))
    (changed : trim input ≠ current)
    (inside : own ∈ phone.accounts.table.rows)
    (only : OnlyRow phone.accounts current own) :
    (SameHistory filesDir chatGson messageGson phone.files current
        (renamed filesDir phone.files refused current (trim input))
        (trim input) ∧
      ∀ other ∈ phone.accounts.table.rows, other.id ≠ own.id →
        SameHistory filesDir chatGson messageGson phone.files other.username
          (renamed filesDir phone.files refused current (trim input))
          other.username) ↔
      if refused = false ∧
          (userDirectory filesDir current).existsIn phone.files = true ∧
          (userDirectory filesDir (trim input)).existsIn phone.files = false
      then
        trim input ∉ phone.accounts.table.usernames ∨
          NoHistory filesDir chatGson messageGson phone.files current
      else
        SameHistory filesDir chatGson messageGson phone.files current
          phone.files (trim input) := by
  obtain ⟨store, serves⟩ := housed.served
  rw [serves.existsIn plain, serves.existsIn typed]
  split
  case isTrue moved =>
    obtain ⟨rfl, there, absent⟩ := moved
    have missing := Option.isSome_eq_false_iff.mp absent
    rw [Option.isNone_iff_eq_none] at missing
    obtain ⟨history, others⟩ := @sameHistory_of_moved _ chatGson messageGson _ _
      _ _ serves plain typed there missing
    have nothing : NoHistory filesDir chatGson messageGson phone.files
        (trim input) :=
      noHistory_of_missing serves typed missing
    constructor
    · rintro ⟨_, kept⟩
      by_cases taken : trim input ∈ phone.accounts.table.usernames
      · -- the row with the new name had no history, and has the moved one now
        obtain ⟨row, present, named⟩ := List.mem_map.mp taken
        have different : row.id ≠ own.id := by
          intro same
          have equal := List.inj_on_of_nodup_map housed.numbered.distinct
            present inside same
          exact changed (named.symm.trans ((congrArg User.username equal).trans
            only.1))
        have same := kept row present different
        rw [named] at same
        exact Or.inr (history.noHistory_iff.mpr (same.noHistory_iff.mp nothing))
      · exact Or.inl taken
    · intro free
      refine ⟨history, fun other present different => ?_⟩
      have notOld : other.username ≠ current := by
        intro same
        exact different (congrArg User.id (only.2 other present same))
      by_cases new : other.username = trim input
      · rw [new]
        have taken : trim input ∈ phone.accounts.table.usernames :=
          new ▸ List.mem_map_of_mem present
        have empty := free.resolve_left fun absent => absent taken
        exact nothing.sameHistory (history.noHistory_iff.mp empty)
      · exact others other.username (housed.names.rows other present) notOld new
  case isFalse stays =>
    have same : renamed filesDir phone.files refused current (trim input) =
        phone.files := by
      cases refused with
      | true => rfl
      | false =>
          exact congrArg Prod.fst
            (serves.renameUserDirectory_of_not_moved plain typed
              fun there missing => stays ⟨rfl, there, by rw [missing]; rfl⟩)
    rw [same]
    exact ⟨fun both => both.1, fun history =>
      ⟨history, fun other _ _ => ⟨rfl, fun _ => rfl⟩⟩⟩

/-- Where the names are plain, a rename to a plain name keeps everybody's data
exactly when it is separable. -/
theorem dataKept_iff_of_housed
    (housed : Housed filesDir phone)
    (plain : Plain current)
    (typed : Plain (trim input)) :
    phone.DataKept filesDir chatGson messageGson refused current input ↔
      phone.Separable filesDir chatGson messageGson refused current input := by
  by_cases carried : trim input ≠ [] ∧ trim input ≠ current ∧
      current ∈ phone.accounts.table.usernames
  · obtain ⟨written, changed, present⟩ := carried
    obtain ⟨table, files, updated⟩ :=
      @saveNewUsername_of_updated filesDir _ refused _ _ written changed present
    unfold DataKept Separable
    rw [if_pos updated]
    simp only [ne_eq, written, changed, present, not_false_eq_true,
      forall_const]
    constructor
    · rintro ⟨history, own, inside, named, rows, others⟩
      rw [table] at rows
      have only := (updateUsername_renames_iff housed.numbered changed inside
        named).mp rows
      rw [files] at history others
      exact ⟨⟨own, inside, only⟩,
        (histories_iff housed plain typed changed inside only).mp
          ⟨history, others⟩⟩
    · rintro ⟨⟨own, inside, only⟩, directories⟩
      obtain ⟨history, others⟩ :=
        (histories_iff housed plain typed changed inside only).mpr directories
      rw [← files] at history others
      refine ⟨history, own, inside, only.1, ?_, others⟩
      rw [table]
      exact (updateUsername_renames_iff housed.numbered changed inside
        only.1).mpr only
  · obtain ⟨kept, notUpdated⟩ := @saveNewUsername_of_refused filesDir _ refused
      _ _ carried
    unfold DataKept Separable
    rw [if_neg notUpdated]
    exact iff_of_true kept fun written changed present =>
      absurd ⟨written, changed, present⟩ carried

end Renames

section Runs

variable {filesDir : List FileName}
variable {chatGson : Gson ChatRecord}
variable {messageGson : Gson Message}
variable {EMAIL_ADDRESS : JString → Bool}
variable {phone : Phone}

/-- From an empty table and a files directory without users, where every name
that was typed is plain and not too long: a rename to a plain name keeps the
data of the user and of everybody else exactly when it is separable. -/
theorem dataKept_iff_separable
    {files : Files}
    {prefs : Prefs}
    {actions : List Action}
    {current : JString}
    (proper : files.Proper)
    (holder : files.IsDirectory filesDir)
    (fresh : ∀ username, ∀ plain : Plain username,
      files.entryAt (filesDir ++ [plain.name]) = none)
    (stored : ∀ username, prefs.username = some username →
      Plain username ∧ Short username)
    (plain : ∀ action ∈ actions, action.PlainNames)
    (ran : (machine filesDir chatGson messageGson EMAIL_ADDRESS).run
      { accounts := { prefs := prefs }, files := files } actions = some phone)
    (signedIn : phone.accounts.prefs.username = some current)
    (input : JString)
    (typed : Plain (trim input))
    (refused : Bool) :
    step filesDir chatGson messageGson EMAIL_ADDRESS phone
          (.saveNewUsername input refused) =
        some (phone.saveNewUsername filesDir refused current input).1 ∧
      (phone.DataKept filesDir chatGson messageGson refused current input ↔
        phone.Separable filesDir chatGson messageGson refused current
          input) := by
  have housed := housed_of_run proper holder fresh
    (fun username same => (stored username same).1) plain ran
  exact ⟨by simp [step, signedIn],
    dataKept_iff_of_housed housed (housed.names.stored current signedIn) typed⟩

/-- A codec for a chat with one message. -/
def oneMessage : Gson Message :=
  knownLists messageJson [[], [⟨jstr "hi", 0⟩], [⟨jstr "ann's secret", 0⟩]]

/-- A user with one chat takes a name that nobody has. -/
theorem dataKept_of_free_name :
    ∃ phone,
      (machine Directories.emptyFilesDir miniChats oneMessage hasAtSign).run
        { files := Directories.emptyFiles }
        [.account (.signUp (jstr "ann") (jstr "ann@mail.com") (jstr "Abcdef1!")
            (jstr "Abcdef1!") []),
          .saveChats (firstChats.take 1),
          .saveMessages 1 [⟨jstr "hi", 0⟩]] = some phone ∧
      (phone.saveNewUsername Directories.emptyFilesDir false (jstr "ann")
        (jstr "anna")).2 = .updated ∧
      phone.DataKept Directories.emptyFilesDir miniChats oneMessage false
        (jstr "ann") (jstr "anna") := by
  obtain ⟨phone, ran, seen⟩ := Option.map_eq_some_iff.mp
    (show ((machine Directories.emptyFilesDir miniChats oneMessage
        hasAtSign).run { files := Directories.emptyFiles }
        [.account (.signUp (jstr "ann") (jstr "ann@mail.com") (jstr "Abcdef1!")
            (jstr "Abcdef1!") []),
          .saveChats (firstChats.take 1),
          .saveMessages 1 [⟨jstr "hi", 0⟩]]).map
        (fun phone => (phone.accounts.prefs.username, phone.accounts.table.rows,
          (userDirectory Directories.emptyFilesDir (jstr "ann")).existsIn
            phone.files,
          (userDirectory Directories.emptyFilesDir (jstr "anna")).existsIn
            phone.files,
          (phone.saveNewUsername Directories.emptyFilesDir false (jstr "ann")
            (jstr "anna")).2)) =
      some (some (jstr "ann"),
        [⟨1, jstr "ann", jstr "ann@mail.com", jstr "Abcdef1!", []⟩],
        true, false, .updated) by decide +kernel)
  simp only [Prod.mk.injEq] at seen
  obtain ⟨signedIn, rows, there, missing, updated⟩ := seen
  have trimmed : trim (jstr "anna") = jstr "anna" := by decide +kernel
  refine ⟨phone, ran, updated,
    (dataKept_iff_separable Directories.proper_emptyFiles (by decide +kernel)
      Directories.fresh_emptyFiles (by rintro _ ⟨⟩)
      (by decide +kernel) ran signedIn (jstr "anna")
      (by decide +kernel) false).2.mpr fun _ _ _ => ?_⟩
  rw [trimmed, if_pos ⟨rfl, there, missing⟩, rows]
  refine ⟨⟨_, List.mem_singleton_self _, rfl, fun other inside _ => ?_⟩, ?_⟩
  · rw [rows] at inside
    exact List.mem_singleton.mp inside
  · rw [UsersTable.usernames, rows]
    exact Or.inl (by decide +kernel)

/-- A user takes the name of another user: the directory is not moved, and the
user has the chats of the other one instead of the own ones. -/
theorem not_dataKept_of_taken_name :
    ∃ phone next,
      (machine Directories.emptyFilesDir miniChats oneMessage hasAtSign).run
        { files := Directories.emptyFiles }
        [.account (.signUp (jstr "ann") (jstr "ann@mail.com") (jstr "Abcdef1!")
            (jstr "Abcdef1!") []),
          .saveChats (firstChats.take 1),
          .saveMessages 1 [⟨jstr "ann's secret", 0⟩],
          .account .logOut,
          .account (.signUp (jstr "bob") (jstr "bob@mail.com")
            (jstr "Abcdef2!") (jstr "Abcdef2!") []),
          .saveChats firstChats,
          .saveMessages 1 [⟨jstr "hi", 0⟩]] = some phone ∧
      phone.saveNewUsername Directories.emptyFilesDir false (jstr "bob")
        (jstr "ann") = (next, .updated) ∧
      next.accounts.table.usernames = [jstr "ann", jstr "ann"] ∧
      Directories.loadMessages Directories.emptyFilesDir oneMessage phone.files
        (jstr "bob") 1 = some [⟨jstr "hi", 0⟩] ∧
      Directories.loadMessages Directories.emptyFilesDir oneMessage next.files
        (jstr "ann") 1 = some [⟨jstr "ann's secret", 0⟩] ∧
      ¬phone.DataKept Directories.emptyFilesDir miniChats oneMessage false
        (jstr "bob") (jstr "ann") := by
  obtain ⟨phone, ran, seen⟩ := Option.map_eq_some_iff.mp
    (show ((machine Directories.emptyFilesDir miniChats oneMessage
        hasAtSign).run { files := Directories.emptyFiles }
        [.account (.signUp (jstr "ann") (jstr "ann@mail.com") (jstr "Abcdef1!")
            (jstr "Abcdef1!") []),
          .saveChats (firstChats.take 1),
          .saveMessages 1 [⟨jstr "ann's secret", 0⟩],
          .account .logOut,
          .account (.signUp (jstr "bob") (jstr "bob@mail.com")
            (jstr "Abcdef2!") (jstr "Abcdef2!") []),
          .saveChats firstChats,
          .saveMessages 1 [⟨jstr "hi", 0⟩]]).map
        (fun phone =>
          let renamed := phone.saveNewUsername Directories.emptyFilesDir false
            (jstr "bob") (jstr "ann")
          (renamed.2, renamed.1.accounts.table.usernames,
            Directories.loadMessages Directories.emptyFilesDir oneMessage
              phone.files (jstr "bob") 1,
            Directories.loadMessages Directories.emptyFilesDir oneMessage
              renamed.1.files (jstr "ann") 1)) =
      some (.updated, [jstr "ann", jstr "ann"], some [⟨jstr "hi", 0⟩],
        some [⟨jstr "ann's secret", 0⟩]) by decide +kernel)
  simp only [Prod.mk.injEq] at seen
  obtain ⟨updated, names, before, after⟩ := seen
  refine ⟨phone, _, ran, Prod.ext rfl updated, names, before, after,
    fun kept => ?_⟩
  unfold DataKept at kept
  rw [if_pos updated, show trim (jstr "ann") = jstr "ann" by decide +kernel]
    at kept
  have same := kept.history.messages 1
  rw [before, after] at same
  exact absurd same (by decide +kernel)

/-- A new name that is not plain has no place for the directory: nothing is
moved, and the history is not found. -/
example :
    ((machine Directories.emptyFilesDir miniChats oneMessage hasAtSign).run
        { files := Directories.emptyFiles }
        [.account (.signUp (jstr "ann") (jstr "ann@mail.com") (jstr "Abcdef1!")
            (jstr "Abcdef1!") []),
          .saveMessages 1 [⟨jstr "hi", 0⟩]]).map
      (fun phone =>
        let renamed := phone.saveNewUsername Directories.emptyFilesDir false
          (jstr "ann") (jstr "a/b")
        (renamed.2, Directories.loadMessages Directories.emptyFilesDir
          oneMessage renamed.1.files (jstr "a/b") 1)) =
      some (.updated, some []) := by
  decide +kernel

end Runs

end Phone
end Accounts
end IdoProject
