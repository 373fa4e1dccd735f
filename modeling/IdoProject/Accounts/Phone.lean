import IdoProject.Accounts.Isolation
import IdoProject.Store.Serving

/-!
# The accounts and the file system

The table and the preferences of the accounts beside the files of the phone.
The chat store is used under the name that the preferences hold, and a rename
updates the table, moves the directory and stores the new name, one after the
other.  Where all names are plain, the files directory serves a store with one
directory for each name in every state that is reached.
-/

namespace IdoProject
namespace Accounts

open Java Store
open Store.Directories (Plain Serves)

section Tables

variable {EMAIL_ADDRESS : JString → Bool}
variable {state next : State}
variable {event : Event}

/-- What one request can do to the table. -/
inductive Changes (table : UsersTable) : UsersTable → Prop
  | keep : Changes table table
  | insert (username email password : JString) (picture : List UInt8) :
      Changes table (table.insertUser username email password picture).1
  | update (column : User → JString) (value : JString) (change : User → User)
      (kept : ∀ row, (change row).id = row.id) :
      Changes table (table.updateWhere column value change).1
  | delete (username : JString) : Changes table (table.deleteUser username).1

/-- Every request does one of these. -/
theorem changes_of_step
    (fired : step EMAIL_ADDRESS state event = some next) :
    Changes state.table next.table := by
  cases makes_of_step fired with
  | nothing | session | noSession => exact .keep
  | account => exact .insert _ _ _ _
  | name | password | reset | picture => exact .update _ _ _ fun _ => rfl
  | deletion => exact .delete _

/-- No two rows have the same key, and the next key is above all of them. -/
structure Numbered (table : UsersTable) : Prop where
  distinct : (table.rows.map User.id).Nodup
  below : ∀ row ∈ table.rows, row.id < table.nextId

/-- The keys stay different from one another. -/
theorem Numbered.changes
    {table after : UsersTable}
    (numbered : Numbered table)
    (changes : Changes table after) :
    Numbered after := by
  cases changes with
  | keep => exact numbered
  | insert username email password picture =>
      unfold UsersTable.insertUser
      split
      case isTrue => exact numbered
      case isFalse =>
        constructor
        · rw [List.map_append, List.nodup_append]
          refine ⟨numbered.distinct, List.nodup_singleton _, ?_⟩
          rintro id present other new rfl
          obtain ⟨row, inside, rfl⟩ := List.mem_map.mp present
          have less := numbered.below row inside
          rw [List.mem_singleton.mp new] at less
          exact absurd less (Nat.lt_irrefl _)
        · intro row present
          rcases List.mem_append.mp present with old | new
          · exact Nat.lt_succ_of_lt (numbered.below row old)
          · rw [List.mem_singleton.mp new]
            exact Nat.lt_succ_self _
  | update column value change kept =>
      constructor
      · change (List.map User.id (Table.update _ _ _ _)).Nodup
        rw [Table.map_update_of_kept kept]
        exact numbered.distinct
      · intro row present
        obtain ⟨old, inside, rfl⟩ := List.mem_map.mp present
        split
        · rw [kept]
          exact numbered.below old inside
        · exact numbered.below old inside
  | delete username =>
      exact ⟨Table.nodup_delete numbered.distinct, fun row present =>
        numbered.below row (List.mem_of_mem_filter present)⟩

/-- The names in the table and in the preferences are plain. -/
structure PlainNames (state : State) : Prop where
  rows : ∀ row ∈ state.table.rows, Plain row.username
  stored : ∀ username, state.prefs.username = some username → Plain username

/-- The name of the directory is not too long for the system. -/
def Short (username : JString) : Prop :=
  (encode (jstr "user_" ++ username)).length ≤ 255

instance : DecidablePred Short := fun username =>
  inferInstanceAs (Decidable ((encode (jstr "user_" ++ username)).length ≤ 255))

/-- A name that is typed for an account is plain, and not too long.  A sign-in
is for a name that is in the table. -/
def PlainEvent : Event → Prop
  | .signUp username _ _ _ _ => Plain username ∧ Short username
  | .saveNewUsername input => Plain (trim input) ∧ Short (trim input)
  | _ => True

instance : DecidablePred PlainEvent
  | .signUp username _ _ _ _ =>
      inferInstanceAs (Decidable (Plain username ∧ Short username))
  | .saveNewUsername input =>
      inferInstanceAs (Decidable (Plain (trim input) ∧ Short (trim input)))
  | .signIn _ _ | .logOut | .saveNewPassword _ _ _ | .attemptReset _ _ _
  | .updateProfilePicture _ | .deleteAccount => .isTrue trivial

/-- An update that writes plain names, or none. -/
theorem plain_of_mem_update
    {rows : List User}
    {column : User → JString}
    {value : JString}
    {change : User → User}
    (plain : ∀ row ∈ rows, Plain row.username)
    (written : ∀ row ∈ rows, Plain (change row).username) :
    ∀ row ∈ Table.update rows column value change, Plain row.username := by
  intro row present
  obtain ⟨old, inside, rfl⟩ := List.mem_map.mp present
  split
  · exact written old inside
  · exact plain old inside

/-- The names stay plain. -/
theorem PlainNames.step
    (names : PlainNames state)
    (plain : PlainEvent event)
    (fired : Accounts.step EMAIL_ADDRESS state event = some next) :
    PlainNames next := by
  cases makes_of_step fired with
  | nothing => exact names
  | account username email password repeated picture =>
      refine ⟨?_, fun name same => Option.some.inj same ▸ plain.1⟩
      intro row present
      unfold UsersTable.insertUser at present
      split at present
      · exact names.rows row present
      · rcases List.mem_append.mp present with old | new
        · exact names.rows row old
        · rw [List.mem_singleton.mp new]
          exact plain.1
  | session username password known =>
      refine ⟨names.rows, fun name same => ?_⟩
      obtain ⟨row, present, named⟩ := List.any_eq_true.mp known
      rw [decide_eq_true_eq] at named
      rw [← Option.some.inj same, ← named.1]
      exact names.rows row present
  | noSession => exact ⟨names.rows, fun _ none => nomatch none⟩
  | name current input signedIn =>
      exact ⟨plain_of_mem_update names.rows fun _ _ => plain.1,
        fun name same => Option.some.inj same ▸ plain.1⟩
  | password current old new confirm signedIn =>
      exact ⟨plain_of_mem_update names.rows names.rows,
        fun name same => Option.some.inj same ▸ names.stored current signedIn⟩
  | reset | picture =>
      exact ⟨plain_of_mem_update names.rows names.rows, names.stored⟩
  | deletion =>
      exact ⟨fun row present => names.rows row (List.mem_of_mem_filter present),
        names.stored⟩

end Tables

/-- The accounts with the files. -/
structure Phone where
  accounts : State := {}
  files : Files

namespace Phone

/-- What Settings show after a new name was typed. -/
inductive Shown
  /-- The name is the old one, and the field is closed. -/
  | closed
  | updated
  | error (shown : ShownError)
  deriving DecidableEq

/-- What can happen to the accounts and the files.  The chat store is used under
the name that the preferences hold at that moment. -/
inductive Action
  /-- A request that moves no directory. -/
  | account (event : Event)
  /-- `saveNewUsername`, where the system may refuse to move the directory. -/
  | saveNewUsername (input : JString) (refused : Bool)
  /-- `btnDeleteData`. -/
  | deleteHistory
  | saveChats (chats : List ChatRecord)
  | removeChat (chatId : JInt)
  | saveMessages (chatId : JInt) (messages : List Message)

/-- A name that is typed is plain, and not too long. -/
def Action.PlainNames : Action → Prop
  | .account event => PlainEvent event
  | .saveNewUsername input _ => PlainEvent (.saveNewUsername input)
  | _ => True

instance : DecidablePred Action.PlainNames
  | .account event => inferInstanceAs (Decidable (PlainEvent event))
  | .saveNewUsername input _ =>
      inferInstanceAs (Decidable (PlainEvent (.saveNewUsername input)))
  | .deleteHistory | .saveChats _ | .removeChat _ | .saveMessages _ _ =>
      .isTrue trivial

section Machine

variable (filesDir : List FileName)
variable (chatGson : Gson ChatRecord)
variable (messageGson : Gson Message)
variable (EMAIL_ADDRESS : JString → Bool)

/-- What `renameUserDirectory` leaves, where the system may refuse the move. -/
def renamed
    (files : Files)
    (refused : Bool)
    (oldUsername newUsername : JString) : Files :=
  if refused then files
  else (Directories.renameUserDirectory filesDir files oldUsername newUsername).1

/-- `SettingsActivity.saveNewUsername`: the directory is moved between the
update of the table and that of the preferences, and the result of the move is
not looked at. -/
def saveNewUsername
    (phone : Phone)
    (refused : Bool)
    (current input : JString) : Phone × Shown :=
  match Accounts.saveNewUsername phone.accounts current input with
  | .error shown => (phone, .error shown)
  | .ok accounts =>
      if trim input = current then ({ phone with accounts := accounts }, .closed)
      else
        ({ accounts := accounts
           files := renamed filesDir phone.files refused current (trim input) },
          .updated)

/-- The name under which the chat store is used. -/
def username (phone : Phone) : JString :=
  Prefs.orNull phone.accounts.prefs.username

/-- One action. -/
def step (phone : Phone) : Action → Option Phone
  | .saveNewUsername input refused =>
      phone.accounts.prefs.username.map fun current =>
        (phone.saveNewUsername filesDir refused current input).1
  | .account (.saveNewUsername _) => none
  | .account .deleteAccount =>
      (Accounts.step EMAIL_ADDRESS phone.accounts .deleteAccount).map
        fun accounts =>
          { accounts := accounts
            files := (Directories.deleteUserDirectory filesDir phone.files
              phone.username).1 }
  | .account event =>
      (Accounts.step EMAIL_ADDRESS phone.accounts event).map fun accounts =>
        { phone with accounts := accounts }
  | .deleteHistory =>
      phone.accounts.prefs.username.map fun current =>
        { phone with
          files := (Directories.deleteUserDirectory filesDir phone.files
            current).1 }
  | .saveChats chats =>
      some { phone with
        files := Directories.saveChats filesDir chatGson phone.files
          phone.username chats }
  | .removeChat chatId =>
      some { phone with
        files := Directories.removeChat filesDir chatGson phone.files
          phone.username chatId }
  | .saveMessages chatId messages =>
      some { phone with
        files := Directories.saveMessages filesDir messageGson phone.files
          phone.username chatId messages }

/-- The accounts and the files as a labelled machine. -/
def machine : Transition.Machine Phone Action where
  step := step filesDir chatGson messageGson EMAIL_ADDRESS

end Machine

section Steps

variable {filesDir : List FileName}
variable {chatGson : Gson ChatRecord}
variable {messageGson : Gson Message}
variable {EMAIL_ADDRESS : JString → Bool}
variable {phone next : Phone}
variable {action : Action}

/-- What an action does to the accounts is a request for the names that are
typed. -/
theorem accounts_of_step
    (fired : step filesDir chatGson messageGson EMAIL_ADDRESS phone action =
      some next) :
    next.accounts = phone.accounts ∨
      ∃ event, (action.PlainNames → PlainEvent event) ∧
        Accounts.step EMAIL_ADDRESS phone.accounts event =
          some next.accounts := by
  cases action with
  | saveNewUsername input refused =>
      refine Or.inr ⟨.saveNewUsername input, id, ?_⟩
      obtain ⟨current, signedIn, rfl⟩ := Option.map_eq_some_iff.mp fired
      simp only [Accounts.step, signedIn, Option.map_some, Option.some.injEq]
      unfold saveNewUsername
      cases Accounts.saveNewUsername phone.accounts current input with
      | error => rfl
      | ok accounts =>
          dsimp only
          split <;> rfl
  | account event =>
      refine Or.inr ⟨event, id, ?_⟩
      cases event with
      | saveNewUsername => cases fired
      | deleteAccount | signUp | signIn | logOut | saveNewPassword
      | attemptReset | updateProfilePicture =>
          simp only [step, Option.map_eq_some_iff] at fired
          obtain ⟨after, requested, rfl⟩ := fired
          exact requested
  | deleteHistory =>
      obtain ⟨current, -, rfl⟩ := Option.map_eq_some_iff.mp fired
      exact Or.inl rfl
  | saveChats | removeChat | saveMessages =>
      cases fired
      exact Or.inl rfl

/-- What an action does to the files is one call at most, for the user who is
signed in and the name that is typed. -/
theorem files_of_step
    (fired : step filesDir chatGson messageGson EMAIL_ADDRESS phone action =
      some next) :
    next.files = phone.files ∨
      ∃ call : Directories.Call,
        next.files = call.perform filesDir chatGson messageGson phone.files ∧
          ∀ username ∈ call.usernames, username = phone.username ∨
            ∃ input refused, action = .saveNewUsername input refused ∧
              username = trim input := by
  cases action with
  | saveNewUsername input refused =>
      obtain ⟨current, signedIn, rfl⟩ := Option.map_eq_some_iff.mp fired
      have own : phone.username = current := by
        rw [username, signedIn]
        rfl
      unfold saveNewUsername
      cases Accounts.saveNewUsername phone.accounts current input with
      | error => exact Or.inl rfl
      | ok accounts =>
          dsimp only
          split
          case isTrue => exact Or.inl rfl
          case isFalse =>
            cases refused with
            | true => exact Or.inl rfl
            | false =>
                refine Or.inr ⟨.renameUserDirectory current (trim input), rfl,
                  ?_⟩
                rw [Directories.Call.usernames, List.forall_mem_cons,
                  List.forall_mem_singleton]
                exact ⟨Or.inl own.symm, Or.inr ⟨input, false, rfl, rfl⟩⟩
  | account event =>
      cases event with
      | saveNewUsername => cases fired
      | deleteAccount =>
          obtain ⟨after, -, rfl⟩ := Option.map_eq_some_iff.mp fired
          exact Or.inr ⟨.deleteUserDirectory phone.username, rfl,
            List.forall_mem_singleton.mpr (Or.inl rfl)⟩
      | signUp | signIn | logOut | saveNewPassword | attemptReset
      | updateProfilePicture =>
          simp only [step, Option.map_eq_some_iff] at fired
          obtain ⟨after, -, rfl⟩ := fired
          exact Or.inl rfl
  | deleteHistory =>
      obtain ⟨current, signedIn, rfl⟩ := Option.map_eq_some_iff.mp fired
      have own : current = phone.username := by
        rw [username, signedIn]
        rfl
      exact Or.inr ⟨.deleteUserDirectory current, rfl,
        List.forall_mem_singleton.mpr (Or.inl own)⟩
  | saveChats chats =>
      cases fired
      refine Or.inr ⟨.saveChats phone.username chats, ?_, ?_⟩
      · rw [Directories.Call.perform]
      · exact List.forall_mem_singleton.mpr (Or.inl rfl)
  | removeChat chatId =>
      cases fired
      refine Or.inr ⟨.removeChat phone.username chatId, ?_, ?_⟩
      · rw [Directories.Call.perform]
      · exact List.forall_mem_singleton.mpr (Or.inl rfl)
  | saveMessages chatId messages =>
      cases fired
      refine Or.inr ⟨.saveMessages phone.username chatId messages, ?_, ?_⟩
      · rw [Directories.Call.perform]
      · exact List.forall_mem_singleton.mpr (Or.inl rfl)

/-- What holds in every state while the names that are typed are plain. -/
structure Housed (filesDir : List FileName) (phone : Phone) : Prop where
  numbered : Numbered phone.accounts.table
  names : Accounts.PlainNames phone.accounts
  served : ∃ store, Serves filesDir phone.files store

theorem Housed.plain_username
    (housed : Housed filesDir phone) :
    Plain phone.username := by
  rw [username]
  cases stored : phone.accounts.prefs.username with
  | none => exact ⟨by decide +kernel, by decide +kernel⟩
  | some name => exact housed.names.stored name stored

theorem Housed.step
    (housed : Housed filesDir phone)
    (plain : action.PlainNames)
    (fired : Phone.step filesDir chatGson messageGson EMAIL_ADDRESS phone
      action = some next) :
    Housed filesDir next := by
  constructor
  case numbered =>
    rcases accounts_of_step fired with same | ⟨event, -, requested⟩
    · exact same ▸ housed.numbered
    · exact housed.numbered.changes (changes_of_step requested)
  case names =>
    rcases accounts_of_step fired with same | ⟨event, typed, requested⟩
    · exact same ▸ housed.names
    · exact housed.names.step (typed plain) requested
  case served =>
    obtain ⟨store, serves⟩ := housed.served
    rcases files_of_step fired with same | ⟨call, performed, names⟩
    · exact ⟨store, same ▸ serves⟩
    · refine ⟨call.serveTexts chatGson messageGson store, ?_⟩
      rw [performed]
      refine serves.perform fun username named => ?_
      rcases names username named with rfl | ⟨input, refused, rfl, rfl⟩
      · exact housed.plain_username
      · exact plain.1

/-- From an empty table and a files directory without users, in every run in
which plain names are typed. -/
theorem housed_of_run
    {files : Files}
    {prefs : Prefs}
    {actions : List Action}
    (proper : files.Proper)
    (holder : files.IsDirectory filesDir)
    (fresh : ∀ username, ∀ plain : Plain username,
      files.entryAt (filesDir ++ [plain.name]) = none)
    (stored : ∀ username, prefs.username = some username → Plain username)
    (plain : ∀ action ∈ actions, action.PlainNames)
    (ran : (machine filesDir chatGson messageGson EMAIL_ADDRESS).run
      { accounts := { prefs := prefs }, files := files } actions =
        some phone) :
    Housed filesDir phone := by
  refine @Transition.Machine.guarded_invariant _ _ _ (Housed filesDir)
    (fun _ action => action.PlainNames) _ _ _
    (fun _ _ _ housed plain fired => housed.step plain fired) ran
    (Transition.Machine.guarded_of_forall plain) ?_
  exact
    { numbered := ⟨List.nodup_nil, fun _ present => nomatch present⟩
      names := ⟨fun _ present => (nomatch present), stored⟩
      served := ⟨_, Directories.serves_nothing proper holder fresh⟩ }

end Steps

end Phone
end Accounts
end IdoProject
