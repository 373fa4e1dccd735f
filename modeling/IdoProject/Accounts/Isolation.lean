import IdoProject.Accounts.Activities

/-!
# One row for one name

The session, the passwords and the chat directories go by user name, and only
the column `Email` is UNIQUE.  The names in the table stay different exactly as
long as nobody signs up with, or takes, a name that is there.
-/

namespace IdoProject
namespace Accounts

open Java

variable {EMAIL_ADDRESS : JString → Bool}
variable {state next finish : State}
variable {event : Event}

/-- No two rows have the same name. -/
def DistinctNames (state : State) : Prop :=
  state.table.usernames.Nodup

/-- A name that enters the table is not there yet: that of a row a sign-up
inserts, and the new name of a row that Settings renames. -/
def FreshName
    (EMAIL_ADDRESS : JString → Bool)
    (state : State) : Event → Prop
  | .signUp username email password repeated defaultAvatar =>
      (validateFields EMAIL_ADDRESS state username email password repeated
        defaultAvatar).isOk = true →
      state.table.checkEmail email = false →
        username ∉ state.table.usernames
  | .saveNewUsername input =>
      ∀ current ∈ state.prefs.username, trim input ≠ [] →
        trim input ≠ current → current ∈ state.table.usernames →
          trim input ∉ state.table.usernames
  | _ => True

instance : (event : Event) → Decidable (FreshName EMAIL_ADDRESS state event)
  | .signUp username email password repeated defaultAvatar =>
      inferInstanceAs (Decidable
        ((validateFields EMAIL_ADDRESS state username email password repeated
            defaultAvatar).isOk = true →
          state.table.checkEmail email = false →
            username ∉ state.table.usernames))
  | .saveNewUsername input =>
      inferInstanceAs (Decidable
        (∀ current ∈ state.prefs.username, trim input ≠ [] →
          trim input ≠ current → current ∈ state.table.usernames →
            trim input ∉ state.table.usernames))
  | .signIn _ _ | .logOut | .saveNewPassword _ _ _ | .attemptReset _ _ _
  | .updateProfilePicture _ | .deleteAccount => inferInstanceAs (Decidable True)

/-- Of the rows with a name, this is the only one. -/
def OnlyRow (state : State) (username : JString) (row : User) : Prop :=
  row.username = username ∧
    ∀ other ∈ state.table.rows, other.username = username → other = row

/-- What is done under a user name is done to one row: a login check succeeds
on the password of the only row with the name, and what Settings and the drawer
change or delete is the only row with the name of the signed-in user. -/
def SingleRow
    (EMAIL_ADDRESS : JString → Bool)
    (state : State) : Event → Prop
  | .signIn username password =>
      state.table.checkUser (trim username) (trim password) = true →
        ∃ row ∈ state.table.rows, row.pass = trim password ∧
          OnlyRow state (trim username) row
  | .saveNewUsername input =>
      Changed (.saveNewUsername input)
  | .saveNewPassword old new confirm =>
      Changed (.saveNewPassword old new confirm)
  | .updateProfilePicture picture =>
      Changed (.updateProfilePicture picture)
  | .deleteAccount => Changed .deleteAccount
  | _ => True
where
  /-- Whatever row is no longer there is the only one of the signed-in user. -/
  Changed (event : Event) : Prop :=
    ∀ next, step EMAIL_ADDRESS state event = some next →
      ∀ row ∈ state.table.rows, row ∉ next.table.rows →
        ∃ username ∈ state.prefs.username, OnlyRow state username row

section Requests

@[simp] theorem orKeep_ok (state next : State) :
    state.orKeep (.ok next) = next := rfl

@[simp] theorem orKeep_error (state : State) (error : ShownError) :
    state.orKeep (.error error) = state := rfl

/-- A sign-up that is accepted inserts and remembers the untrimmed texts. -/
theorem validateFields_ok
    {username email password repeated : JString}
    {defaultAvatar : List UInt8}
    (accepted : validateFields EMAIL_ADDRESS state username email password
      repeated defaultAvatar = .ok next) :
    next =
      { table := (state.table.insertUser username email password
          defaultAvatar).1
        prefs := state.prefs.saveCardensials username password } := by
  unfold validateFields at accepted
  cases named : validateUsername username with
  | error => simp [named, bind, Except.bind] at accepted
  | ok =>
    cases mailed : validateEmail EMAIL_ADDRESS state.table email with
    | error => simp [named, mailed, bind, Except.bind] at accepted
    | ok =>
      cases strong : validatePassword password with
      | error => simp [named, mailed, strong, bind, Except.bind] at accepted
      | ok =>
        cases same : validateRepeatPassword password repeated with
        | error =>
            simp [named, mailed, strong, same, bind, Except.bind] at accepted
        | ok =>
            simp only [named, mailed, strong, same, bind, Except.bind, pure,
              Except.pure, Except.ok.injEq] at accepted
            exact accepted.symm

section Settings

variable {current input : JString}

theorem saveNewUsername_of_empty
    (empty : trim input = []) :
    saveNewUsername state current input =
      .error ⟨[.username], jstr "Empty"⟩ := by
  simp [saveNewUsername, empty]

theorem saveNewUsername_of_same
    (written : trim input ≠ [])
    (same : trim input = current) :
    saveNewUsername state current input = .ok state := by
  unfold saveNewUsername
  dsimp only
  rw [if_neg (by simpa using written), if_pos same]

/-- A new name goes to the rows of the old one and to the session. -/
theorem saveNewUsername_of_mem
    (written : trim input ≠ [])
    (changed : trim input ≠ current)
    (present : current ∈ state.table.usernames) :
    saveNewUsername state current input =
      .ok
        { table := (state.table.updateUsername current (trim input)).1
          prefs := state.prefs.saveCardensials (trim input)
            (state.prefs.password.getD []) } := by
  have updated : (state.table.updateUsername current (trim input)).2 = true :=
    UsersTable.updateWhere_snd_iff.mpr present
  unfold saveNewUsername
  dsimp only
  rw [if_neg (by simpa using written), if_neg changed, if_pos updated]

theorem saveNewUsername_of_not_mem
    (written : trim input ≠ [])
    (changed : trim input ≠ current)
    (missing : current ∉ state.table.usernames) :
    saveNewUsername state current input =
      .error ⟨[.username], jstr "Taken"⟩ := by
  have unchanged : ¬(state.table.updateUsername current (trim input)).2 = true :=
    mt UsersTable.updateWhere_snd_iff.mp missing
  unfold saveNewUsername
  dsimp only
  rw [if_neg (by simpa using written), if_neg changed, if_neg unchanged]

/-- Settings report `Taken` exactly where no row has the name of the signed-in
user, whether or not the new name is taken. -/
theorem saveNewUsername_taken_iff
    (written : trim input ≠ [])
    (changed : trim input ≠ current) :
    saveNewUsername state current input =
        .error ⟨[.username], jstr "Taken"⟩ ↔
      current ∉ state.table.usernames := by
  by_cases present : current ∈ state.table.usernames
  · rw [saveNewUsername_of_mem written changed present]
    simp [present]
  · rw [saveNewUsername_of_not_mem written changed present]
    simp [present]

/-- What a new name makes of the state. -/
theorem orKeep_saveNewUsername
    (state : State)
    (current input : JString) :
    state.orKeep (saveNewUsername state current input) = state ∨
      saveNewUsername state current input =
        .ok
          { table := (state.table.updateUsername current (trim input)).1
            prefs := state.prefs.saveCardensials (trim input)
              (state.prefs.password.getD []) } := by
  by_cases written : trim input = []
  · rw [saveNewUsername_of_empty written]
    exact Or.inl rfl
  · by_cases changed : trim input = current
    · rw [saveNewUsername_of_same written changed]
      exact Or.inl rfl
    · by_cases present : current ∈ state.table.usernames
      · exact Or.inr (saveNewUsername_of_mem written changed present)
      · rw [saveNewUsername_of_not_mem written changed present]
        exact Or.inl rfl

/-- The table after Settings saved a new name. -/
theorem table_saveNewUsername
    (written : trim input ≠ [])
    (changed : trim input ≠ current) :
    (state.orKeep (saveNewUsername state current input)).table =
      (state.table.updateUsername current (trim input)).1 := by
  by_cases present : current ∈ state.table.usernames
  · rw [saveNewUsername_of_mem written changed present]
    rfl
  · rw [saveNewUsername_of_not_mem written changed present]
    unfold UsersTable.updateUsername UsersTable.updateWhere
    rw [Table.update_of_not_mem present]
    rfl

/-- What a new password makes of the state. -/
theorem orKeep_saveNewPassword
    (state : State)
    (current old new confirm : JString) :
    state.orKeep (saveNewPassword state current old new confirm) = state ∨
      state.orKeep (saveNewPassword state current old new confirm) =
        { table := (state.table.updatePasswordByUsername current (trim new)).1
          prefs := state.prefs.saveCardensials current (trim new) } := by
  unfold saveNewPassword
  dsimp only
  split
  · exact Or.inl rfl
  · split
    · exact Or.inl rfl
    · split
      · exact Or.inl rfl
      · split
        case isTrue => exact Or.inr rfl
        case isFalse missing =>
          refine Or.inl ?_
          have absent := mt UsersTable.updateWhere_snd_iff.mpr missing
          unfold UsersTable.updatePasswordByUsername UsersTable.updateWhere
          rw [Table.update_of_not_mem absent]
          rfl

end Settings

/-- A reset that is accepted changes the table alone. -/
theorem attemptReset_ok
    {email password confirm : JString}
    (accepted : attemptReset EMAIL_ADDRESS state email password confirm =
      .ok next) :
    next =
      { state with
        table := (state.table.updatePassword (trim email) (trim password)).1 } := by
  unfold attemptReset at accepted
  dsimp only at accepted
  repeat' split at accepted
  all_goals cases accepted
  rfl

/-- The table after a password was reset. -/
theorem table_attemptReset
    (EMAIL_ADDRESS : JString → Bool)
    (state : State)
    (email password confirm : JString) :
    (state.orKeep (attemptReset EMAIL_ADDRESS state email password
        confirm)).table = state.table ∨
      (state.orKeep (attemptReset EMAIL_ADDRESS state email password
        confirm)).table =
          (state.table.updatePassword (trim email) (trim password)).1 := by
  cases accepted : attemptReset EMAIL_ADDRESS state email password confirm with
  | error error => exact Or.inl rfl
  | ok after => exact Or.inr (congrArg State.table (attemptReset_ok accepted))

theorem table_signIn
    (username password : JString) :
    (state.orKeep (signIn state username password)).table = state.table := by
  unfold signIn
  split <;> rfl

/-- What a request makes of the state.  One that is refused makes nothing. -/
inductive Makes
    (EMAIL_ADDRESS : JString → Bool)
    (state : State) : Event → State → Prop
  | nothing (event : Event) : Makes EMAIL_ADDRESS state event state
  | account (username email password repeated : JString)
      (defaultAvatar : List UInt8) (next : State)
      (accepted : validateFields EMAIL_ADDRESS state username email password
        repeated defaultAvatar = .ok next) :
      Makes EMAIL_ADDRESS state
        (.signUp username email password repeated defaultAvatar)
        { table := (state.table.insertUser username email password
            defaultAvatar).1
          prefs := state.prefs.saveCardensials username password }
  | session (username password : JString)
      (known : state.table.checkUser (trim username) (trim password) = true) :
      Makes EMAIL_ADDRESS state (.signIn username password)
        { state with
          prefs := state.prefs.saveCardensials (trim username)
            (trim password) }
  | noSession :
      Makes EMAIL_ADDRESS state .logOut
        { state with prefs := state.prefs.clearCardensials }
  | name (current input : JString)
      (signedIn : state.prefs.username = some current)
      (changed : trim input ≠ current) :
      Makes EMAIL_ADDRESS state (.saveNewUsername input)
        { table := (state.table.updateUsername current (trim input)).1
          prefs := state.prefs.saveCardensials (trim input)
            (state.prefs.password.getD []) }
  | password (current old new confirm : JString)
      (signedIn : state.prefs.username = some current) :
      Makes EMAIL_ADDRESS state (.saveNewPassword old new confirm)
        { table := (state.table.updatePasswordByUsername current (trim new)).1
          prefs := state.prefs.saveCardensials current (trim new) }
  | reset (email password confirm : JString) :
      Makes EMAIL_ADDRESS state (.attemptReset email password confirm)
        { state with
          table := (state.table.updatePassword (trim email)
            (trim password)).1 }
  | picture (current : JString) (picture : List UInt8)
      (signedIn : state.prefs.username = some current) :
      Makes EMAIL_ADDRESS state (.updateProfilePicture picture)
        { state with
          table := (state.table.updateProfilePicture current picture).1 }
  | deletion (current : JString)
      (signedIn : state.prefs.username = some current) :
      Makes EMAIL_ADDRESS state .deleteAccount
        { state with table := (state.table.deleteUser current).1 }

theorem makes_of_step
    (fired : step EMAIL_ADDRESS state event = some next) :
    Makes EMAIL_ADDRESS state event next := by
  cases event with
  | signUp username email password repeated defaultAvatar =>
      cases fired
      cases accepted : validateFields EMAIL_ADDRESS state username email
          password repeated defaultAvatar with
      | error error => exact .nothing _
      | ok after =>
          rw [orKeep_ok, validateFields_ok accepted]
          exact .account _ _ _ _ _ _ accepted
  | signIn username password =>
      cases fired
      unfold signIn
      split
      case isTrue known => exact .session _ _ known
      case isFalse => exact .nothing _
  | logOut =>
      cases fired
      exact .noSession
  | saveNewUsername input =>
      obtain ⟨current, signedIn, rfl⟩ := Option.map_eq_some_iff.mp fired
      by_cases written : trim input = []
      · rw [saveNewUsername_of_empty written]
        exact .nothing _
      by_cases changed : trim input = current
      · rw [saveNewUsername_of_same written changed]
        exact .nothing _
      rcases orKeep_saveNewUsername state current input with same | named
      · rw [same]
        exact .nothing _
      · rw [named]
        exact .name _ _ signedIn changed
  | saveNewPassword old new confirm =>
      obtain ⟨current, signedIn, rfl⟩ := Option.map_eq_some_iff.mp fired
      rcases orKeep_saveNewPassword state current old new confirm
        with same | changed
      · rw [same]
        exact .nothing _
      · rw [changed]
        exact .password _ _ _ _ signedIn
  | attemptReset email password confirm =>
      cases fired
      cases accepted : attemptReset EMAIL_ADDRESS state email password
          confirm with
      | error error => exact .nothing _
      | ok after =>
          rw [orKeep_ok, attemptReset_ok accepted]
          exact .reset _ _ _
  | updateProfilePicture picture =>
      obtain ⟨current, signedIn, rfl⟩ := Option.map_eq_some_iff.mp fired
      exact .picture _ _ signedIn
  | deleteAccount =>
      obtain ⟨current, signedIn, rfl⟩ := Option.map_eq_some_iff.mp fired
      exact .deletion _ signedIn

end Requests

section Steps

/-- A sign-up keeps the names different exactly when its name is fresh or it
inserts nothing. -/
theorem distinctNames_signUp_iff
    {username email password repeated : JString}
    {defaultAvatar : List UInt8}
    (distinct : DistinctNames state) :
    DistinctNames (state.orKeep (validateFields EMAIL_ADDRESS state username
        email password repeated defaultAvatar)) ↔
      FreshName EMAIL_ADDRESS state
        (.signUp username email password repeated defaultAvatar) := by
  simp only [FreshName]
  cases accepted : validateFields EMAIL_ADDRESS state username email password
      repeated defaultAvatar with
  | error error => simpa [Except.isOk, Except.toBool] using distinct
  | ok next =>
      rw [orKeep_ok]
      unfold DistinctNames
      rw [validateFields_ok accepted]
      cases free : state.table.checkEmail email with
      | true =>
          rw [UsersTable.insertUser_of_checkEmail free]
          exact iff_of_true distinct fun _ absurd' => by cases absurd'
      | false =>
          rw [UsersTable.usernames_insertUser free, List.nodup_append]
          simp only [Except.isOk, Except.toBool, forall_const]
          constructor
          · intro nodup taken
            exact nodup.2.2 _ taken _ (List.mem_singleton_self _) rfl
          · intro fresh
            refine ⟨distinct, List.nodup_singleton _, ?_⟩
            rintro name present other new rfl
            exact fresh (List.mem_singleton.mp new ▸ present)

/-- A new name in Settings keeps the names different exactly when it is fresh
or changes no row. -/
theorem distinctNames_saveNewUsername_iff
    {current input : JString}
    (distinct : DistinctNames state)
    (signedIn : state.prefs.username = some current) :
    DistinctNames (state.orKeep (saveNewUsername state current input)) ↔
      FreshName EMAIL_ADDRESS state (.saveNewUsername input) := by
  simp only [FreshName, signedIn, Option.mem_def, Option.some.injEq, forall_eq']
  by_cases written : trim input = []
  · rw [saveNewUsername_of_empty written]
    simpa [written] using distinct
  · by_cases changed : trim input = current
    · rw [saveNewUsername_of_same written changed]
      simpa [changed] using distinct
    · simp only [ne_eq, written, changed, not_false_eq_true, forall_const]
      unfold DistinctNames
      rw [table_saveNewUsername written changed]
      by_cases present : current ∈ state.table.usernames
      · rw [forall_prop_of_true present]
        exact Table.nodup_update_iff distinct present changed fun _ => rfl
      · have kept : (state.table.updateUsername current (trim input)).1 =
            state.table := by
          unfold UsersTable.updateUsername UsersTable.updateWhere
          rw [Table.update_of_not_mem present]
        rw [kept]
        exact iff_of_true distinct fun there => absurd there present

/-- A step keeps the names different exactly when it brings no name that is
there already. -/
theorem distinctNames_step_iff
    (distinct : DistinctNames state)
    (fired : step EMAIL_ADDRESS state event = some next) :
    DistinctNames next ↔ FreshName EMAIL_ADDRESS state event := by
  cases event with
  | signUp username email password repeated defaultAvatar =>
      cases fired
      exact distinctNames_signUp_iff distinct
  | signIn username password =>
      cases fired
      unfold DistinctNames
      rw [table_signIn]
      exact iff_of_true distinct trivial
  | logOut =>
      cases fired
      exact iff_of_true distinct trivial
  | saveNewUsername input =>
      obtain ⟨current, signedIn, rfl⟩ := Option.map_eq_some_iff.mp fired
      exact distinctNames_saveNewUsername_iff distinct signedIn
  | saveNewPassword old new confirm =>
      obtain ⟨current, signedIn, rfl⟩ := Option.map_eq_some_iff.mp fired
      refine iff_of_true ?_ trivial
      unfold DistinctNames
      rcases orKeep_saveNewPassword state current old new confirm
        with same | changed
      · rw [same]
        exact distinct
      · rw [changed, UsersTable.usernames_updatePasswordByUsername]
        exact distinct
  | attemptReset email password confirm =>
      cases fired
      refine iff_of_true ?_ trivial
      unfold DistinctNames
      rcases table_attemptReset EMAIL_ADDRESS state email password confirm
        with same | changed
      · rw [same]
        exact distinct
      · rw [changed, UsersTable.usernames_updatePassword]
        exact distinct
  | updateProfilePicture picture =>
      obtain ⟨current, signedIn, rfl⟩ := Option.map_eq_some_iff.mp fired
      refine iff_of_true ?_ trivial
      unfold DistinctNames
      rw [UsersTable.usernames_updateProfilePicture]
      exact distinct
  | deleteAccount =>
      obtain ⟨current, signedIn, rfl⟩ := Option.map_eq_some_iff.mp fired
      exact iff_of_true (Table.nodup_delete distinct) trivial

/-- In a table of different names, a row with a name is the only one. -/
theorem onlyRow_of_distinctNames
    {row : User}
    (distinct : DistinctNames state)
    (present : row ∈ state.table.rows) :
    OnlyRow state row.username row :=
  ⟨rfl, fun _ inside same =>
    List.inj_on_of_nodup_map distinct inside present same⟩

/-- A request that leaves the rows of other names alone changes one row. -/
theorem changed_of_kept
    (distinct : DistinctNames state)
    (kept : ∀ next, step EMAIL_ADDRESS state event = some next →
      ∃ current ∈ state.prefs.username, ∀ row ∈ state.table.rows,
        row.username ≠ current → row ∈ next.table.rows) :
    SingleRow.Changed EMAIL_ADDRESS state event := by
  intro next fired row present gone
  obtain ⟨current, signedIn, others⟩ := kept next fired
  have named : row.username = current := by
    by_contra other
    exact gone (others row present other)
  exact ⟨current, signedIn, named ▸ onlyRow_of_distinctNames distinct present⟩

/-- In a table of different names, what is done under a name is done to one
row. -/
theorem singleRow_of_distinctNames
    (distinct : DistinctNames state)
    (event : Event) :
    SingleRow EMAIL_ADDRESS state event := by
  cases event with
  | signUp | logOut | attemptReset => trivial
  | signIn username password =>
      intro found
      obtain ⟨row, present, matching⟩ := List.any_eq_true.mp found
      obtain ⟨named, same⟩ := of_decide_eq_true matching
      exact ⟨row, present, same,
        named ▸ onlyRow_of_distinctNames distinct present⟩
  | saveNewUsername input =>
      refine changed_of_kept distinct fun next fired => ?_
      obtain ⟨current, signedIn, rfl⟩ := Option.map_eq_some_iff.mp fired
      refine ⟨current, signedIn, fun row present other => ?_⟩
      rcases orKeep_saveNewUsername state current input with same | changed
      · rw [same]
        exact present
      · rw [changed]
        exact Table.mem_update_of_ne present other
  | saveNewPassword old new confirm =>
      refine changed_of_kept distinct fun next fired => ?_
      obtain ⟨current, signedIn, rfl⟩ := Option.map_eq_some_iff.mp fired
      refine ⟨current, signedIn, fun row present other => ?_⟩
      rcases orKeep_saveNewPassword state current old new confirm
        with same | changed
      · rw [same]
        exact present
      · rw [changed]
        exact Table.mem_update_of_ne present other
  | updateProfilePicture picture =>
      refine changed_of_kept distinct fun next fired => ?_
      obtain ⟨current, signedIn, rfl⟩ := Option.map_eq_some_iff.mp fired
      exact ⟨current, signedIn, fun row present other =>
        Table.mem_update_of_ne present other⟩
  | deleteAccount =>
      refine changed_of_kept distinct fun next fired => ?_
      obtain ⟨current, signedIn, rfl⟩ := Option.map_eq_some_iff.mp fired
      exact ⟨current, signedIn, fun row present other =>
        Table.mem_delete_of_ne present other⟩

end Steps

section Runs

variable {prefs : Prefs}
variable {events : List Event}

/-- From the empty table, the names stay different in every state exactly when
no step brings a name that is there already; and then what is done under a name
is done to one row. -/
theorem distinctNames_iff_freshNames
    (ran : (machine EMAIL_ADDRESS).run { prefs := prefs } events = some finish) :
    ((machine EMAIL_ADDRESS).Always DistinctNames { prefs := prefs } events ↔
      (machine EMAIL_ADDRESS).Guarded (FreshName EMAIL_ADDRESS)
        { prefs := prefs } events) ∧
    ((machine EMAIL_ADDRESS).Guarded (FreshName EMAIL_ADDRESS)
        { prefs := prefs } events →
      (machine EMAIL_ADDRESS).Guarded (SingleRow EMAIL_ADDRESS)
        { prefs := prefs } events) := by
  have empty : DistinctNames { prefs := prefs } := List.nodup_nil
  constructor
  · exact Transition.Machine.always_iff_guarded
      (fun _ _ _ (_ : True) _ => trivial)
      (fun _ _ _ _ distinct fired => distinctNames_step_iff distinct fired)
      ran trivial empty
  · intro fresh
    have kept : ∀ state event next, DistinctNames state →
        FreshName EMAIL_ADDRESS state event →
          (machine EMAIL_ADDRESS).step state event = some next →
            DistinctNames next :=
      fun _ _ _ distinct fresh fired =>
        (distinctNames_step_iff distinct fired).mpr fresh
    exact Transition.Machine.guarded_mono kept
      (fun _ event distinct _ => singleRow_of_distinctNames distinct event)
      fresh empty

/-- An address with an at sign, which is what the platform's pattern asks of the
addresses below. -/
def hasAtSign (text : JString) : Bool :=
  contains text (jstr "@")

/-- Two users with different names. -/
theorem distinctNames_of_two_users :
    (machine hasAtSign).Always DistinctNames {}
      [.signUp (jstr "ann") (jstr "ann@mail.com") (jstr "Abcdef1!")
          (jstr "Abcdef1!") [],
        .logOut,
        .signUp (jstr "bob") (jstr "bob@mail.com") (jstr "Abcdef1!")
          (jstr "Abcdef1!") [],
        .saveNewUsername (jstr "robert")] := by
  obtain ⟨finish, ran⟩ := Option.isSome_iff_exists.mp
    (show ((machine hasAtSign).run {}
      [.signUp (jstr "ann") (jstr "ann@mail.com") (jstr "Abcdef1!")
          (jstr "Abcdef1!") [],
        .logOut,
        .signUp (jstr "bob") (jstr "bob@mail.com") (jstr "Abcdef1!")
          (jstr "Abcdef1!") [],
        .saveNewUsername (jstr "robert")]).isSome by decide +kernel)
  exact (distinctNames_iff_freshNames ran).1.mpr (by decide +kernel)

/-- A second user signs up with the name of the first one and deletes the
account: both rows are gone. -/
theorem not_distinctNames_of_same_name :
    ∃ state finish, (machine hasAtSign).run {}
        [.signUp (jstr "ann") (jstr "ann@mail.com") (jstr "Abcdef1!")
            (jstr "Abcdef1!") [],
          .logOut,
          .signUp (jstr "ann") (jstr "eve@mail.com") (jstr "Abcdef2!")
            (jstr "Abcdef2!") []] = some state ∧
      state.table.usernames = [jstr "ann", jstr "ann"] ∧
      ¬DistinctNames state ∧
      step hasAtSign state .deleteAccount = some finish ∧
      finish.table.rows = [] := by
  obtain ⟨state, ran, seen⟩ := Option.map_eq_some_iff.mp
    (show ((machine hasAtSign).run {}
        [.signUp (jstr "ann") (jstr "ann@mail.com") (jstr "Abcdef1!")
            (jstr "Abcdef1!") [],
          .logOut,
          .signUp (jstr "ann") (jstr "eve@mail.com") (jstr "Abcdef2!")
            (jstr "Abcdef2!") []]).map
        (fun state => (state.table.usernames,
          (step hasAtSign state .deleteAccount).map fun finish =>
            finish.table.rows)) =
      some ([jstr "ann", jstr "ann"], some []) by decide +kernel)
  obtain ⟨names, after⟩ := Prod.mk.inj seen
  obtain ⟨finish, fired, empty⟩ := Option.map_eq_some_iff.mp after
  refine ⟨state, finish, ran, names, fun distinct => ?_, fired, empty⟩
  unfold DistinctNames at distinct
  rw [names] at distinct
  exact absurd distinct (by decide +kernel)

end Runs

end Accounts
end IdoProject
