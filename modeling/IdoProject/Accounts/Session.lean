import IdoProject.Accounts.Isolation

/-!
# The session and the table

The preferences keep the name and the password of the user who signed in, and
the table is changed without them: by a reset of the password, by a deletion
that asks for the log-out in a second dialog, and by a sign-up whose row is not
inserted.  This module says which requests keep a row for the session.
-/

namespace IdoProject
namespace Accounts

open Java

variable {EMAIL_ADDRESS : JString → Bool}
variable {state next finish : State}
variable {event : Event}

/-- The row has the name and the password that the preferences keep. -/
def Matches (prefs : Prefs) (row : User) : Prop :=
  prefs.username = some row.username ∧ prefs.password = some row.pass

/-- While somebody is signed in, the table has a row for the session. -/
def SessionHasRow (state : State) : Prop :=
  state.prefs.isLoggedIn = true →
    ∃ row ∈ state.table.rows, Matches state.prefs row

/-- The preferences keep a name exactly while somebody is signed in. -/
def Signed (state : State) : Prop :=
  state.prefs.isLoggedIn = state.prefs.username.isSome

/-- An accepted sign-up inserts its row or finds one with its name and password.
A reset of the password during a session sets the password of the session, or
leaves a row of the session alone.  No account is deleted. -/
def KeepsSession
    (EMAIL_ADDRESS : JString → Bool)
    (state : State) : Event → Prop
  | .signUp username email password repeated defaultAvatar =>
      (validateFields EMAIL_ADDRESS state username email password repeated
        defaultAvatar).isOk = true →
      state.table.checkEmail email = true →
        state.table.checkUser username password = true
  | .attemptReset email password confirm =>
      state.prefs.isLoggedIn = true →
      (attemptReset EMAIL_ADDRESS state email password confirm).isOk = true →
        state.prefs.password = some (trim password) ∨
          ∃ row ∈ state.table.rows, Matches state.prefs row ∧
            row.email ≠ trim email
  | .deleteAccount => False
  | _ => True

instance (prefs : Prefs) : DecidablePred (Matches prefs) := fun row =>
  inferInstanceAs (Decidable
    (prefs.username = some row.username ∧ prefs.password = some row.pass))

instance : (event : Event) → Decidable (KeepsSession EMAIL_ADDRESS state event)
  | .signUp username email password repeated defaultAvatar =>
      inferInstanceAs (Decidable
        ((validateFields EMAIL_ADDRESS state username email password repeated
            defaultAvatar).isOk = true →
          state.table.checkEmail email = true →
            state.table.checkUser username password = true))
  | .attemptReset email password confirm =>
      inferInstanceAs (Decidable
        (state.prefs.isLoggedIn = true →
          (attemptReset EMAIL_ADDRESS state email password
              confirm).isOk = true →
            state.prefs.password = some (trim password) ∨
              ∃ row ∈ state.table.rows, Matches state.prefs row ∧
                row.email ≠ trim email))
  | .deleteAccount => inferInstanceAs (Decidable False)
  | .signIn _ _ | .logOut | .saveNewUsername _ | .saveNewPassword _ _ _
  | .updateProfilePicture _ => inferInstanceAs (Decidable True)

section Requests

/-- A login check finds a row for the credentials it checked. -/
theorem matches_saveCardensials_iff
    (table : UsersTable)
    (prefs : Prefs)
    (username password : JString) :
    (∃ row ∈ table.rows, Matches (prefs.saveCardensials username password) row) ↔
      table.checkUser username password = true := by
  simp only [UsersTable.checkUser, List.any_eq_true, decide_eq_true_eq, Matches,
    Prefs.saveCardensials, Option.some.injEq]
  simp only [eq_comm]

end Requests

section Steps

/-- A sign-up keeps the session exactly when it has a row. -/
theorem sessionHasRow_signUp_iff
    {username email password repeated : JString}
    {defaultAvatar : List UInt8}
    (holds : SessionHasRow state) :
    SessionHasRow (state.orKeep (validateFields EMAIL_ADDRESS state username
        email password repeated defaultAvatar)) ↔
      KeepsSession EMAIL_ADDRESS state
        (.signUp username email password repeated defaultAvatar) := by
  simp only [KeepsSession]
  cases accepted : validateFields EMAIL_ADDRESS state username email password
      repeated defaultAvatar with
  | error error => simpa [Except.isOk, Except.toBool] using holds
  | ok next =>
      have loggedIn (prefs : Prefs) :
          (prefs.saveCardensials username password).isLoggedIn = true := rfl
      rw [orKeep_ok, validateFields_ok accepted]
      unfold SessionHasRow
      rw [forall_prop_of_true (loggedIn state.prefs)]
      simp only [Except.isOk, Except.toBool, forall_const]
      cases free : state.table.checkEmail email with
      | true =>
          rw [UsersTable.insertUser_of_checkEmail free,
            matches_saveCardensials_iff, forall_prop_of_true rfl]
      | false =>
          refine iff_of_true ?_ fun taken => absurd taken Bool.false_ne_true
          unfold UsersTable.insertUser
          rw [free, if_neg Bool.false_ne_true]
          exact ⟨_, List.mem_append_right _ (List.mem_singleton_self _), rfl, rfl⟩

/-- A new name in Settings goes to a row of the session and to the session. -/
theorem sessionHasRow_saveNewUsername
    {current input : JString}
    (signedIn : state.prefs.username = some current)
    (found : ∃ row ∈ state.table.rows, Matches state.prefs row) :
    SessionHasRow (state.orKeep (saveNewUsername state current input)) := by
  have kept : SessionHasRow state := fun _ => found
  obtain ⟨row, present, named, known⟩ := found
  rcases orKeep_saveNewUsername state current input with same | changed
  · rw [same]
    exact kept
  · rw [changed]
    refine fun _ => ⟨{ row with username := trim input }, ?_, rfl, ?_⟩
    · refine List.mem_map.mpr ⟨row, present, if_pos ?_⟩
      exact Option.some.inj (named.symm.trans signedIn)
    · change some (state.prefs.password.getD []) = some row.pass
      rw [known, Option.getD_some]

/-- A new password in Settings goes to the rows of the session and to the
session. -/
theorem sessionHasRow_saveNewPassword
    {current old new confirm : JString}
    (signedIn : state.prefs.username = some current)
    (found : ∃ row ∈ state.table.rows, Matches state.prefs row) :
    SessionHasRow
      (state.orKeep (saveNewPassword state current old new confirm)) := by
  have kept : SessionHasRow state := fun _ => found
  obtain ⟨row, present, named, known⟩ := found
  have own : row.username = current :=
    Option.some.inj (named.symm.trans signedIn)
  rcases orKeep_saveNewPassword state current old new confirm
    with same | changed
  · rw [same]
    exact kept
  · rw [changed]
    refine fun _ => ⟨{ row with pass := trim new }, ?_, ?_, rfl⟩
    · exact List.mem_map.mpr ⟨row, present, if_pos own⟩
    · exact congrArg some own.symm

/-- A reset by e-mail keeps the session exactly when it leaves a row of the
session alone or sets its password. -/
theorem sessionHasRow_attemptReset_iff
    {email password confirm : JString}
    (holds : SessionHasRow state) :
    SessionHasRow (state.orKeep (attemptReset EMAIL_ADDRESS state email password
        confirm)) ↔
      KeepsSession EMAIL_ADDRESS state (.attemptReset email password confirm) := by
  simp only [KeepsSession]
  cases accepted : attemptReset EMAIL_ADDRESS state email password confirm with
  | error error => simpa [Except.isOk, Except.toBool] using holds
  | ok next =>
      rw [orKeep_ok, attemptReset_ok accepted]
      simp only [Except.isOk, Except.toBool, forall_const]
      refine forall_congr' fun loggedIn => ?_
      obtain ⟨row, present, named, known⟩ := holds loggedIn
      constructor
      · rintro ⟨changed, inside, same, pass⟩
        obtain ⟨old, there, rfl⟩ := List.mem_map.mp inside
        split at same
        case isTrue reset =>
          rw [if_pos reset] at pass
          exact Or.inl pass
        case isFalse other =>
          rw [if_neg other] at pass
          exact Or.inr ⟨old, there, ⟨same, pass⟩, other⟩
      · rintro (same | ⟨other, there, own, different⟩)
        · by_cases reset : row.email = trim email
          · exact ⟨{ row with pass := trim password },
              List.mem_map.mpr ⟨row, present, if_pos reset⟩, named, same⟩
          · exact ⟨row, Table.mem_update_of_ne present reset, named, known⟩
        · exact ⟨other, Table.mem_update_of_ne there different, own⟩

/-- A deletion leaves no row for the session. -/
theorem not_sessionHasRow_deleteAccount
    {current : JString}
    (signed : Signed state)
    (signedIn : state.prefs.username = some current) :
    ¬SessionHasRow
      { state with table := (state.table.deleteUser current).1 } := by
  intro holds
  have loggedIn : state.prefs.isLoggedIn = true := by
    rw [signed, signedIn]
    rfl
  obtain ⟨row, present, named, _⟩ := holds loggedIn
  have other := (List.mem_filter.mp present).2
  rw [decide_eq_true_iff] at other
  exact other (Option.some.inj (named.symm.trans signedIn))

/-- Every request keeps the name and the flag together. -/
theorem signed_step
    (signed : Signed state)
    (fired : step EMAIL_ADDRESS state event = some next) :
    Signed next := by
  cases makes_of_step fired with
  | nothing => exact signed
  | account | session | noSession | name | password => rfl
  | reset | picture | deletion => exact signed

/-- A step keeps a row for the session exactly when the request does. -/
theorem sessionHasRow_step_iff
    (signed : Signed state)
    (holds : SessionHasRow state)
    (fired : step EMAIL_ADDRESS state event = some next) :
    SessionHasRow next ↔ KeepsSession EMAIL_ADDRESS state event := by
  have found (current : JString)
      (signedIn : state.prefs.username = some current) :
      ∃ row ∈ state.table.rows, Matches state.prefs row := by
    refine holds ?_
    rw [signed, signedIn]
    rfl
  cases event with
  | signUp =>
      cases fired
      exact sessionHasRow_signUp_iff holds
  | signIn username password =>
      cases fired
      refine iff_of_true ?_ trivial
      unfold signIn
      split
      case isTrue known =>
        exact fun _ => (matches_saveCardensials_iff _ _ _ _).mpr known
      case isFalse => exact holds
  | logOut =>
      cases fired
      exact iff_of_true (fun loggedIn => absurd loggedIn Bool.false_ne_true)
        trivial
  | saveNewUsername input =>
      obtain ⟨current, signedIn, rfl⟩ := Option.map_eq_some_iff.mp fired
      exact iff_of_true
        (sessionHasRow_saveNewUsername signedIn (found current signedIn)) trivial
  | saveNewPassword old new confirm =>
      obtain ⟨current, signedIn, rfl⟩ := Option.map_eq_some_iff.mp fired
      exact iff_of_true
        (sessionHasRow_saveNewPassword signedIn (found current signedIn)) trivial
  | attemptReset =>
      cases fired
      exact sessionHasRow_attemptReset_iff holds
  | updateProfilePicture picture =>
      obtain ⟨current, signedIn, rfl⟩ := Option.map_eq_some_iff.mp fired
      refine iff_of_true (fun _ => ?_) trivial
      obtain ⟨row, present, own⟩ := found current signedIn
      by_cases named : row.username = current
      · exact ⟨{ row with profilePicture := picture },
          List.mem_map.mpr ⟨row, present, if_pos named⟩, own⟩
      · exact ⟨row, Table.mem_update_of_ne present named, own⟩
  | deleteAccount =>
      obtain ⟨current, signedIn, rfl⟩ := Option.map_eq_some_iff.mp fired
      exact iff_of_false (not_sessionHasRow_deleteAccount signed signedIn) id

end Steps

section Runs

variable {prefs : Prefs}
variable {events : List Event}

/-- From the empty table and nobody signed in, the session has a row in every
state exactly when every request of the run keeps it. -/
theorem always_sessionHasRow_iff
    (signedOut : prefs.isLoggedIn = false)
    (nobody : prefs.username = none)
    (ran : (machine EMAIL_ADDRESS).run { prefs := prefs } events = some finish) :
    (machine EMAIL_ADDRESS).Always SessionHasRow { prefs := prefs } events ↔
      (machine EMAIL_ADDRESS).Guarded (KeepsSession EMAIL_ADDRESS)
        { prefs := prefs } events := by
  have signed : Signed { prefs := prefs } := by
    rw [Signed, signedOut, nobody]
    rfl
  have holds : SessionHasRow { prefs := prefs } := fun loggedIn =>
    absurd (signedOut.symm.trans loggedIn) Bool.false_ne_true
  exact Transition.Machine.always_iff_guarded
    (fun _ _ _ signed fired => signed_step signed fired)
    (fun _ _ _ signed holds fired => sessionHasRow_step_iff signed holds fired)
    ran signed holds

/-- A name and a password are changed during the session. -/
theorem sessionHasRow_of_changed_name :
    (machine hasAtSign).Always SessionHasRow {}
      [.signUp (jstr "ann") (jstr "ann@mail.com") (jstr "Abcdef1!")
          (jstr "Abcdef1!") [],
        .saveNewUsername (jstr " anna "),
        .saveNewPassword (jstr "Abcdef1!") (jstr "Abcdef2!") (jstr "Abcdef2!"),
        .logOut,
        .attemptReset (jstr "ann@mail.com") (jstr "Abcdef3!")
          (jstr "Abcdef3!"),
        .signIn (jstr "anna") (jstr "Abcdef3!")] := by
  obtain ⟨finish, ran⟩ := Option.isSome_iff_exists.mp
    (show ((machine hasAtSign).run {}
      [.signUp (jstr "ann") (jstr "ann@mail.com") (jstr "Abcdef1!")
          (jstr "Abcdef1!") [],
        .saveNewUsername (jstr " anna "),
        .saveNewPassword (jstr "Abcdef1!") (jstr "Abcdef2!") (jstr "Abcdef2!"),
        .logOut,
        .attemptReset (jstr "ann@mail.com") (jstr "Abcdef3!")
          (jstr "Abcdef3!"),
        .signIn (jstr "anna") (jstr "Abcdef3!")]).isSome by decide +kernel)
  exact (always_sessionHasRow_iff rfl rfl ran).mpr (by decide +kernel)

/-- The account is deleted and the log-out is declined. -/
theorem not_sessionHasRow_of_declined_log_out :
    ∃ finish,
      (machine hasAtSign).run {}
        [.signUp (jstr "ann") (jstr "ann@mail.com") (jstr "Abcdef1!")
            (jstr "Abcdef1!") [],
          .deleteAccount] = some finish ∧
      finish.prefs.isLoggedIn = true ∧
      finish.prefs.username = some (jstr "ann") ∧
      finish.table.rows = [] ∧
      ¬SessionHasRow finish := by
  obtain ⟨finish, ran, seen⟩ := Option.map_eq_some_iff.mp
    (show ((machine hasAtSign).run {}
        [.signUp (jstr "ann") (jstr "ann@mail.com") (jstr "Abcdef1!")
            (jstr "Abcdef1!") [],
          .deleteAccount]).map
        (fun finish => (finish.prefs.isLoggedIn, finish.prefs.username,
          finish.table.rows)) =
      some (true, some (jstr "ann"), []) by decide +kernel)
  simp only [Prod.mk.injEq] at seen
  obtain ⟨loggedIn, username, rows⟩ := seen
  refine ⟨finish, ran, loggedIn, username, rows, fun holds => ?_⟩
  obtain ⟨row, present, _⟩ := holds loggedIn
  rw [rows] at present
  cases present

end Runs

end Accounts
end IdoProject
