import IdoProject.Accounts.Isolation

/-!
# Sign-up and sign-in

`SignUpActivity` checks the texts trimmed and stores them as they were typed;
the other activities trim what is typed before they look for it.  The account
is found again under the texts of its sign-up exactly when trimming does not
change them, or another row happens to answer for the password.
-/

namespace IdoProject
namespace Accounts

open Java

/-- The text has no white space at its ends. -/
def Trimmed (text : JString) : Prop :=
  trim text = text

instance : DecidablePred Trimmed := fun text =>
  inferInstanceAs (Decidable (trim text = text))

/-- The texts of a sign-up open the account: sign-in accepts the name and the
password, and the row is the one that a reset finds by the e-mail address. -/
def Opens
    (state : State)
    (username email password : JString)
    (row : User) : Prop :=
  (signIn state username password).isOk = true ∧
    state.table.checkEmail (trim email) = true ∧ row.email = trim email

/-- A sign-up that passes its checks inserts a row, and its texts open the
account as long as the row is not changed. -/
def Agrees
    (EMAIL_ADDRESS : JString → Bool)
    (state : State)
    (username email password repeated : JString)
    (defaultAvatar : List UInt8) : Prop :=
  ∀ next, validateFields EMAIL_ADDRESS state username email password repeated
      defaultAvatar = .ok next →
    ∃ row : User, next.table.rows = state.table.rows ++ [row] ∧
      row.username = username ∧ row.email = email ∧ row.pass = password ∧
      ∀ events finish, (machine EMAIL_ADDRESS).run next events = some finish →
        (machine EMAIL_ADDRESS).Always (fun state => row ∈ state.table.rows)
          next events →
        Opens finish username email password row

/-- Another row has the name and the trimmed password, and an e-mail address
under which nobody can reset it. -/
def AnswersFor (username password : JString) (row : User) : Prop :=
  row.username = username ∧ row.pass = trim password ∧ ¬Trimmed row.email

/-- Trimming leaves the name and the e-mail address alone, and the password as
well unless another row answers for it. -/
def TypedTrimmed
    (state : State)
    (username email password : JString) : Prop :=
  Trimmed email ∧ Trimmed username ∧
    (Trimmed password ∨
      ∃ row ∈ state.table.rows, AnswersFor username password row)

/-- Every e-mail address in the table passed the check of a sign-up. -/
def MailsChecked (EMAIL_ADDRESS : JString → Bool) (state : State) : Prop :=
  ∀ row ∈ state.table.rows,
    trim row.email ≠ [] ∧ EMAIL_ADDRESS (trim row.email) = true

variable {EMAIL_ADDRESS : JString → Bool}
variable {state next finish : State}
variable {event : Event}
variable {row : User}
variable {username email password repeated : JString}
variable {defaultAvatar : List UInt8}

section Requests

theorem validateEmail_of_validateFields
    (accepted : validateFields EMAIL_ADDRESS state username email password
      repeated defaultAvatar = .ok next) :
    trim email ≠ [] ∧ EMAIL_ADDRESS (trim email) = true ∧
      state.table.checkEmail (trim email) = false := by
  have mailed : validateEmail EMAIL_ADDRESS state.table email = .ok () := by
    unfold validateFields at accepted
    cases named : validateUsername username with
    | error => simp [named, bind, Except.bind] at accepted
    | ok =>
      cases mailed : validateEmail EMAIL_ADDRESS state.table email with
      | error => simp [named, mailed, bind, Except.bind] at accepted
      | ok => rfl
  unfold validateEmail at mailed
  dsimp only at mailed
  split at mailed
  case isTrue => cases mailed
  case isFalse written =>
    split at mailed
    case isTrue => cases mailed
    case isFalse valid =>
      split at mailed
      case isTrue => cases mailed
      case isFalse free =>
        refine ⟨by simpa using written, by simpa using valid, by simpa using free⟩

theorem signIn_isOk_iff :
    (signIn state username password).isOk = true ↔
      ∃ row ∈ state.table.rows,
        row.username = trim username ∧ row.pass = trim password := by
  have found : state.table.checkUser (trim username) (trim password) = true ↔
      ∃ row ∈ state.table.rows,
        row.username = trim username ∧ row.pass = trim password := by
    simp [UsersTable.checkUser]
  rw [← found]
  unfold signIn
  split
  case isTrue known => exact iff_of_true rfl known
  case isFalse unknown => exact iff_of_false Bool.false_ne_true unknown

theorem checkEmail_eq_true_iff
    {table : UsersTable} :
    table.checkEmail email = true ↔ ∃ row ∈ table.rows, row.email = email := by
  simp [UsersTable.checkEmail, Table.contains]

/-- A row that an update did not touch was there, and is not selected. -/
theorem mem_of_mem_update
    {rows : List User}
    {column : User → JString}
    {value : JString}
    {change : User → User}
    (present : row ∈ Table.update rows column value change)
    (other : ∀ old, change old ≠ row) :
    row ∈ rows ∧ column row ≠ value := by
  obtain ⟨old, inside, equal⟩ := List.mem_map.mp present
  split at equal
  case isTrue => exact absurd equal (other old)
  case isFalse unselected =>
    rw [equal] at inside unselected
    exact ⟨inside, unselected⟩

end Requests

section Answering

/-- While the row of the sign-up stays as it is, so does the row that answers
for its password: what is done by the user name is done to both, and a reset
does not reach an e-mail address with white space at its ends. -/
theorem answersFor_step
    (untrimmed : ¬Trimmed row.pass)
    (stays : row ∈ next.table.rows)
    (answers : ∃ other ∈ state.table.rows,
      AnswersFor row.username row.pass other)
    (fired : step EMAIL_ADDRESS state event = some next) :
    ∃ other ∈ next.table.rows, AnswersFor row.username row.pass other := by
  obtain ⟨other, inside, named, passed, mailed⟩ := answers
  have kept (stillThere : other ∈ next.table.rows) :
      ∃ other ∈ next.table.rows, AnswersFor row.username row.pass other :=
    ⟨other, stillThere, named, passed, mailed⟩
  cases makes_of_step fired with
  | nothing | session | noSession => exact kept inside
  | account =>
      apply kept
      unfold UsersTable.insertUser
      split
      · exact inside
      · exact List.mem_append_left _ inside
  | name current input signedIn changed =>
      apply kept
      apply Table.mem_update_of_ne inside
      rw [named]
      obtain ⟨old, -, equal⟩ := List.mem_map.mp stays
      split at equal
      case isTrue => rw [← equal]; exact changed
      case isFalse unselected => rwa [← equal]
  | password current old new confirm signedIn =>
      apply kept
      apply Table.mem_update_of_ne inside
      rw [named]
      refine (mem_of_mem_update stays fun old equal => untrimmed ?_).2
      rw [← equal]
      exact trim_trim new
  | reset email password confirm =>
      apply kept
      apply Table.mem_update_of_ne inside
      intro equal
      apply mailed
      rw [equal]
      exact trim_trim email
  | picture =>
      refine ⟨_, List.mem_map.mpr ⟨other, inside, rfl⟩, ?_⟩
      split <;> exact ⟨named, passed, mailed⟩
  | deletion =>
      apply kept
      apply Table.mem_delete_of_ne inside
      rw [named]
      simpa using List.of_mem_filter stays

end Answering

section Mails

/-- An update that keeps the e-mail addresses keeps them checked. -/
theorem mailsChecked_update
    {column : User → JString}
    {value : JString}
    {change : User → User}
    {prefs : Prefs}
    (checked : MailsChecked EMAIL_ADDRESS state)
    (kept : ∀ row, (change row).email = row.email) :
    MailsChecked EMAIL_ADDRESS
      ⟨(state.table.updateWhere column value change).1, prefs⟩ := by
  intro row present
  obtain ⟨old, inside, rfl⟩ := List.mem_map.mp present
  split
  · rw [kept]
    exact checked old inside
  · exact checked old inside

/-- No request brings an e-mail address that was not checked. -/
theorem mailsChecked_step
    (checked : MailsChecked EMAIL_ADDRESS state)
    (fired : step EMAIL_ADDRESS state event = some next) :
    MailsChecked EMAIL_ADDRESS next := by
  cases makes_of_step fired with
  | nothing | session | noSession => exact checked
  | account username email password repeated defaultAvatar after accepted =>
      obtain ⟨written, valid, -⟩ := validateEmail_of_validateFields accepted
      intro row present
      unfold UsersTable.insertUser at present
      split at present
      · exact checked row present
      · rcases List.mem_append.mp present with old | new
        · exact checked row old
        · rw [List.mem_singleton.mp new]
          exact ⟨written, valid⟩
  | name | password | reset | picture =>
      apply mailsChecked_update checked
      exact fun _ => rfl
  | deletion =>
      exact fun row present => checked row (List.mem_of_mem_filter present)

end Mails

section Resets

variable {emails : List JString}
variable {strong : JString}

/-- A password is reset for each of the addresses. -/
def resets (strong : JString) (emails : List JString) : List Event :=
  emails.map fun email => .attemptReset email strong strong

theorem attemptReset_of_known
    (trimmed : Trimmed email)
    (written : email ≠ [])
    (valid : EMAIL_ADDRESS email = true)
    (known : state.table.checkEmail email = true)
    (pattern : PASSWORD_PATTERN strong = true)
    (bare : Trimmed strong)
    (some_text : strong ≠ []) :
    attemptReset EMAIL_ADDRESS state email strong strong =
      .ok { state with table := (state.table.updatePassword email strong).1 } := by
  have updated : (state.table.updatePassword email strong).2 = true := by
    apply UsersTable.updateWhere_snd_iff.mpr
    obtain ⟨row, present, rfl⟩ := checkEmail_eq_true_iff.mp known
    exact List.mem_map_of_mem present
  unfold Trimmed at trimmed bare
  unfold attemptReset
  rw [trimmed, bare]
  simp [written, valid, known, pattern, some_text, updated]

/-- What is known of the addresses and of the new password when a reset is
accepted. -/
structure Resettable
    (EMAIL_ADDRESS : JString → Bool)
    (table : UsersTable)
    (strong : JString)
    (emails : List JString) : Prop where
  trimmed : ∀ email ∈ emails, Trimmed email
  written : ∀ email ∈ emails, email ≠ []
  valid : ∀ email ∈ emails, EMAIL_ADDRESS email = true
  known : ∀ email ∈ emails, table.checkEmail email = true
  pattern : PASSWORD_PATTERN strong = true
  bare : Trimmed strong
  nonempty : strong ≠ []

/-- Resets give the new password to the rows with the addresses and leave the
others alone. -/
theorem run_resets
    (resettable : Resettable EMAIL_ADDRESS state.table strong emails) :
    ∃ finish,
      (machine EMAIL_ADDRESS).run state (resets strong emails) = some finish ∧
      finish.table.rows = state.table.rows.map (fun row =>
        if row.email ∈ emails then { row with pass := strong } else row) ∧
      ∀ row ∈ state.table.rows, row.email ∉ emails →
        (machine EMAIL_ADDRESS).Always (fun state => row ∈ state.table.rows)
          state (resets strong emails) := by
  induction emails generalizing state with
  | nil =>
      refine ⟨state, rfl, ?_, fun row present _ => present⟩
      simp
  | cons email emails inductionHypothesis =>
      have head : email ∈ email :: emails := List.mem_cons_self
      have tail (other : JString) (member : other ∈ emails) :
          other ∈ email :: emails := List.mem_cons_of_mem email member
      have first := @attemptReset_of_known EMAIL_ADDRESS state email strong
        (resettable.trimmed email head) (resettable.written email head)
        (resettable.valid email head) (resettable.known email head)
        resettable.pattern resettable.bare resettable.nonempty
      have fired : (machine EMAIL_ADDRESS).step state
          (.attemptReset email strong strong) = some
            { state with
              table := (state.table.updatePassword email strong).1 } := by
        change some (state.orKeep (attemptReset EMAIL_ADDRESS state email strong
          strong)) = _
        rw [first, orKeep_ok]
      obtain ⟨finish, ran, rows, kept⟩ := @inductionHypothesis
        { state with table := (state.table.updatePassword email strong).1 }
        { trimmed := fun other member =>
            resettable.trimmed other (tail other member)
          written := fun other member =>
            resettable.written other (tail other member)
          valid := fun other member =>
            resettable.valid other (tail other member)
          known := by
            intro other member
            obtain ⟨row, present, rfl⟩ := checkEmail_eq_true_iff.mp
              (resettable.known other (tail other member))
            refine checkEmail_eq_true_iff.mpr
              ⟨_, List.mem_map.mpr ⟨row, present, rfl⟩, ?_⟩
            split <;> rfl
          pattern := resettable.pattern
          bare := resettable.bare
          nonempty := resettable.nonempty }
      refine ⟨finish, ?_, ?_, ?_⟩
      · rw [resets, List.map_cons, Transition.Machine.run_cons, fired,
          Option.bind_some]
        exact ran
      · rw [rows]
        change (Table.update _ _ _ _).map _ = _
        unfold Table.update
        rw [List.map_map]
        apply List.map_congr_left
        intro row _
        dsimp only [Function.comp_apply]
        by_cases same : row.email = email <;> simp [same]
      · intro row present other
        rw [List.mem_cons, not_or] at other
        refine ⟨present, fun after also => ?_⟩
        rw [fired] at also
        cases also
        exact kept row (Table.mem_update_of_ne present other.1) other.2

end Resets

section SignUp

/-- A password that the pattern matches and that is not the given one. -/
def anotherPassword (password : JString) : JString :=
  if password = jstr "Aa1@aaaa" then jstr "Bb1@bbbb" else jstr "Aa1@aaaa"

theorem anotherPassword_ne
    (password : JString) :
    anotherPassword password ≠ password := by
  unfold anotherPassword
  split
  case isTrue same =>
    rw [same]
    decide
  case isFalse other => exact Ne.symm other

theorem anotherPassword_accepted
    (password : JString) :
    PASSWORD_PATTERN (anotherPassword password) = true ∧
      Trimmed (anotherPassword password) ∧ anotherPassword password ≠ [] := by
  unfold anotherPassword
  split <;> decide

/-- The row that a sign-up inserts. -/
def newRow
    (state : State)
    (username email password : JString)
    (defaultAvatar : List UInt8) : User where
  id := state.table.nextId
  username := username
  email := email
  pass := password
  profilePicture := defaultAvatar

theorem rows_of_validateFields
    (accepted : validateFields EMAIL_ADDRESS state username email password
      repeated defaultAvatar = .ok next)
    (free : state.table.checkEmail email = false) :
    next.table.rows =
      state.table.rows ++
        [newRow state username email password defaultAvatar] := by
  rw [validateFields_ok accepted]
  unfold UsersTable.insertUser
  rw [free, if_neg Bool.false_ne_true]
  rfl

/-- With a trimmed name and e-mail address, and a trimmed password or a row that
answers for it, the texts of the sign-up open the account. -/
theorem agrees_of_typedTrimmed
    (typed : TypedTrimmed state username email password) :
    Agrees EMAIL_ADDRESS state username email password repeated
      defaultAvatar := by
  obtain ⟨mailed, named, secret⟩ := typed
  intro next accepted
  have free : state.table.checkEmail email = false := by
    obtain ⟨-, -, free⟩ := validateEmail_of_validateFields accepted
    rwa [mailed] at free
  have inserted := rows_of_validateFields accepted free
  refine ⟨newRow state username email password defaultAvatar, inserted, rfl,
    rfl, rfl, ?_⟩
  intro events finish ran always
  have signsIn :
      ∃ row ∈ finish.table.rows,
        row.username = username ∧ row.pass = trim password := by
    by_cases bare : Trimmed password
    case pos =>
      obtain ⟨-, present⟩ := Transition.Machine.invariant_of_always
        (fun _ _ _ _ _ _ _ => trivial) ran always trivial
      exact ⟨_, present, rfl, bare.symm⟩
    case neg =>
      -- Another row answers, and goes on to as long as this one is unchanged.
      obtain ⟨other, inside, answers⟩ := secret.resolve_left bare
      obtain ⟨⟨row, present, same, passed, -⟩, -⟩ :=
        Transition.Machine.invariant_of_always
          (fun _ _ _ answers _ stays fired =>
            answersFor_step (by exact bare) stays answers fired)
          ran always ⟨other, by
            rw [inserted]
            exact List.mem_append_left _ inside, answers⟩
      exact ⟨row, present, same, passed⟩
  obtain ⟨-, present⟩ := Transition.Machine.invariant_of_always
    (fun _ _ _ _ _ _ _ => trivial) ran always trivial
  refine ⟨signIn_isOk_iff.mpr ?_, checkEmail_eq_true_iff.mpr ?_, mailed.symm⟩
  · rw [named]
    exact signsIn
  · exact ⟨_, present, mailed.symm⟩

/-- Where a name is not trimmed, the row that sign-in finds instead can be
deleted. -/
theorem trimmed_username_of_agrees
    (agrees : Agrees EMAIL_ADDRESS state username email password repeated
      defaultAvatar)
    (accepted : validateFields EMAIL_ADDRESS state username email password
      repeated defaultAvatar = .ok next) :
    Trimmed username := by
  by_contra untrimmed
  obtain ⟨row, inserted, named, -, -, opens⟩ := agrees next accepted
  have present : row ∈ next.table.rows := by
    rw [inserted]
    exact List.mem_append_right _ (List.mem_singleton_self row)
  obtain ⟨first, -, -⟩ := opens [] next rfl present
  -- Sign in as the other one, and delete that account.
  have signedIn : (machine EMAIL_ADDRESS).step next (.signIn username password) =
      some { next with
        prefs := next.prefs.saveCardensials (trim username) (trim password) } := by
    obtain ⟨found, inside, same, passed⟩ := signIn_isOk_iff.mp first
    have known : next.table.checkUser (trim username) (trim password) = true := by
      simpa [UsersTable.checkUser] using ⟨found, inside, same, passed⟩
    change some (next.orKeep (signIn next username password)) = _
    rw [signIn, if_pos known, orKeep_ok]
  have still : row ∈ (next.table.deleteUser (trim username)).1.rows := by
    apply Table.mem_delete_of_ne present
    rw [named]
    exact Ne.symm untrimmed
  obtain ⟨last, -, -⟩ := opens [.signIn username password, .deleteAccount]
    { table := (next.table.deleteUser (trim username)).1
      prefs := next.prefs.saveCardensials (trim username) (trim password) }
    (by
      rw [Transition.Machine.run_cons, signedIn]
      rfl)
    (by
      refine ⟨present, fun after fired => ⟨?_, fun gone deleted => ?_⟩⟩
      · rw [signedIn] at fired
        cases fired
        exact present
      · rw [signedIn] at fired
        cases fired
        cases deleted
        exact still)
  obtain ⟨found, inside, same, -⟩ := signIn_isOk_iff.mp last
  have other : found.username ≠ trim username := by
    simpa using List.of_mem_filter inside
  exact other same

/-- Where a password is not trimmed, the passwords of the rows that sign-in
finds instead can be reset, unless the address of one of them cannot be
typed. -/
theorem answers_of_agrees
    (checked : MailsChecked EMAIL_ADDRESS state)
    (agrees : Agrees EMAIL_ADDRESS state username email password repeated
      defaultAvatar)
    (accepted : validateFields EMAIL_ADDRESS state username email password
      repeated defaultAvatar = .ok next)
    (mailed : Trimmed email)
    (named : Trimmed username)
    (untrimmed : ¬Trimmed password) :
    ∃ row ∈ state.table.rows, AnswersFor username password row := by
  by_contra nobody
  obtain ⟨-, -, free⟩ := validateEmail_of_validateFields accepted
  rw [mailed] at free
  obtain ⟨row, inserted, -, address, passed, opens⟩ := agrees next accepted
  have present : row ∈ next.table.rows := by
    rw [inserted]
    exact List.mem_append_right _ (List.mem_singleton_self row)
  let found := next.table.rows.filter fun other =>
    other.username = username ∧ other.pass = trim password
  let emails := found.map User.email
  have older (other : User) (member : other ∈ found) :
      other ∈ state.table.rows ∧ Trimmed other.email := by
    obtain ⟨inside, matching⟩ := List.mem_filter.mp member
    obtain ⟨same, known⟩ := of_decide_eq_true matching
    have before : other ∈ state.table.rows := by
      rw [inserted] at inside
      rcases List.mem_append.mp inside with old | new
      · exact old
      · rw [List.mem_singleton.mp new, passed] at known
        exact absurd known.symm untrimmed
    refine ⟨before, ?_⟩
    by_contra odd
    exact nobody ⟨other, before, same, known, odd⟩
  have resettable : Resettable EMAIL_ADDRESS next.table
      (anotherPassword (trim password)) emails := by
    obtain ⟨pattern, bare, nonempty⟩ := anotherPassword_accepted (trim password)
    refine ⟨?_, ?_, ?_, ?_, pattern, bare, nonempty⟩
    all_goals
      intro mail member
      obtain ⟨other, within, rfl⟩ := List.mem_map.mp member
      obtain ⟨before, typed⟩ := older other within
    · exact typed
    · rw [← typed]
      exact (checked other before).1
    · rw [← typed]
      exact (checked other before).2
    · exact checkEmail_eq_true_iff.mpr
        ⟨other, List.mem_of_mem_filter within, rfl⟩
  have unasked : row.email ∉ emails := by
    rw [address]
    intro member
    obtain ⟨other, within, same⟩ := List.mem_map.mp member
    rw [checkEmail_eq_true_iff.mpr ⟨other, (older other within).1, same⟩] at free
    cases free
  obtain ⟨finish, ran, rows, kept⟩ := run_resets resettable
  obtain ⟨last, -, -⟩ := opens _ finish ran (kept row present unasked)
  obtain ⟨reached, inside, same, known⟩ := signIn_isOk_iff.mp last
  rw [rows] at inside
  obtain ⟨old, before, rfl⟩ := List.mem_map.mp inside
  split at known
  case isTrue reset => exact anotherPassword_ne _ known
  case isFalse untouched =>
    rw [if_neg untouched, named] at same
    apply untouched
    refine List.mem_map_of_mem (List.mem_filter.mpr ⟨before, ?_⟩)
    exact decide_eq_true ⟨same, known⟩

end SignUp

/-- A sign-up that passes its checks inserts a row, and the texts that were
typed open the account as long as the row is not changed, exactly when trimming
leaves the name and the e-mail address alone, and the password as well unless
another row answers for it. -/
theorem agrees_iff_typedTrimmed
    (EMAIL_ADDRESS : JString → Bool)
    (events : List Event)
    (state : State)
    (username email password repeated : JString)
    (defaultAvatar : List UInt8)
    (ran : (machine EMAIL_ADDRESS).run {} events = some state)
    (passes : (validateFields EMAIL_ADDRESS state username email password
      repeated defaultAvatar).isOk = true) :
    Agrees EMAIL_ADDRESS state username email password repeated
        defaultAvatar ↔
      TypedTrimmed state username email password := by
  obtain ⟨next, accepted⟩ : ∃ next, validateFields EMAIL_ADDRESS state username
      email password repeated defaultAvatar = .ok next := by
    cases result : validateFields EMAIL_ADDRESS state username email password
        repeated defaultAvatar with
    | ok next => exact ⟨next, rfl⟩
    | error error =>
        rw [result] at passes
        cases passes
  have checked : MailsChecked EMAIL_ADDRESS state :=
    Transition.Machine.run_invariant
      (fun _ _ _ holds fired => mailsChecked_step holds fired) ran
      fun row present => absurd present List.not_mem_nil
  constructor
  · intro agrees
    have mailed : Trimmed email := by
      obtain ⟨row, inserted, -, address, -, opens⟩ := agrees next accepted
      obtain ⟨-, -, same⟩ := opens [] next rfl (by
        change row ∈ next.table.rows
        rw [inserted]
        exact List.mem_append_right _ (List.mem_singleton_self row))
      exact same.symm.trans address
    have named := trimmed_username_of_agrees agrees accepted
    refine ⟨mailed, named, ?_⟩
    by_cases bare : Trimmed password
    · exact Or.inl bare
    · exact Or.inr
        (answers_of_agrees checked agrees accepted mailed named bare)
  · exact agrees_of_typedTrimmed

/-- A platform that takes any text with an at sign for an e-mail address. -/
def atSign (text : JString) : Bool :=
  text.any (· = 64)

/-- Texts without white space at their ends. -/
theorem agrees_bob :
    Agrees atSign {} (jstr "bob") (jstr "bob@x.org") (jstr "Aa1@aaaa")
      (jstr "Aa1@aaaa") [] :=
  (agrees_iff_typedTrimmed atSign [] {} (jstr "bob") (jstr "bob@x.org")
    (jstr "Aa1@aaaa") (jstr "Aa1@aaaa") [] rfl (by decide)).mpr
    ⟨by decide, by decide, Or.inl (by decide)⟩

/-- A blank behind the name: the sign-up is accepted, and signing in with what
was typed fails. -/
theorem blank_behind_name_locks_out :
    (validateFields atSign {} (jstr "bob ") (jstr "bob@x.org") (jstr "Aa1@aaaa")
      (jstr "Aa1@aaaa") []).isOk = true ∧
    ¬Agrees atSign {} (jstr "bob ") (jstr "bob@x.org") (jstr "Aa1@aaaa")
      (jstr "Aa1@aaaa") [] := by
  refine ⟨by decide, fun agrees => ?_⟩
  obtain ⟨row, inserted, -, -, -, opens⟩ := agrees _ rfl
  obtain ⟨signsIn, -⟩ := opens [] _ rfl (by
    change row ∈ UsersTable.rows _
    rw [inserted]
    exact List.mem_append_right _ (List.mem_singleton_self row))
  exact absurd signsIn (by decide)

end Accounts
end IdoProject
