import IdoProject.Accounts.UsersTable
import IdoProject.Prefs
import IdoProject.Transition.Machine

/-!
# What the activities do to the accounts

`SignUpActivity`, `MainActivity`, `SettingsActivity` and
`ForgotPasswordActivity` with the texts the user typed.  A request that is
refused shows an error at a field and changes nothing.
-/

namespace IdoProject
namespace Accounts

open Java

/-- The field at which an error is shown. -/
inductive Field
  | username
  | email
  | password
  | repeatPassword
  | oldPassword
  | newPassword
  | confirmPassword
  deriving DecidableEq

/-- An error that is shown, at some fields or at none. -/
structure ShownError where
  fields : List Field
  text : JString
  deriving DecidableEq

/-- The table of users and the credentials in the preferences. -/
structure State where
  table : UsersTable := {}
  prefs : Prefs := {}

/-- Length in code points. -/
def codePoints : JString → Nat
  | [] => 0
  | [_] => 1
  | first :: second :: rest =>
      if 0xD800 ≤ first ∧ first ≤ 0xDBFF ∧ 0xDC00 ≤ second ∧ second ≤ 0xDFFF then
        codePoints rest + 1
      else codePoints (second :: rest) + 1

/-- White space of Unicode, all of it below the surrogates. -/
def whiteSpace (unit : UInt16) : Bool :=
  (0x09 ≤ unit ∧ unit ≤ 0x0D) ∨ (0x2000 ≤ unit ∧ unit ≤ 0x200A) ∨
    unit ∈ [0x20, 0x85, 0xA0, 0x1680, 0x2028, 0x2029, 0x202F, 0x205F, 0x3000]

/-- A password that the pattern of the three activities matches: at least eight
characters, among them a digit, a lower-case and an upper-case letter and one
of `@#$%^&+=!`, none of them white space, which includes the line
terminators. -/
def PASSWORD_PATTERN (text : JString) : Bool :=
  text.any (fun unit => 48 ≤ unit ∧ unit ≤ 57) &&
    text.any (fun unit => 97 ≤ unit ∧ unit ≤ 122) &&
    text.any (fun unit => 65 ≤ unit ∧ unit ≤ 90) &&
    text.any (fun unit => unit ∈ jstr "@#$%^&+=!") &&
    text.all (fun unit => !whiteSpace unit) &&
    decide (8 ≤ codePoints text)

/-- The error for an empty field. -/
def emptyField (field : Field) : ShownError :=
  ⟨[field], jstr "Field can't be empty"⟩

/-- The error for a password that the pattern does not match. -/
def weakPassword (field : Field) : ShownError :=
  ⟨[field], jstr "Weak Password: 8+ chars, Upper, Lower, Digit, Special"⟩

section Activities

-- `Patterns.EMAIL_ADDRESS` belongs to the platform
variable (EMAIL_ADDRESS : JString → Bool)

/-- `SignUpActivity.validateUsername`. -/
def validateUsername (username : JString) : Except ShownError Unit :=
  if (trim username).isEmpty then .error (emptyField .username) else .ok ()

/-- `SignUpActivity.validateEmail`. -/
def validateEmail (table : UsersTable) (email : JString) :
    Except ShownError Unit :=
  let emailInput := trim email
  if emailInput.isEmpty then .error (emptyField .email)
  else if !EMAIL_ADDRESS emailInput then
    .error ⟨[.email], jstr "Invalid email address"⟩
  else if table.checkEmail emailInput then
    .error ⟨[.email], jstr "Email already exists"⟩
  else .ok ()

/-- `SignUpActivity.validatePassword`. -/
def validatePassword (password : JString) : Except ShownError Unit :=
  let passwordInput := trim password
  if passwordInput.isEmpty then .error (emptyField .password)
  else if !PASSWORD_PATTERN passwordInput then .error (weakPassword .password)
  else .ok ()

/-- `SignUpActivity.validateRepeatPassword`. -/
def validateRepeatPassword (password repeated : JString) :
    Except ShownError Unit :=
  let repeatPasswordInput := trim repeated
  if repeatPasswordInput.isEmpty then .error (emptyField .repeatPassword)
  else if trim password ≠ repeatPasswordInput then
    .error ⟨[.repeatPassword], jstr "Passwords do not match"⟩
  else .ok ()

/-- `SignUpActivity.validateFields`: the texts are checked trimmed and stored
untrimmed, and the result of `insertUser` is not looked at. -/
def validateFields
    (state : State)
    (username email password repeated : JString)
    (defaultAvatar : List UInt8) : Except ShownError State := do
  validateUsername username
  validateEmail EMAIL_ADDRESS state.table email
  validatePassword password
  validateRepeatPassword password repeated
  return {
    table := (state.table.insertUser username email password defaultAvatar).1
    prefs := state.prefs.saveCardensials username password }

/-- The listener of the sign-in button in `MainActivity`. -/
def signIn
    (state : State)
    (username password : JString) : Except ShownError State :=
  if state.table.checkUser (trim username) (trim password) then
    .ok { state with
      prefs := state.prefs.saveCardensials (trim username) (trim password) }
  else .error
    ⟨[.password, .username], jstr "Invalid username or password"⟩

/-- `SettingsActivity.saveNewUsername` for the name in the preferences. -/
def saveNewUsername
    (state : State)
    (current input : JString) : Except ShownError State :=
  let newName := trim input
  if newName.isEmpty then .error ⟨[.username], jstr "Empty"⟩
  else if newName = current then .ok state
  else
    let updated := state.table.updateUsername current newName
    if updated.2 then
      .ok
        { table := updated.1
          prefs := state.prefs.saveCardensials newName
            (state.prefs.password.getD []) }
    else .error ⟨[.username], jstr "Taken"⟩

/-- `SettingsActivity.saveNewPassword` for the name in the preferences. -/
def saveNewPassword
    (state : State)
    (current old new confirm : JString) : Except ShownError State :=
  let newP := trim new
  if !state.table.checkUser current (trim old) then
    .error ⟨[.oldPassword], jstr "Wrong Password"⟩
  else if !PASSWORD_PATTERN newP then
    .error ⟨[.newPassword], jstr "Weak Password"⟩
  else if newP ≠ trim confirm then
    .error ⟨[.confirmPassword], jstr "Mismatch"⟩
  else
    let updated := state.table.updatePasswordByUsername current newP
    if updated.2 then
      .ok
        { table := updated.1
          prefs := state.prefs.saveCardensials current newP }
    else .ok { state with table := updated.1 }

/-- `ForgotPasswordActivity.attemptReset`. -/
def attemptReset
    (state : State)
    (email password confirm : JString) : Except ShownError State :=
  let emailInput := trim email
  let pass := trim password
  if emailInput.isEmpty then .error (emptyField .email)
  else if !EMAIL_ADDRESS emailInput then
    .error ⟨[.email], jstr "Invalid email address"⟩
  else if !state.table.checkEmail emailInput then
    .error ⟨[.email], jstr "Email not found"⟩
  else if pass.isEmpty then .error (emptyField .newPassword)
  else if !PASSWORD_PATTERN pass then .error (weakPassword .newPassword)
  else if pass ≠ trim confirm then
    .error ⟨[.confirmPassword], jstr "Passwords do not match"⟩
  else
    let updated := state.table.updatePassword emailInput pass
    if updated.2 then .ok { state with table := updated.1 }
    else .error ⟨[], jstr "Error updating password"⟩

/-- What a user can ask of the activities. -/
inductive Event
  | signUp (username email password repeated : JString)
      (defaultAvatar : List UInt8)
  | signIn (username password : JString)
  | logOut
  | saveNewUsername (input : JString)
  | saveNewPassword (old new confirm : JString)
  | attemptReset (email password confirm : JString)
  | updateProfilePicture (picture : List UInt8)
  | deleteAccount

/-- A refused request changes nothing. -/
def State.orKeep (state : State) : Except ShownError State → State
  | .ok next => next
  | .error _ => state

/-- One request.  Settings and the drawer are there for a signed-in user; the
other activities can be reached at any time. -/
def step (state : State) : Event → Option State
  | .signUp username email password repeated defaultAvatar =>
      some (state.orKeep (validateFields EMAIL_ADDRESS state username email
        password repeated defaultAvatar))
  | .signIn username password =>
      some (state.orKeep (signIn state username password))
  | .attemptReset email password confirm =>
      some (state.orKeep (attemptReset EMAIL_ADDRESS state email password
        confirm))
  | .logOut => some { state with prefs := state.prefs.clearCardensials }
  | .saveNewUsername input =>
      state.prefs.username.map fun current =>
        state.orKeep (saveNewUsername state current input)
  | .saveNewPassword old new confirm =>
      state.prefs.username.map fun current =>
        state.orKeep (saveNewPassword state current old new confirm)
  | .updateProfilePicture picture =>
      state.prefs.username.map fun current =>
        { state with
          table := (state.table.updateProfilePicture current picture).1 }
  | .deleteAccount =>
      state.prefs.username.map fun current =>
        { state with table := (state.table.deleteUser current).1 }

/-- The accounts as a labelled machine. -/
def machine : Transition.Machine State Event where
  step := step EMAIL_ADDRESS

end Activities

end Accounts
end IdoProject
