import IdoProject.Java.Text
import IdoProject.Table.Rows

/-!
# The table of users

`HelperUserDB` over the rows of the table `users`.  The column `Id` is an
autoincrement key, `Email` is UNIQUE, and nothing is required of `Username`.
-/

namespace IdoProject
namespace Accounts

open Java

/-- A row of the table. -/
structure User where
  id : Nat
  username : JString
  email : JString
  pass : JString
  profilePicture : List UInt8
  deriving DecidableEq

/-- The table, with the next value of the autoincrement key. -/
structure UsersTable where
  rows : List User := []
  nextId : Nat := 1
  deriving DecidableEq

namespace UsersTable

/-- The column `Username`. -/
def usernames (table : UsersTable) : List JString :=
  table.rows.map User.username

/-- `checkEmail`. -/
def checkEmail (table : UsersTable) (email : JString) : Bool :=
  Table.contains table.rows User.email email

/-- `checkUser`. -/
def checkUser (table : UsersTable) (username password : JString) : Bool :=
  table.rows.any fun row => row.username = username ∧ row.pass = password

/-- `insertUser`, with its result. -/
def insertUser
    (table : UsersTable)
    (username email password : JString)
    (profilePicture : List UInt8) : UsersTable × Bool :=
  if table.checkEmail email then (table, false)
  else
    ({ rows := table.rows ++
        [{ id := table.nextId
           username := username
           email := email
           pass := password
           profilePicture := profilePicture }]
       nextId := table.nextId + 1 }, true)

/-- An `UPDATE` of the rows that have a value in a column, with whether any row
was affected. -/
def updateWhere
    (table : UsersTable)
    (column : User → JString)
    (value : JString)
    (change : User → User) : UsersTable × Bool :=
  ({ table with rows := Table.update table.rows column value change },
    decide (0 < Table.affected table.rows column value))

/-- `updatePassword`. -/
def updatePassword
    (table : UsersTable)
    (email newPassword : JString) : UsersTable × Bool :=
  table.updateWhere User.email email fun row => { row with pass := newPassword }

/-- `updatePasswordByUsername`. -/
def updatePasswordByUsername
    (table : UsersTable)
    (username newPassword : JString) : UsersTable × Bool :=
  table.updateWhere User.username username fun row =>
    { row with pass := newPassword }

/-- `updateUsername`. -/
def updateUsername
    (table : UsersTable)
    (oldUsername newUsername : JString) : UsersTable × Bool :=
  table.updateWhere User.username oldUsername fun row =>
    { row with username := newUsername }

/-- `updateProfilePicture`. -/
def updateProfilePicture
    (table : UsersTable)
    (username : JString)
    (profilePicture : List UInt8) : UsersTable × Bool :=
  table.updateWhere User.username username fun row =>
    { row with profilePicture := profilePicture }

/-- `deleteUser`. -/
def deleteUser
    (table : UsersTable)
    (username : JString) : UsersTable × Bool :=
  ({ table with rows := Table.delete table.rows User.username username },
    decide (0 < Table.affected table.rows User.username username))

section Laws

variable {table : UsersTable}
variable {value : JString}
variable {column : User → JString}
variable {change : User → User}

theorem insertUser_of_checkEmail
    {username email password : JString}
    {profilePicture : List UInt8}
    (taken : table.checkEmail email = true) :
    table.insertUser username email password profilePicture = (table, false) :=
  if_pos taken

theorem usernames_insertUser
    {username email password : JString}
    {profilePicture : List UInt8}
    (free : table.checkEmail email = false) :
    (table.insertUser username email password profilePicture).1.usernames =
      table.usernames ++ [username] := by
  simp [insertUser, free, usernames]

/-- An update that keeps the names of the rows. -/
theorem usernames_updateWhere
    (kept : ∀ row, (change row).username = row.username) :
    (table.updateWhere column value change).1.usernames = table.usernames :=
  Table.map_update_of_kept kept

@[simp] theorem usernames_updatePassword (email newPassword : JString) :
    (table.updatePassword email newPassword).1.usernames = table.usernames :=
  usernames_updateWhere fun _ => rfl

@[simp] theorem usernames_updatePasswordByUsername
    (username newPassword : JString) :
    (table.updatePasswordByUsername username newPassword).1.usernames =
      table.usernames :=
  usernames_updateWhere fun _ => rfl

@[simp] theorem usernames_updateProfilePicture
    (username : JString)
    (profilePicture : List UInt8) :
    (table.updateProfilePicture username profilePicture).1.usernames =
      table.usernames :=
  usernames_updateWhere fun _ => rfl

/-- An update reports a row exactly when one has the value. -/
theorem updateWhere_snd_iff :
    (table.updateWhere column value change).2 = true ↔
      value ∈ table.rows.map column := by
  rw [← Table.affected_pos_iff]
  exact decide_eq_true_iff

end Laws

end UsersTable
end Accounts
end IdoProject
