import IdoProject.Java.Text

/-!
# Shared preferences

The values `PrefsHelper` keeps in `user_prefs`, with the default each getter
gives a missing key.  The sampling parameters and the appearance settings are
left out: no modelled function reads them.
-/

namespace IdoProject

open Java

/-- An entry of the model catalogue. -/
structure Model where
  path : JString
  name : JString
  size : JString
  description : JString
  filename : JString
  deriving DecidableEq

/-- Rules that open every system prompt. -/
def BASE_CONSTRAINTS : JString :=
  jstr "SYSTEM FORMATTING RULES:\n" ++
    jstr "1. ADOPT THE PERSONA defined by the user in the 'ASSISTANT PERSONA' section below. If told to be a specific character, animal, or object, you must STAY IN CHARACTER.\n" ++
    jstr "2. DO NOT generate the User's response. You must STOP writing immediately after you have finished your turn.\n" ++
    jstr "3. DO NOT generate lines starting with 'User:', 'Human:', or '###'.\n" ++
    jstr "4. The user's specific instructions below override any default behavior."

def DEFAULT_USER_PROMPT : JString :=
  jstr "You are a helpful and intelligent assistant."

/-- The stored preferences.  A key that was never written has its default. -/
structure Prefs where
  isLoggedIn : Bool := false
  username : Option JString := none
  password : Option JString := none
  currentModel : Option Model := none
  contextSize : Int := 2048
  maxResponseTokens : Int := 256
  userSystemPrompt : JString := DEFAULT_USER_PROMPT
  userPersona : JString := []
  maxContextMessages : Int := 4
  deriving DecidableEq

namespace Prefs

/-- Java's rendering of a possibly null string in a concatenation. -/
def orNull (text : Option JString) : JString :=
  text.getD (jstr "null")

/-- Store the credentials of the user who signed in. -/
def saveCardensials (prefs : Prefs) (username password : JString) : Prefs :=
  { prefs with
    username := some username
    password := some password
    isLoggedIn := true }

/-- Forget the credentials. -/
def clearCardensials (prefs : Prefs) : Prefs :=
  { prefs with
    username := none
    password := none
    isLoggedIn := false }

/-- Remember the model in use. -/
def setCurrentModel (prefs : Prefs) (model : Model) : Prefs :=
  { prefs with currentModel := some model }

/-- File name of the model in use. -/
def getCurrentModelFilename (prefs : Prefs) : Option JString :=
  prefs.currentModel.map Model.filename

/-- Forget the model in use. -/
def clearCurrentModel (prefs : Prefs) : Prefs :=
  { prefs with currentModel := none }

def setContextSize (prefs : Prefs) (size : Int) : Prefs :=
  { prefs with contextSize := size }

/-- System prompt sent with every question. -/
def getEffectiveSystemPrompt (prefs : Prefs) : JString :=
  BASE_CONSTRAINTS ++ jstr "\n\n" ++
    jstr "### ASSISTANT PERSONA\n" ++ prefs.userSystemPrompt ++ jstr "\n\n" ++
    jstr "### USER INFO\n" ++
    jstr "User's Name: " ++ orNull prefs.username ++ jstr "\n" ++
    if prefs.userPersona.isEmpty then []
    else jstr "User Context: " ++ prefs.userPersona ++ jstr "\n"

end Prefs
end IdoProject
