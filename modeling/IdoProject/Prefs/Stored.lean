import IdoProject.Prefs
import IdoProject.Storage.TypedKeys
import IdoProject.Transition.Machine

/-!
# The preferences as they are stored

`PrefsHelper` writes values of four kinds under nineteen keys of one
`SharedPreferences`, through an editor that each helper keeps: what a method puts
is collected there and committed by its `apply`.  The helpers run their
statements interleaved.  Whatever the order, each batch of changes takes effect
as a whole, no getter finds a value of another kind, and the getters give the
record that the other modules work with.
-/

namespace IdoProject
namespace PrefsHelper

open Java
open Storage
open Transition

/-! ## What is stored -/

/-- The bits of a `float`. -/
abbrev JFloat := UInt32

/-- The kinds of values. -/
inductive Kind where
  | boolean
  | int
  | float
  | string
  deriving DecidableEq

/-- The values of a kind. -/
abbrev Kind.Value : Kind → Type
  | .boolean => Bool
  | .int => Int
  | .float => JFloat
  | .string => JString

def KEY_IS_LOGGED_IN : JString := jstr "is_logged_in"
def KEY_USERNAME : JString := jstr "username"
def KEY_PASSWORD : JString := jstr "password"
def KEY_PROFILE_URI : JString := jstr "profile_uri"
def KEY_CURRENT_MODEL : JString := jstr "current_model_json"
def KEY_CONTEXT_SIZE : JString := jstr "context_size"
def KEY_MAX_RESPONSE_TOKENS : JString := jstr "max_response_tokens"
def KEY_TEMPERATURE : JString := jstr "temperature"
def KEY_TOP_P : JString := jstr "top_p"
def KEY_TOP_K : JString := jstr "top_k"
def KEY_REPEAT_PENALTY : JString := jstr "repeat_penalty"
def KEY_REPEAT_LAST_N : JString := jstr "repeat_last_n"
def KEY_USE_SMART_CONTEXT : JString := jstr "use_smart_context"
def KEY_MAX_CONTEXT_MESSAGES : JString := jstr "max_context_messages"
def KEY_QUALITY_MODE : JString := jstr "quality_mode"
def KEY_DARK_MODE : JString := jstr "dark_mode"
def KEY_TTS_ENABLED : JString := jstr "tts_enabled"
def KEY_USER_PERSONA : JString := jstr "user_persona_description"
def KEY_USER_SYSTEM_PROMPT : JString := jstr "user_defined_system_prompt"

/-- `SharedPreferences` in memory. -/
abbrev Stored := Values JString Kind.Value

/-! ## The methods that write -/

/-- A statement of an editor. -/
inductive Statement where
  | putBoolean (key : JString) (value : Bool)
  | putInt (key : JString) (value : Int)
  | putFloat (key : JString) (value : JFloat)
  | putString (key : JString) (value : Option JString)
  | remove (key : JString)
  | apply

/-- The methods that end with their only `apply`. -/
inductive Method where
  | saveCardensials (username password : Option JString)
  | clearCardensials
  | setCurrentModel (model : Model)
  | clearCurrentModel
  | setProfileImageUri (uriString : Option JString)
  | clearProfileImageUri
  | setContextSize (size : Int)
  | setMaxResponseTokens (tokens : Int)
  | setUserSystemPrompt (prompt : Option JString)
  | setUserPersona (persona : Option JString)
  | setTemperature (temp : JFloat)
  | setTopP (topP : JFloat)
  | setTopK (topK : Int)
  | setRepeatPenalty (penalty : JFloat)
  | setRepeatLastN (n : Int)
  | setUseSmartContext (use : Bool)
  | setMaxContextMessages (max : Int)
  | setQualityMode (mode : Option JString)
  | setNightModeEnabled (enabled : Bool)
  | setTtsEnabled (enabled : Bool)
  | applyFastMode
  | applyBalancedMode
  | applyQualityMode
  deriving DecidableEq

/-- The methods that write. -/
inductive Call where
  | method (method : Method)
  | resetToDefaults
  deriving DecidableEq

section Statements

variable (toJson : Model → JString)

/-- The statements of a method. -/
def Method.statements : Method → List Statement
  | .saveCardensials username password =>
      [.putString KEY_USERNAME username, .putString KEY_PASSWORD password,
        .putBoolean KEY_IS_LOGGED_IN true, .apply]
  | .clearCardensials =>
      [.remove KEY_USERNAME, .remove KEY_PASSWORD,
        .putBoolean KEY_IS_LOGGED_IN false, .apply]
  | .setCurrentModel model =>
      [.putString KEY_CURRENT_MODEL (some (toJson model)), .apply]
  | .clearCurrentModel => [.remove KEY_CURRENT_MODEL, .apply]
  | .setProfileImageUri uriString =>
      [.putString KEY_PROFILE_URI uriString, .apply]
  | .clearProfileImageUri => [.remove KEY_PROFILE_URI, .apply]
  | .setContextSize size => [.putInt KEY_CONTEXT_SIZE size, .apply]
  | .setMaxResponseTokens tokens =>
      [.putInt KEY_MAX_RESPONSE_TOKENS tokens, .apply]
  | .setUserSystemPrompt prompt =>
      [.putString KEY_USER_SYSTEM_PROMPT prompt, .apply]
  | .setUserPersona persona => [.putString KEY_USER_PERSONA persona, .apply]
  | .setTemperature temp => [.putFloat KEY_TEMPERATURE temp, .apply]
  | .setTopP topP => [.putFloat KEY_TOP_P topP, .apply]
  | .setTopK topK => [.putInt KEY_TOP_K topK, .apply]
  | .setRepeatPenalty penalty => [.putFloat KEY_REPEAT_PENALTY penalty, .apply]
  | .setRepeatLastN n => [.putInt KEY_REPEAT_LAST_N n, .apply]
  | .setUseSmartContext use => [.putBoolean KEY_USE_SMART_CONTEXT use, .apply]
  | .setMaxContextMessages max =>
      [.putInt KEY_MAX_CONTEXT_MESSAGES max, .apply]
  | .setQualityMode mode => [.putString KEY_QUALITY_MODE mode, .apply]
  | .setNightModeEnabled enabled => [.putBoolean KEY_DARK_MODE enabled, .apply]
  | .setTtsEnabled enabled => [.putBoolean KEY_TTS_ENABLED enabled, .apply]
  | .applyFastMode =>
      [.putFloat KEY_TEMPERATURE 0x3F000000, .putFloat KEY_TOP_P 0x3F4CCCCD,
        .putInt KEY_TOP_K 30, .putFloat KEY_REPEAT_PENALTY 0x3F8CCCCD,
        .putInt KEY_MAX_RESPONSE_TOKENS 150, .putInt KEY_MAX_CONTEXT_MESSAGES 2,
        .putString KEY_QUALITY_MODE (some (jstr "fast")), .apply]
  | .applyBalancedMode =>
      [.putFloat KEY_TEMPERATURE 0x3F333333, .putFloat KEY_TOP_P 0x3F666666,
        .putInt KEY_TOP_K 40, .putFloat KEY_REPEAT_PENALTY 0x3F933333,
        .putInt KEY_MAX_RESPONSE_TOKENS 256, .putInt KEY_MAX_CONTEXT_MESSAGES 4,
        .putString KEY_QUALITY_MODE (some (jstr "balanced")), .apply]
  | .applyQualityMode =>
      [.putFloat KEY_TEMPERATURE 0x3F4CCCCD, .putFloat KEY_TOP_P 0x3F733333,
        .putInt KEY_TOP_K 50, .putFloat KEY_REPEAT_PENALTY 0x3F99999A,
        .putInt KEY_MAX_RESPONSE_TOKENS 512, .putInt KEY_MAX_CONTEXT_MESSAGES 6,
        .putString KEY_QUALITY_MODE (some (jstr "quality")), .apply]

/-- The statements of a call. -/
def Call.statements : Call → List Statement
  | .method called => called.statements toJson
  | .resetToDefaults =>
      Method.applyBalancedMode.statements toJson ++
        [.putInt KEY_CONTEXT_SIZE 2048, .putBoolean KEY_USE_SMART_CONTEXT true,
          .remove KEY_USER_SYSTEM_PROMPT, .apply]

end Statements

/-- The change that a statement collects; `apply` collects none. -/
def Statement.change : Statement → Option (JString × Option (Sigma Kind.Value))
  | .putBoolean key value => some (key, some ⟨.boolean, value⟩)
  | .putInt key value => some (key, some ⟨.int, value⟩)
  | .putFloat key value => some (key, some ⟨.float, value⟩)
  -- a null is put as if the key were removed
  | .putString key value => some (key, value.map fun value => ⟨.string, value⟩)
  | .remove key => some (key, none)
  | .apply => none

/-- The stored values and the helpers. -/
structure Process where
  stored : Stored := fun _ => none
  /-- What the editor of each helper has collected. -/
  modified : Nat → Changes JString Kind.Value := fun _ => []
  /-- What each helper has left to run. -/
  rest : Nat → List Statement := fun _ => []

/-- What happens next. -/
inductive Action where
  /-- A method of a helper is called that runs none. -/
  | call (helper : Nat) (call : Call)
  /-- A helper runs its next statement. -/
  | statement (helper : Nat)
  deriving DecidableEq

/-- A helper runs a statement. -/
def Process.run
    (process : Process)
    (helper : Nat)
    (statement : Statement)
    (rest : List Statement) : Process :=
  let left := Function.update process.rest helper rest
  match statement.change with
  | some change =>
      { process with
        modified := Function.update process.modified helper
          (process.modified helper ++ [change])
        rest := left }
  | none =>
      { stored := process.stored.commit (process.modified helper)
        modified := Function.update process.modified helper []
        rest := left }

/-- What one action does. -/
def Process.step
    (toJson : Model → JString)
    (process : Process) : Action → Option Process
  | .call helper call =>
      if (process.rest helper).isEmpty then
        some { process with
          rest := Function.update process.rest helper (call.statements toJson) }
      else none
  | .statement helper =>
      match process.rest helper with
      | [] => none
      | statement :: rest => some (process.run helper statement rest)

/-- The helpers, their statements interleaved. -/
def machine (toJson : Model → JString) : Machine Process Action where
  step := Process.step toJson

/-! ## The getters -/

section Getters

variable (stored : Stored)

def getBoolean (key : JString) (default : Bool) : Except Kind Bool :=
  (stored.read key .boolean).map fun found => found.getD default

def getInt (key : JString) (default : Int) : Except Kind Int :=
  (stored.read key .int).map fun found => found.getD default

def getFloat (key : JString) (default : JFloat) : Except Kind JFloat :=
  (stored.read key .float).map fun found => found.getD default

def getString
    (key : JString)
    (default : Option JString) : Except Kind (Option JString) :=
  (stored.read key .string).map fun found => found.or default

def isLoggedIn : Except Kind Bool :=
  getBoolean stored KEY_IS_LOGGED_IN false

def getUsername : Except Kind (Option JString) :=
  getString stored KEY_USERNAME none

/-- The password, for which there is no getter. -/
def storedPassword : Except Kind (Option JString) :=
  getString stored KEY_PASSWORD none

/-- `getCurrentModel` parses what is stored, if anything is. -/
def getCurrentModel
    (fromJson : JString → Option Model) : Except Kind (Option Model) :=
  (getString stored KEY_CURRENT_MODEL none).map fun json => json.bind fromJson

def getProfileImageUri : Except Kind (Option JString) :=
  getString stored KEY_PROFILE_URI none

def getContextSize : Except Kind Int :=
  getInt stored KEY_CONTEXT_SIZE 2048

def getMaxResponseTokens : Except Kind Int :=
  getInt stored KEY_MAX_RESPONSE_TOKENS 256

def getUserSystemPrompt : Except Kind (Option JString) :=
  getString stored KEY_USER_SYSTEM_PROMPT (some DEFAULT_USER_PROMPT)

def getUserPersona : Except Kind (Option JString) :=
  getString stored KEY_USER_PERSONA (some [])

def getTemperature : Except Kind JFloat :=
  getFloat stored KEY_TEMPERATURE 0x3F333333

def getTopP : Except Kind JFloat :=
  getFloat stored KEY_TOP_P 0x3F666666

def getTopK : Except Kind Int :=
  getInt stored KEY_TOP_K 40

def getRepeatPenalty : Except Kind JFloat :=
  getFloat stored KEY_REPEAT_PENALTY 0x3F933333

def getRepeatLastN : Except Kind Int :=
  getInt stored KEY_REPEAT_LAST_N 64

def getUseSmartContext : Except Kind Bool :=
  getBoolean stored KEY_USE_SMART_CONTEXT true

def getMaxContextMessages : Except Kind Int :=
  getInt stored KEY_MAX_CONTEXT_MESSAGES 4

def getQualityMode : Except Kind (Option JString) :=
  getString stored KEY_QUALITY_MODE (some (jstr "balanced"))

def isNightModeEnabled : Except Kind Bool :=
  getBoolean stored KEY_DARK_MODE false

def isTtsEnabled : Except Kind Bool :=
  getBoolean stored KEY_TTS_ENABLED false

end Getters

/-! ## The settings -/

/-- What the preferences say: the record that other modules work with, and what
they leave out. -/
structure Settings extends Prefs where
  profileImageUri : Option JString := none
  temperature : JFloat := 0x3F333333
  topP : JFloat := 0x3F666666
  topK : Int := 40
  repeatPenalty : JFloat := 0x3F933333
  repeatLastN : Int := 64
  useSmartContext : Bool := true
  qualityMode : JString := jstr "balanced"
  nightModeEnabled : Bool := false
  ttsEnabled : Bool := false
  deriving DecidableEq

/-- All getters; the error is a value of another kind than a getter asks for. -/
def readSettings
    (fromJson : JString → Option Model)
    (stored : Stored) : Except Kind Settings := do
  let isLoggedIn ← isLoggedIn stored
  let username ← getUsername stored
  let password ← storedPassword stored
  let currentModel ← getCurrentModel stored fromJson
  let contextSize ← getContextSize stored
  let maxResponseTokens ← getMaxResponseTokens stored
  let userSystemPrompt ← getUserSystemPrompt stored
  let userPersona ← getUserPersona stored
  let maxContextMessages ← getMaxContextMessages stored
  let profileImageUri ← getProfileImageUri stored
  let temperature ← getTemperature stored
  let topP ← getTopP stored
  let topK ← getTopK stored
  let repeatPenalty ← getRepeatPenalty stored
  let repeatLastN ← getRepeatLastN stored
  let useSmartContext ← getUseSmartContext stored
  let qualityMode ← getQualityMode stored
  let nightModeEnabled ← isNightModeEnabled stored
  let ttsEnabled ← isTtsEnabled stored
  return {
    isLoggedIn, username, password, currentModel, contextSize, maxResponseTokens
    userSystemPrompt := userSystemPrompt.getD []
    userPersona := userPersona.getD []
    maxContextMessages, profileImageUri, temperature, topP, topK, repeatPenalty
    repeatLastN, useSmartContext
    qualityMode := qualityMode.getD []
    nightModeEnabled, ttsEnabled }

/-- What a method means for the settings. -/
def Method.effect (settings : Settings) : Method → Settings
  | .saveCardensials username password =>
      { settings with
        username := username
        password := password
        isLoggedIn := true }
  | .clearCardensials =>
      { settings with toPrefs := settings.toPrefs.clearCardensials }
  | .setCurrentModel model =>
      { settings with toPrefs := settings.toPrefs.setCurrentModel model }
  | .clearCurrentModel =>
      { settings with toPrefs := settings.toPrefs.clearCurrentModel }
  | .setProfileImageUri uriString => { settings with profileImageUri := uriString }
  | .clearProfileImageUri => { settings with profileImageUri := none }
  | .setContextSize size =>
      { settings with toPrefs := settings.toPrefs.setContextSize size }
  | .setMaxResponseTokens tokens => { settings with maxResponseTokens := tokens }
  | .setUserSystemPrompt prompt =>
      { settings with userSystemPrompt := prompt.getD DEFAULT_USER_PROMPT }
  | .setUserPersona persona => { settings with userPersona := persona.getD [] }
  | .setTemperature temp => { settings with temperature := temp }
  | .setTopP topP => { settings with topP := topP }
  | .setTopK topK => { settings with topK := topK }
  | .setRepeatPenalty penalty => { settings with repeatPenalty := penalty }
  | .setRepeatLastN n => { settings with repeatLastN := n }
  | .setUseSmartContext use => { settings with useSmartContext := use }
  | .setMaxContextMessages max => { settings with maxContextMessages := max }
  | .setQualityMode mode =>
      { settings with qualityMode := mode.getD (jstr "balanced") }
  | .setNightModeEnabled enabled => { settings with nightModeEnabled := enabled }
  | .setTtsEnabled enabled => { settings with ttsEnabled := enabled }
  | .applyFastMode =>
      { settings with
        temperature := 0x3F000000
        topP := 0x3F4CCCCD
        topK := 30
        repeatPenalty := 0x3F8CCCCD
        maxResponseTokens := 150
        maxContextMessages := 2
        qualityMode := jstr "fast" }
  | .applyBalancedMode =>
      { settings with
        temperature := 0x3F333333
        topP := 0x3F666666
        topK := 40
        repeatPenalty := 0x3F933333
        maxResponseTokens := 256
        maxContextMessages := 4
        qualityMode := jstr "balanced" }
  | .applyQualityMode =>
      { settings with
        temperature := 0x3F4CCCCD
        topP := 0x3F733333
        topK := 50
        repeatPenalty := 0x3F99999A
        maxResponseTokens := 512
        maxContextMessages := 6
        qualityMode := jstr "quality" }

/-- What is committed together. -/
inductive Batch where
  /-- The changes of a method. -/
  | method (method : Method)
  /-- The changes of `resetToDefaults` behind those of `applyBalancedMode`. -/
  | contextDefaults
  deriving DecidableEq

/-- The batches of a call. -/
def Call.batches : Call → List Batch
  | .method called => [.method called]
  | .resetToDefaults => [.method .applyBalancedMode, .contextDefaults]

/-- What a batch means for the settings. -/
def Batch.effect (settings : Settings) : Batch → Settings
  | .method called => called.effect settings
  | .contextDefaults =>
      { settings with
        contextSize := 2048
        useSmartContext := true
        userSystemPrompt := DEFAULT_USER_PROMPT }

/-- The settings after batches that were committed, each by a helper. -/
def Settings.after (settings : Settings) (log : List (Nat × Batch)) : Settings :=
  log.foldl (fun settings entry => entry.2.effect settings) settings

end PrefsHelper
end IdoProject
