import IdoProject.Prefs.Stored

/-!
# The preferences serve the settings

The keys have different names and are written with one kind each, so that the
store is as good as a value for every key.  A batch of changes of keys is then
what it means for the settings, and an `apply` commits one batch.
-/

namespace IdoProject
namespace PrefsHelper

open Java
open Storage
open Transition

/-- The keys. -/
inductive Key where
  | isLoggedIn | username | password | profileUri | currentModel | contextSize
  | maxResponseTokens | temperature | topP | topK | repeatPenalty | repeatLastN
  | useSmartContext | maxContextMessages | qualityMode | darkMode | ttsEnabled
  | userPersona | userSystemPrompt
  deriving DecidableEq

namespace Key

/-- The name of a key. -/
def name : Key → JString
  | .isLoggedIn => KEY_IS_LOGGED_IN
  | .username => KEY_USERNAME
  | .password => KEY_PASSWORD
  | .profileUri => KEY_PROFILE_URI
  | .currentModel => KEY_CURRENT_MODEL
  | .contextSize => KEY_CONTEXT_SIZE
  | .maxResponseTokens => KEY_MAX_RESPONSE_TOKENS
  | .temperature => KEY_TEMPERATURE
  | .topP => KEY_TOP_P
  | .topK => KEY_TOP_K
  | .repeatPenalty => KEY_REPEAT_PENALTY
  | .repeatLastN => KEY_REPEAT_LAST_N
  | .useSmartContext => KEY_USE_SMART_CONTEXT
  | .maxContextMessages => KEY_MAX_CONTEXT_MESSAGES
  | .qualityMode => KEY_QUALITY_MODE
  | .darkMode => KEY_DARK_MODE
  | .ttsEnabled => KEY_TTS_ENABLED
  | .userPersona => KEY_USER_PERSONA
  | .userSystemPrompt => KEY_USER_SYSTEM_PROMPT

/-- The kind of the values under a key. -/
def kind : Key → Kind
  | .isLoggedIn | .useSmartContext | .darkMode | .ttsEnabled => .boolean
  | .contextSize | .maxResponseTokens | .topK | .repeatLastN
  | .maxContextMessages => .int
  | .temperature | .topP | .repeatPenalty => .float
  | .username | .password | .profileUri | .currentModel | .qualityMode
  | .userPersona | .userSystemPrompt => .string

/-- The key of a name. -/
def ofName (text : JString) : Option Key :=
  [isLoggedIn, username, password, profileUri, currentModel, contextSize,
    maxResponseTokens, temperature, topP, topK, repeatPenalty, repeatLastN,
    useSmartContext, maxContextMessages, qualityMode, darkMode, ttsEnabled,
    userPersona, userSystemPrompt].find? fun key => key.name = text

theorem ofName_name (key : Key) : ofName key.name = some key := by
  cases key <;> decide +kernel

theorem name_injective : Function.Injective name := by
  intro one other same
  have found := ofName_name one
  rw [same, ofName_name] at found
  exact (Option.some.inj found).symm

end Key

/-- The names and kinds of the keys. -/
def schema : Schema Key JString Kind where
  name := Key.name
  kind := Key.kind
  injective := Key.name_injective

/-- A value for every key that has one. -/
abbrev Typed := Contents schema Kind.Value

/-- The settings that the values of the keys give. -/
def Settings.ofTyped
    (fromJson : JString → Option Model)
    (typed : Typed) : Settings where
  isLoggedIn := (typed .isLoggedIn : Option Bool).getD false
  username := (typed .username : Option JString)
  password := (typed .password : Option JString)
  currentModel := (typed .currentModel : Option JString).bind fromJson
  contextSize := (typed .contextSize : Option Int).getD (2048 : Int)
  maxResponseTokens := (typed .maxResponseTokens : Option Int).getD (256 : Int)
  userSystemPrompt :=
    (typed .userSystemPrompt : Option JString).getD DEFAULT_USER_PROMPT
  userPersona := (typed .userPersona : Option JString).getD []
  maxContextMessages := (typed .maxContextMessages : Option Int).getD (4 : Int)
  profileImageUri := (typed .profileUri : Option JString)
  temperature := (typed .temperature : Option JFloat).getD (0x3F333333 : JFloat)
  topP := (typed .topP : Option JFloat).getD (0x3F666666 : JFloat)
  topK := (typed .topK : Option Int).getD (40 : Int)
  repeatPenalty := (typed .repeatPenalty : Option JFloat).getD (0x3F933333 : JFloat)
  repeatLastN := (typed .repeatLastN : Option Int).getD (64 : Int)
  useSmartContext := (typed .useSmartContext : Option Bool).getD true
  qualityMode := (typed .qualityMode : Option JString).getD (jstr "balanced")
  nightModeEnabled := (typed .darkMode : Option Bool).getD false
  ttsEnabled := (typed .ttsEnabled : Option Bool).getD false

/-- The changes of the keys in a batch. -/
def Batch.changes (toJson : Model → JString) : Batch → TypedChanges schema Kind.Value
  | .method (.saveCardensials username password) =>
      [⟨.username, username⟩, ⟨.password, password⟩, ⟨.isLoggedIn, some true⟩]
  | .method .clearCardensials =>
      [⟨.username, none⟩, ⟨.password, none⟩, ⟨.isLoggedIn, some false⟩]
  | .method (.setCurrentModel model) => [⟨.currentModel, some (toJson model)⟩]
  | .method .clearCurrentModel => [⟨.currentModel, none⟩]
  | .method (.setProfileImageUri uriString) => [⟨.profileUri, uriString⟩]
  | .method .clearProfileImageUri => [⟨.profileUri, none⟩]
  | .method (.setContextSize size) => [⟨.contextSize, some size⟩]
  | .method (.setMaxResponseTokens tokens) => [⟨.maxResponseTokens, some tokens⟩]
  | .method (.setUserSystemPrompt prompt) => [⟨.userSystemPrompt, prompt⟩]
  | .method (.setUserPersona persona) => [⟨.userPersona, persona⟩]
  | .method (.setTemperature temp) => [⟨.temperature, some temp⟩]
  | .method (.setTopP topP) => [⟨.topP, some topP⟩]
  | .method (.setTopK topK) => [⟨.topK, some topK⟩]
  | .method (.setRepeatPenalty penalty) => [⟨.repeatPenalty, some penalty⟩]
  | .method (.setRepeatLastN n) => [⟨.repeatLastN, some n⟩]
  | .method (.setUseSmartContext use) => [⟨.useSmartContext, some use⟩]
  | .method (.setMaxContextMessages max) => [⟨.maxContextMessages, some max⟩]
  | .method (.setQualityMode mode) => [⟨.qualityMode, mode⟩]
  | .method (.setNightModeEnabled enabled) => [⟨.darkMode, some enabled⟩]
  | .method (.setTtsEnabled enabled) => [⟨.ttsEnabled, some enabled⟩]
  | .method .applyFastMode =>
      [⟨.temperature, some (0x3F000000 : JFloat)⟩, ⟨.topP, some (0x3F4CCCCD : JFloat)⟩,
        ⟨.topK, some (30 : Int)⟩, ⟨.repeatPenalty, some (0x3F8CCCCD : JFloat)⟩,
        ⟨.maxResponseTokens, some (150 : Int)⟩,
        ⟨.maxContextMessages, some (2 : Int)⟩, ⟨.qualityMode, some (jstr "fast")⟩]
  | .method .applyBalancedMode =>
      [⟨.temperature, some (0x3F333333 : JFloat)⟩, ⟨.topP, some (0x3F666666 : JFloat)⟩,
        ⟨.topK, some (40 : Int)⟩, ⟨.repeatPenalty, some (0x3F933333 : JFloat)⟩,
        ⟨.maxResponseTokens, some (256 : Int)⟩,
        ⟨.maxContextMessages, some (4 : Int)⟩,
        ⟨.qualityMode, some (jstr "balanced")⟩]
  | .method .applyQualityMode =>
      [⟨.temperature, some (0x3F4CCCCD : JFloat)⟩, ⟨.topP, some (0x3F733333 : JFloat)⟩,
        ⟨.topK, some (50 : Int)⟩, ⟨.repeatPenalty, some (0x3F99999A : JFloat)⟩,
        ⟨.maxResponseTokens, some (512 : Int)⟩,
        ⟨.maxContextMessages, some (6 : Int)⟩,
        ⟨.qualityMode, some (jstr "quality")⟩]
  | .contextDefaults =>
      [⟨.contextSize, some (2048 : Int)⟩, ⟨.useSmartContext, some true⟩,
        ⟨.userSystemPrompt, none⟩]

/-- Gson reads back a model that the batch stores. -/
def Batch.Parses
    (toJson : Model → JString)
    (fromJson : JString → Option Model) : Batch → Prop
  | .method (.setCurrentModel model) => fromJson (toJson model) = some model
  | _ => True

/-- The models that a call stores are read back. -/
def Call.Parses
    (toJson : Model → JString)
    (fromJson : JString → Option Model)
    (call : Call) : Prop :=
  ∀ batch ∈ call.batches, batch.Parses toJson fromJson

section Batches

variable {toJson : Model → JString}
variable {fromJson : JString → Option Model}

/-- Only `setCurrentModel` stores a model. -/
theorem Call.parses_of_setCurrentModel
    {call : Call}
    (parses : ∀ model, call = .method (.setCurrentModel model) →
      fromJson (toJson model) = some model) :
    call.Parses toJson fromJson := by
  cases call with
  | resetToDefaults =>
      intro batch present
      simp only [batches, List.mem_cons, List.not_mem_nil, or_false] at present
      rcases present with rfl | rfl <;> trivial
  | method called =>
      intro batch present
      rw [List.mem_singleton.mp present]
      cases called with
      | setCurrentModel model => exact parses model rfl
      | _ => trivial

/-- The changes of a batch are what it means for the settings. -/
theorem ofTyped_commit
    {typed : Typed}
    {batch : Batch}
    (parses : batch.Parses toJson fromJson) :
    Settings.ofTyped fromJson (typed.commit (batch.changes toJson)) =
      batch.effect (.ofTyped fromJson typed) := by
  cases batch with
  | contextDefaults => rfl
  | method called =>
      cases called with
      | setCurrentModel model =>
          have stored :
              Settings.ofTyped fromJson (typed.commit
                  (Batch.changes toJson (.method (.setCurrentModel model)))) =
                { Settings.ofTyped fromJson typed with
                  currentModel := fromJson (toJson model) } := rfl
          have read : fromJson (toJson model) = some model := parses
          rw [stored, read]
          rfl
      | _ => rfl

/-- What the statements of a batch collect, with the `apply` behind them. -/
def Batch.script
    (toJson : Model → JString)
    (batch : Batch) : List (Option (JString × Option (Sigma Kind.Value))) :=
  (batch.changes toJson).map (fun typed => some (schema.change typed)) ++ [none]

/-- The statements of a call are those of its batches. -/
theorem change_statements
    (toJson : Model → JString)
    (call : Call) :
    (call.statements toJson).map Statement.change =
      call.batches.flatMap (Batch.script toJson) := by
  cases call with
  | resetToDefaults => rfl
  | method called => cases called <;> rfl

section Getters

variable {stored : Stored}
variable {key : JString}

theorem getBoolean_eq
    {found : Option Bool}
    {default : Bool}
    (read : stored.read key .boolean = .ok found) :
    getBoolean stored key default = .ok (found.getD default) := by
  rw [getBoolean, read]
  rfl

theorem getInt_eq
    {found : Option Int}
    {default : Int}
    (read : stored.read key .int = .ok found) :
    getInt stored key default = .ok (found.getD default) := by
  rw [getInt, read]
  rfl

theorem getFloat_eq
    {found : Option JFloat}
    {default : JFloat}
    (read : stored.read key .float = .ok found) :
    getFloat stored key default = .ok (found.getD default) := by
  rw [getFloat, read]
  rfl

theorem getString_none_eq
    {found : Option JString}
    (read : stored.read key .string = .ok found) :
    getString stored key none = .ok found := by
  rw [getString, read]
  exact congrArg Except.ok Option.or_none

theorem getString_some_eq
    {found : Option JString}
    {default : JString}
    (read : stored.read key .string = .ok found) :
    getString stored key (some default) = .ok (some (found.getD default)) := by
  rw [getString, read]
  cases found <;> rfl

/-- Where the store holds the values of the keys, no getter fails, and they give
the settings. -/
theorem readSettings_of_represents
    {typed : Typed}
    (represents : schema.Represents stored typed) :
    readSettings fromJson stored = .ok (.ofTyped fromJson typed) := by
  have read := represents.read
  have isLoggedIn : isLoggedIn stored = .ok _ :=
    getBoolean_eq (read .isLoggedIn)
  have username : getUsername stored = .ok _ :=
    getString_none_eq (read .username)
  have password : storedPassword stored = .ok _ :=
    getString_none_eq (read .password)
  have json : getString stored KEY_CURRENT_MODEL none = .ok _ :=
    getString_none_eq (read .currentModel)
  have contextSize : getContextSize stored = .ok _ :=
    getInt_eq (read .contextSize)
  have maxResponseTokens : getMaxResponseTokens stored = .ok _ :=
    getInt_eq (read .maxResponseTokens)
  have userSystemPrompt : getUserSystemPrompt stored = .ok _ :=
    getString_some_eq (read .userSystemPrompt)
  have userPersona : getUserPersona stored = .ok _ :=
    getString_some_eq (read .userPersona)
  have maxContextMessages : getMaxContextMessages stored = .ok _ :=
    getInt_eq (read .maxContextMessages)
  have profileUri : getProfileImageUri stored = .ok _ :=
    getString_none_eq (read .profileUri)
  have temperature : getTemperature stored = .ok _ :=
    getFloat_eq (read .temperature)
  have topP : getTopP stored = .ok _ := getFloat_eq (read .topP)
  have topK : getTopK stored = .ok _ := getInt_eq (read .topK)
  have repeatPenalty : getRepeatPenalty stored = .ok _ :=
    getFloat_eq (read .repeatPenalty)
  have repeatLastN : getRepeatLastN stored = .ok _ :=
    getInt_eq (read .repeatLastN)
  have useSmartContext : getUseSmartContext stored = .ok _ :=
    getBoolean_eq (read .useSmartContext)
  have qualityMode : getQualityMode stored = .ok _ :=
    getString_some_eq (read .qualityMode)
  have darkMode : isNightModeEnabled stored = .ok _ :=
    getBoolean_eq (read .darkMode)
  have ttsEnabled : isTtsEnabled stored = .ok _ :=
    getBoolean_eq (read .ttsEnabled)
  rw [readSettings, isLoggedIn, username, password, getCurrentModel, json,
    contextSize, maxResponseTokens, userSystemPrompt, userPersona,
    maxContextMessages, profileUri, temperature, topP, topK, repeatPenalty,
    repeatLastN, useSmartContext, qualityMode, darkMode, ttsEnabled]
  rfl

end Getters

end Batches

/-! ## Helpers that run interleaved -/

/-- The batches that a call of the helper hands over. -/
def Action.issued (helper : Nat) : Action → List Batch
  | .call other called => if other = helper then called.batches else []
  | .statement _ => []

/-- The batches of the calls of a helper, in their order. -/
def issuedBy (helper : Nat) (actions : List Action) : List Batch :=
  actions.flatMap (Action.issued helper)

/-- The batches that a helper has committed, in their order. -/
def committedBy (helper : Nat) (log : List (Nat × Batch)) : List Batch :=
  (log.filter fun entry => entry.1 = helper).map Prod.snd

/-- The batches that a helper has not committed; its editor has collected some
of the first one's changes. -/
def Pending
    (toJson : Model → JString)
    (modified : Changes JString Kind.Value)
    (rest : List Statement) : List Batch → Prop
  | [] => modified = [] ∧ rest = []
  | batch :: later =>
      ∃ collected left,
        batch.changes toJson = collected ++ left ∧
          modified = collected.map schema.change ∧
            rest.map Statement.change =
              left.map (fun typed => some (schema.change typed)) ++
                none :: later.flatMap (Batch.script toJson)

section Pending

variable {toJson : Model → JString}
variable {modified : Changes JString Kind.Value}
variable {statement : Statement}
variable {rest : List Statement}
variable {batches : List Batch}

/-- Nothing is collected of batches that are yet to be run. -/
theorem pending_of_script
    (script : rest.map Statement.change =
      batches.flatMap (Batch.script toJson)) :
    Pending toJson [] rest batches := by
  cases batches with
  | nil => exact ⟨rfl, List.map_eq_nil_iff.mp script⟩
  | cons batch later =>
      refine ⟨[], batch.changes toJson, rfl, rfl, ?_⟩
      rw [script, List.flatMap_cons, Batch.script, List.append_assoc]
      rfl

/-- A helper with nothing left to run has committed all. -/
theorem Pending.eq_nil
    (pending : Pending toJson modified [] batches) :
    batches = [] := by
  cases batches with
  | nil => rfl
  | cons batch later =>
      obtain ⟨collected, left, _, _, script⟩ := pending
      have none_mem : none ∈ ([] : List Statement).map Statement.change := by
        rw [script]
        exact List.mem_append_right _ List.mem_cons_self
      exact absurd none_mem List.not_mem_nil

/-- A statement that puts or removes is collected. -/
theorem Pending.collect
    {change : JString × Option (Sigma Kind.Value)}
    (pending : Pending toJson modified (statement :: rest) batches)
    (puts : statement.change = some change) :
    Pending toJson (modified ++ [change]) rest batches := by
  cases batches with
  | nil => exact absurd pending.2 (List.cons_ne_nil _ _)
  | cons batch later =>
      obtain ⟨collected, left, changes, collects, script⟩ := pending
      rw [List.map_cons, puts] at script
      cases left with
      | nil => cases script
      | cons typed left =>
          rw [List.map_cons, List.cons_append, List.cons.injEq] at script
          refine ⟨collected ++ [typed], left, ?_, ?_, script.2⟩
          · rw [changes, List.append_assoc]
            rfl
          · rw [collects, Option.some.inj script.1, List.map_append]
            rfl

/-- An `apply` comes when the batch is collected as a whole. -/
theorem Pending.apply
    (pending : Pending toJson modified (statement :: rest) batches)
    (applies : statement.change = none) :
    ∃ batch later, batches = batch :: later ∧
      modified = (batch.changes toJson).map schema.change ∧
        Pending toJson [] rest later := by
  cases batches with
  | nil => exact absurd pending.2 (List.cons_ne_nil _ _)
  | cons batch later =>
      obtain ⟨collected, left, changes, collects, script⟩ := pending
      rw [List.map_cons, applies] at script
      cases left with
      | cons typed left => cases script
      | nil =>
          rw [List.append_nil] at changes
          rw [List.map_nil, List.nil_append, List.cons.injEq] at script
          refine ⟨batch, later, rfl, ?_, pending_of_script script.2⟩
          rw [changes, collects]

end Pending

/-- The stored values are what the committed batches mean, and every helper has
its own batches left. -/
structure Serves
    (toJson : Model → JString)
    (fromJson : JString → Option Model)
    (process : Process)
    (log : List (Nat × Batch))
    (left : Nat → List Batch) : Prop where
  settings : ∃ typed, schema.Represents process.stored typed ∧
    Settings.ofTyped fromJson typed = Settings.after {} log
  pending : ∀ helper,
    Pending toJson (process.modified helper) (process.rest helper) (left helper)
  parses : ∀ helper, ∀ batch ∈ left helper, batch.Parses toJson fromJson

section Runs

variable {toJson : Model → JString}
variable {fromJson : JString → Option Model}
variable {process next : Process}
variable {log : List (Nat × Batch)}
variable {left : Nat → List Batch}

theorem serves_initial :
    Serves toJson fromJson {} [] fun _ => [] where
  settings := ⟨fun _ => none, Schema.represents_empty, rfl⟩
  pending := fun _ => ⟨rfl, rfl⟩
  parses := fun _ _ absent => absurd absent List.not_mem_nil

/-- What one helper does leaves what is pending at the others. -/
theorem pending_update
    {modified : Nat → Changes JString Kind.Value}
    {rest : Nat → List Statement}
    (helper : Nat)
    {collected : Changes JString Kind.Value}
    {statements : List Statement}
    {batches : List Batch}
    (pending : ∀ other,
      Pending toJson (modified other) (rest other) (left other))
    (changed : Pending toJson collected statements batches)
    (other : Nat) :
    Pending toJson (Function.update modified helper collected other)
      (Function.update rest helper statements other)
      (Function.update left helper batches other) := by
  by_cases same : other = helper
  · subst same
    rw [Function.update_self, Function.update_self, Function.update_self]
    exact changed
  · rw [Function.update_of_ne same, Function.update_of_ne same,
      Function.update_of_ne same]
    exact pending other

/-- The batches of one helper parse if they are its own or handed over. -/
theorem parses_update
    {helper : Nat}
    {batches : List Batch}
    (parses : ∀ other, ∀ batch ∈ left other, batch.Parses toJson fromJson)
    (changed : ∀ batch ∈ batches, batch.Parses toJson fromJson)
    (other : Nat) :
    ∀ batch ∈ Function.update left helper batches other,
      batch.Parses toJson fromJson := by
  by_cases same : other = helper
  · subst same
    rw [Function.update_self]
    exact changed
  · rw [Function.update_of_ne same]
    exact parses other

/-- A call of a helper that has nothing left to run leaves it the batches of the
call. -/
theorem Serves.call
    {helper : Nat}
    {call : Call}
    (serves : Serves toJson fromJson process log left)
    (parses : call.Parses toJson fromJson)
    (idle : process.rest helper = []) :
    left helper = [] ∧
      Serves toJson fromJson
        { process with
          rest := Function.update process.rest helper (call.statements toJson) }
        log (Function.update left helper call.batches) := by
  have pending := serves.pending helper
  rw [idle] at pending
  have empty := pending.eq_nil
  rw [empty] at pending
  have collected : process.modified helper = [] := pending.1
  refine ⟨empty, serves.settings, ?_, parses_update serves.parses parses⟩
  have script := pending_of_script (change_statements toJson call)
  have changed := pending_update helper serves.pending script
  rw [← collected, Function.update_eq_self] at changed
  exact changed

/-- A statement that puts or removes leaves what is stored. -/
theorem Serves.collect
    {helper : Nat}
    {statement : Statement}
    {rest : List Statement}
    {change : JString × Option (Sigma Kind.Value)}
    (serves : Serves toJson fromJson process log left)
    (found : process.rest helper = statement :: rest)
    (puts : statement.change = some change) :
    Serves toJson fromJson (process.run helper statement rest) log left := by
  have pending := serves.pending helper
  rw [found] at pending
  have changed := pending_update helper serves.pending (pending.collect puts)
  rw [Function.update_eq_self] at changed
  rw [Process.run, puts]
  exact ⟨serves.settings, changed, serves.parses⟩

/-- An `apply` commits the helper's next batch as a whole. -/
theorem Serves.apply
    {helper : Nat}
    {statement : Statement}
    {rest : List Statement}
    (serves : Serves toJson fromJson process log left)
    (found : process.rest helper = statement :: rest)
    (applies : statement.change = none) :
    ∃ batch later, left helper = batch :: later ∧
      Serves toJson fromJson (process.run helper statement rest)
        (log ++ [(helper, batch)]) (Function.update left helper later) := by
  have pending := serves.pending helper
  rw [found] at pending
  obtain ⟨batch, later, first, collected, todo⟩ := pending.apply applies
  obtain ⟨typed, represents, means⟩ := serves.settings
  have all := serves.parses helper
  rw [first] at all
  have committed := represents.commit (batch.changes toJson)
  rw [← collected] at committed
  have after : Settings.ofTyped fromJson (typed.commit (batch.changes toJson)) =
      Settings.after {} (log ++ [(helper, batch)]) := by
    rw [ofTyped_commit (all batch List.mem_cons_self), means, Settings.after,
      Settings.after, List.foldl_append]
    rfl
  refine ⟨batch, later, first, ?_⟩
  rw [Process.run, applies]
  exact ⟨⟨_, committed, after⟩, pending_update helper serves.pending todo,
    parses_update serves.parses fun other present =>
      all other (List.mem_cons_of_mem _ present)⟩

theorem committedBy_append
    (helper : Nat)
    (log later : List (Nat × Batch)) :
    committedBy helper (log ++ later) =
      committedBy helper log ++ committedBy helper later := by
  rw [committedBy, List.filter_append, List.map_append]
  rfl

theorem committedBy_self
    (helper : Nat)
    (batch : Batch) :
    committedBy helper [(helper, batch)] = [batch] := by
  simp [committedBy]

theorem committedBy_of_ne
    {helper other : Nat}
    {batch : Batch}
    (distinct : helper ≠ other) :
    committedBy other [(helper, batch)] = [] := by
  simp [committedBy, distinct]

/-- One step commits at most one batch, the next one of its helper. -/
theorem Serves.step
    {action : Action}
    (serves : Serves toJson fromJson process log left)
    (parses : ∀ helper call, action = .call helper call →
      call.Parses toJson fromJson)
    (fired : (machine toJson).step process action = some next) :
    ∃ logged left',
      Serves toJson fromJson next (log ++ logged) left' ∧
        ∀ helper, left helper ++ action.issued helper =
          committedBy helper logged ++ left' helper := by
  cases action with
  | call helper call =>
      simp only [machine, Process.step, Option.ite_none_right_eq_some,
        List.isEmpty_iff, Option.some.injEq] at fired
      obtain ⟨idle, rfl⟩ := fired
      obtain ⟨empty, after⟩ := serves.call (parses helper call rfl) idle
      refine ⟨[], Function.update left helper call.batches, ?_, fun other => ?_⟩
      · rw [List.append_nil]
        exact after
      · by_cases same : helper = other
        · subst same
          rw [empty, Function.update_self, Action.issued, if_pos rfl]
          rfl
        · rw [Function.update_of_ne (Ne.symm same), Action.issued, if_neg same,
            List.append_nil]
          rfl
  | statement helper =>
      simp only [machine, Process.step] at fired
      cases found : process.rest helper with
      | nil =>
          rw [found] at fired
          cases fired
      | cons statement rest =>
          rw [found] at fired
          cases fired
          cases change : statement.change with
          | some change =>
              refine ⟨[], left, ?_, fun other => List.append_nil _⟩
              rw [List.append_nil]
              exact serves.collect found ‹_›
          | none =>
              obtain ⟨batch, later, first, after⟩ := serves.apply found change
              refine ⟨_, _, after, fun other => ?_⟩
              rw [Action.issued, List.append_nil]
              by_cases same : helper = other
              · subst same
                rw [first, Function.update_self, committedBy_self]
                rfl
              · rw [Function.update_of_ne (Ne.symm same), committedBy_of_ne same]
                rfl

/-- In a run the helpers commit what they had left and what they are handed, each
in its own order. -/
theorem Serves.run
    {actions : List Action}
    (serves : Serves toJson fromJson process log left)
    (parses : ∀ helper call, Action.call helper call ∈ actions →
      call.Parses toJson fromJson)
    (ran : (machine toJson).run process actions = some next) :
    ∃ logged left',
      Serves toJson fromJson next (log ++ logged) left' ∧
        ∀ helper, left helper ++ issuedBy helper actions =
          committedBy helper logged ++ left' helper := by
  induction actions generalizing process log left with
  | nil =>
      cases ran
      refine ⟨[], left, ?_, fun helper => List.append_nil _⟩
      rw [List.append_nil]
      exact serves
  | cons action actions inductionHypothesis =>
      obtain ⟨middle, fired, later⟩ := Machine.exists_step_of_run_cons ran
      obtain ⟨first, leftFirst, servesFirst, accountFirst⟩ :=
        serves.step (fun helper call same =>
          parses helper call (same ▸ List.mem_cons_self)) fired
      obtain ⟨second, leftSecond, servesSecond, accountSecond⟩ :=
        inductionHypothesis servesFirst (fun helper call present =>
          parses helper call (List.mem_cons_of_mem _ present)) later
      refine ⟨first ++ second, leftSecond, ?_, fun helper => ?_⟩
      · rw [← List.append_assoc]
        exact servesSecond
      · calc
          left helper ++ issuedBy helper (action :: actions)
              = (left helper ++ action.issued helper) ++
                  issuedBy helper actions := by
                rw [List.append_assoc]
                rfl
            _ = committedBy helper first ++
                  (leftFirst helper ++ issuedBy helper actions) := by
                rw [accountFirst helper, List.append_assoc]
            _ = committedBy helper (first ++ second) ++ leftSecond helper := by
                rw [accountSecond helper, committedBy_append, List.append_assoc]

/-- The getters give the settings after the committed batches. -/
theorem Serves.readSettings
    (serves : Serves toJson fromJson process log left) :
    readSettings fromJson process.stored = .ok (Settings.after {} log) := by
  obtain ⟨typed, represents, means⟩ := serves.settings
  rw [readSettings_of_represents represents, means]

theorem Serves.left_eq_nil
    {helper : Nat}
    (serves : Serves toJson fromJson process log left)
    (idle : process.rest helper = []) :
    left helper = [] := by
  have pending := serves.pending helper
  rw [idle] at pending
  exact pending.eq_nil

/-- A helper has committed the first batches of its calls, and all of them when it
has nothing left to run. -/
def Accounted
    (helper : Nat)
    (process : Process)
    (log : List (Nat × Batch))
    (actions : List Action) : Prop :=
  committedBy helper log <+: issuedBy helper actions ∧
    (process.rest helper = [] →
      committedBy helper log = issuedBy helper actions)

theorem Serves.accounted
    {helper : Nat}
    {actions : List Action}
    (serves : Serves toJson fromJson process log left)
    (account : issuedBy helper actions = committedBy helper log ++ left helper) :
    Accounted helper process log actions := by
  refine ⟨⟨left helper, account.symm⟩, fun idle => ?_⟩
  rw [account, serves.left_eq_nil idle, List.append_nil]

/-- However the helpers interleave, at any two moments of a run no getter fails
and the getters give the settings after a log of whole batches.  The later log
continues the earlier one, and either has the batches of each helper in the order
of its calls, all of them once the helper has nothing left to run. -/
theorem settings_of_run
    {before after : List Action}
    {middle process : Process}
    (parses : ∀ helper model,
      .call helper (.method (.setCurrentModel model)) ∈ before ++ after →
        fromJson (toJson model) = some model)
    (ran : (machine toJson).run {} before = some middle)
    (goes : (machine toJson).run middle after = some process) :
    ∃ log later : List (Nat × Batch),
      PrefsHelper.readSettings fromJson middle.stored =
          .ok (Settings.after {} log) ∧
        PrefsHelper.readSettings fromJson process.stored =
            .ok (Settings.after {} (log ++ later)) ∧
          ∀ helper, Accounted helper middle log before ∧
            Accounted helper process (log ++ later) (before ++ after) := by
  have all : ∀ helper call, Action.call helper call ∈ before ++ after →
      call.Parses toJson fromJson := fun helper call present =>
    Call.parses_of_setCurrentModel fun model same =>
      parses helper model (same ▸ present)
  obtain ⟨log, leftMiddle, servesMiddle, accountMiddle⟩ :=
    serves_initial.run (fun helper call present =>
      all helper call (List.mem_append_left _ present)) ran
  obtain ⟨later, left, serves, account⟩ :=
    servesMiddle.run (fun helper call present =>
      all helper call (List.mem_append_right _ present)) goes
  rw [List.nil_append] at servesMiddle serves
  refine ⟨log, later, servesMiddle.readSettings, serves.readSettings,
    fun helper => ⟨servesMiddle.accounted ?_, serves.accounted ?_⟩⟩
  · exact accountMiddle helper
  · calc
      issuedBy helper (before ++ after)
          = issuedBy helper before ++ issuedBy helper after := by
            rw [issuedBy, List.flatMap_append]
            rfl
        _ = committedBy helper log ++
              (leftMiddle helper ++ issuedBy helper after) := by
            rw [← List.append_assoc, ← accountMiddle helper]
            rfl
        _ = committedBy helper (log ++ later) ++ left helper := by
            rw [account helper, committedBy_append, List.append_assoc]

end Runs

/-- A model without a size or a description. -/
def bare : Model where
  path := jstr "path"
  name := jstr "name"
  size := []
  description := []
  filename := jstr "file"

/-- What Gson writes of texts without a character to escape. -/
def plainJson (model : Model) : JString :=
  jstr "\x7b\"path\":\"" ++ model.path ++ jstr "\",\"name\":\"" ++ model.name ++
    jstr "\",\"size\":\"" ++ model.size ++ jstr "\",\"description\":\"" ++
      model.description ++ jstr "\",\"filename\":\"" ++ model.filename ++ jstr "\"\x7d"

/-- A model is stored between the two commits of a reset. -/
theorem settings_of_interrupted_reset :
    let fromJson := fun json =>
      if json = plainJson bare then some bare else none
    let before := .call 0 .resetToDefaults :: List.replicate 9 (.statement 0) ++
      [.call 1 (.method (.setCurrentModel bare)), .statement 1, .statement 1]
    let after := List.replicate 3 (.statement 0)
    ∃ middle process,
      (machine plainJson).run {} before = some middle ∧
        (machine plainJson).run middle after = some process ∧
          ∃ log later : List (Nat × Batch),
            readSettings fromJson middle.stored =
                .ok (Settings.after {} log) ∧
              readSettings fromJson process.stored =
                  .ok (Settings.after {} (log ++ later)) ∧
                ∀ helper, Accounted helper middle log before ∧
                  Accounted helper process (log ++ later) (before ++ after) :=
  ⟨_, _, rfl, rfl, settings_of_run (by
    intro helper model present
    simp only [List.replicate, List.cons_append, List.nil_append, List.mem_cons,
      Action.call.injEq, Call.method.injEq, Method.setCurrentModel.injEq,
      reduceCtorEq, and_false, false_or, or_false, List.not_mem_nil] at present
    rw [present.2, if_pos rfl]) rfl rfl⟩

end PrefsHelper
end IdoProject
