import IdoProject.Chat.Ending
import IdoProject.Llama.Completion

/-!
# The length of an answer

The setting bounds the tokens that the view model counts; the native loop bounds
the positions of the prompt and the answer together.  An answer without a stop
string therefore holds the tokens that are within both bounds.
-/

namespace IdoProject
namespace Chat

open Java Store

/-- No beginning of the text that is within the limit contains a stop string. -/
def Plain
    (toLowerCase : JString → JString)
    (maxTokens : Int)
    (tokens : List JString) : Prop :=
  ∀ count : Nat, count ≤ maxTokens →
    findStop toLowerCase (tokens.take count).flatten = none

/-- A stop string that occurs in a text occurs in every longer one. -/
def StopsPersist (toLowerCase : JString → JString) : Prop :=
  ∀ text later, findStop toLowerCase (text ++ later) = none →
    findStop toLowerCase text = none

/-- Where a pattern does not occur in a text, it does not occur in a beginning
of it. -/
theorem indexOf_eq_none_of_append
    {text later pattern : JString}
    (absent : indexOf (text ++ later) pattern = none) :
    indexOf text pattern = none := by
  induction text with
  | nil =>
      cases pattern with
      | nil =>
          rw [indexOf.eq_def] at absent
          simp at absent
      | cons => rfl
  | cons unit text inductionHypothesis =>
      rw [indexOf.eq_def] at absent ⊢
      split at absent
      case isTrue => cases absent
      case isFalse mismatch =>
        have begins : ¬ pattern.isPrefixOf (unit :: text) = true := by
          intro begins
          rw [List.isPrefixOf_iff_prefix] at begins mismatch
          exact mismatch (begins.trans (List.prefix_append _ later))
        rw [if_neg begins]
        simp only [List.cons_append, Option.map_eq_none_iff] at absent ⊢
        exact inductionHypothesis absent

/-- Lower-casing unit by unit loses no stop string. -/
theorem stopsPersist_of_map (lower : JChar → JChar) :
    StopsPersist (List.map lower) := by
  intro text later absent
  unfold findStop at absent ⊢
  rw [List.findSome?_eq_none_iff] at absent ⊢
  intro stop listed
  have nowhere := absent stop listed
  rw [List.map_append] at nowhere
  exact indexOf_eq_none_of_append nowhere

section Reply

variable {toLowerCase : JString → JString}
variable {maxTokens count : Int}
variable {tokens : List JString}

/-- What holds of a text holds of its beginnings. -/
theorem Plain.of_prefix
    {longer : List JString}
    (plain : Plain toLowerCase maxTokens longer)
    (begins : tokens <+: longer) :
    Plain toLowerCase maxTokens tokens := by
  obtain ⟨later, rfl⟩ := begins
  intro count within
  rcases Nat.le_total count tokens.length with fewer | more
  · have beginning := plain count within
    rwa [List.take_append_of_le_length fewer] at beginning
  · have beginning := plain tokens.length (by omega)
    rw [List.take_append_of_le_length (Nat.le_refl _)] at beginning
    rwa [List.take_of_length_le more, ← List.take_length (l := tokens)]

/-- A text without a stop string has no beginning with one. -/
theorem Plain.of_text
    {limit : Nat}
    (persist : StopsPersist toLowerCase)
    (plain : findStop toLowerCase (tokens.take limit).flatten = none) :
    Plain toLowerCase limit tokens := by
  intro count within
  have fewer : count ≤ limit := by omega
  apply persist _ ((tokens.take limit).drop count).flatten
  rw [← List.flatten_append]
  have whole := List.take_append_drop count (tokens.take limit)
  rw [List.take_take, Nat.min_eq_left fewer] at whole
  rwa [whole]

/-- The reply to tokens without a stop string is the text of those within the
limit. -/
theorem content_replyFrom_of_plain
    {limit : Nat}
    {buffer : JString}
    (plain : ∀ count ≤ limit,
      findStop toLowerCase (buffer ++ (tokens.take count).flatten) = none) :
    (replyFrom toLowerCase (count + limit) count buffer tokens).content =
      buffer ++ (tokens.take limit).flatten := by
  induction tokens generalizing count buffer limit with
  | nil => simp [replyFrom]
  | cons token tokens inductionHypothesis =>
      rw [replyFrom]
      cases limit with
      | zero =>
          have beyond : judge toLowerCase (count + (0 : Nat)) (count + 1)
              (buffer ++ token) = .limit :=
            judge_eq_limit_iff.mpr (by omega)
          rw [beyond]
          simp
      | succ limit =>
          have within : judge toLowerCase (count + (limit + 1 : Nat))
              (count + 1) (buffer ++ token) = .extend := by
            rw [judge_eq_extend_iff]
            refine ⟨by omega, ?_⟩
            have first := plain 1 (by omega)
            rwa [List.take_succ_cons, List.take_zero, List.flatten_cons,
              List.flatten_nil, List.append_nil] at first
          rw [within]
          have shift : count + ((limit + 1 : Nat) : Int) =
              count + 1 + (limit : Nat) := by omega
          rw [List.take_succ_cons, List.flatten_cons, ← List.append_assoc,
            shift]
          apply inductionHypothesis
          intro fewer bound
          have longer := plain (fewer + 1) (by omega)
          rwa [List.take_succ_cons, List.flatten_cons,
            ← List.append_assoc] at longer

end Reply

namespace Solo

variable {toLowerCase : JString → JString}
variable {state next : Solo}

/-- Only the limit has stopped the generation. -/
def Uncut (state : Solo) : Prop :=
  state.stopGeneration = true → state.maxTokens < state.tokenCount

/-- Without a stop string every runnable extends the text or is beyond the
limit. -/
theorem uncut_step
    {event : Event}
    (phase : Phase toLowerCase False state)
    (plain : Plain toLowerCase state.maxTokens state.delivered)
    (uncut : state.Uncut)
    (fired : state.step toLowerCase event = some next) :
    next.Uncut := by
  obtain ⟨alive, fires⟩ := fires_of_step fired
  cases fires with
  | deliver | post | endStream => exact uncut
  | run token rest queued =>
      have verdict : judge toLowerCase state.maxTokens
            (state.tokenCount + 1) (state.buffer ++ token) = .limit ∨
          judge toLowerCase state.maxTokens (state.tokenCount + 1)
            (state.buffer ++ token) = .extend := by
        rcases lt_or_ge state.maxTokens (state.tokenCount + 1)
          with beyond | within
        · exact Or.inl (judge_eq_limit_iff.mpr beyond)
        · right
          rw [judge_eq_extend_iff]
          refine ⟨within, ?_⟩
          cases phase with
          | running ran _ _ delivered _ count buffer =>
              have beginning := plain (ran.length + 1)
                (by rw [count] at within; exact within)
              rw [delivered, queued, List.append_assoc,
                List.take_append, List.take_of_length_le (by omega)]
                at beginning
              rw [buffer]
              simpa using beginning
          | limited stopped beyond => omega
          | cut _ stopped =>
              have := uncut stopped
              omega
          | thrown dead => exact absurd dead alive
      unfold runToken
      rcases verdict with beyond | goes
      · simp only [beyond]
        intro _
        exact judge_eq_limit_iff.mp beyond
      · simp only [goes]
        intro stopped
        have := uncut stopped
        change state.maxTokens < state.tokenCount + 1
        omega

/-- The flow only adds to what it has delivered. -/
theorem delivered_prefix_of_step
    {event : Event}
    (fired : state.step toLowerCase event = some next) :
    state.delivered <+: next.delivered := by
  cases (fires_of_step fired).2 with
  | deliver => exact List.prefix_append _ _
  | post | endStream => exact List.prefix_rfl
  | run =>
      unfold runToken
      split <;> exact List.prefix_rfl

end Solo

namespace App

variable {toLowerCase : JString → JString}
variable {start app next finish : App}
variable {userText : JString}
variable {chatId : JInt}

/-- What holds from the question on while its stream goes on and no stop string
appears. -/
structure Bounded
    (toLowerCase : JString → JString)
    (start : App)
    (userText : JString)
    (chatId : JInt)
    (app : App) : Prop where
  generating : Generating toLowerCase start userText chatId app
  phase : (app.solo start.viewModel.nextGeneration).Phase toLowerCase False
  uncut : (app.solo start.viewModel.nextGeneration).Uncut

/-- The events of the stream keep it. -/
theorem Bounded.step
    {event : Event}
    (wellFormed : start.WellFormed)
    (bounded : Bounded toLowerCase start userText chatId app)
    (stream : event.solo.isSome)
    (plain : Plain toLowerCase start.prefs.maxResponseTokens
      (app.solo start.viewModel.nextGeneration).delivered)
    (fired : app.step toLowerCase event = some next) :
    Bounded toLowerCase start userText chatId next := by
  have generating := bounded.generating
  obtain ⟨action, _, simulated⟩ :=
    solo_step_own (generating.exclusive.generation stream fired) fired
  have limit : (app.solo start.viewModel.nextGeneration).maxTokens =
      start.prefs.maxResponseTokens := generating.conversing.limit
  have timely :
      Solo.Timely (app.solo start.viewModel.nextGeneration) action := by
    cases action with
    | run => exact fun stopped => (bounded.uncut stopped).le
    | _ => trivial
  exact
    { generating := generating.step wellFormed stream fired
      phase := Solo.phase_step (Or.inr timely) bounded.phase simulated
      uncut := Solo.uncut_step bounded.phase (by rwa [limit]) bounded.uncut
        simulated }

/-- Once the stream of a question has ended and its runnables have run, the
answer holds the delivered tokens within the limit, provided that they contain
no stop string. -/
theorem content_of_plain
    {prefs : Prefs}
    {files : UserFiles}
    {before events : List Event}
    {limit : Nat}
    (reached : (machine toLowerCase).run { prefs := prefs, files := files }
      before = some start)
    (idle : start.Idle)
    (stream : ∀ event ∈ events, event.solo.isSome)
    (ran : (machine toLowerCase).run start
      (.sendMessage userText chatId :: events) = some finish)
    (drained : finish.Idle)
    (setting : start.prefs.maxResponseTokens = limit)
    (plain : Plain toLowerCase limit
      (finish.solo start.viewModel.nextGeneration).delivered) :
    (finish.solo start.viewModel.nextGeneration).content =
      ((finish.solo start.viewModel.nextGeneration).delivered.take
        limit).flatten := by
  have wellFormed := wellFormed_of_run reached
  obtain ⟨alive, rest⟩ := run_of_question ran
  have initially : Bounded toLowerCase start userText chatId
      (start.withViewModel
        (start.viewModel.sendMessage start.prefs userText chatId)) := by
    refine ⟨Generating.sendMessage wellFormed idle alive, ?_, ?_⟩
    · rw [solo_sendMessage wellFormed, alive]
      exact Solo.phase_start _
    · rw [solo_sendMessage wellFormed]
      intro stopped
      cases stopped
  -- while the stream goes on it is the only one left, and what is delivered at
  -- the end begins with what was delivered before
  have exclusive : (machine toLowerCase).Guarded
      (fun app event => event.solo.isSome ∧
        app.Exclusive start.viewModel.nextGeneration)
      (start.withViewModel
        (start.viewModel.sendMessage start.prefs userText chatId)) events :=
    Transition.Machine.guarded_mono
      (fun _ _ _ exclusive event => exclusive.step event)
      (fun _ _ exclusive event => ⟨event, exclusive⟩)
      (Transition.Machine.guarded_of_forall stream)
      initially.generating.exclusive
  have plainly := (Transition.Machine.guarded_back
    (fun app : App => Plain toLowerCase limit
      (app.solo start.viewModel.nextGeneration).delivered)
    (fun app event next guard fired plain => by
      obtain ⟨action, _, simulated⟩ :=
        solo_step_own (guard.2.generation guard.1 fired) fired
      exact plain.of_prefix (Solo.delivered_prefix_of_step simulated))
    rest exclusive plain).2
  have bounded : Bounded toLowerCase start userText chatId finish :=
    Transition.Machine.guarded_invariant
      (fun _ _ _ bounded guard fired =>
        bounded.step wellFormed guard.1.1 (by rw [setting]; exact guard.2)
          fired)
      rest plainly initially
  have latest : start.viewModel.nextGeneration <
      finish.viewModel.nextGeneration := by
    rw [bounded.generating.exclusive.latest]
    omega
  have maxTokens : (finish.solo start.viewModel.nextGeneration).maxTokens =
      0 + (limit : Nat) := by
    rw [Int.zero_add, ← setting]
    exact bounded.generating.conversing.limit
  obtain ⟨_, posted, empty⟩ := drained.drained latest
  rw [Solo.content_of_unqueued bounded.phase empty posted, Solo.reply, replyOf,
    maxTokens]
  exact content_replyFrom_of_plain fun count fewer => plain count (by omega)

/-! ## The tokens of the native loop -/

/-- The text of the first tokens that the sampler yields. -/
def sampledText
    {Token : Type u}
    (runtime : Llama.Runtime Token)
    (sampled : Nat → Token)
    (count : Nat) : JString :=
  (Llama.spell runtime [] (Llama.tokensFrom sampled 0 count)).flatten

/-- The first strings of a list spell as much as all of them exactly when the
others are empty. -/
theorem flatten_take_eq_iff
    {strings : List JString}
    {count : Nat} :
    (strings.take count).flatten = strings.flatten ↔
      ∀ index < strings.length, count ≤ index →
        strings[index]? = some [] := by
  have whole : strings.flatten =
      (strings.take count).flatten ++ (strings.drop count).flatten := by
    rw [← List.flatten_append, List.take_append_drop]
  rw [whole, List.self_eq_append_right, List.flatten_eq_nil_iff]
  constructor
  · intro silent index within beyond
    rw [List.getElem?_eq_getElem within]
    have later : strings[index] ∈ strings.drop count := by
      rw [List.mem_drop_iff_getElem]
      exact ⟨index - count, by omega, by congr 1; omega⟩
    rw [silent _ later]
  · intro silent text later
    obtain ⟨index, within, rfl⟩ := List.mem_drop_iff_getElem.mp later
    have empty := silent (count + index) (by omega) (by omega)
    rw [List.getElem?_eq_getElem (by omega)] at empty
    exact Option.some.inj empty

section Native

variable {Token : Type u}
variable {runtime : Llama.Runtime Token}
variable {sampled : Nat → Token}
variable {native after : Llama.Native Token}
variable {prompt : List Token}
variable {emitted : List JString}
variable {limit : Nat}

/-- The first strings that the flow emits are those of the tokens that are
within the limit and fit behind the prompt. -/
theorem take_of_send
    (emits : Llama.send runtime sampled native prompt = some (emitted, after))
    (noEog : ∀ index < limit, runtime.isEog (sampled index) = false) :
    emitted.take limit =
      (Llama.spell runtime [] (Llama.tokensFrom sampled 0 limit)).take
        (Llama.nlen - prompt.length) := by
  obtain ⟨count, bound, strings, stopped⟩ := Llama.exists_spell_of_send emits
  rw [strings, Llama.take_spell, Llama.take_tokensFrom, Llama.take_spell,
    Llama.take_tokensFrom]
  have same : min limit count =
      min (Llama.nlen - prompt.length) limit := by
    rcases Nat.lt_or_ge count (Llama.nlen - prompt.length) with short | long
    · have ends := stopped short
      have beyond : limit ≤ count := by
        by_contra inside
        rw [noEog count (by omega)] at ends
        cases ends
      omega
    · omega
  rw [same]

end Native

/-- The answer holds exactly the text of the first tokens that the setting
allows if and only if those behind position 256, counted from the beginning of
the prompt, spell nothing. -/
theorem content_eq_sampledText_iff
    {Token : Type u}
    (runtime : Llama.Runtime Token)
    (tokenize : JString → List Token)
    (sampled : Nat → Token)
    (limit : Nat)
    {native after : Llama.Native Token}
    {prefs : Prefs}
    {files : UserFiles}
    {before events : List Event}
    (reached : (machine toLowerCase).run { prefs := prefs, files := files }
      before = some start)
    (idle : start.Idle)
    (stream : ∀ event ∈ events, event.solo.isSome)
    (ran : (machine toLowerCase).run start
      (.sendMessage userText chatId :: events) = some finish)
    (drained : finish.Idle)
    (setting : start.prefs.maxResponseTokens = limit)
    (persist : StopsPersist toLowerCase)
    (emits : Llama.send runtime sampled native
      (tokenize (buildPrompt start.prefs
        (start.viewModel.conversation start.viewModel.messages) userText)) =
      some ((finish.viewModel.generationAt
        start.viewModel.nextGeneration).delivered, after))
    (noEog : ∀ index < limit, runtime.isEog (sampled index) = false)
    (noStop :
      findStop toLowerCase (sampledText runtime sampled limit) = none) :
    (finish.solo start.viewModel.nextGeneration).content =
        sampledText runtime sampled limit ↔
      ∀ index < limit,
        Llama.nlen ≤ (tokenize (buildPrompt start.prefs
          (start.viewModel.conversation start.viewModel.messages)
            userText)).length + index →
        (Llama.spell runtime []
          (Llama.tokensFrom sampled 0 limit))[index]? = some [] := by
  generalize tokenize (buildPrompt start.prefs
    (start.viewModel.conversation start.viewModel.messages) userText) =
      prompt at emits ⊢
  have kept := take_of_send emits noEog
  have plain : Plain toLowerCase limit
      (finish.solo start.viewModel.nextGeneration).delivered := by
    apply Plain.of_text persist
    apply persist _ ((Llama.spell runtime []
      (Llama.tokensFrom sampled 0 limit)).drop
        (Llama.nlen - prompt.length)).flatten
    rw [← List.flatten_append]
    change findStop toLowerCase (((finish.viewModel.generationAt
      start.viewModel.nextGeneration).delivered.take limit ++ _).flatten) = none
    rw [kept, List.take_append_drop]
    exact noStop
  rw [content_of_plain reached idle stream ran drained setting plain]
  change ((finish.viewModel.generationAt
    start.viewModel.nextGeneration).delivered.take limit).flatten = _ ↔ _
  rw [kept, sampledText]
  have size : (Llama.spell runtime []
      (Llama.tokensFrom sampled 0 limit)).length = limit := by simp
  generalize Llama.spell runtime [] (Llama.tokensFrom sampled 0 limit) =
    strings at size
  rw [flatten_take_eq_iff, size]
  constructor
  · intro silent index within beyond
    exact silent index within (by omega)
  · intro silent index within beyond
    exact silent index within (by omega)

/-- A tokenizer that takes four characters at a time. -/
def quads : JString → List JString
  | first :: second :: third :: fourth :: rest =>
      [first, second, third, fourth] :: quads rest
  | [] => []
  | rest => [rest]

/-- A vocabulary of ASCII texts, in which the empty one ends the generation. -/
def miniRuntime : Llama.Runtime JString where
  piece := List.map UInt16.toUInt8
  isEog := List.isEmpty
  newStringUTF := List.map UInt8.toUInt16

/-- Settings that allow an answer of two tokens. -/
def briefly : Prefs where
  maxResponseTokens := 2

/-- A model that answers `ok` and ends. -/
def saysOk : Nat → JString
  | 0 => jstr "o"
  | 1 => jstr "k"
  | _ => []

/-- A short question is answered with both tokens. -/
theorem content_eq_sampledText_of_short_prompt :
    ∃ finish, (machine toLowerCaseAscii).run { prefs := briefly }
        [.sendMessage (jstr "hi") 1, .deliver 0 (jstr "o"), .post 0,
          .deliver 0 (jstr "k"), .runPosted, .post 0, .runPosted,
          .endStream 0] = some finish ∧
      (finish.solo 0).content = sampledText miniRuntime saysOk 2 := by
  obtain ⟨finish, ran, seen⟩ := Option.map_eq_some_iff.mp
    (show ((machine toLowerCaseAscii).run { prefs := briefly }
        [.sendMessage (jstr "hi") 1, .deliver 0 (jstr "o"), .post 0,
          .deliver 0 (jstr "k"), .runPosted, .post 0, .runPosted,
          .endStream 0]).map
        (fun app => (decide app.Idle,
          (app.viewModel.generationAt 0).delivered)) =
      some (true, [jstr "o", jstr "k"]) by decide +kernel)
  obtain ⟨drained, tokens⟩ := Prod.mk.inj seen
  have reached : (machine toLowerCaseAscii).run
      { prefs := briefly, files := fun _ => none } [] =
        some { prefs := briefly } := rfl
  obtain ⟨strings, fits⟩ :
      (Llama.send miniRuntime saysOk {}
        (quads (buildPrompt briefly [] (jstr "hi")))).map Prod.fst =
          some [jstr "o", jstr "k"] ∧
      ∀ index < 2,
        Llama.nlen ≤
            (quads (buildPrompt briefly [] (jstr "hi"))).length + index →
          (Llama.spell miniRuntime []
            (Llama.tokensFrom saysOk 0 2))[index]? = some [] := by
    decide +kernel
  obtain ⟨⟨_, native⟩, emits, rfl⟩ := Option.map_eq_some_iff.mp strings
  rw [← tokens] at emits
  exact ⟨finish, ran, (content_eq_sampledText_iff miniRuntime quads saysOk 2
    reached (by decide) (by decide) ran (of_decide_eq_true drained) rfl
    (stopsPersist_of_map _) emits (by decide) (by decide +kernel)).mpr fits⟩

/-- A question whose prompt has 259 tokens: the native loop emits nothing, and
the answer stays empty. -/
theorem not_content_eq_sampledText_of_long_prompt :
    ¬ ∀ (userText : JString) (sampled : Nat → JString) (limit : Nat)
      (events : List Event) (finish : App) (after : Llama.Native JString),
      limit = briefly.maxResponseTokens →
      (quads (buildPrompt briefly [] userText)).length + limit ≤ 2048 →
      (∀ event ∈ events, event.solo.isSome) →
      (machine toLowerCaseAscii).run { prefs := briefly }
        (.sendMessage userText 1 :: events) = some finish →
      finish.Idle →
      Llama.send miniRuntime sampled {}
        (quads (buildPrompt briefly [] userText)) =
          some ((finish.viewModel.generationAt 0).delivered, after) →
      (∀ index < limit, miniRuntime.isEog (sampled index) = false) →
      findStop toLowerCaseAscii (sampledText miniRuntime sampled limit) =
        none →
      (finish.solo 0).content = sampledText miniRuntime sampled limit := by
  intro claim
  obtain ⟨finish, ran, seen⟩ := Option.map_eq_some_iff.mp
    (show ((machine toLowerCaseAscii).run { prefs := briefly }
        [.sendMessage (List.replicate 440 97) 1, .endStream 0]).map
        (fun app => (decide app.Idle, (app.solo 0).content,
          (app.viewModel.generationAt 0).delivered)) =
      some (true, [], []) by decide +kernel)
  obtain ⟨drained, rest⟩ := Prod.mk.inj seen
  obtain ⟨empty, tokens⟩ := Prod.mk.inj rest
  obtain ⟨small, sent⟩ :
      (quads (buildPrompt briefly [] (List.replicate 440 97))).length + 2 ≤
          2048 ∧
        Llama.send miniRuntime saysOk {}
          (quads (buildPrompt briefly [] (List.replicate 440 97))) =
            some ([], {}) := by
    decide +kernel
  rw [← tokens] at sent
  have text := claim _ saysOk 2 _ finish {} rfl small (by decide)
    ran (of_decide_eq_true drained) sent (by decide) (by decide +kernel)
  rw [empty] at text
  exact absurd text (by decide +kernel)

end App

end Chat
end IdoProject
