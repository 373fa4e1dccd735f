import IdoProject.Chat.StopOrder

/-!
# What is spoken and what is saved

`finalizeGeneration` publishes the buffer, to be spoken, and saves the list with
the AI message.  The content of the message is the text before the stop string,
and the buffer is the text before the token that completes it, so they agree
exactly when the cut is made where this token begins.
-/

namespace IdoProject
namespace Chat

open Java Store

/-- A token within the limit that completes a stop string and is cut is cut
where it begins. -/
def Solo.CutsWhole (state : Solo) (token : JString) : Prop :=
  state.tokenCount + 1 ≤ state.maxTokens →
    ∀ stop ∈ leadingStop (state.buffer ++ token),
      ∀ place ∈ firstPlace (state.buffer ++ token) stop,
        movedPlace (state.buffer ++ token) place ≤
            (state.buffer ++ token).length →
          movedPlace (state.buffer ++ token) place = state.buffer.length

instance (state : Solo) : DecidablePred state.CutsWhole := fun token =>
  inferInstanceAs (Decidable (state.tokenCount + 1 ≤ state.maxTokens →
    ∀ stop ∈ leadingStop (state.buffer ++ token),
      ∀ place ∈ firstPlace (state.buffer ++ token) stop,
        movedPlace (state.buffer ++ token) place ≤
            (state.buffer ++ token).length →
          movedPlace (state.buffer ++ token) place = state.buffer.length))

section Content

variable {lower : LowerCasing}
variable {state : Solo}
variable {token : JString}
variable {index : Nat}

/-- Where a stop string is found, its index decides. -/
theorem Solo.cutsWhole_iff_of_found
    (found : findStop lower.toLowerCase (state.buffer ++ token) = some index)
    (within : state.tokenCount + 1 ≤ state.maxTokens) :
    state.CutsWhole token ↔
      (index ≤ (state.buffer ++ token).length → index = state.buffer.length) := by
  obtain ⟨stop, -, place, leading, first, rfl⟩ := exists_leadingStop found
  constructor
  · intro whole
    exact whole within stop leading place first
  · intro whole _ other also other_place at_other
    rw [Option.mem_def, leading, Option.some.injEq] at also
    subst also
    rw [Option.mem_def, first, Option.some.injEq] at at_other
    subst at_other
    exact whole

theorem Solo.cutsWhole_of_not_found
    (absent : findStop lower.toLowerCase (state.buffer ++ token) = none) :
    state.CutsWhole token := by
  intro _ stop leading place first
  rw [findStop_eq_none_iff, earliestStop_eq_none_iff] at absent
  rw [Option.mem_def,
    absent stop (List.mem_of_find?_eq_some leading)] at first
  cases first

/-- While the content is the buffer, a runnable keeps it so exactly when it cuts
where its token begins. -/
theorem Solo.content_eq_buffer_iff
    (same : state.content = state.buffer) :
    (state.runToken lower.toLowerCase token).content =
        (state.runToken lower.toLowerCase token).buffer ↔
      state.CutsWhole token := by
  unfold Solo.runToken
  dsimp only
  rcases lt_or_ge state.maxTokens (state.tokenCount + 1) with beyond | within
  case inl =>
    rw [judge_eq_limit_iff.mpr beyond]
    exact iff_of_true same fun less => absurd less (by omega)
  case inr =>
    cases found : findStop lower.toLowerCase (state.buffer ++ token) with
    | none =>
        rw [judge_eq_extend_iff.mpr ⟨within, found⟩]
        exact iff_of_true rfl (Solo.cutsWhole_of_not_found found)
    | some index =>
        rw [judge_of_found within found,
          Solo.cutsWhole_iff_of_found found within]
        by_cases inside : index ≤ (state.buffer ++ token).length
        case neg =>
          rw [if_neg inside]
          exact iff_of_true same fun less => absurd less inside
        case pos =>
          rw [if_pos inside, forall_prop_of_true inside]
          dsimp only
          constructor
          · intro equal
            have lengths := congrArg List.length equal
            rwa [List.length_take, Nat.min_eq_left inside] at lengths
          · rintro rfl
            exact List.take_left

end Content

/-- Only a runnable changes the content or the buffer. -/
theorem Solo.content_of_step
    {toLowerCase : JString → JString}
    {state next : Solo}
    {event : Solo.Event}
    (quiet : event ≠ .run)
    (fired : state.step toLowerCase event = some next) :
    next.content = state.content ∧ next.buffer = state.buffer := by
  cases (Solo.fires_of_step fired).2 with
  | deliver | post | endStream => exact ⟨rfl, rfl⟩
  | run => exact absurd rfl quiet

namespace App

/-- A runnable that cuts the text cuts it where its token begins. -/
def Event.CutsWhole (app : App) : Event → Prop
  | .runPosted =>
      ∀ entry ∈ app.viewModel.posted.head?,
        (app.solo entry.1).CutsWhole entry.2
  | _ => True

instance (app : App) : DecidablePred (Event.CutsWhole app)
  | .runPosted => inferInstanceAs (Decidable
      (∀ entry ∈ app.viewModel.posted.head?,
        (app.solo entry.1).CutsWhole entry.2))
  | .saveSettings _ | .loadChats | .loadMessages _ | .createNewChat
  | .deleteChat _ | .sendMessage _ _ | .deliver _ _ | .post _
  | .endStream _ => inferInstanceAs (Decidable True)

/-- What the last finalization of a generation published is the content of its
AI message, the last one of the list it saved. -/
def SpokenIsSaved (index : Nat) (app : App) : Prop :=
  ∀ save, app.saves.getLast? = some save → save.generation = index →
    ∃ answer, save.messages.getLast? = some answer ∧ answer.sender = 1 ∧
      app.viewModel.finishedResponse = some answer.content

section Runnables

variable {toLowerCase : JString → JString}
variable {lower : LowerCasing}
variable {app next start finish : App}
variable {index : Nat}
variable {userText : JString}
variable {chatId : JInt}

/-- A runnable saves the content of the message and publishes the buffer, or it
does neither and makes no difference between them. -/
theorem runToken_saves
    (token : JString) :
    let next := app.runToken toLowerCase index token
    (next.saves = app.saves ∧
        next.viewModel.finishedResponse = app.viewModel.finishedResponse ∧
        ((app.solo index).content = (app.solo index).buffer →
          (next.solo index).content = (next.solo index).buffer)) ∨
      ∃ save, next.saves = app.saves ++ [save] ∧ save.generation = index ∧
        save.reply = (next.solo index).content ∧
        next.viewModel.finishedResponse = some (next.solo index).buffer := by
  intro next
  have decided : next = app.runToken toLowerCase index token := rfl
  have seen : next.solo index = (app.solo index).runToken toLowerCase token :=
    solo_runToken token
  unfold Solo.runToken at seen
  rw [show judge toLowerCase (app.solo index).maxTokens
      ((app.solo index).tokenCount + 1) ((app.solo index).buffer ++ token) =
    app.verdict toLowerCase index token from rfl] at seen
  rw [runToken_eq] at decided
  cases verdict : app.verdict toLowerCase index token with
  | limit =>
      rw [verdict] at decided
      rw [decided]
      exact Or.inr ⟨_, rfl, rfl, rfl, rfl⟩
  | cut cleaned =>
      rw [verdict] at decided
      rw [decided]
      exact Or.inr ⟨_, rfl, rfl, rfl, rfl⟩
  | outOfBounds =>
      rw [verdict] at decided seen
      refine Or.inl ⟨by rw [decided]; rfl, by rw [decided]; rfl, fun same => ?_⟩
      rw [seen]
      exact same
  | extend =>
      rw [verdict] at decided seen
      refine Or.inl ⟨by rw [decided]; rfl, by rw [decided]; rfl, fun _ => ?_⟩
      rw [seen]

end Runnables

section Runs

variable {lower : LowerCasing}
variable {app next start finish : App}
variable {userText : JString}
variable {chatId : JInt}

/-- What holds from a question on while what is spoken is what is saved. -/
structure Agreeing
    (toLowerCase : JString → JString)
    (start : App)
    (userText : JString)
    (chatId : JInt)
    (app : App) : Prop where
  generating : Generating toLowerCase start userText chatId app
  same : (app.solo start.viewModel.nextGeneration).content =
    (app.solo start.viewModel.nextGeneration).buffer
  spoken : app.SpokenIsSaved start.viewModel.nextGeneration

/-- The last answer that a generation saved is what was published at its end. -/
theorem spokenIsSaved_of_append
    {save : Save}
    (generating : Generating lower.toLowerCase start userText chatId next)
    (saves : next.saves = app.saves ++ [save])
    (own : save.generation = start.viewModel.nextGeneration) :
    next.SpokenIsSaved start.viewModel.nextGeneration ↔
      next.viewModel.finishedResponse = some save.reply := by
  have last : next.saves.getLast? = some save := by
    rw [saves, List.getLast?_concat]
  have handed := (generating.conversing.saved save
    (List.mem_of_getLast? last) own).2.2
  have answer : save.messages.getLast? = some ⟨save.reply, 1⟩ := by
    rw [handed, List.getLast?_append]
    rfl
  constructor
  · intro spoken
    obtain ⟨message, also, -, published⟩ := spoken save last own
    rw [answer, Option.some.injEq] at also
    rw [published, ← also]
  · intro published other also _
    rw [last, Option.some.injEq] at also
    subst also
    exact ⟨_, answer, rfl, published⟩

/-- A step of the stream publishes what it saves, and keeps the content the
buffer, exactly when a cut is made where the token begins. -/
theorem Agreeing.step_iff
    {event : Event}
    (wellFormed : start.WellFormed)
    (agreeing : Agreeing lower.toLowerCase start userText chatId app)
    (stream : event.solo.isSome)
    (fired : app.step lower.toLowerCase event = some next) :
    (event.CutsWhole app →
        Agreeing lower.toLowerCase start userText chatId next) ∧
      (next.SpokenIsSaved start.viewModel.nextGeneration →
        event.CutsWhole app) := by
  have generating := agreeing.generating.step wellFormed stream fired
  have own := agreeing.generating.exclusive.generation stream fired
  obtain ⟨action, named, simulated⟩ := solo_step_own own fired
  obtain ⟨-, fires⟩ := fires_of_step fired
  have quietly
      (notRun : action ≠ .run)
      (saves : next.saves = app.saves)
      (published : next.viewModel.finishedResponse =
        app.viewModel.finishedResponse) :
      Agreeing lower.toLowerCase start userText chatId next := by
    obtain ⟨content, buffer⟩ := Solo.content_of_step notRun simulated
    refine ⟨generating, ?_, ?_⟩
    · rw [content, buffer]
      exact agreeing.same
    · unfold SpokenIsSaved
      rw [saves, published]
      exact agreeing.spoken
  cases fires with
  | saveSettings | loadChats | loadMessages | createNewChat | deleteChat
  | sendMessage => cases stream
  | deliver index token started streaming free =>
      cases named
      exact ⟨fun _ => quietly Solo.Event.noConfusion rfl rfl, fun _ => trivial⟩
  | post index token holds =>
      cases named
      exact ⟨fun _ => quietly Solo.Event.noConfusion rfl rfl, fun _ => trivial⟩
  | endStream index streaming free =>
      cases named
      exact ⟨fun _ => quietly Solo.Event.noConfusion rfl rfl, fun _ => trivial⟩
  | runPosted target token rest queued =>
      simp only [Event.generation, queued, List.head?_cons, Option.map_some,
        Option.some.injEq] at own
      subst own
      have whole : Event.CutsWhole app .runPosted ↔
          (app.solo start.viewModel.nextGeneration).CutsWhole token := by
        simp [Event.CutsWhole, queued]
      have popped := @Solo.content_eq_buffer_iff lower
        ((app.withViewModel { app.viewModel with posted := rest }).solo
          start.viewModel.nextGeneration) token agreeing.same
      rw [← solo_runToken] at popped
      rw [whole]
      rcases @runToken_saves lower.toLowerCase
          (app.withViewModel { app.viewModel with posted := rest })
          start.viewModel.nextGeneration token with
        ⟨saves, published, alike⟩ | ⟨save, saves, saved_by, reply, published⟩
      · refine ⟨fun _ => ⟨generating, alike agreeing.same, ?_⟩,
          fun _ => popped.mp (alike agreeing.same)⟩
        unfold SpokenIsSaved
        rw [saves, published]
        exact agreeing.spoken
      · have spoken := spokenIsSaved_of_append generating saves saved_by
        rw [published, reply, Option.some.injEq] at spoken
        refine ⟨fun cuts => ⟨generating, popped.mpr cuts, ?_⟩, fun said => ?_⟩
        · exact spoken.mpr (popped.mpr cuts).symm
        · exact popped.mp (spoken.mp said).symm

/-- The question begins it. -/
theorem Agreeing.sendMessage
    (wellFormed : start.WellFormed)
    (idle : start.Idle)
    (alive : start.crashed = false) :
    Agreeing lower.toLowerCase start userText chatId (start.withViewModel
      (start.viewModel.sendMessage start.prefs userText chatId)) := by
  refine ⟨Generating.sendMessage wellFormed idle alive, ?_, ?_⟩
  · rw [solo_sendMessage wellFormed]
  · intro save last own
    have earlier := wellFormed.saved save (List.mem_of_getLast? last)
    omega

/-- For every stream of tokens, every interleaving and every way in which the
generation is finalized: what is published is the content that is saved, at
every finalization, exactly when every runnable that cuts the text cuts it where
its token begins. -/
theorem always_spokenIsSaved_iff
    (lower : LowerCasing)
    {prefs : Prefs}
    {files : UserFiles}
    {before events : List Event}
    (reached : (machine lower.toLowerCase).run
      { prefs := prefs, files := files } before = some start)
    (idle : start.Idle)
    (stream : ∀ event ∈ events, event.solo.isSome)
    (ran : (machine lower.toLowerCase).run start
      (.sendMessage userText chatId :: events) = some finish) :
    (machine lower.toLowerCase).Always
        (SpokenIsSaved start.viewModel.nextGeneration) start
        (.sendMessage userText chatId :: events) ↔
      (machine lower.toLowerCase).Guarded (fun app event => event.CutsWhole app)
        start (.sendMessage userText chatId :: events) := by
  have wellFormed := wellFormed_of_run reached
  obtain ⟨alive, rest⟩ := run_of_question ran
  have initially :=
    @Agreeing.sendMessage lower start userText chatId wellFormed idle alive
  have onward := Transition.Machine.always_iff_guarded_of_allowed
    (fun (app : App) event next
        (agreeing : Agreeing lower.toLowerCase start userText chatId app)
        streams cuts fired =>
      (Agreeing.step_iff wellFormed agreeing streams fired).1 cuts)
    (fun _ agreeing => agreeing.spoken)
    (fun _ _ _ agreeing streams fired said =>
      (Agreeing.step_iff wellFormed agreeing streams fired).2 said)
    stream rest initially
  have unsaved : start.SpokenIsSaved start.viewModel.nextGeneration := by
    intro save last own
    have earlier := wellFormed.saved save (List.mem_of_getLast? last)
    omega
  unfold Transition.Machine.Always Transition.Machine.Guarded
  rw [step_sendMessage alive]
  simp only [Option.some.injEq, forall_eq']
  exact ⟨fun always => ⟨trivial, onward.mp always.2⟩,
    fun guarded => ⟨unsaved, onward.mpr guarded.2⟩⟩

/-- A stop string in a token of its own. -/
theorem spokenIsSaved_of_separate_stop :
    (machine LowerCasing.simple.toLowerCase).Always (SpokenIsSaved 0) {}
      (inTurnRun [jstr "ok", jstr "###"]) := by
  obtain ⟨finish, ran⟩ := Option.isSome_iff_exists.mp
    (show ((machine LowerCasing.simple.toLowerCase).run {}
      (inTurnRun [jstr "ok", jstr "###"])).isSome by decide +kernel)
  have reached : (machine LowerCasing.simple.toLowerCase).run
      { prefs := {}, files := fun _ => none } [] = some {} := rfl
  exact (always_spokenIsSaved_iff LowerCasing.simple reached (by decide)
    (by decide) ran).mpr (by decide +kernel)

/-- The text and the stop string in one token: "ok" is saved, and nothing is
spoken. -/
theorem nothing_spoken_of_joined_stop :
    ¬(machine LowerCasing.simple.toLowerCase).Always (SpokenIsSaved 0) {}
      (inTurnRun [jstr "ok###"]) := by
  intro always
  obtain ⟨finish, ran, seen⟩ := Option.map_eq_some_iff.mp
    (show ((machine LowerCasing.simple.toLowerCase).run {}
        (inTurnRun [jstr "ok###"])).map
        (fun app => (app.viewModel.finishedResponse,
          app.saves.map fun save => (save.generation, save.messages))) =
      some (some [], [(0, [⟨jstr "hi", 0⟩, ⟨jstr "ok", 1⟩])]) by
        decide +kernel)
  obtain ⟨published, saves⟩ := Prod.mk.inj seen
  obtain ⟨save, only, entry⟩ := List.map_eq_singleton_iff.mp saves
  obtain ⟨own, messages⟩ := Prod.mk.inj entry
  obtain ⟨-, spoken⟩ := Transition.Machine.invariant_of_always
    (fun _ _ _ _ _ _ _ => trivial) ran always trivial
  obtain ⟨answer, last, -, said⟩ := spoken save (by rw [only]; rfl) own
  rw [messages] at last
  cases last
  rw [published] at said
  exact absurd said (by decide)

end Runs

end App

end Chat
end IdoProject
