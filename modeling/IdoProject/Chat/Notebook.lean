import IdoProject.Chat.Ending
import IdoProject.Chat.Mixing

/-!
# Conversations turn by turn

The abstract model of the chat part: a notebook of the conversation on the
screen, the listed chats, the files and the prompts.  A question is one turn,
with the whole reply; there are no message objects, callbacks, flags or
runnables.  The view model, with its heap and its main looper, is shown to keep
this notebook over every session in which each stream is left to end before the
next turn.
-/

namespace IdoProject
namespace Chat

open Java Store

/-- What one user has on the screen and on disk between two turns. -/
@[ext]
structure Notebook where
  prefs : Prefs := {}
  files : UserFiles := fun _ => none
  chats : List ChatObject := []
  /-- Number of chat objects made so far. -/
  nextChat : Nat := 0
  shown : List Message := []
  /-- Prompts given to the model since the process started. -/
  prompts : List JString := []
  isGenerating : Bool := false
  crashed : Bool := false

/-- A turn of the user. -/
inductive Turn
  | saveSettings (prefs : Prefs)
  | loadChats
  | loadMessages (chatId : JInt)
  | createNewChat
  | deleteChat (chat : ChatObject)
  /-- A question, answered with these tokens. -/
  | exchange (userText : JString) (chatId : JInt) (tokens : List JString)
  /-- The process ends, and a new one starts. -/
  | restart

namespace Notebook

/-- Name of the signed-in user's directory. -/
def username (notebook : Notebook) : JString :=
  Prefs.orNull notebook.prefs.username

/-- A question with its reply: the transcript is filed once the reply is
final. -/
def exchange
    (toLowerCase : JString → JString)
    (notebook : Notebook)
    (userText : JString)
    (chatId : JInt)
    (tokens : List JString) : Notebook :=
  let reply := replyOf toLowerCase notebook.prefs.maxResponseTokens tokens
  let transcript :=
    notebook.shown ++ [⟨userText, 0⟩, ⟨reply.content, 1⟩]
  { notebook with
    shown := transcript
    prompts :=
      notebook.prompts ++ [buildPrompt notebook.prefs notebook.shown userText]
    files :=
      if reply.ending = .finalized then
        notebook.files.saveMessages notebook.username chatId transcript
      else notebook.files
    isGenerating := decide (reply.ending ≠ .finalized)
    crashed := decide (reply.ending = .thrown) }

/-- One turn. -/
def turn
    (toLowerCase : JString → JString)
    (notebook : Notebook) : Turn → Notebook
  | .saveSettings prefs =>
      { notebook with
        prefs := { prefs with
          username := notebook.prefs.username
          password := notebook.prefs.password
          isLoggedIn := notebook.prefs.isLoggedIn } }
  | .loadChats =>
      let records := notebook.files.loadChats notebook.username
      { notebook with
        chats := records.mapIdx fun index record =>
          { record with identity := notebook.nextChat + index }
        nextChat := notebook.nextChat + records.length }
  | .loadMessages chatId =>
      { notebook with
        shown := notebook.files.loadMessages notebook.username chatId }
  | .createNewChat =>
      let newId := App.maxId notebook.chats + 1
      let currentChats := notebook.chats ++
        [{ name := jstr "Chat " ++ jstr (toString newId)
           id := newId
           identity := notebook.nextChat }]
      { notebook with
        chats := currentChats
        nextChat := notebook.nextChat + 1
        shown := []
        files := notebook.files.saveChats notebook.username
          (currentChats.map ChatObject.toChatRecord) }
  | .deleteChat chat =>
      { notebook with
        chats := notebook.chats.eraseP (·.identity == chat.identity)
        files := notebook.files.removeChat notebook.username chat.id }
  | .exchange userText chatId tokens =>
      notebook.exchange toLowerCase userText chatId tokens
  | .restart => { prefs := notebook.prefs, files := notebook.files }

/-- A list of turns. -/
def turns (toLowerCase : JString → JString) :
    Notebook → List Turn → Notebook :=
  List.foldl (turn toLowerCase)

end Notebook

/-- The event of a turn that has no stream. -/
def Turn.event : Turn → Option App.Event
  | .saveSettings prefs => some (.saveSettings prefs)
  | .loadChats => some .loadChats
  | .loadMessages chatId => some (.loadMessages chatId)
  | .createNewChat => some .createNewChat
  | .deleteChat chat => some (.deleteChat chat)
  | .exchange _ _ _ | .restart => none

/-- A runnable that is not beyond the limit finds its generation going on. -/
theorem Solo.isGenerating_of_within
    {toLowerCase : JString → JString}
    {state : Solo}
    {text : JString}
    (phase : state.Phase toLowerCase False)
    (timely : state.Timely .run)
    (within : judge toLowerCase state.maxTokens (state.tokenCount + 1) text ≠
      .limit) :
    state.isGenerating = true := by
  have early : ¬state.maxTokens ≤ state.tokenCount := fun beyond =>
    within (judge_eq_limit_iff.mpr (Int.lt_add_one_of_le beyond))
  cases phase with
  | running _ _ _ _ _ _ _ _ generating => exact generating
  | limited stopped => exact absurd (timely stopped) early
  | cut _ stopped => exact absurd (timely stopped) early
  | thrown _ _ generating => exact generating

/-- A drained generation goes on exactly when its reply is not final. -/
theorem Solo.isGenerating_iff_of_drained
    {toLowerCase : JString → JString}
    {state : Solo}
    (phase : state.Phase toLowerCase False)
    (drained : state.Drained) :
    state.isGenerating = decide
      ((state.reply toLowerCase).ending ≠ .finalized) := by
  cases going : state.isGenerating with
  | false => simp [Solo.settled_of_phase phase going]
  | true =>
      have unanswered := Solo.finalized_iff_of_drained phase drained
      rw [going] at unanswered
      simp [← unanswered]

/-- A drained generation has crashed its process exactly when its reply
throws. -/
theorem Solo.crashed_iff_of_drained
    {toLowerCase : JString → JString}
    {state : Solo}
    (phase : state.Phase toLowerCase False)
    (unsaid : state.crashed = true → state.isGenerating = true)
    (drained : state.Drained) :
    state.crashed = decide ((state.reply toLowerCase).ending = .thrown) := by
  have going := Solo.isGenerating_iff_of_drained phase drained
  cases phase with
  | running ran alive _ delivered unfinished =>
      rw [drained.2.1, drained.2.2] at delivered
      simp only [Option.toList_none, List.append_nil] at delivered
      simp [alive, reply, delivered, unfinished]
  | limited _ _ settled _ ended =>
      have alive := mt unsaid (by simp [ended])
      simp [settled, alive]
  | cut _ _ settled _ ended =>
      have alive := mt unsaid (by simp [ended])
      simp [settled, alive]
  | thrown dead settled => simp [settled, dead]

namespace App

/-- What a view model keeps, without the objects. -/
def notebook (app : App) : Notebook :=
  { prefs := app.prefs
    files := app.files
    chats := app.viewModel.chats
    nextChat := app.viewModel.nextChat
    shown := app.viewModel.conversation app.viewModel.messages
    prompts := (List.range app.viewModel.nextGeneration).map fun index =>
      (app.viewModel.generationAt index).prompt
    isGenerating := app.viewModel.isGenerating
    crashed := app.crashed }

section Quiet

variable {toLowerCase : JString → JString}
variable {app next : App}

/-- A turn without a stream does to the notebook what its event does to the view
model. -/
theorem notebook_of_event
    {turn : Turn}
    {event : Event}
    (quiet : turn.event = some event)
    (fired : app.step toLowerCase event = some next) :
    next.notebook = app.notebook.turn toLowerCase turn := by
  obtain ⟨-, fires⟩ := fires_of_step fired
  cases turn with
  | exchange | restart => cases quiet
  | saveSettings | loadChats | deleteChat =>
      cases quiet
      cases fires
      rfl
  | loadMessages chatId =>
      cases quiet
      cases fires
      have shown := conversation_replaceMessages app.viewModel
        (app.files.loadMessages app.username chatId)
      unfold notebook Notebook.turn
      dsimp only [loadMessages, withViewModel]
      rw [shown]
      rfl
  | createNewChat =>
      cases quiet
      cases fires
      have shown : app.createNewChat.viewModel.conversation
          app.createNewChat.viewModel.messages = [] :=
        conversation_replaceMessages _ []
      unfold notebook Notebook.turn
      rw [shown]
      rfl

/-- It leaves the process idle. -/
theorem Idle.of_event
    {turn : Turn}
    {event : Event}
    (idle : app.Idle)
    (quiet : turn.event = some event)
    (fired : app.step toLowerCase event = some next) :
    next.Idle := by
  obtain ⟨-, fires⟩ := fires_of_step fired
  cases turn with
  | exchange | restart => cases quiet
  | saveSettings | loadChats | loadMessages | createNewChat | deleteChat =>
      cases quiet
      cases fires
      exact idle

end Quiet

section Streams

variable {toLowerCase : JString → JString}
variable {start app next : App}
variable {userText : JString}
variable {chatId : JInt}
variable {event : Event}

/-- What the events of a stream leave alone. -/
structure SameDesk (app next : App) : Prop where
  prefs : next.prefs = app.prefs
  chats : next.viewModel.chats = app.viewModel.chats
  nextChat : next.viewModel.nextChat = app.viewModel.nextChat
  prompt : ∀ index, (next.viewModel.generationAt index).prompt =
    (app.viewModel.generationAt index).prompt

/-- Writing back a generation with its prompt. -/
theorem sameDesk_setGeneration
    (app : App)
    (target : Nat)
    (generation : Generation)
    (same : generation.prompt = (app.viewModel.generationAt target).prompt) :
    SameDesk app (app.withViewModel
      (app.viewModel.setGeneration target generation)) := by
  refine ⟨rfl, rfl, rfl, fun index => ?_⟩
  unfold withViewModel ViewModel.setGeneration
  dsimp only
  rw [Function.update_apply]
  split
  case isTrue own => rw [same, own]
  case isFalse => rfl

theorem sameDesk_runToken
    (app : App)
    (index : Nat)
    (token : JString) :
    SameDesk app (app.runToken toLowerCase index token) := by
  have counted : SameDesk app
      (app.withViewModel (app.viewModel.countToken index)) :=
    sameDesk_setGeneration app index _ rfl
  rw [runToken_eq]
  split
  all_goals exact ⟨rfl, rfl, rfl, counted.prompt⟩

/-- A stream changes neither the settings nor the chats nor the prompts. -/
theorem sameDesk_step
    (stream : event.solo.isSome)
    (fired : app.step toLowerCase event = some next) :
    SameDesk app next := by
  obtain ⟨-, fires⟩ := fires_of_step fired
  cases fires with
  | saveSettings | loadChats | loadMessages | createNewChat | deleteChat
  | sendMessage => cases stream
  | deliver target => exact sameDesk_setGeneration app target _ rfl
  | endStream target => exact sameDesk_setGeneration app target _ rfl
  | post target token holds =>
      have written := sameDesk_setGeneration app target
        { app.viewModel.generationAt target with posting := none } rfl
      exact ⟨rfl, rfl, rfl, written.prompt⟩
  | runPosted target token rest queued =>
      have ran := @sameDesk_runToken toLowerCase
        (app.withViewModel { app.viewModel with posted := rest }) target token
      exact ⟨ran.prefs, ran.chats, ran.nextChat, ran.prompt⟩

/-- What holds from a question on, while its stream goes on in time: the
transcript is on disk once the generation has been finalized. -/
structure Exchanging
    (toLowerCase : JString → JString)
    (start : App)
    (userText : JString)
    (chatId : JInt)
    (app : App) : Prop where
  generating : Generating toLowerCase start userText chatId app
  phase : (app.solo start.viewModel.nextGeneration).Phase toLowerCase False
  unsaid : app.crashed = true → app.viewModel.isGenerating = true
  desk : SameDesk (start.withViewModel
    (start.viewModel.sendMessage start.prefs userText chatId)) app
  files : app.files =
    if app.viewModel.isGenerating then start.files
    else start.files.saveMessages start.username chatId
      (app.viewModel.conversation start.viewModel.messages)

/-- Finalizing files the transcript, over an earlier one of the same
question. -/
theorem Exchanging.files_finalizeGeneration
    {viewModel : ViewModel}
    (exchanging : Exchanging toLowerCase start userText chatId app)
    (list : viewModel.messages = app.viewModel.messages)
    (chat : (viewModel.generationAt start.viewModel.nextGeneration).chatId =
      (app.viewModel.generationAt start.viewModel.nextGeneration).chatId) :
    ((app.withViewModel viewModel).finalizeGeneration
        start.viewModel.nextGeneration).files =
      start.files.saveMessages start.username chatId
        (viewModel.conversation start.viewModel.messages) := by
  have conversing := exchanging.generating.conversing
  have user : app.username = start.username :=
    congrArg Prefs.orNull conversing.username
  have saved : ((app.withViewModel viewModel).finalizeGeneration
      start.viewModel.nextGeneration).files =
        app.files.saveMessages start.username chatId
          (viewModel.conversation start.viewModel.messages) := by
    rw [← user, ← conversing.chat, ← chat, ← conversing.messages, ← list]
    rfl
  rw [saved, exchanging.files]
  split
  · rfl
  · exact UserFiles.saveMessages_saveMessages _ _ _ _ _

/-- The runnable of a token in time. -/
theorem Exchanging.files_runToken
    {token : JString}
    {rest : List (Nat × JString)}
    (exchanging : Exchanging toLowerCase start userText chatId app)
    (timely : (app.solo start.viewModel.nextGeneration).Timely .run) :
    let next := (app.withViewModel { app.viewModel with posted := rest }
      ).runToken toLowerCase start.viewModel.nextGeneration token
    (next.crashed = true → app.crashed = true ∨
        next.viewModel.isGenerating = true) ∧
      next.files =
        if next.viewModel.isGenerating then start.files
        else start.files.saveMessages start.username chatId
          (next.viewModel.conversation start.viewModel.messages) := by
  let index := start.viewModel.nextGeneration
  let popped := app.withViewModel { app.viewModel with posted := rest }
  have counted : ((popped.viewModel.countToken index).generationAt
      index).chatId = (app.viewModel.generationAt index).chatId := by
    rw [countToken_generationAt_self]
    rfl
  have going (within : popped.verdict toLowerCase index token ≠ .limit) :
      app.viewModel.isGenerating = true :=
    Solo.isGenerating_of_within exchanging.phase timely within
  intro next
  rw [show next = popped.runToken toLowerCase index token from rfl, runToken_eq]
  cases decided : popped.verdict toLowerCase index token with
  | limit =>
      refine ⟨Or.inl, ?_⟩
      exact exchanging.files_finalizeGeneration rfl counted
  | cut cleaned =>
      refine ⟨Or.inl, ?_⟩
      exact exchanging.files_finalizeGeneration rfl counted
  | outOfBounds =>
      have generating := going (by rw [decided]; exact Verdict.noConfusion)
      refine ⟨fun _ => Or.inr generating, ?_⟩
      have same := exchanging.files
      rw [if_pos generating] at same
      exact same.trans (if_pos generating).symm
  | extend =>
      have generating := going (by rw [decided]; exact Verdict.noConfusion)
      refine ⟨Or.inl, ?_⟩
      have same := exchanging.files
      rw [if_pos generating] at same
      exact same.trans (if_pos generating).symm

/-- The events of the stream keep it as long as they are in time. -/
theorem Exchanging.step
    (wellFormed : start.WellFormed)
    (exchanging : Exchanging toLowerCase start userText chatId app)
    (stream : event.solo.isSome)
    (timely : app.Timely event)
    (fired : app.step toLowerCase event = some next) :
    Exchanging toLowerCase start userText chatId next := by
  have own := exchanging.generating.exclusive.generation stream fired
  obtain ⟨action, same, simulated⟩ := solo_step_own own fired
  have inTime := timely.solo own same
  have generating := exchanging.generating.step wellFormed stream fired
  have phase := Solo.phase_step (Or.inr inTime) exchanging.phase simulated
  have moved := sameDesk_step stream fired
  have desk : SameDesk _ next :=
    ⟨moved.prefs.trans exchanging.desk.prefs,
      moved.chats.trans exchanging.desk.chats,
      moved.nextChat.trans exchanging.desk.nextChat,
      fun index => (moved.prompt index).trans (exchanging.desk.prompt index)⟩
  obtain ⟨alive, fires⟩ := fires_of_step fired
  cases fires with
  | saveSettings | loadChats | loadMessages | createNewChat | deleteChat
  | sendMessage => cases stream
  | deliver | post | endStream =>
      exact ⟨generating, phase, exchanging.unsaid, desk, exchanging.files⟩
  | runPosted target token rest queued =>
      cases same
      simp only [Event.generation, queued, List.head?_cons, Option.map_some,
        Option.some.injEq] at own
      subst own
      obtain ⟨crash, files⟩ :=
        @files_runToken toLowerCase start app userText chatId token rest
          exchanging inTime
      refine ⟨generating, phase, fun dead => ?_, desk, files⟩
      rcases crash dead with before | still
      · rw [alive] at before
        cases before
      · exact still

/-- A question starts it. -/
theorem Exchanging.sendMessage
    (wellFormed : start.WellFormed)
    (idle : start.Idle)
    (alive : start.crashed = false) :
    Exchanging toLowerCase start userText chatId (start.withViewModel
      (start.viewModel.sendMessage start.prefs userText chatId)) := by
  refine ⟨Generating.sendMessage wellFormed idle alive, ?_, ?_,
    ⟨rfl, rfl, rfl, fun _ => rfl⟩, (if_pos rfl).symm⟩
  · rw [solo_sendMessage wellFormed, alive]
    exact Solo.phase_start _
  · exact fun _ => rfl

/-- When the stream has ended, the view model keeps what the notebook says of
the whole exchange. -/
theorem Exchanging.notebook
    (wellFormed : start.WellFormed)
    (exchanging : Exchanging toLowerCase start userText chatId app)
    (idle : app.Idle) :
    app.notebook = start.notebook.exchange toLowerCase userText chatId
      (app.viewModel.generationAt start.viewModel.nextGeneration).delivered := by
  let index := start.viewModel.nextGeneration
  obtain ⟨generating, phase, unsaid, desk, files⟩ := exchanging
  have latest := generating.exclusive.latest
  have conversing := generating.conversing
  have drained : (app.solo index).Drained := idle.drained (by omega)
  have reply : (app.solo index).reply toLowerCase =
      replyOf toLowerCase start.prefs.maxResponseTokens
        (app.viewModel.generationAt index).delivered := by
    rw [← conversing.limit]
    rfl
  have content := Solo.content_of_unqueued phase drained.2.2 drained.2.1
  have final := Solo.isGenerating_iff_of_drained phase drained
  have thrown := Solo.crashed_iff_of_drained phase unsaid drained
  have shown : app.viewModel.conversation start.viewModel.messages =
      start.viewModel.conversation start.viewModel.messages ++
        [⟨userText, 0⟩, ⟨(replyOf toLowerCase start.prefs.maxResponseTokens
          (app.viewModel.generationAt index).delivered).content, 1⟩] := by
    rw [conversing.conversation wellFormed, ← reply, ← content, ←
      conversing.message]
    rfl
  have prompts : (List.range (index + 1)).map (fun index =>
        (app.viewModel.generationAt index).prompt) =
      (List.range index).map (fun index =>
        (start.viewModel.generationAt index).prompt) ++
        [buildPrompt start.prefs
          (start.viewModel.conversation start.viewModel.messages)
          userText] := by
    have asked := sendMessage_generationAt_new start userText chatId
    rw [List.range_succ, List.map_append, List.map_singleton,
      desk.prompt index]
    refine congrArg₂ _ (List.map_congr_left fun earlier before => ?_)
      (congrArg (fun generation => [generation.prompt]) asked)
    have other : earlier ≠ index := Nat.ne_of_lt (List.mem_range.mp before)
    exact (desk.prompt earlier).trans
      (congrArg Generation.prompt (Function.update_of_ne other _ _))
  rw [reply] at final thrown
  apply Notebook.ext
  case prefs => exact desk.prefs
  case files =>
    have ended : app.viewModel.isGenerating = decide
      ((replyOf toLowerCase start.prefs.maxResponseTokens
        (app.viewModel.generationAt index).delivered).ending ≠ .finalized) :=
      final
    rw [shown, ended] at files
    simp only [decide_eq_true_eq, ite_not] at files
    exact files
  case chats => exact desk.chats
  case nextChat => exact desk.nextChat
  case shown =>
    exact (congrArg app.viewModel.conversation conversing.messages).trans shown
  case prompts =>
    rw [← latest] at prompts
    exact prompts
  case isGenerating => exact final
  case crashed => exact thrown

end Streams

/-- A run as the user takes its turns.  A turn without a stream is one event; a
question goes on until its stream has ended, with its runnables in time; and at
any turn the process may be replaced by a new one. -/
inductive Session
    (toLowerCase : JString → JString) : App → List Turn → App → Prop
  | done (app : App) : Session toLowerCase app [] app
  | event
      {app next finish : App}
      {turn : Turn}
      {event : Event}
      {turns : List Turn}
      (quiet : turn.event = some event)
      (fired : app.step toLowerCase event = some next)
      (rest : Session toLowerCase next turns finish) :
      Session toLowerCase app (turn :: turns) finish
  | exchange
      {app next finish : App}
      {userText : JString}
      {chatId : JInt}
      {events : List Event}
      {turns : List Turn}
      (stream : ∀ event ∈ events, event.solo.isSome)
      (timely : (machine toLowerCase).Guarded Timely app
        (.sendMessage userText chatId :: events))
      (ran : (machine toLowerCase).run app
        (.sendMessage userText chatId :: events) = some next)
      (idle : next.Idle)
      (rest : Session toLowerCase next turns finish) :
      Session toLowerCase app
        (.exchange userText chatId (next.viewModel.generationAt
          app.viewModel.nextGeneration).delivered :: turns) finish
  | restart
      {app finish : App}
      {turns : List Turn}
      (rest : Session toLowerCase { prefs := app.prefs, files := app.files }
        turns finish) :
      Session toLowerCase app (.restart :: turns) finish

section Sessions

variable {toLowerCase : JString → JString}
variable {start next finish : App}
variable {userText : JString}
variable {chatId : JInt}
variable {events : List Event}

/-- A question whose stream has been left to end is one turn. -/
theorem notebook_of_exchange
    (wellFormed : start.WellFormed)
    (idle : start.Idle)
    (stream : ∀ event ∈ events, event.solo.isSome)
    (timely : (machine toLowerCase).Guarded Timely start
      (.sendMessage userText chatId :: events))
    (ran : (machine toLowerCase).run start
      (.sendMessage userText chatId :: events) = some next)
    (drained : next.Idle) :
    next.WellFormed ∧ next.notebook =
      start.notebook.turn toLowerCase
        (.exchange userText chatId (next.viewModel.generationAt
          start.viewModel.nextGeneration).delivered) := by
  obtain ⟨alive, rest⟩ := run_of_question ran
  have guarded := Transition.Machine.guarded_and
    (Transition.Machine.guarded_of_forall stream)
    (timely.2 _ (step_sendMessage alive))
  have exchanging : Exchanging toLowerCase start userText chatId next :=
    Transition.Machine.guarded_invariant
      (fun _ _ _ holds guard fired =>
        holds.step wellFormed guard.1 guard.2 fired)
      rest guarded (Exchanging.sendMessage wellFormed idle alive)
  exact ⟨exchanging.generating.wellFormed,
    exchanging.notebook wellFormed drained⟩

theorem idle_launch (prefs : Prefs) (files : UserFiles) :
    App.Idle { prefs := prefs, files := files } :=
  ⟨rfl, fun _ before => absurd before (Nat.not_lt_zero _)⟩

/-- From an idle state on, the view model keeps the notebook over every
session. -/
theorem notebook_of_session
    {turns : List Turn}
    (session : Session toLowerCase start turns finish)
    (wellFormed : start.WellFormed)
    (idle : start.Idle) :
    finish.notebook = start.notebook.turns toLowerCase turns := by
  induction session with
  | done => rfl
  | event quiet fired _ inductionHypothesis =>
      rw [inductionHypothesis (wellFormed.step fired)
        (idle.of_event quiet fired), notebook_of_event quiet fired]
      rfl
  | exchange stream timely ran drained _ inductionHypothesis =>
      obtain ⟨kept, one⟩ :=
        notebook_of_exchange wellFormed idle stream timely ran drained
      rw [inductionHypothesis kept drained, one]
      rfl
  | restart _ inductionHypothesis =>
      exact inductionHypothesis (wellFormed_launch _ _) (idle_launch _ _)

end Sessions

/-- Whatever turns the user takes, what the view model shows, has filed and has
asked the model for is what the notebook of the turns says, as long as every
stream is left to end and no runnable behind a stop string is within the
limit. -/
theorem notebook_kept
    (toLowerCase : JString → JString)
    (prefs : Prefs)
    (files : UserFiles)
    (turns : List Turn)
    (finish : App)
    (session : Session toLowerCase { prefs := prefs, files := files } turns
      finish) :
    finish.notebook =
      Notebook.turns toLowerCase { prefs := prefs, files := files } turns :=
  notebook_of_session session (wellFormed_launch prefs files)
    (idle_launch prefs files)

/-- A new chat, a question whose reply ends at a stop string, and the chat opened
again by the next process. -/
theorem notebook_kept_over_restart :
    ∃ finish, Session toLowerCaseAscii {}
        [.createNewChat, .exchange (jstr "hi") 1 [jstr "ok###", jstr "x"],
          .restart, .loadMessages 1] finish ∧
      finish.notebook.shown = [⟨jstr "hi", 0⟩, ⟨jstr "ok", 1⟩] := by
  obtain ⟨answered, ran, seen⟩ := Option.map_eq_some_iff.mp
    (show ((machine toLowerCaseAscii).run (createNewChat {})
        [.sendMessage (jstr "hi") 1, .deliver 0 (jstr "ok###"), .post 0,
          .runPosted, .deliver 0 (jstr "x"), .endStream 0]).map
        (fun app => (decide app.Idle,
          (app.viewModel.generationAt 0).delivered)) =
      some (true, [jstr "ok###", jstr "x"]) by decide +kernel)
  obtain ⟨idle, delivered⟩ := Prod.mk.inj seen
  let reopened : App := { prefs := answered.prefs, files := answered.files }
  have session : Session toLowerCaseAscii {}
      [.createNewChat, .exchange (jstr "hi") 1 [jstr "ok###", jstr "x"],
        .restart, .loadMessages 1] (reopened.loadMessages 1) := by
    refine .event rfl rfl ?_
    rw [← delivered]
    exact .exchange (by decide) (by decide +kernel) ran
      (of_decide_eq_true idle) (.restart (.event rfl rfl (.done _)))
  refine ⟨_, session, ?_⟩
  rw [notebook_kept toLowerCaseAscii {} (fun _ => none) _ _ session]
  decide +kernel

end App
end Chat
end IdoProject
