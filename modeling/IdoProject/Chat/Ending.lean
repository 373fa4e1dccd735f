import IdoProject.Chat.Refinement

/-!
# How a generation ends

A generation is finalized only from inside a token runnable.  Once its flow has
ended and its runnables have run, it has been finalized exactly when some token
ended it: one beyond the limit, or one that completed a stop string.
-/

namespace IdoProject
namespace Chat

open Java Store

namespace App

variable {toLowerCase : JString → JString}
variable {start app next finish : App}
variable {userText : JString}
variable {chatId : JInt}

/-- The question asked in `start` has been answered: Send is enabled again, and
the conversation with the reply has been handed to `JsonHelper.saveMessages`. -/
def Answered
    (toLowerCase : JString → JString)
    (start finish : App)
    (userText : JString)
    (chatId : JInt) : Prop :=
  let generation := start.viewModel.nextGeneration
  finish.viewModel.isGenerating = false ∧
    ∃ save ∈ finish.saves,
      save.generation = generation ∧
      save.username = start.prefs.username ∧
      save.chatId = chatId ∧
      save.messages =
        start.viewModel.conversation start.viewModel.messages ++
          [⟨userText, 0⟩,
            ⟨((finish.solo generation).reply toLowerCase).content, 1⟩]

/-- The conversation while the question asked in `start` is being answered. -/
structure Conversing
    (start : App)
    (userText : JString)
    (chatId : JInt)
    (app : App) : Prop where
  username : app.prefs.username = start.prefs.username
  messages : app.viewModel.messages = start.viewModel.messages
  listed : app.viewModel.listAt start.viewModel.messages =
    start.viewModel.listAt start.viewModel.messages ++
      [start.viewModel.nextMessage, start.viewModel.nextMessage + 1]
  chat : (app.viewModel.generationAt
    start.viewModel.nextGeneration).chatId = chatId
  message : (app.viewModel.generationAt
    start.viewModel.nextGeneration).aiMsgObject =
      start.viewModel.nextMessage + 1
  limit : (app.viewModel.generationAt
    start.viewModel.nextGeneration).maxTokens = start.prefs.maxResponseTokens
  earlier : ∀ message < start.viewModel.nextMessage,
    app.viewModel.messageAt message = start.viewModel.messageAt message
  question : app.viewModel.messageAt start.viewModel.nextMessage = ⟨userText, 0⟩
  answer : (app.viewModel.messageAt
    (start.viewModel.nextMessage + 1)).sender = 1
  saved : ∀ save ∈ app.saves,
    save.generation = start.viewModel.nextGeneration →
      save.username = start.prefs.username ∧
      save.chatId = chatId ∧
      save.messages =
        start.viewModel.conversation start.viewModel.messages ++
          [⟨userText, 0⟩, ⟨save.reply, 1⟩]

namespace Conversing

/-- Contents of the list while the question is being answered. -/
theorem conversation
    (wellFormed : start.WellFormed)
    (conversing : Conversing start userText chatId app) :
    app.viewModel.conversation start.viewModel.messages =
      start.viewModel.conversation start.viewModel.messages ++
        [⟨userText, 0⟩,
          ⟨(app.viewModel.messageAt
            (start.viewModel.nextMessage + 1)).content, 1⟩] := by
  unfold ViewModel.conversation
  rw [conversing.listed, List.map_append]
  congr 1
  · apply List.map_congr_left
    intro message present
    exact conversing.earlier message
      (wellFormed.listed start.viewModel.messages message present)
  · simp only [List.map_cons, List.map_nil, conversing.question]
    rw [← conversing.answer]

/-- Writing back the generation keeps the conversation. -/
theorem setGeneration
    (conversing : Conversing start userText chatId app)
    (generation : Generation)
    (sameChat : generation.chatId = (app.viewModel.generationAt
      start.viewModel.nextGeneration).chatId)
    (sameMessage : generation.aiMsgObject = (app.viewModel.generationAt
      start.viewModel.nextGeneration).aiMsgObject)
    (sameLimit : generation.maxTokens = (app.viewModel.generationAt
      start.viewModel.nextGeneration).maxTokens) :
    Conversing start userText chatId (app.withViewModel
      (app.viewModel.setGeneration start.viewModel.nextGeneration
        generation)) := by
  have written : (app.viewModel.setGeneration start.viewModel.nextGeneration
      generation).generationAt start.viewModel.nextGeneration = generation :=
    Function.update_self _ _ _
  refine
    { conversing with
      chat := ?_
      message := ?_
      limit := ?_ }
  · exact (congrArg Generation.chatId written).trans
      (sameChat.trans conversing.chat)
  · exact (congrArg Generation.aiMsgObject written).trans
      (sameMessage.trans conversing.message)
  · exact (congrArg Generation.maxTokens written).trans
      (sameLimit.trans conversing.limit)

/-- Setting the content of the answer keeps the conversation. -/
theorem setContent
    (conversing : Conversing start userText chatId app)
    (content : JString) :
    Conversing start userText chatId (app.withViewModel
      (app.viewModel.setContent (start.viewModel.nextMessage + 1)
        content)) := by
  have other (message : Nat)
      (different : message ≠ start.viewModel.nextMessage + 1) :
      (app.viewModel.setContent (start.viewModel.nextMessage + 1)
        content).messageAt message = app.viewModel.messageAt message :=
    Function.update_of_ne different _ _
  refine
    { conversing with
      earlier := fun message before => ?_
      question := ?_
      answer := ?_ }
  · exact (other message (by omega)).trans (conversing.earlier message before)
  · exact (other _ (by omega)).trans conversing.question
  · have written : (app.viewModel.setContent (start.viewModel.nextMessage + 1)
        content).messageAt (start.viewModel.nextMessage + 1) =
        { app.viewModel.messageAt (start.viewModel.nextMessage + 1) with
          content := content } := Function.update_self _ _ _
    exact (congrArg Message.sender written).trans conversing.answer

/-- Finalizing hands the conversation with the answer to the store. -/
theorem finalizeGeneration
    (wellFormed : start.WellFormed)
    (conversing : Conversing start userText chatId app) :
    Conversing start userText chatId
      (app.finalizeGeneration start.viewModel.nextGeneration) := by
  refine { conversing with saved := fun save present own => ?_ }
  rcases List.mem_append.mp present with earlier | new
  · exact conversing.saved save earlier own
  · rw [List.mem_singleton.mp new]
    refine ⟨conversing.username, conversing.chat, ?_⟩
    dsimp only
    rw [conversing.messages, conversing.message]
    exact conversing.conversation wellFormed

/-- The runnable of a token keeps the conversation. -/
theorem runToken
    (wellFormed : start.WellFormed)
    (conversing : Conversing start userText chatId app)
    (token : JString) :
    Conversing start userText chatId
      (app.runToken toLowerCase start.viewModel.nextGeneration token) := by
  have counted : Conversing start userText chatId (app.withViewModel
      (app.viewModel.countToken start.viewModel.nextGeneration)) :=
    conversing.setGeneration _ rfl rfl rfl
  have stopped : Conversing start userText chatId (app.withViewModel
      (app.viewModel.countToken start.viewModel.nextGeneration).stop) :=
    { counted with }
  have appended : Conversing start userText chatId (app.withViewModel
      ((app.viewModel.countToken start.viewModel.nextGeneration).appendToken
        token)) :=
    { counted with }
  rw [runToken_eq, conversing.message]
  split
  · exact stopped.finalizeGeneration wellFormed
  · exact (stopped.setContent _).finalizeGeneration wellFormed
  · exact { stopped with }
  · exact appended.setContent _

/-- The events of the stream keep the conversation. -/
theorem step
    {event : Event}
    (wellFormed : start.WellFormed)
    (conversing : Conversing start userText chatId app)
    (exclusive : app.Exclusive start.viewModel.nextGeneration)
    (stream : event.solo.isSome)
    (fired : app.step toLowerCase event = some next) :
    Conversing start userText chatId next := by
  have own := exclusive.generation stream fired
  obtain ⟨_, fires⟩ := fires_of_step fired
  cases fires with
  | saveSettings | loadChats | loadMessages | createNewChat | deleteChat
  | sendMessage => cases stream
  | deliver index token started streaming free =>
      cases own
      exact conversing.setGeneration _ rfl rfl rfl
  | post index token holds =>
      cases own
      have written := conversing.setGeneration
        { app.viewModel.generationAt start.viewModel.nextGeneration with
          posting := none } rfl rfl rfl
      exact { written with }
  | endStream index streaming free =>
      cases own
      exact conversing.setGeneration _ rfl rfl rfl
  | runPosted index token rest queued =>
      simp only [Event.generation, queued, List.head?_cons, Option.map_some,
        Option.some.injEq] at own
      subst own
      have popped : Conversing start userText chatId (app.withViewModel
          { app.viewModel with posted := rest }) :=
        { conversing with }
      exact popped.runToken wellFormed token

/-- The conversation right after the question was asked. -/
theorem sendMessage
    (wellFormed : start.WellFormed) :
    Conversing start userText chatId (start.withViewModel
      (start.viewModel.sendMessage start.prefs userText chatId)) := by
  have started := sendMessage_generationAt_new start userText chatId
  have message := sendMessage_messageAt start userText chatId
  exact
    { username := rfl
      messages := rfl
      listed := Function.update_self _ _ _
      chat := congrArg Generation.chatId started
      message := congrArg Generation.aiMsgObject started
      limit := congrArg Generation.maxTokens started
      earlier := fun index before => (message index).trans (by
        rw [if_neg (by omega), if_neg (by omega)])
      question := (message _).trans (by
        rw [if_neg (by omega), if_pos rfl])
      answer := (congrArg Message.sender (message _)).trans (by
        rw [if_pos rfl])
      saved := fun save present own => by
        have := wellFormed.saved save present
        omega }

end Conversing

/-- What holds from the question on, while only its stream goes on. -/
structure Generating
    (toLowerCase : JString → JString)
    (start : App)
    (userText : JString)
    (chatId : JInt)
    (app : App) : Prop where
  wellFormed : app.WellFormed
  exclusive : app.Exclusive start.viewModel.nextGeneration
  conversing : Conversing start userText chatId app
  phase : (app.solo start.viewModel.nextGeneration).Phase toLowerCase True

/-- The question starts such a stretch. -/
theorem Generating.sendMessage
    (wellFormed : start.WellFormed)
    (idle : start.Idle)
    (alive : start.crashed = false) :
    Generating toLowerCase start userText chatId (start.withViewModel
      (start.viewModel.sendMessage start.prefs userText chatId)) := by
  refine ⟨wellFormed.sendMessage userText chatId,
    exclusive_sendMessage wellFormed idle userText chatId,
    Conversing.sendMessage wellFormed, ?_⟩
  rw [solo_sendMessage wellFormed, alive]
  exact Solo.phase_start _

/-- The events of the stream keep it. -/
theorem Generating.step
    {event : Event}
    (wellFormed : start.WellFormed)
    (generating : Generating toLowerCase start userText chatId app)
    (stream : event.solo.isSome)
    (fired : app.step toLowerCase event = some next) :
    Generating toLowerCase start userText chatId next := by
  obtain ⟨action, _, simulated⟩ :=
    solo_step_own (generating.exclusive.generation stream fired) fired
  exact
    { wellFormed := generating.wellFormed.step fired
      exclusive := generating.exclusive.step stream fired
      conversing := generating.conversing.step wellFormed generating.exclusive
        stream fired
      phase := Solo.phase_step (Or.inl trivial) generating.phase simulated }

/-- In an idle state the question has been answered exactly when the generation
on its own has been finalized with its reply. -/
theorem Generating.answered_iff
    (generating : Generating toLowerCase start userText chatId app) :
    Answered toLowerCase start app userText chatId ↔
      (app.solo start.viewModel.nextGeneration).isGenerating = false ∧
        ((app.solo start.viewModel.nextGeneration).reply toLowerCase).content ∈
          (app.solo start.viewModel.nextGeneration).finalizations := by
  refine and_congr_right fun _ => ?_
  constructor
  · rintro ⟨save, present, own, _, _, contents⟩
    have handed := (generating.conversing.saved save present own).2.2
    rw [contents] at handed
    have same := List.append_cancel_left handed
    simp only [List.cons.injEq, Message.mk.injEq, and_true, true_and] at same
    refine List.mem_map.mpr ⟨save, ?_, same.symm⟩
    simp [present, own]
  · intro final
    obtain ⟨save, present, reply⟩ := List.mem_map.mp final
    rw [List.mem_filter, beq_iff_eq] at present
    obtain ⟨username, chat, contents⟩ :=
      generating.conversing.saved save present.1 present.2
    exact ⟨save, present.1, present.2, username, chat, by rw [contents, reply]⟩

/-- An idle process has drained every generation. -/
theorem Idle.drained
    (idle : app.Idle)
    {index : Nat}
    (started : index < app.viewModel.nextGeneration) :
    (app.solo index).Drained :=
  ⟨(idle.2 index started).1, (idle.2 index started).2, by
    simp [App.solo, idle.1]⟩

theorem step_sendMessage
    (alive : start.crashed = false) :
    (machine toLowerCase).step start (.sendMessage userText chatId) =
      some (start.withViewModel
        (start.viewModel.sendMessage start.prefs userText chatId)) := by
  simp [machine, App.step, alive]

/-- A run that begins with a question goes on behind `sendMessage`. -/
theorem run_of_question
    {events : List Event}
    (ran : (machine toLowerCase).run start
      (.sendMessage userText chatId :: events) = some finish) :
    start.crashed = false ∧
      (machine toLowerCase).run
        (start.withViewModel
          (start.viewModel.sendMessage start.prefs userText chatId)) events =
        some finish := by
  obtain ⟨asked, fired, rest⟩ := Transition.Machine.exists_step_of_run_cons ran
  have alive : start.crashed = false := by
    by_contra dead
    simp [machine, App.step, dead] at fired
  rw [step_sendMessage alive, Option.some.injEq] at fired
  rw [fired]
  exact ⟨alive, rest⟩

/-- Once the stream of a question has ended and its runnables have run, the
question has been answered exactly when some token ended the generation: the
first token that is beyond the limit or completes a stop string does not make
`substring` throw. -/
theorem answered_iff_endsProperly
    {prefs : Prefs}
    {files : UserFiles}
    {before events : List Event}
    (reached : (machine toLowerCase).run { prefs := prefs, files := files }
      before = some start)
    (idle : start.Idle)
    (stream : ∀ event ∈ events, event.solo.isSome)
    (ran : (machine toLowerCase).run start
      (.sendMessage userText chatId :: events) = some finish)
    (drained : finish.Idle) :
    Answered toLowerCase start finish userText chatId ↔
      EndsProperly toLowerCase start.prefs.maxResponseTokens 0 []
        (finish.viewModel.generationAt
          start.viewModel.nextGeneration).delivered := by
  have wellFormed := wellFormed_of_run reached
  obtain ⟨alive, rest⟩ := run_of_question ran
  have streams : (machine toLowerCase).Guarded
      (fun _ event => event.solo.isSome)
      (start.withViewModel
        (start.viewModel.sendMessage start.prefs userText chatId)) events :=
    Transition.Machine.guarded_of_forall stream
  have generating : Generating toLowerCase start userText chatId finish :=
    Transition.Machine.guarded_invariant
      (fun _ _ _ holds event => Generating.step wellFormed holds event)
      rest streams (Generating.sendMessage wellFormed idle alive)
  have limit := generating.conversing.limit
  have latest : start.viewModel.nextGeneration <
      finish.viewModel.nextGeneration := by
    rw [generating.exclusive.latest]
    omega
  rw [generating.answered_iff,
    Solo.finalized_iff_of_drained generating.phase (drained.drained latest),
    Solo.reply, replyOf, ending_eq_finalized_iff, ← limit]
  rfl

/-- A reply cut before `###` is answered. -/
theorem answered_of_stop_token :
    ∃ finish, (machine toLowerCaseAscii).run {}
        [.sendMessage (jstr "hi") 1, .deliver 0 (jstr "ok###"), .post 0,
          .runPosted, .endStream 0] = some finish ∧
      Answered toLowerCaseAscii {} finish (jstr "hi") 1 := by
  obtain ⟨finish, ran, seen⟩ := Option.map_eq_some_iff.mp
    (show ((machine toLowerCaseAscii).run {}
        [.sendMessage (jstr "hi") 1, .deliver 0 (jstr "ok###"), .post 0,
          .runPosted, .endStream 0]).map
        (fun app => (decide app.Idle,
          (app.viewModel.generationAt 0).delivered)) =
      some (true, [jstr "ok###"]) by decide +kernel)
  obtain ⟨drained, tokens⟩ := Prod.mk.inj seen
  have reached : (machine toLowerCaseAscii).run {} [] = some {} := rfl
  refine ⟨finish, ran, (answered_iff_endsProperly reached (by decide)
    (by decide) ran (of_decide_eq_true drained)).mpr ?_⟩
  change EndsProperly _ _ _ _ (finish.viewModel.generationAt 0).delivered
  rw [tokens]
  exact ⟨0, by decide, by simp, Or.inr ⟨2, by decide, by decide⟩⟩

/-- A reply of one token and no stop string: nothing is left to happen, Send
stays disabled and nothing has been saved. -/
theorem not_answered_of_short_reply :
    ∃ finish, (machine toLowerCaseAscii).run {}
        [.sendMessage (jstr "hi") 1, .deliver 0 (jstr "ok"), .post 0,
          .runPosted, .endStream 0] = some finish ∧
      finish.Idle ∧
      finish.viewModel.isGenerating = true ∧
      finish.saves = [] ∧
      ¬Answered toLowerCaseAscii {} finish (jstr "hi") 1 := by
  obtain ⟨finish, ran, seen⟩ := Option.map_eq_some_iff.mp
    (show ((machine toLowerCaseAscii).run {}
        [.sendMessage (jstr "hi") 1, .deliver 0 (jstr "ok"), .post 0,
          .runPosted, .endStream 0]).map
        (fun app => (decide app.Idle, app.viewModel.isGenerating, app.saves)) =
      some (true, true, []) by decide +kernel)
  obtain ⟨idle, seen⟩ := Prod.mk.inj seen
  obtain ⟨generating, unsaved⟩ := Prod.mk.inj seen
  refine ⟨finish, ran, of_decide_eq_true idle, generating, unsaved, ?_⟩
  rintro ⟨stopped, _⟩
  rw [generating] at stopped
  cases stopped

end App
end Chat
end IdoProject
