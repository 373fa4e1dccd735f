import IdoProject.Chat.Refinement

/-!
# Generations side by side

The buffer, the stop flag and the generating flag belong to the latest
generation, while the AI message, the limit and the count are captured by each
one.  Stopping a generation does not end its flow, so a new question may be
asked while tokens of the old one still arrive.
-/

namespace IdoProject
namespace Chat

open Java Store

namespace App

variable {toLowerCase : JString → JString}
variable {app next : App}
variable {event : Event}

/-- The next question is asked once the generating flag is cleared. -/
def Sequential (app : App) : Event → Prop
  | .sendMessage _ _ => app.viewModel.isGenerating = false
  | _ => True

/-- A token runnable runs while the latest generation is going and is one of
it; after a stop it is beyond the limit of its own generation. -/
def Timely (app : App) : Event → Prop
  | .runPosted =>
      ∀ entry ∈ app.viewModel.posted.head?,
        (entry.1 + 1 = app.viewModel.nextGeneration ∧
            app.viewModel.stopGeneration = false) ∨
          (app.viewModel.stopGeneration = true ∧
            (app.viewModel.generationAt entry.1).maxTokens ≤
              (app.viewModel.generationAt entry.1).tokenCount)
  | _ => True

instance (app : App) : (event : Event) → Decidable (app.Sequential event)
  | .sendMessage _ _ => inferInstanceAs (Decidable (_ = _))
  | .saveSettings _ | .loadChats | .loadMessages _ | .createNewChat
  | .deleteChat _ | .deliver _ _ | .post _ | .endStream _
  | .runPosted => inferInstanceAs (Decidable True)

instance (app : App) : (event : Event) → Decidable (app.Timely event)
  | .runPosted => inferInstanceAs (Decidable (∀ _ ∈ _, _ ∨ _))
  | .saveSettings _ | .loadChats | .loadMessages _ | .createNewChat
  | .deleteChat _ | .deliver _ _ | .post _ | .endStream _
  | .sendMessage _ _ => inferInstanceAs (Decidable True)

/-- What belongs to a generation alone is as it was. -/
structure Untouched (app next : App) (index : Nat) : Prop where
  maxTokens : (next.solo index).maxTokens = (app.solo index).maxTokens
  tokenCount : (next.solo index).tokenCount = (app.solo index).tokenCount
  delivered : (next.solo index).delivered = (app.solo index).delivered
  content : (next.solo index).content = (app.solo index).content
  saves : next.saves.filter (·.generation == index) =
    app.saves.filter (·.generation == index)

/-- The fields that the latest generation uses are as they were. -/
structure SharedUntouched (app next : App) : Prop where
  buffer : next.viewModel.fullResponseBuffer = app.viewModel.fullResponseBuffer
  stop : next.viewModel.stopGeneration = app.viewModel.stopGeneration
  generating : next.viewModel.isGenerating = app.viewModel.isGenerating

/-- A token event touches no generation but its own. -/
def Separate
    (toLowerCase : JString → JString)
    (app : App)
    (event : Event) : Prop :=
  ∀ index next, event.generation app = some index →
    app.step toLowerCase event = some next →
      ∀ other < app.viewModel.nextGeneration, other ≠ index →
        Untouched app next other ∧
          (other + 1 = app.viewModel.nextGeneration → SharedUntouched app next)

/-- Where nothing is left of a generation, the content of its AI message is the
reply to the tokens of its own flow. -/
def OwnReplies (toLowerCase : JString → JString) (app : App) : Prop :=
  ∀ index < app.viewModel.nextGeneration, (app.solo index).Drained →
    (app.solo index).content = ((app.solo index).reply toLowerCase).content

/-- Every generation but the latest has its final reply, and the latest one is
in one of the phases of a generation on its own. -/
structure Unmixed (toLowerCase : JString → JString) (app : App) : Prop where
  wellFormed : app.WellFormed
  earlier : ∀ index, index + 1 < app.viewModel.nextGeneration →
    (app.solo index).reply toLowerCase =
      ⟨(app.solo index).content, .finalized⟩
  latest : ∀ index, index + 1 = app.viewModel.nextGeneration →
    (app.solo index).Phase toLowerCase False

section Others

variable {index other : Nat}

/-- Writing back another generation. -/
theorem solo_setGeneration_other
    (app : App)
    (generation : Generation)
    (different : other ≠ index) :
    (app.withViewModel
        (app.viewModel.setGeneration index generation)).solo other =
      app.solo other := by
  have kept : (app.viewModel.setGeneration index generation).generationAt
      other = app.viewModel.generationAt other :=
    Function.update_of_ne different _ _
  unfold App.solo App.withViewModel
  rw [kept]
  rfl

/-- A new list in the live data leaves the generations alone. -/
theorem solo_replaceMessages
    (messages : List Message)
    (allocated : (app.viewModel.generationAt index).aiMsgObject <
      app.viewModel.nextMessage) :
    (app.withViewModel (app.viewModel.replaceMessages messages)).solo index =
      app.solo index := by
  unfold App.solo App.withViewModel ViewModel.replaceMessages
  simp only [if_pos allocated]

/-- A new question leaves what the earlier generations own as it was. -/
theorem solo_sendMessage_other
    (wellFormed : app.WellFormed)
    (started : other < app.viewModel.nextGeneration)
    (userText : JString)
    (chatId : JInt) :
    (app.withViewModel (app.viewModel.sendMessage app.prefs userText
        chatId)).solo other =
      { app.solo other with
        stopGeneration := false
        buffer := []
        isGenerating := true } := by
  have kept : (app.viewModel.sendMessage app.prefs userText
      chatId).generationAt other = app.viewModel.generationAt other :=
    Function.update_of_ne (Nat.ne_of_lt started) _ _
  have allocated := wellFormed.allocated other started
  unfold App.solo App.withViewModel
  rw [kept]
  simp only [ViewModel.sendMessage, Function.update_apply,
    if_neg (show (app.viewModel.generationAt other).aiMsgObject ≠
      app.viewModel.nextMessage + 1 by omega),
    if_neg (show (app.viewModel.generationAt other).aiMsgObject ≠
      app.viewModel.nextMessage by omega)]

/-- The runnable of a token leaves the other generations alone. -/
theorem untouched_runToken
    (toLowerCase : JString → JString)
    (wellFormed : app.WellFormed)
    (started : index < app.viewModel.nextGeneration)
    (otherStarted : other < app.viewModel.nextGeneration)
    (different : other ≠ index)
    (token : JString) :
    Untouched app (app.runToken toLowerCase index token) other := by
  have generation (changed : Generation) :
      Function.update app.viewModel.generationAt index changed other =
        app.viewModel.generationAt other :=
    Function.update_of_ne different _ _
  have message (content : Message) :
      Function.update app.viewModel.messageAt
          (app.viewModel.generationAt index).aiMsgObject content
          (app.viewModel.generationAt other).aiMsgObject =
        app.viewModel.messageAt (app.viewModel.generationAt other).aiMsgObject :=
    Function.update_of_ne
      (fun same => different
        (wellFormed.distinct other otherStarted index started same)) _ _
  have own : (index == other) = false := by
    simpa using Ne.symm different
  rw [runToken_eq]
  split <;> constructor <;>
    simp only [App.solo, App.finalizeGeneration, App.withViewModel, App.crash,
      ViewModel.countToken, ViewModel.setGeneration, ViewModel.setContent,
      ViewModel.stop, ViewModel.appendToken, generation, message,
      List.filter_append, List.filter_cons, own, List.filter_nil,
      List.append_nil, Bool.false_eq_true, if_false]

/-- After a stop, the runnable of a token beyond the limit of its own
generation clears the generating flag and does nothing else to the others. -/
theorem solo_runToken_other_of_limit
    (app : App)
    (different : other ≠ index)
    (beyond : (app.viewModel.generationAt index).maxTokens ≤
      (app.viewModel.generationAt index).tokenCount)
    (token : JString) :
    (app.runToken toLowerCase index token).solo other =
      { app.solo other with
        stopGeneration := true
        isGenerating := false } := by
  have decided : app.verdict toLowerCase index token = .limit :=
    judge_eq_limit_iff.mpr (Int.lt_add_one_of_le beyond)
  have counted : (app.withViewModel (app.viewModel.countToken index)).solo
      other = app.solo other :=
    solo_setGeneration_other app _ different
  have stopped : (app.withViewModel
      (app.viewModel.countToken index).stop).solo other =
        { (app.withViewModel (app.viewModel.countToken index)).solo other with
          stopGeneration := true } := rfl
  have own : (index == other) = false := by
    simpa using Ne.symm different
  have finalized (before : App) : (before.finalizeGeneration index).solo other =
      { before.solo other with isGenerating := false } := by
    simp [App.solo, App.finalizeGeneration, List.filter_append, own]
  rw [runToken_eq, decided]
  dsimp only
  rw [finalized, stopped, counted]

end Others

section Steps

variable {index other : Nat}

/-- Every event but a new question keeps the number of generations. -/
theorem step_nextGeneration
    (noSend : ∀ userText chatId, event ≠ .sendMessage userText chatId)
    (fired : app.step toLowerCase event = some next) :
    next.viewModel.nextGeneration = app.viewModel.nextGeneration := by
  obtain ⟨_, fires⟩ := fires_of_step fired
  cases fires with
  | sendMessage userText chatId => exact absurd rfl (noSend userText chatId)
  | runPosted index token rest queued => exact runToken_nextGeneration token
  | saveSettings | loadChats | loadMessages | createNewChat | deleteChat
  | deliver | post | endStream => rfl

/-- An event that is neither a new question nor a runnable leaves alone every
generation it is not one of. -/
theorem solo_step_other
    (wellFormed : app.WellFormed)
    (started : other < app.viewModel.nextGeneration)
    (foreign : event.generation app ≠ some other)
    (noSend : ∀ userText chatId, event ≠ .sendMessage userText chatId)
    (noRun : event ≠ .runPosted)
    (fired : app.step toLowerCase event = some next) :
    next.solo other = app.solo other := by
  have allocated := wellFormed.allocated other started
  obtain ⟨_, fires⟩ := fires_of_step fired
  cases fires with
  | saveSettings | loadChats | deleteChat => rfl
  | loadMessages chatId => exact solo_replaceMessages _ allocated
  | createNewChat => exact solo_replaceMessages [] allocated
  | sendMessage userText chatId => exact absurd rfl (noSend userText chatId)
  | deliver index token _ streaming free =>
      exact solo_setGeneration_other app _ fun same => foreign (same ▸ rfl)
  | post index token holds =>
      have different : other ≠ index := fun same => foreign (same ▸ rfl)
      have own : (index == other) = false := by
        simpa using Ne.symm different
      have posted : ∀ viewModel : ViewModel,
          viewModel.posted = app.viewModel.posted →
          (app.withViewModel { viewModel with
            posted := app.viewModel.posted ++ [(index, token)] }).solo other =
          (app.withViewModel viewModel).solo other := by
        intro viewModel same
        simp [App.solo, App.withViewModel, List.filter_append, own, same]
      refine (posted (app.viewModel.setGeneration index
        { app.viewModel.generationAt index with posting := none }) rfl).trans ?_
      exact solo_setGeneration_other app _ different
  | endStream index streaming free =>
      exact solo_setGeneration_other app _ fun same => foreign (same ▸ rfl)
  | runPosted => exact absurd rfl noRun

/-- A token event leaves alone what belongs to the other generations. -/
theorem untouched_step
    (wellFormed : app.WellFormed)
    (own : event.generation app = some index)
    (started : other < app.viewModel.nextGeneration)
    (different : other ≠ index)
    (fired : app.step toLowerCase event = some next) :
    Untouched app next other := by
  have foreign : event.generation app ≠ some other := by
    rw [own]
    simpa using Ne.symm different
  have noSend : ∀ userText chatId, event ≠ .sendMessage userText chatId := by
    rintro userText chatId rfl
    cases own
  by_cases run : event = .runPosted
  · subst run
    obtain ⟨_, fires⟩ := fires_of_step fired
    cases fires with
    | runPosted target token rest queued =>
        have equal : target = index := by
          simpa [Event.generation, queued] using own
        subst equal
        have popped : (app.withViewModel
            { app.viewModel with posted := rest }).WellFormed :=
          wellFormed.popped queued
        have ran := untouched_runToken toLowerCase popped
          (wellFormed.posted (target, token) (by rw [queued]; simp)) started
          different token
        exact ⟨ran.maxTokens, ran.tokenCount, ran.delivered, ran.content,
          ran.saves⟩
  · have same := solo_step_other wellFormed started foreign noSend run fired
    have unsaved : next.saves = app.saves := by
      obtain ⟨_, fires⟩ := fires_of_step fired
      cases fires <;> first | rfl | exact absurd rfl run
    refine ⟨?_, ?_, ?_, ?_, by rw [unsaved]⟩ <;> rw [same]

/-- A timely event is timely for the generation it is one of. -/
theorem Timely.solo
    {action : Solo.Event}
    (timely : app.Timely event)
    (own : event.generation app = some index)
    (seen : event.solo = some action) :
    (app.solo index).Timely action := by
  cases event with
  | runPosted =>
      cases seen
      intro stopped
      obtain ⟨entry, first, equal⟩ := Option.map_eq_some_iff.mp own
      rcases timely entry first with going | beyond
      · exact absurd stopped (by
          simp only [App.solo, going.2, Bool.false_eq_true, not_false_eq_true])
      · rw [← equal]
        exact beyond.2
  | saveSettings | loadChats | loadMessages | createNewChat | deleteChat
  | sendMessage => cases seen
  | deliver | post | endStream =>
      cases seen
      trivial

/-- The runnable of a token of an earlier generation runs after a stop, and
beyond the limit of its own generation. -/
theorem Timely.beyond
    (timely : app.Timely event)
    (own : event.generation app = some index)
    (earlier : index + 1 ≠ app.viewModel.nextGeneration)
    (run : event = .runPosted) :
    app.viewModel.stopGeneration = true ∧
      (app.viewModel.generationAt index).maxTokens ≤
        (app.viewModel.generationAt index).tokenCount := by
  subst run
  obtain ⟨entry, first, equal⟩ := Option.map_eq_some_iff.mp own
  subst equal
  exact (timely entry first).resolve_left fun going => earlier going.1

/-- A timely event of an earlier generation does nothing to the latest one. -/
theorem Unmixed.solo_latest
    (unmixed : Unmixed toLowerCase app)
    (timely : app.Timely event)
    (own : event.generation app = some index)
    (latest : other + 1 = app.viewModel.nextGeneration)
    (different : other ≠ index)
    (fired : app.step toLowerCase event = some next) :
    next.solo other = app.solo other := by
  have started : other < app.viewModel.nextGeneration := by omega
  by_cases run : event = .runPosted
  · obtain ⟨stopped, beyond⟩ := timely.beyond own (by omega) run
    subst run
    obtain ⟨alive, fires⟩ := fires_of_step fired
    have ended : app.viewModel.isGenerating = false :=
      Solo.ended_of_stopped (unmixed.latest other latest) stopped alive
    cases fires with
    | runPosted target token rest queued =>
        have equal : target = index := by
          simpa [Event.generation, queued] using own
        subst equal
        have popped : (app.withViewModel
            { app.viewModel with posted := rest }).solo other =
              app.solo other := by
          simp [App.solo, App.withViewModel, queued, Ne.symm different]
        rw [solo_runToken_other_of_limit _ different (by exact beyond), popped]
        simp [App.solo, stopped, ended]
  · refine solo_step_other unmixed.wellFormed started ?_ ?_ run fired
    · rw [own]
      simpa using Ne.symm different
    · rintro userText chatId rfl
      cases own

/-- A timely event touches no generation but its own. -/
theorem Unmixed.separate
    (unmixed : Unmixed toLowerCase app)
    (timely : app.Timely event) :
    Separate toLowerCase app event := by
  intro index next own fired other started different
  refine ⟨untouched_step unmixed.wellFormed own started different fired,
    fun latest => ?_⟩
  have same := unmixed.solo_latest timely own latest different fired
  exact
    { buffer := congrArg Solo.buffer same
      stop := congrArg Solo.stopGeneration same
      generating := congrArg Solo.isGenerating same }

/-- Where nothing is left of a generation, its content is its own reply. -/
theorem Unmixed.ownReplies
    (unmixed : Unmixed toLowerCase app) :
    OwnReplies toLowerCase app := by
  intro index started drained
  by_cases latest : index + 1 = app.viewModel.nextGeneration
  · exact Solo.content_of_unqueued (unmixed.latest index latest) drained.2.2
      drained.2.1
  · rw [unmixed.earlier index (by omega)]

/-- A reply that belongs to an untouched generation. -/
theorem Untouched.reply
    (untouched : Untouched app next index) :
    (next.solo index).reply toLowerCase = (app.solo index).reply toLowerCase := by
  unfold Solo.reply
  rw [untouched.maxTokens, untouched.delivered]

/-- A new question asked after the generating flag was cleared. -/
theorem Unmixed.sendMessage
    (unmixed : Unmixed toLowerCase app)
    (ended : app.viewModel.isGenerating = false)
    (alive : app.crashed = false)
    (userText : JString)
    (chatId : JInt) :
    Unmixed toLowerCase (app.withViewModel (app.viewModel.sendMessage app.prefs
      userText chatId)) := by
  refine ⟨unmixed.wellFormed.sendMessage userText chatId,
    fun index earlier => ?_, fun index latest => ?_⟩
  · replace earlier : index + 1 < app.viewModel.nextGeneration + 1 := earlier
    have settled : (app.solo index).reply toLowerCase =
        ⟨(app.solo index).content, .finalized⟩ := by
      by_cases last : index + 1 = app.viewModel.nextGeneration
      · exact Solo.settled_of_phase (unmixed.latest index last) ended
      · exact unmixed.earlier index (by omega)
    rw [solo_sendMessage_other unmixed.wellFormed (by omega)]
    exact settled
  · replace latest : index + 1 = app.viewModel.nextGeneration + 1 := latest
    have newest : index = app.viewModel.nextGeneration := by omega
    rw [newest, solo_sendMessage unmixed.wellFormed, alive]
    exact Solo.phase_start _

/-- Sequential and timely events keep the generations apart. -/
theorem Unmixed.step
    (unmixed : Unmixed toLowerCase app)
    (sequential : app.Sequential event)
    (timely : app.Timely event)
    (fired : app.step toLowerCase event = some next) :
    Unmixed toLowerCase next := by
  have alive := (fires_of_step fired).1
  by_cases send : ∃ userText chatId, event = .sendMessage userText chatId
  · obtain ⟨userText, chatId, rfl⟩ := send
    obtain ⟨_, fires⟩ := fires_of_step fired
    cases fires
    exact unmixed.sendMessage sequential alive userText chatId
  have noSend : ∀ userText chatId, event ≠ .sendMessage userText chatId :=
    fun userText chatId equal => send ⟨userText, chatId, equal⟩
  have count := step_nextGeneration noSend fired
  cases own : event.generation app with
  | none =>
      have noRun : event ≠ .runPosted := by
        rintro rfl
        obtain ⟨_, fires⟩ := fires_of_step fired
        cases fires with
        | runPosted target token rest queued =>
            simp [Event.generation, queued] at own
      have same (index : Nat) (started : index < app.viewModel.nextGeneration) :
          next.solo index = app.solo index :=
        solo_step_other unmixed.wellFormed started (by rw [own]; simp) noSend
          noRun fired
      refine ⟨unmixed.wellFormed.step fired, fun index earlier => ?_,
        fun index latest => ?_⟩
      · rw [same index (by omega)]
        exact unmixed.earlier index (by omega)
      · rw [same index (by omega)]
        exact unmixed.latest index (by omega)
  | some token =>
      obtain ⟨action, seen, simulated⟩ := solo_step_own own fired
      refine ⟨unmixed.wellFormed.step fired, fun index earlier => ?_,
        fun index latest => ?_⟩
      · have settled := unmixed.earlier index (by omega)
        by_cases equal : index = token
        · subst equal
          refine Solo.settled_step settled (fun run => ?_) simulated
          have posted : event = .runPosted := by
            subst run
            cases event <;> first | rfl | cases seen
          exact (timely.beyond own (by omega) posted).2
        · have untouched := untouched_step unmixed.wellFormed own (by omega)
            equal fired
          rw [untouched.reply, untouched.content]
          exact settled
      · by_cases equal : index = token
        · subst equal
          exact Solo.phase_step (Or.inr (timely.solo own seen))
            (unmixed.latest index (by omega)) simulated
        · rw [unmixed.solo_latest timely own (by omega) equal fired]
          exact unmixed.latest index (by omega)

/-- A view model that has just been created. -/
theorem unmixed_launch
    (prefs : Prefs)
    (files : UserFiles) :
    Unmixed toLowerCase { prefs := prefs, files := files } :=
  ⟨wellFormed_launch prefs files, by simp, by simp⟩

/-- In every run of timely events, with each question asked after the generating
flag was cleared, every token event touches its own generation only, and in
every state the content of a generation of which nothing is left is the reply
to its own tokens. -/
theorem generations_separate
    {prefs : Prefs}
    {files : UserFiles}
    {events : List Event}
    (guarded : (machine toLowerCase).Guarded
      (fun app event => app.Sequential event ∧ app.Timely event)
      { prefs := prefs, files := files } events) :
    (machine toLowerCase).Guarded (Separate toLowerCase)
        { prefs := prefs, files := files } events ∧
      (machine toLowerCase).Always (OwnReplies toLowerCase)
        { prefs := prefs, files := files } events := by
  have launched : Unmixed toLowerCase { prefs := prefs, files := files } :=
    unmixed_launch prefs files
  have kept : ∀ app event next, Unmixed toLowerCase app →
      app.Sequential event ∧ app.Timely event →
        (machine toLowerCase).step app event = some next →
          Unmixed toLowerCase next :=
    fun _ _ _ unmixed meets fired => unmixed.step meets.1 meets.2 fired
  constructor
  · exact Transition.Machine.guarded_mono kept
      (fun _ _ unmixed meets => unmixed.separate meets.2) guarded launched
  · exact Transition.Machine.always_of_guarded kept
      (fun _ unmixed => unmixed.ownReplies) guarded launched

/-- The flow of the first question ends before the second one is asked. -/
theorem ownReplies_of_questions_in_turn :
    (machine toLowerCaseAscii).Always (OwnReplies toLowerCaseAscii) {}
      [.sendMessage (jstr "a") 1, .deliver 0 (jstr "x###"), .post 0, .runPosted,
        .deliver 0 (jstr "y"), .endStream 0, .sendMessage (jstr "b") 1,
        .deliver 1 (jstr "new"), .post 1, .runPosted, .endStream 1] :=
  (generations_separate (by decide +kernel)).2

/-- Two questions, the second asked while the flow of the first goes on. -/
def overlappingQuestions : List Event :=
  [.sendMessage (jstr "a") 1, .deliver 0 (jstr "x###"), .post 0, .runPosted,
    .sendMessage (jstr "b") 1, .deliver 0 (jstr "old"), .post 0, .runPosted,
    .endStream 0, .deliver 1 (jstr "new"), .post 1, .runPosted, .endStream 1]

/-- The second reply opens with the token of the first question. -/
theorem not_ownReplies_of_overlap :
    (machine toLowerCaseAscii).Guarded Sequential {} overlappingQuestions ∧
      ∃ finish, (machine toLowerCaseAscii).run {} overlappingQuestions =
          some finish ∧
        (finish.solo 1).delivered = [jstr "new"] ∧
        (finish.solo 1).content = jstr "oldnew" ∧
        ¬OwnReplies toLowerCaseAscii finish := by
  refine ⟨by decide +kernel, ?_⟩
  obtain ⟨finish, ran, seen⟩ := Option.map_eq_some_iff.mp
    (show ((machine toLowerCaseAscii).run {} overlappingQuestions).map
        (fun app => (app.viewModel.nextGeneration, app.solo 1)) =
      some (2,
        { maxTokens := 256
          tokenCount := 1
          buffer := jstr "oldnew"
          content := jstr "oldnew"
          streaming := false
          delivered := [jstr "new"] }) by decide +kernel)
  obtain ⟨count, alone⟩ := Prod.mk.inj seen
  refine ⟨finish, ran, by rw [alone], by rw [alone], fun own => ?_⟩
  have same := own 1 (by omega) (by rw [alone]; exact ⟨rfl, rfl, rfl⟩)
  rw [alone] at same
  exact absurd same (by decide +kernel)

end Steps

end App
end Chat
end IdoProject
