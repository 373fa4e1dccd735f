import IdoProject.Chat.WellFormed
import IdoProject.Chat.Solo

/-!
# The view model refines the generation on its own

Seen from one generation, with the fields that all generations share taken as
its own, a token event of that generation is a step of the generation on its
own.  While it is the only one whose flow or runnables are left, there are no
other token events.
-/

namespace IdoProject
namespace Chat

open Java Store

/-- The generation that a token event belongs to. -/
def App.Event.generation (app : App) : App.Event → Option Nat
  | .deliver index _ => some index
  | .post index => some index
  | .endStream index => some index
  | .runPosted => app.viewModel.posted.head?.map Prod.fst
  | _ => none

/-- The event as the generation sees it. -/
def App.Event.solo : App.Event → Option Solo.Event
  | .deliver _ token => some (.deliver token)
  | .post _ => some .post
  | .endStream _ => some .endStream
  | .runPosted => some .run
  | _ => none

namespace App

/-- One generation with the shared fields as its own. -/
def solo (app : App) (index : Nat) : Solo :=
  let generation := app.viewModel.generationAt index
  { maxTokens := generation.maxTokens
    tokenCount := generation.tokenCount
    stopGeneration := app.viewModel.stopGeneration
    buffer := app.viewModel.fullResponseBuffer
    content := (app.viewModel.messageAt generation.aiMsgObject).content
    queue := (app.viewModel.posted.filter (·.1 == index)).map Prod.snd
    posting := generation.posting
    streaming := generation.streaming
    delivered := generation.delivered
    finalizations :=
      (app.saves.filter (·.generation == index)).map Save.reply
    isGenerating := app.viewModel.isGenerating
    crashed := app.crashed }

/-- Flow and callback of a generation have ended. -/
def Silent (app : App) (index : Nat) : Prop :=
  (app.viewModel.generationAt index).streaming = false ∧
    (app.viewModel.generationAt index).posting = none

/-- Every flow has ended and every posted runnable has run. -/
def Idle (app : App) : Prop :=
  app.viewModel.posted = [] ∧
    ∀ index < app.viewModel.nextGeneration, app.Silent index

instance (app : App) (index : Nat) : Decidable (app.Silent index) :=
  inferInstanceAs (Decidable (_ ∧ _))

instance (app : App) : Decidable app.Idle :=
  inferInstanceAs (Decidable (_ ∧ _))

/-- The latest generation is the only one that is left. -/
structure Exclusive (app : App) (index : Nat) : Prop where
  latest : app.viewModel.nextGeneration = index + 1
  own : ∀ entry ∈ app.viewModel.posted, entry.1 = index
  others : ∀ other, other ≠ index → app.Silent other

section Simulation

variable {toLowerCase : JString → JString}
variable {app next : App}
variable {index : Nat}

/-- The runnable of a token posts nothing. -/
theorem runToken_posted_subset
    {token : JString} :
    ∀ entry ∈ (app.runToken toLowerCase index token).viewModel.posted,
      entry ∈ app.viewModel.posted := by
  intro entry present
  rw [runToken_eq] at present
  split at present
  · exact present
  · exact present
  · exact absurd present List.not_mem_nil
  · exact present

/-- Writing back one generation leaves the others silent. -/
theorem silent_setGeneration
    (generation : Generation)
    {other : Nat}
    (different : other ≠ index)
    (silent : app.Silent other) :
    (app.withViewModel
      (app.viewModel.setGeneration index generation)).Silent other := by
  have kept : (app.viewModel.setGeneration index generation).generationAt
      other = app.viewModel.generationAt other :=
    Function.update_of_ne different _ _
  unfold App.Silent App.withViewModel
  rw [kept]
  exact silent

/-- The runnable of a token leaves the other generations silent. -/
theorem silent_runToken
    {token : JString}
    {other : Nat}
    (different : other ≠ index)
    (silent : app.Silent other) :
    (app.runToken toLowerCase index token).Silent other := by
  have counted : (app.withViewModel
      (app.viewModel.countToken index)).Silent other :=
    silent_setGeneration _ different silent
  rw [runToken_eq]
  split
  · exact counted
  · exact counted
  · exact ⟨rfl, rfl⟩
  · exact counted

/-- Finalizing, seen from the generation. -/
theorem solo_finalizeGeneration :
    (app.finalizeGeneration index).solo index =
      { app.solo index with
        isGenerating := false
        finalizations :=
          (app.solo index).finalizations ++ [(app.solo index).content] } := by
  simp [App.solo, App.finalizeGeneration, List.filter_append]

/-- Writing back the generation itself. -/
theorem solo_setGeneration
    (app : App)
    (index : Nat)
    (generation : Generation)
    (kept : generation.aiMsgObject =
      (app.viewModel.generationAt index).aiMsgObject) :
    (app.withViewModel
        (app.viewModel.setGeneration index generation)).solo index =
      { app.solo index with
        maxTokens := generation.maxTokens
        tokenCount := generation.tokenCount
        posting := generation.posting
        streaming := generation.streaming
        delivered := generation.delivered } := by
  simp [App.solo, App.withViewModel, ViewModel.setGeneration, kept]

/-- Counting a token, seen from the generation. -/
theorem solo_countToken
    (app : App)
    (index : Nat) :
    (app.withViewModel (app.viewModel.countToken index)).solo index =
      { app.solo index with
        tokenCount := (app.solo index).tokenCount + 1 } :=
  solo_setGeneration app index _ rfl

/-- Setting the content of the AI message of a generation that has counted a
token, seen from the generation. -/
theorem solo_setContent
    (viewModel : ViewModel)
    (content : JString)
    (message : (viewModel.generationAt index).aiMsgObject =
      (app.viewModel.generationAt index).aiMsgObject) :
    (app.withViewModel (viewModel.setContent
        (app.viewModel.generationAt index).aiMsgObject content)).solo index =
      { (app.withViewModel viewModel).solo index with content := content } := by
  simp [App.solo, App.withViewModel, ViewModel.setContent, message]

/-- The runnable of a token does to the view model what the generation on its
own does. -/
theorem solo_runToken
    (token : JString) :
    (app.runToken toLowerCase index token).solo index =
      (app.solo index).runToken toLowerCase token := by
  have counted := solo_countToken app index
  have stopped :
      (app.withViewModel (app.viewModel.countToken index).stop).solo index =
        { (app.withViewModel (app.viewModel.countToken index)).solo index with
          stopGeneration := true } := rfl
  have message :
      ((app.viewModel.countToken index).generationAt index).aiMsgObject =
        (app.viewModel.generationAt index).aiMsgObject := by
    rw [countToken_generationAt_self]
  rw [counted] at stopped
  rw [runToken_eq]
  unfold Solo.runToken
  dsimp only
  rw [show judge toLowerCase (app.solo index).maxTokens
      ((app.solo index).tokenCount + 1) ((app.solo index).buffer ++ token) =
    app.verdict toLowerCase index token from rfl]
  cases app.verdict toLowerCase index token with
  | limit =>
      dsimp only
      rw [solo_finalizeGeneration, stopped]
  | cut cleaned =>
      dsimp only
      rw [solo_finalizeGeneration,
        solo_setContent (app.viewModel.countToken index).stop
          cleaned message, stopped]
  | outOfBounds =>
      have dead : (app.withViewModel
          (app.viewModel.countToken index).stop).crash.solo index =
        { (app.withViewModel (app.viewModel.countToken index).stop).solo index
            with
          queue := []
          posting := none
          streaming := false
          crashed := true } := rfl
      dsimp only
      rw [dead, stopped]
  | extend =>
      have appended :
          (app.withViewModel
            ((app.viewModel.countToken index).appendToken token)).solo index =
          { (app.withViewModel (app.viewModel.countToken index)).solo index with
            buffer := (app.solo index).buffer ++ token } := rfl
      dsimp only
      rw [solo_setContent
        ((app.viewModel.countToken index).appendToken token)
          _ message, appended, counted]
      rfl

/-- A token event of a generation is an event of the generation on its own. -/
theorem solo_step_own
    {event : Event}
    (own : event.generation app = some index)
    (fired : app.step toLowerCase event = some next) :
    ∃ action, event.solo = some action ∧
      (app.solo index).step toLowerCase action = some (next.solo index) := by
  obtain ⟨living, fires⟩ := fires_of_step fired
  have alive : ¬(app.solo index).crashed = true := by simp [App.solo, living]
  cases fires with
  | saveSettings | loadChats | loadMessages | createNewChat | deleteChat
  | sendMessage => cases own
  | deliver _ token started streaming free =>
      cases own
      refine ⟨.deliver token, rfl, ?_⟩
      dsimp only [Solo.step]
      rw [if_neg alive, if_pos (by exact ⟨streaming, free⟩)]
      refine congrArg some (Eq.symm ?_)
      exact solo_setGeneration app index _ rfl
  | post _ token holds =>
      cases own
      have written := solo_setGeneration app index
        { app.viewModel.generationAt index with posting := none } rfl
      have posted : ∀ viewModel : ViewModel,
          (app.withViewModel { viewModel with
            posted := app.viewModel.posted ++ [(index, token)] }).solo index =
          { (app.withViewModel viewModel).solo index with
            queue := (app.solo index).queue ++ [token] } := by
        intro viewModel
        simp [App.solo, App.withViewModel, List.filter_append]
      refine ⟨.post, rfl, ?_⟩
      dsimp only [Solo.step]
      rw [if_neg alive, show (app.solo index).posting = some token from holds]
      dsimp only
      rw [posted, written]
      rfl
  | endStream _ streaming free =>
      cases own
      refine ⟨.endStream, rfl, ?_⟩
      dsimp only [Solo.step]
      rw [if_neg alive, if_pos (by exact ⟨streaming, free⟩)]
      refine congrArg some (Eq.symm ?_)
      exact solo_setGeneration app index _ rfl
  | runPosted target token rest queued =>
      simp only [Event.generation, queued, List.head?_cons, Option.map_some,
        Option.some.injEq] at own
      subst own
      have popped : (app.withViewModel
          { app.viewModel with posted := rest }).solo target =
        { app.solo target with
          queue := (rest.filter (·.1 == target)).map Prod.snd } := rfl
      refine ⟨.run, rfl, ?_⟩
      dsimp only [Solo.step]
      rw [if_neg alive, solo_runToken, popped]
      rw [show (app.solo target).queue =
          token :: (rest.filter (·.1 == target)).map Prod.snd by
        simp [App.solo, queued]]

/-- A token event of the only generation that is left. -/
theorem Exclusive.generation
    {event : Event}
    (exclusive : app.Exclusive index)
    (stream : event.solo.isSome)
    (fired : app.step toLowerCase event = some next) :
    event.generation app = some index := by
  obtain ⟨_, fires⟩ := fires_of_step fired
  cases fires with
  | saveSettings | loadChats | loadMessages | createNewChat | deleteChat
  | sendMessage => cases stream
  | deliver target token started streaming free =>
      by_contra different
      have silent := exclusive.others target fun equal =>
        different (congrArg some equal)
      rw [silent.1] at streaming
      cases streaming
  | post target token holds =>
      by_contra different
      have silent := exclusive.others target fun equal =>
        different (congrArg some equal)
      rw [silent.2] at holds
      cases holds
  | endStream target streaming free =>
      by_contra different
      have silent := exclusive.others target fun equal =>
        different (congrArg some equal)
      rw [silent.1] at streaming
      cases streaming
  | runPosted target token rest queued =>
      have equal : target = index :=
        exclusive.own (target, token) (by rw [queued]; simp)
      simp [Event.generation, queued, equal]

/-- The events of the stream keep the generation the only one. -/
theorem Exclusive.step
    {event : Event}
    (exclusive : app.Exclusive index)
    (stream : event.solo.isSome)
    (fired : app.step toLowerCase event = some next) :
    next.Exclusive index := by
  have own := exclusive.generation stream fired
  obtain ⟨_, fires⟩ := fires_of_step fired
  cases fires with
  | saveSettings | loadChats | loadMessages | createNewChat | deleteChat
  | sendMessage => cases stream
  | deliver _ token started streaming free =>
      cases own
      exact ⟨exclusive.latest, exclusive.own, fun other different =>
        silent_setGeneration _ different (exclusive.others other different)⟩
  | post _ token holds =>
      cases own
      refine ⟨exclusive.latest, fun entry present => ?_,
        fun other different => ?_⟩
      · rcases List.mem_append.mp present with old | new
        · exact exclusive.own entry old
        · rw [List.mem_singleton.mp new]
      · exact silent_setGeneration _ different
          (exclusive.others other different)
  | endStream _ streaming free =>
      cases own
      exact ⟨exclusive.latest, exclusive.own, fun other different =>
        silent_setGeneration _ different (exclusive.others other different)⟩
  | runPosted target token rest queued =>
      simp only [Event.generation, queued, List.head?_cons, Option.map_some,
        Option.some.injEq] at own
      subst own
      refine ⟨?_, fun entry present => ?_, fun other different => ?_⟩
      · rw [runToken_nextGeneration]
        exact exclusive.latest
      · exact exclusive.own entry (by
          rw [queued]
          exact List.mem_cons_of_mem _ (runToken_posted_subset entry present))
      · exact silent_runToken different (exclusive.others other different)

theorem sendMessage_generationAt_new
    (app : App)
    (userText : JString)
    (chatId : JInt) :
    (app.viewModel.sendMessage app.prefs userText chatId).generationAt
        app.viewModel.nextGeneration =
      { prompt := buildPrompt app.prefs
          (app.viewModel.conversation app.viewModel.messages) userText
        aiMsgObject := app.viewModel.nextMessage + 1
        chatId := chatId
        maxTokens := app.prefs.maxResponseTokens
        streaming := true
        list := app.viewModel.messages } :=
  Function.update_self _ _ _

theorem sendMessage_messageAt
    (app : App)
    (userText : JString)
    (chatId : JInt)
    (index : Nat) :
    (app.viewModel.sendMessage app.prefs userText chatId).messageAt index =
      if index = app.viewModel.nextMessage + 1 then ⟨[], 1⟩
      else if index = app.viewModel.nextMessage then ⟨userText, 0⟩
      else app.viewModel.messageAt index := by
  simp [ViewModel.sendMessage, Function.update_apply]

/-- A new question starts a generation with the shared fields reset. -/
theorem solo_sendMessage
    (wellFormed : app.WellFormed)
    (userText : JString)
    (chatId : JInt) :
    (app.withViewModel (app.viewModel.sendMessage app.prefs userText
      chatId)).solo app.viewModel.nextGeneration =
        { maxTokens := app.prefs.maxResponseTokens
          crashed := app.crashed } := by
  have started := sendMessage_generationAt_new app userText chatId
  have unsaved : app.saves.filter
      (·.generation == app.viewModel.nextGeneration) = [] := by
    rw [List.filter_eq_nil_iff]
    intro save present
    have := wellFormed.saved save present
    simp only [beq_iff_eq]
    omega
  have unposted : app.viewModel.posted.filter
      (·.1 == app.viewModel.nextGeneration) = [] := by
    rw [List.filter_eq_nil_iff]
    intro entry present
    have := wellFormed.posted entry present
    simp only [beq_iff_eq]
    omega
  unfold App.solo App.withViewModel
  rw [started]
  dsimp only
  rw [unsaved, show (app.viewModel.sendMessage app.prefs userText
    chatId).posted = app.viewModel.posted from rfl, unposted]
  simp [ViewModel.sendMessage]

/-- A question asked while nothing is left of the earlier ones is the only
generation that is left. -/
theorem exclusive_sendMessage
    (wellFormed : app.WellFormed)
    (idle : app.Idle)
    (userText : JString)
    (chatId : JInt) :
    (app.withViewModel (app.viewModel.sendMessage app.prefs userText
      chatId)).Exclusive app.viewModel.nextGeneration := by
  refine ⟨rfl, fun entry present => ?_, fun other different => ?_⟩
  · have empty : app.viewModel.posted = [] := idle.1
    change entry ∈ app.viewModel.posted at present
    rw [empty] at present
    exact absurd present List.not_mem_nil
  · have kept : (app.viewModel.sendMessage app.prefs userText
        chatId).generationAt other = app.viewModel.generationAt other :=
      Function.update_of_ne different _ _
    unfold App.Silent App.withViewModel
    rw [kept]
    by_cases inside : other < app.viewModel.nextGeneration
    · exact idle.2 other inside
    · rw [wellFormed.future other (by omega)]
      exact ⟨rfl, rfl⟩

end Simulation

end App
end Chat
end IdoProject
