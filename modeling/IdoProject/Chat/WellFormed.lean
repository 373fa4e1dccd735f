import IdoProject.Chat.ViewModel

/-!
# What an event does, and well-formed view models

`Fires` lists the successors of every event, so that a proof about a step is a
case analysis of it.  In a well-formed state references point to objects that
exist, and no two generations share an AI message.
-/

namespace IdoProject
namespace Chat

open Java Store

namespace App

/-- Successor of a state under each event. -/
inductive Fires
    (toLowerCase : JString → JString)
    (app : App) : Event → App → Prop
  | saveSettings (prefs : Prefs) :
      Fires toLowerCase app (.saveSettings prefs)
        { app with
          prefs := { prefs with
            username := app.prefs.username
            password := app.prefs.password
            isLoggedIn := app.prefs.isLoggedIn } }
  | loadChats : Fires toLowerCase app .loadChats app.loadChats
  | loadMessages (chatId : JInt) :
      Fires toLowerCase app (.loadMessages chatId) (app.loadMessages chatId)
  | createNewChat : Fires toLowerCase app .createNewChat app.createNewChat
  | deleteChat (chat : ChatObject) (present : chat ∈ app.viewModel.exposed) :
      Fires toLowerCase app (.deleteChat chat) (app.deleteChat chat)
  | sendMessage (userText : JString) (chatId : JInt) :
      Fires toLowerCase app (.sendMessage userText chatId)
        (app.withViewModel
          (app.viewModel.sendMessage app.prefs userText chatId))
  | deliver (index : Nat) (token : JString)
      (started : index < app.viewModel.nextGeneration)
      (streaming : (app.viewModel.generationAt index).streaming = true)
      (free : (app.viewModel.generationAt index).posting = none) :
      Fires toLowerCase app (.deliver index token)
        (app.withViewModel (app.viewModel.setGeneration index
          { app.viewModel.generationAt index with
            delivered := (app.viewModel.generationAt index).delivered ++ [token]
            posting :=
              if app.viewModel.stopGeneration then none else some token }))
  | post (index : Nat) (token : JString)
      (holds : (app.viewModel.generationAt index).posting = some token) :
      Fires toLowerCase app (.post index)
        (app.withViewModel
          { app.viewModel.setGeneration index
              { app.viewModel.generationAt index with posting := none } with
            posted := app.viewModel.posted ++ [(index, token)] })
  | endStream (index : Nat)
      (streaming : (app.viewModel.generationAt index).streaming = true)
      (free : (app.viewModel.generationAt index).posting = none) :
      Fires toLowerCase app (.endStream index)
        (app.withViewModel (app.viewModel.setGeneration index
          { app.viewModel.generationAt index with streaming := false }))
  | runPosted (index : Nat) (token : JString) (rest : List (Nat × JString))
      (queued : app.viewModel.posted = (index, token) :: rest) :
      Fires toLowerCase app .runPosted
        ((app.withViewModel { app.viewModel with posted := rest }).runToken
          toLowerCase index token)

/-- A step is one of the successors, of a process that is alive. -/
theorem fires_of_step
    {toLowerCase : JString → JString}
    {app next : App}
    {event : Event}
    (fired : app.step toLowerCase event = some next) :
    app.crashed = false ∧ Fires toLowerCase app event next := by
  unfold App.step at fired
  split at fired
  case isTrue => cases fired
  case isFalse living =>
  refine ⟨Bool.not_eq_true _ ▸ living, ?_⟩
  cases event with
  | saveSettings prefs =>
      cases fired
      exact .saveSettings prefs
  | loadChats =>
      cases fired
      exact .loadChats
  | loadMessages chatId =>
      cases fired
      exact .loadMessages chatId
  | createNewChat =>
      cases fired
      exact .createNewChat
  | deleteChat chat =>
      dsimp only at fired
      split at fired
      case isFalse => cases fired
      case isTrue present =>
        cases fired
        exact .deleteChat chat present
  | sendMessage userText chatId =>
      cases fired
      exact .sendMessage userText chatId
  | deliver index token =>
      simp only [ViewModel.deliver, Option.map_eq_some_iff] at fired
      obtain ⟨viewModel, fired, rfl⟩ := fired
      split at fired
      case isFalse => cases fired
      case isTrue enabled =>
        cases fired
        exact .deliver index token enabled.1 enabled.2.1 enabled.2.2
  | post index =>
      simp only [ViewModel.post, Option.map_eq_some_iff] at fired
      obtain ⟨viewModel, fired, rfl⟩ := fired
      split at fired
      case h_1 => cases fired
      case h_2 token holds =>
        cases fired
        exact .post index token holds
  | endStream index =>
      simp only [ViewModel.endStream, Option.map_eq_some_iff] at fired
      obtain ⟨viewModel, fired, rfl⟩ := fired
      split at fired
      case isFalse => cases fired
      case isTrue enabled =>
        cases fired
        exact .endStream index enabled.1 enabled.2
  | runPosted =>
      simp only [App.runPosted] at fired
      split at fired
      case h_1 => cases fired
      case h_2 index token rest queued =>
        cases fired
        exact .runPosted index token rest queued

section Runnables

variable {toLowerCase : JString → JString}
variable {app : App}
variable {index : Nat}

@[simp] theorem countToken_generationAt_self
    (viewModel : ViewModel)
    (index : Nat) :
    (viewModel.countToken index).generationAt index =
      { viewModel.generationAt index with
        tokenCount := (viewModel.generationAt index).tokenCount + 1 } := by
  unfold ViewModel.countToken ViewModel.setGeneration
  exact Function.update_self _ _ _

/-- What the runnable of a token decides. -/
def verdict
    (toLowerCase : JString → JString)
    (app : App)
    (index : Nat)
    (token : JString) : Verdict :=
  judge toLowerCase (app.viewModel.generationAt index).maxTokens
    ((app.viewModel.generationAt index).tokenCount + 1)
    (app.viewModel.fullResponseBuffer ++ token)

/-- The runnable of a token, by what it decides. -/
theorem runToken_eq
    (token : JString) :
    app.runToken toLowerCase index token =
      match app.verdict toLowerCase index token with
      | .limit =>
          (app.withViewModel (app.viewModel.countToken index).stop
            ).finalizeGeneration index
      | .cut cleaned =>
          (app.withViewModel ((app.viewModel.countToken index).stop.setContent
            (app.viewModel.generationAt index).aiMsgObject cleaned)
              ).finalizeGeneration index
      | .outOfBounds =>
          (app.withViewModel (app.viewModel.countToken index).stop).crash
      | .extend =>
          app.withViewModel
            (((app.viewModel.countToken index).appendToken token).setContent
              (app.viewModel.generationAt index).aiMsgObject
              (app.viewModel.fullResponseBuffer ++ token)) := by
  unfold App.runToken verdict
  dsimp only
  rw [countToken_generationAt_self]
  rfl

theorem runToken_nextGeneration
    (token : JString) :
    (app.runToken toLowerCase index token).viewModel.nextGeneration =
      app.viewModel.nextGeneration := by
  rw [runToken_eq]
  split <;> rfl

end Runnables

/-- What every reachable state satisfies: references point to objects that
exist, and no two generations share an AI message. -/
structure WellFormed (app : App) : Prop where
  future : ∀ index, app.viewModel.nextGeneration ≤ index →
    app.viewModel.generationAt index = {}
  listed : ∀ list, ∀ message ∈ app.viewModel.listAt list,
    message < app.viewModel.nextMessage
  allocated : ∀ index < app.viewModel.nextGeneration,
    (app.viewModel.generationAt index).aiMsgObject < app.viewModel.nextMessage
  distinct : ∀ first < app.viewModel.nextGeneration,
    ∀ second < app.viewModel.nextGeneration,
      (app.viewModel.generationAt first).aiMsgObject =
        (app.viewModel.generationAt second).aiMsgObject → first = second
  posted : ∀ entry ∈ app.viewModel.posted,
    entry.1 < app.viewModel.nextGeneration
  saved : ∀ save ∈ app.saves, save.generation < app.viewModel.nextGeneration

section WellFormedness

variable {toLowerCase : JString → JString}
variable {app next : App}

/-- Where the heap, the generations, the queue and the saves stay, so does
well-formedness. -/
theorem WellFormed.of_same
    (wellFormed : app.WellFormed)
    (generations : next.viewModel.generationAt = app.viewModel.generationAt)
    (lists : next.viewModel.listAt = app.viewModel.listAt)
    (messages : next.viewModel.nextMessage = app.viewModel.nextMessage)
    (count : next.viewModel.nextGeneration = app.viewModel.nextGeneration)
    (posted : next.viewModel.posted = app.viewModel.posted)
    (saves : next.saves = app.saves) :
    next.WellFormed where
  future := by rw [generations, count]; exact wellFormed.future
  listed := by rw [lists, messages]; exact wellFormed.listed
  allocated := by rw [generations, count, messages]; exact wellFormed.allocated
  distinct := by rw [generations, count]; exact wellFormed.distinct
  posted := by rw [posted, count]; exact wellFormed.posted
  saved := by rw [saves, count]; exact wellFormed.saved

/-- Writing back a generation that keeps its AI message. -/
theorem WellFormed.setGeneration
    (wellFormed : app.WellFormed)
    {index : Nat}
    (generation : Generation)
    (started : index < app.viewModel.nextGeneration)
    (kept : generation.aiMsgObject =
      (app.viewModel.generationAt index).aiMsgObject) :
    (app.withViewModel
      (app.viewModel.setGeneration index generation)).WellFormed := by
  have same (other : Nat) :
      (Function.update app.viewModel.generationAt index generation
        other).aiMsgObject = (app.viewModel.generationAt other).aiMsgObject := by
    by_cases equal : other = index
    · rw [equal, Function.update_self, kept]
    · rw [Function.update_of_ne equal]
  refine ⟨fun other beyond => ?_, wellFormed.listed, fun other inside => ?_,
    fun first inFirst second inSecond equal => ?_, wellFormed.posted,
    wellFormed.saved⟩
  · have different : other ≠ index := by
      intro equal
      rw [equal] at beyond
      exact absurd started (Nat.not_lt.mpr beyond)
    change Function.update app.viewModel.generationAt index generation other = _
    rw [Function.update_of_ne different]
    exact wellFormed.future other beyond
  · change (Function.update app.viewModel.generationAt index generation
      other).aiMsgObject < _
    rw [same]
    exact wellFormed.allocated other inside
  · change (Function.update app.viewModel.generationAt index generation
      first).aiMsgObject = (Function.update app.viewModel.generationAt index
        generation second).aiMsgObject at equal
    rw [same, same] at equal
    exact wellFormed.distinct first inFirst second inSecond equal

/-- Finalizing a generation that has started. -/
theorem WellFormed.finalizeGeneration
    (wellFormed : app.WellFormed)
    {index : Nat}
    (started : index < app.viewModel.nextGeneration) :
    (app.finalizeGeneration index).WellFormed := by
  refine ⟨wellFormed.future, wellFormed.listed, wellFormed.allocated,
    wellFormed.distinct, wellFormed.posted, fun save present => ?_⟩
  rcases List.mem_append.mp present with earlier | new
  · exact wellFormed.saved save earlier
  · rw [List.mem_singleton.mp new]
    exact started

/-- The death of the process. -/
theorem WellFormed.crash
    (wellFormed : app.WellFormed) :
    app.crash.WellFormed := by
  refine ⟨fun index beyond => ?_, wellFormed.listed, wellFormed.allocated,
    wellFormed.distinct, by simp [App.crash], wellFormed.saved⟩
  change { app.viewModel.generationAt index with
    streaming := false, posting := none } = ({} : Generation)
  rw [wellFormed.future index beyond]

/-- The runnable of a token of a generation that has started. -/
theorem WellFormed.runToken
    (wellFormed : app.WellFormed)
    {index : Nat}
    {token : JString}
    (started : index < app.viewModel.nextGeneration) :
    (app.runToken toLowerCase index token).WellFormed := by
  have counted : (app.withViewModel
      (app.viewModel.countToken index)).WellFormed :=
    wellFormed.setGeneration _ started rfl
  unfold App.runToken
  dsimp only
  split
  · refine WellFormed.finalizeGeneration ?_ started
    exact counted.of_same rfl rfl rfl rfl rfl rfl
  · refine WellFormed.finalizeGeneration ?_ started
    exact counted.of_same rfl rfl rfl rfl rfl rfl
  · refine WellFormed.crash ?_
    exact counted.of_same rfl rfl rfl rfl rfl rfl
  · exact counted.of_same rfl rfl rfl rfl rfl rfl

/-- A new list in the live data. -/
theorem WellFormed.replaceMessages
    (wellFormed : app.WellFormed)
    (messages : List Message) :
    (app.withViewModel
      (app.viewModel.replaceMessages messages)).WellFormed := by
  refine ⟨wellFormed.future, fun list message present => ?_,
    fun index inside => ?_, wellFormed.distinct, wellFormed.posted,
    wellFormed.saved⟩
  · change message < app.viewModel.nextMessage + messages.length
    change message ∈ Function.update app.viewModel.listAt
      app.viewModel.nextList _ list at present
    by_cases new : list = app.viewModel.nextList
    · rw [new, Function.update_self, List.mem_range'_1] at present
      exact present.2
    · rw [Function.update_of_ne new] at present
      exact Nat.lt_add_right _ (wellFormed.listed list message present)
  · exact Nat.lt_add_right _ (wellFormed.allocated index inside)

/-- A list that was put into the live data has the messages it was made of. -/
theorem conversation_replaceMessages
    (viewModel : ViewModel)
    (messages : List Message) :
    (viewModel.replaceMessages messages).conversation
        (viewModel.replaceMessages messages).messages = messages := by
  have listed : (viewModel.replaceMessages messages).listAt
      (viewModel.replaceMessages messages).messages =
        List.range' viewModel.nextMessage messages.length :=
    Function.update_self _ _ _
  unfold ViewModel.conversation
  rw [listed]
  apply List.ext_getElem (by simp)
  intro index inside within
  simp [ViewModel.replaceMessages, List.getElem?_eq_getElem within]

/-- A new generation, whose AI message is a new object. -/
theorem WellFormed.sendMessage
    (wellFormed : app.WellFormed)
    (userText : JString)
    (chatId : JInt) :
    (app.withViewModel (app.viewModel.sendMessage app.prefs userText
      chatId)).WellFormed := by
  have lookup (index : Nat) :
      (app.viewModel.sendMessage app.prefs userText chatId).generationAt index =
        if index = app.viewModel.nextGeneration then
          (app.viewModel.sendMessage app.prefs userText chatId).generationAt
            app.viewModel.nextGeneration
        else app.viewModel.generationAt index := by
    by_cases equal : index = app.viewModel.nextGeneration
    · rw [if_pos equal, equal]
    · rw [if_neg equal]
      exact Function.update_of_ne equal _ _
  have newest :
      ((app.viewModel.sendMessage app.prefs userText chatId).generationAt
        app.viewModel.nextGeneration).aiMsgObject =
          app.viewModel.nextMessage + 1 := by
    simp [ViewModel.sendMessage]
  refine ⟨fun index beyond => ?_, fun list message present => ?_,
    fun index inside => ?_, fun first inFirst second inSecond equal => ?_,
    fun entry present => ?_, fun save present => ?_⟩
  · change app.viewModel.nextGeneration + 1 ≤ index at beyond
    change (app.viewModel.sendMessage app.prefs userText chatId).generationAt
      index = _
    rw [lookup, if_neg (by omega)]
    exact wellFormed.future index (by omega)
  · change message < app.viewModel.nextMessage + 2
    change message ∈ Function.update app.viewModel.listAt
      app.viewModel.messages _ list at present
    by_cases current : list = app.viewModel.messages
    · rw [current, Function.update_self, List.mem_append] at present
      rcases present with old | new
      · have := wellFormed.listed _ message old
        omega
      · simp only [List.mem_cons, List.not_mem_nil, or_false] at new
        omega
    · rw [Function.update_of_ne current] at present
      have := wellFormed.listed list message present
      omega
  · change index < app.viewModel.nextGeneration + 1 at inside
    change ((app.viewModel.sendMessage app.prefs userText
      chatId).generationAt index).aiMsgObject < app.viewModel.nextMessage + 2
    rw [lookup]
    split
    · rw [newest]
      omega
    · have := wellFormed.allocated index (by omega)
      omega
  · change first < app.viewModel.nextGeneration + 1 at inFirst
    change second < app.viewModel.nextGeneration + 1 at inSecond
    change ((app.viewModel.sendMessage app.prefs userText
      chatId).generationAt first).aiMsgObject =
        ((app.viewModel.sendMessage app.prefs userText
          chatId).generationAt second).aiMsgObject at equal
    rw [lookup first, lookup second] at equal
    split at equal <;> split at equal
    · omega
    · rw [newest] at equal
      have := wellFormed.allocated second (by omega)
      omega
    · rw [newest] at equal
      have := wellFormed.allocated first (by omega)
      omega
    · exact wellFormed.distinct first (by omega) second (by omega) equal
  · exact Nat.lt_succ_of_lt (wellFormed.posted entry present)
  · exact Nat.lt_succ_of_lt (wellFormed.saved save present)

/-- A generation with a flow or a token has started. -/
theorem WellFormed.started
    (wellFormed : app.WellFormed)
    {index : Nat}
    (active : (app.viewModel.generationAt index).streaming = true ∨
      (app.viewModel.generationAt index).posting ≠ none) :
    index < app.viewModel.nextGeneration := by
  by_contra beyond
  rw [wellFormed.future index (by omega)] at active
  simp at active

/-- Taking a runnable from the queue. -/
theorem WellFormed.popped
    (wellFormed : app.WellFormed)
    {entry : Nat × JString}
    {rest : List (Nat × JString)}
    (queued : app.viewModel.posted = entry :: rest) :
    (app.withViewModel { app.viewModel with posted := rest }).WellFormed :=
  { wellFormed with
    posted := fun other present => wellFormed.posted other
      (by rw [queued]; exact List.mem_cons_of_mem _ present) }

/-- Every event keeps well-formedness. -/
theorem WellFormed.step
    {event : Event}
    (wellFormed : app.WellFormed)
    (fired : app.step toLowerCase event = some next) :
    next.WellFormed := by
  obtain ⟨_, fires⟩ := fires_of_step fired
  cases fires with
  | saveSettings prefs => exact wellFormed.of_same rfl rfl rfl rfl rfl rfl
  | loadChats => exact wellFormed.of_same rfl rfl rfl rfl rfl rfl
  | loadMessages chatId => exact wellFormed.replaceMessages _
  | createNewChat =>
      exact (wellFormed.replaceMessages []).of_same rfl rfl rfl rfl rfl rfl
  | deleteChat chat present => exact wellFormed.of_same rfl rfl rfl rfl rfl rfl
  | sendMessage userText chatId => exact wellFormed.sendMessage userText chatId
  | deliver index token started streaming free =>
      exact wellFormed.setGeneration _ started rfl
  | post index token holds =>
      have started : index < app.viewModel.nextGeneration :=
        wellFormed.started (Or.inr (by rw [holds]; simp))
      have written := wellFormed.setGeneration
        { app.viewModel.generationAt index with posting := none } started rfl
      refine ⟨written.future, written.listed, written.allocated,
        written.distinct, fun entry present => ?_, written.saved⟩
      rcases List.mem_append.mp present with old | new
      · exact wellFormed.posted entry old
      · rw [List.mem_singleton.mp new]
        exact started
  | endStream index streaming free =>
      exact wellFormed.setGeneration _ (wellFormed.started (Or.inl streaming))
        rfl
  | runPosted index token rest queued =>
      exact (wellFormed.popped queued).runToken
        (wellFormed.posted (index, token) (by rw [queued]; simp))

/-- A view model that has just been created is well-formed. -/
theorem wellFormed_launch
    (prefs : Prefs)
    (files : UserFiles) :
    WellFormed { prefs := prefs, files := files } :=
  ⟨fun _ _ => rfl, by simp, by simp, by simp, by simp, by simp⟩

/-- Every run leads to a well-formed state. -/
theorem wellFormed_of_run
    {prefs : Prefs}
    {files : UserFiles}
    {events : List Event}
    (reached : (machine toLowerCase).run { prefs := prefs, files := files }
      events = some app) :
    app.WellFormed :=
  Transition.Machine.run_invariant (fun _ _ _ => WellFormed.step) reached
    (wellFormed_launch prefs files)

end WellFormedness

end App
end Chat
end IdoProject
