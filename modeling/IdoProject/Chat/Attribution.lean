import IdoProject.Chat.Screen
import IdoProject.Chat.WellFormed
import IdoProject.Store.PlainNames
import Mathlib.Data.List.Nodup

/-!
# For whom a conversation is saved

A generation captures its chat when it starts, but the list of messages and the
user name are read again when it is finalized.  This module says when the two
moments agree: while some token of a generation may still reach the main
looper, neither the list in the live data nor the signed-in user changes.
-/

namespace IdoProject
namespace Chat

open Java Store
open Store.Directories (Plain messagesPath messagesPath_inj)

namespace ViewModel

/-- Some token of the generation may still be posted or run. -/
def Pending (viewModel : ViewModel) (index : Nat) : Prop :=
  (∃ entry ∈ viewModel.posted, entry.1 = index) ∨
    (viewModel.generationAt index).posting ≠ none ∨
    ((viewModel.generationAt index).streaming = true ∧
      viewModel.stopGeneration = false)

/-- No token of any generation may still be posted or run. -/
def Quiet (viewModel : ViewModel) : Prop :=
  viewModel.posted = [] ∧
    ∀ index < viewModel.nextGeneration,
      (viewModel.generationAt index).posting = none ∧
        ((viewModel.generationAt index).streaming = true →
          viewModel.stopGeneration = true)

instance (viewModel : ViewModel) : Decidable viewModel.Quiet :=
  inferInstanceAs (Decidable (_ ∧ _))

/-- The generations of a view model belong to the conversations of one account,
and those with tokens left to the list in the live data. -/
structure Owned
    (account : Nat)
    (conversation : Nat → Option (Nat × JInt))
    (signedIn : Prop)
    (viewModel : ViewModel) : Prop where
  future : ∀ index, viewModel.nextGeneration ≤ index →
    viewModel.generationAt index = {}
  posted : ∀ entry ∈ viewModel.posted, entry.1 < viewModel.nextGeneration
  current : viewModel.messages < viewModel.nextList
  allocated : ∀ index < viewModel.nextGeneration,
    (viewModel.generationAt index).list < viewModel.nextList
  owned : ∀ index < viewModel.nextGeneration,
    conversation (viewModel.generationAt index).list =
      some (account, (viewModel.generationAt index).chatId)
  pending : ∀ index < viewModel.nextGeneration, viewModel.Pending index →
    (viewModel.generationAt index).list = viewModel.messages ∧ signedIn

namespace Owned

variable {account : Nat}
variable {conversation : Nat → Option (Nat × JInt)}
variable {signedIn : Prop}
variable {viewModel next : ViewModel}

theorem not_pending_of_quiet
    {index : Nat}
    (quiet : viewModel.Quiet)
    (started : index < viewModel.nextGeneration) :
    ¬viewModel.Pending index := by
  rintro (⟨entry, present, _⟩ | posting | ⟨streaming, going⟩)
  · rw [quiet.1] at present
    exact absurd present List.not_mem_nil
  · exact posting (quiet.2 index started).1
  · rw [(quiet.2 index started).2 streaming] at going
    cases going

/-- A new view model. -/
theorem launch : Owned account conversation signedIn {} :=
  ⟨fun _ _ => rfl, by simp, by simp, by simp, by simp, by simp⟩

/-- What has no tokens left does not depend on who is signed in. -/
theorem of_quiet
    {other : Prop}
    (owned : Owned account conversation signedIn viewModel)
    (quiet : viewModel.Quiet) :
    Owned account conversation other viewModel :=
  { owned with
    pending := fun _ started pending =>
      absurd pending (not_pending_of_quiet quiet started) }

/-- Lists, chats and queue stay, and no generation gets new tokens. -/
theorem of_kept
    (owned : Owned account conversation signedIn viewModel)
    (messages : next.messages = viewModel.messages)
    (lists : next.nextList = viewModel.nextList)
    (count : next.nextGeneration = viewModel.nextGeneration)
    (future : ∀ index, next.nextGeneration ≤ index →
      next.generationAt index = {})
    (posted : ∀ entry ∈ next.posted, entry.1 < next.nextGeneration)
    (list : ∀ index, (next.generationAt index).list =
      (viewModel.generationAt index).list)
    (chat : ∀ index, (next.generationAt index).chatId =
      (viewModel.generationAt index).chatId)
    (pending : ∀ index, next.Pending index → viewModel.Pending index) :
    Owned account conversation signedIn next where
  future := future
  posted := posted
  current := by
    rw [messages, lists]
    exact owned.current
  allocated := by
    intro index started
    rw [list, lists]
    exact owned.allocated index (count ▸ started)
  owned := by
    intro index started
    rw [list, chat]
    exact owned.owned index (count ▸ started)
  pending := by
    intro index started left
    rw [list, messages]
    exact owned.pending index (count ▸ started) (pending index left)

/-- A new list in the live data, while no token is left. -/
theorem replace
    {chat : Nat × JInt}
    (owned : Owned account conversation signedIn viewModel)
    (quiet : viewModel.Quiet)
    (messages : next.messages = viewModel.nextList)
    (lists : next.nextList = viewModel.nextList + 1)
    (count : next.nextGeneration = viewModel.nextGeneration)
    (generations : next.generationAt = viewModel.generationAt)
    (posted : next.posted = viewModel.posted)
    (stop : next.stopGeneration = viewModel.stopGeneration) :
    Owned account
      (Function.update conversation viewModel.nextList (some chat))
      signedIn next := by
  have stillQuiet : next.Quiet := by
    refine ⟨posted.trans quiet.1, ?_⟩
    rw [count, generations, stop]
    exact quiet.2
  refine ⟨by rw [count, generations]; exact owned.future,
    by rw [posted, count]; exact owned.posted,
    by rw [messages, lists]; exact Nat.lt_succ_self _,
    fun index started => ?_, fun index started => ?_,
    fun index started left =>
      absurd left (not_pending_of_quiet stillQuiet started)⟩
  · rw [generations, lists]
    exact Nat.lt_succ_of_lt (owned.allocated index (count ▸ started))
  · rw [generations]
    have older := owned.allocated index (count ▸ started)
    rw [Function.update_of_ne (Nat.ne_of_lt older)]
    exact owned.owned index (count ▸ started)

/-- A new question in the conversation of the live data, where every flow that
goes on belongs to the same list. -/
theorem send
    {chatId : JInt}
    (owned : Owned account conversation signedIn viewModel)
    (prefs : Prefs)
    (text : JString)
    (here : conversation viewModel.messages = some (account, chatId))
    (flows : ∀ index < viewModel.nextGeneration,
      (viewModel.generationAt index).streaming = true →
        (viewModel.generationAt index).list = viewModel.messages)
    (holds : signedIn) :
    Owned account conversation signedIn
      (viewModel.sendMessage prefs text chatId) := by
  have older {index : Nat} (different : index ≠ viewModel.nextGeneration) :
      (viewModel.sendMessage prefs text chatId).generationAt index =
        viewModel.generationAt index :=
    Function.update_of_ne different _ _
  have newest :
      (viewModel.sendMessage prefs text chatId).generationAt
          viewModel.nextGeneration =
        { prompt := buildPrompt prefs
            (viewModel.conversation viewModel.messages) text
          aiMsgObject := viewModel.nextMessage + 1
          chatId := chatId
          maxTokens := prefs.maxResponseTokens
          streaming := true
          list := viewModel.messages } :=
    Function.update_self _ _ _
  refine ⟨fun index beyond => ?_, fun entry present => ?_, owned.current,
    fun index started => ?_, fun index started => ?_,
    fun index started left => ?_⟩
  · replace beyond : viewModel.nextGeneration + 1 ≤ index := beyond
    rw [older (by omega)]
    exact owned.future index (by omega)
  · exact Nat.lt_succ_of_lt (owned.posted entry present)
  · replace started : index < viewModel.nextGeneration + 1 := started
    by_cases new : index = viewModel.nextGeneration
    · rw [new, newest]
      exact owned.current
    · rw [older new]
      exact owned.allocated index (by omega)
  · replace started : index < viewModel.nextGeneration + 1 := started
    by_cases new : index = viewModel.nextGeneration
    · rw [new, newest]
      exact here
    · rw [older new]
      exact owned.owned index (by omega)
  · replace started : index < viewModel.nextGeneration + 1 := started
    refine ⟨?_, holds⟩
    by_cases new : index = viewModel.nextGeneration
    · rw [new, newest]
      rfl
    · rw [older new]
      -- the flag is reset, so a flow that was stopped has tokens left again
      rcases left with queued | posting | ⟨streaming, _⟩
      · exact (owned.pending index (by omega) (Or.inl queued)).1
      · rw [older new] at posting
        exact (owned.pending index (by omega) (Or.inr (Or.inl posting))).1
      · rw [older new] at streaming
        exact flows index (by omega) streaming

end Owned
end ViewModel

namespace App

variable {toLowerCase : JString → JString}
variable {app next : App}
variable {event : Event}
variable {account : Nat}
variable {conversation : Nat → Option (Nat × JInt)}
variable {signedIn : Prop}

/-- A generation with tokens left is written back with its list and its chat,
and may have posted a token. -/
theorem owned_setGeneration
    {index : Nat}
    (owned : app.viewModel.Owned account conversation signedIn)
    (generation : Generation)
    (posted : List (Nat × JString))
    (started : index < app.viewModel.nextGeneration)
    (list : generation.list = (app.viewModel.generationAt index).list)
    (chat : generation.chatId = (app.viewModel.generationAt index).chatId)
    (queued : ∀ entry ∈ posted, entry ∈ app.viewModel.posted ∨
      (entry.1 = index ∧ app.viewModel.Pending index))
    (posting : generation.posting ≠ none → app.viewModel.Pending index)
    (streaming : generation.streaming = true →
      (app.viewModel.generationAt index).streaming = true) :
    ({ app.viewModel.setGeneration index generation with
      posted := posted } : ViewModel).Owned account conversation signedIn := by
  have lookup (other : Nat) :
      (app.viewModel.setGeneration index generation).generationAt other =
        if other = index then generation
        else app.viewModel.generationAt other :=
    Function.update_apply _ _ _ _
  refine owned.of_kept rfl rfl rfl (fun other beyond => ?_)
    (fun entry present => ?_) (fun other => ?_) (fun other => ?_)
    (fun other left => ?_)
  · refine (lookup other).trans ?_
    rw [if_neg]
    · exact owned.future other beyond
    · rintro rfl
      exact absurd started (Nat.not_lt.mpr beyond)
  · rcases queued entry present with old | new
    · exact owned.posted entry old
    · rw [new.1]
      exact started
  · refine (congrArg Generation.list (lookup other)).trans ?_
    split
    case isTrue same => rw [same, list]
    case isFalse => rfl
  · refine (congrArg Generation.chatId (lookup other)).trans ?_
    split
    case isTrue same => rw [same, chat]
    case isFalse => rfl
  · rcases left with ⟨entry, present, rfl⟩ | left
    · rcases queued entry present with old | new
      · exact Or.inl ⟨entry, old, rfl⟩
      · rw [new.1]
        exact new.2
    · change (((app.viewModel.setGeneration index generation).generationAt
          other).posting ≠ none ∨
        ((app.viewModel.setGeneration index generation).generationAt
          other).streaming = true ∧ app.viewModel.stopGeneration = false) at left
      rw [lookup] at left
      split at left
      case isTrue same =>
        subst same
        rcases left with posted | ⟨flows, going⟩
        · exact posting posted
        · exact Or.inr (Or.inr ⟨streaming flows, going⟩)
      case isFalse => exact Or.inr left

/-- The runnable of a token keeps the lists, and leaves no new tokens. -/
theorem owned_runToken
    (app : App)
    {index : Nat}
    (owned : app.viewModel.Owned account conversation signedIn)
    (started : index < app.viewModel.nextGeneration)
    (token : JString) :
    (app.runToken toLowerCase index token).viewModel.Owned account conversation
      signedIn := by
  have counted : (app.viewModel.countToken index).Owned account conversation
      signedIn :=
    owned_setGeneration owned _ app.viewModel.posted started rfl rfl
      (fun _ => Or.inl) (fun posting => Or.inr (Or.inl posting)) id
  rw [runToken_eq]
  split
  case h_1 | h_2 =>
    refine counted.of_kept rfl rfl rfl counted.future counted.posted
      (fun _ => rfl) (fun _ => rfl) ?_
    rintro other (queued | posting | ⟨_, going⟩)
    · exact Or.inl queued
    · exact Or.inr (Or.inl posting)
    · cases going
  case h_3 =>
    refine counted.of_kept rfl rfl rfl (fun other beyond => ?_) (by simp [crash])
      (fun _ => rfl) (fun _ => rfl) ?_
    · change { (app.viewModel.countToken index).generationAt other with
        streaming := false, posting := none } = ({} : Generation)
      rw [counted.future other beyond]
    · rintro other (⟨entry, present, _⟩ | posting | ⟨streaming, _⟩)
      · exact absurd present List.not_mem_nil
      · exact absurd rfl posting
      · cases streaming
  case h_4 =>
    exact counted.of_kept rfl rfl rfl counted.future counted.posted
      (fun _ => rfl) (fun _ => rfl) (fun _ left => left)

/-- The events of flows, callbacks and the main looper. -/
theorem owned_stream
    (owned : app.viewModel.Owned account conversation signedIn)
    (stream : event.isStream = true)
    (fired : app.step toLowerCase event = some next) :
    next.viewModel.Owned account conversation signedIn := by
  obtain ⟨_, fires⟩ := fires_of_step fired
  cases fires with
  | saveSettings | loadChats | loadMessages | createNewChat | deleteChat
  | sendMessage => cases stream
  | deliver index token started streaming free =>
      refine owned_setGeneration owned _ app.viewModel.posted started rfl rfl
        (fun _ => Or.inl) (fun posting => ?_) id
      cases stop : app.viewModel.stopGeneration with
      | false => exact Or.inr (Or.inr ⟨streaming, stop⟩)
      | true => simp [stop] at posting
  | post index token holds =>
      have started : index < app.viewModel.nextGeneration := by
        by_contra beyond
        rw [owned.future index (by omega)] at holds
        cases holds
      have left : app.viewModel.Pending index :=
        Or.inr (Or.inl (by rw [holds]; simp))
      refine owned_setGeneration owned _ _ started rfl rfl
        (fun entry present => ?_) (fun posting => absurd rfl posting) id
      rcases List.mem_append.mp present with old | new
      · exact Or.inl old
      · rw [List.mem_singleton.mp new]
        exact Or.inr ⟨rfl, left⟩
  | endStream index streaming free =>
      have started : index < app.viewModel.nextGeneration := by
        by_contra beyond
        rw [owned.future index (by omega)] at streaming
        cases streaming
      exact owned_setGeneration owned _ app.viewModel.posted started rfl rfl
        (fun _ => Or.inl) (fun posting => Or.inr (Or.inl posting))
        (fun _ => streaming)
  | runPosted index token rest queued =>
      have started := owned.posted (index, token) (by rw [queued]; simp)
      have popped : ({ app.viewModel with posted := rest } : ViewModel).Owned
          account conversation signedIn := by
        have subset : ∀ entry ∈ rest, entry ∈ app.viewModel.posted := by
          intro entry present
          rw [queued]
          exact List.mem_cons_of_mem _ present
        refine owned.of_kept rfl rfl rfl owned.future
          (fun entry present => owned.posted entry (subset entry present))
          (fun _ => rfl) (fun _ => rfl) ?_
        rintro other (⟨entry, present, same⟩ | posting | flows)
        · exact Or.inl ⟨entry, subset entry present, same⟩
        · exact Or.inr (Or.inl posting)
        · exact Or.inr (Or.inr flows)
      exact owned_runToken (app.withViewModel
        { app.viewModel with posted := rest }) popped started token

/-- A stream event keeps the list in the live data. -/
theorem messages_of_stream
    (stream : event.isStream = true)
    (fired : app.step toLowerCase event = some next) :
    next.viewModel.messages = app.viewModel.messages := by
  obtain ⟨_, fires⟩ := fires_of_step fired
  cases fires with
  | saveSettings | loadChats | loadMessages | createNewChat | deleteChat
  | sendMessage => cases stream
  | deliver | post | endStream => rfl
  | runPosted index token rest queued =>
      rw [runToken_eq]
      split <;> rfl

/-- A stream event saves for a generation with a runnable, under the user name
of the moment, into the file of the captured chat, the list of the live data. -/
theorem saves_of_stream
    (stream : event.isStream = true)
    (fired : app.step toLowerCase event = some next) :
    ∃ new, next.saves = app.saves ++ new ∧ ∀ save ∈ new,
      (∃ entry ∈ app.viewModel.posted, entry.1 = save.generation) ∧
      save.username = app.prefs.username ∧
      save.chatId = (app.viewModel.generationAt save.generation).chatId ∧
      save.list = app.viewModel.messages := by
  obtain ⟨_, fires⟩ := fires_of_step fired
  cases fires with
  | saveSettings | loadChats | loadMessages | createNewChat | deleteChat
  | sendMessage => cases stream
  | deliver | post | endStream => exact ⟨[], by simp [App.withViewModel], by simp⟩
  | runPosted index token rest queued =>
      have counted (viewModel : ViewModel) :
          ((viewModel.countToken index).generationAt index).chatId =
            (viewModel.generationAt index).chatId := by
        rw [countToken_generationAt_self]
      rw [runToken_eq]
      split
      case h_1 | h_2 =>
        refine ⟨[_], rfl, fun save present => ?_⟩
        rw [List.mem_singleton.mp present]
        exact ⟨⟨(index, token), by rw [queued]; simp, rfl⟩, rfl,
          counted { app.viewModel with posted := rest }, rfl⟩
      case h_3 | h_4 =>
        exact ⟨[], by simp [App.withViewModel, crash], by simp⟩

end App

namespace Screen

variable {toLowerCase : JString → JString}
variable {screen next : Screen}
variable {event : Event}
variable {index : Nat}

/-- A save belongs to the user and the chat of its generation: the list is the
one to which the question and its answer were appended, it was made for this
conversation, and the file is the one of this chat under the name of this user.
Wherever the files directory is, no other chat and no other user has this
file. -/
structure Belongs (screen : Screen) (index : Nat) (save : Save) : Prop where
  list : save.list =
    ((screen.viewModelAt index).generationAt save.generation).list
  conversation : screen.conversationOf index save.list =
    some (screen.accountOf index,
      ((screen.viewModelAt index).generationAt save.generation).chatId)
  chat : save.chatId =
    ((screen.viewModelAt index).generationAt save.generation).chatId
  user : ∃ username, save.username = some username ∧
    screen.accounts[screen.accountOf index]? = some username ∧
    ∀ other name, screen.accounts[other]? = some name →
      ∀ filesDir chatId,
        messagesPath filesDir name chatId =
            messagesPath filesDir username save.chatId →
          other = screen.accountOf index ∧ chatId = save.chatId

/-- Whatever an event saves belongs to the user and the chat it is saved for. -/
def Attributed
    (toLowerCase : JString → JString)
    (screen : Screen)
    (event : Event) : Prop :=
  ∀ next, screen.step toLowerCase event = some next →
    ∀ entry ∈ next.saves.drop screen.saves.length,
      screen.Belongs entry.1 entry.2

/-- No token of any generation of any view model may still be posted or run. -/
def Quiet (screen : Screen) : Prop :=
  ∀ index < screen.nextViewModel, (screen.viewModelAt index).Quiet

/-- The list in the live data is replaced, and users sign in and out, while no
token is left that could finalize a generation; a question is asked while every
flow that goes on belongs to the list it is added to; and no user takes a name
that another one has, or one that is not plain. -/
def Undisturbed (screen : Screen) : Event → Prop
  | .signUp username _ =>
      screen.Quiet ∧ username ∉ screen.accounts ∧
        ∀ name ∈ username :: screen.accounts, Plain name
  | .logIn account _ =>
      screen.Quiet ∧
        (∀ other < screen.accounts.length,
          screen.accounts[other]? = screen.accounts[account]? →
            other = account) ∧
        ∀ name ∈ screen.accounts, Plain name
  | .logOut => screen.Quiet
  | .saveNewUsername input =>
      trim input = [] ∨ screen.prefs.username = some (trim input) ∨
        (trim input ∉ screen.accounts ∧ Plain (trim input))
  | .newChat | .selectChat _ =>
      ∀ index ∈ screen.current, (screen.viewModelAt index).Quiet
  | .send input =>
      trim input = [] ∨
        ∀ index ∈ screen.current,
          (screen.isInChat = false → (screen.viewModelAt index).Quiet) ∧
          ∀ generation < (screen.viewModelAt index).nextGeneration,
            ((screen.viewModelAt index).generationAt
                generation).streaming = true →
              screen.isInChat = true ∧
                ((screen.viewModelAt index).generationAt generation).list =
                  (screen.viewModelAt index).messages
  | _ => True

instance (screen : Screen) : Decidable screen.Quiet :=
  inferInstanceAs (Decidable (∀ index < screen.nextViewModel, _))

instance (screen : Screen) :
    (event : Event) → Decidable (screen.Undisturbed event)
  | .signUp username _ =>
      inferInstanceAs (Decidable (screen.Quiet ∧ username ∉ screen.accounts ∧
        ∀ name ∈ username :: screen.accounts, Plain name))
  | .logIn account _ =>
      inferInstanceAs (Decidable (screen.Quiet ∧
        (∀ other < screen.accounts.length,
          screen.accounts[other]? = screen.accounts[account]? →
            other = account) ∧
        ∀ name ∈ screen.accounts, Plain name))
  | .logOut => inferInstanceAs (Decidable screen.Quiet)
  | .saveNewUsername input =>
      inferInstanceAs (Decidable (_ ∨ _ ∨
        (trim input ∉ screen.accounts ∧ Plain (trim input))))
  | .newChat => inferInstanceAs (Decidable (∀ index ∈ screen.current, _))
  | .selectChat _ => inferInstanceAs (Decidable (∀ index ∈ screen.current, _))
  | .send _ => inferInstanceAs (Decidable (_ ∨ ∀ index ∈ screen.current, _ ∧ _))
  | .openAgain | .recreate | .resume | .saveSettings _ | .deleteChat _
  | .stream _ _ => inferInstanceAs (Decidable True)

/-- What the events keep, whatever chat is shown. -/
structure Sound (screen : Screen) : Prop where
  owned : ∀ index < screen.nextViewModel,
    (screen.viewModelAt index).Owned (screen.accountOf index)
      (screen.conversationOf index)
      (screen.session = some (screen.accountOf index))
  opened : ∀ index ∈ screen.current, index < screen.nextViewModel ∧
    screen.session = some (screen.accountOf index)
  signedIn : ∀ account ∈ screen.session,
    (∀ name ∈ screen.accounts, Plain name) ∧
      ∃ username,
        screen.prefs.username = some username ∧
        screen.accounts[account]? = some username ∧
        ∀ other, screen.accounts[other]? = some username → other = account

/-- In a chat, the list in the live data is the conversation of this chat. -/
def Shown (screen : Screen) : Prop :=
  ∀ index ∈ screen.current, screen.isInChat = true →
    screen.conversationOf index (screen.viewModelAt index).messages =
      some (screen.accountOf index, screen.currentChatId)

section Operations

/-- Writing back one view model. -/
theorem Sound.withApp
    {app : App}
    (sound : screen.Sound)
    (owned : app.viewModel.Owned (screen.accountOf index)
      (screen.conversationOf index)
      (screen.session = some (screen.accountOf index))) :
    (screen.withApp index app).Sound := by
  refine ⟨fun other started => ?_, sound.opened, sound.signedIn⟩
  change ((Function.update screen.viewModelAt index app.viewModel)
    other).Owned _ _ _
  by_cases same : other = index
  · subst same
    rw [Function.update_self]
    exact owned
  · rw [Function.update_of_ne same]
    exact sound.owned other started

/-- Writing back a view model with a new list, made for a chat of its account,
while none of its tokens is left. -/
theorem Sound.replaceList
    {app : App}
    {chatId : JInt}
    (sound : screen.Sound)
    (started : index < screen.nextViewModel)
    (quiet : (screen.viewModelAt index).Quiet)
    (messages : app.viewModel.messages = (screen.viewModelAt index).nextList)
    (lists : app.viewModel.nextList = (screen.viewModelAt index).nextList + 1)
    (count : app.viewModel.nextGeneration =
      (screen.viewModelAt index).nextGeneration)
    (generations : app.viewModel.generationAt =
      (screen.viewModelAt index).generationAt)
    (posted : app.viewModel.posted = (screen.viewModelAt index).posted)
    (stop : app.viewModel.stopGeneration =
      (screen.viewModelAt index).stopGeneration) :
    ((screen.withApp index app).noteConversation index chatId).Sound := by
  refine ⟨fun other inside => ?_, sound.opened, sound.signedIn⟩
  change ((Function.update screen.viewModelAt index app.viewModel)
    other).Owned _ (Function.update screen.conversationOf index
      (Function.update (screen.conversationOf index)
        (Function.update screen.viewModelAt index app.viewModel index).messages
        _) other) _
  by_cases same : other = index
  · subst same
    simp only [Function.update_self]
    rw [messages]
    exact (sound.owned other started).replace quiet messages lists count
      generations posted stop
  · rw [Function.update_of_ne same, Function.update_of_ne same]
    exact sound.owned other inside

theorem loadChats_nextViewModel :
    (screen.loadChats index).nextViewModel = screen.nextViewModel := by
  unfold Screen.loadChats observeChats
  split <;> rfl

/-- The chat lists of a view model do not matter here. -/
theorem Sound.loadChats
    (sound : screen.Sound)
    (started : index < screen.nextViewModel) :
    (screen.loadChats index).Sound := by
  have loaded : (screen.withApp index (screen.app index).loadChats).Sound := by
    apply sound.withApp
    exact (sound.owned index started).of_kept rfl rfl rfl
      (sound.owned index started).future (sound.owned index started).posted
      (fun _ => rfl) (fun _ => rfl) (fun _ left => left)
  unfold Screen.loadChats observeChats
  split
  · exact ⟨loaded.owned, loaded.opened, loaded.signedIn⟩
  · exact loaded

theorem Shown.withApp
    {app : App}
    (shown : screen.Shown)
    (same : app.viewModel.messages = (screen.viewModelAt index).messages) :
    (screen.withApp index app).Shown := by
  intro other present inChat
  change screen.conversationOf other ((Function.update screen.viewModelAt index
    app.viewModel) other).messages = _
  have kept : ((Function.update screen.viewModelAt index app.viewModel)
      other).messages = (screen.viewModelAt other).messages := by
    by_cases equal : other = index
    · subst equal
      rw [Function.update_self, same]
    · rw [Function.update_of_ne equal]
  rw [kept]
  exact shown other present inChat

theorem Shown.resetUI (screen : Screen) : screen.resetUI.Shown := by
  intro other present inChat
  cases inChat

theorem Shown.observeChats
    (shown : screen.Shown) :
    (screen.observeChats index).Shown := by
  unfold Screen.observeChats
  split
  · exact Shown.resetUI screen
  · exact shown

theorem Shown.loadChats
    (shown : screen.Shown) :
    (screen.loadChats index).Shown :=
  Shown.observeChats (shown.withApp rfl)

theorem Sound.createNewChat
    (sound : screen.Sound)
    (started : index < screen.nextViewModel)
    (quiet : (screen.viewModelAt index).Quiet) :
    (screen.createNewChat index).Sound :=
  sound.replaceList started quiet rfl rfl rfl rfl rfl rfl

/-- The list after `createNewChat` was made for the new chat. -/
theorem createNewChat_conversation :
    (screen.createNewChat index).conversationOf index
        ((screen.createNewChat index).viewModelAt index).messages =
      some (screen.accountOf index,
        App.maxId (screen.viewModelAt index).chats + 1) := by
  unfold Screen.createNewChat noteConversation
  simp only [Function.update_self]
  rfl

theorem createNewChat_viewModelAt
    (screen : Screen)
    (index : Nat) :
    (screen.createNewChat index).viewModelAt index =
      (screen.app index).createNewChat.viewModel :=
  Function.update_self _ _ _

/-- No token is left after `createNewChat` where none was before. -/
theorem createNewChat_quiet
    (quiet : (screen.viewModelAt index).Quiet) :
    ((screen.createNewChat index).viewModelAt index).Quiet := by
  rw [createNewChat_viewModelAt]
  exact quiet

/-- `startNewChatFromUI` shows the chat that it has created. -/
theorem startNewChatFromUI_eq :
    screen.startNewChatFromUI index =
      { { screen with isInChat := true }.createNewChat index with
        currentChatId := App.maxId (screen.viewModelAt index).chats + 1 } := by
  obtain ⟨chat, last, created⟩ :
      ∃ chat, (({ screen with isInChat := true }.createNewChat
          index).viewModelAt index).chats.getLast? = some chat ∧
        chat.id = App.maxId (screen.viewModelAt index).chats + 1 := by
    rw [createNewChat_viewModelAt]
    exact ⟨_, List.getLast?_concat, rfl⟩
  unfold startNewChatFromUI
  dsimp only
  rw [last, ← created]

theorem startNewChatFromUI_generations
    (screen : Screen)
    (index : Nat) :
    ((screen.startNewChatFromUI index).viewModelAt index).generationAt =
        (screen.viewModelAt index).generationAt ∧
      ((screen.startNewChatFromUI index).viewModelAt index).nextGeneration =
        (screen.viewModelAt index).nextGeneration := by
  have created := createNewChat_viewModelAt { screen with isInChat := true }
    index
  rw [startNewChatFromUI_eq]
  exact ⟨(congrArg ViewModel.generationAt created).trans rfl,
    (congrArg ViewModel.nextGeneration created).trans rfl⟩

theorem Sound.startNewChatFromUI
    (sound : screen.Sound)
    (started : index < screen.nextViewModel)
    (quiet : (screen.viewModelAt index).Quiet) :
    (screen.startNewChatFromUI index).Sound := by
  have inChat : ({ screen with isInChat := true } : Screen).Sound :=
    ⟨sound.owned, sound.opened, sound.signedIn⟩
  have created := inChat.createNewChat started quiet
  rw [startNewChatFromUI_eq]
  exact ⟨created.owned, created.opened, created.signedIn⟩

theorem Shown.startNewChatFromUI
    (current : screen.current = some index) :
    (screen.startNewChatFromUI index).Shown := by
  rw [startNewChatFromUI_eq]
  intro other present _
  replace present : screen.current = some other := present
  rw [current] at present
  cases present
  exact @createNewChat_conversation { screen with isInChat := true } index

theorem Sound.onChatSelected
    (sound : screen.Sound)
    (chat : ChatObject)
    (started : index < screen.nextViewModel)
    (quiet : (screen.viewModelAt index).Quiet) :
    (screen.onChatSelected index chat).Sound := by
  have inChat : ({ screen with
      currentChatId := chat.id
      isInChat := true } : Screen).Sound :=
    ⟨sound.owned, sound.opened, sound.signedIn⟩
  exact inChat.replaceList started quiet rfl rfl rfl rfl rfl rfl

theorem Shown.onChatSelected
    (chat : ChatObject)
    (current : screen.current = some index) :
    (screen.onChatSelected index chat).Shown := by
  intro other present _
  replace present : screen.current = some other := present
  rw [current] at present
  cases present
  unfold Screen.onChatSelected noteConversation
  simp only [Function.update_self]
  rfl

theorem Sound.onChatDelete
    (sound : screen.Sound)
    (chat : ChatObject)
    (started : index < screen.nextViewModel) :
    (screen.onChatDelete index chat).Sound := by
  have deleted : (screen.withApp index
      ((screen.app index).deleteChat chat)).Sound := by
    apply sound.withApp
    exact (sound.owned index started).of_kept rfl rfl rfl
      (sound.owned index started).future (sound.owned index started).posted
      (fun _ => rfl) (fun _ => rfl) (fun _ left => left)
  have observed : ((screen.withApp index
      ((screen.app index).deleteChat chat)).observeChats index).Sound := by
    unfold observeChats
    split
    · exact ⟨deleted.owned, deleted.opened, deleted.signedIn⟩
    · exact deleted
  unfold Screen.onChatDelete
  dsimp only
  split
  · exact ⟨observed.owned, observed.opened, observed.signedIn⟩
  · exact observed

theorem Shown.onChatDelete
    (shown : screen.Shown)
    (chat : ChatObject) :
    (screen.onChatDelete index chat).Shown := by
  unfold Screen.onChatDelete
  dsimp only
  split
  · exact Shown.resetUI _
  · exact Shown.observeChats (shown.withApp rfl)

/-- A question in the chat that is shown. -/
theorem Sound.ask
    {text : JString}
    (sound : screen.Sound)
    (shown : screen.Shown)
    (current : screen.current = some index)
    (inChat : screen.isInChat = true)
    (flows : ∀ generation < (screen.viewModelAt index).nextGeneration,
      ((screen.viewModelAt index).generationAt generation).streaming = true →
        ((screen.viewModelAt index).generationAt generation).list =
          (screen.viewModelAt index).messages) :
    (screen.withApp index ((screen.app index).withViewModel
      ((screen.viewModelAt index).sendMessage screen.prefs text
        screen.currentChatId))).Sound := by
  obtain ⟨started, session⟩ := sound.opened index current
  apply sound.withApp
  exact (sound.owned index started).send screen.prefs text
    (shown index current inChat) flows session

theorem Sound.sendMessage
    {input : JString}
    (sound : screen.Sound)
    (shown : screen.Shown)
    (current : screen.current = some index)
    (undisturbed : screen.Undisturbed (.send input)) :
    (screen.sendMessage index input).Sound := by
  obtain ⟨started, _⟩ := sound.opened index current
  unfold Screen.sendMessage
  dsimp only
  split
  case isTrue => exact sound
  case isFalse written =>
    have asked := undisturbed.resolve_left
      (fun empty => written (by rw [empty]; rfl)) index current
    split
    case isTrue inChat =>
      exact sound.ask shown current inChat fun generation inside streaming =>
        (asked.2 generation inside streaming).2
    case isFalse notInChat =>
      have quiet := asked.1 (Bool.not_eq_true _ ▸ notInChat)
      have created := sound.startNewChatFromUI started quiet
      obtain ⟨generations, count⟩ :=
        startNewChatFromUI_generations screen index
      refine created.ask (Shown.startNewChatFromUI current) ?_ ?_ ?_
      · rw [startNewChatFromUI_eq]
        exact current
      · rw [startNewChatFromUI_eq]
        rfl
      · intro generation inside streaming
        rw [generations] at streaming
        rw [count] at inside
        exact absurd (asked.2 generation inside streaming).1 notInChat

theorem Shown.sendMessage
    {input : JString}
    (shown : screen.Shown)
    (current : screen.current = some index) :
    (screen.sendMessage index input).Shown := by
  unfold Screen.sendMessage
  dsimp only
  split
  · exact shown
  · split
    · exact shown.withApp rfl
    · exact (Shown.startNewChatFromUI current).withApp rfl

/-- Whatever was open before, the new activity is that of the signed-in user. -/
theorem Sound.openActivity
    {account : Nat}
    (sound : ({ screen with current := none } : Screen).Sound)
    (session : screen.session = some account) :
    (screen.openActivity account).Sound := by
  unfold Screen.openActivity
  dsimp only
  refine Sound.loadChats (Sound.loadChats ?_ (Nat.lt_succ_self _)) ?_
  · refine ⟨fun other inside => ?_, fun other present => ?_, sound.signedIn⟩
    · by_cases new : other = screen.nextViewModel
      · subst new
        simp only [Function.update_self]
        exact ViewModel.Owned.launch
      · simp only [Function.update_of_ne new]
        exact sound.owned other
          (Nat.lt_of_le_of_ne (Nat.le_of_lt_succ inside) new)
    · cases present
      simp only [Function.update_self]
      exact ⟨Nat.lt_succ_self _, session⟩
  · rw [loadChats_nextViewModel]
    exact Nat.lt_succ_self _

theorem Shown.openActivity (screen : Screen) (account : Nat) :
    (screen.openActivity account).Shown := by
  apply Shown.loadChats
  apply Shown.loadChats
  intro other present inChat
  cases inChat

/-- Nothing is saved, or the name that was typed is another one and replaces the
old one everywhere. -/
theorem saveNewUsername_cases
    (screen : Screen)
    (input : JString) :
    screen.saveNewUsername input = screen ∨
      (trim input ≠ [] ∧ screen.prefs.username ≠ some (trim input)) ∧
        screen.saveNewUsername input =
          { screen with
            accounts := screen.accounts.map fun name =>
              if name = Prefs.orNull screen.prefs.username then trim input
              else name
            files := (screen.files.renameUserDirectory
              (Prefs.orNull screen.prefs.username) (trim input)).1
            prefs := screen.prefs.saveCardensials (trim input)
              (screen.prefs.password.getD []) } := by
  unfold Screen.saveNewUsername
  dsimp only
  split
  case isTrue => exact Or.inl rfl
  case isFalse written =>
    split
    case isTrue => exact Or.inl rfl
    case isFalse changed =>
      split
      case isFalse => exact Or.inl rfl
      case isTrue =>
        exact Or.inr ⟨⟨fun empty => written (by rw [empty]; rfl), changed⟩, rfl⟩

theorem Sound.saveNewUsername
    {input : JString}
    (sound : screen.Sound)
    (undisturbed : screen.Undisturbed (.saveNewUsername input)) :
    (screen.saveNewUsername input).Sound := by
  rcases saveNewUsername_cases screen input with
    same | ⟨⟨written, changed⟩, same⟩
  · rw [same]
    exact sound
  · rw [same]
    obtain ⟨free, typed⟩ :=
      (undisturbed.resolve_left written).resolve_left changed
    refine ⟨sound.owned, sound.opened, fun account signed => ?_⟩
    obtain ⟨plain, username, stored, row, only⟩ := sound.signedIn account signed
    have renamed : Prefs.orNull screen.prefs.username = username := by
      rw [stored]
      rfl
    refine ⟨fun name present => ?_, trim input, rfl, ?_, fun other found => ?_⟩
    · obtain ⟨old, inside, rfl⟩ := List.mem_map.mp present
      split
      · exact typed
      · exact plain old inside
    · simp [row, renamed]
    · rw [List.getElem?_map, Option.map_eq_some_iff] at found
      obtain ⟨name, present, equal⟩ := found
      split at equal
      case isTrue old =>
        exact only other (by rw [present, old, renamed])
      case isFalse =>
        exact absurd (List.mem_of_getElem? (equal ▸ present)) free

end Operations

section Steps

/-- Successor of a process under each event. -/
inductive Fires
    (toLowerCase : JString → JString)
    (screen : Screen) : Event → Screen → Prop
  | signUp (username password : JString) :
      Fires toLowerCase screen (.signUp username password)
        ({ screen with
          accounts := screen.accounts ++ [username] }.signIn
            screen.accounts.length username password)
  | logIn (account : Nat) (username password : JString)
      (row : screen.accounts[account]? = some username)
      (trimmed : trim username = username) :
      Fires toLowerCase screen (.logIn account password)
        (screen.signIn account username password)
  | logOut (index : Nat) (current : screen.current = some index) :
      Fires toLowerCase screen .logOut
        { screen with
          prefs := screen.prefs.clearCardensials
          session := none
          current := none }
  | openAgain (account : Nat) (session : screen.session = some account) :
      Fires toLowerCase screen .openAgain (screen.openActivity account)
  | recreate (index : Nat) (current : screen.current = some index) :
      Fires toLowerCase screen .recreate
        (({ screen with
          currentChatId := -1
          isInChat := false }.loadChats index).loadChats index)
  | resume (index : Nat) (current : screen.current = some index) :
      Fires toLowerCase screen .resume (screen.loadChats index)
  | saveNewUsername (index : Nat) (input : JString)
      (current : screen.current = some index) :
      Fires toLowerCase screen (.saveNewUsername input)
        (screen.saveNewUsername input)
  | saveSettings (prefs : Prefs) :
      Fires toLowerCase screen (.saveSettings prefs)
        { screen with
          prefs := { prefs with
            username := screen.prefs.username
            password := screen.prefs.password
            isLoggedIn := screen.prefs.isLoggedIn } }
  | newChat (index : Nat) (current : screen.current = some index) :
      Fires toLowerCase screen .newChat (screen.onNewChat index)
  | selectChat (index : Nat) (chat : ChatObject)
      (current : screen.current = some index)
      (exposed : chat ∈ (screen.viewModelAt index).exposed) :
      Fires toLowerCase screen (.selectChat chat)
        (screen.onChatSelected index chat)
  | deleteChat (index : Nat) (chat : ChatObject)
      (current : screen.current = some index)
      (exposed : chat ∈ (screen.viewModelAt index).exposed) :
      Fires toLowerCase screen (.deleteChat chat)
        (screen.onChatDelete index chat)
  | send (index : Nat) (input : JString)
      (current : screen.current = some index) :
      Fires toLowerCase screen (.send input) (screen.sendMessage index input)
  | stream (index : Nat) (event : App.Event) (app : App)
      (started : index < screen.nextViewModel)
      (isStream : event.isStream = true)
      (ran : (screen.app index).step toLowerCase event = some app) :
      Fires toLowerCase screen (.stream index event)
        (screen.withApp index app)

/-- A step is one of the successors. -/
theorem fires_of_step
    (fired : screen.step toLowerCase event = some next) :
    Fires toLowerCase screen event next := by
  unfold step at fired
  split at fired
  case isTrue => cases fired
  case isFalse =>
    cases event with
    | signUp username password =>
        cases fired
        exact .signUp username password
    | logIn account password =>
        obtain ⟨username, row, fired⟩ := Option.bind_eq_some_iff.mp fired
        split at fired
        case isFalse => cases fired
        case isTrue trimmed =>
          cases fired
          exact .logIn account username password row trimmed
    | saveSettings prefs =>
        cases fired
        exact .saveSettings prefs
    | logOut | openAgain | recreate | resume | saveNewUsername | newChat
    | send =>
        obtain ⟨index, current, rfl⟩ := Option.map_eq_some_iff.mp fired
        constructor
        exact current
    | selectChat chat | deleteChat chat =>
        obtain ⟨index, current, fired⟩ := Option.bind_eq_some_iff.mp fired
        split at fired
        case isFalse => cases fired
        case isTrue exposed =>
          cases fired
          constructor
          · exact current
          · exact exposed
    | stream index event =>
        dsimp only at fired
        split at fired
        case isFalse => cases fired
        case isTrue enabled =>
          obtain ⟨app, ran, rfl⟩ := Option.map_eq_some_iff.mp fired
          exact .stream index event app enabled.1 enabled.2 ran

/-- Undisturbed events keep the invariant. -/
theorem sound_step
    (sound : screen.Sound)
    (shown : screen.Shown)
    (undisturbed : screen.Undisturbed event)
    (fired : screen.step toLowerCase event = some next) :
    next.Sound ∧ next.Shown := by
  cases fires_of_step fired with
  | signUp username password =>
      obtain ⟨quiet, free, plain⟩ := undisturbed
      refine ⟨Sound.openActivity ?_ rfl, Shown.openActivity _ _⟩
      refine ⟨fun index started =>
          (sound.owned index started).of_quiet (quiet index started),
        by simp, fun account signed => ?_⟩
      cases signed
      refine ⟨fun name present => plain name ?_, username, rfl, by simp,
        fun other found => ?_⟩
      · rw [List.mem_cons]
        exact (List.mem_append.mp present).symm.imp_left List.mem_singleton.mp
      by_contra different
      have inside : other < screen.accounts.length := by
        have bound := (List.getElem?_eq_some_iff.mp found).1
        rw [List.length_append, List.length_singleton] at bound
        omega
      rw [List.getElem?_append_left inside] at found
      exact free (List.mem_of_getElem? found)
  | logIn account username password row =>
      obtain ⟨quiet, only, plain⟩ := undisturbed
      refine ⟨Sound.openActivity ?_ rfl, Shown.openActivity _ _⟩
      refine ⟨fun index started =>
          (sound.owned index started).of_quiet (quiet index started),
        by simp, fun signed same => ?_⟩
      cases same
      refine ⟨plain, username, rfl, row, fun other found => ?_⟩
      exact only other (List.getElem?_eq_some_iff.mp found).1
        (found.trans row.symm)
  | logOut =>
      refine ⟨⟨fun other started => (sound.owned other started).of_quiet
        (undisturbed other started), by simp, by simp⟩, ?_⟩
      intro other present
      cases present
  | openAgain account session =>
      exact ⟨Sound.openActivity ⟨sound.owned, by simp, sound.signedIn⟩ session,
        Shown.openActivity screen account⟩
  | recreate index current =>
      have started := (sound.opened index current).1
      have left : ({ screen with
          currentChatId := -1
          isInChat := false } : Screen).Sound :=
        ⟨sound.owned, sound.opened, sound.signedIn⟩
      constructor
      · refine Sound.loadChats (left.loadChats started) ?_
        rw [loadChats_nextViewModel]
        exact started
      · refine Shown.loadChats (Shown.loadChats ?_)
        intro other present inChat
        cases inChat
  | resume index current =>
      exact ⟨sound.loadChats (sound.opened index current).1, shown.loadChats⟩
  | saveNewUsername index input =>
      refine ⟨sound.saveNewUsername undisturbed, ?_⟩
      rcases saveNewUsername_cases screen input with same | ⟨-, same⟩
      · rw [same]
        exact shown
      · rw [same]
        exact shown
  | saveSettings prefs =>
      exact ⟨⟨sound.owned, sound.opened, sound.signedIn⟩, shown⟩
  | newChat index current =>
      have quiet := undisturbed index current
      have started := (sound.opened index current).1
      refine ⟨Sound.startNewChatFromUI (sound.createNewChat started quiet)
        started (createNewChat_quiet quiet), ?_⟩
      exact Shown.startNewChatFromUI current
  | selectChat index chat current =>
      exact ⟨sound.onChatSelected chat (sound.opened index current).1
        (undisturbed index current), Shown.onChatSelected chat current⟩
  | deleteChat index chat current =>
      exact ⟨sound.onChatDelete chat (sound.opened index current).1,
        shown.onChatDelete chat⟩
  | send index input current =>
      exact ⟨sound.sendMessage shown current undisturbed,
        shown.sendMessage current⟩
  | stream index event app started isStream ran =>
      refine ⟨sound.withApp (App.owned_stream
        (sound.owned index started) isStream ran), shown.withApp ?_⟩
      exact App.messages_of_stream isStream ran

theorem withApp_saves
    {app : App}
    (unsaved : app.saves = []) :
    (screen.withApp index app).saves = screen.saves := by
  simp [Screen.withApp, unsaved]

theorem loadChats_saves :
    (screen.loadChats index).saves = screen.saves := by
  have kept : (screen.withApp index (screen.app index).loadChats).saves =
      screen.saves :=
    withApp_saves rfl
  unfold Screen.loadChats observeChats
  split <;> exact kept

theorem startNewChatFromUI_saves :
    (screen.startNewChatFromUI index).saves = screen.saves := by
  rw [startNewChatFromUI_eq]
  exact withApp_saves rfl

/-- Only the main looper saves messages. -/
theorem saves_step
    (noStream : ∀ index event', event ≠ .stream index event')
    (fired : screen.step toLowerCase event = some next) :
    next.saves = screen.saves := by
  cases fires_of_step fired with
  | signUp | logIn | openAgain | recreate =>
      exact loadChats_saves.trans loadChats_saves
  | resume => exact loadChats_saves
  | logOut | saveSettings => rfl
  | saveNewUsername index input =>
      rcases saveNewUsername_cases screen input with same | ⟨-, same⟩
      · rw [same]
      · rw [same]
  | newChat => exact startNewChatFromUI_saves.trans (withApp_saves rfl)
  | selectChat => exact withApp_saves rfl
  | deleteChat index chat =>
      have kept : (screen.withApp index
          ((screen.app index).deleteChat chat)).saves = screen.saves :=
        withApp_saves rfl
      unfold Screen.onChatDelete observeChats
      dsimp only
      split <;> split <;> exact kept
  | send =>
      unfold Screen.sendMessage
      dsimp only
      split
      · rfl
      · split
        · exact withApp_saves rfl
        · exact (withApp_saves rfl).trans startNewChatFromUI_saves
  | stream index event => exact absurd rfl (noStream index event)

/-- Where the invariant holds, what an event saves is attributed. -/
theorem Sound.attributed
    (sound : screen.Sound)
    (event : Event) :
    Attributed toLowerCase screen event := by
  intro next fired entry present
  by_cases stream : ∃ index event', event = .stream index event'
  · obtain ⟨index, event, rfl⟩ := stream
    cases fires_of_step fired with
    | stream _ _ app started stream ran =>
      obtain ⟨new, saves, handed⟩ := App.saves_of_stream stream ran
      have added : (screen.withApp index app).saves.drop screen.saves.length =
          new.map fun save => (index, save) := by
        unfold Screen.withApp
        rw [saves]
        simp [Screen.app]
      rw [added] at present
      obtain ⟨save, inside, rfl⟩ := List.mem_map.mp present
      obtain ⟨⟨entry, queued, begins⟩, name, chat, list⟩ := handed save inside
      have owned := sound.owned index started
      have begun : save.generation <
          (screen.viewModelAt index).nextGeneration :=
        begins ▸ owned.posted entry queued
      obtain ⟨live, session⟩ := owned.pending save.generation begun
        (Or.inl ⟨entry, queued, begins⟩)
      have same := list.trans live.symm
      obtain ⟨plain, username, stored, row, only⟩ := sound.signedIn _ session
      have own := plain username (List.mem_of_getElem? row)
      exact
        { list := same
          conversation := by
            rw [same]
            exact owned.owned save.generation begun
          chat := chat
          user := by
            refine ⟨username, name.trans stored, row, ?_⟩
            intro other named found filesDir chatId same
            obtain ⟨equal, chats⟩ := messagesPath_inj
              (plain named (List.mem_of_getElem? found)) own same
            exact ⟨only other (equal ▸ found), chats⟩ }
  · have same := saves_step
      (fun index event' equal => stream ⟨index, event', equal⟩) fired
    rw [same, List.drop_length] at present
    exact absurd present List.not_mem_nil

/-- A process with nobody signed in. -/
theorem sound_launch
    (accounts : List JString)
    (prefs : Prefs)
    (files : UserFiles) :
    Sound { accounts := accounts, prefs := prefs, files := files } :=
  ⟨by simp, by simp, by simp⟩

/-- In every undisturbed run, from any table of users and any files, whatever
is saved belongs to the user and the chat of its generation. -/
theorem saves_attributed
    {accounts : List JString}
    {prefs : Prefs}
    {files : UserFiles}
    {events : List Event}
    (guarded : (machine toLowerCase).Guarded Undisturbed
      { accounts := accounts, prefs := prefs, files := files } events) :
    (machine toLowerCase).Guarded (Attributed toLowerCase)
      { accounts := accounts, prefs := prefs, files := files } events := by
  have kept : ∀ (screen : Screen) event next,
      Sound screen ∧ Shown screen → Undisturbed screen event →
        (machine toLowerCase).step screen event = some next →
          Sound next ∧ Shown next :=
    fun _ _ _ holds undisturbed fired =>
      sound_step holds.1 holds.2 undisturbed fired
  refine Transition.Machine.guarded_mono kept
    (fun _ event holds _ => holds.1.attributed event) guarded
    ⟨sound_launch accounts prefs files, ?_⟩
  intro index present
  cases present

/-- One user asks, is answered, and opens another chat. -/
theorem saves_attributed_of_answer :
    (machine toLowerCaseAscii).Guarded (Attributed toLowerCaseAscii) {}
      [.signUp (jstr "ann") (jstr "Abcdef1!"), .send (jstr "hi"),
        .stream 0 (.deliver 0 (jstr "ok###")), .stream 0 (.post 0),
        .stream 0 .runPosted, .newChat, .logOut] :=
  saves_attributed (by decide +kernel)

/-- A new chat is opened while the answer in chat 1 is on its way: the file of
chat 1 is overwritten with the empty list of the new chat. -/
theorem not_attributed_of_new_chat :
    ∃ screen next, (machine toLowerCaseAscii).run {}
        [.signUp (jstr "ann") (jstr "Abcdef1!"), .send (jstr "hi"), .newChat,
          .stream 0 (.deliver 0 (jstr "ok###")), .stream 0 (.post 0)] =
            some screen ∧
      screen.step toLowerCaseAscii (.stream 0 .runPosted) = some next ∧
      next.saves = [(0,
        { generation := 0
          reply := jstr "ok"
          username := some (jstr "ann")
          chatId := 1
          list := 3
          messages := [] })] ∧
      ¬Attributed toLowerCaseAscii screen (.stream 0 .runPosted) := by
  obtain ⟨screen, ran, seen⟩ := Option.map_eq_some_iff.mp
    (show ((machine toLowerCaseAscii).run {}
        [.signUp (jstr "ann") (jstr "Abcdef1!"), .send (jstr "hi"), .newChat,
          .stream 0 (.deliver 0 (jstr "ok###")), .stream 0 (.post 0)]).map
        (fun screen => (screen.saves,
          ((screen.viewModelAt 0).generationAt 0).list,
          (screen.step toLowerCaseAscii (.stream 0 .runPosted)).map
            Screen.saves)) =
      some ([], 1, some [(0,
        { generation := 0
          reply := jstr "ok"
          username := some (jstr "ann")
          chatId := 1
          list := 3
          messages := [] })]) by decide +kernel)
  obtain ⟨unsaved, seen⟩ := Prod.mk.inj seen
  obtain ⟨list, after⟩ := Prod.mk.inj seen
  obtain ⟨next, fired, saved⟩ := Option.map_eq_some_iff.mp after
  refine ⟨screen, next, ran, fired, saved, fun attributed => ?_⟩
  have belongs := attributed next fired _ (by
    rw [saved, unsaved]
    exact List.mem_singleton_self _)
  have same := belongs.list
  rw [list] at same
  cases same

end Steps

end Screen
end Chat
end IdoProject
