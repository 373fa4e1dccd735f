import IdoProject.Chat.ChatList

/-!
# A new chat starts empty

Ids are used again: a new chat has the largest listed id plus one, and its
messages are looked up in the file of that id.  Deleting a chat deletes its
file, but a generation of the chat that is still running writes the file again
when it is finalized, and the next chat with the id finds it.

The book is the store of one user over several lives of the process.  Its
history part is the list of the ids that were given to new chats and that no
message was sent to since.
-/

namespace IdoProject
namespace Chat

open Java Store

/-- A verdict after which the messages are saved. -/
def Verdict.finalizes : Verdict → Bool
  | .limit | .cut _ => true
  | .outOfBounds | .extend => false

/-- One user's chats in the process that runs now. -/
structure Book where
  app : App
  /-- History: ids of new chats that no message was sent to since. -/
  unsent : List JInt := []

namespace Book

variable {toLowerCase : JString → JString}
variable {book next : Book}

/-- What happens to the chats of one user. -/
inductive Occurrence
  | event (event : App.Event)
  /-- The process dies, and the activity of the next one loads the chats. -/
  | restart

/-- The unsent ids after an event. -/
def unsentAfter (book : Book) : App.Event → List JInt
  | .createNewChat => (App.maxId book.app.viewModel.chats + 1) :: book.unsent
  | .sendMessage _ chatId => book.unsent.filter (· ≠ chatId)
  | _ => book.unsent

/-- A process that has just started, after its first `loadChats`. -/
def launch (prefs : Prefs) (files : UserFiles) : App :=
  App.loadChats { prefs := prefs, files := files }

/-- One occurrence. -/
def step
    (toLowerCase : JString → JString)
    (book : Book) : Occurrence → Option Book
  | .event event =>
      (book.app.step toLowerCase event).map fun app =>
        { app := app, unsent := book.unsentAfter event }
  | .restart =>
      some { book with app := launch book.app.prefs book.app.files }

/-- The book as a labelled machine. -/
def machine
    (toLowerCase : JString → JString) :
    Transition.Machine Book Occurrence where
  step := step toLowerCase

/-- Messages stored for one chat of the user. -/
def storedMessages (app : App) (chatId : JInt) : List Message :=
  app.files.loadMessages app.username chatId

/-- A new chat has no messages until one is sent in it. -/
def NewChatsEmpty (book : Book) : Prop :=
  ∀ chatId ∈ book.unsent, storedMessages book.app chatId = []

/-- A new chat is listed under an id that no listed chat has. -/
def NewIdUnlisted
    (toLowerCase : JString → JString)
    (book : Book)
    (occurrence : Occurrence) : Prop :=
  occurrence = .event .createNewChat →
    ∀ next, book.step toLowerCase occurrence = some next →
      ∃ chatId, chatId ∉ book.app.listedIds ∧
        next.app.listedIds = book.app.listedIds ++ [chatId] ∧
        chatId ∈ next.unsent

/-- A generation is finalized while the chat of its question is stored, and is
not a new one under the same id; a new chat is created while one of the two ends
of the range of an `int` is free. -/
def InTime
    (toLowerCase : JString → JString)
    (book : Book) : Occurrence → Prop
  | .event .createNewChat =>
      Int32.maxValue ∉ book.app.listedIds ∨ Int32.minValue ∉ book.app.listedIds
  | .event .runPosted =>
      ∀ entry ∈ book.app.viewModel.posted.head?,
        (book.app.verdict toLowerCase entry.1 entry.2).finalizes = true →
          (book.app.viewModel.generationAt entry.1).chatId ∈
              book.app.storedIds ∧
            (book.app.viewModel.generationAt entry.1).chatId ∉ book.unsent
  | _ => True

instance
    (toLowerCase : JString → JString)
    (book : Book) :
    DecidablePred (book.InTime toLowerCase)
  | .event .createNewChat =>
      inferInstanceAs (Decidable
        (_ ∉ book.app.listedIds ∨ _ ∉ book.app.listedIds))
  | .event .runPosted =>
      inferInstanceAs (Decidable (∀ entry ∈ book.app.viewModel.posted.head?,
        (book.app.verdict toLowerCase entry.1 entry.2).finalizes = true →
          (book.app.viewModel.generationAt entry.1).chatId ∈
              book.app.storedIds ∧
            (book.app.viewModel.generationAt entry.1).chatId ∉ book.unsent))
  | .event (.saveSettings _) | .event .loadChats | .event (.loadMessages _)
  | .event (.deleteChat _) | .event (.sendMessage _ _) | .event (.deliver _ _)
  | .event (.post _) | .event (.endStream _)
  | .restart => inferInstanceAs (Decidable True)

/-- The chats on disk are listed, under different ids, and only they have
messages. -/
structure Tidy (book : Book) : Prop where
  catalogued : book.app.Catalogued
  listed : book.app.listedIds.Nodup
  stored : book.app.storedIds.Nodup
  covered : ∀ chatId ∈ book.app.storedIds, chatId ∈ book.app.listedIds
  filed : ∀ chatId, storedMessages book.app chatId ≠ [] →
    chatId ∈ book.app.storedIds
  empty : book.NewChatsEmpty

section Files

variable {app : App}

/-- Only `deleteChat` and the runnable of a token change message files. -/
theorem storedMessages_step
    {event : App.Event}
    {next : App}
    (noDelete : ∀ chat, event ≠ .deleteChat chat)
    (noRun : event ≠ .runPosted)
    (fired : app.step toLowerCase event = some next)
    (chatId : JInt) :
    storedMessages next chatId = storedMessages app chatId := by
  obtain ⟨_, fires⟩ := App.fires_of_step fired
  cases fires with
  | saveSettings | loadChats | loadMessages | sendMessage | deliver | post
  | endStream => rfl
  | createNewChat =>
      exact UserFiles.loadMessages_saveChats _ _ _ _
  | deleteChat chat => exact absurd rfl (noDelete chat)
  | runPosted => exact absurd rfl noRun

/-- The runnable of a token writes one message file, that of the chat of its
generation, and only when it finalizes the generation. -/
theorem storedMessages_runToken
    (toLowerCase : JString → JString)
    (app : App)
    (index : Nat)
    (token : JString)
    (chatId : JInt) :
    storedMessages (app.runToken toLowerCase index token) chatId =
        storedMessages app chatId ∨
      ((app.verdict toLowerCase index token).finalizes = true ∧
        chatId = (app.viewModel.generationAt index).chatId) := by
  have saved (viewModel : ViewModel)
      (same : (viewModel.generationAt index).chatId =
        (app.viewModel.generationAt index).chatId) :
      storedMessages ((app.withViewModel viewModel).finalizeGeneration index)
          chatId = storedMessages app chatId ∨
        chatId = (app.viewModel.generationAt index).chatId := by
    by_cases own : chatId = (app.viewModel.generationAt index).chatId
    · exact Or.inr own
    · rw [← same] at own
      exact Or.inl (UserFiles.loadMessages_saveMessages_of_ne _ _ _ own)
  have counted : ((app.viewModel.countToken index).generationAt index).chatId =
      (app.viewModel.generationAt index).chatId := by
    rw [App.countToken_generationAt_self]
  rw [App.runToken_eq]
  split
  case h_1 limit =>
    rw [limit]
    exact (saved (app.viewModel.countToken index).stop counted).imp_right
      fun own => ⟨rfl, own⟩
  case h_2 cleaned cut =>
    rw [cut]
    exact (saved ((app.viewModel.countToken index).stop.setContent _ cleaned)
      counted).imp_right fun own => ⟨rfl, own⟩
  case h_3 | h_4 => exact Or.inl rfl

theorem storedMessages_deleteChat
    (chat : ChatObject)
    (chatId : JInt) :
    storedMessages (app.deleteChat chat) chatId =
      if chatId = chat.id ∧ chat.id ∈ app.storedIds then []
      else storedMessages app chatId :=
  UserFiles.loadMessages_removeChat app.files app.username chat.id chatId

/-- Deleting a chat on disk deletes its messages. -/
theorem filed_deleteChat
    (chat : ChatObject)
    (filed : ∀ chatId, storedMessages app chatId ≠ [] → chatId ∈ app.storedIds)
    (chatId : JInt)
    (written : storedMessages (app.deleteChat chat) chatId ≠ []) :
    chatId ∈ (app.deleteChat chat).storedIds := by
  rw [App.storedIds_deleteChat]
  rw [storedMessages_deleteChat] at written
  split at written
  case isTrue => exact absurd rfl written
  case isFalse other =>
    have present := filed chatId written
    refine (List.mem_erase_of_ne fun same => other ⟨same, ?_⟩).mpr present
    exact same ▸ present

end Files

section Steps

/-- What is still listed after a chat was deleted. -/
theorem mem_listedIds_deleteChat
    {app : App}
    {chat : ChatObject}
    (catalogued : app.Catalogued)
    (exposed : chat ∈ app.viewModel.exposed)
    {chatId : JInt}
    (other : chatId ≠ chat.id)
    (listed : chatId ∈ app.listedIds) :
    chatId ∈ (app.deleteChat chat).listedIds := by
  obtain ⟨object, present, rfl⟩ := List.mem_map.mp listed
  refine List.mem_map_of_mem ((List.mem_eraseP_of_neg ?_).mpr present)
  intro same
  have equal := catalogued.unique object (catalogued.listed object present) chat
    exposed (by simpa using same)
  exact other (congrArg (·.id) equal)

/-- A process that starts over tidy files. -/
theorem Tidy.restart
    (tidy : book.Tidy) :
    Tidy { book with app := launch book.app.prefs book.app.files } := by
  have loads : App.step toLowerCaseAscii
      { prefs := book.app.prefs, files := book.app.files } .loadChats =
        some (launch book.app.prefs book.app.files) := rfl
  have listed : (launch book.app.prefs book.app.files).listedIds =
      book.app.storedIds := App.listedIds_loadChats
  refine ⟨(App.catalogued_launch _ _).step loads, ?_, tidy.stored, ?_,
    tidy.filed, tidy.empty⟩
  · rw [listed]
    exact tidy.stored
  · intro chatId stored
    rw [listed]
    exact stored

/-- A new chat is stored with the listed ones, under an id that is none of
theirs. -/
theorem Tidy.createNewChat
    (tidy : book.Tidy)
    (free : App.maxId book.app.viewModel.chats + 1 ∉ book.app.listedIds)
    (fired : book.app.step toLowerCase .createNewChat =
      some book.app.createNewChat) :
    Tidy
      { app := book.app.createNewChat
        unsent := book.unsentAfter .createNewChat } := by
  have nodup : (book.app.listedIds ++
      [App.maxId book.app.viewModel.chats + 1]).Nodup := by
    rw [List.nodup_append]
    refine ⟨tidy.listed, List.nodup_singleton _, ?_⟩
    rintro chatId present other new rfl
    exact free (List.mem_singleton.mp new ▸ present)
  have kept (chatId : JInt) : storedMessages book.app.createNewChat chatId =
      storedMessages book.app chatId :=
    storedMessages_step (by simp) (by simp) fired chatId
  refine ⟨tidy.catalogued.step fired, ?_, ?_, ?_, ?_, ?_⟩
  · rw [App.listedIds_createNewChat]
    exact nodup
  · rw [App.storedIds_createNewChat]
    exact nodup
  · intro chatId stored
    rw [App.storedIds_createNewChat] at stored
    rw [App.listedIds_createNewChat]
    exact stored
  · intro chatId written
    rw [kept] at written
    rw [App.storedIds_createNewChat]
    exact List.mem_append_left _ (tidy.covered chatId (tidy.filed chatId written))
  · intro chatId unsent
    rw [kept]
    rcases List.mem_cons.mp unsent with rfl | earlier
    · -- an id that is not listed is not stored, and so has no messages
      by_contra written
      exact free (tidy.covered _ (tidy.filed _ written))
    · exact tidy.empty chatId earlier

/-- Deleting a chat keeps the files tidy, whichever object is deleted. -/
theorem Tidy.deleteChat
    (tidy : book.Tidy)
    {chat : ChatObject}
    (exposed : chat ∈ book.app.viewModel.exposed)
    (fired : book.app.step toLowerCase (.deleteChat chat) =
      some (book.app.deleteChat chat)) :
    Tidy
      { app := book.app.deleteChat chat
        unsent := book.unsentAfter (.deleteChat chat) } := by
  refine ⟨tidy.catalogued.step fired, ?_, ?_, ?_,
    filed_deleteChat chat tidy.filed, ?_⟩
  · exact tidy.listed.sublist ((List.eraseP_sublist).map _)
  · rw [App.storedIds_deleteChat]
    exact tidy.stored.erase chat.id
  · intro chatId stored
    rw [App.storedIds_deleteChat, tidy.stored.mem_erase_iff] at stored
    exact mem_listedIds_deleteChat tidy.catalogued exposed stored.1
      (tidy.covered chatId stored.2)
  · intro chatId unsent
    rw [storedMessages_deleteChat]
    split
    case isTrue => rfl
    case isFalse => exact tidy.empty chatId unsent

/-- The runnable of a token keeps the files tidy when it is in time. -/
theorem Tidy.runPosted
    {app : App}
    {index : Nat}
    {token : JString}
    {rest : List (Nat × JString)}
    (tidy : book.Tidy)
    (queued : book.app.viewModel.posted = (index, token) :: rest)
    (inTime : book.InTime toLowerCase (.event .runPosted))
    (fired : book.app.step toLowerCase .runPosted = some app)
    (ran : app = (book.app.withViewModel { book.app.viewModel with
      posted := rest }).runToken toLowerCase index token) :
    Tidy { app := app, unsent := book.unsentAfter .runPosted } := by
  have same := App.sameChats_step (by simp) (by simp) (by simp) fired
  have written := storedMessages_runToken toLowerCase
    (book.app.withViewModel { book.app.viewModel with posted := rest }) index
    token
  rw [← ran] at written
  have ownChat := inTime (index, token) (by rw [queued]; rfl)
  have listedIds : app.listedIds = book.app.listedIds :=
    congrArg (List.map _) same.chats
  have storedIds : app.storedIds = book.app.storedIds :=
    congrArg (List.map _) same.stored
  refine ⟨tidy.catalogued.step fired, ?_, ?_, ?_, ?_, ?_⟩
  · exact listedIds ▸ tidy.listed
  · exact storedIds ▸ tidy.stored
  · dsimp only
    rw [listedIds, storedIds]
    exact tidy.covered
  · intro chatId nonempty
    dsimp only at nonempty ⊢
    rw [storedIds]
    rcases written chatId with unchanged | ⟨finalizes, rfl⟩
    · exact tidy.filed chatId (unchanged ▸ nonempty)
    · exact (ownChat finalizes).1
  · intro chatId unsent
    rcases written chatId with unchanged | ⟨finalizes, rfl⟩
    · exact unchanged.trans (tidy.empty chatId unsent)
    · exact absurd unsent (ownChat finalizes).2

/-- An occurrence that is in time keeps the book tidy. -/
theorem Tidy.step
    {occurrence : Occurrence}
    (tidy : book.Tidy)
    (inTime : book.InTime toLowerCase occurrence)
    (fired : book.step toLowerCase occurrence = some next) :
    next.Tidy := by
  cases occurrence with
  | restart =>
      cases fired
      exact tidy.restart
  | event event =>
      obtain ⟨app, stepped, rfl⟩ := Option.map_eq_some_iff.mp fired
      obtain ⟨_, fires⟩ := App.fires_of_step stepped
      cases fires with
      | createNewChat =>
          refine tidy.createNewChat (fun listed => ?_) stepped
          have both := (App.newId_mem_iff _).mp listed
          exact inTime.elim (fun top => top both.1) (fun low => low both.2)
      | deleteChat chat exposed => exact tidy.deleteChat exposed stepped
      | runPosted index token rest queued =>
          exact tidy.runPosted queued inTime stepped rfl
      | loadChats =>
          refine ⟨tidy.catalogued.step stepped, ?_, tidy.stored, ?_, tidy.filed,
            tidy.empty⟩
          · rw [App.listedIds_loadChats]
            exact tidy.stored
          · intro chatId stored
            rw [App.listedIds_loadChats]
            exact stored
      | sendMessage userText sent =>
          exact ⟨tidy.catalogued.step stepped, tidy.listed, tidy.stored,
            tidy.covered, tidy.filed, fun chatId unsent =>
              tidy.empty chatId (List.mem_of_mem_filter unsent)⟩
      | saveSettings | loadMessages | deliver | post | endStream =>
          exact ⟨tidy.catalogued.step stepped, tidy.listed, tidy.stored,
            tidy.covered, tidy.filed, tidy.empty⟩

/-- A chat that is created in time gets an id that no listed chat has. -/
theorem newIdUnlisted_of_inTime
    {occurrence : Occurrence}
    (inTime : book.InTime toLowerCase occurrence) :
    book.NewIdUnlisted toLowerCase occurrence := by
  rintro rfl next fired
  obtain ⟨app, stepped, rfl⟩ := Option.map_eq_some_iff.mp fired
  obtain ⟨_, fires⟩ := App.fires_of_step stepped
  cases fires
  refine ⟨App.maxId book.app.viewModel.chats + 1, fun listed => ?_,
    App.listedIds_createNewChat, List.mem_cons_self⟩
  have both := (App.newId_mem_iff _).mp listed
  exact inTime.elim (fun top => top both.1) (fun low => low both.2)

end Steps

section Runs

variable {prefs : Prefs}
variable {files : UserFiles}
variable {occurrences : List Occurrence}

/-- The first process of a user who has no directory yet. -/
theorem tidy_launch
    (missing : files (Prefs.orNull prefs.username) = none) :
    Tidy { app := launch prefs files } := by
  have loads : App.step toLowerCaseAscii { prefs := prefs, files := files }
      .loadChats = some (launch prefs files) := rfl
  have directory : files.directory (Prefs.orNull prefs.username) = {} := by
    rw [UserFiles.directory, missing, Option.getD_none]
  have stored : (launch prefs files).storedIds = [] := by
    change (UserFiles.loadChats files (Prefs.orNull prefs.username)).map _ = []
    rw [UserFiles.loadChats, directory]
    rfl
  have listed : (launch prefs files).listedIds = [] :=
    App.listedIds_loadChats.trans stored
  refine ⟨(App.catalogued_launch prefs files).step loads, ?_, ?_, ?_, ?_,
    by simp [NewChatsEmpty]⟩
  · rw [listed]
    exact List.nodup_nil
  · rw [stored]
    exact List.nodup_nil
  · rw [stored]
    simp
  · intro chatId written
    refine absurd ?_ written
    change UserFiles.loadMessages files (Prefs.orNull prefs.username) chatId = []
    rw [UserFiles.loadMessages, directory]
    rfl

/-- Where every generation is finalized while its chat is there, every new chat
has an id of its own and no messages until one is sent in it. -/
theorem newChatsEmpty_of_inTime
    (missing : files (Prefs.orNull prefs.username) = none)
    (guarded : (machine toLowerCase).Guarded (InTime toLowerCase)
      { app := launch prefs files } occurrences) :
    (machine toLowerCase).Always NewChatsEmpty
        { app := launch prefs files } occurrences ∧
      (machine toLowerCase).Guarded (NewIdUnlisted toLowerCase)
        { app := launch prefs files } occurrences := by
  have kept : ∀ book occurrence next, Tidy book →
      InTime toLowerCase book occurrence →
        (machine toLowerCase).step book occurrence = some next → next.Tidy :=
    fun _ _ _ tidy inTime fired => tidy.step inTime fired
  exact ⟨Transition.Machine.always_of_guarded kept
      (fun _ tidy => tidy.empty) guarded (tidy_launch missing),
    Transition.Machine.guarded_mono kept
      (fun _ _ _ inTime => newIdUnlisted_of_inTime inTime) guarded
      (tidy_launch missing)⟩

/-- A chat that is answered and then deleted gives its id to the next one. -/
theorem newChatsEmpty_of_answered_chat :
    (machine toLowerCaseAscii).Always NewChatsEmpty
        { app := launch {} fun _ => none }
        [.event .createNewChat, .event (.sendMessage (jstr "hi") 1),
          .event (.deliver 0 (jstr "###")), .event (.post 0),
          .event .runPosted, .event (.deleteChat ⟨⟨jstr "Chat 1", 1⟩, 0⟩),
          .event .createNewChat, .restart] ∧
      (machine toLowerCaseAscii).Guarded (NewIdUnlisted toLowerCaseAscii)
        { app := launch {} fun _ => none }
        [.event .createNewChat, .event (.sendMessage (jstr "hi") 1),
          .event (.deliver 0 (jstr "###")), .event (.post 0),
          .event .runPosted, .event (.deleteChat ⟨⟨jstr "Chat 1", 1⟩, 0⟩),
          .event .createNewChat, .restart] :=
  newChatsEmpty_of_inTime rfl (by decide +kernel)

/-- The chat is deleted while its answer is on the way: the answer is saved
under the id of the deleted chat, which the next chat gets. -/
theorem not_newChatsEmpty_of_late_answer :
    ∃ book,
      (machine toLowerCaseAscii).run { app := launch {} fun _ => none }
        [.event .createNewChat, .event (.sendMessage (jstr "hi") 1),
          .event (.deliver 0 (jstr "###")), .event (.post 0),
          .event (.deleteChat ⟨⟨jstr "Chat 1", 1⟩, 0⟩), .event .runPosted,
          .event .createNewChat] = some book ∧
      book.app.storedIds = [1] ∧
      book.unsent = [1] ∧
      storedMessages book.app 1 = [⟨jstr "hi", 0⟩, ⟨[], 1⟩] ∧
      ¬book.NewChatsEmpty := by
  obtain ⟨book, ran, seen⟩ := Option.map_eq_some_iff.mp
    (show ((machine toLowerCaseAscii).run { app := launch {} fun _ => none }
        [.event .createNewChat, .event (.sendMessage (jstr "hi") 1),
          .event (.deliver 0 (jstr "###")), .event (.post 0),
          .event (.deleteChat ⟨⟨jstr "Chat 1", 1⟩, 0⟩), .event .runPosted,
          .event .createNewChat]).map
        (fun book => (book.app.storedIds, book.unsent,
          storedMessages book.app 1)) =
      some ([1], [1], [⟨jstr "hi", 0⟩, ⟨[], 1⟩]) by decide +kernel)
  simp only [Prod.mk.injEq] at seen
  obtain ⟨stored, unsent, found⟩ := seen
  refine ⟨book, ran, stored, unsent, found, fun empty => ?_⟩
  have nothing := empty 1 (by rw [unsent]; exact List.mem_cons_self)
  rw [found] at nothing
  cases nothing

end Runs

end Book
end Chat
end IdoProject
