import IdoProject.Store.TextFiles

/-!
# Interrupted writes

A write that stops may lose the list it was about to replace: what is left of
the new text is read as null when it is empty and as an empty list when its
brackets are not closed.  There is no other possibility; a list that is neither
the old one nor the new one is empty.
-/

namespace IdoProject
namespace Store

open Java Syntax

/-- What is loaded after a call that was to store `new`. -/
def Fate.outcome
    {Item : Type u}
    (old : Option (List Item))
    (size : Nat)
    (new : List Item) : Fate → Option (List Item)
  | .notOpened _ => old
  | .stopped count _ =>
      if size ≤ count then some new else if count = 0 then none else some []

section Leaves

variable {Item : Type u}
variable {gson : Gson Item}
variable {items : List Item}
variable {fate : Fate}

/-- The first character of a list is a bracket, of a single byte. -/
theorem count_pos_of_cut
    {count replaced : Nat}
    (possible : Fate.Possible (gson.toJson items) (.stopped count replaced))
    (cut : replaced ≠ 0) :
    0 < count := by
  apply Nat.pos_of_ne_zero
  rintro rfl
  rcases possible with none | ⟨unit, first, wide⟩
  · exact cut none
  · cases first
    exact absurd wide (by decide)

/-- A beginning of the text of a list throws, unless it is empty or complete. -/
theorem load_beginning
    {count replaced : Nat}
    (strict : gson.Strict)
    (readsBack : gson.ReadsBack items)
    (positive : 0 < count)
    (proper : count < (gson.toJson items).length) :
    load gson (some ((gson.toJson items).take count ++
      List.replicate replaced 0xFFFD)) = some [] := by
  have oneLine : ∀ unit ∈ (gson.toJson items).take count ++
      List.replicate replaced 0xFFFD, unit ≠ 10 ∧ unit ≠ 13 := by
    intro unit present
    rcases List.mem_append.mp present with written | cut
    · exact readsBack.oneLine_toJson unit (List.mem_of_mem_take written)
    · rw [List.eq_of_mem_replicate cut]
      decide
  have unterminated : Unterminated jsonKind ((gson.toJson items).take count ++
      List.replicate replaced 0xFFFD) := by
    apply Unterminated.append_other
    · apply unterminated_take_of_enclosed rfl rfl ?_ positive proper
      intro text listed
      obtain ⟨item, stored, rfl⟩ := List.mem_map.mp listed
      exact readsBack.balanced item stored
    · intro unit cut
      rw [List.eq_of_mem_replicate cut]
      rfl
  simp only [load, readFile_eq oneLine, strict.unterminated _ unterminated]

/-- What a write leaves is loaded as the fate of the write decides. -/
theorem load_leaves
    (strict : gson.Strict)
    (readsBack : gson.ReadsBack items)
    (possible : fate.Possible (gson.toJson items))
    (before : Option JString) :
    load gson (fate.leaves (gson.toJson items) before) =
      fate.outcome (load gson before) (gson.toJson items).length items := by
  cases fate with
  | notOpened => rfl
  | stopped count replaced =>
      simp only [Fate.leaves, Fate.outcome]
      split
      case isTrue complete =>
        have uncut : replaced = 0 := by
          rcases possible with uncut | ⟨unit, next, _⟩
          · exact uncut
          · rw [List.getElem?_eq_none complete] at next
            cases next
        rw [uncut, List.replicate_zero, List.append_nil,
          List.take_of_length_le complete]
        exact readsBack.load_toJson
      case isFalse partly =>
        split
        case isTrue nothing =>
          have uncut : replaced = 0 := by
            by_contra cut
            exact absurd (count_pos_of_cut possible cut) (by omega)
          rw [uncut, nothing]
          simp only [load, List.take_zero, List.replicate_zero,
            List.append_nil]
          rw [show readFile [] = [] from rfl, strict.empty]
        case isFalse something =>
          exact load_beginning strict readsBack (by omega) (by omega)

end Leaves

namespace TextFiles

variable {chatGson : Gson ChatRecord}
variable {messageGson : Gson Message}
variable {files : TextFiles}
variable {username : JString}
variable {chatId : JInt}
variable {chats : List ChatRecord}
variable {messages : List Message}
variable {fate : Fate}

/-- The directory after the chats were written: the chats are what the write
left, and the messages are as they were. -/
theorem directory_saveChats :
    (files.saveChats chatGson username chats fate).directory username =
      { files.directory username with
        chats := fate.leaves (chatGson.toJson chats)
          (files.directory username).chats } := by
  unfold saveChats
  split
  · rfl
  · simp [directory]

/-- The directory after messages were written: those of the chat are what the
write left, and the rest is as it was. -/
theorem directory_saveMessages :
    (files.saveMessages messageGson username chatId messages fate).directory
        username =
      { files.directory username with
        messages := Function.update (files.directory username).messages chatId
          (fate.leaves (messageGson.toJson messages)
            ((files.directory username).messages chatId)) } := by
  unfold saveMessages
  split
  · simp [Fate.leaves]
  · simp [directory]

/-- The directory after a message file was deleted. -/
theorem directory_deleteMessages :
    (files.deleteMessages username chatId).directory username =
      { files.directory username with
        messages := Function.update (files.directory username).messages chatId
          none } := by
  unfold deleteMessages directory
  cases found : files username with
  | none =>
      dsimp only
      rw [found, Option.getD_none]
      congr 1
      funext other
      simp [Function.update_apply]
  | some directory => simp

/-- The lists after an interrupted `saveChats`. -/
theorem load_saveChats
    (strict : chatGson.Strict)
    (readsBack : chatGson.ReadsBack chats)
    (possible : fate.Possible (chatGson.toJson chats)) :
    (files.saveChats chatGson username chats fate).loadChats chatGson
          username =
        fate.outcome (files.loadChats chatGson username)
          (chatGson.toJson chats).length chats ∧
      ∀ other,
        (files.saveChats chatGson username chats fate).loadMessages messageGson
            username other =
          files.loadMessages messageGson username other := by
  unfold loadChats loadMessages
  rw [directory_saveChats]
  exact ⟨load_leaves strict readsBack possible _, fun _ => rfl⟩

/-- The lists after an interrupted `saveMessages`. -/
theorem load_saveMessages
    (strict : messageGson.Strict)
    (readsBack : messageGson.ReadsBack messages)
    (possible : fate.Possible (messageGson.toJson messages)) :
    (files.saveMessages messageGson username chatId messages fate).loadMessages
          messageGson username chatId =
        fate.outcome (files.loadMessages messageGson username chatId)
          (messageGson.toJson messages).length messages ∧
      (files.saveMessages messageGson username chatId messages fate).loadChats
          chatGson username =
        files.loadChats chatGson username ∧
      ∀ other, other ≠ chatId →
        (files.saveMessages messageGson username chatId messages
            fate).loadMessages messageGson username other =
          files.loadMessages messageGson username other := by
  unfold loadChats loadMessages
  rw [directory_saveMessages]
  refine ⟨?_, rfl, fun other different => ?_⟩
  · dsimp only
    rw [Function.update_self]
    exact load_leaves strict readsBack possible _
  · dsimp only
    rw [Function.update_of_ne different]

/-- The chats that `removeChat` stores, when it finds the chat. -/
def remaining
    (chatGson : Gson ChatRecord)
    (files : TextFiles)
    (username : JString)
    (chatId : JInt) : Option (List ChatRecord) :=
  match files username, files.loadChats chatGson username with
  | some _, some chats =>
      if chats.any (·.id == chatId) then
        some (chats.eraseP (·.id == chatId))
      else none
  | _, _ => none

/-- `removeChat` by what it stores. -/
theorem removeChat_eq
    {died : Bool} :
    files.removeChat chatGson username chatId fate died =
      match files.remaining chatGson username chatId with
      | none => files
      | some new =>
          if died then files.saveChats chatGson username new fate
          else
            (files.saveChats chatGson username new fate).deleteMessages
              username chatId := by
  unfold removeChat remaining
  cases files username with
  | none => rfl
  | some directory =>
      cases files.loadChats chatGson username with
      | none => rfl
      | some chats =>
          dsimp only
          split <;> rfl

/-- The lists after an interrupted `removeChat` of a chat that is there. -/
theorem load_removeChat
    {died : Bool}
    (strict : chatGson.Strict)
    (stores : files.remaining chatGson username chatId = some chats)
    (readsBack : chatGson.ReadsBack chats)
    (possible : fate.Possible (chatGson.toJson chats)) :
    (files.removeChat chatGson username chatId fate died).loadChats chatGson
          username =
        fate.outcome (files.loadChats chatGson username)
          (chatGson.toJson chats).length chats ∧
      (files.removeChat chatGson username chatId fate died).loadMessages
          messageGson username chatId =
        (if died then files.loadMessages messageGson username chatId
        else some []) ∧
      ∀ other, other ≠ chatId →
        (files.removeChat chatGson username chatId fate died).loadMessages
            messageGson username other =
          files.loadMessages messageGson username other := by
  obtain ⟨kept, untouched⟩ :=
    @load_saveChats chatGson messageGson files username _ fate strict readsBack
      possible
  rw [removeChat_eq, stores]
  dsimp only
  cases died with
  | true => exact ⟨kept, untouched chatId, fun other _ => untouched other⟩
  | false =>
      rw [if_neg Bool.false_ne_true, if_neg Bool.false_ne_true]
      refine ⟨?_, ?_, fun other different => ?_⟩
      · unfold loadChats at kept ⊢
        rw [directory_deleteMessages]
        exact kept
      · unfold loadMessages
        rw [directory_deleteMessages]
        dsimp only
        rw [Function.update_self]
        rfl
      · rw [← untouched other]
        unfold loadMessages
        rw [directory_deleteMessages]
        dsimp only
        rw [Function.update_of_ne different]

/-- A call that stores a list. -/
inductive Call where
  /-- `saveChats` -/
  | saveChats (chats : List ChatRecord)
  /-- `saveMessages` -/
  | saveMessages (chatId : JInt) (messages : List Message)
  /-- `removeChat` -/
  | removeChat (chatId : JInt)

/-- The store after a call that comes so far. -/
def perform
    (chatGson : Gson ChatRecord)
    (messageGson : Gson Message)
    (files : TextFiles)
    (username : JString)
    (fate : Fate)
    (died : Bool) : Call → TextFiles
  | .saveChats chats => files.saveChats chatGson username chats fate
  | .saveMessages chatId messages =>
      files.saveMessages messageGson username chatId messages fate
  | .removeChat chatId => files.removeChat chatGson username chatId fate died

/-- The chats the call is storing. -/
def Call.newChats
    (chatGson : Gson ChatRecord)
    (files : TextFiles)
    (username : JString) : Call → Option (List ChatRecord)
  | .saveChats chats => some chats
  | .saveMessages _ _ => none
  | .removeChat chatId => files.remaining chatGson username chatId

/-- The messages the call is storing for a chat. -/
def Call.newMessages (chatId : JInt) : Call → Option (List Message)
  | .saveMessages written messages =>
      if written = chatId then some messages else none
  | _ => none

/-- The call gets as far as deleting the message file of the chat. -/
def Call.deletes
    (chatGson : Gson ChatRecord)
    (files : TextFiles)
    (username : JString)
    (chatId : JInt)
    (died : Bool) : Call → Bool
  | .removeChat removed =>
      removed == chatId && !died &&
        (files.remaining chatGson username removed).isSome
  | _ => false

/-- A later load returns the list stored before when the call stopped before it
opened the file, the list it was storing when all of it was written, null when
nothing was written, and an empty list otherwise.  What the call does not store
is as before, apart from the message file that `removeChat` deletes. -/
theorem load_perform
    {died : Bool}
    (call : Call)
    (strictChats : chatGson.Strict)
    (strictMessages : messageGson.Strict)
    (writesChats : ∀ new, call.newChats chatGson files username = some new →
      chatGson.ReadsBack new ∧ fate.Possible (chatGson.toJson new))
    (writesMessages : ∀ chatId new, call.newMessages chatId = some new →
      messageGson.ReadsBack new ∧ fate.Possible (messageGson.toJson new)) :
    (perform chatGson messageGson files username fate died call).loadChats
          chatGson username =
        (match call.newChats chatGson files username with
        | some new =>
            fate.outcome (files.loadChats chatGson username)
              (chatGson.toJson new).length new
        | none => files.loadChats chatGson username) ∧
      ∀ chatId,
        (perform chatGson messageGson files username fate died
            call).loadMessages messageGson username chatId =
          match call.newMessages chatId with
          | some new =>
              fate.outcome (files.loadMessages messageGson username chatId)
                (messageGson.toJson new).length new
          | none =>
              if call.deletes chatGson files username chatId died then some []
              else files.loadMessages messageGson username chatId := by
  cases call with
  | saveChats chats =>
      obtain ⟨readsBack, possible⟩ := writesChats chats rfl
      exact load_saveChats strictChats readsBack possible
  | saveMessages written messages =>
      obtain ⟨readsBack, possible⟩ := writesMessages written messages (by
        rw [Call.newMessages, if_pos rfl])
      obtain ⟨own, kept, others⟩ :=
        @load_saveMessages chatGson messageGson files username written messages
          fate strictMessages readsBack possible
      refine ⟨kept, fun chatId => ?_⟩
      by_cases same : written = chatId
      · subst same
        rw [Call.newMessages, if_pos rfl]
        exact own
      · rw [Call.newMessages, if_neg same]
        exact others chatId (Ne.symm same)
  | removeChat removed =>
      have storing : (Call.removeChat removed).newChats chatGson files
          username = files.remaining chatGson username removed := rfl
      have deleting (chatId : JInt) :
          (Call.removeChat removed).deletes chatGson files username chatId
              died =
            (removed == chatId && !died &&
              (files.remaining chatGson username removed).isSome) := rfl
      have silent (chatId : JInt) :
          (Call.removeChat removed).newMessages chatId = none := rfl
      rw [perform, storing]
      rcases Option.eq_none_or_eq_some
        (files.remaining chatGson username removed) with stores | ⟨new, stores⟩
      · rw [removeChat_eq, stores]
        refine ⟨rfl, fun chatId => ?_⟩
        rw [silent, deleting, stores]
        simp
      · obtain ⟨readsBack, possible⟩ := writesChats new stores
        obtain ⟨stored, own, others⟩ :=
          @load_removeChat chatGson messageGson files username removed new
            fate died strictChats stores readsBack possible
        rw [stores]
        refine ⟨stored, fun chatId => ?_⟩
        rw [silent, deleting, stores]
        by_cases same : removed = chatId
        · subst same
          cases died <;> simpa using own
        · simpa [same] using others chatId (Ne.symm same)

end TextFiles

/-! ## A concrete codec -/

/-- A codec that reads back the lists it knows. -/
def knownLists
    {Item : Type u}
    (itemJson : Item → JString)
    (known : List (List Item)) : Gson Item where
  itemJson := itemJson
  fromJson := fun text =>
    if text = [] then some none
    else
      (known.find? fun items =>
        enclosed 91 44 93 (items.map itemJson) = text).map some

theorem strict_knownLists
    {Item : Type u}
    {itemJson : Item → JString}
    {known : List (List Item)}
    (closed : ∀ items ∈ known,
      ¬ Unterminated jsonKind (enclosed 91 44 93 (items.map itemJson))) :
    (knownLists itemJson known).Strict where
  empty := rfl
  unterminated := by
    intro text open_
    have nonempty : text ≠ [] := by
      rintro rfl
      exact absurd open_ (by decide)
    simp only [knownLists]
    rw [if_neg nonempty, Option.map_eq_none_iff, List.find?_eq_none]
    intro items listed
    simp only [decide_eq_true_eq]
    rintro rfl
    exact closed items listed open_

/-- The JSON text of a chat. -/
def chatJson (chat : ChatRecord) : JString :=
  jstr "\x7b\"name\":\"" ++ chat.name ++ jstr "\",\"id\":" ++
    jstr (toString chat.id) ++ jstr "\x7d"

/-- The JSON text of a message. -/
def messageJson (message : Message) : JString :=
  jstr "\x7b\"content\":\"" ++ message.content ++ jstr "\",\"sender\":" ++
    jstr (toString message.sender) ++ jstr "\x7d"

/-- A user's first two chats. -/
def firstChats : List ChatRecord :=
  [⟨jstr "Chat 1", 1⟩, ⟨jstr "Chat 2", 2⟩]

/-- A codec for the first chats. -/
def miniChats : Gson ChatRecord :=
  knownLists chatJson [[], firstChats.take 1, firstChats]

/-- A codec for a chat without messages. -/
def miniMessages : Gson Message :=
  knownLists messageJson [[]]

theorem strict_miniChats : miniChats.Strict :=
  strict_knownLists (by decide +kernel)

theorem strict_miniMessages : miniMessages.Strict :=
  strict_knownLists (by decide +kernel)

theorem readsBack_firstChats : miniChats.ReadsBack firstChats := by
  have oneLine : (firstChats.all fun item => (miniChats.itemJson item).all
      fun unit => decide (unit ≠ 10 ∧ unit ≠ 13)) = true := by decide +kernel
  refine ⟨by decide +kernel, fun item listed unit present => ?_,
    by decide +kernel⟩
  have ofItem := List.all_eq_true.mp oneLine item listed
  exact of_decide_eq_true (List.all_eq_true.mp ofItem unit present)

/-- The store of a user who has one chat. -/
def oneChat : TextFiles := fun username =>
  if username = jstr "ann" then
    some { chats := some (miniChats.toJson (firstChats.take 1)) }
  else none

namespace TextFiles

/-- The second chat is being saved and the disk is full after ten characters:
the chats are gone. -/
theorem load_perform_of_full_disk :
    (perform miniChats miniMessages oneChat (jstr "ann") (.stopped 10 0) false
        (.saveChats firstChats)).loadChats miniChats (jstr "ann") = some [] ∧
      ∀ chatId,
        (perform miniChats miniMessages oneChat (jstr "ann") (.stopped 10 0)
            false (.saveChats firstChats)).loadMessages miniMessages
              (jstr "ann") chatId = some [] := by
  obtain ⟨chats, messages⟩ :=
    @load_perform miniChats miniMessages oneChat (jstr "ann") (.stopped 10 0)
      false (.saveChats firstChats) strict_miniChats strict_miniMessages
      (by
        intro new stores
        cases stores
        exact ⟨readsBack_firstChats, Or.inl rfl⟩)
      (by
        intro chatId new stores
        cases stores)
  refine ⟨chats.trans (by decide +kernel), fun chatId => ?_⟩
  exact (messages chatId).trans rfl

/-- The second chat is being saved and the process dies right after the file was
truncated: the chats are null. -/
theorem not_all_or_nothing :
    ¬ ∀ (files : TextFiles) (chats : List ChatRecord) (fate : Fate),
      miniChats.ReadsBack chats →
      fate.Possible (miniChats.toJson chats) →
      (files.saveChats miniChats (jstr "ann") chats fate).loadChats miniChats
            (jstr "ann") = files.loadChats miniChats (jstr "ann") ∨
        (files.saveChats miniChats (jstr "ann") chats fate).loadChats miniChats
            (jstr "ann") = some chats := by
  intro claim
  have lost := claim oneChat firstChats (.stopped 0 0) readsBack_firstChats
    (Or.inl rfl)
  revert lost
  decide +kernel

end TextFiles

end Store
end IdoProject
