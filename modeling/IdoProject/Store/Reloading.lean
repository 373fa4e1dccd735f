import IdoProject.Store.Serving

/-!
# Lists that are saved and loaded

`JsonHelper` on the bytes in the files, where every file operation succeeds; the
texts that are read from them are those of the text files.  `readFile` leaves
the line breaks of the file out, which loses nothing because Gson writes a list
on one line.  So a list is loaded as it was saved, whatever is saved, loaded or
removed for other chats in between.  The files of the phone hold what is read
from the bytes.
-/

namespace IdoProject
namespace Store

open Java Syntax

/-- The directories of the users, with the bytes in their files. -/
abbrev ByteFiles := JString → Option (UserDirectory (List UInt8) (List UInt8))

/-- The loop of `readFile`, which appends line after line. -/
def appendLines (text : JString) : JString :=
  match _ : readLine text with
  | none => []
  | some (line, rest) => line ++ appendLines rest
termination_by text.length
decreasing_by exact readLine_shorter (by assumption)

namespace ByteFiles

/-- A call for a user. -/
inductive Call where
  | loadChats
  | saveChats (chats : List ChatRecord)
  | loadMessages (chatId : JInt)
  | saveMessages (chatId : JInt) (messages : List Message)
  | removeChat (chatId : JInt)

/-- The chat whose messages a call saves or removes. -/
def Call.chat : Call → Option JInt
  | .saveMessages chatId _ | .removeChat chatId => some chatId
  | _ => none

/-- A call that saves the list of chats. -/
def Call.isSaveChats : Call → Bool
  | .saveChats _ => true
  | _ => false

/-- The chats that a call leaves in a list. -/
def Call.left (chats : List ChatRecord) : Call → List ChatRecord
  | .removeChat chatId => chats.eraseP (·.id == chatId)
  | _ => chats

section Operations

variable (replaced : List UInt8 → JString)
variable (chatGson : Gson ChatRecord)
variable (messageGson : Gson Message)

/-- `readFile` -/
def readFile (bytes : List UInt8) : JString :=
  appendLines (decode replaced bytes)

/-- The list in a file, where `none` is null. -/
def load
    {Item : Type}
    (gson : Gson Item) : Option (List UInt8) → Option (List Item)
  | none => some []
  | some bytes =>
      match gson.fromJson (readFile replaced bytes) with
      | none => some []
      | some items => items

/-- The directory, empty where it is missing. -/
def directory (files : ByteFiles) (username : JString) :
    UserDirectory (List UInt8) (List UInt8) :=
  (files username).getD {}

/-- `loadChats` -/
def loadChats
    (files : ByteFiles)
    (username : JString) : Option (List ChatRecord) :=
  load replaced chatGson (files.directory username).chats

/-- `loadMessages` -/
def loadMessages
    (files : ByteFiles)
    (username : JString)
    (chatId : JInt) : Option (List Message) :=
  load replaced messageGson ((files.directory username).messages chatId)

/-- `saveChats` -/
def saveChats
    (files : ByteFiles)
    (username : JString)
    (chats : List ChatRecord) : ByteFiles :=
  Function.update files username
    (some { files.directory username with
      chats := some (encode (chatGson.toJson chats)) })

/-- `saveMessages` -/
def saveMessages
    (files : ByteFiles)
    (username : JString)
    (chatId : JInt)
    (messages : List Message) : ByteFiles :=
  Function.update files username
    (some { files.directory username with
      messages := Function.update (files.directory username).messages chatId
        (some (encode (messageGson.toJson messages))) })

/-- Delete the message file of a chat. -/
def deleteMessages
    (files : ByteFiles)
    (username : JString)
    (chatId : JInt) : ByteFiles :=
  Function.update files username
    (some { files.directory username with
      messages := Function.update (files.directory username).messages chatId
        none })

/-- `removeChat`.  Null in place of the chats is an exception that the method
swallows. -/
def removeChat
    (files : ByteFiles)
    (username : JString)
    (chatId : JInt) : ByteFiles :=
  if (files username).isNone then files
  else
    match files.loadChats replaced chatGson username with
    | none => files
    | some chats =>
        if chats.any (·.id == chatId) then
          (files.saveChats chatGson username
            (chats.eraseP (·.id == chatId))).deleteMessages username chatId
        else files

/-- What a call leaves.  One that loads leaves everything as it is. -/
def perform
    (files : ByteFiles)
    (username : JString) : Call → ByteFiles
  | .loadChats => files
  | .saveChats chats => files.saveChats chatGson username chats
  | .loadMessages _ => files
  | .saveMessages chatId messages =>
      files.saveMessages messageGson username chatId messages
  | .removeChat chatId => files.removeChat replaced chatGson username chatId

/-- What calls leave, one after the other. -/
def run
    (files : ByteFiles)
    (username : JString)
    (calls : List Call) : ByteFiles :=
  calls.foldl
    (fun files call =>
      files.perform replaced chatGson messageGson username call) files

end Operations

section Texts

variable {replaced : List UInt8 → JString}
variable {escape : JChar → JString}
variable {text : JString}

/-- The lines together are the text without its line breaks. -/
theorem appendLines_eq
    (text : JString) :
    appendLines text = Store.readFile text := by
  have kept : Store.readFile text = text.filter inLine := rfl
  rw [kept]
  fun_induction appendLines text with
  | case1 text reads =>
      unfold readLine at reads
      split at reads
      case isTrue empty => rw [empty, List.filter_nil]
      case isFalse => cases reads
  | case2 text line rest reads inductionHypothesis =>
      rw [inductionHypothesis rfl, filter_of_readLine reads]

/-- One line is read as it was written. -/
theorem readFile_encode
    (line : IsLine text) :
    readFile replaced (encode text) = text := by
  unfold readFile
  rw [decode_encode line.paired, appendLines_eq]
  apply readFile_eq
  intro unit among
  have above := line.clean unit among
  constructor
  · rintro rfl
    exact absurd above (by decide)
  · rintro rfl
    exact absurd above (by decide)

/-- A list of which every item is JSON is loaded as it was written. -/
theorem load_encode
    {Item : Type}
    {gson : Gson Item}
    {items : List Item}
    (escapes : Escapes escape)
    (json : ∀ item ∈ items, IsJson escape (gson.itemJson item))
    (readsBack : gson.fromJson (gson.toJson items) = some (some items)) :
    load replaced gson (some (encode (gson.toJson items))) = some items := by
  have whole : IsJson escape (gson.toJson items) := by
    apply IsJson.array
    intro text among
    obtain ⟨item, listed, rfl⟩ := List.mem_map.mp among
    exact json item listed
  rw [load, readFile_encode (whole.isLine escapes), readsBack]

theorem isJson_chat
    {chat : ChatRecord}
    (paired : Paired chat.name) :
    IsJson escape (chatObject escape chat) := by
  apply IsJson.object [(jstr "name", quoted escape chat.name),
    (jstr "id", jstr (toString chat.id))]
  · rw [List.forall_mem_cons, List.forall_mem_singleton]
    exact ⟨⟨_, rfl⟩, ⟨_, rfl⟩⟩
  · rw [List.forall_mem_cons, List.forall_mem_singleton]
    exact ⟨IsJson.string _ paired, IsJson.number chat.id.toInt⟩

theorem isJson_message
    {message : Message}
    (paired : Paired message.content) :
    IsJson escape (messageObject escape message) := by
  apply IsJson.object [(jstr "content", quoted escape message.content),
    (jstr "sender", jstr (toString message.sender))]
  · rw [List.forall_mem_cons, List.forall_mem_singleton]
    exact ⟨⟨_, rfl⟩, ⟨_, rfl⟩⟩
  · rw [List.forall_mem_cons, List.forall_mem_singleton]
    exact ⟨IsJson.string _ paired, IsJson.number message.sender⟩

end Texts

/-! ## The texts in the files -/

/-- A directory with the texts that are read from its files. -/
def decodedDirectory
    (replaced : List UInt8 → JString)
    (directory : UserDirectory (List UInt8) (List UInt8)) :
    UserDirectory JString JString where
  chats := directory.chats.map (decode replaced)
  messages := fun chatId =>
    (directory.messages chatId).map (decode replaced)

/-- The store of bytes as the store of the texts that are read. -/
def decoded
    (replaced : List UInt8 → JString)
    (files : ByteFiles) : TextFiles :=
  fun username => (files username).map (decodedDirectory replaced)

section Decoding

variable {replaced : List UInt8 → JString}
variable {chatGson : Gson ChatRecord}
variable {messageGson : Gson Message}
variable {files : ByteFiles}
variable {username : JString}
variable {chatId : JInt}
variable {chats : List ChatRecord}
variable {messages : List Message}
variable {directory : UserDirectory (List UInt8) (List UInt8)}

theorem directory_decoded :
    (files.decoded replaced).directory username =
      decodedDirectory replaced (files.directory username) := by
  unfold TextFiles.directory ByteFiles.directory decoded
  cases files username with
  | none => rfl
  | some found => rfl

/-- A file is loaded by the text that is read from it. -/
theorem load_decoded
    {Item : Type}
    (gson : Gson Item)
    (file : Option (List UInt8)) :
    Store.load gson (file.map (decode replaced)) = load replaced gson file := by
  cases file with
  | none => rfl
  | some bytes =>
      rw [Option.map_some, Store.load, load, readFile, appendLines_eq]
      rfl

theorem loadChats_decoded :
    (files.decoded replaced).loadChats chatGson username =
      files.loadChats replaced chatGson username := by
  unfold TextFiles.loadChats
  rw [directory_decoded]
  exact load_decoded chatGson _

theorem loadMessages_decoded :
    (files.decoded replaced).loadMessages messageGson username chatId =
      files.loadMessages replaced messageGson username chatId := by
  unfold TextFiles.loadMessages
  rw [directory_decoded]
  exact load_decoded messageGson _

theorem update_decoded :
    decoded replaced (Function.update files username (some directory)) =
      Function.update (files.decoded replaced) username
        (some (decodedDirectory replaced directory)) := by
  funext other
  by_cases same : other = username
  · subst same
    simp [decoded]
  · simp [decoded, same]

/-- The bytes of a list are the bytes of a complete write of its text. -/
theorem saveChats_decoded
    (paired : Paired (chatGson.toJson chats)) :
    (files.saveChats chatGson username chats).decoded replaced =
      (files.decoded replaced).saveChats chatGson username chats
        (.complete (chatGson.toJson chats)) := by
  unfold saveChats
  rw [update_decoded]
  dsimp only [TextFiles.saveChats, Fate.complete]
  rw [← Fate.complete, Fate.leaves_complete, directory_decoded]
  unfold decodedDirectory
  rw [Option.map_some, decode_encode paired]

theorem saveMessages_decoded
    (paired : Paired (messageGson.toJson messages)) :
    (files.saveMessages messageGson username chatId messages).decoded replaced =
      (files.decoded replaced).saveMessages messageGson username chatId messages
        (.complete (messageGson.toJson messages)) := by
  unfold saveMessages
  rw [update_decoded]
  dsimp only [TextFiles.saveMessages, Fate.complete]
  rw [← Fate.complete, Fate.leaves_complete, directory_decoded]
  congr 2
  unfold decodedDirectory
  congr 1
  funext other
  by_cases same : other = chatId
  · subst same
    simp [decode_encode paired]
  · simp [same]

theorem deleteMessages_decoded
    (present : (files username).isSome) :
    (files.deleteMessages username chatId).decoded replaced =
      (files.decoded replaced).deleteMessages username chatId := by
  obtain ⟨found, here⟩ := Option.isSome_iff_exists.mp present
  have also : files.decoded replaced username =
      some (decodedDirectory replaced found) := by
    rw [decoded, here, Option.map_some]
  unfold deleteMessages TextFiles.deleteMessages
  rw [update_decoded, also, directory, here, Option.getD_some]
  dsimp only
  congr 2
  unfold decodedDirectory
  congr 1
  funext other
  by_cases same : other = chatId
  · subst same
    simp
  · simp [same]

theorem removeChat_decoded
    (loaded : files.loadChats replaced chatGson username = some chats)
    (paired : Paired (chatGson.toJson (chats.eraseP (·.id == chatId)))) :
    (files.removeChat replaced chatGson username chatId).decoded replaced =
      (files.decoded replaced).removeChat chatGson username chatId
        (.complete (chatGson.toJson (chats.eraseP (·.id == chatId)))) false := by
  unfold removeChat TextFiles.removeChat
  rw [loadChats_decoded, loaded]
  cases found : files username with
  | none =>
      rw [decoded, found]
      rfl
  | some directory =>
      rw [show files.decoded replaced username =
          some (decodedDirectory replaced directory) by
        rw [decoded, found, Option.map_some]]
      dsimp only
      rw [if_neg (show ¬(some directory).isNone from Bool.false_ne_true),
        if_neg Bool.false_ne_true, apply_ite (decoded replaced),
        deleteMessages_decoded, saveChats_decoded paired]
      rw [saveChats, Function.update_self]
      rfl

/-- A call as one of the file system, unless it only loads. -/
def Call.stored (username : JString) : Call → Option Directories.Call
  | .loadChats | .loadMessages _ => none
  | .saveChats chats => some (.saveChats username chats)
  | .saveMessages chatId messages =>
      some (.saveMessages username chatId messages)
  | .removeChat chatId => some (.removeChat username chatId)

/-- The list that a call writes has no half of a surrogate pair. -/
def Call.WritesPaired
    (replaced : List UInt8 → JString)
    (chatGson : Gson ChatRecord)
    (messageGson : Gson Message)
    (files : ByteFiles)
    (username : JString) : Call → Prop
  | .loadChats | .loadMessages _ => True
  | .saveChats chats => Paired (chatGson.toJson chats)
  | .saveMessages _ messages => Paired (messageGson.toJson messages)
  | .removeChat chatId =>
      ∀ chats, files.loadChats replaced chatGson username = some chats →
        Paired (chatGson.toJson (chats.eraseP (·.id == chatId)))

/-- None of the lists that calls write has. -/
def WritesPaired
    (replaced : List UInt8 → JString)
    (chatGson : Gson ChatRecord)
    (messageGson : Gson Message)
    (files : ByteFiles)
    (username : JString) : List Call → Prop
  | [] => True
  | call :: calls =>
      call.WritesPaired replaced chatGson messageGson files username ∧
        WritesPaired replaced chatGson messageGson
          (files.perform replaced chatGson messageGson username call) username
          calls

/-- A call on the bytes is the call on the texts that are read from them. -/
theorem perform_decoded
    {call : Call}
    (paired : call.WritesPaired replaced chatGson messageGson files username) :
    (files.perform replaced chatGson messageGson username call).decoded
        replaced =
      Directories.serveTextsAll chatGson messageGson (files.decoded replaced)
        (call.stored username).toList := by
  cases call with
  | loadChats | loadMessages => rfl
  | saveChats chats => exact saveChats_decoded paired
  | saveMessages chatId messages => exact saveMessages_decoded paired
  | removeChat chatId =>
      change (files.removeChat replaced chatGson username chatId).decoded _ =
        Directories.Call.serveTexts chatGson messageGson _
          (.removeChat username chatId)
      rw [Directories.Call.serveTexts, loadChats_decoded]
      cases loaded : files.loadChats replaced chatGson username with
      | some chats => exact removeChat_decoded loaded (paired chats loaded)
      | none =>
          unfold removeChat TextFiles.removeChat
          rw [loadChats_decoded, loaded, ite_self]
          cases files.decoded replaced username with
          | none => rfl
          | some => rfl

/-- So are calls, one after the other. -/
theorem run_decoded
    {calls : List Call}
    (paired : WritesPaired replaced chatGson messageGson files username
      calls) :
    (files.run replaced chatGson messageGson username calls).decoded replaced =
      Directories.serveTextsAll chatGson messageGson (files.decoded replaced)
        (calls.filterMap (Call.stored username)) := by
  induction calls generalizing files with
  | nil => rfl
  | cons call calls inductionHypothesis =>
      obtain ⟨first, rest⟩ := paired
      refine (inductionHypothesis rest).trans ?_
      rw [perform_decoded first, List.filterMap_cons]
      cases call.stored username with
      | none => rfl
      | some stored => rfl

/-- Where the files of the phone hold what is read from the bytes, they do so
after any calls, and the same lists are loaded from either. -/
theorem loads_of_run
    {filesDir : List FileName}
    {phone : Files}
    {calls : List Call}
    (serves : Directories.Serves filesDir phone (files.decoded replaced))
    (plain : Directories.Plain username)
    (paired : WritesPaired replaced chatGson messageGson files username
      calls) :
    let left := Directories.performAll filesDir chatGson messageGson phone
      (calls.filterMap (Call.stored username))
    let after := files.run replaced chatGson messageGson username calls
    Directories.Serves filesDir left (after.decoded replaced) ∧
      Directories.loadChats filesDir chatGson left username =
        after.loadChats replaced chatGson username ∧
      ∀ chatId, Directories.loadMessages filesDir messageGson left username
          chatId =
        after.loadMessages replaced messageGson username chatId := by
  intro left after
  have names : ∀ call ∈ calls.filterMap (Call.stored username),
      ∀ name ∈ call.usernames, Directories.Plain name := by
    intro call listed name named
    obtain ⟨stored, -, same⟩ := List.mem_filterMap.mp listed
    cases stored with
    | loadChats | loadMessages => cases same
    | saveChats | saveMessages | removeChat =>
        cases same
        rw [List.mem_singleton.mp named]
        exact plain
  have kept : Directories.Serves filesDir left (after.decoded replaced) := by
    rw [run_decoded paired]
    exact serves.performTexts names
  refine ⟨kept, ?_, fun chatId => ?_⟩
  · rw [kept.loadChats plain, loadChats_decoded]
  · rw [kept.loadMessages plain, loadMessages_decoded]

end Decoding

section Runs

variable {replaced : List UInt8 → JString}
variable {chatGson : Gson ChatRecord}
variable {messageGson : Gson Message}
variable {files : ByteFiles}
variable {username : JString}
variable {chatId : JInt}
variable {chats : List ChatRecord}
variable {messages : List Message}
variable {call : Call}
variable {calls : List Call}

theorem directory_saveChats :
    (files.saveChats chatGson username chats).directory username =
      { files.directory username with
        chats := some (encode (chatGson.toJson chats)) } := by
  simp [saveChats, directory]

theorem directory_saveMessages :
    (files.saveMessages messageGson username chatId messages).directory
        username =
      { files.directory username with
        messages := Function.update (files.directory username).messages chatId
          (some (encode (messageGson.toJson messages))) } := by
  simp [saveMessages, directory]

theorem directory_deleteMessages :
    (files.deleteMessages username chatId).directory username =
      { files.directory username with
        messages := Function.update (files.directory username).messages chatId
          none } := by
  simp [deleteMessages, directory]

/-- The directory after `removeChat`: either nothing was done, or the chat was
dropped from the loaded list and its messages are gone. -/
theorem directory_removeChat :
    (files.removeChat replaced chatGson username chatId).directory username =
        files.directory username ∧
      (∀ chats, files.loadChats replaced chatGson username = some chats →
        (files username).isSome → chats.any (·.id == chatId) = false) ∨
    ∃ chats, files.loadChats replaced chatGson username = some chats ∧
      (files.removeChat replaced chatGson username chatId).directory username =
        { files.directory username with
          chats := some (encode (chatGson.toJson
            (chats.eraseP (·.id == chatId))))
          messages := Function.update (files.directory username).messages chatId
            none } := by
  unfold removeChat
  split
  case isTrue missing =>
    refine Or.inl ⟨rfl, fun chats _ present => ?_⟩
    rw [Option.isNone_iff_eq_none.mp missing] at present
    cases present
  case isFalse =>
    split
    case h_1 null =>
      refine Or.inl ⟨rfl, fun chats loaded => ?_⟩
      rw [null] at loaded
      cases loaded
    case h_2 chats loaded =>
      split
      case isTrue listed =>
        refine Or.inr ⟨chats, loaded, ?_⟩
        rw [directory_deleteMessages, directory_saveChats]
      case isFalse unlisted =>
        refine Or.inl ⟨rfl, fun others also _ => ?_⟩
        rw [loaded, Option.some.injEq] at also
        rw [← also]
        exact Bool.eq_false_of_not_eq_true unlisted

/-- A call for another chat leaves the messages alone. -/
theorem messages_perform
    (other : call.chat ≠ some chatId) :
    ((files.perform replaced chatGson messageGson username call).directory
        username).messages chatId =
      (files.directory username).messages chatId := by
  cases call with
  | loadChats => rfl
  | loadMessages => rfl
  | saveChats chats => rw [perform, directory_saveChats]
  | saveMessages written messages =>
      have different : chatId ≠ written := by
        rintro rfl
        exact other rfl
      rw [perform, directory_saveMessages]
      dsimp only
      rw [Function.update_of_ne different]
  | removeChat removed =>
      have different : chatId ≠ removed := by
        rintro rfl
        exact other rfl
      rw [perform]
      rcases @directory_removeChat replaced chatGson files username removed with
        ⟨same, -⟩ | ⟨chats, -, after⟩
      · rw [same]
      · rw [after]
        dsimp only
        rw [Function.update_of_ne different]

theorem messages_run
    (others : ∀ call ∈ calls, call.chat ≠ some chatId) :
    ((files.run replaced chatGson messageGson username calls).directory
        username).messages chatId =
      (files.directory username).messages chatId := by
  induction calls generalizing files with
  | nil => rfl
  | cons call calls inductionHypothesis =>
      rw [List.forall_mem_cons] at others
      rw [run, List.foldl_cons]
      exact (inductionHypothesis others.2).trans (messages_perform others.1)

/-- Where the file holds a list that is loaded, a call that does not save
another one leaves what it does not remove. -/
theorem chats_perform
    (saves : call.isSaveChats = false)
    (stored : (files.directory username).chats =
      some (encode (chatGson.toJson chats)))
    (loads : load replaced chatGson (some (encode (chatGson.toJson chats))) =
      some chats) :
    ((files.perform replaced chatGson messageGson username call).directory
        username).chats =
      some (encode (chatGson.toJson (call.left chats))) := by
  cases call with
  | loadChats => exact stored
  | loadMessages => exact stored
  | saveChats => cases saves
  | saveMessages =>
      rw [perform, directory_saveMessages]
      exact stored
  | removeChat removed =>
      have loaded : files.loadChats replaced chatGson username = some chats := by
        rw [loadChats, stored, loads]
      have present : (files username).isSome := by
        cases found : files username with
        | some => rfl
        | none =>
            rw [directory, found] at stored
            cases stored
      rw [perform, Call.left]
      rcases @directory_removeChat replaced chatGson files username removed with
        ⟨same, none_⟩ | ⟨others, also, after⟩
      · have unlisted := none_ chats loaded present
        rw [same, stored, List.eraseP_of_forall_not]
        intro chat member
        rw [List.any_eq_false] at unlisted
        exact unlisted chat member
      · rw [loaded, Option.some.injEq] at also
        rw [after, ← also]

theorem left_sublist :
    (call.left chats).Sublist chats := by
  cases call with
  | removeChat => exact List.eraseP_sublist
  | _ => exact List.Sublist.refl _

theorem chats_run
    (saves : ∀ call ∈ calls, call.isSaveChats = false)
    (stored : (files.directory username).chats =
      some (encode (chatGson.toJson chats)))
    (loads : ∀ some_, some_.Sublist chats →
      load replaced chatGson (some (encode (chatGson.toJson some_))) =
        some some_) :
    (files.run replaced chatGson messageGson username calls).loadChats replaced
        chatGson username =
      some (calls.foldl Call.left chats) := by
  induction calls generalizing files chats with
  | nil =>
      rw [run, List.foldl_nil, List.foldl_nil, loadChats, stored]
      exact loads chats (List.Sublist.refl _)
  | cons call calls inductionHypothesis =>
      rw [List.forall_mem_cons] at saves
      rw [run, List.foldl_cons, List.foldl_cons]
      apply inductionHypothesis saves.2
      · exact chats_perform saves.1 stored (loads chats (List.Sublist.refl _))
      · exact fun some_ fewer => loads some_ (fewer.trans left_sublist)

theorem foldl_left_of_not_removed
    (others : ∀ call ∈ calls, ∀ chat ∈ chats, call ≠ .removeChat chat.id) :
    calls.foldl Call.left chats = chats := by
  induction calls with
  | nil => rfl
  | cons call calls inductionHypothesis =>
      rw [List.forall_mem_cons] at others
      have same : call.left chats = chats := by
        cases call with
        | removeChat removed =>
            rw [Call.left, List.eraseP_of_forall_not]
            intro chat member found
            apply others.1 chat member
            rw [eq_of_beq found]
        | _ => rfl
      rw [List.foldl_cons, same]
      exact inductionHypothesis others.2

end Runs

/-- Gson is given by how it escapes a unit and by what it reads from a text,
and reads what it wrote.  Messages are loaded as they were saved, whatever was
done for other chats and for the list of chats since.  The list of chats is
loaded without the chats that were removed since, which is as it was saved where
none of them is in it. -/
theorem load_after_save
    (escape : JChar → JString)
    (readChats : JString → Option (Option (List ChatRecord)))
    (readMessages : JString → Option (Option (List Message)))
    (replaced : List UInt8 → JString)
    (files : ByteFiles)
    (username : JString)
    (chatId : JInt)
    (chats : List ChatRecord)
    (messages : List Message)
    (calls : List Call)
    (escapes : Escapes escape)
    (pairedNames : ∀ chat ∈ chats, Paired chat.name)
    (pairedContents : ∀ message ∈ messages, Paired message.content)
    (readsChats : ∀ some_, some_.Sublist chats →
      readChats ((chatGson escape readChats).toJson some_) = some (some some_))
    (readsMessages :
      readMessages ((messageGson escape readMessages).toJson messages) =
        some (some messages)) :
    let chatGson := chatGson escape readChats
    let messageGson := messageGson escape readMessages
    ((∀ call ∈ calls, call.chat ≠ some chatId) →
      ((files.saveMessages messageGson username chatId messages).run replaced
        chatGson messageGson username calls).loadMessages replaced messageGson
          username chatId = some messages) ∧
      ((∀ call ∈ calls, call.isSaveChats = false) →
        ((files.saveChats chatGson username chats).run replaced chatGson
          messageGson username calls).loadChats replaced chatGson username =
            some (calls.foldl Call.left chats)) ∧
      ((∀ call ∈ calls, call.isSaveChats = false ∧
          ∀ chat ∈ chats, call ≠ .removeChat chat.id) →
        ((files.saveChats chatGson username chats).run replaced chatGson
          messageGson username calls).loadChats replaced chatGson username =
            some chats) := by
  intro chatGson messageGson
  have loadsChats : ∀ some_, some_.Sublist chats →
      load replaced chatGson (some (encode (chatGson.toJson some_))) =
        some some_ := by
    intro some_ fewer
    apply load_encode escapes _ (readsChats some_ fewer)
    exact fun chat member =>
      isJson_chat (pairedNames chat (fewer.subset member))
  have loadsMessages :
      load replaced messageGson (some (encode (messageGson.toJson messages))) =
        some messages := by
    apply load_encode escapes _ readsMessages
    exact fun message member => isJson_message (pairedContents message member)
  have chatsAfter (saves : ∀ call ∈ calls, call.isSaveChats = false) :
      ((files.saveChats chatGson username chats).run replaced chatGson
        messageGson username calls).loadChats replaced chatGson username =
          some (calls.foldl Call.left chats) := by
    apply chats_run saves _ loadsChats
    rw [directory_saveChats]
  refine ⟨fun others => ?_, chatsAfter, fun others => ?_⟩
  · rw [loadMessages, messages_run others, directory_saveMessages]
    dsimp only
    rw [Function.update_self]
    exact loadsMessages
  · rw [chatsAfter fun call member => (others call member).1,
      foldl_left_of_not_removed fun call member => (others call member).2]

/-- A message with a line break and a quotation mark, with another chat saved
and removed before it is loaded. -/
theorem load_after_save_of_two_lines :
    let chat : ChatRecord := ⟨jstr "a\u2028b", 1⟩
    let message : Message := ⟨jstr "one\r\n\"two\"", 0⟩
    let readChats : JString → Option (Option (List ChatRecord)) := fun text =>
      if text = enclosed 91 44 93 [] then some (some [])
      else if text = enclosed 91 44 93 [chatObject htmlSafe chat] then
        some (some [chat])
      else none
    let readMessages : JString → Option (Option (List Message)) := fun text =>
      if text = enclosed 91 44 93 [messageObject htmlSafe message] then
        some (some [message])
      else none
    let chatGson := chatGson htmlSafe readChats
    let messageGson := messageGson htmlSafe readMessages
    let files : ByteFiles := fun _ => none
    let calls := [.saveMessages 2 [], .removeChat 2]
    ((files.saveMessages messageGson [] 1 [message]).run (fun _ => []) chatGson
        messageGson [] calls).loadMessages (fun _ => []) messageGson [] 1 =
          some [message] ∧
      ((files.saveChats chatGson [] [chat]).run (fun _ => []) chatGson
        messageGson [] calls).loadChats (fun _ => []) chatGson [] =
          some [chat] := by
  intro chat message readChats readMessages chatGson messageGson files calls
  obtain ⟨messages, -, chats⟩ := load_after_save htmlSafe readChats readMessages
    (fun _ => []) files [] 1 [chat] [message] calls escapes_htmlSafe
    (List.forall_mem_singleton.mpr ⟨_, rfl⟩)
    (List.forall_mem_singleton.mpr ⟨_, rfl⟩)
    (by
      intro some_ fewer
      rcases List.sublist_singleton.mp fewer with rfl | rfl
      · exact if_pos rfl
      · exact (if_neg (by decide +kernel)).trans (if_pos rfl))
    (if_pos rfl)
  constructor
  · apply messages
    exact List.forall_mem_cons.mpr
      ⟨by decide, List.forall_mem_singleton.mpr (by decide)⟩
  · apply chats
    exact List.forall_mem_cons.mpr
      ⟨⟨rfl, fun _ _ => nofun⟩, List.forall_mem_singleton.mpr ⟨rfl, by
        rw [List.forall_mem_singleton]
        intro same
        cases same⟩⟩

end ByteFiles
end Store
end IdoProject
