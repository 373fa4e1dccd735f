import IdoProject.Store.PlainNames

/-!
# The file system serves the store of the users

For user names without a separator and without the character 0, the calls of
`JsonHelper` on paths do to the file system what the store says: the directory
of a user is there where the store has one, and every file in it holds the text
of its list.  The relation is kept by every call, so that after any calls for
any number of users every list is loaded as the store has it.
-/

namespace IdoProject
namespace Store
namespace Directories

open Java Storage FileSystem Syntax

namespace Slot

/-- A directory with another text in the file, or with none. -/
def update
    (directory : UserDirectory JString JString)
    (text : Option JString) : Slot → UserDirectory JString JString
  | .chats => { directory with chats := text }
  | .messages chatId =>
      { directory with
        messages := Function.update directory.messages chatId text }

section Laws

variable {directory : UserDirectory JString JString}
variable {text : Option JString}
variable {slot other : Slot}

@[simp] theorem contents_update_self :
    slot.contents (slot.update directory text) = text := by
  cases slot with
  | chats => rfl
  | messages => exact Function.update_self _ _ _

theorem contents_update_of_ne
    (different : other ≠ slot) :
    other.contents (slot.update directory text) = other.contents directory := by
  cases slot with
  | chats =>
      cases other with
      | chats => exact absurd rfl different
      | messages => rfl
  | messages chatId =>
      cases other with
      | chats => rfl
      | messages another =>
          apply Function.update_of_ne
          rintro rfl
          exact different rfl

end Laws

end Slot

/-- The files directory has the directories that the store has, with its texts
in their files.  No directory of a user is empty. -/
structure Serves
    (filesDir : List FileName)
    (files : Files)
    (store : TextFiles) : Prop where
  proper : files.Proper
  holder : files.IsDirectory filesDir
  directory : ∀ {username} (plain : Plain username),
    files.entryAt (filesDir ++ [plain.name]) =
      (store username).map fun _ => .directory
  slots : ∀ {username} (plain : Plain username) (slot : Slot),
    files.entryAt (filesDir ++ [plain.name] ++ [slot.name]) =
      (slot.contents (store.directory username)).map .file
  filled : ∀ {username directory}, Plain username →
    store username = some directory →
      ∃ slot : Slot, (slot.contents directory).isSome

/-- `loadMessages`, where `none` is null. -/
def loadMessages
    (filesDir : List FileName)
    (messageGson : Gson Message)
    (files : Files)
    (username : JString)
    (chatId : JInt) : Option (List Message) :=
  let file := (File.ofPath filesDir).child
    (jstr "user_" ++ username ++ (slash :: chatFile chatId))
  load messageGson (textAt files file)

section Reading

variable {filesDir : List FileName}
variable {files : Files}
variable {store : TextFiles}
variable {username : JString}
variable {slot : Slot}
variable {file : File}
variable {path : List FileName}
variable {name : FileName}

/-- A file on a path of names exists where something stands there. -/
theorem existsIn_of_partsTo
    (tree : files.IsTree)
    (valid : ¬file.isInvalid)
    (parts : file.parts = partsTo path name) :
    file.existsIn files = (files.entryAt (path ++ [name])).isSome := by
  unfold File.existsIn
  rw [Bool.eq_false_of_not_eq_true valid, Bool.not_false, Bool.true_and, parts,
    tree.bind_partsTo]

theorem textAt_of_partsTo
    {text : Option JString}
    (tree : files.IsTree)
    (valid : ¬file.isInvalid)
    (parts : file.parts = partsTo path name)
    (here : files.entryAt (path ++ [name]) = text.map .file) :
    textAt files file = text := by
  unfold textAt
  rw [if_neg valid, parts, tree.locate_partsTo]
  cases text with
  | none =>
      rw [Option.map_none] at here
      split
      · rw [Option.bind_some, here]
      · rfl
  | some text =>
      rw [Option.map_some] at here
      rw [if_pos, Option.bind_some, here]
      by_contra missing
      rw [tree.entryAt_of_not_directory missing] at here
      cases here

theorem Serves.existsIn
    (serves : Serves filesDir files store)
    (plain : Plain username) :
    (userDirectory filesDir username).existsIn files =
      (store username).isSome := by
  rw [existsIn_of_partsTo serves.proper.tree
    (isInvalid_userDirectory serves.proper serves.holder plain)
    (parts_userDirectory plain), serves.directory plain, Option.isSome_map]

/-- The file that is loaded is the one that is saved. -/
theorem Serves.textAt
    (serves : Serves filesDir files store)
    (plain : Plain username) :
    Directories.textAt files ((File.ofPath filesDir).child
        (jstr "user_" ++ username ++ (slash :: slot.text))) =
      slot.contents (store.directory username) := by
  apply textAt_of_partsTo serves.proper.tree _ _ (serves.slots plain slot)
  · apply File.isInvalid_child
    · exact isInvalid_ofPath fun name listed => serves.proper.valid _
        (serves.proper.tree.isDirectory_iff.mp serves.holder) name listed
    · rw [List.mem_append, not_or, List.mem_append, not_or, List.mem_cons,
        not_or]
      exact ⟨⟨by decide +kernel, plain.valid⟩, by decide, valid_slot⟩
  · rw [File.parts_child, File.parts_ofPath, partsOf_append]
    have first : partsOf (jstr "user_" ++ username) = [.down plain.name] :=
      @partsOf_name plain.name
    have last : partsOf slot.text = [.down slot.name] :=
      @partsOf_name slot.name
    unfold partsTo
    rw [first, last, List.map_append, List.append_assoc]
    rfl

theorem Serves.loadChats
    {chatGson : Gson ChatRecord}
    (serves : Serves filesDir files store)
    (plain : Plain username) :
    Directories.loadChats filesDir chatGson files username =
      store.loadChats chatGson username := by
  have text : (jstr "/chats.json") = slash :: Slot.chats.text := by
    decide +kernel
  unfold Directories.loadChats
  dsimp only
  rw [text, serves.textAt plain]
  rfl

theorem Serves.loadMessages
    {messageGson : Gson Message}
    {chatId : JInt}
    (serves : Serves filesDir files store)
    (plain : Plain username) :
    Directories.loadMessages filesDir messageGson files username chatId =
      store.loadMessages messageGson username chatId := by
  have text := @Serves.textAt _ _ _ _ (.messages chatId) serves plain
  unfold Directories.loadMessages
  dsimp only
  exact congrArg _ text

end Reading

section Writing

variable {filesDir : List FileName}
variable {files : Files}
variable {store : TextFiles}
variable {username : JString}
variable {slot : Slot}
variable {path : List FileName}
variable {text : JString}

/-- The directory of the user is made where it is missing. -/
theorem Serves.entryAt_prepared
    (serves : Serves filesDir files store)
    (plain : Plain username) :
    (prepared filesDir files username).entryAt path =
      if path = filesDir ++ [plain.name] then some .directory
      else files.entryAt path := by
  have valid := isInvalid_userDirectory serves.proper serves.holder plain
  have here := serves.directory plain
  have there := serves.existsIn plain
  unfold prepared
  dsimp only
  cases found : store username with
  | some directory =>
      rw [found, Option.isSome_some] at there
      rw [if_pos there]
      split
      case isTrue same => rw [same, here, found, Option.map_some]
      case isFalse => rfl
  | none =>
      rw [found, Option.map_none] at here
      rw [found, Option.isSome_none] at there
      have made : (userDirectory filesDir username).mkdir files =
          (files.put (filesDir ++ [plain.name]) .directory, true) := by
        unfold File.mkdir
        rw [if_neg valid, parts_userDirectory plain]
        exact serves.proper.tree.mkdir_partsTo serves.holder here
      unfold File.mkdirs
      rw [there, if_neg Bool.false_ne_true, if_neg Bool.false_ne_true, made,
        if_pos rfl]
      split
      case isTrue same => rw [same, entryAt_put_self]
      case isFalse other => exact entryAt_put_of_ne other

/-- A text is written to a file, and nothing else is changed than that the
directory is there. -/
theorem Serves.entryAt_write
    (serves : Serves filesDir files store)
    (plain : Plain username) :
    ((((userDirectory filesDir username).child slot.text).write
        (prepared filesDir files username) text).getD
          (prepared filesDir files username)).entryAt path =
      if path = filesDir ++ [plain.name] ++ [slot.name] then some (.file text)
      else if path = filesDir ++ [plain.name] then some .directory
      else files.entryAt path := by
  have proper := @proper_prepared filesDir files username serves.proper
  have entries (path : List FileName) :=
    @Serves.entryAt_prepared _ _ _ _ path serves plain
  have holder : (prepared filesDir files username).IsDirectory
      (filesDir ++ [plain.name]) := by
    rw [proper.tree.isDirectory_iff, ← proper.tree.entryAt_eq_some_iff,
      entries, if_pos rfl]
  have leaf : ¬(prepared filesDir files username).IsDirectory
      (filesDir ++ [plain.name] ++ [slot.name]) := by
    rw [proper.tree.isDirectory_iff, ← proper.tree.entryAt_eq_some_iff,
      entries, if_neg (by simp), serves.slots plain slot]
    cases slot.contents (store.directory username) with
    | none => exact (Option.some_ne_none _).symm
    | some old => simp
  have valid : ¬((userDirectory filesDir username).child
      slot.text).isInvalid :=
    File.isInvalid_child
      (isInvalid_userDirectory serves.proper serves.holder plain) valid_slot
  have wrote := @IsTree.write_partsTo _ _ _ _ _ _ text proper.tree holder leaf
  unfold File.write
  rw [if_neg valid, parts_slotFile plain, wrote, Option.getD_some]
  split
  case isTrue same => rw [same, entryAt_put_self]
  case isFalse other => rw [entryAt_put_of_ne other, entries]

/-- The store with a text written to a file. -/
def put
    (store : TextFiles)
    (username : JString)
    (slot : Slot)
    (text : JString) : TextFiles :=
  Function.update store username
    (some (slot.update (store.directory username) (some text)))

/-- A write serves the store in which it was written. -/
theorem Serves.write
    (serves : Serves filesDir files store)
    (plain : Plain username) :
    Serves filesDir
      ((((userDirectory filesDir username).child slot.text).write
        (prepared filesDir files username) text).getD
          (prepared filesDir files username))
      (put store username slot text) where
  proper := proper_getD_write (proper_prepared serves.proper)
  holder := by
    have proper : Files.Proper _ := @proper_getD_write _
      ((userDirectory filesDir username).child slot.text) text
      (@proper_prepared filesDir files username serves.proper)
    rw [proper.tree.isDirectory_iff, ← proper.tree.entryAt_eq_some_iff,
      serves.entryAt_write plain, if_neg (by simp), if_neg (by simp),
      serves.proper.tree.entryAt_eq_some_iff,
      ← serves.proper.tree.isDirectory_iff]
    exact serves.holder
  directory := by
    intro other also
    rw [serves.entryAt_write plain, if_neg (by simp)]
    unfold put
    by_cases same : other = username
    case pos =>
      subst same
      rw [if_pos rfl, Function.update_self, Option.map_some]
    case neg =>
      rw [Function.update_of_ne same, if_neg, serves.directory also]
      intro place
      rw [List.append_cancel_left_eq, List.singleton_inj] at place
      exact same (also.name_inj plain place)
  slots := by
    intro other also another
    rw [serves.entryAt_write plain]
    unfold put TextFiles.directory
    by_cases same : other = username
    case neg =>
      rw [Function.update_of_ne same, if_neg, if_neg (by simp)]
      · exact serves.slots also another
      · exact fun place => same (slotPath_inj also plain place).1
    case pos =>
      subst same
      rw [Function.update_self, Option.getD_some]
      by_cases file : another = slot
      case pos =>
        subst file
        rw [if_pos rfl, Slot.contents_update_self, Option.map_some]
      case neg =>
        rw [if_neg, if_neg (by simp), Slot.contents_update_of_ne file]
        · exact serves.slots also another
        · exact fun place => file (slotPath_inj also plain place).2
  filled := by
    intro other directory also found
    unfold put at found
    by_cases same : other = username
    case neg =>
      rw [Function.update_of_ne same] at found
      exact serves.filled also found
    case pos =>
      rw [same, Function.update_self, Option.some.injEq] at found
      refine ⟨slot, ?_⟩
      rw [← found, Slot.contents_update_self]
      rfl

end Writing

section Removing

variable {filesDir : List FileName}
variable {files left : Files}
variable {store : TextFiles}
variable {username : JString}
variable {path : List FileName}

/-- The files directory stays where it is. -/
theorem Serves.holder_of_entryAt
    (serves : Serves filesDir files store)
    (proper : left.Proper)
    (same : left.entryAt filesDir = files.entryAt filesDir) :
    left.IsDirectory filesDir := by
  rw [proper.tree.isDirectory_iff, ← proper.tree.entryAt_eq_some_iff, same,
    serves.proper.tree.entryAt_eq_some_iff,
    ← serves.proper.tree.isDirectory_iff]
  exact serves.holder

/-- A message file is deleted where there is one. -/
theorem Serves.deleteMessages
    {chatId : JInt}
    {directory : UserDirectory JString JString}
    (serves : Serves filesDir files store)
    (plain : Plain username)
    (found : store username = some directory)
    (listed : directory.chats.isSome) :
    Serves filesDir
      (((userDirectory filesDir username).child (chatFile chatId)).delete
        files).1
      (store.deleteMessages username chatId) := by
  have proper : Files.Proper (((userDirectory filesDir username).child
    (chatFile chatId)).delete files).1 := File.proper_delete serves.proper
  have parts : ((userDirectory filesDir username).child
      (chatFile chatId)).parts =
        partsTo (filesDir ++ [plain.name]) (Slot.messages chatId).name :=
    @parts_slotFile filesDir _ (.messages chatId) plain
  have gone : FileSystem.entryAt (((userDirectory filesDir username).child
      (chatFile chatId)).delete files).1
        (filesDir ++ [plain.name] ++ [(Slot.messages chatId).name]) =
      none := by
    have valid : ¬((userDirectory filesDir username).child
        (chatFile chatId)).isInvalid :=
      File.isInvalid_child
        (isInvalid_userDirectory serves.proper serves.holder plain)
        (@valid_slot (.messages chatId))
    unfold File.delete
    rw [if_neg valid, parts]
    apply serves.proper.tree.entryAt_remove_partsTo
    rw [serves.proper.tree.isDirectory_iff,
      ← serves.proper.tree.entryAt_eq_some_iff, serves.slots plain]
    cases (Slot.messages chatId).contents (store.directory username) with
    | none => exact (Option.some_ne_none _).symm
    | some old => simp
  have kept {path : List FileName}
      (other : path ≠
        filesDir ++ [plain.name] ++ [(Slot.messages chatId).name]) :
      FileSystem.entryAt (((userDirectory filesDir username).child
        (chatFile chatId)).delete files).1 path = files.entryAt path := by
    apply File.entryAt_delete
    rwa [parts, resolve_partsTo]
  have after : store.deleteMessages username chatId =
      Function.update store username
        (some ((Slot.messages chatId).update directory none)) := by
    unfold TextFiles.deleteMessages
    rw [found]
    rfl
  refine ⟨proper, ?_, ?_, ?_, ?_⟩
  · exact serves.holder_of_entryAt proper (kept (by simp))
  · intro other also
    rw [kept (by simp), after, serves.directory also]
    by_cases same : other = username
    · rw [same, found, Function.update_self]
      rfl
    · rw [Function.update_of_ne same]
  · intro other also another
    rw [after]
    unfold TextFiles.directory
    by_cases same : other = username
    case neg =>
      rw [kept fun place => same (slotPath_inj also plain place).1,
        Function.update_of_ne same]
      exact serves.slots also another
    case pos =>
      subst same
      rw [Function.update_self, Option.getD_some]
      by_cases file : another = .messages chatId
      case pos =>
        rw [file, Slot.contents_update_self]
        exact gone
      case neg =>
        rw [kept fun place => file (slotPath_inj also plain place).2,
          Slot.contents_update_of_ne file, serves.slots also another,
          TextFiles.directory, found]
        rfl
  · intro other left also there
    rw [after] at there
    by_cases same : other = username
    case neg =>
      rw [Function.update_of_ne same] at there
      exact serves.filled also there
    case pos =>
      rw [same, Function.update_self, Option.some.injEq] at there
      refine ⟨.chats, ?_⟩
      rw [← there]
      exact listed

/-- The whole directory of a user goes, where there is one. -/
theorem Serves.entryAt_deleteUserDirectory
    (serves : Serves filesDir files store)
    (plain : Plain username) :
    (deleteUserDirectory filesDir files username).1.entryAt path =
      if filesDir ++ [plain.name] <+: path then none
      else files.entryAt path := by
  have proper : Files.Proper
      (deleteUserDirectory filesDir files username).1 :=
    proper_deleteRecursive serves.proper
  split
  case isFalse outside =>
    apply entryAt_deleteRecursive
    rwa [parts_userDirectory plain, resolve_partsTo]
  case isTrue inside =>
    rw [Option.eq_none_iff_forall_not_mem]
    intro entry there
    have member := proper.tree.entryAt_eq_some_iff.mp there
    by_cases here : (userDirectory filesDir username).existsIn files
    case pos =>
      rw [deleteUserDirectory_eq serves.proper plain.single here,
        List.mem_filter, decide_eq_true_eq, directoryPath_of_plain plain]
        at member
      exact member.2 inside
    case neg =>
      have before := deleteRecursive_sublist.subset member
      obtain ⟨other, above⟩ :=
        serves.proper.tree.exists_above before inside
      have stands := serves.directory plain
      rw [serves.existsIn plain, Option.not_isSome_iff_eq_none] at here
      rw [serves.proper.tree.entryAt_eq_some_iff.mpr above, here] at stands
      cases stands

theorem Serves.deleteUserDirectory
    (serves : Serves filesDir files store)
    (plain : Plain username) :
    Serves filesDir (Directories.deleteUserDirectory filesDir files username).1
      (Function.update store username none) where
  proper := proper_deleteRecursive serves.proper
  holder := by
    have proper : Files.Proper
        (Directories.deleteUserDirectory filesDir files username).1 :=
      proper_deleteRecursive serves.proper
    apply serves.holder_of_entryAt proper
    rw [serves.entryAt_deleteUserDirectory plain, if_neg not_append_prefix]
  directory := by
    intro other also
    rw [serves.entryAt_deleteUserDirectory plain]
    by_cases same : other = username
    case pos =>
      subst same
      rw [if_pos (List.prefix_refl _), Function.update_self]
      rfl
    case neg =>
      rw [if_neg, Function.update_of_ne same, serves.directory also]
      intro inside
      have place := inside.eq_of_length (by simp)
      rw [List.append_cancel_left_eq, List.singleton_inj] at place
      exact same (plain.name_inj also place).symm
  slots := by
    intro other also another
    rw [serves.entryAt_deleteUserDirectory plain]
    unfold TextFiles.directory
    by_cases same : other = username
    case pos =>
      subst same
      rw [if_pos (List.prefix_append _ _), Function.update_self]
      cases another <;> rfl
    case neg =>
      rw [if_neg, Function.update_of_ne same]
      · exact serves.slots also another
      · rintro ⟨rest, whole⟩
        rw [List.append_assoc, List.append_assoc, List.append_cancel_left_eq,
          List.singleton_append, List.singleton_append, List.cons.injEq] at whole
        exact same (plain.name_inj also whole.1).symm
  filled := by
    intro other directory also there
    by_cases same : other = username
    case neg =>
      rw [Function.update_of_ne same] at there
      exact serves.filled also there
    case pos =>
      rw [same, Function.update_self] at there
      cases there

end Removing

section Renaming

variable {filesDir : List FileName}
variable {files : Files}
variable {store : TextFiles}
variable {oldUsername newUsername : JString}
variable {moved : UserDirectory JString JString}

theorem Serves.renameUserDirectory_eq
    (serves : Serves filesDir files store)
    (plain : Plain oldUsername)
    (also : Plain newUsername)
    (there : (store oldUsername).isSome) :
    renameUserDirectory filesDir files oldUsername newUsername =
      files.rename (partsTo filesDir plain.name)
        (partsTo filesDir also.name) := by
  have valid := isInvalid_userDirectory serves.proper serves.holder plain
  have validNew := isInvalid_userDirectory serves.proper serves.holder also
  unfold renameUserDirectory
  dsimp only
  rw [serves.existsIn plain, if_pos there, File.renameTo,
    if_neg (not_or.mpr ⟨valid, validNew⟩), parts_userDirectory plain,
    parts_userDirectory also]

/-- Nothing is renamed where the store has no directory. -/
theorem Serves.renameUserDirectory_of_missing
    (serves : Serves filesDir files store)
    (plain : Plain oldUsername)
    (missing : store oldUsername = none) :
    renameUserDirectory filesDir files oldUsername newUsername =
      (files, false) := by
  unfold renameUserDirectory
  dsimp only
  rw [serves.existsIn plain, missing, Option.isSome_none,
    if_neg Bool.false_ne_true]

theorem Serves.renameUserDirectory_self
    (serves : Serves filesDir files store)
    (plain : Plain oldUsername)
    (there : (store oldUsername).isSome) :
    renameUserDirectory filesDir files oldUsername oldUsername =
      (files, true) := by
  rw [serves.renameUserDirectory_eq plain plain there]
  apply serves.proper.tree.rename_self
  rw [serves.directory plain, Option.isSome_map]
  exact there

/-- A directory is not renamed to another one that the store has. -/
theorem Serves.renameUserDirectory_of_taken
    {taken : UserDirectory JString JString}
    (serves : Serves filesDir files store)
    (plain : Plain oldUsername)
    (also : Plain newUsername)
    (different : oldUsername ≠ newUsername)
    (there : (store oldUsername).isSome)
    (found : store newUsername = some taken) :
    renameUserDirectory filesDir files oldUsername newUsername =
      (files, false) := by
  rw [serves.renameUserDirectory_eq plain also there]
  apply serves.proper.tree.rename_partsTo_of_refused
  · exact fun same => different (plain.name_inj also same)
  · obtain ⟨slot, written⟩ := serves.filled also found
    obtain ⟨text, contents⟩ := Option.isSome_iff_exists.mp written
    have stands := serves.slots also slot
    rw [TextFiles.directory, found, Option.getD_some, contents,
      Option.map_some, serves.proper.tree.entryAt_eq_some_iff] at stands
    right
    intro none_
    have listed := mem_children_iff.mpr ⟨_, stands⟩
    rw [none_] at listed
    exact List.not_mem_nil listed

/-- A directory that is moved. -/
theorem Serves.rename
    (serves : Serves filesDir files store)
    (plain : Plain oldUsername)
    (also : Plain newUsername)
    (found : store oldUsername = some moved)
    (missing : store newUsername = none) :
    Serves filesDir
        (renameUserDirectory filesDir files oldUsername newUsername).1
        (Function.update (Function.update store oldUsername none) newUsername
          (some moved)) ∧
      (renameUserDirectory filesDir files oldUsername newUsername).2 =
        true := by
  have different : oldUsername ≠ newUsername := by
    rintro rfl
    rw [found] at missing
    cases missing
  have names : plain.name ≠ also.name := fun same =>
    different (plain.name_inj also same)
  have here : (files.entryAt (filesDir ++ [plain.name])).isSome := by
    rw [serves.directory plain, found]
    rfl
  have free : files.entryAt (filesDir ++ [also.name]) = none := by
    rw [serves.directory also, missing]
    rfl
  have tree := serves.proper.tree
  have whole := serves.renameUserDirectory_eq plain also
    (by rw [found]; rfl)
  have proper : Files.Proper
      (renameUserDirectory filesDir files oldUsername newUsername).1 :=
    @proper_perform filesDir ⟨fun _ => [], fun _ => none⟩
      ⟨fun _ => [], fun _ => none⟩ files
      (.renameUserDirectory oldUsername newUsername) serves.proper
  have arrived (rest : List FileName) :=
    (@IsTree.entryAt_rename_partsTo _ _ _ _ _ rest _ _ tree names here free).1
  have left (rest : List FileName) :=
    (@IsTree.entryAt_rename_partsTo _ _ _ _ _ rest _ _ tree names here free).2
  have kept {path : List FileName}
      (outside : ¬filesDir ++ [plain.name] <+: path)
      (beside : ¬filesDir ++ [also.name] <+: path) :
      FileSystem.entryAt
        (renameUserDirectory filesDir files oldUsername newUsername).1 path =
          files.entryAt path := by
    rw [whole]
    exact FileSystem.entryAt_rename (by rwa [resolve_partsTo])
      (by rwa [resolve_partsTo])
  have apart {other : JString} (third : Plain other)
      (unlike : other ≠ oldUsername) (further : other ≠ newUsername)
      (rest : List FileName) :
      ¬filesDir ++ [plain.name] <+: filesDir ++ [third.name] ++ rest ∧
        ¬filesDir ++ [also.name] <+: filesDir ++ [third.name] ++ rest := by
    rw [List.append_assoc, List.prefix_append_right_inj,
      List.prefix_append_right_inj, List.singleton_append,
      List.cons_prefix_cons, List.cons_prefix_cons]
    exact ⟨fun same => unlike (plain.name_inj third same.1).symm,
      fun same => further (also.name_inj third same.1).symm⟩
  refine ⟨⟨proper, ?_, ?_, ?_, ?_⟩, ?_⟩
  · exact serves.holder_of_entryAt proper
      (kept not_append_prefix not_append_prefix)
  · intro other third
    by_cases same : other = newUsername
    case pos =>
      subst same
      have after := arrived []
      rw [List.append_nil, List.append_nil] at after
      rw [whole, after, serves.directory plain, found, Function.update_self]
    case neg =>
      rw [Function.update_of_ne same]
      by_cases old : other = oldUsername
      case pos =>
        subst old
        have after := left []
        rw [List.append_nil] at after
        rw [whole, after, Function.update_self]
        rfl
      case neg =>
        have both := apart third old same []
        rw [List.append_nil] at both
        rw [Function.update_of_ne old, kept both.1 both.2,
          serves.directory third]
  · intro other third slot
    unfold TextFiles.directory
    by_cases same : other = newUsername
    case pos =>
      subst same
      rw [whole, arrived, serves.slots plain slot, TextFiles.directory, found,
        Function.update_self]
    case neg =>
      rw [Function.update_of_ne same]
      by_cases old : other = oldUsername
      case pos =>
        subst old
        rw [whole, left, Function.update_self]
        cases slot <;> rfl
      case neg =>
        have both := apart third old same [slot.name]
        rw [Function.update_of_ne old, kept both.1 both.2]
        exact serves.slots third slot
  · intro other directory third there
    by_cases same : other = newUsername
    case pos =>
      rw [same, Function.update_self, Option.some.injEq] at there
      rw [← there]
      exact serves.filled plain found
    case neg =>
      rw [Function.update_of_ne same] at there
      by_cases old : other = oldUsername
      case pos =>
        rw [old, Function.update_self] at there
        cases there
      case neg =>
        rw [Function.update_of_ne old] at there
        exact serves.filled third there
  · rw [whole, tree.rename_partsTo names here free]

/-- Whatever is not moved to a free name stays where it is; only a renaming to
itself is a success all the same. -/
theorem Serves.renameUserDirectory_of_not_moved
    (serves : Serves filesDir files store)
    (plain : Plain oldUsername)
    (also : Plain newUsername)
    (refused : (store oldUsername).isSome →
      store newUsername ≠ none) :
    renameUserDirectory filesDir files oldUsername newUsername =
      (files, (store oldUsername).isSome && oldUsername = newUsername) := by
  cases found : store oldUsername with
  | none => exact serves.renameUserDirectory_of_missing plain found
  | some moved =>
      have there : (store oldUsername).isSome := by
        rw [found]
        rfl
      rw [Option.isSome_some, Bool.true_and]
      by_cases same : oldUsername = newUsername
      case pos =>
        subst same
        rw [serves.renameUserDirectory_self plain there,
          decide_eq_true rfl]
      case neg =>
        obtain ⟨taken, has⟩ := Option.ne_none_iff_exists'.mp (refused there)
        rw [serves.renameUserDirectory_of_taken plain also same there has,
          decide_eq_false same]

end Renaming

section Texts

variable {filesDir : List FileName}
variable {chatGson : Gson ChatRecord}
variable {messageGson : Gson Message}
variable {files : Files}
variable {store : TextFiles}
variable {username : JString}
variable {call : Call}
variable {calls : List Call}

/-- What a call does to the texts of the store. -/
def Call.serveTexts
    (chatGson : Gson ChatRecord)
    (messageGson : Gson Message)
    (store : TextFiles) : Call → TextFiles
  | .saveChats username chats =>
      store.saveChats chatGson username chats
        (.complete (chatGson.toJson chats))
  | .saveMessages username chatId messages =>
      store.saveMessages messageGson username chatId messages
        (.complete (messageGson.toJson messages))
  | .removeChat username chatId =>
      let chats := (store.loadChats chatGson username).getD []
      store.removeChat chatGson username chatId
        (.complete (chatGson.toJson (chats.eraseP (·.id == chatId)))) false
  | .deleteUserDirectory username => Function.update store username none
  | .renameUserDirectory oldUsername newUsername =>
      match store oldUsername, store newUsername with
      | some moved, none =>
          Function.update (Function.update store oldUsername none) newUsername
            (some moved)
      | _, _ => store

theorem saveChats_complete
    (chats : List ChatRecord) :
    store.saveChats chatGson username chats
        (.complete (chatGson.toJson chats)) =
      put store username .chats (chatGson.toJson chats) := by
  dsimp only [TextFiles.saveChats, Fate.complete]
  rw [← Fate.complete, Fate.leaves_complete]
  rfl

theorem saveMessages_complete
    (chatId : JInt)
    (messages : List Message) :
    store.saveMessages messageGson username chatId messages
        (.complete (messageGson.toJson messages)) =
      put store username (.messages chatId)
        (messageGson.toJson messages) := by
  dsimp only [TextFiles.saveMessages, Fate.complete]
  rw [← Fate.complete, Fate.leaves_complete]
  rfl

theorem Serves.saveChats
    {chats : List ChatRecord}
    (serves : Serves filesDir files store)
    (plain : Plain username) :
    Serves filesDir
      (Directories.saveChats filesDir chatGson files username chats)
      (store.saveChats chatGson username chats
        (.complete (chatGson.toJson chats))) := by
  have text : Slot.chats.text = jstr "chats.json" := rfl
  have written := @Serves.write _ _ _ _ .chats (chatGson.toJson chats) serves
    plain
  rw [text] at written
  rw [saveChats_complete]
  unfold Directories.saveChats
  exact written

theorem Serves.saveMessages
    {chatId : JInt}
    {messages : List Message}
    (serves : Serves filesDir files store)
    (plain : Plain username) :
    Serves filesDir
      (Directories.saveMessages filesDir messageGson files username chatId
        messages)
      (store.saveMessages messageGson username chatId messages
        (.complete (messageGson.toJson messages))) := by
  have text : (Slot.messages chatId).text = chatFile chatId := rfl
  have written := @Serves.write _ _ _ _ (.messages chatId)
    (messageGson.toJson messages) serves plain
  rw [text] at written
  rw [saveMessages_complete]
  unfold Directories.saveMessages
  exact written

/-- The removal of a chat. -/
theorem Serves.removeChat
    {chatId : JInt}
    (serves : Serves filesDir files store)
    (plain : Plain username) :
    Serves filesDir
      (Directories.removeChat filesDir chatGson files username chatId)
      ((Call.removeChat username chatId).serveTexts chatGson messageGson
        store) := by
  rw [Call.serveTexts]
  unfold Directories.removeChat TextFiles.removeChat
  dsimp only
  rw [serves.existsIn plain, serves.loadChats plain]
  cases found : store username with
  | none =>
      rw [Option.isSome_none, if_neg Bool.false_ne_true]
      exact serves
  | some directory =>
      rw [Option.isSome_some, if_pos rfl]
      cases loaded : store.loadChats chatGson username with
      | none => exact serves
      | some chats =>
          dsimp only [Option.getD_some]
          split
          case isFalse => exact serves
          case isTrue =>
            rw [if_neg Bool.false_ne_true]
            have written := @Serves.saveChats _ chatGson _ _ _
              (chats.eraseP (·.id == chatId)) serves plain
            apply written.deleteMessages plain
            · rw [saveChats_complete]
              exact Function.update_self _ _ _
            · rfl

/-- A call leaves files that serve the texts it leaves. -/
theorem Serves.perform
    (serves : Serves filesDir files store)
    (plain : ∀ username ∈ call.usernames, Plain username) :
    Serves filesDir (call.perform filesDir chatGson messageGson files)
      (call.serveTexts chatGson messageGson store) := by
  cases call with
  | saveChats username chats =>
      rw [Call.perform, Call.serveTexts]
      exact serves.saveChats (plain username List.mem_cons_self)
  | saveMessages username chatId messages =>
      rw [Call.perform, Call.serveTexts]
      exact serves.saveMessages (plain username List.mem_cons_self)
  | removeChat username chatId =>
      rw [Call.perform]
      exact serves.removeChat (plain username List.mem_cons_self)
  | deleteUserDirectory username =>
      rw [Call.perform, Call.serveTexts]
      exact serves.deleteUserDirectory (plain username List.mem_cons_self)
  | renameUserDirectory oldUsername newUsername =>
      have old := plain oldUsername List.mem_cons_self
      have new := plain newUsername
        (List.mem_cons_of_mem _ List.mem_cons_self)
      rw [Call.perform, Call.serveTexts]
      split
      case h_1 moved here missing =>
        exact (serves.rename old new here missing).1
      case h_2 refused =>
        rw [serves.renameUserDirectory_of_not_moved old new]
        · exact serves
        · intro there missing
          obtain ⟨moved, here⟩ := Option.isSome_iff_exists.mp there
          exact refused moved here missing

/-- What calls leave of the texts, one after the other. -/
def serveTextsAll
    (chatGson : Gson ChatRecord)
    (messageGson : Gson Message)
    (store : TextFiles)
    (calls : List Call) : TextFiles :=
  calls.foldl (Call.serveTexts chatGson messageGson) store

/-- Calls leave files that serve the texts they leave. -/
theorem Serves.performTexts
    (serves : Serves filesDir files store)
    (plain : ∀ call ∈ calls, ∀ username ∈ call.usernames, Plain username) :
    Serves filesDir (performAll filesDir chatGson messageGson files calls)
      (serveTextsAll chatGson messageGson store calls) := by
  induction calls generalizing files store with
  | nil => exact serves
  | cons call calls inductionHypothesis =>
      rw [List.forall_mem_cons] at plain
      exact inductionHypothesis (serves.perform plain.1) plain.2

end Texts

/-- What a call does to the lists of the store. -/
def Call.serve (store : UserFiles) : Call → UserFiles
  | .saveChats username chats => store.saveChats username chats
  | .saveMessages username chatId messages =>
      store.saveMessages username chatId messages
  | .removeChat username chatId => store.removeChat username chatId
  | .deleteUserDirectory username => store.deleteUserDirectory username
  | .renameUserDirectory oldUsername newUsername =>
      (store.renameUserDirectory oldUsername newUsername).1

section Lists

variable (chatGson : Gson ChatRecord)
variable (messageGson : Gson Message)

/-- Gson reads the lists back that the call writes, and what a removal can
leave of them. -/
def Call.Legible : Call → Prop
  | .saveChats _ chats =>
      ∀ some_, some_.Sublist chats → chatGson.ReadsBack some_
  | .saveMessages _ _ messages => messageGson.ReadsBack messages
  | _ => True

/-- Gson reads the stored lists back. -/
structure Legible (store : UserFiles) : Prop where
  chats : ∀ username chats, (store.directory username).chats = some chats →
    ∀ some_, some_.Sublist chats → chatGson.ReadsBack some_
  messages : ∀ username chatId messages,
    (store.directory username).messages chatId = some messages →
      messageGson.ReadsBack messages

end Lists

section Calls

variable {filesDir : List FileName}
variable {chatGson : Gson ChatRecord}
variable {messageGson : Gson Message}
variable {files : Files}
variable {store : UserFiles}
variable {username : JString}
variable {call : Call}

theorem Legible.update
    {directory : UserDirectory (List ChatRecord) (List Message)}
    (legible : Legible chatGson messageGson store)
    (chats : ∀ chats, directory.chats = some chats →
      ∀ some_, some_.Sublist chats → chatGson.ReadsBack some_)
    (messages : ∀ chatId messages, directory.messages chatId = some messages →
      messageGson.ReadsBack messages) :
    Legible chatGson messageGson
      (Function.update store username (some directory)) := by
  constructor
  · intro other
    unfold UserFiles.directory
    by_cases same : other = username
    · rw [same, Function.update_self, Option.getD_some]
      exact chats
    · rw [Function.update_of_ne same]
      exact legible.chats other
  · intro other
    unfold UserFiles.directory
    by_cases same : other = username
    · rw [same, Function.update_self, Option.getD_some]
      exact messages
    · rw [Function.update_of_ne same]
      exact legible.messages other

theorem Legible.forget
    (legible : Legible chatGson messageGson store) :
    Legible chatGson messageGson (Function.update store username none) := by
  constructor
  · intro other chats found
    unfold UserFiles.directory at found
    by_cases same : other = username
    · rw [same, Function.update_self] at found
      cases found
    · rw [Function.update_of_ne same] at found
      exact legible.chats other chats found
  · intro other chatId messages found
    unfold UserFiles.directory at found
    by_cases same : other = username
    · rw [same, Function.update_self] at found
      cases found
    · rw [Function.update_of_ne same] at found
      exact legible.messages other chatId messages found

/-- What is left of the messages of a user without those of one chat. -/
theorem Legible.messages_update
    {chatId : JInt}
    {written : Option (List Message)}
    (legible : Legible chatGson messageGson store)
    (readsBack : ∀ messages, written = some messages →
      messageGson.ReadsBack messages)
    (other : JInt)
    (messages : List Message)
    (found : Function.update (store.directory username).messages chatId
      written other = some messages) :
    messageGson.ReadsBack messages := by
  by_cases same : other = chatId
  · rw [same, Function.update_self] at found
    exact readsBack messages found
  · rw [Function.update_of_ne same] at found
    exact legible.messages username other messages found

theorem Legible.loadChats
    (legible : Legible chatGson messageGson store) :
    (store.toText chatGson messageGson).loadChats chatGson username =
      some (store.loadChats username) :=
  loadChats_toText fun chats found =>
    legible.chats username chats found chats (List.Sublist.refl _)

theorem Legible.loadMessages
    {chatId : JInt}
    (legible : Legible chatGson messageGson store) :
    (store.toText chatGson messageGson).loadMessages messageGson username
        chatId =
      some (store.loadMessages username chatId) :=
  loadMessages_toText fun messages found =>
    legible.messages username chatId messages found

theorem Legible.saveChats
    {chats : List ChatRecord}
    (legible : Legible chatGson messageGson store)
    (readsBack : ∀ some_, some_.Sublist chats → chatGson.ReadsBack some_) :
    Legible chatGson messageGson (store.saveChats username chats) := by
  refine legible.update ?_ ?_
  · intro written same
    cases same
    exact readsBack
  · exact legible.messages username

/-- The messages of a chat are written, or deleted. -/
theorem Legible.updateMessages
    {chatId : JInt}
    {written : Option (List Message)}
    (legible : Legible chatGson messageGson store)
    (readsBack : ∀ messages, written = some messages →
      messageGson.ReadsBack messages) :
    Legible chatGson messageGson (Function.update store username
      (some { store.directory username with
        messages := Function.update (store.directory username).messages chatId
          written })) := by
  refine legible.update ?_ ?_
  · exact legible.chats username
  · exact legible.messages_update readsBack

/-- The lists stay legible. -/
theorem Legible.serve
    (legible : Legible chatGson messageGson store)
    (also : call.Legible chatGson messageGson) :
    Legible chatGson messageGson (call.serve store) := by
  cases call with
  | saveChats username chats => exact legible.saveChats also
  | saveMessages username chatId messages =>
      apply legible.updateMessages
      intro written same
      cases same
      exact also
  | removeChat username chatId =>
      rw [Call.serve, UserFiles.removeChat]
      split
      case h_1 => exact legible
      case h_2 directory found =>
        dsimp only
        split
        case isFalse => exact legible
        case isTrue listed =>
          apply Legible.updateMessages
          · apply legible.saveChats
            intro some_ fewer
            unfold UserFiles.loadChats at listed fewer
            cases stored : (store.directory username).chats with
            | none =>
                rw [stored] at listed
                cases listed
            | some chats =>
                rw [stored] at fewer
                exact legible.chats username chats stored some_
                  (fewer.trans List.eraseP_sublist)
          · exact fun _ same => absurd same.symm (Option.some_ne_none _)
  | deleteUserDirectory username => exact legible.forget
  | renameUserDirectory oldUsername newUsername =>
      rw [Call.serve, UserFiles.renameUserDirectory]
      split
      case h_1 moved here missing =>
        refine legible.forget.update ?_ ?_
        · intro chats found
          apply legible.chats oldUsername
          rw [UserFiles.directory, here]
          exact found
        · intro chatId messages found
          apply legible.messages oldUsername chatId
          rw [UserFiles.directory, here]
          exact found
      case h_2 | h_3 => exact legible

theorem toText_forget :
    UserFiles.toText chatGson messageGson
        (Function.update store username none) =
      Function.update (store.toText chatGson messageGson) username none := by
  funext other
  by_cases same : other = username
  · rw [same, Function.update_self, UserFiles.toText, Function.update_self]
    rfl
  · rw [Function.update_of_ne same, UserFiles.toText,
      Function.update_of_ne same, UserFiles.toText]

/-- Where the lists are legible, a call does to their texts what it does to
them. -/
theorem serveTexts_toText
    (legible : Legible chatGson messageGson store) :
    call.serveTexts chatGson messageGson (store.toText chatGson messageGson) =
      (call.serve store).toText chatGson messageGson := by
  cases call with
  | saveChats username chats => exact saveChats_toText chats
  | saveMessages username chatId messages => exact saveMessages_toText messages
  | removeChat username chatId =>
      rw [Call.serveTexts, legible.loadChats, Option.getD_some]
      exact removeChat_toText legible.loadChats
  | deleteUserDirectory username => exact toText_forget.symm
  | renameUserDirectory oldUsername newUsername =>
      have text (username : JString) :
          store.toText chatGson messageGson username =
            (store username).map (UserDirectory.toText chatGson messageGson) :=
        rfl
      rw [Call.serveTexts, Call.serve, UserFiles.renameUserDirectory, text, text]
      cases store oldUsername with
      | none => rfl
      | some moved =>
          cases store newUsername with
          | none =>
              rw [Option.map_some, Option.map_none]
              dsimp only
              rw [← toText_forget, update_toText]
          | some taken => rfl

/-- The result of a renaming is what the store says. -/
theorem renameUserDirectory_result
    {oldUsername newUsername : JString}
    (serves : Serves filesDir files (store.toText chatGson messageGson))
    (plain : Plain oldUsername)
    (also : Plain newUsername) :
    (renameUserDirectory filesDir files oldUsername newUsername).2 =
      (store.renameUserDirectory oldUsername newUsername).2 := by
  have text (username : JString) :
      store.toText chatGson messageGson username =
        (store username).map (UserDirectory.toText chatGson messageGson) := rfl
  unfold UserFiles.renameUserDirectory
  split
  case h_1 moved here missing =>
    exact (serves.rename plain also (by rw [text, here]; rfl)
      (by rw [text, missing]; rfl)).2
  case h_2 moved taken here has =>
    rw [serves.renameUserDirectory_of_not_moved plain also
      (by rw [text newUsername, has]; simp), text, here]
    rfl
  case h_3 missing =>
    rw [serves.renameUserDirectory_of_missing plain
      (by rw [text, missing]; rfl)]

end Calls

/-- What calls leave of the lists, one after the other. -/
def serveAll (store : UserFiles) (calls : List Call) : UserFiles :=
  calls.foldl Call.serve store

/-- Where Gson reads the lists back, what calls leave of the texts are the texts
of what they leave of the lists. -/
theorem serveTextsAll_toText
    {chatGson : Gson ChatRecord}
    {messageGson : Gson Message}
    {store : UserFiles}
    {calls : List Call}
    (legible : Legible chatGson messageGson store)
    (also : ∀ call ∈ calls, call.Legible chatGson messageGson) :
    serveTextsAll chatGson messageGson (store.toText chatGson messageGson)
          calls =
        (serveAll store calls).toText chatGson messageGson ∧
      Legible chatGson messageGson (serveAll store calls) := by
  induction calls generalizing store with
  | nil => exact ⟨rfl, legible⟩
  | cons call calls inductionHypothesis =>
      rw [List.forall_mem_cons] at also
      obtain ⟨texts, left⟩ :=
        inductionHypothesis (legible.serve also.1) also.2
      rw [← serveTexts_toText legible] at texts
      exact ⟨texts, left⟩

/-- A files directory without users serves the store without directories. -/
theorem serves_nothing
    {filesDir : List FileName}
    {files : Files}
    (proper : files.Proper)
    (holder : files.IsDirectory filesDir)
    (fresh : ∀ username, ∀ plain : Plain username,
      files.entryAt (filesDir ++ [plain.name]) = none) :
    Serves filesDir files fun _ => none := by
  refine ⟨proper, holder, fun plain => fresh _ plain, ?_, ?_⟩
  · intro username plain slot
    have missing : ¬files.IsDirectory (filesDir ++ [plain.name]) := by
      rw [proper.tree.isDirectory_iff, ← proper.tree.entryAt_eq_some_iff,
        fresh username plain]
      exact (Option.some_ne_none _).symm
    rw [proper.tree.entryAt_of_not_directory missing]
    cases slot <;> rfl
  · intro username directory _ found
    cases found

/-- From a files directory without users, calls leave files that serve the store
of the lists. -/
theorem serves_performAll
    {filesDir : List FileName}
    {chatGson : Gson ChatRecord}
    {messageGson : Gson Message}
    {files : Files}
    {calls : List Call}
    (proper : files.Proper)
    (holder : files.IsDirectory filesDir)
    (fresh : ∀ username, ∀ plain : Plain username,
      files.entryAt (filesDir ++ [plain.name]) = none)
    (plain : ∀ call ∈ calls, ∀ username ∈ call.usernames, Plain username)
    (legible : ∀ call ∈ calls, call.Legible chatGson messageGson) :
    Serves filesDir (performAll filesDir chatGson messageGson files calls)
        ((serveAll (fun _ => none) calls).toText chatGson messageGson) ∧
      Legible chatGson messageGson (serveAll (fun _ => none) calls) := by
  have nothing : Serves filesDir files
      (UserFiles.toText chatGson messageGson fun _ => none) :=
    serves_nothing proper holder fresh
  have empty : Legible chatGson messageGson fun _ => none := by
    constructor
    · intro _ _ found
      cases found
    · intro _ _ _ found
      cases found
  obtain ⟨texts, left⟩ := serveTextsAll_toText empty legible
  have serves := @Serves.performTexts _ chatGson messageGson _ _ _ nothing plain
  rw [texts] at serves
  exact ⟨serves, left⟩

/-- From a files directory without users, after any calls with names that make
one entry and with lists that Gson reads back: a user has a directory, loads the
chats and loads the messages of every chat exactly as the store of the lists
says, and the next renaming succeeds exactly when it does there. -/
theorem files_serve_store
    (filesDir : List FileName)
    (chatGson : Gson ChatRecord)
    (messageGson : Gson Message)
    (files : Files)
    (calls : List Call)
    (proper : files.Proper)
    (holder : files.IsDirectory filesDir)
    (fresh : ∀ username, ∀ plain : Plain username,
      files.entryAt (filesDir ++ [plain.name]) = none)
    (plain : ∀ call ∈ calls, ∀ username ∈ call.usernames, Plain username)
    (legible : ∀ call ∈ calls, call.Legible chatGson messageGson) :
    let left := performAll filesDir chatGson messageGson files calls
    let store := serveAll (fun _ => none) calls
    (∀ username, Plain username →
      (userDirectory filesDir username).existsIn left =
          (store username).isSome ∧
        loadChats filesDir chatGson left username =
          some (store.loadChats username) ∧
        ∀ chatId, loadMessages filesDir messageGson left username chatId =
          some (store.loadMessages username chatId)) ∧
      ∀ oldUsername newUsername, Plain oldUsername → Plain newUsername →
        (renameUserDirectory filesDir left oldUsername newUsername).2 =
          (store.renameUserDirectory oldUsername newUsername).2 := by
  intro left store
  obtain ⟨serves, legibleStore⟩ :=
    serves_performAll proper holder fresh plain legible
  refine ⟨fun username plain => ⟨?_, ?_, fun chatId => ?_⟩, ?_⟩
  · rw [serves.existsIn plain, UserFiles.toText, Option.isSome_map]
  · exact (serves.loadChats plain).trans legibleStore.loadChats
  · exact (serves.loadMessages plain).trans legibleStore.loadMessages
  · intro oldUsername newUsername plain also
    exact renameUserDirectory_result serves plain also

/-- A files directory at the root. -/
def emptyFilesDir : List FileName :=
  [⟨jstr "files", by decide +kernel, by decide +kernel, by decide +kernel,
    by decide +kernel⟩]

/-- The files of a phone without users. -/
def emptyFiles : Files :=
  [([], .directory), (emptyFilesDir, .directory)]

theorem proper_emptyFiles : emptyFiles.Proper := by
  have rooted : ∀ entry ∈ emptyFiles,
      entry.1 ≠ [] → (entry.1.dropLast, .directory) ∈ emptyFiles := by
    decide +kernel
  refine ⟨⟨by decide +kernel, ?_⟩, by decide +kernel⟩
  intro path name entry member
  have above := rooted _ member (List.concat_ne_nil _ _)
  rwa [List.dropLast_concat] at above

theorem fresh_emptyFiles
    (username : JString)
    (plain : Plain username) :
    emptyFiles.entryAt (emptyFilesDir ++ [plain.name]) = none := by
  rw [Option.eq_none_iff_forall_not_mem]
  intro entry found
  have member := proper_emptyFiles.tree.entryAt_eq_some_iff.mp found
  have lengths : ∀ entry ∈ emptyFiles, entry.1.length < 2 := by decide +kernel
  exact absurd (lengths _ member) (by simp [emptyFilesDir])

/-- A user with one chat and one message is renamed, and another user with the
old name saves a chat of the same number. -/
theorem files_serve_two_users :
    let chat : ChatRecord := ⟨jstr "one", 1⟩
    let message : Message := ⟨jstr "hello", 0⟩
    let chatGson := chatGson htmlSafe fun text =>
      if text = enclosed 91 44 93 [] then some (some [])
      else if text = enclosed 91 44 93 [chatObject htmlSafe chat] then
        some (some [chat])
      else none
    let messageGson := messageGson htmlSafe fun text =>
      if text = enclosed 91 44 93 [] then some (some [])
      else if text = enclosed 91 44 93 [messageObject htmlSafe message] then
        some (some [message])
      else none
    let filesDir : List FileName := [⟨jstr "files", by decide +kernel,
      by decide +kernel, by decide +kernel, by decide +kernel⟩]
    let files : Files := [([], .directory), (filesDir, .directory)]
    let left := performAll filesDir chatGson messageGson files
      [.saveChats (jstr "ann") [chat], .saveMessages (jstr "ann") 1 [message],
        .renameUserDirectory (jstr "ann") (jstr "bob"),
        .saveMessages (jstr "ann") 1 []]
    loadChats filesDir chatGson left (jstr "bob") = some [chat] ∧
      loadMessages filesDir messageGson left (jstr "bob") 1 = some [message] ∧
      loadMessages filesDir messageGson left (jstr "ann") 1 = some [] := by
  intro chat message chatGson messageGson filesDir files left
  have ann : Plain (jstr "ann") := ⟨by decide +kernel, by decide +kernel⟩
  have bob : Plain (jstr "bob") := ⟨by decide +kernel, by decide +kernel⟩
  have oneLine (text : JString)
      (bare : (text.all fun unit => unit ≠ 10 ∧ unit ≠ 13) = true) :
      ∀ unit ∈ text, unit ≠ 10 ∧ unit ≠ 13 := fun unit present =>
    of_decide_eq_true (List.all_eq_true.mp bare unit present)
  have readsChats : ∀ some_, some_.Sublist [chat] →
      chatGson.ReadsBack some_ := by
    intro some_ fewer
    rcases List.sublist_singleton.mp fewer with rfl | rfl
    · exact ⟨List.forall_mem_nil _, List.forall_mem_nil _,
        by decide +kernel⟩
    · exact ⟨List.forall_mem_singleton.mpr (by decide +kernel),
        List.forall_mem_singleton.mpr (oneLine _ (by decide +kernel)),
        by decide +kernel⟩
  have readsMessages : messageGson.ReadsBack [message] :=
    ⟨List.forall_mem_singleton.mpr (by decide +kernel),
      List.forall_mem_singleton.mpr (oneLine _ (by decide +kernel)),
      by decide +kernel⟩
  have readsNothing : messageGson.ReadsBack [] :=
    ⟨List.forall_mem_nil _, List.forall_mem_nil _, by decide +kernel⟩
  obtain ⟨served, -⟩ := files_serve_store filesDir chatGson messageGson files
    [.saveChats (jstr "ann") [chat], .saveMessages (jstr "ann") 1 [message],
      .renameUserDirectory (jstr "ann") (jstr "bob"),
      .saveMessages (jstr "ann") 1 []]
    proper_emptyFiles (by decide +kernel) fresh_emptyFiles
    (by
      simp only [List.forall_mem_cons, Call.usernames]
      exact ⟨⟨ann, List.forall_mem_nil _⟩, ⟨ann, List.forall_mem_nil _⟩,
        ⟨ann, bob, List.forall_mem_nil _⟩, ⟨ann, List.forall_mem_nil _⟩,
        List.forall_mem_nil _⟩)
    (by
      simp only [List.forall_mem_cons]
      exact ⟨readsChats, readsMessages, trivial, readsNothing,
        List.forall_mem_nil _⟩)
  refine ⟨(served _ bob).2.1.trans ?_, ((served _ bob).2.2 1).trans ?_,
    ((served _ ann).2.2 1).trans ?_⟩
  · decide +kernel
  · decide +kernel
  · decide +kernel

end Directories
end Store
end IdoProject
