import IdoProject.Store.JsonText
import IdoProject.Store.Proper

/-!
# Plain user names

A user name without a separator and without the character 0 makes one entry of
the files directory, and every file of the user is one entry of that directory.
Different names make different directories, and different chats different files.
-/

namespace IdoProject
namespace Store
namespace Directories

open Java Storage FileSystem Syntax

/-- A user name that makes one entry of the files directory. -/
structure Plain (username : JString) : Prop where
  single : slash ∉ username
  valid : 0 ∉ username

instance : DecidablePred Plain := fun username =>
  decidable_of_iff (slash ∉ username ∧ 0 ∉ username)
    ⟨fun both => ⟨both.1, both.2⟩, fun plain => ⟨plain.single, plain.valid⟩⟩

/-- Name of the directory of a user. -/
def Plain.name {username : JString} (plain : Plain username) : FileName where
  text := jstr "user_" ++ username
  nonempty := List.cons_ne_nil _ _
  single := by
    rw [List.mem_append, not_or]
    exact ⟨by decide +kernel, plain.single⟩
  notHere := by
    intro same
    have first := congrArg List.head? same
    change some 117 = some 46 at first
    exact absurd first (by decide)
  notUp := by
    intro same
    have first := congrArg List.head? same
    change some 117 = some 46 at first
    exact absurd first (by decide)

/-- A file in the directory of a user. -/
inductive Slot
  | chats
  | messages (chatId : JInt)

namespace Slot

def text : Slot → JString
  | .chats => jstr "chats.json"
  | .messages chatId => chatFile chatId

theorem head_text
    (slot : Slot) :
    slot.text.head? = some 99 := by
  cases slot <;> rfl

/-- Name of the file. -/
def name (slot : Slot) : FileName where
  text := slot.text
  nonempty := by
    intro none_
    have first := slot.head_text
    rw [none_] at first
    cases first
  single := by
    cases slot with
    | chats => decide +kernel
    | messages => exact slash_not_mem_chatFile
  notHere := by
    intro same
    have first := slot.head_text
    rw [same] at first
    exact absurd first (by decide)
  notUp := by
    intro same
    have first := slot.head_text
    rw [same] at first
    exact absurd first (by decide)

/-- What a directory has in the file. -/
def contents (directory : UserDirectory JString JString) :
    Slot → Option JString
  | .chats => directory.chats
  | .messages chatId => directory.messages chatId

end Slot

section Names

variable {first second : JString}

theorem Plain.name_inj
    (plain : Plain first)
    (also : Plain second)
    (same : plain.name = also.name) :
    first = second := by
  have texts : jstr "user_" ++ first = jstr "user_" ++ second :=
    congrArg FileName.text same
  exact List.append_cancel_left texts

/-- Different characters have different code units. -/
theorem flatMap_unitsOfChar_inj
    {chars others : List Char}
    (same : chars.flatMap unitsOfChar = others.flatMap unitsOfChar) :
    chars = others := by
  have bytes := congrArg encode same
  rw [encode_unitsOfChars, encode_unitsOfChars] at bytes
  have decoded := @List.utf8Decode?_utf8Encode chars
  have also := @List.utf8Decode?_utf8Encode others
  unfold List.utf8Encode at decoded also
  rw [bytes, also, Option.some.injEq] at decoded
  exact (congrArg Array.toList decoded).symm

theorem toList_repr_inj
    {number other : Nat}
    (same : number.repr.toList = other.repr.toList) :
    number = other := by
  rw [Nat.toList_repr, Nat.toList_repr] at same
  have back := congrArg (fun digits => Nat.ofDigitChars 10 digits 0) same
  rwa [Nat.ofDigitChars_toDigits (by decide) (by decide),
    Nat.ofDigitChars_toDigits (by decide) (by decide)] at back

/-- Different numbers are written differently. -/
theorem jstr_toString_inj
    {number other : Int}
    (same : jstr (toString number) = jstr (toString other)) :
    number = other := by
  have chars := flatMap_unitsOfChar_inj same
  -- A sign is no digit.
  have unsigned (number other : Nat) :
      number.repr.toList ≠ '-' :: other.repr.toList := by
    intro whole
    have listed : '-' ∈ Nat.toDigits 10 number := by
      rw [← Nat.toList_repr, whole]
      exact List.mem_cons_self
    have digit := Nat.isDigit_of_mem_toDigits (by decide) (by decide) listed
    exact absurd digit (by decide)
  have signed (number : Nat) :
      (toString (Int.negSucc number)).toList =
        '-' :: (number + 1).repr.toList := by
    change ("-" ++ (number + 1).repr).toList = _
    rw [String.toList_append]
    rfl
  cases number with
  | ofNat number =>
      cases other with
      | ofNat other => exact congrArg Int.ofNat (toList_repr_inj chars)
      | negSucc other =>
          rw [signed] at chars
          exact absurd chars (unsigned _ _)
  | negSucc number =>
      cases other with
      | ofNat other =>
          rw [signed] at chars
          exact absurd chars.symm (unsigned _ _)
      | negSucc other =>
          rw [signed, signed, List.cons.injEq] at chars
          have next := toList_repr_inj chars.2
          rw [Nat.add_right_cancel next]

theorem Slot.name_inj
    {slot other : Slot}
    (same : slot.name = other.name) :
    slot = other := by
  have texts : slot.text = other.text := congrArg FileName.text same
  have fifth (chatId : JInt) : (chatFile chatId)[4]? = some 95 := rfl
  have also : (jstr "chats.json")[4]? = some 115 := by decide +kernel
  cases slot with
  | chats =>
      cases other with
      | chats => rfl
      | messages chatId =>
          have units := congrArg (fun text : JString => text[4]?) texts
          change (jstr "chats.json")[4]? = (chatFile chatId)[4]? at units
          rw [fifth, also] at units
          exact absurd units (by decide)
  | messages chatId =>
      cases other with
      | chats =>
          have units := congrArg (fun text : JString => text[4]?) texts
          change (chatFile chatId)[4]? = (jstr "chats.json")[4]? at units
          rw [fifth, also] at units
          exact absurd units (by decide)
      | messages another =>
          change chatFile chatId = chatFile another at texts
          unfold chatFile at texts
          rw [List.append_cancel_right_eq, List.append_cancel_left_eq] at texts
          exact congrArg Slot.messages (Int32.toInt_inj.mp
            (jstr_toString_inj texts))

end Names

section Paths

variable {filesDir : List FileName}
variable {files : Files}
variable {username : JString}
variable {slot : Slot}

theorem parts_userDirectory
    (plain : Plain username) :
    (userDirectory filesDir username).parts = partsTo filesDir plain.name := by
  unfold userDirectory partsTo
  rw [File.parts_child, File.parts_ofPath]
  exact congrArg _ (@partsOf_name plain.name)

theorem directoryPath_of_plain
    (plain : Plain username) :
    directoryPath filesDir username = filesDir ++ [plain.name] := by
  unfold directoryPath
  rw [parts_userDirectory plain, resolve_partsTo]

theorem parts_slotFile
    (plain : Plain username) :
    ((userDirectory filesDir username).child slot.text).parts =
      partsTo (filesDir ++ [plain.name]) slot.name := by
  rw [File.parts_child, parts_userDirectory plain]
  unfold partsTo
  rw [List.map_append]
  exact congrArg _ (@partsOf_name slot.name)

/-- Paths of the files of different users, or of different files of one. -/
theorem slotPath_inj
    {other : JString}
    {another : Slot}
    (plain : Plain username)
    (also : Plain other)
    (same : filesDir ++ [plain.name] ++ [slot.name] =
      filesDir ++ [also.name] ++ [another.name]) :
    username = other ∧ slot = another := by
  rw [List.append_assoc, List.append_assoc, List.append_cancel_left_eq]
    at same
  injection same with first rest
  injection rest with second _
  exact ⟨plain.name_inj also first, Slot.name_inj second⟩

/-- Where the message file of a chat is. -/
def messagesPath
    (filesDir : List FileName)
    (username : JString)
    (chatId : JInt) : List FileName :=
  resolve [] ((userDirectory filesDir username).child (chatFile chatId)).parts

/-- The message files of different users, or of different chats of one, are
different files. -/
theorem messagesPath_inj
    {other : JString}
    {chatId another : JInt}
    (plain : Plain username)
    (also : Plain other)
    (same : messagesPath filesDir username chatId =
      messagesPath filesDir other another) :
    username = other ∧ chatId = another := by
  have path {username : JString} (plain : Plain username) (chatId : JInt) :
      messagesPath filesDir username chatId =
        filesDir ++ [plain.name] ++ [(Slot.messages chatId).name] := by
    have parts : ((userDirectory filesDir username).child
        (chatFile chatId)).parts =
          partsTo (filesDir ++ [plain.name]) (Slot.messages chatId).name :=
      @parts_slotFile filesDir username (.messages chatId) plain
    rw [messagesPath, parts, resolve_partsTo]
  rw [path plain, path also] at same
  obtain ⟨user, slot⟩ := slotPath_inj plain also same
  injection slot with chat
  exact ⟨user, chat⟩

/-- A separator at the end of a name makes no other file. -/
example : messagesPath [] (jstr "bob/") 1 = messagesPath [] (jstr "bob") 1 := by
  decide +kernel

theorem isInvalid_ofPath
    {path : List FileName}
    (valid : ∀ name ∈ path, 0 ∉ name.text) :
    ¬(File.ofPath path).isInvalid := by
  unfold File.isInvalid File.ofPath
  rw [List.contains_iff_mem, List.mem_flatMap]
  rintro ⟨name, listed, member⟩
  rcases List.mem_cons.mp member with zero | further
  · exact absurd zero (by decide)
  · exact valid name listed further

theorem isInvalid_userDirectory
    (proper : files.Proper)
    (holder : files.IsDirectory filesDir)
    (plain : Plain username) :
    ¬(userDirectory filesDir username).isInvalid := by
  apply File.isInvalid_child
  · exact isInvalid_ofPath fun name listed =>
      proper.valid _ (proper.tree.isDirectory_iff.mp holder) name listed
  · rw [List.mem_append, not_or]
    exact ⟨by decide +kernel, plain.valid⟩

theorem valid_slot :
    0 ∉ slot.text := by
  cases slot with
  | chats => decide +kernel
  | messages chatId =>
      change 0 ∉ chatFile chatId
      unfold chatFile
      rw [List.mem_append, List.mem_append, not_or, not_or]
      refine ⟨⟨by decide +kernel, fun member => ?_⟩, by decide +kernel⟩
      rcases @mem_jstr_toString chatId.toInt _ member with sign | digit
      · exact absurd sign (by decide)
      · exact absurd digit.1 (by decide)

end Paths

end Directories
end Store
end IdoProject
