import IdoProject.Java.Text
import IdoProject.Storage.FileSystem

/-!
# `java.io.File`

A `File` is a path text.  The constructor removes duplicate and trailing
separators from a child and puts it behind the parent; `.` and `..` stay in the
text and are left to the system.  A text with the character 0 is invalid, and
its `File` does nothing.
-/

namespace IdoProject
namespace Java

open Storage

/-- `File.separatorChar` -/
def slash : JChar := 47

/-- The name of an entry of a directory. -/
structure FileName where
  text : JString
  nonempty : text ≠ []
  single : slash ∉ text
  /-- Not `.`. -/
  notHere : text ≠ [46]
  /-- Not `..`. -/
  notUp : text ≠ [46, 46]
  deriving DecidableEq

/-- There is a name of every length. -/
instance : Infinite FileName :=
  Infinite.of_injective
    (fun count : Nat =>
      { text := List.replicate (count + 1) 97
        nonempty := List.cons_ne_nil _ _
        single := by simp [List.mem_replicate, slash]
        notHere := by simp [List.replicate_succ]
        notUp := by simp [List.replicate_succ] })
    fun first second same => by
      have lengths := congrArg (fun name => name.text.length) same
      simpa using lengths

/-- The part that a piece of a path text is.  An empty piece is none. -/
def partOf (piece : JString) : Option (PathPart FileName) :=
  if nonempty : piece = [] then none
  else if notHere : piece = [46] then some .here
  else if notUp : piece = [46, 46] then some .up
  else if single : slash ∉ piece then
    some (.down ⟨piece, nonempty, single, notHere, notUp⟩)
  else none

/-- The parts of a path text. -/
def partsOf (path : JString) : List (PathPart FileName) :=
  (path.splitOn slash).filterMap partOf

/-- Remove duplicate separators, from the character before. -/
def removeDuplicates : JChar → JString → JString
  | _, [] => []
  | prevChar, current :: rest =>
      if current = slash ∧ prevChar = slash then removeDuplicates current rest
      else current :: removeDuplicates current rest

/-- `UnixFileSystem.normalize` -/
def normalize (pathname : JString) : JString :=
  let normalized := removeDuplicates 0 pathname
  if normalized.getLast? = some slash ∧ 1 < pathname.length then
    normalized.dropLast
  else normalized

/-- `UnixFileSystem.resolve` -/
def resolveChild (parent child : JString) : JString :=
  if child = [] ∨ child = [slash] then parent
  else if child.head? = some slash then
    if parent = [slash] then child else parent ++ child
  else if parent = [slash] then parent ++ child
  else parent ++ slash :: child

/-- Directories, and files with their texts. -/
abbrev Files := FileSystem FileName JString

/-- A `File`. -/
structure File where
  path : JString
  deriving DecidableEq

namespace File

/-- `File(File, String)` -/
def child (parent : File) (name : JString) : File :=
  ⟨resolveChild parent.path (normalize name)⟩

/-- The file of a path of the system. -/
def ofPath (path : List FileName) : File :=
  ⟨path.flatMap fun name => slash :: name.text⟩

def parts (file : File) : List (PathPart FileName) :=
  partsOf file.path

def isInvalid (file : File) : Bool :=
  file.path.contains 0

section Calls

variable (files : Files)

/-- `exists` -/
def existsIn (file : File) : Bool :=
  !file.isInvalid &&
    ((files.locate file.parts).bind files.entryAt).isSome

def isDirectory (file : File) : Bool :=
  !file.isInvalid && (files.locate file.parts).any files.IsDirectory

/-- `listFiles` of a directory. -/
def listFiles (file : File) : List File :=
  match files.locate file.parts with
  | none => []
  | some place => (files.children place).map fun name => file.child name.text

def delete (file : File) : Files × Bool :=
  if file.isInvalid then (files, false) else files.remove file.parts

def mkdir (file : File) : Files × Bool :=
  if file.isInvalid then (files, false) else files.mkdir file.parts

/-- `renameTo` -/
def renameTo (file dest : File) : Files × Bool :=
  if file.isInvalid ∨ dest.isInvalid then (files, false)
  else files.rename file.parts dest.parts

/-- Write a text with a `FileWriter`, which may throw. -/
def write (file : File) (text : JString) : Option Files :=
  if file.isInvalid then none else files.write file.parts text

end Calls

/-- The last step of `mkdirs`: make a directory in its parent, where that was
made or exists. -/
def mkdirInParent
    (path parent : List FileName)
    (made : Files × Bool) : Files × Bool :=
  if made.2 ∨ (ofPath parent).existsIn made.1 then (ofPath path).mkdir made.1
  else (made.1, false)

/-- `mkdirs` of a canonical file, by its names from the last one on. -/
def mkdirsCanonical (files : Files) : List FileName → Files × Bool
  | [] => (files, false)
  | name :: above =>
      let path := (name :: above).reverse
      if (ofPath path).existsIn files then (files, false)
      else if ((ofPath path).mkdir files).2 then (ofPath path).mkdir files
      else mkdirInParent path above.reverse (mkdirsCanonical files above)

/-- `mkdirs`, with the parent of the canonical file where `mkdir` fails. -/
def mkdirs (files : Files) (file : File) : Files × Bool :=
  if file.existsIn files then (files, false)
  else if (file.mkdir files).2 then file.mkdir files
  else if file.isInvalid then (files, false)
  else
    match (resolve [] file.parts).reverse with
    | [] => (files, false)
    | name :: above =>
        mkdirInParent (name :: above).reverse above.reverse
          (mkdirsCanonical files above)

end File

section Texts

variable {text front back path : JString}
variable {name : FileName}

theorem partsOf_append :
    partsOf (front ++ slash :: back) = partsOf front ++ partsOf back := by
  unfold partsOf
  rw [List.splitOn_append_cons_self, List.filterMap_append]

@[simp] theorem partsOf_nil :
    partsOf [] = [] := rfl

theorem partsOf_cons_slash :
    partsOf (slash :: text) = partsOf text := by
  have split := @partsOf_append [] text
  rwa [partsOf_nil, List.nil_append, List.nil_append] at split

/-- A name is one part. -/
theorem partsOf_name :
    partsOf name.text = [.down name] := by
  unfold partsOf
  rw [List.splitOn_eq_singleton name.single, List.filterMap_cons,
    List.filterMap_nil, partOf, dif_neg name.nonempty, dif_neg name.notHere,
    dif_neg name.notUp, dif_pos name.single]

/-- Texts with the same first piece and the same parts behind it. -/
def SamePieces (text other : JString) : Prop :=
  ∃ first rest others, text.splitOn slash = first :: rest ∧
    other.splitOn slash = first :: others ∧
    rest.filterMap partOf = others.filterMap partOf

theorem SamePieces.partsOf_eq
    {other : JString}
    (same : SamePieces text other) :
    partsOf text = partsOf other := by
  obtain ⟨first, rest, others, cut, also, equal⟩ := same
  unfold partsOf
  rw [cut, also, List.filterMap_cons, List.filterMap_cons, equal]

theorem SamePieces.cons
    {other : JString}
    {unit : JChar}
    (same : SamePieces text other) :
    SamePieces (unit :: text) (unit :: other) := by
  by_cases here : unit = slash
  case pos =>
    have parts := same.partsOf_eq
    rw [here]
    exact ⟨[], text.splitOn slash, other.splitOn slash,
      List.splitOn_append_cons_self [] text,
      List.splitOn_append_cons_self [] other, parts⟩
  case neg =>
    obtain ⟨first, rest, others, cut, also, equal⟩ := same
    exact ⟨unit :: first, rest, others, splitOn_cons_of_ne here cut,
      splitOn_cons_of_ne here also, equal⟩

/-- Removing duplicate separators changes no part, and behind another character
not the first piece either. -/
theorem removeDuplicates_same
    (text : JString) :
    partsOf (removeDuplicates slash text) = partsOf text ∧
      ∀ prevChar ≠ slash, SamePieces (removeDuplicates prevChar text) text := by
  induction text with
  | nil =>
      exact ⟨rfl, fun _ _ => ⟨[], [], [], rfl, rfl, rfl⟩⟩
  | cons current rest inductionHypothesis =>
      obtain ⟨behindSlash, behindOther⟩ := inductionHypothesis
      by_cases here : current = slash
      case pos =>
        subst here
        constructor
        · rw [removeDuplicates, if_pos ⟨rfl, rfl⟩, partsOf_cons_slash]
          exact behindSlash
        · intro prevChar other
          rw [removeDuplicates, if_neg fun both => other both.2]
          exact ⟨[], _, _, List.splitOn_append_cons_self [] _,
            List.splitOn_append_cons_self [] _, behindSlash⟩
      case neg =>
        have kept (prevChar : JChar) :
            SamePieces (removeDuplicates prevChar (current :: rest))
              (current :: rest) := by
          rw [removeDuplicates, if_neg fun both => here both.1]
          exact (behindOther current here).cons
        exact ⟨(kept slash).partsOf_eq, fun prevChar _ => kept prevChar⟩

theorem partsOf_normalize :
    partsOf (normalize text) = partsOf text := by
  have same := ((removeDuplicates_same text).2 0 (by decide)).partsOf_eq
  unfold normalize
  dsimp only
  split
  case isFalse => exact same
  case isTrue trailing =>
    obtain ⟨front, whole⟩ := List.getLast?_eq_some_iff.mp trailing.1
    rw [← same, whole, List.dropLast_concat, partsOf_append, partsOf_nil,
      List.append_nil]

theorem partsOf_resolveChild :
    partsOf (resolveChild front back) = partsOf front ++ partsOf back := by
  unfold resolveChild
  split
  case isTrue none_ =>
    rcases none_ with rfl | rfl
    · exact (List.append_nil _).symm
    · exact (List.append_nil _).symm
  case isFalse =>
    split
    case isTrue leading =>
      obtain ⟨rest, rfl⟩ := List.head?_eq_some_iff.mp leading
      split
      case isTrue root =>
        rw [root]
        rfl
      case isFalse => rw [partsOf_append, partsOf_cons_slash]
    case isFalse =>
      split
      case isTrue root =>
        rw [root]
        exact partsOf_cons_slash
      case isFalse => exact partsOf_append

end Texts

namespace File

section Frames

variable {files written : Files}
variable {file dest : File}
variable {path names : List FileName}
variable {name text : JString}

theorem parts_child :
    (file.child name).parts = file.parts ++ partsOf name := by
  unfold parts child
  rw [partsOf_resolveChild, partsOf_normalize]

theorem parts_ofPath :
    (ofPath names).parts = names.map .down := by
  unfold parts ofPath
  induction names with
  | nil => rfl
  | cons name names inductionHypothesis =>
      dsimp only at inductionHypothesis ⊢
      rw [List.flatMap_cons, List.map_cons, List.cons_append,
        partsOf_cons_slash]
      cases names with
      | nil => rw [List.flatMap_nil, List.append_nil, partsOf_name]; rfl
      | cons next names =>
          rw [List.flatMap_cons, List.cons_append, partsOf_cons_slash]
            at inductionHypothesis
          rw [List.flatMap_cons, List.cons_append, partsOf_append, partsOf_name,
            inductionHypothesis]
          rfl

theorem resolve_ofPath :
    resolve [] (ofPath names).parts = names := by
  rw [parts_ofPath, resolve_map_down, List.nil_append]

theorem entryAt_delete
    (other : path ≠ resolve [] file.parts) :
    (file.delete files).1.entryAt path = files.entryAt path := by
  unfold delete
  split
  · rfl
  · exact FileSystem.entryAt_remove other

theorem entryAt_mkdir
    (other : path ≠ resolve [] file.parts) :
    (file.mkdir files).1.entryAt path = files.entryAt path := by
  unfold mkdir
  split
  · rfl
  · exact FileSystem.entryAt_mkdir other

theorem entryAt_renameTo
    (outside : ¬resolve [] file.parts <+: path)
    (beside : ¬resolve [] dest.parts <+: path) :
    (file.renameTo files dest).1.entryAt path = files.entryAt path := by
  unfold renameTo
  split
  · rfl
  · exact FileSystem.entryAt_rename outside beside

theorem entryAt_write
    (other : path ≠ resolve [] file.parts)
    (wrote : file.write files text = some written) :
    written.entryAt path = files.entryAt path := by
  unfold write at wrote
  split at wrote
  · cases wrote
  · exact FileSystem.entryAt_write other wrote

theorem entryAt_mkdirInParent
    {parent : List FileName}
    {made : Files × Bool}
    (other : path ≠ names)
    (kept : made.1.entryAt path = files.entryAt path) :
    (mkdirInParent names parent made).1.entryAt path = files.entryAt path := by
  unfold mkdirInParent
  split
  · rw [entryAt_mkdir (by rwa [resolve_ofPath]), kept]
  · exact kept

theorem entryAt_mkdirsCanonical
    (outside : ¬path <+: names.reverse) :
    (mkdirsCanonical files names).1.entryAt path = files.entryAt path := by
  induction names with
  | nil => rfl
  | cons name names inductionHypothesis =>
      have other : path ≠ (name :: names).reverse := fun same =>
        outside (same ▸ List.prefix_refl _)
      rw [mkdirsCanonical]
      split
      · rfl
      · split
        · exact entryAt_mkdir (by rwa [resolve_ofPath])
        · apply entryAt_mkdirInParent other
          apply inductionHypothesis
          intro inside
          apply outside
          rw [List.reverse_cons]
          exact inside.trans (List.prefix_append _ _)

/-- `mkdirs` makes directories on the way to its own and no others. -/
theorem entryAt_mkdirs
    (outside : ¬path <+: resolve [] file.parts) :
    (mkdirs files file).1.entryAt path = files.entryAt path := by
  have other : path ≠ resolve [] file.parts := fun same =>
    outside (same ▸ List.prefix_refl _)
  unfold mkdirs
  split
  · rfl
  · split
    · exact entryAt_mkdir other
    · split
      · rfl
      · split
        case h_1 => rfl
        case h_2 name above reversed =>
          rw [List.reverse_eq_iff] at reversed
          apply entryAt_mkdirInParent (by rwa [← reversed])
          apply entryAt_mkdirsCanonical
          intro inside
          apply outside
          rw [reversed, List.reverse_cons]
          exact inside.trans (List.prefix_append _ _)

end Frames

end File

end Java
end IdoProject
