import IdoProject.Storage.Trees
import IdoProject.Store.Directories

/-!
# Deleting a directory with all that is in it

`deleteRecursive` drops the results of the calls for the children and returns
what the last `delete` returns.  That is still the right answer: a directory in
which something could not be deleted is not empty and cannot be deleted either.
-/

namespace IdoProject
namespace Java

open Storage FileSystem

/-- A tree in which no name has the character 0. -/
structure Files.Proper (files : Files) : Prop where
  tree : files.IsTree
  valid : ∀ entry ∈ files, ∀ name ∈ entry.1, 0 ∉ name.text

theorem Files.Proper.clear
    {refused : List FileName → Bool}
    {files : Files}
    {place : List FileName}
    (proper : files.Proper) :
    Files.Proper (files.clear refused place) :=
  ⟨proper.tree.clear, fun entry member =>
    proper.valid entry (mem_clear_iff.mp member).1⟩

namespace File

/-- `delete` under a system that refuses to delete some entries. -/
def deleteUnless
    (refused : List FileName → Bool)
    (files : Files)
    (file : File) : Files × Bool :=
  if file.isInvalid then (files, false)
  else files.removeUnless refused file.parts

/-- The file is what stands at a place, on a path that does not pass anything
below it. -/
structure Stands
    (files : Files)
    (place : List FileName)
    (file : File) : Prop where
  valid : ¬file.isInvalid
  direct : Direct file.parts
  arrives : files.locate file.parts = some place
  here : (files.entryAt place).isSome

section Children

variable {refused : List FileName → Bool}
variable {files : Files}
variable {file : File}
variable {place : List FileName}
variable {name other : FileName}
variable {text : JString}

theorem removeDuplicates_sublist
    {prevChar : JChar} :
    (removeDuplicates prevChar text).Sublist text := by
  induction text generalizing prevChar with
  | nil => exact List.Sublist.refl _
  | cons current rest inductionHypothesis =>
      rw [removeDuplicates]
      split
      · exact inductionHypothesis.cons _
      · exact inductionHypothesis.cons_cons _

theorem normalize_sublist :
    (normalize text).Sublist text := by
  unfold normalize
  dsimp only
  split
  · exact (List.dropLast_sublist _).trans removeDuplicates_sublist
  · exact removeDuplicates_sublist

theorem isInvalid_child
    (valid : ¬file.isInvalid)
    (also : 0 ∉ text) :
    ¬(file.child text).isInvalid := by
  unfold isInvalid at valid ⊢
  rw [List.contains_iff_mem] at valid ⊢
  have absent : 0 ∉ normalize text := fun member =>
    also (normalize_sublist.subset member)
  have different : (0 : JChar) ≠ slash := by decide
  unfold child resolveChild
  dsimp only
  split
  · exact valid
  · split
    · split
      · exact absent
      · rw [List.mem_append, not_or]
        exact ⟨valid, absent⟩
    · split
      · rw [List.mem_append, not_or]
        exact ⟨valid, absent⟩
      · rw [List.mem_append, not_or, List.mem_cons, not_or]
        exact ⟨valid, different, absent⟩

theorem Stands.resolve_eq
    (stands : Stands files place file) :
    resolve [] file.parts = place :=
  (walk_eq_some_iff.mp stands.arrives).2

theorem Stands.isDirectory_eq
    (stands : Stands files place file) :
    file.isDirectory files = files.IsDirectory place := by
  unfold isDirectory
  rw [stands.arrives, Option.any_some, Bool.eq_false_of_not_eq_true stands.valid]
  rfl

theorem Stands.listFiles_eq
    (stands : Stands files place file) :
    file.listFiles files =
      (files.children place).map fun name => file.child name.text := by
  unfold listFiles
  rw [stands.arrives]

/-- So are the files that are listed. -/
theorem Stands.child
    (proper : files.Proper)
    (stands : Stands files place file)
    (listed : name ∈ files.children place) :
    Stands files (place ++ [name]) (file.child name.text) := by
  obtain ⟨entry, member⟩ := mem_children_iff.mp listed
  have parts : (file.child name.text).parts = file.parts ++ [.down name] := by
    rw [parts_child, partsOf_name]
  refine ⟨?_, ?_, ?_, ?_⟩
  · exact isInvalid_child stands.valid (proper.valid _ member name
      (List.mem_append_right _ List.mem_cons_self))
  · rw [parts]
    exact stands.direct.child
  · have above := (walk_eq_some_iff.mp stands.arrives).1
    rw [parts]
    refine walk_eq_some_iff.mpr ⟨?_, ?_⟩
    · rw [passed_append, List.forall_mem_append, stands.resolve_eq]
      refine ⟨above, fun path last => ?_⟩
      rw [List.mem_singleton.mp last, proper.tree.isDirectory_iff]
      exact proper.tree.rooted place name entry member
    · rw [resolve_append, resolve_down, stands.resolve_eq]
  · exact Option.isSome_iff_exists.mpr
      ⟨entry, proper.tree.entryAt_eq_some_iff.mpr member⟩

/-- A directory still is where it is when one of its entries is cleared, and
so is every other entry. -/
theorem Stands.clear
    (proper : files.Proper)
    (stands : Stands files place file) :
    Stands (files.clear refused (place ++ [name])) place file := by
  obtain ⟨entry, found⟩ := Option.isSome_iff_exists.mp stands.here
  refine ⟨stands.valid, stands.direct, ?_, ?_⟩
  · apply locate_filter proper.tree proper.tree.clear stands.arrives
    intro above member
    rw [decide_eq_true_eq]
    intro inside
    rw [← stands.resolve_eq] at inside
    exact absurd inside (stands.direct.not_below member)
  · refine Option.isSome_iff_exists.mpr ⟨entry, ?_⟩
    rw [proper.tree.clear.entryAt_eq_some_iff, mem_clear_iff]
    exact ⟨proper.tree.entryAt_eq_some_iff.mp found,
      fun inside => absurd inside not_append_prefix⟩

theorem mem_children_clear
    (different : name ≠ other)
    (listed : other ∈ files.children place) :
    other ∈ FileSystem.children (files.clear refused (place ++ [name]))
      place := by
  obtain ⟨entry, member⟩ := mem_children_iff.mp listed
  refine mem_children_iff.mpr ⟨entry, mem_clear_iff.mpr ⟨member, ?_⟩⟩
  intro inside
  have same := inside.eq_of_length (by simp)
  rw [List.append_cancel_left_eq, List.cons.injEq] at same
  exact absurd same.1 different

end Children

end File
end Java

namespace Store

open Java Storage FileSystem

/-- `deleteRecursive` under a system that refuses to delete some entries. -/
def deleteRecursiveUnless
    (refused : List FileName → Bool) :
    Nat → Files → File → Files × Bool
  | 0, files, fileOrDirectory => fileOrDirectory.deleteUnless refused files
  | depth + 1, files, fileOrDirectory =>
      let emptied :=
        if fileOrDirectory.isDirectory files then
          (fileOrDirectory.listFiles files).foldl
            (fun files child =>
              (deleteRecursiveUnless refused depth files child).1) files
        else files
      fileOrDirectory.deleteUnless refused emptied

section Deleting

variable {refused : List FileName → Bool}
variable {files : Files}
variable {file : File}
variable {place : List FileName}
variable {depth : Nat}

/-- A system that refuses nothing. -/
theorem deleteRecursiveUnless_none :
    deleteRecursiveUnless (fun _ => false) depth files file =
      deleteRecursive depth files file := by
  have delete (files : Files) (file : File) :
      file.deleteUnless (fun _ => false) files = file.delete files := by
    unfold File.deleteUnless File.delete removeUnless
    rw [Option.any_false]
    rfl
  induction depth generalizing files file with
  | zero => exact delete files file
  | succ depth inductionHypothesis =>
      rw [deleteRecursiveUnless, deleteRecursive]
      simp only [inductionHypothesis, delete]

/-- What is left where all entries of a directory were cleared. -/
theorem deleteUnless_clearChildren
    (proper : files.Proper)
    (stands : file.Stands files place) :
    file.deleteUnless refused
        (files.clearChildren refused place (files.children place)) =
      (files.clear refused place, !files.Kept refused place) := by
  unfold File.deleteUnless
  rw [if_neg stands.valid]
  exact removeUnless_clearChildren proper.tree stands.direct stands.arrives
    stands.here

/-- A recursive deletion clears the place. -/
theorem deleteRecursiveUnless_eq
    (proper : files.Proper)
    (stands : file.Stands files place)
    (deep : height files ≤ place.length + depth) :
    deleteRecursiveUnless refused depth files file =
      (files.clear refused place, !files.Kept refused place) := by
  induction depth generalizing files file place with
  | zero =>
      have none_ : files.children place = [] := by
        rw [List.eq_nil_iff_forall_not_mem]
        intro name listed
        obtain ⟨entry, member⟩ := mem_children_iff.mp listed
        have low := height_le_iff.mp deep _ member
        rw [List.length_append, List.length_singleton] at low
        omega
      rw [deleteRecursiveUnless, ← deleteUnless_clearChildren proper stands,
        none_, clearChildren_nil]
  | succ depth inductionHypothesis =>
      have emptied (names : List FileName) (some_ : Files)
          (proper : some_.Proper)
          (stands : file.Stands some_ place)
          (deep : height some_ ≤ place.length + (depth + 1))
          (listed : ∀ name ∈ names, name ∈ some_.children place)
          (distinct : names.Nodup) :
          (names.map fun name => file.child name.text).foldl
              (fun files child =>
                (deleteRecursiveUnless refused depth files child).1) some_ =
            some_.clearChildren refused place names := by
        induction names generalizing some_ with
        | nil => rw [List.map_nil, List.foldl_nil, clearChildren_nil]
        | cons name names restHypothesis =>
            rw [List.forall_mem_cons] at listed
            rw [List.nodup_cons] at distinct
            have first := inductionHypothesis proper
              (stands.child proper listed.1)
              (by rw [List.length_append, List.length_singleton]; omega)
            rw [List.map_cons, List.foldl_cons, first, restHypothesis,
              clearChildren_cons]
            · exact proper.clear
            · exact stands.clear proper
            · exact (height_le_of_sublist List.filter_sublist).trans deep
            · intro other member
              apply File.mem_children_clear _ (listed.2 other member)
              rintro rfl
              exact distinct.1 member
            · exact distinct.2
      rw [deleteRecursiveUnless, ← deleteUnless_clearChildren proper stands,
        stands.isDirectory_eq, stands.listFiles_eq,
        emptied _ _ proper stands deep (fun _ => id) proper.tree.children_nodup]
      split
      case isTrue => rfl
      case isFalse leaf =>
        rw [proper.tree.children_eq_nil leaf, clearChildren_nil]

theorem stands_of_existsIn
    (direct : Direct file.parts)
    (exists_ : file.existsIn files) :
    file.Stands files (resolve [] file.parts) := by
  unfold File.existsIn at exists_
  rw [Bool.and_eq_true, Bool.not_eq_true', Option.isSome_bind,
    Option.any_eq_true] at exists_
  obtain ⟨valid, place, arrives, here⟩ := exists_
  have leads := (walk_eq_some_iff.mp arrives).2
  rw [leads]
  exact ⟨ne_true_of_eq_false valid, direct, arrives, here⟩

/-- A name without a separator makes a path of names. -/
theorem direct_userDirectory
    {filesDir : List FileName}
    {username : JString}
    (single : slash ∉ username) :
    Direct (Directories.userDirectory filesDir username).parts := by
  have whole : slash ∉ jstr "user_" ++ username := by
    rw [List.mem_append, not_or]
    exact ⟨by decide +kernel, single⟩
  obtain ⟨name, parts⟩ := Directories.partsOf_of_head
    (show (jstr "user_" ++ username).head? = some 117 from rfl) (by decide)
    whole
  unfold Directories.userDirectory
  rw [File.parts_child, File.parts_ofPath, parts]
  apply direct_of_not_up
  · unfold EndsInName
    rw [List.getLast?_concat]
  · simp

/-- Where nothing is refused, the whole directory of a user goes. -/
theorem deleteUserDirectory_eq
    {filesDir : List FileName}
    {username : JString}
    (proper : files.Proper)
    (single : slash ∉ username)
    (exists_ : (Directories.userDirectory filesDir username).existsIn files) :
    Directories.deleteUserDirectory filesDir files username =
      (files.filter fun entry =>
        ¬Directories.directoryPath filesDir username <+: entry.1, true) := by
  have none_ (path : List FileName) :
      files.Kept (fun _ => false) path = false := by
    unfold Kept
    simp
  unfold Directories.deleteUserDirectory
  rw [← deleteRecursiveUnless_none,
    deleteRecursiveUnless_eq proper
      (stands_of_existsIn (direct_userDirectory single) exists_)
      (Nat.le_add_left _ _),
    none_]
  unfold FileSystem.clear
  simp only [none_, Bool.false_eq_true, imp_false]
  rfl

end Deleting

section Results

variable {refused : List FileName → Bool}
variable {files : Files}
variable {place path : List FileName}

theorem isSome_entryAt_iff
    (proper : files.Proper) :
    (files.entryAt path).isSome ↔ ∃ entry, (path, entry) ∈ files := by
  rw [Option.isSome_iff_exists]
  exact exists_congr fun entry => proper.tree.entryAt_eq_some_iff

theorem kept_iff_entryAt
    (proper : files.Proper) :
    files.Kept refused path ↔
      ∃ below, path <+: below ∧ (files.entryAt below).isSome ∧
        refused below := by
  rw [kept_iff]
  constructor
  · rintro ⟨⟨below, entry⟩, member, inside, refusal⟩
    exact ⟨below, inside, (isSome_entryAt_iff proper).mpr ⟨entry, member⟩,
      refusal⟩
  · rintro ⟨below, inside, here, refusal⟩
    obtain ⟨entry, member⟩ := (isSome_entryAt_iff proper).mp here
    exact ⟨_, member, inside, refusal⟩

/-- Of the entries below a cleared place, those that are kept are there. -/
theorem isSome_entryAt_clear
    (proper : files.Proper)
    (inside : place <+: path) :
    (FileSystem.entryAt (files.clear refused place) path).isSome ↔
      files.Kept refused path := by
  rw [isSome_entryAt_iff proper.clear]
  constructor
  · rintro ⟨entry, member⟩
    exact (mem_clear_iff.mp member).2 inside
  · intro kept
    obtain ⟨other, member, below, -⟩ := kept_iff.mp kept
    obtain ⟨entry, here⟩ := proper.tree.exists_above member below
    exact ⟨entry, mem_clear_iff.mpr ⟨here, fun _ => kept⟩⟩

theorem entryAt_clear
    (proper : files.Proper)
    (stays : place <+: path → files.Kept refused path) :
    FileSystem.entryAt (files.clear refused place) path =
      files.entryAt path := by
  rw [Option.ext_iff]
  intro entry
  rw [proper.clear.tree.entryAt_eq_some_iff, proper.tree.entryAt_eq_some_iff,
    mem_clear_iff, and_iff_left stays]

end Results

/-- Whatever the system refuses to delete: from some depth on the recursion
does not depend on it, the result is true exactly when nothing of the tree is
left, and what is left are the refused entries and what they stand in, with all
else as it was. -/
theorem deleteRecursive_honest
    (refused : List FileName → Bool)
    (files : Files)
    (file : File)
    (place : List FileName)
    (depth : Nat)
    (proper : files.Proper)
    (stands : file.Stands files place)
    (deep : height files ≤ depth) :
    let left := deleteRecursiveUnless refused depth files file
    left = deleteRecursiveUnless refused (height files) files file ∧
      (left.2 = true ↔
        ∀ path, place <+: path → left.1.entryAt path = none) ∧
      (∀ path, place <+: path →
        ((left.1.entryAt path).isSome ↔
          ∃ below, path <+: below ∧ (files.entryAt below).isSome ∧
            refused below)) ∧
      ∀ path, (place <+: path → (left.1.entryAt path).isSome) →
        left.1.entryAt path = files.entryAt path := by
  have cleared := @deleteRecursiveUnless_eq refused files file place depth
    proper stands (by omega)
  have also := @deleteRecursiveUnless_eq refused files file place (height files)
    proper stands (by omega)
  dsimp only
  rw [also, cleared]
  refine ⟨rfl, ?_, ?_, ?_⟩
  · rw [Bool.not_eq_true']
    constructor
    · intro loose path inside
      rw [← Option.not_isSome_iff_eq_none, isSome_entryAt_clear proper inside]
      intro kept
      rw [kept_above kept inside] at loose
      cases loose
    · intro none_
      rw [← Bool.not_eq_true, ← isSome_entryAt_clear proper
        (List.prefix_refl place), none_ place (List.prefix_refl place)]
      exact Bool.false_ne_true
  · intro path inside
    rw [isSome_entryAt_clear proper inside, kept_iff_entryAt proper]
  · intro path stays
    apply entryAt_clear proper
    intro inside
    exact (isSome_entryAt_clear proper inside).mp (stays inside)

/-- A directory with two files of which one is refused. -/
theorem deleteRecursive_honest_of_two_files :
    let user : FileName := ⟨jstr "user_a", by decide +kernel,
      by decide +kernel, by decide +kernel, by decide +kernel⟩
    let chats : FileName := ⟨jstr "chats.json", by decide +kernel,
      by decide +kernel, by decide +kernel, by decide +kernel⟩
    let chat : FileName := ⟨jstr "chat_1.json", by decide +kernel,
      by decide +kernel, by decide +kernel, by decide +kernel⟩
    let files : Files :=
      [([], .directory), ([user], .directory), ([user, chats], .file []),
        ([user, chat], .file [])]
    let left := deleteRecursiveUnless (· = [user, chat]) 2 files
      (Directories.userDirectory [] (jstr "a"))
    ¬left.2 = true ∧ (left.1.entryAt [user]).isSome := by
  intro user chats chat files left
  have rooted : ∀ entry ∈ files,
      entry.1 ≠ [] → (entry.1.dropLast, .directory) ∈ files := by
    decide +kernel
  have proper : files.Proper := by
    refine ⟨⟨by decide +kernel, ?_⟩, by decide +kernel⟩
    intro path name entry member
    have holder := rooted _ member (List.concat_ne_nil _ _)
    rwa [List.dropLast_concat] at holder
  have stands : (Directories.userDirectory [] (jstr "a")).Stands files [user] :=
    @stands_of_existsIn files (Directories.userDirectory [] (jstr "a"))
      (@direct_userDirectory [] (jstr "a") (by decide +kernel))
      (by decide +kernel)
  obtain ⟨-, whole, remaining, -⟩ := deleteRecursive_honest
    (· = [user, chat]) files _ [user] 2 proper stands (by decide +kernel)
  have stays : (left.1.entryAt [user]).isSome :=
    (remaining [user] (List.prefix_refl _)).mpr
      ⟨[user, chat], by decide +kernel, by decide +kernel, by decide +kernel⟩
  refine ⟨fun gone => ?_, stays⟩
  rw [whole.mp gone [user] (List.prefix_refl _)] at stays
  cases stays

end Store
end IdoProject
