import IdoProject.Storage.Trees

/-!
# The system calls on trees

Every system call leaves a tree where it found one: what is made or moved gets a
directory to stand in, what is removed or replaced has nothing below it, and
nothing is moved below itself.  On the path of a directory and a name below it,
a call fails or changes the one entry that the path leads to.
-/

namespace IdoProject
namespace Storage
namespace FileSystem

variable {Name : Type u} {Data : Type v}

/-- What a call adds is made of the names on its paths. -/
def Among
    (parts : List (PathPart Name))
    (system left : FileSystem Name Data) : Prop :=
  ∀ found ∈ left, ∀ name ∈ found.1,
    .down name ∈ parts ∨ ∃ other ∈ system, name ∈ other.1

theorem among_of_subset
    {parts : List (PathPart Name)}
    {system left : FileSystem Name Data}
    (fewer : left ⊆ system) :
    Among parts system left :=
  fun found member _ own => Or.inr ⟨found, fewer member, own⟩

/-- The parts that lead to an entry of a directory. -/
def partsTo (path : List Name) (name : Name) : List (PathPart Name) :=
  path.map .down ++ [.down name]

@[simp] theorem endsInName_partsTo
    {path : List Name}
    {name : Name} :
    EndsInName (partsTo path name) := by
  unfold EndsInName partsTo
  rw [List.getLast?_concat]

@[simp] theorem resolve_partsTo
    {path : List Name}
    {name : Name} :
    resolve [] (partsTo path name) = path ++ [name] := by
  unfold partsTo
  rw [resolve_append, resolve_map_down, resolve_down, List.nil_append]

variable [DecidableEq Name]

section Members

variable {system : FileSystem Name Data}
variable {path place source target : List Name}
variable {found : List Name × Entry Data}
variable {entry : Entry Data}

theorem mem_erase_iff :
    found ∈ system.erase place ↔ found ∈ system ∧ found.1 ≠ place := by
  unfold erase
  rw [List.mem_filter, decide_eq_true_eq]

theorem mem_put_iff :
    found ∈ system.put place entry ↔
      found ∈ system ∧ found.1 ≠ place ∨ found = (place, entry) := by
  unfold put
  rw [List.mem_append, mem_erase_iff, List.mem_singleton]

theorem mem_relocate_iff :
    (path, entry) ∈ system.relocate source target ↔
      (∃ rest, path = target ++ rest ∧ (source ++ rest, entry) ∈ system) ∨
        ¬source <+: path ∧ (path, entry) ∈ system := by
  unfold relocate
  rw [List.mem_map]
  constructor
  · rintro ⟨⟨old, kind⟩, member, moved⟩
    dsimp only at moved
    split at moved
    case isTrue inside =>
      obtain ⟨rest, rfl⟩ := inside
      rw [List.drop_left, Prod.mk.injEq] at moved
      rw [← moved.1, ← moved.2]
      exact Or.inl ⟨rest, rfl, member⟩
    case isFalse outside =>
      rw [Prod.mk.injEq] at moved
      rw [← moved.1, ← moved.2]
      exact Or.inr ⟨outside, member⟩
  · rintro (⟨rest, rfl, member⟩ | ⟨outside, member⟩)
    · refine ⟨_, member, ?_⟩
      rw [if_pos (List.prefix_append _ _), List.drop_left]
    · exact ⟨_, member, if_neg outside⟩

@[simp] theorem entryAt_put_self :
    (system.put place entry).entryAt place = some entry := by
  have absent :
      (system.erase place).find? (fun entry => entry.1 = place) = none := by
    rw [List.find?_eq_none]
    intro found member
    rw [decide_eq_true_eq]
    exact (mem_erase_iff.mp member).2
  rw [put, entryAt, List.find?_append, absent, Option.none_or]
  simp

@[simp] theorem entryAt_erase_self :
    (system.erase place).entryAt place = none := by
  rw [entryAt, Option.map_eq_none_iff, List.find?_eq_none]
  intro found member
  rw [decide_eq_true_eq]
  exact (mem_erase_iff.mp member).2

/-- What has no entries has nothing below it. -/
theorem IsTree.eq_of_childless
    (tree : system.IsTree)
    (childless : system.children place = [])
    (member : (path, entry) ∈ system)
    (below : place <+: path) :
    path = place := by
  by_contra other
  obtain ⟨name, inside⟩ := exists_name_of_below below other
  obtain ⟨child, listed⟩ := tree.exists_above member inside
  exact List.not_mem_nil (childless ▸ mem_children_iff.mpr ⟨child, listed⟩)

theorem IsTree.childless_of_missing
    (tree : system.IsTree)
    (missing : system.entryAt place = none) :
    system.children place = [] := by
  apply tree.children_eq_nil
  rw [tree.isDirectory_iff, ← tree.entryAt_eq_some_iff, missing]
  exact (Option.some_ne_none _).symm

/-- Two trees agree on an entry where they have it in common. -/
theorem IsTree.entryAt_congr
    {other : FileSystem Name Data}
    {also : List Name}
    (tree : system.IsTree)
    (second : other.IsTree)
    (same : ∀ entry, (path, entry) ∈ system ↔ (also, entry) ∈ other) :
    system.entryAt path = other.entryAt also := by
  rw [Option.ext_iff]
  intro entry
  rw [tree.entryAt_eq_some_iff, second.entryAt_eq_some_iff]
  exact same entry

end Members

section Keeping

variable {system : FileSystem Name Data}
variable {path place source target : List Name}
variable {name : Name}
variable {entry : Entry Data}

/-- What has no entries can be removed. -/
theorem IsTree.erase
    (tree : system.IsTree)
    (childless : system.children place = []) :
    (system.erase place).IsTree where
  distinct := (List.filter_sublist.map Prod.fst).nodup tree.distinct
  rooted path name entry member := by
    rw [mem_erase_iff] at member ⊢
    refine ⟨tree.rooted path name entry member.1, ?_⟩
    rintro rfl
    have listed := mem_children_iff.mpr ⟨entry, member.1⟩
    rw [childless] at listed
    exact List.not_mem_nil listed

/-- A directory gets an entry, which takes the place of none that has entries
itself unless it is a directory as well. -/
theorem IsTree.put
    (tree : system.IsTree)
    (holder : (path, .directory) ∈ system)
    (fits : entry = .directory ∨ system.children (path ++ [name]) = []) :
    (system.put (path ++ [name]) entry).IsTree where
  distinct := by
    unfold FileSystem.put
    rw [List.map_append, List.nodup_append]
    refine ⟨(List.filter_sublist.map Prod.fst).nodup tree.distinct,
      List.nodup_singleton _, ?_⟩
    intro first among second last
    obtain ⟨found, member, rfl⟩ := List.mem_map.mp among
    rw [List.map_singleton, List.mem_singleton] at last
    rw [last]
    exact (mem_erase_iff.mp member).2
  rooted above child kind member := by
    have other : path ≠ path ++ [name] := by simp
    rw [mem_put_iff] at member ⊢
    rcases member with ⟨member, -⟩ | new
    · by_cases here : above = path ++ [name]
      · rcases fits with rfl | childless
        · exact Or.inr (congrArg (·, _) here)
        · rw [here] at member
          have listed := mem_children_iff.mpr ⟨kind, member⟩
          rw [childless] at listed
          exact absurd listed List.not_mem_nil
      · exact Or.inl ⟨tree.rooted above child kind member, here⟩
    · rw [Prod.mk.injEq] at new
      rw [(List.append_inj_left' new.1 rfl)]
      exact Or.inl ⟨holder, other⟩

/-- Everything at and below a place is moved into a directory that is not among
it, to where nothing is. -/
theorem IsTree.relocate
    (tree : system.IsTree)
    (holder : (path, .directory) ∈ system)
    (outside : ¬source <+: path ++ [name])
    (free : ∀ found ∈ system, ¬path ++ [name] <+: found.1) :
    (system.relocate source (path ++ [name])).IsTree where
  distinct := by
    unfold FileSystem.relocate
    rw [List.map_map]
    apply List.Nodup.map_on _ (List.Nodup.of_map Prod.fst tree.distinct)
    intro first member second also same
    have only : first.1 = second.1 := by
      dsimp only [Function.comp_apply] at same
      split at same
      case isTrue inside =>
        obtain ⟨rest, here⟩ := inside
        split at same
        case isTrue below =>
          obtain ⟨others, there⟩ := below
          rw [← here, ← there, List.drop_left, List.drop_left,
            List.append_cancel_left_eq] at same
          rw [← here, ← there, same]
        case isFalse =>
          exact absurd (same ▸ List.prefix_append _ _) (free second also)
      case isFalse =>
        split at same
        case isTrue =>
          exact absurd (same ▸ List.prefix_append _ _) (free first member)
        case isFalse => exact same
    exact List.inj_on_of_nodup_map tree.distinct member also only
  rooted above child kind member := by
    have parent : ¬source <+: path := fun inside =>
      outside (inside.trans (List.prefix_append _ _))
    rw [mem_relocate_iff] at member ⊢
    rcases member with ⟨rest, whole, member⟩ | ⟨beside, member⟩
    · rcases List.eq_nil_or_concat rest with rfl | ⟨front, last, rfl⟩
      · rw [List.append_nil] at whole
        rw [List.append_inj_left' whole rfl]
        exact Or.inr ⟨parent, holder⟩
      · rw [List.concat_eq_append, ← List.append_assoc] at whole member
        rw [List.append_inj_left' whole rfl]
        exact Or.inl ⟨front, rfl, tree.rooted _ last kind member⟩
    · exact Or.inr ⟨fun inside =>
          beside (inside.trans (List.prefix_append _ _)),
        tree.rooted above child kind member⟩

end Keeping

section Calls

variable {system written : FileSystem Name Data}
variable {place : List Name}
variable {parts old new : List (PathPart Name)}
variable {data : Data}

/-- A path that ends in a name leads into a directory. -/
theorem exists_holder
    (tree : system.IsTree)
    (arrives : system.locate parts = some place)
    (named : EndsInName parts) :
    ∃ path name, place = path ++ [name] ∧ .down name ∈ parts ∧
      (path, .directory) ∈ system := by
  unfold EndsInName at named
  split at named
  case h_2 => cases named
  case h_1 name last =>
    obtain ⟨front, rfl⟩ := List.getLast?_eq_some_iff.mp last
    obtain ⟨directories, leads⟩ := walk_eq_some_iff.mp arrives
    rw [resolve_append, resolve_down] at leads
    rw [passed_append, List.forall_mem_append] at directories
    refine ⟨_, name, leads.symm,
      List.mem_append_right _ List.mem_cons_self, ?_⟩
    exact tree.isDirectory_iff.mp (directories.2 _ List.mem_cons_self)

theorem among_put
    {path : List Name}
    {name : Name}
    {entry : Entry Data}
    (listed : .down name ∈ parts)
    (holder : (path, .directory) ∈ system) :
    Among parts system (system.put (path ++ [name]) entry) := by
  intro found member other own
  rcases mem_put_iff.mp member with ⟨member, -⟩ | rfl
  · exact Or.inr ⟨found, member, own⟩
  · rcases List.mem_append.mp own with above | last
    · exact Or.inr ⟨_, holder, above⟩
    · rw [List.mem_singleton.mp last]
      exact Or.inl listed

theorem IsTree.mkdir
    (tree : system.IsTree) :
    (system.mkdir parts).1.IsTree ∧
      Among parts system (system.mkdir parts).1 := by
  unfold FileSystem.mkdir
  split
  case h_1 => exact ⟨tree, among_of_subset (List.Subset.refl _)⟩
  case h_2 place arrives =>
    split
    case isFalse => exact ⟨tree, among_of_subset (List.Subset.refl _)⟩
    case isTrue able =>
      obtain ⟨path, name, rfl, listed, holder⟩ :=
        exists_holder tree arrives able.1
      exact ⟨tree.put holder (Or.inl rfl), among_put listed holder⟩

theorem IsTree.remove
    (tree : system.IsTree) :
    (system.remove parts).1.IsTree ∧
      Among parts system (system.remove parts).1 := by
  unfold FileSystem.remove
  split
  case h_1 => exact ⟨tree, among_of_subset (List.Subset.refl _)⟩
  case h_2 place arrives =>
    split
    case isFalse => exact ⟨tree, among_of_subset (List.Subset.refl _)⟩
    case isTrue able =>
      obtain ⟨-, -, empty⟩ := able
      refine ⟨tree.erase ?_, among_of_subset List.filter_sublist.subset⟩
      by_cases leaf : system.IsDirectory place
      · exact List.isEmpty_iff.mp (empty leaf)
      · exact tree.children_eq_nil leaf

theorem IsTree.write
    (tree : system.IsTree)
    (wrote : system.write parts data = some written) :
    written.IsTree ∧ Among parts system written := by
  obtain ⟨place, arrives, opened⟩ := Option.bind_eq_some_iff.mp wrote
  split at opened
  case isFalse => cases opened
  case isTrue able =>
    obtain ⟨path, name, rfl, listed, holder⟩ :=
      exists_holder tree arrives able.1
    rw [Option.some.injEq] at opened
    rw [← opened]
    exact ⟨tree.put holder (Or.inr (tree.children_eq_nil able.2)),
      among_put listed holder⟩

theorem IsTree.rename
    (tree : system.IsTree) :
    (system.rename old new).1.IsTree ∧
      Among new system (system.rename old new).1 := by
  have same : Among new system system :=
    among_of_subset (List.Subset.refl _)
  unfold FileSystem.rename
  split
  case h_2 => exact ⟨tree, same⟩
  case h_1 source target here there =>
    split
    case isFalse => exact ⟨tree, same⟩
    case isTrue able =>
      split
      case isTrue => exact ⟨tree, same⟩
      case isFalse other =>
        split
        case isTrue => exact ⟨tree, same⟩
        case isFalse outside =>
          split
          case isFalse => exact ⟨tree, same⟩
          case isTrue free =>
            obtain ⟨path, name, rfl, listed, holder⟩ :=
              exists_holder tree there able.2.1
            have childless : system.children (path ++ [name]) = [] := by
              rcases free with missing | ⟨-, empty⟩
              · exact tree.childless_of_missing
                  (Option.isNone_iff_eq_none.mp missing)
              · exact List.isEmpty_iff.mp empty
            have kept : (path, .directory) ∈ system.erase (path ++ [name]) :=
              mem_erase_iff.mpr ⟨holder, by simp⟩
            refine ⟨(tree.erase childless).relocate kept outside ?_, ?_⟩
            · intro found member below
              rw [mem_erase_iff] at member
              exact member.2 (tree.eq_of_childless childless member.1 below)
            · intro found member other own
              rcases mem_relocate_iff.mp member with
                ⟨rest, whole, member⟩ | ⟨-, member⟩
              · rw [whole, List.mem_append, List.mem_append,
                  List.mem_singleton] at own
                rcases own with (above | last) | behind
                · exact Or.inr ⟨_, holder, above⟩
                · rw [last]
                  exact Or.inl listed
                · exact Or.inr ⟨_, (mem_erase_iff.mp member).1,
                    List.mem_append_right _ behind⟩
              · exact Or.inr ⟨_, (mem_erase_iff.mp member).1, own⟩

end Calls

/-! ## Paths of names -/

section Names

variable {system : FileSystem Name Data}
variable {path place rest : List Name}
variable {name other : Name}
variable {entry : Entry Data}
variable {data : Data}

/-- The system arrives at an entry where the directory of it is. -/
theorem IsTree.locate_partsTo
    (tree : system.IsTree) :
    system.locate (partsTo path name) =
      if system.IsDirectory path then some (path ++ [name]) else none := by
  split
  case isTrue holder =>
    refine walk_eq_some_iff.mpr ⟨?_, resolve_partsTo⟩
    intro above member
    unfold partsTo at member
    rw [passed_append, List.mem_append, resolve_map_down, List.nil_append]
      at member
    have inside : above <+: path := by
      rcases member with before | last
      · have leads := prefix_resolve_of_mem_passed (by simp) before
        rwa [resolve_map_down, List.nil_append] at leads
      · rw [List.mem_singleton.mp last]
    by_cases here : path = above
    · rwa [← here]
    · rw [tree.isDirectory_iff] at holder ⊢
      exact tree.directory_above holder inside here
  case isFalse missing =>
    rw [Option.eq_none_iff_forall_not_mem]
    intro place arrives
    have directories := (walk_eq_some_iff.mp arrives).1
    unfold partsTo at directories
    rw [passed_append, List.forall_mem_append, resolve_map_down,
      List.nil_append] at directories
    exact missing (directories.2 path List.mem_cons_self)

/-- What stands in no directory does not stand anywhere. -/
theorem IsTree.entryAt_of_not_directory
    (tree : system.IsTree)
    (missing : ¬system.IsDirectory path) :
    system.entryAt (path ++ [name]) = none := by
  rw [Option.eq_none_iff_forall_not_mem]
  intro entry found
  apply missing
  rw [tree.isDirectory_iff]
  exact tree.rooted path name entry (tree.entryAt_eq_some_iff.mp found)

/-- What a path of names leads to is the entry at it. -/
theorem IsTree.bind_partsTo
    (tree : system.IsTree) :
    (system.locate (partsTo path name)).bind system.entryAt =
      system.entryAt (path ++ [name]) := by
  rw [tree.locate_partsTo]
  split
  case isTrue => rfl
  case isFalse missing => exact (tree.entryAt_of_not_directory missing).symm

theorem IsTree.mkdir_partsTo
    (tree : system.IsTree)
    (holder : system.IsDirectory path)
    (missing : system.entryAt (path ++ [name]) = none) :
    system.mkdir (partsTo path name) =
      (system.put (path ++ [name]) .directory, true) := by
  unfold FileSystem.mkdir
  rw [tree.locate_partsTo, if_pos holder]
  dsimp only
  rw [if_pos ⟨endsInName_partsTo, by rw [missing]; rfl⟩]

theorem IsTree.write_partsTo
    (tree : system.IsTree)
    (holder : system.IsDirectory path)
    (other : ¬system.IsDirectory (path ++ [name])) :
    system.write (partsTo path name) data =
      some (system.put (path ++ [name]) (.file data)) := by
  unfold FileSystem.write
  rw [tree.locate_partsTo, if_pos holder, Option.bind_some]
  rw [if_pos ⟨endsInName_partsTo, other⟩]

/-- A path to what is no directory leads to nothing afterwards, whether
anything was there or not. -/
theorem IsTree.entryAt_remove_partsTo
    (tree : system.IsTree)
    (leaf : ¬system.IsDirectory (path ++ [name])) :
    (system.remove (partsTo path name)).1.entryAt (path ++ [name]) = none := by
  unfold FileSystem.remove
  rw [tree.locate_partsTo]
  by_cases holder : system.IsDirectory path
  case neg =>
    rw [if_neg holder]
    exact tree.entryAt_of_not_directory holder
  case pos =>
    rw [if_pos holder]
    dsimp only
    split
    case isTrue => exact entryAt_erase_self
    case isFalse refused =>
      rw [← Option.not_isSome_iff_eq_none]
      intro here
      exact refused ⟨endsInName_partsTo, here, fun found => absurd found leaf⟩

/-- Nothing is renamed where the old path leads to nothing, or the new one to a
directory with entries. -/
theorem IsTree.rename_partsTo_of_refused
    (tree : system.IsTree)
    (different : name ≠ other)
    (refused : system.entryAt (path ++ [name]) = none ∨
      system.children (path ++ [other]) ≠ []) :
    system.rename (partsTo path name) (partsTo path other) =
      (system, false) := by
  unfold FileSystem.rename
  rw [tree.locate_partsTo, tree.locate_partsTo]
  by_cases holder : system.IsDirectory path
  case neg =>
    rw [if_neg holder, if_neg holder]
  case pos =>
    rw [if_pos holder, if_pos holder]
    dsimp only
    rcases refused with missing | entries
    · rw [if_neg]
      rintro ⟨-, -, here⟩
      rw [missing] at here
      cases here
    · have apart := not_or.mp (@not_overlaps_of_ne _ path _ _ different)
      split
      case isFalse => rfl
      case isTrue =>
        rw [if_neg, if_neg apart.1, if_neg]
        · rintro (missing | ⟨-, empty⟩)
          · exact entries (tree.childless_of_missing
              (Option.isNone_iff_eq_none.mp missing))
          · exact entries (List.isEmpty_iff.mp empty)
        · simpa using different

/-- What is renamed to itself stays where it is. -/
theorem IsTree.rename_self
    (tree : system.IsTree)
    (here : (system.entryAt (path ++ [name])).isSome) :
    system.rename (partsTo path name) (partsTo path name) =
      (system, true) := by
  have holder : system.IsDirectory path := by
    by_contra absent
    rw [tree.entryAt_of_not_directory absent] at here
    cases here
  unfold FileSystem.rename
  rw [tree.locate_partsTo, if_pos holder]
  dsimp only
  rw [if_pos ⟨endsInName_partsTo, endsInName_partsTo, here⟩, if_pos rfl]

/-- A directory is moved with all that is in it. -/
theorem IsTree.rename_partsTo
    (tree : system.IsTree)
    (different : name ≠ other)
    (here : (system.entryAt (path ++ [name])).isSome)
    (missing : system.entryAt (path ++ [other]) = none) :
    system.rename (partsTo path name) (partsTo path other) =
      ((system.erase (path ++ [other])).relocate (path ++ [name])
        (path ++ [other]), true) := by
  have holder : system.IsDirectory path := by
    by_contra absent
    rw [tree.entryAt_of_not_directory absent] at here
    cases here
  have apart := not_or.mp (@not_overlaps_of_ne _ path _ _ different)
  unfold FileSystem.rename
  rw [tree.locate_partsTo, tree.locate_partsTo, if_pos holder, if_pos holder]
  dsimp only
  rw [if_pos ⟨endsInName_partsTo, endsInName_partsTo, here⟩, if_neg,
    if_neg apart.1, if_pos (Or.inl (by rw [missing]; rfl))]
  simpa using different

/-- What was below the old path is below the new one. -/
theorem IsTree.entryAt_rename_partsTo
    (tree : system.IsTree)
    (different : name ≠ other)
    (here : (system.entryAt (path ++ [name])).isSome)
    (missing : system.entryAt (path ++ [other]) = none) :
    let moved := (system.rename (partsTo path name) (partsTo path other)).1
    moved.entryAt (path ++ [other] ++ rest) =
        system.entryAt (path ++ [name] ++ rest) ∧
      moved.entryAt (path ++ [name] ++ rest) = none := by
  have apart := not_or.mp (@not_overlaps_of_ne _ path _ _ different)
  have kept : (system.rename (partsTo path name)
      (partsTo path other)).1.IsTree := tree.rename.1
  have none_ : system.children (path ++ [other]) = [] :=
    tree.childless_of_missing missing
  intro moved
  have moved_eq : moved = (system.erase (path ++ [other])).relocate
      (path ++ [name]) (path ++ [other]) := by
    dsimp only [moved]
    rw [tree.rename_partsTo different here missing]
  have absent {entry : Entry Data} {below : List Name}
      (inside : path ++ [other] <+: below) : (below, entry) ∉ system := by
    intro member
    have there := tree.eq_of_childless none_ member inside
    rw [there, ← tree.entryAt_eq_some_iff, missing] at member
    cases member
  constructor
  · apply kept.entryAt_congr tree
    intro entry
    change _ ∈ moved ↔ _
    rw [moved_eq, mem_relocate_iff]
    constructor
    · rintro (⟨others, same, member⟩ | ⟨-, member⟩)
      · rw [List.append_cancel_left_eq] at same
        rw [same]
        exact (mem_erase_iff.mp member).1
      · exact absurd (mem_erase_iff.mp member).1
          (absent (List.prefix_append _ _))
    · intro member
      refine Or.inl ⟨rest, rfl, mem_erase_iff.mpr ⟨member, fun same => ?_⟩⟩
      exact apart.1 (same ▸ List.prefix_append _ _)
  · rw [Option.eq_none_iff_forall_not_mem]
    intro entry found
    have member := kept.entryAt_eq_some_iff.mp found
    change _ ∈ moved at member
    rw [moved_eq, mem_relocate_iff] at member
    rcases member with ⟨others, same, -⟩ | ⟨outside, -⟩
    · apply apart.2
      have below : path ++ [other] <+: path ++ [name] ++ rest :=
        same ▸ List.prefix_append _ _
      exact List.prefix_of_prefix_length_le below (List.prefix_append _ _)
        (by simp)
    · exact outside (List.prefix_append _ _)

end Names

end FileSystem
end Storage
end IdoProject
