import IdoProject.Storage.FileSystem

/-!
# Trees of entries

In a file system without links every entry stands in a directory, and no path
has two entries.  What a recursive deletion can leave below a place is decided
by the entries that the system refuses to delete: an entry is kept where a
refused one is at or below it, and everything else can go, the children of a
directory one after the other and the directory itself last.
-/

namespace IdoProject
namespace Storage
namespace FileSystem

variable {Name : Type u} {Data : Type v}

/-- The parts end in a name and pass nothing below the place they lead to. -/
structure Direct (parts : List (PathPart Name)) : Prop where
  named : EndsInName parts
  beside :
    ∀ above ∈ passed [] parts, resolve [] parts <+: above →
      above = resolve [] parts

/-- Every entry stands in a directory, and has its path for itself. -/
structure IsTree (system : FileSystem Name Data) : Prop where
  distinct : (system.map Prod.fst).Nodup
  rooted :
    ∀ path name entry, (path ++ [name], entry) ∈ system →
      (path, .directory) ∈ system

section Shapes

variable {system : FileSystem Name Data}
variable {path place above : List Name}
variable {parts : List (PathPart Name)}
variable {name : Name}

/-- What is below a place and not at it is at or below an entry of it. -/
theorem exists_name_of_below
    (below : place <+: path)
    (other : path ≠ place) :
    ∃ name, place ++ [name] <+: path := by
  obtain ⟨rest, rfl⟩ := below
  cases rest with
  | nil => exact absurd (List.append_nil place) other
  | cons name rest =>
      exact ⟨name, rest, by rw [List.append_assoc, List.singleton_append]⟩

/-- Where every entry that stays keeps the directory it stands in, a tree is
left. -/
theorem IsTree.filter
    {stays : List Name × Entry Data → Bool}
    (tree : system.IsTree)
    (closed : ∀ path name entry, stays (path ++ [name], entry) →
      stays (path, .directory)) :
    IsTree (system.filter stays) where
  distinct := (List.filter_sublist.map Prod.fst).nodup tree.distinct
  rooted path name entry member := by
    rw [List.mem_filter] at member ⊢
    exact ⟨tree.rooted path name entry member.1,
      closed path name entry member.2⟩

/-- No entry of a directory contains it. -/
theorem not_append_prefix :
    ¬place ++ [name] <+: place := by
  intro inside
  have length := inside.length_le
  rw [List.length_append, List.length_singleton] at length
  omega

theorem Direct.not_below
    (direct : Direct parts)
    (member : above ∈ passed [] parts) :
    ¬resolve [] parts ++ [name] <+: above := by
  intro inside
  have here :=
    direct.beside above member ((List.prefix_append _ _).trans inside)
  rw [here] at inside
  exact not_append_prefix inside

/-- A path to a directory leads on to the entries of it. -/
theorem Direct.child
    (direct : Direct parts) :
    Direct (parts ++ [.down name]) where
  named := by
    unfold EndsInName
    rw [List.getLast?_concat]
  beside above member inside := by
    rw [resolve_append, resolve_down] at inside
    rw [passed_append, List.mem_append] at member
    rcases member with member | member
    · exact absurd inside (direct.not_below member)
    · rw [List.mem_singleton.mp member] at inside
      exact absurd inside not_append_prefix

/-- Parts of which none leads up pass nothing but what is above the place. -/
theorem direct_of_not_up
    (named : EndsInName parts)
    (down : .up ∉ parts) :
    Direct parts :=
  ⟨named, fun _ member inside =>
    (prefix_resolve_of_mem_passed down member).eq_of_length_le
      inside.length_le⟩

end Shapes

variable [DecidableEq Name]

/-- A refused entry is at the path or below it. -/
def Kept
    (refused : List Name → Bool)
    (system : FileSystem Name Data)
    (path : List Name) : Bool :=
  system.any fun entry => path <+: entry.1 ∧ refused entry.1

/-- `remove` under a system that refuses to remove some entries. -/
def removeUnless
    (refused : List Name → Bool)
    (system : FileSystem Name Data)
    (parts : List (PathPart Name)) : FileSystem Name Data × Bool :=
  if (system.locate parts).any refused then (system, false)
  else system.remove parts

/-- What can go at a place and below it is gone. -/
def clear
    (refused : List Name → Bool)
    (system : FileSystem Name Data)
    (place : List Name) : FileSystem Name Data :=
  system.filter fun entry => place <+: entry.1 → system.Kept refused entry.1

/-- What can go below some entries of a directory is gone. -/
def clearChildren
    (refused : List Name → Bool)
    (system : FileSystem Name Data)
    (place : List Name)
    (names : List Name) : FileSystem Name Data :=
  system.filter fun entry =>
    (∃ name ∈ names, place ++ [name] <+: entry.1) →
      system.Kept refused entry.1

section Entries

variable {system : FileSystem Name Data}
variable {path place above : List Name}
variable {name : Name}
variable {entry : Entry Data}

theorem IsTree.entryAt_eq_some_iff
    (tree : system.IsTree) :
    system.entryAt path = some entry ↔ (path, entry) ∈ system := by
  unfold entryAt
  rw [Option.map_eq_some_iff]
  constructor
  · rintro ⟨found, first, rfl⟩
    have same := List.find?_some first
    rw [decide_eq_true_eq] at same
    rw [← same]
    exact List.mem_of_find?_eq_some first
  · intro member
    have here : (system.find? fun entry => entry.1 = path).isSome :=
      List.find?_isSome.mpr ⟨_, member, decide_eq_true rfl⟩
    obtain ⟨found, first⟩ := Option.isSome_iff_exists.mp here
    have same := List.find?_some first
    rw [decide_eq_true_eq] at same
    have only := List.inj_on_of_nodup_map tree.distinct
      (List.mem_of_find?_eq_some first) member same
    exact ⟨found, first, by rw [only]⟩

theorem IsTree.isDirectory_iff
    (tree : system.IsTree) :
    system.IsDirectory path ↔ (path, .directory) ∈ system := by
  rw [← tree.entryAt_eq_some_iff]
  unfold IsDirectory
  split
  case h_1 here => exact iff_of_true rfl here
  case h_2 other => exact iff_of_false Bool.false_ne_true (other ·)

theorem mem_children_iff :
    name ∈ system.children place ↔
      ∃ entry, (place ++ [name], entry) ∈ system := by
  unfold children
  rw [List.mem_filterMap]
  constructor
  · rintro ⟨⟨path, entry⟩, member, last⟩
    split at last
    case isFalse => cases last
    case isTrue inside =>
      obtain ⟨front, whole⟩ := List.getLast?_eq_some_iff.mp last
      dsimp only at whole inside
      rw [whole, List.dropLast_concat] at inside
      rw [whole, inside] at member
      exact ⟨entry, member⟩
  · rintro ⟨entry, member⟩
    refine ⟨_, member, ?_⟩
    rw [if_pos List.dropLast_concat, List.getLast?_concat]

/-- What is no directory has no entries. -/
theorem IsTree.children_eq_nil
    (tree : system.IsTree)
    (leaf : ¬system.IsDirectory place) :
    system.children place = [] := by
  rw [List.eq_nil_iff_forall_not_mem]
  intro name listed
  obtain ⟨entry, member⟩ := mem_children_iff.mp listed
  exact leaf (tree.isDirectory_iff.mpr (tree.rooted place name entry member))

theorem IsTree.children_nodup
    (tree : system.IsTree) :
    (system.children place).Nodup := by
  have names : system.children place =
      (system.map Prod.fst).filterMap fun path =>
        if path.dropLast = place then path.getLast? else none := by
    rw [List.filterMap_map]
    rfl
  have whole (path : List Name) (name : Name)
      (last : name ∈
        (if path.dropLast = place then path.getLast? else none)) :
      path = place ++ [name] := by
    split at last
    case isFalse => cases last
    case isTrue inside =>
      obtain ⟨front, rfl⟩ := List.getLast?_eq_some_iff.mp last
      rw [List.dropLast_concat] at inside
      rw [inside]
  rw [names]
  apply tree.distinct.filterMap
  intro first second name last also
  rw [whole first name last, whole second name also]

/-- The directories on the way to an entry are there. -/
theorem IsTree.directory_above
    (tree : system.IsTree)
    (member : (path, entry) ∈ system)
    (inside : above <+: path)
    (other : path ≠ above) :
    (above, .directory) ∈ system := by
  induction path using List.reverseRecOn generalizing entry with
  | nil => exact absurd (List.prefix_nil.mp inside).symm other
  | append_singleton path name inductionHypothesis =>
      have holder := tree.rooted path name entry member
      rcases List.prefix_concat_iff.mp inside with same | further
      · exact absurd same.symm other
      · by_cases here : path = above
        · rwa [← here]
        · exact inductionHypothesis holder further here

theorem IsTree.exists_above
    (tree : system.IsTree)
    (member : (path, entry) ∈ system)
    (inside : above <+: path) :
    ∃ entry, (above, entry) ∈ system := by
  by_cases here : path = above
  · exact ⟨entry, here ▸ member⟩
  · exact ⟨.directory, tree.directory_above member inside here⟩

end Entries

section Refusal

variable {refused : List Name → Bool}
variable {system : FileSystem Name Data}
variable {path place above : List Name}
variable {name : Name}
variable {names : List Name}
variable {entry : List Name × Entry Data}

theorem kept_iff :
    system.Kept refused path ↔
      ∃ entry ∈ system, path <+: entry.1 ∧ refused entry.1 := by
  unfold Kept
  simp only [List.any_eq_true, decide_eq_true_eq]

theorem kept_above
    (kept : system.Kept refused path)
    (inside : above <+: path) :
    system.Kept refused above := by
  obtain ⟨entry, member, below, refusal⟩ := kept_iff.mp kept
  exact kept_iff.mpr ⟨entry, member, inside.trans below, refusal⟩

/-- What is kept stays so as long as no refused entry goes. -/
theorem kept_filter
    {stays : List Name × Entry Data → Bool}
    (safe : ∀ entry ∈ system, refused entry.1 → stays entry) :
    Kept refused (system.filter stays) path = system.Kept refused path := by
  rw [Bool.eq_iff_iff, kept_iff, kept_iff]
  constructor
  · rintro ⟨entry, member, below, refusal⟩
    exact ⟨entry, (List.mem_filter.mp member).1, below, refusal⟩
  · rintro ⟨entry, member, below, refusal⟩
    exact ⟨entry, List.mem_filter.mpr ⟨member, safe entry member refusal⟩,
      below, refusal⟩

theorem kept_of_refused
    (member : entry ∈ system)
    (refusal : refused entry.1) :
    system.Kept refused entry.1 :=
  kept_iff.mpr ⟨entry, member, List.prefix_refl _, refusal⟩

theorem mem_clear_iff :
    entry ∈ system.clear refused place ↔
      entry ∈ system ∧ (place <+: entry.1 → system.Kept refused entry.1) := by
  unfold clear
  rw [List.mem_filter, decide_eq_true_eq]

theorem mem_clearChildren_iff :
    entry ∈ system.clearChildren refused place names ↔
      entry ∈ system ∧
        ((∃ name ∈ names, place ++ [name] <+: entry.1) →
          system.Kept refused entry.1) := by
  unfold clearChildren
  rw [List.mem_filter, decide_eq_true_eq]

theorem kept_clear :
    (system.clear refused place).Kept refused path =
      system.Kept refused path := by
  apply kept_filter
  intro entry member refusal
  rw [decide_eq_true_eq]
  exact fun _ => kept_of_refused member refusal

theorem IsTree.clear
    (tree : system.IsTree) :
    (system.clear refused place).IsTree := by
  apply tree.filter
  intro path name entry stays
  rw [decide_eq_true_eq] at stays ⊢
  intro below
  exact kept_above (stays (below.trans (List.prefix_append _ _)))
    (List.prefix_append _ _)

theorem IsTree.clearChildren
    (tree : system.IsTree) :
    (system.clearChildren refused place names).IsTree := by
  apply tree.filter
  intro path name entry stays
  rw [decide_eq_true_eq] at stays ⊢
  rintro ⟨child, listed, below⟩
  exact kept_above
    (stays ⟨child, listed, below.trans (List.prefix_append _ _)⟩)
    (List.prefix_append _ _)

@[simp] theorem clearChildren_nil :
    system.clearChildren refused place [] = system := by
  unfold clearChildren
  simp

/-- One entry of a directory is cleared after the other. -/
theorem clearChildren_cons :
    (system.clear refused (place ++ [name])).clearChildren refused place
        names =
      system.clearChildren refused place (name :: names) := by
  have kept (path : List Name) :
      Kept refused (system.clear refused (place ++ [name])) path =
        system.Kept refused path := kept_clear
  unfold clearChildren
  simp only [kept]
  rw [FileSystem.clear, List.filter_filter]
  apply List.filter_congr
  intro entry member
  rw [← Bool.decide_and, decide_eq_decide]
  constructor
  · rintro ⟨rest, first⟩ ⟨other, listed, below⟩
    rcases List.mem_cons.mp listed with rfl | listed
    · exact first below
    · exact rest ⟨other, listed, below⟩
  · intro all
    exact ⟨fun ⟨other, listed, below⟩ =>
        all ⟨other, List.mem_cons_of_mem _ listed, below⟩,
      fun below => all ⟨name, List.mem_cons_self, below⟩⟩

theorem below_children_iff
    (tree : system.IsTree)
    (member : entry ∈ system) :
    (∃ name ∈ system.children place, place ++ [name] <+: entry.1) ↔
      place <+: entry.1 ∧ entry.1 ≠ place := by
  constructor
  · rintro ⟨name, -, inside⟩
    refine ⟨(List.prefix_append _ _).trans inside, ?_⟩
    intro same
    rw [same] at inside
    exact not_append_prefix inside
  · rintro ⟨below, other⟩
    obtain ⟨name, inside⟩ := exists_name_of_below below other
    exact ⟨name, mem_children_iff.mpr (tree.exists_above member inside),
      inside⟩

/-- Where all entries of a directory are cleared, all that can go below it is
gone. -/
theorem clearChildren_children
    (tree : system.IsTree) :
    system.clearChildren refused place (system.children place) =
      system.filter fun entry =>
        place <+: entry.1 ∧ entry.1 ≠ place →
          system.Kept refused entry.1 := by
  apply List.filter_congr
  intro entry member
  rw [decide_eq_decide, below_children_iff tree member]

theorem clearChildren_of_kept
    (tree : system.IsTree)
    (kept : system.Kept refused place) :
    system.clearChildren refused place (system.children place) =
      system.clear refused place := by
  rw [clearChildren_children tree]
  apply List.filter_congr
  intro entry member
  rw [decide_eq_decide]
  constructor
  · intro stays below
    by_cases here : entry.1 = place
    · rwa [here]
    · exact stays ⟨below, here⟩
  · exact fun stays below => stays below.1

theorem erase_clearChildren
    (tree : system.IsTree)
    (loose : ¬system.Kept refused place) :
    (system.clearChildren refused place (system.children place)).erase place =
      system.clear refused place := by
  rw [clearChildren_children tree, erase, List.filter_filter]
  apply List.filter_congr
  intro entry member
  rw [← Bool.decide_and, decide_eq_decide]
  constructor
  · rintro ⟨other, stays⟩ below
    exact stays ⟨below, other⟩
  · intro stays
    refine ⟨?_, fun below => stays below.1⟩
    intro here
    rw [here] at stays
    exact loose (stays (List.prefix_refl _))

/-- Then a directory that is not refused itself is empty exactly when nothing
is kept there. -/
theorem children_clearChildren
    (tree : system.IsTree)
    (allowed : ¬refused place) :
    (system.clearChildren refused place
        (system.children place)).children place = [] ↔
      ¬system.Kept refused place := by
  rw [List.eq_nil_iff_forall_not_mem]
  constructor
  · intro none_ kept
    obtain ⟨entry, member, below, refusal⟩ := kept_iff.mp kept
    have other : entry.1 ≠ place := fun here => allowed (here ▸ refusal)
    obtain ⟨name, inside⟩ := exists_name_of_below below other
    obtain ⟨child, listed⟩ := tree.exists_above member inside
    apply none_ name
    rw [mem_children_iff]
    exact ⟨child, mem_clearChildren_iff.mpr ⟨listed, fun _ =>
      kept_iff.mpr ⟨entry, member, inside, refusal⟩⟩⟩
  · intro loose name listed
    obtain ⟨child, remains⟩ := mem_children_iff.mp listed
    obtain ⟨member, stays⟩ := mem_clearChildren_iff.mp remains
    apply loose
    refine kept_above (stays ?_) (List.prefix_append _ _)
    exact ⟨name, mem_children_iff.mpr ⟨child, member⟩, List.prefix_refl _⟩

end Refusal

section Walks

variable {refused : List Name → Bool}
variable {system : FileSystem Name Data}
variable {path place : List Name}
variable {parts : List (PathPart Name)}

/-- The system arrives exactly where all that is passed are directories. -/
theorem walk_eq_some_iff :
    system.walk path parts = some place ↔
      (∀ above ∈ passed path parts, system.IsDirectory above) ∧
        resolve path parts = place := by
  induction parts generalizing path with
  | nil => simp [walk, passed]
  | cons part parts inductionHypothesis =>
      rw [walk, passed, List.forall_mem_cons, resolve, and_assoc,
        ← inductionHypothesis]
      split
      case isTrue here => exact (and_iff_right here).symm
      case isFalse missing =>
        exact iff_of_false (Option.some_ne_none place).symm
          fun both => missing both.1

/-- A path that was there still is while the directories it passes are. -/
theorem locate_filter
    {stays : List Name × Entry Data → Bool}
    (tree : system.IsTree)
    (left : IsTree (system.filter stays))
    (arrives : system.locate parts = some place)
    (safe : ∀ above ∈ passed [] parts, stays (above, .directory)) :
    locate (system.filter stays) parts = some place := by
  obtain ⟨directories, leads⟩ := walk_eq_some_iff.mp arrives
  refine walk_eq_some_iff.mpr ⟨?_, leads⟩
  intro above member
  rw [left.isDirectory_iff, List.mem_filter]
  exact ⟨tree.isDirectory_iff.mp (directories above member),
    safe above member⟩

theorem locate_clearChildren
    {names : List Name}
    (tree : system.IsTree)
    (direct : Direct parts)
    (arrives : system.locate parts = some place) :
    locate (system.clearChildren refused place names) parts = some place := by
  apply locate_filter tree tree.clearChildren arrives
  intro above member
  rw [decide_eq_true_eq]
  rintro ⟨name, -, inside⟩
  rw [← (walk_eq_some_iff.mp arrives).2] at inside
  exact absurd inside (direct.not_below member)

/-- With all that can go below it gone, a place can be removed exactly when
nothing is kept there. -/
theorem removeUnless_clearChildren
    (tree : system.IsTree)
    (direct : Direct parts)
    (arrives : system.locate parts = some place)
    (here : (system.entryAt place).isSome) :
    removeUnless refused
        (system.clearChildren refused place (system.children place)) parts =
      (system.clear refused place, !system.Kept refused place) := by
  obtain ⟨entry, found⟩ := Option.isSome_iff_exists.mp here
  have member := tree.entryAt_eq_some_iff.mp found
  unfold removeUnless
  rw [locate_clearChildren tree direct arrives, Option.any_some]
  by_cases refusal : refused place
  case pos =>
    have kept := kept_of_refused member refusal
    rw [if_pos refusal, clearChildren_of_kept tree kept, kept]
    rfl
  case neg =>
    have left : IsTree
      (system.clearChildren refused place (system.children place)) :=
        tree.clearChildren
    have remains : (place, entry) ∈
        system.clearChildren refused place (system.children place) := by
      rw [mem_clearChildren_iff]
      refine ⟨member, fun inside => ?_⟩
      exact absurd rfl ((below_children_iff tree member).mp inside).2
    have empty := children_clearChildren tree refusal
    rw [if_neg refusal]
    unfold remove
    rw [locate_clearChildren tree direct arrives]
    dsimp only
    by_cases kept : system.Kept refused place
    case pos =>
      rw [if_neg, clearChildren_of_kept tree kept, kept]
      · rfl
      · rintro ⟨-, -, emptied⟩
        obtain ⟨name, rest, listed⟩ :=
          List.exists_cons_of_ne_nil fun none_ => empty.mp none_ kept
        obtain ⟨child, stands⟩ := mem_children_iff.mp
          (listed ▸ @List.mem_cons_self _ name rest)
        have none_ := emptied
          (left.isDirectory_iff.mpr (left.rooted place name child stands))
        exact empty.mp (List.isEmpty_iff.mp none_) kept
    case neg =>
      rw [if_pos, erase_clearChildren tree kept,
        Bool.eq_false_of_not_eq_true kept]
      · rfl
      · exact ⟨direct.named,
          Option.isSome_iff_exists.mpr
            ⟨entry, left.entryAt_eq_some_iff.mpr remains⟩,
          fun _ => List.isEmpty_iff.mpr (empty.mpr kept)⟩

end Walks

end FileSystem
end Storage
end IdoProject
