import IdoProject.Storage.Paths

/-!
# System calls on paths

A file system of directories and files without links.  The system follows a path
part by part and stops where something that is not a directory would have to be
passed, so that where it arrives is what the parts resolve to.  A call fails
where the path or what stands there does not allow it, and only then.
-/

namespace IdoProject
namespace Storage

/-- What stands at a path. -/
inductive Entry (Data : Type v)
  | directory
  | file (data : Data)
  deriving DecidableEq

/-- The entries, in the order in which the directories list them. -/
abbrev FileSystem (Name : Type u) (Data : Type v) :=
  List (List Name × Entry Data)

/-- The last part is a name, as the calls that make or remove an entry
require. -/
def EndsInName {Name : Type u} (parts : List (PathPart Name)) : Bool :=
  match parts.getLast? with
  | some (.down _) => true
  | _ => false

namespace FileSystem

variable {Name : Type u} {Data : Type v}
variable [DecidableEq Name]

section Calls

variable (system : FileSystem Name Data)

/-- The entry at a path. -/
def entryAt (path : List Name) : Option (Entry Data) :=
  (system.find? fun entry => entry.1 = path).map Prod.snd

/-- A directory stands at the path. -/
def IsDirectory (path : List Name) : Bool :=
  match system.entryAt path with
  | some .directory => true
  | _ => false

/-- The names in a directory. -/
def children (path : List Name) : List Name :=
  system.filterMap fun entry =>
    if entry.1.dropLast = path then entry.1.getLast? else none

/-- Remove the entry at a path. -/
def erase (path : List Name) : FileSystem Name Data :=
  system.filter fun entry => entry.1 ≠ path

/-- Put an entry at a path. -/
def put (path : List Name) (entry : Entry Data) : FileSystem Name Data :=
  system.erase path ++ [(path, entry)]

/-- Give everything at and below a path another place. -/
def relocate (old new : List Name) : FileSystem Name Data :=
  system.map fun entry =>
    if old <+: entry.1 then (new ++ entry.1.drop old.length, entry.2) else entry

/-- Follow parts from a path. -/
def walk : List Name → List (PathPart Name) → Option (List Name)
  | path, [] => some path
  | path, part :: parts =>
      if system.IsDirectory path then walk (part.follow path) parts else none

/-- Follow a whole path. -/
def locate (parts : List (PathPart Name)) : Option (List Name) :=
  system.walk [] parts

/-- `mkdir` -/
def mkdir (parts : List (PathPart Name)) : FileSystem Name Data × Bool :=
  match system.locate parts with
  | none => (system, false)
  | some place =>
      if EndsInName parts ∧ (system.entryAt place).isNone then
        (system.put place .directory, true)
      else (system, false)

/-- `remove`: a file, or a directory without entries. -/
def remove (parts : List (PathPart Name)) : FileSystem Name Data × Bool :=
  match system.locate parts with
  | none => (system, false)
  | some place =>
      if EndsInName parts ∧ (system.entryAt place).isSome ∧
          (system.IsDirectory place → (system.children place).isEmpty) then
        (system.erase place, true)
      else (system, false)

/-- Open a file for writing, created or emptied, write the data and close it. -/
def write (parts : List (PathPart Name)) (data : Data) :
    Option (FileSystem Name Data) :=
  (system.locate parts).bind fun place =>
    if EndsInName parts ∧ ¬system.IsDirectory place then
      some (system.put place (.file data))
    else none

/-- `rename`: what stands at the new path must be of the same kind, and
without entries. -/
def rename (old new : List (PathPart Name)) : FileSystem Name Data × Bool :=
  match system.locate old, system.locate new with
  | some source, some target =>
      if EndsInName old ∧ EndsInName new ∧ (system.entryAt source).isSome then
        if source = target then (system, true)
        else if source <+: target then (system, false)
        else if (system.entryAt target).isNone ∨
            (system.IsDirectory target = system.IsDirectory source ∧
              (system.children target).isEmpty) then
          ((system.erase target).relocate source target, true)
        else (system, false)
      else (system, false)
  | _, _ => (system, false)

end Calls

section Frames

variable {system : FileSystem Name Data}
variable {path place : List Name}
variable {parts old new : List (PathPart Name)}
variable {entry : Entry Data}
variable {data : Data}

/-- The system arrives where the parts resolve to. -/
theorem resolve_of_walk
    (arrives : system.walk path parts = some place) :
    place = resolve path parts := by
  induction parts generalizing path with
  | nil => exact (Option.some.inj arrives).symm
  | cons part parts inductionHypothesis =>
      rw [walk] at arrives
      split at arrives
      case isTrue => exact inductionHypothesis arrives
      case isFalse => cases arrives

theorem entryAt_erase_of_ne
    (other : path ≠ place) :
    (system.erase place).entryAt path = system.entryAt path := by
  unfold entryAt erase
  rw [List.find?_filter]
  congr 2
  funext entry
  by_cases here : entry.1 = path <;> simp [here, other]

theorem entryAt_put_of_ne
    (other : path ≠ place) :
    (system.put place entry).entryAt path = system.entryAt path := by
  have absent :
      [(place, entry)].find? (fun entry => entry.1 = path) = none := by
    simpa using Ne.symm other
  rw [put, entryAt, List.find?_append, absent, Option.or_none]
  exact entryAt_erase_of_ne other

/-- What is neither at nor below the two places stays. -/
theorem entryAt_relocate_of_not_below
    {source target : List Name}
    (outside : ¬source <+: path)
    (beside : ¬target <+: path) :
    (system.relocate source target).entryAt path = system.entryAt path := by
  induction system with
  | nil => rfl
  | cons entry system inductionHypothesis =>
      unfold entryAt relocate at inductionHypothesis ⊢
      rw [List.map_cons]
      by_cases inside : source <+: entry.1
      case pos =>
        have moved : target ++ entry.1.drop source.length ≠ path :=
          fun same => beside (same ▸ List.prefix_append _ _)
        have own : entry.1 ≠ path := fun same => outside (same ▸ inside)
        rw [if_pos inside, List.find?_cons_of_neg (by simpa using moved),
          List.find?_cons_of_neg (by simpa using own)]
        exact inductionHypothesis
      case neg =>
        rw [if_neg inside]
        by_cases here : entry.1 = path
        · rw [List.find?_cons_of_pos (by simpa using here),
            List.find?_cons_of_pos (by simpa using here)]
        · rw [List.find?_cons_of_neg (by simpa using here),
            List.find?_cons_of_neg (by simpa using here)]
          exact inductionHypothesis

theorem entryAt_mkdir
    (other : path ≠ resolve [] parts) :
    (system.mkdir parts).1.entryAt path = system.entryAt path := by
  unfold mkdir
  split
  case h_1 => rfl
  case h_2 place arrives =>
    split
    case isTrue =>
      apply entryAt_put_of_ne
      rwa [resolve_of_walk arrives]
    case isFalse => rfl

theorem entryAt_remove
    (other : path ≠ resolve [] parts) :
    (system.remove parts).1.entryAt path = system.entryAt path := by
  unfold remove
  split
  case h_1 => rfl
  case h_2 place arrives =>
    split
    case isTrue =>
      apply entryAt_erase_of_ne
      rwa [resolve_of_walk arrives]
    case isFalse => rfl

theorem entryAt_write
    {written : FileSystem Name Data}
    (other : path ≠ resolve [] parts)
    (wrote : system.write parts data = some written) :
    written.entryAt path = system.entryAt path := by
  obtain ⟨place, arrives, opened⟩ := Option.bind_eq_some_iff.mp wrote
  split at opened
  case isTrue =>
    rw [Option.some.injEq] at opened
    rw [← opened]
    apply entryAt_put_of_ne
    rwa [resolve_of_walk arrives]
  case isFalse => cases opened

theorem entryAt_rename
    (outside : ¬resolve [] old <+: path)
    (beside : ¬resolve [] new <+: path) :
    (system.rename old new).1.entryAt path = system.entryAt path := by
  unfold rename
  split
  case h_2 => rfl
  case h_1 source target from_ to_ =>
    rw [← resolve_of_walk from_] at outside
    rw [← resolve_of_walk to_] at beside
    have other : path ≠ target := fun same =>
      beside (same ▸ List.prefix_refl target)
    split
    case isFalse => rfl
    case isTrue =>
      split
      case isTrue => rfl
      case isFalse =>
        split
        case isTrue => rfl
        case isFalse =>
          split
          case isFalse => rfl
          case isTrue =>
            rw [entryAt_relocate_of_not_below outside beside,
              entryAt_erase_of_ne other]

end Frames

end FileSystem
end Storage
end IdoProject
