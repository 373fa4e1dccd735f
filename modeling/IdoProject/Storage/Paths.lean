import Mathlib.Data.List.Basic
import Mathlib.Data.Fintype.EquivFin

/-!
# Paths as they are written

A path is the list of the names from the root on.  What is written are parts:
a name, the directory itself, or the directory above.  A part for the directory
above cancels the name before it.  Where every one of them has such a name, the
parts lead from every directory to what is left of them behind it; otherwise
they leave some directory that they start from.
-/

namespace IdoProject
namespace Storage

/-- A part of a path as it is written. -/
inductive PathPart (Name : Type u)
  /-- An entry of the directory. -/
  | down (name : Name)
  /-- The directory itself. -/
  | here
  /-- The directory above. -/
  | up
  deriving DecidableEq

section Parts

variable {Name : Type u}

/-- Where a part leads from a path.  Nothing is above the root. -/
def PathPart.follow : PathPart Name → List Name → List Name
  | .down name, path => path ++ [name]
  | .here, path => path
  | .up, path => path.dropLast

/-- Where parts lead from a path. -/
def resolve : List Name → List (PathPart Name) → List Name
  | path, [] => path
  | path, part :: parts => resolve (part.follow path) parts

/-- The directories that parts pass from a path. -/
def passed : List Name → List (PathPart Name) → List (List Name)
  | _, [] => []
  | path, part :: parts => path :: passed (part.follow path) parts

/-- What is left of the parts behind some names, every part for the directory
above cancelled with the name before it. -/
def cancel : List Name → List (PathPart Name) → Option (List Name)
  | left, [] => some left
  | left, .down name :: parts => cancel (left ++ [name]) parts
  | left, .here :: parts => cancel left parts
  | left, .up :: parts =>
      if left.isEmpty then none else cancel left.dropLast parts

/-- One of the paths is the other one or contains it. -/
def Overlaps (first second : List Name) : Prop :=
  first <+: second ∨ second <+: first

variable {path left rest : List Name}
variable {parts more : List (PathPart Name)}
variable {name : Name}

@[simp] theorem resolve_nil :
    resolve path [] = path := rfl

theorem resolve_append :
    resolve path (parts ++ more) = resolve (resolve path parts) more := by
  induction parts generalizing path with
  | nil => rfl
  | cons part parts inductionHypothesis => exact inductionHypothesis

@[simp] theorem resolve_down :
    resolve path [.down name] = path ++ [name] := rfl

theorem resolve_map_down :
    resolve path (rest.map .down) = path ++ rest := by
  induction rest generalizing path with
  | nil => exact (List.append_nil path).symm
  | cons name rest inductionHypothesis =>
      rw [List.append_cons]
      exact inductionHypothesis

theorem passed_append :
    passed path (parts ++ more) =
      passed path parts ++ passed (resolve path parts) more := by
  induction parts generalizing path with
  | nil => rfl
  | cons part parts inductionHypothesis =>
      rw [List.cons_append, passed, passed, resolve, inductionHypothesis,
        List.cons_append]

/-- Without a part that leads up, the parts lead to the path they start from or
below it. -/
theorem prefix_resolve
    (down : .up ∉ parts) :
    path <+: resolve path parts := by
  induction parts generalizing path with
  | nil => exact List.prefix_refl _
  | cons part parts inductionHypothesis =>
      rw [List.mem_cons, not_or] at down
      cases part with
      | down name =>
          exact (List.prefix_append _ _).trans (inductionHypothesis down.2)
      | here => exact inductionHypothesis down.2
      | up => exact absurd rfl down.1

/-- What they pass is above the path they lead to. -/
theorem prefix_resolve_of_mem_passed
    {above : List Name}
    (down : .up ∉ parts)
    (member : above ∈ passed path parts) :
    above <+: resolve path parts := by
  induction parts generalizing path with
  | nil => cases member
  | cons part parts inductionHypothesis =>
      rw [passed, List.mem_cons] at member
      rcases member with rfl | member
      · exact prefix_resolve down
      · exact inductionHypothesis (List.not_mem_of_not_mem_cons down) member

/-- Behind every directory, the parts lead to what is left of them. -/
theorem resolve_of_cancel
    (cancelled : cancel left parts = some rest) :
    resolve (path ++ left) parts = path ++ rest := by
  induction parts generalizing left with
  | nil =>
      rw [cancel, Option.some.injEq] at cancelled
      rw [cancelled, resolve_nil]
  | cons part parts inductionHypothesis =>
      cases part with
      | down name =>
          rw [resolve, PathPart.follow, List.append_assoc]
          exact inductionHypothesis cancelled
      | here => exact inductionHypothesis cancelled
      | up =>
          rw [cancel] at cancelled
          split at cancelled
          case isTrue => cases cancelled
          case isFalse some_ =>
            rw [resolve, PathPart.follow, List.dropLast_append_of_ne_nil
              (by simpa using some_)]
            exact inductionHypothesis cancelled

/-- A name that is not among the parts is not where they lead to either. -/
theorem not_mem_resolve
    (fresh : .down name ∉ parts)
    (absent : name ∉ path) :
    name ∉ resolve path parts := by
  induction parts generalizing path with
  | nil => exact absent
  | cons part parts inductionHypothesis =>
      rw [List.mem_cons, not_or] at fresh
      apply inductionHypothesis fresh.2
      cases part with
      | down other =>
          rw [PathPart.follow, List.mem_append, List.mem_singleton, not_or]
          exact ⟨absent, fun same => fresh.1 (congrArg PathPart.down same)⟩
      | here => exact absent
      | up => exact fun member => absent (List.mem_of_mem_dropLast member)

/-- Parts that do not cancel leave the directory that they start from. -/
theorem not_mem_resolve_of_cancel_eq_none
    (fresh : .down name ∉ parts)
    (absent : name ∉ left)
    (leaves : cancel left parts = none) :
    name ∉ resolve (name :: left) parts := by
  induction parts generalizing left with
  | nil => cases leaves
  | cons part parts inductionHypothesis =>
      rw [List.mem_cons, not_or] at fresh
      cases part with
      | down other =>
          have behind : name ∉ left ++ [other] := by
            rw [List.mem_append, List.mem_singleton, not_or]
            exact ⟨absent, fun same =>
              fresh.1 (congrArg PathPart.down same)⟩
          exact inductionHypothesis fresh.2 behind leaves
      | here => exact inductionHypothesis fresh.2 absent leaves
      | up =>
          rw [cancel] at leaves
          split at leaves
          case isTrue empty =>
            rw [List.isEmpty_iff.mp empty]
            change name ∉ resolve [] parts
            exact not_mem_resolve fresh.2 List.not_mem_nil
          case isFalse some_ =>
            have kept : (name :: left).dropLast = name :: left.dropLast :=
              List.dropLast_cons_of_ne_nil (by simpa using some_)
            rw [resolve, PathPart.follow, kept]
            exact inductionHypothesis fresh.2
              (fun member => absent (List.mem_of_mem_dropLast member)) leaves

/-- The parts lead from every directory to an entry of it, exactly when one name
is left of them. -/
theorem forall_resolve_eq_iff
    [Infinite Name] :
    (∀ path, ∃ name, resolve path parts = path ++ [name]) ↔
      ∃ name, cancel [] parts = some [name] := by
  classical
  constructor
  · intro leads
    obtain ⟨fresh, unused⟩ := Infinite.exists_notMem_finset
      (parts.filterMap fun part => match part with
        | .down name => some name
        | .here | .up => none).toFinset
    have new : .down fresh ∉ parts := by
      intro member
      apply unused
      rw [List.mem_toFinset, List.mem_filterMap]
      exact ⟨.down fresh, member, rfl⟩
    obtain ⟨name, leads⟩ := leads [fresh]
    cases cancelled : cancel [] parts with
    | none =>
        have absent := not_mem_resolve_of_cancel_eq_none new
          List.not_mem_nil cancelled
        rw [leads] at absent
        exact absurd (List.mem_append_left _ List.mem_cons_self) absent
    | some rest =>
        have kept := @resolve_of_cancel _ [fresh] [] rest _ cancelled
        rw [List.append_nil, leads, List.append_cancel_left_eq] at kept
        exact ⟨name, congrArg some kept.symm⟩
  · rintro ⟨name, cancelled⟩ path
    refine ⟨name, ?_⟩
    have kept := @resolve_of_cancel _ path [] [name] _ cancelled
    rwa [List.append_nil] at kept

/-- Different entries of a directory do not overlap. -/
theorem not_overlaps_of_ne
    {other : Name}
    (different : name ≠ other) :
    ¬Overlaps (path ++ [name]) (path ++ [other]) := by
  unfold Overlaps
  simp [List.prefix_append_right_inj, different, different.symm]

/-- What overlaps a path below a place overlaps the place. -/
theorem Overlaps.of_prefix
    {other place : List Name}
    (overlaps : Overlaps other path)
    (below : place <+: path) :
    Overlaps other place := by
  rcases overlaps with inside | inside
  · exact List.prefix_or_prefix_of_prefix inside below
  · exact Or.inr (below.trans inside)

end Parts

end Storage
end IdoProject
