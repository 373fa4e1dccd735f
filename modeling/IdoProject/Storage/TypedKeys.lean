import Mathlib.Logic.Function.Basic

/-!
# Typed keys in an untyped store

A store maps names to values of any kind, and reading a value of another kind
than the one asked for fails.  Where every key has a name of its own and is always
written with its own kind, no read fails, and the store is as good as a function
that gives each key a value of its kind.  Changes are collected and committed
together.
-/

namespace IdoProject
namespace Storage

variable {Key : Type u} {Name : Type v} {Kind : Type w}

/-- A store of values of any kind. -/
abbrev Values (Name : Type v) (Value : Kind → Type x) :=
  Name → Option (Sigma Value)

/-- The name and the kind of every key. -/
structure Schema (Key : Type u) (Name : Type v) (Kind : Type w) where
  name : Key → Name
  kind : Key → Kind
  /-- No two keys share a name. -/
  injective : Function.Injective name

/-- A value of its kind for every key that has one. -/
abbrev Contents (schema : Schema Key Name Kind) (Value : Kind → Type x) :=
  (key : Key) → Option (Value (schema.kind key))

/-- New values for names; `none` removes the name. -/
abbrev Changes (Name : Type v) (Value : Kind → Type x) :=
  List (Name × Option (Sigma Value))

/-- New values for keys. -/
abbrev TypedChanges (schema : Schema Key Name Kind) (Value : Kind → Type x) :=
  List ((key : Key) × Option (Value (schema.kind key)))

section Reading

variable {Value : Kind → Type x} [DecidableEq Kind]

/-- Read a value of a kind.  The error is the kind of the value found. -/
def Values.read
    (values : Values Name Value)
    (name : Name)
    (kind : Kind) : Except Kind (Option (Value kind)) :=
  match values name with
  | none => .ok none
  | some ⟨found, value⟩ =>
      if same : found = kind then .ok (some (same ▸ value)) else .error found

end Reading

section Writing

variable {Value : Kind → Type x} [DecidableEq Name] [DecidableEq Key]

/-- Commit changes, the first one first. -/
def Values.commit
    (values : Values Name Value)
    (changes : Changes Name Value) : Values Name Value :=
  changes.foldl (fun values change => Function.update values change.1 change.2)
    values

/-- Commit changes of keys. -/
def Contents.commit
    {schema : Schema Key Name Kind}
    (contents : Contents schema Value)
    (changes : TypedChanges schema Value) : Contents schema Value :=
  changes.foldl (fun contents change => Function.update contents change.1 change.2)
    contents

end Writing

namespace Schema

variable {Value : Kind → Type x}
variable {schema : Schema Key Name Kind}

/-- The change of a name that a change of a key is. -/
def change
    (schema : Schema Key Name Kind)
    (typed : (key : Key) × Option (Value (schema.kind key))) :
    Name × Option (Sigma Value) :=
  (schema.name typed.1, typed.2.map (Sigma.mk (schema.kind typed.1)))

/-- The store holds the contents under the names of the keys. -/
def Represents
    (schema : Schema Key Name Kind)
    (values : Values Name Value)
    (contents : Contents schema Value) : Prop :=
  ∀ key, values (schema.name key) =
    (contents key).map (Sigma.mk (schema.kind key))

variable {values : Values Name Value}
variable {contents : Contents schema Value}

/-- Nothing is stored before anything is written. -/
theorem represents_empty :
    @Represents Key Name Kind Value schema (fun _ => none) fun _ => none :=
  fun _ => rfl

/-- No read fails. -/
theorem Represents.read
    [DecidableEq Kind]
    (represents : schema.Represents values contents)
    (key : Key) :
    values.read (schema.name key) (schema.kind key) = .ok (contents key) := by
  unfold Values.read
  rw [represents key]
  cases contents key with
  | none => rfl
  | some value =>
      rw [Option.map_some]
      exact dif_pos rfl

variable [DecidableEq Name] [DecidableEq Key]

/-- A change of one key changes nothing under the names of the others. -/
theorem Represents.update
    (represents : schema.Represents values contents)
    (key : Key)
    (value : Option (Value (schema.kind key))) :
    schema.Represents
      (Function.update values (schema.name key)
        (value.map (Sigma.mk (schema.kind key))))
      (Function.update contents key value) := by
  intro other
  by_cases same : other = key
  · subst same
    rw [Function.update_self, Function.update_self]
  · rw [Function.update_of_ne same,
      Function.update_of_ne fun equal => same (schema.injective equal)]
    exact represents other

/-- Committing the changes of names is committing the changes of keys. -/
theorem Represents.commit
    (represents : schema.Represents values contents)
    (changes : TypedChanges schema Value) :
    schema.Represents (values.commit (changes.map schema.change))
      (contents.commit changes) := by
  induction changes generalizing values contents with
  | nil => exact represents
  | cons change changes inductionHypothesis =>
      exact inductionHypothesis (represents.update change.1 change.2)

end Schema

end Storage
end IdoProject
