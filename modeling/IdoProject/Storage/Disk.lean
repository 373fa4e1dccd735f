import IdoProject.Storage.WriteAt
import Mathlib.Logic.Function.Basic

/-!
# A directory of files

A name is linked to a node, and the node holds the content.  Unlinking a name
does not close the node: whoever has it open goes on writing to it, and a file
created later under the same name is another node.  Opening for writing empties
the node, and the node records who did so last.
-/

namespace IdoProject
namespace Storage

/-- What a name is linked to. -/
structure Node (Byte : Type u) (Owner : Type v) where
  /-- The bytes of the file. -/
  content : List Byte
  /-- Who opened the file last. -/
  opener : Option Owner

/-- A directory in which each name is linked to a node of its own. -/
structure Disk (Name : Type w) (Byte : Type u) (Owner : Type v) where
  /-- The node a name is linked to. -/
  lookup : Name → Option Nat
  /-- Every node ever created. -/
  nodes : List (Node Byte Owner)
  /-- A linked node exists. -/
  linked : ∀ name index, lookup name = some index → index < nodes.length
  /-- No node has two names. -/
  single : ∀ first second index,
    lookup first = some index → lookup second = some index → first = second

namespace Disk

variable {Name : Type w}
variable {Byte : Type u} {Owner : Type v}

/-- A directory without files. -/
def empty : Disk Name Byte Owner where
  lookup := fun _ => none
  nodes := []
  linked := by intro name index found; cases found
  single := by intro first second index found; cases found

instance : Inhabited (Disk Name Byte Owner) := ⟨empty⟩

/-- Put another node in the place of one that exists. -/
def setNode
    (disk : Disk Name Byte Owner)
    (index : Nat)
    (node : Node Byte Owner) : Disk Name Byte Owner where
  lookup := disk.lookup
  nodes := disk.nodes.set index node
  linked := by simpa only [List.length_set] using disk.linked
  single := disk.single

/-- Write to an open node. -/
def write
    [Inhabited Byte]
    (disk : Disk Name Byte Owner)
    (index offset : Nat)
    (bytes : List Byte) : Disk Name Byte Owner :=
  match disk.nodes[index]? with
  | some node =>
      disk.setNode index
        { node with content := writeAt node.content offset bytes }
  | none => disk

section Write

variable {disk : Disk Name Byte Owner}
variable {name : Name} {index offset : Nat} {bytes : List Byte}
variable {node : Node Byte Owner}

variable [Inhabited Byte]

@[simp] theorem lookup_write :
    (disk.write index offset bytes).lookup = disk.lookup := by
  unfold write
  split <;> rfl

@[simp] theorem length_write :
    (disk.write index offset bytes).nodes.length = disk.nodes.length := by
  unfold write
  split
  · exact List.length_set ..
  · rfl

/-- A write changes the content of its node. -/
theorem getElem?_write_self
    (present : disk.nodes[index]? = some node) :
    (disk.write index offset bytes).nodes[index]? =
      some { node with content := writeAt node.content offset bytes } := by
  unfold write
  rw [present]
  exact List.getElem?_set_self (List.getElem?_eq_some_iff.mp present).1

/-- A write leaves the other nodes alone. -/
theorem getElem?_write_of_ne
    {position : Nat}
    (different : position ≠ index) :
    (disk.write index offset bytes).nodes[position]? =
      disk.nodes[position]? := by
  unfold write
  split
  · exact List.getElem?_set_ne (Ne.symm different)
  · rfl

end Write

section Names

variable [DecidableEq Name]

/-- Link a name to a new node. -/
def create
    (disk : Disk Name Byte Owner)
    (name : Name)
    (node : Node Byte Owner) : Disk Name Byte Owner where
  lookup := Function.update disk.lookup name (some disk.nodes.length)
  nodes := disk.nodes ++ [node]
  linked := by
    intro other index found
    rw [List.length_append, List.length_singleton]
    rw [Function.update_apply] at found
    split at found
    · cases found
      omega
    · have := disk.linked other index found
      omega
  single := by
    intro first second index foundFirst foundSecond
    rw [Function.update_apply] at foundFirst foundSecond
    split at foundFirst <;> split at foundSecond
    case isTrue.isTrue one two => rw [one, two]
    case isTrue.isFalse =>
      cases foundFirst
      exact absurd (disk.linked second _ foundSecond) (Nat.lt_irrefl _)
    case isFalse.isTrue =>
      cases foundSecond
      exact absurd (disk.linked first _ foundFirst) (Nat.lt_irrefl _)
    case isFalse.isFalse => exact disk.single first second index foundFirst foundSecond

/-- Remove a name. -/
def unlink
    (disk : Disk Name Byte Owner)
    (name : Name) : Disk Name Byte Owner where
  lookup := Function.update disk.lookup name none
  nodes := disk.nodes
  linked := by
    intro other index found
    rw [Function.update_apply] at found
    split at found
    · cases found
    · exact disk.linked other index found
  single := by
    intro first second index foundFirst foundSecond
    rw [Function.update_apply] at foundFirst foundSecond
    split at foundFirst <;> split at foundSecond
    case isFalse.isFalse => exact disk.single first second index foundFirst foundSecond
    all_goals first | cases foundFirst | cases foundSecond

/-- Open a file for writing: create it, or empty the one that has the name.
The result is the node opened. -/
def openForWriting
    (disk : Disk Name Byte Owner)
    (name : Name)
    (owner : Owner) : Disk Name Byte Owner × Nat :=
  match disk.lookup name with
  | some index => (disk.setNode index ⟨[], some owner⟩, index)
  | none => (disk.create name ⟨[], some owner⟩, disk.nodes.length)

section Laws

variable {disk : Disk Name Byte Owner}
variable {name other : Name} {index : Nat} {owner : Owner}

@[simp] theorem nodes_unlink :
    (disk.unlink name).nodes = disk.nodes := rfl

@[simp] theorem lookup_unlink_self :
    (disk.unlink name).lookup name = none :=
  Function.update_self ..

theorem lookup_unlink_of_ne
    (different : other ≠ name) :
    (disk.unlink name).lookup other = disk.lookup other :=
  Function.update_of_ne different ..

/-- A name linked after an unlink was linked before it. -/
theorem lookup_of_lookup_unlink
    (found : (disk.unlink name).lookup other = some index) :
    disk.lookup other = some index := by
  by_cases same : other = name
  · rw [same, lookup_unlink_self] at found
    cases found
  · rwa [lookup_unlink_of_ne same] at found

/-- What opening does: the name is linked to an empty node of the opener, other
names and other nodes stay as they are, and the node either had the name before
or is new. -/
theorem openForWriting_spec
    (disk : Disk Name Byte Owner)
    (name : Name)
    (owner : Owner) :
    let opened := disk.openForWriting name owner
    opened.1.lookup name = some opened.2 ∧
      opened.1.nodes[opened.2]? = some ⟨[], some owner⟩ ∧
      (∀ other, other ≠ name → opened.1.lookup other = disk.lookup other) ∧
      (∀ other node, other ≠ opened.2 → disk.nodes[other]? = some node →
        opened.1.nodes[other]? = some node) ∧
      (disk.lookup name = some opened.2 ∨
        disk.lookup name = none ∧ opened.2 = disk.nodes.length) := by
  unfold openForWriting
  cases found : disk.lookup name with
  | some index =>
      refine ⟨found, ?_, fun _ _ => rfl, ?_, Or.inl rfl⟩
      · exact List.getElem?_set_self (disk.linked name index found)
      · intro position node different present
        rw [← present]
        exact List.getElem?_set_ne (Ne.symm different)
  | none =>
      refine ⟨Function.update_self .., ?_, ?_, ?_, Or.inr ⟨rfl, rfl⟩⟩
      · exact List.getElem?_concat_length
      · intro other different
        exact Function.update_of_ne different ..
      · intro position node _ present
        have below := (List.getElem?_eq_some_iff.mp present).1
        rw [← present]
        exact List.getElem?_append_left below

/-- Opening loses no node. -/
theorem length_openForWriting :
    disk.nodes.length ≤ (disk.openForWriting name owner).1.nodes.length := by
  unfold openForWriting
  split
  · exact Nat.le_of_eq (List.length_set ..).symm
  · exact (List.length_append ..).symm ▸ Nat.le_add_right ..

end Laws

end Names

end Disk
end Storage
end IdoProject
