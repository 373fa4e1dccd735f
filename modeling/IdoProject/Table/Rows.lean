import Mathlib.Data.List.Nodup

/-!
# Tables that are changed by the value of a column

A table is a list of rows, and a column is a function of the row.  A statement
selects the rows that have a given value in a column and changes or deletes
them.  The module says what such a statement leaves alone, and when the values
of a column stay different from one another.
-/

namespace IdoProject
namespace Table

variable {Row : Type u} {Value : Type v} [DecidableEq Value]

/-- Some row has the value in the column. -/
def contains (rows : List Row) (column : Row → Value) (value : Value) : Bool :=
  rows.any fun row => column row = value

/-- Number of rows a statement with this condition affects. -/
def affected (rows : List Row) (column : Row → Value) (value : Value) : Nat :=
  rows.countP fun row => column row = value

/-- Change the rows that have the value in the column. -/
def update
    (rows : List Row)
    (column : Row → Value)
    (value : Value)
    (change : Row → Row) : List Row :=
  rows.map fun row => if column row = value then change row else row

/-- Delete the rows that have the value in the column. -/
def delete
    (rows : List Row)
    (column : Row → Value)
    (value : Value) : List Row :=
  rows.filter fun row => column row ≠ value

section Laws

variable {rows : List Row}
variable {column : Row → Value}
variable {value : Value}
variable {change : Row → Row}
variable {row : Row}

theorem affected_pos_iff :
    0 < affected rows column value ↔ value ∈ rows.map column := by
  simp [affected, List.countP_pos_iff]

/-- A row with another value stays. -/
theorem mem_update_of_ne
    (present : row ∈ rows)
    (other : column row ≠ value) :
    row ∈ update rows column value change :=
  List.mem_map.mpr ⟨row, present, if_neg other⟩

/-- A row with another value stays. -/
theorem mem_delete_of_ne
    (present : row ∈ rows)
    (other : column row ≠ value) :
    row ∈ delete rows column value := by
  simp [delete, present, other]

/-- An update that selects no row changes nothing. -/
theorem update_of_not_mem
    (absent : value ∉ rows.map column) :
    update rows column value change = rows := by
  unfold update
  conv_rhs => rw [← List.map_id rows]
  apply List.map_congr_left
  intro row present
  rw [if_neg]
  · rfl
  · rintro rfl
    exact absent (List.mem_map_of_mem present)

/-- A column that the change keeps is kept by the update. -/
theorem map_update_of_kept
    {Other : Type w}
    {kept : Row → Other}
    (same : ∀ row, kept (change row) = kept row) :
    (update rows column value change).map kept = rows.map kept := by
  unfold update
  rw [List.map_map]
  apply List.map_congr_left
  intro row _
  dsimp only [Function.comp_apply]
  split
  · exact same row
  · rfl

theorem nodup_delete
    {Other : Type w}
    {kept : Row → Other}
    (distinct : (rows.map kept).Nodup) :
    ((delete rows column value).map kept).Nodup :=
  distinct.sublist (List.filter_sublist.map kept)

/-- Giving the selected row another value keeps a column without repetitions
exactly when no row has the new value. -/
theorem nodup_update_iff
    {new : Value}
    (distinct : (rows.map column).Nodup)
    (present : value ∈ rows.map column)
    (different : new ≠ value)
    (written : ∀ row, column (change row) = new) :
    ((update rows column value change).map column).Nodup ↔
      new ∉ rows.map column := by
  have renamed : (update rows column value change).map column =
      (rows.map column).map fun name => if name = value then new else name := by
    unfold update
    rw [List.map_map, List.map_map]
    apply List.map_congr_left
    intro row _
    dsimp only [Function.comp_apply]
    split
    · exact written row
    · rfl
  rw [renamed]
  constructor
  · intro nodup taken
    have same : value = new :=
      List.inj_on_of_nodup_map nodup present taken
        (by rw [if_pos rfl, if_neg different])
    exact different same.symm
  · intro free
    apply distinct.map_on
    intro first inFirst second inSecond same
    split at same <;> split at same
    · simp_all
    · exact absurd (same ▸ inSecond) free
    · exact absurd (same ▸ inFirst) free
    · exact same

end Laws

end Table
end IdoProject
