import Mathlib.Data.List.Basic

/-!
# Parties of a machine

A machine with any number of parties keeps them in a list and names each by its
position.  A step changes one party, or adds one at the end; the lemmas say who
is found at a position afterwards.
-/

namespace IdoProject
namespace Transition

variable {Party : Type u}
variable {parties : List Party}
variable {id other : Nat}
variable {party found changed new : Party}

/-- A party after one was replaced is the new one or was there before. -/
theorem listed_set
    (listed : (parties.set id changed)[other]? = some found) :
    other = id ∧ found = changed ∨ other ≠ id ∧ parties[other]? = some found := by
  by_cases same : id = other
  · subst same
    have below := (List.getElem?_eq_some_iff.mp listed).1
    rw [List.length_set] at below
    rw [List.getElem?_set_self below] at listed
    exact Or.inl ⟨rfl, (Option.some.inj listed).symm⟩
  · rw [List.getElem?_set_ne same] at listed
    exact Or.inr ⟨fun equal => same equal.symm, listed⟩

/-- A party after one was added is the new one or was there before. -/
theorem listed_append
    (listed : (parties ++ [new])[id]? = some found) :
    parties[id]? = some found ∨ id = parties.length ∧ found = new := by
  rcases Nat.lt_or_ge id parties.length with below | beyond
  · rw [List.getElem?_append_left below] at listed
    exact Or.inl listed
  · have inside := (List.getElem?_eq_some_iff.mp listed).1
    rw [List.length_append, List.length_singleton] at inside
    obtain rfl : id = parties.length := by omega
    rw [List.getElem?_concat_length] at listed
    exact Or.inr ⟨rfl, (Option.some.inj listed).symm⟩

/-- A party after one was changed in place. -/
theorem listed_modify
    {change : Party → Party}
    (listed : (parties.modify id change)[other]? = some found) :
    ∃ before, parties[other]? = some before ∧
      found = if other = id then change before else before := by
  rw [List.getElem?_modify, Option.map_eq_map,
    Option.map_eq_some_iff] at listed
  obtain ⟨before, listed, rfl⟩ := listed
  refine ⟨before, listed, ?_⟩
  by_cases same : other = id
  · rw [if_pos same, if_pos same.symm]
  · rw [if_neg same, if_neg fun equal => same equal.symm]

/-- Changing a party in place is replacing it. -/
theorem modify_eq_set
    (listed : parties[id]? = some party)
    (change : Party → Party) :
    parties.modify id change = parties.set id (change party) := by
  rw [List.modify_eq_set_getElem?, listed]
  rfl

end Transition
end IdoProject
