import IdoProject.Chat.Reply
import IdoProject.Java.LowerCase

/-!
# The index of the cut

`generate` looks for a stop string in the lower-cased text and cuts the text
itself at the index it finds.  The index is the place of the stop string exactly
when no U+0130 stands before it; each one moves the index by one.
-/

namespace IdoProject
namespace Chat

open Java

/-- The index found on the lower-cased texts is one of the text itself: the cut
does not throw, the stop string begins there, what is kept has no occurrence of
it, and no part of one that begins earlier. -/
def CutValid (lower : LowerCasing) (currentFull stop : JString) : Prop :=
  ∃ index, indexOf (lower.toLowerCase currentFull) (lower.toLowerCase stop) =
      some index ∧
    substringTo currentFull index = some (currentFull.take index) ∧
    OccursAt currentFull stop index ∧
    contains (toLowerCaseAscii (currentFull.take index))
      (toLowerCaseAscii stop) = false ∧
    ∀ earlier < index, ¬OccursAt currentFull stop earlier

/-- No U+0130 stands before the first place of a stop string. -/
def UndottedBefore (currentFull stop : JString) : Prop :=
  ∀ place, firstPlace currentFull stop = some place →
    dotted ∉ currentFull.take place

instance (currentFull stop : JString) :
    Decidable (UndottedBefore currentFull stop) :=
  inferInstanceAs (Decidable (∀ place ∈ firstPlace currentFull stop,
    dotted ∉ currentFull.take place))

section Laws

variable {lower : LowerCasing}
variable {currentFull stop : JString}
variable {place index : Nat}

theorem stop_separate :
    ∀ stop ∈ STOP_TOKENS, (∀ unit ∈ stop, unit < 0x80) ∧
      Separate (toLowerCaseAscii stop) ∧ stop ≠ [] := by
  have small : ∀ stop ∈ STOP_TOKENS, stop.all (· < 0x80) = true := by
    decide +kernel
  have separate : ∀ stop ∈ STOP_TOKENS,
      Separate (toLowerCaseAscii stop) ∧ stop ≠ [] := by
    decide +kernel
  intro stop listed
  refine ⟨fun unit member => ?_, separate stop listed⟩
  exact of_decide_eq_true (List.all_eq_true.mp (small stop listed) unit member)

theorem movedPlace_eq_iff :
    movedPlace currentFull place = place ↔ dotted ∉ currentFull.take place := by
  rw [movedPlace, Nat.add_eq_left, List.count_eq_zero]

theorem le_movedPlace :
    place ≤ movedPlace currentFull place :=
  Nat.le_add_right _ _

/-- Where a stop string is found. -/
theorem indexOf_stop
    (member : stop ∈ STOP_TOKENS) :
    indexOf (lower.toLowerCase currentFull) (lower.toLowerCase stop) =
      (firstPlace currentFull stop).map (movedPlace currentFull) := by
  obtain ⟨ascii, separate, nonempty⟩ := stop_separate stop member
  exact indexOf_toLowerCase ascii separate nonempty

/-- What stands in the beginning of a text stands in the text. -/
theorem occursAt_of_take
    (occurs : OccursAt (currentFull.take index) stop place) :
    OccursAt currentFull stop place := by
  unfold OccursAt toLowerCaseAscii at occurs ⊢
  rw [List.drop_take] at occurs
  exact occurs.trans ((List.take_prefix _ _).map _)

end Laws

/-- For every text that contains a stop string, ignoring case: the index of the
cut is valid exactly when no U+0130 stands before the first occurrence. -/
theorem cutValid_iff_undottedBefore
    (lower : LowerCasing)
    (currentFull stop : JString)
    (member : stop ∈ STOP_TOKENS)
    (found : contains (lower.toLowerCase currentFull)
      (lower.toLowerCase stop) = true) :
    CutValid lower currentFull stop ↔ UndottedBefore currentFull stop := by
  unfold contains at found
  rw [indexOf_stop member, Option.isSome_map] at found
  obtain ⟨place, first⟩ := Option.isSome_iff_exists.mp found
  obtain ⟨occurs, within, earliest⟩ := firstPlace_eq_some_iff.mp first
  have index_eq : indexOf (lower.toLowerCase currentFull)
      (lower.toLowerCase stop) = some (movedPlace currentFull place) := by
    rw [indexOf_stop member, first, Option.map_some]
  constructor
  · rintro ⟨index, same, -, -, -, unbegun⟩ other also
    rw [first, Option.some.injEq] at also
    subst also
    rw [index_eq, Option.some.injEq] at same
    rw [← movedPlace_eq_iff, same]
    -- The cut is not behind the place, so it is the place.
    apply le_antisymm
    · by_contra behind
      exact unbegun place (Nat.lt_of_not_le behind) occurs
    · rw [← same]
      exact le_movedPlace
  · intro undotted
    have unmoved := movedPlace_eq_iff.mpr (undotted place first)
    rw [unmoved] at index_eq
    refine ⟨place, index_eq, if_pos within, occurs, ?_, earliest⟩
    rw [contains, Option.isSome_eq_false_iff, Option.isNone_iff_eq_none]
    change firstPlace (currentFull.take place) stop = none
    rw [firstPlace_eq_none_iff]
    intro earlier _ inside
    have nonempty := (stop_separate stop member).2.2
    have before := inside.place_le nonempty
    rw [List.length_take] at before
    exact earliest earlier (by omega) (occursAt_of_take inside)

/-- A cut behind ASCII text. -/
theorem cutValid_hello :
    CutValid LowerCasing.simple (jstr "Hello </S> ") (jstr "</s>") :=
  (cutValid_iff_undottedBefore LowerCasing.simple (jstr "Hello </S> ")
    (jstr "</s>") (by decide +kernel) (by decide +kernel)).mpr
    (by decide +kernel)

/-- Four U+0130 before a stop string of three units: the index is beyond the
text, and the cut throws. -/
theorem cut_behind_dotted_throws :
    contains (LowerCasing.simple.toLowerCase
        (List.replicate 4 dotted ++ jstr "###"))
      (LowerCasing.simple.toLowerCase (jstr "###")) = true ∧
    substringTo (List.replicate 4 dotted ++ jstr "###") 8 = none ∧
    ¬CutValid LowerCasing.simple (List.replicate 4 dotted ++ jstr "###")
      (jstr "###") := by
  refine ⟨by decide +kernel, by decide +kernel, ?_⟩
  rintro ⟨index, found, inside, -⟩
  rw [show indexOf (LowerCasing.simple.toLowerCase
      (List.replicate 4 dotted ++ jstr "###"))
    (LowerCasing.simple.toLowerCase (jstr "###")) = some 8 by decide +kernel,
    Option.some.injEq] at found
  rw [← found] at inside
  exact absurd inside (by decide +kernel)

end Chat
end IdoProject
