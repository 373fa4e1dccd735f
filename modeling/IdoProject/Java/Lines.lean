import IdoProject.Java.LowerCase

/-!
# Lines of a text

Line feeds separate the lines of a text.  A line that begins with a pattern
without a line feed is the first one, where the text begins with the pattern, or
stands where the pattern stands in the text behind a line feed.
-/

namespace IdoProject
namespace Java

/-- The line feed. -/
def lineFeed : JChar := 10

/-- The lines of a text. -/
def lines (text : JString) : List JString :=
  text.splitOn lineFeed

/-- The lines that begin with a pattern, ignoring the case of ASCII letters. -/
def linesWith (pattern text : JString) : List JString :=
  (lines text).filter fun line => OccursAt line pattern 0

section Lines

variable {text front back pattern first : JString}
variable {rest : List JString}
variable {unit : JChar}

@[simp] theorem lines_nil :
    lines [] = [[]] :=
  List.splitOn_nil lineFeed

theorem lines_append_lineFeed :
    lines (front ++ lineFeed :: back) = lines front ++ lines back :=
  List.splitOn_append_cons_self front back

theorem lines_of_not_mem
    (single : lineFeed ∉ text) :
    lines text = [text] :=
  List.splitOn_eq_singleton single

theorem exists_lines_eq_cons (text : JString) :
    ∃ first rest, lines text = first :: rest :=
  List.exists_cons_of_ne_nil (List.splitOn_ne_nil lineFeed text)

theorem lines_cons_lineFeed :
    lines (lineFeed :: text) = [] :: lines text :=
  @lines_append_lineFeed [] text

theorem lines_cons_of_ne
    (other : unit ≠ lineFeed)
    (cut : lines text = first :: rest) :
    lines (unit :: text) = (unit :: first) :: rest :=
  splitOn_cons_of_ne other cut

/-- Text put in front of the first line. -/
theorem lines_append_of_not_mem
    (single : lineFeed ∉ front)
    (cut : lines text = first :: rest) :
    lines (front ++ text) = (front ++ first) :: rest := by
  induction front with
  | nil => exact cut
  | cons unit front inductionHypothesis =>
      rw [List.mem_cons, not_or] at single
      exact lines_cons_of_ne (Ne.symm single.1)
        (inductionHypothesis single.2)

theorem linesWith_append_lineFeed :
    linesWith pattern (front ++ lineFeed :: back) =
      linesWith pattern front ++ linesWith pattern back := by
  unfold linesWith
  rw [lines_append_lineFeed, List.filter_append]

/-- The first line is the whole text, or a line feed stands behind it. -/
theorem eq_first_line_or
    (cut : lines text = first :: rest) :
    text = first ∨ ∃ back, text = first ++ lineFeed :: back := by
  have whole := @List.intercalate_splitOn _ text _ _ lineFeed
  rw [show text.splitOn lineFeed = first :: rest from cut] at whole
  cases rest with
  | nil => exact Or.inl (by simpa using whole.symm)
  | cons second rest =>
      rw [List.intercalate_cons_cons] at whole
      rw [List.append_assoc, List.singleton_append] at whole
      exact Or.inr ⟨_, whole.symm⟩

end Lines

section Patterns

variable {text pattern first : JString}
variable {rest : List JString}

theorem lowerAscii_eq_lineFeed_iff
    {unit : JChar} :
    lowerAscii unit = lineFeed ↔ unit = lineFeed := by
  unfold lowerAscii lineFeed
  split
  case isFalse => rfl
  case isTrue letter =>
    have above := UInt16.le_iff_toNat_le.mp letter.1
    have below := UInt16.le_iff_toNat_le.mp letter.2
    simp only [← UInt16.toNat_inj, UInt16.toNat_add, UInt16.reduceToNat]
      at above below ⊢
    omega

theorem lineFeed_mem_toLowerCaseAscii_iff :
    lineFeed ∈ toLowerCaseAscii text ↔ lineFeed ∈ text := by
  change lineFeed ∈ text.map lowerAscii ↔ _
  rw [List.mem_map]
  constructor
  · rintro ⟨unit, member, same⟩
    rwa [← lowerAscii_eq_lineFeed_iff.mp same]
  · intro member
    exact ⟨lineFeed, member, lowerAscii_eq_lineFeed_iff.mpr rfl⟩

/-- A text begins with a pattern of one line exactly when its first line
does. -/
theorem occursAt_zero_iff
    (single : lineFeed ∉ pattern)
    (cut : lines text = first :: rest) :
    OccursAt text pattern 0 ↔ OccursAt first pattern 0 := by
  rcases eq_first_line_or cut with same | ⟨back, rfl⟩
  · rw [same]
  · refine ⟨fun occurs => ?_, fun occurs => occurs.append _⟩
    by_cases within : pattern.length ≤ first.length
    case pos => exact occurs.of_append (by omega)
    case neg =>
      -- The line feed behind the line would be in the pattern.
      refine absurd (lineFeed_mem_toLowerCaseAscii_iff.mp ?_) single
      have line : toLowerCaseAscii (first ++ [lineFeed]) <+:
          toLowerCaseAscii (first ++ lineFeed :: back) := by
        apply List.IsPrefix.map
        rw [List.prefix_append_right_inj, List.cons_prefix_cons]
        exact ⟨rfl, List.nil_prefix⟩
      have inside := List.prefix_of_prefix_length_le line occurs (by
        simp only [toLowerCaseAscii, List.length_map, List.length_append,
          List.length_singleton]
        omega)
      apply inside.subset
      rw [lineFeed_mem_toLowerCaseAscii_iff]
      exact List.mem_append_right _ List.mem_cons_self

/-- A later line begins with a pattern exactly where the pattern stands behind a
line feed. -/
theorem exists_later_line_iff
    (single : lineFeed ∉ pattern)
    (cut : lines text = first :: rest) :
    (∃ line ∈ rest, OccursAt line pattern 0) ↔
      ∃ place, OccursAt text (lineFeed :: pattern) place := by
  induction text generalizing first rest with
  | nil =>
      rw [lines_nil] at cut
      cases cut
      simp [OccursAt, toLowerCaseAscii]
  | cons unit text inductionHypothesis =>
      obtain ⟨second, others, below⟩ := exists_lines_eq_cons text
      have shifted : (∃ place, OccursAt (unit :: text) (lineFeed :: pattern)
            place) ↔
          OccursAt (unit :: text) (lineFeed :: pattern) 0 ∨
            ∃ place, OccursAt text (lineFeed :: pattern) place := by
        rw [← Nat.or_exists_add_one]
        rfl
      rw [shifted, ← inductionHypothesis below]
      by_cases feed : unit = lineFeed
      case pos =>
        rw [feed, lines_cons_lineFeed, below] at cut
        cases cut
        rw [List.exists_mem_cons_iff, ← occursAt_zero_iff single below, feed]
        refine or_congr_left ?_
        exact (List.prefix_cons_inj lineFeed).symm
      case neg =>
        rw [lines_cons_of_ne feed below] at cut
        cases cut
        refine (or_iff_right fun occurs => feed ?_).symm
        have same := (List.cons_prefix_cons.mp occurs).1
        exact lowerAscii_eq_lineFeed_iff.mp same.symm

end Patterns

end Java
end IdoProject
