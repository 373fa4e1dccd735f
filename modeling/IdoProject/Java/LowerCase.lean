import IdoProject.Java.Text

/-!
# Lower-casing and positions

What `String.toLowerCase` does to a text, outside the Turkic, Azeri and
Lithuanian locales: every code unit becomes one, which may depend on what stands
around it, except U+0130, which becomes two.  A pattern of ASCII letters is
found in the lower-cased text where it stands in the text itself, ignoring case,
and the place is moved by the number of U+0130 before it.
-/

namespace IdoProject
namespace Java

/-- The letter whose lower case has two code units. -/
def dotted : JChar := 0x130

/-- Lower-casing of one ASCII letter. -/
def lowerAscii (unit : JChar) : JChar :=
  if 65 ≤ unit ∧ unit ≤ 90 then unit + 32 else unit

/-- The case mapping of the platform. -/
structure LowerCasing where
  /-- What a unit other than U+0130 becomes, from the text before it and behind
  it. -/
  image : JString → JChar → JString → JChar
  image_ascii : ∀ before unit after, unit < 0x80 →
    image before unit after = lowerAscii unit
  /-- Of all the other characters only the Kelvin sign has an ASCII letter for
  its lower case. -/
  image_other : ∀ before unit after, 0x80 ≤ unit → unit ≠ dotted →
    0x80 ≤ image before unit after ∨
      (unit = 0x212A ∧ image before unit after = 0x6B)

namespace LowerCasing

/-- What a unit becomes. -/
def imageOf
    (lower : LowerCasing)
    (before : JString)
    (unit : JChar)
    (after : JString) : JString :=
  if unit = dotted then [0x69, 0x307] else [lower.image before unit after]

/-- Lower-case the rest of a text. -/
def lowerFrom (lower : LowerCasing) : JString → JString → JString
  | _, [] => []
  | before, unit :: after =>
      lower.imageOf before unit after ++ lower.lowerFrom (before ++ [unit]) after

/-- `String.toLowerCase`. -/
def toLowerCase (lower : LowerCasing) (text : JString) : JString :=
  lower.lowerFrom [] text

/-- The simple case mapping of ASCII letters, with the two letters that become
ASCII. -/
def simple : LowerCasing where
  image _ unit _ := if unit = 0x212A then 0x6B else lowerAscii unit
  image_ascii before unit after ascii := by
    rw [if_neg]
    rintro rfl
    exact absurd ascii (by decide)
  image_other before unit after other undotted := by
    by_cases kelvin : unit = 0x212A
    case pos => exact Or.inr ⟨kelvin, if_pos kelvin⟩
    case neg =>
      refine Or.inl ?_
      rw [if_neg kelvin, lowerAscii, if_neg]
      · exact other
      · rintro ⟨-, small⟩
        exact absurd (UInt16.le_trans other small) (by decide)

end LowerCasing

/-- The text has the pattern at a place, ignoring the case of ASCII letters. -/
def OccursAt (text pattern : JString) (place : Nat) : Prop :=
  toLowerCaseAscii pattern <+: toLowerCaseAscii (text.drop place)

instance (text pattern : JString) : DecidablePred (OccursAt text pattern) :=
  fun place => inferInstanceAs
    (Decidable (toLowerCaseAscii pattern <+: toLowerCaseAscii (text.drop place)))

/-- The first place of the pattern in the text, ignoring the case of ASCII
letters. -/
def firstPlace (text pattern : JString) : Option Nat :=
  indexOf (toLowerCaseAscii text) (toLowerCaseAscii pattern)

/-- Where a place of the text is in the lower-cased text. -/
def movedPlace (text : JString) (place : Nat) : Nat :=
  place + (text.take place).count dotted

/-- An ASCII pattern without the letter of the Kelvin sign that does not end
with the letter that U+0130 becomes. -/
def Separate (pattern : JString) : Prop :=
  (∀ unit ∈ pattern, unit < 0x80 ∧ unit ≠ 0x6B) ∧ pattern.getLast? ≠ some 0x69

instance : DecidablePred Separate := fun pattern =>
  have := List.decidableBAll (fun unit : JChar => unit < 0x80 ∧ unit ≠ 0x6B)
    pattern
  inferInstanceAs (Decidable ((∀ unit ∈ pattern, unit < 0x80 ∧ unit ≠ 0x6B) ∧
    pattern.getLast? ≠ some 0x69))

section Index

variable {text front pattern : JString}
variable {place : Nat}

theorem isPrefixOf_eq_true_iff :
    pattern.isPrefixOf text = true ↔ pattern <+: text :=
  List.isPrefixOf_iff_prefix

theorem indexOf_of_here
    (here : pattern <+: text) :
    indexOf text pattern = some 0 := by
  unfold indexOf
  rw [if_pos (isPrefixOf_eq_true_iff.mpr here)]

theorem indexOf_cons_of_not_here
    {unit : JChar}
    (absent : ¬pattern <+: unit :: text) :
    indexOf (unit :: text) pattern = (indexOf text pattern).map (· + 1) := by
  rw [indexOf, if_neg (mt isPrefixOf_eq_true_iff.mp absent)]

theorem indexOf_nil_of_not_here
    (absent : ¬pattern <+: []) :
    indexOf [] pattern = none := by
  rw [indexOf, if_neg (mt isPrefixOf_eq_true_iff.mp absent)]

/-- The index that is found is the first place of the pattern. -/
theorem indexOf_eq_some_iff :
    indexOf text pattern = some place ↔
      pattern <+: text.drop place ∧ place ≤ text.length ∧
        ∀ earlier < place, ¬pattern <+: text.drop earlier := by
  have at_front {text : JString} {place : Nat} (here : pattern <+: text) :
      indexOf text pattern = some place ↔
        pattern <+: text.drop place ∧ place ≤ text.length ∧
          ∀ earlier < place, ¬pattern <+: text.drop earlier := by
    rw [indexOf_of_here here, Option.some.injEq]
    constructor
    · rintro rfl
      exact ⟨here, Nat.zero_le _, by simp⟩
    · rintro ⟨-, -, first⟩
      by_contra later
      exact first 0 (Nat.pos_of_ne_zero (Ne.symm later)) here
  induction text generalizing place with
  | nil =>
      by_cases here : pattern <+: []
      case pos => exact at_front here
      case neg =>
        rw [indexOf_nil_of_not_here here]
        simp only [reduceCtorEq, List.drop_nil, false_iff]
        exact fun both => here both.1
  | cons unit text inductionHypothesis =>
      by_cases here : pattern <+: unit :: text
      case pos => exact at_front here
      case neg =>
        rw [indexOf_cons_of_not_here here]
        cases place with
        | zero => simpa using here
        | succ place =>
            rw [Option.map_eq_some_iff]
            constructor
            · rintro ⟨before, found, same⟩
              cases same
              obtain ⟨occurs, within, first⟩ := inductionHypothesis.mp found
              refine ⟨occurs, Nat.succ_le_succ within, ?_⟩
              intro earlier less
              cases earlier with
              | zero => exact here
              | succ earlier => exact first earlier (Nat.lt_of_succ_lt_succ less)
            · rintro ⟨occurs, within, first⟩
              refine ⟨place, inductionHypothesis.mpr
                ⟨occurs, Nat.le_of_succ_le_succ within, ?_⟩, rfl⟩
              intro earlier less
              exact first (earlier + 1) (Nat.succ_lt_succ less)

/-- Nothing is found exactly when the pattern stands nowhere. -/
theorem indexOf_eq_none_iff :
    indexOf text pattern = none ↔
      ∀ place ≤ text.length, ¬pattern <+: text.drop place := by
  rw [Option.eq_none_iff_forall_ne_some]
  constructor
  · intro missing place
    -- The least place where it stands would be found.
    induction place using Nat.strongRecOn with
    | ind place inductionHypothesis =>
        intro within occurs
        refine missing place (indexOf_eq_some_iff.mpr ⟨occurs, within, ?_⟩)
        intro earlier less
        exact inductionHypothesis earlier less (less.le.trans within)
  · intro nowhere place found
    obtain ⟨occurs, within, -⟩ := indexOf_eq_some_iff.mp found
    exact nowhere place within occurs

theorem OccursAt.place_le
    (occurs : OccursAt text pattern place)
    (nonempty : pattern ≠ []) :
    place < text.length := by
  by_contra beyond
  unfold OccursAt at occurs
  rw [List.drop_eq_nil_of_le (Nat.le_of_not_lt beyond)] at occurs
  exact nonempty (List.map_eq_nil_iff.mp (List.prefix_nil.mp occurs))

/-- What stands in a text stands in every longer one. -/
theorem OccursAt.append
    (occurs : OccursAt front pattern place)
    (back : JString) :
    OccursAt (front ++ back) pattern place := by
  unfold OccursAt toLowerCaseAscii at occurs ⊢
  refine occurs.trans (List.IsPrefix.map _ ?_)
  rcases Nat.le_total place front.length with within | beyond
  · rw [List.drop_append_of_le_length within]
    exact List.prefix_append _ _
  · rw [List.drop_eq_nil_of_le beyond]
    exact List.nil_prefix

theorem OccursAt.length_le
    (occurs : OccursAt text pattern place) :
    pattern.length ≤ text.length - place := by
  unfold OccursAt toLowerCaseAscii at occurs
  have long := List.IsPrefix.length_le occurs
  rwa [List.length_map, List.length_map, List.length_drop] at long

/-- What ends within the beginning of a text stands in the beginning. -/
theorem OccursAt.of_append
    {back : JString}
    (occurs : OccursAt (front ++ back) pattern place)
    (within : place + pattern.length ≤ front.length) :
    OccursAt front pattern place := by
  unfold OccursAt toLowerCaseAscii at occurs ⊢
  rw [List.drop_append_of_le_length (by omega), List.map_append] at occurs
  apply List.prefix_of_prefix_length_le occurs (List.prefix_append _ _)
  rw [List.length_map, List.length_map, List.length_drop]
  omega

/-- The first place is one where the pattern stands, and it stands at none
before it. -/
theorem firstPlace_eq_some_iff :
    firstPlace text pattern = some place ↔
      OccursAt text pattern place ∧ place ≤ text.length ∧
        ∀ earlier < place, ¬OccursAt text pattern earlier := by
  unfold firstPlace OccursAt toLowerCaseAscii
  rw [indexOf_eq_some_iff]
  simp only [List.map_drop, List.length_map]

theorem firstPlace_eq_none_iff :
    firstPlace text pattern = none ↔
      ∀ place ≤ text.length, ¬OccursAt text pattern place := by
  unfold firstPlace OccursAt toLowerCaseAscii
  rw [indexOf_eq_none_iff]
  simp only [List.map_drop, List.length_map]

end Index

section Moved

variable {lower : LowerCasing}
variable {before text pattern : JString}
variable {unit : JChar}
variable {place : Nat}

theorem toLowerCaseAscii_cons :
    toLowerCaseAscii (unit :: text) = lowerAscii unit :: toLowerCaseAscii text :=
  rfl

theorem lowerAscii_of_le
    (other : 0x80 ≤ unit) :
    lowerAscii unit = unit := by
  rw [lowerAscii, if_neg]
  rintro ⟨-, small⟩
  exact absurd (UInt16.le_trans other small) (by decide)

theorem Separate.tail
    (separate : Separate (unit :: pattern)) :
    Separate pattern := by
  obtain ⟨units, last⟩ := separate
  refine ⟨fun other member => units other (List.mem_cons_of_mem unit member), ?_⟩
  cases pattern with
  | nil => simp
  | cons next pattern => rwa [List.getLast?_cons_cons] at last

/-- At the beginning of a text it makes no difference to a pattern how the
other units are lower-cased. -/
theorem prefix_lowerFrom_iff
    (separate : Separate pattern) :
    pattern <+: lower.lowerFrom before text ↔
      pattern <+: toLowerCaseAscii text := by
  induction pattern generalizing before text with
  | nil => exact iff_of_true List.nil_prefix List.nil_prefix
  | cons first pattern inductionHypothesis =>
      cases text with
      | nil => simp [LowerCasing.lowerFrom, toLowerCaseAscii]
      | cons unit text =>
          obtain ⟨small, plain⟩ := separate.1 first List.mem_cons_self
          have other (unit : JChar) (above : 0x80 ≤ unit) : first ≠ unit := by
            rintro rfl
            exact absurd (UInt16.lt_of_lt_of_le small above)
              (UInt16.lt_irrefl _)
          rw [LowerCasing.lowerFrom, LowerCasing.imageOf,
            toLowerCaseAscii_cons, List.cons_prefix_cons]
          split
          case isTrue same =>
            -- The two units of U+0130 are no part of the pattern.
            rw [same, show lowerAscii dotted = dotted by decide]
            refine iff_of_false ?_ fun both => other dotted (by decide) both.1
            intro starts
            rw [List.cons_append, List.cons_append,
              List.cons_prefix_cons] at starts
            obtain ⟨rfl, starts⟩ := starts
            cases pattern with
            | nil => exact separate.2 rfl
            | cons second pattern =>
                rw [List.cons_prefix_cons] at starts
                have second_small := (separate.1 second (by simp)).1
                rw [starts.1] at second_small
                exact absurd second_small (by decide)
          case isFalse undotted =>
            rw [List.singleton_append, List.cons_prefix_cons,
              inductionHypothesis separate.tail]
            by_cases ascii : unit < 0x80
            case pos => rw [lower.image_ascii before unit text ascii]
            case neg =>
              have above : 0x80 ≤ unit := UInt16.not_lt.mp ascii
              rw [lowerAscii_of_le above]
              refine iff_of_false ?_ fun both => other unit above both.1
              rintro ⟨same, -⟩
              rcases lower.image_other before unit text above undotted with
                high | ⟨-, kelvin⟩
              · exact other _ high same
              · exact plain (same.trans kelvin)

/-- A pattern is found in the lower-cased text where its first place is moved
to. -/
theorem indexOf_lowerFrom
    (separate : Separate pattern)
    (nonempty : pattern ≠ []) :
    indexOf (lower.lowerFrom before text) pattern =
      (indexOf (toLowerCaseAscii text) pattern).map (movedPlace text) := by
  induction text generalizing before with
  | nil =>
      rw [show lower.lowerFrom before [] = [] from rfl,
        show toLowerCaseAscii [] = [] from rfl,
        indexOf_nil_of_not_here (mt List.prefix_nil.mp nonempty)]
      rfl
  | cons unit text inductionHypothesis =>
      by_cases here : pattern <+: toLowerCaseAscii (unit :: text)
      case pos =>
        rw [indexOf_of_here here,
          indexOf_of_here ((prefix_lowerFrom_iff separate).mpr here)]
        rfl
      case neg =>
        have absent := mt (@prefix_lowerFrom_iff lower before (unit :: text)
          pattern separate).mp here
        rw [toLowerCaseAscii_cons] at here ⊢
        rw [indexOf_cons_of_not_here here]
        rw [LowerCasing.lowerFrom, LowerCasing.imageOf] at absent ⊢
        by_cases same : unit = dotted
        case pos =>
          rw [if_pos same, List.cons_append, List.singleton_append] at absent ⊢
          have inside : ¬pattern <+:
              0x307 :: lower.lowerFrom (before ++ [unit]) text := by
            obtain ⟨first, rest, rfl⟩ := List.exists_cons_of_ne_nil nonempty
            rw [List.cons_prefix_cons]
            rintro ⟨rfl, -⟩
            exact absurd (separate.1 0x307 List.mem_cons_self).1 (by decide)
          rw [indexOf_cons_of_not_here absent,
            indexOf_cons_of_not_here inside, inductionHypothesis, same]
          cases indexOf (toLowerCaseAscii text) pattern with
          | none => rfl
          | some place =>
              simp only [Option.map_some, movedPlace, List.take_succ_cons,
                List.count_cons_self]
              congr 1
              omega
        case neg =>
          rw [if_neg same, List.singleton_append] at absent ⊢
          rw [indexOf_cons_of_not_here absent, inductionHypothesis]
          cases indexOf (toLowerCaseAscii text) pattern with
          | none => rfl
          | some place =>
              simp only [Option.map_some, movedPlace, List.take_succ_cons,
                List.count_cons_of_ne same]
              congr 1
              omega

theorem toLowerCase_of_ascii
    (ascii : ∀ unit ∈ text, unit < 0x80) :
    lower.toLowerCase text = toLowerCaseAscii text := by
  suffices every : ∀ before, lower.lowerFrom before text =
      toLowerCaseAscii text from every []
  induction text with
  | nil => exact fun _ => rfl
  | cons unit text inductionHypothesis =>
      intro before
      have small := ascii unit List.mem_cons_self
      have undotted : unit ≠ dotted := by
        rintro rfl
        exact absurd small (by decide)
      rw [LowerCasing.lowerFrom, LowerCasing.imageOf, if_neg undotted,
        lower.image_ascii before unit text small, toLowerCaseAscii_cons,
        inductionHypothesis fun other member =>
          ascii other (List.mem_cons_of_mem unit member)]
      rfl

/-- The index that `indexOf` gives on the lower-cased texts. -/
theorem indexOf_toLowerCase
    (ascii : ∀ unit ∈ pattern, unit < 0x80)
    (separate : Separate (toLowerCaseAscii pattern))
    (nonempty : pattern ≠ []) :
    indexOf (lower.toLowerCase text) (lower.toLowerCase pattern) =
      (firstPlace text pattern).map (movedPlace text) := by
  rw [toLowerCase_of_ascii ascii]
  refine indexOf_lowerFrom separate ?_
  rwa [toLowerCaseAscii, ne_eq, List.map_eq_nil_iff]

end Moved

end Java
end IdoProject
