import Mathlib.Data.List.Basic

/-!
# Regular expressions with look-ahead

An expression moves a place in a text forward, over some symbols.  Anchors and
look-ahead do not move it.  Of the quantifiers there is the repetition of a set
of symbols.  What `$` means is a parameter, since it depends on what ends a
line.  The matcher lists the places it tries, the longest repetition first.
-/

namespace IdoProject
namespace Syntax

/-- A regular expression over an alphabet. -/
inductive Regex (Symbol : Type u) where
  /-- `^` -/
  | start
  /-- `$` -/
  | finish
  /-- One symbol of a set. -/
  | symbol (set : Symbol → Bool)
  /-- Symbols of a set, at least so many: `X*`, `X+`, `X{n,}`. -/
  | atLeast (count : Nat) (set : Symbol → Bool)
  /-- One expression and then another one. -/
  | seq (first second : Regex Symbol)
  /-- `(?=X)` -/
  | ahead (body : Regex Symbol)

/-- A place in a text: what was read, the last symbol first, and the rest. -/
@[ext]
structure Place (Symbol : Type u) where
  behind : List Symbol
  rest : List Symbol

namespace Place

variable {Symbol : Type u}

/-- The place behind some symbols. -/
def past (behind taken rest : List Symbol) : Place Symbol :=
  ⟨taken.reverse ++ behind, rest⟩

end Place

namespace Regex

variable {Symbol : Type u}

/-- The places behind symbols of the set, at least so many. -/
def repeated (set : Symbol → Bool) :
    Nat → List Symbol → List Symbol → List (Place Symbol)
  | 0, behind, [] => [⟨behind, []⟩]
  | _ + 1, _, [] => []
  | 0, behind, next :: rest =>
      (if set next then repeated set 0 (next :: behind) rest else []) ++
        [⟨behind, next :: rest⟩]
  | count + 1, behind, next :: rest =>
      if set next then repeated set count (next :: behind) rest else []

section Matching

variable (ending : Place Symbol → Bool)

/-- The expression moves one place to another one. -/
inductive Moves : Regex Symbol → Place Symbol → Place Symbol → Prop
  | start (rest : List Symbol) : Moves .start ⟨[], rest⟩ ⟨[], rest⟩
  | finish {place : Place Symbol} (ends : ending place = true) :
      Moves .finish place place
  | symbol {set : Symbol → Bool} {next : Symbol} (behind rest : List Symbol)
      (accepted : set next = true) :
      Moves (.symbol set) ⟨behind, next :: rest⟩ ⟨next :: behind, rest⟩
  | atLeast {set : Symbol → Bool} {taken : List Symbol}
      (count : Nat) (behind rest : List Symbol)
      (enough : count ≤ taken.length)
      (accepted : ∀ next ∈ taken, set next = true) :
      Moves (.atLeast count set) ⟨behind, taken ++ rest⟩
        (.past behind taken rest)
  | seq {first second : Regex Symbol} {place middle last : Place Symbol}
      (one : Moves first place middle)
      (other : Moves second middle last) :
      Moves (.seq first second) place last
  | ahead {body : Regex Symbol} {place last : Place Symbol}
      (looked : Moves body place last) :
      Moves (.ahead body) place place

/-- The places the matcher tries. -/
def places : Regex Symbol → Place Symbol → List (Place Symbol)
  | .start, place => if place.behind.isEmpty then [place] else []
  | .finish, place => if ending place then [place] else []
  | .symbol set, ⟨behind, rest⟩ =>
      match rest with
      | [] => []
      | next :: rest => if set next then [⟨next :: behind, rest⟩] else []
  | .atLeast count set, ⟨behind, rest⟩ => repeated set count behind rest
  | .seq first second, place =>
      (places first place).flatMap fun middle => places second middle
  | .ahead body, place => if (places body place).isEmpty then [] else [place]

/-- The expression matches a whole text. -/
def matchesAll (regex : Regex Symbol) (text : List Symbol) : Bool :=
  (regex.places ending ⟨[], text⟩).any fun place => place.rest.isEmpty

end Matching

section Rules

variable {ending : Place Symbol → Bool}
variable {set : Symbol → Bool}
variable {place last : Place Symbol}

/-- The repetition stops behind any number of symbols of the set that is
enough. -/
theorem mem_repeated_iff
    {count : Nat}
    {behind text : List Symbol} :
    last ∈ repeated set count behind text ↔
      ∃ taken rest, text = taken ++ rest ∧ count ≤ taken.length ∧
        (∀ next ∈ taken, set next = true) ∧
          last = .past behind taken rest := by
  induction text generalizing count behind with
  | nil =>
      cases count with
      | zero =>
          constructor
          · intro present
            exact ⟨[], [], rfl, Nat.le_refl _, by simp,
              List.mem_singleton.mp present⟩
          · rintro ⟨taken, rest, whole, -, -, rfl⟩
            obtain ⟨rfl, rfl⟩ := List.append_eq_nil_iff.mp whole.symm
            exact List.mem_singleton_self _
      | succ count =>
          refine iff_of_false List.not_mem_nil ?_
          rintro ⟨taken, rest, whole, enough, -, -⟩
          rw [(List.append_eq_nil_iff.mp whole.symm).1] at enough
          exact absurd enough (Nat.not_succ_le_zero _)
  | cons next text inductionHypothesis =>
      -- The first symbol is taken, or nothing is.
      have onward : (last ∈ if set next then
            repeated set (count - 1) (next :: behind) text else []) ↔
          ∃ taken rest, next :: text = taken ++ rest ∧ taken ≠ [] ∧
            count ≤ taken.length ∧ (∀ next ∈ taken, set next = true) ∧
              last = .past behind taken rest := by
        constructor
        · intro present
          split at present
          case isFalse => exact absurd present List.not_mem_nil
          case isTrue accepted =>
            obtain ⟨taken, rest, rfl, enough, all, rfl⟩ :=
              inductionHypothesis.mp present
            refine ⟨next :: taken, rest, rfl, List.cons_ne_nil _ _, ?_, ?_, ?_⟩
            · rw [List.length_cons]
              omega
            · exact List.forall_mem_cons.mpr ⟨accepted, all⟩
            · simp [Place.past]
        · rintro ⟨taken, rest, whole, some_taken, enough, all, rfl⟩
          cases taken with
          | nil => exact absurd rfl some_taken
          | cons first taken =>
              rw [List.cons_append, List.cons.injEq] at whole
              obtain ⟨rfl, rfl⟩ := whole
              rw [List.forall_mem_cons] at all
              rw [if_pos all.1, inductionHypothesis]
              rw [List.length_cons] at enough
              exact ⟨taken, rest, rfl, by omega, all.2, by simp [Place.past]⟩
      cases count with
      | zero =>
          rw [repeated, List.mem_append, onward, List.mem_singleton]
          constructor
          · rintro (⟨taken, rest, whole, -, found⟩ | rfl)
            · exact ⟨taken, rest, whole, found⟩
            · exact ⟨[], next :: text, rfl, Nat.le_refl _, by simp, rfl⟩
          · rintro ⟨taken, rest, whole, enough, all, rfl⟩
            by_cases nothing : taken = []
            · subst nothing
              exact Or.inr (by rw [whole]; rfl)
            · exact Or.inl ⟨taken, rest, whole, nothing, enough, all, rfl⟩
      | succ count =>
          rw [repeated, show count = count + 1 - 1 from rfl, onward]
          constructor
          · rintro ⟨taken, rest, whole, -, found⟩
            exact ⟨taken, rest, whole, found⟩
          · rintro ⟨taken, rest, whole, enough, found⟩
            refine ⟨taken, rest, whole, ?_, enough, found⟩
            rintro rfl
            exact absurd enough (Nat.not_succ_le_zero _)

/-- The matcher finds the places that the expression moves to. -/
theorem mem_places_iff
    {regex : Regex Symbol} :
    last ∈ regex.places ending place ↔ Moves ending regex place last := by
  induction regex generalizing place last with
  | start =>
      obtain ⟨behind, text⟩ := place
      constructor
      · intro present
        cases behind with
        | nil =>
            rw [List.mem_singleton.mp present]
            exact .start text
        | cons => exact absurd present List.not_mem_nil
      · rintro ⟨⟩
        exact List.mem_singleton_self _
  | finish =>
      rw [places]
      constructor
      · intro present
        split at present
        case isFalse => exact absurd present List.not_mem_nil
        case isTrue ends =>
          rw [List.mem_singleton.mp present]
          exact .finish ends
      · rintro ⟨ends⟩
        rw [if_pos (by assumption)]
        exact List.mem_singleton_self _
  | symbol set =>
      obtain ⟨behind, text⟩ := place
      constructor
      · intro present
        cases text with
        | nil => exact absurd present List.not_mem_nil
        | cons next rest =>
            rw [places] at present
            split at present
            case isFalse => exact absurd present List.not_mem_nil
            case isTrue accepted =>
              rw [List.mem_singleton.mp present]
              exact .symbol behind rest accepted
      · rintro ⟨⟩
        case symbol next rest accepted =>
          simp only [places]
          rw [if_pos accepted]
          exact List.mem_singleton_self _
  | atLeast count set =>
      obtain ⟨behind, text⟩ := place
      rw [places, mem_repeated_iff]
      constructor
      · rintro ⟨taken, rest, rfl, enough, accepted, rfl⟩
        exact .atLeast count behind rest enough accepted
      · rintro ⟨⟩
        case atLeast taken rest enough accepted =>
          exact ⟨taken, rest, rfl, enough, accepted, rfl⟩
  | seq first second oneHypothesis otherHypothesis =>
      rw [places, List.mem_flatMap]
      constructor
      · rintro ⟨middle, one, other⟩
        exact .seq (oneHypothesis.mp one) (otherHypothesis.mp other)
      · rintro ⟨⟩
        case seq middle one other =>
          exact ⟨middle, oneHypothesis.mpr one, otherHypothesis.mpr other⟩
  | ahead body inductionHypothesis =>
      rw [places]
      constructor
      · intro present
        split at present
        case isTrue => exact absurd present List.not_mem_nil
        case isFalse found =>
          rw [List.mem_singleton.mp present]
          obtain ⟨other, looked⟩ := List.exists_mem_of_ne_nil _
            (fun none => found (List.isEmpty_iff.mpr none))
          exact .ahead (inductionHypothesis.mp looked)
      · rintro ⟨⟩
        case ahead other looked =>
          have found := inductionHypothesis.mpr looked
          rw [if_neg fun none => ?_]
          · exact List.mem_singleton_self _
          · rw [List.isEmpty_iff.mp none] at found
            exact absurd found List.not_mem_nil

/-- The expression matches a text over which it moves. -/
theorem matchesAll_iff
    {regex : Regex Symbol}
    {text : List Symbol} :
    regex.matchesAll ending text = true ↔
      ∃ behind, Moves ending regex ⟨[], text⟩ ⟨behind, []⟩ := by
  unfold matchesAll
  rw [List.any_eq_true]
  constructor
  · rintro ⟨⟨behind, rest⟩, found, ended⟩
    obtain rfl : rest = [] := List.isEmpty_iff.mp ended
    exact ⟨behind, mem_places_iff.mp found⟩
  · rintro ⟨behind, moves⟩
    exact ⟨_, mem_places_iff.mpr moves, rfl⟩

theorem moves_seq_iff
    {first second : Regex Symbol} :
    Moves ending (.seq first second) place last ↔
      ∃ middle, Moves ending first place middle ∧
        Moves ending second middle last := by
  constructor
  · rintro ⟨⟩
    case seq middle one other => exact ⟨middle, one, other⟩
  · rintro ⟨middle, one, other⟩
    exact .seq one other

theorem moves_finish_iff :
    Moves ending .finish place last ↔ last = place ∧ ending place = true := by
  constructor
  · rintro ⟨ends⟩
    exact ⟨rfl, by assumption⟩
  · rintro ⟨rfl, ends⟩
    exact .finish ends

theorem moves_ahead_iff
    {body : Regex Symbol} :
    Moves ending (.ahead body) place last ↔
      last = place ∧ ∃ other, Moves ending body place other := by
  constructor
  · rintro ⟨⟩
    case ahead other looked => exact ⟨rfl, other, looked⟩
  · rintro ⟨rfl, other, looked⟩
    exact .ahead looked

theorem moves_atLeast_iff
    {count : Nat} :
    Moves ending (.atLeast count set) place last ↔
      ∃ taken rest, place.rest = taken ++ rest ∧ count ≤ taken.length ∧
        (∀ next ∈ taken, set next = true) ∧
          last = .past place.behind taken rest := by
  rw [← mem_places_iff]
  exact mem_repeated_iff

theorem moves_start_seq_iff
    {second : Regex Symbol} :
    Moves ending (.seq .start second) place last ↔
      place.behind = [] ∧ Moves ending second place last := by
  rw [moves_seq_iff]
  constructor
  · rintro ⟨middle, ⟨⟩, other⟩
    exact ⟨rfl, other⟩
  · rintro ⟨first, other⟩
    obtain ⟨behind, text⟩ := place
    obtain rfl : behind = [] := first
    exact ⟨_, .start text, other⟩

theorem moves_ahead_seq_iff
    {body second : Regex Symbol} :
    Moves ending (.seq (.ahead body) second) place last ↔
      (∃ other, Moves ending body place other) ∧
        Moves ending second place last := by
  rw [moves_seq_iff]
  constructor
  · rintro ⟨middle, one, other⟩
    obtain ⟨rfl, looked⟩ := moves_ahead_iff.mp one
    exact ⟨looked, other⟩
  · rintro ⟨⟨other, looked⟩, moves⟩
    exact ⟨place, .ahead looked, moves⟩

/-- Looking ahead for one symbol of a set behind any number of another one, in
a text of that other set: the symbol occurs. -/
theorem moves_search_iff
    {sought : Symbol → Bool}
    (within : ∀ next ∈ place.rest, set next = true) :
    (∃ other, Moves ending (.seq (.atLeast 0 set) (.symbol sought)) place
        other) ↔
      ∃ next ∈ place.rest, sought next = true := by
  obtain ⟨behind, text⟩ := place
  constructor
  · rintro ⟨other, moves⟩
    obtain ⟨middle, skipped, found⟩ := moves_seq_iff.mp moves
    obtain ⟨taken, rest, whole, -, -, rfl⟩ := moves_atLeast_iff.mp skipped
    cases found with
    | symbol _ rest accepted =>
        refine ⟨_, ?_, accepted⟩
        rw [whole]
        exact List.mem_append_right _ List.mem_cons_self
  · rintro ⟨next, present, accepted⟩
    obtain ⟨front, back, rfl⟩ := List.append_of_mem present
    exact ⟨_, .seq (.atLeast 0 behind (next :: back) (Nat.zero_le _)
      (fun other inside => within other (List.mem_append_left _ inside)))
      (.symbol _ back accepted)⟩

end Rules

end Regex
end Syntax
end IdoProject
