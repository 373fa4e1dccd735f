import Mathlib.Data.List.Basic
import Mathlib.Data.List.Flatten

/-!
# Codes whose words announce their length

The first unit of a word says how many more units follow, and the units that
follow are recognised as such.  A text is read from left to right with the
number of units that are still owed.  A concatenation of words read up to a
place where nothing is owed is read up to the end of a word.
-/

namespace IdoProject
namespace Syntax

/-- How the units of a code are recognised. -/
structure LeadCode (Symbol : Type u) where
  /-- Number of units that follow this one at the beginning of a word. -/
  announces : Symbol → Option Nat
  /-- The unit can follow the beginning of a word. -/
  continues : Symbol → Bool

namespace LeadCode

variable {Symbol : Type u}

/-- Read a text while so many units are owed: the number owed afterwards, or
none where the text is malformed. -/
def scan (code : LeadCode Symbol) : Nat → List Symbol → Option Nat
  | owed, [] => some owed
  | 0, unit :: units =>
      match code.announces unit with
      | some count => code.scan count units
      | none => none
  | owed + 1, unit :: units =>
      if code.continues unit then code.scan owed units else none

/-- One word of the code. -/
def IsWord (code : LeadCode Symbol) (word : List Symbol) : Prop :=
  ∃ lead following, word = lead :: following ∧
    code.announces lead = some following.length ∧
    ∀ unit ∈ following, code.continues unit

/-- The beginning of a word that owes so many units; nothing at all when it
owes none. -/
def Begun (code : LeadCode Symbol) : Nat → List Symbol → Prop
  | 0, units => units = []
  | owed + 1, units =>
      ∃ lead following, units = lead :: following ∧
        code.announces lead = some (following.length + (owed + 1)) ∧
        ∀ unit ∈ following, code.continues unit

variable {code : LeadCode Symbol}
variable {owed later : Nat}
variable {unit : Symbol}
variable {front back units word : List Symbol}

@[simp] theorem scan_nil :
    code.scan owed [] = some owed := by
  cases owed <;> rfl

theorem scan_zero_cons :
    code.scan 0 (unit :: units) =
      (code.announces unit).bind fun count => code.scan count units := by
  rw [scan]
  cases code.announces unit <;> rfl

theorem scan_succ_cons :
    code.scan (owed + 1) (unit :: units) =
      if code.continues unit then code.scan owed units else none := by
  rw [scan]

/-- Two parts are read one after the other. -/
theorem scan_append :
    code.scan owed (front ++ back) =
      (code.scan owed front).bind fun later => code.scan later back := by
  induction front generalizing owed with
  | nil => rw [List.nil_append, scan_nil, Option.bind_some]
  | cons unit front inductionHypothesis =>
      rw [List.cons_append]
      cases owed with
      | zero =>
          rw [scan_zero_cons, scan_zero_cons]
          cases code.announces unit with
          | none => rfl
          | some count =>
              rw [Option.bind_some, Option.bind_some, inductionHypothesis]
      | succ owed =>
          rw [scan_succ_cons, scan_succ_cons]
          by_cases follows : code.continues unit
          · rw [if_pos follows, if_pos follows, inductionHypothesis]
          · rw [if_neg follows, if_neg follows, Option.bind_none]

/-- Units that follow are read as long as they are owed. -/
theorem scan_following
    (follow : ∀ unit ∈ units, code.continues unit) :
    code.scan (units.length + owed) units = some owed := by
  induction units with
  | nil => rw [List.length_nil, Nat.zero_add, scan_nil]
  | cons unit units inductionHypothesis =>
      rw [List.length_cons, Nat.succ_add, scan_succ_cons,
        if_pos (follow unit List.mem_cons_self)]
      apply inductionHypothesis
      intro other member
      exact follow other (List.mem_cons_of_mem unit member)

/-- A text that is read while more is owed than it has units consists of units
that follow. -/
theorem follow_of_scan
    (reads : code.scan owed units = some later)
    (short : units.length ≤ owed) :
    (∀ unit ∈ units, code.continues unit) ∧ units.length + later = owed := by
  induction units generalizing owed with
  | nil =>
      rw [scan_nil, Option.some.injEq] at reads
      simp [reads]
  | cons unit units inductionHypothesis =>
      cases owed with
      | zero => simp at short
      | succ owed =>
          rw [scan_succ_cons] at reads
          split at reads
          case isFalse => cases reads
          case isTrue follows =>
            rw [List.length_cons] at short ⊢
            obtain ⟨others, total⟩ :=
              inductionHypothesis reads (Nat.le_of_succ_le_succ short)
            constructor
            · intro other member
              rcases List.mem_cons.mp member with equal | member
              · rwa [equal]
              · exact others other member
            · omega

/-! ## Words -/

theorem scan_word
    (isWord : code.IsWord word) :
    code.scan 0 word = some 0 := by
  obtain ⟨lead, following, rfl, announced, follow⟩ := isWord
  rw [scan_zero_cons, announced, Option.bind_some]
  exact @scan_following _ code 0 following follow

/-- A concatenation of words owes nothing at its end. -/
theorem scan_flatten
    {words : List (List Symbol)}
    (areWords : ∀ word ∈ words, code.IsWord word) :
    code.scan 0 words.flatten = some 0 := by
  induction words with
  | nil => rw [List.flatten_nil, scan_nil]
  | cons word words inductionHypothesis =>
      rw [List.flatten_cons, scan_append,
        scan_word (areWords word List.mem_cons_self), Option.bind_some]
      apply inductionHypothesis
      intro other member
      exact areWords other (List.mem_cons_of_mem word member)

/-- A beginning of a word at whose end nothing is owed is nothing or the word
with something behind it. -/
theorem eq_append_of_scan
    (isWord : code.IsWord word)
    (reads : code.scan 0 front = some 0)
    (nonempty : front ≠ [])
    (equal : word ++ units = front ++ back) :
    ∃ rest, front = word ++ rest := by
  obtain ⟨lead, following, rfl, announced, follow⟩ := isWord
  obtain ⟨first, front, rfl⟩ := List.exists_cons_of_ne_nil nonempty
  obtain ⟨rfl, behind⟩ : lead = first ∧ following ++ units = front ++ back := by
    simpa using equal
  rw [scan_zero_cons, announced, Option.bind_some] at reads
  rcases List.append_eq_append_iff.mp behind with
    ⟨rest, front_eq, -⟩ | ⟨rest, following_eq, -⟩
  · refine ⟨rest, ?_⟩
    rw [front_eq, List.cons_append]
  · -- The front ends inside the word, so it is the whole word.
    have short : front.length ≤ following.length := by
      rw [following_eq, List.length_append]
      exact Nat.le_add_right _ _
    obtain ⟨-, total⟩ := follow_of_scan reads short
    have none_left : rest = [] := by
      apply List.eq_nil_of_length_eq_zero
      rw [following_eq, List.length_append] at total
      omega
    refine ⟨[], ?_⟩
    rw [List.append_nil, following_eq, none_left, List.append_nil]

/-- A concatenation of words is split between two words wherever nothing is
owed. -/
theorem exists_take_of_scan
    {words : List (List Symbol)}
    (areWords : ∀ word ∈ words, code.IsWord word)
    (equal : words.flatten = front ++ back)
    (reads : code.scan 0 front = some 0) :
    ∃ count, front = (words.take count).flatten ∧
      back = (words.drop count).flatten := by
  induction words generalizing front with
  | nil =>
      obtain ⟨rfl, rfl⟩ := List.append_eq_nil_iff.mp equal.symm
      exact ⟨0, rfl, rfl⟩
  | cons word words inductionHypothesis =>
      by_cases empty : front = []
      case pos =>
        refine ⟨0, empty, ?_⟩
        rw [List.drop_zero, equal, empty, List.nil_append]
      case neg =>
        have isWord := areWords word List.mem_cons_self
        rw [List.flatten_cons] at equal
        obtain ⟨rest, rfl⟩ := eq_append_of_scan isWord reads empty equal
        rw [scan_append, scan_word isWord, Option.bind_some] at reads
        rw [List.append_assoc, List.append_cancel_left_eq] at equal
        obtain ⟨count, rest_eq, back_eq⟩ := inductionHypothesis
          (fun other member => areWords other (List.mem_cons_of_mem word member))
          equal reads
        refine ⟨count + 1, ?_, ?_⟩
        · rw [List.take_succ_cons, List.flatten_cons, ← rest_eq]
        · rw [List.drop_succ_cons, ← back_eq]

/-- What is owed is read first. -/
theorem exists_following_of_scan
    (reads : code.scan owed units = some 0) :
    ∃ following others, units = following ++ others ∧
      following.length = owed ∧
      (∀ unit ∈ following, code.continues unit) ∧
      code.scan 0 others = some 0 := by
  induction owed generalizing units with
  | zero => exact ⟨[], units, rfl, rfl, by simp, reads⟩
  | succ owed inductionHypothesis =>
      cases units with
      | nil =>
          rw [scan_nil, Option.some.injEq] at reads
          omega
      | cons unit units =>
          rw [scan_succ_cons] at reads
          split at reads
          case isFalse => cases reads
          case isTrue follows =>
            obtain ⟨following, others, rfl, total, follow, later⟩ :=
              inductionHypothesis reads
            refine ⟨unit :: following, others, rfl, ?_, ?_, later⟩
            · rw [List.length_cons, total]
            · exact List.forall_mem_cons.mpr ⟨follows, follow⟩

/-- A text at whose end nothing is owed is a concatenation of words. -/
theorem exists_words_of_scan
    (reads : code.scan 0 units = some 0) :
    ∃ words : List (List Symbol),
      (∀ word ∈ words, code.IsWord word) ∧ words.flatten = units := by
  -- The text behind the first word is shorter.
  induction length : units.length using Nat.strongRecOn
    generalizing units with
  | ind bound inductionHypothesis =>
      cases units with
      | nil => exact ⟨[], by simp, rfl⟩
      | cons lead units =>
          rw [scan_zero_cons] at reads
          obtain ⟨count, announced, owed⟩ := Option.bind_eq_some_iff.mp reads
          obtain ⟨following, others, rfl, rfl, follow, later⟩ :=
            exists_following_of_scan owed
          obtain ⟨words, areWords, rfl⟩ :=
            inductionHypothesis others.length
              (by rw [← length, List.length_cons, List.length_append]; omega)
              later rfl
          refine ⟨(lead :: following) :: words, ?_, rfl⟩
          exact List.forall_mem_cons.mpr
            ⟨⟨lead, following, rfl, announced, follow⟩, areWords⟩

/-- A text is read to its end exactly when it is a concatenation of words. -/
theorem scan_eq_zero_iff :
    code.scan 0 units = some 0 ↔
      ∃ words : List (List Symbol),
        (∀ word ∈ words, code.IsWord word) ∧ words.flatten = units := by
  constructor
  · exact exists_words_of_scan
  · rintro ⟨words, areWords, rfl⟩
    exact scan_flatten areWords

/-- Two words at the beginning of one text are the same. -/
theorem word_unique
    {other : List Symbol}
    (isWord : code.IsWord word)
    (isOther : code.IsWord other)
    (equal : word ++ front = other ++ back) :
    word = other ∧ front = back := by
  obtain ⟨lead, following, rfl, announced, -⟩ := isWord
  obtain ⟨first, behind, rfl, announcedOther, -⟩ := isOther
  obtain ⟨rfl, rest⟩ : lead = first ∧ following ++ front = behind ++ back := by
    simpa using equal
  have lengths : following.length = behind.length := by
    rw [announced, Option.some.injEq] at announcedOther
    exact announcedOther
  obtain ⟨rfl, rfl⟩ := List.append_inj rest lengths
  exact ⟨rfl, rfl⟩

/-- A text is cut into words in one way only. -/
theorem words_unique
    {words others : List (List Symbol)}
    (areWords : ∀ word ∈ words, code.IsWord word)
    (areOthers : ∀ word ∈ others, code.IsWord word)
    (equal : words.flatten = others.flatten) :
    words = others := by
  have nonempty {word : List Symbol} {rest : List (List Symbol)}
      (isWord : code.IsWord word) : (word :: rest).flatten ≠ [] := by
    obtain ⟨lead, following, rfl, -⟩ := isWord
    simp
  induction words generalizing others with
  | nil =>
      cases others with
      | nil => rfl
      | cons other others =>
          exact absurd equal.symm
            (nonempty (areOthers other List.mem_cons_self))
  | cons word words inductionHypothesis =>
      cases others with
      | nil =>
          exact absurd equal (nonempty (areWords word List.mem_cons_self))
      | cons other others =>
          rw [List.forall_mem_cons] at areWords areOthers
          rw [List.flatten_cons, List.flatten_cons] at equal
          obtain ⟨rfl, rest⟩ := word_unique areWords.1 areOthers.1 equal
          rw [inductionHypothesis areWords.2 areOthers.2 rest]

/-! ## Beginnings of words -/

theorem scan_begun
    (begun : code.Begun owed units) :
    code.scan 0 units = some owed := by
  cases owed with
  | zero => rw [show units = [] from begun, scan_nil]
  | succ owed =>
      obtain ⟨lead, following, rfl, announced, follow⟩ := begun
      rw [scan_zero_cons, announced, Option.bind_some]
      exact scan_following follow

/-- A begun word is gone on with by units that follow. -/
theorem begun_append
    (begun : code.Begun owed front)
    (owes : owed ≠ 0)
    (reads : code.scan owed back = some later)
    (goesOn : back.length < owed) :
    code.Begun later (front ++ back) := by
  obtain ⟨owed, rfl⟩ := Nat.exists_eq_succ_of_ne_zero owes
  obtain ⟨lead, following, rfl, announced, follow⟩ := begun
  obtain ⟨others, total⟩ := follow_of_scan reads (Nat.le_of_lt goesOn)
  obtain ⟨later, rfl⟩ : ∃ less, later = less + 1 :=
    ⟨later - 1, by omega⟩
  refine ⟨lead, following ++ back, ?_, ?_, ?_⟩
  · rw [List.cons_append]
  · rw [announced, List.length_append]
    congr 1
    omega
  · intro unit member
    rcases List.mem_append.mp member with early | late
    · exact follow unit early
    · exact others unit late

end LeadCode

end Syntax
end IdoProject
