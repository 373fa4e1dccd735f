import IdoProject.Accounts.RoundTrip
import IdoProject.Syntax.Regex

/-!
# The password pattern

The three activities check a new password with the same regular expression.
This module reads that expression, shows that `PASSWORD_PATTERN` decides what it
matches, and that no request brings a password that it does not match into the
table or the preferences.
-/

namespace IdoProject
namespace Accounts

open Java Syntax

/-- Code points of a text.  A surrogate without its partner is one by itself. -/
def decode : JString → List Nat
  | [] => []
  | [unit] => [unit.toNat]
  | first :: second :: rest =>
      if 0xD800 ≤ first ∧ first ≤ 0xDBFF ∧ 0xDC00 ≤ second ∧ second ≤ 0xDFFF then
        (0x10000 + (first.toNat - 0xD800) * 0x400 +
          (second.toNat - 0xDC00)) :: decode rest
      else first.toNat :: decode (second :: rest)

/-- `.`, which does not match a line terminator. -/
def dot (codePoint : Nat) : Bool :=
  codePoint ∉ [0x0A, 0x0D, 0x85, 0x2028, 0x2029]

/-- `\S`.  The classes of the platform's `Pattern` are those of Unicode. -/
def notSpace (codePoint : Nat) : Bool :=
  ¬(0x09 ≤ codePoint ∧ codePoint ≤ 0x0D) ∧
    ¬(0x2000 ≤ codePoint ∧ codePoint ≤ 0x200A) ∧
    codePoint ∉
      [0x20, 0x85, 0xA0, 0x1680, 0x2028, 0x2029, 0x202F, 0x205F, 0x3000]

/-- A range of a character class. -/
def range (first last codePoint : Nat) : Bool :=
  first ≤ codePoint ∧ codePoint ≤ last

/-- `[@#$%^&+=!]` -/
def special (codePoint : Nat) : Bool :=
  codePoint ∈ (jstr "@#$%^&+=!").map UInt16.toNat

/-- `$` matches at the end, and before a final line terminator. -/
def lineEnding (place : Place Nat) : Bool :=
  place.rest = [] ∨ place.rest = [0x0D, 0x0A] ∨
    (place.rest = [0x0A] ∧ place.behind.head? ≠ some 0x0D) ∨
    place.rest ∈ [[0x0D], [0x85], [0x2028], [0x2029]]

/-- `(?=.*X)` for a character class. -/
def somewhere (sought : Nat → Bool) : Regex Nat :=
  .ahead (.seq (.atLeast 0 dot) (.symbol sought))

/-- `^(?=.*[0-9])(?=.*[a-z])(?=.*[A-Z])(?=.*[@#$%^&+=!])(?=\S+$).{8,}$` -/
def PASS_PATTERN : Regex Nat :=
  .seq .start (.seq (somewhere (range 48 57)) (.seq (somewhere (range 97 122))
    (.seq (somewhere (range 65 90)) (.seq (somewhere special)
      (.seq (.ahead (.seq (.atLeast 1 notSpace) .finish))
        (.seq (.atLeast 8 dot) .finish))))))

/-- `PASSWORD_PATTERN.matcher(text).matches()` -/
def matcherMatches (text : JString) : Bool :=
  PASS_PATTERN.matchesAll lineEnding (decode text)

section Decoding

variable {text : JString}

theorem length_decode :
    (decode text).length = codePoints text := by
  induction text using decode.induct with
  | case1 => rfl
  | case2 => rfl
  | case3 first second rest pair inductionHypothesis =>
      rw [decode, codePoints, if_pos pair, if_pos pair, List.length_cons,
        inductionHypothesis]
  | case4 first second rest pair inductionHypothesis =>
      rw [decode, codePoints, if_neg pair, if_neg pair, List.length_cons,
        inductionHypothesis]

/-- A character class below the surrogates is found among the code points where
it is found among the units. -/
theorem exists_mem_decode_iff
    {sought : Nat → Bool}
    (below : ∀ codePoint, sought codePoint = true → codePoint < 0xD800) :
    (∃ codePoint ∈ decode text, sought codePoint = true) ↔
      ∃ unit ∈ text, sought unit.toNat = true := by
  induction text using decode.induct with
  | case1 => simp [decode]
  | case2 => simp [decode]
  | case3 first second rest pair inductionHypothesis =>
      rw [decode, if_pos pair]
      simp only [UInt16.le_iff_toNat_le] at pair
      obtain ⟨leading, -, trailing, -⟩ := pair
      have skipped (codePoint : Nat) (above : 0xD800 ≤ codePoint) :
          ¬sought codePoint = true := fun found =>
        absurd (below codePoint found) (Nat.not_lt.mpr above)
      simp only [List.exists_mem_cons_iff, inductionHypothesis]
      rw [or_iff_right (skipped _ (by omega)),
        or_iff_right (skipped _ leading),
        or_iff_right (skipped _ (Nat.le_trans (by decide) trailing))]
  | case4 first second rest pair inductionHypothesis =>
      rw [decode, if_neg pair]
      simp only [List.exists_mem_cons_iff, inductionHypothesis]

end Decoding

section Pattern

variable {text : List Nat}

/-- Before the end of a line that is not the end of the text there is a line
terminator. -/
theorem rest_eq_nil_of_lineEnding
    {place : Place Nat}
    (dots : ∀ codePoint ∈ place.rest, dot codePoint = true)
    (ends : lineEnding place = true) :
    place.rest = [] := by
  unfold lineEnding at ends
  rw [decide_eq_true_eq] at ends
  by_contra more
  have terminator : ∃ codePoint ∈ place.rest, dot codePoint = false := by
    rcases ends with nothing | both | ⟨feed, -⟩ | single
    · exact absurd nothing more
    · rw [both]
      exact ⟨0x0D, by simp, by decide⟩
    · rw [feed]
      exact ⟨0x0A, by simp, by decide⟩
    · simp only [List.mem_cons, List.not_mem_nil, or_false] at single
      rcases single with same | same | same | same <;> rw [same]
      · exact ⟨0x0D, by simp, by decide⟩
      · exact ⟨0x85, by simp, by decide⟩
      · exact ⟨0x2028, by simp, by decide⟩
      · exact ⟨0x2029, by simp, by decide⟩
  obtain ⟨codePoint, present, not_dot⟩ := terminator
  rw [dots codePoint present] at not_dot
  cases not_dot

/-- `.{8,}$` over the whole text. -/
theorem moves_dots_iff :
    (∃ behind, Regex.Moves lineEnding (.seq (.atLeast 8 dot) .finish)
        ⟨[], text⟩ ⟨behind, []⟩) ↔
      8 ≤ text.length ∧ ∀ codePoint ∈ text, dot codePoint = true := by
  constructor
  · rintro ⟨behind, moves⟩
    obtain ⟨middle, read, ended⟩ := Regex.moves_seq_iff.mp moves
    obtain ⟨rfl, -⟩ := Regex.moves_finish_iff.mp ended
    obtain ⟨taken, rest, whole, enough, dots, same⟩ :=
      Regex.moves_atLeast_iff.mp read
    obtain ⟨-, rfl⟩ := Place.mk.injEq _ _ _ _ ▸ same
    rw [List.append_nil] at whole
    change text = taken at whole
    rw [whole]
    exact ⟨enough, dots⟩
  · rintro ⟨enough, dots⟩
    have taken : Regex.Moves lineEnding (.atLeast 8 dot) ⟨[], text ++ []⟩ _ :=
      .atLeast 8 [] [] enough dots
    rw [List.append_nil] at taken
    exact ⟨_, .seq taken (.finish rfl)⟩

/-- `(?=\S+$)` at the start of a text without a line terminator. -/
theorem moves_notSpace_iff
    (dots : ∀ codePoint ∈ text, dot codePoint = true) :
    (∃ other, Regex.Moves lineEnding (.seq (.atLeast 1 notSpace) .finish)
        ⟨[], text⟩ other) ↔
      1 ≤ text.length ∧ ∀ codePoint ∈ text, notSpace codePoint = true := by
  constructor
  · rintro ⟨other, moves⟩
    obtain ⟨middle, read, ended⟩ := Regex.moves_seq_iff.mp moves
    obtain ⟨rfl, ends⟩ := Regex.moves_finish_iff.mp ended
    obtain ⟨taken, rest, whole, enough, accepted, rfl⟩ :=
      Regex.moves_atLeast_iff.mp read
    change text = taken ++ rest at whole
    have last : rest = [] := rest_eq_nil_of_lineEnding
      (fun codePoint present => dots codePoint (by
        rw [whole]
        exact List.mem_append_right _ present)) ends
    rw [last, List.append_nil] at whole
    rw [whole]
    exact ⟨enough, accepted⟩
  · rintro ⟨enough, accepted⟩
    have taken :
        Regex.Moves lineEnding (.atLeast 1 notSpace) ⟨[], text ++ []⟩ _ :=
      .atLeast 1 [] [] enough accepted
    rw [List.append_nil] at taken
    exact ⟨_, .seq taken (.finish rfl)⟩

/-- The expression over the whole text: every look-ahead is answered somewhere in
a text that has no line terminator. -/
theorem moves_PASS_PATTERN_iff :
    (∃ behind, Regex.Moves lineEnding PASS_PATTERN ⟨[], text⟩ ⟨behind, []⟩) ↔
      (∃ codePoint ∈ text, range 48 57 codePoint = true) ∧
        (∃ codePoint ∈ text, range 97 122 codePoint = true) ∧
        (∃ codePoint ∈ text, range 65 90 codePoint = true) ∧
        (∃ codePoint ∈ text, special codePoint = true) ∧
        (∀ codePoint ∈ text,
          dot codePoint = true ∧ notSpace codePoint = true) ∧
        8 ≤ text.length := by
  unfold PASS_PATTERN
  simp only [Regex.moves_start_seq_iff, somewhere, Regex.moves_ahead_seq_iff,
    true_and, exists_and_left, moves_dots_iff]
  constructor
  · rintro ⟨digit, lower, upper, sign, bare, enough, dots⟩
    rw [Regex.moves_search_iff dots] at digit lower upper sign
    rw [moves_notSpace_iff dots] at bare
    exact ⟨digit, lower, upper, sign,
      fun codePoint present => ⟨dots _ present, bare.2 _ present⟩, enough⟩
  · rintro ⟨digit, lower, upper, sign, all, enough⟩
    have dots (codePoint : Nat) (present : codePoint ∈ text) :
        dot codePoint = true := (all codePoint present).1
    rw [Regex.moves_search_iff dots, Regex.moves_search_iff dots,
      Regex.moves_search_iff dots, Regex.moves_search_iff dots,
      moves_notSpace_iff dots]
    exact ⟨digit, lower, upper, sign,
      ⟨Nat.le_trans (by decide) enough, fun codePoint present =>
        (all codePoint present).2⟩, enough, dots⟩

end Pattern

section Units

variable {text : JString}

/-- A range of ASCII among the units of a text. -/
theorem any_range_iff
    {first last : UInt16}
    (ascii : last.toNat < 0xD800) :
    (∃ codePoint ∈ decode text,
        range first.toNat last.toNat codePoint = true) ↔
      text.any (fun unit => first ≤ unit ∧ unit ≤ last) = true := by
  rw [exists_mem_decode_iff, List.any_eq_true]
  · simp only [range, decide_eq_true_eq, UInt16.le_iff_toNat_le]
  · intro codePoint found
    exact Nat.lt_of_le_of_lt (of_decide_eq_true found).2 ascii

/-- The special characters among the units of a text. -/
theorem any_special_iff :
    (∃ codePoint ∈ decode text, special codePoint = true) ↔
      text.any (fun unit => unit ∈ jstr "@#$%^&+=!") = true := by
  rw [exists_mem_decode_iff, List.any_eq_true]
  · simp only [special, decide_eq_true_eq, List.mem_map, UInt16.toNat_inj,
      exists_eq_right]
  · intro codePoint found
    obtain ⟨unit, present, rfl⟩ := List.mem_map.mp (of_decide_eq_true found)
    have ascii : ((jstr "@#$%^&+=!").all fun unit => unit.toNat < 0xD800) =
        true := by
      decide
    exact of_decide_eq_true (List.all_eq_true.mp ascii unit present)

/-- No white space and no line terminator, among code points and units. -/
theorem all_bare_iff :
    (∀ codePoint ∈ decode text,
        dot codePoint = true ∧ notSpace codePoint = true) ↔
      text.all (fun unit => !whiteSpace unit) = true := by
  have some_blank := @exists_mem_decode_iff text
    (fun codePoint => !(dot codePoint && notSpace codePoint)) (by
      intro codePoint found
      simp only [dot, notSpace, Bool.not_eq_true', Bool.and_eq_false_iff,
        decide_eq_false_iff_not, List.mem_cons, List.not_mem_nil,
        or_false] at found
      omega)
  rw [← not_iff_not] at some_blank
  push Not at some_blank
  simp only [Bool.not_eq_true', Bool.not_eq_false, Bool.and_eq_true,
    ne_eq] at some_blank
  rw [some_blank, List.all_eq_true]
  refine forall₂_congr fun unit _ => ?_
  -- every line terminator is white space
  simp only [dot, notSpace, whiteSpace, decide_eq_true_eq,
    decide_eq_false_iff_not, Bool.not_eq_true', List.mem_cons,
    List.not_mem_nil, or_false, UInt16.le_iff_toNat_le, ← UInt16.toNat_inj]
  simp only [UInt16.toNat_ofNat]
  omega

/-- The check of the password agrees with the expression. -/
theorem matcherMatches_eq
    (text : JString) :
    matcherMatches text = PASSWORD_PATTERN text := by
  rw [Bool.eq_iff_iff, matcherMatches, Regex.matchesAll_iff,
    moves_PASS_PATTERN_iff, length_decode, all_bare_iff, any_special_iff]
  have digit : (∃ codePoint ∈ decode text, range 48 57 codePoint = true) ↔ _ :=
    @any_range_iff text 48 57 (by decide)
  have lower : (∃ codePoint ∈ decode text, range 97 122 codePoint = true) ↔ _ :=
    @any_range_iff text 97 122 (by decide)
  have upper : (∃ codePoint ∈ decode text, range 65 90 codePoint = true) ↔ _ :=
    @any_range_iff text 65 90 (by decide)
  rw [digit, lower, upper]
  unfold PASSWORD_PATTERN
  simp only [Bool.and_eq_true, decide_eq_true_eq, and_assoc]

end Units

/-- The expression matches the trimmed text. -/
def Strong (text : JString) : Prop :=
  matcherMatches (trim text) = true

instance : DecidablePred Strong := fun text =>
  inferInstanceAs (Decidable (matcherMatches (trim text) = true))

/-- Every password in the table is strong, and a name in the preferences has a
strong password beside it. -/
structure StrongPasswords (state : State) : Prop where
  rows : ∀ row ∈ state.table.rows, Strong row.pass
  stored : ∀ username, state.prefs.username = some username →
    ∃ password, state.prefs.password = some password ∧ Strong password

/-- The password with which a request can change the state: a new one is strong,
and one that signs in is in the table. -/
def Brings (state : State) : Event → Prop
  | .signUp _ _ password _ _ => Strong password
  | .signIn _ password => ∃ row ∈ state.table.rows, row.pass = trim password
  | .saveNewPassword _ new _ => Strong new
  | .attemptReset _ password _ => Strong password
  | _ => True

section Requests

variable {EMAIL_ADDRESS : JString → Bool}
variable {state next : State}

theorem strong_of_pattern
    {text : JString}
    (matched : ¬(!PASSWORD_PATTERN (trim text)) = true) :
    Strong text := by
  rw [Bool.not_eq_true', Bool.not_eq_false] at matched
  rw [Strong, matcherMatches_eq, matched]

@[simp] theorem strong_trim
    {text : JString} :
    Strong (trim text) ↔ Strong text := by
  rw [Strong, Strong, trim_trim]

/-- A sign-up is accepted for a strong password alone. -/
theorem strong_of_validateFields
    {username email password repeated : JString}
    {defaultAvatar : List UInt8}
    (accepted : validateFields EMAIL_ADDRESS state username email password
      repeated defaultAvatar = .ok next) :
    Strong password := by
  have checked : validatePassword password = .ok () := by
    unfold validateFields at accepted
    cases named : validateUsername username with
    | error => simp [named, bind, Except.bind] at accepted
    | ok =>
      cases mailed : validateEmail EMAIL_ADDRESS state.table email with
      | error => simp [named, mailed, bind, Except.bind] at accepted
      | ok =>
        cases checked : validatePassword password with
        | error => simp [named, mailed, checked, bind, Except.bind] at accepted
        | ok => rfl
  unfold validatePassword at checked
  dsimp only at checked
  split at checked
  case isTrue => cases checked
  case isFalse =>
    split at checked
    case isTrue => cases checked
    case isFalse matched => exact strong_of_pattern matched

/-- Settings store a strong password or nothing. -/
theorem strong_or_kept_of_saveNewPassword
    (state : State)
    (current old new confirm : JString) :
    state.orKeep (saveNewPassword state current old new confirm) = state ∨
      Strong new := by
  unfold saveNewPassword
  dsimp only
  split
  · exact Or.inl rfl
  · split
    case isTrue => exact Or.inl rfl
    case isFalse matched => exact Or.inr (strong_of_pattern matched)

/-- A reset stores a strong password or nothing. -/
theorem strong_or_kept_of_attemptReset
    (EMAIL_ADDRESS : JString → Bool)
    (state : State)
    (email password confirm : JString) :
    state.orKeep (attemptReset EMAIL_ADDRESS state email password confirm) =
        state ∨
      Strong password := by
  unfold attemptReset
  dsimp only
  split
  · exact Or.inl rfl
  split
  · exact Or.inl rfl
  split
  · exact Or.inl rfl
  split
  · exact Or.inl rfl
  split
  case isTrue => exact Or.inl rfl
  case isFalse matched => exact Or.inr (strong_of_pattern matched)

/-- A request without such a password changes nothing. -/
theorem same_or_brings_of_step
    {event : Event}
    (fired : step EMAIL_ADDRESS state event = some next) :
    next = state ∨ Brings state event := by
  cases event with
  | signUp username email password repeated defaultAvatar =>
      cases fired
      cases accepted : validateFields EMAIL_ADDRESS state username email
          password repeated defaultAvatar with
      | error error => exact Or.inl rfl
      | ok after => exact Or.inr (strong_of_validateFields accepted)
  | signIn username password =>
      cases fired
      cases accepted : signIn state username password with
      | error error => exact Or.inl rfl
      | ok after =>
          obtain ⟨row, present, -, same⟩ := signIn_isOk_iff.mp
            (show (signIn state username password).isOk = true by
              rw [accepted]
              rfl)
          exact Or.inr ⟨row, present, same⟩
  | saveNewPassword old new confirm =>
      obtain ⟨current, -, rfl⟩ := Option.map_eq_some_iff.mp fired
      exact strong_or_kept_of_saveNewPassword state current old new confirm
  | attemptReset email password confirm =>
      cases fired
      exact strong_or_kept_of_attemptReset EMAIL_ADDRESS state email password
        confirm
  | logOut | saveNewUsername | updateProfilePicture | deleteAccount =>
      exact Or.inr trivial

end Requests

section Runs

variable {EMAIL_ADDRESS : JString → Bool}
variable {state next finish : State}
variable {event : Event}
variable {events : List Event}

/-- An update that writes a strong password, or none. -/
theorem strong_of_mem_update
    {rows : List User}
    {column : User → JString}
    {value : JString}
    {change : User → User}
    (strong : ∀ row ∈ rows, Strong row.pass)
    (written : ∀ row ∈ rows, Strong (change row).pass) :
    ∀ row ∈ Table.update rows column value change, Strong row.pass := by
  intro row present
  obtain ⟨old, inside, rfl⟩ := List.mem_map.mp present
  split
  · exact written old inside
  · exact strong old inside

/-- A request keeps the passwords strong. -/
theorem strongPasswords_step
    (strong : StrongPasswords state)
    (fired : step EMAIL_ADDRESS state event = some next) :
    StrongPasswords next := by
  rcases same_or_brings_of_step fired with rfl | brings
  · exact strong
  cases makes_of_step fired with
  | nothing => exact strong
  | account username email password repeated defaultAvatar =>
      refine ⟨?_, fun _ _ => ⟨password, rfl, brings⟩⟩
      intro row present
      unfold UsersTable.insertUser at present
      split at present
      · exact strong.rows row present
      · rcases List.mem_append.mp present with old | new
        · exact strong.rows row old
        · rw [List.mem_singleton.mp new]
          exact brings
  | session username password =>
      obtain ⟨row, present, same⟩ := brings
      refine ⟨strong.rows, fun _ _ => ⟨trim password, rfl, ?_⟩⟩
      rw [← same]
      exact strong.rows row present
  | noSession => exact ⟨strong.rows, fun _ none => nomatch none⟩
  | name current input signedIn =>
      obtain ⟨password, stored, known⟩ := strong.stored current signedIn
      refine ⟨strong_of_mem_update strong.rows strong.rows, fun _ _ => ?_⟩
      refine ⟨password, ?_, known⟩
      change some (state.prefs.password.getD []) = some password
      rw [stored, Option.getD_some]
  | password current old new confirm =>
      have written : Strong (trim new) := strong_trim.mpr brings
      exact ⟨strong_of_mem_update strong.rows fun _ _ => written,
        fun _ _ => ⟨trim new, rfl, written⟩⟩
  | reset email password confirm =>
      have written : Strong (trim password) := strong_trim.mpr brings
      exact ⟨strong_of_mem_update strong.rows fun _ _ => written,
        strong.stored⟩
  | picture =>
      exact ⟨strong_of_mem_update strong.rows strong.rows, strong.stored⟩
  | deletion =>
      exact ⟨fun row present => strong.rows row (List.mem_of_mem_filter present),
        strong.stored⟩

/-- From the empty table and nobody signed in, every password that is stored
matches the expression when it is trimmed. -/
theorem strongPasswords_of_run
    {prefs : Prefs}
    (nobody : prefs.username = none)
    (ran : (machine EMAIL_ADDRESS).run { prefs := prefs } events =
      some finish) :
    StrongPasswords finish := by
  apply Transition.Machine.run_invariant
    (fun _ _ _ strong fired => strongPasswords_step strong fired) ran
  refine ⟨fun row present => absurd present List.not_mem_nil, ?_⟩
  intro username named
  rw [nobody] at named
  cases named

/-- A weak password is refused in Settings, and a strong one with white space at
its ends is taken in the sign-up. -/
theorem strongPasswords_of_refused_password :
    ∃ finish,
      (machine hasAtSign).run {}
        [.signUp (jstr "ann") (jstr "ann@mail.com") (jstr " Abcdef1! ")
            (jstr "Abcdef1!") [],
          .saveNewPassword (jstr " Abcdef1! ") (jstr "abcdef1!")
            (jstr "abcdef1!"),
          .attemptReset (jstr "ann@mail.com") (jstr "Abc def2!")
            (jstr "Abc def2!")] = some finish ∧
      finish.table.rows.map User.pass = [jstr " Abcdef1! "] ∧
      finish.prefs.password = some (jstr " Abcdef1! ") ∧
      StrongPasswords finish := by
  obtain ⟨finish, ran, seen⟩ := Option.map_eq_some_iff.mp
    (show ((machine hasAtSign).run {}
        [.signUp (jstr "ann") (jstr "ann@mail.com") (jstr " Abcdef1! ")
            (jstr "Abcdef1!") [],
          .saveNewPassword (jstr " Abcdef1! ") (jstr "abcdef1!")
            (jstr "abcdef1!"),
          .attemptReset (jstr "ann@mail.com") (jstr "Abc def2!")
            (jstr "Abc def2!")]).map
        (fun finish => (finish.table.rows.map User.pass,
          finish.prefs.password)) =
      some ([jstr " Abcdef1! "], some (jstr " Abcdef1! ")) by decide +kernel)
  simp only [Prod.mk.injEq] at seen
  exact ⟨finish, ran, seen.1, seen.2, strongPasswords_of_run rfl ran⟩

end Runs

end Accounts
end IdoProject
