import IdoProject.Llama.Reassembly

/-!
# What the UTF-8 check accepts

`is_valid_utf8` tells from its first byte how long a form is, and looks of the
bytes that follow only at whether they continue a form.  It reads a C string up
to its terminating zero and no further.  It accepts every well-formed text, and
besides it what is cut into forms of which some encode no character: overlong
forms, forms of surrogates and forms of numbers above U+10FFFF.
-/

namespace IdoProject
namespace Llama

open Syntax

/-- `is_valid_utf8` on the memory from a pointer on, with so many continuation
bytes outstanding: its result, and the number of bytes it reads.  It is `none`
where a byte behind the end of the memory is read. -/
def isValidAt : Nat → List UInt8 → Option (Bool × Nat)
  | _, [] => none
  | 0, byte :: memory =>
      if byte = 0x00 then some (true, 1)
      else match sequenceLength byte with
        | some num =>
            (isValidAt (num - 1) memory).map fun (valid, read) =>
              (valid, read + 1)
        | none => some (false, 1)
  | outstanding + 1, byte :: memory =>
      if byte &&& 0xC0 = 0x80 then
        (isValidAt outstanding memory).map fun (valid, read) =>
          (valid, read + 1)
      else some (false, 1)

/-- A form that encodes no character, by its first two bytes: an overlong form,
a surrogate, or a number above U+10FFFF. -/
def encodesNothing : List UInt8 → Bool
  | [lead, _] => lead < 0xC2
  | [lead, second, _] =>
      (lead = 0xE0 && second < 0xA0) || (lead = 0xED && 0xA0 ≤ second)
  | [lead, second, _, _] =>
      (lead = 0xF0 && second < 0x90) || (lead = 0xF4 && 0x90 ≤ second) ||
        0xF4 < lead
  | _ => false

/-- The bytes are forms of one to four bytes one after the other, and one of
the forms encodes no character. -/
def HasEmptyForm (bytes : List UInt8) : Prop :=
  ∃ words : List (List UInt8), words.flatten = bytes ∧
    (∀ word ∈ words, utf8.IsWord word) ∧
    ∃ word ∈ words, encodesNothing word = true

/-! ## Reading memory -/

/-- The check of a terminated string ends at the terminator at the latest. -/
theorem exists_isValidAt
    {owed : Nat}
    {bytes : List UInt8}
    (beyond : List UInt8)
    (terminated : 0 ∉ bytes) :
    ∃ read ≤ bytes.length + 1,
      isValidAt owed (bytes ++ 0 :: beyond) =
        some (isValidFrom owed bytes, read) := by
  induction bytes generalizing owed with
  | nil =>
      refine ⟨1, Nat.le_refl _, ?_⟩
      cases owed <;> simp [isValidAt, isValidFrom]
  | cons byte bytes inductionHypothesis =>
      rw [List.mem_cons, not_or] at terminated
      obtain ⟨other, terminated⟩ := terminated
      rw [List.cons_append, List.length_cons]
      cases owed with
      | zero =>
          rw [isValidAt, isValidFrom, if_neg (Ne.symm other),
            if_neg (Ne.symm other)]
          cases sequenceLength byte with
          | none => exact ⟨1, Nat.le_add_left _ _, rfl⟩
          | some num =>
              obtain ⟨read, bound, result⟩ :=
                @inductionHypothesis (num - 1) terminated
              refine ⟨read + 1, Nat.succ_le_succ bound, ?_⟩
              dsimp only
              rw [result, Option.map_some]
      | succ owed =>
          rw [isValidAt, isValidFrom]
          by_cases follows : byte &&& 0xC0 = 0x80
          case neg =>
            refine ⟨1, Nat.le_add_left _ _, ?_⟩
            rw [if_neg follows, decide_eq_false follows, Bool.false_and]
          case pos =>
            obtain ⟨read, bound, result⟩ :=
              @inductionHypothesis owed terminated
            refine ⟨read + 1, Nat.succ_le_succ bound, ?_⟩
            rw [if_pos follows, result, Option.map_some,
              decide_eq_true follows, Bool.true_and]

/-! ## Forms and characters -/

theorem sequenceLength_ofNat :
    ∀ count < 0x100, sequenceLength (UInt8.ofNat count) =
      if count < 0x80 then some 1
      else if count < 0xC0 then none
      else if count < 0xE0 then some 2
      else if count < 0xF0 then some 3
      else if count < 0xF8 then some 4
      else none := by
  decide +kernel

theorem continues_ofNat_iff :
    ∀ count < 0x100, utf8.continues (UInt8.ofNat count) = true ↔
      0x80 ≤ count ∧ count < 0xC0 := by
  decide +kernel

/-- A byte that continues a form. -/
theorem toNat_of_continues
    {byte : UInt8}
    (follows : utf8.continues byte = true) :
    0x80 ≤ byte.toNat ∧ byte.toNat < 0xC0 := by
  rw [← UInt8.ofNat_toNat (x := byte)] at follows
  exact (continues_ofNat_iff _ byte.toNat_lt).mp follows

/-- A byte that begins a form. -/
theorem sequenceLength_eq
    (byte : UInt8) :
    sequenceLength byte =
      if byte.toNat < 0x80 then some 1
      else if byte.toNat < 0xC0 then none
      else if byte.toNat < 0xE0 then some 2
      else if byte.toNat < 0xF0 then some 3
      else if byte.toNat < 0xF8 then some 4
      else none := by
  have all := sequenceLength_ofNat byte.toNat byte.toNat_lt
  rwa [UInt8.ofNat_toNat] at all

/-- A character of a number. -/
theorem exists_char
    {count : Nat}
    (valid : count < 0xD800 ∨ 0xDFFF < count ∧ count < 0x110000) :
    ∃ char : Char, char.val.toNat = count :=
  ⟨Char.ofNatAux count valid, rfl⟩

/-- No encoding is one of the forms that encode nothing. -/
theorem encodesNothing_utf8EncodeChar
    (char : Char) :
    encodesNothing (String.utf8EncodeChar char) = false := by
  have valid : char.val.toNat < 0xD800 ∨
    0xDFFF < char.val.toNat ∧ char.val.toNat < 0x110000 := char.valid
  unfold String.utf8EncodeChar
  dsimp only
  split
  case isTrue => rfl
  split
  case isTrue =>
    simp only [encodesNothing, UInt8.lt_iff_toNat_lt, decide_eq_false_iff_not,
      UInt8.toNat_ofNat', UInt8.reduceToNat]
    omega
  split
  case isTrue =>
    simp only [encodesNothing, UInt8.lt_iff_toNat_lt, UInt8.le_iff_toNat_le,
      ← UInt8.toNat_inj, Bool.or_eq_false_iff, Bool.and_eq_false_iff,
      decide_eq_false_iff_not, UInt8.toNat_ofNat', UInt8.reduceToNat]
    omega
  case isFalse =>
    simp only [encodesNothing, UInt8.lt_iff_toNat_lt, UInt8.le_iff_toNat_le,
      ← UInt8.toNat_inj, Bool.or_eq_false_iff, Bool.and_eq_false_iff,
      decide_eq_false_iff_not, UInt8.toNat_ofNat', UInt8.reduceToNat]
    omega

/-- Every other form encodes a character. -/
theorem exists_utf8EncodeChar
    {word : List UInt8}
    (isWord : utf8.IsWord word)
    (encodes : encodesNothing word = false) :
    ∃ char : Char, String.utf8EncodeChar char = word := by
  obtain ⟨lead, following, rfl, announced, follow⟩ := isWord
  obtain ⟨num, length, total⟩ := Option.map_eq_some_iff.mp announced
  rw [sequenceLength_eq] at length
  have small := lead.toNat_lt
  split at length
  case isTrue one =>
    cases length
    obtain rfl := List.eq_nil_of_length_eq_zero total.symm
    obtain ⟨char, number⟩ := @exists_char lead.toNat (by omega)
    refine ⟨char, ?_⟩
    unfold String.utf8EncodeChar
    dsimp only
    rw [number, if_pos (by omega), UInt8.ofNat_toNat]
  split at length
  case isTrue => cases length
  split at length
  case isTrue two =>
    cases length
    obtain ⟨second, rfl⟩ := List.length_eq_one_iff.mp total.symm
    have later := toNat_of_continues (follow second (by simp))
    simp only [encodesNothing, UInt8.lt_iff_toNat_lt, decide_eq_false_iff_not,
      UInt8.reduceToNat] at encodes
    obtain ⟨char, number⟩ := @exists_char
      ((lead.toNat - 0xC0) * 0x40 + (second.toNat - 0x80)) (by omega)
    refine ⟨char, ?_⟩
    unfold String.utf8EncodeChar
    dsimp only
    rw [number, if_neg (by omega), if_pos (by omega)]
    simp only [List.cons.injEq, ← UInt8.toNat_inj, UInt8.toNat_ofNat', and_true]
    omega
  split at length
  case isTrue three =>
    cases length
    obtain ⟨second, third, rfl⟩ := List.length_eq_two.mp total.symm
    have later := toNat_of_continues (follow second (by simp))
    have last := toNat_of_continues (follow third (by simp))
    simp only [encodesNothing, UInt8.lt_iff_toNat_lt, UInt8.le_iff_toNat_le,
      ← UInt8.toNat_inj, Bool.or_eq_false_iff, Bool.and_eq_false_iff,
      decide_eq_false_iff_not, UInt8.reduceToNat] at encodes
    obtain ⟨char, number⟩ := @exists_char
      ((lead.toNat - 0xE0) * 0x1000 + (second.toNat - 0x80) * 0x40 +
        (third.toNat - 0x80)) (by omega)
    refine ⟨char, ?_⟩
    unfold String.utf8EncodeChar
    dsimp only
    rw [number, if_neg (by omega), if_neg (by omega), if_pos (by omega)]
    simp only [List.cons.injEq, ← UInt8.toNat_inj, UInt8.toNat_ofNat', and_true]
    omega
  split at length
  case isTrue four =>
    cases length
    obtain ⟨second, third, fourth, rfl⟩ := List.length_eq_three.mp total.symm
    have later := toNat_of_continues (follow second (by simp))
    have next := toNat_of_continues (follow third (by simp))
    have last := toNat_of_continues (follow fourth (by simp))
    simp only [encodesNothing, UInt8.lt_iff_toNat_lt, UInt8.le_iff_toNat_le,
      ← UInt8.toNat_inj, Bool.or_eq_false_iff, Bool.and_eq_false_iff,
      decide_eq_false_iff_not, UInt8.reduceToNat] at encodes
    obtain ⟨char, number⟩ := @exists_char
      ((lead.toNat - 0xF0) * 0x40000 + (second.toNat - 0x80) * 0x1000 +
        (third.toNat - 0x80) * 0x40 + (fourth.toNat - 0x80)) (by omega)
    refine ⟨char, ?_⟩
    unfold String.utf8EncodeChar
    dsimp only
    rw [number, if_neg (by omega), if_neg (by omega), if_neg (by omega)]
    simp only [List.cons.injEq, ← UInt8.toNat_inj, UInt8.toNat_ofNat', and_true]
    omega
  case isFalse => cases length

/-! ## What is accepted -/

/-- A well-formed text has no form that encodes nothing. -/
theorem not_hasEmptyForm_of_wellFormed
    {bytes : List UInt8}
    (wellFormed : WellFormed bytes) :
    ¬HasEmptyForm bytes := by
  rintro ⟨words, equal, areWords, word, member, empty⟩
  obtain ⟨chars, encoded⟩ := wellFormed
  rw [List.flatMap_def, ← equal] at encoded
  obtain rfl := LeadCode.words_unique
    (fun word member => isWord_of_mem_encodings member) areWords encoded
  obtain ⟨char, -, rfl⟩ := List.mem_map.mp member
  rw [encodesNothing_utf8EncodeChar] at empty
  cases empty

/-- Forms that encode a character each make up a well-formed text. -/
theorem wellFormed_flatten
    {words : List (List UInt8)}
    (areWords : ∀ word ∈ words, utf8.IsWord word)
    (encode : ∀ word ∈ words, encodesNothing word = false) :
    WellFormed words.flatten := by
  induction words with
  | nil => exact ⟨[], rfl⟩
  | cons word words inductionHypothesis =>
      rw [List.forall_mem_cons] at areWords encode
      obtain ⟨chars, encoded⟩ := inductionHypothesis areWords.2 encode.2
      obtain ⟨char, equal⟩ := exists_utf8EncodeChar areWords.1 encode.1
      refine ⟨char :: chars, ?_⟩
      rw [List.flatMap_cons, equal, encoded, List.flatten_cons]

/-- What the check accepts is well-formed exactly when it has no form that
encodes nothing. -/
theorem isValidFrom_iff_wellFormed_iff
    {bytes : List UInt8}
    (terminated : 0 ∉ bytes) :
    (isValidFrom 0 bytes = true ↔ WellFormed bytes) ↔
      ¬HasEmptyForm bytes := by
  rw [isValidFrom_eq_true_iff, cStr_eq_self terminated,
    LeadCode.scan_eq_zero_iff]
  constructor
  · intro agrees empty
    obtain ⟨words, equal, areWords, -⟩ := id empty
    exact not_hasEmptyForm_of_wellFormed
      (agrees.mp ⟨words, areWords, equal⟩) empty
  · intro noEmpty
    constructor
    · rintro ⟨words, areWords, rfl⟩
      apply wellFormed_flatten areWords
      intro word member
      rw [← Bool.not_eq_true]
      intro empty
      exact noEmpty ⟨words, rfl, areWords, word, member, empty⟩
    · rintro ⟨chars, rfl⟩
      refine ⟨chars.map String.utf8EncodeChar, ?_, List.flatMap_def.symm⟩
      exact fun word member => isWord_of_mem_encodings member

/-- On every terminated string `is_valid_utf8` returns, without a look behind
the terminator.  Its result tells whether the bytes before the terminator are
well-formed exactly when they are not cut into forms one of which encodes
nothing. -/
theorem isValidAt_exact_iff
    (bytes beyond : List UInt8)
    (terminated : 0 ∉ bytes) :
    ∃ valid read, isValidAt 0 (bytes ++ 0 :: beyond) = some (valid, read) ∧
      read ≤ bytes.length + 1 ∧
      ((valid = true ↔ WellFormed bytes) ↔ ¬HasEmptyForm bytes) := by
  obtain ⟨read, bound, result⟩ := @exists_isValidAt 0 bytes beyond terminated
  exact ⟨_, read, result, bound, isValidFrom_iff_wellFormed_iff terminated⟩

/-- The form of a surrogate is accepted, although it encodes nothing. -/
theorem isValidAt_surrogate :
    isValidAt 0 ([0xED, 0xA0, 0x80] ++ 0 :: []) = some (true, 4) ∧
      ¬WellFormed [0xED, 0xA0, 0x80] := by
  refine ⟨by decide, ?_⟩
  intro wellFormed
  apply not_hasEmptyForm_of_wellFormed wellFormed
  refine ⟨[[0xED, 0xA0, 0x80]], rfl, ?_, _, List.mem_singleton_self _, rfl⟩
  rw [List.forall_mem_singleton]
  exact ⟨0xED, [0xA0, 0x80], rfl, by decide, List.forall_mem_cons.mpr
    ⟨by decide, List.forall_mem_singleton.mpr (by decide)⟩⟩

/-- The euro sign, with other memory behind the terminator. -/
theorem isValidAt_exact_iff_euro :
    ∃ valid read,
      isValidAt 0 ([0xE2, 0x82, 0xAC] ++ 0 :: [0xFF]) = some (valid, read) ∧
      read ≤ 4 ∧
      ((valid = true ↔ WellFormed [0xE2, 0x82, 0xAC]) ↔
        ¬HasEmptyForm [0xE2, 0x82, 0xAC]) :=
  isValidAt_exact_iff [0xE2, 0x82, 0xAC] [0xFF] (by decide)

end Llama
end IdoProject
