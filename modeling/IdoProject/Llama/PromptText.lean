import IdoProject.Llama.Utf8Check

/-!
# The text of the prompt

`LLamaAndroid.send` passes a Java string to `completion_init`, and
`GetStringUTFChars` makes a C string of it for the tokenizer.  The C string is
modified UTF-8: every UTF-16 code unit is encoded by itself, and U+0000 as two
bytes.  It is UTF-8 exactly when the text has neither U+0000 nor a character
above U+FFFF.
-/

namespace IdoProject
namespace Llama

open Java Syntax

/-- Modified UTF-8 of one code unit. -/
def modifiedUtf8 (unit : JChar) : List UInt8 :=
  let v := unit.toNat
  if 0x01 ≤ v ∧ v ≤ 0x7F then [UInt8.ofNat v]
  else if v ≤ 0x7FF then
    [UInt8.ofNat (v / 0x40 + 0xC0), UInt8.ofNat (v % 0x40 + 0x80)]
  else
    [UInt8.ofNat (v / 0x1000 + 0xE0), UInt8.ofNat (v / 0x40 % 0x40 + 0x80),
      UInt8.ofNat (v % 0x40 + 0x80)]

/-- The bytes before the terminator of what `GetStringUTFChars` returns. -/
def getStringUTFChars (text : JString) : List UInt8 :=
  text.flatMap modifiedUtf8

/-- The text that `common_tokenize` is given in `completion_init`. -/
def tokenizedText (jtext : JString) : List UInt8 :=
  cStr (getStringUTFChars jtext ++ [0])

/-- A unit that stands for a character by itself, and is not U+0000. -/
def isPlain (unit : JChar) : Bool :=
  unit ≠ 0 && (unit < 0xD800 || 0xDFFF < unit)

/-! ## One code unit -/

/-- No code unit is encoded with a zero byte. -/
theorem zero_notMem_modifiedUtf8
    (unit : JChar) :
    0 ∉ modifiedUtf8 unit := by
  have small := unit.toNat_lt
  unfold modifiedUtf8
  dsimp only
  split
  case isTrue one =>
    simp only [List.mem_singleton, ← UInt8.toNat_inj, UInt8.toNat_ofNat',
      UInt8.reduceToNat]
    omega
  split
  case isTrue two =>
    simp only [List.mem_cons, List.not_mem_nil, or_false, ← UInt8.toNat_inj,
      UInt8.toNat_ofNat', UInt8.reduceToNat]
    omega
  case isFalse =>
    simp only [List.mem_cons, List.not_mem_nil, or_false, ← UInt8.toNat_inj,
      UInt8.toNat_ofNat', UInt8.reduceToNat]
    omega

theorem tokenizedText_eq
    (text : JString) :
    tokenizedText text = getStringUTFChars text := by
  have nonzero : ∀ byte ∈ getStringUTFChars text, byte ≠ 0 := by
    intro byte member
    obtain ⟨unit, -, among⟩ := List.mem_flatMap.mp member
    rintro rfl
    exact zero_notMem_modifiedUtf8 unit among
  rw [tokenizedText, cStr, List.takeWhile_append_of_pos]
  · simp
  · simpa using nonzero

/-- Every code unit is encoded by one form. -/
theorem isWord_modifiedUtf8
    (unit : JChar) :
    utf8.IsWord (modifiedUtf8 unit) := by
  have follows (count : Nat) :
      utf8.continues (UInt8.ofNat (count % 0x40 + 0x80)) = true :=
    continues_ofNat _ (Nat.mod_lt _ (by omega))
  have small := unit.toNat_lt
  unfold modifiedUtf8
  dsimp only
  split
  case isTrue one =>
    refine ⟨_, [], rfl, announces_of_sequenceLength ?_, by simp⟩
    exact sequenceLength_one _ (Nat.lt_succ_of_le one.2)
  split
  case isTrue two =>
    refine ⟨_, [_], rfl, announces_of_sequenceLength ?_, ?_⟩
    · exact sequenceLength_two _ (by omega)
    · exact List.forall_mem_singleton.mpr (follows _)
  case isFalse =>
    refine ⟨_, [_, _], rfl, announces_of_sequenceLength ?_, ?_⟩
    · exact sequenceLength_three _ (by omega)
    · exact List.forall_mem_cons.mpr
        ⟨follows _, List.forall_mem_singleton.mpr (follows _)⟩

theorem isPlain_eq_true_iff
    {unit : JChar} :
    isPlain unit = true ↔
      unit.toNat ≠ 0 ∧ (unit.toNat < 0xD800 ∨ 0xDFFF < unit.toNat) := by
  simp [isPlain, UInt16.lt_iff_toNat_lt, ← UInt16.toNat_inj]

/-- The form of a code unit encodes a character exactly when the unit is
plain. -/
theorem encodesNothing_modifiedUtf8
    (unit : JChar) :
    encodesNothing (modifiedUtf8 unit) = false ↔ isPlain unit = true := by
  have small := unit.toNat_lt
  rw [isPlain_eq_true_iff]
  unfold modifiedUtf8
  dsimp only
  split
  case isTrue one =>
    simp only [encodesNothing, true_iff]
    omega
  split
  case isTrue two =>
    simp only [encodesNothing, decide_eq_false_iff_not,
      UInt8.lt_iff_toNat_lt, UInt8.toNat_ofNat', UInt8.reduceToNat]
    omega
  case isFalse =>
    simp only [encodesNothing, Bool.or_eq_false_iff, Bool.and_eq_false_iff,
      decide_eq_false_iff_not, UInt8.lt_iff_toNat_lt, UInt8.le_iff_toNat_le,
      ← UInt8.toNat_inj, UInt8.toNat_ofNat', UInt8.reduceToNat]
    omega

/-! ## Whole texts -/

/-- What the tokenizer is given is well-formed UTF-8 exactly when every code
unit is plain. -/
theorem wellFormed_tokenizedText_iff
    (text : JString) :
    WellFormed (tokenizedText text) ↔ ∀ unit ∈ text, isPlain unit = true := by
  have areWords : ∀ word ∈ text.map modifiedUtf8, utf8.IsWord word := by
    intro word member
    obtain ⟨unit, -, rfl⟩ := List.mem_map.mp member
    exact isWord_modifiedUtf8 unit
  rw [tokenizedText_eq, getStringUTFChars, List.flatMap_def]
  constructor
  · intro wellFormed unit member
    rw [← encodesNothing_modifiedUtf8, ← Bool.not_eq_true]
    intro empty
    exact not_hasEmptyForm_of_wellFormed wellFormed
      ⟨_, rfl, areWords, _, List.mem_map_of_mem member, empty⟩
  · intro plain
    apply wellFormed_flatten areWords
    intro word member
    obtain ⟨unit, among, rfl⟩ := List.mem_map.mp member
    exact (encodesNothing_modifiedUtf8 unit).mpr (plain unit among)

/-- A character is spelled with plain units exactly when it has a unit of its
own and is not U+0000. -/
theorem plain_unitsOfChar_iff
    (char : Char) :
    (∀ unit ∈ unitsOfChar char, isPlain unit = true) ↔
      char ≠ Char.ofNat 0 ∧ char.toNat < 0x10000 := by
  have valid : char.toNat < 0xD800 ∨
    0xDFFF < char.toNat ∧ char.toNat < 0x110000 := char.valid
  have zero : char = Char.ofNat 0 ↔ char.toNat = 0 := by
    rw [← Char.toNat_inj]
    rfl
  rw [ne_eq, zero]
  unfold unitsOfChar
  split
  case isTrue small =>
    rw [List.forall_mem_singleton, isPlain_eq_true_iff, UInt16.toNat_ofNat']
    omega
  case isFalse large =>
    rw [List.forall_mem_cons, isPlain_eq_true_iff, UInt16.toNat_ofNat']
    omega

/-- A plain unit is encoded as the character it stands for. -/
theorem modifiedUtf8_unitsOfChar
    {char : Char}
    (nonzero : char ≠ Char.ofNat 0)
    (small : char.toNat < 0x10000) :
    (unitsOfChar char).flatMap modifiedUtf8 = String.utf8EncodeChar char := by
  have positive : char.toNat ≠ 0 := by
    intro zero
    exact nonzero (Char.toNat_inj.mp zero)
  have number : char.val.toNat = char.toNat := rfl
  have unit : (UInt16.ofNat char.toNat).toNat = char.toNat := by
    rw [UInt16.toNat_ofNat', Nat.mod_eq_of_lt small]
  rw [unitsOfChar, if_pos small, List.flatMap_singleton]
  unfold modifiedUtf8 String.utf8EncodeChar
  dsimp only
  rw [number, unit]
  by_cases one : char.toNat ≤ 0x7F
  case pos => rw [if_pos ⟨by omega, one⟩, if_pos one]
  case neg =>
    rw [if_neg (fun both => one both.2), if_neg one]
    by_cases two : char.toNat ≤ 0x7FF
    case pos =>
      rw [if_pos two, if_pos two,
        Nat.mod_eq_of_lt (show char.toNat / 0x40 < 0x20 by omega)]
    case neg =>
      rw [if_neg two, if_neg two, if_pos (Nat.le_of_lt_succ small),
        Nat.mod_eq_of_lt (show char.toNat / 0x1000 < 0x10 by omega)]

/-- A strict decoder accepts the well-formed byte strings. -/
theorem isSome_utf8Decode_iff
    {bytes : List UInt8} :
    bytes.toByteArray.utf8Decode?.isSome = true ↔ WellFormed bytes := by
  rw [ByteArray.isSome_utf8Decode?_iff]
  constructor
  · rintro ⟨chars, encoded⟩
    refine ⟨chars, ?_⟩
    have data := congrArg (fun array => array.data.toList) encoded
    dsimp only [List.utf8Encode] at data
    rw [List.toList_data_toByteArray, List.toList_data_toByteArray] at data
    exact data.symm
  · rintro ⟨chars, rfl⟩
    exact ⟨chars, rfl⟩

/-- For every well-formed Java string, what the tokenizer is given is its UTF-8
encoding, is accepted by a strict decoder and is decoded to the string exactly
when the string has neither U+0000 nor a character above U+FFFF. -/
theorem tokenizedText_eq_utf8_iff
    (chars : List Char) :
    (tokenizedText (chars.flatMap unitsOfChar) =
        chars.flatMap String.utf8EncodeChar ∧
      ∃ decoded, (tokenizedText
          (chars.flatMap unitsOfChar)).toByteArray.utf8Decode? = some decoded ∧
        decoded.toList.flatMap unitsOfChar = chars.flatMap unitsOfChar) ↔
      ∀ char ∈ chars, char ≠ Char.ofNat 0 ∧ char.toNat < 0x10000 := by
  constructor
  · rintro ⟨encoded, -⟩ char member
    rw [← plain_unitsOfChar_iff]
    intro unit among
    exact (wellFormed_tokenizedText_iff _).mp ⟨chars, encoded.symm⟩ unit
      (List.mem_flatMap.mpr ⟨char, member, among⟩)
  · intro fine
    have encoded : tokenizedText (chars.flatMap unitsOfChar) =
        chars.flatMap String.utf8EncodeChar := by
      rw [tokenizedText_eq, getStringUTFChars, List.flatMap_assoc]
      apply List.flatMap_congr
      intro char member
      exact modifiedUtf8_unitsOfChar (fine char member).1 (fine char member).2
    refine ⟨encoded, chars.toArray, ?_, rfl⟩
    rw [encoded]
    exact List.utf8Decode?_utf8Encode

/-- A smiley is passed on as two surrogates, which no strict decoder accepts. -/
theorem tokenizedText_smiley :
    tokenizedText (unitsOfChar (Char.ofNat 0x1F600)) =
        [0xED, 0xA0, 0xBD, 0xED, 0xB8, 0x80] ∧
      String.utf8EncodeChar (Char.ofNat 0x1F600) = [0xF0, 0x9F, 0x98, 0x80] ∧
      (tokenizedText (unitsOfChar
        (Char.ofNat 0x1F600))).toByteArray.utf8Decode? = none := by
  refine ⟨by decide, by decide, ?_⟩
  rw [← Option.not_isSome_iff_eq_none, isSome_utf8Decode_iff,
    wellFormed_tokenizedText_iff]
  intro plain
  exact absurd (plain 0xD83D (by decide)) (by decide)

end Llama
end IdoProject
