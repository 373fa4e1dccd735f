import IdoProject.Java.Text

/-!
# Readers and writers of text files

A `FileWriter` and a `FileReader` with UTF-8, and the lines of a
`BufferedReader`.  A text with its surrogates in pairs is read as it was
written; a line ends with a line feed, a carriage return or both.
-/

namespace IdoProject
namespace Java

/-- `Character.isHighSurrogate` -/
def isHighSurrogate (unit : JChar) : Bool :=
  0xD800 ≤ unit && unit ≤ 0xDBFF

/-- `Character.isLowSurrogate` -/
def isLowSurrogate (unit : JChar) : Bool :=
  0xDC00 ≤ unit && unit ≤ 0xDFFF

/-- `Character.toCodePoint` -/
def toCodePoint (high low : JChar) : Char :=
  Char.ofNat ((high.toNat - 0xD800) * 0x400 + (low.toNat - 0xDC00) + 0x10000)

/-- The bytes of one code unit.  A surrogate by itself becomes a question
mark. -/
def encodeUnit (unit : JChar) : List UInt8 :=
  if isHighSurrogate unit || isLowSurrogate unit then [63]
  else String.utf8EncodeChar (Char.ofNat unit.toNat)

/-- The bytes that a `FileWriter` writes. -/
def encode : JString → List UInt8
  | [] => []
  | [unit] => encodeUnit unit
  | unit :: next :: rest =>
      if isHighSurrogate unit && isLowSurrogate next then
        String.utf8EncodeChar (toCodePoint unit next) ++ encode rest
      else encodeUnit unit ++ encode (next :: rest)

/-- The text that a `FileReader` reads, where `replaced` is what it makes of
bytes that are no UTF-8. -/
def decode (replaced : List UInt8 → JString) (bytes : List UInt8) : JString :=
  match bytes.toByteArray.utf8Decode? with
  | some chars => chars.toList.flatMap unitsOfChar
  | none => replaced bytes

/-- The text spells characters, every surrogate of it in a pair. -/
def Paired (text : JString) : Prop :=
  ∃ chars : List Char, chars.flatMap unitsOfChar = text

section Encoding

variable {text front back : JString}
variable {unit : JChar}
variable {char : Char}
variable {replaced : List UInt8 → JString}

theorem encode_cons_of_not_high
    (single : isHighSurrogate unit = false) :
    encode (unit :: text) = encodeUnit unit ++ encode text := by
  cases text with
  | nil => rw [encode, encode, List.append_nil]
  | cons next rest => rw [encode, single, Bool.false_and, if_neg nofun]

theorem isHighSurrogate_eq_true_iff :
    isHighSurrogate unit = true ↔
      0xD800 ≤ unit.toNat ∧ unit.toNat ≤ 0xDBFF := by
  simp [isHighSurrogate, UInt16.le_iff_toNat_le]

theorem isLowSurrogate_eq_true_iff :
    isLowSurrogate unit = true ↔
      0xDC00 ≤ unit.toNat ∧ unit.toNat ≤ 0xDFFF := by
  simp [isLowSurrogate, UInt16.le_iff_toNat_le]

/-- A character is a unit of its own or a pair of surrogates. -/
theorem unitsOfChar_cases
    (char : Char) :
    (∃ unit, unitsOfChar char = [unit] ∧ unit.toNat = char.toNat ∧
        isHighSurrogate unit = false ∧ isLowSurrogate unit = false) ∨
      ∃ high low, unitsOfChar char = [high, low] ∧
        isHighSurrogate high = true ∧ isLowSurrogate low = true ∧
        toCodePoint high low = char := by
  have valid : char.toNat < 0xD800 ∨
    0xDFFF < char.toNat ∧ char.toNat < 0x110000 := char.valid
  unfold unitsOfChar
  split
  case isTrue small =>
    have unit : (UInt16.ofNat char.toNat).toNat = char.toNat := by
      rw [UInt16.toNat_ofNat', Nat.mod_eq_of_lt small]
    refine Or.inl ⟨_, rfl, unit, ?_, ?_⟩
    · rw [← Bool.not_eq_true, isHighSurrogate_eq_true_iff, unit]
      omega
    · rw [← Bool.not_eq_true, isLowSurrogate_eq_true_iff, unit]
      omega
  case isFalse large =>
    have high : (UInt16.ofNat
        (0xD800 + (char.toNat - 0x10000) / 0x400)).toNat =
          0xD800 + (char.toNat - 0x10000) / 0x400 := by
      rw [UInt16.toNat_ofNat', Nat.mod_eq_of_lt (by omega)]
    have low : (UInt16.ofNat
        (0xDC00 + (char.toNat - 0x10000) % 0x400)).toNat =
          0xDC00 + (char.toNat - 0x10000) % 0x400 := by
      rw [UInt16.toNat_ofNat', Nat.mod_eq_of_lt (by omega)]
    have whole : (char.toNat - 0x10000) / 0x400 * 0x400 +
        (char.toNat - 0x10000) % 0x400 + 0x10000 = char.toNat := by
      omega
    refine Or.inr ⟨_, _, rfl, ?_, ?_, ?_⟩
    · rw [isHighSurrogate_eq_true_iff, high]
      omega
    · rw [isLowSurrogate_eq_true_iff, low]
      omega
    · rw [toCodePoint, high, low, Nat.add_sub_cancel_left,
        Nat.add_sub_cancel_left, whole, Char.ofNat_toNat]

/-- The code units of a character are written as its bytes. -/
theorem encode_unitsOfChar_append :
    encode (unitsOfChar char ++ text) =
      String.utf8EncodeChar char ++ encode text := by
  rcases unitsOfChar_cases char with
    ⟨unit, alone, number, high, low⟩ | ⟨unit, next, pair, high, low, point⟩
  · rw [alone, List.singleton_append, encode_cons_of_not_high high, encodeUnit,
      high, low, number, Char.ofNat_toNat]
    rfl
  · rw [pair, List.cons_append, List.singleton_append, encode, high, low,
      Bool.and_self, if_pos rfl, point]

theorem encode_unitsOfChars
    (chars : List Char) :
    encode (chars.flatMap unitsOfChar) =
      chars.flatMap String.utf8EncodeChar := by
  induction chars with
  | nil => rfl
  | cons char chars inductionHypothesis =>
      rw [List.flatMap_cons, List.flatMap_cons, encode_unitsOfChar_append,
        inductionHypothesis]

/-- A text of pairs is read as it was written. -/
theorem decode_encode
    (paired : Paired text) :
    decode replaced (encode text) = text := by
  obtain ⟨chars, rfl⟩ := paired
  have decoded : (encode (chars.flatMap
      unitsOfChar)).toByteArray.utf8Decode? = some chars.toArray := by
    rw [encode_unitsOfChars]
    exact List.utf8Decode?_utf8Encode
  unfold decode
  rw [decoded]

theorem Paired.nil :
    Paired [] := ⟨[], rfl⟩

theorem Paired.append
    (first : Paired front)
    (second : Paired back) :
    Paired (front ++ back) := by
  obtain ⟨chars, rfl⟩ := first
  obtain ⟨others, rfl⟩ := second
  exact ⟨chars ++ others, List.flatMap_append⟩

/-- ASCII has no surrogates. -/
theorem paired_of_ascii
    (ascii : ∀ unit ∈ text, unit < 0x80) :
    Paired text := by
  induction text with
  | nil => exact Paired.nil
  | cons unit text inductionHypothesis =>
      rw [List.forall_mem_cons] at ascii
      have small : unit.toNat < 0x80 := UInt16.lt_iff_toNat_lt.mp ascii.1
      have first : Paired [unit] := by
        refine ⟨[Char.ofNatAux unit.toNat (Or.inl (by omega))], ?_⟩
        rw [List.flatMap_singleton, unitsOfChar, if_pos]
        · exact congrArg (List.cons · []) UInt16.ofNat_toNat
        · exact Nat.lt_trans small (by omega)
      exact first.append (inductionHypothesis ascii.2)

end Encoding

/-- The unit does not end a line. -/
def inLine (unit : JChar) : Bool :=
  unit ≠ 10 ∧ unit ≠ 13

/-- What is behind a line break. -/
def behindBreak : JString → JString
  | [] => []
  | [_] => []
  | first :: second :: rest =>
      if first = 13 ∧ second = 10 then rest else second :: rest

/-- `BufferedReader.readLine`: the next line without its break, and what is
behind it. -/
def readLine (text : JString) : Option (JString × JString) :=
  if text = [] then none
  else some (text.takeWhile inLine, behindBreak (text.dropWhile inLine))

section Reading

variable {text line rest : JString}

theorem length_behindBreak_lt
    (nonempty : text ≠ []) :
    (behindBreak text).length < text.length := by
  unfold behindBreak
  split
  · exact absurd rfl nonempty
  · exact Nat.zero_lt_one
  · split
    · simp only [List.length_cons]
      omega
    · simp

theorem readLine_shorter
    (reads : readLine text = some (line, rest)) :
    rest.length < text.length := by
  unfold readLine at reads
  split at reads
  case isTrue => cases reads
  case isFalse nonempty =>
    cases reads
    by_cases last : text.dropWhile inLine = []
    · rw [last]
      exact List.length_pos_iff.mpr nonempty
    · exact Nat.lt_of_lt_of_le (length_behindBreak_lt last)
        (List.dropWhile_sublist inLine).length_le

/-- A line break is all that stands between a line and the next. -/
theorem filter_behindBreak
    (ends : ∀ unit, text.head? = some unit → inLine unit = false) :
    (behindBreak text).filter inLine = text.filter inLine := by
  unfold behindBreak
  split
  case h_1 => rfl
  case h_2 unit =>
    rw [List.filter_cons, ends unit rfl]
    rfl
  case h_3 first second rest =>
    rw [List.filter_cons, ends first rfl]
    split
    case isTrue both =>
      rw [both.2, List.filter_cons]
      rfl
    case isFalse => rfl

/-- A line and what is behind it are the text without the break. -/
theorem filter_of_readLine
    (reads : readLine text = some (line, rest)) :
    text.filter inLine = line ++ rest.filter inLine := by
  unfold readLine at reads
  split at reads
  case isTrue => cases reads
  case isFalse =>
    cases reads
    have ends : ∀ unit, (text.dropWhile inLine).head? = some unit →
        inLine unit = false := by
      intro unit first
      have stops := List.head?_dropWhile_not inLine text
      rw [first] at stops
      exact stops
    have own : (text.takeWhile inLine).filter inLine =
        text.takeWhile inLine :=
      List.filter_eq_self.mpr fun unit => List.mem_takeWhile_imp
    rw [filter_behindBreak ends]
    conv_lhs => rw [← @List.takeWhile_append_dropWhile _ inLine text]
    rw [List.filter_append, own]

end Reading

end Java
end IdoProject
