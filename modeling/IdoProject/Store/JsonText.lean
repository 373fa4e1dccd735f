import IdoProject.Java.TextStreams
import IdoProject.Store.TextFiles

/-!
# The texts that Gson writes

Gson writes compact JSON, in which nothing stands between the tokens, and inside
a string it writes every code unit by itself, control characters as escape
sequences.  Such a text is one line, whatever the strings are and however deep
the values are nested, and its surrogates stand in pairs as those of the strings
do.
-/

namespace IdoProject
namespace Store

open Java Syntax

/-- How Gson writes a code unit inside a string. -/
structure Escapes (escape : JChar → JString) : Prop where
  /-- Control characters are not written as they are. -/
  control : ∀ unit < 0x20, escape unit ≠ [unit]
  /-- Surrogates are. -/
  surrogate : ∀ unit, isHighSurrogate unit ∨ isLowSurrogate unit →
    escape unit = [unit]
  /-- What stands for another unit is printable ASCII. -/
  printable : ∀ unit, escape unit ≠ [unit] →
    ∀ written ∈ escape unit, 0x20 ≤ written ∧ written < 0x80

/-- A hexadecimal digit. -/
def hexDigit (digit : JChar) : JChar :=
  if digit < 10 then 48 + digit else 87 + digit

/-- The escape sequence with the four digits of a code unit. -/
def unicodeEscape (unit : JChar) : JString :=
  [92, 117, hexDigit (unit / 4096), hexDigit (unit / 256 % 16),
    hexDigit (unit / 16 % 16), hexDigit (unit % 16)]

/-- The units with an escape sequence of one letter. -/
def letters : List (JChar × JChar) :=
  [(34, 34), (92, 92), (9, 116), (8, 98), (10, 110), (13, 114), (12, 102)]

/-- The escape sequences of `new Gson()`, which are safe inside HTML. -/
def htmlSafe (unit : JChar) : JString :=
  match letters.lookup unit with
  | some letter => [92, letter]
  | none =>
      if unit < 0x20 ∨ unit ∈ [38, 39, 60, 61, 62, 0x2028, 0x2029] then
        unicodeEscape unit
      else [unit]

section Writing

variable (escape : JChar → JString)

/-- A string with its quotation marks. -/
def quoted (text : JString) : JString :=
  34 :: (text.flatMap escape ++ [34])

/-- A member of an object. -/
def member (name value : JString) : JString :=
  quoted escape name ++ 58 :: value

/-- A text that stands for a JSON value. -/
inductive IsJson : JString → Prop
  | string (text : JString) (paired : Paired text) : IsJson (quoted escape text)
  | number (value : Int) : IsJson (jstr (toString value))
  | array (items : List JString) (each : ∀ item ∈ items, IsJson item) :
      IsJson (enclosed 91 44 93 items)
  | object
      (members : List (JString × JString))
      (paired : ∀ entry ∈ members, Paired entry.1)
      (each : ∀ entry ∈ members, IsJson entry.2) :
      IsJson (enclosed 123 44 125
        (members.map fun entry => member escape entry.1 entry.2))

/-- A chat, whose model is null and left out. -/
def chatObject (chat : ChatRecord) : JString :=
  enclosed 123 44 125
    [member escape (jstr "name") (quoted escape chat.name),
      member escape (jstr "id") (jstr (toString chat.id))]

def messageObject (message : Message) : JString :=
  enclosed 123 44 125
    [member escape (jstr "content") (quoted escape message.content),
      member escape (jstr "sender") (jstr (toString message.sender))]

/-- Gson for the chats. -/
def chatGson
    (fromJson : JString → Option (Option (List ChatRecord))) :
    Gson ChatRecord :=
  ⟨chatObject escape, fromJson⟩

/-- Gson for the messages. -/
def messageGson
    (fromJson : JString → Option (Option (List Message))) : Gson Message :=
  ⟨messageObject escape, fromJson⟩

end Writing

/-- The text has its surrogates in pairs and no control character. -/
structure IsLine (text : JString) : Prop where
  paired : Paired text
  clean : ∀ unit ∈ text, 0x20 ≤ unit

section Table

variable {unit : JChar}

theorem printable_hexDigit
    (digit : unit < 16) :
    0x20 ≤ hexDigit unit ∧ hexDigit unit < 0x80 := by
  have small := UInt16.lt_iff_toNat_lt.mp digit
  change unit.toNat < 16 at small
  unfold hexDigit
  split
  · rw [UInt16.le_iff_toNat_le, UInt16.lt_iff_toNat_lt, UInt16.toNat_add]
    change 32 ≤ (48 + unit.toNat) % 2 ^ 16 ∧ (48 + unit.toNat) % 2 ^ 16 < 128
    omega
  · rw [UInt16.le_iff_toNat_le, UInt16.lt_iff_toNat_lt, UInt16.toNat_add]
    change 32 ≤ (87 + unit.toNat) % 2 ^ 16 ∧ (87 + unit.toNat) % 2 ^ 16 < 128
    omega

theorem printable_unicodeEscape :
    ∀ written ∈ unicodeEscape unit, 0x20 ≤ written ∧ written < 0x80 := by
  have last (number : JChar) : number % 16 < 16 := by
    rw [UInt16.lt_iff_toNat_lt, UInt16.toNat_mod]
    exact Nat.mod_lt _ (by decide)
  have first : unit / 4096 < 16 := by
    rw [UInt16.lt_iff_toNat_lt, UInt16.toNat_div]
    have bound := unit.toNat_lt
    change unit.toNat / 4096 < 16
    omega
  unfold unicodeEscape
  simp only [List.forall_mem_cons]
  exact ⟨by decide, by decide, printable_hexDigit first,
    printable_hexDigit (last _), printable_hexDigit (last _),
    printable_hexDigit (last _), List.forall_mem_nil _⟩

/-- The units with a letter are ASCII, and so are the letters. -/
theorem printable_letter
    {letter : JChar}
    (found : letters.lookup unit = some letter) :
    unit < 0x80 ∧ 0x20 ≤ letter ∧ letter < 0x80 := by
  have all : ∀ entry ∈ letters,
      entry.1 < 0x80 ∧ 0x20 ≤ entry.2 ∧ entry.2 < 0x80 := by
    unfold letters
    simp only [List.forall_mem_cons]
    exact ⟨by decide, by decide, by decide, by decide, by decide, by decide,
      by decide, List.forall_mem_nil _⟩
  obtain ⟨front, back, whole, -⟩ := List.lookup_eq_some_iff.mp found
  exact all (unit, letter) (by rw [whole]; simp)

theorem not_surrogate_of_small
    (small : unit < 0xD800) :
    ¬(isHighSurrogate unit ∨ isLowSurrogate unit) := by
  have bound := UInt16.lt_iff_toNat_lt.mp small
  change unit.toNat < 0xD800 at bound
  rw [isHighSurrogate_eq_true_iff, isLowSurrogate_eq_true_iff]
  omega

theorem escapes_htmlSafe :
    Escapes htmlSafe := by
  have cases_ (unit : JChar) :
      htmlSafe unit = [unit] ∧ ¬unit < 0x20 ∨
        htmlSafe unit ≠ [unit] ∧ unit < 0xD800 ∧
          ∀ written ∈ htmlSafe unit, 0x20 ≤ written ∧ written < 0x80 := by
    unfold htmlSafe
    split
    case h_1 letter found =>
      obtain ⟨ascii, printable⟩ := printable_letter found
      refine Or.inr ⟨by simp, UInt16.lt_trans ascii (by decide), ?_⟩
      rw [List.forall_mem_cons, List.forall_mem_singleton]
      exact ⟨by decide, printable⟩
    case h_2 =>
      split
      case isTrue special =>
        refine Or.inr ⟨by simp [unicodeEscape], ?_, printable_unicodeEscape⟩
        rcases special with control | listed
        · exact UInt16.lt_trans control (by decide)
        · have all : ∀ unit ∈ ([38, 39, 60, 61, 62, 0x2028, 0x2029] : JString),
              unit < 0xD800 := by
            simp only [List.forall_mem_cons]
            exact ⟨by decide, by decide, by decide, by decide, by decide,
              by decide, by decide, List.forall_mem_nil _⟩
          exact all unit listed
      case isFalse plain => exact Or.inl ⟨rfl, (not_or.mp plain).1⟩
  constructor
  · intro unit control
    rcases cases_ unit with ⟨-, clean⟩ | ⟨replaced, -⟩
    · exact absurd control clean
    · exact replaced
  · intro unit surrogate
    rcases cases_ unit with ⟨same, -⟩ | ⟨-, small, -⟩
    · exact same
    · exact absurd surrogate (not_surrogate_of_small small)
  · intro unit replaced
    rcases cases_ unit with ⟨same, -⟩ | ⟨-, -, printable⟩
    · exact absurd same replaced
    · exact printable

end Table

section Lines

variable {escape : JChar → JString}
variable {text front back : JString}
variable {opening separator closing : JChar}
variable {items : List JString}

theorem IsLine.append
    (first : IsLine front)
    (second : IsLine back) :
    IsLine (front ++ back) :=
  ⟨first.paired.append second.paired,
    List.forall_mem_append.mpr ⟨first.clean, second.clean⟩⟩

theorem isLine_of_printable
    (printable : ∀ unit ∈ text, 0x20 ≤ unit ∧ unit < 0x80) :
    IsLine text :=
  ⟨paired_of_ascii fun unit among => (printable unit among).2,
    fun unit among => (printable unit among).1⟩

theorem isLine_singleton
    {unit : JChar}
    (printable : 0x20 ≤ unit ∧ unit < 0x80) :
    IsLine [unit] :=
  isLine_of_printable (List.forall_mem_singleton.mpr printable)

/-- A character is written on the line. -/
theorem isLine_escape_unitsOfChar
    (escapes : Escapes escape)
    (char : Char) :
    IsLine ((unitsOfChar char).flatMap escape) := by
  have asItIs (unit : JChar) (member : unit ∈ unitsOfChar char)
      (same : escape unit = [unit]) : ∀ written ∈ escape unit,
        0x20 ≤ written := by
    rw [same, List.forall_mem_singleton]
    by_contra control
    exact escapes.control unit (UInt16.not_le.mp control) same
  by_cases same : ∀ unit ∈ unitsOfChar char, escape unit = [unit]
  case pos =>
    constructor
    · refine ⟨[char], ?_⟩
      rw [List.flatMap_singleton, List.flatMap_congr same]
      exact (List.flatMap_singleton' _).symm
    · intro written among
      obtain ⟨unit, member, own⟩ := List.mem_flatMap.mp among
      exact asItIs unit member (same unit member) written own
  case neg =>
    -- Only a unit that is a character by itself is replaced.
    rcases unitsOfChar_cases char with
      ⟨unit, alone, -⟩ | ⟨unit, next, pair, high, low, -⟩
    · rw [alone, List.forall_mem_singleton] at same
      rw [alone, List.flatMap_singleton]
      exact isLine_of_printable (escapes.printable unit same)
    · rw [pair, List.forall_mem_cons, List.forall_mem_singleton] at same
      exact absurd ⟨escapes.surrogate unit (Or.inl high),
        escapes.surrogate next (Or.inr low)⟩ same

/-- A string is written on one line. -/
theorem isLine_quoted
    (escapes : Escapes escape)
    (paired : Paired text) :
    IsLine (quoted escape text) := by
  obtain ⟨chars, rfl⟩ := paired
  have mark : IsLine [34] := isLine_singleton (by decide)
  have inside : IsLine ((chars.flatMap unitsOfChar).flatMap escape) := by
    induction chars with
    | nil => exact isLine_of_printable (List.forall_mem_nil _)
    | cons char chars inductionHypothesis =>
        rw [List.flatMap_cons, List.flatMap_append]
        exact (isLine_escape_unitsOfChar escapes char).append
          inductionHypothesis
  exact mark.append (inside.append mark)

/-- Lines between brackets are one line. -/
theorem isLine_enclosed
    (brackets : IsLine [opening] ∧ IsLine [separator] ∧ IsLine [closing])
    (each : ∀ item ∈ items, IsLine item) :
    IsLine (enclosed opening separator closing items) := by
  obtain ⟨first, between, last⟩ := brackets
  have inside : IsLine ([separator].intercalate items) := by
    induction items with
    | nil => exact isLine_of_printable (List.forall_mem_nil _)
    | cons item items inductionHypothesis =>
        rw [List.forall_mem_cons] at each
        cases items with
        | nil =>
            rw [List.intercalate_singleton]
            exact each.1
        | cons next items =>
            rw [List.intercalate_cons_cons]
            exact (each.1.append between).append (inductionHypothesis each.2)
  exact first.append (inside.append last)

theorem isLine_number
    (value : Int) :
    IsLine (jstr (toString value)) := by
  apply isLine_of_printable
  intro unit among
  rw [UInt16.le_iff_toNat_le, UInt16.lt_iff_toNat_lt]
  rcases mem_jstr_toString among with rfl | digit
  · decide
  · change 32 ≤ unit.toNat ∧ unit.toNat < 128
    omega

/-- Every JSON text is one line. -/
theorem IsJson.isLine
    (escapes : Escapes escape)
    (json : IsJson escape text) :
    IsLine text := by
  induction json with
  | string text paired => exact isLine_quoted escapes paired
  | number value => exact isLine_number value
  | array items each inductionHypothesis =>
      apply isLine_enclosed _ inductionHypothesis
      exact ⟨isLine_singleton (by decide), isLine_singleton (by decide),
        isLine_singleton (by decide)⟩
  | object members paired each inductionHypothesis =>
      apply isLine_enclosed
      · exact ⟨isLine_singleton (by decide), isLine_singleton (by decide),
          isLine_singleton (by decide)⟩
      · intro item among
        obtain ⟨entry, listed, rfl⟩ := List.mem_map.mp among
        have colon : IsLine [58] := isLine_singleton (by decide)
        exact (isLine_quoted escapes (paired entry listed)).append
          (colon.append (inductionHypothesis entry listed))

end Lines

end Store
end IdoProject
