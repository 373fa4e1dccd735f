import Mathlib.Data.List.Basic
import Mathlib.Data.List.DropRight

/-!
# Java strings and integers

A Java string is a list of 16-bit code units, which is what `length`,
`indexOf` and `substring` count.  Lower-casing depends on the locale and on the
Unicode version of the platform, so the definitions that use it take it as a
parameter.
-/

namespace IdoProject
namespace Java

/-- A Java `char`, one UTF-16 code unit. -/
abbrev JChar := UInt16

/-- A Java `String`. -/
abbrev JString := List JChar

/-- A Java `int`. -/
abbrev JInt := Int32

/-- UTF-16 code units of one character. -/
def unitsOfChar (character : Char) : JString :=
  if character.toNat < 0x10000 then
    [UInt16.ofNat character.toNat]
  else
    [UInt16.ofNat (0xD800 + (character.toNat - 0x10000) / 0x400),
      UInt16.ofNat (0xDC00 + (character.toNat - 0x10000) % 0x400)]

/-- A string literal of the source. -/
def jstr (literal : String) : JString :=
  literal.toList.flatMap unitsOfChar

/-- `String.indexOf`, with `none` for the result -1. -/
def indexOf (text pattern : JString) : Option Nat :=
  if pattern.isPrefixOf text then some 0
  else match text with
    | [] => none
    | _ :: rest => (indexOf rest pattern).map (· + 1)

/-- `String.contains`. -/
def contains (text pattern : JString) : Bool :=
  (indexOf text pattern).isSome

/-- `String.substring(0, endIndex)`, which throws when the index is beyond the
end of the text. -/
def substringTo (text : JString) (endIndex : Nat) : Option JString :=
  if endIndex ≤ text.length then some (text.take endIndex) else none

/-- `String.trim`: drop the code units up to U+0020 at both ends. -/
def trim (text : JString) : JString :=
  ((text.dropWhile (· ≤ 0x20)).reverse.dropWhile (· ≤ 0x20)).reverse

/-- A text that is trimmed already is left alone. -/
theorem trim_trim
    (text : JString) :
    trim (trim text) = trim text := by
  have ends (middle : JString) :
      (middle.reverse.dropWhile (· ≤ 0x20)).reverse =
        middle.rdropWhile (· ≤ 0x20) := rfl
  unfold trim
  rw [ends, ends]
  have front : ((text.dropWhile (· ≤ 0x20)).rdropWhile (· ≤ 0x20)).dropWhile
      (· ≤ 0x20) = (text.dropWhile (· ≤ 0x20)).rdropWhile (· ≤ 0x20) := by
    rw [List.dropWhile_eq_self_iff]
    intro nonempty
    have kept := List.rdropWhile_prefix (fun unit : JChar => unit ≤ 0x20)
      (l := text.dropWhile (· ≤ 0x20))
    rw [kept.getElem nonempty]
    exact List.dropWhile_get_zero_not _ text
      (Nat.lt_of_lt_of_le nonempty kept.length_le)
  rw [front, List.rdropWhile_idempotent]

/-- Lower-casing of the ASCII letters, which is all that `toLowerCase` does to
a text of ASCII characters outside the Turkic and Lithuanian locales. -/
def toLowerCaseAscii (text : JString) : JString :=
  text.map fun unit => if 65 ≤ unit ∧ unit ≤ 90 then unit + 32 else unit

/-- A decimal number is written with digits. -/
theorem digit_of_mem_repr
    {number : Nat}
    {unit : JChar}
    (member : unit ∈ jstr number.repr) :
    48 ≤ unit.toNat ∧ unit.toNat ≤ 57 := by
  obtain ⟨digit, listed, among⟩ := List.mem_flatMap.mp member
  rw [Nat.toList_repr] at listed
  have isDigit := Nat.isDigit_of_mem_toDigits (by decide) (by decide) listed
  rw [Char.isDigit_iff_toNat] at isDigit
  change 48 ≤ digit.toNat ∧ digit.toNat ≤ 57 at isDigit
  rw [unitsOfChar, if_pos (by omega), List.mem_singleton] at among
  rwa [among, UInt16.toNat_ofNat', Nat.mod_eq_of_lt (by omega)]

theorem mem_jstr_toString
    {number : Int}
    {unit : JChar}
    (member : unit ∈ jstr (toString number)) :
    unit = 45 ∨ 48 ≤ unit.toNat ∧ unit.toNat ≤ 57 := by
  cases number with
  | ofNat number => exact Or.inr (digit_of_mem_repr member)
  | negSucc number =>
      change unit ∈ jstr ("-" ++ (number + 1).repr) at member
      rw [jstr, String.toList_append, List.flatMap_append,
        List.mem_append] at member
      rcases member with sign | digits
      · exact Or.inl (List.mem_singleton.mp sign)
      · exact Or.inr (digit_of_mem_repr digits)

/-- A unit in front of the first piece of a text. -/
theorem splitOn_cons_of_ne
    {text first : JString}
    {rest : List JString}
    {unit separator : JChar}
    (other : unit ≠ separator)
    (cut : text.splitOn separator = first :: rest) :
    (unit :: text).splitOn separator = (unit :: first) :: rest := by
  rw [List.splitOn_cons_eq_if_modifyHead, if_neg (by simpa using other), cut,
    List.modifyHead_cons]

end Java
end IdoProject
