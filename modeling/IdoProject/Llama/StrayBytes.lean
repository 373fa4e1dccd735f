import IdoProject.Llama.Reassembly

/-!
# Bytes that spell no character

`completion_loop` keeps its buffer until the whole of it is valid.  The buffer
is never more than an incomplete character exactly when the pieces are orderly:
no byte is out of place, and a piece that ends inside a character has nothing
else in it.  Behind a byte that is out of place everything is withheld.
-/

namespace IdoProject
namespace Llama

open Java Syntax

/-- Nothing, or the beginning of one character. -/
def AtMostBegun (bytes : List UInt8) : Prop :=
  ∃ owed, utf8.Begun owed bytes

/-- Whole characters. -/
def Whole (bytes : List UInt8) : Prop :=
  ∃ words : List (List UInt8),
    (∀ word ∈ words, utf8.IsWord word) ∧ words.flatten = bytes

/-- The piece has bytes of one character only, which owes some before it and
some behind it. -/
def Within : Nat → List UInt8 → Nat → Prop
  | 0, piece, later => 0 < later ∧ utf8.Begun later piece
  | owed + 1, piece, later =>
      0 < later ∧ (∀ byte ∈ piece, utf8.continues byte) ∧
        piece.length + later = owed + 1

/-- Pieces that end with a whole character or have bytes of one character only.
A zero byte in place of a character is the end of its piece. -/
def Orderly : Nat → List (List UInt8) → Prop
  | _, [] => True
  | owed, piece :: pieces =>
      (utf8.scan owed (cStr piece) = some 0 ∧ Orderly 0 pieces) ∨
        ∃ later, Within owed piece later ∧ Orderly later pieces

section Begun

variable {owed later : Nat}
variable {cached piece : List UInt8}

theorem announces_le
    {byte : UInt8}
    {count : Nat}
    (announced : utf8.announces byte = some count) :
    count ≤ 3 := by
  simp only [utf8, sequenceLength] at announced
  split_ifs at announced <;> simp_all <;> omega

/-- An incomplete character has three bytes at most. -/
theorem AtMostBegun.length_le
    (begun : AtMostBegun cached) :
    cached.length ≤ 3 := by
  obtain ⟨owed, begun⟩ := begun
  cases owed with
  | zero =>
      rw [show cached = [] from begun]
      exact Nat.zero_le 3
  | succ owed =>
      obtain ⟨lead, following, rfl, announced, -⟩ := begun
      have few := announces_le announced
      rw [List.length_cons]
      omega

theorem ne_zero_of_continues
    {byte : UInt8}
    (follows : utf8.continues byte = true) :
    byte ≠ 0 := by
  intro zero
  rw [zero] at follows
  exact absurd follows (by decide)

/-- The zero byte is no part of an incomplete character. -/
theorem zero_notMem_of_begun
    (begun : utf8.Begun owed cached) :
    0 ∉ cached := by
  intro member
  cases owed with
  | zero =>
      rw [show cached = [] from begun] at member
      exact List.not_mem_nil member
  | succ owed =>
      obtain ⟨lead, following, rfl, announced, follow⟩ := begun
      rcases List.mem_cons.mp member with zero | member
      · rw [← zero, show utf8.announces 0 = some 0 by decide,
          Option.some.injEq] at announced
        omega
      · exact ne_zero_of_continues (follow 0 member) rfl

theorem cStr_append
    (nonzero : 0 ∉ cached) :
    cStr (cached ++ piece) = cached ++ cStr piece := by
  rw [cStr, List.takeWhile_append_of_pos]
  · rfl
  · intro byte member
    have other : byte ≠ 0 := fun equal => nonzero (equal ▸ member)
    simpa using other

/-- Behind an incomplete character the piece decides whether the buffer is
valid. -/
theorem isValidUtf8_append_iff
    (begun : utf8.Begun owed cached) :
    isValidUtf8 (cached ++ piece) = true ↔
      utf8.scan owed (cStr piece) = some 0 := by
  rw [isValidUtf8_eq_true_iff, cStr_append (zero_notMem_of_begun begun),
    LeadCode.scan_append, LeadCode.scan_begun begun, Option.bind_some]

theorem begun_of_within
    (begun : utf8.Begun owed cached)
    (within : Within owed piece later) :
    0 < later ∧ utf8.Begun later (cached ++ piece) := by
  cases owed with
  | zero =>
      rw [show cached = [] from begun, List.nil_append]
      exact within
  | succ owed =>
      obtain ⟨positive, follow, total⟩ := within
      refine ⟨positive, ?_⟩
      apply LeadCode.begun_append begun (Nat.succ_ne_zero owed)
      · rw [← total]
        exact LeadCode.scan_following follow
      · omega

/-- A buffer that is no more than an incomplete character got only bytes of this
character. -/
theorem within_of_begun
    (begun : utf8.Begun owed cached)
    (positive : 0 < later)
    (after : utf8.Begun later (cached ++ piece)) :
    Within owed piece later := by
  cases owed with
  | zero =>
      rw [show cached = [] from begun, List.nil_append] at after
      exact ⟨positive, after⟩
  | succ owed =>
      obtain ⟨later, rfl⟩ := Nat.exists_eq_succ_of_ne_zero positive.ne'
      obtain ⟨lead, following, rfl, announced, -⟩ := begun
      obtain ⟨first, others, equal, announces, follow⟩ := after
      rw [List.cons_append, List.cons.injEq] at equal
      obtain ⟨rfl, rfl⟩ := equal
      rw [announced, Option.some.injEq, List.length_append] at announces
      refine ⟨positive, ?_, by omega⟩
      intro byte member
      exact follow byte (List.mem_append_right following member)

theorem not_valid_of_begun
    (positive : 0 < later)
    (begun : utf8.Begun later cached) :
    isValidUtf8 cached = false := by
  rw [← Bool.not_eq_true, isValidUtf8_eq_true_iff,
    cStr_eq_self (zero_notMem_of_begun begun), LeadCode.scan_begun begun,
    Option.some.injEq]
  exact positive.ne'

end Begun

section Runs

variable {Token : Type u}
variable {runtime : Runtime Token}
variable {owed nLen nCur : Nat}
variable {cached piece : List UInt8} {tokens : List Token}

/-- The buffer is never more than an incomplete character exactly when the
pieces are orderly. -/
theorem atMostBegun_iff_orderly
    (begun : utf8.Begun owed cached) :
    (∀ count ≤ tokens.length,
        AtMostBegun (unsent runtime cached (tokens.take count))) ↔
      Orderly owed (tokens.map runtime.piece) := by
  induction tokens generalizing cached owed with
  | nil =>
      refine iff_of_true ?_ trivial
      intro count _
      rw [List.take_nil]
      exact ⟨owed, begun⟩
  | cons token tokens inductionHypothesis =>
      have split_first :
          (∀ count ≤ (token :: tokens).length,
            AtMostBegun (unsent runtime cached
              ((token :: tokens).take count))) ↔
          ∀ count ≤ tokens.length, AtMostBegun (unsent runtime
            (if isValidUtf8 (cached ++ runtime.piece token) then []
              else cached ++ runtime.piece token) (tokens.take count)) := by
        constructor
        · intro always count within
          exact always (count + 1) (Nat.succ_le_succ within)
        · intro always count within
          cases count with
          | zero => exact ⟨owed, begun⟩
          | succ count => exact always count (Nat.le_of_succ_le_succ within)
      rw [split_first, List.map_cons, Orderly, ← isValidUtf8_append_iff begun]
      by_cases valid : isValidUtf8 (cached ++ runtime.piece token) = true
      case pos =>
        rw [if_pos valid, @inductionHypothesis 0 [] rfl]
        constructor
        · intro orderly
          exact Or.inl ⟨valid, orderly⟩
        · rintro (⟨-, orderly⟩ | ⟨later, within, -⟩)
          · exact orderly
          · obtain ⟨positive, after⟩ := begun_of_within begun within
            rw [not_valid_of_begun positive after] at valid
            cases valid
      case neg =>
        rw [if_neg valid]
        constructor
        · intro always
          obtain ⟨later, after⟩ := always 0 (Nat.zero_le _)
          have positive : 0 < later := by
            apply Nat.pos_of_ne_zero
            rintro rfl
            apply valid
            rw [show cached ++ runtime.piece token = [] from after]
            rfl
          refine Or.inr ⟨later, within_of_begun begun positive after, ?_⟩
          exact (inductionHypothesis after).mp always
        · rintro (⟨isValid, -⟩ | ⟨later, within, orderly⟩)
          · exact absurd isValid valid
          · obtain ⟨-, after⟩ := begun_of_within begun within
            exact (inductionHypothesis after).mpr orderly

theorem exists_cStr_append :
    ∃ rest, cStr (cached ++ piece) = cStr cached ++ rest := by
  by_cases free : 0 ∈ cached
  case neg =>
    refine ⟨cStr piece, ?_⟩
    rw [cStr_append free, cStr_eq_self free]
  case pos =>
    refine ⟨[], ?_⟩
    rw [List.append_nil, cStr, cStr, List.takeWhile_append, if_neg]
    intro whole
    have all : cached.takeWhile (· ≠ 0) = cached :=
      (List.takeWhile_prefix _).eq_of_length whole
    rw [List.takeWhile_eq_self_iff] at all
    exact absurd rfl (of_decide_eq_true (all 0 free))

/-- A malformed buffer is never emptied: all the later strings are empty. -/
theorem withheld_of_malformed
    (malformed : utf8.scan 0 (cStr cached) = none) :
    unsent runtime cached tokens = cached ++ tokens.flatMap runtime.piece ∧
      ∀ string ∈ chunks runtime cached tokens, string = [] := by
  induction tokens generalizing cached with
  | nil =>
      rw [List.flatMap_nil, List.append_nil]
      exact ⟨rfl, by simp [chunks]⟩
  | cons token tokens inductionHypothesis =>
      have still : utf8.scan 0 (cStr (cached ++ runtime.piece token)) = none := by
        obtain ⟨rest, equal⟩ := @exists_cStr_append cached (runtime.piece token)
        rw [equal, LeadCode.scan_append, malformed, Option.bind_none]
      have invalid : isValidUtf8 (cached ++ runtime.piece token) = false := by
        rw [← Bool.not_eq_true, isValidUtf8_eq_true_iff, still]
        simp
      obtain ⟨kept, later⟩ := inductionHypothesis still
      rw [unsent, chunks, invalid]
      refine ⟨?_, ?_⟩
      · rw [if_neg Bool.false_ne_true, kept, List.flatMap_cons,
          List.append_assoc]
      · rw [if_neg Bool.false_ne_true, List.forall_mem_cons]
        exact ⟨rfl, later⟩

/-- Whole characters without a zero byte are handed over. -/
theorem isValidUtf8_of_whole
    (whole : Whole cached)
    (nonzero : 0 ∉ cached) :
    isValidUtf8 cached = true := by
  obtain ⟨words, areWords, rfl⟩ := whole
  rw [isValidUtf8_eq_true_iff, cStr_eq_self nonzero,
    LeadCode.scan_flatten areWords]

end Runs

/-- What is promised after some calls of `completion_loop`: it keeps an
incomplete character at most, which is three bytes at most, and the next piece
that completes its characters is handed over at once. -/
def Prompt
    {Token : Type u}
    (runtime : Runtime Token)
    (nLen nCur : Nat)
    (after : Native Token) : Prop :=
  AtMostBegun after.cachedTokenChars ∧ after.cachedTokenChars.length ≤ 3 ∧
    ∀ token, runtime.isEog token = false → nCur ≠ nLen →
      Whole (after.cachedTokenChars ++ runtime.piece token) →
      0 ∉ runtime.piece token →
      ∃ last, last.cachedTokenChars = [] ∧
        completionLoop runtime after nLen nCur token =
          some (runtime.newStringUTF
            (after.cachedTokenChars ++ runtime.piece token), last, nCur + 1)

theorem prompt_iff
    {Token : Type u}
    {runtime : Runtime Token}
    {nLen nCur : Nat}
    {after : Native Token} :
    Prompt runtime nLen nCur after ↔ AtMostBegun after.cachedTokenChars := by
  constructor
  · intro prompt
    exact prompt.1
  · intro begun
    refine ⟨begun, begun.length_le, ?_⟩
    intro token noEog room whole nonzero
    obtain ⟨owed, begun⟩ := begun
    have free : 0 ∉ after.cachedTokenChars ++ runtime.piece token := by
      rw [List.mem_append, not_or]
      exact ⟨zero_notMem_of_begun begun, nonzero⟩
    refine ⟨⟨[], after.memory ++ [(token, nCur)]⟩, rfl, ?_⟩
    rw [completionLoop, if_neg (by simp [noEog, room])]
    dsimp only
    rw [if_pos (isValidUtf8_of_whole whole free), cStr_eq_self free]

/-- Whatever bytes the pieces have: after every call `completion_loop` keeps an
incomplete character at most, and hands over the next piece that completes its
characters, exactly when the pieces are orderly. -/
theorem prompt_iff_orderly
    {Token : Type u}
    (runtime : Runtime Token)
    (tokens : List Token)
    (native : Native Token)
    (nLen nCur : Nat)
    (empty : native.cachedTokenChars = [])
    (noEog : ∀ token ∈ tokens, runtime.isEog token = false)
    (room : ∀ count < tokens.length, nCur + count ≠ nLen) :
    (∀ count ≤ tokens.length, ∃ strs after,
        feed runtime nLen native nCur (tokens.take count) =
          some (strs, after, nCur + count) ∧
        Prompt runtime nLen (nCur + count) after) ↔
      Orderly 0 (tokens.map runtime.piece) := by
  rw [← @atMostBegun_iff_orderly _ runtime 0 [] tokens rfl]
  constructor
  · intro always count within
    obtain ⟨memory, equal⟩ := feed_take_eq_some empty noEog room within
    obtain ⟨others, after, same, prompt⟩ := always count within
    rw [equal, Option.some.injEq, Prod.mk.injEq, Prod.mk.injEq] at same
    rw [← same.2.1, prompt_iff] at prompt
    exact prompt
  · intro always count within
    obtain ⟨memory, equal⟩ := feed_take_eq_some empty noEog room within
    exact ⟨_, _, equal, prompt_iff.mpr (always count within)⟩

/-- A character in two pieces, after each of them. -/
theorem prompt_euro :
    (∃ strs after,
      feed byteRuntime 8 {} 0 ([[0xE2, 0x82], [0xAC, 0x41]].take 1) =
        some (strs, after, 0 + 1) ∧
      Prompt byteRuntime 8 (0 + 1) after) ∧
    ∃ strs after,
      feed byteRuntime 8 {} 0 ([[0xE2, 0x82], [0xAC, 0x41]].take 2) =
        some (strs, after, 0 + 2) ∧
      Prompt byteRuntime 8 (0 + 2) after := by
  have always := (prompt_iff_orderly byteRuntime [[0xE2, 0x82], [0xAC, 0x41]]
    {} 8 0 rfl (fun _ _ => rfl) (by decide)).mpr (by
      refine Or.inr ⟨1, ⟨Nat.one_pos, 0xE2, [0x82], rfl, by decide +kernel,
        by decide +kernel⟩, ?_⟩
      exact Or.inl ⟨by decide, trivial⟩)
  exact ⟨always 1 (by decide), always 2 (by decide)⟩

/-- After one byte that begins no character nothing is handed over any more:
with "Hi!" behind it four bytes are kept. -/
theorem stray_byte_withholds :
    ¬(∀ count ≤ 2, ∃ strs after,
        feed byteRuntime 8 {} 0 ([[0xFF], [0x48, 0x69, 0x21]].take count) =
          some (strs, after, 0 + count) ∧
        Prompt byteRuntime 8 (0 + count) after) ∧
      ∀ tokens : List (List UInt8),
        ∀ string ∈ chunks byteRuntime [] ([0xFF] :: tokens), string = [] := by
  constructor
  · intro always
    obtain ⟨strs, after, fed, -, short, -⟩ := always 2 (Nat.le_refl 2)
    rw [show feed byteRuntime 8 {} 0 ([[0xFF], [0x48, 0x69, 0x21]].take 2) =
      some ([[], []], ⟨[0xFF, 0x48, 0x69, 0x21],
        [([0xFF], 0), ([0x48, 0x69, 0x21], 1)]⟩, 2) by rfl] at fed
    rw [Option.some.injEq, Prod.mk.injEq, Prod.mk.injEq] at fed
    rw [← fed.2.1] at short
    exact absurd short (by decide)
  · intro tokens string member
    have invalid : isValidUtf8 ([] ++ byteRuntime.piece [0xFF]) = false := by
      decide
    rw [chunks, invalid, if_neg Bool.false_ne_true, List.mem_cons] at member
    rcases member with empty | later
    · exact empty
    · exact (withheld_of_malformed (by decide)).2 string later

end Llama
end IdoProject
