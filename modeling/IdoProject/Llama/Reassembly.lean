import Mathlib.Data.List.TakeWhile
import IdoProject.Llama.Completion
import IdoProject.Syntax.LeadCode

/-!
# Reassembly of the pieces

The pieces of the tokens cut the text at any byte.  `completion_loop` keeps what
it has until the whole of it is valid, and hands it over then.  As long as the
pieces make up a well-formed text, every string that is handed over is
well-formed, none of the text is lost or handed over twice, and nothing is kept
at its end.
-/

namespace IdoProject
namespace Llama

open Java Syntax

/-! ## Characters as words of a code -/

/-- The code that `is_valid_utf8` recognises. -/
def utf8 : LeadCode UInt8 where
  announces byte := (sequenceLength byte).map (· - 1)
  continues byte := byte &&& 0xC0 = 0x80

/-- Well-formed UTF-8: the encodings of characters one after the other. -/
def WellFormed (bytes : List UInt8) : Prop :=
  ∃ chars : List Char, chars.flatMap String.utf8EncodeChar = bytes

theorem sequenceLength_one :
    ∀ count < 0x80, sequenceLength (UInt8.ofNat count) = some 1 := by
  decide

theorem sequenceLength_two :
    ∀ count < 0x20, sequenceLength (UInt8.ofNat (count + 0xC0)) = some 2 := by
  decide

theorem sequenceLength_three :
    ∀ count < 0x10, sequenceLength (UInt8.ofNat (count + 0xE0)) = some 3 := by
  decide

theorem sequenceLength_four :
    ∀ count < 0x08, sequenceLength (UInt8.ofNat (count + 0xF0)) = some 4 := by
  decide

theorem continues_ofNat :
    ∀ count < 0x40, utf8.continues (UInt8.ofNat (count + 0x80)) = true := by
  decide

theorem announces_of_sequenceLength
    {byte : UInt8}
    {count : Nat}
    (length : sequenceLength byte = some (count + 1)) :
    utf8.announces byte = some count := by
  simp only [utf8, length, Option.map_some, Nat.add_sub_cancel]

/-- The encoding of a character is one word. -/
theorem isWord_utf8EncodeChar
    (char : Char) :
    utf8.IsWord (String.utf8EncodeChar char) := by
  have follows (count : Nat) :
      utf8.continues (UInt8.ofNat (count % 0x40 + 0x80)) = true :=
    continues_ofNat _ (Nat.mod_lt _ (by omega))
  unfold String.utf8EncodeChar
  dsimp only
  split
  case isTrue one =>
    refine ⟨_, [], rfl, announces_of_sequenceLength ?_, by simp⟩
    exact sequenceLength_one _ (Nat.lt_succ_of_le one)
  split
  case isTrue two =>
    refine ⟨_, [_], rfl, announces_of_sequenceLength ?_, ?_⟩
    · exact sequenceLength_two _ (Nat.mod_lt _ (by omega))
    · exact List.forall_mem_singleton.mpr (follows _)
  split
  case isTrue three =>
    refine ⟨_, [_, _], rfl, announces_of_sequenceLength ?_, ?_⟩
    · exact sequenceLength_three _ (Nat.mod_lt _ (by omega))
    · exact List.forall_mem_cons.mpr
        ⟨follows _, List.forall_mem_singleton.mpr (follows _)⟩
  case isFalse =>
    refine ⟨_, [_, _, _], rfl, announces_of_sequenceLength ?_, ?_⟩
    · exact sequenceLength_four _ (Nat.mod_lt _ (by omega))
    · exact List.forall_mem_cons.mpr ⟨follows _, List.forall_mem_cons.mpr
        ⟨follows _, List.forall_mem_singleton.mpr (follows _)⟩⟩

theorem isWord_of_mem_encodings
    {chars : List Char}
    {word : List UInt8}
    (member : word ∈ chars.map String.utf8EncodeChar) :
    utf8.IsWord word := by
  obtain ⟨char, -, rfl⟩ := List.mem_map.mp member
  exact isWord_utf8EncodeChar char

/-- `is_valid_utf8` reads the bytes before the terminating zero, and wants to
owe nothing there. -/
theorem isValidFrom_eq_true_iff
    {owed : Nat}
    {bytes : List UInt8} :
    isValidFrom owed bytes = true ↔ utf8.scan owed (cStr bytes) = some 0 := by
  induction bytes generalizing owed with
  | nil => cases owed <;> simp [isValidFrom, cStr]
  | cons byte bytes inductionHypothesis =>
      by_cases zero : byte = 0
      case pos =>
        rw [zero, show cStr (0 :: bytes) = [] by simp [cStr],
          LeadCode.scan_nil]
        cases owed <;> simp [isValidFrom]
      case neg =>
        rw [show cStr (byte :: bytes) = byte :: cStr bytes by
          simp [cStr, zero]]
        cases owed with
        | zero =>
            rw [isValidFrom, if_neg zero, LeadCode.scan_zero_cons]
            cases length : sequenceLength byte with
            | none => simp [utf8, length]
            | some num =>
                simp only [utf8, length, Option.map_some, Option.bind_some]
                exact inductionHypothesis
        | succ owed =>
            rw [isValidFrom, LeadCode.scan_succ_cons, Bool.and_eq_true,
              inductionHypothesis]
            by_cases follows : byte &&& 0xC0 = 0x80 <;> simp [utf8, follows]

theorem isValidUtf8_eq_true_iff
    {bytes : List UInt8} :
    isValidUtf8 bytes = true ↔ utf8.scan 0 (cStr bytes) = some 0 :=
  isValidFrom_eq_true_iff

theorem cStr_eq_self
    {bytes : List UInt8}
    (nonzero : 0 ∉ bytes) :
    cStr bytes = bytes := by
  rw [cStr, List.takeWhile_eq_self_iff]
  intro byte member
  have other : byte ≠ 0 := fun equal => nonzero (equal ▸ member)
  simpa using other

/-! ## Feeding the pieces -/

variable {Token : Type u}

/-- Call `completion_loop` once for every token, with the strings it returns.
It is `none` where one of the calls returns `nullptr`. -/
def feed
    (runtime : Runtime Token)
    (nLen : Nat) :
    Native Token → Nat → List Token →
      Option (List JString × Native Token × Nat)
  | native, nCur, [] => some ([], native, nCur)
  | native, nCur, token :: tokens => do
      let (str, after, next) ← completionLoop runtime native nLen nCur token
      let (strs, last, stop) ← feed runtime nLen after next tokens
      return (str :: strs, last, stop)

/-- The bytes of the strings that are returned for a list of tokens. -/
def chunks
    (runtime : Runtime Token) : List UInt8 → List Token → List (List UInt8)
  | _, [] => []
  | cached, token :: tokens =>
      let bytes := cached ++ runtime.piece token
      if isValidUtf8 bytes then cStr bytes :: chunks runtime [] tokens
      else [] :: chunks runtime bytes tokens

section Laws

variable {runtime : Runtime Token}
variable {cached : List UInt8} {tokens : List Token}
variable {nLen nCur : Nat}
variable {native : Native Token}

theorem spell_eq_map_chunks :
    spell runtime cached tokens =
      (chunks runtime cached tokens).map runtime.newStringUTF := by
  induction tokens generalizing cached with
  | nil => rfl
  | cons token tokens inductionHypothesis =>
      rw [spell, chunks]
      split <;> rw [List.map_cons, inductionHypothesis]

theorem take_chunks
    (count : Nat) :
    (chunks runtime cached tokens).take count =
      chunks runtime cached (tokens.take count) := by
  induction tokens generalizing cached count with
  | nil => simp [chunks]
  | cons token tokens inductionHypothesis =>
      cases count with
      | zero => simp [chunks]
      | succ count =>
          rw [List.take_succ_cons, chunks, chunks]
          split <;> rw [List.take_succ_cons, inductionHypothesis]

/-- Calls that are made before the end of the generation return. -/
theorem feed_eq_some
    (noEog : ∀ token ∈ tokens, runtime.isEog token = false)
    (room : ∀ count < tokens.length, nCur + count ≠ nLen) :
    ∃ memory, feed runtime nLen native nCur tokens =
      some ((chunks runtime native.cachedTokenChars tokens).map
          runtime.newStringUTF,
        ⟨unsent runtime native.cachedTokenChars tokens, memory⟩,
        nCur + tokens.length) := by
  rw [← spell_eq_map_chunks]
  induction tokens generalizing native nCur with
  | nil => exact ⟨native.memory, rfl⟩
  | cons token tokens inductionHypothesis =>
      have continues : ¬(runtime.isEog token ∨ nCur = nLen) := by
        rw [noEog token List.mem_cons_self]
        simpa using room 0 (Nat.zero_lt_succ _)
      obtain ⟨str, spelled, loop⟩ :=
        @completionLoop_eq_some _ runtime native nLen nCur token continues
      obtain ⟨memory, rest⟩ := @inductionHypothesis (nCur + 1)
        ⟨unsent runtime native.cachedTokenChars [token],
          native.memory ++ [(token, nCur)]⟩
        (fun other member => noEog other (List.mem_cons_of_mem token member))
        (by
          intro count below
          have := room (count + 1) (Nat.succ_lt_succ below)
          omega)
      refine ⟨memory, ?_⟩
      rw [feed, loop, Option.bind_eq_bind, Option.bind_some]
      dsimp only
      rw [rest, Option.bind_eq_bind, Option.bind_some,
        show token :: tokens = [token] ++ tokens from rfl, spell_append,
        unsent_append, spelled, List.length_append, List.length_singleton,
        ← Nat.add_assoc]
      rfl

/-- The first calls return what is made of their own tokens. -/
theorem feed_take_eq_some
    {count : Nat}
    (empty : native.cachedTokenChars = [])
    (noEog : ∀ token ∈ tokens, runtime.isEog token = false)
    (room : ∀ count < tokens.length, nCur + count ≠ nLen)
    (within : count ≤ tokens.length) :
    ∃ memory, feed runtime nLen native nCur (tokens.take count) =
      some ((chunks runtime [] (tokens.take count)).map runtime.newStringUTF,
        ⟨unsent runtime [] (tokens.take count), memory⟩, nCur + count) := by
  have taken : (tokens.take count).length = count := by
    rw [List.length_take, Nat.min_eq_left within]
  obtain ⟨memory, fed⟩ :=
    @feed_eq_some _ runtime (tokens.take count) nLen nCur native
      (fun token member => noEog token (List.mem_of_mem_take member))
      (fun index below => room index (by omega))
  rw [empty, taken] at fed
  exact ⟨memory, fed⟩

/-- What has been handed over and what is kept are the bytes so far. -/
theorem flatten_chunks_append_unsent
    (nonzero : 0 ∉ cached ++ tokens.flatMap runtime.piece) :
    (chunks runtime cached tokens).flatten ++ unsent runtime cached tokens =
      cached ++ tokens.flatMap runtime.piece := by
  induction tokens generalizing cached with
  | nil => rw [List.flatMap_nil, List.append_nil]; rfl
  | cons token tokens inductionHypothesis =>
      rw [List.flatMap_cons, ← List.append_assoc] at nonzero
      rw [List.flatMap_cons, ← List.append_assoc, chunks, unsent]
      split
      case isTrue valid =>
        rw [List.flatten_cons, List.append_assoc, inductionHypothesis,
          cStr_eq_self (fun member =>
            nonzero (List.mem_append_left _ member)), List.nil_append]
        rw [List.nil_append]
        exact fun member => nonzero (List.mem_append_right _ member)
      case isFalse invalid =>
        rw [List.flatten_cons, List.nil_append, inductionHypothesis nonzero]

/-- Pieces of a well-formed text are handed over in well-formed strings, and
nothing is kept at its end. -/
theorem wellFormed_chunks
    {chars : List Char}
    (nonzero : 0 ∉ cached ++ tokens.flatMap runtime.piece)
    (text : chars.flatMap String.utf8EncodeChar =
      cached ++ tokens.flatMap runtime.piece)
    (pending : cached = [] ∨ isValidUtf8 cached = false) :
    (∀ chunk ∈ chunks runtime cached tokens, WellFormed chunk) ∧
      unsent runtime cached tokens = [] := by
  induction tokens generalizing cached chars with
  | nil =>
      refine ⟨by simp [chunks], ?_⟩
      rcases pending with empty | invalid
      · exact empty
      · exfalso
        rw [List.flatMap_nil, List.append_nil] at text nonzero
        rw [← Bool.not_eq_true, isValidUtf8_eq_true_iff,
          cStr_eq_self nonzero, ← text, List.flatMap_def] at invalid
        exact invalid
          (LeadCode.scan_flatten fun word member =>
            isWord_of_mem_encodings member)
  | cons token tokens inductionHypothesis =>
      rw [List.flatMap_cons, ← List.append_assoc] at nonzero text
      rw [chunks, unsent]
      split
      case isTrue valid =>
        -- What is handed over ends where a character ends.
        have free : 0 ∉ cached ++ runtime.piece token :=
          fun member => nonzero (List.mem_append_left _ member)
        rw [isValidUtf8_eq_true_iff, cStr_eq_self free] at valid
        rw [List.flatMap_def] at text
        obtain ⟨count, front, back⟩ := LeadCode.exists_take_of_scan
          (fun word member => isWord_of_mem_encodings member) text valid
        rw [← List.map_drop, ← List.flatMap_def] at back
        rw [← List.map_take, ← List.flatMap_def] at front
        obtain ⟨later, done⟩ := @inductionHypothesis [] (chars.drop count)
          (fun member => nonzero (List.mem_append_right _ member))
          back.symm (Or.inl rfl)
        refine ⟨?_, done⟩
        rw [cStr_eq_self free, List.forall_mem_cons]
        exact ⟨⟨_, front.symm⟩, later⟩
      case isFalse invalid =>
        obtain ⟨later, done⟩ := inductionHypothesis nonzero text
          (Or.inr (Bool.not_eq_true _ ▸ invalid))
        refine ⟨?_, done⟩
        rw [List.forall_mem_cons]
        exact ⟨⟨[], rfl⟩, later⟩

end Laws

/-- Tokens that spell a well-formed text without a zero byte: however the text
is cut into pieces, the strings that `completion_loop` returns are well-formed
and make up the text, after every call they and the bytes that are kept are the
pieces so far, and no byte is kept after the last one. -/
theorem reassembles
    (runtime : Runtime Token)
    (text : List UInt8)
    (tokens : List Token)
    (native : Native Token)
    (nLen nCur : Nat)
    (wellFormed : WellFormed text)
    (nonzero : 0 ∉ text)
    (pieces : tokens.flatMap runtime.piece = text)
    (empty : native.cachedTokenChars = [])
    (noEog : ∀ token ∈ tokens, runtime.isEog token = false)
    (room : ∀ count < tokens.length, nCur + count ≠ nLen) :
    ∃ strings : List (List UInt8),
      strings.flatten = text ∧
      (∀ string ∈ strings, WellFormed string) ∧
      (∀ count ≤ tokens.length, ∃ after,
        feed runtime nLen native nCur (tokens.take count) =
          some ((strings.take count).map runtime.newStringUTF, after,
            nCur + count) ∧
        (strings.take count).flatten ++ after.cachedTokenChars =
          (tokens.take count).flatMap runtime.piece) ∧
      ∃ after, feed runtime nLen native nCur tokens =
          some (strings.map runtime.newStringUTF, after,
            nCur + tokens.length) ∧
        after.cachedTokenChars = [] := by
  obtain ⟨chars, encoded⟩ := wellFormed
  subst pieces
  have start : 0 ∉ [] ++ tokens.flatMap runtime.piece := nonzero
  obtain ⟨formed, done⟩ :=
    wellFormed_chunks start encoded (Or.inl rfl)
  refine ⟨chunks runtime [] tokens, ?_, formed, ?_, ?_⟩
  · have all := flatten_chunks_append_unsent start
    rwa [done, List.append_nil, List.nil_append] at all
  · intro count within
    have some_pieces :
        0 ∉ [] ++ (tokens.take count).flatMap runtime.piece := by
      rw [← List.take_append_drop count tokens, List.flatMap_append] at nonzero
      exact fun member => nonzero (List.mem_append_left _ member)
    obtain ⟨memory, fed⟩ := feed_take_eq_some empty noEog room within
    rw [take_chunks]
    exact ⟨_, fed, flatten_chunks_append_unsent some_pieces⟩
  · obtain ⟨memory, fed⟩ := @feed_eq_some _ runtime tokens nLen nCur native
      noEog room
    rw [empty] at fed
    exact ⟨_, fed, done⟩

/-- Tokens that are their own pieces. -/
def byteRuntime : Runtime (List UInt8) where
  piece bytes := bytes
  isEog _ := false
  newStringUTF bytes := bytes.map UInt8.toUInt16

/-- The euro sign cut after its second byte, with an empty piece in between. -/
theorem reassembles_euro :
    ∃ strings : List (List UInt8),
      strings.flatten = [0xE2, 0x82, 0xAC, 0x41] ∧
      ∃ after, feed byteRuntime 8 {} 0 [[0xE2, 0x82], [], [0xAC, 0x41]] =
          some (strings.map byteRuntime.newStringUTF, after, 3) ∧
        after.cachedTokenChars = [] := by
  obtain ⟨strings, text, -, -, last⟩ := reassembles byteRuntime
    [0xE2, 0x82, 0xAC, 0x41] [[0xE2, 0x82], [], [0xAC, 0x41]] {} 8 0
    ⟨[Char.ofNat 0x20AC, 'A'], by decide⟩ (by decide) rfl rfl (by decide)
    (by decide)
  exact ⟨strings, text, last⟩

end Llama
end IdoProject
