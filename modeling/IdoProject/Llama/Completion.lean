import IdoProject.Java.Text

/-!
# The completion loop

`LLamaAndroid.send` with the native functions it calls: `completion_init`, which
decodes the prompt, and `completion_loop`, which samples one token and returns
its text.  The model, the tokenizer and the sampler are not modelled: a run is
given by the tokens of the prompt and the tokens the sampler yields.
-/

namespace IdoProject
namespace Llama

open Java

/-! ## Bytes of a token -/

/-- The bytes before the terminating zero. -/
def cStr (bytes : List UInt8) : List UInt8 :=
  bytes.takeWhile (· ≠ 0)

/-- Number of bytes of the character that a byte begins. -/
def sequenceLength (byte : UInt8) : Option Nat :=
  if byte &&& 0x80 = 0x00 then some 1
  else if byte &&& 0xE0 = 0xC0 then some 2
  else if byte &&& 0xF0 = 0xE0 then some 3
  else if byte &&& 0xF8 = 0xF0 then some 4
  else none

/-- `is_valid_utf8`, with so many continuation bytes outstanding.  The end of
the list is the terminating zero. -/
def isValidFrom : Nat → List UInt8 → Bool
  | 0, [] => true
  | _ + 1, [] => false
  | 0, byte :: bytes =>
      if byte = 0x00 then true
      else match sequenceLength byte with
        | some num => isValidFrom (num - 1) bytes
        | none => false
  | outstanding + 1, byte :: bytes =>
      byte &&& 0xC0 = 0x80 && isValidFrom outstanding bytes

/-- `is_valid_utf8` -/
def isValidUtf8 (bytes : List UInt8) : Bool :=
  isValidFrom 0 bytes

/-! ## The native functions -/

/-- What the native code is given: the vocabulary of the model, and the
conversion of a C string to a Java string. -/
structure Runtime (Token : Type u) where
  /-- `common_token_to_piece` -/
  piece : Token → List UInt8
  /-- `llama_vocab_is_eog` -/
  isEog : Token → Bool
  /-- `NewStringUTF` -/
  newStringUTF : List UInt8 → JString

/-- The state that outlives a call. -/
structure Native (Token : Type u) where
  /-- `cached_token_chars` -/
  cachedTokenChars : List UInt8 := []
  /-- Tokens and positions passed to `llama_decode` since the cache was
  cleared. -/
  memory : List (Token × Nat) := []
  deriving DecidableEq

/-- The length that `LLamaAndroid` asks for. -/
def nlen : Nat := 256

/-- The number of tokens `new_batch` makes room for. -/
def batchSize : Nat := 512

variable {Token : Type u}

/-- `completion_init`, with the number of tokens it returns.  It writes outside
the batch when the prompt is empty or longer than the batch. -/
def completionInit
    (native : Native Token)
    (prompt : List Token) : Option (Native Token × Nat) :=
  if 0 < prompt.length ∧ prompt.length ≤ batchSize then
    some (⟨[], native.memory ++ prompt.zipIdx⟩, prompt.length)
  else none

/-- `completion_loop` on the token the sampler yields, with `ncur` afterwards.
It is `none` where the function returns `nullptr`. -/
def completionLoop
    (runtime : Runtime Token)
    (native : Native Token)
    (nLen nCur : Nat)
    (newTokenId : Token) : Option (JString × Native Token × Nat) :=
  if runtime.isEog newTokenId ∨ nCur = nLen then none
  else
    let cached := native.cachedTokenChars ++ runtime.piece newTokenId
    let memory := native.memory ++ [(newTokenId, nCur)]
    if isValidUtf8 cached then
      some (runtime.newStringUTF (cStr cached), ⟨[], memory⟩, nCur + 1)
    else some (runtime.newStringUTF [], ⟨cached, memory⟩, nCur + 1)

/-- `kv_cache_clear` -/
def kvCacheClear (native : Native Token) : Native Token :=
  { native with memory := [] }

/-! ## The flow -/

/-- The loop of `send`, with the strings it emits.  `sampled` are the tokens the
sampler yields, from the given index on; the number of rounds is a bound. -/
def sendLoop
    (runtime : Runtime Token)
    (sampled : Nat → Token) :
    Nat → Nat → Native Token → Nat → List JString × Native Token
  | 0, _, native, _ => ([], native)
  | rounds + 1, index, native, ncur =>
      if ncur ≤ nlen then
        match completionLoop runtime native nlen ncur (sampled index) with
        | none => ([], native)
        | some (str, after, ncur) =>
            let rest := sendLoop runtime sampled rounds (index + 1) after ncur
            (str :: rest.1, rest.2)
      else ([], native)

/-- `send` on a loaded model. -/
def send
    (runtime : Runtime Token)
    (sampled : Nat → Token)
    (native : Native Token)
    (prompt : List Token) : Option (List JString × Native Token) :=
  (completionInit native prompt).map fun begun =>
    let emitted :=
      sendLoop runtime sampled (nlen + 1 - begun.2) 0 begun.1 begun.2
    (emitted.1, kvCacheClear emitted.2)

/-! ## What a flow emits -/

/-- The strings that `completion_loop` makes of a list of tokens when none of
them ends the loop. -/
def spell
    (runtime : Runtime Token) : List UInt8 → List Token → List JString
  | _, [] => []
  | cached, token :: tokens =>
      let bytes := cached ++ runtime.piece token
      if isValidUtf8 bytes then
        runtime.newStringUTF (cStr bytes) :: spell runtime [] tokens
      else runtime.newStringUTF [] :: spell runtime bytes tokens

/-- The bytes that are kept for the next token after a list of tokens none of
which ends the loop. -/
def unsent
    (runtime : Runtime Token) : List UInt8 → List Token → List UInt8
  | cached, [] => cached
  | cached, token :: tokens =>
      let bytes := cached ++ runtime.piece token
      unsent runtime (if isValidUtf8 bytes then [] else bytes) tokens

/-- The tokens that the sampler yields from one index on. -/
def tokensFrom (sampled : Nat → Token) (index count : Nat) : List Token :=
  (List.range' index count).map sampled

section Laws

variable {runtime : Runtime Token}
variable {sampled : Nat → Token}
variable {cached : List UInt8} {tokens : List Token}
variable {index count ncur rounds : Nat}
variable {native : Native Token}

@[simp] theorem length_tokensFrom :
    (tokensFrom sampled index count).length = count := by
  simp [tokensFrom]

theorem tokensFrom_succ :
    tokensFrom sampled index (count + 1) =
      sampled index :: tokensFrom sampled (index + 1) count := by
  simp [tokensFrom, List.range'_succ]

theorem take_tokensFrom
    (fewer : Nat) :
    (tokensFrom sampled index count).take fewer =
      tokensFrom sampled index (min fewer count) := by
  induction count generalizing index fewer with
  | zero => simp [tokensFrom]
  | succ count inductionHypothesis =>
      cases fewer with
      | zero => simp [tokensFrom]
      | succ fewer =>
          rw [tokensFrom_succ, List.take_succ_cons, inductionHypothesis,
            Nat.succ_min_succ, tokensFrom_succ]

/-- One string for every token. -/
@[simp] theorem length_spell :
    (spell runtime cached tokens).length = tokens.length := by
  induction tokens generalizing cached with
  | nil => rfl
  | cons token tokens inductionHypothesis =>
      rw [spell]
      split <;> rw [List.length_cons, inductionHypothesis, List.length_cons]

/-- The strings of the first tokens do not depend on the later ones. -/
theorem take_spell
    (fewer : Nat) :
    (spell runtime cached tokens).take fewer =
      spell runtime cached (tokens.take fewer) := by
  induction tokens generalizing cached fewer with
  | nil => simp [spell]
  | cons token tokens inductionHypothesis =>
      cases fewer with
      | zero => simp [spell]
      | succ fewer =>
          rw [List.take_succ_cons, spell, spell]
          split <;> rw [List.take_succ_cons, inductionHypothesis]

/-- The strings of the later tokens depend on the earlier ones by the bytes that
these have left. -/
theorem spell_append
    (later : List Token) :
    spell runtime cached (tokens ++ later) =
      spell runtime cached tokens ++
        spell runtime (unsent runtime cached tokens) later := by
  induction tokens generalizing cached with
  | nil => rfl
  | cons token tokens inductionHypothesis =>
      rw [List.cons_append, spell, spell, unsent]
      split <;> rw [inductionHypothesis, List.cons_append]

theorem unsent_append
    (later : List Token) :
    unsent runtime cached (tokens ++ later) =
      unsent runtime (unsent runtime cached tokens) later := by
  induction tokens generalizing cached with
  | nil => rfl
  | cons token tokens inductionHypothesis =>
      rw [List.cons_append, unsent, unsent, inductionHypothesis]

/-- A token that does not end the loop is spelled and decoded. -/
theorem completionLoop_eq_some
    {nLen nCur : Nat}
    {token : Token}
    (continues : ¬(runtime.isEog token ∨ nCur = nLen)) :
    ∃ str, spell runtime native.cachedTokenChars [token] = [str] ∧
      completionLoop runtime native nLen nCur token =
        some (str,
          ⟨unsent runtime native.cachedTokenChars [token],
            native.memory ++ [(token, nCur)]⟩, nCur + 1) := by
  unfold completionLoop
  rw [if_neg continues, spell, unsent]
  dsimp only
  split <;> exact ⟨_, rfl, rfl⟩

/-- The loop stops at the first end-of-generation token, and at the latest when
`nlen` positions are taken. -/
theorem sendLoop_eq
    (enough : nlen < rounds + ncur) :
    ∃ count ≤ nlen - ncur,
      (sendLoop runtime sampled rounds index native ncur).1 =
        spell runtime native.cachedTokenChars
          (tokensFrom sampled index count) ∧
      (count < nlen - ncur → runtime.isEog (sampled (index + count))) := by
  induction rounds generalizing index native ncur with
  | zero =>
      refine ⟨0, Nat.zero_le _, rfl, ?_⟩
      omega
  | succ rounds inductionHypothesis =>
      rw [sendLoop]
      by_cases within : ncur ≤ nlen
      case neg =>
        refine ⟨0, Nat.zero_le _, ?_, ?_⟩
        · rw [if_neg within]
          rfl
        · omega
      case pos =>
        rw [if_pos within]
        unfold completionLoop
        by_cases ends : runtime.isEog (sampled index) ∨ ncur = nlen
        case pos =>
          refine ⟨0, Nat.zero_le _, ?_, ?_⟩
          · rw [if_pos ends]
            rfl
          · intro below
            exact ends.resolve_right (by omega)
        case neg =>
          have going : ncur ≠ nlen := fun equal => ends (Or.inr equal)
          rw [if_neg ends]
          have later (after : Native Token) :=
            @inductionHypothesis (index + 1) (ncur + 1) after (by omega)
          by_cases valid : isValidUtf8
              (native.cachedTokenChars ++ runtime.piece (sampled index)) = true
          all_goals
            simp only [valid, if_true, if_false, Bool.false_eq_true]
          case pos =>
            obtain ⟨count, bound, emitted, stopped⟩ := later
              ⟨[], native.memory ++ [(sampled index, ncur)]⟩
            refine ⟨count + 1, by omega, ?_, ?_⟩
            · rw [emitted, tokensFrom_succ, spell, if_pos valid]
            · intro below
              rw [show index + (count + 1) = index + 1 + count by omega]
              exact stopped (by omega)
          case neg =>
            obtain ⟨count, bound, emitted, stopped⟩ := later
              ⟨native.cachedTokenChars ++ runtime.piece (sampled index),
                native.memory ++ [(sampled index, ncur)]⟩
            refine ⟨count + 1, by omega, ?_, ?_⟩
            · rw [emitted, tokensFrom_succ, spell, if_neg valid]
            · intro below
              rw [show index + (count + 1) = index + 1 + count by omega]
              exact stopped (by omega)

/-- What a flow emits: the strings of the tokens before the first one that ends
the generation, and no more than fit behind the prompt. -/
theorem exists_spell_of_send
    {after : Native Token}
    {prompt : List Token}
    {emitted : List JString}
    (emits : send runtime sampled native prompt = some (emitted, after)) :
    ∃ count ≤ nlen - prompt.length,
      emitted = spell runtime [] (tokensFrom sampled 0 count) ∧
      (count < nlen - prompt.length → runtime.isEog (sampled count)) := by
  obtain ⟨begun, started, result⟩ := Option.map_eq_some_iff.mp emits
  unfold completionInit at started
  split at started <;> cases started
  rw [Prod.mk.injEq] at result
  have enough : nlen < nlen + 1 - prompt.length + prompt.length := by omega
  obtain ⟨count, bound, strings, stopped⟩ :=
    @sendLoop_eq _ runtime sampled 0 _ _
      ⟨[], native.memory ++ prompt.zipIdx⟩ enough
  refine ⟨count, bound, ?_, ?_⟩
  · rw [← result.1, strings]
  · rwa [Nat.zero_add] at stopped

end Laws

end Llama
end IdoProject
