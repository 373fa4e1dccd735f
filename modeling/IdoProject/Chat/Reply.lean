import IdoProject.Java.Text
import Mathlib.Data.List.Basic
import Mathlib.Algebra.Order.Ring.Int
import Mathlib.Tactic.Ring

/-!
# One token after another

This module is the part of `ChatViewModel.generate` that looks at texts only:
what the runnable of one token decides, and the reply that a list of tokens
gives when every token is looked at in turn until one of them ends the
generation.
-/

namespace IdoProject
namespace Chat

open Java

/-- Strings that end a reply, in the order in which they are looked for. -/
def STOP_TOKENS : List JString :=
  [jstr "\nuser:", jstr "\nUser:", jstr "\nUSER:", jstr "###", jstr "</s>",
    jstr "<|im_end|>"]

section Verdict

variable (toLowerCase : JString → JString)

/-- Index at which the first stop string of the list that occurs is found, both
texts lower-cased. -/
def findStop (currentFull : JString) : Option Nat :=
  STOP_TOKENS.findSome? fun stop =>
    indexOf (toLowerCase currentFull) (toLowerCase stop)

/-- What the runnable of one token does. -/
inductive Verdict
  /-- The token is beyond the limit: finalize with the content as it is. -/
  | limit
  /-- A stop string was found: finalize with the text before it. -/
  | cut (cleaned : JString)
  /-- A stop string was found, but `substring` throws. -/
  | outOfBounds
  /-- Append the token and go on. -/
  | extend
  deriving DecidableEq

/-- Decide on a token from the number of tokens counted so far, this one
included, and the text so far, this one included. -/
def judge
    (maxTokens tokenCount : Int)
    (currentFull : JString) : Verdict :=
  if tokenCount > maxTokens then .limit
  else match findStop toLowerCase currentFull with
    | none => .extend
    | some index =>
        match substringTo currentFull index with
        | some cleaned => .cut cleaned
        | none => .outOfBounds

/-- How far a list of tokens brings a generation. -/
inductive Ending
  | unfinished
  | finalized
  | thrown
  deriving DecidableEq

/-- Content of the AI message and state of its generation. -/
structure Reply where
  content : JString
  ending : Ending
  deriving DecidableEq

/-- The reply after a list of tokens, from a count and a buffer.  The tokens
after the one that ends the generation are not looked at. -/
def replyFrom (maxTokens : Int) : Int → JString → List JString → Reply
  | _, buffer, [] => ⟨buffer, .unfinished⟩
  | count, buffer, token :: tokens =>
      match judge toLowerCase maxTokens (count + 1) (buffer ++ token) with
      | .limit => ⟨buffer, .finalized⟩
      | .cut cleaned => ⟨cleaned, .finalized⟩
      | .outOfBounds => ⟨buffer, .thrown⟩
      | .extend => replyFrom maxTokens (count + 1) (buffer ++ token) tokens

/-- The reply that a whole generation makes of its tokens. -/
def replyOf (maxTokens : Int) (tokens : List JString) : Reply :=
  replyFrom toLowerCase maxTokens 0 [] tokens

end Verdict

section Laws

variable {toLowerCase : JString → JString}
variable {maxTokens count : Int}
variable {buffer token : JString}
variable {tokens : List JString}

/-- A token is beyond the limit exactly when the count exceeds it. -/
theorem judge_eq_limit_iff
    {currentFull : JString} :
    judge toLowerCase maxTokens count currentFull = .limit ↔
      maxTokens < count := by
  unfold judge
  split
  case isTrue above => simpa using above
  case isFalse within =>
    have notAbove : ¬maxTokens < count := within
    split
    · simpa using notAbove
    · split <;> simpa using notAbove

/-- The text goes on exactly within the limit and without a stop string. -/
theorem judge_eq_extend_iff
    {currentFull : JString} :
    judge toLowerCase maxTokens count currentFull = .extend ↔
      count ≤ maxTokens ∧ findStop toLowerCase currentFull = none := by
  unfold judge
  split
  case isTrue above =>
    simp only [reduceCtorEq, false_iff]
    omega
  case isFalse within =>
    have within : count ≤ maxTokens := by omega
    split
    case h_1 absent => simp [within, absent]
    case h_2 index found =>
      split <;> simp [found]

/-- What a cut keeps. -/
theorem exists_of_judge_eq_cut
    {currentFull cleaned : JString}
    (cut : judge toLowerCase maxTokens count currentFull = .cut cleaned) :
    ∃ index, findStop toLowerCase currentFull = some index ∧
      index ≤ currentFull.length ∧ currentFull.take index = cleaned := by
  unfold judge at cut
  split at cut
  case isTrue => cases cut
  case isFalse =>
    split at cut
    case h_1 => cases cut
    case h_2 index found =>
      unfold substringTo at cut
      by_cases within : index ≤ currentFull.length
      case pos =>
        rw [if_pos within] at cut
        exact ⟨index, found, within, Verdict.cut.inj cut⟩
      case neg =>
        rw [if_neg within] at cut
        cases cut

/-- The generation is finalized by a token beyond the limit and by a stop
string whose index is inside the text, and by nothing else. -/
theorem judge_finalizes_iff
    {currentFull : JString} :
    (judge toLowerCase maxTokens count currentFull = .limit ∨
        ∃ cleaned, judge toLowerCase maxTokens count currentFull =
          .cut cleaned) ↔
      maxTokens < count ∨
        ∃ index, findStop toLowerCase currentFull = some index ∧
          index ≤ currentFull.length := by
  unfold judge
  split
  case isTrue above => simp [above.lt]
  case isFalse within =>
    have notAbove : ¬maxTokens < count := within
    split
    case h_1 absent => simp [notAbove, absent]
    case h_2 index found =>
      by_cases fits : index ≤ currentFull.length
      · simp [substringTo, fits, found]
      · simp [substringTo, fits, found, notAbove]

/-- Once a token has ended the generation, later tokens change nothing. -/
theorem replyFrom_append_of_ended
    (later : List JString)
    (ended : (replyFrom toLowerCase maxTokens count buffer tokens).ending ≠
      .unfinished) :
    replyFrom toLowerCase maxTokens count buffer (tokens ++ later) =
      replyFrom toLowerCase maxTokens count buffer tokens := by
  induction tokens generalizing count buffer with
  | nil => exact absurd rfl ended
  | cons token tokens inductionHypothesis =>
      simp only [List.cons_append, replyFrom] at ended ⊢
      split
      all_goals simp_all

/-- While no token has ended the generation, the content is the whole text and
later tokens go on from it. -/
theorem replyFrom_append_of_unfinished
    (later : List JString)
    (unfinished : (replyFrom toLowerCase maxTokens count buffer tokens).ending =
      .unfinished) :
    replyFrom toLowerCase maxTokens count buffer (tokens ++ later) =
      replyFrom toLowerCase maxTokens (count + tokens.length)
        (buffer ++ tokens.flatten) later := by
  induction tokens generalizing count buffer with
  | nil => simp
  | cons token tokens inductionHypothesis =>
      simp only [List.cons_append, replyFrom] at unfinished ⊢
      split
      case h_4 extends_ =>
        rw [extends_] at unfinished
        rw [inductionHypothesis unfinished]
        simp only [List.length_cons, List.flatten_cons, List.append_assoc]
        congr 1
        push_cast
        omega
      all_goals simp_all

/-- The content of an unfinished generation is the whole text. -/
theorem content_of_unfinished
    (unfinished : (replyFrom toLowerCase maxTokens count buffer tokens).ending =
      .unfinished) :
    (replyFrom toLowerCase maxTokens count buffer tokens).content =
      buffer ++ tokens.flatten := by
  have whole := replyFrom_append_of_unfinished [] unfinished
  rw [List.append_nil] at whole
  rw [whole]
  rfl

/-- Token `index` ends the generation: it is beyond the limit, or it completes
a stop string. -/
def EndsAt
    (toLowerCase : JString → JString)
    (maxTokens count : Int)
    (buffer : JString)
    (tokens : List JString)
    (index : Nat) : Prop :=
  maxTokens ≤ count + index ∨
    findStop toLowerCase (buffer ++ (tokens.take (index + 1)).flatten) ≠ none

/-- Some token ends the generation, and where the first one that does completes
a stop string, the index found in the lower-cased text is inside the text. -/
def EndsProperly
    (toLowerCase : JString → JString)
    (maxTokens count : Int)
    (buffer : JString)
    (tokens : List JString) : Prop :=
  ∃ index < tokens.length,
    (∀ earlier < index,
      ¬EndsAt toLowerCase maxTokens count buffer tokens earlier) ∧
    (maxTokens ≤ count + index ∨
      ∃ cut, findStop toLowerCase
          (buffer ++ (tokens.take (index + 1)).flatten) = some cut ∧
        cut ≤ (buffer ++ (tokens.take (index + 1)).flatten).length)

theorem endsAt_cons_succ
    (index : Nat) :
    EndsAt toLowerCase maxTokens count buffer (token :: tokens) (index + 1) ↔
      EndsAt toLowerCase maxTokens (count + 1) (buffer ++ token) tokens
        index := by
  unfold EndsAt
  rw [List.take_succ_cons, List.flatten_cons, ← List.append_assoc]
  rw [show count + ((index + 1 : Nat) : Int) = count + 1 + index by
    push_cast
    ring]

theorem not_endsAt_zero_iff
    (tokens : List JString) :
    ¬EndsAt toLowerCase maxTokens count buffer (token :: tokens) 0 ↔
      judge toLowerCase maxTokens (count + 1) (buffer ++ token) = .extend := by
  rw [judge_eq_extend_iff]
  simp only [EndsAt, List.take_succ_cons, List.take_zero, List.flatten_cons,
    List.flatten_nil, List.append_nil, not_or, not_not, Nat.cast_zero,
    add_zero, not_le]
  exact and_congr_left fun _ => Int.lt_iff_add_one_le

/-- Past a token that ends nothing, the condition is that of the rest. -/
theorem endsProperly_cons_of_extend
    (extended : judge toLowerCase maxTokens (count + 1) (buffer ++ token) =
      .extend) :
    EndsProperly toLowerCase maxTokens count buffer (token :: tokens) ↔
      EndsProperly toLowerCase maxTokens (count + 1) (buffer ++ token)
        tokens := by
  have first := (not_endsAt_zero_iff tokens).mpr extended
  have castSucc (index : Nat) :
      count + ((index + 1 : Nat) : Int) = count + 1 + index := by
    push_cast
    ring
  constructor
  · rintro ⟨index, inside, earlier, proper⟩
    cases index with
    | zero =>
        refine absurd ?_ first
        rcases proper with beyond | ⟨cut, found, _⟩
        · exact Or.inl beyond
        · exact Or.inr (by rw [found]; exact Option.some_ne_none cut)
    | succ index =>
        refine ⟨index, Nat.lt_of_succ_lt_succ inside, fun before less => ?_, ?_⟩
        · rw [← endsAt_cons_succ]
          exact earlier (before + 1) (Nat.succ_lt_succ less)
        · rw [List.take_succ_cons, List.flatten_cons, ← List.append_assoc,
            castSucc] at proper
          exact proper
  · rintro ⟨index, inside, earlier, proper⟩
    refine ⟨index + 1, Nat.succ_lt_succ inside, fun before less => ?_, ?_⟩
    · cases before with
      | zero => exact first
      | succ before =>
          rw [endsAt_cons_succ]
          exact earlier before (Nat.lt_of_succ_lt_succ less)
    · rw [List.take_succ_cons, List.flatten_cons, ← List.append_assoc,
        castSucc]
      exact proper

/-- At a token that ends the generation, the condition is about this token. -/
theorem endsProperly_cons_of_ends
    (ends : judge toLowerCase maxTokens (count + 1) (buffer ++ token) ≠
      .extend) :
    EndsProperly toLowerCase maxTokens count buffer (token :: tokens) ↔
      maxTokens < count + 1 ∨
        ∃ cut, findStop toLowerCase (buffer ++ token) = some cut ∧
          cut ≤ (buffer ++ token).length := by
  have first := mt (not_endsAt_zero_iff tokens).mp ends
  constructor
  · rintro ⟨index, inside, earlier, proper⟩
    cases index with
    | zero => simpa [Int.lt_add_one_iff] using proper
    | succ index => exact absurd (earlier 0 (Nat.succ_pos index)) first
  · intro proper
    refine ⟨0, Nat.succ_pos _, fun before less => absurd less (Nat.not_lt_zero _), ?_⟩
    simpa [Int.lt_add_one_iff] using proper

/-- The generation is finalized exactly when the tokens end it properly. -/
theorem ending_eq_finalized_iff :
    (replyFrom toLowerCase maxTokens count buffer tokens).ending = .finalized ↔
      EndsProperly toLowerCase maxTokens count buffer tokens := by
  induction tokens generalizing count buffer with
  | nil => simp [replyFrom, EndsProperly]
  | cons token tokens inductionHypothesis =>
      rw [replyFrom]
      cases decided :
          judge toLowerCase maxTokens (count + 1) (buffer ++ token) with
      | extend =>
          rw [endsProperly_cons_of_extend decided]
          exact inductionHypothesis
      | limit =>
          rw [endsProperly_cons_of_ends (by rw [decided]; simp),
            ← judge_finalizes_iff]
          simp [decided]
      | cut cleaned =>
          rw [endsProperly_cons_of_ends (by rw [decided]; simp),
            ← judge_finalizes_iff]
          simp [decided]
      | outOfBounds =>
          rw [endsProperly_cons_of_ends (by rw [decided]; simp),
            ← judge_finalizes_iff]
          simp [decided]

end Laws

end Chat
end IdoProject
