import IdoProject.Chat.Prompt
import IdoProject.Llama.PromptText

/-!
# The batch

`new_batch` allocates the arrays of a batch once, for a fixed number of tokens.
`completion_init` adds the tokens of the whole prompt to it and marks the last
one, `completion_loop` starts over with one token.  No call compares the number
of tokens with what was allocated: every index is within the arrays exactly when
the prompt has at least one token and no more than there is room for.
-/

namespace IdoProject
namespace Llama

open Java Chat Store

/-- The arrays of a `llama_batch`.  The entries of `seq_id` are arrays of their
own. -/
inductive BatchArray
  | token
  | pos
  | nSeqId
  | seqId
  | seqIdOf (entry : Nat)
  | logits
  deriving DecidableEq

/-- An element of an array that is read or written. -/
structure Access where
  array : BatchArray
  index : Int
  deriving DecidableEq

/-- A `llama_batch`: what was allocated, and the tokens it holds.  The contents
of the arrays are left out. -/
structure Batch where
  /-- Entries of the arrays. -/
  nTokensAlloc : Nat
  /-- Entries of every array in `seq_id`. -/
  nSeqMax : Nat
  /-- `n_tokens` -/
  nTokens : Nat := 0
  deriving DecidableEq

namespace Batch

/-- Allocated entries of an array. -/
def allocated (batch : Batch) : BatchArray → Nat
  | .seqIdOf entry => if entry < batch.nTokensAlloc then batch.nSeqMax else 0
  | _ => batch.nTokensAlloc

/-- The element was allocated. -/
def Within (batch : Batch) (access : Access) : Prop :=
  0 ≤ access.index ∧ access.index < batch.allocated access.array

instance (batch : Batch) (access : Access) : Decidable (batch.Within access) :=
  inferInstanceAs (Decidable (_ ∧ _))

end Batch

/-- `new_batch` without embeddings. -/
def newBatch (nTokens nSeqMax : Nat) : Batch where
  nTokensAlloc := nTokens
  nSeqMax := nSeqMax

/-- The batch that `load` asks for. -/
def loadedBatch : Batch :=
  newBatch batchSize 1

/-- `common_batch_clear` -/
def commonBatchClear (batch : Batch) : Batch :=
  { batch with nTokens := 0 }

/-- `common_batch_add` for so many sequences, with the elements it touches.  The
first one is read by the assertion on the size. -/
def commonBatchAdd (batch : Batch) (seqIds : Nat) : Batch × List Access :=
  let n := batch.nTokens
  ({ batch with nTokens := n + 1 },
    [⟨.seqId, n⟩, ⟨.token, n⟩, ⟨.pos, n⟩, ⟨.nSeqId, n⟩] ++
      (List.range seqIds).flatMap
        (fun i => [⟨.seqId, n⟩, ⟨.seqIdOf n, i⟩]) ++
      [⟨.logits, n⟩])

/-- The loop of `completion_init` over the tokens of the prompt. -/
def addTokens {Token : Type u} : Batch → List Token → Batch × List Access
  | batch, [] => (batch, [])
  | batch, _ :: tokens =>
      let added := commonBatchAdd batch 1
      let rest := addTokens added.1 tokens
      (rest.1, added.2 ++ rest.2)

/-- What `completion_init` does to the batch.  It marks the last token, which
is in front of the array when there is none. -/
def initBatch {Token : Type u}
    (batch : Batch)
    (tokensList : List Token) : Batch × List Access :=
  let added := addTokens (commonBatchClear batch) tokensList
  (added.1, added.2 ++ [⟨.logits, (added.1.nTokens : Int) - 1⟩])

/-- What `completion_loop` does to the batch, with `ncur` afterwards.  It is
`none` where the function returns `nullptr`. -/
def loopBatch {Token : Type u}
    (runtime : Runtime Token)
    (batch : Batch)
    (nLen nCur : Nat)
    (newTokenId : Token) : Option (Batch × List Access × Nat) :=
  if runtime.isEog newTokenId ∨ nCur = nLen then none
  else
    let added := commonBatchAdd (commonBatchClear batch) 1
    some (added.1, added.2, nCur + 1)

/-- The elements that the loop of `send` touches in so many rounds at most. -/
def loopAccesses {Token : Type u}
    (runtime : Runtime Token)
    (sampled : Nat → Token) : Nat → Nat → Batch → Nat → List Access
  | 0, _, _, _ => []
  | rounds + 1, index, batch, ncur =>
      if ncur ≤ nlen then
        match loopBatch runtime batch nlen ncur (sampled index) with
        | none => []
        | some (after, accesses, ncur) =>
            accesses ++
              loopAccesses runtime sampled rounds (index + 1) after ncur
      else []

/-- The elements that a flow of `send` touches, when it is collected for so many
rounds. -/
def sendAccesses {Token : Type u}
    (runtime : Runtime Token)
    (sampled : Nat → Token)
    (batch : Batch)
    (tokensList : List Token)
    (rounds : Nat) : List Access :=
  let begun := initBatch batch tokensList
  begun.2 ++ loopAccesses runtime sampled rounds 0 begun.1 begun.1.nTokens

section Laws

variable {Token : Type u}
variable {runtime : Runtime Token} {sampled : Nat → Token}
variable {batch : Batch} {tokens : List Token}

@[simp] theorem allocated_setTokens
    (count : Nat) :
    ({ batch with nTokens := count } : Batch).allocated = batch.allocated := by
  funext array
  cases array <;> rfl

@[simp] theorem within_setTokens
    (count : Nat)
    (access : Access) :
    ({ batch with nTokens := count } : Batch).Within access ↔
      batch.Within access := by
  rw [Batch.Within, Batch.Within, allocated_setTokens]

/-- One more token fits exactly when the batch has room for it. -/
theorem within_commonBatchAdd_iff
    (sequences : batch.nSeqMax = 1) :
    (∀ access ∈ (commonBatchAdd batch 1).2, batch.Within access) ↔
      batch.nTokens < batch.nTokensAlloc := by
  simp only [commonBatchAdd, List.range_one, List.flatMap_singleton,
    List.cons_append, List.nil_append, List.forall_mem_cons, List.not_mem_nil,
    Batch.Within, Batch.allocated, sequences]
  constructor
  · intro all
    omega
  · intro room
    simp [room]

/-- Adding tokens leaves the arrays as they are and counts the tokens. -/
theorem addTokens_fst :
    (addTokens batch tokens).1 =
      { batch with nTokens := batch.nTokens + tokens.length } := by
  induction tokens generalizing batch with
  | nil => rfl
  | cons token tokens inductionHypothesis =>
      rw [addTokens, inductionHypothesis, List.length_cons]
      simp only [commonBatchAdd, Batch.mk.injEq, true_and]
      omega

/-- So many more tokens fit exactly when the batch has room for them. -/
theorem within_addTokens_iff
    (sequences : batch.nSeqMax = 1)
    (filled : batch.nTokens ≤ batch.nTokensAlloc) :
    (∀ access ∈ (addTokens batch tokens).2, batch.Within access) ↔
      batch.nTokens + tokens.length ≤ batch.nTokensAlloc := by
  induction tokens generalizing batch with
  | nil => simp [addTokens, filled]
  | cons token tokens inductionHypothesis =>
      rw [addTokens, List.forall_mem_append, List.length_cons,
        within_commonBatchAdd_iff sequences]
      by_cases room : batch.nTokens < batch.nTokensAlloc
      case neg =>
        constructor
        · intro all
          exact absurd all.1 room
        · intro all
          omega
      case pos =>
        have later := @inductionHypothesis (commonBatchAdd batch 1).1
          sequences room
        simp only [commonBatchAdd, within_setTokens] at later ⊢
        rw [later]
        omega

/-- The prompt fits exactly when it has a token and the batch has room for all
of them. -/
theorem within_initBatch_iff
    (sequences : batch.nSeqMax = 1) :
    (∀ access ∈ (initBatch batch tokens).2, batch.Within access) ↔
      0 < tokens.length ∧ tokens.length ≤ batch.nTokensAlloc := by
  have added := @within_addTokens_iff _ (commonBatchClear batch) tokens
    sequences (Nat.zero_le _)
  simp only [commonBatchClear, within_setTokens, Nat.zero_add] at added
  have marked : batch.Within ⟨.logits, (tokens.length : Int) - 1⟩ ↔
      0 < tokens.length ∧ tokens.length ≤ batch.nTokensAlloc := by
    simp only [Batch.Within, Batch.allocated]
    omega
  simp only [initBatch, List.forall_mem_append, List.forall_mem_singleton,
    addTokens_fst, commonBatchClear, added, Nat.zero_add, marked]
  omega

/-- The token of a round is the first one of the batch. -/
theorem within_loopBatch
    {nLen nCur after : Nat}
    {newTokenId : Token}
    {next : Batch}
    {accesses : List Access}
    (sequences : batch.nSeqMax = 1)
    (room : 0 < batch.nTokensAlloc)
    (goesOn : loopBatch runtime batch nLen nCur newTokenId =
      some (next, accesses, after)) :
    (∀ access ∈ accesses, batch.Within access) ∧
      next = { batch with nTokens := 1 } := by
  unfold loopBatch at goesOn
  split at goesOn <;> cases goesOn
  have fits := (@within_commonBatchAdd_iff (commonBatchClear batch)
    sequences).mpr room
  simp only [commonBatchClear, within_setTokens] at fits
  exact ⟨fits, rfl⟩

/-- No round reaches behind the first token. -/
theorem within_loopAccesses
    {rounds index ncur : Nat}
    (sequences : batch.nSeqMax = 1)
    (room : 0 < batch.nTokensAlloc) :
    ∀ access ∈ loopAccesses runtime sampled rounds index batch ncur,
      batch.Within access := by
  induction rounds generalizing index batch ncur with
  | zero => simp [loopAccesses]
  | succ rounds inductionHypothesis =>
      rw [loopAccesses]
      split
      case isFalse => simp
      case isTrue =>
        cases loop : loopBatch runtime batch nlen ncur (sampled index) with
        | none => simp
        | some result =>
            obtain ⟨next, accesses, after⟩ := result
            obtain ⟨fits, rfl⟩ := within_loopBatch sequences room loop
            rw [List.forall_mem_append]
            refine ⟨fits, ?_⟩
            have later := @inductionHypothesis { batch with nTokens := 1 }
              (index + 1) after sequences room
            simpa only [within_setTokens] using later

/-- A flow stays within the batch exactly when its prompt fits. -/
theorem within_sendAccesses_iff
    {rounds : Nat}
    (sequences : batch.nSeqMax = 1)
    (room : 0 < batch.nTokensAlloc) :
    (∀ access ∈ sendAccesses runtime sampled batch tokens rounds,
        batch.Within access) ↔
      0 < tokens.length ∧ tokens.length ≤ batch.nTokensAlloc := by
  unfold sendAccesses
  rw [List.forall_mem_append, within_initBatch_iff sequences, and_iff_left]
  have later := @within_loopAccesses _ runtime sampled
    (initBatch batch tokens).1 rounds 0 (initBatch batch tokens).1.nTokens
  simp only [initBatch, addTokens_fst, commonBatchClear,
    within_setTokens] at later ⊢
  exact later sequences room

end Laws

/-- For every question, every tokenizer and every run of the flow, whatever the
flows before have left in the batch: all elements that are touched are allocated
exactly when the prompt has at least one token and at most 512. -/
theorem send_within_batch_iff
    {Token : Type u}
    (runtime : Runtime Token)
    (tokenize : List UInt8 → List Token)
    (sampled : Nat → Token)
    (prefs : Prefs)
    (messages : List Message)
    (userInput : JString)
    (before rounds : Nat) :
    (∀ access ∈ sendAccesses runtime sampled
        { loadedBatch with nTokens := before }
        (tokenize (tokenizedText (buildPrompt prefs messages userInput)))
        rounds,
      loadedBatch.Within access) ↔
      1 ≤ (tokenize
        (tokenizedText (buildPrompt prefs messages userInput))).length ∧
      (tokenize
        (tokenizedText (buildPrompt prefs messages userInput))).length ≤ 512 :=
    by
  have fits := @within_sendAccesses_iff _ runtime sampled
    { loadedBatch with nTokens := before }
    (tokenize (tokenizedText (buildPrompt prefs messages userInput))) rounds
    rfl (Nat.zero_lt_succ _)
  simp only [within_setTokens] at fits
  exact fits

/-- One token for every byte. -/
def tokenizeBytes (text : List UInt8) : List (List UInt8) :=
  text.map fun byte => [byte]

/-- Every code unit of the question makes at least one byte of the prompt. -/
theorem length_le_tokenizedText
    (prefs : Prefs)
    (messages : List Message)
    (userInput : JString) :
    userInput.length ≤
      (tokenizedText (buildPrompt prefs messages userInput)).length := by
  have bytes (text : JString) :
      text.length ≤ (getStringUTFChars text).length := by
    induction text with
    | nil => exact Nat.le_refl _
    | cons unit text inductionHypothesis =>
        obtain ⟨lead, following, form, -⟩ := isWord_modifiedUtf8 unit
        rw [getStringUTFChars, List.flatMap_cons, form, List.length_append,
          List.length_cons, List.length_cons]
        change _ ≤ _ + (getStringUTFChars text).length
        omega
  rw [tokenizedText_eq]
  apply Nat.le_trans _ (bytes _)
  simp only [buildPrompt, List.length_append]
  omega

/-- Where every byte is a token, a question of 513 letters touches an element
that was not allocated. -/
theorem send_not_within_batch :
    ∃ access ∈ sendAccesses byteRuntime (fun _ => []) loadedBatch
        (tokenizeBytes (tokenizedText
          (buildPrompt {} [] (List.replicate 513 97)))) 0,
      ¬loadedBatch.Within access := by
  by_contra none_beyond
  have fits := (within_sendAccesses_iff rfl (Nat.zero_lt_succ _)).mp
    fun access member => by_contra fun beyond =>
      none_beyond ⟨access, member, beyond⟩
  have long := length_le_tokenizedText {} [] (List.replicate 513 97)
  rw [List.length_replicate] at long
  rw [tokenizeBytes, List.length_map, show loadedBatch.nTokensAlloc = 512 from
    rfl] at fits
  omega

end Llama
end IdoProject
