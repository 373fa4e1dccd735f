import IdoProject.Llama.Batch

/-!
# The benchmark

`bench` hands its four numbers to `bench_model`, which fills the batch of the
loaded model as if it had room for any of them, and marks the last token of the
prompt as if there always were one.  The module says for which numbers every
element is allocated and every product of two numbers is one.
-/

namespace IdoProject
namespace Llama

open Java

/-- The rounds of `for (i = 0; i < bound; i++)`. -/
def loopCount (bound : JInt) : Nat :=
  bound.toInt.toNat

/-- Add so many tokens to a cleared batch. -/
def fillBatch (batch : Batch) (bound : JInt) : Batch × List Access :=
  addTokens (commonBatchClear batch) (List.replicate (loopCount bound) ())

/-- The loop of the text generation, with `pl` sequences in each round. -/
def generateText (pl : JInt) : Nat → Batch → Batch × List Access
  | 0, batch => (batch, [])
  | rounds + 1, batch =>
      let filled := fillBatch batch pl
      let rest := generateText pl rounds filled.1
      (rest.1, filled.2 ++ rest.2)

/-- One of the `nr` rounds of `bench_model`: what it does to the batch. -/
def benchRound (batch : Batch) (pp tg pl : JInt) : Batch × List Access :=
  let prompt := fillBatch batch pp
  let generated := generateText pl (loopCount tg) prompt.1
  (generated.1,
    prompt.2 ++ ⟨.logits, (prompt.1.nTokens : Int) - 1⟩ :: generated.2)

/-- `bench_model`, without the times and the text it returns. -/
def benchModel (pp tg pl : JInt) : Nat → Batch → Batch × List Access
  | 0, batch => (batch, [])
  | rounds + 1, batch =>
      let round := benchRound batch pp tg pl
      let rest := benchModel pp tg pl rounds round.1
      (rest.1, round.2 ++ rest.2)

/-- `pl * tg` is an `int`, which every round computes. -/
def ProductFits (tg pl : JInt) : Prop :=
  -2147483648 ≤ pl.toInt * tg.toInt ∧ pl.toInt * tg.toInt ≤ 2147483647

instance (tg pl : JInt) : Decidable (ProductFits tg pl) :=
  inferInstanceAs (Decidable (_ ∧ _))

/-- Every element that `bench_model` touches is allocated, and every product it
computes is an `int`. -/
def BenchDefined (batch : Batch) (pp tg pl nr : JInt) : Prop :=
  (∀ access ∈ (benchModel pp tg pl (loopCount nr) batch).2,
    batch.Within access) ∧
    (0 < loopCount nr → ProductFits tg pl)

section Laws

variable {batch : Batch}
variable {pp tg pl : JInt}
variable {rounds : Nat}

/-- Filling the batch leaves the arrays as they are. -/
theorem fillBatch_fst
    (bound : JInt) :
    (fillBatch batch bound).1 = { batch with nTokens := loopCount bound } := by
  rw [fillBatch, addTokens_fst, List.length_replicate]
  simp [commonBatchClear]

theorem within_fillBatch_iff
    (sequences : batch.nSeqMax = 1)
    (bound : JInt) :
    (∀ access ∈ (fillBatch batch bound).2, batch.Within access) ↔
      loopCount bound ≤ batch.nTokensAlloc := by
  have fits := @within_addTokens_iff _ (commonBatchClear batch)
    (List.replicate (loopCount bound) ()) sequences (Nat.zero_le _)
  simp only [commonBatchClear, within_setTokens, Nat.zero_add,
    List.length_replicate] at fits
  exact fits

/-- The loop leaves the arrays as they are. -/
theorem generateText_fst :
    ∃ count, (generateText pl rounds batch).1 =
      { batch with nTokens := count } := by
  induction rounds generalizing batch with
  | zero => exact ⟨batch.nTokens, rfl⟩
  | succ rounds inductionHypothesis =>
      obtain ⟨count, rest⟩ := @inductionHypothesis (fillBatch batch pl).1
      refine ⟨count, ?_⟩
      rw [generateText, rest, fillBatch_fst]

/-- The loop stays within the batch exactly when it does nothing or the batch
has room for the sequences of one round. -/
theorem within_generateText_iff
    (sequences : batch.nSeqMax = 1) :
    (∀ access ∈ (generateText pl rounds batch).2, batch.Within access) ↔
      rounds = 0 ∨ loopCount pl ≤ batch.nTokensAlloc := by
  induction rounds generalizing batch with
  | zero => simp [generateText]
  | succ rounds inductionHypothesis =>
      have later := @inductionHypothesis
        { batch with nTokens := loopCount pl } sequences
      simp only [within_setTokens] at later
      rw [generateText, List.forall_mem_append, within_fillBatch_iff sequences,
        fillBatch_fst, later]
      omega

/-- One round stays within the batch exactly when the prompt has a token and
fits, and so do the sequences if text is generated. -/
theorem within_benchRound_iff
    (sequences : batch.nSeqMax = 1) :
    (∀ access ∈ (benchRound batch pp tg pl).2, batch.Within access) ↔
      (0 < loopCount pp ∧ loopCount pp ≤ batch.nTokensAlloc) ∧
        (loopCount tg = 0 ∨ loopCount pl ≤ batch.nTokensAlloc) := by
  have generated := @within_generateText_iff
    { batch with nTokens := loopCount pp } pl (loopCount tg) sequences
  simp only [within_setTokens] at generated
  have marked : batch.Within ⟨.logits, (loopCount pp : Int) - 1⟩ ↔
      0 < loopCount pp ∧ loopCount pp ≤ batch.nTokensAlloc := by
    simp only [Batch.Within, Batch.allocated]
    omega
  rw [benchRound, List.forall_mem_append, List.forall_mem_cons,
    within_fillBatch_iff sequences, fillBatch_fst, generated, marked]
  tauto

/-- A round leaves the arrays as they are. -/
theorem benchRound_fst :
    ∃ count, (benchRound batch pp tg pl).1 = { batch with nTokens := count } := by
  obtain ⟨count, generated⟩ := @generateText_fst (fillBatch batch pp).1 pl
    (loopCount tg)
  refine ⟨count, ?_⟩
  rw [benchRound, generated, fillBatch_fst]

/-- All rounds touch elements of the batch alone exactly when one does. -/
theorem within_benchModel_iff
    (sequences : batch.nSeqMax = 1) :
    (∀ access ∈ (benchModel pp tg pl rounds batch).2, batch.Within access) ↔
      rounds = 0 ∨
        (0 < loopCount pp ∧ loopCount pp ≤ batch.nTokensAlloc) ∧
          (loopCount tg = 0 ∨ loopCount pl ≤ batch.nTokensAlloc) := by
  induction rounds generalizing batch with
  | zero => simp [benchModel]
  | succ rounds inductionHypothesis =>
      obtain ⟨count, round⟩ := @benchRound_fst batch pp tg pl
      have later := @inductionHypothesis { batch with nTokens := count }
        sequences
      simp only [within_setTokens] at later
      rw [benchModel, List.forall_mem_append, within_benchRound_iff sequences,
        round, later]
      omega

end Laws

/-- Whatever the flows before have left in the batch of the loaded model: the
benchmark is defined exactly when it has no round, or its prompt has at least one
token and at most 512, the sequences of a round of text generation are at most
512 if there is such a round, and the number of generated tokens is an `int`. -/
theorem benchDefined_iff
    (before : Nat)
    (pp tg pl nr : JInt) :
    BenchDefined { loadedBatch with nTokens := before } pp tg pl nr ↔
      nr.toInt ≤ 0 ∨
        (1 ≤ pp.toInt ∧ pp.toInt ≤ 512) ∧
          (tg.toInt ≤ 0 ∨ pl.toInt ≤ 512) ∧ ProductFits tg pl := by
  rw [BenchDefined, within_benchModel_iff rfl]
  simp only [loopCount, loadedBatch, newBatch, batchSize]
  by_cases fits : ProductFits tg pl
  · simp only [fits, implies_true, and_true]
    omega
  · simp only [fits, imp_false, and_false, or_false]
    omega

end Llama
end IdoProject
