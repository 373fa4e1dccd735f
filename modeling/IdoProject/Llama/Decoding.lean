import IdoProject.Llama.Reassembly
import IdoProject.Transition.Trace

/-!
# Failed decodes

`completion_init` and `completion_loop` log a failed `llama_decode` and return
as if it had succeeded, so the loop of `send` goes on.  The calls of a flow are
listed in their order, and every sample and every string that is emitted is
looked at together with the decodes before it.
-/

namespace IdoProject
namespace Llama

open Java Transition

/-- What a flow does, in order. -/
inductive FlowStep (Token : Type u)
  /-- `llama_decode`, with whether it returned 0. -/
  | decode (succeeded : Bool)
  /-- `llama_sampler_sample`, with the token it yields. -/
  | sample (token : Token)
  /-- `emit` -/
  | emit (str : JString)

namespace FlowStep

variable {Token : Type u}

/-- The outcome of a decode. -/
def outcome? : FlowStep Token → Option Bool
  | .decode succeeded => some succeeded
  | _ => none

/-- The string of an emission. -/
def emitted? : FlowStep Token → Option JString
  | .emit str => some str
  | _ => none

/-- A sample is taken only when the most recent decode succeeded, and nothing is
emitted after a failed one. -/
def Heeds (before : List (FlowStep Token)) : FlowStep Token → Prop
  | .decode _ => True
  | .sample _ => (before.filterMap outcome?).getLast? = some true
  | .emit _ => false ∉ before.filterMap outcome?

end FlowStep

variable {Token : Type u}

/-- The loop of `send`.  `decodes` are the outcomes of the decodes of the flow,
the first of which is that of the prompt.  So many strings are `collected`
before the collector is cancelled, which ends the flow at its next string. -/
def loopTrace
    (runtime : Runtime Token)
    (sampled : Nat → Token)
    (decodes : Nat → Bool)
    (collected : Nat) :
    Nat → Nat → Native Token → Nat → List (FlowStep Token)
  | 0, _, _, _ => []
  | rounds + 1, index, native, ncur =>
      if ncur ≤ nlen then
        .sample (sampled index) ::
          match completionLoop runtime native nlen ncur (sampled index) with
          | none => []
          | some (str, after, ncur) =>
              .decode (decodes (index + 1)) ::
                if index < collected then
                  .emit str ::
                    loopTrace runtime sampled decodes collected rounds
                      (index + 1) after ncur
                else []
      else []

/-- A flow of `send` on a loaded model, for a prompt of any length. -/
def sendTrace
    (runtime : Runtime Token)
    (sampled : Nat → Token)
    (decodes : Nat → Bool)
    (collected : Nat)
    (native : Native Token)
    (prompt : List Token) : List (FlowStep Token) :=
  .decode (decodes 0) ::
    loopTrace runtime sampled decodes collected (nlen + 1 - prompt.length) 0
      ⟨[], native.memory ++ prompt.zipIdx⟩ prompt.length

/-- The decode of every token whose string is collected succeeds.  The tokens are
those from one index on that end nothing and find a position before the last
one. -/
def DeliveredSucceed
    (runtime : Runtime Token)
    (sampled : Nat → Token)
    (decodes : Nat → Bool)
    (collected index ncur : Nat) : Prop :=
  ∀ count, index + count < collected → ncur + count < nlen →
    (∀ earlier ≤ count,
      runtime.isEog (sampled (index + earlier)) = false) →
    decodes (index + count + 1) = true

section Laws

variable {runtime : Runtime Token} {sampled : Nat → Token}
variable {decodes : Nat → Bool}
variable {collected rounds index ncur : Nat}
variable {native : Native Token}
variable {past : List (FlowStep Token)}

/-- What a flow emits is what `send` emits, as long as it is collected. -/
theorem emitted_loopTrace
    (collects : index + rounds ≤ collected) :
    (loopTrace runtime sampled decodes collected rounds index native
        ncur).filterMap FlowStep.emitted? =
      (sendLoop runtime sampled rounds index native ncur).1 := by
  induction rounds generalizing index native ncur with
  | zero => rfl
  | succ rounds inductionHypothesis =>
      rw [loopTrace, sendLoop]
      split
      case isFalse => rfl
      case isTrue =>
        cases loop : completionLoop runtime native nlen ncur
            (sampled index) with
        | none => rfl
        | some result =>
            obtain ⟨str, after, next⟩ := result
            dsimp only
            rw [if_pos (by omega),
              ← @inductionHypothesis (index + 1) next after (by omega)]
            rfl

/-- The strings of a flow that is collected to its end are those of `send`,
whatever the outcomes of the decodes. -/
theorem emitted_sendTrace
    {prompt : List Token}
    {emitted : List JString}
    {after : Native Token}
    (emits : send runtime sampled native prompt = some (emitted, after))
    (collects : nlen + 1 ≤ collected) :
    (sendTrace runtime sampled decodes collected native prompt).filterMap
      FlowStep.emitted? = emitted := by
  obtain ⟨begun, started, result⟩ := Option.map_eq_some_iff.mp emits
  unfold completionInit at started
  split at started <;> cases started
  rw [Prod.mk.injEq] at result
  rw [← result.1, sendTrace, List.filterMap_cons_none rfl,
    emitted_loopTrace (by omega)]

/-- After a failed decode the flow goes on sampling, so nothing is in order
unless it is at its end. -/
theorem heeds_loopTrace_of_failed
    (failed : (past.filterMap FlowStep.outcome?).getLast? = some false)
    (enough : nlen < rounds + ncur) :
    EachAfter FlowStep.Heeds past
        (loopTrace runtime sampled decodes collected rounds index native
          ncur) ↔
      nlen < ncur := by
  cases rounds with
  | zero =>
      rw [loopTrace]
      have beyond : nlen < ncur := by omega
      simp [beyond]
  | succ rounds =>
      rw [loopTrace]
      split
      case isFalse beyond =>
        have beyond : nlen < ncur := by omega
        simp [beyond]
      case isTrue within =>
        have none_left : ¬nlen < ncur := by omega
        rw [eachAfter_cons, FlowStep.Heeds, failed]
        simp [none_left]

/-- The first decode of the loop, and the later ones. -/
theorem deliveredSucceed_iff
    (going : runtime.isEog (sampled index) = false)
    (below : ncur < nlen) :
    DeliveredSucceed runtime sampled decodes collected index ncur ↔
      (index < collected → decodes (index + 1) = true) ∧
        DeliveredSucceed runtime sampled decodes collected (index + 1)
          (ncur + 1) := by
  constructor
  · intro all
    constructor
    · intro collects
      apply all 0 collects below
      intro earlier first
      obtain rfl := Nat.le_zero.mp first
      exact going
    · intro count collects within goOn
      rw [Nat.succ_add_eq_add_succ] at collects within ⊢
      apply all (count + 1) collects within
      intro earlier upTo
      cases earlier with
      | zero => exact going
      | succ earlier =>
          rw [← Nat.succ_add_eq_add_succ]
          exact goOn earlier (Nat.le_of_succ_le_succ upTo)
  · rintro ⟨now, later⟩ count collects within goOn
    cases count with
    | zero => exact now collects
    | succ count =>
        rw [show index + (count + 1) + 1 = index + 1 + count + 1 by omega]
        apply later count (by omega) (by omega)
        intro earlier upTo
        rw [Nat.succ_add_eq_add_succ]
        exact goOn (earlier + 1) (Nat.succ_le_succ upTo)

/-- After decodes that have all succeeded, the loop is in order exactly when
every decode succeeds whose string is collected. -/
theorem heeds_loopTrace_of_succeeded
    (last : (past.filterMap FlowStep.outcome?).getLast? = some true)
    (clean : false ∉ past.filterMap FlowStep.outcome?)
    (enough : nlen < rounds + ncur) :
    EachAfter FlowStep.Heeds past
        (loopTrace runtime sampled decodes collected rounds index native
          ncur) ↔
      DeliveredSucceed runtime sampled decodes collected index ncur := by
  induction rounds generalizing index native ncur past with
  | zero =>
      rw [loopTrace]
      refine iff_of_true eachAfter_nil ?_
      intro count _ below
      omega
  | succ rounds inductionHypothesis =>
      rw [loopTrace]
      split
      case isFalse beyond =>
        refine iff_of_true eachAfter_nil ?_
        intro count _ below
        omega
      case isTrue within =>
        rw [eachAfter_cons, FlowStep.Heeds, last, eq_self_iff_true, true_and]
        by_cases ends : runtime.isEog (sampled index) ∨ ncur = nlen
        case pos =>
          rw [completionLoop, if_pos ends]
          refine iff_of_true eachAfter_nil ?_
          intro count _ below goOn
          rcases ends with eog | full
          · have first := goOn 0 (Nat.zero_le _)
            rw [Nat.add_zero, eog] at first
            cases first
          · omega
        case neg =>
          have going : runtime.isEog (sampled index) = false := by
            simpa using fun eog => ends (Or.inl eog)
          have below : ncur < nlen := by
            have other : ncur ≠ nlen := fun equal => ends (Or.inr equal)
            omega
          obtain ⟨str, -, loop⟩ := @completionLoop_eq_some _ runtime native
            nlen ncur (sampled index) ends
          rw [loop, deliveredSucceed_iff going below]
          dsimp only
          rw [eachAfter_cons, FlowStep.Heeds, true_and]
          split
          case isFalse cancelled =>
            refine iff_of_true eachAfter_nil ⟨fun collects =>
              absurd collects cancelled, ?_⟩
            intro count collects
            omega
          case isTrue collects =>
            rw [eachAfter_cons, FlowStep.Heeds]
            cases outcome : decodes (index + 1) with
            | false => simp [FlowStep.outcome?, collects]
            | true =>
                rw [inductionHypothesis _ _ (by omega)]
                · simp [FlowStep.outcome?, clean]
                · simp [FlowStep.outcome?, List.findSome?]
                · simp [FlowStep.outcome?, clean]

end Laws

/-- For every prompt, every tokens that are sampled, every outcome of the
decodes and however long the flow is collected: a sample is taken only when the
most recent decode succeeded, and nothing is emitted after a failed one, exactly
when the decode of the prompt succeeds, unless the prompt takes more than 256
tokens, and so does every decode whose string is delivered. -/
theorem sendTrace_heeds_iff
    {Token : Type u}
    (runtime : Runtime Token)
    (sampled : Nat → Token)
    (decodes : Nat → Bool)
    (collected : Nat)
    (native : Native Token)
    (prompt : List Token) :
    EachAfter FlowStep.Heeds []
        (sendTrace runtime sampled decodes collected native prompt) ↔
      (prompt.length ≤ nlen →
        decodes 0 = true ∧
          DeliveredSucceed runtime sampled decodes collected 0
            prompt.length) := by
  have enough : nlen < nlen + 1 - prompt.length + prompt.length := by omega
  rw [sendTrace, eachAfter_cons, FlowStep.Heeds, true_and]
  cases outcome : decodes 0 with
  | false =>
      rw [heeds_loopTrace_of_failed (by simp [FlowStep.outcome?]) enough]
      simp
  | true =>
      rw [heeds_loopTrace_of_succeeded (by simp [FlowStep.outcome?])
        (by simp [FlowStep.outcome?]) enough]
      constructor
      · exact fun all _ => ⟨rfl, all⟩
      · intro all
        by_cases short : prompt.length ≤ nlen
        · exact (all short).2
        · intro count _ below
          omega

/-- The prompt is not decoded, and the answer is sampled all the same. -/
theorem sendTrace_not_heeds :
    ¬EachAfter FlowStep.Heeds []
      (sendTrace byteRuntime (fun _ => [0x41]) (fun index => index ≠ 0) 1 {}
        [[0x48], [0x69]]) := by
  intro heeds
  have first := heeds [.decode false] (.sample [0x41]) _ rfl
  cases first

end Llama
end IdoProject
