import IdoProject.Llama.Completion
import IdoProject.Llama.Handles

/-!
# Flows on the run loop

All flows of `send` run on the one thread of the run loop, and so do `load`,
`unload` and `bench`.  What a flow does between two calls of `emit` is not
interrupted; at `emit` it may be suspended, and whatever is queued may run before
it goes on.  A flow whose collector fails ends at `emit`, behind which nothing of
it runs.  The KV memory belongs to a context, the cached bytes to nobody.
-/

namespace IdoProject
namespace Llama

open Java
open Transition

/-- Where a flow stands. -/
inductive FlowStage where
  /-- Collected; the run loop has not begun it. -/
  | queued
  /-- At `emit`. -/
  | suspended
  /-- Its collector failed while it was at `emit`. -/
  | aborted
  /-- Its body has ended. -/
  | ended
  deriving DecidableEq

/-- A flow of `send` with its local variables. -/
structure Flow (Token : Type u) where
  /-- The tokens that `message` is tokenized to. -/
  prompt : List Token
  stage : FlowStage := .queued
  /-- `state`, as it was when the flow began. -/
  state : State := .idle
  /-- `ncur` -/
  ncur : Nat := 0
  /-- The `memory` that `completion_init` started on. -/
  startedOn : List ((Nat × Token) × Nat) := []
  /-- The sampled tokens that were decoded. -/
  sampled : List Token := []
  /-- The strings emitted. -/
  emitted : List JString := []

/-- The run loop with everything that runs on it.  A token is kept with the
number of the flow that decoded it. -/
structure RunLoop (Token : Type u) where
  android : Android := {}
  /-- `cached_token_chars` -/
  cachedTokenChars : List UInt8 := []
  /-- What was passed to `llama_decode` for each context, every token with its
  position, since its KV memory was last cleared. -/
  memory : Nat → List ((Nat × Token) × Nat) := fun _ => []
  /-- The flows in the order in which they were collected. -/
  flows : List (Flow Token) := []

/-- A step of a flow.  The token is what the sampler yields when it is asked. -/
inductive FlowAction (Token : Type u) where
  /-- `send(message)` is collected. -/
  | send (prompt : List Token)
  /-- The run loop begins a flow. -/
  | start (flow : Nat) (token : Token)
  /-- A flow goes on behind `emit`. -/
  | resume (flow : Nat) (token : Token)
  /-- The collector of a flow at `emit` fails. -/
  | abort (flow : Nat)

/-- What runs on the run loop. -/
inductive RunLoopAction (Token : Type u) where
  | flow (action : FlowAction Token)
  | load (pathToModel : JString) (results : NativeResults)
  | unload
  /-- `bench`, with the number of its repetitions. -/
  | bench (nr : Nat)

/-- The runtime for tokens that are kept with the number of a flow. -/
def Runtime.owned (runtime : Runtime Token) : Runtime (Nat × Token) where
  piece := fun token => runtime.piece token.2
  isEog := fun token => runtime.isEog token.2
  newStringUTF := runtime.newStringUTF

namespace RunLoop

variable {Token : Type u}

/-- What the native functions see of the process, given a context. -/
def native (loop : RunLoop Token) (context : Nat) : Native (Nat × Token) where
  cachedTokenChars := loop.cachedTokenChars
  memory := loop.memory context

/-- The process after a native function, given a context. -/
def withNative
    (loop : RunLoop Token)
    (context : Nat)
    (native : Native (Nat × Token)) : RunLoop Token :=
  { loop with
    cachedTokenChars := native.cachedTokenChars
    memory := Function.update loop.memory context native.memory }

/-- Replace a flow that exists. -/
def setFlow (loop : RunLoop Token) (id : Nat) (flow : Flow Token) :
    RunLoop Token :=
  { loop with flows := loop.flows.set id flow }

/-- The end of the body of `send`. -/
def finish
    (loop : RunLoop Token)
    (id context : Nat)
    (flow : Flow Token) : RunLoop Token :=
  (loop.withNative context (kvCacheClear (loop.native context))).setFlow id
    { flow with stage := .ended }

/-- One round of the loop of `send`, from its condition to `emit` or to the end
of the body. -/
def round
    (runtime : Runtime Token)
    (loop : RunLoop Token)
    (id context : Nat)
    (flow : Flow Token)
    (token : Token) : RunLoop Token :=
  if flow.ncur ≤ nlen then
    match completionLoop runtime.owned (loop.native context) nlen flow.ncur
        (id, token) with
    | none => loop.finish id context flow
    | some (str, native, ncur) =>
        (loop.withNative context native).setFlow id
          { flow with
            stage := .suspended
            ncur := ncur
            sampled := flow.sampled ++ [token]
            emitted := flow.emitted ++ [str] }
  else loop.finish id context flow

/-- The body of `send` up to its first `emit`.  It goes wrong where
`completion_init` does. -/
def begin
    (runtime : Runtime Token)
    (loop : RunLoop Token)
    (id : Nat)
    (flow : Flow Token)
    (token : Token) : Option (RunLoop Token) :=
  match loop.android.state with
  | .loaded _ context _ _ =>
      (completionInit (loop.native context)
          (flow.prompt.map fun token => (id, token))).map fun begun =>
        (loop.withNative context begun.1).round runtime id context
          { flow with
            state := loop.android.state
            ncur := begun.2
            startedOn := loop.memory context } token
  | .idle => some (loop.setFlow id { flow with stage := .ended })

/-- One step of a flow. -/
def flowStep
    (runtime : Runtime Token)
    (loop : RunLoop Token) : FlowAction Token → Option (RunLoop Token)
  | .send prompt =>
      some { loop with flows := loop.flows ++ [{ prompt := prompt }] }
  | .start id token =>
      loop.flows[id]?.bind fun flow =>
        match flow.stage with
        | .queued => loop.begin runtime id flow token
        | _ => none
  | .resume id token =>
      loop.flows[id]?.bind fun flow =>
        match flow.stage, flow.state with
        | .suspended, .loaded _ context _ _ =>
            some (loop.round runtime id context flow token)
        | _, _ => none
  | .abort id =>
      loop.flows[id]?.bind fun flow =>
        match flow.stage with
        | .suspended => some (loop.setFlow id { flow with stage := .aborted })
        | _ => none

/-- `bench_model` clears the KV memory of the context before and after each
repetition.  Without a model `bench` throws. -/
def bench (loop : RunLoop Token) (nr : Nat) : RunLoop Token :=
  match loop.android.state with
  | .loaded _ context _ _ =>
      if 0 < nr then
        { loop with memory := Function.update loop.memory context [] }
      else loop
  | .idle => loop

/-- One step of the run loop. -/
def step
    (runtime : Runtime Token)
    (loop : RunLoop Token) : RunLoopAction Token → Option (RunLoop Token)
  | .flow action => loop.flowStep runtime action
  | .load pathToModel results =>
      some { loop with android := (loop.android.load pathToModel results).1 }
  | .unload => some { loop with android := loop.android.unload }
  | .bench nr => some (loop.bench nr)

/-- The run loop as a machine. -/
def machine (runtime : Runtime Token) :
    Machine (RunLoop Token) (RunLoopAction Token) where
  step := step runtime

/-- The flows alone, as a machine. -/
def flowMachine (runtime : Runtime Token) :
    Machine (RunLoop Token) (FlowAction Token) where
  step := flowStep runtime

/-! ## What a step of a flow does -/

section Steps

variable {runtime : Runtime Token}
variable {loop next : RunLoop Token}
variable {id context : Nat}
variable {flow : Flow Token}
variable {token : Token}

/-- The results of a round. -/
inductive Rounds
    (runtime : Runtime Token)
    (loop : RunLoop Token)
    (id context : Nat)
    (flow : Flow Token)
    (token : Token) : RunLoop Token → Prop
  | ended : Rounds runtime loop id context flow token
      (loop.finish id context flow)
  | emitted (str : JString)
      (spelled : spell runtime loop.cachedTokenChars [token] = [str]) :
      Rounds runtime loop id context flow token
        ((loop.withNative context
            ⟨unsent runtime loop.cachedTokenChars [token],
              loop.memory context ++ [((id, token), flow.ncur)]⟩).setFlow id
          { flow with
            stage := .suspended
            ncur := flow.ncur + 1
            sampled := flow.sampled ++ [token]
            emitted := flow.emitted ++ [str] })

theorem rounds_round :
    Rounds runtime loop id context flow token
      (loop.round runtime id context flow token) := by
  unfold round
  split
  case isFalse => exact .ended
  case isTrue within =>
    by_cases ends : runtime.owned.isEog (id, token) ∨ flow.ncur = nlen
    · rw [completionLoop, if_pos ends]
      exact .ended
    · obtain ⟨str, spelled, looped⟩ :=
        @completionLoop_eq_some _ runtime.owned (loop.native context) _ _ _ ends
      rw [looped]
      exact .emitted str spelled

/-- The steps of the flows. -/
inductive FlowMoves (runtime : Runtime Token) (loop : RunLoop Token) :
    FlowAction Token → RunLoop Token → Prop
  | send (prompt : List Token) :
      FlowMoves runtime loop (.send prompt)
        { loop with flows := loop.flows ++ [{ prompt := prompt }] }
  | startIdle (id : Nat) (token : Token) (flow : Flow Token)
      (listed : loop.flows[id]? = some flow)
      (queued : flow.stage = .queued) (idle : loop.android.state = .idle) :
      FlowMoves runtime loop (.start id token)
        (loop.setFlow id { flow with stage := .ended })
  | start (id : Nat) (token : Token) (flow : Flow Token)
      (model context batch sampler : Nat) (next : RunLoop Token)
      (listed : loop.flows[id]? = some flow)
      (queued : flow.stage = .queued)
      (loaded : loop.android.state = .loaded model context batch sampler)
      (prompt : 0 < flow.prompt.length)
      (rounds : Rounds runtime
        (loop.withNative context
          ⟨[], loop.memory context ++
            (flow.prompt.map fun token => (id, token)).zipIdx⟩) id context
        { flow with
          state := loop.android.state
          ncur := flow.prompt.length
          startedOn := loop.memory context } token next) :
      FlowMoves runtime loop (.start id token) next
  | resume (id : Nat) (token : Token) (flow : Flow Token)
      (model context batch sampler : Nat) (next : RunLoop Token)
      (listed : loop.flows[id]? = some flow)
      (suspended : flow.stage = .suspended)
      (captured : flow.state = .loaded model context batch sampler)
      (rounds : Rounds runtime loop id context flow token next) :
      FlowMoves runtime loop (.resume id token) next
  | abort (id : Nat) (flow : Flow Token)
      (listed : loop.flows[id]? = some flow)
      (suspended : flow.stage = .suspended) :
      FlowMoves runtime loop (.abort id)
        (loop.setFlow id { flow with stage := .aborted })

theorem flowMoves_of_flowStep
    {action : FlowAction Token}
    (fired : loop.flowStep runtime action = some next) :
    FlowMoves runtime loop action next := by
  cases action with
  | send prompt =>
      cases fired
      exact .send prompt
  | start id token =>
      obtain ⟨flow, listed, began⟩ := Option.bind_eq_some_iff.mp fired
      split at began
      case h_2 => cases began
      case h_1 queued =>
        unfold begin at began
        split at began
        case h_2 idle =>
          cases began
          exact .startIdle id token flow listed queued idle
        case h_1 model context batch sampler loaded =>
          obtain ⟨begun, started, rfl⟩ := Option.map_eq_some_iff.mp began
          unfold completionInit at started
          split at started <;> cases started
          case isTrue fits =>
            rw [List.length_map] at fits
            refine .start id token flow model context batch sampler _ listed
              queued loaded fits.1 ?_
            rw [← List.length_map fun token => (id, token)]
            exact rounds_round
  | resume id token =>
      obtain ⟨flow, listed, resumed⟩ := Option.bind_eq_some_iff.mp fired
      split at resumed <;> cases resumed
      case h_1 model context batch sampler suspended captured =>
        exact .resume id token flow model context batch sampler _ listed
          suspended captured rounds_round
  | abort id =>
      obtain ⟨flow, listed, aborted⟩ := Option.bind_eq_some_iff.mp fired
      split at aborted <;> cases aborted
      case h_1 suspended => exact .abort id flow listed suspended

end Steps

/-- A model with a token for the letter `a` and one that ends the generation. -/
def letterRuntime : Runtime Bool where
  piece := fun _ => [0x61]
  isEog := fun letter => !letter
  newStringUTF := List.map fun byte => byte.toUInt16

end RunLoop

end Llama
end IdoProject
