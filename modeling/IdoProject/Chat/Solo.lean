import IdoProject.Chat.Reply
import IdoProject.Transition.Machine

/-!
# A generation on its own

The abstract model of one generation: a flow that hands over tokens, a callback
that tests and then posts, and a looper that runs what was posted.  Buffer, stop
flag and content belong to this generation alone.  The phases of the module are
its invariant: in each of them the reply that the delivered tokens determine is
known.
-/

namespace IdoProject
namespace Chat

open Java

/-- State of a generation on its own. -/
structure Solo where
  maxTokens : Int
  tokenCount : Int := 0
  stopGeneration : Bool := false
  buffer : JString := []
  content : JString := []
  /-- Tokens whose runnables are queued. -/
  queue : List JString := []
  posting : Option JString := none
  streaming : Bool := true
  delivered : List JString := []
  /-- Contents of the AI message at the finalizations so far. -/
  finalizations : List JString := []
  isGenerating : Bool := true
  crashed : Bool := false
  deriving DecidableEq

namespace Solo

/-- What can happen to a generation. -/
inductive Event
  | deliver (token : JString)
  | post
  | endStream
  | run

/-- The runnable of one token. -/
def runToken
    (toLowerCase : JString → JString)
    (state : Solo)
    (token : JString) : Solo :=
  let counted := { state with tokenCount := state.tokenCount + 1 }
  match judge toLowerCase state.maxTokens (state.tokenCount + 1)
      (state.buffer ++ token) with
  | .limit =>
      { counted with
        stopGeneration := true
        isGenerating := false
        finalizations := state.finalizations ++ [state.content] }
  | .cut cleaned =>
      { counted with
        stopGeneration := true
        isGenerating := false
        content := cleaned
        finalizations := state.finalizations ++ [cleaned] }
  | .outOfBounds =>
      { counted with
        stopGeneration := true
        queue := []
        posting := none
        streaming := false
        crashed := true }
  | .extend =>
      { counted with
        buffer := state.buffer ++ token
        content := state.buffer ++ token }

/-- One event of a generation. -/
def step
    (toLowerCase : JString → JString)
    (state : Solo) : Event → Option Solo
  | event =>
      if state.crashed then none
      else match event with
        | .deliver token =>
            if state.streaming = true ∧ state.posting = none then
              some { state with
                delivered := state.delivered ++ [token]
                posting :=
                  if state.stopGeneration then none else some token }
            else none
        | .post =>
            match state.posting with
            | none => none
            | some token =>
                some { state with
                  posting := none
                  queue := state.queue ++ [token] }
        | .endStream =>
            if state.streaming = true ∧ state.posting = none then
              some { state with streaming := false }
            else none
        | .run =>
            match state.queue with
            | [] => none
            | token :: rest =>
                some ({ state with queue := rest }.runToken toLowerCase token)

/-- Successor of a generation under each event. -/
inductive Fires
    (toLowerCase : JString → JString)
    (state : Solo) : Event → Solo → Prop
  | deliver (token : JString)
      (streaming : state.streaming = true) (free : state.posting = none) :
      Fires toLowerCase state (.deliver token)
        { state with
          delivered := state.delivered ++ [token]
          posting := if state.stopGeneration then none else some token }
  | post (token : JString) (holds : state.posting = some token) :
      Fires toLowerCase state .post
        { state with posting := none, queue := state.queue ++ [token] }
  | endStream (streaming : state.streaming = true)
      (free : state.posting = none) :
      Fires toLowerCase state .endStream { state with streaming := false }
  | run (token : JString) (rest : List JString)
      (queued : state.queue = token :: rest) :
      Fires toLowerCase state .run
        ({ state with queue := rest }.runToken toLowerCase token)

/-- A step is one of the successors, of a process that is alive. -/
theorem fires_of_step
    {toLowerCase : JString → JString}
    {state next : Solo}
    {event : Event}
    (fired : state.step toLowerCase event = some next) :
    ¬state.crashed = true ∧ Fires toLowerCase state event next := by
  unfold step at fired
  split at fired
  case isTrue => cases fired
  case isFalse living =>
    refine ⟨living, ?_⟩
    cases event with
    | deliver token =>
        dsimp only at fired
        split at fired
        case isFalse => cases fired
        case isTrue enabled =>
          cases fired
          exact .deliver token enabled.1 enabled.2
    | post =>
        dsimp only at fired
        split at fired <;> cases fired
        case h_2 token holds => exact .post token holds
    | endStream =>
        dsimp only at fired
        split at fired
        case isFalse => cases fired
        case isTrue enabled =>
          cases fired
          exact .endStream enabled.1 enabled.2
    | run =>
        dsimp only at fired
        split at fired <;> cases fired
        case h_2 token rest queued => exact .run token rest queued

/-- Nothing is left to happen: the flow has ended and its runnables have run. -/
def Drained (state : Solo) : Prop :=
  state.streaming = false ∧ state.posting = none ∧ state.queue = []

section Phases

variable (toLowerCase : JString → JString)

/-- The reply that the delivered tokens determine. -/
def reply (state : Solo) : Reply :=
  replyOf toLowerCase state.maxTokens state.delivered

/-- Phases of a generation.  `noisy` says whether runnables that are left behind
the one that cuts the text may be within the limit; they then change a content
that was final. -/
inductive Phase (noisy : Prop) (state : Solo) : Prop
  /-- No token has ended the generation. -/
  | running
      (ran : List JString)
      (alive : state.crashed = false)
      (going : state.stopGeneration = false)
      (delivered : state.delivered =
        ran ++ state.queue ++ state.posting.toList)
      (unfinished :
        (replyOf toLowerCase state.maxTokens ran).ending = .unfinished)
      (count : state.tokenCount = ran.length)
      (buffer : state.buffer = ran.flatten)
      (content : state.content = ran.flatten)
      (generating : state.isGenerating = true)
      (unsaved : state.finalizations = [])
  /-- The limit was exceeded, and every later runnable exceeds it too. -/
  | limited
      (stopped : state.stopGeneration = true)
      (beyond : state.maxTokens < state.tokenCount)
      (settled : state.reply toLowerCase = ⟨state.content, .finalized⟩)
      (saved : state.content ∈ state.finalizations)
      (ended : state.isGenerating = false)
  /-- The text was cut before a stop string. -/
  | cut
      (final : JString)
      (stopped : state.stopGeneration = true)
      (settled : state.reply toLowerCase = ⟨final, .finalized⟩)
      (saved : final ∈ state.finalizations)
      (ended : state.isGenerating = false)
      (frozen : noisy ∨ state.content = final)
  /-- The cut threw an exception. -/
  | thrown
      (dead : state.crashed = true)
      (settled : state.reply toLowerCase = ⟨state.content, .thrown⟩)
      (generating : state.isGenerating = true)
      (unsaved : state.finalizations = [])

/-- A runnable that runs after `stopGeneration` was set is beyond the limit. -/
def Timely (state : Solo) : Event → Prop
  | .run => state.stopGeneration = true → state.maxTokens ≤ state.tokenCount
  | _ => True

end Phases

section Steps

variable {toLowerCase : JString → JString}
variable {noisy : Prop}
variable {state next : Solo}

/-- Delivered tokens do not change a reply that is settled. -/
theorem reply_delivered_append
    {final : Reply}
    (settled : state.reply toLowerCase = final)
    (ended : final.ending ≠ .unfinished)
    (tokens : List JString) :
    replyOf toLowerCase state.maxTokens (state.delivered ++ tokens) = final := by
  unfold reply replyOf at settled
  unfold replyOf
  rw [replyFrom_append_of_ended tokens (by rw [settled]; exact ended), settled]

/-- The reply of a running generation goes on with the next queued token. -/
theorem reply_of_running
    {ran rest : List JString}
    {token : JString}
    (delivered : state.delivered = ran ++ token :: rest)
    (unfinished :
      (replyOf toLowerCase state.maxTokens ran).ending = .unfinished) :
    state.reply toLowerCase =
      replyFrom toLowerCase state.maxTokens ran.length ran.flatten
        (token :: rest) := by
  unfold reply replyOf
  rw [delivered, replyFrom_append_of_unfinished _ unfinished]
  simp

/-- Running one token in the running phase. -/
theorem phase_runToken_of_running
    {ran rest : List JString}
    {token : JString}
    (queued : state.queue = token :: rest)
    (alive : state.crashed = false)
    (going : state.stopGeneration = false)
    (delivered : state.delivered =
      ran ++ state.queue ++ state.posting.toList)
    (unfinished :
      (replyOf toLowerCase state.maxTokens ran).ending = .unfinished)
    (count : state.tokenCount = ran.length)
    (buffer : state.buffer = ran.flatten)
    (content : state.content = ran.flatten)
    (generating : state.isGenerating = true)
    (unsaved : state.finalizations = []) :
    Phase toLowerCase noisy
      ({ state with queue := rest }.runToken toLowerCase token) := by
  have whole : state.delivered =
      ran ++ token :: (rest ++ state.posting.toList) := by
    rw [delivered, queued]
    simp
  have onward := reply_of_running whole unfinished
  rw [replyFrom, ← count, ← buffer] at onward
  unfold runToken
  cases decided : judge toLowerCase state.maxTokens (state.tokenCount + 1)
      (state.buffer ++ token) with
  | limit =>
      rw [decided] at onward
      refine .limited rfl (judge_eq_limit_iff.mp decided) ?_ (by simp) rfl
      simpa [reply, content, buffer] using onward
  | cut cleaned =>
      rw [decided] at onward
      exact .cut cleaned rfl (by simpa [reply] using onward) (by simp) rfl
        (Or.inr rfl)
  | outOfBounds =>
      rw [decided] at onward
      refine .thrown rfl ?_ generating unsaved
      simpa [reply, content, buffer] using onward
  | extend =>
      have longer : (replyOf toLowerCase state.maxTokens
          (ran ++ [token])).ending = .unfinished := by
        unfold replyOf
        rw [replyFrom_append_of_unfinished [token] unfinished]
        simp only [Int.zero_add, List.nil_append, replyFrom]
        rw [← count, ← buffer, decided]
      refine .running (ran ++ [token]) alive going ?_ longer ?_ ?_ ?_
        generating unsaved
      · simpa using whole
      · simp [count]
      · simp [buffer]
      · simp [buffer]

/-- Running one token beyond the limit. -/
theorem phase_runToken_of_limited
    {rest : List JString}
    {token : JString}
    (beyond : state.maxTokens < state.tokenCount)
    (settled : state.reply toLowerCase = ⟨state.content, .finalized⟩) :
    Phase toLowerCase noisy
      ({ state with queue := rest }.runToken toLowerCase token) := by
  unfold runToken
  have decided : judge toLowerCase state.maxTokens (state.tokenCount + 1)
      (state.buffer ++ token) = .limit :=
    judge_eq_limit_iff.mpr (by omega)
  simp only [decided]
  refine .limited rfl (by simp; omega) ?_ (by simp) rfl
  simpa [reply] using settled

/-- Running one token that was left behind a cut. -/
theorem phase_runToken_of_cut
    {rest : List JString}
    {token final : JString}
    (quiet : noisy ∨ Timely state .run)
    (stopped : state.stopGeneration = true)
    (settled : state.reply toLowerCase = ⟨final, .finalized⟩)
    (saved : final ∈ state.finalizations)
    (ended : state.isGenerating = false)
    (frozen : noisy ∨ state.content = final) :
    Phase toLowerCase noisy
      ({ state with queue := rest }.runToken toLowerCase token) := by
  rcases quiet with loud | timely
  · unfold runToken
    cases judge toLowerCase state.maxTokens (state.tokenCount + 1)
        (state.buffer ++ token) with
    | limit =>
        exact .cut final rfl settled (List.mem_append_left _ saved) rfl
          (Or.inl loud)
    | cut cleaned =>
        exact .cut final rfl settled (List.mem_append_left _ saved) rfl
          (Or.inl loud)
    | outOfBounds => exact .cut final rfl settled saved ended (Or.inl loud)
    | extend => exact .cut final stopped settled saved ended (Or.inl loud)
  · have decided : judge toLowerCase state.maxTokens (state.tokenCount + 1)
        (state.buffer ++ token) = .limit :=
      judge_eq_limit_iff.mpr (Int.lt_add_one_of_le (timely stopped))
    unfold runToken
    simp only [decided]
    exact .cut final rfl settled (List.mem_append_left _ saved) rfl frozen

/-- Tokens that are delivered and posted, and run later, keep the phase. -/
theorem phase_of_waiting
    {queue : List JString}
    {posting : Option JString}
    {streaming : Bool}
    (tokens : List JString)
    (living : ¬state.crashed = true)
    (pending : state.stopGeneration = false →
      queue ++ posting.toList = state.queue ++ state.posting.toList ++ tokens)
    (phase : Phase toLowerCase noisy state) :
    Phase toLowerCase noisy
      { state with
        delivered := state.delivered ++ tokens
        queue := queue
        posting := posting
        streaming := streaming } := by
  cases phase with
  | running ran alive going delivered unfinished count buffer content
      generating unsaved =>
      refine .running ran alive going ?_ unfinished count buffer content
        generating unsaved
      change state.delivered ++ tokens = ran ++ queue ++ posting.toList
      rw [List.append_assoc ran queue, pending going, delivered]
      simp only [List.append_assoc]
  | limited stopped beyond settled saved ended =>
      exact .limited stopped beyond
        (reply_delivered_append settled (by simp) tokens) saved ended
  | cut final stopped settled saved ended frozen =>
      exact .cut final stopped
        (reply_delivered_append settled (by simp) tokens) saved ended frozen
  | thrown dead => exact absurd dead living

/-- Every event keeps the phases, as long as it is timely or the phases allow
late ones. -/
theorem phase_step
    {event : Event}
    (quiet : noisy ∨ Timely state event)
    (phase : Phase toLowerCase noisy state)
    (fired : state.step toLowerCase event = some next) :
    Phase toLowerCase noisy next := by
  obtain ⟨living, fires⟩ := fires_of_step fired
  cases fires with
  | deliver token streaming free =>
      apply phase_of_waiting [token] living ?_ phase
      intro going
      simp [free, going]
  | post token holds =>
      have waits := @phase_of_waiting toLowerCase noisy state
        (state.queue ++ [token]) none state.streaming [] living
        (fun _ => by simp [holds]) phase
      rwa [List.append_nil] at waits
  | endStream =>
      have waits := @phase_of_waiting toLowerCase noisy state
        state.queue state.posting false [] living (fun _ => by simp) phase
      rwa [List.append_nil] at waits
  | run token rest queued =>
      cases phase with
      | running ran alive going delivered unfinished count buffer content
          generating unsaved =>
          exact phase_runToken_of_running queued alive going delivered
            unfinished count buffer content generating unsaved
      | limited stopped beyond settled saved ended =>
          exact phase_runToken_of_limited beyond settled
      | cut final stopped settled saved ended frozen =>
          exact phase_runToken_of_cut quiet stopped settled saved ended frozen
      | thrown dead => exact absurd dead living

/-- A reply that is final stays so: later tokens are not looked at, and later
runnables are beyond the limit. -/
theorem settled_step
    {event : Event}
    (settled : state.reply toLowerCase = ⟨state.content, .finalized⟩)
    (beyond : event = .run → state.maxTokens ≤ state.tokenCount)
    (fired : state.step toLowerCase event = some next) :
    next.reply toLowerCase = ⟨next.content, .finalized⟩ := by
  cases (fires_of_step fired).2 with
  | deliver token => exact reply_delivered_append settled (by simp) [token]
  | post | endStream => exact settled
  | run token rest =>
      have decided : judge toLowerCase state.maxTokens (state.tokenCount + 1)
          (state.buffer ++ token) = .limit :=
        judge_eq_limit_iff.mpr (Int.lt_add_one_of_le (beyond rfl))
      unfold runToken
      simp only [decided]
      exact settled

/-- A generation that is no longer generating has its final reply. -/
theorem settled_of_phase
    (phase : Phase toLowerCase False state)
    (ended : state.isGenerating = false) :
    state.reply toLowerCase = ⟨state.content, .finalized⟩ := by
  cases phase with
  | running ran alive going delivered unfinished count buffer content
      generating unsaved =>
      rw [ended] at generating
      cases generating
  | limited stopped beyond settled saved _ => exact settled
  | cut final stopped settled saved _ frozen =>
      rw [frozen.resolve_left id]
      exact settled
  | thrown dead settled generating unsaved =>
      rw [ended] at generating
      cases generating

/-- A generation that has been stopped is no longer generating, unless its
process has died. -/
theorem ended_of_stopped
    (phase : Phase toLowerCase noisy state)
    (stopped : state.stopGeneration = true)
    (alive : state.crashed = false) :
    state.isGenerating = false := by
  cases phase with
  | running ran _ going =>
      rw [stopped] at going
      cases going
  | limited _ beyond settled saved ended => exact ended
  | cut final _ settled saved ended frozen => exact ended
  | thrown dead =>
      rw [alive] at dead
      cases dead

/-- A generation starts in the running phase. -/
theorem phase_start (maxTokens : Int) :
    Phase toLowerCase noisy { maxTokens := maxTokens } :=
  .running [] rfl rfl rfl rfl rfl rfl rfl rfl rfl

/-- When no runnable is left and those that ran were timely, the content is the
reply to the delivered tokens. -/
theorem content_of_unqueued
    (phase : Phase toLowerCase False state)
    (empty : state.queue = [])
    (posted : state.posting = none) :
    state.content = (state.reply toLowerCase).content := by
  cases phase with
  | running ran alive going delivered unfinished count buffer content
      generating unsaved =>
      rw [empty, posted] at delivered
      simp only [Option.toList_none, List.append_nil] at delivered
      rw [content, reply, delivered]
      exact (content_of_unfinished unfinished).symm
  | limited stopped beyond settled saved ended => rw [settled]
  | cut final stopped settled saved ended frozen =>
      rw [settled]
      exact frozen.resolve_left id
  | thrown dead settled generating unsaved => rw [settled]

/-- A drained generation has been finalized with the reply to its tokens
exactly when this reply is final. -/
theorem finalized_iff_of_drained
    (phase : Phase toLowerCase noisy state)
    (drained : state.Drained) :
    (state.isGenerating = false ∧
        (state.reply toLowerCase).content ∈ state.finalizations) ↔
      (state.reply toLowerCase).ending = .finalized := by
  obtain ⟨_, posted, empty⟩ := drained
  cases phase with
  | running ran alive going delivered unfinished count buffer content
      generating unsaved =>
      rw [empty, posted] at delivered
      simp only [Option.toList_none, List.append_nil] at delivered
      simp [generating, reply, delivered, unfinished]
  | limited stopped beyond settled saved ended => simp [settled, saved, ended]
  | cut final stopped settled saved ended frozen =>
      simp [settled, saved, ended]
  | thrown dead settled generating unsaved => simp [settled, generating]

end Steps

end Solo
end Chat
end IdoProject
