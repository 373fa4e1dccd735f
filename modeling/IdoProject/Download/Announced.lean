import IdoProject.Download.Threads
import IdoProject.Transition.Announced

/-!
# The service announces the progress it writes

The callbacks and the main thread are threads that share `ongoingDownloads`.
Each put and each removal is followed by a broadcast about the same file, in
every method of the service, so a step of the process that changes the progress
of a file leaves a broadcast about it to be sent.
-/

namespace IdoProject
namespace Download

open Java
open Storage
open Transition

/-- The file that a broadcast is about. -/
def Broadcast.filename : Broadcast → JString
  | .progress filename _ | .complete filename | .failed filename => filename

/-- What the statements write of `ongoingDownloads`, and what they broadcast. -/
def effects : Effects Statement JString where
  writes
    | .putOngoing filename _ | .removeOngoing filename => some filename
    | _ => none
  announces
    | .sendBroadcast intent => some intent.filename
    | _ => none

/-- The statements a callback has left to run. -/
def Call.program (call : Call) : List Statement :=
  match call.stage with
  | .looping pending => pending
  | .ending rest => rest
  | _ => []

/-- The program of the callback of a call. -/
def World.callProgram (world : World) (id : Nat) : List Statement :=
  (world.calls[id]?.map Call.program).getD []

/-- The main thread and the callbacks over the progress of the downloads. -/
def World.shared (world : World) :
    Shared (Option Nat) Statement JString (Option JInt) where
  programs
    | none => world.main
    | some id => world.callProgram id
  values := fun filename => world.ongoingDownloads.lookup filename

section Scripts

variable (filename : JString)

theorem announced_cleanupAndBroadcastFailure :
    effects.Announced (cleanupAndBroadcastFailure filename) := by
  simp [cleanupAndBroadcastFailure, broadcastFailure,
    releaseWakeLockAndStopService, Effects.Announced, effects,
    Broadcast.filename]

theorem announced_finallyBlock :
    effects.Announced (finallyBlock filename) :=
  Effects.announced_of_quiet (by
    simp [finallyBlock, releaseWakeLockAndStopService, effects])

theorem announced_catchBlock :
    effects.Announced (catchBlock filename) :=
  Effects.announced_append (announced_cleanupAndBroadcastFailure filename)
    (announced_finallyBlock filename)

theorem announced_broadcastComplete :
    effects.Announced (broadcastComplete filename) := by
  simp [broadcastComplete, Effects.Announced, effects, Broadcast.filename]

theorem announced_broadcastProgress
    (progress : JInt) :
    effects.Announced (broadcastProgress filename progress) := by
  simp [broadcastProgress, Effects.Announced, effects, Broadcast.filename]

theorem announced_cancelDownload :
    effects.Announced (cancelDownload filename) := by
  refine ⟨fun key writes => ?_, announced_cleanupAndBroadcastFailure filename⟩
  cases writes

theorem announced_downloadModel
    (model : Model) :
    effects.Announced (downloadModel model) := by
  simp [downloadModel, broadcastProgress, Effects.Announced, effects,
    Broadcast.filename]

end Scripts

section Exec

variable (world : World)
variable (this : Nat)
variable (statement : Statement)

/-- What a statement leaves to run writes nothing. -/
theorem quiet_exec :
    ∀ later ∈ (world.exec this statement).2, effects.writes later = none := by
  cases statement with
  | newCall | getActive | ifIdle | ifHeld | release | stopSelf =>
      simp only [World.exec]
      try split
      all_goals simp [effects]
  | acquire | putOngoing | removeOngoing | putActive | removeActive | enqueue
  | cancel | sendBroadcast => simp [World.exec]

/-- A statement changes the progress of the file that it writes alone. -/
theorem lookup_exec
    {filename : JString}
    (other : effects.writes statement ≠ some filename) :
    (world.exec this statement).1.ongoingDownloads.lookup filename =
      world.ongoingDownloads.lookup filename := by
  cases statement with
  | putOngoing name progress =>
      exact AList.lookup_insert_ne fun same => other (by rw [same]; rfl)
  | removeOngoing name =>
      exact AList.lookup_erase_ne fun same => other (by rw [same]; rfl)
  | getActive | ifIdle | ifHeld | release | stopSelf =>
      simp only [World.exec]
      split <;> rfl
  | acquire | newCall | putActive | removeActive | enqueue | cancel
  | sendBroadcast => rfl

/-- A statement changes no program of a callback. -/
theorem callProgram_exec
    (id : Nat) :
    (world.exec this statement).1.callProgram id = world.callProgram id := by
  have modified (target : Nat) (change : Call → Call)
      (same : ∀ call, (change call).program = call.program) :
      (world.modifyCall target change).callProgram id =
        world.callProgram id := by
    unfold World.callProgram World.modifyCall
    rw [List.getElem?_modify, Option.map_eq_map, Option.map_map]
    congr 2
    funext call
    rw [Function.comp_apply]
    split
    · exact same call
    · rfl
  cases statement with
  | newCall model =>
      change (Option.map Call.program (world.calls ++ [_])[id]?).getD [] = _
      unfold World.callProgram
      rcases Nat.lt_or_ge id world.calls.length with old | new
      · rw [List.getElem?_append_left old]
      · rw [List.getElem?_append_right new, List.getElem?_eq_none new]
        cases id - world.calls.length <;> rfl
  | enqueue target =>
      apply modified
      intro call
      split
      case isTrue created => simp [Call.program, created]
      case isFalse => rfl
  | cancel target => exact modified target _ fun _ => rfl
  | getActive | ifIdle | ifHeld | release | stopSelf =>
      simp only [World.exec]
      split <;> rfl
  | acquire | putOngoing | removeOngoing | putActive | removeActive
  | sendBroadcast => rfl

end Exec

section Steps

variable {world next : World}
variable {action : Action}

section Programs

variable {world next : World}
variable {program : List Statement}
variable {values : JString → Option JInt}

/-- The main thread has come to another program. -/
theorem shared_of_main
    (own : next.main = program)
    (calls : ∀ id, next.callProgram id = world.callProgram id)
    (ongoing : ∀ filename,
      next.ongoingDownloads.lookup filename = values filename) :
    next.shared = world.shared.setProgram none program values := by
  apply Shared.ext
  · funext thread
    cases thread with
    | none =>
        rw [Shared.programs_setProgram_self]
        exact own
    | some id =>
        rw [Shared.programs_setProgram_of_ne _ _ _ (Option.some_ne_none id)]
        exact calls id
  · funext filename
    exact ongoing filename

/-- A callback has come to another program. -/
theorem shared_of_call
    {id : Nat}
    (main : next.main = world.main)
    (own : next.callProgram id = program)
    (others : ∀ other, other ≠ id →
      next.callProgram other = world.callProgram other)
    (ongoing : ∀ filename,
      next.ongoingDownloads.lookup filename = values filename) :
    next.shared = world.shared.setProgram (some id) program values := by
  apply Shared.ext
  · funext thread
    by_cases same : thread = some id
    · rw [same, Shared.programs_setProgram_self]
      exact own
    · rw [Shared.programs_setProgram_of_ne _ _ _ same]
      cases thread with
      | none => exact main
      | some other => exact others other fun equal => same (by rw [equal])
  · funext filename
    exact ongoing filename

end Programs

/-- The program of a call after it was replaced. -/
theorem callProgram_set
    {id : Nat}
    {call changed : Call}
    (listed : world.calls[id]? = some call)
    (calls : next.calls = world.calls.set id changed) :
    next.callProgram id = changed.program ∧
      ∀ other, other ≠ id → next.callProgram other = world.callProgram other := by
  have below := (List.getElem?_eq_some_iff.mp listed).1
  unfold World.callProgram
  rw [calls]
  constructor
  · rw [List.getElem?_set_self below]
    rfl
  · intro other different
    rw [List.getElem?_set_ne different.symm]

/-- A callback that moves from one stage to the next has no statements left, and
announces what it is given to run. -/
theorem Advance.begins
    {disk : Files}
    {call changed : Call}
    (moved : Advance disk call action changed) :
    call.program = [] ∧ effects.Announced changed.program ∧
      world.statement? action = none := by
  have before {stage : Stage} (here : call.stage = stage)
      (idle : Call.program { call with stage := stage } = []) :
      call.program = [] := by
    unfold Call.program at idle ⊢
    rwa [here]
  cases moved with
  | failed id stage | refused id successful reply known empty stage =>
      exact ⟨before stage rfl,
        announced_cleanupAndBroadcastFailure call.filename, rfl⟩
  | answered id body known stage => exact ⟨before stage rfl, trivial, rfl⟩
  | opened id stage => exact ⟨before stage rfl, trivial, rfl⟩
  | notOpened id stage =>
      exact ⟨before stage rfl, announced_catchBlock call.filename, rfl⟩
  | read id count chunk stage => exact ⟨before stage rfl, trivial, rfl⟩
  | readAll id whole stage => exact ⟨before stage rfl, trivial, rfl⟩
  | notRead id stage =>
      exact ⟨before stage rfl, announced_catchBlock call.filename, rfl⟩
  | checked id count stage =>
      refine ⟨before stage rfl, ?_, rfl⟩
      unfold Call.program
      dsimp only
      cases call.canceled <;> trivial
  | wrote id count node output stage =>
      refine ⟨before stage rfl, ?_, rfl⟩
      unfold Call.afterWrite
      dsimp only
      split
      · exact announced_broadcastProgress call.filename _
      · trivial
  | notWritten id count done node part output stage =>
      exact ⟨before stage rfl, announced_catchBlock call.filename, rfl⟩
  | closed id ok stage =>
      refine ⟨before stage rfl, ?_, rfl⟩
      cases ok with
      | true =>
          exact Effects.announced_append
            (announced_broadcastComplete call.filename)
            (announced_finallyBlock call.filename)
      | false => exact announced_catchBlock call.filename
  | deleted id ok stage =>
      refine ⟨before stage rfl, ?_, rfl⟩
      cases ok with
      | true => exact announced_finallyBlock call.filename
      | false => exact announced_catchBlock call.filename

/-- A statement of the main thread. -/
theorem shared_main
    {statement : Statement}
    {rest : List Statement}
    (queued : world.main = statement :: rest)
    (main : next.main = (world.exec world.services statement).2 ++ rest)
    (calls : next.calls = (world.exec world.services statement).1.calls)
    (ongoing : next.ongoingDownloads =
      (world.exec world.services statement).1.ongoingDownloads) :
    Shared.Step effects world.shared (some statement) next.shared := by
  have shared := @shared_of_main world next _ _ main
    (fun id => by
      rw [← callProgram_exec world world.services statement id]
      unfold World.callProgram
      rw [calls])
    (fun filename => by rw [ongoing])
  rw [shared]
  exact .run none statement rest _ _ queued
    (quiet_exec world world.services statement)
    fun _ other => lookup_exec world world.services statement other

/-- A statement of a callback. -/
theorem shared_callback
    {id : Nat}
    {call : Call}
    {statement : Statement}
    {rest : List Statement}
    {change : Call → Call}
    (listed : world.calls[id]? = some call)
    (here : call.program = statement :: rest)
    (changes : ∀ running, (change running).program =
      (world.exec call.service statement).2 ++ rest) :
    Shared.Step effects world.shared (some statement)
      ((world.exec call.service statement).1.modifyCall id change).shared := by
  have program : world.callProgram id = statement :: rest := by
    rw [World.callProgram, listed, ← here]
    rfl
  have kept (other : Nat) := callProgram_exec world call.service statement other
  have own : ((world.exec call.service statement).1.modifyCall id
      change).callProgram id = (world.exec call.service statement).2 ++ rest := by
    have there := (kept id).trans program
    unfold World.callProgram at there ⊢
    rw [World.modifyCall, List.getElem?_modify, Option.map_eq_map]
    cases found : (world.exec call.service statement).1.calls[id]? with
    | none =>
        rw [found] at there
        cases there
    | some running =>
        rw [Option.map_some, if_pos rfl]
        exact changes running
  have others (other : Nat) (different : other ≠ id) :
      ((world.exec call.service statement).1.modifyCall id
        change).callProgram other = world.callProgram other := by
    rw [← kept other]
    unfold World.callProgram
    rw [World.modifyCall, List.getElem?_modify, Option.map_eq_map]
    cases (world.exec call.service statement).1.calls[other]? with
    | none => rfl
    | some running => rw [Option.map_some, if_neg different.symm]
  have shared := @shared_of_call world
    ((world.exec call.service statement).1.modifyCall id change) _ _ id
    main_exec own others (fun _ => rfl)
  rw [shared]
  exact .run (some id) statement rest _ _ program
    (quiet_exec world call.service statement)
    fun _ other => lookup_exec world call.service statement other

/-- Every step of the process is a step of the threads, or none of them. -/
theorem shared_step
    (moves : Moves world action next) :
    Shared.Step effects world.shared (world.statement? action) next.shared ∨
      next.shared = world.shared ∧ world.statement? action = none := by
  cases moves with
  | command intent idle =>
      obtain ⟨-, calls, -, ongoing, -, -, -, -, -, main⟩ :=
        commanded_onStartCommand world intent
      have given {script : List Statement}
          (own : (world.onStartCommand intent).main = script)
          (announced : effects.Announced script) :
          Shared.Step effects world.shared none
            (world.onStartCommand intent).shared := by
        have shared := @shared_of_main world _ _ _ own
          (fun id => by
            unfold World.callProgram
            rw [calls])
          (fun filename => by rw [ongoing])
        rw [shared]
        exact .begin none script idle announced
      left
      rcases main with ⟨model, -, -, own⟩ | ⟨filename, -, own⟩ | own
      · exact given own (announced_downloadModel model)
      · exact given own (announced_cancelDownload filename)
      · exact given (own.trans idle) trivial
  | main statement rest queued =>
      left
      rw [show world.statement? .main = some statement by
        rw [World.statement?, queued, List.head?_cons]]
      exact shared_main queued rfl rfl rfl
  | destroy idle alive stopping =>
      left
      have shared := @shared_of_main world
        { world with alive := false, main := onDestroy } _ _ rfl
        (fun _ => rfl) (fun _ => rfl)
      rw [shared]
      exact .begin none onDestroy idle
        (Effects.announced_of_quiet (by simp [onDestroy, effects]))
  | deleteModel filename idle => exact Or.inr ⟨rfl, rfl⟩
  | progress id call statement rest listed stage =>
      left
      rw [show world.statement? (.callback id) = some statement by
        simp [World.statement?, listed, stage]]
      exact shared_callback listed (by rw [Call.program, stage]) fun _ => rfl
  | cleanUp id call statement rest listed stage =>
      left
      rw [show world.statement? (.callback id) = some statement by
        simp [World.statement?, listed, stage]]
      exact shared_callback listed (by rw [Call.program, stage]) fun _ => rfl
  | advance action id call changed known listed moved =>
      left
      obtain ⟨ended, announced, silent⟩ := @Advance.begins world _ _ _ _ moved
      let next :=
        { world with disk := world.diskAfter id call action }.setCall id changed
      obtain ⟨own, others⟩ := @callProgram_set world next id call changed listed
        rfl
      have shared := @shared_of_call world next _ _ id rfl own others
        (fun _ => rfl)
      rw [silent, shared]
      refine .begin (some id) changed.program ?_ announced
      change world.callProgram id = []
      rw [World.callProgram, listed, ← ended]
      rfl

/-- Every step keeps the threads announcing what they write. -/
theorem announced_of_moves
    (moves : Moves world action next)
    (announced : world.shared.Announced effects) :
    next.shared.Announced effects := by
  rcases shared_step moves with step | ⟨same, -⟩
  · exact step.announced announced
  · rw [same]
    exact announced

/-- A step changes the progress of a file with a broadcast about it still to be
sent. -/
theorem lookup_or_owes_of_moves
    (moves : Moves world action next)
    (announced : world.shared.Announced effects)
    (filename : JString) :
    next.ongoingDownloads.lookup filename =
        world.ongoingDownloads.lookup filename ∨
      next.shared.Owes effects filename := by
  rcases shared_step moves with step | ⟨same, -⟩
  · exact step.kept_or_owes announced
  · exact Or.inl (congrArg (fun shared => shared.values filename) same)

/-- A broadcast that was to be sent is to be sent still, or is sent. -/
theorem owes_or_sends_of_moves
    {filename : JString}
    (moves : Moves world action next)
    (owes : world.shared.Owes effects filename) :
    next.shared.Owes effects filename ∨
      ∃ intent : Broadcast,
        world.statement? action = some (.sendBroadcast intent) ∧
          intent.filename = filename := by
  rcases shared_step moves with step | ⟨same, -⟩
  · refine (step.owes_or_announces owes).imp_right ?_
    rintro ⟨statement, ran, announces⟩
    cases statement with
    | sendBroadcast intent => exact ⟨intent, ran, Option.some.inj announces⟩
    | _ => cases announces
  · rw [same]
    exact Or.inl owes

end Steps

end Download
end IdoProject
