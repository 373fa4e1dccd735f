import IdoProject.Download.Service

/-!
# The steps of the service

Every step is one of the main thread's, a statement of a callback, or a move of
a callback from one stage to the next.  What the steps do is read off this list:
to the files in one module, to the registries, the broadcasts and the wake lock
in others.
-/

namespace IdoProject
namespace Download

open Java
open Storage

abbrev Files := Disk JString UInt8 Nat

/-- A move of a callback: what the step makes of its call. -/
inductive Advance (disk : Files) (call : Call) : Action → Call → Prop
  | failed (id : Nat) (stage : call.stage = .enqueued) :
      Advance disk call (.onFailure id)
        { call with
          stage := .ending (cleanupAndBroadcastFailure call.filename) }
  | refused (id : Nat) (successful : Bool) (reply : Option (List UInt8))
      (known : Bool) (empty : successful = false ∨ reply = none)
      (stage : call.stage = .enqueued) :
      Advance disk call (.onResponse id successful reply known)
        { call with
          stage := .ending (cleanupAndBroadcastFailure call.filename) }
  | answered (id : Nat) (body : List UInt8) (known : Bool)
      (stage : call.stage = .enqueued) :
      Advance disk call (.onResponse id true (some body) known)
        { call with
          stage := .opening
          body := body
          fileLength := if known then Int64.ofNat body.length else -1 }
  | opened (id : Nat) (stage : call.stage = .opening) :
      Advance disk call (.openOutput id true)
        { call with
          stage := .looping []
          output := some (disk.openForWriting call.filename id).2 }
  | notOpened (id : Nat) (stage : call.stage = .opening) :
      Advance disk call (.openOutput id false) call.failed
  | read (id count : Nat)
      (chunk : 0 < count ∧ count ≤ bufferSize ∧
        call.written + count ≤ call.body.length)
      (stage : call.stage = .looping []) :
      Advance disk call (.read id (.bytes count))
        { call with stage := .checking count }
  | readAll (id : Nat) (whole : call.written = call.body.length)
      (stage : call.stage = .looping []) :
      Advance disk call (.read id .endOfStream) { call with stage := .closing }
  | notRead (id : Nat) (stage : call.stage = .looping []) :
      Advance disk call (.read id .throws) call.failed
  | checked (id count : Nat) (stage : call.stage = .checking count) :
      Advance disk call (.check id)
        { call with
          stage := if call.canceled then .deleting else .writing count }
  | wrote (id count node : Nat) (output : call.output = some node)
      (stage : call.stage = .writing count) :
      Advance disk call (.write id .ok) (call.afterWrite count)
  | notWritten (id count done node : Nat) (part : done ≤ count)
      (output : call.output = some node) (stage : call.stage = .writing count) :
      Advance disk call (.write id (.throws done))
        { call with written := call.written + done }.failed
  | closed (id : Nat) (ok : Bool) (stage : call.stage = .closing) :
      Advance disk call (.close id ok)
        { call with
          stage := .ending
            (if ok then
              broadcastComplete call.filename ++ finallyBlock call.filename
            else catchBlock call.filename) }
  | deleted (id : Nat) (ok : Bool) (stage : call.stage = .deleting) :
      Advance disk call (.delete id ok)
        { call with
          stage := .ending
            (if ok then finallyBlock call.filename
            else catchBlock call.filename) }

/-- The files after a move of a callback. -/
def World.diskAfter (world : World) (id : Nat) (call : Call) : Action → Files
  | .openOutput _ true => (world.disk.openForWriting call.filename id).1
  | .write _ outcome =>
      match call.stage, call.output, outcome with
      | .writing count, some node, .ok =>
          world.disk.write node call.written (slice call.body call.written count)
      | .writing _, some node, .throws done =>
          world.disk.write node call.written (slice call.body call.written done)
      | _, _, _ => world.disk
  | .delete _ _ => world.disk.unlink call.filename
  | _ => world.disk

/-- Successor of a state under each action. -/
inductive Moves (world : World) : Action → World → Prop
  | command (intent : Intent) (idle : world.main = []) :
      Moves world (.onStartCommand intent) (world.onStartCommand intent)
  | main (statement : Statement) (rest : List Statement)
      (queued : world.main = statement :: rest) :
      Moves world .main
        { (world.exec world.services statement).1 with
          main := (world.exec world.services statement).2 ++ rest }
  | destroy (idle : world.main = []) (alive : world.alive = true)
      (stopping : world.stopping = true) :
      Moves world .onDestroy { world with alive := false, main := onDestroy }
  | deleteModel (filename : JString) (idle : world.main = []) :
      Moves world (.deleteModel filename)
        { world with disk := world.disk.unlink filename }
  | progress (id : Nat) (call : Call) (statement : Statement)
      (rest : List Statement) (listed : world.calls[id]? = some call)
      (stage : call.stage = .looping (statement :: rest)) :
      Moves world (.callback id)
        ((world.exec call.service statement).1.modifyCall id fun running =>
          { running with
            stage := .looping
              ((world.exec call.service statement).2 ++ rest) })
  | cleanUp (id : Nat) (call : Call) (statement : Statement)
      (rest : List Statement) (listed : world.calls[id]? = some call)
      (stage : call.stage = .ending (statement :: rest)) :
      Moves world (.callback id)
        ((world.exec call.service statement).1.modifyCall id fun running =>
          { running with
            stage := .ending
              ((world.exec call.service statement).2 ++ rest) })
  | advance (action : Action) (id : Nat) (call changed : Call)
      (known : action.call? = some id)
      (listed : world.calls[id]? = some call)
      (moved : Advance world.disk call action changed) :
      Moves world action
        ({ world with disk := world.diskAfter id call action }.setCall id changed)

/-- What a command makes of the process, and what the main thread then runs. -/
structure Commanded
    (world : World)
    (intent : Intent)
    (next : World) : Prop where
  disk : next.disk = world.disk
  calls : next.calls = world.calls
  active : next.activeCalls = world.activeCalls
  ongoing : next.ongoingDownloads = world.ongoingDownloads
  sent : next.sent = world.sent
  wakeLock : next.wakeLock = world.wakeLock
  alive : next.alive = true
  services : next.services =
    if world.alive then world.services else world.services + 1
  stopping : next.stopping = (world.alive && world.stopping)
  main :
    (∃ model, intent = .download (some model) ∧
      model.filename ∉ world.ongoingDownloads ∧
        next.main = downloadModel model) ∨
    (∃ filename, intent = .cancelDownload (some filename) ∧
      next.main = cancelDownload filename) ∨
    next.main = world.main

theorem commanded_onStartCommand
    (world : World)
    (intent : Intent) :
    Commanded world intent (world.onStartCommand intent) := by
  unfold World.onStartCommand
  cases alive : world.alive
  all_goals
    simp only [if_true, Bool.false_eq_true, if_false]
    split
    case h_1 model =>
      split
      case isTrue => constructor <;> simp [alive]
      case isFalse refused =>
        constructor
        case main => exact Or.inl ⟨model, rfl, refused, rfl⟩
        all_goals simp [alive]
    case h_2 filename =>
      constructor
      case main => exact Or.inr (Or.inl ⟨filename, rfl, rfl⟩)
      all_goals simp [alive]
    case h_3 => constructor <;> simp [alive]

section Inversion

variable {world next : World} {action : Action}

/-- The steps of the main thread. -/
theorem moves_of_mainStep
    (fired : world.mainStep action = some next) :
    Moves world action next := by
  cases action with
  | onStartCommand intent =>
      simp only [World.mainStep] at fired
      split at fired <;> cases fired
      case h_1 idle => exact .command intent idle
  | main =>
      simp only [World.mainStep] at fired
      split at fired <;> cases fired
      case h_1 statement rest queued => exact .main statement rest queued
  | onDestroy =>
      simp only [World.mainStep] at fired
      split at fired <;> cases fired
      case h_1 idle both =>
        rw [Bool.and_eq_true] at both
        exact .destroy idle both.1 both.2
  | deleteModel filename =>
      simp only [World.mainStep] at fired
      split at fired <;> cases fired
      case h_1 idle => exact .deleteModel filename idle
  | _ => cases fired

/-- The steps of a callback. -/
theorem moves_of_callStep
    {id : Nat}
    {call : Call}
    (known : action.call? = some id)
    (listed : world.calls[id]? = some call)
    (fired : world.callStep id call action = some next) :
    Moves world action next := by
  have moves {changed : Call} (moved : Advance world.disk call action changed)
      (equal : next = { world with
        disk := world.diskAfter id call action }.setCall id changed) :
      Moves world action next :=
    equal ▸ .advance action id call changed known listed moved
  cases action with
  | onFailure =>
      simp only [World.callStep] at fired
      split at fired <;> cases fired
      case h_1 stage => exact moves (.failed _ stage) rfl
  | onResponse _ successful reply =>
      simp only [World.callStep] at fired
      split at fired <;> cases fired
      case h_1 stage =>
        cases successful with
        | false => exact moves (.refused _ _ _ _ (Or.inl rfl) stage) rfl
        | true =>
            cases reply with
            | none => exact moves (.refused _ _ _ _ (Or.inr rfl) stage) rfl
            | some body => exact moves (.answered _ body _ stage) rfl
  | openOutput =>
      cases known
      simp only [World.callStep] at fired
      split at fired <;> cases fired
      case h_1 stage => exact moves (.opened _ stage) rfl
      case h_2 stage => exact moves (.notOpened _ stage) rfl
  | read =>
      simp only [World.callStep] at fired
      split at fired
      case h_1 count stage =>
        split at fired <;> cases fired
        case isTrue chunk => exact moves (.read _ count chunk stage) rfl
      case h_2 stage =>
        split at fired <;> cases fired
        case isTrue whole => exact moves (.readAll _ whole stage) rfl
      case h_3 stage =>
        cases fired
        exact moves (.notRead _ stage) rfl
      case h_4 => cases fired
  | check =>
      simp only [World.callStep] at fired
      split at fired <;> cases fired
      case h_1 count stage => exact moves (.checked _ count stage) rfl
  | write =>
      simp only [World.callStep] at fired
      split at fired
      case h_1 count node stage output =>
        cases fired
        refine moves (.wrote _ count node output stage) ?_
        simp only [World.diskAfter, stage, output]
      case h_2 count node done stage output =>
        split at fired <;> cases fired
        case isTrue part =>
          refine moves (.notWritten _ count done node part output stage) ?_
          simp only [World.diskAfter, stage, output]
      case h_3 => cases fired
  | close =>
      simp only [World.callStep] at fired
      split at fired <;> cases fired
      case h_1 stage => exact moves (.closed _ _ stage) rfl
  | delete =>
      simp only [World.callStep] at fired
      split at fired <;> cases fired
      case h_1 stage => exact moves (.deleted _ _ stage) rfl
  | callback =>
      cases known
      simp only [World.callStep] at fired
      split at fired <;> cases fired
      case h_1 statement rest stage =>
        exact .progress id call statement rest listed stage
      case h_2 statement rest stage =>
        exact .cleanUp id call statement rest listed stage
  | _ => cases known

/-- A step is one of the successors, of a process that is alive. -/
theorem moves_of_step
    (fired : world.step action = some next) :
    world.crashed = false ∧ Moves world action next := by
  unfold World.step at fired
  split at fired
  case isTrue => cases fired
  case isFalse living =>
    refine ⟨Bool.not_eq_true _ ▸ living, ?_⟩
    split at fired
    case h_1 id known =>
      cases listed : world.calls[id]? with
      | none => rw [listed] at fired; cases fired
      | some call =>
          rw [listed] at fired
          exact moves_of_callStep known listed fired
    case h_2 => exact moves_of_mainStep fired

end Inversion

section MainThread

variable {world next : World} {action : Action}

@[simp] theorem main_exec {this : Nat} {statement : Statement} :
    (world.exec this statement).1.main = world.main := by
  cases statement <;> simp only [World.exec, World.modifyCall]
  all_goals first | rfl | (split <;> rfl)

/-- The callbacks leave to the main thread what it has to run. -/
theorem main_of_moves
    (moves : Moves world action next)
    (notCommand : ∀ intent, action ≠ .onStartCommand intent)
    (notMain : action ≠ .main)
    (notDestroy : action ≠ .onDestroy) :
    next.main = world.main := by
  cases moves with
  | command intent => exact absurd rfl (notCommand intent)
  | main => exact absurd rfl notMain
  | destroy => exact absurd rfl notDestroy
  | deleteModel => rfl
  | progress | cleanUp => simp [World.modifyCall]
  | advance => rfl

end MainThread

end Download
end IdoProject
