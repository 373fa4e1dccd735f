import IdoProject.Download.Moves

/-!
# What a step does to the files

Most steps touch neither the files nor what a call has copied.  The module says
what such a quiet step may change in a call, and sorts the steps into the quiet
ones and the four kinds that reach the disk.
-/

namespace IdoProject
namespace Download

open Java
open Storage

namespace Stage

/-- The callback has not opened the file. -/
def Unopened : Stage → Prop
  | .created | .enqueued | .opening => True
  | _ => False

/-- The callback is in the copy loop, or about to delete the file. -/
def Busy : Stage → Prop
  | .looping _ | .checking _ | .writing _ | .deleting => True
  | _ => False

/-- Bytes read and not written. -/
def pending : Stage → Nat
  | .checking count | .writing count => count
  | _ => 0

instance : DecidablePred Unopened
  | .created | .enqueued | .opening => .isTrue trivial
  | .looping _ | .checking _ | .writing _ | .closing | .deleting | .ending _ =>
      .isFalse id

instance : DecidablePred Busy
  | .looping _ | .checking _ | .writing _ | .deleting => .isTrue trivial
  | .created | .enqueued | .opening | .closing | .ending _ => .isFalse id

end Stage

namespace Call

/-- What is read is part of the body. -/
def Within (call : Call) : Prop :=
  call.written + call.stage.pending ≤ call.body.length

/-- The call is in the copy loop or has written its whole body. -/
def Underway (call : Call) : Prop :=
  call.stage.Busy ∨ call.written = call.body.length

/-- The callback may yet write a chunk. -/
def MayWrite (call : Call) : Prop :=
  match call.stage with
  | .writing _ => True
  | .looping _ | .checking _ => call.canceled = false
  | _ => False

instance : DecidablePred MayWrite := fun call => by
  unfold MayWrite
  split <;> infer_instance

/-- A call that has not opened a file. -/
structure Fresh (call : Call) : Prop where
  /-- No file is open. -/
  output : call.output = none
  /-- Nothing is written. -/
  written : call.written = 0
  /-- What is read is part of the body. -/
  within : call.Within

end Call

/-- The file at the destination of the call is the one that it opened, and
nobody has opened it since. -/
def current (disk : Files) (id : Nat) (call : Call) : Bool :=
  match disk.lookup call.filename with
  | some node =>
      call.output = some node ∧
        (disk.nodes[node]?.bind Node.opener) = some id
  | none => false

theorem current_iff
    {disk : Files}
    {id : Nat}
    {call : Call} :
    current disk id call = true ↔
      ∃ node, disk.lookup call.filename = some node ∧
        call.output = some node ∧
        disk.nodes[node]?.bind Node.opener = some id := by
  unfold current
  cases disk.lookup call.filename with
  | none => simp
  | some node => simp

/-- What a quiet step may change in a call, where `disk` is the directory after
the step. -/
structure Quiet (disk : Files) (id : Nat) (before after : Call) : Prop where
  /-- The destination stays. -/
  filename : after.filename = before.filename
  /-- The open file stays. -/
  output : after.output = before.output
  /-- The number of bytes written stays. -/
  written : after.written = before.written
  /-- The body stays once the file is open. -/
  body : before.output ≠ none → after.body = before.body
  /-- The callback has opened the file if it had. -/
  unopened : after.stage.Unopened → before.stage.Unopened
  /-- What is read stays part of the body. -/
  within : before.Within → after.Within
  /-- A call stays cancelled. -/
  canceled : before.canceled = true → after.canceled = true
  /-- A callback does not return to the copy loop. -/
  mayWrite : after.MayWrite → before.MayWrite
  /-- The copy at the destination is not given up. -/
  underway : current disk id before = true → before.Underway → after.Underway

namespace Quiet

variable {disk : Files} {id : Nat} {before middle after : Call}

theorem refl (call : Call) : Quiet disk id call call where
  filename := rfl
  output := rfl
  written := rfl
  body := fun _ => rfl
  unopened := fun holds => holds
  within := fun holds => holds
  canceled := fun holds => holds
  mayWrite := fun holds => holds
  underway := fun _ holds => holds

theorem current_eq
    (quiet : Quiet disk id before after) :
    current disk id after = current disk id before := by
  unfold current
  rw [quiet.filename, quiet.output]

theorem trans
    (first : Quiet disk id before middle)
    (second : Quiet disk id middle after) :
    Quiet disk id before after where
  filename := second.filename.trans first.filename
  output := second.output.trans first.output
  written := second.written.trans first.written
  body := fun opened => by
    have still : middle.output ≠ none := by rwa [first.output]
    rw [second.body still, first.body opened]
  unopened := fun holds => first.unopened (second.unopened holds)
  within := fun holds => second.within (first.within holds)
  canceled := fun holds => second.canceled (first.canceled holds)
  mayWrite := fun holds => first.mayWrite (second.mayWrite holds)
  underway := fun isCurrent holds => by
    apply second.underway
    · rwa [first.current_eq]
    · exact first.underway isCurrent holds

theorem fresh
    (quiet : Quiet disk id before after)
    (fresh : before.Fresh) :
    after.Fresh where
  output := quiet.output.trans fresh.output
  written := quiet.written.trans fresh.written
  within := quiet.within fresh.within

/-- Cancelling is quiet. -/
theorem cancel (call : Call) :
    Quiet disk id call { call with canceled := true } where
  filename := rfl
  output := rfl
  written := rfl
  body := fun _ => rfl
  unopened := fun holds => holds
  within := fun holds => holds
  canceled := fun _ => rfl
  mayWrite := by
    unfold Call.MayWrite
    cases call.stage with
    | looping | checking => intro holds; cases holds
    | _ => exact fun holds => holds
  underway := fun _ holds => holds

/-- Enqueuing is quiet. -/
theorem enqueue (call : Call) :
    Quiet disk id call
      (if call.stage = .created then { call with stage := .enqueued }
        else call) := by
  split
  case isTrue created =>
    constructor
    case unopened => exact fun _ => by rw [created]; trivial
    case within =>
      intro holds
      rw [Call.Within, created] at holds
      exact holds
    case mayWrite => exact fun holds => holds.elim
    case underway =>
      intro _ holds
      rw [Call.Underway, created] at holds
      exact Or.inr (holds.resolve_left fun busy => busy)
    case canceled => exact fun holds => holds
    case body => exact fun _ => rfl
    all_goals rfl
  case isFalse => exact Quiet.refl call

/-- A callback that has opened the file moves on quietly when it neither gives
up the copy nor enters the copy loop. -/
theorem of_stage
    (call : Call)
    (stage : Stage)
    (opened : ¬ stage.Unopened)
    (within : call.Within →
      call.written + stage.pending ≤ call.body.length)
    (mayWrite : { call with stage := stage }.MayWrite → call.MayWrite)
    (underway : current disk id call = true → call.Underway →
      { call with stage := stage }.Underway) :
    Quiet disk id call { call with stage := stage } where
  filename := rfl
  output := rfl
  written := rfl
  body := fun _ => rfl
  unopened := fun holds => absurd holds opened
  within := within
  canceled := fun holds => holds
  mayWrite := mayWrite
  underway := underway

/-- A callback that is not in the copy loop goes to its last statements. -/
theorem of_ending
    (call : Call)
    (rest : List Statement)
    (left : current disk id call = true → call.stage.Busy →
      call.written = call.body.length) :
    Quiet disk id call { call with stage := .ending rest } := by
  apply of_stage
  · exact fun holds => holds
  · exact fun within => Nat.le_trans (Nat.le_add_right ..) within
  · exact fun holds => holds.elim
  · rintro isCurrent (busy | whole)
    · exact Or.inr (left isCurrent busy)
    · exact Or.inr whole

/-- The callback looks whether the call is cancelled. -/
theorem check
    {call : Call}
    {count : Nat}
    (stage : call.stage = .checking count) :
    Quiet disk id call
      { call with
        stage := if call.canceled then .deleting else .writing count } := by
  apply of_stage
  · split <;> exact fun holds => holds
  · rw [Call.Within, stage]
    split
    · exact fun within => Nat.le_trans (Nat.le_add_right ..) within
    · exact fun within => within
  · rw [Call.MayWrite, Call.MayWrite, stage]
    by_cases canceled : call.canceled = true
    · rw [if_pos canceled]
      exact fun holds => holds.elim
    · exact fun _ => Bool.eq_false_iff.mpr canceled
  · intro _ _
    left
    dsimp only
    split <;> trivial

end Quiet

/-- The calls after a quiet step: those that were there have changed quietly,
and a new one is fresh. -/
structure QuietCalls (disk : Files) (before after : List Call) : Prop where
  /-- No call is lost. -/
  kept : ∀ (id : Nat) (call : Call), before[id]? = some call →
    ∃ next, after[id]? = some next ∧ Quiet disk id call next
  /-- A new call has opened nothing. -/
  fresh : ∀ (id : Nat) (next : Call),
    before[id]? = none → after[id]? = some next → next.Fresh

namespace QuietCalls

variable {disk : Files} {before middle after : List Call}

theorem refl (calls : List Call) : QuietCalls disk calls calls where
  kept := fun _ call listed => ⟨call, listed, Quiet.refl call⟩
  fresh := fun id next absent listed => by
    rw [absent] at listed
    cases listed

theorem trans
    (first : QuietCalls disk before middle)
    (second : QuietCalls disk middle after) :
    QuietCalls disk before after where
  kept := fun id call listed => by
    obtain ⟨next, nextListed, quiet⟩ := first.kept id call listed
    obtain ⟨last, lastListed, later⟩ := second.kept id next nextListed
    exact ⟨last, lastListed, quiet.trans later⟩
  fresh := fun id last absent listed => by
    cases found : middle[id]? with
    | none => exact second.fresh id last found listed
    | some next =>
        obtain ⟨other, otherListed, quiet⟩ := second.kept id next found
        rw [listed] at otherListed
        cases otherListed
        exact quiet.fresh (first.fresh id next absent found)

/-- One call changes quietly. -/
theorem modify
    (id : Nat)
    (change : Call → Call)
    (quiet : ∀ call, Quiet disk id call (change call)) :
    QuietCalls disk before (before.modify id change) where
  kept := by
    intro other call listed
    rw [List.getElem?_modify, listed]
    by_cases same : id = other
    · subst same
      exact ⟨change call, by simp, quiet call⟩
    · exact ⟨call, by simp [same], Quiet.refl call⟩
  fresh := by
    intro other next absent listed
    rw [List.getElem?_modify, absent] at listed
    cases listed

/-- One call is replaced by one that differs quietly. -/
theorem set
    {id : Nat}
    {call changed : Call}
    (listed : before[id]? = some call)
    (quiet : Quiet disk id call changed) :
    QuietCalls disk before (before.set id changed) where
  kept := by
    intro other found foundListed
    by_cases same : id = other
    · subst same
      rw [listed] at foundListed
      cases foundListed
      have below := (List.getElem?_eq_some_iff.mp listed).1
      exact ⟨changed, List.getElem?_set_self below, quiet⟩
    · exact ⟨found, by rw [List.getElem?_set_ne same, foundListed],
        Quiet.refl found⟩
  fresh := by
    intro other next absent nextListed
    have beyond := List.getElem?_eq_none_iff.mp absent
    have below := (List.getElem?_eq_some_iff.mp nextListed).1
    rw [List.length_set] at below
    omega

/-- After a quiet step the call of a callback changes once more. -/
theorem modify_after
    (calls : QuietCalls disk before after)
    {id : Nat}
    {call : Call}
    {change : Call → Call}
    (listed : before[id]? = some call)
    (quiet : ∀ running, Quiet disk id call running →
      Quiet disk id call (change running)) :
    QuietCalls disk before (after.modify id change) where
  kept := by
    intro other found foundListed
    obtain ⟨next, nextListed, nextQuiet⟩ := calls.kept other found foundListed
    rw [List.getElem?_modify, nextListed]
    by_cases same : id = other
    · subst same
      rw [listed] at foundListed
      cases foundListed
      exact ⟨change next, by simp, quiet next nextQuiet⟩
    · exact ⟨next, by simp [same], nextQuiet⟩
  fresh := by
    intro other next absent nextListed
    have different : id ≠ other := by
      rintro rfl
      rw [listed] at absent
      cases absent
    rw [List.getElem?_modify] at nextListed
    simp only [if_neg different, Option.map_eq_map, Option.map_id'] at nextListed
    exact calls.fresh other next absent nextListed

/-- A new call is made. -/
theorem append
    (call : Call)
    (fresh : call.Fresh) :
    QuietCalls disk before (before ++ [call]) where
  kept := by
    intro id found listed
    have below := (List.getElem?_eq_some_iff.mp listed).1
    exact ⟨found, by rw [List.getElem?_append_left below, listed],
      Quiet.refl found⟩
  fresh := by
    intro id next absent listed
    have beyond := List.getElem?_eq_none_iff.mp absent
    rw [List.getElem?_append_right beyond] at listed
    have := List.mem_of_getElem? listed
    rw [List.mem_singleton] at this
    rwa [this]

/-- A call after a quiet step was there before it, or is fresh. -/
theorem back
    (calls : QuietCalls disk before after)
    {id : Nat}
    {next : Call}
    (listed : after[id]? = some next) :
    (∃ call, before[id]? = some call ∧ Quiet disk id call next) ∨
      next.Fresh := by
  cases found : before[id]? with
  | none => exact Or.inr (calls.fresh id next found listed)
  | some call =>
      obtain ⟨other, otherListed, quiet⟩ := calls.kept id call found
      rw [listed] at otherListed
      cases otherListed
      exact Or.inl ⟨call, rfl, quiet⟩

end QuietCalls

/-! ## Statements are quiet -/

section Statements

variable {world : World} {this : Nat} {statement : Statement}

@[simp] theorem disk_exec :
    (world.exec this statement).1.disk = world.disk := by
  cases statement <;> simp only [World.exec, World.modifyCall]
  all_goals first | rfl | (split <;> rfl)

/-- A statement changes the calls quietly. -/
theorem quietCalls_exec (disk : Files) :
    QuietCalls disk world.calls (world.exec this statement).1.calls := by
  cases statement with
  | newCall model =>
      apply QuietCalls.append
      exact ⟨rfl, rfl, Nat.le_refl 0⟩
  | enqueue call =>
      exact QuietCalls.modify call _ Quiet.enqueue
  | cancel call =>
      exact QuietCalls.modify call _ Quiet.cancel
  | getActive | ifIdle | ifHeld | release | stopSelf =>
      simp only [World.exec]
      split <;> exact QuietCalls.refl _
  | _ => exact QuietCalls.refl _

end Statements

/-! ## The kinds of steps -/

/-- A call whose open file is where it should be. -/
structure CallOk (disk : Files) (call : Call) : Prop where
  /-- The open file exists. -/
  linked : ∀ node, call.output = some node → node < disk.nodes.length
  /-- The open file has no other name than the destination. -/
  named : ∀ name node, call.output = some node →
    disk.lookup name = some node → name = call.filename
  /-- Nothing is written before the file is opened. -/
  untouched : call.stage.Unopened → call.output = none ∧ call.written = 0
  /-- What is read is part of the body. -/
  within : call.Within

/-- Every call is as it should be. -/
def WellFormed (world : World) : Prop :=
  ∀ (id : Nat) (call : Call), world.calls[id]? = some call →
    CallOk world.disk call

/-- The response arrives before anything is opened. -/
theorem Quiet.respond
    {disk : Files}
    {id : Nat}
    {call : Call}
    {successful : Bool}
    {reply : Option (List UInt8)}
    {known : Bool}
    (stage : call.stage = .enqueued)
    (ok : CallOk disk call) :
    Quiet disk id call (World.onResponse call successful reply known) := by
  have unopened : call.stage.Unopened := by rw [stage]; trivial
  obtain ⟨closed, unwritten⟩ := ok.untouched unopened
  unfold World.onResponse
  split
  case h_1 body =>
    constructor
    case body => exact fun opened => absurd closed opened
    case unopened => exact fun _ => unopened
    case within =>
      intro _
      change call.written + 0 ≤ body.length
      rw [unwritten]
      exact Nat.zero_le _
    case canceled => exact fun holds => holds
    case mayWrite => exact fun holds => holds.elim
    case underway =>
      intro isCurrent
      obtain ⟨node, _, output, _⟩ := current_iff.mp isCurrent
      rw [closed] at output
      cases output
    all_goals rfl
  case h_2 =>
    apply of_ending
    rw [stage]
    exact fun _ busy => busy.elim

/-- What one step does to the disk and to the calls. -/
inductive Effect (world : World) : Action → World → Prop
  /-- The step is quiet. -/
  | quiet
      {action : Action} {next : World}
      (disk : next.disk = world.disk)
      (calls : QuietCalls world.disk world.calls next.calls) :
      Effect world action next
  /-- A file is deleted. -/
  | unlinked
      {action : Action} {next : World}
      (name : JString)
      (disk : next.disk = world.disk.unlink name)
      (calls : QuietCalls (world.disk.unlink name) world.calls next.calls) :
      Effect world action next
  /-- A callback opens the file. -/
  | opened
      {next : World} {id : Nat} {call : Call}
      (listed : world.calls[id]? = some call)
      (stage : call.stage = .opening)
      (disk : next.disk = (world.disk.openForWriting call.filename id).1)
      (calls : next.calls = world.calls.set id
        { call with
          stage := .looping []
          output := some (world.disk.openForWriting call.filename id).2 }) :
      Effect world (.openOutput id true) next
  /-- A callback writes a chunk. -/
  | wrote
      {next : World} {id count node : Nat} {call : Call}
      (listed : world.calls[id]? = some call)
      (stage : call.stage = .writing count)
      (output : call.output = some node)
      (disk : next.disk = world.disk.write node call.written
        (slice call.body call.written count))
      (calls : next.calls = world.calls.set id (call.afterWrite count)) :
      Effect world (.write id .ok) next
  /-- A write fails after a part of the chunk. -/
  | tore
      {next : World} {id count node done : Nat} {call : Call}
      (listed : world.calls[id]? = some call)
      (stage : call.stage = .writing count)
      (output : call.output = some node)
      (part : done ≤ count)
      (disk : next.disk = world.disk.write node call.written
        (slice call.body call.written done))
      (calls : next.calls = world.calls.set id
        { call with written := call.written + done }.failed) :
      Effect world (.write id (.throws done)) next
  /-- A read fails. -/
  | gaveUp
      {next : World} {id : Nat} {call : Call}
      (listed : world.calls[id]? = some call)
      (stage : call.stage = .looping [])
      (disk : next.disk = world.disk)
      (calls : next.calls = world.calls.set id call.failed) :
      Effect world (.read id .throws) next

namespace Effect

variable {world next : World} {action : Action}

/-- A callback that changes its own call quietly takes a quiet step. -/
theorem quiet_set
    {id : Nat} {call changed : Call}
    (listed : world.calls[id]? = some call)
    (quiet : Quiet world.disk id call changed) :
    Effect world action (world.setCall id changed) :=
  .quiet rfl (QuietCalls.set listed quiet)

/-- A statement of a callback is a quiet step, provided that the call may move
to the stage after it. -/
theorem quiet_callback
    {id : Nat} {call : Call} {statement : Statement} {stage : Stage}
    (listed : world.calls[id]? = some call)
    (quiet : ∀ running, Quiet world.disk id call running →
      Quiet world.disk id call { running with stage := stage }) :
    Effect world action
      ((world.exec call.service statement).1.modifyCall id
        fun running => { running with stage := stage }) :=
  .quiet disk_exec ((quietCalls_exec world.disk).modify_after listed quiet)

/-- A callback goes on with the statements of its round. -/
theorem quiet_looping
    {disk : Files} {id : Nat} {call running : Call}
    {pending rest : List Statement}
    (stage : call.stage = .looping pending)
    (quiet : Quiet disk id call running) :
    Quiet disk id call { running with stage := .looping rest } where
  filename := quiet.filename
  output := quiet.output
  written := quiet.written
  body := quiet.body
  unopened := fun holds => holds.elim
  within := by
    intro within
    have := quiet.within within
    exact Nat.le_trans (Nat.le_add_right ..) this
  canceled := quiet.canceled
  mayWrite := by
    intro uncanceled
    rw [Call.MayWrite, stage]
    exact Bool.eq_false_iff.mpr fun canceled =>
      Bool.eq_false_iff.mp uncanceled (quiet.canceled canceled)
  underway := fun _ _ => Or.inl trivial

/-- A callback goes on with its last statements. -/
theorem quiet_ending
    {disk : Files} {id : Nat} {call running : Call}
    {pending rest : List Statement}
    (stage : call.stage = .ending pending)
    (quiet : Quiet disk id call running) :
    Quiet disk id call { running with stage := .ending rest } where
  filename := quiet.filename
  output := quiet.output
  written := quiet.written
  body := quiet.body
  unopened := fun holds => holds.elim
  within := by
    intro within
    have := quiet.within within
    exact Nat.le_trans (Nat.le_add_right ..) this
  canceled := quiet.canceled
  mayWrite := fun holds => holds.elim
  underway := by
    rintro isCurrent (busy | whole)
    · rw [stage] at busy
      exact busy.elim
    · obtain ⟨node, _, output, _⟩ := current_iff.mp isCurrent
      have opened : call.output ≠ none := by simp [output]
      right
      change running.written = running.body.length
      rw [quiet.written, whole, quiet.body opened]

end Effect

section Inversion

variable {world next : World} {action : Action}

/-- The moves of a callback. -/
theorem effect_of_advance
    {id : Nat}
    {call changed : Call}
    (known : action.call? = some id)
    (listed : world.calls[id]? = some call)
    (ok : CallOk world.disk call)
    (moved : Advance world.disk call action changed) :
    Effect world action
      ({ world with disk := world.diskAfter id call action }.setCall id
        changed) := by
  -- a callback that has no copy in hand goes to its last statements
  have ends {rest : List Statement} (idle : ¬call.stage.Busy)
      (same : world.diskAfter id call action = world.disk) :
      Effect world action
        ({ world with disk := world.diskAfter id call action }.setCall id
          { call with stage := .ending rest }) := by
    rw [same]
    exact Effect.quiet_set listed
      (Quiet.of_ending call rest fun _ busy => absurd busy idle)
  cases moved with
  | failed other stage | notOpened other stage =>
      exact ends (by rw [stage]; exact fun busy => busy) rfl
  | refused other successful reply length empty stage =>
      exact ends (by rw [stage]; exact fun busy => busy) rfl
  | answered other body length stage =>
      exact Effect.quiet_set listed
        (@Quiet.respond world.disk id call true (some body) length stage ok)
  | opened other stage =>
      cases known
      exact .opened listed stage rfl rfl
  | read other count chunk stage =>
      apply Effect.quiet_set listed
      apply Quiet.of_stage
      · exact fun holds => holds
      · exact fun _ => chunk.2.2
      · rw [Call.MayWrite, Call.MayWrite, stage]
        exact fun holds => holds
      · exact fun _ _ => Or.inl trivial
  | readAll other whole stage =>
      apply Effect.quiet_set listed
      apply Quiet.of_stage
      · exact fun holds => holds
      · exact fun _ => Nat.le_of_eq whole
      · exact fun holds => holds.elim
      · exact fun _ _ => Or.inr whole
  | notRead other stage =>
      cases known
      exact .gaveUp listed stage rfl rfl
  | checked other count stage =>
      exact Effect.quiet_set listed (Quiet.check stage)
  | wrote other count node output stage =>
      cases known
      refine .wrote listed stage output ?_ rfl
      simp only [World.setCall, World.diskAfter, stage, output]
  | notWritten other count done node part output stage =>
      cases known
      refine .tore listed stage output part ?_ rfl
      simp only [World.setCall, World.diskAfter, stage, output]
  | closed other success stage =>
      exact ends (by rw [stage]; exact fun busy => busy) rfl
  | deleted other ok stage =>
      apply Effect.unlinked call.filename rfl
      apply QuietCalls.set listed
      apply Quiet.of_ending
      rw [current, Disk.lookup_unlink_self]
      intro gone
      cases gone

/-- Every step of the process is of one of the kinds. -/
theorem effect_of_step
    (wellFormed : WellFormed world)
    (fired : world.step action = some next) :
    Effect world action next := by
  cases (moves_of_step fired).2 with
  | command intent =>
      have commanded := commanded_onStartCommand world intent
      exact .quiet commanded.disk (commanded.calls ▸ QuietCalls.refl _)
  | main => exact .quiet disk_exec (quietCalls_exec _)
  | destroy => exact .quiet rfl (QuietCalls.refl _)
  | deleteModel filename => exact .unlinked filename rfl (QuietCalls.refl _)
  | progress id call statement rest listed stage =>
      exact Effect.quiet_callback listed fun _ => Effect.quiet_looping stage
  | cleanUp id call statement rest listed stage =>
      exact Effect.quiet_callback listed fun _ => Effect.quiet_ending stage
  | advance action id call changed known listed moved =>
      exact effect_of_advance known listed (wellFormed id call listed) moved

end Inversion

section Removals

variable {world next : World}
variable {action : Action}

/-- The only file that a step of the service removes is that of a cancelled
callback. -/
theorem lookup_of_moves
    (moves : Moves world action next)
    (other : ∀ filename, action ≠ .deleteModel filename)
    {name : JString}
    (present : (world.disk.lookup name).isSome = true) :
    (next.disk.lookup name).isSome = true ∨
      ∃ id ok call, action = .delete id ok ∧ world.calls[id]? = some call ∧
        name = call.filename := by
  cases moves with
  | command intent =>
      rw [(commanded_onStartCommand world intent).disk]
      exact Or.inl present
  | main => exact Or.inl (by simpa using present)
  | destroy => exact Or.inl present
  | deleteModel filename => exact absurd rfl (other filename)
  | progress | cleanUp =>
      exact Or.inl (by simpa [World.modifyCall] using present)
  | advance action id call changed owner listed moved =>
      cases moved with
      | opened =>
          obtain ⟨self, _, others, _⟩ :=
            Disk.openForWriting_spec world.disk call.filename id
          refine Or.inl ?_
          change ((world.disk.openForWriting call.filename id).1.lookup
            name).isSome = true
          by_cases same : name = call.filename
          · rw [same, self]
            rfl
          · rw [others name same]
            exact present
      | wrote | notWritten =>
          refine Or.inl ?_
          change ((world.diskAfter id call _).lookup name).isSome = true
          unfold World.diskAfter
          dsimp only
          split <;> simpa using present
      | deleted =>
          cases owner
          by_cases same : name = call.filename
          · exact Or.inr ⟨id, _, call, rfl, listed, same⟩
          · refine Or.inl ?_
            change ((world.disk.unlink call.filename).lookup name).isSome = true
            rw [Disk.lookup_unlink_of_ne same]
            exact present
      | _ => exact Or.inl present

/-- A cancelled callback removes its file. -/
theorem lookup_of_delete
    {id : Nat}
    {call : Call}
    {ok : Bool}
    (moves : Moves world (.delete id ok) next)
    (listed : world.calls[id]? = some call) :
    next.disk.lookup call.filename = none := by
  cases moves with
  | advance action other found changed owner also moved =>
      cases owner
      rw [listed] at also
      cases also
      cases moved
      exact Disk.lookup_unlink_self

end Removals

end Download
end IdoProject
