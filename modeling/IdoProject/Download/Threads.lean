import IdoProject.Download.Moves
import IdoProject.Transition.Parties

/-!
# What the threads do

The main thread and the callbacks hold only statements of the source, and a step
of one of them leaves the others alone.  The modules on the registries, on the
broadcasts and on the wake lock are case analyses of this.
-/

namespace IdoProject
namespace Download

open Java
open Storage
open Transition

/-! ## The statements of the callbacks -/

/-- The statement that a step runs. -/
def World.statement? (world : World) : Action → Option Statement
  | .main => world.main.head?
  | .callback id =>
      world.calls[id]?.bind fun call =>
        match call.stage with
        | .looping pending => pending.head?
        | .ending rest => rest.head?
        | _ => none
  | _ => none

instance decidableNotEnding :
    (stage : Stage) → Decidable (∀ rest, stage ≠ .ending rest)
  | .ending rest => .isFalse fun never => never rest rfl
  | .created | .enqueued | .opening | .looping _ | .checking _ | .writing _
  | .closing | .deleting => .isTrue (by simp)

namespace Statement

/-- A statement that a round of the copy loop ends with. -/
def Reports (filename : JString) : Statement → Prop
  | .putOngoing name _ => name = filename
  | .sendBroadcast (.progress name _) => name = filename
  | _ => False

/-- A statement that cleans up after a download of the file. -/
def Cleans (filename : JString) : Statement → Prop
  | .removeOngoing name | .removeActive name => name = filename
  | .sendBroadcast _ | .ifIdle | .ifHeld | .release | .stopSelf => True
  | _ => False

/-- A statement that takes the file out of a registry. -/
def Removes (filename : JString) : Statement → Prop
  | .removeOngoing name | .removeActive name => name = filename
  | _ => False

instance (filename : JString) : DecidablePred (Removes filename)
  | .removeOngoing name | .removeActive name =>
      inferInstanceAs (Decidable (name = filename))
  | .acquire | .putOngoing _ _ | .newCall _ | .putActive _ _ | .enqueue _
  | .getActive _ | .cancel _ | .sendBroadcast _ | .ifIdle | .ifHeld | .release
  | .stopSelf => .isFalse id

variable {filename : JString}
variable {statement : Statement}
variable (world : World)
variable (this : Nat)

/-- A report changes nothing but the progress and what was sent. -/
theorem Reports.exec
    (reports : statement.Reports filename) :
    (world.exec this statement).2 = [] ∧
      (world.exec this statement).1.calls = world.calls ∧
      (world.exec this statement).1.main = world.main ∧
      (world.exec this statement).1.activeCalls = world.activeCalls ∧
      ((world.exec this statement).1.ongoingDownloads =
          world.ongoingDownloads ∨
        ∃ progress, (world.exec this statement).1.ongoingDownloads =
          world.ongoingDownloads.insert filename progress) := by
  cases statement with
  | putOngoing name progress =>
      cases reports
      exact ⟨rfl, rfl, rfl, rfl, Or.inr ⟨progress, rfl⟩⟩
  | sendBroadcast intent => exact ⟨rfl, rfl, rfl, rfl, Or.inl rfl⟩
  | _ => cases reports

/-- What a clean-up statement leaves to run cleans up too, and removes
nothing. -/
theorem Cleans.exec
    (cleans : statement.Cleans filename) :
    (∀ later ∈ (world.exec this statement).2,
        later.Cleans filename ∧ ∀ name, ¬later.Removes name) ∧
      (world.exec this statement).1.calls = world.calls ∧
      (world.exec this statement).1.main = world.main := by
  cases statement with
  | removeOngoing | removeActive | sendBroadcast =>
      exact ⟨by simp [World.exec], rfl, rfl⟩
  | ifIdle | ifHeld | release | stopSelf =>
      simp only [World.exec]
      split <;> exact ⟨by simp [Cleans, Removes], rfl, rfl⟩
  | _ => cases cleans

/-- The registries after a clean-up statement. -/
theorem Cleans.registries
    (cleans : statement.Cleans filename) :
    ((world.exec this statement).1.activeCalls = world.activeCalls ∨
        statement = .removeActive filename ∧
          (world.exec this statement).1.activeCalls =
            world.activeCalls.erase filename) ∧
      ((world.exec this statement).1.ongoingDownloads =
          world.ongoingDownloads ∨
        statement = .removeOngoing filename ∧
          (world.exec this statement).1.ongoingDownloads =
            world.ongoingDownloads.erase filename) := by
  cases statement with
  | removeOngoing name =>
      cases cleans
      exact ⟨Or.inl rfl, Or.inr ⟨rfl, rfl⟩⟩
  | removeActive name =>
      cases cleans
      exact ⟨Or.inr ⟨rfl, rfl⟩, Or.inl rfl⟩
  | sendBroadcast => exact ⟨Or.inl rfl, Or.inl rfl⟩
  | ifIdle | ifHeld | release | stopSelf =>
      simp only [World.exec]
      split <;> exact ⟨Or.inl rfl, Or.inl rfl⟩
  | _ => cases cleans

end Statement

namespace Call

/-- The statements a callback has left are those of its stage. -/
def Scripted (call : Call) : Prop :=
  match call.stage with
  | .looping pending => ∀ statement ∈ pending, statement.Reports call.filename
  | .ending rest => ∀ statement ∈ rest, statement.Cleans call.filename
  | _ => True

/-- The callback has ended but for statements that remove nothing from the
registries. -/
def Spent (call : Call) : Prop :=
  match call.stage with
  | .ending rest => ∀ statement ∈ rest, ¬statement.Removes call.filename
  | _ => False

/-- `Spent` as a test. -/
def isSpent (call : Call) : Bool :=
  match call.stage with
  | .ending rest =>
      rest.all fun statement => !decide (statement.Removes call.filename)
  | _ => false

theorem isSpent_iff (call : Call) : call.isSpent = true ↔ call.Spent := by
  unfold isSpent Spent
  cases call.stage with
  | ending rest => simp
  | _ => simp

instance : DecidablePred Spent := fun call =>
  decidable_of_iff (call.isSpent = true) call.isSpent_iff

/-- The callback has begun, and may yet write to the file or delete it. -/
def Copying (call : Call) : Prop :=
  match call.stage with
  | .created | .enqueued | .ending _ => False
  | _ => True

/-- The call is enqueued and not cancelled, and its callback has not come to its
last statements. -/
def Live (call : Call) : Prop :=
  call.canceled = false ∧
    match call.stage with
    | .created | .ending _ => False
    | _ => True

theorem not_spent_of_stage
    {call : Call}
    (stage : ∀ rest, call.stage ≠ .ending rest) :
    ¬call.Spent := by
  unfold Spent
  split
  case h_1 rest ending => exact absurd ending (stage rest)
  case h_2 => exact id

theorem Copying.not_spent
    {call : Call}
    (copying : call.Copying) :
    ¬call.Spent := by
  apply not_spent_of_stage
  intro rest stage
  rw [Copying, stage] at copying
  exact copying

theorem Live.not_spent
    {call : Call}
    (live : call.Live) :
    ¬call.Spent := by
  apply not_spent_of_stage
  intro rest stage
  rw [Live, stage] at live
  exact live.2

end Call

/-- Every call keeps to its statements. -/
def Scripted (world : World) : Prop :=
  ∀ (id : Nat) (call : Call), world.calls[id]? = some call → call.Scripted

section Scripts

variable {filename : JString}
variable {statement : Statement}

theorem cleans_cleanupAndBroadcastFailure
    (present : statement ∈ cleanupAndBroadcastFailure filename) :
    statement.Cleans filename := by
  simp only [cleanupAndBroadcastFailure, broadcastFailure,
    releaseWakeLockAndStopService, List.mem_append, List.mem_cons,
    List.not_mem_nil, or_false] at present
  rcases present with ((rfl | rfl) | rfl | rfl) | rfl <;>
    simp [Statement.Cleans]

theorem cleans_finallyBlock
    (present : statement ∈ finallyBlock filename) :
    statement.Cleans filename := by
  simp only [finallyBlock, releaseWakeLockAndStopService, List.mem_cons,
    List.not_mem_nil, or_false] at present
  rcases present with rfl | rfl <;> simp [Statement.Cleans]

theorem cleans_catchBlock
    (present : statement ∈ catchBlock filename) :
    statement.Cleans filename :=
  (List.mem_append.mp present).elim cleans_cleanupAndBroadcastFailure
    cleans_finallyBlock

theorem cleans_broadcastComplete
    (present : statement ∈ broadcastComplete filename ++ finallyBlock filename) :
    statement.Cleans filename := by
  rcases List.mem_append.mp present with sent | last
  · simp only [broadcastComplete, List.mem_cons, List.not_mem_nil,
      or_false] at sent
    rcases sent with rfl | rfl <;> simp [Statement.Cleans]
  · exact cleans_finallyBlock last

/-- The end of a round leaves a report to run, or nothing. -/
theorem afterWrite_spec
    (call : Call)
    (count : Nat) :
    ∃ pending progress,
      (∀ statement ∈ pending, statement.Reports call.filename) ∧
        call.afterWrite count =
          { call with
            total := call.total + Int64.ofNat count
            written := call.written + count
            stage := .looping pending
            lastProgress := progress } := by
  unfold Call.afterWrite
  dsimp only
  split
  · exact ⟨_, _, by simp [broadcastProgress, Statement.Reports], rfl⟩
  · exact ⟨[], call.lastProgress, by simp, rfl⟩

/-- A move begins before the last statements and keeps what the call is. -/
theorem Advance.kept
    {disk : Files}
    {call changed : Call}
    {action : Action}
    (moved : Advance disk call action changed) :
    changed.filename = call.filename ∧ changed.service = call.service ∧
      changed.canceled = call.canceled ∧ call.stage ≠ .created ∧
        changed.stage ≠ .created ∧ ∀ rest, call.stage ≠ .ending rest := by
  cases moved with
  | wrote id count node output stage =>
      obtain ⟨pending, progress, _, after⟩ := afterWrite_spec call count
      rw [stage, after]
      exact ⟨rfl, rfl, rfl, by simp, by simp, by simp⟩
  | checked id count stage =>
      rw [stage]
      refine ⟨rfl, rfl, rfl, by simp, ?_, by simp⟩
      dsimp only
      split <;> simp
  | failed | refused | answered | opened | notOpened | read | readAll | notRead
  | notWritten | closed | deleted =>
      rename_i stage
      rw [stage]
      exact ⟨rfl, rfl, rfl, by simp, by simp [Call.failed], by simp⟩

/-- A move goes to a stage with the statements of the source. -/
theorem Advance.scripted
    {disk : Files}
    {call changed : Call}
    {action : Action}
    (moved : Advance disk call action changed) :
    changed.Scripted := by
  cases moved with
  | failed | refused => exact fun _ => cleans_cleanupAndBroadcastFailure
  | answered | read | readAll => trivial
  | opened => exact fun _ present => absurd present List.not_mem_nil
  | notOpened | notRead | notWritten => exact fun _ => cleans_catchBlock
  | checked =>
      unfold Call.Scripted
      dsimp only
      cases call.canceled with
      | true => trivial
      | false => trivial
  | wrote id count =>
      obtain ⟨pending, progress, reports, after⟩ := afterWrite_spec call count
      rw [after]
      exact reports
  | closed id ok =>
      cases ok with
      | true => exact fun _ => cleans_broadcastComplete
      | false => exact fun _ => cleans_catchBlock
  | deleted id ok =>
      cases ok with
      | true => exact fun _ => cleans_finallyBlock
      | false => exact fun _ => cleans_catchBlock

end Scripts

/-- One step of one callback, as the other threads see it. -/
structure Turn
    (world next : World)
    (id : Nat)
    (call changed : Call) : Prop where
  listed : world.calls[id]? = some call
  calls : next.calls = world.calls.set id changed
  main : next.main = world.main
  filename : changed.filename = call.filename
  service : changed.service = call.service
  canceled : changed.canceled = call.canceled
  begun : call.stage ≠ .created
  begunAfter : changed.stage ≠ .created
  /-- The last statements come last. -/
  ending : ∀ rest, call.stage = .ending rest → ∃ later, changed.stage = .ending later
  spent : call.Spent → changed.Spent
  scripted : changed.Scripted
  /-- An entry is removed only by a callback that is at its last statements. -/
  active : next.activeCalls = world.activeCalls ∨
    next.activeCalls = world.activeCalls.erase call.filename ∧
      ¬call.Spent ∧ ¬call.Live
  ongoing : next.ongoingDownloads = world.ongoingDownloads ∨
    (∃ progress, next.ongoingDownloads =
      world.ongoingDownloads.insert call.filename progress) ∨
    next.ongoingDownloads = world.ongoingDownloads.erase call.filename ∧
      ¬call.Spent ∧ ¬call.Live

section Turns

variable {world next : World}
variable {id : Nat}
variable {call changed : Call}

/-- A move of a callback is a turn. -/
theorem Turn.of_advance
    {action : Action}
    {disk after : Files}
    (listed : world.calls[id]? = some call)
    (moved : Advance disk call action changed) :
    Turn world ({ world with disk := after }.setCall id changed) id call
      changed := by
  obtain ⟨filename, service, canceled, begun, begunAfter, early⟩ := moved.kept
  exact
    { listed := listed
      calls := rfl
      main := rfl
      filename := filename
      service := service
      canceled := canceled
      begun := begun
      begunAfter := begunAfter
      ending := fun rest stage => absurd stage (early rest)
      spent := fun spent => absurd spent (Call.not_spent_of_stage early)
      scripted := moved.scripted
      active := Or.inl rfl
      ongoing := Or.inl rfl }

/-- A report of the copy loop is a turn. -/
theorem Turn.of_report
    {statement : Statement}
    {rest : List Statement}
    (listed : world.calls[id]? = some call)
    (scripted : call.Scripted)
    (stage : call.stage = .looping (statement :: rest)) :
    Turn world
      ((world.exec call.service statement).1.modifyCall id fun running =>
        { running with
          stage := .looping ((world.exec call.service statement).2 ++ rest) })
      id call { call with stage := .looping rest } := by
  rw [Call.Scripted, stage] at scripted
  have reports := scripted statement List.mem_cons_self
  obtain ⟨later, calls, main, active, ongoing⟩ :=
    reports.exec world call.service
  exact
    { listed := listed
      calls := by
        rw [World.modifyCall, calls, modify_eq_set listed, later]
        rfl
      main := main
      filename := rfl
      service := rfl
      canceled := rfl
      begun := by simp [stage]
      begunAfter := by simp
      ending := by simp [stage]
      spent := fun spent =>
        absurd spent (Call.not_spent_of_stage (by simp [stage]))
      scripted := fun _ present => scripted _ (List.mem_cons_of_mem _ present)
      active := Or.inl active
      ongoing := ongoing.imp_right Or.inl }

/-- A clean-up statement of a callback is a turn. -/
theorem Turn.of_cleanUp
    {statement : Statement}
    {rest : List Statement}
    (listed : world.calls[id]? = some call)
    (scripted : call.Scripted)
    (stage : call.stage = .ending (statement :: rest)) :
    Turn world
      ((world.exec call.service statement).1.modifyCall id fun running =>
        { running with
          stage := .ending ((world.exec call.service statement).2 ++ rest) })
      id call
      { call with
        stage := .ending ((world.exec call.service statement).2 ++ rest) } := by
  rw [Call.Scripted, stage] at scripted
  have cleans := scripted statement List.mem_cons_self
  obtain ⟨later, calls, main⟩ :=
    cleans.exec world call.service
  obtain ⟨active, ongoing⟩ :=
    cleans.registries world call.service
  have notLive : ¬call.Live := by
    rw [Call.Live, stage]
    exact fun live => live.2
  have notSpent (removes : statement.Removes call.filename) : ¬call.Spent := by
    rw [Call.Spent, stage]
    exact fun spent => spent statement List.mem_cons_self removes
  exact
    { listed := listed
      calls := by
        rw [World.modifyCall, calls, modify_eq_set listed]
      main := main
      filename := rfl
      service := rfl
      canceled := rfl
      begun := by simp [stage]
      begunAfter := by simp
      ending := fun _ _ => ⟨_, rfl⟩
      spent := by
        rw [Call.Spent, stage]
        intro spent other present
        rcases List.mem_append.mp present with new | old
        · exact (later other new).2 call.filename
        · exact spent other (List.mem_cons_of_mem _ old)
      scripted := by
        intro other present
        rcases List.mem_append.mp present with new | old
        · exact (later other new).1
        · exact scripted other (List.mem_cons_of_mem _ old)
      active := by
        rcases active with same | ⟨removes, erased⟩
        · exact Or.inl same
        · exact Or.inr ⟨erased, notSpent (by rw [removes]; rfl), notLive⟩
      ongoing := by
        rcases ongoing with same | ⟨removes, erased⟩
        · exact Or.inl same
        · exact Or.inr (Or.inr
            ⟨erased, notSpent (by rw [removes]; rfl), notLive⟩) }

/-- Every step of a callback is a turn. -/
theorem turn_of_moves
    {action : Action}
    (scripted : Scripted world)
    (moves : Moves world action next)
    (known : action.call? = some id) :
    ∃ call changed, Turn world next id call changed := by
  cases moves with
  | command | main | destroy | deleteModel => cases known
  | progress id call statement rest listed stage =>
      cases known
      exact ⟨_, _, .of_report listed (scripted id call listed) stage⟩
  | cleanUp id call statement rest listed stage =>
      cases known
      exact ⟨_, _, .of_cleanUp listed (scripted id call listed) stage⟩
  | advance action other call changed owner listed moved =>
      rw [known] at owner
      cases owner
      exact ⟨_, _, .of_advance listed moved⟩

/-- A call after a turn. -/
theorem Turn.listed_after
    (turn : Turn world next id call changed)
    {other : Nat}
    {found : Call}
    (present : next.calls[other]? = some found) :
    other = id ∧ found = changed ∨
      other ≠ id ∧ world.calls[other]? = some found := by
  rw [turn.calls] at present
  exact listed_set present

theorem Turn.live
    (turn : Turn world next id call changed)
    (live : changed.Live) :
    call.Live := by
  refine ⟨turn.canceled.symm.trans live.1, ?_⟩
  have begun := turn.begun
  have ending := turn.ending
  split
  case h_1 created => exact begun created
  case h_2 rest stage =>
    obtain ⟨later, after⟩ := ending rest stage
    have still := live.2
    rw [after] at still
    exact still
  case h_3 => trivial

/-- An entry stays that is not of the file of the turn, and one of that file
does while the callback has nothing to remove or is not there yet. -/
theorem Turn.lookup_activeCalls
    (turn : Turn world next id call changed)
    {name : JString}
    (kept : name = call.filename → call.Spent ∨ call.Live) :
    next.activeCalls.lookup name = world.activeCalls.lookup name := by
  rcases turn.active with same | ⟨erased, notSpent, notLive⟩
  · rw [same]
  · rw [erased, AList.lookup_erase_ne]
    intro equal
    exact (kept equal).elim notSpent notLive

theorem Turn.mem_ongoingDownloads
    (turn : Turn world next id call changed)
    {name : JString}
    (kept : name = call.filename → call.Spent ∨ call.Live)
    (present : name ∈ world.ongoingDownloads) :
    name ∈ next.ongoingDownloads := by
  rcases turn.ongoing with same | ⟨progress, inserted⟩ |
    ⟨erased, notSpent, notLive⟩
  · rw [same]
    exact present
  · rw [inserted]
    exact (AList.mem_insert _).mpr (Or.inr present)
  · rw [erased, AList.mem_erase]
    exact ⟨fun equal => (kept equal).elim notSpent notLive, present⟩

/-- The main thread changes calls by making, enqueuing and cancelling them. -/
inductive MainEffect (world next : World) : Statement → Prop
  | made (model : Model)
      (calls : next.calls = world.calls ++
        [{ filename := model.filename
           url := model.path
           service := world.services }]) :
      MainEffect world next (.newCall model)
  | enqueued (id : Nat)
      (calls : next.calls = world.calls.modify id fun call =>
        if call.stage = .created then { call with stage := .enqueued }
        else call) :
      MainEffect world next (.enqueue id)
  | canceled (id : Nat)
      (calls : next.calls = world.calls.modify id fun call =>
        { call with canceled := true }) :
      MainEffect world next (.cancel id)
  | kept (statement : Statement) (calls : next.calls = world.calls) :
      MainEffect world next statement

theorem mainEffect_exec
    (world : World)
    (statement : Statement)
    (rest : List Statement) :
    MainEffect world
      { (world.exec world.services statement).1 with main := rest }
      statement := by
  cases statement with
  | newCall model => exact .made model rfl
  | enqueue id => exact .enqueued id rfl
  | cancel id => exact .canceled id rfl
  | getActive | ifIdle | ifHeld | release | stopSelf =>
      refine .kept _ ?_
      simp only [World.exec]
      split <;> rfl
  | acquire | putOngoing | removeOngoing | putActive | removeActive
  | sendBroadcast => exact .kept _ rfl

/-- A call after a statement of the main thread is new, or was there before and
is as it was, or enqueued, or cancelled. -/
theorem MainEffect.listed
    {statement : Statement}
    (effect : MainEffect world next statement)
    {other : Nat}
    {found : Call}
    (present : next.calls[other]? = some found) :
    (∃ model, statement = .newCall model ∧
      found = { filename := model.filename
                url := model.path
                service := world.services }) ∨
    ∃ before, world.calls[other]? = some before ∧
      (found = before ∨
        before.stage = .created ∧ found = { before with stage := .enqueued } ∨
        statement = .cancel other ∧ found = { before with canceled := true }) := by
  cases effect with
  | made model calls =>
      rw [calls] at present
      rcases listed_append present with old | ⟨_, rfl⟩
      · exact Or.inr ⟨found, old, Or.inl rfl⟩
      · exact Or.inl ⟨model, rfl, rfl⟩
  | enqueued target calls =>
      rw [calls] at present
      obtain ⟨before, listed, rfl⟩ := listed_modify present
      refine Or.inr ⟨before, listed, ?_⟩
      by_cases same : other = target
      · rw [if_pos same]
        by_cases created : before.stage = .created
        · exact Or.inr (Or.inl ⟨created, if_pos created⟩)
        · exact Or.inl (if_neg created)
      · exact Or.inl (if_neg same)
  | canceled target calls =>
      rw [calls] at present
      obtain ⟨before, listed, rfl⟩ := listed_modify present
      refine Or.inr ⟨before, listed, ?_⟩
      by_cases same : other = target
      · exact Or.inr (Or.inr ⟨by rw [same], if_pos same⟩)
      · exact Or.inl (if_neg same)
  | kept _ calls =>
      rw [calls] at present
      exact Or.inr ⟨found, present, Or.inl rfl⟩

/-- Every step keeps the callbacks to their statements. -/
theorem scripted_step
    {action : Action}
    (scripted : Scripted world)
    (moves : Moves world action next) :
    Scripted next := by
  intro other found present
  cases known : action.call? with
  | some id =>
      obtain ⟨call, changed, turn⟩ := turn_of_moves scripted moves known
      rcases turn.listed_after present with ⟨_, rfl⟩ | ⟨_, before⟩
      · exact turn.scripted
      · exact scripted other found before
  | none =>
      cases moves with
      | command intent =>
          rw [(commanded_onStartCommand world intent).calls] at present
          exact scripted other found present
      | main statement rest queued =>
          rcases (mainEffect_exec world statement
              ((world.exec world.services statement).2 ++ rest)).listed present
            with ⟨_, _, rfl⟩ |
              ⟨before, listed, rfl | ⟨_, rfl⟩ | ⟨_, rfl⟩⟩
          · trivial
          · exact scripted other found listed
          · trivial
          · exact scripted other before listed
      | destroy | deleteModel => exact scripted other found present
      | progress | cleanUp => cases known
      | advance action id call changed owner =>
          rw [known] at owner
          cases owner

end Turns

/-- A process in which no download has been made yet. -/
def start (disk : Files) : World :=
  { disk := disk }

/-- A model in the file `m.gguf`. -/
def miniModel : Model where
  path := jstr "https://models/m.gguf"
  name := jstr "Mini"
  size := jstr "4 B"
  description := []
  filename := jstr "m.gguf"

/-- The steps up to the copy loop of a first download. -/
def opened (model : Model) (body : List UInt8) : List Action :=
  .onStartCommand (.download (some model)) :: List.replicate 7 .main ++
    [.onResponse 0 true (some body) true, .openOutput 0 true]

end Download
end IdoProject
