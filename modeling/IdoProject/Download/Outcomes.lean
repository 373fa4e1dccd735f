import IdoProject.Download.Threads

/-!
# What is broadcast for a download

A broadcast carries a filename, and nothing remembers that a download has been
reported.  The log says for which download each terminal broadcast is: that of
the callback that sends it, and for the main thread the last one accepted for
the file.  A cancellation reports a failure at once, so the download has one
outcome only if its callback says nothing more: it has to come to the test of
`isCanceled`.
-/

namespace IdoProject
namespace Download

open Java
open Storage
open Transition

/-- A terminal broadcast, with what was known when it was sent. -/
structure Report where
  /-- The download it is for. -/
  call : Nat
  /-- `ACTION_COMPLETE`, not `ACTION_FAILED`. -/
  completed : Bool
  /-- The whole body was written to the file. -/
  whole : Bool
  /-- `cancelDownload` had been called for the download. -/
  asked : Bool
  deriving DecidableEq

/-- The process with the history of its downloads. -/
structure Log where
  world : World
  /-- The last download of each file. -/
  latest : JString → Option Nat := fun _ => none
  /-- The downloads for which `cancelDownload` has been called. -/
  asked : List Nat := []
  /-- The terminal broadcasts sent. -/
  reports : List Report := []

/-- File and kind of a terminal broadcast. -/
def Statement.terminal? : Statement → Option (JString × Bool)
  | .sendBroadcast (.complete filename) => some (filename, true)
  | .sendBroadcast (.failed filename) => some (filename, false)
  | _ => none

/-- The callback has opened the file and written the whole body. -/
def Call.Whole (call : Call) : Prop :=
  call.output.isSome = true ∧ call.written = call.body.length

instance : DecidablePred Call.Whole := fun call =>
  inferInstanceAs (Decidable
    (call.output.isSome = true ∧ call.written = call.body.length))

namespace Log

/-- The download that a terminal broadcast is for. -/
def download? (log : Log) (filename : JString) : Action → Option Nat
  | .callback id => some id
  | _ => log.latest filename

/-- The terminal broadcast that a step sends. -/
def reported (log : Log) (action : Action) : List Report :=
  match (log.world.statement? action).bind Statement.terminal? with
  | none => []
  | some (filename, completed) =>
      (log.download? filename action).toList.map fun id =>
        { call := id
          completed := completed
          whole := log.world.calls[id]?.any fun call => call.Whole
          asked := log.asked.contains id }

/-- The last downloads after a step. -/
def latestAfter (log : Log) (action : Action) : JString → Option Nat :=
  match log.world.statement? action with
  | some (.newCall model) =>
      Function.update log.latest model.filename (some log.world.calls.length)
  | _ => log.latest

/-- The downloads for which `cancelDownload` has been called after a step. -/
def askedAfter (log : Log) : Action → List Nat
  | .onStartCommand (.cancelDownload (some filename)) =>
      (log.latest filename).toList ++ log.asked
  | _ => log.asked

/-- One step of the process. -/
def step (log : Log) (action : Action) : Option Log :=
  (log.world.step action).map fun next =>
    { world := next
      latest := log.latestAfter action
      asked := log.askedAfter action
      reports := log.reports ++ log.reported action }

/-- The process with its history as a machine. -/
def machine : Transition.Machine Log Action where
  step := step

/-- Number of terminal broadcasts for a download. -/
def tally (log : Log) (id : Nat) : Nat :=
  log.reports.countP fun report => report.call == id

/-- A download has one outcome once its callback has ended, and no cancellation
is being carried out; it is `ACTION_COMPLETE` exactly when the whole body was
written and `cancelDownload` had not been called for it. -/
structure OneOutcome (log : Log) : Prop where
  once : ∀ id, log.tally id ≤ 1
  ended : ∀ (id : Nat) (call : Call), log.world.calls[id]? = some call →
    call.stage = .ended → log.world.main = [] → log.tally id = 1
  kind : ∀ report ∈ log.reports,
    report.completed = true ↔ report.whole = true ∧ report.asked = false

/-- `cancelDownload` is called for a file whose last download has not come to
its last statements and for which it was not called before; from then on the
callback goes on to the test of `isCanceled`, where it stops and its streams
close.  Nothing throws once the whole body is written. -/
def Orderly (log : Log) : Action → Prop
  | .onStartCommand (.cancelDownload (some filename)) =>
      ∀ id ∈ log.latest filename, id ∉ log.asked ∧
        ∀ call ∈ log.world.calls[id]?, ∀ rest, call.stage ≠ .ending rest
  | .onFailure id => id ∉ log.asked
  | .onResponse id successful reply _ =>
      id ∈ log.asked → successful = true ∧ reply ≠ none
  | .openOutput id ok => id ∈ log.asked → ok = true
  | .read id .endOfStream => id ∉ log.asked
  | .read id .throws =>
      id ∉ log.asked ∧ ∀ call ∈ log.world.calls[id]?,
        call.written ≠ call.body.length
  | .write id (.throws done) =>
      id ∉ log.asked ∧ ∀ call ∈ log.world.calls[id]?,
        call.written + done ≠ call.body.length
  | .close id ok => id ∉ log.asked ∧ ok = true
  | .delete _ ok => ok = true
  | _ => True

instance (log : Log) : DecidablePred log.Orderly
  | .onStartCommand (.cancelDownload (some filename)) =>
      inferInstanceAs (Decidable (∀ id ∈ log.latest filename, id ∉ log.asked ∧
        ∀ call ∈ log.world.calls[id]?, ∀ rest, call.stage ≠ .ending rest))
  | .onFailure id => inferInstanceAs (Decidable (id ∉ log.asked))
  | .onResponse id successful reply _ =>
      inferInstanceAs (Decidable
        (id ∈ log.asked → successful = true ∧ reply ≠ none))
  | .openOutput id ok =>
      inferInstanceAs (Decidable (id ∈ log.asked → ok = true))
  | .read id .endOfStream => inferInstanceAs (Decidable (id ∉ log.asked))
  | .read id .throws =>
      inferInstanceAs (Decidable (id ∉ log.asked ∧
        ∀ call ∈ log.world.calls[id]?, call.written ≠ call.body.length))
  | .write id (.throws done) =>
      inferInstanceAs (Decidable (id ∉ log.asked ∧
        ∀ call ∈ log.world.calls[id]?,
          call.written + done ≠ call.body.length))
  | .close id ok => inferInstanceAs (Decidable (id ∉ log.asked ∧ ok = true))
  | .delete _ ok => inferInstanceAs (Decidable (ok = true))
  | .onStartCommand (.download _) | .onStartCommand (.cancelDownload none)
  | .onStartCommand .other | .main | .onDestroy | .deleteModel _
  | .read _ (.bytes _) | .check _ | .write _ .ok | .callback _ =>
      .isTrue trivial

end Log

/-! ## What holds in every state -/

namespace Statement

/-- Neither makes a call nor belongs to a cancellation up to its broadcast. -/
def Plain : Statement → Prop
  | .sendBroadcast (.complete _) | .sendBroadcast (.failed _) | .getActive _
  | .cancel _ | .newCall _ => False
  | _ => True

/-- A statement of a start before its call is made. -/
def Starts : Statement → Prop
  | .acquire | .putOngoing _ _ | .sendBroadcast (.progress _ _) => True
  | _ => False

/-- A statement of a cancellation before its broadcast. -/
def Before (filename : JString) : Statement → Prop
  | .getActive name | .removeOngoing name | .removeActive name =>
      name = filename
  | .cancel _ => True
  | _ => False

/-- Only the two broadcasts at the end of a download are terminal. -/
theorem terminal?_eq_none
    {statement : Statement}
    (complete : ∀ name, statement ≠ .sendBroadcast (.complete name))
    (failed : ∀ name, statement ≠ .sendBroadcast (.failed name)) :
    statement.terminal? = none := by
  cases statement with
  | sendBroadcast intent =>
      cases intent with
      | progress => rfl
      | complete name => exact absurd rfl (complete name)
      | failed name => exact absurd rfl (failed name)
  | _ => rfl

theorem Plain.terminal?
    {statement : Statement}
    (plain : statement.Plain) :
    statement.terminal? = none :=
  terminal?_eq_none (by rintro _ rfl; exact plain) (by rintro _ rfl; exact plain)

theorem Starts.terminal?
    {statement : Statement}
    (starts : statement.Starts) :
    statement.terminal? = none :=
  terminal?_eq_none (by rintro _ rfl; exact starts)
    (by rintro _ rfl; exact starts)

theorem Before.terminal?
    {statement : Statement}
    {filename : JString}
    (before : statement.Before filename) :
    statement.terminal? = none :=
  terminal?_eq_none (by rintro _ rfl; exact before)
    (by rintro _ rfl; exact before)

theorem Reports.terminal?
    {statement : Statement}
    {filename : JString}
    (reports : statement.Reports filename) :
    statement.terminal? = none :=
  terminal?_eq_none (by rintro _ rfl; exact reports)
    (by rintro _ rfl; exact reports)

/-- What a plain statement leaves to run is plain and registers no call. -/
theorem Plain.exec
    {statement : Statement}
    (plain : statement.Plain)
    (world : World)
    (this : Nat) :
    ∀ later ∈ (world.exec this statement).2,
      later.Plain ∧ ∀ filename id, later ≠ .putActive filename id := by
  cases statement with
  | getActive | cancel | newCall => cases plain
  | ifIdle | ifHeld | release | stopSelf =>
      simp only [World.exec]
      split <;> simp [Plain]
  | _ => simp [World.exec, Plain]

end Statement

/-- Number of terminal broadcasts among the statements left to run. -/
def terminals (rest : List Statement) : Nat :=
  rest.countP fun statement => statement.terminal?.isSome

/-- What a callback has opened and written at each stage. -/
def Call.Opened (call : Call) : Prop :=
  match call.stage with
  | .created | .enqueued | .opening => call.output = none
  | .closing => call.Whole
  | .ending _ => True
  | _ => call.output.isSome = true

namespace Log

/-- The main thread is about to report the failure of the download. -/
def Pending
    (latest : JString → Option Nat)
    (main : List Statement)
    (id : Nat) : Prop :=
  ∃ filename, latest filename = some id ∧
    .sendBroadcast (.failed filename) ∈ main

/-- What the main thread has left to run: a start up to its call, a cancellation
up to its broadcast, or nothing of the two but the end. -/
inductive MainScript
    (latest : JString → Option Nat)
    (asked : List Nat) : List Statement → Prop
  | plain (main : List Statement)
      (plain : ∀ statement ∈ main, statement.Plain)
      (put : ∀ filename id, .putActive filename id ∈ main →
        latest filename = some id) :
      MainScript latest asked main
  | starting (model : Model) (before : List Statement)
      (kinds : ∀ statement ∈ before, statement.Starts) :
      MainScript latest asked (before ++ [.newCall model])
  | cancelling (filename : JString) (before : List Statement)
      (kinds : ∀ statement ∈ before, statement.Before filename)
      (target : ∀ id, latest filename = some id → id ∈ asked)
      (found : ∀ id, .cancel id ∈ before → id ∈ asked) :
      MainScript latest asked
        (before ++ [.sendBroadcast (.failed filename), .ifIdle])

/-- A download that was not cancelled is reported by its callback alone, at its
last statements. -/
def Own (log : Log) (id : Nat) (call : Call) : Prop :=
  match call.stage with
  | .ending rest =>
      log.tally id + terminals rest = 1 ∧
        ∀ statement ∈ rest, ∀ filename completed,
          statement.terminal? = some (filename, completed) →
            (completed = true ↔ call.Whole)
  | _ => log.tally id = 0

/-- A download that was cancelled is reported by the main thread alone. -/
structure Canceled (log : Log) (id : Nat) (call : Call) : Prop where
  silent : ∀ rest, call.stage = .ending rest → terminals rest = 0
  tally : log.tally id = 1 ∧ ¬Pending log.latest log.world.main id ∨
    log.tally id = 0 ∧ Pending log.latest log.world.main id

/-- What holds in every state of an orderly run. -/
structure Consistent (log : Log) : Prop where
  scripted : Scripted log.world
  opened : ∀ (id : Nat) (call : Call), log.world.calls[id]? = some call →
    call.Opened
  reported : ∀ report ∈ log.reports, report.call < log.world.calls.length
  known : ∀ id ∈ log.asked, id < log.world.calls.length
  last : ∀ filename id, log.latest filename = some id →
    id < log.world.calls.length
  own : ∀ (id : Nat) (call : Call), log.world.calls[id]? = some call →
    id ∉ log.asked → log.Own id call
  canceled : ∀ (id : Nat) (call : Call), log.world.calls[id]? = some call →
    id ∈ log.asked → log.Canceled id call
  asked : ∀ (id : Nat) (call : Call), log.world.calls[id]? = some call →
    call.canceled = true → id ∈ log.asked
  deleting : ∀ (id : Nat) (call : Call), log.world.calls[id]? = some call →
    call.stage = .deleting → call.canceled = true
  active : ∀ filename id,
    log.world.activeCalls.lookup filename = some id →
      log.latest filename = some id ∨
        ∃ new, .putActive filename new ∈ log.world.main
  main : MainScript log.latest log.asked log.world.main
  kind : ∀ report ∈ log.reports,
    report.completed = true ↔ report.whole = true ∧ report.asked = false

section Counting

variable {log next : Log}

theorem tally_of_append
    {new : List Report}
    (reports : next.reports = log.reports ++ new)
    (id : Nat) :
    next.tally id = log.tally id + new.countP fun report => report.call == id := by
  rw [tally, reports, List.countP_append]
  rfl

/-- A download that is not there has not been reported. -/
theorem Consistent.tally_of_not_listed
    (consistent : log.Consistent)
    {id : Nat}
    (absent : log.world.calls.length ≤ id) :
    log.tally id = 0 := by
  refine List.countP_eq_zero.mpr fun report present => ?_
  have inside := consistent.reported report present
  intro same
  rw [beq_iff_eq] at same
  omega

theorem Consistent.oneOutcome
    (consistent : log.Consistent) :
    log.OneOutcome where
  once := by
    intro id
    cases listed : log.world.calls[id]? with
    | none =>
        rw [consistent.tally_of_not_listed (List.getElem?_eq_none_iff.mp listed)]
        exact Nat.zero_le 1
    | some call =>
        by_cases asked : id ∈ log.asked
        · rcases (consistent.canceled id call listed asked).tally
            with ⟨one, _⟩ | ⟨zero, _⟩
          · exact one.le
          · exact zero ▸ Nat.zero_le 1
        · have own := consistent.own id call listed asked
          unfold Own at own
          split at own
          · exact own.1 ▸ Nat.le_add_right _ _
          · exact own ▸ Nat.zero_le 1
  ended := by
    intro id call listed stage idle
    by_cases asked : id ∈ log.asked
    · rcases (consistent.canceled id call listed asked).tally
        with ⟨one, _⟩ | ⟨_, filename, _, pending⟩
      · exact one
      · rw [idle] at pending
        exact absurd pending List.not_mem_nil
    · have own := consistent.own id call listed asked
      rw [Own, stage] at own
      exact own.1
  kind := consistent.kind

end Counting

section Callbacks

variable {log next : Log}
variable {id : Nat}
variable {call changed : Call}

theorem Own.of_tally
    (same : next.tally id = log.tally id)
    (own : log.Own id call) :
    next.Own id call := by
  unfold Own at own ⊢
  rw [same]
  exact own

/-- A turn of a callback that reports its own download only. -/
theorem Consistent.of_turn
    {new : List Report}
    (consistent : log.Consistent)
    (turn : Turn log.world next.world id call changed)
    (latest : next.latest = log.latest)
    (asked : next.asked = log.asked)
    (reports : next.reports = log.reports ++ new)
    (kind : ∀ report ∈ new, report.call = id ∧
      (report.completed = true ↔ report.whole = true ∧ report.asked = false))
    (opened : changed.Opened)
    (deleting : changed.stage = .deleting → changed.canceled = true)
    (own : id ∉ log.asked → next.Own id changed)
    (silent : id ∈ log.asked → new = [] ∧
      ∀ rest, changed.stage = .ending rest → terminals rest = 0) :
    next.Consistent := by
  have length : next.world.calls.length = log.world.calls.length := by
    rw [turn.calls, List.length_set]
  have others {other : Nat} (different : other ≠ id) :
      next.tally other = log.tally other := by
    rw [tally_of_append reports, List.countP_eq_zero.mpr, Nat.add_zero]
    intro report present
    rw [(kind report present).1, beq_iff_eq]
    exact different.symm
  constructor
  case scripted =>
    intro other found present
    rcases turn.listed_after present with ⟨_, rfl⟩ | ⟨_, before⟩
    · exact turn.scripted
    · exact consistent.scripted other found before
  case opened =>
    intro other found present
    rcases turn.listed_after present with ⟨_, rfl⟩ | ⟨_, before⟩
    · exact opened
    · exact consistent.opened other found before
  case reported =>
    rw [reports, length]
    intro report present
    rcases List.mem_append.mp present with old | recent
    · exact consistent.reported report old
    · rw [(kind report recent).1]
      exact (List.getElem?_eq_some_iff.mp turn.listed).1
  case known =>
    rw [asked, length]
    exact consistent.known
  case last =>
    rw [latest, length]
    exact consistent.last
  case own =>
    rw [asked]
    intro other found present notAsked
    rcases turn.listed_after present with ⟨rfl, rfl⟩ | ⟨different, before⟩
    · exact own notAsked
    · exact (consistent.own other found before notAsked).of_tally
        (others different)
  case canceled =>
    rw [asked]
    intro other found present isAsked
    rcases turn.listed_after present with ⟨rfl, rfl⟩ | ⟨different, before⟩
    · obtain ⟨nothing, quiet⟩ := silent isAsked
      refine ⟨quiet, ?_⟩
      rw [tally_of_append reports, nothing, latest, turn.main]
      exact (consistent.canceled other call turn.listed isAsked).tally
    · have kept := consistent.canceled other found before isAsked
      refine ⟨kept.silent, ?_⟩
      rw [others different, latest, turn.main]
      exact kept.tally
  case asked =>
    rw [asked]
    intro other found present isCanceled
    rcases turn.listed_after present with ⟨rfl, rfl⟩ | ⟨_, before⟩
    · exact consistent.asked other call turn.listed
        (turn.canceled.symm.trans isCanceled)
    · exact consistent.asked other found before isCanceled
  case deleting =>
    intro other found present stage
    rcases turn.listed_after present with ⟨_, rfl⟩ | ⟨_, before⟩
    · exact deleting stage
    · exact consistent.deleting other found before stage
  case active =>
    rw [latest, turn.main]
    intro filename other found
    refine consistent.active filename other ?_
    rcases turn.active with same | ⟨erased, _⟩
    · rw [← same]
      exact found
    · rw [erased] at found
      by_cases own : filename = call.filename
      · rw [own, AList.lookup_erase] at found
        cases found
      · rw [AList.lookup_erase_ne own] at found
        exact found
  case main =>
    rw [latest, asked, turn.main]
    exact consistent.main
  case kind =>
    rw [reports]
    intro report present
    rcases List.mem_append.mp present with old | recent
    · exact consistent.kind report old
    · exact (kind report recent).2

/-- The clean-up after a failure reports it once. -/
theorem reports_cleanupAndBroadcastFailure (filename : JString) :
    terminals (cleanupAndBroadcastFailure filename) = 1 ∧
      ∀ statement ∈ cleanupAndBroadcastFailure filename, ∀ name completed,
        statement.terminal? = some (name, completed) → completed = false := by
  refine ⟨rfl, ?_⟩
  simp [cleanupAndBroadcastFailure, broadcastFailure,
    releaseWakeLockAndStopService, Statement.terminal?]

/-- The `catch` block reports a failure once. -/
theorem reports_catchBlock (filename : JString) :
    terminals (catchBlock filename) = 1 ∧
      ∀ statement ∈ catchBlock filename, ∀ name completed,
        statement.terminal? = some (name, completed) → completed = false := by
  refine ⟨rfl, ?_⟩
  simp [catchBlock, finallyBlock, cleanupAndBroadcastFailure, broadcastFailure,
    releaseWakeLockAndStopService, Statement.terminal?]

/-- The end of the `try` block reports the completion once. -/
theorem reports_broadcastComplete (filename : JString) :
    terminals (broadcastComplete filename ++ finallyBlock filename) = 1 ∧
      ∀ statement ∈ broadcastComplete filename ++ finallyBlock filename,
        ∀ name completed, statement.terminal? = some (name, completed) →
          completed = true := by
  refine ⟨rfl, ?_⟩
  simp [broadcastComplete, finallyBlock, releaseWakeLockAndStopService,
    Statement.terminal?]

/-- A callback that has not been reported comes to statements that report it
once. -/
theorem own_of_ending
    {rest : List Statement}
    {kind : Bool}
    (silent : log.tally id = 0)
    (stage : changed.stage = .ending rest)
    (reports : terminals rest = 1 ∧
      ∀ statement ∈ rest, ∀ name completed,
        statement.terminal? = some (name, completed) → completed = kind)
    (right : kind = true ↔ changed.Whole) :
    log.Own id changed := by
  rw [Own, stage]
  refine ⟨by rw [silent, reports.1], fun statement present name completed
    sends => ?_⟩
  rw [reports.2 statement present name completed sends]
  exact right

/-- A callback that has not come to its last statements is not reported. -/
theorem own_of_not_ending
    (silent : log.tally id = 0)
    (stage : ∀ rest, changed.stage ≠ .ending rest) :
    log.Own id changed := by
  unfold Own
  split
  case h_1 rest ending => exact absurd ending (stage rest)
  case h_2 => exact silent

/-- A move of a callback runs no statement. -/
theorem statement?_of_advance
    {disk : Files}
    {action : Action}
    (moved : Advance disk call action changed)
    (world : World) :
    world.statement? action = none ∧ log.askedAfter action = log.asked := by
  cases moved <;> exact ⟨rfl, rfl⟩

/-- A move of a callback in an orderly run. -/
theorem Consistent.advance
    {disk : Files}
    {action : Action}
    (consistent : log.Consistent)
    (orderly : log.Orderly action)
    (owner : action.call? = some id)
    (turn : Turn log.world next.world id call changed)
    (moved : Advance disk call action changed)
    (latest : next.latest = log.latest)
    (asked : next.asked = log.asked)
    (reports : next.reports = log.reports) :
    next.Consistent := by
  have listed := turn.listed
  have opened := consistent.opened id call listed
  have early := moved.kept.2.2.2.2.2
  have same : next.tally id = log.tally id := by rw [tally, reports]; rfl
  have silent (notAsked : id ∉ log.asked) : next.tally id = 0 := by
    have own := consistent.own id call listed notAsked
    unfold Own at own
    split at own
    case h_1 rest stage => exact absurd stage (early rest)
    case h_2 => exact same.trans own
  have next_ (openedAfter : changed.Opened)
      (deleting : changed.stage = .deleting → changed.canceled = true)
      (own : id ∉ log.asked → next.Own id changed)
      (quiet : id ∈ log.asked →
        ∀ rest, changed.stage = .ending rest → terminals rest = 0) :
      next.Consistent :=
    consistent.of_turn turn latest asked
      (reports.trans (List.append_nil _).symm) (by simp) openedAfter deleting
      own fun isAsked => ⟨rfl, quiet isAsked⟩
  -- a callback that has no file open, or not the whole body, only fails
  have fails {rest : List Statement} (stage : changed.stage = .ending rest)
      (failure : terminals rest = 1 ∧ ∀ statement ∈ rest, ∀ name completed,
        statement.terminal? = some (name, completed) → completed = false)
      (part : ¬changed.Whole) (notAsked : id ∉ log.asked) : next.Consistent := by
    refine next_ ?_ (by rw [stage]; simp) (fun notAsked => ?_)
      (fun isAsked => absurd isAsked notAsked)
    · rw [Call.Opened, stage]
      trivial
    · exact own_of_ending (silent notAsked) stage failure
        (iff_of_false Bool.false_ne_true part)
  have goesOn (openedAfter : changed.Opened)
      (deleting : changed.stage = .deleting → changed.canceled = true)
      (stage : ∀ rest, changed.stage ≠ .ending rest) : next.Consistent :=
    next_ openedAfter deleting
      (fun notAsked => own_of_not_ending (silent notAsked) stage)
      fun _ rest ending => absurd ending (stage rest)
  unfold Call.Opened at opened
  cases moved with
  | failed other stage =>
      cases owner
      rw [stage] at opened
      refine fails rfl (reports_cleanupAndBroadcastFailure _) ?_ orderly
      simp [Call.Whole, opened]
  | refused other successful reply known empty stage =>
      cases owner
      rw [stage] at opened
      refine fails rfl (reports_cleanupAndBroadcastFailure _) ?_ fun isAsked => ?_
      · simp [Call.Whole, opened]
      · obtain ⟨yes, some⟩ := orderly isAsked
        rcases empty with no | none
        · exact absurd (yes.symm.trans no) (by simp)
        · exact some none
  | answered other body known stage =>
      rw [stage] at opened
      exact goesOn opened (by simp) (by simp)
  | opened other stage => exact goesOn rfl (by simp) (by simp)
  | notOpened other stage =>
      cases owner
      rw [stage] at opened
      refine fails rfl (reports_catchBlock _) ?_ fun isAsked => ?_
      · simp [Call.Whole, Call.failed, opened]
      · exact Bool.false_ne_true (orderly isAsked)
  | read other count chunk stage =>
      rw [stage] at opened
      exact goesOn opened (by simp) (by simp)
  | readAll other whole stage =>
      rw [stage] at opened
      exact goesOn ⟨opened, whole⟩ (by simp) (by simp)
  | notRead other stage =>
      cases owner
      refine fails rfl (reports_catchBlock _) (fun whole => ?_) orderly.1
      exact orderly.2 call listed whole.2
  | checked other count stage =>
      rw [stage] at opened
      have isOpen : call.output.isSome = true := opened
      cases isCanceled : call.canceled with
      | true =>
          refine goesOn ?_ (fun _ => isCanceled) ?_ <;>
            simp [Call.Opened, isCanceled, isOpen]
      | false =>
          refine goesOn ?_ ?_ ?_ <;> simp [Call.Opened, isCanceled, isOpen]
  | wrote other count node output stage =>
      rw [stage] at opened
      obtain ⟨pending, progress, _, after⟩ := afterWrite_spec call count
      rw [after] at goesOn
      exact goesOn opened (by simp) (by simp)
  | notWritten other count done node part output stage =>
      cases owner
      refine fails rfl (reports_catchBlock _) (fun whole => ?_) orderly.1
      exact orderly.2 call listed whole.2
  | closed other ok stage =>
      cases owner
      obtain ⟨notAsked, rfl⟩ := orderly
      rw [stage] at opened
      refine next_ trivial (by simp) (fun notAsked => ?_)
        (fun isAsked => absurd isAsked notAsked)
      exact own_of_ending (silent notAsked) rfl (reports_broadcastComplete _)
        (iff_of_true rfl opened)
  | deleted other ok stage =>
      obtain rfl : ok = true := orderly
      refine next_ trivial (by simp) (fun notAsked => ?_) fun _ rest ending => ?_
      · have isCanceled := consistent.deleting id call listed stage
        exact absurd (consistent.asked id call listed isCanceled) notAsked
      · cases ending
        rfl

/-- What a statement leaves to run sends nothing. -/
theorem terminals_exec
    (world : World)
    (this : Nat)
    (statement : Statement) :
    terminals (world.exec this statement).2 = 0 := by
  cases statement with
  | getActive | ifIdle | ifHeld | release | stopSelf =>
      simp only [World.exec]
      split <;> rfl
  | _ => rfl

/-- What a callback reports with the statement at its head. -/
theorem reported_callback
    {statement : Statement}
    (listed : log.world.calls[id]? = some call)
    (head : log.world.statement? (.callback id) = some statement) :
    log.reported (.callback id) =
      match statement.terminal? with
      | none => []
      | some (_, completed) =>
          [{ call := id
             completed := completed
             whole := decide call.Whole
             asked := log.asked.contains id }] := by
  unfold reported
  rw [head, Option.bind_some]
  split
  case h_1 => rfl
  case h_2 => simp [download?, listed]

/-- A report of the copy loop is not terminal. -/
theorem Consistent.report
    {statement : Statement}
    {rest : List Statement}
    (consistent : log.Consistent)
    (stage : call.stage = .looping (statement :: rest))
    (turn : Turn log.world next.world id call
      { call with stage := .looping rest })
    (latest : next.latest = log.latestAfter (.callback id))
    (asked : next.asked = log.asked)
    (reports : next.reports = log.reports ++ log.reported (.callback id)) :
    next.Consistent := by
  have listed := turn.listed
  have scripted := consistent.scripted id call listed
  rw [Call.Scripted, stage] at scripted
  have report := scripted statement List.mem_cons_self
  have head : log.world.statement? (.callback id) = some statement := by
    rw [World.statement?, listed, Option.bind_some, stage]
    rfl
  have silent : log.reported (.callback id) = [] := by
    rw [reported_callback listed head, report.terminal?]
  have same : next.tally id = log.tally id := by
    rw [tally_of_append reports, silent]
    rfl
  have opened := consistent.opened id call listed
  rw [Call.Opened, stage] at opened
  rw [silent] at reports
  refine consistent.of_turn turn ?_ asked reports (by simp) opened (by simp)
    (fun notAsked => ?_) fun _ => ⟨rfl, by simp⟩
  · rw [latest, latestAfter, head]
    cases statement with
    | newCall => cases report
    | _ => rfl
  · have own := consistent.own id call listed notAsked
    rw [Own, stage] at own
    exact own_of_not_ending (same.trans own) (by simp)

/-- A clean-up statement of a callback sends what the callback has left to
send. -/
theorem Consistent.cleanUp
    {statement : Statement}
    {rest : List Statement}
    (consistent : log.Consistent)
    (stage : call.stage = .ending (statement :: rest))
    (turn : Turn log.world next.world id call
      { call with
        stage := .ending
          ((log.world.exec call.service statement).2 ++ rest) })
    (latest : next.latest = log.latestAfter (.callback id))
    (asked : next.asked = log.asked)
    (reports : next.reports = log.reports ++ log.reported (.callback id)) :
    next.Consistent := by
  have listed := turn.listed
  have scripted := consistent.scripted id call listed
  rw [Call.Scripted, stage] at scripted
  have cleans := scripted statement List.mem_cons_self
  have head : log.world.statement? (.callback id) = some statement := by
    rw [World.statement?, listed, Option.bind_some, stage]
    rfl
  have sent := reported_callback listed head
  have left : terminals
      ((log.world.exec call.service statement).2 ++ rest) = terminals rest := by
    rw [terminals, List.countP_append]
    exact (congrArg (· + _) (terminals_exec _ _ _)).trans (Nat.zero_add _)
  have count : terminals (statement :: rest) =
      terminals rest + if statement.terminal?.isSome then 1 else 0 :=
    List.countP_cons
  have later {other : Statement}
      (present : other ∈ (log.world.exec call.service statement).2 ++ rest)
      (sends : other.terminal?.isSome = true) : other ∈ rest := by
    rcases List.mem_append.mp present with new | old
    · have none := List.countP_eq_zero.mp
        (terminals_exec log.world call.service statement) other new
      exact absurd sends none
    · exact old
  refine consistent.of_turn turn ?_ asked reports (fun report present => ?_)
    trivial (by simp) (fun notAsked => ?_) (fun isAsked => ?_)
  · rw [latest, latestAfter, head]
    cases statement with
    | newCall => cases cleans
    | _ => rfl
  · rw [sent] at present
    cases sends : statement.terminal? with
    | none =>
        rw [sends] at present
        cases present
    | some target =>
        obtain ⟨filename, completed⟩ := target
        rw [sends] at present
        rw [List.mem_singleton.mp present]
        refine ⟨rfl, ?_⟩
        dsimp only
        by_cases isAsked : id ∈ log.asked
        · have silent := (consistent.canceled id call listed isAsked).silent _
            stage
          rw [count, sends] at silent
          cases silent
        · have own := consistent.own id call listed isAsked
          rw [Own, stage] at own
          rw [own.2 statement List.mem_cons_self filename completed sends]
          simp [isAsked]
  · have own := consistent.own id call listed notAsked
    rw [Own, stage] at own
    refine ⟨?_, fun other present filename completed sends => ?_⟩
    · rw [left, tally_of_append reports, sent, ← own.1, count]
      cases sends : statement.terminal? with
      | none => simp
      | some target => simp; omega
    · exact own.2 other
        (List.mem_cons_of_mem _ (later present (by rw [sends]; rfl))) filename
        completed sends
  · have silent := (consistent.canceled id call listed isAsked).silent _ stage
    rw [count] at silent
    have nothing : statement.terminal?.isSome = false := by
      cases sends : statement.terminal?.isSome with
      | false => rfl
      | true =>
          rw [sends] at silent
          cases silent
    constructor
    · rw [sent]
      cases sends : statement.terminal? with
      | none => rfl
      | some target =>
          rw [sends] at nothing
          cases nothing
    · intro other ending
      cases ending
      rw [left]
      exact (Nat.add_eq_zero_iff.mp silent).1

end Callbacks

section Main

variable {log next : Log}
variable {statement : Statement}
variable {rest : List Statement}

/-- A call that the main thread changed in place, but for its cancellation. -/
structure Alike (before found : Call) : Prop where
  stage : found.stage = before.stage ∨
    before.stage = .created ∧ found.stage = .enqueued
  canceled : before.canceled = true → found.canceled = true
  output : found.output = before.output
  whole : found.Whole ↔ before.Whole

theorem Alike.ending
    {before found : Call}
    {left : List Statement}
    (alike : Alike before found)
    (stage : found.stage = .ending left) :
    before.stage = .ending left := by
  rcases alike.stage with same | ⟨_, enqueued⟩
  · exact same.symm.trans stage
  · rw [enqueued] at stage
    cases stage

theorem Alike.opened
    {before found : Call}
    (alike : Alike before found)
    (opened : before.Opened) :
    found.Opened := by
  unfold Call.Opened at opened ⊢
  rw [alike.output, alike.whole]
  rcases alike.stage with same | ⟨created, enqueued⟩
  · rw [same]
    exact opened
  · rw [created] at opened
    rw [enqueued]
    exact opened

theorem Alike.own
    {id : Nat}
    {before found : Call}
    (alike : Alike before found)
    (same : next.tally id = log.tally id)
    (own : log.Own id before) :
    next.Own id found := by
  unfold Own at own ⊢
  rw [same, alike.whole]
  rcases alike.stage with equal | ⟨created, enqueued⟩
  · rw [equal]
    exact own
  · rw [created] at own
    rw [enqueued]
    exact own

/-- A step of the main thread that changes calls in place only. -/
theorem Consistent.of_main
    (consistent : log.Consistent)
    (scripted : Scripted next.world)
    (length : next.world.calls.length = log.world.calls.length)
    (alike : ∀ (id : Nat) (found : Call),
      next.world.calls[id]? = some found →
        ∃ before, log.world.calls[id]? = some before ∧ Alike before found ∧
          (found.canceled = true → id ∈ next.asked))
    (latest : next.latest = log.latest)
    (reported : ∀ report ∈ next.reports, report.call < log.world.calls.length)
    (known : ∀ id ∈ next.asked, id < log.world.calls.length)
    (kept : ∀ id, id ∉ next.asked → id ∉ log.asked ∧
      next.tally id = log.tally id)
    (canceled : ∀ (id : Nat) (call : Call),
      log.world.calls[id]? = some call → id ∈ next.asked →
        (∀ left, call.stage = .ending left → terminals left = 0) ∧
          (next.tally id = 1 ∧ ¬Pending log.latest next.world.main id ∨
            next.tally id = 0 ∧ Pending log.latest next.world.main id))
    (active : ∀ filename id,
      next.world.activeCalls.lookup filename = some id →
        log.latest filename = some id ∨
          ∃ new, .putActive filename new ∈ next.world.main)
    (main : MainScript log.latest next.asked next.world.main)
    (kind : ∀ report ∈ next.reports,
      report.completed = true ↔ report.whole = true ∧ report.asked = false) :
    next.Consistent where
  scripted := scripted
  opened := by
    intro id found present
    obtain ⟨before, listed, same, _⟩ := alike id found present
    exact same.opened (consistent.opened id before listed)
  reported := by
    rw [length]
    exact reported
  known := by
    rw [length]
    exact known
  last := by
    rw [latest, length]
    exact consistent.last
  own := by
    intro id found present notAsked
    obtain ⟨before, listed, same, _⟩ := alike id found present
    obtain ⟨notBefore, tally⟩ := kept id notAsked
    exact same.own tally (consistent.own id before listed notBefore)
  canceled := by
    intro id found present isAsked
    obtain ⟨before, listed, same, _⟩ := alike id found present
    obtain ⟨silent, tally⟩ := canceled id before listed isAsked
    refine ⟨fun left stage => silent left (same.ending stage), ?_⟩
    rw [latest]
    exact tally
  asked := by
    intro id found present isCanceled
    obtain ⟨_, _, _, isAsked⟩ := alike id found present
    exact isAsked isCanceled
  deleting := by
    intro id found present stage
    obtain ⟨before, listed, same, _⟩ := alike id found present
    refine same.canceled (consistent.deleting id before listed ?_)
    rcases same.stage with equal | ⟨_, enqueued⟩
    · exact equal.symm.trans stage
    · rw [enqueued] at stage
      cases stage
  active := by
    rw [latest]
    exact active
  main := by
    rw [latest]
    exact main
  kind := kind

/-- The main thread has the same failure to report before and after a statement
that reports none. -/
theorem pending_exec
    {latest : JString → Option Nat}
    {id : Nat}
    (silent : statement.terminal? = none)
    (world : World)
    (this : Nat) :
    Pending latest ((world.exec this statement).2 ++ rest) id ↔
      Pending latest (statement :: rest) id := by
  refine exists_congr fun filename => and_congr_right fun _ => ?_
  rw [List.mem_append, List.mem_cons]
  refine or_congr_left (iff_of_false (fun new => ?_) fun same => ?_)
  · exact absurd rfl (List.countP_eq_zero.mp (terminals_exec world this statement)
      (.sendBroadcast (.failed filename)) new)
  · rw [← same] at silent
    cases silent

/-- An entry after a statement was put by it, or was there before. -/
theorem lookup_exec
    {world : World}
    {this id : Nat}
    {filename : JString}
    (found : (world.exec this statement).1.activeCalls.lookup filename =
      some id) :
    statement = .putActive filename id ∨
      (∀ new, statement ≠ .putActive filename new) ∧
        world.activeCalls.lookup filename = some id := by
  cases statement with
  | putActive name new =>
      change AList.lookup filename (world.activeCalls.insert name new) = _
        at found
      by_cases same : filename = name
      · rw [same, AList.lookup_insert] at found
        exact Or.inl (by rw [same, Option.some.inj found])
      · rw [AList.lookup_insert_ne same] at found
        refine Or.inr ⟨fun _ equal => ?_, found⟩
        exact same (Statement.putActive.inj equal).1.symm
  | removeActive name =>
      change AList.lookup filename (world.activeCalls.erase name) = _ at found
      by_cases same : filename = name
      · rw [same, AList.lookup_erase] at found
        cases found
      · rw [AList.lookup_erase_ne same] at found
        exact Or.inr ⟨by simp, found⟩
  | getActive | ifIdle | ifHeld | release | stopSelf =>
      refine Or.inr ⟨by simp, ?_⟩
      simp only [World.exec] at found
      split at found <;> exact found
  | _ => exact Or.inr ⟨by simp, found⟩

theorem Alike.refl (call : Call) : Alike call call :=
  ⟨Or.inl rfl, id, rfl, Iff.rfl⟩

/-- The calls after a statement of the main thread that makes none. -/
theorem alike_of_effect
    {world after : World}
    {asked : List Nat}
    (effect : MainEffect world after statement)
    (keeps : ∀ model, statement ≠ .newCall model)
    (canceling : ∀ id, statement = .cancel id → id ∈ asked)
    (already : ∀ (id : Nat) (call : Call), world.calls[id]? = some call →
      call.canceled = true → id ∈ asked) :
    after.calls.length = world.calls.length ∧
      ∀ (id : Nat) (found : Call), after.calls[id]? = some found →
        ∃ before, world.calls[id]? = some before ∧ Alike before found ∧
          (found.canceled = true → id ∈ asked) := by
  constructor
  · cases effect with
    | made model => exact absurd rfl (keeps model)
    | enqueued _ calls | canceled _ calls => rw [calls, List.length_modify]
    | kept _ calls => rw [calls]
  · intro id found present
    rcases effect.listed present with ⟨model, rfl, _⟩ |
      ⟨before, listed, rfl | ⟨created, rfl⟩ | ⟨rfl, rfl⟩⟩
    · exact absurd rfl (keeps model)
    · exact ⟨found, listed, .refl found, already id found listed⟩
    · exact ⟨before, listed,
        ⟨Or.inr ⟨created, rfl⟩, fun same => same, rfl, Iff.rfl⟩,
        already id before listed⟩
    · exact ⟨before, listed, ⟨Or.inl rfl, fun _ => rfl, rfl, Iff.rfl⟩,
        fun _ => canceling id rfl⟩

/-- A statement of the main thread that neither reports nor makes a call. -/
theorem Consistent.quiet
    (consistent : log.Consistent)
    (queued : log.world.main = statement :: rest)
    (silent : statement.terminal? = none)
    (keeps : ∀ model, statement ≠ .newCall model)
    (canceling : ∀ id, statement = .cancel id → id ∈ log.asked)
    (putting : ∀ filename id, statement = .putActive filename id →
      log.latest filename = some id)
    (world : next.world =
      { (log.world.exec log.world.services statement).1 with
        main := (log.world.exec log.world.services statement).2 ++ rest })
    (latest : next.latest = log.latest)
    (asked : next.asked = log.asked)
    (reports : next.reports = log.reports)
    (main : MainScript log.latest log.asked
      ((log.world.exec log.world.services statement).2 ++ rest)) :
    next.Consistent := by
  have same (id : Nat) : next.tally id = log.tally id := by
    rw [tally, reports]
    rfl
  have queue : next.world.main =
      (log.world.exec log.world.services statement).2 ++ rest := by rw [world]
  obtain ⟨length, alike⟩ := alike_of_effect
    (mainEffect_exec log.world statement
      ((log.world.exec log.world.services statement).2 ++ rest))
    keeps canceling consistent.asked
  refine consistent.of_main ?_ (by rw [world]; exact length)
    (by rw [world, asked]; exact alike) latest (by rw [reports]; exact consistent.reported)
    (by rw [asked]; exact consistent.known) (fun id notAsked => ?_)
    (fun id call listed isAsked => ?_) (fun filename id found => ?_) ?_
    (by rw [reports]; exact consistent.kind)
  · rw [world]
    exact scripted_step consistent.scripted (.main statement rest queued)
  · exact ⟨asked ▸ notAsked, same id⟩
  · rw [asked] at isAsked
    have canceled := consistent.canceled id call listed isAsked
    refine ⟨canceled.silent, ?_⟩
    rw [same id, queue, pending_exec silent, ← queued]
    exact canceled.tally
  · rw [world] at found
    rcases lookup_exec found with put | ⟨other, before⟩
    · exact Or.inl (putting filename id put)
    · refine (consistent.active filename id before).imp_right
        fun ⟨new, later⟩ => ⟨new, ?_⟩
      rw [queued, List.mem_cons] at later
      rw [queue]
      exact List.mem_append_right _
        (later.resolve_left fun same => other new same.symm)
  · rw [queue, asked]
    exact main

/-- With no failure to report, what was cancelled has been reported. -/
theorem Consistent.tally_of_not_pending
    (consistent : log.Consistent)
    {id : Nat}
    {call : Call}
    (listed : log.world.calls[id]? = some call)
    (isAsked : id ∈ log.asked)
    (nothing : ¬Pending log.latest log.world.main id) :
    log.tally id = 1 := by
  rcases (consistent.canceled id call listed isAsked).tally
    with ⟨one, _⟩ | ⟨_, pending⟩
  · exact one
  · exact absurd pending nothing

/-- A call is made, and is the last one of its file from now on. -/
theorem Consistent.made
    (consistent : log.Consistent)
    {model : Model}
    (queued : log.world.main = [.newCall model])
    (world : next.world =
      { (log.world.exec log.world.services (.newCall model)).1 with
        main :=
          (log.world.exec log.world.services (.newCall model)).2 ++ [] })
    (latest : next.latest =
      Function.update log.latest model.filename (some log.world.calls.length))
    (asked : next.asked = log.asked)
    (reports : next.reports = log.reports) :
    next.Consistent := by
  have calls : next.world.calls = log.world.calls ++
      [{ filename := model.filename
         url := model.path
         service := log.world.services }] := by rw [world]; rfl
  have main : next.world.main =
      [.putActive model.filename log.world.calls.length,
        .enqueue log.world.calls.length] := by rw [world]; rfl
  have length : next.world.calls.length = log.world.calls.length + 1 := by
    rw [calls, List.length_append, List.length_singleton]
  have same (id : Nat) : next.tally id = log.tally id := by
    rw [tally, reports]
    rfl
  have fresh : log.world.calls.length ∉ log.asked := fun isAsked =>
    lt_irrefl _ (consistent.known _ isAsked)
  have scripted : Scripted next.world := by
    rw [world]
    exact scripted_step consistent.scripted (.main _ _ queued)
  constructor
  case scripted => exact scripted
  case opened =>
    rw [calls]
    intro id found present
    rcases listed_append present with old | ⟨_, rfl⟩
    · exact consistent.opened id found old
    · rfl
  case reported =>
    rw [reports, length]
    exact fun report present =>
      (consistent.reported report present).trans (Nat.lt_succ_self _)
  case known =>
    rw [asked, length]
    exact fun id isAsked => (consistent.known id isAsked).trans (Nat.lt_succ_self _)
  case last =>
    rw [latest, length]
    intro filename id last
    by_cases own : filename = model.filename
    · rw [own, Function.update_self] at last
      rw [← Option.some.inj last]
      exact Nat.lt_succ_self _
    · rw [Function.update_of_ne own] at last
      exact (consistent.last filename id last).trans (Nat.lt_succ_self _)
  case own =>
    rw [calls, asked]
    intro id found present notAsked
    rcases listed_append present with old | ⟨rfl, rfl⟩
    · exact (consistent.own id found old notAsked).of_tally (same id)
    · exact own_of_not_ending
        ((same _).trans (consistent.tally_of_not_listed le_rfl)) (by simp)
  case canceled =>
    rw [calls, asked]
    intro id found present isAsked
    rcases listed_append present with old | ⟨rfl, _⟩
    · refine ⟨(consistent.canceled id found old isAsked).silent, Or.inl ⟨?_, ?_⟩⟩
      · rw [same]
        refine consistent.tally_of_not_pending old isAsked ?_
        simp [Pending, queued]
      · simp [Pending, main]
    · exact absurd isAsked fresh
  case asked =>
    rw [calls, asked]
    intro id found present isCanceled
    rcases listed_append present with old | ⟨_, rfl⟩
    · exact consistent.asked id found old isCanceled
    · cases isCanceled
  case deleting =>
    rw [calls]
    intro id found present stage
    rcases listed_append present with old | ⟨_, rfl⟩
    · exact consistent.deleting id found old stage
    · cases stage
  case active =>
    rw [latest, main]
    intro filename id found
    by_cases own : filename = model.filename
    · exact Or.inr ⟨log.world.calls.length, by rw [own]; simp⟩
    · rw [Function.update_of_ne own]
      have before : log.world.activeCalls.lookup filename = some id := by
        rw [world] at found
        exact found
      rcases consistent.active filename id before with last | ⟨_, later⟩
      · exact Or.inl last
      · rw [queued] at later
        cases List.mem_singleton.mp later
  case main =>
    rw [latest, asked, main]
    refine .plain _ (by simp [Statement.Plain]) fun filename id put => ?_
    simp only [List.mem_cons, List.not_mem_nil, reduceCtorEq, or_false,
      Statement.putActive.injEq] at put
    rw [put.1, put.2, Function.update_self]
  case kind =>
    rw [reports]
    exact consistent.kind

/-- The main thread reports the failure of what was cancelled. -/
theorem Consistent.sent
    (consistent : log.Consistent)
    {filename : JString}
    (queued : log.world.main = [.sendBroadcast (.failed filename), .ifIdle])
    (target : ∀ id, log.latest filename = some id → id ∈ log.asked)
    (world : next.world =
      { (log.world.exec log.world.services
          (.sendBroadcast (.failed filename))).1 with main := [.ifIdle] })
    (latest : next.latest = log.latest)
    (asked : next.asked = log.asked)
    (reports : next.reports = log.reports ++
      (log.latest filename).toList.map fun id =>
        { call := id
          completed := false
          whole := log.world.calls[id]?.any fun call => call.Whole
          asked := log.asked.contains id }) :
    next.Consistent := by
  have calls : next.world.calls = log.world.calls := by rw [world]; rfl
  have main : next.world.main = [.ifIdle] := by rw [world]
  have recent {report : Report}
      (present : report ∈ (log.latest filename).toList.map fun id =>
        ({ call := id
           completed := false
           whole := log.world.calls[id]?.any fun call => call.Whole
           asked := log.asked.contains id } : Report)) :
      log.latest filename = some report.call ∧ report.completed = false ∧
        report.asked = true := by
    obtain ⟨id, last, rfl⟩ := List.mem_map.mp present
    rw [Option.mem_toList] at last
    exact ⟨last, rfl, List.contains_iff_mem.mpr (target id last)⟩
  have pending (id : Nat) : Pending log.latest log.world.main id ↔
      log.latest filename = some id := by
    rw [queued]
    simp [Pending]
  refine consistent.of_main ?_ (by rw [calls]) (fun id found present => ?_) latest
    (fun report present => ?_) (by rw [asked]; exact consistent.known)
    (fun id notAsked => ?_) (fun id call listed isAsked => ?_)
    (fun name id found => ?_) ?_ (fun report present => ?_)
  · rw [world]
    exact scripted_step consistent.scripted (.main _ _ queued)
  · rw [calls] at present
    rw [asked]
    exact ⟨found, present, .refl found, consistent.asked id found present⟩
  · rw [reports] at present
    rcases List.mem_append.mp present with old | new
    · exact consistent.reported report old
    · exact consistent.last filename _ (recent new).1
  · rw [asked] at notAsked
    refine ⟨notAsked, ?_⟩
    rw [tally_of_append reports, List.countP_eq_zero.mpr, Nat.add_zero]
    intro report present same
    rw [beq_iff_eq] at same
    exact notAsked (target id (same ▸ (recent present).1))
  · rw [asked] at isAsked
    have canceled := consistent.canceled id call listed isAsked
    refine ⟨canceled.silent, Or.inl ⟨?_, by simp [Pending, main]⟩⟩
    have before := canceled.tally
    rw [pending] at before
    rw [tally_of_append reports]
    rcases before with ⟨one, other⟩ | ⟨zero, last⟩
    · rw [one, List.countP_eq_zero.mpr]
      intro report present same
      rw [beq_iff_eq] at same
      exact other (same ▸ (recent present).1)
    · rw [zero, last]
      simp
  · have before : log.world.activeCalls.lookup name = some id := by
      rw [world] at found
      exact found
    rcases consistent.active name id before with last | ⟨_, later⟩
    · exact Or.inl last
    · rw [queued] at later
      simp at later
  · rw [main]
    exact .plain _ (by simp [Statement.Plain]) (by simp)
  · rw [reports] at present
    rcases List.mem_append.mp present with old | new
    · exact consistent.kind report old
    · obtain ⟨_, notCompleted, isAsked⟩ := recent new
      rw [notCompleted, isAsked]
      simp

/-- A step of the idle main thread that begins no cancellation. -/
theorem Consistent.begun
    (consistent : log.Consistent)
    (idle : log.world.main = [])
    (scripted : Scripted next.world)
    (calls : next.world.calls = log.world.calls)
    (active : next.world.activeCalls = log.world.activeCalls)
    (latest : next.latest = log.latest)
    (asked : next.asked = log.asked)
    (reports : next.reports = log.reports)
    (quiet : ∀ id, ¬Pending log.latest next.world.main id)
    (main : MainScript log.latest log.asked next.world.main) :
    next.Consistent := by
  have same (id : Nat) : next.tally id = log.tally id := by
    rw [tally, reports]
    rfl
  refine consistent.of_main scripted (by rw [calls]) (fun id found present => ?_)
    latest (by rw [reports]; exact consistent.reported)
    (by rw [asked]; exact consistent.known)
    (fun id notAsked => ⟨asked ▸ notAsked, same id⟩)
    (fun id call listed isAsked => ?_) (fun filename id found => ?_)
    (by rw [asked]; exact main) (by rw [reports]; exact consistent.kind)
  · rw [calls] at present
    rw [asked]
    exact ⟨found, present, .refl found, consistent.asked id found present⟩
  · rw [asked] at isAsked
    refine ⟨(consistent.canceled id call listed isAsked).silent,
      Or.inl ⟨?_, quiet id⟩⟩
    rw [same]
    refine consistent.tally_of_not_pending listed isAsked ?_
    simp [Pending, idle]
  · rw [active] at found
    rcases consistent.active filename id found with last | ⟨_, later⟩
    · exact Or.inl last
    · rw [idle] at later
      cases later

/-- A cancellation begins. -/
theorem Consistent.cancelling
    (consistent : log.Consistent)
    {filename : JString}
    (idle : log.world.main = [])
    (orderly : log.Orderly (.onStartCommand (.cancelDownload (some filename))))
    (scripted : Scripted next.world)
    (calls : next.world.calls = log.world.calls)
    (active : next.world.activeCalls = log.world.activeCalls)
    (latest : next.latest = log.latest)
    (asked : next.asked = (log.latest filename).toList ++ log.asked)
    (reports : next.reports = log.reports)
    (main : next.world.main = cancelDownload filename) :
    next.Consistent := by
  have same (id : Nat) : next.tally id = log.tally id := by
    rw [tally, reports]
    rfl
  have inAsked (id : Nat) :
      id ∈ next.asked ↔ log.latest filename = some id ∨ id ∈ log.asked := by
    rw [asked, List.mem_append, Option.mem_toList]
  have pending (id : Nat) : Pending log.latest next.world.main id ↔
      log.latest filename = some id := by
    rw [main]
    simp [Pending, cancelDownload, cleanupAndBroadcastFailure, broadcastFailure,
      releaseWakeLockAndStopService]
  refine consistent.of_main scripted (by rw [calls]) (fun id found present => ?_)
    latest (by rw [reports]; exact consistent.reported) (fun id isAsked => ?_)
    (fun id notAsked => ?_) (fun id call listed isAsked => ?_)
    (fun name id found => ?_) ?_ (by rw [reports]; exact consistent.kind)
  · rw [calls] at present
    exact ⟨found, present, .refl found, fun isCanceled =>
      (inAsked id).mpr (Or.inr (consistent.asked id found present isCanceled))⟩
  · rcases (inAsked id).mp isAsked with last | before
    · exact consistent.last filename id last
    · exact consistent.known id before
  · exact ⟨fun before => notAsked ((inAsked id).mpr (Or.inr before)), same id⟩
  · rw [same, pending]
    by_cases last : log.latest filename = some id
    · obtain ⟨notAsked, unended⟩ := orderly id last
      have own := consistent.own id call listed notAsked
      unfold Own at own
      split at own
      case h_1 left stage => exact absurd stage (unended call listed left)
      case h_2 early =>
        exact ⟨fun left stage => absurd stage (unended call listed left),
          Or.inr ⟨own, last⟩⟩
    · have before := ((inAsked id).mp isAsked).resolve_left last
      refine ⟨(consistent.canceled id call listed before).silent,
        Or.inl ⟨?_, last⟩⟩
      refine consistent.tally_of_not_pending listed before ?_
      simp [Pending, idle]
  · rw [active] at found
    rcases consistent.active name id found with last | ⟨_, later⟩
    · exact Or.inl last
    · rw [idle] at later
      cases later
  · rw [main]
    refine .cancelling filename
      [.getActive filename, .removeOngoing filename, .removeActive filename,
        .removeOngoing filename] (by simp [Statement.Before])
      (fun id last => (inAsked id).mpr (Or.inl last)) (by simp)

/-- Every command of an orderly run. -/
theorem Consistent.command
    (consistent : log.Consistent)
    {intent : Intent}
    (idle : log.world.main = [])
    (orderly : log.Orderly (.onStartCommand intent))
    (world : next.world = log.world.onStartCommand intent)
    (latest : next.latest = log.latest)
    (asked : next.asked = log.askedAfter (.onStartCommand intent))
    (reports : next.reports = log.reports) :
    next.Consistent := by
  have commanded := commanded_onStartCommand log.world intent
  have scripted : Scripted next.world := by
    rw [world]
    exact scripted_step consistent.scripted (.command intent idle)
  rw [← world] at commanded
  rcases commanded.main with ⟨model, rfl, _, main⟩ | ⟨filename, rfl, main⟩ | main
  · refine consistent.begun idle scripted commanded.calls commanded.active latest
      asked reports ?_ ?_ <;> rw [main]
    · simp [Pending, downloadModel, broadcastProgress]
    · exact .starting model
        [.acquire, .putOngoing model.filename 0, .putOngoing model.filename 0,
          .sendBroadcast (.progress model.filename 0)]
        (by simp [Statement.Starts])
  · exact consistent.cancelling idle orderly scripted commanded.calls
      commanded.active latest asked reports main
  · rw [idle] at main
    have nothing : log.askedAfter (.onStartCommand intent) = log.asked := by
      cases intent with
      | download | other => rfl
      | cancelDownload target =>
          cases target with
          | none => rfl
          | some filename =>
              rw [world] at main
              cases main
    refine consistent.begun idle scripted commanded.calls commanded.active latest
      (asked.trans nothing) reports ?_ ?_ <;> rw [main]
    · simp [Pending]
    · exact .plain [] (by simp) (by simp)

/-- A statement of a cancellation before its broadcast leaves such statements,
and cancels no other call than the last one of its file. -/
theorem Consistent.script_of_before
    (consistent : log.Consistent)
    {filename : JString}
    {before : List Statement}
    (queued : log.world.main = statement ::
      (before ++ [.sendBroadcast (.failed filename), .ifIdle]))
    (kinds : ∀ other ∈ statement :: before, other.Before filename)
    (target : ∀ id, log.latest filename = some id → id ∈ log.asked)
    (found : ∀ id, .cancel id ∈ statement :: before → id ∈ log.asked) :
    MainScript log.latest log.asked
      ((log.world.exec log.world.services statement).2 ++
        (before ++ [.sendBroadcast (.failed filename), .ifIdle])) := by
  have rest (left : List Statement)
      (own : ∀ other ∈ left, other.Before filename)
      (kept : ∀ id, .cancel id ∈ left → id ∈ log.asked) :
      MainScript log.latest log.asked
        (left ++ (before ++ [.sendBroadcast (.failed filename), .ifIdle])) := by
    rw [← List.append_assoc]
    refine .cancelling filename (left ++ before) ?_ target ?_
    · exact fun other present =>
        (List.mem_append.mp present).elim (own other) fun old =>
          kinds other (List.mem_cons_of_mem _ old)
    · exact fun id present =>
        (List.mem_append.mp present).elim (kept id) fun old =>
          found id (List.mem_cons_of_mem _ old)
  have own := kinds statement List.mem_cons_self
  cases statement with
  | getActive name =>
      obtain rfl : name = filename := own
      simp only [World.exec]
      split
      case h_1 id lookup =>
        refine rest [.cancel id] (by simp [Statement.Before]) fun other same => ?_
        rw [List.mem_singleton, Statement.cancel.injEq] at same
        subst same
        rcases consistent.active name other lookup with last | ⟨new, later⟩
        · exact target other last
        · rw [queued] at later
          rcases List.mem_append.mp
            ((List.mem_cons.mp later).resolve_left (by simp)) with old | last
          · exact (kinds _ (List.mem_cons_of_mem _ old)).elim
          · simp at last
      case h_2 => exact rest [] (by simp) (by simp)
  | cancel | removeOngoing | removeActive =>
      exact rest [] (by simp) (by simp)
  | _ => exact own.elim

/-- Every statement of the main thread. -/
theorem Consistent.main_step
    (consistent : log.Consistent)
    (queued : log.world.main = statement :: rest)
    (world : next.world =
      { (log.world.exec log.world.services statement).1 with
        main := (log.world.exec log.world.services statement).2 ++ rest })
    (latest : next.latest = log.latestAfter .main)
    (asked : next.asked = log.asked)
    (reports : next.reports = log.reports ++ log.reported .main) :
    next.Consistent := by
  have head : log.world.statement? .main = some statement := by
    rw [World.statement?, queued]
    rfl
  rw [latestAfter, head] at latest
  rw [Log.reported, head, Option.bind_some] at reports
  have quiet (silent : statement.terminal? = none)
      (keeps : ∀ model, statement ≠ .newCall model)
      (canceling : ∀ id, statement = .cancel id → id ∈ log.asked)
      (putting : ∀ filename id, statement = .putActive filename id →
        log.latest filename = some id)
      (main : MainScript log.latest log.asked
        ((log.world.exec log.world.services statement).2 ++ rest)) :
      next.Consistent := by
    refine consistent.quiet queued silent keeps canceling putting world ?_ asked
      ?_ main
    · rw [latest]
      split
      case h_1 model same => exact absurd (Option.some.inj same) (keeps model)
      case h_2 => rfl
    · rw [reports, silent]
      exact List.append_nil _
  have main := consistent.main
  rw [queued] at main
  generalize equal : statement :: rest = queue at main
  cases main with
  | plain _ plain put =>
      subst equal
      have own := plain statement List.mem_cons_self
      refine quiet own.terminal? ?_ ?_ ?_ (.plain _ ?_ ?_)
      · rintro model rfl
        exact own
      · rintro id rfl
        exact own.elim
      · rintro filename id rfl
        exact put filename id List.mem_cons_self
      · intro later present
        rcases List.mem_append.mp present with new | old
        · exact (own.exec log.world log.world.services later new).1
        · exact plain later (List.mem_cons_of_mem _ old)
      · intro filename id present
        rcases List.mem_append.mp present with new | old
        · exact absurd rfl
            ((own.exec log.world log.world.services _ new).2 filename id)
        · exact put filename id (List.mem_cons_of_mem _ old)
  | starting model before kinds =>
      cases before with
      | nil =>
          obtain ⟨rfl, rfl⟩ := List.cons.inj equal
          exact consistent.made queued world latest asked
            (reports.trans (List.append_nil _))
      | cons first before =>
          obtain ⟨rfl, rfl⟩ := List.cons.inj equal
          have starts := kinds statement List.mem_cons_self
          refine quiet starts.terminal? ?_ ?_ ?_ ?_
          · rintro other rfl
            exact starts
          · rintro id rfl
            exact starts.elim
          · rintro filename id rfl
            exact starts.elim
          · have nothing :
                (log.world.exec log.world.services statement).2 = [] := by
              cases statement with
              | acquire | putOngoing | sendBroadcast => rfl
              | _ => cases starts
            rw [nothing]
            exact .starting model before fun later present =>
              kinds later (List.mem_cons_of_mem _ present)
  | cancelling filename before kinds target found =>
      cases before with
      | nil =>
          obtain ⟨rfl, rfl⟩ := List.cons.inj equal
          exact consistent.sent queued target world latest asked reports
      | cons first before =>
          obtain ⟨rfl, rfl⟩ := List.cons.inj equal
          have own := kinds statement List.mem_cons_self
          refine quiet own.terminal? ?_ ?_ ?_ ?_
          · rintro other rfl
            exact own
          · rintro id rfl
            exact found id List.mem_cons_self
          · rintro name id rfl
            exact own.elim
          · exact consistent.script_of_before queued kinds target found

end Main

section Runs

/-- Every orderly step keeps the history consistent. -/
theorem Consistent.step
    {log next : Log}
    {action : Action}
    (consistent : log.Consistent)
    (orderly : log.Orderly action)
    (fired : log.step action = some next) :
    next.Consistent := by
  obtain ⟨world, stepped, rfl⟩ := Option.map_eq_some_iff.mp fired
  have moves := (moves_of_step stepped).2
  have unreported (none : log.world.statement? action = none) :
      log.latestAfter action = log.latest ∧
        log.reports ++ log.reported action = log.reports := by
    rw [latestAfter, Log.reported, none]
    exact ⟨rfl, List.append_nil _⟩
  cases moves with
  | command intent idle =>
      exact consistent.command idle orderly rfl (unreported rfl).1 rfl
        (unreported rfl).2
  | main statement rest queued =>
      exact consistent.main_step queued rfl rfl rfl rfl
  | destroy idle =>
      refine consistent.begun idle
        (scripted_step consistent.scripted (moves_of_step stepped).2) rfl rfl
        (unreported rfl).1 rfl (unreported rfl).2 (by simp [Pending, onDestroy])
        (.plain _ (by simp [onDestroy, Statement.Plain]) (by simp [onDestroy]))
  | deleteModel filename idle =>
      refine consistent.begun idle
        (scripted_step consistent.scripted (moves_of_step stepped).2) rfl rfl
        (unreported rfl).1 rfl (unreported rfl).2 ?_ ?_
      · simp [Pending, idle]
      · exact .plain _ (by simp [idle]) (by simp [idle])
  | progress id call statement rest listed stage =>
      exact consistent.report stage
        (.of_report listed (consistent.scripted id call listed) stage) rfl rfl rfl
  | cleanUp id call statement rest listed stage =>
      exact consistent.cleanUp stage
        (.of_cleanUp listed (consistent.scripted id call listed) stage) rfl rfl rfl
  | advance action id call changed owner listed moved =>
      obtain ⟨none, asked⟩ := statement?_of_advance moved log.world
      exact consistent.advance orderly owner (.of_advance listed moved) moved
        (unreported none).1 asked (unreported none).2

theorem consistent_start (disk : Files) : Consistent { world := start disk } where
  scripted := fun id call listed => absurd listed (by simp [start])
  opened := fun id call listed => absurd listed (by simp [start])
  reported := fun report present => absurd present List.not_mem_nil
  known := fun id isAsked => absurd isAsked List.not_mem_nil
  last := fun filename id last => absurd last (by simp)
  own := fun id call listed => absurd listed (by simp [start])
  canceled := fun id call listed => absurd listed (by simp [start])
  asked := fun id call listed => absurd listed (by simp [start])
  deleting := fun id call listed => absurd listed (by simp [start])
  active := fun filename id found => absurd found (by simp [start])
  main := .plain _ (by simp [start]) (by simp [start])
  kind := fun report present => absurd present List.not_mem_nil

/-- In any orderly run every download has one outcome. -/
theorem oneOutcome_of_orderly
    (disk : Files)
    (actions : List Action)
    (orderly : machine.Guarded Orderly { world := start disk } actions) :
    machine.Always OneOutcome { world := start disk } actions :=
  Transition.Machine.always_of_guarded
    (fun _ _ _ consistent orderly fired =>
      Consistent.step consistent orderly fired)
    (fun _ consistent => consistent.oneOutcome) orderly (consistent_start disk)

/-- A download is cancelled in the middle of the copy loop, and the callback
comes to the test of `isCanceled` undisturbed. -/
theorem oneOutcome_of_noticed_cancel :
    machine.Always OneOutcome { world := start Disk.empty }
      (opened miniModel [1, 2, 3, 4] ++
        [.read 0 (.bytes 2),
          .onStartCommand (.cancelDownload (some miniModel.filename))] ++
        List.replicate 10 .main ++ [.check 0, .delete 0 true] ++
        List.replicate 4 (.callback 0)) :=
  oneOutcome_of_orderly Disk.empty _ (by decide +kernel)

/-- A download is cancelled while the callback waits for the response, and
OkHttp calls `onFailure`: two failures are broadcast for it. -/
theorem two_failures_of_cancel :
    ∃ finish,
      machine.run { world := start Disk.empty }
        (.onStartCommand (.download (some miniModel)) ::
          List.replicate 7 .main ++
          .onStartCommand (.cancelDownload (some miniModel.filename)) ::
            List.replicate 10 .main ++
          .onFailure 0 :: List.replicate 6 (.callback 0)) = some finish ∧
      finish.tally 0 = 2 ∧
      finish.world.sent.take 2 =
        [.failed miniModel.filename, .failed miniModel.filename] ∧
      ¬finish.OneOutcome := by
  obtain ⟨finish, ran, seen⟩ := Option.map_eq_some_iff.mp
    (show (machine.run { world := start Disk.empty }
        (.onStartCommand (.download (some miniModel)) ::
          List.replicate 7 .main ++
          .onStartCommand (.cancelDownload (some miniModel.filename)) ::
            List.replicate 10 .main ++
          .onFailure 0 :: List.replicate 6 (.callback 0))).map
        (fun log => decide (log.tally 0 = 2 ∧ log.world.sent.take 2 =
          [.failed miniModel.filename, .failed miniModel.filename])) =
      some true by decide +kernel)
  rw [decide_eq_true_eq] at seen
  obtain ⟨twice, sent⟩ := seen
  refine ⟨finish, ran, twice, sent, fun outcome => ?_⟩
  have once := outcome.once 0
  omega

end Runs

end Log

end Download
end IdoProject
