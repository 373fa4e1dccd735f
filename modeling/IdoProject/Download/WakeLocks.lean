import IdoProject.Download.Threads

/-!
# The wake lock

Every start acquires the lock of the instance once more.  The lock is released
once where the instance finds no call in progress, and once where it is
destroyed, so its count comes back to zero after two starts at most.  Finding no
call in progress does not mean that none goes on: a call is registered only after
the lock was acquired for it, and the registry is cleared by filename.
-/

namespace IdoProject
namespace Download

open Java
open Storage
open Transition

/-- The download is neither cancelled nor at its last statements. -/
def Call.Running (call : Call) : Prop :=
  call.canceled = false ∧ ∀ rest, call.stage ≠ .ending rest

instance : DecidablePred Call.Running := fun call =>
  inferInstanceAs (Decidable
    (call.canceled = false ∧ ∀ rest, call.stage ≠ .ending rest))

/-- Makes a call. -/
def Statement.isNewCall : Statement → Bool
  | .newCall _ => true
  | _ => false

/-- Comes after the test of `activeCalls.isEmpty()`. -/
def Statement.Leaves : Statement → Prop
  | .ifHeld | .release | .stopSelf => True
  | _ => False

instance : DecidablePred Statement.Leaves
  | .ifHeld | .release | .stopSelf => .isTrue trivial
  | .acquire | .putOngoing _ _ | .removeOngoing _ | .newCall _ | .putActive _ _
  | .removeActive _ | .enqueue _ | .getActive _ | .cancel _
  | .sendBroadcast _ | .ifIdle => .isFalse id

/-- The callback has found no call in progress and has not finished yet. -/
def Call.leaves (call : Call) : Bool :=
  match call.stage with
  | .ending rest => rest.any fun statement => statement.Leaves
  | _ => false

namespace World

/-- The lock is held while a download goes on, and free once the service is
destroyed. -/
structure LockKept (world : World) : Prop where
  held : ∀ (id : Nat) (call : Call), world.calls[id]? = some call →
    call.Running → 0 < world.wakeLock call.service
  /-- A download for which the lock was acquired and no call is made yet. -/
  starting : ∀ model, .newCall model ∈ world.main → .acquire ∉ world.main →
    0 < world.wakeLock world.services
  released : world.alive = false → world.main = [] →
    ∀ service, world.wakeLock service = 0

/-- No download goes on or is about to be started. -/
def Quiet (world : World) : Prop :=
  (∀ call ∈ world.calls, ¬call.Running) ∧
    ∀ statement ∈ world.main, statement.isNewCall = false

instance (world : World) : Decidable world.Quiet :=
  inferInstanceAs (Decidable
    ((∀ call ∈ world.calls, ¬call.Running) ∧
      ∀ statement ∈ world.main, statement.isNewCall = false))

/-- The instance for which a step runs a statement. -/
def service? (world : World) : Action → Option Nat
  | .main => some world.services
  | .callback id => world.calls[id]?.map Call.service
  | _ => none

/-- A download is accepted by a new instance, or by one that has not called
`stopSelf`, is not about to, and has acquired its lock once at most. -/
def AcceptsInTime (world : World) : Action → Prop
  | .onStartCommand (.download (some model)) =>
      model.filename ∉ world.ongoingDownloads → world.alive = true →
        world.stopping = false ∧ world.wakeLock world.services ≤ 1 ∧
          ∀ call ∈ world.calls, call.service = world.services →
            call.leaves = false
  | _ => True

instance (world : World) : DecidablePred world.AcceptsInTime
  | .onStartCommand (.download (some model)) =>
      inferInstanceAs (Decidable (model.filename ∉ world.ongoingDownloads →
        world.alive = true →
          world.stopping = false ∧ world.wakeLock world.services ≤ 1 ∧
            ∀ call ∈ world.calls, call.service = world.services →
              call.leaves = false))
  | .onStartCommand (.download none) | .onStartCommand (.cancelDownload _)
  | .onStartCommand .other | .main | .onDestroy | .deleteModel _
  | .onFailure _ | .onResponse _ _ _ _ | .openOutput _ _ | .read _ _
  | .check _ | .write _ _ | .close _ _ | .delete _ _ | .callback _ =>
      .isTrue trivial

/-- The last instance finds no call in progress only when no download goes on
or is about to be started. -/
def FindsIdle (world : World) (action : Action) : Prop :=
  world.statement? action = some .ifIdle →
    world.service? action = some world.services →
      world.activeCalls.entries.isEmpty = true → world.Quiet

/-- The lock is acquired and released in time. -/
def Balanced (world : World) (action : Action) : Prop :=
  world.AcceptsInTime action ∧ world.FindsIdle action

instance (world : World) (action : Action) :
    Decidable (world.Balanced action) :=
  have : Decidable (world.FindsIdle action) :=
    inferInstanceAs (Decidable (world.statement? action = some .ifIdle →
      world.service? action = some world.services →
        world.activeCalls.entries.isEmpty = true → world.Quiet))
  inferInstanceAs (Decidable
    (world.AcceptsInTime action ∧ world.FindsIdle action))

end World

/-! ## What a thread does with the lock -/

/-- Nothing left to run comes after a test of `activeCalls.isEmpty()`. -/
def Calm (rest : List Statement) : Prop :=
  ∀ statement ∈ rest, ¬statement.Leaves

/-- The thread has found no call in progress. -/
inductive Leaving : List Statement → Prop
  | test (tail : List Statement) (calm : Calm tail) :
      Leaving (.ifHeld :: .stopSelf :: tail)
  | release (tail : List Statement) (calm : Calm tail) :
      Leaving (.release :: .stopSelf :: tail)
  | stop (tail : List Statement) (calm : Calm tail) :
      Leaving (.stopSelf :: tail)

/-- The state of the lock stays. -/
structure SameLock (world next : World) : Prop where
  wakeLock : next.wakeLock = world.wakeLock
  services : next.services = world.services
  alive : next.alive = world.alive
  stopping : next.stopping = world.stopping

/-- What a thread that is not starting a download does with the lock of the last
instance. -/
inductive LockMove (world next : World) : Prop
  | same (same : SameLock world next)
  | released (quiet : world.Quiet)
      (wakeLock : next.wakeLock =
        Function.update world.wakeLock world.services
          (world.wakeLock world.services - 1))
      (services : next.services = world.services)
      (alive : next.alive = world.alive)
      (stopping : next.stopping = world.stopping)
  | stopped (quiet : world.Quiet)
      (once : world.wakeLock world.services ≤ 1)
      (wakeLock : next.wakeLock = world.wakeLock)
      (services : next.services = world.services)
      (alive : next.alive = world.alive)

/-- What a thread of the instance may have left to run. -/
def Phase (world : World) (this : Nat) (rest : List Statement) : Prop :=
  Calm rest ∨
    Leaving rest ∧ (this = world.services →
      world.Quiet ∧
        (rest.head? = some .stopSelf → world.wakeLock world.services ≤ 1))

section Threads

variable {world : World}
variable {this : Nat}
variable {statement : Statement}
variable {rest : List Statement}

theorem Statement.Reports.not_leaves
    {statement : Statement}
    {filename : JString}
    (reports : statement.Reports filename) :
    statement ≠ .acquire ∧ ¬statement.Leaves := by
  cases statement with
  | putOngoing | sendBroadcast => simp [Leaves]
  | _ => cases reports

/-- A statement before the test of `activeCalls.isEmpty()` keeps the lock. -/
theorem sameLock_exec
    (keeps : statement ≠ .acquire)
    (before : ¬statement.Leaves) :
    SameLock world (world.exec this statement).1 ∧
      (Calm (world.exec this statement).2 ∨
        statement = .ifIdle ∧ world.activeCalls.entries.isEmpty = true ∧
          (world.exec this statement).2 = [.ifHeld, .stopSelf]) := by
  cases statement with
  | acquire => exact absurd rfl keeps
  | ifHeld | release | stopSelf => exact absurd trivial before
  | ifIdle =>
      simp only [World.exec]
      split
      case isTrue idle =>
        exact ⟨⟨rfl, rfl, rfl, rfl⟩, Or.inr ⟨trivial, idle, rfl⟩⟩
      case isFalse =>
        exact ⟨⟨rfl, rfl, rfl, rfl⟩, Or.inl (by simp [Calm])⟩
  | getActive filename =>
      simp only [World.exec]
      split <;>
        exact ⟨⟨rfl, rfl, rfl, rfl⟩, Or.inl (by simp [Calm, Statement.Leaves])⟩
  | _ =>
      exact ⟨⟨rfl, rfl, rfl, rfl⟩,
        Or.inl (by simp [World.exec, Calm, Statement.Leaves])⟩

theorem calm_append
    {first later : List Statement}
    (calm : Calm first)
    (also : Calm later) :
    Calm (first ++ later) :=
  fun other present =>
    (List.mem_append.mp present).elim (calm other) (also other)

/-- A thread that is not starting a download runs its next statement. -/
theorem phase_exec
    (old : ∀ service, service ≠ world.services → world.wakeLock service = 0)
    (bound : world.wakeLock world.services ≤ 2)
    (phase : Phase world this (statement :: rest))
    (keeps : statement ≠ .acquire)
    (finds : statement = .ifIdle → this = world.services →
      world.activeCalls.entries.isEmpty = true → world.Quiet) :
    LockMove world (world.exec this statement).1 ∧
      (Calm ((world.exec this statement).2 ++ rest) ∨
        Leaving ((world.exec this statement).2 ++ rest) ∧
          (this = world.services →
            world.Quiet ∧
              (((world.exec this statement).2 ++ rest).head? =
                  some .stopSelf →
                (world.exec this statement).1.wakeLock world.services ≤
                  1))) := by
  rcases phase with calm | ⟨leaving, spare⟩
  · have before := calm statement List.mem_cons_self
    have tail : Calm rest := fun other present =>
      calm other (List.mem_cons_of_mem _ present)
    obtain ⟨same, quiet | ⟨rfl, idle, later⟩⟩ :=
      @sameLock_exec world this statement keeps before
    · exact ⟨.same same, Or.inl (calm_append quiet tail)⟩
    · refine ⟨.same same, Or.inr ⟨?_, fun own => ⟨finds rfl own idle, ?_⟩⟩⟩
      · rw [later]
        exact .test rest tail
      · rw [later]
        simp
  · have found (own : 0 < world.wakeLock this) : this = world.services := by
      by_contra other
      exact absurd (old this other) (Nat.pos_iff_ne_zero.mp own)
    have once (free : ¬0 < world.wakeLock this) (own : this = world.services) :
        world.wakeLock world.services ≤ 1 := by
      rw [own] at free
      omega
    cases leaving with
    | test tail calm =>
        simp only [World.exec]
        split
        case isTrue held =>
          refine ⟨.same ⟨rfl, rfl, rfl, rfl⟩, Or.inr ⟨.release tail calm, ?_⟩⟩
          exact fun own => ⟨(spare own).1, by simp⟩
        case isFalse free =>
          exact ⟨.same ⟨rfl, rfl, rfl, rfl⟩, Or.inr ⟨.stop tail calm,
            fun own => ⟨(spare own).1, fun _ => once free own⟩⟩⟩
    | release tail calm =>
        simp only [World.exec]
        split
        case isTrue held =>
          have own := found held
          subst own
          refine ⟨.released (spare rfl).1 rfl rfl rfl rfl,
            Or.inr ⟨.stop tail calm, fun _ => ⟨(spare rfl).1, fun _ => ?_⟩⟩⟩
          change Function.update world.wakeLock world.services
            (world.wakeLock world.services - 1) world.services ≤ 1
          rw [Function.update_self]
          omega
        case isFalse free =>
          exact ⟨.same ⟨rfl, rfl, rfl, rfl⟩, Or.inr ⟨.stop tail calm,
            fun own => ⟨(spare own).1, fun _ => once free own⟩⟩⟩
    | stop tail calm =>
        simp only [World.exec]
        split
        case isTrue own =>
          obtain ⟨quiet, once⟩ := spare own
          exact ⟨.stopped quiet (once rfl) rfl rfl rfl, Or.inl calm⟩
        case isFalse => exact ⟨.same ⟨rfl, rfl, rfl, rfl⟩, Or.inl calm⟩

end Threads

/-! ## What holds in every state -/

/-- The instance has the lock and is not on its way out. -/
structure Holding (world : World) : Prop where
  alive : world.alive = true
  going : world.stopping = false
  held : 0 < world.wakeLock world.services

/-- What the main thread has left to run. -/
inductive MainPhase (world : World) : List Statement → Prop
  | going (main : List Statement) (alive : world.alive = true)
      (none : ∀ statement ∈ main, statement.isNewCall = false)
      (keeps : .acquire ∉ main)
      (phase : Phase world world.services main) : MainPhase world main
  | accepted (model : Model) (alive : world.alive = true)
      (going : world.stopping = false)
      (once : world.wakeLock world.services ≤ 1) :
      MainPhase world (downloadModel model)
  | starting (model : Model) (before : List Statement)
      (kinds : ∀ statement ∈ before,
        ∃ filename, statement.Reports filename)
      (holding : Holding world) : MainPhase world (before ++ [.newCall model])
  | destroyed (statement : Statement) (dead : world.alive = false)
      (kind : statement = .ifHeld ∨ statement = .release)
      (once : world.wakeLock world.services ≤ 1) : MainPhase world [statement]
  | gone (dead : world.alive = false)
      (free : world.wakeLock world.services = 0) : MainPhase world []

/-- What holds in every state of a run that acquires and releases in time. -/
structure Kept (world : World) : Prop where
  scripted : Scripted world
  bound : world.wakeLock world.services ≤ 2
  old : ∀ service, service ≠ world.services → world.wakeLock service = 0
  served : ∀ (id : Nat) (call : Call), world.calls[id]? = some call →
    call.service ≤ world.services
  running : ∀ (id : Nat) (call : Call), world.calls[id]? = some call →
    call.Running → call.service = world.services ∧ Holding world
  stopped : world.stopping = true → world.wakeLock world.services ≤ 1
  phases : ∀ (id : Nat) (call : Call), world.calls[id]? = some call →
    ∀ rest, call.stage = .ending rest → Phase world call.service rest
  main : MainPhase world world.main

section Frames

variable {world next : World}

theorem LockMove.congr
    {after : World}
    (move : LockMove world after)
    (same : SameLock after next) :
    LockMove world next := by
  cases move with
  | same before =>
      exact .same
        ⟨same.wakeLock.trans before.wakeLock, same.services.trans before.services,
          same.alive.trans before.alive, same.stopping.trans before.stopping⟩
  | released quiet wakeLock services alive stopping =>
      exact .released quiet (same.wakeLock.trans wakeLock)
        (same.services.trans services) (same.alive.trans alive)
        (same.stopping.trans stopping)
  | stopped quiet once wakeLock services alive =>
      exact .stopped quiet once (same.wakeLock.trans wakeLock)
        (same.services.trans services) (same.alive.trans alive)

/-- The lock of the last instance is not acquired by such a move. -/
theorem LockMove.wakeLock_le
    (move : LockMove world next) :
    next.wakeLock next.services ≤ world.wakeLock world.services := by
  cases move with
  | same same => rw [same.wakeLock, same.services]
  | released quiet wakeLock services =>
      rw [wakeLock, services, Function.update_self]
      exact Nat.sub_le _ _
  | stopped quiet once wakeLock services => rw [wakeLock, services]

theorem LockMove.services
    (move : LockMove world next) :
    next.services = world.services := by
  cases move with
  | same same => exact same.services
  | released _ _ services => exact services
  | stopped _ _ _ services => exact services

theorem LockMove.alive
    (move : LockMove world next) :
    next.alive = world.alive := by
  cases move with
  | same same => exact same.alive
  | released _ _ _ alive => exact alive
  | stopped _ _ _ _ alive => exact alive

theorem LockMove.old
    (move : LockMove world next)
    (old : ∀ service, service ≠ world.services → world.wakeLock service = 0)
    (service : Nat)
    (other : service ≠ next.services) :
    next.wakeLock service = 0 := by
  rw [move.services] at other
  cases move with
  | same same =>
      rw [same.wakeLock]
      exact old service other
  | released _ wakeLock =>
      rw [wakeLock, Function.update_of_ne other]
      exact old service other
  | stopped _ _ wakeLock =>
      rw [wakeLock]
      exact old service other

/-- While something goes on, the lock is not released. -/
theorem LockMove.same_of_not_quiet
    (move : LockMove world next)
    (busy : ¬world.Quiet) :
    SameLock world next := by
  cases move with
  | same same => exact same
  | released quiet | stopped quiet => exact absurd quiet busy

theorem Holding.of_same
    (holding : Holding world)
    (same : SameLock world next) :
    Holding next where
  alive := same.alive.trans holding.alive
  going := same.stopping.trans holding.going
  held := by
    rw [same.wakeLock, same.services]
    exact holding.held

/-- The instance is stopped only where its lock is held once at most. -/
theorem LockMove.once_of_stopping
    (move : LockMove world next)
    (before : world.stopping = true → world.wakeLock world.services ≤ 1)
    (after : next.stopping = true) :
    next.wakeLock next.services ≤ 1 := by
  refine move.wakeLock_le.trans ?_
  cases move with
  | same same => exact before (same.stopping.symm.trans after)
  | released _ _ _ _ stopping => exact before (stopping.symm.trans after)
  | stopped _ once => exact once

/-- A thread that does not run keeps what it may have left to run. -/
theorem Phase.mono
    {this : Nat}
    {rest : List Statement}
    (phase : Phase world this rest)
    (services : next.services = world.services)
    (quiet : world.Quiet → next.Quiet)
    (less : next.wakeLock next.services ≤ world.wakeLock world.services) :
    Phase next this rest := by
  refine phase.imp_right fun ⟨leaving, spare⟩ => ⟨leaving, fun own => ?_⟩
  obtain ⟨before, once⟩ := spare (own.trans services)
  exact ⟨quiet before, fun last => less.trans (once last)⟩

/-- The main thread keeps what it may have left to run while others run. -/
theorem MainPhase.mono
    {main : List Statement}
    (phase : MainPhase world main)
    (queued : world.main = main)
    (move : LockMove world next)
    (quiet : world.Quiet → next.Quiet) :
    MainPhase next main := by
  have busy {model : Model} (makes : .newCall model ∈ main) :
      SameLock world next :=
    move.same_of_not_quiet fun quiet =>
      absurd (quiet.2 (.newCall model) (queued ▸ makes)) (by
        simp [Statement.isNewCall])
  cases phase with
  | going _ alive none keeps phase =>
      exact .going main (move.alive.trans alive) none keeps
        (move.services ▸ phase.mono move.services quiet move.wakeLock_le)
  | accepted model alive going once =>
      have same := busy (show .newCall model ∈ downloadModel model by
        simp [downloadModel])
      exact .accepted model (same.alive.trans alive)
        (same.stopping.trans going) (move.wakeLock_le.trans once)
  | starting model before kinds holding =>
      have same := busy (show .newCall model ∈ before ++ [.newCall model] by
        simp)
      exact .starting model before kinds (holding.of_same same)
  | destroyed statement dead kind once =>
      exact .destroyed statement (move.alive.trans dead) kind
        (move.wakeLock_le.trans once)
  | gone dead free =>
      exact .gone (move.alive.trans dead)
        (Nat.le_zero.mp (move.wakeLock_le.trans free.le))

end Frames

section Callbacks

variable {world next : World}
variable {id : Nat}
variable {call changed : Call}

theorem Turn.running
    (turn : Turn world next id call changed)
    (running : changed.Running) :
    call.Running := by
  refine ⟨turn.canceled.symm.trans running.1, fun rest stage => ?_⟩
  obtain ⟨later, after⟩ := turn.ending rest stage
  exact running.2 later after

/-- Nothing begins in a turn of a callback. -/
theorem Turn.quiet
    (turn : Turn world next id call changed)
    (quiet : world.Quiet) :
    next.Quiet := by
  refine ⟨fun found present running => ?_, turn.main ▸ quiet.2⟩
  obtain ⟨other, listed⟩ := List.mem_iff_getElem?.mp present
  rcases turn.listed_after listed with ⟨_, rfl⟩ | ⟨_, before⟩
  · exact quiet.1 call (List.mem_of_getElem? turn.listed) (turn.running running)
  · exact quiet.1 found (List.mem_of_getElem? before) running

/-- A turn of a callback that keeps to its phase. -/
theorem Kept.turn
    (kept : Kept world)
    (turn : Turn world next id call changed)
    (scripted : Scripted next)
    (move : LockMove world next)
    (phase : ∀ rest, changed.stage = .ending rest →
      Phase next call.service rest) :
    Kept next where
  scripted := scripted
  bound := move.wakeLock_le.trans kept.bound
  old := move.old kept.old
  served := by
    rw [move.services]
    intro other found present
    rcases turn.listed_after present with ⟨_, rfl⟩ | ⟨_, before⟩
    · exact turn.service ▸ kept.served id call turn.listed
    · exact kept.served other found before
  running := by
    have lock {found : Call} (present : found ∈ world.calls)
        (running : found.Running) : SameLock world next :=
      move.same_of_not_quiet fun quiet => quiet.1 found present running
    rw [move.services]
    intro other found present running
    rcases turn.listed_after present with ⟨_, rfl⟩ | ⟨_, before⟩
    · have before := turn.running running
      obtain ⟨own, holding⟩ := kept.running id call turn.listed before
      exact ⟨turn.service.trans own,
        holding.of_same (lock (List.mem_of_getElem? turn.listed) before)⟩
    · obtain ⟨own, holding⟩ := kept.running other found before running
      exact ⟨own, holding.of_same (lock (List.mem_of_getElem? before) running)⟩
  stopped := move.once_of_stopping kept.stopped
  phases := by
    intro other found present rest stage
    rcases turn.listed_after present with ⟨_, rfl⟩ | ⟨_, before⟩
    · exact turn.service ▸ phase rest stage
    · exact (kept.phases other found before rest stage).mono move.services
        turn.quiet move.wakeLock_le
  main := by
    rw [turn.main]
    exact kept.main.mono rfl move turn.quiet

/-- The last statements of a callback begin before the test of
`activeCalls.isEmpty()`. -/
theorem Advance.calm
    {disk : Files}
    {action : Action}
    {rest : List Statement}
    (moved : Advance disk call action changed)
    (stage : changed.stage = .ending rest) :
    Calm rest := by
  cases moved with
  | answered | opened | read | readAll => cases stage
  | checked =>
      dsimp only at stage
      split at stage <;> cases stage
  | wrote id count =>
      obtain ⟨_, _, _, after⟩ := afterWrite_spec call count
      rw [after] at stage
      cases stage
  | failed | refused =>
      cases stage
      simp [Calm, Statement.Leaves, cleanupAndBroadcastFailure,
        broadcastFailure, releaseWakeLockAndStopService]
  | notOpened | notRead | notWritten =>
      cases stage
      simp [Calm, Statement.Leaves, catchBlock, cleanupAndBroadcastFailure,
        broadcastFailure, releaseWakeLockAndStopService, finallyBlock]
  | closed id ok | deleted id ok =>
      cases ok <;> cases stage <;>
        simp [Calm, Statement.Leaves, catchBlock, cleanupAndBroadcastFailure,
          broadcastFailure, releaseWakeLockAndStopService, finallyBlock,
          broadcastComplete]

/-- What the thread may have left to run, in the state after the step. -/
theorem phase_after
    {this : Nat}
    {rest : List Statement}
    {after : World}
    (phase : Calm rest ∨ Leaving rest ∧ (this = world.services →
      world.Quiet ∧ (rest.head? = some .stopSelf →
        after.wakeLock world.services ≤ 1)))
    (move : LockMove world after)
    (same : SameLock after next)
    (quiet : world.Quiet → next.Quiet) :
    Phase next this rest := by
  have services := (move.congr same).services
  refine phase.imp_right fun ⟨leaving, spare⟩ => ⟨leaving, fun own => ?_⟩
  obtain ⟨before, once⟩ := spare (own.trans services)
  refine ⟨quiet before, fun last => ?_⟩
  rw [services, same.wakeLock]
  exact once last

/-- Every step of a callback keeps the lock in order. -/
theorem Kept.callback
    {action : Action}
    (kept : Kept world)
    (finds : world.FindsIdle action)
    (moves : Moves world action next)
    (known : action.call? = some id) :
    Kept next := by
  have scripted := scripted_step kept.scripted moves
  cases moves with
  | command | main | destroy | deleteModel => cases known
  | progress id call statement rest listed stage =>
      have own := kept.scripted id call listed
      have turn := Turn.of_report listed own stage
      rw [Call.Scripted, stage] at own
      have reports := own statement List.mem_cons_self
      obtain ⟨keeps, stays⟩ := reports.not_leaves
      obtain ⟨same, _⟩ :=
        @sameLock_exec world call.service statement keeps stays
      exact kept.turn turn scripted
        (.same ⟨same.wakeLock, same.services, same.alive, same.stopping⟩)
        fun rest ending => by cases ending
  | cleanUp id call statement rest listed stage =>
      have own := kept.scripted id call listed
      have turn := Turn.of_cleanUp listed own stage
      rw [Call.Scripted, stage] at own
      have cleans := own statement List.mem_cons_self
      have keeps : statement ≠ .acquire := by
        rintro rfl
        exact cleans
      obtain ⟨move, phase⟩ := phase_exec kept.old kept.bound
        (kept.phases id call listed _ stage) keeps fun idle service empty => by
          refine finds ?_ ?_ empty
          · rw [World.statement?, listed, Option.bind_some, stage, ← idle]
            rfl
          · rw [World.service?, listed, ← service]
            rfl
      refine kept.turn turn scripted (move.congr ⟨rfl, rfl, rfl, rfl⟩)
        fun later ending => ?_
      cases ending
      exact phase_after phase move ⟨rfl, rfl, rfl, rfl⟩ turn.quiet
  | advance action other call changed owner listed moved =>
      exact kept.turn (.of_advance listed moved) scripted
        (.same ⟨rfl, rfl, rfl, rfl⟩) fun rest ending =>
          Or.inl (moved.calm ending)

end Callbacks

section Main

variable {world next : World}

/-- A step of the main thread that does not acquire the lock and makes no
call. -/
theorem Kept.of_main
    (kept : Kept world)
    (scripted : Scripted next)
    (calls : ∀ (id : Nat) (found : Call), next.calls[id]? = some found →
      ∃ before, world.calls[id]? = some before ∧
        found.service = before.service ∧ (found.Running → before.Running) ∧
          ∀ rest, found.stage = .ending rest → before.stage = .ending rest)
    (move : LockMove world next)
    (phases : ∀ (id : Nat) (call : Call), world.calls[id]? = some call →
      ∀ rest, call.stage = .ending rest → Phase next call.service rest)
    (main : MainPhase next next.main) :
    Kept next where
  scripted := scripted
  bound := move.wakeLock_le.trans kept.bound
  old := move.old kept.old
  served := by
    rw [move.services]
    intro id found present
    obtain ⟨before, listed, service, _⟩ := calls id found present
    exact service ▸ kept.served id before listed
  running := by
    rw [move.services]
    intro id found present running
    obtain ⟨before, listed, service, still, _⟩ := calls id found present
    obtain ⟨own, holding⟩ := kept.running id before listed (still running)
    exact ⟨service.trans own, holding.of_same (move.same_of_not_quiet
      fun quiet => quiet.1 before (List.mem_of_getElem? listed) (still running))⟩
  stopped := move.once_of_stopping kept.stopped
  phases := by
    intro id found present rest stage
    obtain ⟨before, listed, service, _, ending⟩ := calls id found present
    exact service ▸ phases id before listed rest (ending rest stage)
  main := main

/-- The calls after a statement of the main thread that makes none. -/
theorem calls_of_effect
    {statement : Statement}
    (effect : MainEffect world next statement)
    (keeps : statement.isNewCall = false)
    (id : Nat)
    (found : Call)
    (present : next.calls[id]? = some found) :
    ∃ before, world.calls[id]? = some before ∧
      found.service = before.service ∧ (found.Running → before.Running) ∧
        ∀ rest, found.stage = .ending rest → before.stage = .ending rest := by
  rcases effect.listed present with ⟨_, rfl, _⟩ |
    ⟨before, listed, rfl | ⟨created, rfl⟩ | ⟨_, rfl⟩⟩
  · cases keeps
  · exact ⟨found, listed, rfl, fun running => running, fun _ stage => stage⟩
  · exact ⟨before, listed, rfl,
      fun running => ⟨running.1, by simp [created]⟩, by simp⟩
  · exact ⟨before, listed, rfl, fun running => absurd running.1 (by simp),
      fun _ stage => stage⟩

/-- Nothing goes on in a service that is destroyed. -/
theorem Kept.not_running
    (kept : Kept world)
    (dead : world.alive = false)
    (call : Call)
    (present : call ∈ world.calls) :
    ¬call.Running := by
  intro running
  obtain ⟨id, listed⟩ := List.mem_iff_getElem?.mp present
  have alive := (kept.running id call listed running).2.alive
  rw [dead] at alive
  cases alive

/-- While a call is about to be made, no callback of the instance has found no
call in progress. -/
theorem Kept.calm_of_starting
    (kept : Kept world)
    {model : Model}
    (makes : .newCall model ∈ world.main)
    {id : Nat}
    {call : Call}
    (listed : world.calls[id]? = some call)
    {rest : List Statement}
    (stage : call.stage = .ending rest) :
    Calm rest ∨ Leaving rest ∧ call.service ≠ world.services := by
  refine (kept.phases id call listed rest stage).imp_right
    fun ⟨leaving, spare⟩ => ⟨leaving, fun own => ?_⟩
  exact absurd ((spare own).1.2 _ makes) (by simp [Statement.isNewCall])

/-- What a statement of the main thread leaves to run acquires nothing and makes
no call. -/
theorem later_exec
    {statement : Statement}
    (world : World)
    (this : Nat)
    (keeps : statement.isNewCall = false) :
    ∀ later ∈ (world.exec this statement).2,
      later.isNewCall = false ∧ later ≠ .acquire := by
  cases statement with
  | newCall => cases keeps
  | getActive | ifIdle | ifHeld | release | stopSelf =>
      simp only [World.exec]
      split <;> simp [Statement.isNewCall]
  | _ => simp [World.exec]

/-- A statement of the main thread while no download is being started. -/
theorem Kept.main_going
    (kept : Kept world)
    {statement : Statement}
    {rest : List Statement}
    (finds : world.FindsIdle .main)
    (queued : world.main = statement :: rest)
    (alive : world.alive = true)
    (none : ∀ other ∈ statement :: rest, other.isNewCall = false)
    (keeps : .acquire ∉ statement :: rest)
    (phase : Phase world world.services (statement :: rest))
    (scripted : Scripted
      { (world.exec world.services statement).1 with
        main := (world.exec world.services statement).2 ++ rest }) :
    Kept
      { (world.exec world.services statement).1 with
        main := (world.exec world.services statement).2 ++ rest } := by
  have makesNone := none statement List.mem_cons_self
  have later := later_exec world world.services makesNone
  obtain ⟨move, after⟩ := phase_exec kept.old kept.bound phase
    (fun acquires => keeps (acquires ▸ List.mem_cons_self))
    fun idle _ empty => finds (by rw [World.statement?, queued, idle]; rfl) rfl
      empty
  have calls := calls_of_effect (mainEffect_exec world statement
    ((world.exec world.services statement).2 ++ rest)) makesNone
  have noneAfter : ∀ other ∈ (world.exec world.services statement).2 ++ rest,
      other.isNewCall = false ∧ other ≠ .acquire := by
    intro other present
    rcases List.mem_append.mp present with new | old
    · exact later other new
    · exact ⟨none other (List.mem_cons_of_mem _ old),
        fun acquires => keeps (acquires ▸ List.mem_cons_of_mem _ old)⟩
  have quiet (before : world.Quiet) : World.Quiet
      { (world.exec world.services statement).1 with
        main := (world.exec world.services statement).2 ++ rest } := by
    refine ⟨fun found present running => ?_, fun other present =>
      (noneAfter other present).1⟩
    obtain ⟨id, listed⟩ := List.mem_iff_getElem?.mp present
    obtain ⟨old, inside, _, still, _⟩ := calls id found listed
    exact before.1 old (List.mem_of_getElem? inside) (still running)
  have moved := move.congr
    (show SameLock (world.exec world.services statement).1
      { (world.exec world.services statement).1 with
        main := (world.exec world.services statement).2 ++ rest } from
      ⟨rfl, rfl, rfl, rfl⟩)
  refine kept.of_main scripted calls moved (fun id call listed left stage => ?_)
    (.going _ (moved.alive.trans alive) (fun other present =>
      (noneAfter other present).1) (fun acquires =>
        (noneAfter _ acquires).2 rfl) ?_)
  · exact (kept.phases id call listed left stage).mono moved.services quiet
      moved.wakeLock_le
  · rw [moved.services]
    exact phase_after after move ⟨rfl, rfl, rfl, rfl⟩ quiet

/-- The lock is acquired for an accepted download. -/
theorem Kept.main_acquire
    (kept : Kept world)
    {model : Model}
    (queued : world.main = downloadModel model)
    (alive : world.alive = true)
    (going : world.stopping = false)
    (once : world.wakeLock world.services ≤ 1)
    {rest : List Statement}
    (tail : downloadModel model = .acquire :: rest)
    (scripted : Scripted
      { (world.exec world.services .acquire).1 with
        main := (world.exec world.services .acquire).2 ++ rest }) :
    Kept
      { (world.exec world.services .acquire).1 with
        main := (world.exec world.services .acquire).2 ++ rest } := by
  have holding : Holding
      { (world.exec world.services .acquire).1 with
        main := (world.exec world.services .acquire).2 ++ rest } := by
    refine ⟨alive, going, ?_⟩
    change 0 < Function.update world.wakeLock world.services
      (world.wakeLock world.services + 1) world.services
    rw [Function.update_self]
    exact Nat.succ_pos _
  have makes : .newCall model ∈ world.main := by
    rw [queued]
    simp [downloadModel]
  constructor
  case scripted => exact scripted
  case bound =>
    change Function.update world.wakeLock world.services
      (world.wakeLock world.services + 1) world.services ≤ 2
    rw [Function.update_self]
    omega
  case old =>
    intro service other
    change service ≠ world.services at other
    change Function.update world.wakeLock world.services
      (world.wakeLock world.services + 1) service = 0
    rw [Function.update_of_ne other]
    exact kept.old service other
  case served => exact kept.served
  case running =>
    exact fun id call listed running =>
      ⟨(kept.running id call listed running).1, holding⟩
  case stopped =>
    exact fun stopping =>
      absurd (going.symm.trans stopping) Bool.false_ne_true
  case phases =>
    intro id call listed left stage
    exact (kept.calm_of_starting makes listed stage).imp_right
      fun ⟨leaving, other⟩ => ⟨leaving, fun own => absurd own other⟩
  case main =>
    simp only [downloadModel, List.cons_append, List.cons.injEq, true_and]
      at tail
    subst tail
    exact .starting model
      [.putOngoing model.filename 0, .putOngoing model.filename 0,
        .sendBroadcast (.progress model.filename 0)]
      (fun statement present => ⟨model.filename, by
        simp only [List.mem_cons, List.not_mem_nil, or_false] at present
        rcases present with rfl | rfl | rfl <;> rfl⟩) holding

/-- A call is made for a download that has the lock. -/
theorem Kept.main_make
    (kept : Kept world)
    {model : Model}
    (queued : world.main = [.newCall model])
    (holding : Holding world)
    (scripted : Scripted
      { (world.exec world.services (.newCall model)).1 with
        main := (world.exec world.services (.newCall model)).2 ++ [] }) :
    Kept
      { (world.exec world.services (.newCall model)).1 with
        main := (world.exec world.services (.newCall model)).2 ++ [] } := by
  have makes : .newCall model ∈ world.main := by
    rw [queued]
    exact List.mem_cons_self
  constructor
  case scripted => exact scripted
  case bound => exact kept.bound
  case old => exact kept.old
  case served =>
    intro id call listed
    rcases listed_append listed with before | ⟨_, rfl⟩
    · exact kept.served id call before
    · exact le_rfl
  case running =>
    intro id call listed running
    have after : Holding
        { (world.exec world.services (.newCall model)).1 with
          main := (world.exec world.services (.newCall model)).2 ++ [] } :=
      ⟨holding.alive, holding.going, holding.held⟩
    rcases listed_append listed with before | ⟨_, rfl⟩
    · exact ⟨(kept.running id call before running).1, after⟩
    · exact ⟨rfl, after⟩
  case stopped => exact kept.stopped
  case phases =>
    intro id call listed left stage
    rcases listed_append listed with before | ⟨_, rfl⟩
    · exact (kept.calm_of_starting makes before stage).imp_right
        fun ⟨leaving, other⟩ => ⟨leaving, fun own => absurd own other⟩
    · cases stage
  case main =>
    exact .going _ holding.alive (by simp [World.exec, Statement.isNewCall])
      (by simp [World.exec])
      (Or.inl (by simp [World.exec, Calm, Statement.Leaves]))

/-- A statement of a destroyed service. -/
theorem Kept.main_destroyed
    (kept : Kept world)
    {statement : Statement}
    (queued : world.main = [statement])
    (dead : world.alive = false)
    (kind : statement = .ifHeld ∨ statement = .release)
    (once : world.wakeLock world.services ≤ 1)
    (scripted : Scripted
      { (world.exec world.services statement).1 with
        main := (world.exec world.services statement).2 ++ [] }) :
    Kept
      { (world.exec world.services statement).1 with
        main := (world.exec world.services statement).2 ++ [] } := by
  have quiet : world.Quiet := by
    refine ⟨kept.not_running dead, ?_⟩
    rw [queued]
    rcases kind with rfl | rfl <;> simp [Statement.isNewCall]
  have calls : (world.exec world.services statement).1.calls = world.calls := by
    rcases kind with rfl | rfl <;> simp only [World.exec] <;> split <;> rfl
  have later : ∀ other ∈ (world.exec world.services statement).2 ++ [],
      other.isNewCall = false := by
    rcases kind with rfl | rfl <;> simp only [World.exec] <;> split <;>
      simp [Statement.isNewCall]
  have done (move : LockMove world
        { (world.exec world.services statement).1 with
          main := (world.exec world.services statement).2 ++ [] })
      (main : MainPhase
        { (world.exec world.services statement).1 with
          main := (world.exec world.services statement).2 ++ [] }
        ((world.exec world.services statement).2 ++ [])) :
      Kept
        { (world.exec world.services statement).1 with
          main := (world.exec world.services statement).2 ++ [] } := by
    refine kept.of_main scripted (fun id found present => ?_) move
      (fun id call listed left stage => ?_) main
    · rw [show World.calls { (world.exec world.services statement).1 with
          main := (world.exec world.services statement).2 ++ [] } =
            world.calls from calls] at present
      exact ⟨found, present, rfl, fun running => running, fun _ stage => stage⟩
    · refine (kept.phases id call listed left stage).mono move.services
        (fun _ => ⟨?_, later⟩) move.wakeLock_le
      exact calls.symm ▸ quiet.1
  rcases kind with rfl | rfl <;>
    by_cases held : 0 < world.wakeLock world.services
  · have ran : world.exec world.services .ifHeld = (world, [.release]) :=
      if_pos held
    rw [ran] at done ⊢
    exact done (.same ⟨rfl, rfl, rfl, rfl⟩)
      (.destroyed .release dead (Or.inr rfl) once)
  · have ran : world.exec world.services .ifHeld = (world, []) := if_neg held
    rw [ran] at done ⊢
    exact done (.same ⟨rfl, rfl, rfl, rfl⟩)
      (.gone dead (Nat.eq_zero_of_not_pos held))
  · have ran : world.exec world.services .release =
        ({ world with
          wakeLock := Function.update world.wakeLock world.services
            (world.wakeLock world.services - 1) }, []) := if_pos held
    rw [ran] at done ⊢
    refine done (.released quiet rfl rfl rfl rfl) (.gone dead ?_)
    change Function.update world.wakeLock world.services
      (world.wakeLock world.services - 1) world.services = 0
    rw [Function.update_self]
    omega
  · have ran : world.exec world.services .release =
        ({ world with crashed := true }, []) := if_neg held
    rw [ran] at done ⊢
    exact done (.same ⟨rfl, rfl, rfl, rfl⟩)
      (.gone dead (Nat.eq_zero_of_not_pos held))

/-- Every statement of the main thread keeps the lock in order. -/
theorem Kept.main_step
    (kept : Kept world)
    {statement : Statement}
    {rest : List Statement}
    (finds : world.FindsIdle .main)
    (queued : world.main = statement :: rest) :
    Kept
      { (world.exec world.services statement).1 with
        main := (world.exec world.services statement).2 ++ rest } := by
  have scripted := scripted_step kept.scripted (.main statement rest queued)
  have main := kept.main
  rw [queued] at main
  generalize equal : statement :: rest = queue at main
  cases main with
  | going _ alive none keeps phase =>
      subst equal
      exact kept.main_going finds queued alive none keeps phase scripted
  | accepted model alive going once =>
      rw [downloadModel, List.cons_append, List.cons_append] at equal
      obtain ⟨rfl, rfl⟩ := List.cons.inj equal
      exact kept.main_acquire queued alive going once rfl scripted
  | starting model before kinds holding =>
      cases before with
      | nil =>
          obtain ⟨rfl, rfl⟩ := List.cons.inj equal
          exact kept.main_make queued holding scripted
      | cons first before =>
          obtain ⟨rfl, rfl⟩ := List.cons.inj equal
          obtain ⟨filename, reports⟩ := kinds statement List.mem_cons_self
          obtain ⟨nothing, calls, _⟩ :=
            reports.exec world world.services
          obtain ⟨keeps, stays⟩ := reports.not_leaves
          obtain ⟨same, _⟩ :=
            @sameLock_exec world world.services statement keeps stays
          have after : SameLock world
              { (world.exec world.services statement).1 with
                main := (world.exec world.services statement).2 ++
                  before.append [.newCall model] } :=
            ⟨same.wakeLock, same.services, same.alive, same.stopping⟩
          have holds := holding.of_same after
          have makes : .newCall model ∈ world.main := by
            rw [queued]
            simp
          refine kept.of_main scripted (fun id found present => ?_)
            (.same after) (fun id call listed left stage => ?_) ?_
          · rw [show World.calls
              { (world.exec world.services statement).1 with
                main := (world.exec world.services statement).2 ++
                  before.append [.newCall model] } = world.calls from calls]
              at present
            exact ⟨found, present, rfl, fun running => running,
              fun _ stage => stage⟩
          · exact (kept.calm_of_starting makes listed stage).imp_right
              fun ⟨leaving, other⟩ =>
                ⟨leaving, fun own => absurd (own.trans same.services) other⟩
          · rw [nothing] at holds ⊢
            exact .starting model before (fun other present =>
              kinds other (List.mem_cons_of_mem _ present)) holds
  | destroyed other dead kind once =>
      obtain ⟨rfl, rfl⟩ := List.cons.inj equal
      exact kept.main_destroyed queued dead kind once scripted
  | gone => cases equal

/-- An idle main thread is that of an instance that is alive, or of one whose
lock is free. -/
theorem Kept.free_of_idle
    (kept : Kept world)
    (idle : world.main = [])
    (dead : world.alive = false) :
    world.wakeLock world.services = 0 := by
  have main := kept.main
  generalize world.main = queue at main idle
  cases main with
  | going _ alive =>
      rw [dead] at alive
      cases alive
  | accepted | destroyed => cases idle
  | starting model before =>
      exact absurd idle (List.append_ne_nil_of_right_ne_nil before (by simp))
  | gone _ free => exact free

theorem Call.calm_of_not_leaves
    {call : Call}
    {rest : List Statement}
    (none : call.leaves = false)
    (stage : call.stage = .ending rest) :
    Calm rest := by
  rw [Call.leaves, stage, List.any_eq_false] at none
  exact fun statement present leaves =>
    none statement present (decide_eq_true leaves)

theorem Leaving.not_calm
    {rest : List Statement}
    (leaving : Leaving rest) :
    ¬Calm rest := by
  intro calm
  cases leaving with
  | test | release | stop => exact calm _ List.mem_cons_self trivial

/-- A cancellation begins before the test of `activeCalls.isEmpty()`. -/
theorem calm_cancelDownload (filename : JString) :
    Calm (cancelDownload filename) ∧
      .acquire ∉ cancelDownload filename ∧
      ∀ statement ∈ cancelDownload filename, statement.isNewCall = false := by
  simp [Calm, cancelDownload, cleanupAndBroadcastFailure, broadcastFailure,
    releaseWakeLockAndStopService, Statement.Leaves, Statement.isNewCall]

/-- The main thread of an instance that is alive begins to serve a command. -/
theorem mainPhase_of_commanded
    {intent : Intent}
    (idle : world.main = [])
    (commanded : Commanded world intent next)
    (room : ∀ model, intent = .download (some model) →
      model.filename ∉ world.ongoingDownloads →
        next.stopping = false ∧ next.wakeLock next.services ≤ 1) :
    MainPhase next next.main ∧
      ((∃ model, intent = .download (some model) ∧
          model.filename ∉ world.ongoingDownloads) ∨
        ∀ statement ∈ next.main, statement.isNewCall = false) := by
  rcases commanded.main with ⟨model, rfl, accepted, main⟩ |
    ⟨filename, rfl, main⟩ | main
  · obtain ⟨going, once⟩ := room model rfl accepted
    rw [main]
    exact ⟨.accepted model commanded.alive going once,
      Or.inl ⟨model, rfl, accepted⟩⟩
  · obtain ⟨calm, keeps, none⟩ := calm_cancelDownload filename
    rw [main]
    exact ⟨.going _ commanded.alive none keeps (Or.inl calm), Or.inr none⟩
  · rw [main, idle]
    exact ⟨.going _ commanded.alive (by simp) (by simp)
      (Or.inl (by simp [Calm])), Or.inr (by simp)⟩

/-- A command to an instance that is alive. -/
theorem Kept.command_alive
    (kept : Kept world)
    {intent : Intent}
    (idle : world.main = [])
    (alive : world.alive = true)
    (accepts : world.AcceptsInTime (.onStartCommand intent))
    (scripted : Scripted next)
    (commanded : Commanded world intent next) :
    Kept next := by
  have services : next.services = world.services := by
    rw [commanded.services, if_pos alive]
  have stopping : next.stopping = world.stopping := by
    rw [commanded.stopping, alive, Bool.true_and]
  have same : SameLock world next :=
    ⟨commanded.wakeLock, services, commanded.alive.trans alive.symm, stopping⟩
  obtain ⟨main, starts⟩ := mainPhase_of_commanded idle commanded (by
    rintro model rfl accepted
    obtain ⟨going, once, _⟩ := accepts accepted alive
    rw [stopping, commanded.wakeLock, services]
    exact ⟨going, once⟩)
  refine kept.of_main scripted (fun id found present => ?_) (.same same)
    (fun id call listed rest stage => ?_) main
  · rw [commanded.calls] at present
    exact ⟨found, present, rfl, fun running => running, fun _ stage => stage⟩
  · have phase := kept.phases id call listed rest stage
    rcases starts with ⟨model, rfl, accepted⟩ | none
    · obtain ⟨_, _, calm⟩ := accepts accepted alive
      refine phase.imp_right fun ⟨leaving, _⟩ => ⟨leaving, fun own => ?_⟩
      have none := calm call (List.mem_of_getElem? listed) (own.trans services)
      exact absurd (Call.calm_of_not_leaves none stage) leaving.not_calm
    · refine phase.mono services (fun quiet => ⟨?_, none⟩)
        (by rw [commanded.wakeLock, services])
      rw [commanded.calls]
      exact quiet.1

/-- A command creates an instance, whose lock is free. -/
theorem Kept.command_dead
    (kept : Kept world)
    {intent : Intent}
    (idle : world.main = [])
    (dead : world.alive = false)
    (scripted : Scripted next)
    (commanded : Commanded world intent next) :
    Kept next := by
  have services : next.services = world.services + 1 := by
    rw [commanded.services, dead]
    rfl
  have stopping : next.stopping = false := by
    rw [commanded.stopping, dead, Bool.false_and]
  have free (service : Nat) : next.wakeLock service = 0 := by
    rw [commanded.wakeLock]
    by_cases last : service = world.services
    · rw [last]
      exact kept.free_of_idle idle dead
    · exact kept.old service last
  constructor
  case scripted => exact scripted
  case bound => exact (free _).le.trans (Nat.zero_le 2)
  case old => exact fun service _ => free service
  case served =>
    rw [commanded.calls, services]
    exact fun id call listed =>
      (kept.served id call listed).trans (Nat.le_succ _)
  case running =>
    rw [commanded.calls]
    exact fun id call listed running =>
      absurd running (kept.not_running dead call (List.mem_of_getElem? listed))
  case stopped =>
    exact fun _ => (free _).le.trans (Nat.zero_le 1)
  case phases =>
    rw [commanded.calls]
    intro id call listed rest stage
    refine (kept.phases id call listed rest stage).imp_right
      fun ⟨leaving, _⟩ => ⟨leaving, fun own => ?_⟩
    have served := kept.served id call listed
    rw [services] at own
    omega
  case main =>
    exact (mainPhase_of_commanded idle commanded fun _ _ _ =>
      ⟨stopping, (free _).le.trans (Nat.zero_le 1)⟩).1

/-- The system destroys a stopped service, in which nothing goes on. -/
theorem Kept.destroy
    (kept : Kept world)
    (stopping : world.stopping = true)
    (scripted : Scripted { world with alive := false, main := onDestroy }) :
    Kept { world with alive := false, main := onDestroy } where
  scripted := scripted
  bound := kept.bound
  old := kept.old
  served := kept.served
  running := fun id call listed running =>
    absurd ((kept.running id call listed running).2.going.symm.trans stopping)
      Bool.false_ne_true
  stopped := kept.stopped
  phases := fun id call listed rest stage =>
    (kept.phases id call listed rest stage).mono rfl
      (fun quiet => ⟨quiet.1, by simp [onDestroy, Statement.isNewCall]⟩) le_rfl
  main := .destroyed .ifHeld rfl (Or.inl rfl) (kept.stopped stopping)

/-- Every step that acquires and releases in time keeps the lock in order. -/
theorem Kept.step
    {action : Action}
    (kept : Kept world)
    (balanced : world.Balanced action)
    (fired : world.step action = some next) :
    Kept next := by
  have moves := (moves_of_step fired).2
  have scripted := scripted_step kept.scripted moves
  cases known : action.call? with
  | some id => exact kept.callback balanced.2 moves known
  | none =>
      cases moves with
      | command intent idle =>
          have commanded := commanded_onStartCommand world intent
          cases alive : world.alive with
          | true =>
              exact kept.command_alive idle alive balanced.1 scripted commanded
          | false => exact kept.command_dead idle alive scripted commanded
      | main statement rest queued => exact kept.main_step balanced.2 queued
      | destroy idle alive stopping => exact kept.destroy stopping scripted
      | deleteModel filename idle =>
          refine kept.of_main scripted (fun id found present => ?_)
            (.same ⟨rfl, rfl, rfl, rfl⟩)
            (fun id call listed rest stage =>
              (kept.phases id call listed rest stage).mono rfl
                (fun quiet => ⟨quiet.1, quiet.2⟩) le_rfl)
            (kept.main.mono rfl (.same ⟨rfl, rfl, rfl, rfl⟩)
              fun quiet => ⟨quiet.1, quiet.2⟩)
          exact ⟨found, present, rfl, fun running => running,
            fun _ stage => stage⟩
      | progress | cleanUp => cases known
      | advance action id call changed owner =>
          rw [known] at owner
          cases owner

theorem Kept.lockKept
    (kept : Kept world) :
    world.LockKept where
  held := by
    intro id call listed running
    obtain ⟨own, holding⟩ := kept.running id call listed running
    rw [own]
    exact holding.held
  starting := by
    intro model makes keeps
    have main := kept.main
    generalize world.main = queue at main makes keeps
    cases main with
    | going _ _ none =>
        exact absurd (none _ makes) (by simp [Statement.isNewCall])
    | accepted => simp [downloadModel] at keeps
    | starting _ _ _ holding => exact holding.held
    | destroyed statement _ kind =>
        rw [List.mem_singleton] at makes
        rcases kind with rfl | rfl <;> cases makes
    | gone => cases makes
  released := by
    intro dead idle service
    by_cases last : service = world.services
    · rw [last]
      exact kept.free_of_idle idle dead
    · exact kept.old service last

end Main

section Runs

theorem kept_start (disk : Files) : Kept (start disk) where
  scripted := fun id call listed => absurd listed (by simp [start])
  bound := by simp [start]
  old := fun _ _ => rfl
  served := fun id call listed => absurd listed (by simp [start])
  running := fun id call listed => absurd listed (by simp [start])
  stopped := fun stopping => absurd stopping (by simp [start])
  phases := fun id call listed => absurd listed (by simp [start])
  main := .gone rfl rfl

/-- In any run in which downloads are accepted in time and no call in progress
is found only where none goes on, the lock is held while a download goes on and
free once the service is destroyed. -/
theorem lockKept_of_balanced
    (disk : Files)
    (actions : List Action)
    (balanced : machine.Guarded World.Balanced (start disk) actions) :
    machine.Always World.LockKept (start disk) actions :=
  Transition.Machine.always_of_guarded
    (fun _ _ _ kept balanced fired => Kept.step kept balanced fired)
    (fun _ kept => kept.lockKept) balanced (kept_start disk)

/-- A download is accepted, up to the enqueuing of its call. -/
def accepted (model : Model) : List Action :=
  .onStartCommand (.download (some model)) :: List.replicate 7 .main

/-- A download of an empty file is completed, with so many statements behind the
closing of the streams. -/
def completed (id statements : Nat) : List Action :=
  [.onResponse id true (some []) true, .openOutput id true,
    .read id .endOfStream, .close id true] ++
    List.replicate statements (.callback id)

/-- Two downloads overlap and are completed, and the service is destroyed. -/
theorem lockKept_of_two :
    machine.Always World.LockKept (start Disk.empty)
      (accepted miniModel ++
        accepted { miniModel with filename := jstr "n.gguf" } ++
        completed 0 4 ++ completed 1 7 ++ [.onDestroy, .main, .main]) :=
  lockKept_of_balanced Disk.empty _ (by decide +kernel)

/-- Three downloads overlap and are completed, and the service is destroyed: the
lock has been acquired three times and released twice. -/
theorem not_lockKept_of_three :
    ∃ finish,
      machine.run (start Disk.empty)
        (accepted miniModel ++
          accepted { miniModel with filename := jstr "n.gguf" } ++
          accepted { miniModel with filename := jstr "o.gguf" } ++
          completed 0 4 ++ completed 1 4 ++ completed 2 7 ++
          [.onDestroy, .main, .main]) = some finish ∧
      finish.alive = false ∧ finish.main = [] ∧
      (∀ call ∈ finish.calls, call.stage = .ended) ∧
      finish.wakeLock 1 = 1 ∧ ¬finish.LockKept := by
  obtain ⟨finish, ran, seen⟩ := Option.map_eq_some_iff.mp
    (show (machine.run (start Disk.empty)
        (accepted miniModel ++
          accepted { miniModel with filename := jstr "n.gguf" } ++
          accepted { miniModel with filename := jstr "o.gguf" } ++
          completed 0 4 ++ completed 1 4 ++ completed 2 7 ++
          [.onDestroy, .main, .main])).map
        (fun finish => decide (finish.alive = false ∧ finish.main = [] ∧
          (∀ call ∈ finish.calls, call.stage = .ended) ∧
          finish.wakeLock 1 = 1)) =
      some true by decide +kernel)
  rw [decide_eq_true_eq] at seen
  obtain ⟨dead, idle, ended, count⟩ := seen
  refine ⟨finish, ran, dead, idle, ended, count, fun kept => ?_⟩
  rw [kept.released dead idle 1] at count
  cases count

end Runs

end Download
end IdoProject
