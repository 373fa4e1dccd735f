import IdoProject.Download.Threads

/-!
# What an ended download leaves behind

Every way out of a callback takes its file out of both registries, but one: the
return from the copy loop of a cancelled call leaves `ongoingDownloads` to the
cancellation.  A round that was under way when the call was cancelled enters the
file again behind the back of `cancelDownload`, and then it stays.
-/

namespace IdoProject
namespace Download

open Java
open Storage
open Transition

namespace Statement

/-- A statement of a start that enters the file in a registry, or makes the call
that will be entered. -/
def Enters (filename : JString) : Statement → Prop
  | .putOngoing name _ | .putActive name _ => name = filename
  | .newCall model => model.filename = filename
  | _ => False

instance (filename : JString) : DecidablePred (Enters filename)
  | .putOngoing name _ | .putActive name _ =>
      inferInstanceAs (Decidable (name = filename))
  | .newCall model => inferInstanceAs (Decidable (model.filename = filename))
  | .acquire | .removeOngoing _ | .removeActive _ | .enqueue _ | .getActive _
  | .cancel _ | .sendBroadcast _ | .ifIdle | .ifHeld | .release | .stopSelf =>
      .isFalse id

/-- A statement of a start of the file before its call is made. -/
def Starting (filename : JString) : Statement → Prop
  | .acquire | .sendBroadcast _ => True
  | .putOngoing name _ => name = filename
  | _ => False

variable {filename : JString}
variable {statement : Statement}
variable (world : World)
variable (this : Nat)

/-- Only what enters the file adds it to `ongoingDownloads`, and its removal
takes it out. -/
theorem ongoing_of_exec
    (foreign : ¬statement.Enters filename)
    (present : filename ∈ (world.exec this statement).1.ongoingDownloads) :
    filename ∈ world.ongoingDownloads ∧
      statement ≠ .removeOngoing filename := by
  cases statement with
  | putOngoing name progress =>
      refine ⟨?_, by simp⟩
      exact ((AList.mem_insert _).mp present).resolve_left
        fun equal => foreign equal.symm
  | removeOngoing name =>
      obtain ⟨other, there⟩ := AList.mem_erase.mp present
      refine ⟨there, ?_⟩
      rintro equal
      cases equal
      exact other rfl
  | getActive | ifIdle | ifHeld | release | stopSelf =>
      simp only [World.exec] at present
      split at present <;> exact ⟨present, by simp⟩
  | _ => exact ⟨present, by simp⟩

theorem active_of_exec
    (foreign : ¬statement.Enters filename)
    (present : filename ∈ (world.exec this statement).1.activeCalls) :
    filename ∈ world.activeCalls ∧ statement ≠ .removeActive filename := by
  cases statement with
  | putActive name call =>
      refine ⟨?_, by simp⟩
      exact ((AList.mem_insert _).mp present).resolve_left
        fun equal => foreign equal.symm
  | removeActive name =>
      obtain ⟨other, there⟩ := AList.mem_erase.mp present
      refine ⟨there, ?_⟩
      rintro equal
      cases equal
      exact other rfl
  | getActive | ifIdle | ifHeld | release | stopSelf =>
      simp only [World.exec] at present
      split at present <;> exact ⟨present, by simp⟩
  | _ => exact ⟨present, by simp⟩

/-- What a statement leaves to run enters a file only when it makes a call. -/
theorem not_enters_of_exec
    (notCall : ∀ model, statement ≠ .newCall model) :
    ∀ later ∈ (world.exec this statement).2, ¬later.Enters filename := by
  cases statement with
  | newCall model => exact absurd rfl (notCall model)
  | getActive | ifIdle | ifHeld | release | stopSelf =>
      simp only [World.exec]
      split <;> simp [Enters]
  | _ => simp [World.exec]

theorem Cleans.not_enters
    {name : JString}
    (cleans : statement.Cleans name) :
    ¬statement.Enters filename := by
  cases statement with
  | putOngoing | putActive | newCall => exact False.elim cleans
  | _ => exact id

end Statement

namespace Call

/-- The callback is about to delete the file, or at its last statements. -/
def Leaving (call : Call) : Prop :=
  match call.stage with
  | .deleting | .ending _ => True
  | _ => False

/-- The statement is one of the last ones of the callback. -/
def WillRun (call : Call) (statement : Statement) : Prop :=
  match call.stage with
  | .ending rest => statement ∈ rest
  | _ => False

end Call

/-- Once every callback of the file has ended and the main thread has nothing
left that enters or removes it, the file is in no registry, and a new download
of it is accepted. -/
def NoTrace (filename : JString) (world : World) : Prop :=
  (∀ call ∈ world.calls, call.filename = filename → call.stage = .ended) →
    (∀ statement ∈ world.main,
      ¬statement.Enters filename ∧ ¬statement.Removes filename) →
    filename ∉ world.ongoingDownloads ∧ filename ∉ world.activeCalls ∧
      ∀ model : Model, model.filename = filename →
        (world.onStartCommand (.download (some model))).main =
          downloadModel model

/-- When the callback of a call of the file finds it cancelled, the file has
been removed from `ongoingDownloads`, or `cancelDownload` is about to remove
it. -/
def Noticed (filename : JString) (world : World) : Action → Prop
  | .check id =>
      ∀ call ∈ world.calls[id]?, call.filename = filename →
        call.canceled = true → filename ∈ world.ongoingDownloads →
          .removeOngoing filename ∈ world.main
  | _ => True

instance (filename : JString) (world : World) :
    DecidablePred (Noticed filename world)
  | .check id =>
      inferInstanceAs (Decidable (∀ call ∈ world.calls[id]?,
        call.filename = filename → call.canceled = true →
          filename ∈ world.ongoingDownloads →
            .removeOngoing filename ∈ world.main))
  | .onStartCommand _ | .main | .onDestroy | .deleteModel _ | .onFailure _
  | .onResponse _ _ _ _ | .openOutput _ _ | .read _ _ | .write _ _
  | .close _ _ | .delete _ _ | .callback _ => .isTrue trivial

/-! ## What holds in every state -/

/-- What the main thread has left to run: a start up to its call, the entry of
the new call, or nothing that enters a file. -/
inductive MainTidy (world : World) : List Statement → Prop
  | starting (model : Model) (before : List Statement)
      (kinds : ∀ statement ∈ before, statement.Starting model.filename) :
      MainTidy world (before ++ [.newCall model])
  | entering (id : Nat) (call : Call) (listed : world.calls[id]? = some call)
      (created : call.stage = .created) :
      MainTidy world [.putActive call.filename id, .enqueue id]
  | quiet (rest : List Statement)
      (closed : ∀ statement ∈ rest, ∀ filename, ¬statement.Enters filename) :
      MainTidy world rest

/-- Every callback of the file is about to delete it or at its last statements,
and the main thread does not enter it. -/
def Left (filename : JString) (world : World) : Prop :=
  (∀ statement ∈ world.main, ¬statement.Enters filename) ∧
    ∀ (id : Nat) (call : Call), world.calls[id]? = some call →
      call.filename = filename → call.Leaving

/-- A callback of the file still runs the statement. -/
def CallRuns (filename : JString) (world : World) (statement : Statement) :
    Prop :=
  ∃ (id : Nat) (call : Call), world.calls[id]? = some call ∧
    call.filename = filename ∧ call.WillRun statement

/-- What holds in every state while cancellations are noticed. -/
structure Tidy (filename : JString) (world : World) : Prop where
  scripted : Scripted world
  main : MainTidy world world.main
  ongoing : Left filename world → filename ∈ world.ongoingDownloads →
    .removeOngoing filename ∈ world.main ∨
      CallRuns filename world (.removeOngoing filename)
  active : Left filename world → filename ∈ world.activeCalls →
    (∃ (id : Nat) (call : Call), world.calls[id]? = some call ∧
      call.filename = filename ∧ call.stage = .deleting) ∨
      CallRuns filename world (.removeActive filename)

variable {filename : JString}
variable {world next : World}
variable {action : Action}

/-- A callback that has ended runs nothing. -/
theorem CallRuns.elim
    {statement : Statement}
    (ended : ∀ call ∈ world.calls, call.filename = filename →
      call.stage = .ended)
    (runs : CallRuns filename world statement) :
    False := by
  obtain ⟨id, call, listed, same, will⟩ := runs
  rw [Call.WillRun, ended call (List.mem_of_getElem? listed) same] at will
  exact absurd will List.not_mem_nil

theorem Tidy.noTrace
    (tidy : Tidy filename world) :
    NoTrace filename world := by
  intro ended returned
  have left : Left filename world := by
    refine ⟨fun statement present => (returned statement present).1, ?_⟩
    intro id call listed same
    rw [Call.Leaving, ended call (List.mem_of_getElem? listed) same]
    trivial
  have noOngoing : filename ∉ world.ongoingDownloads := by
    intro present
    rcases tidy.ongoing left present with main | runs
    · exact (returned _ main).2 rfl
    · exact runs.elim ended
  refine ⟨noOngoing, ?_, ?_⟩
  · intro present
    rcases tidy.active left present with ⟨id, call, listed, same, stage⟩ | runs
    · rw [ended call (List.mem_of_getElem? listed) same] at stage
      cases stage
    · exact runs.elim ended
  · rintro model rfl
    have started : model.filename ∉ (if world.alive then world else
        { world with
          services := world.services + 1
          alive := true
          stopping := false }).ongoingDownloads := by
      split <;> exact noOngoing
    unfold World.onStartCommand
    dsimp only
    rw [if_neg started]

/-! ## The callbacks -/

section Callbacks

variable {id : Nat}
variable {call changed : Call}

theorem Turn.listed_self
    (turn : Turn world next id call changed) :
    next.calls[id]? = some changed := by
  rw [turn.calls, List.getElem?_set_self]
  exact (List.getElem?_eq_some_iff.mp turn.listed).1

theorem Turn.listed_other
    (turn : Turn world next id call changed)
    {other : Nat}
    {found : Call}
    (different : other ≠ id)
    (listed : world.calls[other]? = some found) :
    next.calls[other]? = some found := by
  rw [turn.calls, List.getElem?_set_ne different.symm]
  exact listed

theorem MainTidy.turn
    {rest : List Statement}
    (tidy : MainTidy world rest)
    (turn : Turn world next id call changed) :
    MainTidy next rest := by
  cases tidy with
  | starting model before kinds => exact .starting model before kinds
  | quiet _ closed => exact .quiet _ closed
  | entering other found listed created =>
      have different : other ≠ id := by
        rintro rfl
        rw [turn.listed] at listed
        cases listed
        exact turn.begun created
      exact .entering other found (turn.listed_other different listed) created

/-- What another callback runs it still runs after the turn. -/
theorem CallRuns.turn
    {statement : Statement}
    (runs : CallRuns filename world statement)
    (turn : Turn world next id call changed)
    (kept : call.filename = filename → call.WillRun statement →
      changed.WillRun statement) :
    CallRuns filename next statement := by
  obtain ⟨other, found, listed, same, will⟩ := runs
  by_cases different : other = id
  case pos =>
    subst different
    rw [turn.listed] at listed
    cases listed
    exact ⟨other, changed, turn.listed_self, turn.filename.trans same,
      kept same will⟩
  case neg =>
    exact ⟨other, found, turn.listed_other different listed, same, will⟩

/-- Where the file is left after a turn it was left before, unless it is the
callback itself that left it. -/
theorem Left.of_turn
    (left : Left filename next)
    (turn : Turn world next id call changed)
    (leaving : call.filename = filename → call.Leaving) :
    Left filename world := by
  refine ⟨turn.main ▸ left.1, ?_⟩
  intro other found listed same
  by_cases different : other = id
  case pos =>
    subst different
    rw [turn.listed] at listed
    cases listed
    exact leaving same
  case neg => exact left.2 other found (turn.listed_other different listed) same

/-- A callback of another file leaves this one alone. -/
theorem Tidy.turn_other
    (tidy : Tidy filename world)
    (scripted : Scripted next)
    (turn : Turn world next id call changed)
    (foreign : call.filename ≠ filename) :
    Tidy filename next where
  scripted := scripted
  main := turn.main ▸ tidy.main.turn turn
  ongoing := by
    intro left present
    have before : filename ∈ world.ongoingDownloads := by
      rcases turn.ongoing with same | ⟨progress, inserted⟩ | ⟨erased, -⟩
      · exact same ▸ present
      · rw [inserted, AList.mem_insert] at present
        exact present.resolve_left (Ne.symm foreign)
      · rw [erased, AList.mem_erase] at present
        exact present.2
    rw [turn.main]
    exact (tidy.ongoing (left.of_turn turn fun same => absurd same foreign)
      before).imp_right fun runs =>
        runs.turn turn fun same => absurd same foreign
  active := by
    intro left present
    have before : filename ∈ world.activeCalls := by
      rcases turn.active with same | ⟨erased, -⟩
      · exact same ▸ present
      · rw [erased, AList.mem_erase] at present
        exact present.2
    rcases tidy.active (left.of_turn turn fun same => absurd same foreign)
      before with ⟨other, found, listed, same, stage⟩ | runs
    · refine Or.inl ⟨other, found, turn.listed_other ?_ listed, same, stage⟩
      rintro rfl
      rw [turn.listed] at listed
      cases listed
      exact foreign same
    · exact Or.inr (runs.turn turn fun same => absurd same foreign)

/-- A callback of the file that goes on copying. -/
theorem Tidy.turn_staying
    (tidy : Tidy filename world)
    (scripted : Scripted next)
    (turn : Turn world next id call changed)
    (own : call.filename = filename)
    (stays : ¬changed.Leaving) :
    Tidy filename next where
  scripted := scripted
  main := turn.main ▸ tidy.main.turn turn
  ongoing := fun left => absurd
    (left.2 id changed turn.listed_self (turn.filename.trans own)) stays
  active := fun left => absurd
    (left.2 id changed turn.listed_self (turn.filename.trans own)) stays

/-- A callback of the file that comes to the clean-up. -/
theorem Tidy.turn_cleaning
    (tidy : Tidy filename world)
    (scripted : Scripted next)
    (turn : Turn world next id call changed)
    (own : call.filename = filename)
    (ongoing : changed.WillRun (.removeOngoing filename))
    (active : changed.WillRun (.removeActive filename)) :
    Tidy filename next where
  scripted := scripted
  main := turn.main ▸ tidy.main.turn turn
  ongoing := fun _ _ => Or.inr
    ⟨id, changed, turn.listed_self, turn.filename.trans own, ongoing⟩
  active := fun _ _ => Or.inr
    ⟨id, changed, turn.listed_self, turn.filename.trans own, active⟩

/-- A statement at the end of a callback. -/
theorem Tidy.cleanUp
    (tidy : Tidy filename world)
    {statement : Statement}
    {rest : List Statement}
    (moves : Moves world (.callback id)
      ((world.exec call.service statement).1.modifyCall id fun running =>
        { running with
          stage := .ending ((world.exec call.service statement).2 ++ rest) }))
    (listed : world.calls[id]? = some call)
    (stage : call.stage = .ending (statement :: rest)) :
    Tidy filename
      ((world.exec call.service statement).1.modifyCall id fun running =>
        { running with
          stage :=
            .ending ((world.exec call.service statement).2 ++ rest) }) := by
  have scripted := tidy.scripted id call listed
  have turn := Turn.of_cleanUp listed scripted stage
  rw [Call.Scripted, stage] at scripted
  have foreign : ¬statement.Enters filename :=
    (scripted statement List.mem_cons_self).not_enters
  have leaving : call.filename = filename → call.Leaving := by
    intro _
    rw [Call.Leaving, stage]
    trivial
  -- What is left of the statements, unless it is the one that has run.
  have kept {other : Statement} (different : statement ≠ other)
      (will : call.WillRun other) :
      Call.WillRun { call with
        stage := .ending ((world.exec call.service statement).2 ++ rest) }
        other := by
    rw [Call.WillRun, stage] at will
    exact List.mem_append_right _
      ((List.mem_cons.mp will).resolve_left (Ne.symm different))
  exact
    { scripted := scripted_step tidy.scripted moves
      main := turn.main ▸ tidy.main.turn turn
      ongoing := by
        intro left present
        obtain ⟨before, different⟩ :=
          Statement.ongoing_of_exec world call.service foreign present
        rw [turn.main]
        exact (tidy.ongoing (left.of_turn turn leaving) before).imp_right
          fun runs => runs.turn turn fun _ => kept different
      active := by
        intro left present
        obtain ⟨before, different⟩ :=
          Statement.active_of_exec world call.service foreign present
        rcases tidy.active (left.of_turn turn leaving) before with
          ⟨other, found, listed', same, deleting⟩ | runs
        · refine Or.inl
            ⟨other, found, turn.listed_other ?_ listed', same, deleting⟩
          rintro rfl
          rw [listed] at listed'
          cases listed'
          rw [stage] at deleting
          cases deleting
        · exact Or.inr (runs.turn turn fun _ => kept different) }

/-- A callback of the file that finds its call cancelled. -/
theorem Tidy.check
    (tidy : Tidy filename world)
    {count : Nat}
    (listed : world.calls[id]? = some call)
    (stage : call.stage = .checking count)
    (own : call.filename = filename)
    (scripted : Scripted (world.setCall id
      { call with
        stage := if call.canceled then .deleting else .writing count }))
    (noticed : Noticed filename world (.check id)) :
    Tidy filename
      (world.setCall id
        { call with
          stage := if call.canceled then .deleting else .writing count }) := by
  have turn := @Turn.of_advance world id call _ (.check id) world.disk
    world.disk listed (.checked id count stage)
  cases canceled : call.canceled with
  | false =>
      rw [canceled] at turn scripted
      exact tidy.turn_staying scripted turn own fun leaves => leaves
  | true =>
      rw [canceled] at turn scripted
      refine ⟨scripted, turn.main ▸ tidy.main.turn turn, ?_, ?_⟩
      · intro _ present
        rw [turn.main]
        exact Or.inl (noticed call listed own canceled present)
      · intro _ _
        exact Or.inl ⟨id, _, turn.listed_self, own, rfl⟩

/-- A callback of the file that has deleted the partial file. -/
theorem Tidy.deleted
    (tidy : Tidy filename world)
    {disk : Files}
    {ok : Bool}
    (listed : world.calls[id]? = some call)
    (stage : call.stage = .deleting)
    (own : call.filename = filename)
    (scripted : Scripted ({ world with disk := disk }.setCall id
      { call with
        stage := .ending
          (if ok then finallyBlock call.filename
          else catchBlock call.filename) })) :
    Tidy filename
      ({ world with disk := disk }.setCall id
        { call with
          stage := .ending
            (if ok then finallyBlock call.filename
            else catchBlock call.filename) }) := by
  have turn := @Turn.of_advance world id call _ (.delete id ok) world.disk
    disk listed (.deleted id ok stage)
  have leaving : call.filename = filename → call.Leaving := by
    intro _
    rw [Call.Leaving, stage]
    trivial
  refine ⟨scripted, turn.main ▸ tidy.main.turn turn, ?_, ?_⟩
  · intro left present
    rw [turn.main]
    refine (tidy.ongoing (left.of_turn turn leaving) present).imp_right
      fun runs => runs.turn turn fun _ will => ?_
    rw [Call.WillRun, stage] at will
    exact will.elim
  · intro _ _
    refine Or.inr ⟨id, _, turn.listed_self, own, ?_⟩
    rw [← own]
    cases ok with
    | true => exact List.mem_cons_self
    | false => simp [Call.WillRun, catchBlock, cleanupAndBroadcastFailure]

/-- Every step of a callback keeps the registries tidy when it notices a
cancellation. -/
theorem Tidy.turn
    (tidy : Tidy filename world)
    (moves : Moves world action next)
    (known : action.call? = some id)
    (noticed : Noticed filename world action) :
    Tidy filename next := by
  have scripted := scripted_step tidy.scripted moves
  cases moves with
  | command | main | destroy | deleteModel => cases known
  | progress id call statement rest listed stage =>
      have turn := Turn.of_report listed (tidy.scripted id call listed) stage
      by_cases own : call.filename = filename
      · exact tidy.turn_staying scripted turn own fun leaves => leaves
      · exact tidy.turn_other scripted turn own
  | cleanUp id call statement rest listed stage =>
      exact tidy.cleanUp (.cleanUp id call statement rest listed stage) listed
        stage
  | advance action id call changed owner listed moved =>
      have turn := @Turn.of_advance world id call changed action world.disk
        (world.diskAfter id call action) listed moved
      by_cases own : call.filename = filename
      case neg => exact tidy.turn_other scripted turn own
      case pos =>
        cases moved with
        | answered | opened | read | readAll =>
            exact tidy.turn_staying scripted turn own fun leaves => leaves
        | wrote other count =>
            obtain ⟨pending, progress, -, after⟩ := afterWrite_spec call count
            refine tidy.turn_staying scripted turn own fun leaves => ?_
            rw [after] at leaves
            exact leaves
        | failed | refused | notOpened | notRead | notWritten =>
            apply tidy.turn_cleaning scripted turn own
            · rw [← own]
              simp [Call.WillRun, Call.failed, catchBlock,
                cleanupAndBroadcastFailure]
            · rw [← own]
              simp [Call.WillRun, Call.failed, catchBlock,
                cleanupAndBroadcastFailure]
        | closed other ok =>
            apply tidy.turn_cleaning scripted turn own
            · rw [← own]
              cases ok <;>
                simp [Call.WillRun, catchBlock, cleanupAndBroadcastFailure,
                  broadcastComplete]
            · rw [← own]
              cases ok <;>
                simp [Call.WillRun, catchBlock, cleanupAndBroadcastFailure,
                  finallyBlock]
        | checked other count stage =>
            cases owner
            exact tidy.check listed stage own scripted noticed
        | deleted other ok stage =>
            exact tidy.deleted listed stage own scripted

end Callbacks

/-! ## The main thread -/

section Main

variable {statement : Statement}
variable {rest : List Statement}

/-- A call stays where it is under a statement of the main thread, unless it is
enqueued. -/
theorem MainEffect.listed_after
    (effect : MainEffect world next statement)
    {id : Nat}
    {call : Call}
    (listed : world.calls[id]? = some call) :
    ∃ found, next.calls[id]? = some found ∧ found.filename = call.filename ∧
      (found.stage = call.stage ∨
        call.stage = .created ∧ found.stage = .enqueued) := by
  have modified {target : Nat} {change : Call → Call}
      (calls : next.calls = world.calls.modify target change) :
      next.calls[id]? =
        some (if target = id then change call else call) := by
    rw [calls, List.getElem?_modify, listed]
    split <;> rfl
  cases effect with
  | made model calls =>
      refine ⟨call, ?_, rfl, Or.inl rfl⟩
      rw [calls, List.getElem?_append_left
        (List.getElem?_eq_some_iff.mp listed).1]
      exact listed
  | enqueued target calls =>
      refine ⟨_, modified calls, ?_, ?_⟩
      · split
        · split <;> rfl
        · rfl
      · split
        case isTrue =>
          split
          case isTrue created => exact Or.inr ⟨created, rfl⟩
          case isFalse => exact Or.inl rfl
        case isFalse => exact Or.inl rfl
  | canceled target calls =>
      refine ⟨_, modified calls, ?_, Or.inl ?_⟩ <;> split <;> rfl
  | kept _ calls =>
      exact ⟨call, calls ▸ listed, rfl, Or.inl rfl⟩

theorem Call.Leaving.of_stage
    {call found : Call}
    (leaving : found.Leaving)
    (stages : found.stage = call.stage ∨
      call.stage = .created ∧ found.stage = .enqueued) :
    call.Leaving := by
  rcases stages with same | ⟨-, enqueued⟩
  · rw [Call.Leaving, same] at leaving
    exact leaving
  · rw [Call.Leaving, enqueued] at leaving
    exact leaving.elim

theorem Call.WillRun.of_stage
    {call found : Call}
    {other : Statement}
    (will : call.WillRun other)
    (stages : found.stage = call.stage ∨
      call.stage = .created ∧ found.stage = .enqueued) :
    found.WillRun other := by
  rcases stages with same | ⟨created, -⟩
  · rwa [Call.WillRun, same]
  · rw [Call.WillRun, created] at will
    exact will.elim

/-- The order of what the main thread has left to run is kept. -/
theorem MainTidy.main_step
    (tidy : MainTidy world (statement :: rest)) :
    MainTidy
      { (world.exec world.services statement).1 with
        main := (world.exec world.services statement).2 ++ rest }
      ((world.exec world.services statement).2 ++ rest) := by
  generalize equal : statement :: rest = queue at tidy
  cases tidy with
  | starting model before kinds =>
      cases before with
      | nil =>
          obtain ⟨rfl, rfl⟩ := List.cons.inj equal
          exact @MainTidy.entering
            { (world.exec world.services (.newCall model)).1 with
              main := (world.exec world.services (.newCall model)).2 ++ [] }
            world.calls.length
            { filename := model.filename, url := model.path,
              service := world.services }
            List.getElem?_concat_length rfl
      | cons other before =>
          obtain ⟨rfl, rfl⟩ := List.cons.inj equal
          have starting := kinds statement List.mem_cons_self
          have nothing : (world.exec world.services statement).2 = [] := by
            cases statement with
            | acquire | putOngoing | sendBroadcast => rfl
            | _ => exact False.elim starting
          rw [nothing]
          exact .starting model before fun later present =>
            kinds later (List.mem_cons_of_mem _ present)
  | entering id call listed created =>
      obtain ⟨rfl, rfl⟩ := List.cons.inj equal
      refine .quiet _ fun later present name enters => ?_
      rw [List.mem_singleton.mp present] at enters
      exact enters
  | quiet _ closed =>
      subst equal
      refine .quiet _ fun later present name => ?_
      rcases List.mem_append.mp present with new | old
      · apply Statement.not_enters_of_exec world world.services _ later new
        rintro model rfl
        exact closed _ List.mem_cons_self model.filename rfl
      · exact closed later (List.mem_cons_of_mem _ old) name

/-- After the main thread has entered a file, its callbacks have not all left
it. -/
theorem not_left_of_enters
    (tidy : MainTidy world (statement :: rest))
    (enters : statement.Enters filename) :
    ¬Left filename
      { (world.exec world.services statement).1 with
        main := (world.exec world.services statement).2 ++ rest } := by
  rintro ⟨closed, leaving⟩
  generalize equal : statement :: rest = queue at tidy
  cases tidy with
  | starting model before kinds =>
      cases before with
      | nil =>
          obtain ⟨rfl, rfl⟩ := List.cons.inj equal
          exact closed (.putActive model.filename world.calls.length)
            List.mem_cons_self enters
      | cons other before =>
          obtain ⟨rfl, rfl⟩ := List.cons.inj equal
          apply closed (.newCall model)
          · exact List.mem_append_right _
              (List.mem_append_right _ (List.mem_singleton_self _))
          · have starting := kinds statement List.mem_cons_self
            cases statement with
            | putOngoing name progress => exact starting.symm.trans enters
            | _ => first | exact False.elim enters | exact False.elim starting
  | entering id call listed created =>
      obtain ⟨rfl, rfl⟩ := List.cons.inj equal
      have leaves := leaving id call listed enters
      rw [Call.Leaving, created] at leaves
      exact leaves
  | quiet _ other =>
      subst equal
      exact other statement List.mem_cons_self filename enters

/-- Every statement of the main thread keeps the registries tidy. -/
theorem Tidy.main_step
    (tidy : Tidy filename world)
    (queued : world.main = statement :: rest) :
    Tidy filename
      { (world.exec world.services statement).1 with
        main := (world.exec world.services statement).2 ++ rest } := by
  have main : MainTidy world (statement :: rest) := queued ▸ tidy.main
  have scripted := scripted_step tidy.scripted (.main _ _ queued)
  by_cases enters : statement.Enters filename
  case pos =>
    have notLeft := not_left_of_enters main enters
    exact ⟨scripted, main.main_step, fun left => absurd left notLeft,
      fun left => absurd left notLeft⟩
  case neg =>
    have effect := mainEffect_exec world statement
      ((world.exec world.services statement).2 ++ rest)
    have leftBefore (left : Left filename
        { (world.exec world.services statement).1 with
          main := (world.exec world.services statement).2 ++ rest }) :
        Left filename world := by
      constructor
      · rw [queued]
        intro other present
        rcases List.mem_cons.mp present with rfl | later
        · exact enters
        · exact left.1 other (List.mem_append_right _ later)
      · intro id call listed same
        obtain ⟨found, after, name, stages⟩ := effect.listed_after listed
        exact (left.2 id found after (name.trans same)).of_stage stages
    have runsAfter {other : Statement}
        (runs : CallRuns filename world other) :
        CallRuns filename
          { (world.exec world.services statement).1 with
            main := (world.exec world.services statement).2 ++ rest }
          other := by
      obtain ⟨id, call, listed, same, will⟩ := runs
      obtain ⟨found, after, name, stages⟩ := effect.listed_after listed
      exact ⟨id, found, after, name.trans same, will.of_stage stages⟩
    refine ⟨scripted, main.main_step, ?_, ?_⟩
    · intro left present
      obtain ⟨before, different⟩ :=
        Statement.ongoing_of_exec world world.services enters present
      rcases tidy.ongoing (leftBefore left) before with removes | runs
      · rw [queued] at removes
        exact Or.inl (List.mem_append_right _
          ((List.mem_cons.mp removes).resolve_left (Ne.symm different)))
      · exact Or.inr (runsAfter runs)
    · intro left present
      obtain ⟨before, -⟩ :=
        Statement.active_of_exec world world.services enters present
      rcases tidy.active (leftBefore left) before with
        ⟨id, call, listed, same, deleting⟩ | runs
      · obtain ⟨found, after, name, stages⟩ := effect.listed_after listed
        rcases stages with kept | ⟨created, -⟩
        · exact Or.inl
            ⟨id, found, after, name.trans same, kept.trans deleting⟩
        · rw [created] at deleting
          cases deleting
      · exact Or.inr (runsAfter runs)

/-- Where calls and registries stay and the main thread was idle, the registries
stay tidy. -/
theorem Tidy.of_calls
    (tidy : Tidy filename world)
    (idle : world.main = [])
    (calls : next.calls = world.calls)
    (ongoing : next.ongoingDownloads = world.ongoingDownloads)
    (active : next.activeCalls = world.activeCalls)
    (main : MainTidy next next.main) :
    Tidy filename next := by
  have leftBefore (left : Left filename next) : Left filename world := by
    constructor
    · rw [idle]
      exact fun _ present => absurd present List.not_mem_nil
    · rw [← calls]
      exact left.2
  refine ⟨?_, main, ?_, ?_⟩
  · rw [Scripted, calls]
    exact tidy.scripted
  · intro left present
    rw [ongoing] at present
    rcases tidy.ongoing (leftBefore left) present with removes | runs
    · rw [idle] at removes
      exact absurd removes List.not_mem_nil
    · rw [CallRuns, calls]
      exact Or.inr runs
  · intro left present
    rw [active] at present
    rw [CallRuns, calls]
    exact tidy.active (leftBefore left) present

/-- A cancellation enters nothing. -/
theorem mainTidy_cancelDownload
    (name : JString) :
    MainTidy world (cancelDownload name) := by
  refine .quiet _ fun statement present other => ?_
  rcases List.mem_cons.mp present with rfl | clean
  · exact id
  · exact (cleans_cleanupAndBroadcastFailure clean).not_enters

/-- Every command keeps the registries tidy. -/
theorem Tidy.command
    (tidy : Tidy filename world)
    {intent : Intent}
    (idle : world.main = []) :
    Tidy filename (world.onStartCommand intent) := by
  have commanded := commanded_onStartCommand world intent
  apply tidy.of_calls idle commanded.calls commanded.ongoing commanded.active
  rcases commanded.main with ⟨model, -, -, main⟩ | ⟨name, -, main⟩ | main
  · rw [main]
    exact .starting model
      ([.acquire, .putOngoing model.filename 0] ++
        broadcastProgress model.filename 0)
      (by simp [broadcastProgress, Statement.Starting])
  · rw [main]
    exact mainTidy_cancelDownload name
  · rw [main, idle]
    exact .quiet _ fun _ present => absurd present List.not_mem_nil

end Main

/-- Every step keeps the registries tidy when it notices a cancellation. -/
theorem Tidy.step
    (tidy : Tidy filename world)
    (noticed : Noticed filename world action)
    (fired : world.step action = some next) :
    Tidy filename next := by
  have moves := (moves_of_step fired).2
  cases known : action.call? with
  | some id => exact tidy.turn moves known noticed
  | none =>
      cases moves with
      | command intent idle => exact tidy.command idle
      | main statement rest queued => exact tidy.main_step queued
      | destroy idle =>
          refine tidy.of_calls idle rfl rfl rfl
            (.quiet _ fun statement present name enters => ?_)
          rw [List.mem_singleton.mp present] at enters
          exact enters
      | deleteModel name idle =>
          refine tidy.of_calls idle rfl rfl rfl ?_
          change MainTidy _ world.main
          rw [idle]
          exact .quiet _ fun _ present => absurd present List.not_mem_nil
      | progress | cleanUp => cases known
      | advance action id call changed owner =>
          rw [known] at owner
          cases owner

theorem tidy_start
    (disk : Files) :
    Tidy filename (start disk) where
  scripted := fun id call listed => absurd listed (by simp [start])
  main := .quiet _ fun _ present => absurd present List.not_mem_nil
  ongoing := fun _ present => absurd present (AList.notMem_empty _)
  active := fun _ present => absurd present (AList.notMem_empty _)

/-- In any run in which the callbacks of the file find their calls cancelled
only when the file has been removed from `ongoingDownloads`, or is about to be:
once every callback of the file has ended and every cancellation has returned,
the file is in neither registry, and a new download of it is accepted. -/
theorem noTrace_of_noticed
    (disk : Files)
    (filename : JString)
    (actions : List Action)
    (noticed : machine.Guarded (Noticed filename) (start disk) actions) :
    machine.Always (NoTrace filename) (start disk) actions :=
  Transition.Machine.always_of_guarded
    (fun _ _ _ tidy noticed fired => Tidy.step tidy noticed fired)
    (fun _ tidy => tidy.noTrace) noticed (tidy_start disk)

/-- A cancellation that is noticed before `cancelDownload` has removed the file
leaves no trace. -/
theorem noTrace_of_noticed_cancel :
    machine.Always (NoTrace miniModel.filename) (start Disk.empty)
      (opened miniModel [1, 2, 3, 4] ++
        [.read 0 (.bytes 2),
          .onStartCommand (.cancelDownload (some miniModel.filename)), .main,
          .main, .check 0, .delete 0 true] ++
        List.replicate 8 .main ++ List.replicate 4 (.callback 0)) :=
  noTrace_of_noticed Disk.empty miniModel.filename _ (by decide +kernel)

/-- The first round is cancelled between its check and its report: the report
enters the file again, the second round ends at its check, and the next download
of the file is refused. -/
theorem trace_of_late_report :
    ∃ finish, machine.run (start Disk.empty)
        (opened miniModel [1, 2, 3, 4] ++
          [.read 0 (.bytes 2), .check 0,
            .onStartCommand (.cancelDownload (some miniModel.filename))] ++
          List.replicate 10 .main ++
          [.write 0 .ok, .callback 0, .callback 0, .read 0 (.bytes 2),
            .check 0, .delete 0 true] ++ List.replicate 4 (.callback 0)) =
          some finish ∧
      finish.main = [] ∧ finish.calls.map Call.stage = [.ended] ∧
      miniModel.filename ∈ finish.ongoingDownloads ∧
      (finish.onStartCommand (.download (some miniModel))).main = [] ∧
      ¬NoTrace miniModel.filename finish := by
  obtain ⟨finish, ran, seen⟩ := Option.map_eq_some_iff.mp
    (show (machine.run (start Disk.empty)
        (opened miniModel [1, 2, 3, 4] ++
          [.read 0 (.bytes 2), .check 0,
            .onStartCommand (.cancelDownload (some miniModel.filename))] ++
          List.replicate 10 .main ++
          [.write 0 .ok, .callback 0, .callback 0, .read 0 (.bytes 2),
            .check 0, .delete 0 true] ++ List.replicate 4 (.callback 0))).map
        (fun finish => decide
          (finish.main = [] ∧ finish.calls.map Call.stage = [.ended] ∧
            miniModel.filename ∈ finish.ongoingDownloads ∧
            (finish.onStartCommand (.download (some miniModel))).main = [])) =
      some true by decide +kernel)
  simp only [decide_eq_true_eq] at seen
  obtain ⟨idle, ended, present, refused⟩ := seen
  refine ⟨finish, ran, idle, ended, present, refused, fun noTrace => ?_⟩
  refine (noTrace ?_ ?_).1 present
  · intro call member _
    have stage := List.mem_map_of_mem (f := Call.stage) member
    rw [ended] at stage
    exact List.mem_singleton.mp stage
  · rw [idle]
    exact fun _ member => absurd member List.not_mem_nil

end Download
end IdoProject
