import IdoProject.Download.Steps
import IdoProject.Download.Traces
import IdoProject.Transition.Ranking
import Mathlib.Data.Prod.Lex

/-!
# The service comes to rest

Left alone, the service cannot go on for ever: a call is answered once, a round
of the copy loop reads at least one byte of the response, and every callback ends
with finitely many statements.  When nothing is left that a thread, the network
or the system can do, every callback has ended, no call is registered as active,
and a file that is still registered as downloading is one whose download was
cancelled.
-/

namespace IdoProject
namespace Download

open Java
open Storage
open Transition

/-! ## Ranks -/

namespace Statement

/-- Number of calls that the statement makes. -/
def asks : Statement → Nat
  | .newCall _ => 1
  | _ => 0

/-- Number of statements that the statement leads to at most, itself included. -/
def length : Statement → Nat
  | .newCall _ => 3
  | .ifIdle => 4
  | .getActive _ | .ifHeld => 2
  | _ => 1

end Statement

/-- Number of statements that a script leads to at most. -/
def scriptLength (script : List Statement) : Nat :=
  (script.map Statement.length).sum

/-- Number of calls that a script makes. -/
def scriptAsks (script : List Statement) : Nat :=
  (script.map Statement.asks).sum

namespace Call

/-- One while the call is not answered. -/
def asks (call : Call) : Nat :=
  match call.stage with
  | .created | .enqueued => 1
  | _ => 0

/-- Number of bytes that are still to be read. -/
def left (call : Call) : Nat :=
  call.body.length - (call.written + call.stage.pending)

/-- Number of steps that the callback takes at most once it is answered. -/
def steps (call : Call) : Nat :=
  match call.stage with
  | .created | .enqueued => 0
  | .opening => call.left * 5 + 16
  | .looping pending => call.left * 5 + 15 + scriptLength pending
  | .checking _ => call.left * 5 + 19
  | .writing _ => call.left * 5 + 18
  | .closing | .deleting => 14
  | .ending rest => scriptLength rest

end Call

namespace World

/-- Number of calls that are not answered or yet to be made. -/
def asks (world : World) : Nat :=
  scriptAsks world.main + (world.calls.map Call.asks).sum

/-- Number of steps at most up to the next answer. -/
def steps (world : World) : Nat :=
  scriptLength world.main + (world.calls.map Call.steps).sum +
    if world.alive then 3 else 0

/-- The answers first, then the steps between them. -/
def rank (world : World) : Nat ×ₗ Nat :=
  toLex (world.asks, world.steps)

end World

/-- The user does not take the action. -/
def Action.Own : Action → Prop
  | .onStartCommand _ | .deleteModel _ => False
  | _ => True

section Ranks

variable {world next : World}
variable {statement : Statement}
variable {script rest : List Statement}

theorem scriptLength_cons :
    scriptLength (statement :: rest) = statement.length + scriptLength rest := by
  rw [scriptLength, List.map_cons, List.sum_cons]
  rfl

theorem scriptLength_append :
    scriptLength (script ++ rest) = scriptLength script + scriptLength rest := by
  rw [scriptLength, List.map_append, List.sum_append]
  rfl

theorem scriptAsks_cons :
    scriptAsks (statement :: rest) = statement.asks + scriptAsks rest := by
  rw [scriptAsks, List.map_cons, List.sum_cons]
  rfl

theorem scriptAsks_append :
    scriptAsks (script ++ rest) = scriptAsks script + scriptAsks rest := by
  rw [scriptAsks, List.map_append, List.sum_append]
  rfl

/-- What a statement leads to is shorter than the statement says. -/
theorem scriptLength_exec
    (world : World)
    (this : Nat)
    (statement : Statement) :
    scriptLength (world.exec this statement).2 < statement.length := by
  cases statement with
  | getActive | ifIdle | ifHeld | release | stopSelf =>
      simp only [World.exec]
      split <;> simp [scriptLength, Statement.length]
  | newCall model => exact Nat.lt_succ_self 2
  | _ => exact Nat.zero_lt_one

@[simp] theorem alive_exec
    {this : Nat} :
    (world.exec this statement).1.alive = world.alive := by
  cases statement <;> simp only [World.exec, World.modifyCall]
  all_goals first | rfl | (split <;> rfl)

/-- A call asks for a reply as long as the statement that makes it did. -/
theorem asks_exec
    (world : World)
    (this : Nat)
    (statement : Statement) :
    scriptAsks (world.exec this statement).2 +
        ((world.exec this statement).1.calls.map Call.asks).sum =
      statement.asks + (world.calls.map Call.asks).sum := by
  cases statement with
  | newCall model =>
      simp only [World.exec, List.map_append, List.sum_append]
      exact (Nat.zero_add _).trans (Nat.add_comm _ 1)
  | enqueue id =>
      simp only [World.exec, World.modifyCall]
      rw [map_weight_modify]
      · rfl
      · intro call
        split
        case isTrue created =>
          rw [Call.asks, Call.asks, created]
        case isFalse => rfl
  | cancel id =>
      simp only [World.exec, World.modifyCall]
      rw [map_weight_modify]
      · rfl
      · exact fun _ => rfl
  | getActive | ifIdle | ifHeld | release | stopSelf =>
      simp only [World.exec]
      split <;> rfl
  | _ => rfl

/-- The main thread leaves the callbacks the steps they have. -/
theorem steps_exec
    (world : World)
    (this : Nat)
    (statement : Statement) :
    ((world.exec this statement).1.calls.map Call.steps).sum =
      (world.calls.map Call.steps).sum := by
  cases statement with
  | newCall model =>
      simp only [World.exec, List.map_append, List.sum_append]
      rfl
  | enqueue id =>
      simp only [World.exec, World.modifyCall]
      rw [map_weight_modify]
      intro call
      split
      case isTrue created =>
        rw [Call.steps, Call.steps, created]
      case isFalse => rfl
  | cancel id =>
      simp only [World.exec, World.modifyCall]
      rw [map_weight_modify]
      exact fun _ => rfl
  | getActive | ifIdle | ifHeld | release | stopSelf =>
      simp only [World.exec]
      split <;> rfl
  | _ => rfl

/-- What a callback does brings it nearer to its answer or, with as many answers
left, nearer to its end. -/
def Nearer (call changed : Call) : Prop :=
  changed.asks < call.asks ∨
    changed.asks = call.asks ∧ changed.steps < call.steps

section Callbacks

variable {id : Nat}
variable {call changed : Call}

/-- A round that ends leaves two statements at most. -/
theorem steps_afterWrite
    (call : Call)
    (count : Nat) :
    (call.afterWrite count).asks = 0 ∧
      (call.afterWrite count).steps ≤
        (call.body.length - (call.written + count)) * 5 + 17 := by
  unfold Call.afterWrite
  dsimp only
  split
  · exact ⟨rfl, Nat.le_refl _⟩
  · exact ⟨rfl, Nat.le_add_right _ 2⟩

/-- A move of a callback brings it nearer. -/
theorem Advance.nearer
    {disk : Files}
    {action : Action}
    (moved : Advance disk call action changed) :
    Nearer call changed := by
  cases moved with
  | failed id stage | refused id _ _ _ _ stage | answered id _ _ stage =>
      left
      rw [Call.asks, Call.asks, stage]
      exact Nat.zero_lt_one
  | opened id stage =>
      right
      simp only [Call.asks, Call.steps, Call.left, Stage.pending, stage,
        scriptLength, List.map_nil, List.sum_nil, true_and]
      omega
  | notOpened id stage | notRead id stage | notWritten id _ _ _ _ _ stage =>
      right
      have answered : call.asks = 0 := by
        rw [Call.asks, stage]
      have more : 13 < call.steps := by
        simp only [Call.steps, stage]
        omega
      exact ⟨answered.symm, more⟩
  | read id count chunk stage =>
      right
      simp only [Call.asks, Call.steps, Call.left, Stage.pending, stage,
        scriptLength, List.map_nil, List.sum_nil, true_and]
      omega
  | readAll id whole stage =>
      right
      simp only [Call.asks, Call.steps, stage, true_and]
      omega
  | checked id count stage =>
      right
      cases call.canceled with
      | false =>
          simp only [Call.asks, Call.steps, Call.left, Stage.pending, stage,
            Bool.false_eq_true, if_false, true_and]
          omega
      | true =>
          simp only [Call.asks, Call.steps, stage, if_true, true_and]
          omega
  | wrote id count node output stage =>
      right
      obtain ⟨answered, fewer⟩ := steps_afterWrite call count
      rw [answered]
      simp only [Call.asks, Call.steps, Call.left, Stage.pending, stage, true_and]
        at fewer ⊢
      omega
  | closed id ok stage =>
      right
      cases ok with
      | false =>
          simp only [Call.asks, Call.steps, stage, true_and]
          exact Nat.lt_succ_self 13
      | true =>
          simp only [Call.asks, Call.steps, stage, true_and]
          exact Nat.lt_of_lt_of_le (Nat.lt_succ_self 7) (by decide)
  | deleted id ok stage =>
      right
      cases ok with
      | false =>
          simp only [Call.asks, Call.steps, stage, true_and]
          exact Nat.lt_succ_self 13
      | true =>
          simp only [Call.asks, Call.steps, stage, true_and]
          exact Nat.lt_of_lt_of_le (Nat.lt_succ_self 5) (by decide)

/-- A callback that is nearer makes the rank smaller. -/
theorem rank_of_nearer
    (listed : world.calls[id]? = some call)
    (calls : next.calls = world.calls.set id changed)
    (main : next.main = world.main)
    (alive : next.alive = world.alive)
    (nearer : Nearer call changed) :
    next.rank < world.rank := by
  have asks := @sum_weight_set _ world.calls id call changed Call.asks listed
  have steps := @sum_weight_set _ world.calls id call changed Call.steps listed
  rw [World.rank, World.rank, Prod.Lex.toLex_lt_toLex, World.asks, World.asks,
    World.steps, World.steps, calls, main, alive]
  rcases nearer with answered | ⟨same, fewer⟩
  · left
    dsimp only
    omega
  · right
    dsimp only
    omega

end Callbacks

/-- Every step that is not the user's makes the rank smaller. -/
theorem rank_of_step
    {action : Action}
    (scripted : Scripted world)
    (mine : action.Own)
    (fired : world.step action = some next) :
    next.rank < world.rank := by
  cases (moves_of_step fired).2 with
  | command | deleteModel => exact absurd mine id
  | main statement rest queued =>
      have asks := asks_exec world world.services statement
      have steps := steps_exec world world.services statement
      have shorter := scriptLength_exec world world.services statement
      rw [World.rank, World.rank, Prod.Lex.toLex_lt_toLex]
      right
      simp only [World.asks, World.steps, queued, scriptAsks_append,
        scriptAsks_cons, scriptLength_append, scriptLength_cons, alive_exec, steps]
      omega
  | destroy idle alive stopping =>
      have script : scriptLength onDestroy = 2 := rfl
      have empty : scriptLength [] = 0 := rfl
      rw [World.rank, World.rank, Prod.Lex.toLex_lt_toLex]
      right
      refine ⟨by rw [World.asks, World.asks, idle]; rfl, ?_⟩
      simp only [World.steps, idle, alive, script, empty, if_true,
        Bool.false_eq_true, if_false]
      omega
  | progress id call statement rest listed stage =>
      have turn := Turn.of_report listed (scripted id call listed) stage
      refine rank_of_nearer listed turn.calls turn.main alive_exec (.inr ?_)
      simp only [Call.asks, Call.steps, Call.left, Stage.pending, stage,
        scriptLength_cons, true_and]
      have := scriptLength_exec world call.service statement
      omega
  | cleanUp id call statement rest listed stage =>
      have turn := Turn.of_cleanUp listed (scripted id call listed) stage
      refine rank_of_nearer listed turn.calls turn.main alive_exec (.inr ?_)
      have shorter := scriptLength_exec world call.service statement
      simp only [Call.asks, Call.steps, stage, scriptLength_append,
        scriptLength_cons, true_and]
      omega
  | advance action id call changed known listed moved =>
      exact rank_of_nearer listed rfl rfl rfl moved.nearer

end Ranks

/-! ## What holds in every state -/

/-- The statement is still to come in the callback. -/
def Call.Awaits (call : Call) (statement : Statement) : Prop :=
  match call.stage with
  | .ending rest => statement ∈ rest
  | _ => True

/-- A call of the file takes it out of `ongoingDownloads`, or was cancelled. -/
def Call.Clears (call : Call) (filename : JString) : Prop :=
  call.canceled = true ∨ call.Awaits (.removeOngoing filename)

/-- What a callback relies on in the copy loop. -/
structure Call.Sound (call : Call) : Prop where
  opened : call.stage.Busy → call.output ≠ none
  canceled : call.stage = .deleting → call.canceled = true

/-- Every call, and every entry of a registry, has a thread that attends to
it. -/
structure Attended (world : World) : Prop where
  scripted : Scripted world
  main : MainTidy world world.main
  sound : ∀ (id : Nat) (call : Call), world.calls[id]? = some call → call.Sound
  created : ∀ (id : Nat) (call : Call), world.calls[id]? = some call →
    call.stage = .created → .enqueue id ∈ world.main
  active : ∀ filename ∈ world.activeCalls,
    ∃ (id : Nat) (call : Call), world.calls[id]? = some call ∧
      call.filename = filename ∧ call.Awaits (.removeActive filename)
  ongoing : ∀ filename ∈ world.ongoingDownloads,
    (∃ (id : Nat) (call : Call), world.calls[id]? = some call ∧
      call.filename = filename ∧ call.Clears filename) ∨
    ∃ model : Model, .newCall model ∈ world.main ∧ model.filename = filename

section Callbacks

variable {world next : World}
variable {id : Nat}
variable {call changed : Call}

/-- Outside the copy loop nothing is relied on. -/
theorem Call.sound_of_not_busy
    (quiet : ¬call.stage.Busy) :
    call.Sound where
  opened := fun busy => absurd busy quiet
  canceled := fun stage => absurd (by rw [stage]; trivial) quiet

/-- A move leaves the clean-up ahead of the callback. -/
theorem Advance.awaits
    {disk : Files}
    {action : Action}
    (moved : Advance disk call action changed)
    (sound : call.Sound) :
    changed.Sound ∧ changed.Awaits (.removeActive call.filename) ∧
      changed.Clears call.filename := by
  cases moved with
  | failed | refused =>
      refine ⟨Call.sound_of_not_busy id, ?_, .inr ?_⟩ <;>
        simp [Call.Awaits, cleanupAndBroadcastFailure]
  | answered => exact ⟨Call.sound_of_not_busy id, trivial, .inr trivial⟩
  | opened => exact ⟨⟨by simp, by simp⟩, trivial, .inr trivial⟩
  | notOpened | notRead | notWritten =>
      refine ⟨Call.sound_of_not_busy id, ?_, .inr ?_⟩ <;>
        simp [Call.failed, Call.Awaits, catchBlock, cleanupAndBroadcastFailure]
  | read id count chunk stage =>
      refine ⟨⟨fun _ => sound.opened ?_, by simp⟩, trivial, .inr trivial⟩
      rw [stage]
      trivial
  | readAll => exact ⟨Call.sound_of_not_busy id, trivial, .inr trivial⟩
  | checked id count stage =>
      have opened : call.output ≠ none := by
        apply sound.opened
        rw [stage]
        trivial
      cases canceled : call.canceled with
      | false => exact ⟨⟨fun _ => opened, by simp⟩, trivial, .inr trivial⟩
      | true => exact ⟨⟨fun _ => opened, fun _ => rfl⟩, trivial, .inr trivial⟩
  | wrote id count node output stage =>
      obtain ⟨pending, progress, -, after⟩ := afterWrite_spec call count
      rw [after]
      exact ⟨⟨by simp [output], by simp⟩, trivial, .inr trivial⟩
  | closed id ok stage =>
      refine ⟨Call.sound_of_not_busy fun busy => busy, ?_, .inr ?_⟩ <;>
        cases ok <;>
          simp [Call.Awaits, broadcastComplete, finallyBlock, catchBlock,
            cleanupAndBroadcastFailure]
  | deleted id ok stage =>
      refine ⟨Call.sound_of_not_busy fun busy => busy, ?_,
        .inl (sound.canceled stage)⟩
      cases ok with
      | true => exact List.mem_cons_self
      | false =>
          simp [Call.Awaits, catchBlock, cleanupAndBroadcastFailure]

/-- A turn of a callback that still attends to the entries it leaves. -/
theorem Attended.turn
    (attended : Attended world)
    (scripted : Scripted next)
    (turn : Turn world next id call changed)
    (sound : changed.Sound)
    (active : call.filename ∈ next.activeCalls →
      call.Awaits (.removeActive call.filename) →
        changed.Awaits (.removeActive call.filename))
    (ongoing : call.filename ∈ next.ongoingDownloads →
      call.filename ∉ world.ongoingDownloads ∨ call.Clears call.filename →
        changed.Clears call.filename) :
    Attended next where
  scripted := scripted
  main := turn.main ▸ attended.main.turn turn
  sound := by
    intro other found present
    rcases turn.listed_after present with ⟨-, rfl⟩ | ⟨-, before⟩
    · exact sound
    · exact attended.sound other found before
  created := by
    intro other found present stage
    rw [turn.main]
    rcases turn.listed_after present with ⟨-, rfl⟩ | ⟨-, before⟩
    · exact absurd stage turn.begunAfter
    · exact attended.created other found before stage
  active := by
    intro filename present
    have before : filename ∈ world.activeCalls := by
      rcases turn.active with same | ⟨erased, -⟩
      · exact same ▸ present
      · rw [erased, AList.mem_erase] at present
        exact present.2
    obtain ⟨other, found, listed, same, awaits⟩ := attended.active filename before
    by_cases own : other = id
    · subst own
      rw [turn.listed] at listed
      cases listed
      subst same
      exact ⟨other, changed, turn.listed_self, turn.filename,
        active present awaits⟩
    · exact ⟨other, found, turn.listed_other own listed, same, awaits⟩
  ongoing := by
    intro filename present
    rw [turn.main]
    by_cases before : filename ∈ world.ongoingDownloads
    · rcases attended.ongoing filename before with
        ⟨other, found, listed, same, clears⟩ | making
      · left
        by_cases own : other = id
        · subst own
          rw [turn.listed] at listed
          cases listed
          subst same
          exact ⟨other, changed, turn.listed_self, turn.filename,
            ongoing present (.inr clears)⟩
        · exact ⟨other, found, turn.listed_other own listed, same, clears⟩
      · exact .inr making
    · left
      have own : filename = call.filename := by
        rcases turn.ongoing with same | ⟨progress, inserted⟩ | ⟨erased, -⟩
        · exact absurd (same ▸ present) before
        · rw [inserted, AList.mem_insert] at present
          exact present.resolve_right before
        · rw [erased, AList.mem_erase] at present
          exact absurd present.2 before
      subst own
      exact ⟨id, changed, turn.listed_self, turn.filename,
        ongoing present (.inl before)⟩

/-- What is left of the last statements, but for the one that has run. -/
theorem Call.Awaits.of_cleanUp
    {statement other : Statement}
    {rest : List Statement}
    (awaits : call.Awaits other)
    (stage : call.stage = .ending (statement :: rest))
    (different : statement ≠ other)
    (later : List Statement) :
    Call.Awaits { call with stage := .ending (later ++ rest) } other := by
  rw [Call.Awaits, stage] at awaits
  exact List.mem_append_right _
    ((List.mem_cons.mp awaits).resolve_left (Ne.symm different))

/-- A statement at the end of a callback. -/
theorem Attended.cleanUp
    (attended : Attended world)
    {statement : Statement}
    {rest : List Statement}
    (listed : world.calls[id]? = some call)
    (stage : call.stage = .ending (statement :: rest)) :
    Attended
      ((world.exec call.service statement).1.modifyCall id fun running =>
        { running with
          stage := .ending ((world.exec call.service statement).2 ++ rest) }) := by
  have scripted := attended.scripted id call listed
  have turn := Turn.of_cleanUp listed scripted stage
  rw [Call.Scripted, stage] at scripted
  have foreign : ¬statement.Enters call.filename :=
    (scripted statement List.mem_cons_self).not_enters
  refine attended.turn (scripted_step attended.scripted
    (.cleanUp id call statement rest listed stage)) turn
    (Call.sound_of_not_busy fun busy => busy) ?_ ?_
  · intro present awaits
    exact awaits.of_cleanUp stage
      (Statement.active_of_exec world call.service foreign present).2 _
  · intro present clears
    obtain ⟨before, different⟩ :=
      Statement.ongoing_of_exec world call.service foreign present
    rcases clears with absent | canceled | awaits
    · exact absurd before absent
    · exact .inl canceled
    · exact .inr (awaits.of_cleanUp stage different _)

end Callbacks

section Main

variable {world : World}
variable {statement : Statement}
variable {rest : List Statement}

/-- A call of the file stays with what it awaits under a statement of the main
thread. -/
theorem MainEffect.call_after
    {next : World}
    (effect : MainEffect world next statement)
    {id : Nat}
    {call : Call}
    (listed : world.calls[id]? = some call) :
    ∃ found, next.calls[id]? = some found ∧
      found.filename = call.filename ∧
        (call.canceled = true → found.canceled = true) ∧
          ∀ other, call.Awaits other → found.Awaits other := by
  have modified {target : Nat} {change : Call → Call}
      (calls : next.calls = world.calls.modify target change) :
      next.calls[id]? =
        some (if target = id then change call else call) := by
    rw [calls, List.getElem?_modify, listed]
    split <;> rfl
  cases effect with
  | made model calls =>
      refine ⟨call, ?_, rfl, fun same => same, fun _ same => same⟩
      rw [calls, List.getElem?_append_left
        (List.getElem?_eq_some_iff.mp listed).1]
      exact listed
  | enqueued target calls =>
      refine ⟨_, modified calls, ?_⟩
      by_cases here : target = id
      · rw [if_pos here]
        by_cases created : call.stage = .created
        · rw [if_pos created]
          exact ⟨rfl, fun same => same, fun _ _ => trivial⟩
        · rw [if_neg created]
          exact ⟨rfl, fun same => same, fun _ same => same⟩
      · rw [if_neg here]
        exact ⟨rfl, fun same => same, fun _ same => same⟩
  | canceled target calls =>
      refine ⟨_, modified calls, ?_⟩
      by_cases here : target = id
      · rw [if_pos here]
        exact ⟨rfl, fun _ => rfl, fun _ same => same⟩
      · rw [if_neg here]
        exact ⟨rfl, fun same => same, fun _ same => same⟩
  | kept _ calls =>
      exact ⟨call, calls ▸ listed, rfl, fun same => same, fun _ same => same⟩

/-- A call that is made is about to be enqueued. -/
theorem enqueue_mem_exec
    (created : ∀ (id : Nat) (call : Call), world.calls[id]? = some call →
      call.stage = .created → .enqueue id ∈ statement :: rest)
    {this id : Nat}
    {found : Call}
    (present : (world.exec this statement).1.calls[id]? = some found)
    (stage : found.stage = .created) :
    .enqueue id ∈ (world.exec this statement).2 ++ rest := by
  have same (calls : (world.exec this statement).1.calls = world.calls)
      (notEnqueue : ∀ target, statement ≠ .enqueue target) :
      .enqueue id ∈ (world.exec this statement).2 ++ rest := by
    rw [calls] at present
    exact List.mem_append_right _
      ((List.mem_cons.mp (created id found present stage)).resolve_left
        (Ne.symm (notEnqueue id)))
  cases statement with
  | newCall model =>
      rcases listed_append present with old | ⟨rfl, -⟩
      · exact List.mem_append_right _
          ((List.mem_cons.mp (created id found old stage)).resolve_left (by simp))
      · exact List.mem_cons_of_mem _ List.mem_cons_self
  | enqueue target =>
      obtain ⟨before, listed, rfl⟩ := listed_modify present
      by_cases here : id = target
      · rw [if_pos here] at stage
        split at stage
        case isTrue => cases stage
        case isFalse begun => exact absurd stage begun
      · rw [if_neg here] at stage
        refine (List.mem_cons.mp (created id before listed stage)).resolve_left ?_
        simpa using here
  | cancel target =>
      obtain ⟨before, listed, rfl⟩ := listed_modify present
      have before_stage : before.stage = .created := by
        split at stage <;> exact stage
      exact (List.mem_cons.mp (created id before listed before_stage)).resolve_left
        (by simp)
  | getActive | ifIdle | ifHeld | release | stopSelf =>
      refine same ?_ (by simp)
      simp only [World.exec]
      split <;> rfl
  | _ => exact same rfl (by simp)

/-- What is registered after a statement was put by it or registered before. -/
theorem registered_of_exec
    {this : Nat}
    {filename : JString} :
    (filename ∈ (world.exec this statement).1.activeCalls →
        (∃ id, statement = .putActive filename id) ∨
          filename ∈ world.activeCalls) ∧
      (filename ∈ (world.exec this statement).1.ongoingDownloads →
        (∃ progress, statement = .putOngoing filename progress) ∨
          filename ∈ world.ongoingDownloads) := by
  cases statement with
  | putActive name id =>
      refine ⟨fun present => ?_, .inr⟩
      rcases (AList.mem_insert _).mp present with rfl | before
      · exact .inl ⟨id, rfl⟩
      · exact .inr before
  | putOngoing name progress =>
      refine ⟨.inr, fun present => ?_⟩
      rcases (AList.mem_insert _).mp present with rfl | before
      · exact .inl ⟨progress, rfl⟩
      · exact .inr before
  | removeActive name =>
      exact ⟨fun present => .inr (AList.mem_erase.mp present).2, .inr⟩
  | removeOngoing name =>
      exact ⟨.inr, fun present => .inr (AList.mem_erase.mp present).2⟩
  | getActive | ifIdle | ifHeld | release | stopSelf =>
      simp only [World.exec]
      split <;> exact ⟨.inr, .inr⟩
  | _ => exact ⟨.inr, .inr⟩

/-- The main thread registers as active the call that it has made. -/
theorem MainTidy.putActive
    {filename : JString}
    {id : Nat}
    (tidy : MainTidy world (.putActive filename id :: rest)) :
    ∃ call, world.calls[id]? = some call ∧ call.filename = filename ∧
      call.stage = .created := by
  generalize equal : Statement.putActive filename id :: rest = queue at tidy
  cases tidy with
  | starting model before kinds =>
      cases before with
      | nil => cases (List.cons.inj equal).1
      | cons first before =>
          obtain ⟨rfl, -⟩ := List.cons.inj equal
          exact (kinds _ List.mem_cons_self).elim
  | entering other call listed created =>
      obtain ⟨same, -⟩ := List.cons.inj equal
      cases same
      exact ⟨call, listed, rfl, created⟩
  | quiet _ closed =>
      subst equal
      exact absurd rfl (closed _ List.mem_cons_self filename)

/-- The main thread registers as downloading the file of the call that it is
about to make. -/
theorem MainTidy.putOngoing
    {filename : JString}
    {progress : JInt}
    (tidy : MainTidy world (.putOngoing filename progress :: rest)) :
    ∃ model : Model, .newCall model ∈ rest ∧ model.filename = filename := by
  generalize equal : Statement.putOngoing filename progress :: rest = queue at tidy
  cases tidy with
  | starting model before kinds =>
      cases before with
      | nil => cases (List.cons.inj equal).1
      | cons first before =>
          obtain ⟨rfl, rfl⟩ := List.cons.inj equal
          exact ⟨model, List.mem_append_right _ (List.mem_singleton_self _),
            (kinds _ List.mem_cons_self).symm⟩
  | entering => cases (List.cons.inj equal).1
  | quiet _ closed =>
      subst equal
      exact absurd rfl (closed _ List.mem_cons_self filename)

/-- A file that is active after a statement of the main thread has a call that
takes it out. -/
theorem Attended.active_of_main
    (attended : Attended world)
    (queued : world.main = statement :: rest)
    {filename : JString}
    (present : filename ∈ (world.exec world.services statement).1.activeCalls) :
    ∃ (id : Nat) (call : Call), world.calls[id]? = some call ∧
      call.filename = filename ∧ call.Awaits (.removeActive filename) := by
  have tidy : MainTidy world (statement :: rest) := queued ▸ attended.main
  rcases registered_of_exec.1 present with ⟨id, rfl⟩ | before
  · obtain ⟨call, listed, same, created⟩ := tidy.putActive
    refine ⟨id, call, listed, same, ?_⟩
    rw [Call.Awaits, created]
    trivial
  · exact attended.active filename before

/-- A file that is downloading after a statement of the main thread has a call
that takes it out, or one is about to be made. -/
theorem Attended.ongoing_of_main
    (attended : Attended world)
    (queued : world.main = statement :: rest)
    {filename : JString}
    (present :
      filename ∈ (world.exec world.services statement).1.ongoingDownloads) :
    (∃ (id : Nat) (call : Call), world.calls[id]? = some call ∧
      call.filename = filename ∧ call.Clears filename) ∨
      ∃ model : Model, .newCall model ∈ statement :: rest ∧
        model.filename = filename := by
  have tidy : MainTidy world (statement :: rest) := queued ▸ attended.main
  rcases registered_of_exec.2 present with ⟨progress, rfl⟩ | before
  · obtain ⟨model, making, same⟩ := tidy.putOngoing
    exact .inr ⟨model, List.mem_cons_of_mem _ making, same⟩
  · exact queued ▸ attended.ongoing filename before

/-- Every statement of the main thread. -/
theorem Attended.main_step
    (attended : Attended world)
    (queued : world.main = statement :: rest) :
    Attended
      { (world.exec world.services statement).1 with
        main := (world.exec world.services statement).2 ++ rest } := by
  have tidy : MainTidy world (statement :: rest) := queued ▸ attended.main
  have effect := mainEffect_exec world statement
    ((world.exec world.services statement).2 ++ rest)
  constructor
  case scripted => exact scripted_step attended.scripted (.main _ _ queued)
  case main => exact tidy.main_step
  case sound =>
    intro id found present
    rcases effect.listed present with ⟨_, _, rfl⟩ |
      ⟨before, listed, rfl | ⟨_, rfl⟩ | ⟨_, rfl⟩⟩
    · exact Call.sound_of_not_busy fun busy => busy
    · exact attended.sound id found listed
    · exact Call.sound_of_not_busy fun busy => busy
    · exact ⟨(attended.sound id before listed).opened, fun _ => rfl⟩
  case created =>
    intro id found present stage
    exact enqueue_mem_exec (queued ▸ attended.created) present stage
  case active =>
    intro filename present
    obtain ⟨id, call, listed, same, awaits⟩ :=
      attended.active_of_main queued present
    obtain ⟨found, after, name, -, still⟩ := effect.call_after listed
    exact ⟨id, found, after, name.trans same, still _ awaits⟩
  case ongoing =>
    intro filename present
    rcases attended.ongoing_of_main queued present with
      ⟨id, call, listed, same, clears⟩ | ⟨model, making, same⟩
    · obtain ⟨found, after, name, canceled, still⟩ := effect.call_after listed
      exact .inl ⟨id, found, after, name.trans same,
        clears.imp canceled (still _)⟩
    · -- the call of the file is made now, or still to be made
      rcases List.mem_cons.mp making with rfl | later
      · exact .inl ⟨world.calls.length, _, List.getElem?_concat_length, same,
          .inr trivial⟩
      · exact .inr ⟨model, List.mem_append_right _ later, same⟩

/-- Where calls and registries stay and the main thread was idle. -/
theorem Attended.of_idle
    {next : World}
    (attended : Attended world)
    (idle : world.main = [])
    (calls : next.calls = world.calls)
    (active : next.activeCalls = world.activeCalls)
    (ongoing : next.ongoingDownloads = world.ongoingDownloads)
    (main : MainTidy next next.main) :
    Attended next where
  scripted := by
    rw [Scripted, calls]
    exact attended.scripted
  main := main
  sound := calls ▸ attended.sound
  created := by
    intro id call listed stage
    have enqueued := attended.created id call (calls ▸ listed) stage
    rw [idle] at enqueued
    exact absurd enqueued List.not_mem_nil
  active := by
    rw [active, calls]
    exact attended.active
  ongoing := by
    intro filename present
    rw [calls]
    rcases attended.ongoing filename (ongoing ▸ present) with called | making
    · exact .inl called
    · obtain ⟨model, making, -⟩ := making
      rw [idle] at making
      exact absurd making List.not_mem_nil

/-- A command leaves the main thread a script of its own. -/
theorem mainTidy_command
    (idle : world.main = [])
    (intent : Intent) :
    MainTidy (world.onStartCommand intent) (world.onStartCommand intent).main := by
  rcases (commanded_onStartCommand world intent).main with
    ⟨model, -, -, main⟩ | ⟨name, -, main⟩ | main
  · rw [main]
    exact .starting model
      ([.acquire, .putOngoing model.filename 0] ++
        broadcastProgress model.filename 0)
      (by simp [broadcastProgress, Statement.Starting])
  · rw [main]
    exact mainTidy_cancelDownload name
  · rw [main, idle]
    exact .quiet _ fun _ present => absurd present List.not_mem_nil

end Main

section Runs

variable {world next : World}
variable {action : Action}

/-- Every step keeps the calls and the registries attended to. -/
theorem Attended.step
    (attended : Attended world)
    (fired : world.step action = some next) :
    Attended next := by
  have moves := (moves_of_step fired).2
  have scripted := scripted_step attended.scripted moves
  cases moves with
  | command intent idle =>
      have commanded := commanded_onStartCommand world intent
      exact attended.of_idle idle commanded.calls commanded.active
        commanded.ongoing (mainTidy_command idle intent)
  | main statement rest queued => exact attended.main_step queued
  | destroy idle =>
      refine attended.of_idle idle rfl rfl rfl
        (.quiet _ fun statement present name enters => ?_)
      rw [List.mem_singleton.mp present] at enters
      exact enters
  | deleteModel name idle =>
      refine attended.of_idle idle rfl rfl rfl ?_
      change MainTidy _ world.main
      rw [idle]
      exact .quiet _ fun _ present => absurd present List.not_mem_nil
  | progress id call statement rest listed stage =>
      have sound := attended.sound id call listed
      refine attended.turn scripted
        (.of_report listed (attended.scripted id call listed) stage) ?_
        (fun _ _ => trivial) (fun _ _ => .inr trivial)
      refine ⟨fun _ => sound.opened ?_, by simp⟩
      rw [stage]
      trivial
  | cleanUp id call statement rest listed stage =>
      exact attended.cleanUp listed stage
  | advance action id call changed known listed moved =>
      obtain ⟨sound, active, clears⟩ := moved.awaits (attended.sound id call listed)
      exact attended.turn scripted (.of_advance listed moved) sound
        (fun _ _ => active) (fun _ _ => clears)

theorem attended_start
    (disk : Files) :
    Attended (start disk) where
  scripted := fun id call listed => absurd listed (by simp [start])
  main := .quiet _ fun _ present => absurd present List.not_mem_nil
  sound := fun id call listed => absurd listed (by simp [start])
  created := fun id call listed => absurd listed (by simp [start])
  active := fun _ present => absurd present (AList.notMem_empty _)
  ongoing := fun _ present => absurd present (AList.notMem_empty _)

/-- The service has nothing left to do. -/
structure Rested (world : World) : Prop where
  main : world.main = []
  calls : ∀ call ∈ world.calls, call.stage = .ended
  stopped : (world.alive && world.stopping) = false
  active : world.activeCalls = ∅
  ongoing : ∀ filename ∈ world.ongoingDownloads,
    ∃ call ∈ world.calls, call.filename = filename ∧ call.canceled = true

/-- A callback that has not ended can go on. -/
theorem Attended.ended_of_atRest
    (attended : Attended world)
    (living : world.crashed = false)
    (idle : world.main = [])
    (rests : machine.AtRest Action.Own world)
    {id : Nat}
    {call : Call}
    (listed : world.calls[id]? = some call) :
    call.stage = .ended := by
  have stuck (action : Action) (mine : action.Own)
      (known : action.call? = some id) : world.callStep id call action = none := by
    have rest := rests action mine
    simp only [machine, World.step, living, known, listed, Bool.false_eq_true,
      if_false] at rest
    exact rest
  cases stage : call.stage with
  | created =>
      have enqueued := attended.created id call listed stage
      rw [idle] at enqueued
      exact absurd enqueued List.not_mem_nil
  | enqueued =>
      have rest := stuck (.onFailure id) trivial rfl
      simp [World.callStep, stage] at rest
  | opening =>
      have rest := stuck (.openOutput id false) trivial rfl
      simp [World.callStep, stage] at rest
  | looping pending =>
      cases pending with
      | nil =>
          have rest := stuck (.read id .throws) trivial rfl
          simp [World.callStep, stage] at rest
      | cons statement pending =>
          have rest := stuck (.callback id) trivial rfl
          simp [World.callStep, stage] at rest
  | checking count =>
      have rest := stuck (.check id) trivial rfl
      simp [World.callStep, stage] at rest
  | writing count =>
      have busy : call.stage.Busy := by
        rw [stage]
        trivial
      obtain ⟨node, output⟩ :=
        Option.ne_none_iff_exists'.mp ((attended.sound id call listed).opened busy)
      have rest := stuck (.write id .ok) trivial rfl
      simp [World.callStep, stage, output] at rest
  | closing =>
      have rest := stuck (.close id true) trivial rfl
      simp [World.callStep, stage] at rest
  | deleting =>
      have rest := stuck (.delete id true) trivial rfl
      simp [World.callStep, stage] at rest
  | ending rest =>
      cases rest with
      | nil => rfl
      | cons statement rest =>
          have rest := stuck (.callback id) trivial rfl
          simp [World.callStep, stage] at rest

/-- Where no thread, answer or system action is left, the service has rested or
the process has crashed. -/
theorem Attended.rested
    (attended : Attended world)
    (rests : machine.AtRest Action.Own world) :
    world.crashed = true ∨ Rested world := by
  cases living : world.crashed with
  | true => exact .inl rfl
  | false =>
      right
      have stuck (action : Action) (mine : action.Own)
          (known : action.call? = none) : world.mainStep action = none := by
        have rest := rests action mine
        simp only [machine, World.step, living, known, Bool.false_eq_true,
          if_false] at rest
        exact rest
      have idle : world.main = [] := by
        cases queued : world.main with
        | nil => rfl
        | cons statement rest =>
            have rest := stuck .main trivial rfl
            simp [World.mainStep, queued] at rest
      have ended : ∀ call ∈ world.calls, call.stage = .ended := by
        intro call member
        obtain ⟨id, listed⟩ := List.mem_iff_getElem?.mp member
        exact attended.ended_of_atRest living idle rests listed
      constructor
      case main => exact idle
      case calls => exact ended
      case stopped =>
        cases stopped : world.alive && world.stopping with
        | false => rfl
        | true =>
            have rest := stuck .onDestroy trivial rfl
            simp [World.mainStep, idle, stopped] at rest
      case active =>
        apply AList.ext
        apply List.eq_nil_iff_forall_not_mem.mpr
        intro entry member
        have present : entry.1 ∈ world.activeCalls :=
          List.mem_map_of_mem member
        obtain ⟨id, call, listed, -, awaits⟩ := attended.active entry.1 present
        rw [Call.Awaits, ended call (List.mem_of_getElem? listed)] at awaits
        exact absurd awaits List.not_mem_nil
      case ongoing =>
        intro filename present
        rcases attended.ongoing filename present with
          ⟨id, call, listed, same, canceled | awaits⟩ | ⟨model, making, -⟩
        · exact ⟨call, List.mem_of_getElem? listed, same, canceled⟩
        · rw [Call.Awaits, ended call (List.mem_of_getElem? listed)] at awaits
          exact absurd awaits List.not_mem_nil
        · rw [idle] at making
          exact absurd making List.not_mem_nil

/-- In every state that a run reaches, the service cannot go on for ever without
the user; some way leads to a state where nothing is left to do; and in such a
state every callback has ended, no call is active, and a file is registered as
downloading only where its download was cancelled. -/
theorem comes_to_rest
    {disk : Files}
    {actions : List Action}
    (ran : machine.run (start disk) actions = some world) :
    machine.Halts Action.Own world ∧
      (∃ later finish, (∀ action ∈ later, action.Own) ∧
        machine.run world later = some finish ∧
          machine.AtRest Action.Own finish) ∧
        (machine.AtRest Action.Own world →
          world.crashed = true ∨ Rested world) := by
  have attended : Attended world :=
    Machine.run_invariant (fun _ _ _ attended fired => Attended.step attended fired)
      ran (attended_start disk)
  have kept : ∀ state action next, Attended state → action.Own →
      machine.step state action = some next → Attended next :=
    fun _ _ _ attended _ fired => attended.step fired
  have falls : ∀ state action next, Attended state → action.Own →
      machine.step state action = some next → next.rank < state.rank :=
    fun _ _ _ attended mine fired => rank_of_step attended.scripted mine fired
  exact ⟨Machine.halts_of_rank kept falls attended,
    Machine.exists_run_atRest kept falls attended, attended.rested⟩

/-- A download is cancelled in the middle of its copy loop. -/
theorem comes_to_rest_of_cancelled_download :
    ∃ world, machine.run (start Disk.empty)
        (opened miniModel [1, 2, 3, 4] ++
          [.read 0 (.bytes 2),
            .onStartCommand (.cancelDownload (some miniModel.filename)), .main]) =
          some world ∧
      machine.Halts Action.Own world ∧
        (∃ later finish, (∀ action ∈ later, action.Own) ∧
          machine.run world later = some finish ∧
            machine.AtRest Action.Own finish) ∧
          (machine.AtRest Action.Own world →
            world.crashed = true ∨ Rested world) := by
  obtain ⟨world, ran⟩ := Option.isSome_iff_exists.mp
    (show (machine.run (start Disk.empty)
        (opened miniModel [1, 2, 3, 4] ++
          [.read 0 (.bytes 2),
            .onStartCommand (.cancelDownload (some miniModel.filename)),
            .main])).isSome = true by decide +kernel)
  exact ⟨world, ran, comes_to_rest ran⟩

end Runs

end Download
end IdoProject
