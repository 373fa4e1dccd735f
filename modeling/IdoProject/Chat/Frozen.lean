import IdoProject.Chat.Refinement

/-!
# A finalized reply

`stopGeneration` is tested before a token is posted and not when its runnable
runs.  A runnable that is left behind the one that finalizes the generation runs
its whole body again, and so does one whose token passed the test after the next
question reset the flag.  The reply stays as it is exactly when nothing is left
behind.
-/

namespace IdoProject
namespace Chat

open Java Store

/-- What the statements of a runnable do to the shared state, in order. -/
inductive Effect
  | countToken
  | stopGeneration
  | setContent (content : JString)
  | append (token : JString)
  | setStreamToken (token : JString)
  | finalizeGeneration
  | throw
  deriving DecidableEq

/-- Neither the publication of a token nor a finalization. -/
def Effect.silent : Effect → Bool
  | .setStreamToken _ | .finalizeGeneration => false
  | _ => true

namespace App

section Effects

variable (toLowerCase : JString → JString)

/-- Perform one effect for a generation. -/
def perform (index : Nat) (app : App) : Effect → App
  | .countToken => app.withViewModel (app.viewModel.countToken index)
  | .stopGeneration => app.withViewModel app.viewModel.stop
  | .setContent content =>
      app.withViewModel (app.viewModel.setContent
        (app.viewModel.generationAt index).aiMsgObject content)
  | .append token =>
      app.withViewModel { app.viewModel with
        fullResponseBuffer := app.viewModel.fullResponseBuffer ++ token }
  | .setStreamToken token =>
      app.withViewModel { app.viewModel with streamToken := some token }
  | .finalizeGeneration => app.finalizeGeneration index
  | .throw => app.crash

/-- The effects of the runnable of a token. -/
def effects (app : App) (index : Nat) (token : JString) : List Effect :=
  .countToken ::
    match app.verdict toLowerCase index token with
    | .limit => [.stopGeneration, .finalizeGeneration]
    | .cut cleaned => [.stopGeneration, .setContent cleaned, .finalizeGeneration]
    | .outOfBounds => [.stopGeneration, .throw]
    | .extend =>
        [.append token,
          .setContent (app.viewModel.fullResponseBuffer ++ token),
          .setStreamToken token]

/-- `finalizeGeneration` has run for the generation. -/
def Finalized (app : App) (index : Nat) : Prop :=
  ∃ save ∈ app.saves, save.generation = index

/-- The reply of the generation is left alone: its content and the buffer stay,
nothing is published as a token, and it is not finalized again. -/
def ReplyKept (app : App) (index : Nat) (token : JString) : Prop :=
  let next := app.runToken toLowerCase index token
  (next.solo index).content = (app.solo index).content ∧
    (next.solo index).buffer = (app.solo index).buffer ∧
    ∀ effect ∈ app.effects toLowerCase index token, effect.silent

/-- A runnable of a finalized generation leaves its reply alone. -/
def Event.KeepsFinalized (app : App) : Event → Prop
  | .runPosted =>
      ∀ entry ∈ app.viewModel.posted.head?, app.Finalized entry.1 →
        app.ReplyKept toLowerCase entry.1 entry.2
  | _ => True

/-- A token of the generation waits to be posted or to be looked at. -/
def Waiting (app : App) (index : Nat) : Prop :=
  index ∈ app.viewModel.posted.map Prod.fst ∨
    (app.viewModel.generationAt index).posting ≠ none

/-- A runnable that meets a stop string or the limit leaves no token of its
generation behind, and the flow of a finalized generation still finds
`stopGeneration` set when it delivers a token. -/
def Event.LeavesNothing (app : App) : Event → Prop
  | .runPosted =>
      ∀ entry ∈ app.viewModel.posted.head?,
        app.verdict toLowerCase entry.1 entry.2 ≠ .extend →
        app.verdict toLowerCase entry.1 entry.2 ≠ .outOfBounds →
          entry.1 ∉ app.viewModel.posted.tail.map Prod.fst ∧
            (app.viewModel.generationAt entry.1).posting = none
  | .deliver index _ =>
      app.Finalized index → app.viewModel.stopGeneration = true
  | _ => True

end Effects

/-- No token waits of a generation that has been finalized. -/
def NothingLeft (app : App) : Prop :=
  ∀ index, app.Finalized index → ¬app.Waiting index

/-- No token waits at all. -/
def Looked (app : App) : Prop :=
  ∀ index, ¬app.Waiting index

instance (app : App) : DecidablePred app.Finalized := fun index =>
  inferInstanceAs (Decidable (∃ save ∈ app.saves, save.generation = index))

instance
    (toLowerCase : JString → JString)
    (app : App)
    (index : Nat)
    (token : JString) :
    Decidable (app.ReplyKept toLowerCase index token) :=
  inferInstanceAs (Decidable
    (((app.runToken toLowerCase index token).solo index).content =
        (app.solo index).content ∧
      ((app.runToken toLowerCase index token).solo index).buffer =
        (app.solo index).buffer ∧
      ∀ effect ∈ app.effects toLowerCase index token, effect.silent))

instance (toLowerCase : JString → JString) (app : App) :
    DecidablePred (Event.KeepsFinalized toLowerCase app)
  | .runPosted => inferInstanceAs (Decidable
      (∀ entry ∈ app.viewModel.posted.head?, app.Finalized entry.1 →
        app.ReplyKept toLowerCase entry.1 entry.2))
  | .saveSettings _ | .loadChats | .loadMessages _ | .createNewChat
  | .deleteChat _ | .sendMessage _ _ | .deliver _ _ | .post _
  | .endStream _ => inferInstanceAs (Decidable True)

instance (toLowerCase : JString → JString) (app : App) :
    DecidablePred (Event.LeavesNothing toLowerCase app)
  | .runPosted => inferInstanceAs (Decidable
      (∀ entry ∈ app.viewModel.posted.head?,
        app.verdict toLowerCase entry.1 entry.2 ≠ .extend →
        app.verdict toLowerCase entry.1 entry.2 ≠ .outOfBounds →
          entry.1 ∉ app.viewModel.posted.tail.map Prod.fst ∧
            (app.viewModel.generationAt entry.1).posting = none))
  | .deliver index _ => inferInstanceAs (Decidable
      (app.Finalized index → app.viewModel.stopGeneration = true))
  | .saveSettings _ | .loadChats | .loadMessages _ | .createNewChat
  | .deleteChat _ | .sendMessage _ _ | .post _
  | .endStream _ => inferInstanceAs (Decidable True)

section Runnables

variable {toLowerCase : JString → JString}
variable {app next : App}
variable {index other : Nat}
variable {token : JString}

/-- The runnable performs its effects one after the other. -/
theorem runToken_eq_effects :
    app.runToken toLowerCase index token =
      (app.effects toLowerCase index token).foldl (perform index) app := by
  have message : ((app.viewModel.countToken index).generationAt
      index).aiMsgObject = (app.viewModel.generationAt index).aiMsgObject := by
    rw [countToken_generationAt_self]
  rw [runToken_eq, effects]
  cases app.verdict toLowerCase index token with
  | limit => rfl
  | cut cleaned =>
      simp only [List.foldl_cons, List.foldl_nil, perform, App.withViewModel,
        ViewModel.stop]
      rw [message]
  | outOfBounds => rfl
  | extend =>
      simp only [List.foldl_cons, List.foldl_nil, perform, App.withViewModel]
      rw [message]
      rfl

/-- The runnable neither publishes nor finalizes only where it throws. -/
theorem silent_effects_iff :
    (∀ effect ∈ app.effects toLowerCase index token, effect.silent) ↔
      app.verdict toLowerCase index token = .outOfBounds := by
  rw [effects]
  cases app.verdict toLowerCase index token <;> simp [Effect.silent]

theorem crashed_runToken
    (thrown : app.verdict toLowerCase index token = .outOfBounds) :
    (app.runToken toLowerCase index token).crashed = true := by
  rw [runToken_eq, thrown]
  rfl

/-- A runnable that throws leaves no token. -/
theorem not_waiting_runToken
    (thrown : app.verdict toLowerCase index token = .outOfBounds) :
    ¬(app.runToken toLowerCase index token).Waiting other := by
  rw [runToken_eq, thrown]
  rintro (posted | posting)
  · exact List.not_mem_nil posted
  · exact posting rfl

/-- Any other runnable leaves the tokens that wait. -/
theorem waiting_runToken_iff
    (living : app.verdict toLowerCase index token ≠ .outOfBounds) :
    (app.runToken toLowerCase index token).Waiting other ↔
      app.Waiting other := by
  have counted : ((app.viewModel.countToken index).generationAt other).posting =
      (app.viewModel.generationAt other).posting := by
    by_cases same : other = index
    · rw [same, countToken_generationAt_self]
    · exact congrArg Generation.posting (Function.update_of_ne same _ _)
  unfold Waiting
  rw [runToken_eq, ← counted]
  cases verdict : app.verdict toLowerCase index token with
  | limit | cut | extend => exact Iff.rfl
  | outOfBounds => exact absurd verdict living

theorem finalized_finalizeGeneration_iff :
    (app.finalizeGeneration index).Finalized other ↔
      app.Finalized other ∨ other = index := by
  simp only [Finalized, App.finalizeGeneration, List.mem_append,
    List.mem_singleton, or_and_right, exists_or, exists_eq_left]
  exact or_congr_right eq_comm

/-- A runnable finalizes its generation when it meets a stop string or the
limit. -/
theorem finalized_runToken_iff :
    (app.runToken toLowerCase index token).Finalized other ↔
      app.Finalized other ∨
        (other = index ∧ app.verdict toLowerCase index token ≠ .extend ∧
          app.verdict toLowerCase index token ≠ .outOfBounds) := by
  rw [runToken_eq]
  cases app.verdict toLowerCase index token with
  | limit =>
      dsimp only
      rw [finalized_finalizeGeneration_iff]
      simp [Finalized, App.withViewModel]
  | cut cleaned =>
      dsimp only
      rw [finalized_finalizeGeneration_iff]
      simp [Finalized, App.withViewModel]
  | outOfBounds | extend => simp [Finalized, App.crash, App.withViewModel]

end Runnables

section Steps

variable {toLowerCase : JString → JString}
variable {app next : App}
variable {index : Nat}
variable {event : Event}

/-- Nothing that is finalized becomes unfinalized. -/
theorem Finalized.step
    (finalized : app.Finalized index)
    (fired : app.step toLowerCase event = some next) :
    next.Finalized index := by
  obtain ⟨-, fires⟩ := fires_of_step fired
  cases fires with
  | runPosted => exact finalized_runToken_iff.mpr (Or.inl finalized)
  | _ => exact finalized

/-- Whose tokens wait when the variables of one generation are written back. -/
theorem waiting_setGeneration_iff
    (target : Nat)
    (generation : Generation)
    (posted : List (Nat × JString)) :
    (app.withViewModel
        { app.viewModel.setGeneration target generation with
          posted := posted }).Waiting index ↔
      index ∈ posted.map Prod.fst ∨
        (if index = target then generation.posting
          else (app.viewModel.generationAt index).posting) ≠ none := by
  unfold Waiting App.withViewModel ViewModel.setGeneration
  dsimp only
  rw [Function.update_apply]
  split <;> rfl

/-- Whose tokens wait after an event that leaves the runnables alone. -/
theorem waiting_step_iff
    (notRun : event ≠ .runPosted)
    (wellFormed : app.WellFormed)
    (fired : app.step toLowerCase event = some next) :
    next.Waiting index ↔ app.Waiting index ∨
      ∃ token, event = .deliver index token ∧
        app.viewModel.stopGeneration = false := by
  have unchanged {after : App} (same : after.Waiting index ↔ app.Waiting index)
      (other : ∀ token, event ≠ .deliver index token) :
      after.Waiting index ↔ app.Waiting index ∨
        ∃ token, event = .deliver index token ∧
          app.viewModel.stopGeneration = false := by
    rw [same]
    refine (or_iff_left ?_).symm
    rintro ⟨token, delivered, -⟩
    exact other token delivered
  obtain ⟨-, fires⟩ := fires_of_step fired
  cases fires with
  | saveSettings | loadChats | loadMessages | createNewChat | deleteChat =>
      exact unchanged Iff.rfl (fun _ => Event.noConfusion)
  | sendMessage userText chatId =>
      refine unchanged ?_ (fun _ => Event.noConfusion)
      refine or_congr Iff.rfl ?_
      by_cases new : index = app.viewModel.nextGeneration
      · rw [new, wellFormed.future _ (Nat.le_refl _)]
        exact not_congr (by
          rw [show (app.withViewModel (app.viewModel.sendMessage app.prefs
            userText chatId)).viewModel = app.viewModel.sendMessage app.prefs
            userText chatId from rfl, sendMessage_generationAt_new])
      · exact not_congr (by
          rw [show (app.withViewModel (app.viewModel.sendMessage app.prefs
            userText chatId)).viewModel.generationAt index =
              app.viewModel.generationAt index from
            Function.update_of_ne new _ _])
  | deliver target token started streaming free =>
      refine (waiting_setGeneration_iff target _ app.viewModel.posted).trans ?_
      unfold Waiting
      by_cases own : index = target
      case neg => simp [own, Ne.symm own]
      case pos =>
        subst own
        cases stopped : app.viewModel.stopGeneration <;> simp [free]
  | post target token holds =>
      refine unchanged ?_ (fun _ => Event.noConfusion)
      refine (waiting_setGeneration_iff target _ _).trans ?_
      unfold Waiting
      by_cases own : index = target
      · rw [own, holds]
        simp
      · simp [own]
  | endStream target streaming free =>
      refine unchanged ?_ (fun _ => Event.noConfusion)
      refine (waiting_setGeneration_iff target _ app.viewModel.posted).trans ?_
      unfold Waiting
      split
      case isTrue own => rw [own]
      case isFalse => rfl
  | runPosted => exact absurd rfl notRun

/-- A step that looks at a token. -/
theorem exists_queued_of_run
    (fired : app.step toLowerCase .runPosted = some next) :
    ∃ index token rest, app.viewModel.posted = (index, token) :: rest ∧
      next = (app.withViewModel
        { app.viewModel with posted := rest }).runToken toLowerCase index
          token := by
  obtain ⟨-, fires⟩ := fires_of_step fired
  cases fires with
  | runPosted index token rest queued => exact ⟨index, token, rest, queued, rfl⟩

/-- Whose tokens wait before a runnable is taken from the queue. -/
theorem waiting_iff_of_queued
    {token : JString}
    {rest : List (Nat × JString)}
    {other : Nat}
    (queued : app.viewModel.posted = (index, token) :: rest) :
    app.Waiting other ↔ other = index ∨
      (app.withViewModel
        { app.viewModel with posted := rest }).Waiting other := by
  unfold Waiting App.withViewModel
  rw [queued, List.map_cons, List.mem_cons, or_assoc]

/-- As long as a finalization leaves nothing, no token waits of a generation
that has been finalized. -/
theorem NothingLeft.step
    (wellFormed : app.WellFormed)
    (nothing : app.NothingLeft)
    (leaves : event.LeavesNothing toLowerCase app)
    (fired : app.step toLowerCase event = some next) :
    next.NothingLeft := by
  intro index finalized waiting
  by_cases run : event = .runPosted
  case neg =>
    have before : app.Finalized index := by
      obtain ⟨-, fires⟩ := fires_of_step fired
      cases fires with
      | runPosted => exact absurd rfl run
      | _ => exact finalized
    rcases (waiting_step_iff run wellFormed fired).mp waiting with
      still | ⟨token, rfl, going⟩
    · exact nothing index before still
    · rw [show app.viewModel.stopGeneration = true from leaves before] at going
      cases going
  case pos =>
    subst run
    obtain ⟨target, token, rest, queued, rfl⟩ := exists_queued_of_run fired
    have living : (app.withViewModel { app.viewModel with posted := rest }
        ).verdict toLowerCase target token ≠ .outOfBounds :=
      fun thrown => not_waiting_runToken thrown waiting
    rw [waiting_runToken_iff living] at waiting
    rcases finalized_runToken_iff.mp finalized with before | ⟨rfl, ends, -⟩
    · exact nothing index before
        ((waiting_iff_of_queued queued).mpr (Or.inr waiting))
    · -- The runnable finalizes its generation and leaves nothing of it.
      have behind := leaves (index, token) (by rw [queued]; rfl) ends living
      rw [queued] at behind
      exact waiting.elim behind.1 (fun posting => posting behind.2)

/-- Where nothing waits of a finalized generation, no runnable of one runs. -/
theorem NothingLeft.keepsFinalized
    (nothing : app.NothingLeft) :
    event.KeepsFinalized toLowerCase app := by
  cases event with
  | runPosted =>
      intro entry first finalized
      refine absurd (Or.inl ?_) (nothing entry.1 finalized)
      exact List.mem_map_of_mem (List.mem_of_mem_head? first)
  | _ => trivial

/-- Where nothing waits of a finalized generation after a step that does not
throw, nothing waited before, and the step left nothing. -/
theorem NothingLeft.back
    (wellFormed : app.WellFormed)
    (keeps : event.KeepsFinalized toLowerCase app)
    (fired : app.step toLowerCase event = some next)
    (living : next.crashed = false)
    (nothing : next.NothingLeft) :
    app.NothingLeft ∧ event.LeavesNothing toLowerCase app := by
  by_cases run : event = .runPosted
  case neg =>
    have waits (index : Nat) (before : app.Finalized index) :
        ¬(app.Waiting index ∨ ∃ token, event = .deliver index token ∧
          app.viewModel.stopGeneration = false) := by
      rw [← waiting_step_iff run wellFormed fired]
      exact nothing index (before.step fired)
    refine ⟨fun index before waiting => waits index before (Or.inl waiting), ?_⟩
    cases event with
    | runPosted => exact absurd rfl run
    | deliver index token =>
        intro before
        by_contra going
        exact waits index before
          (Or.inr ⟨token, rfl, Bool.not_eq_true _ ▸ going⟩)
    | _ => trivial
  case pos =>
    subst run
    obtain ⟨target, token, rest, queued, rfl⟩ := exists_queued_of_run fired
    have alive : (app.withViewModel { app.viewModel with posted := rest }
        ).verdict toLowerCase target token ≠ .outOfBounds := by
      intro thrown
      rw [crashed_runToken thrown] at living
      cases living
    have unfinalized : ¬app.Finalized target := by
      intro finalized
      obtain ⟨-, -, silent⟩ := keeps (target, token) (by rw [queued]; rfl)
        finalized
      exact alive (silent_effects_iff.mp silent)
    constructor
    · intro index before waiting
      apply nothing index (before.step fired)
      rw [waiting_runToken_iff alive]
      rcases (waiting_iff_of_queued queued).mp waiting with rfl | still
      · exact absurd before unfinalized
      · exact still
    · rintro entry first ends -
      rw [queued, List.head?_cons, Option.mem_some_iff] at first
      subst first
      rw [queued, List.tail_cons]
      have done := nothing target
        (finalized_runToken_iff.mpr (Or.inr ⟨rfl, ends, alive⟩))
      rw [waiting_runToken_iff alive] at done
      exact ⟨fun posted => done (Or.inl posted),
        not_not.mp fun posting => done (Or.inr posting)⟩

end Steps

section Runs

variable {toLowerCase : JString → JString}
variable {start finish : App}
variable {events : List Event}

/-- Where every finalization leaves nothing, no runnable touches a finalized
reply. -/
theorem keepsFinalized_of_leavesNothing
    (wellFormed : start.WellFormed)
    (nothing : start.NothingLeft)
    (leaves : (machine toLowerCase).Guarded
      (fun app event => event.LeavesNothing toLowerCase app) start events) :
    (machine toLowerCase).Guarded
      (fun app event => event.KeepsFinalized toLowerCase app) start events :=
  Transition.Machine.guarded_mono
    (fun (app : App) _ _ (holds : app.WellFormed ∧ app.NothingLeft) leaves
        fired =>
      ⟨holds.1.step fired, holds.2.step holds.1 leaves fired⟩)
    (fun _ _ holds _ => holds.2.keepsFinalized)
    leaves ⟨wellFormed, nothing⟩

/-- In a run at whose end every token has been looked at, the converse holds as
well. -/
theorem leavesNothing_of_keepsFinalized
    (ran : (machine toLowerCase).run start events = some finish)
    (wellFormed : start.WellFormed)
    (living : finish.crashed = false)
    (looked : finish.Looked)
    (keeps : (machine toLowerCase).Guarded
      (fun app event => event.KeepsFinalized toLowerCase app) start events) :
    (start.crashed = false ∧ start.NothingLeft) ∧
      (machine toLowerCase).Guarded
        (fun app event => event.LeavesNothing toLowerCase app) start
        events := by
  induction events generalizing start with
  | nil =>
      rw [Transition.Machine.run_nil, Option.some.injEq] at ran
      rw [ran]
      exact ⟨⟨living, fun index _ => looked index⟩, trivial⟩
  | cons event events inductionHypothesis =>
      obtain ⟨next, fired, rest⟩ :=
        Transition.Machine.exists_step_of_run_cons ran
      obtain ⟨⟨alive, nothing⟩, later⟩ := inductionHypothesis rest
        (wellFormed.step fired) (keeps.2 next fired)
      obtain ⟨before, leaves⟩ :=
        NothingLeft.back wellFormed keeps.1 fired alive nothing
      refine ⟨⟨(fires_of_step fired).1, before⟩, leaves, fun other also => ?_⟩
      rw [fired] at also
      cases also
      exact later

end Runs

/-- A reply that has been finalized is left alone by every later runnable of its
generation, in every run in which each runnable that meets a stop string or the
limit leaves nothing behind and no flow of a finalized generation finds
`stopGeneration` reset; and in a run at whose end every token has been looked at
only then. -/
theorem keepsFinalized_iff_leavesNothing
    (toLowerCase : JString → JString)
    {prefs : Prefs}
    {files : UserFiles}
    {events : List Event}
    {finish : App}
    (ran : (machine toLowerCase).run { prefs := prefs, files := files } events =
      some finish) :
    ((machine toLowerCase).Guarded
        (fun app event => event.LeavesNothing toLowerCase app)
        { prefs := prefs, files := files } events →
      (machine toLowerCase).Guarded
        (fun app event => event.KeepsFinalized toLowerCase app)
        { prefs := prefs, files := files } events) ∧
    (finish.crashed = false → finish.Looked →
      (machine toLowerCase).Guarded
        (fun app event => event.KeepsFinalized toLowerCase app)
        { prefs := prefs, files := files } events →
      (machine toLowerCase).Guarded
        (fun app event => event.LeavesNothing toLowerCase app)
        { prefs := prefs, files := files } events) := by
  have wellFormed := wellFormed_launch prefs files
  constructor
  · refine keepsFinalized_of_leavesNothing wellFormed ?_
    rintro index ⟨save, present, -⟩
    exact absurd present List.not_mem_nil
  · intro living looked keeps
    exact (leavesNothing_of_keepsFinalized ran wellFormed living looked keeps).2

/-- A token that arrives after the stop string has been looked at is dropped. -/
theorem keepsFinalized_of_late_token :
    (machine toLowerCaseAscii).Guarded
      (fun app event => event.KeepsFinalized toLowerCaseAscii app) {}
      [.sendMessage (jstr "hi") 1, .deliver 0 (jstr "ok###"), .post 0,
        .runPosted, .deliver 0 (jstr "x"), .endStream 0] := by
  obtain ⟨finish, ran⟩ := Option.isSome_iff_exists.mp
    (show ((machine toLowerCaseAscii).run { prefs := {}, files := fun _ => none }
      [.sendMessage (jstr "hi") 1, .deliver 0 (jstr "ok###"), .post 0,
        .runPosted, .deliver 0 (jstr "x"), .endStream 0]).isSome by
          decide +kernel)
  exact (keepsFinalized_iff_leavesNothing toLowerCaseAscii ran).1
    (by decide +kernel)

/-- A token that was posted before the stop string was looked at: its runnable
goes on with the reply that has been saved. -/
theorem finalized_reply_goes_on :
    ¬(machine toLowerCaseAscii).Guarded
      (fun app event => event.KeepsFinalized toLowerCaseAscii app) {}
      [.sendMessage (jstr "hi") 1, .deliver 0 (jstr "ok###"), .post 0,
        .deliver 0 (jstr "x"), .post 0, .runPosted, .runPosted] := by
  decide +kernel

end App

end Chat
end IdoProject
