import IdoProject.Chat.CutIndex
import IdoProject.Chat.Ending

/-!
# The order of the stop strings

A reply ends at the earliest stop string of its text.  `generate` looks for the
stop strings in the order of their list, and again with every token; it cuts at
the earliest one exactly when, in the text up to the token that completes one,
the first string of the list that occurs is also the earliest in the text, and
nothing moves its index.
-/

namespace IdoProject
namespace Chat

open Java

/-- The earliest place of any stop string, ignoring case. -/
def earliestStop (text : JString) : Option Nat :=
  (STOP_TOKENS.filterMap (firstPlace text)).min?

/-- The text before the earliest stop string, or all of it. -/
def cutAtEarliest (text : JString) : JString :=
  match earliestStop text with
  | some place => text.take place
  | none => text

/-- The first stop string of the list that occurs in the text. -/
def leadingStop (text : JString) : Option JString :=
  STOP_TOKENS.find? fun stop => (firstPlace text stop).isSome

/-- The stop string that is found first in the list begins at the earliest place
of any, and no U+0130 stands before it. -/
def InTextOrder (text : JString) : Prop :=
  ∀ stop, leadingStop text = some stop →
    firstPlace text stop = earliestStop text ∧ UndottedBefore text stop

/-- The text up to the first token within the limit that completes a stop string
has its stop strings in text order. -/
def CompletesInOrder
    (maxTokens count : Int)
    (buffer : JString)
    (tokens : List JString) : Prop :=
  ∀ taken ≤ tokens.length, count + taken ≤ maxTokens →
    earliestStop (buffer ++ (tokens.take taken).flatten) ≠ none →
    (∀ fewer < taken,
      earliestStop (buffer ++ (tokens.take fewer).flatten) = none) →
    InTextOrder (buffer ++ (tokens.take taken).flatten)

instance (text : JString) : Decidable (InTextOrder text) :=
  inferInstanceAs (Decidable (∀ stop ∈ leadingStop text,
    firstPlace text stop = earliestStop text ∧ UndottedBefore text stop))

instance
    (maxTokens count : Int)
    (buffer : JString)
    (tokens : List JString) :
    Decidable (CompletesInOrder maxTokens count buffer tokens) :=
  inferInstanceAs (Decidable (∀ taken ≤ tokens.length,
    count + taken ≤ maxTokens →
    earliestStop (buffer ++ (tokens.take taken).flatten) ≠ none →
    (∀ fewer < taken,
      earliestStop (buffer ++ (tokens.take fewer).flatten) = none) →
    InTextOrder (buffer ++ (tokens.take taken).flatten)))

section Earliest

variable {text front stop : JString}
variable {place : Nat}

theorem earliestStop_eq_none_iff :
    earliestStop text = none ↔
      ∀ stop ∈ STOP_TOKENS, firstPlace text stop = none := by
  rw [earliestStop, List.min?_eq_none_iff, List.filterMap_eq_nil_iff]

/-- The earliest place is one of a stop string, and no stop string stands at an
earlier one. -/
theorem earliestStop_eq_some_iff :
    earliestStop text = some place ↔
      (∃ stop ∈ STOP_TOKENS, OccursAt text stop place) ∧
        ∀ stop ∈ STOP_TOKENS, ∀ earlier < place,
          ¬OccursAt text stop earlier := by
  rw [earliestStop, List.min?_eq_some_iff]
  simp only [List.mem_filterMap]
  constructor
  · rintro ⟨⟨stop, member, found⟩, least⟩
    refine ⟨⟨stop, member, (firstPlace_eq_some_iff.mp found).1⟩, ?_⟩
    intro other also earlier less occurs
    cases first : firstPlace text other with
    | none =>
        have within := (occurs.place_le (stop_separate other also).2.2).le
        exact firstPlace_eq_none_iff.mp first earlier within occurs
    | some least_place =>
        have above := least least_place ⟨other, also, first⟩
        exact (firstPlace_eq_some_iff.mp first).2.2 earlier (by omega) occurs
  · rintro ⟨⟨stop, member, occurs⟩, least⟩
    have within := (occurs.place_le (stop_separate stop member).2.2).le
    refine ⟨⟨stop, member, firstPlace_eq_some_iff.mpr
      ⟨occurs, within, least stop member⟩⟩, ?_⟩
    rintro other_place ⟨other, also, first⟩
    by_contra less
    exact least other also other_place (Nat.lt_of_not_le less)
      (firstPlace_eq_some_iff.mp first).1

/-- No stop string stands inside another one. -/
theorem stop_not_inside :
    ∀ stop ∈ STOP_TOKENS, ∀ other ∈ STOP_TOKENS,
      ∀ inside < other.length, 0 < inside →
        ¬toLowerCaseAscii stop <+: (toLowerCaseAscii other).drop inside := by
  decide +kernel

/-- Later text brings no earlier stop string: one that begins earlier and ends
later would have the other inside. -/
theorem earliestStop_append
    (back : JString)
    (first : earliestStop front = some place) :
    earliestStop (front ++ back) = some place := by
  obtain ⟨⟨stop, member, occurs⟩, least⟩ := earliestStop_eq_some_iff.mp first
  refine earliestStop_eq_some_iff.mpr
    ⟨⟨stop, member, occurs.append back⟩, ?_⟩
  intro other also earlier less stands
  have fits := occurs.length_le
  have inside := occurs.place_le (stop_separate stop member).2.2
  by_cases within : earlier + other.length ≤ front.length
  case pos => exact least other also earlier less (stands.of_append within)
  case neg =>
    apply stop_not_inside stop member other also (place - earlier)
      (by omega) (by omega)
    have longer := occurs.append back
    unfold OccursAt toLowerCaseAscii at stands longer
    rw [show place = earlier + (place - earlier) by omega,
      ← List.drop_drop, List.map_drop (i := place - earlier)] at longer
    obtain ⟨rest, equal⟩ := stands
    unfold toLowerCaseAscii
    rw [← equal, List.drop_append_of_le_length (by simp; omega)] at longer
    apply List.prefix_of_prefix_length_le longer (List.prefix_append _ _)
    simp only [List.length_map, List.length_drop]
    omega

end Earliest

section Found

variable {lower : LowerCasing}
variable {text back : JString}
variable {place index : Nat}

/-- The index that `generate` finds belongs to the first string of the list that
occurs. -/
theorem findSome?_map_of_find?
    {stops : List JString}
    {found : JString → Option Nat}
    {moved : Nat → Nat}
    {stop : JString}
    (leading : stops.find? (fun stop => (found stop).isSome) = some stop)
    (first : found stop = some place) :
    stops.findSome? (fun stop => (found stop).map moved) =
      some (moved place) := by
  induction stops with
  | nil => cases leading
  | cons other stops inductionHypothesis =>
      rw [List.findSome?_cons]
      cases here : found other with
      | none =>
          rw [List.find?_cons_of_neg (by simp [here])] at leading
          exact inductionHypothesis leading
      | some early =>
          rw [List.find?_cons_of_pos (by simp [here]), Option.some.injEq]
            at leading
          rw [leading, first, Option.some.injEq] at here
          rw [Option.map_some, here]

theorem findStop_eq :
    findStop lower.toLowerCase text =
      STOP_TOKENS.findSome? fun stop =>
        (firstPlace text stop).map (movedPlace text) := by
  unfold findStop STOP_TOKENS
  simp only [List.findSome?_cons]
  rw [indexOf_stop (by decide), indexOf_stop (by decide),
    indexOf_stop (by decide), indexOf_stop (by decide),
    indexOf_stop (by decide), indexOf_stop (by decide)]
  rfl

theorem findStop_eq_none_iff :
    findStop lower.toLowerCase text = none ↔ earliestStop text = none := by
  rw [findStop_eq, List.findSome?_eq_none_iff, earliestStop_eq_none_iff]
  simp only [Option.map_eq_none_iff]

/-- What is found: the first string of the list that occurs, at the place its
first occurrence is moved to. -/
theorem exists_leadingStop
    (found : findStop lower.toLowerCase text = some index) :
    ∃ stop ∈ STOP_TOKENS, ∃ place, leadingStop text = some stop ∧
      firstPlace text stop = some place ∧ index = movedPlace text place := by
  cases leading : leadingStop text with
  | none =>
      rw [leadingStop, List.find?_eq_none] at leading
      have nowhere : findStop lower.toLowerCase text = none := by
        rw [findStop_eq_none_iff, earliestStop_eq_none_iff]
        intro stop member
        simpa using leading stop member
      rw [nowhere] at found
      cases found
  | some stop =>
      have occurs := List.find?_some leading
      obtain ⟨place, first⟩ := Option.isSome_iff_exists.mp occurs
      refine ⟨stop, List.mem_of_find?_eq_some leading, place, rfl, first, ?_⟩
      rw [findStop_eq, findSome?_map_of_find? leading first,
        Option.some.injEq] at found
      exact found.symm

/-- The cut is the one at the earliest stop string exactly when the stop strings
of the text are in text order. -/
theorem cut_iff_inTextOrder
    (found : findStop lower.toLowerCase text = some index) :
    (index ≤ text.length ∧ text.take index = cutAtEarliest (text ++ back)) ↔
      InTextOrder text := by
  obtain ⟨stop, member, place, leading, first, rfl⟩ := exists_leadingStop found
  obtain ⟨occurs, within, -⟩ := firstPlace_eq_some_iff.mp first
  obtain ⟨earliest, early⟩ : ∃ earliest, earliestStop text = some earliest := by
    rw [← Option.ne_none_iff_exists', ne_eq, ← @findStop_eq_none_iff lower,
      found]
    exact Option.some_ne_none _
  have before : earliest ≤ place := by
    by_contra less
    exact (earliestStop_eq_some_iff.mp early).2 stop member place
      (Nat.lt_of_not_le less) occurs
  have whole : cutAtEarliest (text ++ back) = text.take earliest := by
    rw [cutAtEarliest, earliestStop_append back early]
    exact List.take_append_of_le_length (before.trans within)
  rw [whole]
  constructor
  · rintro ⟨inside, same⟩ other also
    rw [leading, Option.some.injEq] at also
    subst also
    have equal : movedPlace text place = earliest := by
      have lengths := congrArg List.length same
      rw [List.length_take, List.length_take] at lengths
      omega
    have above := @le_movedPlace text place
    have at_place : place = earliest := by omega
    rw [first, early, at_place]
    refine ⟨rfl, fun other_place also => ?_⟩
    rw [first, Option.some.injEq] at also
    rw [← also, ← movedPlace_eq_iff, equal, at_place]
  · intro order
    obtain ⟨same, undotted⟩ := order stop leading
    rw [first, early, Option.some.injEq] at same
    rw [movedPlace_eq_iff.mpr (undotted place first), same]
    exact ⟨before.trans within, rfl⟩

end Found

section Replies

variable {lower : LowerCasing}
variable {maxTokens count : Int}
variable {buffer token : JString}
variable {tokens : List JString}

theorem completesInOrder_cons_of_none
    (unstopped : earliestStop buffer = none) :
    CompletesInOrder maxTokens count buffer (token :: tokens) ↔
      CompletesInOrder maxTokens (count + 1) (buffer ++ token) tokens := by
  constructor
  · intro order taken within below completes earlier
    have one_more := order (taken + 1) (Nat.succ_le_succ within)
      (by push_cast; omega)
    rw [List.take_succ_cons, List.flatten_cons, ← List.append_assoc] at one_more
    apply one_more completes
    intro fewer less
    cases fewer with
    | zero => simpa using unstopped
    | succ fewer =>
        rw [List.take_succ_cons, List.flatten_cons, ← List.append_assoc]
        exact earlier fewer (Nat.lt_of_succ_lt_succ less)
  · intro order taken within below completes earlier
    cases taken with
    | zero => exact absurd (by simpa using unstopped) completes
    | succ taken =>
        rw [List.take_succ_cons, List.flatten_cons, ← List.append_assoc]
          at completes ⊢
        apply order taken (Nat.le_of_succ_le_succ within)
          (by push_cast at below; omega) completes
        intro fewer less
        have one_more := earlier (fewer + 1) (Nat.succ_lt_succ less)
        rwa [List.take_succ_cons, List.flatten_cons, ← List.append_assoc]
          at one_more

theorem completesInOrder_cons_of_some
    (unstopped : earliestStop buffer = none)
    (completes : earliestStop (buffer ++ token) ≠ none)
    (within : count + 1 ≤ maxTokens) :
    CompletesInOrder maxTokens count buffer (token :: tokens) ↔
      InTextOrder (buffer ++ token) := by
  constructor
  · intro order
    have first := order 1 (by simp) (by simpa using within)
    rw [List.take_succ_cons, List.take_zero, List.flatten_singleton] at first
    apply first completes
    intro fewer less
    rw [Nat.lt_one_iff.mp less]
    simpa using unstopped
  · intro order taken _ _ stopped earlier
    rcases Nat.lt_trichotomy taken 1 with none_taken | rfl | more
    · rw [Nat.lt_one_iff.mp none_taken] at stopped
      exact absurd (by simpa using unstopped) stopped
    · simpa using order
    · have first := earlier 1 more
      rw [List.take_succ_cons, List.take_zero, List.flatten_singleton] at first
      exact absurd first completes

/-- Beyond the limit nothing is asked of the tokens. -/
theorem completesInOrder_of_beyond
    (unstopped : earliestStop buffer = none)
    (beyond : maxTokens < count + 1) :
    CompletesInOrder maxTokens count buffer tokens := by
  intro taken _ below completes
  have none_taken : taken = 0 := by omega
  rw [none_taken] at completes
  exact absurd (by simpa using unstopped) completes

/-- What is decided on a text with a stop string. -/
theorem judge_of_found
    {toLowerCase : JString → JString}
    {text : JString}
    {index : Nat}
    (within : count ≤ maxTokens)
    (found : findStop toLowerCase text = some index) :
    judge toLowerCase maxTokens count text =
      if index ≤ text.length then .cut (text.take index) else .outOfBounds := by
  rw [judge, if_neg (by omega), found]
  dsimp only
  unfold substringTo
  by_cases inside : index ≤ text.length
  · rw [if_pos inside, if_pos inside]
  · rw [if_neg inside, if_neg inside]

/-- The reply is the text within the limit cut at its earliest stop string
exactly when the text is completed in order. -/
theorem replyFrom_iff_completesInOrder
    (unstopped : earliestStop buffer = none) :
    ((replyFrom lower.toLowerCase maxTokens count buffer tokens).ending ≠
          .thrown ∧
        (replyFrom lower.toLowerCase maxTokens count buffer tokens).content =
          cutAtEarliest
            (buffer ++ (tokens.take (maxTokens - count).toNat).flatten)) ↔
      CompletesInOrder maxTokens count buffer tokens := by
  have whole : cutAtEarliest buffer = buffer := by
    rw [cutAtEarliest, unstopped]
  induction tokens generalizing count buffer with
  | nil =>
      refine iff_of_true ⟨by simp [replyFrom], by simp [replyFrom, whole]⟩ ?_
      intro taken within _ completes
      rw [Nat.le_zero.mp within] at completes
      exact absurd (by simpa using unstopped) completes
  | cons token tokens inductionHypothesis =>
      rw [replyFrom]
      rcases lt_or_ge maxTokens (count + 1) with beyond | within
      case inl =>
        rw [judge_eq_limit_iff.mpr beyond,
          show (maxTokens - count).toNat = 0 by omega]
        refine iff_of_true ⟨by simp, by simp [whole]⟩ ?_
        exact completesInOrder_of_beyond unstopped beyond
      case inr =>
        have more : (maxTokens - count).toNat =
            (maxTokens - (count + 1)).toNat + 1 := by omega
        rw [more, List.take_succ_cons, List.flatten_cons, ← List.append_assoc]
        cases found : findStop lower.toLowerCase (buffer ++ token) with
        | none =>
            have goes := findStop_eq_none_iff.mp found
            rw [judge_eq_extend_iff.mpr ⟨within, found⟩,
              completesInOrder_cons_of_none unstopped]
            exact inductionHypothesis goes (by rw [cutAtEarliest, goes])
        | some index =>
            have completes : earliestStop (buffer ++ token) ≠ none := by
              rw [ne_eq, ← @findStop_eq_none_iff lower, found]
              exact Option.some_ne_none _
            rw [completesInOrder_cons_of_some unstopped completes within,
              ← @cut_iff_inTextOrder lower (buffer ++ token)
                (tokens.take (maxTokens - (count + 1)).toNat).flatten index
                found, judge_of_found within found]
            by_cases inside : index ≤ (buffer ++ token).length
            case pos =>
              rw [if_pos inside]
              exact ⟨fun both => ⟨inside, both.2⟩,
                fun both => ⟨Ending.noConfusion, both.2⟩⟩
            case neg =>
              rw [if_neg inside]
              exact iff_of_false (fun both => both.1 rfl)
                (fun both => inside both.1)

end Replies

namespace Solo

variable {toLowerCase : JString → JString}
variable {state next : Solo}

/-- A generation whose tokens are delivered in turn: at most one of them waits
for its runnable, and none does once the generation has been stopped. -/
structure Stepwise
    (toLowerCase : JString → JString)
    (state : Solo) : Prop where
  phase : state.Phase toLowerCase False
  single : (state.queue ++ state.posting.toList).length ≤ 1
  quiet : state.stopGeneration = true →
    state.queue = [] ∧ state.posting = none
  unsaid : state.crashed = true → state.isGenerating = true

/-- What a runnable leaves of the queue, and of the flags when it throws. -/
theorem runToken_kept
    (token : JString) :
    ((state.runToken toLowerCase token).queue = state.queue ∨
        (state.runToken toLowerCase token).queue = []) ∧
      ((state.runToken toLowerCase token).posting = state.posting ∨
        (state.runToken toLowerCase token).posting = none) ∧
      ((state.runToken toLowerCase token).crashed = state.crashed ∨
        (state.runToken toLowerCase token).isGenerating =
          state.isGenerating) := by
  unfold runToken
  dsimp only
  split <;> simp

/-- Tokens that are delivered in turn keep it so. -/
theorem Stepwise.step
    {event : Event}
    (stepwise : Stepwise toLowerCase state)
    (inTurn : ∀ token, event = .deliver token → state.queue = [])
    (fired : state.step toLowerCase event = some next) :
    Stepwise toLowerCase next := by
  obtain ⟨alive, fires⟩ := fires_of_step fired
  have timely : Timely state event := by
    cases fires with
    | deliver | post | endStream => trivial
    | run token rest queued =>
        intro stopped
        rw [(stepwise.quiet stopped).1] at queued
        cases queued
  have phase := phase_step (Or.inr timely) stepwise.phase fired
  cases fires with
  | deliver token streaming free =>
      have empty := inTurn token rfl
      refine ⟨phase, ?_, fun stopped => ⟨empty, if_pos stopped⟩, stepwise.unsaid⟩
      dsimp only
      rw [empty]
      split <;> simp
  | post token holds =>
      have single := stepwise.single
      rw [holds] at single
      refine ⟨phase, by simpa using single, fun stopped => ?_, stepwise.unsaid⟩
      rw [(stepwise.quiet stopped).2] at holds
      cases holds
  | endStream => exact { stepwise with phase := phase }
  | run token rest queued =>
      have single := stepwise.single
      rw [queued, List.cons_append, List.length_cons, Nat.succ_le_succ_iff,
        Nat.le_zero, List.length_eq_zero_iff, List.append_eq_nil_iff,
        Option.toList_eq_nil_iff] at single
      obtain ⟨rfl, unposted⟩ := single
      obtain ⟨queue, posting, flags⟩ := @runToken_kept toLowerCase
        { state with queue := [] } token
      have none_queued : ({ state with queue := [] }.runToken toLowerCase
          token).queue = [] := queue.elim id id
      have none_posting : ({ state with queue := [] }.runToken toLowerCase
          token).posting = none := posting.elim (fun same => same.trans unposted) id
      refine ⟨phase, ?_, fun _ => ⟨none_queued, none_posting⟩, ?_⟩
      · rw [none_queued, none_posting]
        exact Nat.zero_le 1
      · intro dead
        -- The runnable that throws was the first one to end the generation.
        have generating : state.isGenerating = true := by
          cases stepwise.phase with
          | running _ _ _ _ _ _ _ _ generating => exact generating
          | limited stopped =>
              rw [(stepwise.quiet stopped).1] at queued
              cases queued
          | cut _ stopped =>
              rw [(stepwise.quiet stopped).1] at queued
              cases queued
          | thrown crashed => exact absurd crashed alive
        rcases flags with same | same
        · exact absurd (same.symm.trans dead) alive
        · exact same.trans generating

/-- When no runnable is left, the generation has thrown exactly when its tokens
make the reply throw. -/
theorem Stepwise.crashed_iff
    (stepwise : Stepwise toLowerCase state)
    (queue : state.queue = [])
    (posting : state.posting = none) :
    state.crashed = true ↔ (state.reply toLowerCase).ending = .thrown := by
  cases stepwise.phase with
  | running ran alive _ delivered unfinished =>
      rw [queue, posting] at delivered
      simp only [Option.toList_none, List.append_nil] at delivered
      simp [alive, reply, delivered, unfinished]
  | limited _ _ settled _ ended =>
      rw [settled]
      refine iff_of_false (fun dead => ?_) Ending.noConfusion
      rw [stepwise.unsaid dead] at ended
      cases ended
  | cut final _ settled _ ended =>
      rw [settled]
      refine iff_of_false (fun dead => ?_) Ending.noConfusion
      rw [stepwise.unsaid dead] at ended
      cases ended
  | thrown dead settled =>
      rw [settled]
      exact iff_of_true dead rfl

end Solo

namespace App

/-- A token is delivered when the runnables of the earlier ones have run. -/
def Event.InTurn (app : App) : Event → Prop
  | .deliver _ _ => app.viewModel.posted = []
  | _ => True

instance (app : App) : DecidablePred (Event.InTurn app)
  | .deliver _ _ => inferInstanceAs (Decidable (app.viewModel.posted = []))
  | .saveSettings _ | .loadChats | .loadMessages _ | .createNewChat
  | .deleteChat _ | .sendMessage _ _ | .post _ | .endStream _
  | .runPosted => inferInstanceAs (Decidable True)

/-- What holds from a question on while its tokens are delivered in turn. -/
structure InStep
    (toLowerCase : JString → JString)
    (start : App)
    (userText : JString)
    (chatId : JInt)
    (app : App) : Prop where
  generating : Generating toLowerCase start userText chatId app
  stepwise :
    (app.solo start.viewModel.nextGeneration).Stepwise toLowerCase

variable {toLowerCase : JString → JString}
variable {start app next finish : App}
variable {userText : JString}
variable {chatId : JInt}

/-- The events of the stream keep it. -/
theorem InStep.step
    {event : Event}
    (wellFormed : start.WellFormed)
    (inStep : InStep toLowerCase start userText chatId app)
    (stream : event.solo.isSome)
    (inTurn : event.InTurn app)
    (fired : app.step toLowerCase event = some next) :
    InStep toLowerCase start userText chatId next := by
  have own := inStep.generating.exclusive.generation stream fired
  obtain ⟨action, same, simulated⟩ := solo_step_own own fired
  refine ⟨inStep.generating.step wellFormed stream fired,
    inStep.stepwise.step ?_ simulated⟩
  rintro token rfl
  cases event with
  | deliver index other =>
      have empty : app.viewModel.posted = [] := inTurn
      simp [App.solo, empty]
  | _ => cases same

/-- The question begins it. -/
theorem InStep.sendMessage
    (wellFormed : start.WellFormed)
    (idle : start.Idle)
    (alive : start.crashed = false) :
    InStep toLowerCase start userText chatId (start.withViewModel
      (start.viewModel.sendMessage start.prefs userText chatId)) := by
  refine ⟨Generating.sendMessage wellFormed idle alive, ?_⟩
  rw [solo_sendMessage wellFormed, alive]
  exact
    { phase := Solo.phase_start _
      single := Nat.zero_le 1
      quiet := fun stopped => by cases stopped
      unsaid := fun dead => by cases dead }

/-- Tokens delivered to a generation in turn: the content of its AI message is
their text within the limit, cut at the earliest stop string, and nothing was
thrown, exactly when the text that completes a stop string has them in order. -/
theorem content_iff_completesInOrder
    (lower : LowerCasing)
    {prefs : Prefs}
    {files : Store.UserFiles}
    {before events : List Event}
    (reached : (machine lower.toLowerCase).run
      { prefs := prefs, files := files } before = some start)
    (idle : start.Idle)
    (stream : ∀ event ∈ events, event.solo.isSome)
    (inTurn : (machine lower.toLowerCase).Guarded
      (fun app event => event.InTurn app) start
      (.sendMessage userText chatId :: events))
    (ran : (machine lower.toLowerCase).run start
      (.sendMessage userText chatId :: events) = some finish)
    (queue : finish.viewModel.posted = [])
    (posting : (finish.viewModel.generationAt
      start.viewModel.nextGeneration).posting = none) :
    (finish.crashed = false ∧
        (finish.solo start.viewModel.nextGeneration).content = cutAtEarliest
          ((finish.solo start.viewModel.nextGeneration).delivered.take
            start.prefs.maxResponseTokens.toNat).flatten) ↔
      CompletesInOrder start.prefs.maxResponseTokens 0 []
        (finish.solo start.viewModel.nextGeneration).delivered := by
  have wellFormed := wellFormed_of_run reached
  obtain ⟨alive, rest⟩ := run_of_question ran
  have guarded := Transition.Machine.guarded_and
    (Transition.Machine.guarded_of_forall stream)
    (inTurn.2 _ (step_sendMessage alive))
  have inStep : InStep lower.toLowerCase start userText chatId finish :=
    Transition.Machine.guarded_invariant
      (fun _ _ _ holds guard fired =>
        holds.step wellFormed guard.1 guard.2 fired)
      rest guarded (InStep.sendMessage wellFormed idle alive)
  have unqueued : (finish.solo start.viewModel.nextGeneration).queue = [] := by
    simp [App.solo, queue]
  have thrown := inStep.stepwise.crashed_iff unqueued posting
  have limit : (finish.solo start.viewModel.nextGeneration).maxTokens =
      start.prefs.maxResponseTokens := inStep.generating.conversing.limit
  rw [Solo.content_of_unqueued inStep.stepwise.phase unqueued posting,
    ← Bool.not_eq_true, show finish.crashed = true ↔ _ from thrown,
    Solo.reply, replyOf, limit,
    ← @replyFrom_iff_completesInOrder lower _ 0 [] _ rfl, List.nil_append,
    Int.sub_zero]

/-- A run whose one generation gets these tokens in turn. -/
def inTurnRun (tokens : List JString) : List Event :=
  .sendMessage (jstr "hi") 1 ::
    tokens.flatMap fun token => [.deliver 0 token, .post 0, .runPosted]

/-- A stop string that is spread over two tokens. -/
theorem content_of_spread_stop :
    ∃ finish, (machine LowerCasing.simple.toLowerCase).run {}
        (inTurnRun [jstr "ok\nUs", jstr "Er: hi"]) = some finish ∧
      (finish.solo 0).content = cutAtEarliest
        ((finish.solo 0).delivered.take 256).flatten := by
  obtain ⟨finish, ran, seen⟩ := Option.map_eq_some_iff.mp
    (show ((machine LowerCasing.simple.toLowerCase).run {}
        (inTurnRun [jstr "ok\nUs", jstr "Er: hi"])).map
        (fun app => (decide (app.viewModel.posted = []),
          (app.solo 0).posting, (app.solo 0).delivered)) =
      some (true, none, [jstr "ok\nUs", jstr "Er: hi"]) by decide +kernel)
  obtain ⟨queue, rest⟩ := Prod.mk.inj seen
  obtain ⟨posting, delivered⟩ := Prod.mk.inj rest
  have reached : (machine LowerCasing.simple.toLowerCase).run
      { prefs := {}, files := fun _ => none } [] = some {} := rfl
  refine ⟨finish, ran, ((content_iff_completesInOrder LowerCasing.simple
    reached (by decide) (by decide) (by decide +kernel) ran
    (of_decide_eq_true queue) posting).mpr ?_).2⟩
  change CompletesInOrder _ _ _ (finish.solo 0).delivered
  rw [delivered]
  decide +kernel

/-- Two stop strings in one token, the later one first in the list: the text
keeps the earlier one. -/
theorem later_stop_is_cut :
    ∃ finish, (machine LowerCasing.simple.toLowerCase).run {}
        (inTurnRun [jstr "a###b\nuser:"]) = some finish ∧
      finish.viewModel.posted = [] ∧
      (finish.solo 0).content = jstr "a###b" ∧
      cutAtEarliest ((finish.solo 0).delivered.take 256).flatten =
        jstr "a" := by
  obtain ⟨finish, ran, seen⟩ := Option.map_eq_some_iff.mp
    (show ((machine LowerCasing.simple.toLowerCase).run {}
        (inTurnRun [jstr "a###b\nuser:"])).map
        (fun app => (app.viewModel.posted, (app.solo 0).content,
          (app.solo 0).delivered)) =
      some ([], jstr "a###b", [jstr "a###b\nuser:"]) by decide +kernel)
  obtain ⟨queue, rest⟩ := Prod.mk.inj seen
  obtain ⟨content, delivered⟩ := Prod.mk.inj rest
  refine ⟨finish, ran, queue, content, ?_⟩
  rw [delivered]
  decide +kernel

end App

end Chat
end IdoProject
