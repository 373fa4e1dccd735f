import IdoProject.Llama.RunLoop
import IdoProject.Transition.Parties

/-!
# Sessions of the KV memory

The KV memory is cleared at the end of a flow and nowhere else, and the cached
bytes at the beginning of one.  A flow that begins while another is at `emit`, or
after one was aborted there, finds the tokens of that flow in the memory and
takes its bytes away.
-/

namespace IdoProject
namespace Llama

open Java
open Transition

/-- The flow has left tokens in the KV memory. -/
def Flow.Open {Token : Type u} (flow : Flow Token) : Prop :=
  flow.stage = .suspended ∨ flow.stage = .aborted

instance {Token : Type u} : DecidablePred (@Flow.Open Token) := fun flow =>
  inferInstanceAs (Decidable (flow.stage = .suspended ∨ flow.stage = .aborted))

/-- Tokens and positions of a flow from its prompt on. -/
def Flow.decoded {Token : Type u} (flow : Flow Token) (id : Nat) :
    List ((Nat × Token) × Nat) :=
  ((flow.prompt ++ flow.sampled).map fun token => (id, token)).zipIdx

namespace RunLoop

variable {Token : Type u}

/-- The flows are isolated: each began on an empty KV memory, what is in the KV
memory are the tokens of one flow at the positions of that flow, and the strings
of a flow are those that its own tokens spell. -/
structure Isolated (runtime : Runtime Token) (loop : RunLoop Token) : Prop where
  empty : ∀ (id : Nat) (flow : Flow Token), loop.flows[id]? = some flow →
    flow.startedOn = []
  session : ∀ context, loop.memory context = [] ∨
    ∃ (id : Nat) (flow : Flow Token), loop.flows[id]? = some flow ∧
      loop.memory context = flow.decoded id
  text : ∀ (id : Nat) (flow : Flow Token), loop.flows[id]? = some flow →
    flow.emitted = spell runtime [] flow.sampled

/-- A flow begins only when every flow before it has come to its end. -/
def Apart (loop : RunLoop Token) : FlowAction Token → Prop
  | .start _ _ => ∀ flow ∈ loop.flows, ¬flow.Open
  | _ => True

instance (loop : RunLoop Token) : DecidablePred loop.Apart
  | .start _ _ =>
      inferInstanceAs (Decidable (∀ flow ∈ loop.flows, ¬flow.Open))
  | .send _ | .resume _ _ | .abort _ => .isTrue trivial

/-! ## What holds while flows do not overlap -/

/-- What holds of every flow. -/
structure Faithful (runtime : Runtime Token) (flow : Flow Token) : Prop where
  empty : flow.startedOn = []
  text : flow.emitted = spell runtime [] flow.sampled
  queued : flow.stage = .queued → flow.sampled = []

/-- The KV memory and the cached bytes are those of the flow, which began with
the loaded model. -/
structure Owns
    (runtime : Runtime Token)
    (loop : RunLoop Token)
    (id context : Nat)
    (flow : Flow Token) : Prop where
  loaded : ∃ model batch sampler,
    loop.android.state = .loaded model context batch sampler
  state : flow.state = loop.android.state
  memory : loop.memory context = flow.decoded id
  rest : ∀ other, other ≠ context → loop.memory other = []
  prompt : 0 < flow.prompt.length
  ncur : flow.ncur = flow.prompt.length + flow.sampled.length
  cached : flow.stage ≠ .aborted →
    loop.cachedTokenChars = unsent runtime [] flow.sampled

/-- No flow has left tokens in the KV memory, or one has. -/
inductive Session (runtime : Runtime Token) (loop : RunLoop Token) : Prop
  | quiet
      (closed : ∀ (id : Nat) (flow : Flow Token),
        loop.flows[id]? = some flow → ¬flow.Open)
      (memory : ∀ context, loop.memory context = [])
  | one (id context : Nat) (flow : Flow Token)
      (listed : loop.flows[id]? = some flow)
      (opened : flow.Open)
      (others : ∀ (other : Nat) (found : Flow Token),
        loop.flows[other]? = some found → found.Open → other = id)
      (owns : Owns runtime loop id context flow)

/-- What holds in every state of a run in which flows do not overlap. -/
structure Consistent (runtime : Runtime Token) (loop : RunLoop Token) : Prop where
  faithful : ∀ (id : Nat) (flow : Flow Token), loop.flows[id]? = some flow →
    Faithful runtime flow
  session : Session runtime loop

section Steps

variable {runtime : Runtime Token}
variable {loop next : RunLoop Token}

theorem Consistent.isolated
    (consistent : Consistent runtime loop) :
    Isolated runtime loop where
  empty := fun id flow listed => (consistent.faithful id flow listed).empty
  text := fun id flow listed => (consistent.faithful id flow listed).text
  session := by
    intro context
    cases consistent.session with
    | quiet closed memory => exact Or.inl (memory context)
    | one id own flow listed opened others owns =>
        by_cases same : context = own
        · exact Or.inr ⟨id, flow, listed, same ▸ owns.memory⟩
        · exact Or.inl (owns.rest context same)

/-- One more token at the next position. -/
theorem decoded_append
    (flow : Flow Token)
    (id : Nat)
    (token : Token)
    (stage : FlowStage)
    (ncur : Nat)
    (emitted : List JString) :
    Flow.decoded
        { flow with
          stage := stage
          ncur := ncur
          sampled := flow.sampled ++ [token]
          emitted := emitted } id =
      flow.decoded id ++
        [((id, token), flow.prompt.length + flow.sampled.length)] := by
  unfold Flow.decoded
  rw [← List.append_assoc, List.map_append, List.zipIdx_append]
  simp

/-- A round of the flow that owns the KV memory, while no other flow is open. -/
theorem consistent_of_rounds
    {id context : Nat}
    {flow : Flow Token}
    {token : Token}
    (faithful : ∀ (other : Nat) (found : Flow Token),
      loop.flows[other]? = some found → Faithful runtime found)
    (closed : ∀ (other : Nat) (found : Flow Token),
      loop.flows[other]? = some found → found.Open → other = id)
    (within : id < loop.flows.length)
    (own : Faithful runtime flow)
    (owns : Owns runtime loop id context flow)
    (running : flow.stage ≠ .aborted)
    (rounds : Rounds runtime loop id context flow token next) :
    Consistent runtime next := by
  cases rounds with
  | ended =>
      refine ⟨fun other found present => ?_, .quiet (fun other found present => ?_)
        fun other => ?_⟩
      · rcases listed_set present with ⟨_, rfl⟩ | ⟨_, before⟩
        · exact ⟨own.empty, own.text, fun queued => by cases queued⟩
        · exact faithful other found before
      · rcases listed_set present with ⟨_, rfl⟩ | ⟨different, before⟩
        · simp [Flow.Open]
        · exact fun opened => different (closed other found before opened)
      · change Function.update loop.memory context [] other = []
        by_cases same : other = context
        · rw [same, Function.update_self]
        · rw [Function.update_of_ne same]
          exact owns.rest other same
  | emitted str spelled =>
      have cached := owns.cached running
      refine ⟨fun other found present => ?_, .one id context _
        (List.getElem?_set_self within) (Or.inl rfl)
        (fun other found present opened => ?_) ?_⟩
      · rcases listed_set present with ⟨_, rfl⟩ | ⟨_, before⟩
        · refine ⟨own.empty, ?_, fun queued => by cases queued⟩
          rw [spell_append, ← own.text, ← cached, spelled]
        · exact faithful other found before
      · rcases listed_set present with ⟨same, _⟩ | ⟨_, before⟩
        · exact same
        · exact closed other found before opened
      · refine ⟨owns.loaded, owns.state, ?_, fun other different => ?_,
          owns.prompt, ?_, fun _ => ?_⟩
        · change Function.update loop.memory context _ context = _
          rw [Function.update_self, decoded_append, ← owns.memory, owns.ncur]
        · change Function.update loop.memory context _ other = _
          rw [Function.update_of_ne different]
          exact owns.rest other different
        · rw [List.length_append, List.length_singleton, ← Nat.add_assoc]
          exact congrArg (· + 1) owns.ncur
        · rw [unsent_append, ← cached]
          rfl

/-- Replacing a flow by one that is open or ended. -/
theorem Consistent.faithful_set
    {id : Nat}
    {changed : Flow Token}
    (consistent : Consistent runtime loop)
    (own : Faithful runtime changed)
    (other : Nat)
    (found : Flow Token)
    (present : (loop.flows.set id changed)[other]? = some found) :
    Faithful runtime found := by
  rcases listed_set present with ⟨_, rfl⟩ | ⟨_, before⟩
  · exact own
  · exact consistent.faithful other found before

/-- No flow is open while no model is loaded. -/
theorem Consistent.not_open_of_idle
    (consistent : Consistent runtime loop)
    (idle : loop.android.state = .idle)
    (id : Nat)
    (flow : Flow Token)
    (listed : loop.flows[id]? = some flow) :
    ¬flow.Open := by
  cases consistent.session with
  | quiet closed => exact closed id flow listed
  | one _ _ _ _ _ _ owns =>
      obtain ⟨_, _, _, loaded⟩ := owns.loaded
      rw [idle] at loaded
      cases loaded

/-- The KV memory is empty while no flow is open. -/
theorem Consistent.memory_of_closed
    (consistent : Consistent runtime loop)
    (closed : ∀ (id : Nat) (flow : Flow Token),
      loop.flows[id]? = some flow → ¬flow.Open)
    (context : Nat) :
    loop.memory context = [] := by
  cases consistent.session with
  | quiet _ memory => exact memory context
  | one id _ flow listed opened => exact absurd opened (closed id flow listed)

/-- A step in which no flow begins beside an open one. -/
theorem Consistent.step
    {action : FlowAction Token}
    (consistent : Consistent runtime loop)
    (apart : loop.Apart action)
    (moves : FlowMoves runtime loop action next) :
    Consistent runtime next := by
  cases moves with
  | send prompt =>
      refine ⟨fun id flow listed => ?_, ?_⟩
      · rcases listed_append listed with before | ⟨_, rfl⟩
        · exact consistent.faithful id flow before
        · exact ⟨rfl, rfl, fun _ => rfl⟩
      · cases consistent.session with
        | quiet closed memory =>
            refine .quiet (fun id flow listed => ?_) memory
            rcases listed_append listed with before | ⟨_, rfl⟩
            · exact closed id flow before
            · simp [Flow.Open]
        | one id context flow listed opened others owns =>
            have within := (List.getElem?_eq_some_iff.mp listed).1
            refine .one id context flow
              ((List.getElem?_append_left within).trans listed) opened
              (fun other found present openedToo => ?_)
              ⟨owns.loaded, owns.state, owns.memory, owns.rest, owns.prompt,
                owns.ncur, owns.cached⟩
            rcases listed_append present with before | ⟨_, rfl⟩
            · exact others other found before openedToo
            · simp [Flow.Open] at openedToo
  | startIdle id token flow listed queued idle =>
      have own := consistent.faithful id flow listed
      refine ⟨consistent.faithful_set
        ⟨own.empty, own.text, fun ended => by cases ended⟩, ?_⟩
      have closed := consistent.not_open_of_idle idle
      refine .quiet (fun other found present => ?_)
        (consistent.memory_of_closed closed)
      rcases listed_set present with ⟨_, rfl⟩ | ⟨_, before⟩
      · simp [Flow.Open]
      · exact closed other found before
  | start id token flow model context batch sampler _ listed queued loaded
      prompt rounds =>
      have closed (other : Nat) (found : Flow Token)
          (present : loop.flows[other]? = some found) : ¬found.Open :=
        apart found (List.mem_of_getElem? present)
      have memory := consistent.memory_of_closed closed
      have own := consistent.faithful id flow listed
      have none := own.queued queued
      refine consistent_of_rounds ?faithful ?closed ?within ?own ?owns ?running
        rounds
      case faithful => exact consistent.faithful
      case closed =>
        exact fun other found present opened =>
          absurd opened (closed other found present)
      case within => exact (List.getElem?_eq_some_iff.mp listed).1
      case own => exact ⟨memory context, own.text, own.queued⟩
      case running => simp [queued]
      case owns =>
        refine ⟨⟨model, batch, sampler, loaded⟩, rfl, ?_,
          fun other different => ?_, prompt, ?_, fun _ => ?_⟩
        · change Function.update loop.memory context _ context = _
          rw [Function.update_self, memory context, Flow.decoded, none]
          simp
        · change Function.update loop.memory context _ other = _
          rw [Function.update_of_ne different, memory other]
        · rw [none]
          rfl
        · rw [none]
          rfl
  | resume id token flow model context batch sampler _ listed suspended captured
      rounds =>
      cases consistent.session with
      | quiet closed =>
          exact absurd (Or.inl suspended) (closed id flow listed)
      | one only owned found present opened others owns =>
          obtain rfl := others id flow listed (Or.inl suspended)
          rw [listed] at present
          cases present
          obtain ⟨_, _, _, loaded⟩ := owns.loaded
          rw [← owns.state, captured] at loaded
          cases loaded
          exact consistent_of_rounds consistent.faithful others
            (List.getElem?_eq_some_iff.mp listed).1
            (consistent.faithful id flow listed) owns
            (by simp [suspended]) rounds
  | abort id flow listed suspended =>
      have own := consistent.faithful id flow listed
      refine ⟨consistent.faithful_set
        ⟨own.empty, own.text, fun aborted => by cases aborted⟩, ?_⟩
      cases consistent.session with
      | quiet closed =>
          exact absurd (Or.inl suspended) (closed id flow listed)
      | one only context found present opened others owns =>
          obtain rfl := others id flow listed (Or.inl suspended)
          rw [listed] at present
          cases present
          refine .one id context _
            (List.getElem?_set_self (List.getElem?_eq_some_iff.mp listed).1)
            (Or.inr rfl) (fun other found present openedToo => ?_)
            ⟨owns.loaded, owns.state, owns.memory, owns.rest, owns.prompt,
              owns.ncur, fun running => absurd rfl running⟩
          rcases listed_set present with ⟨same, _⟩ | ⟨_, before⟩
          · exact same
          · exact others other found before openedToo

/-- A flow that begins beside an open one begins on the tokens of that one. -/
theorem Consistent.apart_of_isolated
    {action : FlowAction Token}
    (consistent : Consistent runtime loop)
    (moves : FlowMoves runtime loop action next)
    (isolated : Isolated runtime next) :
    loop.Apart action := by
  cases moves with
  | send | resume | abort => trivial
  | startIdle id token flow listed queued idle =>
      intro found present
      obtain ⟨other, listed⟩ := List.mem_iff_getElem?.mp present
      exact consistent.not_open_of_idle idle other found listed
  | start id token flow model context batch sampler _ listed queued loaded
      prompt rounds =>
      cases consistent.session with
      | quiet closed =>
          intro found present
          obtain ⟨other, listed⟩ := List.mem_iff_getElem?.mp present
          exact closed other found listed
      | one _ owned found _ _ _ owns =>
          obtain ⟨_, _, _, loadedToo⟩ := owns.loaded
          rw [loaded] at loadedToo
          cases loadedToo
          have within := (List.getElem?_eq_some_iff.mp listed).1
          have began : loop.memory context = [] := by
            cases rounds with
            | ended | emitted =>
                exact isolated.empty id _ (List.getElem?_set_self within)
          rw [owns.memory, Flow.decoded, List.zipIdx_eq_nil_iff,
            List.map_eq_nil_iff, List.append_eq_nil_iff] at began
          have positive := owns.prompt
          rw [began.1] at positive
          exact absurd positive (Nat.lt_irrefl 0)

end Steps

section Runs

/-- The process before the first flow. -/
theorem consistent_start
    (runtime : Runtime Token)
    (android : Android)
    (cachedTokenChars : List UInt8) :
    Consistent runtime
      { android := android, cachedTokenChars := cachedTokenChars } :=
  ⟨fun _ _ listed => absurd listed (by simp),
    .quiet (fun _ _ listed => absurd listed (by simp)) fun _ => rfl⟩

/-- The flows of a run are isolated exactly when each begins after the flows
before it have come to their ends. -/
theorem isolated_iff_apart
    (runtime : Runtime Token)
    (android : Android)
    (cachedTokenChars : List UInt8)
    (actions : List (FlowAction Token))
    {finish : RunLoop Token}
    (ran : (flowMachine runtime).run
      { android := android, cachedTokenChars := cachedTokenChars } actions =
        some finish) :
    (flowMachine runtime).Always (Isolated runtime)
        { android := android, cachedTokenChars := cachedTokenChars } actions ↔
      (flowMachine runtime).Guarded Apart
        { android := android, cachedTokenChars := cachedTokenChars } actions :=
  Machine.always_iff_guarded_of_needed
    (fun _ _ _ consistent apart fired =>
      consistent.step apart (flowMoves_of_flowStep fired))
    (fun _ consistent => consistent.isolated)
    (fun _ _ _ consistent fired isolated =>
      consistent.apart_of_isolated (flowMoves_of_flowStep fired) isolated)
    ran (consistent_start runtime android cachedTokenChars)

/-- A loaded model before its first flow. -/
def freshlyLoaded : RunLoop Bool where
  android := (Android.load {} (jstr "m.gguf") {}).1

/-- A flow comes to the end of its text before the next one begins. -/
theorem isolated_of_sequence :
    (flowMachine letterRuntime).Always (Isolated letterRuntime) freshlyLoaded
      [.send [true, true], .send [true], .start 0 true, .resume 0 true,
        .resume 0 false, .start 1 true] :=
  (isolated_iff_apart letterRuntime freshlyLoaded.android [] _ rfl).mpr
    (by decide +kernel)

/-- The collector of a flow fails, and the next flow begins on the tokens of the
first. -/
theorem not_isolated_of_abort :
    ∃ finish,
      (flowMachine letterRuntime).run freshlyLoaded
        [.send [true], .start 0 true, .abort 0, .send [true], .start 1 true] =
          some finish ∧
      finish.flows.map Flow.startedOn =
        [[], [((0, true), 0), ((0, true), 1)]] ∧
      finish.memory 2 =
        [((0, true), 0), ((0, true), 1), ((1, true), 0), ((1, true), 1)] ∧
      ¬Isolated letterRuntime finish := by
  refine ⟨_, rfl, rfl, rfl, fun isolated => ?_⟩
  have empty := isolated.empty 1 _ rfl
  cases empty

end Runs

end RunLoop

end Llama
end IdoProject
