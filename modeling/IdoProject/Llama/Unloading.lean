import IdoProject.Llama.RunLoop
import IdoProject.Transition.Parties

/-!
# Flows and the model they began with

A flow reads the state once, when it begins, and uses the handles it found to its
end.  An `unload` that runs while the flow is at `emit` frees them.  No load
brings them back, so a flow that goes on then uses what is freed.
-/

namespace IdoProject
namespace Llama

open Java
open Transition

namespace Android

/-- The handles of a flow that began in the state are a context, a batch and a
sampler, and none of them has been freed. -/
def Usable (android : Android) : State → Prop
  | .idle => True
  | .loaded model context batch sampler =>
      (android.resource? context = some (.context model) ∧
        context ∉ android.freed) ∧
      (android.resource? batch = some .batch ∧ batch ∉ android.freed) ∧
      (android.resource? sampler = some .sampler ∧ sampler ∉ android.freed)

end Android

namespace RunLoop

variable {Token : Type u}

/-- The state with whose handles a step calls `completion_init`,
`completion_loop` and `kv_cache_clear`. -/
def used (loop : RunLoop Token) : RunLoopAction Token → State
  | .flow (.start _ _) => loop.android.state
  | .flow (.resume id _) =>
      match loop.flows[id]? with
      | some flow => if flow.stage = .suspended then flow.state else .idle
      | none => .idle
  | _ => .idle

/-- A step uses only handles that were returned and not freed. -/
def UsesLive (loop : RunLoop Token) (action : RunLoopAction Token) : Prop :=
  loop.android.Usable (loop.used action)

/-- A flow goes on only while the model it began with is still loaded. -/
def StillLoaded (loop : RunLoop Token) : RunLoopAction Token → Prop
  | .flow (.resume id _) =>
      ∀ flow ∈ loop.flows[id]?, flow.stage = .suspended →
        loop.android.state = flow.state
  | _ => True

/-- What holds in every state: a flow at `emit` has the handles of the loaded
model, or an `unload` has freed them. -/
structure Accounted (loop : RunLoop Token) : Prop where
  owned : loop.android.Owned
  captured : ∀ (id : Nat) (flow : Flow Token), loop.flows[id]? = some flow →
    flow.stage = .suspended →
      ∃ model context batch sampler,
        flow.state = .loaded model context batch sampler ∧
          (loop.android.state = flow.state ∨ context ∈ loop.android.freed)

section Steps

variable {runtime : Runtime Token}
variable {loop next : RunLoop Token}

/-- The handles of the loaded model can be used. -/
theorem usable_of_owned
    {android : Android}
    (owned : android.Owned) :
    android.Usable android.state := by
  have fits := owned.fits
  have held := owned.held
  cases state : android.state with
  | idle => trivial
  | loaded model context batch sampler =>
      rw [state] at fits held
      simp only [State.handles, List.mem_cons, List.not_mem_nil, or_false,
        forall_eq_or_imp, forall_eq] at held
      exact ⟨⟨fits.2.1, held.2.1⟩, ⟨fits.2.2.1, held.2.2.1⟩,
        ⟨fits.2.2.2, held.2.2.2⟩⟩

/-- A step uses live handles exactly when a flow that goes on does so with the
model it began with. -/
theorem Accounted.usesLive_iff
    (accounted : loop.Accounted)
    (action : RunLoopAction Token) :
    loop.UsesLive action ↔ loop.StillLoaded action := by
  have usable := usable_of_owned accounted.owned
  unfold UsesLive used
  cases action with
  | load | unload | bench => exact iff_of_true trivial trivial
  | flow action =>
      cases action with
      | send | abort => exact iff_of_true trivial trivial
      | start => exact iff_of_true usable trivial
      | resume id token =>
          dsimp only
          rw [StillLoaded]
          cases listed : loop.flows[id]? with
          | none => exact iff_of_true trivial (by simp)
          | some flow =>
              by_cases suspended : flow.stage = .suspended
              · obtain ⟨model, context, batch, sampler, state, kept⟩ :=
                  accounted.captured id flow listed suspended
                simp only [suspended, if_true, Option.mem_some, forall_eq',
                  forall_const]
                constructor
                · rw [state]
                  intro live
                  rw [← state]
                  exact kept.resolve_right live.1.2
                · intro same
                  rw [← same]
                  exact usable
              · refine iff_of_true ?_ ?_
                · simp only [if_neg suspended]
                  trivial
                · rintro other same
                  cases same
                  exact fun at_ => absurd at_ suspended

/-- A step that keeps the engine and moves one flow. -/
theorem Accounted.of_flow
    (accounted : loop.Accounted)
    {id : Nat}
    {changed : Flow Token}
    (android : next.android = loop.android)
    (flows : next.flows = loop.flows.set id changed)
    (captured : changed.stage = .suspended →
      ∃ model context batch sampler,
        changed.state = .loaded model context batch sampler ∧
          (loop.android.state = changed.state ∨
            context ∈ loop.android.freed)) :
    next.Accounted := by
  refine ⟨android ▸ accounted.owned, fun other flow listed suspended => ?_⟩
  rw [android]
  rw [flows] at listed
  rcases listed_set listed with ⟨_, rfl⟩ | ⟨_, before⟩
  · exact captured suspended
  · exact accounted.captured other flow before suspended

/-- A round of a flow keeps its state. -/
theorem Accounted.of_rounds
    (accounted : loop.Accounted)
    {before : RunLoop Token}
    {id context : Nat}
    {flow : Flow Token}
    {token : Token}
    (android : before.android = loop.android)
    (flows : before.flows = loop.flows)
    (rounds : Rounds runtime before id context flow token next)
    (captured : ∃ model context batch sampler,
      flow.state = .loaded model context batch sampler ∧
        (loop.android.state = flow.state ∨ context ∈ loop.android.freed)) :
    next.Accounted := by
  cases rounds with
  | ended =>
      exact accounted.of_flow android (congrArg (List.set · id _) flows)
        fun suspended => by cases suspended
  | emitted =>
      exact accounted.of_flow android (congrArg (List.set · id _) flows)
        fun _ => captured

theorem Accounted.flowStep
    {action : FlowAction Token}
    (accounted : loop.Accounted)
    (moves : FlowMoves runtime loop action next) :
    next.Accounted := by
  cases moves with
  | send prompt =>
      refine ⟨accounted.owned, fun id flow listed suspended => ?_⟩
      rcases listed_append listed with before | ⟨_, rfl⟩
      · exact accounted.captured id flow before suspended
      · cases suspended
  | startIdle id token flow =>
      exact accounted.of_flow rfl rfl fun suspended => by cases suspended
  | start id token flow model context batch sampler _ _ _ loaded _ rounds =>
      refine accounted.of_rounds ?_ ?_ rounds ?_
      · rfl
      · rfl
      · exact ⟨model, context, batch, sampler, loaded, Or.inl rfl⟩
  | resume id token flow _ _ _ _ _ listed suspended _ rounds =>
      exact accounted.of_rounds rfl rfl rounds
        (accounted.captured id flow listed suspended)
  | abort id flow =>
      exact accounted.of_flow rfl rfl fun suspended => by cases suspended

/-- A load changes the state of an idle engine only. -/
theorem Accounted.load
    {path : JString}
    {results : NativeResults}
    (accounted : loop.Accounted) :
    Accounted { loop with android := (loop.android.load path results).1 } := by
  refine ⟨accounted.owned.load, fun id flow listed suspended => ?_⟩
  obtain ⟨model, context, batch, sampler, state, kept⟩ :=
    accounted.captured id flow listed suspended
  refine ⟨model, context, batch, sampler, state, ?_⟩
  have loads := Android.loads_load loop.android path results
  generalize (loop.android.load path results).1 = android at loads ⊢
  cases loads with
  | kept | leaked => exact kept
  | loaded idle =>
      refine Or.inr (kept.resolve_left fun same => ?_)
      rw [idle, state] at same
      cases same

/-- An `unload` frees the handles of every flow that has those of the loaded
model. -/
theorem Accounted.unload
    (accounted : loop.Accounted) :
    Accounted { loop with android := loop.android.unload } := by
  refine ⟨accounted.owned.unload, fun id flow listed suspended => ?_⟩
  obtain ⟨model, context, batch, sampler, state, kept⟩ :=
    accounted.captured id flow listed suspended
  refine ⟨model, context, batch, sampler, state, ?_⟩
  rw [state] at kept ⊢
  cases now : loop.android.state with
  | idle =>
      simp only [Android.unload, now] at kept ⊢
      exact kept
  | loaded =>
      simp only [Android.unload, now, List.mem_append] at kept ⊢
      refine Or.inr (kept.elim (fun same => Or.inr ?_) Or.inl)
      cases same
      exact List.mem_cons_self

theorem Accounted.step
    {action : RunLoopAction Token}
    (accounted : loop.Accounted)
    (fired : loop.step runtime action = some next) :
    next.Accounted := by
  cases action with
  | flow action => exact accounted.flowStep (flowMoves_of_flowStep fired)
  | load path results =>
      cases fired
      exact accounted.load
  | unload =>
      cases fired
      exact accounted.unload
  | bench nr =>
      cases fired
      unfold bench
      split
      · split <;> exact ⟨accounted.owned, accounted.captured⟩
      · exact accounted

end Steps

section Runs

/-- In a run every call of `completion_init`, `completion_loop` and
`kv_cache_clear` is made with live handles exactly when every flow that goes on
does so while the model it began with is still loaded. -/
theorem usesLive_iff_stillLoaded
    (runtime : Runtime Token)
    (actions : List (RunLoopAction Token)) :
    (machine runtime).Guarded UsesLive {} actions ↔
      (machine runtime).Guarded StillLoaded {} actions := by
  have fresh : Accounted ({} : RunLoop Token) :=
    ⟨Android.owned_fresh, fun _ _ listed => absurd listed (by simp)⟩
  constructor
  · refine fun guarded => Machine.guarded_mono
      (fun _ _ _ accounted _ fired => accounted.step fired) ?_ guarded fresh
    exact fun loop action accounted => (accounted.usesLive_iff action).mp
  · refine fun guarded => Machine.guarded_mono
      (fun _ _ _ accounted _ fired => accounted.step fired) ?_ guarded fresh
    exact fun loop action accounted => (accounted.usesLive_iff action).mpr

/-- A flow has filled its channel and waits at `emit`; the user signs out, which
unloads the model; the flow goes on with the context that was freed. -/
theorem not_usesLive_of_unload :
    ∃ parked next,
      (machine letterRuntime).run {}
        (.load (jstr "m.gguf") {} :: .flow (.send [true]) ::
          .flow (.start 0 true) :: List.replicate 64 (.flow (.resume 0 true)) ++
          [.unload]) = some parked ∧
      (machine letterRuntime).step parked (.flow (.resume 0 true)) = some next ∧
      parked.used (.flow (.resume 0 true)) = .loaded 1 2 3 4 ∧
      parked.android.freed = [2, 1, 3, 4] ∧
      ¬parked.UsesLive (.flow (.resume 0 true)) := by
  obtain ⟨parked, ran, seen⟩ := Option.map_eq_some_iff.mp
    (show ((machine letterRuntime).run {}
        (.load (jstr "m.gguf") {} :: .flow (.send [true]) ::
          .flow (.start 0 true) :: List.replicate 64 (.flow (.resume 0 true)) ++
          [.unload])).map
        (fun parked =>
          (((machine letterRuntime).step parked (.flow (.resume 0 true))).isSome,
            decide (parked.used (.flow (.resume 0 true)) = .loaded 1 2 3 4 ∧
              parked.android.freed = [2, 1, 3, 4]))) =
      some (true, true) by decide +kernel)
  simp only [Prod.mk.injEq, decide_eq_true_eq] at seen
  obtain ⟨goesOn, used, freed⟩ := seen
  obtain ⟨next, stepped⟩ := Option.isSome_iff_exists.mp goesOn
  refine ⟨parked, next, ran, stepped, used, freed, fun live => ?_⟩
  rw [UsesLive, used] at live
  exact live.1.2 (by rw [freed]; exact List.mem_cons_self)

end Runs

end RunLoop

end Llama
end IdoProject
