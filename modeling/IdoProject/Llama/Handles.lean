import IdoProject.Llama.Loading
import IdoProject.Transition.Machine
import Mathlib.Data.List.Nodup

/-!
# The native handles

`load` creates a model, a context, a batch and a sampler, in this order, and
keeps them once it has all four; `unload` frees what is kept.  A load that fails
after its first step keeps nothing of what it has created, so that nothing can
free it any more.
-/

namespace IdoProject
namespace Llama

open Java
open Transition

/-- The handles that a state holds. -/
def State.handles : State → List Nat
  | .idle => []
  | .loaded model context batch sampler => [model, context, batch, sampler]

/-- An operation on the run loop. -/
inductive Operation where
  /-- `load(pathToModel)`, with what its native steps do. -/
  | load (pathToModel : JString) (results : NativeResults)
  /-- `unload()` -/
  | unload

namespace Android

/-- What a handle stands for. -/
def resource? (android : Android) (handle : Nat) : Option Resource :=
  if handle = 0 then none else android.created[handle - 1]?

/-- The handle was returned by a native function and not passed to one that
frees it. -/
def Live (android : Android) (handle : Nat) : Prop :=
  (android.resource? handle).isSome = true ∧ handle ∉ android.freed

/-- The handles of a state are what it takes them for. -/
def Fits (android : Android) : State → Prop
  | .idle => True
  | .loaded model context batch sampler =>
      (∃ path, android.resource? model = some (.model path)) ∧
        android.resource? context = some (.context model) ∧
        android.resource? batch = some .batch ∧
        android.resource? sampler = some .sampler

/-- The handles created and not freed are exactly the four that the state holds,
and none was freed twice. -/
structure Conserved (android : Android) : Prop where
  held : ∀ handle, android.Live handle ↔ handle ∈ android.state.handles
  fits : android.Fits android.state
  once : android.freed.Nodup

/-- What holds after any operations: a state holds four handles of its own, none
of them freed, and only what was created is freed, once. -/
structure Owned (android : Android) : Prop where
  created : ∀ handle ∈ android.freed, (android.resource? handle).isSome = true
  once : android.freed.Nodup
  fits : android.Fits android.state
  held : ∀ handle ∈ android.state.handles, handle ∉ android.freed

/-- One operation. -/
def apply (android : Android) : Operation → Android
  | .load pathToModel results => (android.load pathToModel results).1
  | .unload => android.unload

/-- The run loop as a machine on which every operation runs. -/
def machine : Machine Android Operation where
  step := fun android operation => some (android.apply operation)

/-- A load of an idle engine gets all four handles, or fails at the model. -/
def AllOrNothing (android : Android) : Operation → Prop
  | .load _ results =>
      android.state = .idle → results.Succeeds ∨ results.model ≠ .handle
  | .unload => True

/-! ## What an operation does -/

/-- The effects of a load. -/
inductive Loads (android : Android) (path : JString) (results : NativeResults) :
    Android → Prop
  | kept (nothing : android.state ≠ .idle ∨ results.model ≠ .handle) :
      Loads android path results android
  | loaded (idle : android.state = .idle) (succeeds : results.Succeeds) :
      Loads android path results
        { android with
          created := android.created ++
            [.model path, .context (android.created.length + 1), .batch, .sampler]
          state := .loaded (android.created.length + 1)
            (android.created.length + 2) (android.created.length + 3)
            (android.created.length + 4) }
  | leaked (idle : android.state = .idle) (model : results.model = .handle)
      (fails : ¬results.Succeeds) (later : List Resource) :
      Loads android path results
        { android with created := android.created ++ .model path :: later }

section Effects

variable {android : Android}
variable {path : JString}
variable {results : NativeResults}
variable {handle : Nat}

theorem loads_load (android : Android) (path : JString) (results : NativeResults) :
    Loads android path results (android.load path results).1 := by
  obtain ⟨model, context, batch, sampler⟩ := results
  unfold load
  cases state : android.state with
  | loaded => exact .kept (Or.inl (by simp [state]))
  | idle =>
      cases model with
      | zero | throws => exact .kept (Or.inr (by simp))
      | handle =>
          have leaks (fails : ¬NativeResults.Succeeds
                ⟨.handle, context, batch, sampler⟩) :=
            @Loads.leaked android path _ state rfl fails
          cases context with
          | zero | throws =>
              exact leaks (by simp [NativeResults.Succeeds]) []
          | handle =>
              cases batch with
              | zero | throws =>
                  simpa [acquire] using leaks (by simp [NativeResults.Succeeds])
                    [.context (android.created.length + 1)]
              | handle =>
                  cases sampler with
                  | zero | throws =>
                      simpa [acquire] using
                        leaks (by simp [NativeResults.Succeeds])
                          [.context (android.created.length + 1), .batch]
                  | handle =>
                      simpa [acquire] using
                        @Loads.loaded android path _ state rfl

/-- The handles that stand for something are the positions of what was
created. -/
theorem isSome_resource? :
    (android.resource? handle).isSome = true ↔
      0 < handle ∧ handle ≤ android.created.length := by
  unfold resource?
  split
  case isTrue zero => simp [zero]
  case isFalse positive =>
    rw [isSome_getElem?]
    omega

/-- What a handle stood for before more was created. -/
theorem resource?_append
    (stood : (android.resource? handle).isSome = true)
    (more : List Resource)
    (state : State) :
    resource?
        { android with created := android.created ++ more, state := state }
        handle = android.resource? handle := by
  have within := isSome_resource?.mp stood
  unfold resource?
  rw [if_neg (by omega), if_neg (by omega),
    List.getElem?_append_left (by omega)]

/-- What the new handles stand for. -/
theorem resource?_append_new
    (more : List Resource)
    (state : State)
    (index : Nat) :
    resource?
        { android with created := android.created ++ more, state := state }
        (android.created.length + 1 + index) = more[index]? := by
  unfold resource?
  rw [if_neg (by omega), List.getElem?_append_right (by omega)]
  congr 1
  omega

/-- What is in order stays so while more is created. -/
theorem Fits.append
    {state : State}
    (fits : android.Fits state)
    (more : List Resource)
    (after : State) :
    Fits { android with created := android.created ++ more, state := after }
      state := by
  cases state with
  | idle => trivial
  | loaded model context batch sampler =>
      obtain ⟨⟨path, isModel⟩, isContext, isBatch, isSampler⟩ := fits
      have kept {handle : Nat} {resource : Resource}
          (stood : android.resource? handle = some resource) :=
        (resource?_append (by rw [stood]; rfl) more after).trans stood
      exact ⟨⟨path, kept isModel⟩, kept isContext, kept isBatch, kept isSampler⟩

/-- The handles of a loaded model stand for something. -/
theorem Fits.isSome
    {state : State}
    (fits : android.Fits state)
    (held : handle ∈ state.handles) :
    (android.resource? handle).isSome = true := by
  cases state with
  | idle => cases held
  | loaded model context batch sampler =>
      obtain ⟨⟨path, isModel⟩, isContext, isBatch, isSampler⟩ := fits
      simp only [State.handles, List.mem_cons, List.not_mem_nil, or_false]
        at held
      rcases held with rfl | rfl | rfl | rfl <;> simp [*]

/-- The four handles differ, since they stand for different things. -/
theorem Fits.nodup
    {state : State}
    (fits : android.Fits state) :
    state.handles.Nodup := by
  cases state with
  | idle => exact List.nodup_nil
  | loaded model context batch sampler =>
      obtain ⟨⟨path, isModel⟩, isContext, isBatch, isSampler⟩ := fits
      simp only [State.handles, List.nodup_cons, List.mem_cons,
        List.not_mem_nil, or_false, not_or, not_false_eq_true,
        List.nodup_nil, and_true]
      refine ⟨⟨?_, ?_, ?_⟩, ⟨?_, ?_⟩, ?_⟩ <;> rintro rfl <;> simp_all

end Effects

section Operations

variable {android : Android}
variable {path : JString}
variable {results : NativeResults}

theorem Owned.load
    (owned : android.Owned) :
    (android.load path results).1.Owned := by
  have loads := loads_load android path results
  generalize (android.load path results).1 = next at loads ⊢
  cases loads with
  | kept => exact owned
  | loaded idle =>
      have beyond {handle : Nat} (new : android.created.length < handle) :
          handle ∉ android.freed := fun freed =>
        absurd (isSome_resource?.mp (owned.created handle freed)).2 (by omega)
      refine ⟨fun handle freed => ?_, owned.once, ⟨⟨path, ?_⟩, ?_, ?_, ?_⟩,
        fun handle held => ?_⟩
      · rw [resource?_append (owned.created handle freed)]
        exact owned.created handle freed
      · exact resource?_append_new _ _ 0
      · exact resource?_append_new _ _ 1
      · exact resource?_append_new _ _ 2
      · exact resource?_append_new _ _ 3
      · simp only [State.handles, List.mem_cons, List.not_mem_nil, or_false]
          at held
        exact beyond (by omega)
  | leaked idle model fails later =>
      refine ⟨fun handle freed => ?_, owned.once, owned.fits.append _ _,
        owned.held⟩
      exact (resource?_append (owned.created handle freed) _ _).symm ▸
        owned.created handle freed

theorem Owned.unload
    (owned : android.Owned) :
    android.unload.Owned := by
  unfold Android.unload
  cases state : android.state with
  | idle => exact owned
  | loaded model context batch sampler =>
      have fits := owned.fits
      have held := owned.held
      rw [state] at fits held
      have same : [context, model, batch, sampler].Perm
          (State.loaded model context batch sampler).handles :=
        List.Perm.swap _ _ _
      refine ⟨fun handle freed => ?_, ?_, trivial, fun handle held => by cases held⟩
      · rcases List.mem_append.mp freed with old | new
        · exact owned.created handle old
        · exact fits.isSome (same.mem_iff.mp new)
      · refine List.nodup_append.mpr
          ⟨owned.once, same.nodup_iff.mpr fits.nodup, ?_⟩
        rintro handle old other new rfl
        exact held handle (same.mem_iff.mp new) old

theorem Owned.apply
    (owned : android.Owned)
    (operation : Operation) :
    (android.apply operation).Owned := by
  cases operation with
  | load path results => exact owned.load
  | unload => exact owned.unload

/-- With no model loaded, everything created has been freed. -/
theorem Conserved.freed_of_idle
    (conserved : android.Conserved)
    (idle : android.state = .idle)
    {handle : Nat}
    (created : 0 < handle ∧ handle ≤ android.created.length) :
    handle ∈ android.freed := by
  by_contra unfreed
  have held := (conserved.held handle).mp ⟨isSome_resource?.mpr created, unfreed⟩
  rw [idle] at held
  cases held

/-- From a state in order, an operation goes to one exactly when it is no load
that fails behind the model. -/
theorem conserved_apply_iff
    (owned : android.Owned)
    (conserved : android.Conserved)
    (operation : Operation) :
    (android.apply operation).Conserved ↔ android.AllOrNothing operation := by
  have after := owned.apply operation
  have unfreed {handle : Nat} (beyond : android.created.length < handle) :
      handle ∉ android.freed := fun freed =>
    absurd (isSome_resource?.mp (owned.created handle freed)).2 (by omega)
  cases operation with
  | load path results =>
      have loads := loads_load android path results
      rw [apply] at after ⊢
      generalize (android.load path results).1 = next at loads after ⊢
      cases loads with
      | kept nothing =>
          refine iff_of_true conserved fun idle => ?_
          exact Or.inr (nothing.resolve_left fun loaded => loaded idle)
      | loaded idle succeeds =>
          refine iff_of_true ⟨fun handle => ?_, after.fits, after.once⟩
            fun _ => Or.inl succeeds
          rw [Live, isSome_resource?]
          simp only [State.handles, List.mem_cons, List.not_mem_nil, or_false,
            List.length_append, List.length_cons, List.length_nil]
          constructor
          · rintro ⟨created, live⟩
            by_contra other
            exact live (conserved.freed_of_idle idle (by omega))
          · intro new
            exact ⟨by omega, unfreed (by omega)⟩
      | leaked idle model fails later =>
          refine iff_of_false (fun leaked => ?_) fun fits => ?_
          · have held := (leaked.held (android.created.length + 1)).mp
              ⟨isSome_resource?.mpr ⟨by omega, by simp⟩, unfreed (by omega)⟩
            rw [idle] at held
            cases held
          · exact (fits idle).elim fails fun none => none model
  | unload =>
      refine iff_of_true ⟨fun handle => ?_, after.fits, after.once⟩ trivial
      rw [apply]
      cases state : android.state with
      | idle =>
          have same : android.unload = android := by
            simp only [Android.unload, state]
          rw [same]
          exact conserved.held handle
      | loaded model context batch sampler =>
          simp only [Android.unload, state]
          refine iff_of_false (fun live => live.2 ?_) List.not_mem_nil
          refine List.mem_append.mpr ?_
          by_cases freed : handle ∈ android.freed
          · exact Or.inl freed
          · have held := (conserved.held handle).mp ⟨live.1, freed⟩
            rw [state] at held
            simp only [State.handles, List.mem_cons, List.not_mem_nil,
              or_false] at held ⊢
            tauto

end Operations

section Runs

theorem owned_fresh : Owned {} where
  created := fun _ freed => absurd freed List.not_mem_nil
  once := List.nodup_nil
  fits := trivial
  held := fun _ held => absurd held List.not_mem_nil

theorem conserved_fresh : Conserved {} where
  held := fun handle => by simp [Live, resource?, State.handles]
  fits := trivial
  once := List.nodup_nil

/-- Every sequence of operations runs. -/
theorem exists_run
    (android : Android)
    (operations : List Operation) :
    ∃ finish, machine.run android operations = some finish := by
  induction operations generalizing android with
  | nil => exact ⟨android, rfl⟩
  | cons operation operations inductionHypothesis =>
      exact inductionHypothesis (android.apply operation)

/-- Whatever fails, no handle is freed twice, and none that was not created. -/
theorem owned_of_run
    {operations : List Operation}
    {finish : Android}
    (ran : machine.run {} operations = some finish) :
    finish.Owned :=
  Machine.run_invariant
    (fun android operation next owned fired => by
      cases fired
      exact owned.apply operation) ran owned_fresh

/-- The handles are conserved in a sequence of loads and unloads exactly when no
load of an idle engine fails behind the model. -/
theorem conserved_iff_allOrNothing
    (operations : List Operation) :
    machine.Always Conserved {} operations ↔
      machine.Guarded AllOrNothing {} operations := by
  obtain ⟨finish, ran⟩ := exists_run {} operations
  refine Machine.always_iff_guarded
    (fun android operation next owned fired => ?_)
    (fun android operation next owned conserved fired => ?_) ran owned_fresh
    conserved_fresh
  · cases fired
    exact owned.apply operation
  · cases fired
    exact conserved_apply_iff owned conserved operation

/-- A model is loaded and its context cannot be allocated: the model stays
without an owner, and `unload` does not free it. -/
theorem not_conserved_of_failed_context :
    ∃ finish,
      machine.run {}
        [.load (jstr "m.gguf")
          { context := .throws
              (jstr "llama_new_context_with_model() returned null)") },
          .unload] = some finish ∧
      finish.state = .idle ∧ finish.freed = [] ∧
      finish.resource? 1 = some (.model (jstr "m.gguf")) ∧
      ¬finish.Conserved := by
  refine ⟨_, rfl, rfl, rfl, rfl, fun conserved => ?_⟩
  have held := (conserved.held 1).mp ⟨rfl, List.not_mem_nil⟩
  cases held

end Runs

end Android
end Llama
end IdoProject
