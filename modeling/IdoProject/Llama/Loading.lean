import IdoProject.Java.Text

/-!
# Loading and unloading a model

`LLamaAndroid.load` and `unload` on the run loop.  Each of the four native steps
of a load may fail, by returning 0 or by throwing; what the earlier steps have
created is then kept and belongs to nobody.
-/

namespace IdoProject
namespace Llama

open Java

/-- What a native handle stands for. -/
inductive Resource where
  /-- A model loaded from a file. -/
  | model (path : JString)
  /-- A context of a model. -/
  | context (model : Nat)
  /-- A batch. -/
  | batch
  /-- A sampler. -/
  | sampler
  deriving DecidableEq

/-- `LLamaAndroid.State` -/
inductive State where
  /-- No model is loaded. -/
  | idle
  /-- A model is loaded, with its handles. -/
  | loaded (model context batch sampler : Nat)
  deriving DecidableEq

/-- What one native step of a load does. -/
inductive NativeResult where
  /-- It returns a handle. -/
  | handle
  /-- It returns 0. -/
  | zero
  /-- It throws. -/
  | throws (message : JString)
  deriving DecidableEq

/-- What the native steps of one load do. -/
structure NativeResults where
  /-- `load_model` -/
  model : NativeResult := .handle
  /-- `new_context` -/
  context : NativeResult := .handle
  /-- `new_batch` -/
  batch : NativeResult := .handle
  /-- `new_sampler` -/
  sampler : NativeResult := .handle
  deriving DecidableEq

/-- Every native step returns a handle. -/
def NativeResults.Succeeds (results : NativeResults) : Prop :=
  results = {}

instance (results : NativeResults) : Decidable results.Succeeds :=
  inferInstanceAs (Decidable (_ = _))

/-- `LLamaAndroid` and the native memory. -/
structure Android where
  /-- `threadLocalState` of the run loop. -/
  state : State := .idle
  /-- Everything created so far.  The handle of an entry is its position, counted
  from 1. -/
  created : List Resource := []
  /-- The handles passed to a function that frees them. -/
  freed : List Nat := []
  deriving DecidableEq

namespace Android

/-- A native step, and what the load does with its handle. -/
def acquire
    (android : Android)
    (result : NativeResult)
    (resource : Resource)
    (ifZero : JString)
    (next : Android → Nat → Android × Except JString Unit) :
    Android × Except JString Unit :=
  match result with
  | .handle =>
      next { android with created := android.created ++ [resource] }
        (android.created.length + 1)
  | .zero => (android, .error ifZero)
  | .throws message => (android, .error message)

/-- `load` -/
def load
    (android : Android)
    (pathToModel : JString)
    (results : NativeResults) : Android × Except JString Unit :=
  match android.state with
  | .idle =>
      android.acquire results.model (.model pathToModel)
          (jstr "load_model() failed") fun android model =>
        android.acquire results.context (.context model)
            (jstr "new_context() failed") fun android context =>
          android.acquire results.batch .batch
              (jstr "new_batch() failed") fun android batch =>
            android.acquire results.sampler .sampler
                (jstr "new_sampler() failed") fun android sampler =>
              ({ android with state := .loaded model context batch sampler },
                .ok ())
  | .loaded .. => (android, .error (jstr "Model already loaded"))

/-- `unload` -/
def unload (android : Android) : Android :=
  match android.state with
  | .loaded model context batch sampler =>
      { android with
        freed := android.freed ++ [context, model, batch, sampler]
        state := .idle }
  | .idle => android

/-- The file of the loaded model. -/
def loadedPath (android : Android) : Option JString :=
  match android.state with
  | .loaded model _ _ _ =>
      match android.created[model - 1]? with
      | some (.model path) => some path
      | _ => none
  | .idle => none

/-- `LLamaAndroid` is in `State.Loaded`. -/
def isLoaded (android : Android) : Bool :=
  match android.state with
  | .loaded .. => true
  | .idle => false

section Laws

variable {android : Android}
variable {path : JString}
variable {results : NativeResults}

theorem isLoaded_eq_false : android.isLoaded = false ↔ android.state = .idle := by
  unfold isLoaded
  cases android.state with
  | idle => simp
  | loaded => simp

/-- Without a loaded model there is no file. -/
theorem loadedPath_of_idle
    (idle : android.isLoaded = false) :
    android.loadedPath = none := by
  unfold loadedPath
  rw [isLoaded_eq_false.mp idle]

/-- A load that succeeds leaves the model of the file loaded. -/
theorem load_of_succeeds
    (idle : android.isLoaded = false)
    (succeeds : results.Succeeds) :
    (android.load path results).2 = .ok () ∧
      (android.load path results).1.isLoaded = true ∧
      (android.load path results).1.loadedPath = some path := by
  rw [isLoaded_eq_false] at idle
  rw [succeeds]
  simp [load, idle, acquire, isLoaded, loadedPath, List.append_assoc]

/-- A load succeeds where no model is loaded and every native step does, and
nowhere else. -/
theorem load_eq_ok_iff :
    (android.load path results).2 = .ok () ↔
      android.isLoaded = false ∧ results.Succeeds := by
  rw [isLoaded_eq_false]
  obtain ⟨model, context, batch, sampler⟩ := results
  unfold load NativeResults.Succeeds
  cases android.state with
  | loaded => simp
  | idle =>
      cases model <;> cases context <;> cases batch <;> cases sampler <;>
        simp [acquire]

/-- No model is loaded after `unload`. -/
theorem isLoaded_unload : android.unload.isLoaded = false := by
  unfold unload isLoaded
  cases state : android.state with
  | idle => simp [state]
  | loaded => rfl

/-- No file is loaded after `unload`. -/
theorem loadedPath_unload : android.unload.loadedPath = none :=
  loadedPath_of_idle isLoaded_unload

end Laws

end Android
end Llama
end IdoProject
