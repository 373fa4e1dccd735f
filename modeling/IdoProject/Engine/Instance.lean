import IdoProject.Engine.Steps
import IdoProject.Transition.LazyCell
import IdoProject.Transition.Simulation

/-!
# The creation of `instance`

`LLMW.getInstance` creates `instance` under a lock that it takes only where
`instance` is null, and looks again when it has the lock.  The machine of the
threads does all this in one step.  Here the step is split into the statements
of the source, which run interleaved with those of the other threads: the
process goes through the same states, one `LLMW` at most is created, and every
call returns it.
-/

namespace IdoProject
namespace Engine

open Transition

/-- The process with the field `instance` and the lock of the companion object. -/
structure Locked where
  world : World
  /-- `instance`, and how far every thread is with creating it.  An `LLMW` has
  the number of the thread that created it. -/
  cell : LazyCell Nat Nat := {}

namespace Locked

/-- One statement of the creation of `instance` in `getInstance`. -/
def create
    (state : Locked)
    (id : Nat)
    (thread : Thread) : Option Locked :=
  (state.cell.step id id).map fun cell =>
    if thread.location = .instantiating ∧ (cell.stage id).past = true then
      { world :=
          { state.world with hasInstance := cell.value.isSome }.goto id thread
            .loadTest
        cell := cell }
    else { state with cell := cell }

/-- One statement of a thread, which gives the lock back before it goes on. -/
def execute
    (device : Device)
    (state : Locked)
    (id : Nat)
    (thread : Thread) : Option Locked :=
  if thread.location = .instantiating ∨ state.cell.stage id = .leaving then
    state.create id thread
  else
    (state.world.execute device id thread).map fun world =>
      { state with world := world }

/-- The process as it starts. -/
def fresh (prefs : Prefs) : Locked :=
  { world := .fresh prefs }

/-- What one action does. -/
def step (device : Device) (state : Locked) : Action → Option Locked
  | .thread id =>
      if state.world.alive then
        state.world.threads[id]?.bind (state.execute device id)
      else none
  | .call program =>
      (Engine.step device state.world (.call program)).map fun world =>
        { state with world := world }
  | .arrive position results =>
      (Engine.step device state.world (.arrive position results)).map fun world =>
        { state with world := world }
  | .ui =>
      (Engine.step device state.world .ui).map fun world =>
        { state with world := world }

/-- The statements of `getInstance` one at a time, among all others. -/
def machine (device : Device) : Machine Locked Action where
  step := step device

end Locked

/-- Before the creation of `instance`. -/
def Location.early : Location → Bool
  | .unloadTest | .unloading | .clearing | .calculating => true
  | .instantiating | .loadTest | .launching | .marking | .posting | .catching
  | .done => false

/-- Where a thread can be in the creation of `instance`. -/
structure Placed
    (stage : LazyStage Nat)
    (location : Location) : Prop where
  early : location.early = true → stage = .checking
  creating : location = .instantiating → stage.past = false
  other : location ≠ .instantiating → stage = .checking ∨ stage.past = true

section Moves

variable {device : Device}
variable {world next : World}
variable {id : Nat}
variable {thread : Thread}

/-- A thread that is not creating `instance` comes to its creation from before
it, if at all, and leaves `instance` as it is. -/
structure Passes (world next : World) (id : Nat) (thread : Thread) : Prop where
  moved : ∃ moved : Thread, next.threads = world.threads.set id moved ∧
    (moved.location.early = true ∨ moved.location = .instantiating →
      thread.location.early = true)
  hasInstance : next.hasInstance = world.hasInstance
  alive : next.alive = world.alive

theorem passes_of_goto
    {middle : World}
    {moved : Thread}
    {location : Location}
    (threads : middle.threads = world.threads)
    (hasInstance : middle.hasInstance = world.hasInstance)
    (alive : middle.alive = world.alive)
    (before : location.early = true ∨ location = .instantiating →
      thread.location.early = true) :
    Passes world (middle.goto id moved location) id thread where
  moved := ⟨{ moved with location := location },
    congrArg (·.set id { moved with location := location }) threads, before⟩
  hasInstance := hasInstance
  alive := alive

/-- A thread that goes on to behind the creation of `instance`. -/
theorem passes_of_late
    {middle : World}
    {moved : Thread}
    {location : Location}
    (threads : middle.threads = world.threads)
    (hasInstance : middle.hasInstance = world.hasInstance)
    (alive : middle.alive = world.alive)
    (late : location.early = false ∧ location ≠ .instantiating) :
    Passes world (middle.goto id moved location) id thread := by
  apply passes_of_goto threads hasInstance alive
  rintro (early | creating)
  · rw [late.1] at early
    cases early
  · exact absurd creating late.2

/-- `getInstance` returns to behind the creation of `instance`. -/
theorem late_afterGetInstance
    {program : Program} :
    program.afterGetInstance.early = false ∧
      program.afterGetInstance ≠ .instantiating := by
  cases program <;> exact ⟨rfl, nofun⟩

theorem passes_of_execute
    (found : world.threads[id]? = some thread)
    (other : thread.location ≠ .instantiating)
    (executed : world.execute device id thread = some next) :
    Passes world next id thread := by
  cases effect_of_execute found executed with
  | @unloadTest _ seen present here | @unloading _ seen present here
  | @clearing _ seen present here | @calculating _ seen present here =>
      rw [found] at present
      cases present
      exact passes_of_goto rfl rfl rfl fun _ => here ▸ rfl
  | @instantiating _ seen present here =>
      rw [found] at present
      cases present
      exact absurd here other
  | loadTest | launching | posting | catching =>
      exact passes_of_late rfl rfl rfl ⟨rfl, nofun⟩
  | skipLoad | marking =>
      exact passes_of_late rfl rfl rfl late_afterGetInstance
  | @noInstance _ seen =>
      refine passes_of_late rfl rfl rfl ?_
      cases seen.program <;> exact ⟨rfl, nofun⟩

/-- A thread takes a step if it executes a statement. -/
theorem step_of_execute
    (alive : world.alive = true)
    (found : world.threads[id]? = some thread)
    (executed : world.execute device id thread = some next) :
    (machine device).step world (.thread id) = some next := by
  have bound : world.threads[id]?.bind (world.execute device id) = some next := by
    rw [found]
    exact executed
  exact (if_pos alive).trans bound

end Moves

namespace Locked

/-- What holds whatever the threads have done. -/
structure Sound (state : Locked) : Prop where
  safe : state.cell.Safe
  /-- `instance` is null in both machines or in none. -/
  same : state.world.alive = true →
    state.world.hasInstance = state.cell.value.isSome
  threads : ∀ id thread, state.world.threads[id]? = some thread →
    Placed (state.cell.stage id) thread.location
  /-- A thread that has not been started has not looked at `instance`. -/
  absent : ∀ id, state.world.threads[id]? = none →
    state.cell.stage id = .checking

variable {device : Device}
variable {state next : Locked}

theorem sound_fresh {prefs : Prefs} : (fresh prefs).Sound where
  safe := LazyCell.safe_fresh
  same _ := rfl
  threads _ _ found := nomatch found
  absent _ _ := rfl

/-- A step that leaves the creation of `instance` alone. -/
theorem Sound.of_passes
    {world : World}
    {id : Nat}
    {thread : Thread}
    (sound : state.Sound)
    (found : state.world.threads[id]? = some thread)
    (elsewhere : thread.location ≠ .instantiating)
    (passes : Passes state.world world id thread) :
    Sound { state with world := world } where
  safe := sound.safe
  same alive := by
    rw [passes.hasInstance]
    rw [passes.alive] at alive
    exact sound.same alive
  threads := by
    obtain ⟨moved, threads, before⟩ := passes.moved
    have placed := sound.threads id thread found
    rw [threads]
    apply forall_set
    · exact fun other seen _ present => sound.threads other seen present
    · constructor
      · exact fun early => placed.early (before (.inl early))
      · intro creating
        rw [placed.early (before (.inr creating))]
        rfl
      · exact fun _ => placed.other elsewhere
  absent other missing := by
    obtain ⟨moved, threads, -⟩ := passes.moved
    rw [threads, List.getElem?_eq_none_iff, List.length_set,
      ← List.getElem?_eq_none_iff] at missing
    exact sound.absent other missing

/-- A statement of the creation of `instance`, of which one is a step of the
machine that creates it at once. -/
theorem Sound.create
    {id : Nat}
    {thread : Thread}
    (sound : state.Sound)
    (found : state.world.threads[id]? = some thread)
    (creating : thread.location = .instantiating ∨
      state.cell.stage id = .leaving)
    (executed : state.create id thread = some next) :
    next.Sound ∧ (next.world = state.world ∨
      state.world.execute device id thread = some next.world) := by
  obtain ⟨cell, stepped, same⟩ := Option.map_eq_some_iff.mp executed
  have safe := sound.safe.step stepped
  have placed := sound.threads id thread found
  have others := fun {other} (different : other ≠ id) =>
    LazyCell.stage_step_of_ne stepped different
  have absent : ∀ other, state.world.threads[other]? = none →
      cell.stage other = .checking := by
    intro other missing
    have different : other ≠ id := by
      rintro rfl
      rw [found] at missing
      cases missing
    rw [others different]
    exact sound.absent other missing
  split at same
  next arrives =>
    cases same
    have filled := (safe.threads id).filled arrives.2
    constructor
    · constructor
      case safe => exact safe
      case same => exact fun _ => rfl
      case threads =>
        apply forall_set
        · intro other seen different present
          rw [others different]
          exact sound.threads other seen present
        · exact ⟨nofun, nofun, fun _ => .inr arrives.2⟩
      case absent =>
        intro other missing
        apply absent
        rw [World.goto, List.getElem?_eq_none_iff, List.length_set,
          ← List.getElem?_eq_none_iff] at missing
        exact missing
    · right
      rw [World.execute, arrives.1, filled]
  next stays =>
    cases same
    have kept : cell.value = state.cell.value := by
      apply LazyCell.value_step_of_past stepped
      rcases creating with here | leaving
      · right
        simpa [here] using stays
      · left
        rw [leaving]
        rfl
    refine ⟨?_, .inl rfl⟩
    constructor
    case safe => exact safe
    case same =>
      intro alive
      rw [kept]
      exact sound.same alive
    case threads =>
      intro other seen present
      by_cases own : other = id
      · rw [own, found] at present
        cases present
        subst own
        constructor
        · intro early
          rcases creating with here | leaving
          · rw [here] at early
            cases early
          · have checking := placed.early early
            rw [leaving] at checking
            cases checking
        · intro here
          simpa [here] using stays
        · intro elsewhere
          have leaving := creating.resolve_left elsewhere
          exact .inr (LazyCell.past_step stepped (leaving ▸ rfl))
      · rw [others own]
        exact sound.threads other seen present
    case absent => exact absent

/-- A step that does not move the threads. -/
theorem Sound.of_still
    {world : World}
    (sound : state.Sound)
    (threads : world.threads = state.world.threads)
    (same : world.alive = true → state.world.alive = true ∧
      world.hasInstance = state.world.hasInstance) :
    Sound { state with world := world } where
  safe := sound.safe
  same alive := (same alive).2.trans (sound.same (same alive).1)
  threads := threads ▸ sound.threads
  absent := threads ▸ sound.absent

/-- A thread is started. -/
theorem Sound.call
    {program : Program}
    (sound : state.Sound) :
    Sound { state with world := state.world.call program } where
  safe := sound.safe
  same := sound.same
  threads other seen found := by
    rw [World.call, List.getElem?_append] at found
    split at found
    next => exact sound.threads other seen found
    next outside =>
      have checking := sound.absent other
        (List.getElem?_eq_none_iff.mpr (Nat.le_of_not_lt outside))
      exact ⟨fun _ => checking, fun _ => checking ▸ rfl, fun _ => .inl checking⟩
  absent other missing := by
    rw [World.call, List.getElem?_eq_none_iff, List.length_append] at missing
    exact sound.absent other
      (List.getElem?_eq_none_iff.mpr (Nat.le_of_add_right_le missing))

/-- Every step keeps what holds, and the other machine takes it or waits. -/
theorem Sound.step
    {action : Action}
    (sound : state.Sound)
    (stepped : (machine device).step state action = some next) :
    next.Sound ∧ (next.world = state.world ∨
      (Engine.machine device).step state.world action = some next.world) := by
  cases action with
  | thread id =>
      obtain ⟨alive, bound⟩ := Option.ite_none_right_eq_some.mp stepped
      obtain ⟨thread, found, executed⟩ := Option.bind_eq_some_iff.mp bound
      unfold Locked.execute at executed
      split at executed
      next creating =>
        obtain ⟨kept, same⟩ := sound.create found creating executed
        exact ⟨kept, same.imp_right (step_of_execute alive found)⟩
      next other =>
        obtain ⟨world, moved, same⟩ := Option.map_eq_some_iff.mp executed
        cases same
        have elsewhere := (not_or.mp other).1
        have passes := passes_of_execute found elsewhere moved
        exact ⟨sound.of_passes found elsewhere passes,
          .inr (step_of_execute alive found moved)⟩
  | call program =>
      obtain ⟨world, fired, same⟩ := Option.map_eq_some_iff.mp stepped
      cases same
      refine ⟨?_, .inr fired⟩
      cases @effect_of_step device _ _ (.call program) fired
      exact sound.call
  | arrive position results =>
      obtain ⟨world, fired, same⟩ := Option.map_eq_some_iff.mp stepped
      cases same
      refine ⟨?_, .inr fired⟩
      cases @effect_of_step device _ _ (.arrive position results) fired with
      | loaded | failed | unloaded =>
          exact sound.of_still rfl fun alive => ⟨alive, rfl⟩
      | died => exact sound.of_still rfl nofun
  | ui =>
      obtain ⟨world, fired, same⟩ := Option.map_eq_some_iff.mp stepped
      cases same
      refine ⟨?_, .inr fired⟩
      cases @effect_of_step device _ _ .ui fired
      exact sound.of_still rfl fun alive => ⟨alive, rfl⟩

/-- A statement of the creation of `instance` is a step of its thread. -/
theorem step_of_create
    {id : Nat}
    {thread : Thread}
    (alive : state.world.alive = true)
    (found : state.world.threads[id]? = some thread)
    (creating : thread.location = .instantiating ∨
      state.cell.stage id = .leaving) :
    (machine device).step state (.thread id) = state.create id thread := by
  have bound : state.world.threads[id]?.bind (state.execute device id) =
      state.create id thread := by
    rw [found, Option.bind_some, execute, if_pos creating]
  exact (if_pos alive).trans bound

/-- Nobody is in the middle of creating `instance`. -/
def Resting (state : Locked) : Prop :=
  ∀ id, state.cell.stage id = .checking ∨ state.cell.stage id = .done

/-- Undisturbed, a thread creates `instance` in six steps. -/
theorem run_create
    {id : Nat}
    {thread : Thread}
    (alive : state.world.alive = true)
    (found : state.world.threads[id]? = some thread)
    (here : thread.location = .instantiating)
    (checking : state.cell.stage id = .checking)
    (empty : state.cell.value = none)
    (free : state.cell.owner = none) :
    (machine device).run state (List.replicate 6 (.thread id)) = some
      { world := { state.world with hasInstance := true }.goto id thread .loadTest
        cell :=
          { state.cell with
            value := some id
            created := state.cell.created ++ [id] }.goto id .done } := by
  obtain ⟨inside, same⟩ := List.getElem?_eq_some_iff.mp found
  simp [List.replicate, Machine.run, machine, Locked.step, alive, same, execute,
    create, here, LazyCell.step, checking, empty, free, LazyCell.goto,
    LazyStage.past, World.goto, inside]

/-- Nobody has the lock while all are resting. -/
theorem Resting.free
    (resting : state.Resting)
    (safe : state.cell.Safe) :
    state.cell.owner = none := by
  cases owner : state.cell.owner with
  | none => rfl
  | some id =>
      have inside := (safe.threads id).owner.mpr owner
      rcases resting id with here | here
      · rw [here] at inside
        exact inside.elim
      · rw [here] at inside
        exact inside.elim

/-- The steps of a thread that leave all resting. -/
theorem Resting.goto
    {world : World}
    {cell : LazyCell Nat Nat}
    {id : Nat}
    (resting : state.Resting)
    (stage : cell.stage = state.cell.stage) :
    Resting { world := world, cell := cell.goto id .done } := by
  intro other
  by_cases own : other = id
  · rw [own]
    exact .inr LazyCell.stage_goto_self
  · refine (resting other).imp ?_ ?_
    all_goals
      intro here
      rw [LazyCell.stage_goto_of_ne own, stage]
      exact here

/-- A thread that is alone creates `instance`, or finds it. -/
theorem exists_run_of_instantiating
    {id : Nat}
    {thread : Thread}
    (sound : state.Sound)
    (resting : state.Resting)
    (alive : state.world.alive = true)
    (found : state.world.threads[id]? = some thread)
    (here : thread.location = .instantiating) :
    ∃ actions finish, (machine device).run state actions = some finish ∧
      finish.world =
        { state.world with hasInstance := true }.goto id thread .loadTest ∧
      finish.Resting := by
  have checking : state.cell.stage id = .checking := by
    apply (resting id).resolve_right
    intro done
    have early := (sound.threads id thread found).creating here
    rw [done] at early
    cases early
  cases value : state.cell.value with
  | none =>
      have ran := @run_create device state id thread alive found here checking
        value (resting.free sound.safe)
      exact ⟨_, _, ran, rfl, resting.goto rfl⟩
  | some object =>
      have created : state.create id thread = some
          { world :=
              { state.world with hasInstance := true }.goto id thread .loadTest
            cell := state.cell.goto id .done } := by
        simp [create, LazyCell.step, LazyCell.goto, checking, value, here,
          LazyStage.past]
      have fired := (@step_of_create device _ _ _ alive found (.inl here)).trans
        created
      exact ⟨[.thread id], _, Machine.run_singleton.trans fired, rfl,
        resting.goto rfl⟩

/-- Every step of the machine that creates `instance` at once is a run. -/
theorem exists_run_of_step
    {action : Action}
    {world : World}
    (sound : state.Sound)
    (resting : state.Resting)
    (stepped : (Engine.machine device).step state.world action = some world) :
    ∃ actions finish, (machine device).run state actions = some finish ∧
      finish.world = world ∧ finish.Resting := by
  have single : (machine device).step state action =
      some { state with world := world } → ∃ actions finish,
        (machine device).run state actions = some finish ∧
          finish.world = world ∧ finish.Resting := by
    intro fired
    exact ⟨[action], _, Machine.run_singleton.trans fired, rfl, resting⟩
  cases action with
  | thread id =>
      obtain ⟨alive, bound⟩ := Option.ite_none_right_eq_some.mp stepped
      obtain ⟨thread, found, executed⟩ := Option.bind_eq_some_iff.mp bound
      by_cases here : thread.location = .instantiating
      · rw [World.execute, here] at executed
        cases executed
        exact exists_run_of_instantiating sound resting alive found here
      · apply single
        have leaving : state.cell.stage id ≠ .leaving := by
          intro leaving
          rcases resting id with other | other
          all_goals
            rw [leaving] at other
            cases other
        have bound : state.world.threads[id]?.bind (state.execute device id) =
            some { state with world := world } := by
          rw [found, Option.bind_some, execute, if_neg (not_or.mpr ⟨here, leaving⟩),
            executed]
          rfl
        exact (if_pos alive).trans bound
  | call program => exact single (congrArg (Option.map _) stepped)
  | arrive position results => exact single (congrArg (Option.map _) stepped)
  | ui => exact single (congrArg (Option.map _) stepped)

/-- A thread that is creating `instance` goes on, or the one that has the lock
does. -/
theorem Sound.progress
    {id : Nat}
    {thread : Thread}
    (sound : state.Sound)
    (alive : state.world.alive = true)
    (found : state.world.threads[id]? = some thread)
    (here : thread.location = .instantiating) :
    ∃ other, (state.cell.owner = some other ∨ other = id) ∧
      ((machine device).step state (.thread other)).isSome = true := by
  have enabled : ∀ other seen, state.world.threads[other]? = some seen →
      seen.location = .instantiating ∨ state.cell.stage other = .leaving →
      (state.cell.step other other).isSome = true →
        ((machine device).step state (.thread other)).isSome = true := by
    intro other seen present creating goes
    rw [step_of_create alive present creating, Locked.create, Option.isSome_map]
    exact goes
  have waiting : state.cell.stage id ≠ .done := by
    intro done
    have before := (sound.threads id thread found).creating here
    rw [done] at before
    cases before
  rcases @LazyCell.Safe.progress _ _ _ _ _ id sound.safe waiting with
    goes | ⟨other, owner, inside⟩
  · exact ⟨id, .inr rfl, enabled id thread found (.inl here) goes⟩
  · refine ⟨other, .inl owner, ?_⟩
    cases present : state.world.threads[other]? with
    | none =>
        rw [sound.absent other present] at inside
        exact inside.elim
    | some seen =>
        apply enabled other seen present _ (LazyCell.step_of_inside inside)
        rcases Decidable.em (seen.location = .instantiating) with same | elsewhere
        · exact .inl same
        · right
          rcases (sound.threads other seen present).other elsewhere with
            checking | past
          · rw [checking] at inside
            exact inside.elim
          · exact LazyStage.eq_leaving inside past

/-- The cell takes the steps of a thread or stays as it is. -/
theorem cell_step
    {action : Action}
    (stepped : (machine device).step state action = some next) :
    next.cell = state.cell ∨ ∃ id, state.cell.step id id = some next.cell := by
  cases action with
  | thread id =>
      obtain ⟨-, bound⟩ := Option.ite_none_right_eq_some.mp stepped
      obtain ⟨thread, -, executed⟩ := Option.bind_eq_some_iff.mp bound
      unfold Locked.execute at executed
      split at executed
      next =>
        obtain ⟨cell, moved, same⟩ := Option.map_eq_some_iff.mp executed
        right
        refine ⟨id, ?_⟩
        rw [moved, ← same]
        split <;> rfl
      next =>
        obtain ⟨world, -, same⟩ := Option.map_eq_some_iff.mp executed
        cases same
        exact .inl rfl
  | call | arrive | ui =>
      obtain ⟨world, -, same⟩ := Option.map_eq_some_iff.mp stepped
      cases same
      exact .inl rfl

/-- An `instance` that is assigned stays. -/
theorem Sound.value_run
    {actions : List Action}
    {finish : Locked}
    {object : Nat}
    (sound : state.Sound)
    (value : state.cell.value = some object)
    (ran : (machine device).run state actions = some finish) :
    finish.cell.value = some object := by
  have kept : ∀ state action next,
      (Sound state ∧ state.cell.value = some object) →
      (machine device).step state action = some next →
        Sound next ∧ next.cell.value = some object := by
    rintro state action next ⟨sound, value⟩ stepped
    refine ⟨(sound.step stepped).1, ?_⟩
    rcases cell_step stepped with same | ⟨id, moved⟩
    · rw [same]
      exact value
    · exact sound.safe.value_step moved value
  exact (Machine.run_invariant kept ran ⟨sound, value⟩).2

/-- What the lock and the second look are for. -/
structure Once (device : Device) (state : Locked) : Prop where
  /-- The other statements see `instance` as null until it is assigned. -/
  hasInstance : state.world.alive = true →
    (state.world.hasInstance = true ↔ ∃ object, state.cell.value = some object)
  /-- One `LLMW` at most is created. -/
  created : state.cell.created.length ≤ 1
  /-- A thread that has looked finds the one that was created. -/
  found : ∀ id, (state.cell.stage id).past = true →
    ∃ object, state.cell.value = some object ∧ state.cell.created = [object]
  /-- Two threads do not have the lock together. -/
  exclusive : ∀ id other, (state.cell.stage id).Inside →
    (state.cell.stage other).Inside → other = id
  /-- A thread that is creating `instance` goes on, or the one that has the lock
  does. -/
  progress : state.world.alive = true → ∀ id thread,
    state.world.threads[id]? = some thread → thread.location = .instantiating →
      ∃ other, (state.cell.owner = some other ∨ other = id) ∧
        ((machine device).step state (.thread other)).isSome = true

theorem Sound.once
    (sound : state.Sound) :
    state.Once device where
  hasInstance alive := by
    rw [sound.same alive, Option.isSome_iff_exists]
  created := sound.safe.created_le
  found id past := by
    obtain ⟨object, value⟩ := Option.isSome_iff_exists.mp
      ((sound.safe.threads id).filled past)
    exact ⟨object, value, sound.safe.created_eq value⟩
  exclusive _ _ := sound.safe.exclusive
  progress alive _ _ := sound.progress alive

/-- Statement by statement, among the threads that load and unload models, the
creation of `instance` leads to the same states of the process as in one step;
in every run one `LLMW` at most is created, and `instance` is never replaced. -/
theorem getInstance_creates_once
    (prefs : Prefs) :
    (∀ world,
      (∃ actions state,
        (machine device).run (fresh prefs) actions = some state ∧
          state.world = world) ↔
      ∃ actions,
        (Engine.machine device).run (World.fresh prefs) actions = some world) ∧
    ∀ actions state,
      (machine device).run (fresh prefs) actions = some state →
        state.Once device ∧
          ∀ more later object, state.cell.value = some object →
            (machine device).run state more = some later →
              later.cell.value = some object := by
  have matched : ∀ state action next world,
      (state.Sound ∧ state.world = world) →
      (machine device).step state action = some next →
        ∃ moves final, (Engine.machine device).run world moves = some final ∧
          (next.Sound ∧ next.world = final) := by
    rintro state action next world ⟨sound, rfl⟩ stepped
    obtain ⟨kept, waits | fires⟩ := sound.step stepped
    · exact ⟨[], state.world, rfl, kept, waits⟩
    · exact ⟨[action], next.world, Machine.run_singleton.trans fires, kept, rfl⟩
  have split : ∀ world action after (state : Locked),
      (state.Sound ∧ state.Resting ∧ state.world = world) →
      (Engine.machine device).step world action = some after →
        ∃ moves final, (machine device).run state moves = some final ∧
          (final.Sound ∧ final.Resting ∧ final.world = after) := by
    rintro world action after state ⟨sound, resting, rfl⟩ stepped
    obtain ⟨moves, final, ran, same, rest⟩ :=
      exists_run_of_step sound resting stepped
    have kept := Machine.run_invariant
      (fun state action next sound fired => (Sound.step sound fired).1) ran sound
    exact ⟨moves, final, ran, kept, rest, same⟩
  refine ⟨fun world => ⟨?_, ?_⟩, ?_⟩
  · rintro ⟨actions, state, ran, rfl⟩
    obtain ⟨moves, final, moved, -, rfl⟩ :=
      Machine.exists_run_of_matched matched ⟨sound_fresh, rfl⟩ ran
    exact ⟨moves, moved⟩
  · rintro ⟨actions, ran⟩
    obtain ⟨moves, final, moved, -, -, same⟩ :=
      Machine.exists_run_of_matched split
        ⟨sound_fresh, fun _ => .inl rfl, rfl⟩ ran
    exact ⟨moves, final, moved, same⟩
  · intro actions state ran
    have sound := Machine.run_invariant
      (fun state action next sound fired => (Sound.step sound fired).1) ran
      sound_fresh
    exact ⟨sound.once, fun _ _ _ value => sound.value_run value⟩

/-- Two threads find `instance` null; the second gets the lock first and creates
it, and the first finds it at its second look. -/
theorem getInstance_creates_once_for_two :
    ∃ state : Locked, state.cell.created = [1] ∧ state.cell.stage 0 = .done ∧
      state.Once ⟨id, 0, false⟩ := by
  let actions : List Action :=
    [.call (.getInstance none), .call (.getInstance none), .thread 0, .thread 1] ++
      List.replicate 5 (.thread 1) ++ List.replicate 3 (.thread 0)
  have ran : ∃ state, (machine ⟨id, 0, false⟩).run (fresh {}) actions = some state ∧
      state.cell.created = [1] ∧ state.cell.stage 0 = .done := ⟨_, rfl, rfl, rfl⟩
  obtain ⟨state, ran, created, done⟩ := ran
  have kept := (@getInstance_creates_once ⟨id, 0, false⟩ {}).2 actions state ran
  exact ⟨state, created, done, kept.1⟩

end Locked

end Engine
end IdoProject
