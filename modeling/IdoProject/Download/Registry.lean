import IdoProject.Download.Threads

/-!
# Who is registered

The registries go by filename, and an entry is removed by the callback of any
call of the file, however late it comes to its last statements.  A download that
is accepted when every earlier callback of its file has removed what it removes
stays registered until its callback is at its last statements, and nobody else
touches its file.
-/

namespace IdoProject
namespace Download

open Java
open Storage
open Transition

variable {world next : World}
variable {action : Action}

/-- At most one callback may touch a file, and a call that goes on is the one
that is registered. -/
structure Exclusive (world : World) : Prop where
  /-- One callback at most is copying to a file or about to delete it. -/
  writer : ∀ (first second : Nat) (one other : Call),
    world.calls[first]? = some one → world.calls[second]? = some other →
      one.filename = other.filename → one.Copying → other.Copying →
        first = second
  /-- A call that goes on is found under its filename in both registries. -/
  registered : ∀ (id : Nat) (call : Call), world.calls[id]? = some call →
    call.Live →
      world.activeCalls.lookup call.filename = some id ∧
        call.filename ∈ world.ongoingDownloads

/-- A download is accepted when no earlier callback of its file has anything
left to remove from the registries. -/
def Unclaimed (world : World) : Action → Prop
  | .onStartCommand (.download (some model)) =>
      model.filename ∉ world.ongoingDownloads →
        ∀ call ∈ world.calls, call.filename = model.filename → call.Spent
  | _ => True

instance (world : World) : DecidablePred (Unclaimed world)
  | .onStartCommand (.download (some model)) =>
      inferInstanceAs (Decidable
        (model.filename ∉ world.ongoingDownloads →
          ∀ call ∈ world.calls, call.filename = model.filename → call.Spent))
  | .onStartCommand (.download none) | .onStartCommand (.cancelDownload _)
  | .onStartCommand .other | .main | .onDestroy | .deleteModel _ | .onFailure _
  | .onResponse _ _ _ _ | .openOutput _ _ | .read _ _ | .check _ | .write _ _
  | .close _ _ | .delete _ _ | .callback _ => .isTrue trivial

/-- Every call of the file is spent. -/
def Unused (world : World) (filename : JString) : Prop :=
  ∀ (id : Nat) (call : Call), world.calls[id]? = some call →
    call.filename = filename → call.Spent

/-- A call of the file that goes on is the one with the index. -/
def OnlyLive (world : World) (filename : JString) (id : Nat) : Prop :=
  ∀ (other : Nat) (call : Call), world.calls[other]? = some call →
    call.filename = filename → call.Live → other = id

/-- No call of the file goes on. -/
def NoLive (world : World) (filename : JString) : Prop :=
  ∀ (id : Nat) (call : Call), world.calls[id]? = some call →
    call.filename = filename → ¬call.Live

/-- What the main thread has left to run, and what it relies on. -/
inductive MainOk (world : World) : List Statement → Prop
  | acquire (model : Model) (unused : Unused world model.filename) :
      MainOk world (downloadModel model)
  | put (model : Model) (unused : Unused world model.filename) :
      MainOk world
        (.putOngoing model.filename 0 ::
          (broadcastProgress model.filename 0 ++ [.newCall model]))
  | announce (model : Model) (unused : Unused world model.filename)
      (ongoing : model.filename ∈ world.ongoingDownloads) :
      MainOk world (broadcastProgress model.filename 0 ++ [.newCall model])
  | send (model : Model) (unused : Unused world model.filename)
      (ongoing : model.filename ∈ world.ongoingDownloads) :
      MainOk world
        [.sendBroadcast (.progress model.filename 0), .newCall model]
  | make (model : Model) (unused : Unused world model.filename)
      (ongoing : model.filename ∈ world.ongoingDownloads) :
      MainOk world [.newCall model]
  | register (id : Nat) (call : Call) (listed : world.calls[id]? = some call)
      (created : call.stage = .created)
      (ongoing : call.filename ∈ world.ongoingDownloads) :
      MainOk world [.putActive call.filename id, .enqueue id]
  | enqueue (id : Nat) (call : Call) (listed : world.calls[id]? = some call)
      (created : call.stage = .created)
      (ongoing : call.filename ∈ world.ongoingDownloads)
      (active : world.activeCalls.lookup call.filename = some id) :
      MainOk world [.enqueue id]
  | ask (filename : JString) : MainOk world (cancelDownload filename)
  | cancel (filename : JString) (id : Nat)
      (only : OnlyLive world filename id) :
      MainOk world (.cancel id :: cleanupAndBroadcastFailure filename)
  | clean (rest : List Statement)
      (cleans : ∀ statement ∈ rest, ∃ filename, statement.Cleans filename)
      (unused : ∀ statement ∈ rest, ∀ filename,
        statement.Removes filename → NoLive world filename) :
      MainOk world rest

/-- What holds in every state while downloads are accepted unclaimed. -/
structure Registered (world : World) : Prop where
  scripted : Scripted world
  /-- One call of a file at most is not spent. -/
  single : ∀ (first second : Nat) (one other : Call),
    world.calls[first]? = some one → world.calls[second]? = some other →
      one.filename = other.filename → ¬one.Spent → ¬other.Spent →
        first = second
  live : ∀ (id : Nat) (call : Call), world.calls[id]? = some call →
    call.Live →
      world.activeCalls.lookup call.filename = some id ∧
        call.filename ∈ world.ongoingDownloads
  main : MainOk world world.main

theorem Registered.exclusive
    (registered : Registered world) :
    Exclusive world where
  writer := fun first second one other inOne inOther same copying also =>
    registered.single first second one other inOne inOther same
      copying.not_spent also.not_spent
  registered := registered.live

section Turns

variable {id : Nat}
variable {call changed : Call}

/-- Replacing one call by another of the same file that is spent if it was. -/
theorem Registered.single_of_set
    (registered : Registered world)
    (listed : world.calls[id]? = some call)
    (calls : next.calls = world.calls.set id changed)
    (filename : changed.filename = call.filename)
    (spent : call.Spent → changed.Spent)
    (first second : Nat)
    (one other : Call)
    (inOne : next.calls[first]? = some one)
    (inOther : next.calls[second]? = some other)
    (same : one.filename = other.filename)
    (unspent : ¬one.Spent)
    (also : ¬other.Spent) :
    first = second := by
  rw [calls] at inOne inOther
  rcases listed_set inOne with ⟨rfl, rfl⟩ | ⟨_, before⟩ <;>
    rcases listed_set inOther with ⟨rfl, rfl⟩ | ⟨_, before'⟩
  · rfl
  · exact registered.single first second call other listed before'
      (filename ▸ same) (mt spent unspent) also
  · exact registered.single first second one call before listed
      (filename ▸ same) unspent (mt spent also)
  · exact registered.single first second one other before before' same unspent
      also

theorem Unused.turn
    {filename : JString}
    (unused : Unused world filename)
    (turn : Turn world next id call changed) :
    Unused next filename := by
  intro other found present same
  rcases turn.listed_after present with ⟨_, rfl⟩ | ⟨_, before⟩
  · exact turn.spent (unused id call turn.listed (turn.filename ▸ same))
  · exact unused other found before same

theorem OnlyLive.turn
    {filename : JString}
    {only : Nat}
    (holds : OnlyLive world filename only)
    (turn : Turn world next id call changed) :
    OnlyLive next filename only := by
  intro other found present same live
  rcases turn.listed_after present with ⟨rfl, rfl⟩ | ⟨_, before⟩
  · exact holds other call turn.listed (turn.filename ▸ same) (turn.live live)
  · exact holds other found before same live

theorem NoLive.turn
    {filename : JString}
    (holds : NoLive world filename)
    (turn : Turn world next id call changed) :
    NoLive next filename := by
  intro other found present same live
  rcases turn.listed_after present with ⟨rfl, rfl⟩ | ⟨_, before⟩
  · exact holds other call turn.listed (turn.filename ▸ same) (turn.live live)
  · exact holds other found before same live

/-- Beside a call that is not spent, a callback of the same file has nothing to
remove. -/
theorem Registered.spent_of_ne
    (registered : Registered world)
    (turn : Turn world next id call changed)
    {other : Nat}
    {found : Call}
    (different : other ≠ id)
    (listed : world.calls[other]? = some found)
    (notSpent : ¬found.Spent)
    (same : found.filename = call.filename) :
    call.Spent := by
  by_contra also
  exact different (registered.single other id found call listed turn.listed same
    notSpent also)

/-- A callback leaves alone what the main thread relies on. -/
theorem Registered.main_turn
    (registered : Registered world)
    (turn : Turn world next id call changed) :
    MainOk next next.main := by
  have unusedOngoing {filename : JString} (unused : Unused world filename)
      (ongoing : filename ∈ world.ongoingDownloads) :
      filename ∈ next.ongoingDownloads :=
    turn.mem_ongoingDownloads
      (fun same => Or.inl (unused id call turn.listed same.symm)) ongoing
  have createdKept {other : Nat} {found : Call}
      (listed : world.calls[other]? = some found)
      (created : found.stage = .created) :
      next.calls[other]? = some found ∧
        (found.filename = call.filename → call.Spent ∨ call.Live) := by
    have different : other ≠ id := by
      rintro rfl
      rw [turn.listed] at listed
      cases listed
      exact turn.begun created
    constructor
    · rw [turn.calls, List.getElem?_set_ne different.symm]
      exact listed
    · exact fun same => Or.inl (registered.spent_of_ne turn different listed
        (Call.not_spent_of_stage (by simp [created])) same)
  have main := registered.main
  rw [turn.main]
  generalize world.main = queue at main ⊢
  cases main with
  | acquire model unused => exact .acquire model (unused.turn turn)
  | put model unused => exact .put model (unused.turn turn)
  | announce model unused ongoing =>
      exact .announce model (unused.turn turn) (unusedOngoing unused ongoing)
  | send model unused ongoing =>
      exact .send model (unused.turn turn) (unusedOngoing unused ongoing)
  | make model unused ongoing =>
      exact .make model (unused.turn turn) (unusedOngoing unused ongoing)
  | register other found listed created ongoing =>
      obtain ⟨kept, free⟩ := createdKept listed created
      exact .register other found kept created
        (turn.mem_ongoingDownloads free ongoing)
  | enqueue other found listed created ongoing active =>
      obtain ⟨kept, free⟩ := createdKept listed created
      exact .enqueue other found kept created
        (turn.mem_ongoingDownloads free ongoing)
        ((turn.lookup_activeCalls free).trans active)
  | ask filename => exact .ask filename
  | cancel filename other only => exact .cancel filename other (only.turn turn)
  | clean _ cleans unused =>
      exact .clean _ cleans fun statement present filename removes =>
        (unused statement present filename removes).turn turn

/-- A step of a callback keeps the registries right. -/
theorem Registered.turn
    (registered : Registered world)
    (moves : Moves world action next)
    (known : action.call? = some id) :
    Registered next := by
  obtain ⟨call, changed, turn⟩ :=
    turn_of_moves registered.scripted moves known
  refine ⟨scripted_step registered.scripted moves,
    registered.single_of_set turn.listed turn.calls turn.filename turn.spent,
    ?_, registered.main_turn turn⟩
  · intro other found present live
    rcases turn.listed_after present with ⟨rfl, rfl⟩ | ⟨different, before⟩
    · have still := turn.live live
      obtain ⟨active, ongoing⟩ := registered.live other call turn.listed still
      rw [turn.filename]
      exact ⟨(turn.lookup_activeCalls fun _ => Or.inr still).trans active,
        turn.mem_ongoingDownloads (fun _ => Or.inr still) ongoing⟩
    · obtain ⟨active, ongoing⟩ := registered.live other found before live
      have free : found.filename = call.filename → call.Spent ∨ call.Live :=
        fun same => Or.inl (registered.spent_of_ne turn different before
          live.not_spent same)
      exact ⟨(turn.lookup_activeCalls free).trans active,
        turn.mem_ongoingDownloads free ongoing⟩

end Turns

section Main

variable {statement : Statement}
variable {rest : List Statement}

/-- Where the calls stay and the entries of those that go on do, so do the
registries. -/
theorem Registered.of_calls
    (registered : Registered world)
    (calls : next.calls = world.calls)
    (kept : ∀ (id : Nat) (call : Call), world.calls[id]? = some call →
      call.Live →
        next.activeCalls.lookup call.filename = some id ∧
          call.filename ∈ next.ongoingDownloads)
    (main : MainOk next next.main) :
    Registered next where
  scripted := by
    rw [Scripted, calls]
    exact registered.scripted
  single := by
    rw [calls]
    exact registered.single
  live := by
    rw [calls]
    exact kept
  main := main

/-- Nothing is left to run that removes an entry. -/
theorem mainOk_of_quiet
    (quiet : ∀ statement ∈ rest, ∃ filename, statement.Cleans filename ∧
      ∀ name, ¬statement.Removes name) :
    MainOk world rest :=
  .clean rest (fun statement present => (quiet statement present).imp
      fun _ both => both.1)
    fun statement present filename removes => by
      obtain ⟨_, _, nothing⟩ := quiet statement present
      exact absurd removes (nothing filename)

/-- The clean-up of a cancellation, once no call of the file goes on. -/
theorem mainOk_of_cancelled
    {filename : JString}
    (noLive : NoLive world filename) :
    MainOk world (cleanupAndBroadcastFailure filename) := by
  refine .clean _ (fun statement present =>
    ⟨filename, cleans_cleanupAndBroadcastFailure present⟩) ?_
  intro statement present name removes
  have cleans := cleans_cleanupAndBroadcastFailure present
  have same : name = filename := by
    cases statement with
    | removeOngoing | removeActive => exact removes.symm.trans cleans
    | _ => cases removes
  exact same ▸ noLive

/-- A clean-up statement of the main thread. -/
theorem Registered.main_clean
    (registered : Registered world)
    (cleans : ∀ other ∈ statement :: rest, ∃ filename, other.Cleans filename)
    (unused : ∀ other ∈ statement :: rest, ∀ filename,
      other.Removes filename → NoLive world filename) :
    Registered
      { (world.exec world.services statement).1 with
        main := (world.exec world.services statement).2 ++ rest } := by
  obtain ⟨filename, cleans'⟩ := cleans statement List.mem_cons_self
  obtain ⟨later, calls, _⟩ :=
    cleans'.exec world world.services
  obtain ⟨active, ongoing⟩ :=
    cleans'.registries world world.services
  have free (removes : statement.Removes filename) : NoLive world filename :=
    unused statement List.mem_cons_self filename removes
  refine registered.of_calls calls (fun id call listed live => ?_) ?_
  · obtain ⟨lookup, present⟩ := registered.live id call listed live
    constructor
    · rcases active with same | ⟨removes, erased⟩
      · exact same ▸ lookup
      · have other : call.filename ≠ filename := fun same =>
          free (by rw [removes]; rfl) id call listed same live
        change AList.lookup call.filename
          (world.exec world.services statement).1.activeCalls = some id
        rw [erased, AList.lookup_erase_ne other]
        exact lookup
    · rcases ongoing with same | ⟨removes, erased⟩
      · exact same ▸ present
      · have other : call.filename ≠ filename := fun same =>
          free (by rw [removes]; rfl) id call listed same live
        change call.filename ∈
          (world.exec world.services statement).1.ongoingDownloads
        rw [erased, AList.mem_erase]
        exact ⟨other, present⟩
  · refine .clean _ (fun other present => ?_) fun other present name removes => ?_
    · rcases List.mem_append.mp present with new | old
      · exact ⟨filename, (later other new).1⟩
      · exact cleans other (List.mem_cons_of_mem _ old)
    · rcases List.mem_append.mp present with new | old
      · exact absurd removes ((later other new).2 name)
      · have still := unused other (List.mem_cons_of_mem _ old) name removes
        rw [NoLive]
        change ∀ (id : Nat) (call : Call),
          (world.exec world.services statement).1.calls[id]? = some call → _
        rw [calls]
        exact still

/-- A new call is made when every call of the file is spent. -/
theorem Registered.main_make
    (registered : Registered world)
    {model : Model}
    (queued : world.main = [.newCall model])
    (unused : Unused world model.filename)
    (ongoing : model.filename ∈ world.ongoingDownloads) :
    Registered
      { (world.exec world.services (.newCall model)).1 with
        main := (world.exec world.services (.newCall model)).2 ++ [] } := by
  refine ⟨scripted_step registered.scripted (.main _ _ queued), ?_, ?_,
    .register world.calls.length
      { filename := model.filename, url := model.path, service := world.services }
      List.getElem?_concat_length rfl ongoing⟩
  · intro first second one other inOne inOther same unspent also
    rcases listed_append inOne with old | ⟨rfl, rfl⟩ <;>
      rcases listed_append inOther with old' | ⟨rfl, rfl⟩
    · exact registered.single first second one other old old' same unspent also
    · exact absurd (unused first one old same) unspent
    · exact absurd (unused second other old' same.symm) also
    · rfl
  · intro id found present live
    rcases listed_append present with old | ⟨_, rfl⟩
    · exact registered.live id found old live
    · exact live.2.elim

/-- The new call is registered. -/
theorem Registered.main_register
    (registered : Registered world)
    {id : Nat}
    {call : Call}
    (listed : world.calls[id]? = some call)
    (created : call.stage = .created)
    (ongoing : call.filename ∈ world.ongoingDownloads) :
    Registered
      { (world.exec world.services (.putActive call.filename id)).1 with
        main := [.enqueue id] } := by
  refine registered.of_calls rfl (fun other found inside live => ?_)
    (.enqueue id call listed created ongoing (AList.lookup_insert _))
  obtain ⟨lookup, present⟩ := registered.live other found inside live
  refine ⟨?_, present⟩
  have different : found.filename ≠ call.filename := by
    intro same
    -- the call that goes on would be the one that is not enqueued yet
    obtain rfl := registered.single other id found call inside listed same
      live.not_spent (Call.not_spent_of_stage (by simp [created]))
    rw [listed] at inside
    cases inside
    rw [Call.Live, created] at live
    exact live.2
  exact (AList.lookup_insert_ne different).trans lookup

/-- The registered call is enqueued, and goes on from now. -/
theorem Registered.main_enqueue
    (registered : Registered world)
    {id : Nat}
    {call : Call}
    (queued : world.main = [.enqueue id])
    (listed : world.calls[id]? = some call)
    (created : call.stage = .created)
    (ongoing : call.filename ∈ world.ongoingDownloads)
    (active : world.activeCalls.lookup call.filename = some id) :
    Registered
      { (world.exec world.services (.enqueue id)).1 with
        main := (world.exec world.services (.enqueue id)).2 ++ [] } := by
  have calls : (world.exec world.services (.enqueue id)).1.calls =
      world.calls.set id { call with stage := .enqueued } := by
    change world.calls.modify id _ = _
    rw [modify_eq_set listed, if_pos created]
  refine ⟨scripted_step registered.scripted (.main _ _ queued),
    registered.single_of_set listed calls rfl ?_, ?_,
    mainOk_of_quiet fun _ present => absurd present List.not_mem_nil⟩
  · intro spent
    exact absurd spent (Call.not_spent_of_stage (by simp [created]))
  · intro other found present live
    change (World.exec world.services world (.enqueue id)).1.calls[other]? =
      some found at present
    rw [calls] at present
    rcases listed_set present with ⟨rfl, rfl⟩ | ⟨_, before⟩
    · exact ⟨active, ongoing⟩
    · exact registered.live other found before live

/-- The call that was found is cancelled, and then no call of the file goes
on. -/
theorem Registered.main_cancel
    (registered : Registered world)
    {filename : JString}
    {id : Nat}
    (queued : world.main = .cancel id :: cleanupAndBroadcastFailure filename)
    (only : OnlyLive world filename id) :
    Registered
      { (world.exec world.services (.cancel id)).1 with
        main := cleanupAndBroadcastFailure filename } := by
  have scripted := scripted_step registered.scripted (.main _ _ queued)
  cases listed : world.calls[id]? with
  | none =>
      have calls : (world.exec world.services (.cancel id)).1.calls =
          world.calls := by
        change world.calls.modify id _ = _
        rw [List.modify_eq_set_getElem?, listed]
        rfl
      refine registered.of_calls calls registered.live
        (mainOk_of_cancelled fun other found present same live => ?_)
      change (World.exec world.services world (.cancel id)).1.calls[other]? =
        some found at present
      rw [calls] at present
      rw [only other found present same live, listed] at present
      cases present
  | some call =>
      have calls : (world.exec world.services (.cancel id)).1.calls =
          world.calls.set id { call with canceled := true } := by
        change world.calls.modify id _ = _
        rw [modify_eq_set listed]
      have after {other : Nat} {found : Call}
          (present : (World.exec world.services world
            (.cancel id)).1.calls[other]? = some found)
          (live : found.Live) :
          other ≠ id ∧ world.calls[other]? = some found := by
        rw [calls] at present
        rcases listed_set present with ⟨_, rfl⟩ | kept
        · exact absurd live.1.symm Bool.false_ne_true
        · exact kept
      refine ⟨scripted,
        registered.single_of_set listed calls rfl fun spent => spent, ?_, ?_⟩
      · intro other found present live
        exact registered.live other found (after present live).2 live
      · refine mainOk_of_cancelled fun other found present same live => ?_
        obtain ⟨different, before⟩ := after present live
        exact different (only other found before same live)

/-- Every statement of the main thread keeps the registries right. -/
theorem Registered.main_step
    (registered : Registered world)
    (queued : world.main = statement :: rest) :
    Registered
      { (world.exec world.services statement).1 with
        main := (world.exec world.services statement).2 ++ rest } := by
  have main := registered.main
  rw [queued] at main
  generalize equal : statement :: rest = queue at main
  cases main with
  | acquire model unused =>
      obtain ⟨rfl, rfl⟩ := List.cons.inj equal
      exact registered.of_calls rfl registered.live (.put model unused)
  | put model unused =>
      obtain ⟨rfl, rfl⟩ := List.cons.inj equal
      refine registered.of_calls rfl (fun id call listed live => ?_)
        (.announce model unused ((AList.mem_insert _).mpr (Or.inl rfl)))
      obtain ⟨lookup, present⟩ := registered.live id call listed live
      exact ⟨lookup, (AList.mem_insert _).mpr (Or.inr present)⟩
  | announce model unused ongoing =>
      obtain ⟨rfl, rfl⟩ := List.cons.inj equal
      refine registered.of_calls rfl (fun id call listed live => ?_)
        (.send model unused ((AList.mem_insert _).mpr (Or.inl rfl)))
      obtain ⟨lookup, present⟩ := registered.live id call listed live
      exact ⟨lookup, (AList.mem_insert _).mpr (Or.inr present)⟩
  | send model unused ongoing =>
      obtain ⟨rfl, rfl⟩ := List.cons.inj equal
      exact registered.of_calls rfl registered.live (.make model unused ongoing)
  | make model unused ongoing =>
      obtain ⟨rfl, rfl⟩ := List.cons.inj equal
      exact registered.main_make queued unused ongoing
  | register id call listed created ongoing =>
      obtain ⟨rfl, rfl⟩ := List.cons.inj equal
      exact registered.main_register listed created ongoing
  | enqueue id call listed created ongoing active =>
      obtain ⟨rfl, rfl⟩ := List.cons.inj equal
      exact registered.main_enqueue queued listed created ongoing active
  | ask filename =>
      obtain ⟨rfl, rfl⟩ := List.cons.inj equal
      simp only [World.exec]
      split
      case h_1 id found =>
        refine registered.of_calls rfl registered.live (.cancel filename id ?_)
        intro other call listed same live
        have lookup := (registered.live other call listed live).1
        rw [same, found] at lookup
        exact (Option.some.inj lookup).symm
      case h_2 missing =>
        refine registered.of_calls rfl registered.live
          (mainOk_of_cancelled fun other call listed same live => ?_)
        have lookup := (registered.live other call listed live).1
        rw [same, missing] at lookup
        cases lookup
  | cancel filename id only =>
      obtain ⟨rfl, rfl⟩ := List.cons.inj equal
      exact registered.main_cancel queued only
  | clean _ cleans unused =>
      subst equal
      exact registered.main_clean cleans unused

/-- A command keeps the registries right when what it accepts is unclaimed. -/
theorem Registered.command
    (registered : Registered world)
    {intent : Intent}
    (idle : world.main = [])
    (unclaimed : Unclaimed world (.onStartCommand intent)) :
    Registered (world.onStartCommand intent) := by
  have commanded := commanded_onStartCommand world intent
  refine registered.of_calls commanded.calls (fun id call listed live => ?_) ?_
  · rw [commanded.active, commanded.ongoing]
    exact registered.live id call listed live
  · rcases commanded.main with ⟨model, rfl, accepted, main⟩ |
      ⟨filename, rfl, main⟩ | main
    · rw [main]
      refine .acquire model fun id call listed same => ?_
      rw [commanded.calls] at listed
      exact unclaimed accepted call (List.mem_of_getElem? listed) same
    · rw [main]
      exact .ask filename
    · rw [main, idle]
      exact mainOk_of_quiet fun _ present => absurd present List.not_mem_nil

/-- Every step keeps the registries right when what it accepts is
unclaimed. -/
theorem Registered.step
    (registered : Registered world)
    (unclaimed : Unclaimed world action)
    (fired : world.step action = some next) :
    Registered next := by
  have moves := (moves_of_step fired).2
  cases known : action.call? with
  | some id => exact registered.turn moves known
  | none =>
      cases moves with
      | command intent idle => exact registered.command idle unclaimed
      | main statement rest queued => exact registered.main_step queued
      | destroy idle =>
          refine registered.of_calls rfl registered.live
            (mainOk_of_quiet fun statement present => ?_)
          rw [List.mem_singleton.mp present]
          exact ⟨[], trivial, fun _ removes => removes⟩
      | deleteModel filename idle =>
          refine registered.of_calls rfl registered.live ?_
          change MainOk _ world.main
          rw [idle]
          exact mainOk_of_quiet fun _ present => absurd present List.not_mem_nil
      | progress | cleanUp => cases known
      | advance action id call changed owner =>
          rw [known] at owner
          cases owner

end Main

section Runs

theorem registered_start (disk : Files) : Registered (start disk) where
  scripted := fun id call listed => absurd listed (by simp [start])
  single := fun first second one other inOne => absurd inOne (by simp [start])
  live := fun id call listed => absurd listed (by simp [start])
  main := mainOk_of_quiet fun _ present => absurd present List.not_mem_nil

/-- In any run that accepts a download only when no earlier callback of its file
has anything left to remove, one callback at most touches a file, and a call
that goes on is registered, so that another download of its file is refused and
a cancellation reaches it. -/
theorem exclusive_of_unclaimed
    (disk : Files)
    (actions : List Action)
    (unclaimed : machine.Guarded Unclaimed (start disk) actions) :
    machine.Always Exclusive (start disk) actions :=
  Transition.Machine.always_of_guarded
    (fun _ _ _ registered unclaimed fired =>
      Registered.step registered unclaimed fired)
    (fun _ registered => registered.exclusive) unclaimed (registered_start disk)

/-- A download is cancelled and its callback has ended before the next one of
the file is accepted. -/
theorem exclusive_of_ended_cancel :
    machine.Always Exclusive (start Disk.empty)
      (opened miniModel [1, 2, 3, 4] ++
        [.read 0 (.bytes 2),
          .onStartCommand (.cancelDownload (some miniModel.filename)), .main,
          .main, .check 0, .delete 0 true] ++
        List.replicate 8 .main ++ List.replicate 4 (.callback 0) ++
        .onStartCommand (.download (some miniModel)) ::
          List.replicate 7 .main ++
        [.onResponse 1 true (some [1, 2, 3, 4]) true, .openOutput 1 true]) :=
  exclusive_of_unclaimed Disk.empty _ (by decide +kernel)

/-- A download is cancelled while its callback waits for the network, and
started again: two callbacks have the file open, and the first one deletes it
and takes the second call out of the registries. -/
theorem not_exclusive_of_restart :
    ∃ both finish,
      machine.run (start Disk.empty)
        (opened miniModel [1, 2, 3, 4] ++
          [.read 0 (.bytes 2),
            .onStartCommand (.cancelDownload (some miniModel.filename))] ++
          List.replicate 10 .main ++
          .onStartCommand (.download (some miniModel)) ::
            List.replicate 7 .main ++
          [.onResponse 1 true (some [1, 2, 3, 4]) true, .openOutput 1 true]) =
        some both ∧
      machine.run both [.check 0, .delete 0 true, .callback 0] = some finish ∧
      ¬Exclusive both ∧
      finish.disk.lookup miniModel.filename = none ∧
      finish.activeCalls.lookup miniModel.filename = none ∧
      ¬Exclusive finish := by
  obtain ⟨both, ran, seen⟩ := Option.map_eq_some_iff.mp
    (show (machine.run (start Disk.empty)
        (opened miniModel [1, 2, 3, 4] ++
          [.read 0 (.bytes 2),
            .onStartCommand (.cancelDownload (some miniModel.filename))] ++
          List.replicate 10 .main ++
          .onStartCommand (.download (some miniModel)) ::
            List.replicate 7 .main ++
          [.onResponse 1 true (some [1, 2, 3, 4]) true,
            .openOutput 1 true])).map
        (fun world =>
          (decide (world.calls.map Call.filename =
                [miniModel.filename, miniModel.filename] ∧
              world.calls.map Call.stage = [.checking 2, .looping []]),
            (machine.run world [.check 0, .delete 0 true, .callback 0]).map
              fun finish => decide
                (finish.disk.lookup miniModel.filename = none ∧
                  (finish.activeCalls.lookup miniModel.filename).isNone ∧
                  finish.calls.map Call.filename =
                    [miniModel.filename, miniModel.filename] ∧
                  finish.calls.map Call.canceled = [true, false] ∧
                  finish.calls.map Call.stage =
                    [.ending [.ifIdle], .looping []]))) =
      some (true, some true) by decide +kernel)
  simp only [Prod.mk.injEq, decide_eq_true_eq] at seen
  obtain ⟨⟨names, stages⟩, later⟩ := seen
  obtain ⟨finish, rest, seen⟩ := Option.map_eq_some_iff.mp later
  simp only [decide_eq_true_eq, Option.isNone_iff_eq_none] at seen
  obtain ⟨deleted, unregistered, names', canceled, stages'⟩ := seen
  refine ⟨both, finish, ran, rest, fun exclusive => ?_, deleted, unregistered,
    fun exclusive => ?_⟩
  · obtain ⟨one, other, listed⟩ := List.length_eq_two.mp
      (List.length_map Call.stage ▸ congrArg List.length stages)
    simp only [listed, List.map_cons, List.map_nil, List.cons.injEq]
      at names stages
    have same := exclusive.writer 0 1 one other (by rw [listed]; rfl)
      (by rw [listed]; rfl) (names.1.trans names.2.1.symm)
      (by rw [Call.Copying, stages.1]; trivial)
      (by rw [Call.Copying, stages.2.1]; trivial)
    cases same
  · obtain ⟨one, other, listed⟩ := List.length_eq_two.mp
      (List.length_map Call.stage ▸ congrArg List.length stages')
    simp only [listed, List.map_cons, List.map_nil, List.cons.injEq]
      at names' canceled stages'
    have found := (exclusive.registered 1 other (by rw [listed]; rfl)
      ⟨canceled.2.1, by rw [stages'.2.1]; trivial⟩).1
    rw [names'.2.1, unregistered] at found
    cases found

end Runs

end Download
end IdoProject
