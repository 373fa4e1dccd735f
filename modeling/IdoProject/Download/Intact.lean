import IdoProject.Download.PartialFiles
import IdoProject.Download.Registry

/-!
# What a downloaded file holds

Where no download is accepted before the callbacks of its file are done with the
registries, every byte of a file comes from the last callback that opened it: the
file holds what that callback has written of its response, in place and in order.
A download that is announced complete has its whole response in the file, unless
the user has deleted the file since the callback opened it.
-/

namespace IdoProject
namespace Download

open Java
open Storage
open Transition

namespace Call

/-- The callback has yet to announce that it is complete. -/
def Announcing (call : Call) : Prop :=
  ∃ rest, call.stage = .ending rest ∧
    .sendBroadcast (.complete call.filename) ∈ rest

/-- The callback has read its whole response, and has yet to announce it. -/
def Finishing (call : Call) : Prop :=
  call.stage = .closing ∨ call.Announcing

/-- The callback has its file open, or has yet to announce it. -/
def Holds (call : Call) : Prop :=
  match call.stage with
  | .looping _ | .checking _ | .writing _ | .closing | .deleting => True
  | .created | .enqueued | .opening => False
  | .ending _ => call.Announcing

end Call

/-- The process, beside which is recorded what the user does. -/
structure Watched where
  world : World
  /-- The files that the user has deleted since a callback last opened them. -/
  deleted : List JString := []

namespace Watched

/-- The deletions that count after a step. -/
def deletedAfter (watched : Watched) : Action → List JString
  | .deleteModel filename => filename :: watched.deleted
  | .openOutput id true =>
      watched.deleted.filter fun filename =>
        watched.world.calls[id]?.map Call.filename ≠ some filename
  | _ => watched.deleted

/-- One step of the process. -/
def step (watched : Watched) (action : Action) : Option Watched :=
  (watched.world.step action).map fun next =>
    { world := next
      deleted := watched.deletedAfter action }

/-- The process with the record as a machine. -/
def machine : Transition.Machine Watched Action where
  step := step

end Watched

/-- What every file holds, and what is announced. -/
structure Intact (watched : Watched) : Prop where
  /-- A file that a download has opened holds what the last one to open it has
  written, which is the front of its response. -/
  faithful : ∀ (name : JString) (node : Nat) (entry : Node UInt8 Nat) (id : Nat),
    watched.world.disk.lookup name = some node →
      watched.world.disk.nodes[node]? = some entry → entry.opener = some id →
        ∃ call, watched.world.calls[id]? = some call ∧ call.filename = name ∧
          entry.content = call.body.take call.written
  /-- A download about to be announced is complete, or the user has deleted its
  file. -/
  announced : ∀ (id : Nat) (call : Call),
    watched.world.calls[id]? = some call → call.Announcing →
      (∃ node, watched.world.disk.lookup call.filename = some node ∧
        watched.world.disk.nodes[node]?.map Node.content = some call.body) ∨
      (watched.world.disk.lookup call.filename = none ∧
        call.filename ∈ watched.deleted)

/-- The file a callback has open: nobody has opened it since, and it holds what
the callback has written. -/
def Stored (disk : Files) (id : Nat) (call : Call) : Prop :=
  ∃ node entry, call.output = some node ∧ disk.nodes[node]? = some entry ∧
    entry.opener = some id ∧ entry.content = call.body.take call.written ∧
      (disk.lookup call.filename = some node ∨
        disk.lookup call.filename = none)

/-- A callback that has read its whole response has written it, and goes on with
these statements. -/
structure Done (call : Call) : Prop where
  whole : call.written = call.body.length
  statements : call.stage = .closing ∨
    call.stage = .ending
      (broadcastComplete call.filename ++ finallyBlock call.filename) ∨
    call.stage = .ending
      (.sendBroadcast (.complete call.filename) :: finallyBlock call.filename)

/-- What holds in every state while downloads are accepted unclaimed. -/
structure ContentKept (world : World) : Prop where
  registered : Registered world
  wellFormed : WellFormed world
  stored : ∀ (id : Nat) (call : Call), world.calls[id]? = some call →
    call.Holds → Stored world.disk id call
  done : ∀ (id : Nat) (call : Call), world.calls[id]? = some call →
    call.Finishing → Done call
  faithful : ∀ (name : JString) (node : Nat) (entry : Node UInt8 Nat) (id : Nat),
    world.disk.lookup name = some node →
      world.disk.nodes[node]? = some entry → entry.opener = some id →
        ∃ call, world.calls[id]? = some call ∧ call.filename = name ∧
          call.output = some node ∧ entry.content = call.body.take call.written

/-- The file of a callback that has it open, or has yet to announce it, is there
unless the user has deleted it. -/
def Watched.Present (watched : Watched) : Prop :=
  ∀ (id : Nat) (call : Call), watched.world.calls[id]? = some call →
    call.Holds → call.filename ∉ watched.deleted →
      (watched.world.disk.lookup call.filename).isSome = true

variable {world next : World}
variable {action : Action}
variable {id other : Nat}
variable {call found changed : Call}

theorem Done.not_spent
    (done : Done call) :
    ¬call.Spent := by
  intro spent
  rw [Call.Spent] at spent
  rcases done.statements with stage | stage | stage
  · rw [stage] at spent
    exact spent
  all_goals
    rw [stage] at spent
    apply spent (.removeActive call.filename) _ rfl
    simp [broadcastComplete, finallyBlock]

theorem Call.Finishing.holds
    (finishing : call.Finishing) :
    call.Holds := by
  rcases finishing with closing | ⟨rest, stage, present⟩
  · rw [Call.Holds, closing]
    trivial
  · rw [Call.Holds, stage]
    exact ⟨rest, stage, present⟩

section ContentKept

/-- A callback that has a file open is not spent. -/
theorem ContentKept.not_spent
    (kept : ContentKept world)
    (listed : world.calls[id]? = some call)
    (holds : call.Holds) :
    ¬call.Spent := by
  cases stage : call.stage with
  | ending rest =>
      rw [Call.Holds, stage] at holds
      exact (kept.done id call listed (.inr holds)).not_spent
  | created | enqueued | opening =>
      rw [Call.Holds, stage] at holds
      exact holds.elim
  | looping | checking | writing | closing | deleting =>
      apply Call.not_spent_of_stage
      rw [stage]
      nofun

/-- Two callbacks that are not spent have different files. -/
theorem ContentKept.filename_ne
    (kept : ContentKept world)
    (listed : world.calls[id]? = some call)
    (notSpent : ¬call.Spent)
    (present : world.calls[other]? = some found)
    (holds : found.Holds)
    (different : other ≠ id) :
    found.filename ≠ call.filename :=
  fun same => different (kept.registered.single other id found call present
    listed same (kept.not_spent present holds) notSpent)

theorem ContentKept.intact
    {watched : Watched}
    (kept : ContentKept watched.world)
    (present : watched.Present) :
    Intact watched where
  faithful name node entry id linked stored opener := by
    obtain ⟨call, listed, named, -, content⟩ :=
      kept.faithful name node entry id linked stored opener
    exact ⟨call, listed, named, content⟩
  announced id call listed announcing := by
    have holds : call.Holds := Call.Finishing.holds (.inr announcing)
    obtain ⟨node, entry, -, stored, -, content, linked | free⟩ :=
      kept.stored id call listed holds
    · refine .inl ⟨node, linked, ?_⟩
      rw [stored, Option.map_some, content,
        (kept.done id call listed (.inr announcing)).whole, List.take_length]
    · refine .inr ⟨free, ?_⟩
      by_contra undeleted
      have there := present id call listed holds undeleted
      rw [free] at there
      cases there

end ContentKept

section Unwritten

/-- What a step that writes nothing makes of a call. -/
structure Resumes (call changed : Call) : Prop where
  filename : changed.filename = call.filename
  output : changed.output = call.output
  written : changed.written = call.written
  body : changed.body = call.body ∨ call.stage.Unopened
  holds : changed.Holds → call.Holds
  done : (call.Finishing → Done call) → changed.Finishing → Done changed

theorem Resumes.refl : Resumes call call :=
  ⟨rfl, rfl, rfl, .inl rfl, fun holds => holds, fun done => done⟩

/-- A call that holds nothing and finishes nothing any more. -/
theorem resumes_of_not_holds
    (filename : changed.filename = call.filename)
    (output : changed.output = call.output)
    (written : changed.written = call.written)
    (body : changed.body = call.body ∨ call.stage.Unopened)
    (not : ¬changed.Holds) :
    Resumes call changed where
  filename := filename
  output := output
  written := written
  body := body
  holds holds := absurd holds not
  done _ finishing := absurd finishing.holds not

/-- A callback that goes on to statements among which it announces nothing. -/
theorem not_holds_ending
    {rest : List Statement}
    (absent : .sendBroadcast (.complete call.filename) ∉ rest) :
    ¬({ call with stage := .ending rest } : Call).Holds := by
  rintro ⟨others, same, present⟩
  cases same
  exact absent present

theorem Call.Holds.opened
    (holds : call.Holds) :
    ¬call.stage.Unopened := by
  intro unopened
  rw [Call.Holds] at holds
  cases stage : call.stage <;> simp_all [Stage.Unopened]

/-- The file of a callback after a step that writes nothing to it. -/
theorem Stored.resumes
    {disk after : Files}
    (stored : Stored disk id call)
    (resumes : Resumes call changed)
    (opened : ¬call.stage.Unopened)
    (nodes : after.nodes = disk.nodes)
    (lookup : ∀ name, after.lookup name = disk.lookup name ∨
      after.lookup name = none) :
    Stored after id changed := by
  obtain ⟨node, entry, output, present, opener, content, linked⟩ := stored
  refine ⟨node, entry, resumes.output.trans output, nodes ▸ present, opener, ?_, ?_⟩
  · rw [content, resumes.written, resumes.body.resolve_right opened]
  · rw [resumes.filename]
    rcases lookup call.filename with same | free
    · rw [same]
      exact linked
    · exact .inr free

/-- A step that writes nothing keeps what every file holds. -/
theorem ContentKept.of_resumes
    (kept : ContentKept world)
    (registered : Registered next)
    (wellFormed : WellFormed next)
    (nodes : next.disk.nodes = world.disk.nodes)
    (lookup : ∀ name, next.disk.lookup name = world.disk.lookup name ∨
      next.disk.lookup name = none)
    (length : world.calls.length ≤ next.calls.length)
    (back : ∀ (id : Nat) (changed : Call), next.calls[id]? = some changed →
      (∃ call, world.calls[id]? = some call ∧ Resumes call changed) ∨
        world.calls.length ≤ id ∧ ¬changed.Holds) :
    ContentKept next where
  registered := registered
  wellFormed := wellFormed
  stored id changed present holds := by
    rcases back id changed present with ⟨call, listed, resumes⟩ | ⟨-, not⟩
    · have before := resumes.holds holds
      exact (kept.stored id call listed before).resumes resumes before.opened
        nodes lookup
    · exact absurd holds not
  done id changed present finishing := by
    rcases back id changed present with ⟨call, listed, resumes⟩ | ⟨-, not⟩
    · exact resumes.done (kept.done id call listed) finishing
    · exact absurd finishing.holds not
  faithful name node entry id linked present opener := by
    have before : world.disk.lookup name = some node := by
      rcases lookup name with same | free
      · exact same ▸ linked
      · rw [free] at linked
        cases linked
    obtain ⟨call, listed, named, output, content⟩ :=
      kept.faithful name node entry id before (nodes ▸ present) opener
    have inside := (List.getElem?_eq_some_iff.mp listed).1
    have after := List.getElem?_eq_getElem (Nat.lt_of_lt_of_le inside length)
    rcases back id _ after with ⟨same, also, resumes⟩ | ⟨outside, -⟩
    · rw [listed] at also
      cases also
      refine ⟨_, after, resumes.filename.trans named,
        resumes.output.trans output, ?_⟩
      rw [content, resumes.written]
      rcases resumes.body with same | unopened
      · rw [same]
      · rw [((kept.wellFormed id call listed).untouched unopened).1] at output
        cases output
    · omega

/-- A step of one callback that writes nothing. -/
theorem ContentKept.of_set
    (kept : ContentKept world)
    (registered : Registered next)
    (wellFormed : WellFormed next)
    (nodes : next.disk.nodes = world.disk.nodes)
    (lookup : ∀ name, next.disk.lookup name = world.disk.lookup name ∨
      next.disk.lookup name = none)
    (listed : world.calls[id]? = some call)
    (calls : next.calls = world.calls.set id changed)
    (resumes : Resumes call changed) :
    ContentKept next := by
  apply kept.of_resumes registered wellFormed nodes lookup
  · rw [calls, List.length_set]
  · intro other found present
    rw [calls] at present
    rcases listed_set present with ⟨rfl, rfl⟩ | ⟨_, before⟩
    · exact .inl ⟨call, listed, resumes⟩
    · exact .inl ⟨found, before, .refl⟩

/-- A statement leaves nothing to announce. -/
theorem not_mem_exec
    {statement : Statement}
    {this : Nat}
    {broadcast : Broadcast} :
    .sendBroadcast broadcast ∉ (world.exec this statement).2 := by
  cases statement with
  | getActive | ifIdle | ifHeld | release | stopSelf =>
      simp only [World.exec]
      split <;> simp
  | _ => simp [World.exec]

/-- A callback goes on with its last statements. -/
theorem resumes_ending
    {statement : Statement}
    {rest : List Statement}
    (stage : call.stage = .ending (statement :: rest)) :
    Resumes call
      { call with
        stage := .ending ((world.exec call.service statement).2 ++ rest) } := by
  have still : ∀ {name}, .sendBroadcast (.complete name) ∈
      (world.exec call.service statement).2 ++ rest →
        .sendBroadcast (.complete name) ∈ rest := by
    intro name present
    exact (List.mem_append.mp present).resolve_left not_mem_exec
  constructor
  case filename | output | written => rfl
  case body => exact .inl rfl
  case holds =>
    rintro ⟨others, same, present⟩
    cases same
    rw [Call.Holds, stage]
    exact ⟨_, stage, List.mem_cons_of_mem _ (still present)⟩
  case done =>
    rintro done (closing | ⟨others, same, present⟩)
    · cases closing
    · cases same
      have before := done (.inr ⟨_, stage, List.mem_cons_of_mem _ (still present)⟩)
      refine ⟨before.whole, ?_⟩
      rcases before.statements with other | other | other
      · rw [stage] at other
        cases other
      · rw [stage] at other
        cases other
        exact .inr (.inr rfl)
      · rw [stage] at other
        cases other
        have absent := still present
        simp [finallyBlock, releaseWakeLockAndStopService] at absent

/-- A callback goes on with the statements of its round. -/
theorem resumes_looping
    {pending rest : List Statement}
    (stage : call.stage = .looping pending) :
    Resumes call { call with stage := .looping rest } where
  filename := rfl
  output := rfl
  written := rfl
  body := .inl rfl
  holds _ := by
    rw [Call.Holds, stage]
    trivial
  done _ finishing := by
    rcases finishing with closing | ⟨others, same, -⟩
    · cases closing
    · cases same

/-- A call is cancelled. -/
theorem resumes_cancel :
    Resumes call { call with canceled := true } where
  filename := rfl
  output := rfl
  written := rfl
  body := .inl rfl
  holds holds := holds
  done done finishing :=
    have before := done finishing
    ⟨before.whole, before.statements⟩

/-- A call is enqueued. -/
theorem resumes_enqueue
    (created : call.stage = .created) :
    Resumes call { call with stage := .enqueued } :=
  resumes_of_not_holds rfl rfl rfl (.inr (created ▸ trivial)) fun holds => holds

/-- A callback goes on to statements among which it announces nothing. -/
theorem resumes_of_silent
    {rest : List Statement}
    (absent : .sendBroadcast (.complete call.filename) ∉ rest) :
    Resumes call { call with stage := .ending rest } :=
  resumes_of_not_holds rfl rfl rfl (.inl rfl) (not_holds_ending absent)

/-- A callback goes on in its copy loop. -/
theorem resumes_of_stage
    {stage : Stage}
    (holds : call.Holds)
    (closing : stage ≠ .closing)
    (ending : ∀ rest, stage ≠ .ending rest) :
    Resumes call { call with stage := stage } where
  filename := rfl
  output := rfl
  written := rfl
  body := .inl rfl
  holds _ := holds
  done _ finishing := by
    rcases finishing with same | ⟨rest, same, -⟩
    · exact absurd same closing
    · exact absurd same (ending rest)

/-- A call after a statement of the main thread. -/
theorem resumes_of_mainEffect
    {statement : Statement}
    (effect : MainEffect world next statement)
    (present : next.calls[id]? = some changed) :
    (∃ call, world.calls[id]? = some call ∧ Resumes call changed) ∨
      world.calls.length ≤ id ∧ ¬changed.Holds := by
  cases effect with
  | made model calls =>
      rw [calls] at present
      rcases listed_append present with old | ⟨rfl, rfl⟩
      · exact .inl ⟨changed, old, .refl⟩
      · exact .inr ⟨Nat.le_refl _, fun holds => holds⟩
  | enqueued target calls =>
      rw [calls] at present
      obtain ⟨before, listed, rfl⟩ := listed_modify present
      refine .inl ⟨before, listed, ?_⟩
      split
      · split
        next created => exact resumes_enqueue created
        next => exact .refl
      · exact .refl
  | canceled target calls =>
      rw [calls] at present
      obtain ⟨before, listed, rfl⟩ := listed_modify present
      refine .inl ⟨before, listed, ?_⟩
      split
      · exact resumes_cancel
      · exact .refl
  | kept _ calls =>
      rw [calls] at present
      exact .inl ⟨changed, present, .refl⟩

/-- A statement of the main thread keeps what every file holds. -/
theorem ContentKept.main
    (kept : ContentKept world)
    (registered : Registered next)
    (wellFormed : WellFormed next)
    {statement : Statement}
    (disk : next.disk = world.disk)
    (effect : MainEffect world next statement) :
    ContentKept next := by
  have lookup : ∀ name, next.disk.lookup name = world.disk.lookup name ∨
      next.disk.lookup name = none := by
    intro name
    rw [disk]
    exact .inl rfl
  apply kept.of_resumes registered wellFormed (congrArg _ disk) lookup
  case length =>
    cases effect with
    | made model calls =>
        rw [calls, List.length_append]
        exact Nat.le_add_right ..
    | enqueued target calls | canceled target calls =>
        rw [calls, List.length_modify]
    | kept _ calls => rw [calls]
  case back => exact fun _ _ present => resumes_of_mainEffect effect present

/-- A move of a callback that writes nothing. -/
theorem resumes_of_advance
    {disk : Files}
    (moved : Advance disk call action changed)
    (unopened : ∀ id, action ≠ .openOutput id true)
    (unwritten : ∀ id outcome, action ≠ .write id outcome) :
    Resumes call changed := by
  cases moved with
  | failed | refused =>
      apply resumes_of_silent
      simp [cleanupAndBroadcastFailure, broadcastFailure,
        releaseWakeLockAndStopService]
  | answered id body known stage =>
      exact resumes_of_not_holds rfl rfl rfl (.inr (stage ▸ trivial))
        fun holds => holds
  | opened id => exact absurd rfl (unopened id)
  | notOpened | notRead =>
      apply resumes_of_silent
      simp [catchBlock, cleanupAndBroadcastFailure, broadcastFailure,
        finallyBlock, releaseWakeLockAndStopService]
  | read id count chunk stage =>
      apply resumes_of_stage
      · rw [Call.Holds, stage]
        trivial
      · rintro ⟨⟩
      · rintro rest ⟨⟩
  | readAll id whole stage =>
      constructor
      case filename | output | written => rfl
      case body => exact .inl rfl
      case holds =>
        intro _
        rw [Call.Holds, stage]
        trivial
      case done => exact fun _ _ => ⟨whole, .inl rfl⟩
  | checked id count stage =>
      apply resumes_of_stage
      · rw [Call.Holds, stage]
        trivial
      · split <;> rintro ⟨⟩
      · intro rest
        split <;> rintro ⟨⟩
  | wrote id => exact absurd rfl (unwritten id .ok)
  | notWritten id count done => exact absurd rfl (unwritten id (.throws done))
  | closed id ok stage =>
      cases ok with
      | false =>
          apply resumes_of_silent
          simp [catchBlock, cleanupAndBroadcastFailure, broadcastFailure,
            finallyBlock, releaseWakeLockAndStopService]
      | true =>
          constructor
          case filename | output | written => rfl
          case body => exact .inl rfl
          case holds =>
            intro _
            rw [Call.Holds, stage]
            trivial
          case done =>
            exact fun done _ => ⟨(done (.inl stage)).whole, .inr (.inl rfl)⟩
  | deleted id ok =>
      apply resumes_of_silent
      cases ok <;>
        simp [catchBlock, cleanupAndBroadcastFailure, broadcastFailure,
          finallyBlock, releaseWakeLockAndStopService]

end Unwritten

section Written

/-- Beside a call that is not spent, the file of another callback is another
one. -/
theorem ContentKept.lookup_ne
    (kept : ContentKept world)
    (listed : world.calls[id]? = some call)
    (notSpent : ¬call.Spent)
    (present : world.calls[other]? = some found)
    (holds : found.Holds)
    (different : other ≠ id)
    {node : Nat}
    (output : found.output = some node) :
    world.disk.lookup call.filename ≠ some node := by
  intro linked
  have named := (kept.wellFormed other found present).named _ node output linked
  exact kept.filename_ne listed notSpent present holds different named.symm

/-- A callback opens its file. -/
theorem ContentKept.opened
    (kept : ContentKept world)
    (registered : Registered next)
    (wellFormed : WellFormed next)
    (listed : world.calls[id]? = some call)
    (stage : call.stage = .opening)
    (disk : next.disk = (world.disk.openForWriting call.filename id).1)
    (calls : next.calls = world.calls.set id
      { call with
        stage := .looping []
        output := some (world.disk.openForWriting call.filename id).2 }) :
    ContentKept next := by
  obtain ⟨self, empty, others, old, place⟩ :=
    Disk.openForWriting_spec world.disk call.filename id
  rw [← disk] at self empty others old
  have ok := kept.wellFormed id call listed
  obtain ⟨unopened, unwritten⟩ := ok.untouched (stage ▸ trivial)
  have notSpent : ¬call.Spent := by
    apply Call.not_spent_of_stage
    rw [stage]
    nofun
  have below := (List.getElem?_eq_some_iff.mp listed).1
  constructor
  case registered => exact registered
  case wellFormed => exact wellFormed
  case stored =>
    intro other found present holds
    rw [calls] at present
    rcases listed_set present with ⟨rfl, rfl⟩ | ⟨different, before⟩
    · refine ⟨_, _, rfl, empty, rfl, ?_, .inl self⟩
      rw [unwritten]
      rfl
    · obtain ⟨node, entry, output, stored, opener, content, linked⟩ :=
        kept.stored other found before holds
      have apart : node ≠ (world.disk.openForWriting call.filename id).2 := by
        rintro rfl
        rcases place with same | ⟨-, new⟩
        · exact kept.lookup_ne listed notSpent before holds different output same
        · have inside := (kept.wellFormed other found before).linked _ output
          omega
      have name := kept.filename_ne listed notSpent before holds different
      refine ⟨node, entry, output, old node entry apart stored, opener, content, ?_⟩
      rw [others _ name]
      exact linked
  case done =>
    intro other found present finishing
    rw [calls] at present
    rcases listed_set present with ⟨rfl, rfl⟩ | ⟨different, before⟩
    · rcases finishing with closing | ⟨rest, ending, -⟩
      · cases closing
      · cases ending
    · exact kept.done other found before finishing
  case faithful =>
    intro name node entry owner linked stored opener
    by_cases mine : name = call.filename
    · subst mine
      rw [self] at linked
      cases linked
      rw [empty] at stored
      cases stored
      cases opener
      have after := calls ▸ List.getElem?_set_self below
      refine ⟨_, after, rfl, rfl, ?_⟩
      rw [unwritten]
      rfl
    · have apart : node ≠ (world.disk.openForWriting call.filename id).2 := by
        rintro rfl
        exact mine (next.disk.single _ _ _ linked self)
      rw [others name mine] at linked
      have inside := List.getElem?_eq_getElem (world.disk.linked name node linked)
      have same := (old node _ apart inside).symm.trans stored
      cases same
      obtain ⟨holder, held, named, output, content⟩ :=
        kept.faithful name node _ owner linked inside opener
      have different : id ≠ owner := by
        rintro rfl
        rw [listed] at held
        cases held
        rw [unopened] at output
        cases output
      refine ⟨holder, ?_, named, output, content⟩
      rw [calls, List.getElem?_set_ne different]
      exact held

/-- A callback writes to its file. -/
theorem ContentKept.wrote
    (kept : ContentKept world)
    (registered : Registered next)
    (wellFormed : WellFormed next)
    {node count done : Nat}
    (listed : world.calls[id]? = some call)
    (stage : call.stage = .writing count)
    (output : call.output = some node)
    (part : done ≤ count)
    (disk : next.disk = world.disk.write node call.written
      (slice call.body call.written done))
    (calls : next.calls = world.calls.set id changed)
    (wrote : Wrote call done changed)
    (unfinished : ¬changed.Finishing) :
    ContentKept next := by
  have below := (List.getElem?_eq_some_iff.mp listed).1
  have after : next.calls[id]? = some changed := by
    rw [calls]
    exact List.getElem?_set_self below
  have holds : call.Holds := by
    rw [Call.Holds, stage]
    trivial
  have notSpent := kept.not_spent listed holds
  obtain ⟨own, entry, opened, stored, opener, content, linked⟩ :=
    kept.stored id call listed holds
  rw [output] at opened
  cases opened
  have within := (kept.wellFormed id call listed).within
  rw [Call.Within, stage] at within
  -- the file now holds that much more of the response
  have written : next.disk.nodes[node]? = some
      { entry with content := changed.body.take changed.written } := by
    rw [disk, Disk.getElem?_write_self stored, content, wrote.body, wrote.written,
      writeAt_take_slice (Nat.le_trans (Nat.add_le_add_left part _) within)]
  have lookup : next.disk.lookup = world.disk.lookup := by
    rw [disk, Disk.lookup_write]
  have elsewhere : ∀ {position}, position ≠ node →
      next.disk.nodes[position]? = world.disk.nodes[position]? := by
    intro position different
    rw [disk, Disk.getElem?_write_of_ne different]
  constructor
  case registered => exact registered
  case wellFormed => exact wellFormed
  case stored =>
    intro other found present holds
    rw [calls] at present
    rcases listed_set present with ⟨rfl, rfl⟩ | ⟨different, before⟩
    · refine ⟨node, _, wrote.output.trans output, written, opener, rfl, ?_⟩
      rw [lookup, wrote.filename]
      exact linked
    · obtain ⟨position, others, out, there, who, same, at_⟩ :=
        kept.stored other found before holds
      have apart : position ≠ node := by
        rintro rfl
        rw [stored] at there
        cases there
        rw [opener] at who
        exact different (Option.some.inj who).symm
      refine ⟨position, others, out, ?_, who, same, ?_⟩
      · rw [elsewhere apart]
        exact there
      · rw [lookup]
        exact at_
  case done =>
    intro other found present finishing
    rw [calls] at present
    rcases listed_set present with ⟨rfl, rfl⟩ | ⟨different, before⟩
    · exact absurd finishing unfinished
    · exact kept.done other found before finishing
  case faithful =>
    intro name position others owner at_ there who
    rw [lookup] at at_
    by_cases same : position = node
    · subst same
      rw [written] at there
      cases there
      rw [opener] at who
      cases who
      have named := (kept.wellFormed id call listed).named name position output at_
      exact ⟨changed, after, wrote.filename.trans named.symm,
        wrote.output.trans output, rfl⟩
    · rw [elsewhere same] at there
      obtain ⟨holder, held, named, out, front⟩ :=
        kept.faithful name position others owner at_ there who
      have different : id ≠ owner := by
        rintro rfl
        rw [listed] at held
        cases held
        rw [output] at out
        exact same (Option.some.inj out).symm
      refine ⟨holder, ?_, named, out, front⟩
      rw [calls, List.getElem?_set_ne different]
      exact held

end Written

section Runs

/-- Every step keeps what the files hold when what it accepts is unclaimed. -/
theorem ContentKept.step
    (kept : ContentKept world)
    (unclaimed : Unclaimed world action)
    (fired : world.step action = some next) :
    ContentKept next := by
  have registered := kept.registered.step unclaimed fired
  have wellFormed :=
    kept.wellFormed.of_effect (effect_of_step kept.wellFormed fired)
  have same : ∀ {after : Files}, after = world.disk →
      ∀ name, after.lookup name = world.disk.lookup name ∨
        after.lookup name = none := by
    rintro after rfl name
    exact .inl rfl
  have unlinked : ∀ {after : Files} (gone : JString),
      after = world.disk.unlink gone →
        ∀ name, after.lookup name = world.disk.lookup name ∨
          after.lookup name = none := by
    rintro after gone rfl name
    by_cases here : name = gone
    · rw [here]
      exact .inr Disk.lookup_unlink_self
    · exact .inl (Disk.lookup_unlink_of_ne here)
  have quiet : next.disk = world.disk → next.calls = world.calls → ContentKept next := by
    intro disk calls
    apply kept.of_resumes registered wellFormed (congrArg _ disk) (same disk)
    · rw [calls]
    · intro id changed present
      rw [calls] at present
      exact .inl ⟨changed, present, .refl⟩
  cases (moves_of_step fired).2 with
  | command intent =>
      have commanded := commanded_onStartCommand world intent
      exact quiet commanded.disk commanded.calls
  | main statement rest queued =>
      exact kept.main registered wellFormed disk_exec (mainEffect_exec ..)
  | destroy => exact quiet rfl rfl
  | deleteModel filename =>
      apply kept.of_resumes registered wellFormed rfl (unlinked filename rfl)
      · exact Nat.le_refl _
      · exact fun id changed present => .inl ⟨changed, present, .refl⟩
  | progress id call statement rest listed stage =>
      obtain ⟨-, calls, -⟩ :=
        Turn.of_report listed (kept.registered.scripted id call listed) stage
      exact kept.of_set registered wellFormed (congrArg _ disk_exec)
        (same disk_exec) listed calls (resumes_looping stage)
  | cleanUp id call statement rest listed stage =>
      obtain ⟨-, calls, -⟩ :=
        Turn.of_cleanUp listed (kept.registered.scripted id call listed) stage
      exact kept.of_set registered wellFormed (congrArg _ disk_exec)
        (same disk_exec) listed calls (resumes_ending stage)
  | advance action id call changed known listed moved =>
      have resumes := resumes_of_advance moved
      cases moved with
      | opened other stage =>
          cases known
          exact kept.opened registered wellFormed listed stage rfl rfl
      | wrote other count node output stage =>
          cases known
          have unfinished : ¬(call.afterWrite count).Finishing := by
            obtain ⟨pending, progress, -, after⟩ := afterWrite_spec call count
            rw [after]
            rintro (closing | ⟨rest, ending, -⟩)
            · cases closing
            · cases ending
          apply kept.wrote registered wellFormed listed stage output
            (Nat.le_refl _) _ rfl (wrote_afterWrite call count).1 unfinished
          simp only [World.setCall, World.diskAfter, stage, output]
      | notWritten other count done node part output stage =>
          cases known
          have unfinished :
              ¬{ call with written := call.written + done }.failed.Finishing := by
            rintro (closing | ⟨rest, ending, present⟩)
            · cases closing
            · cases ending
              simp [catchBlock, cleanupAndBroadcastFailure, broadcastFailure,
                finallyBlock, releaseWakeLockAndStopService] at present
          apply kept.wrote registered wellFormed listed stage output part _ rfl
            (wrote_failed call done) unfinished
          simp only [World.setCall, World.diskAfter, stage, output]
      | deleted other ok stage =>
          exact kept.of_set registered wellFormed rfl (unlinked call.filename rfl)
            listed rfl (resumes (by rintro _ ⟨⟩) (by rintro _ _ ⟨⟩))
      | failed | refused | answered | notOpened | read | readAll | notRead
      | checked | closed =>
          exact kept.of_set registered wellFormed rfl (same rfl) listed rfl
            (resumes (by rintro _ ⟨⟩) (by rintro _ _ ⟨⟩))

/-- A callback that holds its file after a step held it before, or has opened it
with the step. -/
theorem ContentKept.held_before
    (kept : ContentKept world)
    (moves : Moves world action next)
    (present : next.calls[id]? = some changed)
    (holds : changed.Holds) :
    (∃ call, world.calls[id]? = some call ∧ call.Holds ∧
        call.filename = changed.filename) ∨
      action = .openOutput id true ∧
        (next.disk.lookup changed.filename).isSome = true := by
  have of_resumes {before : Call} (listed : world.calls[id]? = some before)
      (resumes : Resumes before changed) :
      ∃ call, world.calls[id]? = some call ∧ call.Holds ∧
        call.filename = changed.filename :=
    ⟨before, listed, resumes.holds holds, resumes.filename.symm⟩
  have of_set {other : Nat} {call after : Call}
      (listed : world.calls[other]? = some call)
      (calls : next.calls = world.calls.set other after)
      (resumes : Resumes call after) :
      ∃ call, world.calls[id]? = some call ∧ call.Holds ∧
        call.filename = changed.filename := by
    rw [calls] at present
    rcases listed_set present with ⟨rfl, rfl⟩ | ⟨-, before⟩
    · exact of_resumes listed resumes
    · exact of_resumes before .refl
  cases moves with
  | command intent =>
      rw [(commanded_onStartCommand world intent).calls] at present
      exact .inl (of_resumes present .refl)
  | main statement rest queued =>
      rcases resumes_of_mainEffect (mainEffect_exec ..) present with
        ⟨call, listed, resumes⟩ | ⟨-, not⟩
      · exact .inl (of_resumes listed resumes)
      · exact absurd holds not
  | destroy | deleteModel => exact .inl (of_resumes present .refl)
  | progress other call statement rest listed stage =>
      obtain ⟨-, calls, -⟩ :=
        Turn.of_report listed (kept.registered.scripted other call listed) stage
      exact .inl (of_set listed calls (resumes_looping stage))
  | cleanUp other call statement rest listed stage =>
      obtain ⟨-, calls, -⟩ :=
        Turn.of_cleanUp listed (kept.registered.scripted other call listed) stage
      exact .inl (of_set listed calls (resumes_ending stage))
  | advance action other call after known listed moved =>
      rcases listed_set present with ⟨rfl, rfl⟩ | ⟨-, before⟩
      case inr => exact .inl (of_resumes before .refl)
      have resumes := resumes_of_advance moved
      cases moved with
      | opened =>
          cases known
          obtain ⟨self, -⟩ :=
            Disk.openForWriting_spec world.disk call.filename id
          exact .inr ⟨rfl, Option.isSome_iff_exists.mpr ⟨_, self⟩⟩
      | wrote _ count _ _ stage =>
          have held : call.Holds := by
            rw [Call.Holds, stage]
            trivial
          exact .inl ⟨call, listed, held,
            (wrote_afterWrite call count).1.filename.symm⟩
      | notWritten _ _ _ _ _ _ stage =>
          have held : call.Holds := by
            rw [Call.Holds, stage]
            trivial
          exact .inl ⟨call, listed, held, rfl⟩
      | failed | refused | answered | notOpened | read | readAll | notRead
      | checked | closed | deleted =>
          exact .inl (of_resumes listed
            (resumes (by rintro _ ⟨⟩) (by rintro _ _ ⟨⟩)))

/-- A callback that has deleted its file holds it no more. -/
theorem not_holds_of_delete
    {ok : Bool}
    (moves : Moves world (.delete id ok) next)
    (present : next.calls[id]? = some changed) :
    ¬changed.Holds := by
  cases moves with
  | advance action other call after known listed moved =>
      cases known
      rcases listed_set present with ⟨-, rfl⟩ | ⟨different, -⟩
      · cases moved
        apply not_holds_ending
        cases ok <;>
          simp [catchBlock, cleanupAndBroadcastFailure, broadcastFailure,
            finallyBlock, releaseWakeLockAndStopService]
      · exact absurd rfl different

/-- A callback deletes the file that it holds. -/
theorem holds_of_delete
    {ok : Bool}
    (moves : Moves world (.delete id ok) next)
    (listed : world.calls[id]? = some call) :
    call.Holds := by
  cases moves with
  | advance action other found after known also moved =>
      cases known
      rw [listed] at also
      cases also
      cases moved with
      | deleted _ _ stage =>
          rw [Call.Holds, stage]
          trivial

/-- A file that was opened is there. -/
theorem lookup_of_open
    (moves : Moves world (.openOutput id true) next) :
    ∃ call, world.calls[id]? = some call ∧
      (next.disk.lookup call.filename).isSome = true := by
  cases moves with
  | advance action other call after known listed moved =>
      cases known
      cases moved with
      | opened =>
          obtain ⟨self, -⟩ :=
            Disk.openForWriting_spec world.disk call.filename id
          exact ⟨call, listed, Option.isSome_iff_exists.mpr ⟨_, self⟩⟩

/-- Nobody but the user removes the file of a callback that holds it. -/
theorem Watched.Present.step
    {watched after : Watched}
    (present : watched.Present)
    (kept : ContentKept watched.world)
    (fired : watched.step action = some after) :
    after.Present := by
  obtain ⟨next, stepped, rfl⟩ := Option.map_eq_some_iff.mp fired
  have moves := (moves_of_step stepped).2
  intro id changed listed holds undeleted
  rcases kept.held_before moves listed holds with
    ⟨call, before, held, named⟩ | ⟨-, opened⟩
  case inr => exact opened
  dsimp only at undeleted ⊢
  rw [← named] at undeleted ⊢
  have remains (counted : call.filename ∉ watched.deleted)
      (other : ∀ filename, action ≠ .deleteModel filename) :
      (next.disk.lookup call.filename).isSome = true := by
    have there := present id call before held counted
    rcases lookup_of_moves moves other there with
      there | ⟨cancelled, ok, found, rfl, also, same⟩
    · exact there
    · -- the file that a cancelled callback deletes is held by nobody else
      have different : id ≠ cancelled := by
        rintro rfl
        exact not_holds_of_delete moves listed holds
      have notSpent := kept.not_spent also (holds_of_delete moves also)
      exact absurd same
        (kept.filename_ne also notSpent before held different)
  cases action with
  | deleteModel filename =>
      rw [Watched.deletedAfter, List.mem_cons, not_or] at undeleted
      cases moves with
      | deleteModel =>
          change ((watched.world.disk.unlink filename).lookup
            call.filename).isSome = true
          rw [Disk.lookup_unlink_of_ne undeleted.1]
          exact present id call before held undeleted.2
      | advance _ _ _ _ known => cases known
  | openOutput opening ok =>
      cases ok with
      | false => exact remains undeleted (by rintro _ ⟨⟩)
      | true =>
          obtain ⟨found, also, opened⟩ := lookup_of_open moves
          by_cases same : found.filename = call.filename
          · rw [← same]
            exact opened
          · refine remains (fun counted => undeleted ?_) (by rintro _ ⟨⟩)
            simp [Watched.deletedAfter, also, counted, same]
  | _ => exact remains undeleted (by rintro _ ⟨⟩)

/-- A process begins with files that no download of it has opened. -/
theorem contentKept_start
    (disk : Files)
    (unopened : ∀ entry ∈ disk.nodes, entry.opener = none) :
    ContentKept (start disk) where
  registered := registered_start disk
  wellFormed := wellFormed_start disk
  stored _ _ listed := nomatch listed
  done _ _ listed := nomatch listed
  faithful name node entry id linked stored opener := by
    rw [unopened entry (List.mem_of_getElem? stored)] at opener
    cases opener

/-- In every run that accepts a download only when no earlier callback of its
file has anything left to remove: a file that downloads have opened holds what
the last of them has written of its response, and a download about to be
announced complete has left its whole response in its file, unless the user has
deleted it since it was opened. -/
theorem intact_of_unclaimed
    (disk : Files)
    (actions : List Action)
    (unopened : ∀ entry ∈ disk.nodes, entry.opener = none)
    (unclaimed : Watched.machine.Guarded
      (fun watched => Unclaimed watched.world) { world := start disk } actions) :
    Watched.machine.Always Intact { world := start disk } actions := by
  refine @Transition.Machine.always_of_guarded _ _ Watched.machine Intact
    (fun watched => ContentKept watched.world ∧ watched.Present) _ _ _
    ?_ ?_ unclaimed ?_
  · rintro watched action after ⟨kept, present⟩ unclaimed fired
    refine ⟨?_, present.step kept fired⟩
    obtain ⟨next, stepped, rfl⟩ := Option.map_eq_some_iff.mp fired
    exact kept.step unclaimed stepped
  · exact fun _ both => both.1.intact both.2
  · exact ⟨contentKept_start disk unopened, fun _ _ listed => nomatch listed⟩

/-- A download is cancelled after half of its response, and what is left of its
file is deleted by the user; the next one of the file begins anew and is
announced with all of it. -/
theorem intact_of_retry :
    Watched.machine.Always Intact { world := start Disk.empty }
      (opened miniModel [1, 2, 3, 4] ++
        [.read 0 (.bytes 2), .check 0, .write 0 .ok, .callback 0, .callback 0,
          .read 0 (.bytes 2),
          .onStartCommand (.cancelDownload (some miniModel.filename)), .main,
          .main, .check 0, .delete 0 true] ++
        List.replicate 8 .main ++ List.replicate 4 (.callback 0) ++
        .deleteModel miniModel.filename ::
        .onStartCommand (.download (some miniModel)) ::
          List.replicate 7 .main ++
        [.onResponse 1 true (some [5, 6, 7]) false, .openOutput 1 true,
          .read 1 (.bytes 3), .check 1, .write 1 .ok, .read 1 .endOfStream,
          .close 1 true, .callback 1, .callback 1]) :=
  intact_of_unclaimed Disk.empty _ (fun _ present => nomatch present)
    (by decide +kernel)

end Runs

end Download
end IdoProject
