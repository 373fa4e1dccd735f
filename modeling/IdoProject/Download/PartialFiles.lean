import IdoProject.Download.Steps
import IdoProject.Download.Threads

/-!
# Files a download leaves behind

A file that was not there before its download exists afterwards only if the
whole body was written to it, as long as no read or write of the copy loop fails
between the first and the last byte.  The other exits keep the promise: nothing
is opened before a failed response, a cancelled callback deletes the file, and
the copy loop ends when the body does.  Two callbacks may copy to one file; they
do no harm to each other when they copy the same body.
-/

namespace IdoProject
namespace Download

open Java
open Storage
open Transition

/-! ## What every run keeps -/

/-- Nothing is linked that was not, apart from new nodes. -/
structure Grows (before after : Files) : Prop where
  /-- No node is lost. -/
  length_le : before.nodes.length ≤ after.nodes.length
  /-- An old node has the names it had. -/
  lookup : ∀ name node, after.lookup name = some node →
    before.lookup name = some node ∨ before.nodes.length ≤ node

namespace Grows

variable {disk : Files} {name : JString} {id node offset : Nat}
variable {bytes : List UInt8}

theorem refl (disk : Files) : Grows disk disk :=
  ⟨Nat.le_refl _, fun _ _ found => Or.inl found⟩

theorem unlink : Grows disk (disk.unlink name) :=
  ⟨Nat.le_refl _, fun _ _ found => Or.inl (Disk.lookup_of_lookup_unlink found)⟩

theorem write : Grows disk (disk.write node offset bytes) where
  length_le := Nat.le_of_eq Disk.length_write.symm
  lookup := fun other found linked => by
    rw [Disk.lookup_write] at linked
    exact Or.inl linked

theorem openForWriting :
    Grows disk (disk.openForWriting name id).1 where
  length_le := Disk.length_openForWriting
  lookup := by
    intro other found linked
    obtain ⟨self, _, others, _, old⟩ := Disk.openForWriting_spec disk name id
    by_cases same : other = name
    · subst same
      rw [self] at linked
      cases linked
      rcases old with old | ⟨_, new⟩
      · exact Or.inl old
      · exact Or.inr (Nat.le_of_eq new.symm)
    · rw [others other same] at linked
      exact Or.inl linked

end Grows

namespace CallOk

variable {before after disk : Files} {id : Nat} {call next : Call}

/-- A call stays as it should be when the disk changes. -/
theorem grows
    (ok : CallOk before call)
    (grows : Grows before after) :
    CallOk after call where
  linked := fun node output =>
    Nat.lt_of_lt_of_le (ok.linked node output) grows.length_le
  named := by
    intro name node output found
    rcases grows.lookup name node found with old | new
    · exact ok.named name node output old
    · exact absurd (ok.linked node output) (Nat.not_lt.mpr new)
  untouched := ok.untouched
  within := ok.within

/-- A call stays as it should be in a quiet step. -/
theorem quiet
    (ok : CallOk before call)
    (quiet : Quiet disk id call next) :
    CallOk before next where
  linked := by rw [quiet.output]; exact ok.linked
  named := by rw [quiet.output, quiet.filename]; exact ok.named
  untouched := by
    intro unopened
    rw [quiet.output, quiet.written]
    exact ok.untouched (quiet.unopened unopened)
  within := quiet.within ok.within

end CallOk

theorem Call.Fresh.callOk
    {disk : Files}
    {call : Call}
    (fresh : call.Fresh) :
    CallOk disk call where
  linked := by rw [fresh.output]; intro node opened; cases opened
  named := by rw [fresh.output]; intro name node opened; cases opened
  untouched := fun _ => ⟨fresh.output, fresh.written⟩
  within := fresh.within

/-- A call whose callback has written so many bytes more. -/
structure Wrote (call : Call) (count : Nat) (changed : Call) : Prop where
  /-- The destination stays. -/
  filename : changed.filename = call.filename
  /-- The body stays. -/
  body : changed.body = call.body
  /-- The open file stays. -/
  output : changed.output = call.output
  /-- The bytes are counted. -/
  written : changed.written = call.written + count
  /-- The file is open. -/
  opened : ¬ changed.stage.Unopened
  /-- Nothing read is left to write. -/
  pending : changed.stage.pending = 0

/-- A written chunk, and the head of the loop after it. -/
theorem wrote_afterWrite
    (call : Call)
    (count : Nat) :
    Wrote call count (call.afterWrite count) ∧
      (call.afterWrite count).stage.Busy := by
  unfold Call.afterWrite
  dsimp only
  split <;> exact ⟨⟨rfl, rfl, rfl, rfl, id, rfl⟩, trivial⟩

/-- A torn chunk. -/
theorem wrote_failed
    (call : Call)
    (done : Nat) :
    Wrote call done { call with written := call.written + done }.failed :=
  ⟨rfl, rfl, rfl, rfl, id, rfl⟩

namespace WellFormed

variable {world next : World}

/-- A quiet step on a disk that only grows keeps every call as it should be. -/
theorem of_quietCalls
    {disk : Files}
    (wellFormed : WellFormed world)
    (grows : Grows world.disk next.disk)
    (calls : QuietCalls disk world.calls next.calls) :
    WellFormed next := by
  intro id changed listed
  rcases calls.back listed with ⟨call, before, quiet⟩ | fresh
  · exact ((wellFormed id call before).quiet quiet).grows grows
  · exact fresh.callOk

/-- A step that changes one call keeps the others as they should be. -/
theorem of_set
    {id : Nat}
    {changed : Call}
    (wellFormed : WellFormed world)
    (grows : Grows world.disk next.disk)
    (calls : next.calls = world.calls.set id changed)
    (ok : CallOk next.disk changed) :
    WellFormed next := by
  intro other call listed
  rw [calls] at listed
  rcases listed_set listed with ⟨_, rfl⟩ | ⟨_, before⟩
  · exact ok
  · exact (wellFormed other call before).grows grows

/-- A step that writes to the file of a call keeps every call as it should
be. -/
theorem of_wrote
    {id node count done : Nat}
    {call changed : Call}
    (wellFormed : WellFormed world)
    (listed : world.calls[id]? = some call)
    (stage : call.stage = .writing count)
    (part : done ≤ count)
    (disk : next.disk = world.disk.write node call.written
      (slice call.body call.written done))
    (calls : next.calls = world.calls.set id changed)
    (wrote : Wrote call done changed) :
    WellFormed next := by
  have grows : Grows world.disk next.disk := disk ▸ Grows.write
  have ok := (wellFormed id call listed).grows grows
  apply wellFormed.of_set grows calls
  constructor
  · rw [wrote.output]
    exact ok.linked
  · rw [wrote.output, wrote.filename]
    exact ok.named
  · exact fun unopened => absurd unopened wrote.opened
  · have within := ok.within
    rw [Call.Within, stage] at within
    rw [Call.Within, wrote.written, wrote.body, wrote.pending, Nat.add_zero]
    exact Nat.le_trans (Nat.add_le_add_left part _) within

/-- Every step keeps every call as it should be. -/
theorem of_effect
    {action : Action}
    (wellFormed : WellFormed world)
    (effect : Effect world action next) :
    WellFormed next := by
  cases effect with
  | quiet disk calls =>
      exact wellFormed.of_quietCalls (disk ▸ Grows.refl _) calls
  | unlinked name disk calls =>
      exact wellFormed.of_quietCalls (disk ▸ Grows.unlink) calls
  | @opened _ id call listed stage disk calls =>
      have ok := wellFormed id call listed
      have unopened : call.stage.Unopened := by rw [stage]; trivial
      obtain ⟨self, stored, _⟩ :=
        Disk.openForWriting_spec world.disk call.filename id
      apply wellFormed.of_set (disk ▸ Grows.openForWriting) calls
      rw [disk]
      constructor
      · intro node output
        cases output
        exact (List.getElem?_eq_some_iff.mp stored).1
      · intro name node output found
        cases output
        exact Disk.single _ _ _ _ found self
      · exact fun holds => holds.elim
      · exact Nat.le_trans (Nat.le_add_right ..) ok.within
  | wrote listed stage output disk calls =>
      exact wellFormed.of_wrote listed stage (Nat.le_refl _) disk calls
        (wrote_afterWrite _ _).1
  | tore listed stage output part disk calls =>
      exact wellFormed.of_wrote listed stage part disk calls
        (wrote_failed _ _)
  | @gaveUp _ id call listed stage disk calls =>
      have ok := wellFormed id call listed
      apply wellFormed.of_set (disk ▸ Grows.refl _) calls
      rw [disk]
      exact ⟨ok.linked, ok.named, fun holds => holds.elim,
        Nat.le_trans (Nat.le_add_right ..) ok.within⟩

end WellFormed

/-! ## The steps that do no harm -/

/-- Leaving the copy loop after so many more bytes does no harm: the body is
complete, or the file at the destination is not the one of this call. -/
def HarmlessExit (world : World) (id count : Nat) : Prop :=
  match world.calls[id]? with
  | some call =>
      call.written + count = call.body.length ∨
        current world.disk id call = false
  | none => True

/-- Whoever may yet write to the file that a callback opens writes the same
body. -/
def SameBodies (world : World) (id : Nat) : Prop :=
  match world.calls[id]? with
  | some call =>
      match world.disk.lookup call.filename with
      | some node =>
          ∀ writer ∈ world.calls, writer.output = some node →
            writer.MayWrite → writer.body = call.body
      | none => True
  | none => True

/-- No read or write of a copy loop fails between the first byte and the last
while the file of the callback stands at the destination, and callbacks that
write to one file write the same body. -/
def Benign (world : World) : Action → Prop
  | .read id .throws => HarmlessExit world id 0
  | .write id (.throws done) => HarmlessExit world id done
  | .openOutput id true => SameBodies world id
  | _ => True

section Decide

variable (world : World) (id count : Nat)

instance : Decidable (HarmlessExit world id count) := by
  unfold HarmlessExit
  split <;> infer_instance

instance : Decidable (SameBodies world id) := by
  unfold SameBodies
  split
  · split <;> infer_instance
  · infer_instance

instance (action : Action) : Decidable (Benign world action) := by
  unfold Benign
  split <;> infer_instance

end Decide

/-! ## The file at a destination -/

/-- The file with the name is the one that a call opened last.  The call has
copied its own body so far, and goes on or is done. -/
structure Copied
    (world : World)
    (name : JString)
    (node : Nat)
    (entry : Node UInt8 Nat)
    (id : Nat)
    (call : Call) : Prop where
  /-- The call. -/
  listed : world.calls[id]? = some call
  /-- The destination of the call. -/
  named : call.filename = name
  /-- The file the call has open. -/
  output : call.output = some node
  /-- What stands in the file. -/
  stored : world.disk.nodes[node]? = some entry
  /-- Nobody has opened the file since. -/
  opener : entry.opener = some id
  /-- The file holds what the call has written. -/
  agrees : Agrees call.body entry.content call.written
  /-- The call goes on or is done. -/
  underway : call.Underway
  /-- Nobody writes anything else to the file. -/
  same : ∀ (other : Nat) (writer : Call),
    world.calls[other]? = some writer → writer.output = some node →
      writer.MayWrite → writer.body = call.body

/-- If there is a file with the name, it is a copy under way or complete. -/
def Sound (name : JString) (world : World) : Prop :=
  ∀ node, world.disk.lookup name = some node →
    ∃ entry id call, Copied world name node entry id call

/-- Once every download of the file has ended, the file is there only if the
whole body was written to it. -/
def NoPartialFile (name : JString) (world : World) : Prop :=
  (∀ call ∈ world.calls, call.filename = name → call.stage = .ended) →
    ∀ node, world.disk.lookup name = some node →
      ∃ call ∈ world.calls, call.filename = name ∧
        call.written = call.body.length ∧
        world.disk.nodes[node]?.map Node.content = some call.body

theorem Sound.noPartialFile
    {name : JString}
    {world : World}
    (sound : Sound name world) :
    NoPartialFile name world := by
  intro ended node found
  obtain ⟨entry, id, call, copied⟩ := sound node found
  have listed := List.mem_of_getElem? copied.listed
  have endedHere := ended call listed copied.named
  have whole : call.written = call.body.length := by
    rcases copied.underway with busy | whole
    · rw [endedHere] at busy
      exact busy.elim
    · exact whole
  have content : entry.content = call.body := by
    apply Agrees.eq_source
    rw [← whole]
    exact copied.agrees
  refine ⟨call, listed, copied.named, whole, ?_⟩
  rw [copied.stored, Option.map_some, content]

namespace Copied

variable {world next : World} {name : JString} {node id : Nat}
variable {entry : Node UInt8 Nat} {call : Call}

/-- The call of the file at the destination is its current one. -/
theorem isCurrent
    (copied : Copied world name node entry id call)
    {disk : Files}
    (nodes : disk.nodes = world.disk.nodes)
    (found : disk.lookup name = some node) :
    current disk id call = true := by
  apply current_iff.mpr
  refine ⟨node, ?_, copied.output, ?_⟩
  · rw [copied.named, found]
  · rw [nodes, copied.stored, Option.bind_some, copied.opener]

/-- A quiet step leaves the copy at the destination as it is. -/
theorem quietCalls
    (copied : Copied world name node entry id call)
    (nodes : next.disk.nodes = world.disk.nodes)
    (found : next.disk.lookup name = some node)
    (calls : QuietCalls next.disk world.calls next.calls) :
    ∃ changed, Copied next name node entry id changed := by
  obtain ⟨changed, listed, quiet⟩ := calls.kept id call copied.listed
  have opened : call.output ≠ none := by simp [copied.output]
  refine ⟨changed, ?_⟩
  constructor
  case listed => exact listed
  case named => rw [quiet.filename, copied.named]
  case output => rw [quiet.output, copied.output]
  case stored => rw [nodes, copied.stored]
  case opener => exact copied.opener
  case agrees =>
    rw [quiet.body opened, quiet.written]
    exact copied.agrees
  case underway =>
    exact quiet.underway (copied.isCurrent nodes found) copied.underway
  case same =>
    intro other writer writerListed output mayWrite
    rcases calls.back writerListed with ⟨before, beforeListed, was⟩ | fresh
    · rw [was.output] at output
      rw [was.body (by simp [output]), quiet.body opened]
      exact copied.same other before beforeListed output
        (was.mayWrite mayWrite)
    · rw [fresh.output] at output
      cases output

/-- A write to the file at the destination copies more of the body, whoever
makes it. -/
theorem wrote
    {writer count done target : Nat}
    {writing changed : Call}
    (copied : Copied world name node entry id call)
    (found : world.disk.lookup name = some node)
    (listed : world.calls[writer]? = some writing)
    (stage : writing.stage = .writing count)
    (output : writing.output = some target)
    (within : writing.written + done ≤ writing.body.length)
    (disk : next.disk = world.disk.write target writing.written
      (slice writing.body writing.written done))
    (calls : next.calls = world.calls.set writer changed)
    (step : Wrote writing done changed)
    (underway : Download.current world.disk writer writing = true →
      changed.Underway) :
    ∃ entry id call, Copied next name node entry id call := by
  have mayWrite : writing.MayWrite := by rw [Call.MayWrite, stage]; trivial
  have below := (List.getElem?_eq_some_iff.mp listed).1
  -- the other writers of the file are the same, with the same bodies
  have same : ∀ (other : Nat) (found : Call),
      next.calls[other]? = some found → found.output = some node →
        found.MayWrite → found.body = call.body := by
    intro other found foundListed foundOutput foundWrites
    rw [calls] at foundListed
    rcases listed_set foundListed with ⟨_, rfl⟩ | ⟨_, before⟩
    · rw [step.output] at foundOutput
      rw [step.body]
      exact copied.same writer writing listed foundOutput mayWrite
    · exact copied.same other found before foundOutput foundWrites
  by_cases target_eq : target = node
  case neg =>
    -- the write goes to another file
    have different : writer ≠ id := by
      rintro rfl
      have listedTwice := listed.symm.trans copied.listed
      cases listedTwice
      exact target_eq (Option.some.inj (output.symm.trans copied.output))
    refine ⟨entry, id, call, ?_, copied.named, copied.output, ?_,
      copied.opener, copied.agrees, copied.underway, same⟩
    · rw [calls, List.getElem?_set_ne different, copied.listed]
    · rw [disk, Disk.getElem?_write_of_ne (Ne.symm target_eq), copied.stored]
  case pos =>
    subst target_eq
    have body : writing.body = call.body :=
      copied.same writer writing listed output mayWrite
    have stored : next.disk.nodes[target]? = some { entry with
        content := writeAt entry.content writing.written
          (slice writing.body writing.written done) } := by
      rw [disk]
      exact Disk.getElem?_write_self copied.stored
    by_cases who : writer = id
    case pos =>
      -- the call itself goes on
      subst who
      have listedTwice := listed.symm.trans copied.listed
      cases listedTwice
      refine ⟨_, writer, changed, ?_, ?_, ?_, stored, copied.opener, ?_,
        underway (copied.isCurrent rfl found), ?_⟩
      · rw [calls, List.getElem?_set_self below]
      · rw [step.filename, copied.named]
      · rw [step.output, output]
      · rw [step.body, step.written]
        exact copied.agrees.extend within
      · rw [step.body]
        exact same
    case neg =>
      -- another call writes a part of the same body again
      refine ⟨_, id, call, ?_, copied.named, copied.output, stored,
        copied.opener, ?_, copied.underway, same⟩
      · rw [calls, List.getElem?_set_ne who, copied.listed]
      · rw [body] at within ⊢
        exact copied.agrees.writeAt within

end Copied

namespace Sound

variable {world next : World} {name : JString}

/-- A step that links nothing new keeps the file at the destination sound when
it is quiet. -/
theorem of_quietCalls
    (sound : Sound name world)
    (nodes : next.disk.nodes = world.disk.nodes)
    (lookup : ∀ node, next.disk.lookup name = some node →
      world.disk.lookup name = some node)
    (calls : QuietCalls next.disk world.calls next.calls) :
    Sound name next := by
  intro node found
  obtain ⟨entry, id, call, copied⟩ := sound node (lookup node found)
  obtain ⟨changed, after⟩ := copied.quietCalls nodes found calls
  exact ⟨entry, id, changed, after⟩

/-- Opening a file leaves an empty copy under its name and the other files as
they are. -/
theorem of_opened
    {id : Nat}
    {call : Call}
    (sound : Sound name world)
    (wellFormed : WellFormed world)
    (benign : SameBodies world id)
    (listed : world.calls[id]? = some call)
    (stage : call.stage = .opening)
    (disk : next.disk = (world.disk.openForWriting call.filename id).1)
    (calls : next.calls = world.calls.set id
      { call with
        stage := .looping []
        output := some (world.disk.openForWriting call.filename id).2 }) :
    Sound name next := by
  obtain ⟨self, empty, others, kept, old⟩ :=
    Disk.openForWriting_spec world.disk call.filename id
  rw [← disk] at self empty others kept
  have below := (List.getElem?_eq_some_iff.mp listed).1
  have ok := wellFormed id call listed
  have unopened : call.stage.Unopened := by rw [stage]; trivial
  obtain ⟨closed, unwritten⟩ := ok.untouched unopened
  intro node found
  by_cases mine : name = call.filename
  case pos =>
    subst mine
    rw [self] at found
    cases found
    refine ⟨_, id, { call with
        stage := .looping []
        output := some (world.disk.openForWriting call.filename id).2 },
      ?_, rfl, rfl, empty, rfl, ?_, Or.inl trivial, ?_⟩
    · rw [calls, List.getElem?_set_self below]
    · change Agrees call.body [] call.written
      rw [unwritten]
      exact Agrees.empty
    · intro other writer writerListed output mayWrite
      rw [calls] at writerListed
      rcases listed_set writerListed with ⟨_, rfl⟩ | ⟨_, before⟩
      · rfl
      · rcases old with old | ⟨_, new⟩
        · simp only [SameBodies, listed, old] at benign
          exact benign writer (List.mem_of_getElem? before) output mayWrite
        · have := (wellFormed other writer before).linked _ output
          omega
  case neg =>
    have different : node ≠ (world.disk.openForWriting call.filename id).2 := by
      rintro rfl
      exact mine (next.disk.single _ _ _ found self)
    rw [others name mine] at found
    obtain ⟨entry, owner, copying, copied⟩ := sound node found
    have who : id ≠ owner := by
      rintro rfl
      have listedTwice := listed.symm.trans copied.listed
      cases listedTwice
      rw [copied.output] at closed
      cases closed
    refine ⟨entry, owner, copying, ?_, copied.named, copied.output,
      kept node entry different copied.stored, copied.opener, copied.agrees,
      copied.underway, ?_⟩
    · rw [calls, List.getElem?_set_ne who, copied.listed]
    · intro other writer writerListed output mayWrite
      rw [calls] at writerListed
      rcases listed_set writerListed with ⟨_, rfl⟩ | ⟨_, before⟩
      · exact absurd (Option.some.inj output).symm different
      · exact copied.same other writer before output mayWrite

/-- A write keeps the file at every destination sound. -/
theorem of_wrote
    {id node count done : Nat}
    {call changed : Call}
    (sound : Sound name world)
    (wellFormed : WellFormed world)
    (listed : world.calls[id]? = some call)
    (stage : call.stage = .writing count)
    (output : call.output = some node)
    (part : done ≤ count)
    (disk : next.disk = world.disk.write node call.written
      (slice call.body call.written done))
    (calls : next.calls = world.calls.set id changed)
    (step : Wrote call done changed)
    (underway : current world.disk id call = true → changed.Underway) :
    Sound name next := by
  intro target found
  rw [disk, Disk.lookup_write] at found
  obtain ⟨entry, owner, copying, copied⟩ := sound target found
  have within := (wellFormed id call listed).within
  rw [Call.Within, stage] at within
  have partWithin : call.written + done ≤ call.body.length :=
    Nat.le_trans (Nat.add_le_add_left part _) within
  exact copied.wrote found listed stage output partWithin disk calls step
    underway

/-- Every benign step keeps the file at a destination sound. -/
theorem of_effect
    {action : Action}
    (sound : Sound name world)
    (wellFormed : WellFormed world)
    (benign : Benign world action)
    (effect : Effect world action next) :
    Sound name next := by
  cases effect with
  | quiet disk calls =>
      apply sound.of_quietCalls (congrArg Disk.nodes disk)
      · intro node found
        rwa [disk] at found
      · rwa [disk]
  | unlinked other disk calls =>
      apply sound.of_quietCalls
      · rw [disk, Disk.nodes_unlink]
      · intro node found
        rw [disk] at found
        exact Disk.lookup_of_lookup_unlink found
      · rwa [disk]
  | opened listed stage disk calls =>
      exact sound.of_opened wellFormed benign listed stage disk calls
  | wrote listed stage output disk calls =>
      obtain ⟨step, busy⟩ := wrote_afterWrite _ _
      exact sound.of_wrote wellFormed listed stage output (Nat.le_refl _) disk
        calls step fun _ => Or.inl busy
  | @tore _ id count node done call listed stage output part disk calls =>
      apply sound.of_wrote wellFormed listed stage output part disk calls
        (wrote_failed _ _)
      intro isCurrent
      simp only [Benign, HarmlessExit, listed, isCurrent, Bool.true_eq_false,
        or_false] at benign
      exact Or.inr benign
  | @gaveUp _ id call listed stage disk calls =>
      apply sound.of_quietCalls (congrArg Disk.nodes disk)
      · intro node found
        rwa [disk] at found
      · rw [calls]
        apply QuietCalls.set listed
        apply Quiet.of_ending
        intro isCurrent _
        rw [disk] at isCurrent
        simp only [Benign, HarmlessExit, listed, isCurrent, Bool.true_eq_false,
          or_false] at benign
        exact benign

end Sound

theorem wellFormed_start (disk : Files) : WellFormed (start disk) := by
  intro id call listed
  cases listed

/-- Every run keeps every call as it should be. -/
theorem wellFormed_of_run
    {disk : Files}
    {actions : List Action}
    {finish : World}
    (ran : machine.run (start disk) actions = some finish) :
    WellFormed finish :=
  Transition.Machine.run_invariant
    (fun _ _ _ wellFormed fired =>
      wellFormed.of_effect (effect_of_step wellFormed fired))
    ran (wellFormed_start disk)

/-- Nothing partial is left under a name that was free, in any run from there
whose steps are all benign. -/
theorem noPartialFile_of_benign
    (disk : Files)
    (name : JString)
    (before after : List Action)
    (middle : World)
    (ran : machine.run (start disk) before = some middle)
    (absent : middle.disk.lookup name = none)
    (benign : machine.Guarded Benign middle after) :
    machine.Always (NoPartialFile name) middle after := by
  have initially : WellFormed middle ∧ Sound name middle := by
    refine ⟨wellFormed_of_run ran, fun node found => ?_⟩
    rw [absent] at found
    cases found
  have preserved : ∀ world action next,
      WellFormed world ∧ Sound name world → Benign world action →
        machine.step world action = some next →
          WellFormed next ∧ Sound name next := by
    rintro world action next ⟨wellFormed, sound⟩ harmless fired
    have effect := effect_of_step wellFormed fired
    exact ⟨wellFormed.of_effect effect,
      sound.of_effect wellFormed harmless effect⟩
  exact Transition.Machine.always_of_guarded preserved
    (fun world holds => holds.2.noPartialFile) benign initially

/-- A download is cancelled between two rounds of its copy loop and deletes what
it has written; the next one completes. -/
theorem noPartialFile_of_cancel_and_retry :
    machine.Always (NoPartialFile miniModel.filename) (start Disk.empty)
      (opened miniModel [1, 2, 3, 4] ++
        [.read 0 (.bytes 2), .check 0, .write 0 .ok, .callback 0, .callback 0,
          .read 0 (.bytes 2),
          .onStartCommand (.cancelDownload (some miniModel.filename)), .main,
          .main, .check 0, .delete 0 true] ++
        List.replicate 8 .main ++ List.replicate 4 (.callback 0) ++
        .onStartCommand (.download (some miniModel)) ::
          List.replicate 7 .main ++
        [.onResponse 1 true (some [1, 2, 3, 4]) false, .openOutput 1 true,
          .read 1 (.bytes 4), .check 1, .write 1 .ok, .read 1 .endOfStream,
          .close 1 true]) :=
  noPartialFile_of_benign Disk.empty miniModel.filename [] _ _ rfl rfl
    (by decide +kernel)

/-- A download is cancelled while it waits in `input.read`: the exception goes
to the `catch` block, which deletes nothing, and half of the model stays at the
destination. -/
theorem not_noPartialFile_of_cancelled_read :
    ¬ ∀ (name : JString) (actions : List Action) (finish : World),
      machine.run (start Disk.empty) actions = some finish →
        NoPartialFile name finish := by
  intro claim
  obtain ⟨finish, ran, seen⟩ := Option.map_eq_some_iff.mp
    (show (machine.run (start Disk.empty)
        (opened miniModel [1, 2, 3, 4] ++
          [.read 0 (.bytes 2), .check 0, .write 0 .ok, .callback 0,
            .callback 0,
            .onStartCommand (.cancelDownload (some miniModel.filename)), .main,
            .main, .read 0 .throws] ++
          List.replicate 12 (.callback 0))).map
        (fun world =>
          (world.calls.all fun call => call.stage = .ended,
            world.calls.all fun call => call.written = 2 ∧ call.body.length = 4,
            world.disk.lookup miniModel.filename)) =
        some (true, true, some 0) by decide +kernel)
  obtain ⟨ended, rest⟩ := Prod.mk.inj seen
  obtain ⟨halves, found⟩ := Prod.mk.inj rest
  simp only [List.all_eq_true, decide_eq_true_eq] at ended halves
  obtain ⟨call, listed, _, whole, _⟩ := claim miniModel.filename _ finish ran
    (fun call listed _ => ended call listed) 0 found
  obtain ⟨written, length⟩ := halves call listed
  omega

end Download
end IdoProject
