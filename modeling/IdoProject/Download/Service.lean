import IdoProject.Prefs
import IdoProject.Storage.Disk
import IdoProject.Transition.Machine
import Mathlib.Data.List.AList

/-!
# The download service

The main thread runs `onStartCommand` and `onDestroy`; every accepted download
has a callback that OkHttp runs on a thread of its own.  The registries are
synchronized maps, so one access to them is one step, and the threads interleave
between any two steps.  The registries are static: they outlive the instances of
the service, each of which has a wake lock of its own.
-/

namespace IdoProject
namespace Download

open Java
open Storage

/-- The actions of `onStartCommand`. -/
inductive Intent where
  /-- `ACTION_DOWNLOAD`, with its extra. -/
  | download (model : Option Model)
  /-- `ACTION_CANCEL_DOWNLOAD`, with its extra. -/
  | cancelDownload (filename : Option JString)
  /-- No action, or another one. -/
  | other

/-- What the service broadcasts. -/
inductive Broadcast where
  /-- `ACTION_PROGRESS` -/
  | progress (filename : JString) (progress : JInt)
  /-- `ACTION_COMPLETE` -/
  | complete (filename : JString)
  /-- `ACTION_FAILED` -/
  | failed (filename : JString)
  deriving DecidableEq

/-- The statements that the threads interleave at. -/
inductive Statement where
  /-- `wakeLock.acquire()` -/
  | acquire
  /-- `ongoingDownloads.put(filename, progress)` -/
  | putOngoing (filename : JString) (progress : JInt)
  /-- `ongoingDownloads.remove(filename)` -/
  | removeOngoing (filename : JString)
  /-- `okHttpClient.newCall(request)` -/
  | newCall (model : Model)
  /-- `activeCalls.put(filename, call)` -/
  | putActive (filename : JString) (call : Nat)
  /-- `activeCalls.remove(filename)` -/
  | removeActive (filename : JString)
  /-- `call.enqueue(callback)` -/
  | enqueue (call : Nat)
  /-- `Call call = activeCalls.get(filename); if (call != null) …` -/
  | getActive (filename : JString)
  /-- `call.cancel()` -/
  | cancel (call : Nat)
  /-- `sendBroadcast(intent)` -/
  | sendBroadcast (intent : Broadcast)
  /-- `if (activeCalls.isEmpty())` of `releaseWakeLockAndStopService` -/
  | ifIdle
  /-- `if (wakeLock.isHeld())` -/
  | ifHeld
  /-- `wakeLock.release()` -/
  | release
  /-- `stopSelf()` -/
  | stopSelf
  deriving DecidableEq

/-- Where the callback of a call stands. -/
inductive Stage where
  /-- Not enqueued yet. -/
  | created
  /-- Enqueued; neither `onFailure` nor `onResponse` has begun. -/
  | enqueued
  /-- Before the `FileOutputStream` is opened. -/
  | opening
  /-- Before `input.read`, once the statements of the last round have run. -/
  | looping (pending : List Statement)
  /-- Before `call.isCanceled()`, with `count` bytes read. -/
  | checking (count : Nat)
  /-- Before `output.write(data, 0, count)`. -/
  | writing (count : Nat)
  /-- Before `output.flush()` and the closing of the streams. -/
  | closing
  /-- Before `destinationFile.delete()`. -/
  | deleting
  /-- The statements left to run before the callback has ended. -/
  | ending (rest : List Statement)
  deriving DecidableEq

/-- The callback has ended. -/
abbrev Stage.ended : Stage := .ending []

/-- A call with the local variables of its callback. -/
structure Call where
  /-- `model.getFilename()` -/
  filename : JString
  /-- URL of the request. -/
  url : JString
  /-- The instance of the service that made the call. -/
  service : Nat
  /-- `call.isCanceled()` -/
  canceled : Bool := false
  /-- Where the callback stands. -/
  stage : Stage := .created
  /-- The bytes the response carries. -/
  body : List UInt8 := []
  /-- `body.contentLength()` -/
  fileLength : Int64 := -1
  /-- The node `output` writes to. -/
  output : Option Nat := none
  /-- Number of bytes written, which is where `output` writes next. -/
  written : Nat := 0
  /-- `total` -/
  total : Int64 := 0
  /-- `lastProgress` -/
  lastProgress : JInt := -1

/-- The files directory, the static registries and every thread. -/
structure World where
  /-- `getFilesDir()` -/
  disk : Disk JString UInt8 Nat := Disk.empty
  /-- Every call made, in order. -/
  calls : List Call := []
  /-- `ongoingDownloads` -/
  ongoingDownloads : AList (fun _ : JString => JInt) := ∅
  /-- `activeCalls` -/
  activeCalls : AList (fun _ : JString => Nat) := ∅
  /-- Number of instances of the service created so far. -/
  services : Nat := 0
  /-- The last instance has not been destroyed. -/
  alive : Bool := false
  /-- The last instance has called `stopSelf`. -/
  stopping : Bool := false
  /-- Count of the wake lock of each instance. -/
  wakeLock : Nat → Nat := fun _ => 0
  /-- What the main thread has left to run. -/
  main : List Statement := []
  /-- The broadcasts sent, the last one first. -/
  sent : List Broadcast := []
  /-- A wake lock was released more often than it was acquired. -/
  crashed : Bool := false

/-! ## The methods of the service -/

def releaseWakeLockAndStopService : List Statement :=
  [.ifIdle]

def broadcastProgress (filename : JString) (progress : JInt) :
    List Statement :=
  [.putOngoing filename progress,
    .sendBroadcast (.progress filename progress)]

def broadcastComplete (filename : JString) : List Statement :=
  [.removeOngoing filename, .sendBroadcast (.complete filename)]

def broadcastFailure (filename : JString) : List Statement :=
  [.removeOngoing filename, .sendBroadcast (.failed filename)]

def cleanupAndBroadcastFailure (filename : JString) : List Statement :=
  [.removeOngoing filename, .removeActive filename] ++
    broadcastFailure filename ++ releaseWakeLockAndStopService

def cancelDownload (filename : JString) : List Statement :=
  .getActive filename :: cleanupAndBroadcastFailure filename

/-- `downloadModel`, up to the statements that name the new call. -/
def downloadModel (model : Model) : List Statement :=
  [.acquire, .putOngoing model.filename 0] ++
    broadcastProgress model.filename 0 ++ [.newCall model]

/-- The `finally` block of `onResponse`. -/
def finallyBlock (filename : JString) : List Statement :=
  .removeActive filename :: releaseWakeLockAndStopService

/-- The `catch` block of `onResponse`, and the `finally` block after it. -/
def catchBlock (filename : JString) : List Statement :=
  cleanupAndBroadcastFailure filename ++ finallyBlock filename

def onDestroy : List Statement :=
  [.ifHeld]

/-! ## One statement -/

namespace World

/-- Replace a call that exists. -/
def setCall (world : World) (call : Nat) (changed : Call) : World :=
  { world with calls := world.calls.set call changed }

/-- Change a call that exists. -/
def modifyCall (world : World) (call : Nat) (change : Call → Call) : World :=
  { world with calls := world.calls.modify call change }

/-- Run one statement for an instance of the service.  The second result is what
the thread runs next. -/
def exec (this : Nat) (world : World) :
    Statement → World × List Statement
  | .acquire =>
      ({ world with
        wakeLock := Function.update world.wakeLock this
          (world.wakeLock this + 1) }, [])
  | .putOngoing filename progress =>
      ({ world with
        ongoingDownloads := world.ongoingDownloads.insert filename progress },
        [])
  | .removeOngoing filename =>
      ({ world with
        ongoingDownloads := world.ongoingDownloads.erase filename }, [])
  | .newCall model =>
      ({ world with
        calls := world.calls ++
          [{ filename := model.filename, url := model.path, service := this }] },
        [.putActive model.filename world.calls.length,
          .enqueue world.calls.length])
  | .putActive filename call =>
      ({ world with activeCalls := world.activeCalls.insert filename call }, [])
  | .removeActive filename =>
      ({ world with activeCalls := world.activeCalls.erase filename }, [])
  | .enqueue call =>
      (world.modifyCall call fun enqueued =>
        if enqueued.stage = .created then { enqueued with stage := .enqueued }
        else enqueued, [])
  | .getActive filename =>
      match world.activeCalls.lookup filename with
      | some call => (world, [.cancel call])
      | none => (world, [])
  | .cancel call =>
      (world.modifyCall call fun canceled =>
        { canceled with canceled := true }, [])
  | .sendBroadcast intent =>
      ({ world with sent := intent :: world.sent }, [])
  | .ifIdle =>
      if world.activeCalls.entries.isEmpty then (world, [.ifHeld, .stopSelf])
      else (world, [])
  | .ifHeld =>
      if 0 < world.wakeLock this then (world, [.release]) else (world, [])
  | .release =>
      if 0 < world.wakeLock this then
        ({ world with
          wakeLock := Function.update world.wakeLock this
            (world.wakeLock this - 1) }, [])
      else ({ world with crashed := true }, [])
  | .stopSelf =>
      if this = world.services then ({ world with stopping := true }, [])
      else (world, [])

end World

/-! ## The steps -/

/-- What a read or a write of the copy loop does. -/
inductive Outcome where
  /-- It succeeds. -/
  | ok
  /-- It throws an `IOException` after that many bytes. -/
  | throws (count : Nat)
  deriving DecidableEq

/-- What `input.read(data)` does. -/
inductive ReadOutcome where
  /-- It returns that many bytes. -/
  | bytes (count : Nat)
  /-- It returns -1. -/
  | endOfStream
  /-- It throws an `IOException`. -/
  | throws
  deriving DecidableEq

/-- One step of one thread. -/
inductive Action where
  /-- `onStartCommand` begins. -/
  | onStartCommand (intent : Intent)
  /-- The next statement of the main thread. -/
  | main
  /-- The system destroys the stopped service. -/
  | onDestroy
  /-- The user deletes a model file in the settings. -/
  | deleteModel (filename : JString)
  /-- OkHttp calls `onFailure`. -/
  | onFailure (call : Nat)
  /-- OkHttp calls `onResponse`; `reply` is the body, whose length may be
  unknown before it is read. -/
  | onResponse (call : Nat) (successful : Bool) (reply : Option (List UInt8))
      (known : Bool)
  /-- `new FileOutputStream(destinationFile)` -/
  | openOutput (call : Nat) (ok : Bool)
  /-- `input.read(data)` -/
  | read (call : Nat) (outcome : ReadOutcome)
  /-- `if (call.isCanceled())` -/
  | check (call : Nat)
  /-- `output.write(data, 0, count)` and what follows it in the round. -/
  | write (call : Nat) (outcome : Outcome)
  /-- `output.flush()` and the closing of the streams. -/
  | close (call : Nat) (ok : Bool)
  /-- `destinationFile.delete()`, and the closing of the streams on the way out
  of the `try` blocks. -/
  | delete (call : Nat) (ok : Bool)
  /-- The next statement of a callback. -/
  | callback (call : Nat)

/-- The size of `data`. -/
def bufferSize : Nat := 8192

namespace Call

/-- `(int) (total * 100 / fileLength)` -/
def progress (call : Call) : JInt :=
  (call.total * 100 / call.fileLength).toInt32

/-- The callback goes to its `catch` block. -/
def failed (call : Call) : Call :=
  { call with stage := .ending (catchBlock call.filename) }

/-- The end of one round of the copy loop, after `count` bytes are written. -/
def afterWrite (call : Call) (count : Nat) : Call :=
  let counted :=
    { call with
      total := call.total + Int64.ofNat count
      written := call.written + count }
  if counted.fileLength > 0 ∧ counted.progress > counted.lastProgress then
    { counted with
      stage := .looping (broadcastProgress call.filename counted.progress)
      lastProgress := counted.progress }
  else { counted with stage := .looping [] }

end Call

namespace World

/-- `onStartCommand`, in an instance that is created if none is alive. -/
def onStartCommand (world : World) (intent : Intent) : World :=
  let started :=
    if world.alive then world
    else
      { world with
        services := world.services + 1, alive := true, stopping := false }
  match intent with
  | .download (some model) =>
      if model.filename ∈ started.ongoingDownloads then started
      else { started with main := downloadModel model }
  | .cancelDownload (some filename) =>
      { started with main := Download.cancelDownload filename }
  | _ => started

/-- `onResponse`, up to the opening of the file. -/
def onResponse
    (call : Call)
    (successful : Bool)
    (reply : Option (List UInt8))
    (known : Bool) : Call :=
  match successful, reply with
  | true, some body =>
      { call with
        stage := .opening
        body := body
        fileLength := if known then Int64.ofNat body.length else -1 }
  | _, _ =>
      { call with stage := .ending (cleanupAndBroadcastFailure call.filename) }

/-- The step of the callback of one call.  The stage decides which step is
enabled. -/
def callStep (world : World) (id : Nat) (call : Call) : Action → Option World
  | .onFailure _ =>
      match call.stage with
      | .enqueued =>
          some (world.setCall id
            { call with
              stage := .ending (cleanupAndBroadcastFailure call.filename) })
      | _ => none
  | .onResponse _ successful reply known =>
      match call.stage with
      | .enqueued =>
          some (world.setCall id (onResponse call successful reply known))
      | _ => none
  | .openOutput _ ok =>
      match call.stage, ok with
      | .opening, true =>
          let opened := world.disk.openForWriting call.filename id
          some ({ world with disk := opened.1 }.setCall id
            { call with stage := .looping [], output := some opened.2 })
      | .opening, false => some (world.setCall id call.failed)
      | _, _ => none
  | .read _ outcome =>
      match call.stage, outcome with
      | .looping [], .bytes count =>
          if 0 < count ∧ count ≤ bufferSize ∧
              call.written + count ≤ call.body.length then
            some (world.setCall id { call with stage := .checking count })
          else none
      | .looping [], .endOfStream =>
          if call.written = call.body.length then
            some (world.setCall id { call with stage := .closing })
          else none
      | .looping [], .throws => some (world.setCall id call.failed)
      | _, _ => none
  | .check _ =>
      match call.stage with
      | .checking count =>
          some (world.setCall id
            { call with
              stage := if call.canceled then .deleting else .writing count })
      | _ => none
  | .write _ outcome =>
      match call.stage, call.output, outcome with
      | .writing count, some node, .ok =>
          some ({ world with
            disk := world.disk.write node call.written
              (slice call.body call.written count) }.setCall id
            (call.afterWrite count))
      | .writing count, some node, .throws done =>
          if done ≤ count then
            some ({ world with
              disk := world.disk.write node call.written
                (slice call.body call.written done) }.setCall id
              { call with written := call.written + done }.failed)
          else none
      | _, _, _ => none
  | .close _ ok =>
      match call.stage with
      | .closing =>
          some (world.setCall id
            { call with
              stage := .ending
                (if ok then
                  broadcastComplete call.filename ++ finallyBlock call.filename
                else catchBlock call.filename) })
      | _ => none
  | .delete _ ok =>
      match call.stage with
      | .deleting =>
          some ({ world with disk := world.disk.unlink call.filename }.setCall id
            { call with
              stage := .ending
                (if ok then finallyBlock call.filename
                else catchBlock call.filename) })
      | _ => none
  | .callback _ =>
      match call.stage with
      | .looping (statement :: rest) =>
          let done := world.exec call.service statement
          some (done.1.modifyCall id fun running =>
            { running with stage := .looping (done.2 ++ rest) })
      | .ending (statement :: rest) =>
          let done := world.exec call.service statement
          some (done.1.modifyCall id fun running =>
            { running with stage := .ending (done.2 ++ rest) })
      | _ => none
  | _ => none

end World

/-- The call whose callback takes the step. -/
def Action.call? : Action → Option Nat
  | .onFailure call | .onResponse call _ _ _ | .openOutput call _
  | .read call _ | .check call | .write call _ | .close call _
  | .delete call _ | .callback call => some call
  | _ => none

/-- The step of the main thread. -/
def World.mainStep (world : World) : Action → Option World
  | .onStartCommand intent =>
      match world.main with
      | [] => some (world.onStartCommand intent)
      | _ => none
  | .main =>
      match world.main with
      | statement :: rest =>
          let done := world.exec world.services statement
          some { done.1 with main := done.2 ++ rest }
      | [] => none
  | .onDestroy =>
      match world.main, world.alive && world.stopping with
      | [], true => some { world with alive := false, main := onDestroy }
      | _, _ => none
  | .deleteModel filename =>
      match world.main with
      | [] => some { world with disk := world.disk.unlink filename }
      | _ => none
  | _ => none

/-- One step of the process. -/
def World.step (world : World) (action : Action) : Option World :=
  if world.crashed then none
  else match action.call? with
    | some id =>
        match world.calls[id]? with
        | some call => world.callStep id call action
        | none => none
    | none => world.mainStep action

/-- The process as a machine. -/
def machine : Transition.Machine World Action where
  step := World.step

end Download
end IdoProject
