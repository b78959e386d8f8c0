import Choreographr.Session.ToolBatch

/-!
# Waiting for a tool

A tool runs on a thread of its own. The images it displays go into one channel and its
result into another; the wait on the other side ends on the result, on a stop signal or
at a deadline. The wait of the serial path is the loop's own, and its stop signal is the
cancellation of the request; the wait of the concurrent path is a thread per call, which
the collector kills.

`toolWait` is the machine of one such execution: the tool's thread, the signals and the
wait take their steps in any order. It emits the handle that the wait hands over.
-/

namespace Choreographr.Session

open Lib

inductive WaitPath where
  | serial
  | concurrent
deriving DecidableEq

/-- What the tool's thread sends at its end. -/
inductive ToolResult where
  | success (output : ToolOutput)
  | failure (message : String)
deriving DecidableEq

def ToolResult.outcome : ToolResult → ToolOutcome
  | .success output => .finished output
  | .failure message => .failed message

/-- The channel of the result. -/
inductive ResultChannel where
  | empty
  | queued (result : ToolResult)
  /-- The thread is gone, and nothing is left to receive. -/
  | disconnected
deriving DecidableEq

inductive WaitPhase where
  | waiting
  /-- The wait has ended with an outcome. -/
  | woken (outcome : ToolOutcome)
  /-- The image channel has been looked at. -/
  | drained (outcome : ToolOutcome) (image : Option PreparedImage)
  /-- The handle is handed over and the channels are dropped. -/
  | over
deriving DecidableEq

structure ToolExecution where
  path : WaitPath
  /-- The seconds of the deadline; the serial path always has one. -/
  timeout : Option Nat
  images : List PreparedImage := []
  result : ResultChannel := .empty
  /-- A cancellation or a kill is queued. -/
  stopQueued : Bool := false
  deadlinePassed : Bool := false
  phase : WaitPhase := .waiting
deriving DecidableEq

/-- The arms of the wait's `select`. -/
inductive WaitArm where
  | result
  | stop
  | deadline
deriving DecidableEq

inductive WaitAction where
  /-- The tool sends an image. -/
  | emitImage (image : PreparedImage)
  /-- The tool ends with its result. -/
  | finish (result : ToolResult)
  /-- The tool's thread dies. -/
  | die
  | stop
  | expire
  /-- The wait ends by an arm that is ready. -/
  | wake (arm : WaitArm)
  /-- The wait looks for an image. -/
  | drainImage
  /-- The wait hands its handle over. -/
  | handOver
deriving DecidableEq

/-- A handle, without the call it is for. -/
structure WaitHandle where
  outcome : ToolOutcome
  image : Option PreparedImage
deriving DecidableEq

namespace ToolExecution

/-- `drain_queued_or_synthesize`: a result that is queued is the outcome, and so is the
death of the thread; else the given one. -/
def drainQueuedOr (x : ToolExecution) (outcome : ToolOutcome) : ToolOutcome :=
  match x.result with
  | .queued result => result.outcome
  | .disconnected => .panicked
  | .empty => outcome

/-- The outcome of an arm, if the arm is ready. Of two ready arms either may win: the
select is biased, but it keeps to the arm that woke it. A killed wait-loop does not look
for a result. -/
def wakeOutcome (x : ToolExecution) : WaitArm → Option ToolOutcome
  | .result =>
      match x.result with
      | .queued result => some result.outcome
      | .disconnected => some .panicked
      | .empty => none
  | .stop =>
      if x.stopQueued then
        match x.path with
        | .serial => some (x.drainQueuedOr .cancelled)
        | .concurrent => some .cancelled
      else none
  | .deadline =>
      match x.timeout with
      | none => none
      | some seconds =>
          if x.deadlinePassed then some (x.drainQueuedOr (.timedOut seconds)) else none

/-- One step of an execution. The tool's thread sends nothing after its result. Once the
wait is over its receivers are gone, and what is sent then is lost. -/
def step (x : ToolExecution) : WaitAction → Option (ToolExecution × List WaitHandle)
  | .emitImage image =>
      if x.result ≠ .empty then none
      else if x.phase = .over then some (x, [])
      else some ({ x with images := x.images ++ [image] }, [])
  | .finish result =>
      if x.result = .empty then some ({ x with result := .queued result }, []) else none
  | .die => if x.result = .empty then some ({ x with result := .disconnected }, []) else none
  | .stop => some ({ x with stopQueued := true }, [])
  | .expire => some ({ x with deadlinePassed := true }, [])
  | .wake arm =>
      match x.phase with
      | .waiting => (x.wakeOutcome arm).map fun outcome => ({ x with phase := .woken outcome }, [])
      | _ => none
  | .drainImage =>
      match x.phase with
      -- one `try_recv`, while the tool may have sent several
      | .woken outcome =>
          some ({ x with images := x.images.tail, phase := .drained outcome x.images.head? }, [])
      | _ => none
  | .handOver =>
      match x.phase with
      | .drained outcome image => some ({ x with phase := .over }, [⟨outcome, image⟩])
      | _ => none

end ToolExecution

def toolWait : Machine ToolExecution WaitAction WaitHandle := ⟨ToolExecution.step⟩

/-! ## Finished executions -/

/-- An execution of a call whose handle was handed over. -/
structure FinishedTool where
  call : IndexedCall
  path : WaitPath
  timeout : Option Nat
  actions : List WaitAction
  state : ToolExecution
  handle : WaitHandle
  run : toolWait.exec { path := path, timeout := timeout } actions = some (state, [handle])

namespace FinishedTool

/-- What is recorded of the execution. -/
def completion (f : FinishedTool) : Completion where
  call := f.call
  output := f.handle.outcome.output f.call
  image := f.handle.image

end FinishedTool

/-- Record finished executions in the order in which their handles arrive. -/
def Turn.recordFinished (env : Env) (t : Turn) (finished : List FinishedTool) : Turn :=
  finished.foldl (fun t f => t.recordToolCompletion env f.completion) t

end Choreographr.Session
