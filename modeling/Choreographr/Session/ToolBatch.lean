import Choreographr.Lib.Machine
import Choreographr.Session.Store

/-!
# Tool-use iterations

When the model answers with tool calls, the loop seeds one placeholder result
per call and then fills them in. The calls that change the session's
configuration run first, one by one and in call order; the others run in
parallel, each on a wait-loop thread of its own that delivers one handle to a
shared channel. A cancellation, a timeout or the death of a thread can come at
any point.

`Batch.step` is the control flow of such an iteration. It emits a `Completion`
for every result that is recorded; `Turn.recordToolCompletion` is what one
completion does to the turn. A call is identified by its position in the
response here, while the source knows it by its id only: recording looks the
id up, and so do the delivered and executed sets.
-/

namespace Choreographr.Session

open Lib

structure ChatToolCall where
  id : String
  name : String
  argumentsJson : String
  caller : Option ToolCallCaller := none
deriving DecidableEq

namespace ChatToolCall

def toRecord (c : ChatToolCall) : AssistantToolCallRecord where
  callId := c.id
  name := c.name
  argumentsJson := c.argumentsJson
  caller := c.caller

end ChatToolCall

/-- A tool call with its position in the response and its description. -/
structure IndexedCall where
  index : Nat
  call : ChatToolCall
  description : String
deriving DecidableEq

def isSessionConfigTool (name : String) : Bool :=
  name = "load_tools" || name = "unload_tools" || name = "set_working_dir"

/-- How the execution of one tool ended, as its wait loop saw it. -/
inductive ToolOutcome where
  | finished (output : ToolOutput)
  | failed (message : String)
  | panicked
  | timedOut (seconds : Nat)
  | cancelled
deriving DecidableEq

namespace ToolOutcome

/-- The output recorded for an outcome. -/
def output (o : ToolOutcome) (c : IndexedCall) : ToolOutput :=
  match o with
  | finished output => output
  | failed message =>
      { content := message, isError := true, invocationDescription := c.description }
  | panicked =>
      { content := "tool execution thread panicked", isError := true
        invocationDescription := c.description }
  | timedOut seconds =>
      { content := "tool '" ++ c.call.name ++ "' timed out after " ++ seconds.repr ++ "s"
        isError := true, invocationDescription := c.description }
  | cancelled =>
      { content := "tool '" ++ c.call.name ++ "' cancelled", isError := true
        invocationDescription := c.description }

end ToolOutcome

/-- The output synthesized for a call whose wait-loop thread died. -/
def panicOutput (c : IndexedCall) : ToolOutput :=
  { content := "tool thread panicked", isError := true, invocationDescription := c.description }

/-- An image a tool displayed during its execution. -/
structure PreparedImage where
  mimeType : String
  width : Nat
  height : Nat
  alt : Option String
  data : Bytes
deriving DecidableEq

/-- A result that the loop records. -/
structure Completion where
  call : IndexedCall
  output : ToolOutput
  image : Option PreparedImage
deriving DecidableEq

/-! ## Recording a completion -/

/-- The output as it is recorded: its text sanitized and capped. -/
def Completion.recordedOutput (env : Env) (c : Completion) : ToolOutput :=
  { c.output with content := env.sanitizeToolOutput c.output.content }

def Completion.displayedImage (c : Completion) : Option DisplayedImageRecord :=
  c.image.map fun image =>
    { metadata :=
        { mimeType := image.mimeType, width := image.width, height := image.height
          byteLen := image.data.length, alt := image.alt }
      data := image.data
      toolCallId := some c.call.call.id }

/-- What `record_tool_completion` does to the turn: append the displayed image
and fill the first result with the call's id. -/
def Turn.recordToolCompletion (env : Env) (t : Turn) (c : Completion) : Turn :=
  let t :=
    match c.displayedImage with
    | some image => t.addDisplayedImage image
    | none => t
  t.updateToolResult c.call.call.id c.call.call.name (c.recordedOutput env)

/-- What it stores at once: the displayed image under its position, the
tool-result image under the call id. -/
def Db.recordToolCompletion (db : Db) (sessionId turnId : Nat) (t : Turn) (c : Completion) : Db :=
  let db :=
    match c.displayedImage with
    | some image =>
        db.writeAttachment sessionId turnId (displaySlot t.displayedImages.length) image.data
    | none => db
  match c.output.imageRef with
  | some image => db.writeAttachment sessionId turnId (resultSlot c.call.call.id) image.data
  | none => db

/-! ## Configuration changes of a batch -/

inductive PendingConfigChange where
  | loadTools (groups : List String)
  | unloadTools (groups : List String)
  | setWorkingDir (path : Option String)
deriving DecidableEq

def applyLoadTools (active : Finset String) (groups : List String) : Finset String :=
  groups.foldl (fun active g => insert g active) active

def applyUnloadTools (active : Finset String) (groups : List String)
    (isProtected : Finset String) : Finset String :=
  groups.foldl (fun active g => if g ∈ isProtected then active else active.erase g) active

/-- Mirror an accepted change onto the worker's own copy. -/
def applyPendingConfigChange (s : SessionState) (isProtected : Finset String) :
    PendingConfigChange → SessionState
  | .loadTools groups =>
      { s with config :=
        { s.config with activeToolGroups := applyLoadTools s.config.activeToolGroups groups } }
  | .unloadTools groups =>
      { s with config :=
        { s.config with
          activeToolGroups := applyUnloadTools s.config.activeToolGroups groups isProtected } }
  | .setWorkingDir path =>
      { s with
        config :=
          { s.config with
            workingDir :=
              match path with
              | some p => some p
              | none => s.config.workingDir }
        discoveredSkills := none }

/-! ## Control flow -/

inductive ThreadStatus where
  | running
  | delivered
  | dead
deriving DecidableEq

inductive BatchPhase where
  /-- The session-config calls still to run. -/
  | serial (rest : List IndexedCall)
  /-- The collector waits on the batch channel; one status per dispatched call. -/
  | collecting (threads : List ThreadStatus)
  | done
deriving DecidableEq

structure Batch where
  concurrent : List IndexedCall
  phase : BatchPhase
  delivered : Finset String
  executed : Finset String
  pending : List PendingConfigChange
  cancelled : Bool
deriving DecidableEq

inductive BatchEvent where
  /-- A queued cancellation is seen before the next session-config call. -/
  | serialCancel
  /-- The next session-config call ends. `observedCancel` tells that its wait
  consumed a cancellation; `change` is the change parsed from its result. -/
  | serialResult (outcome : ToolOutcome) (image : Option PreparedImage)
      (observedCancel : Bool) (change : Option PendingConfigChange)
  /-- The session-config calls are over. -/
  | dispatch
  /-- The collector receives the handle of thread `k`. -/
  | handle (k : Nat) (outcome : ToolOutcome) (image : Option PreparedImage)
  /-- Thread `k` dies before delivering. -/
  | die (k : Nat)
  /-- The collector observes a cancellation and kills every wait loop. -/
  | cancel
  /-- The channel is found disconnected. -/
  | disconnect
deriving DecidableEq

namespace BatchEvent

/-- The event consumes a message of the request's cancel channel. -/
def consumesCancel : BatchEvent → Bool
  | .serialCancel => true
  | .serialResult _ _ observedCancel _ => observedCancel
  | .cancel => true
  | _ => false

end BatchEvent

/-- The description of a call, looked up by its id: of several calls with one
id the last one's. -/
def descriptionByCall (env : Env) (calls : List ChatToolCall) (id : String) : String :=
  match calls.reverse.find? fun c => c.id = id with
  | some c => env.describeInvocation c.name c.argumentsJson
  | none => ""

def invocationDescriptions (env : Env) (calls : List ChatToolCall) : List String :=
  calls.map fun c => descriptionByCall env calls c.id

/-- The calls of a response with their positions and descriptions. -/
def indexCalls (env : Env) (calls : List ChatToolCall) : List IndexedCall :=
  calls.zipIdx.map fun p => ⟨p.2, p.1, descriptionByCall env calls p.1.id⟩

namespace Batch

/-- A batch right after the placeholders were seeded. -/
def start (calls : List IndexedCall) : Batch where
  concurrent := calls.filter fun c => !isSessionConfigTool c.call.name
  phase := .serial (calls.filter fun c => isSessionConfigTool c.call.name)
  delivered := ∅
  executed := ∅
  pending := []
  cancelled := false

/-- The dispatched calls whose id was never delivered. -/
def missingCalls (b : Batch) : List IndexedCall :=
  b.concurrent.filter fun c => c.call.id ∉ b.delivered

/-- The collector's loop ends once as many ids were delivered as calls were
dispatched. -/
def settle (b : Batch) : Batch :=
  if b.delivered.card < b.concurrent.length then b else { b with phase := .done }

/-- One step of an iteration: the next batch and the completions recorded. -/
def step (b : Batch) : BatchEvent → Option (Batch × List Completion)
  | .serialCancel =>
      match b.phase with
      | .serial (_ :: _) => some ({ b with phase := .done, cancelled := true }, [])
      | _ => none
  | .serialResult outcome image observedCancel change =>
      match b.phase with
      | .serial (c :: rest) =>
          -- a cancelled outcome is synthesized only by a wait that saw a cancel
          if outcome = .cancelled ∧ observedCancel = false then none
          else
            let output := outcome.output c
            some
              ({ b with
                  phase := if observedCancel then .done else .serial rest
                  executed := insert c.call.id b.executed
                  pending :=
                    match change with
                    | some change => if output.isError then b.pending else b.pending ++ [change]
                    | none => b.pending
                  cancelled := observedCancel },
                [⟨c, output, image⟩])
      | _ => none
  | .dispatch =>
      match b.phase with
      | .serial [] =>
          some (settle { b with phase := .collecting (b.concurrent.map fun _ => .running) }, [])
      | _ => none
  | .handle k outcome image =>
      match b.phase with
      | .collecting threads =>
          match threads[k]?, b.concurrent[k]? with
          | some .running, some c =>
              if outcome = .cancelled ∧ b.cancelled = false then none
              else
                some
                  (settle
                    { b with
                      phase := .collecting (threads.set k .delivered)
                      delivered := insert c.call.id b.delivered
                      executed := insert c.call.id b.executed },
                    [⟨c, outcome.output c, image⟩])
          | _, _ => none
      | _ => none
  | .die k =>
      match b.phase with
      | .collecting threads =>
          match threads[k]? with
          | some .running => some ({ b with phase := .collecting (threads.set k .dead) }, [])
          | _ => none
      | _ => none
  | .cancel =>
      match b.phase with
      | .collecting _ => if b.cancelled then none else some ({ b with cancelled := true }, [])
      | _ => none
  | .disconnect =>
      match b.phase with
      | .collecting threads =>
          if threads.all (· ≠ .running) then
            some
              ({ b with
                  phase := .done
                  executed := b.missingCalls.foldl (fun e c => insert c.call.id e) b.executed },
                b.missingCalls.map fun c => ⟨c, panicOutput c, none⟩)
          else none
      | _ => none

end Batch

end Choreographr.Session
