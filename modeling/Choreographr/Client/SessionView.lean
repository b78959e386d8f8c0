import Choreographr.Lib.OrdMap
import Choreographr.Lib.Upsert
import Choreographr.Session.Types
import Choreographr.Tools.Sanitize
import Mathlib.Data.String.Basic

/-!
# A client's view of a transcript

A client routes what the daemon streams to the turn that each stream is on. The start of a call
brings a description that is kept until the call has a result to show it on. The texts that the
daemon's events carry are appended, those of a tool's result up to the shared byte cap.
-/

namespace Choreographr.Client

open Lib Session Tools

/-! ## Capped results -/

def maxStreamedToolContentBytes : Nat := maxToolOutputBytes

def pushCapped (content data : List Char) : List Char :=
  if maxStreamedToolContentBytes ≤ byteLen content then
    if byteLen content = maxStreamedToolContentBytes ∧ data ≠ [] then content ++ truncationSuffix
    else content
  else
    let remaining := maxStreamedToolContentBytes - byteLen content
    if byteLen data ≤ remaining then content ++ data
    else content ++ bytePrefix remaining data ++ truncationSuffix

/-- The content of a result is a `String`. -/
def pushCappedText (content data : String) : String :=
  String.ofList (pushCapped content.toList data.toList)

/-! ## The view -/

inductive OutputStream where
  | answer
  | reasoning
deriving DecidableEq

structure SessionView where
  turns : OrdMap Nat Turn := OrdMap.empty
  /-- The turn that each stream in flight is on. -/
  requestToTurn : OrdMap Nat Nat := OrdMap.empty
  /-- The descriptions of calls by call id. -/
  toolCallDescriptions : OrdMap String String := OrdMap.empty

def hasCall (callId : String) (turn : Turn) : Bool :=
  turn.toolCalls.any fun call => call.callId == callId

namespace SessionView

/-- Drop the descriptions of these calls. -/
def forgetCalls (descriptions : OrdMap String String) (calls : List AssistantToolCallRecord) :
    OrdMap String String :=
  calls.foldl (fun d call => d.erase call.callId) descriptions

def insertOrReplace (v : SessionView) (turnId : Nat) (turn : Turn) : SessionView :=
  { v with
    toolCallDescriptions := forgetCalls v.toolCallDescriptions turn.toolCalls
    turns := v.turns.insert turnId turn }

def clearToolCallDescriptions (v : SessionView) (turnId : Nat) : SessionView :=
  match v.turns.get? turnId with
  | some turn =>
      { v with toolCallDescriptions := forgetCalls v.toolCallDescriptions turn.toolCalls }
  | none => v

def requestTurnId (v : SessionView) (streamId : Nat) : Option Nat := v.requestToTurn.get? streamId

def finishRequest (v : SessionView) (streamId : Nat) : SessionView :=
  let cleared :=
    match v.requestTurnId streamId with
    | some turnId => v.clearToolCallDescriptions turnId
    | none => v
  { cleared with requestToTurn := cleared.requestToTurn.erase streamId }

/-- The result is whether the route was taken. -/
def startRequest (v : SessionView) (streamId turnId : Nat) : SessionView × Bool :=
  match v.requestTurnId streamId with
  | some current =>
      if turnId < current then (v, false)
      else ({ v with requestToTurn := v.requestToTurn.insert streamId turnId }, true)
  | none => ({ v with requestToTurn := v.requestToTurn.insert streamId turnId }, true)

/-- The turn that a stream is routed to, if both are known. -/
def routed (v : SessionView) (streamId : Nat) : Option (Nat × Turn) := do
  let turnId ← v.requestTurnId streamId
  let turn ← v.turns.get? turnId
  some (turnId, turn)

/-- Append to an optional text. -/
def pushText (text : Option String) (data : String) : Option String :=
  some (text.getD "" ++ data)

def chunkTurn (turn : Turn) (stream : OutputStream) (data : String) : Turn :=
  match stream with
  | .reasoning => { turn with assistantReasoning := pushText turn.assistantReasoning data }
  | .answer => { turn with assistantText := pushText turn.assistantText data }

def streamChunk (v : SessionView) (streamId : Nat) (stream : OutputStream) (data : String) :
    SessionView :=
  match v.routed streamId with
  | none => v
  | some (turnId, turn) => { v with turns := v.turns.insert turnId (chunkTurn turn stream data) }

/-- The fields of a stub that the start event of its call fills in. -/
def backfill (name description : String) (result : ToolResultRecord) : ToolResultRecord :=
  { result with
    name := if result.name = "" then name else result.name
    invocationDescription :=
      if result.invocationDescription = "" then description else result.invocationDescription }

def startedTurn (turn : Turn) (callId name args description : String) : Turn :=
  { turn with
    toolResults :=
      modifyFirst ToolResultRecord.callId callId (backfill name description) turn.toolResults
    toolCalls :=
      if hasCall callId turn then turn.toolCalls
      else turn.toolCalls ++ [{ callId, name, argumentsJson := args, caller := none }] }

def toolCallStarted (v : SessionView) (streamId : Nat)
    (callId name args description : String) : SessionView :=
  match v.routed streamId with
  | none => v
  | some (turnId, turn) =>
      { v with
        toolCallDescriptions :=
          if description = "" then v.toolCallDescriptions
          else v.toolCallDescriptions.insert callId description
        turns := v.turns.insert turnId (startedTurn turn callId name args description) }

/-- A result that is there takes the data; a description is only looked up if it has none. -/
def appendChunk (description : Option String) (data : String) (result : ToolResultRecord) :
    ToolResultRecord :=
  { result with
    invocationDescription :=
      if result.invocationDescription = "" then description.getD "" else
        result.invocationDescription
    content := pushCappedText result.content data }

/-- The name of a call of the turn, empty when the call is unknown. -/
def callName (turn : Turn) (callId : String) : String :=
  match turn.toolCalls.find? fun call => call.callId == callId with
  | some call => call.name
  | none => ""

def resultChunkTurn (turn : Turn) (description : Option String) (callId data : String) : Turn :=
  { turn with
    toolResults :=
      if turn.toolResults.any fun result => result.callId == callId then
        modifyFirst ToolResultRecord.callId callId (appendChunk description data) turn.toolResults
      else
        turn.toolResults ++
          [{ callId
             name := callName turn callId
             content := pushCappedText "" data
             isError := false
             invocationDescription := description.getD ""
             image := none }] }

def toolResultChunk (v : SessionView) (streamId : Nat) (callId data : String) : SessionView :=
  match v.routed streamId with
  | none => v
  | some (turnId, turn) =>
      { v with
        turns := v.turns.insert turnId
          (resultChunkTurn turn (v.toolCallDescriptions.get? callId) callId data) }

end SessionView

/-! ## Operations -/

inductive SessionOp where
  | startRequest (streamId turnId : Nat)
  | streamChunk (streamId : Nat) (stream : OutputStream) (data : String)
  | toolCallStarted (streamId : Nat) (callId name args description : String)
  | toolResultChunk (streamId : Nat) (callId data : String)
  | insertOrReplace (turnId : Nat) (turn : Turn)
  | finishRequest (streamId : Nat)

def SessionView.apply (v : SessionView) : SessionOp → SessionView
  | .startRequest streamId turnId => (v.startRequest streamId turnId).1
  | .streamChunk streamId stream data => v.streamChunk streamId stream data
  | .toolCallStarted streamId callId name args description =>
      v.toolCallStarted streamId callId name args description
  | .toolResultChunk streamId callId data => v.toolResultChunk streamId callId data
  | .insertOrReplace turnId turn => v.insertOrReplace turnId turn
  | .finishRequest streamId => v.finishRequest streamId

/-- The view after a sequence of operations. -/
def SessionView.after (v : SessionView) (ops : List SessionOp) : SessionView :=
  ops.foldl SessionView.apply v

end Choreographr.Client
