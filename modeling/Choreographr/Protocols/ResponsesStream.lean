import Choreographr.Protocols.ReasoningDetails
import Choreographr.Protocols.TurnResult
import Mathlib.Data.List.Sort

/-!
# Responses replies

A Responses reply is read whole by `responsesResponseToTurn`, item by item of its
`output`, or from its event stream by `responsesStream`. A streamed call arrives
in two halves: its output item names it, and argument events, which name only the
item, bring its arguments. `AccCalls` joins them.
-/

namespace Choreographr.Protocols

open Session

/-! ## Output items -/

/-- A field of type `Option<String>`; a value of another type is an error. -/
def optionField (v : Json) (key : String) : Option (Option String) :=
  match v.get key with
  | none | some .null => some none
  | some (.str text) => some (some text)
  | some _ => none

/-- A field of type `String`. -/
def stringField (v : Json) (key : String) : Option String := (v.get key).bind Json.asStr

/-- An array that defaults to none. -/
def listField (v : Json) (key : String) : Option (List Json) :=
  match v.get key with
  | none => some []
  | some value => value.asArray

/-- A `CallerInfo`; a missing id is empty. -/
def callerFromValue (v : Json) : Option ToolCallCaller := do
  let kind ← stringField v "type"
  match v.get "caller_id" with
  | none => return ⟨kind, ""⟩
  | some id => return ⟨kind, ← id.asStr⟩

/-- A field of type `Option<CallerInfo>`. -/
def callerField (v : Json) : Option (Option ToolCallCaller) :=
  match v.get "caller" with
  | none | some .null => some none
  | some caller => (callerFromValue caller).map some

structure ResponseContentPart where
  kind : String
  text : Option String

def contentPartFromValue (v : Json) : Option ResponseContentPart := do
  return ⟨← stringField v "type", ← optionField v "text"⟩

/-- An item of a reply's `output`, with the fields that are read. -/
inductive ResponseOutputItem where
  | message (content : List ResponseContentPart)
  | reasoning (summary : List Json)
  | functionCall (callId name arguments : String) (caller : Option ToolCallCaller)
  | program
  | programOutput
  | unknown

/-- Read an item by its type. A kind that is not modelled is skipped later; a
field of the wrong type is an error. -/
def responseOutputItemFromValue (v : Json) : Option ResponseOutputItem :=
  match v.typeTag with
  | none => none
  | some "message" => do
      let content ← (← listField v "content").mapM contentPartFromValue
      let _ ← optionField v "role"
      return .message content
  | some "reasoning" => do
      let _ ← optionField v "id"
      let summary ← listField v "summary"
      let _ ← optionField v "encrypted_content"
      return .reasoning summary
  | some "function_call" => do
      let callId ← stringField v "call_id"
      let name ← stringField v "name"
      let arguments ← stringField v "arguments"
      return .functionCall callId name arguments (← callerField v)
  | some "program" => do
      let _ ← stringField v "call_id"
      let _ ← ["id", "code", "fingerprint"].mapM (optionField v)
      return .program
  | some "program_output" => do
      let _ ← stringField v "call_id"
      let _ ← ["id", "result", "status"].mapM (optionField v)
      return .programOutput
  | some _ => some .unknown

/-! ## Whole replies -/

structure ResponsesResponse where
  id : Option String := none
  status : Option String := none
  output : List Json := []
  usage : Option Usage := none
  /-- `incomplete_details.reason`. -/
  incompleteReason : Option String := none

/-- Whether a reply stopped early; a policy block is an error. -/
def incompleteStop (payload : ResponsesResponse) : Except OpenAiError Bool :=
  if payload.status ≠ some "incomplete" ∧ payload.incompleteReason = none then .ok false
  else if payload.incompleteReason = some "content_filter" then
    .error (.contentFiltered ("provider content filter stopped the response " ++
      "(incomplete: content_filter)"))
  else .ok true

/-- The artifact of the collected reasoning items, within the cap. -/
def responsesItemsArtifact (lib : JsonLib) (items : List Json) : Option ReasoningArtifact :=
  if items = [] then none
  else
    let bytes := lib.toVec (.arr items)
    if maxReasoningBytes < bytes.length then none else some (.responsesItems bytes)

/-- The text of a summary entry: a bare text, or an object with one. -/
def summaryEntryText (entry : Json) : Option String :=
  entry.asStr.or ((entry.get "text").bind Json.asStr)

/-- The display text of a summary, its entries joined with a space. -/
def extractReasoningText (summary : List Json) : Option String :=
  let parts := summary.filterMap summaryEntryText
  if parts.isEmpty then none else some (" ".intercalate parts)

/-- The text of the `output_text` parts. -/
def outputText (content : List ResponseContentPart) : String :=
  String.join (content.filterMap fun part =>
    if part.kind = "output_text" then part.text else none)

/-- What the items of a reply have given so far. -/
structure ReplyParts where
  fullText : String := ""
  fullReasoning : String := ""
  toolCalls : List ChatToolCall := []
  reasoningItems : List Json := []

/-- Read one item. A reasoning item is kept as it came. -/
def ReplyParts.absorb (parts : ReplyParts) (raw : Json) : Except OpenAiError ReplyParts :=
  match responseOutputItemFromValue raw with
  | none => .error .json
  | some (.message content) => .ok { parts with fullText := parts.fullText ++ outputText content }
  | some (.reasoning summary) =>
      .ok { parts with
        fullReasoning := parts.fullReasoning ++ (extractReasoningText summary).getD ""
        reasoningItems := parts.reasoningItems ++ [raw] }
  | some (.functionCall callId name arguments caller) =>
      .ok { parts with toolCalls := parts.toolCalls ++ [⟨callId, name, arguments, caller⟩] }
  | some _ => .ok parts

def responsesResponseToTurn (lib : JsonLib) (payload : ResponsesResponse) :
    Except OpenAiError ChatTurnResult := do
  let truncated ← incompleteStop payload
  let parts ← payload.output.foldlM ReplyParts.absorb {}
  assembleTurn lib {
    content := if parts.fullText = "" then none else some parts.fullText
    toolCalls := parts.toolCalls
    unnamedCalls := 0
    reasoning := if parts.fullReasoning = "" then none else some parts.fullReasoning
    reasoningArtifact := responsesItemsArtifact lib parts.reasoningItems
    producedReasoning := !parts.reasoningItems.isEmpty || parts.fullReasoning ≠ ""
    usage := payload.usage.map Usage.toTokenUsage
    truncated := truncated
    responseId := payload.id }

/-! ## Stream events -/

/-- How an argument event names its call: by its output item, or by its call
id. -/
inductive CallRef where
  | item (itemId : String)
  | call (callId : String)
deriving DecidableEq

/-- The item is preferred; empty ids name nothing. -/
def CallRef.of (itemId callId : Option String) : Option CallRef :=
  ((itemId.filter (· ≠ "")).map .item).or ((callId.filter (· ≠ "")).map .call)

inductive ResponsesStreamEvent where
  | textDelta (text : String)
  | textDone
  | reasoningItem (item : Json)
  | functionCallItem (itemId callId name : Option String) (arguments : String)
      (caller : Option ToolCallCaller)
  | functionCallArgumentsDelta (call : CallRef) (delta : String)
  | functionCallArgumentsDone (call : CallRef) (arguments : String) (name : Option String)
  | reasoningSummaryText (text : String)
  | responseCompleted (id : Option String) (usage : Option Usage)
  | responseFailed (error : String)
  | responseIncomplete (id : Option String) (usage : Option Usage) (reason : Option String)
  | programCodeDelta (delta : String)
  | programCodeDone (callId : String) (fingerprint : Option String)
  | programOutputDone (callId result status : String)

/-- The attribution of a streamed call; one without a type is none. -/
def callerOf (caller : Json) : Option ToolCallCaller :=
  (stringField caller "type").map fun kind => ⟨kind, (stringField caller "caller_id").getD ""⟩

/-- The event of a `function_call` item. Every field is optional. -/
def functionCallItemEvent (item : Json) : ResponsesStreamEvent :=
  let text (key : String) := (stringField item key).filter (· ≠ "")
  .functionCallItem (text "id") (text "call_id") (text "name") ((text "arguments").getD "")
    ((item.get "caller").bind callerOf)

/-- The call an argument event belongs to. -/
def callRef (payload : Json) : Option CallRef :=
  CallRef.of (stringField payload "item_id") (stringField payload "call_id")

/-- The response a terminal event wraps, or the event itself. -/
def responseObject (payload : Json) : Json := (payload.get "response").getD payload

/-- The message of a failed response. -/
def failureText (lib : JsonLib) (payload : Json) : String :=
  match ((responseObject payload).get "error").or (payload.get "error") with
  | none => ""
  | some (.str text) => text
  | some error => (stringField error "message").getD ((strFromUtf8 (lib.toVec error)).getD "")

/-- Read one event payload. Unknown events, and events that belong to no call,
are ignored. -/
def parseResponsesStreamEvent (lib : JsonLib) (data : String) :
    Except OpenAiError (Option ResponsesStreamEvent) :=
  match lib.fromStr data with
  | none => .error .json
  | some payload =>
    let text (key : String) := (stringField payload key).getD ""
    match payload.typeTag with
    | some "response.output_text.delta" =>
        .ok ((stringField payload "delta").map .textDelta)
    | some "response.output_text.done" => .ok (some .textDone)
    | some "response.reasoning_summary_text.delta" =>
        .ok ((stringField payload "delta").map .reasoningSummaryText)
    | some "response.output_item.added" | some "response.output_item.done" =>
        match payload.get "item" with
        | none => .ok none
        | some item =>
            if item.typeTag = some "reasoning" then .ok (some (.reasoningItem item))
            else if item.typeTag = some "function_call" then .ok (some (functionCallItemEvent item))
            else .ok none
    | some "response.function_call_arguments.delta" =>
        .ok ((callRef payload).map fun call => .functionCallArgumentsDelta call (text "delta"))
    | some "response.function_call_arguments.done" =>
        .ok ((callRef payload).map fun call =>
          .functionCallArgumentsDone call (text "arguments")
            ((stringField payload "name").filter (· ≠ "")))
    | some "response.completed" =>
        let response := responseObject payload
        .ok (some (.responseCompleted (stringField response "id")
          ((response.get "usage").bind lib.usageFromValue)))
    | some "response.incomplete" =>
        let response := responseObject payload
        .ok (some (.responseIncomplete (stringField response "id")
          ((response.get "usage").bind lib.usageFromValue)
          ((response.get "incomplete_details").bind fun details => stringField details "reason")))
    | some "response.failed" => .ok (some (.responseFailed (failureText lib payload)))
    | some "response.program.code.delta" =>
        .ok ((stringField payload "delta").map .programCodeDelta)
    | some "response.program.code.done" =>
        match stringField payload "call_id" with
        | none => .error (.io "missing call_id in response.program.code.done")
        | some callId => .ok (some (.programCodeDone callId (stringField payload "fingerprint")))
    | some "response.program_output.done" =>
        match stringField payload "call_id" with
        | none => .error (.io "missing call_id in response.program_output.done")
        | some callId => .ok (some (.programOutputDone callId (text "result") (text "status")))
    | _ => .ok none

/-! ## Streamed calls -/

/-- One call the stream is assembling. -/
structure AccCall where
  callId : Option String := none
  name : Option String := none
  arguments : String := ""
  caller : Option ToolCallCaller := none
  /-- The place of the call in the model's order. -/
  index : Nat

/-- The calls of a turn, each under the identity the stream named it with. -/
structure AccCalls where
  byId : List (String × AccCall) := []
  nextIndex : Nat := 0

namespace AccCalls

def containsKey (s : AccCalls) (identity : String) : Bool :=
  s.byId.any fun entry => entry.1 = identity

/-- Update the slot of an identity, minting one at its first mention. -/
def entry (s : AccCalls) (identity : String) (update : AccCall → AccCall) :
    Except OpenAiError AccCalls :=
  if s.containsKey identity then
    .ok { s with
      byId := s.byId.map fun e => if e.1 = identity then (e.1, update e.2) else e }
  else if maxToolCalls ≤ s.byId.length then
    .error (.io ("too many tool calls (max " ++ toString maxToolCalls ++ ")"))
  else
    .ok {
      byId := s.byId ++ [(identity, update { index := s.nextIndex })]
      nextIndex := s.nextIndex + 1 }

/-- The identity an event names. A call id is first looked for among the calls
that an item has named. -/
def slotKey (s : AccCalls) : CallRef → String
  | .item itemId => itemId
  | .call callId =>
      match s.byId.find? fun e => e.2.callId = some callId with
      | some e => e.1
      | none => callId

def slot (s : AccCalls) (call : CallRef) (update : AccCall → AccCall) :
    Except OpenAiError AccCalls :=
  s.entry (s.slotKey call) update

/-- Move a slot that an argument event opened under the call id to the id of the
call's item. -/
def rekey (s : AccCalls) (itemId callId : String) : AccCalls :=
  if s.containsKey itemId then s
  else { s with byId := s.byId.map fun e => if e.1 = callId then (itemId, e.2) else e }

/-- What an output item tells about its call. An empty copy of the arguments is
no value. -/
def nameCall (callId name : Option String) (arguments : String)
    (caller : Option ToolCallCaller) (acc : AccCall) : AccCall :=
  { acc with
    callId := callId.or acc.callId
    name := name.or acc.name
    arguments := if arguments = "" then acc.arguments else arguments
    caller := caller.or acc.caller }

/-- The complete arguments; the name counts only for a call that has none. -/
def completeCall (arguments : String) (name : Option String) (acc : AccCall) : AccCall :=
  { acc with
    arguments := arguments
    name := acc.name.or (name.filter (· ≠ "")) }

/-- Apply one call event. -/
def absorb (s : AccCalls) : ResponsesStreamEvent → Except OpenAiError AccCalls
  | .functionCallItem itemId callId name arguments caller =>
      match CallRef.of itemId callId with
      | none => .ok s
      | some call =>
          let s :=
            match call, callId with
            | .item itemId, some callId => s.rekey itemId callId
            | _, _ => s
          s.slot call (nameCall callId name arguments caller)
  | .functionCallArgumentsDelta call delta =>
      s.slot call fun acc => { acc with arguments := acc.arguments ++ delta }
  | .functionCallArgumentsDone call arguments name => s.slot call (completeCall arguments name)
  | _ => .ok s

def intoOrdered (s : AccCalls) : List (String × AccCall) :=
  s.byId.mergeSort fun a b => a.2.index ≤ b.2.index

/-- A call with a name, answered by its call id or else by its identity. -/
def finishCall (e : String × AccCall) : Option ChatToolCall :=
  (e.2.name.filter (· ≠ "")).map fun name =>
    { id := e.2.callId.getD e.1
      name := name
      argumentsJson := e.2.arguments
      caller := e.2.caller }

/-- The calls in the model's order, and how many were never named. -/
def finish (s : AccCalls) : List ChatToolCall × Nat :=
  let ordered := s.intoOrdered
  let calls := ordered.filterMap finishCall
  (calls, ordered.length - calls.length)

end AccCalls

/-! ## The stream loop -/

/-- Merge a reasoning item into those collected: a later value of an item
replaces the earlier one. -/
def mergeReasoningItem (items : List Json) (item : Json) : List Json :=
  match stringField item "id" with
  | none => items ++ [item]
  | some id =>
      match items.findIdx? fun other => stringField other "id" = some id with
      | some position => items.set position item
      | none => items ++ [item]

structure ResponsesStreamState where
  fullContent : String := ""
  fullReasoning : String := ""
  lastUsage : Option TokenUsage := none
  responseId : Option String := none
  truncated : Bool := false
  reasoningItems : List Json := []
  accCalls : AccCalls := {}

namespace ResponsesStreamState

/-- Handle one event; the flag says that it ends the loop. -/
def handle (s : ResponsesStreamState) :
    ResponsesStreamEvent → Except OpenAiError (ResponsesStreamState × Bool)
  | .textDelta text => .ok ({ s with fullContent := s.fullContent ++ text }, false)
  | .reasoningSummaryText text => .ok ({ s with fullReasoning := s.fullReasoning ++ text }, false)
  | .reasoningItem item =>
      .ok ({ s with reasoningItems := mergeReasoningItem s.reasoningItems item }, false)
  | .responseCompleted id usage =>
      .ok ({ s with
        responseId := id
        lastUsage := (usage.map Usage.toTokenUsage).or s.lastUsage }, true)
  | .responseFailed error => .error (.io error)
  | .responseIncomplete id usage reason =>
      if reason = some "content_filter" then
        .error (.contentFiltered ("provider content filter stopped the response " ++
          "(response.incomplete: content_filter)"))
      else
        .ok ({ s with
          responseId := id
          lastUsage := (usage.map Usage.toTokenUsage).or s.lastUsage
          truncated := true }, true)
  | .textDone | .programCodeDelta _ | .programCodeDone _ _ | .programOutputDone _ _ _ =>
      .ok (s, false)
  | event => (s.accCalls.absorb event).map fun calls => ({ s with accCalls := calls }, false)

/-- Read events until one ends the response or the stream ends. -/
def run (lib : JsonLib) (s : ResponsesStreamState) :
    List String → Except OpenAiError ResponsesStreamState
  | [] => .ok s
  | data :: rest =>
      match parseResponsesStreamEvent lib data with
      | .error err => .error err
      | .ok none => s.run lib rest
      | .ok (some event) =>
          match s.handle event with
          | .error err => .error err
          | .ok (s, true) => .ok s
          | .ok (s, false) => s.run lib rest

def finish (lib : JsonLib) (s : ResponsesStreamState) : Except OpenAiError ChatTurnResult :=
  let (calls, unnamed) := s.accCalls.finish
  assembleTurn lib {
    content := if s.fullContent = "" then none else some s.fullContent
    toolCalls := calls
    unnamedCalls := unnamed
    reasoning := if s.fullReasoning = "" then none else some s.fullReasoning
    reasoningArtifact := responsesItemsArtifact lib s.reasoningItems
    producedReasoning := !s.reasoningItems.isEmpty || s.fullReasoning ≠ ""
    usage := s.lastUsage
    truncated := s.truncated
    responseId := s.responseId }

end ResponsesStreamState

/-- The turn result of a streamed reply, from the payloads of its events. -/
def responsesStream (lib : JsonLib) (payloads : List String) :
    Except OpenAiError ChatTurnResult := do
  let s ← ResponsesStreamState.run lib {} payloads
  s.finish lib

end Choreographr.Protocols
