import Choreographr.Lib.LastMatch
import Choreographr.Session.State

/-!
# Request projection

`buildChatRequestMessages` turns the live turns of a session into the message
list of a provider request: per turn the user text, the assistant message, one
tool message per recorded result and, after all of them, one synthetic user
message per tool-result image. `chainInputMessages` selects from such a list
what still has to be sent when the request continues a stored response.

A message carries the part of the conversation it renders in `origin`, which
no wire format sees. `visibleMessages` lists these parts for a turn history,
so that what a server has been shown can be compared with what a session
shows, whatever prompt, artifact or pixels went along.
-/

namespace Choreographr.Session

open Lib

inductive Role where
  | system
  | user
  | assistant
  | tool
deriving DecidableEq

structure ChatImagePart where
  data : Bytes
  mimeType : String
deriving DecidableEq

structure AssistantToolCall where
  id : String
  kind : String := "function"
  name : String
  arguments : String
  caller : Option ToolCallCaller
deriving DecidableEq

/-- A piece of the conversation, as the session records it. -/
inductive Part where
  | user (text : String)
  | assistant (text : Option String) (toolCalls : List AssistantToolCallRecord)
  | tool (callId content : String)
  | image (callId path : String)
deriving DecidableEq

structure VisibleMessage where
  turnId : Nat
  part : Part
deriving DecidableEq

namespace VisibleMessage

def isAssistant (m : VisibleMessage) : Bool :=
  match m.part with
  | .assistant _ _ => true
  | _ => false

end VisibleMessage

structure ChatRequestMessage where
  role : Role
  content : Option String
  images : List ChatImagePart := []
  toolCallId : Option String := none
  toolCalls : Option (List AssistantToolCall) := none
  reasoningArtifact : Option ReasoningArtifact := none
  origin : Option VisibleMessage := none
deriving DecidableEq

/-! ## Reasoning policy -/

def turnHasToolInvolvement (t : Turn) : Bool := !t.toolCalls.isEmpty || !t.toolResults.isEmpty

/-- The assistant message would be empty on the wire. -/
def turnIsWireEmpty (t : Turn) : Bool :=
  t.toolCalls.isEmpty &&
    match t.assistantText with
    | none => true
    | some text => (trim text).isEmpty

/-- Whether a turn's reasoning artifact is replayed for this route. -/
def includeReasoningArtifact (t : Turn) (providerSlug model : String)
    (passback : ReasoningPassback) (routeRequiresField : Bool) : Bool :=
  let sameModel := t.reasoningProducer = some ⟨providerSlug, model⟩
  if !sameModel || t.reasoningArtifact.isNone then false
  else
    let policyEcho :=
      match passback with
      | .none | .responseId => false
      | .toolLoop => turnHasToolInvolvement t || routeRequiresField
      | .allTurns | .signature => true
    let canEcho := passback ≠ .none && passback ≠ .responseId
    policyEcho || (canEcho && turnIsWireEmpty t)

/-- The route continues a conversation through `previous_response_id`. -/
def chainsViaResponseId (env : Env) (providerSlug model : String) : Bool :=
  env.modelReasoningPassback providerSlug model = .responseId

/-- The response id a new run starts from: the persisted one, if this route
chains and produced it. -/
def initialPrevRespId (env : Env) (config : SessionConfig) (providerSlug model : String) :
    Option String :=
  if config.lastResponseIdProducer = some ⟨providerSlug, model⟩ &&
      chainsViaResponseId env providerSlug model then
    config.lastResponseId
  else none

/-! ## Messages of one turn -/

def userMessage (id : Nat) (t : Turn) : List ChatRequestMessage :=
  match t.userText with
  | none => []
  | some text => [{ role := .user, content := some text, origin := some ⟨id, .user text⟩ }]

def assistantMessage (id : Nat) (t : Turn) (includeArtifact : Bool) :
    List ChatRequestMessage :=
  if t.assistantText.isSome || !t.toolCalls.isEmpty then
    [{ role := .assistant
       content := t.assistantText
       toolCalls :=
         if t.toolCalls.isEmpty then none
         else some (t.toolCalls.map fun c =>
           { id := c.callId, name := c.name, arguments := c.argumentsJson, caller := c.caller })
       reasoningArtifact := if includeArtifact then t.reasoningArtifact else none
       origin := some ⟨id, .assistant t.assistantText t.toolCalls⟩ }]
  else []

def toolMessages (id : Nat) (t : Turn) : List ChatRequestMessage :=
  t.toolResults.map fun r =>
    { role := .tool
      content := some r.content
      toolCallId := some r.callId
      origin := some ⟨id, .tool r.callId r.content⟩ }

/-- The text and pixels of one tool-result image. -/
def imagePayload (r : ToolResultRecord) (image : ImageReference) (vision attachImages : Bool) :
    String × List ChatImagePart :=
  let lead := "[image from `" ++ r.name ++ "` tool result: " ++ image.path ++ "]"
  if !attachImages then
    (lead ++ " — the image was shown in an earlier request and is no longer attached as " ++
      "pixels; re-read it with a file tool if you need it again.", [])
  else if !vision then
    (lead ++ " — the active model does not support image input, so the image could not be " ++
      "attached; its metadata is in the tool result above.", [])
  else if image.data = [] then
    (lead ++ " — the image bytes are unavailable (e.g. an old persisted turn); only its text " ++
      "metadata is available.", [])
  else (lead, [{ data := image.data, mimeType := image.mimeType }])

def toolResultImageMessages (id : Nat) (t : Turn) (vision attachImages : Bool) :
    List ChatRequestMessage :=
  t.toolResults.filterMap fun r =>
    match r.image with
    | none => none
    | some image =>
        let payload := imagePayload r image vision attachImages
        some
          { role := .user
            content := some payload.1
            images := payload.2
            origin := some ⟨id, .image r.callId image.path⟩ }

def turnMessages (env : Env) (providerSlug model : String) (inFlightFromTurn : Option Nat)
    (id : Nat) (t : Turn) : List ChatRequestMessage :=
  let includeArtifact :=
    includeReasoningArtifact t providerSlug model
      (env.modelReasoningPassback providerSlug model) (env.echoRequirePresent providerSlug model)
  let attachImages :=
    match inFlightFromTurn with
    | none => false
    | some first => first ≤ id
  userMessage id t ++ assistantMessage id t includeArtifact ++ toolMessages id t ++
    toolResultImageMessages id t (env.modelSupportsVision providerSlug model) attachImages

/-! ## Messages of a history -/

def promptMessages (systemPrompt : Option String) : List ChatRequestMessage :=
  match systemPrompt with
  | none => []
  | some prompt => [{ role := .system, content := some prompt }]

/-- The messages of the live turns, oldest first. -/
def historyMessages (env : Env) (providerSlug model : String) (inFlightFromTurn : Option Nat)
    (entries : List (Nat × Turn)) : List ChatRequestMessage :=
  entries.flatMap fun e =>
    if e.2.undone then []
    else turnMessages env providerSlug model inFlightFromTurn e.1 e.2

/-- The provider request messages of a turn history. -/
def buildChatRequestMessages (env : Env) (turns : Turns) (systemPrompt : Option String)
    (providerSlug model : String) (inFlightFromTurn : Option Nat) : List ChatRequestMessage :=
  promptMessages systemPrompt ++
    historyMessages env providerSlug model inFlightFromTurn turns.entries

/-! ## The tail of a chained request -/

/-- What a request that continues a stored response still has to send: the
newest system message, unless the tail is a tool round, and everything after
the last assistant message. -/
def chainInputMessages (messages : List ChatRequestMessage) : List ChatRequestMessage :=
  let lastAssistant := rposition (fun m => m.role = .assistant) messages
  let newestSystem := rposition (fun m => m.role = .system) messages
  let toolRound :=
    match lastAssistant with
    | none => false
    | some last =>
        let tail := messages.drop (last + 1)
        !tail.isEmpty && tail.all fun m => m.role = .tool
  messages.zipIdx.filterMap fun (p : ChatRequestMessage × Nat) =>
    let keep : Bool :=
      match lastAssistant with
      | none => true
      | some last =>
          (last < p.2 && p.1.role ≠ .system) || (some p.2 = newestSystem && !toolRound)
    if keep then some p.1 else none

/-! ## The visible conversation -/

def turnParts (t : Turn) : List Part :=
  (match t.userText with
    | none => []
    | some text => [Part.user text]) ++
  (if t.assistantText.isSome || !t.toolCalls.isEmpty then
    [Part.assistant t.assistantText t.toolCalls] else []) ++
  t.toolResults.map (fun r => Part.tool r.callId r.content) ++
  t.toolResults.filterMap fun r => r.image.map fun i => Part.image r.callId i.path

/-- The visible messages of one turn; none if it is undone. -/
def visibleOfTurn (id : Nat) (t : Turn) : List VisibleMessage :=
  if t.undone then [] else (turnParts t).map fun p => ⟨id, p⟩

/-- The visible message list of a turn history, oldest first. -/
def visibleMessages (turns : Turns) : List VisibleMessage :=
  turns.entries.flatMap fun e => visibleOfTurn e.1 e.2

/-- The parts of the conversation that a list of messages renders. -/
def transcript (messages : List ChatRequestMessage) : List VisibleMessage :=
  messages.filterMap ChatRequestMessage.origin

end Choreographr.Session
