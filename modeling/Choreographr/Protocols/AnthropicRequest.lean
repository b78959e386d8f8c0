import Choreographr.Protocols.BlockReplies
import Choreographr.Session.Projection

/-!
# Anthropic requests

`buildMessagePayloads` lowers the messages of a request to content blocks. A tool
result is a user message of its own; an assistant message starts with the thinking
blocks of its artifact, if thinking is on for the request. What `serde_json` and
`base64` do is taken from a `RequestLib`.
-/

namespace Choreographr.Protocols.Anthropic

open Session

/-- What the adapter takes from `serde_json` and `base64`. -/
structure RequestLib extends JsonLib, WireLib

inductive ContentBlockPayload where
  | text (text : String)
  | image (mediaType data : String)
  | toolUse (id name : String) (input : Json)
  | toolResult (toolUseId content : String)
  /-- A replayed block. -/
  | raw (value : Json)

structure MessagePayload where
  role : String
  content : List ContentBlockPayload

/-- The blocks of a thinking artifact; an artifact of another adapter has none. -/
def artifactThinkingBlocks (lib : RequestLib) :
    Option ReasoningArtifact → Except AdapterError (List ContentBlockPayload)
  | some (.anthropicThinking bytes) =>
      match (lib.fromSlice bytes).bind Json.asArray with
      | none => .error (.io "json")
      | some blocks => .ok (blocks.map .raw)
  | _ => .ok []

/-- The thinking blocks that a request replays. -/
def replayedThinking (lib : RequestLib) (thinkingEnabled : Bool)
    (artifact : Option ReasoningArtifact) : Except AdapterError (List ContentBlockPayload) :=
  if thinkingEnabled then artifactThinkingBlocks lib artifact else .ok []

def anthropicImageMediaTypes : List String :=
  ["image/jpeg", "image/png", "image/gif", "image/webp"]

/-- An image block, unless the type is not allowlisted. -/
def anthropicImageBlock (lib : RequestLib) (image : ChatImagePart) : Option ContentBlockPayload :=
  if image.mimeType ∈ anthropicImageMediaTypes then
    some (.image image.mimeType (lib.base64Encode image.data))
  else none

/-- The text block of a message that has text. -/
def textBlocks (msg : ChatRequestMessage) : List ContentBlockPayload :=
  ((msg.content.filter (· ≠ "")).map ContentBlockPayload.text).toList

/-- A call; arguments that do not parse are `null`. -/
def toolUseBlock (lib : RequestLib) (call : AssistantToolCall) : ContentBlockPayload :=
  .toolUse call.id call.name ((lib.fromStr call.arguments).getD .null)

/-- The payloads of one message; a system message has none. -/
def messagePayloads (lib : RequestLib) (thinkingEnabled : Bool) (msg : ChatRequestMessage) :
    Except AdapterError (List MessagePayload) :=
  match msg.role with
  | .system => .ok []
  | .tool =>
      .ok [⟨"user", [.toolResult (msg.toolCallId.getD "") (msg.content.getD "")]⟩]
  | .assistant => do
      let thinking ← replayedThinking lib thinkingEnabled msg.reasoningArtifact
      let blocks := thinking ++ textBlocks msg ++ (msg.toolCalls.getD []).map (toolUseBlock lib)
      return if blocks.isEmpty then [] else [⟨"assistant", blocks⟩]
  | .user =>
      .ok [⟨"user", textBlocks msg ++ msg.images.filterMap (anthropicImageBlock lib)⟩]

/-- Remove the last message if it is empty. -/
def popEmptyLast (payloads : List MessagePayload) : List MessagePayload :=
  match payloads.getLast? with
  | some last => if last.content.isEmpty then payloads.dropLast else payloads
  | none => payloads

/-- The messages and the system text of a request. -/
def buildMessagePayloads (lib : RequestLib) (messages : List ChatRequestMessage)
    (thinkingEnabled : Bool) : Except AdapterError (List MessagePayload × Option String) := do
  let payloads ← messages.mapM (messagePayloads lib thinkingEnabled)
  let systemTexts := (messages.filter (·.role = .system)).filterMap ChatRequestMessage.content
  return (popEmptyLast payloads.flatten,
    if systemTexts.isEmpty then none else some ("\n".intercalate systemTexts))

end Choreographr.Protocols.Anthropic
