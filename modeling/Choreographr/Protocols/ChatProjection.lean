import Choreographr.Protocols.ReasoningDetails
import Choreographr.Session.Projection

/-!
# The chat-completions message projection

`chatWireMessages` lowers a message list for one route: which artifacts are
replayed is decided once for the whole request, newest first, against the byte
budget; then every message is lowered, oldest first, and an assistant message
that would carry nothing is dropped. `serialize` lists the fields of a lowered
message in wire order.
-/

namespace Choreographr.Protocols

open Session

/-- The route's reasoning echo policy. -/
structure ChatReasoningEcho where
  field : Option ChatReasoningField := none
  requirePresent : Bool := false

/-- The wire key a field names. -/
def wireName : ChatReasoningField → String
  | .reasoningContent => "reasoning_content"
  | .reasoning => "reasoning"
  | .reasoningText => "reasoning_text"
  | .reasoningDetails => "reasoning_details"

/-- A scalar field, or the structured `reasoning_details` array. -/
inductive WireReasoning where
  | scalar (key value : String)
  | details (entries : List Json)

namespace WireReasoning

/-- An emission that is more than a presence marker. -/
def hasPayload : WireReasoning → Bool
  | .scalar _ value => !(trim value).isEmpty
  | .details entries => !entries.isEmpty

def key : WireReasoning → String
  | .scalar key _ => key
  | .details _ => "reasoning_details"

def value : WireReasoning → Json
  | .scalar _ value => .str value
  | .details entries => .arr entries

end WireReasoning

/-- Re-encode a scalar artifact's text as the one entry a structured route
replays; blank text is none. -/
def lowerScalarTextAsDetails (bytes : Bytes) : List Json :=
  match (strFromUtf8 bytes).filter fun text => !(trim text).isEmpty with
  | none => []
  | some text => [.obj [("type", .str "reasoning.text"), ("text", .str text)]]

/-- The field an artifact was observed under. -/
def observedField : Option ReasoningArtifact → Option ChatReasoningField
  | some (.chatReasoning field _) => some field
  | _ => none

/-- The entries for a structured destination. -/
def lowerDetails (lib : WireLib) : Option ReasoningArtifact → List Json
  | some (.chatReasoning .reasoningDetails bytes) => detailsWireValue lib bytes
  | some (.chatReasoning _ bytes) => lowerScalarTextAsDetails bytes
  | _ => []

/-- The text for a scalar destination, if the artifact has any. A corrupt payload
has none. -/
def scalarText (lib : WireLib) : Option ReasoningArtifact → Option String
  | some (.chatReasoning field bytes) =>
      match strFromUtf8 bytes with
      | none => none
      | some text =>
          if field = .reasoningDetails then detailsDisplayText lib bytes else some text
  | _ => none

/-- The reasoning emission of one message: at most one wire shape. -/
def lowerReasoning (lib : WireLib) (role : Role) (artifact : Option ReasoningArtifact)
    (echo : ChatReasoningEcho) : Option WireReasoning :=
  if role ≠ .assistant then none
  else
    let destination := echo.field.or (observedField artifact)
    if destination = some .reasoningDetails then
      let details := lowerDetails lib artifact
      if !echo.requirePresent && details.isEmpty then none else some (.details details)
    else
      match scalarText lib artifact with
      | some value => some (.scalar (wireName (destination.getD .reasoningContent)) value)
      | none =>
          if echo.requirePresent then
            some (.scalar (wireName (echo.field.getD .reasoningContent)) "")
          else none

/-! ## The replay budget -/

/-- The bytes of the chat artifact an assistant message carries. Only these are
charged against the budget. -/
def chatArtifact (m : ChatRequestMessage) : Option Bytes :=
  match m.reasoningArtifact with
  | some (.chatReasoning _ bytes) => if m.role = .assistant then some bytes else none
  | _ => none

/-- The walk over the messages, newest first, with the bytes accepted so far. -/
def replayWalk (used : Nat) (accepted : Bool) : List ChatRequestMessage → List Bool
  | [] => []
  | m :: older =>
      match chatArtifact m with
      | none => false :: replayWalk used accepted older
      | some bytes =>
          if accepted && maxReasoningBytes < used then false :: replayWalk used accepted older
          else true :: replayWalk (min (used + bytes.length) usizeMax) true older

/-- Per message position, whether that message's artifact is replayed. -/
def reasoningReplayBudget (messages : List ChatRequestMessage) : List Bool :=
  (replayWalk 0 false messages.reverse).reverse

/-! ## Lowered messages -/

structure ChatWireMessage where
  message : ChatRequestMessage
  reasoning : Option WireReasoning

def hasToolCalls (m : ChatRequestMessage) : Bool :=
  match m.toolCalls with
  | some calls => !calls.isEmpty
  | none => false

/-- The one drop predicate, over an emission already lowered. -/
def payloadIsEmpty (content : Option String) (hasCalls hasImages : Bool)
    (reasoning : Option WireReasoning) : Bool :=
  let hasContent := content.any fun text => !(trim text).isEmpty
  let hasReasoning := reasoning.any WireReasoning.hasPayload
  !hasContent && !hasCalls && !hasImages && !hasReasoning

/-- The drop predicate of a diagnostic, which is asked about one assistant message
without the request around it. -/
def chatAssistantPayloadIsEmpty (lib : WireLib) (content : Option String)
    (hasCalls hasImages : Bool) (artifact : Option ReasoningArtifact)
    (echo : ChatReasoningEcho) : Bool :=
  payloadIsEmpty content hasCalls hasImages (lowerReasoning lib .assistant artifact echo)

namespace ChatWireMessage

/-- Only an assistant message can be emptied by the projection. -/
def isEmpty (w : ChatWireMessage) : Bool :=
  if w.message.role ≠ .assistant then false
  else payloadIsEmpty w.message.content (hasToolCalls w.message) (!w.message.images.isEmpty)
    w.reasoning

end ChatWireMessage

structure ChatWireMessages where
  messages : List ChatWireMessage
  dropped : Nat

/-- Lower one message; a withheld artifact is no artifact. -/
def lowerMessage (lib : WireLib) (echo : ChatReasoningEcho) (m : ChatRequestMessage)
    (replay : Bool) : ChatWireMessage :=
  ⟨m, lowerReasoning lib m.role (if replay then m.reasoningArtifact else none) echo⟩

/-- Lower a message list under one route policy. -/
def chatWireMessages (lib : WireLib) (messages : List ChatRequestMessage)
    (echo : ChatReasoningEcho) : ChatWireMessages :=
  let lowered := messages.zipWith (lowerMessage lib echo) (reasoningReplayBudget messages)
  { messages := lowered.filter fun w => !w.isEmpty
    dropped := (lowered.filter fun w => w.isEmpty).length }

/-! ## Serialization -/

def dataUrl (lib : WireLib) (image : ChatImagePart) : String :=
  "data:" ++ image.mimeType ++ ";base64," ++ lib.base64Encode image.data

end Choreographr.Protocols
