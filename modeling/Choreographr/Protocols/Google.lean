import Choreographr.Protocols.BlockReplies
import Choreographr.Session.Projection

/-!
# Gemini replies and requests

`responseToTurnResult` reads a whole reply and `streamGenerateContent` the chunks
of a stream; both classify the parts of a candidate the same way. Gemini has no
call ids: a call is given the id `fc_` and its function's name. Going back,
`buildMessagePayloads` lowers the messages of a request to contents; the result of
a call is named by the call id of its message.
-/

namespace Choreographr.Protocols.Google

open Session

/-- What the adapter takes from `serde_json` and `base64`. -/
structure GoogleLib extends ValueLib, WireLib

/-! ## Wire types -/

structure UsageMetadata where
  promptTokenCount : UInt32 := 0
  candidatesTokenCount : UInt32 := 0
  totalTokenCount : UInt32 := 0
  cachedContentTokenCount : UInt32 := 0

def UsageMetadata.toTokenUsage (u : UsageMetadata) : TokenUsage where
  inputTokens := u.promptTokenCount
  outputTokens := u.candidatesTokenCount
  totalTokens := u.totalTokenCount
  cachedTokens := u.cachedContentTokenCount
  cacheWriteTokens := 0

inductive ResponsePart where
  | text (text : String) (thought : Option Bool) (thoughtSignature : Option String)
  | functionCall (name : String) (args : Json) (thoughtSignature : Option String)

structure Candidate where
  /-- The parts of the content, if there is one. -/
  content : Option (List ResponsePart)
  finishReason : Option String := none

structure GenerateContentResponse where
  candidates : List Candidate
  usageMetadata : Option UsageMetadata := none

/-- A part routed to its consumer. -/
inductive ClassifiedPart where
  | answer (text : String)
  | reasoning (text : String) (signature : Option String)
  | toolCall (name : String) (args : Json) (signature : Option String)

/-- A text part is reasoning if it is flagged as a thought. The signature of an
answer is dropped. -/
def ResponsePart.classify : ResponsePart → ClassifiedPart
  | .text body thought signature =>
      if thought = some true then .reasoning body signature else .answer body
  | .functionCall name args signature => .toolCall name args signature

def captureSignature (signatures : List String) (signature : Option String) : List String :=
  signatures ++ signature.toList

def googleSignaturesArtifact (lib : GoogleLib) (signatures : List String) :
    Option ReasoningArtifact :=
  if signatures.isEmpty then none
  else some (.googleSignatures (lib.toVec (.arr (signatures.map .str))))

/-- The tool call of a `functionCall` part. -/
def functionCallToToolCall (lib : GoogleLib) (name : String) (args : Json) : ChatToolCall where
  id := "fc_" ++ name
  name := name
  argumentsJson := lib.valueToString args

/-! ## Whole replies -/

/-- What the parts read so far have given. -/
structure CandidateParts extends BlockParts where
  signatures : List String := []

def CandidateParts.push (lib : GoogleLib) (parts : CandidateParts) (part : ResponsePart) :
    CandidateParts :=
  match part.classify with
  | .answer text => { parts with textParts := parts.textParts ++ [text] }
  | .reasoning text signature =>
      { parts with
        signatures := captureSignature parts.signatures signature
        reasoningParts := parts.reasoningParts ++ [text] }
  | .toolCall name args signature =>
      { parts with
        signatures := captureSignature parts.signatures signature
        toolCalls := parts.toolCalls ++ [functionCallToToolCall lib name args] }

def responseToTurnResult (lib : GoogleLib) (response : GenerateContentResponse) :
    Except AdapterError ChatTurnResult :=
  match response.candidates.head?.bind Candidate.content with
  | none => .error .emptyResponse
  | some content =>
      let parts := content.foldl (CandidateParts.push lib) {}
      parts.toTurnResult (response.usageMetadata.map UsageMetadata.toTokenUsage)
        (googleSignaturesArtifact lib parts.signatures)

/-! ## Streams -/

/-- The accumulators of the stream loop. -/
structure StreamParts extends StreamTexts where
  pendingToolCalls : List ChatToolCall := []
  signatures : List String := []

def handleStreamPart (lib : GoogleLib) (s : StreamParts) (part : ResponsePart) :
    Except AdapterError StreamParts :=
  match part.classify with
  | .answer text => .ok { s with toStreamTexts := s.pushText text }
  | .reasoning text signature =>
      .ok { s with
        toStreamTexts := s.pushReasoning text
        signatures := captureSignature s.signatures signature }
  | .toolCall name args signature =>
      if maxToolCalls ≤ s.pendingToolCalls.length then
        .error (.io ("too many tool calls (max " ++ toString maxToolCalls ++ ")"))
      else
        .ok { s with
          hasAnyOutput := true
          signatures := captureSignature s.signatures signature
          pendingToolCalls := s.pendingToolCalls ++ [functionCallToToolCall lib name args] }

/-- Read the chunks: the usage, and the parts of the first candidate. -/
def readChunks (lib : GoogleLib) (s : StreamParts) (streamUsage : Option TokenUsage) :
    List GenerateContentResponse → Except AdapterError (StreamParts × Option TokenUsage)
  | [] => .ok (s, streamUsage)
  | payload :: rest =>
      let streamUsage := (payload.usageMetadata.map UsageMetadata.toTokenUsage).or streamUsage
      match payload.candidates.head?.bind Candidate.content with
      | none => readChunks lib s streamUsage rest
      | some content =>
          (content.foldlM (handleStreamPart lib) s).bind fun s =>
            readChunks lib s streamUsage rest

/-- The turn result of a streamed reply. -/
def streamGenerateContent (lib : GoogleLib) (chunks : List GenerateContentResponse) :
    Except AdapterError ChatTurnResult :=
  (readChunks lib {} none chunks).bind fun (s, streamUsage) =>
    s.toTurnResult (s.fullText = "" ∧ s.fullReasoning = "") s.pendingToolCalls streamUsage
      (googleSignaturesArtifact lib s.signatures)

/-! ## Requests -/

inductive PartPayload where
  | text (text : String) (thoughtSignature : Option String)
  | functionCall (name : String) (args : Json) (thoughtSignature : Option String)
  | functionResponse (name : String) (response : Json)
  | inlineData (mimeType data : String)

structure ContentPayload where
  role : String
  parts : List PartPayload

/-- An image part, unless its type is not supported. -/
def googleInlineImage (lib : GoogleLib) (image : ChatImagePart) : Option PartPayload :=
  if image.mimeType ∈ ["image/png", "image/jpeg", "image/webp", "image/gif"] then
    some (.inlineData image.mimeType (lib.base64Encode image.data))
  else none

/-- `serde_json::from_slice::<Vec<String>>`. -/
def signaturesFromSlice (lib : GoogleLib) (bytes : Bytes) : Option (List String) := do
  let items ← (← lib.fromSlice bytes).asArray
  items.mapM Json.asStr

/-- Set the signature of a part of a model's content. -/
def PartPayload.sign (signature : String) : PartPayload → PartPayload
  | .text body _ => .text body (some signature)
  | .functionCall name args _ => .functionCall name args (some signature)
  | part => part

/-- The last captured signature goes to the last part. -/
def attachThoughtSignatures (lib : GoogleLib) (parts : List PartPayload) :
    Option ReasoningArtifact → Except AdapterError (List PartPayload)
  | some (.googleSignatures bytes) =>
      match signaturesFromSlice lib bytes with
      | none => .error (.io "json")
      | some signatures =>
          match signatures.getLast? with
          | none => .ok parts
          | some signature =>
              .ok (parts.modify (parts.length - 1) (PartPayload.sign signature))
  | _ => .ok parts

/-- The parts of an assistant message: its text and its calls. -/
def assistantParts (lib : GoogleLib) (msg : ChatRequestMessage) : List PartPayload :=
  ((msg.content.filter (· ≠ "")).map fun text => PartPayload.text text none).toList ++
    (msg.toolCalls.getD []).map fun tc =>
      PartPayload.functionCall tc.name ((lib.fromStr tc.arguments).getD .null) none

/-- The contents of one message; a system message has none. -/
def messageContents (lib : GoogleLib) (msg : ChatRequestMessage) :
    Except AdapterError (List ContentPayload) :=
  match msg.role with
  | .system => .ok []
  | .tool =>
      .ok [⟨"user", [.functionResponse (msg.toolCallId.getD "")
        (.obj [("content", .str (msg.content.getD ""))])]⟩]
  | .assistant => do
      let parts ← attachThoughtSignatures lib (assistantParts lib msg) msg.reasoningArtifact
      if parts.isEmpty then return [] else return [⟨"model", parts⟩]
  | .user =>
      .ok [⟨"user",
        ((msg.content.filter (· ≠ "")).map fun text => PartPayload.text text none).toList ++
          msg.images.filterMap (googleInlineImage lib)⟩]

/-- The contents and the system instruction of a request. -/
def buildMessagePayloads (lib : GoogleLib) (messages : List ChatRequestMessage) :
    Except AdapterError (List ContentPayload × Option String) := do
  let payloads ← messages.mapM (messageContents lib)
  let systemTexts := (messages.filter (·.role = .system)).filterMap ChatRequestMessage.content
  return (payloads.flatten,
    if systemTexts.isEmpty then none else some ("\n".intercalate systemTexts))

end Choreographr.Protocols.Google
