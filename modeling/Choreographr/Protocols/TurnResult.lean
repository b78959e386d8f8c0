import Choreographr.Protocols.Values
import Choreographr.Session.AgentLoop

/-!
# Turn results

`assembleTurn` turns the finalized parts of a provider reply into a turn result.
Both OpenAI adapters call it, for whole replies and for streamed ones: tool calls
win, then a reply whose every call was cut off, then the final answer, which is
empty only if the model produced no reasoning either.
-/

namespace Choreographr.Protocols

open Session

structure DiscardedToolCall where
  name : String
  argumentsJson : String
deriving DecidableEq

/-- The errors a reply can end in. A text of `serde_json` is left out. -/
inductive OpenAiError where
  | io (message : String)
  | json
  | emptyResponse
  | contentFiltered (detail : String)
  | contextWindowExceeded (detail : String)
  | truncatedToolCall (discarded : List DiscardedToolCall)
  | unidentifiedToolCalls (count : Nat)
deriving DecidableEq

inductive ChatTurnResult where
  | finalText (result : FinalText)
  | toolUse (result : ToolUse)
deriving DecidableEq

namespace ChatTurnResult

def content : ChatTurnResult → Option String
  | .finalText result => some result.content
  | .toolUse result => result.content

def reasoning : ChatTurnResult → Option String
  | .finalText result => result.reasoning
  | .toolUse result => result.reasoning

end ChatTurnResult

/-- The most tool calls one streamed turn may name. -/
def maxToolCalls : Nat := 128

/-! ## Usage -/

/-- The `{ cached_tokens }` object of both usage shapes. -/
structure CachedTokenDetails where
  cachedTokens : Option UInt32

/-- Token usage as the provider reports it. -/
structure Usage where
  promptTokens : UInt32
  completionTokens : UInt32
  totalTokens : UInt32
  promptTokensDetails : Option CachedTokenDetails := none
  inputTokensDetails : Option CachedTokenDetails := none
  promptCacheHitTokens : Option UInt32 := none

namespace Usage

def cacheHitTokens (u : Usage) : UInt32 :=
  ((u.promptTokensDetails.bind CachedTokenDetails.cachedTokens).or
    ((u.inputTokensDetails.bind CachedTokenDetails.cachedTokens).or
      u.promptCacheHitTokens)).getD 0

def toTokenUsage (u : Usage) : TokenUsage where
  inputTokens := u.promptTokens
  outputTokens := u.completionTokens
  totalTokens := u.totalTokens
  cachedTokens := u.cacheHitTokens
  cacheWriteTokens := 0

end Usage

/-! ## Assembly -/

/-- What the adapters take from `serde_json` when they read a reply. -/
structure JsonLib where
  /-- `serde_json::from_str::<Value>`. -/
  fromStr : String → Option Json
  /-- `serde_json::to_vec`. -/
  toVec : Json → Bytes
  /-- `serde_json::from_value::<Usage>`. -/
  usageFromValue : Json → Option Usage

/-- The finalized parts of one turn. -/
structure TurnParts where
  content : Option String
  toolCalls : List ChatToolCall
  /-- Calls the stream mentioned without naming their function. -/
  unnamedCalls : Nat
  reasoning : Option String
  reasoningArtifact : Option ReasoningArtifact
  /-- The provider sent reasoning, shown and kept or not. -/
  producedReasoning : Bool
  usage : Option TokenUsage
  truncated : Bool
  responseId : Option String

/-- The arguments of a call are JSON; those of a call that was cut off are not. -/
def argumentsParse (lib : JsonLib) (call : ChatToolCall) : Bool :=
  (lib.fromStr call.argumentsJson).isSome

/-- The calls that can be run, and those that are dropped. -/
def validateToolCallArguments (lib : JsonLib) (calls : List ChatToolCall) :
    List ChatToolCall × List DiscardedToolCall :=
  (calls.filter (argumentsParse lib),
    (calls.filter fun call => !argumentsParse lib call).map fun call =>
      ⟨call.name, call.argumentsJson⟩)

/-- The final answer of a turn, with its content trimmed. -/
def TurnParts.answer (parts : TurnParts) : FinalText where
  content := trim (parts.content.getD "")
  reasoning := parts.reasoning
  truncated := parts.truncated
  usage := parts.usage
  responseId := parts.responseId
  reasoningArtifact := parts.reasoningArtifact

def assembleTurn (lib : JsonLib) (parts : TurnParts) : Except OpenAiError ChatTurnResult :=
  let contentIsEmpty := (trim (parts.content.getD "")).isEmpty
  let (valid, discarded) := validateToolCallArguments lib parts.toolCalls
  if hValid : valid ≠ [] then
    -- a tool-call turn keeps its content as it came
    .ok (.toolUse {
      content := parts.content
      reasoning := parts.reasoning
      toolCalls := valid
      toolCalls_ne_nil := hValid
      usage := parts.usage
      responseId := parts.responseId
      reasoningArtifact := parts.reasoningArtifact })
  else if discarded ≠ [] then
    if contentIsEmpty then .error (.truncatedToolCall discarded)
    else .ok (.finalText parts.answer)
  else if contentIsEmpty ∧ 0 < parts.unnamedCalls then
    .error (.unidentifiedToolCalls parts.unnamedCalls)
  else if contentIsEmpty ∧ !parts.producedReasoning then .error .emptyResponse
  else .ok (.finalText parts.answer)

end Choreographr.Protocols
