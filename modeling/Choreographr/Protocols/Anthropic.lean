import Choreographr.Protocols.BlockReplies

/-!
# Anthropic replies

`responseToTurnResult` reads a whole message. `messagesRequestStreaming` reads its
event stream: texts are appended as they come, `ThinkingBlockAccumulator` rebuilds
the thinking blocks, and the tool calls are kept in a list indexed by the position
of their block in the content.

The events are the values `serde` reads off the event payloads; the index of a
block is a `u32`.
-/

namespace Choreographr.Protocols.Anthropic

open Session

/-! ## Whole messages -/

inductive ContentBlock where
  | text (text : String)
  | toolUse (id name : String) (input : Json)
  | thinking (thinking signature : String)
  | redactedThinking (data : String)

structure UsageInfo where
  inputTokens : UInt32 := 0
  outputTokens : UInt32 := 0
  cacheReadInputTokens : UInt32 := 0
  cacheCreationInputTokens : UInt32 := 0

structure MessagesResponse where
  content : List ContentBlock
  stopReason : Option String := none
  usage : Option UsageInfo := none

/-- A block that the provider wants back. -/
inductive ThinkingArtifactBlock where
  | thinking (thinking signature : String)
  | redactedThinking (data : String)

/-- The keys of an object are in order. -/
def ThinkingArtifactBlock.toValue : ThinkingArtifactBlock → Json
  | .thinking text signature => .obj [("signature", .str signature),
      ("thinking", .str text), ("type", .str "thinking")]
  | .redactedThinking data => .obj [("data", .str data), ("type", .str "redacted_thinking")]

def anthropicThinkingArtifact (lib : ValueLib) (blocks : List ThinkingArtifactBlock) :
    Option ReasoningArtifact :=
  if blocks.isEmpty then none
  else some (.anthropicThinking (lib.toVec (.arr (blocks.map ThinkingArtifactBlock.toValue))))

/-- The full prompt counts the cached tokens too. Sums wrap. -/
def anthropicTokenUsage (inputTokens outputTokens cacheRead cacheWrite : UInt32) : TokenUsage :=
  let promptTokens := inputTokens + cacheRead + cacheWrite
  { inputTokens := promptTokens
    outputTokens := outputTokens
    totalTokens := promptTokens + outputTokens
    cachedTokens := cacheRead
    cacheWriteTokens := cacheWrite }

def UsageInfo.toTokenUsage (u : UsageInfo) : TokenUsage :=
  anthropicTokenUsage u.inputTokens u.outputTokens u.cacheReadInputTokens
    u.cacheCreationInputTokens

/-- What the blocks read so far have given. -/
structure MessageParts extends BlockParts where
  artifactBlocks : List ThinkingArtifactBlock := []

def MessageParts.push (lib : ValueLib) (parts : MessageParts) : ContentBlock → MessageParts
  | .text text => { parts with textParts := parts.textParts ++ [text] }
  | .toolUse id name input =>
      { parts with toolCalls := parts.toolCalls ++ [⟨id, name, lib.valueToString input, none⟩] }
  | .thinking thinking signature =>
      { parts with
        reasoningParts := parts.reasoningParts ++ [thinking]
        artifactBlocks := parts.artifactBlocks ++ [.thinking thinking signature] }
  | .redactedThinking data =>
      { parts with artifactBlocks := parts.artifactBlocks ++ [.redactedThinking data] }

def responseToTurnResult (lib : ValueLib) (response : MessagesResponse) :
    Except AdapterError ChatTurnResult :=
  let parts := response.content.foldl (MessageParts.push lib) {}
  parts.toTurnResult (response.usage.map UsageInfo.toTokenUsage)
    (anthropicThinkingArtifact lib parts.artifactBlocks)

/-! ## Stream events -/

inductive StreamContentBlock where
  | text (text : String)
  | toolUse (id name : String) (input : Json)
  | thinking (thinking : String)
  | redactedThinking (data : String)

inductive StreamDelta where
  | textDelta (text : String)
  | inputJsonDelta (partialJson : String)
  | thinkingDelta (thinking : String)
  | signatureDelta (signature : String)

structure AnthropicStreamUsage where
  inputTokens : UInt32
  cacheReadInputTokens : UInt32 := 0
  cacheCreationInputTokens : UInt32 := 0

inductive MessagesEvent where
  | contentBlockStart (index : Nat) (contentBlock : StreamContentBlock)
  | contentBlockDelta (index : Nat) (delta : StreamDelta)
  | contentBlockStop
  | messageStart (usage : Option AnthropicStreamUsage)
  | messageDelta (outputTokens : Option UInt32)
  | messageStop
  /-- A ping, or an event of another type. -/
  | other

/-! ## Thinking blocks -/

structure StreamThinkingBlock where
  thinking : String := ""
  signature : String := ""

structure ThinkingBlockAccumulator where
  blocks : List ThinkingArtifactBlock := []
  /-- The block between its start and its stop. -/
  openBlock : Option StreamThinkingBlock := none

namespace ThinkingBlockAccumulator

def onContentBlockStart (acc : ThinkingBlockAccumulator) :
    StreamContentBlock → ThinkingBlockAccumulator
  | .thinking thinking => { acc with openBlock := some { thinking := thinking } }
  | .redactedThinking data => { acc with blocks := acc.blocks ++ [.redactedThinking data] }
  | _ => acc

def onContentBlockDelta (acc : ThinkingBlockAccumulator) : StreamDelta → ThinkingBlockAccumulator
  | .thinkingDelta thinking =>
      { acc with openBlock := acc.openBlock.map fun block =>
          { block with thinking := block.thinking ++ thinking } }
  | .signatureDelta signature =>
      { acc with openBlock := acc.openBlock.map fun block =>
          { block with signature := block.signature ++ signature } }
  | _ => acc

def onContentBlockStop (acc : ThinkingBlockAccumulator) : ThinkingBlockAccumulator :=
  match acc.openBlock with
  | some block => { blocks := acc.blocks ++ [.thinking block.thinking block.signature] }
  | none => acc

/-- A block left open at the end of the stream is closed. -/
def finish (acc : ThinkingBlockAccumulator) : List ThinkingArtifactBlock :=
  acc.onContentBlockStop.blocks

end ThinkingBlockAccumulator

/-! ## The stream loop -/

structure StreamToolCall where
  id : String := ""
  name : String := ""
  arguments : String := ""

structure MessagesStreamState extends StreamTexts where
  pendingToolCalls : List StreamToolCall := []
  inputTokens : Option UInt32 := none
  outputTokens : Option UInt32 := none
  cachedTokens : UInt32 := 0
  cacheWriteTokens : UInt32 := 0
  thinkingBlocks : ThinkingBlockAccumulator := {}

/-- The error for a block past the cap. -/
def indexExceeds (index : Nat) : AdapterError :=
  .io ("tool call index " ++ toString index ++ " exceeds maximum (" ++ toString maxToolCalls ++ ")")

namespace MessagesStreamState

/-- Update the call at an index; the list grows to cover it. -/
def updateToolCall (s : MessagesStreamState) (index : Nat)
    (update : StreamToolCall → StreamToolCall) : Except AdapterError MessagesStreamState :=
  if maxToolCalls ≤ index then .error (indexExceeds index)
  else
    let grown := s.pendingToolCalls ++
      List.replicate (index + 1 - s.pendingToolCalls.length) ({} : StreamToolCall)
    .ok { s with hasAnyOutput := true, pendingToolCalls := grown.modify index update }

def onStart (lib : ValueLib) (s : MessagesStreamState) (index : Nat)
    (contentBlock : StreamContentBlock) : Except AdapterError MessagesStreamState :=
  let s := { s with thinkingBlocks := s.thinkingBlocks.onContentBlockStart contentBlock }
  match contentBlock with
  | .text text => .ok { s with toStreamTexts := s.pushText text }
  | .toolUse id name input =>
      s.updateToolCall index fun _ => ⟨id, name, lib.valueToString input⟩
  | .thinking thinking => .ok { s with toStreamTexts := s.pushReasoning thinking }
  | .redactedThinking _ => .ok s

def onDelta (s : MessagesStreamState) (index : Nat) (delta : StreamDelta) :
    Except AdapterError MessagesStreamState :=
  let s := { s with thinkingBlocks := s.thinkingBlocks.onContentBlockDelta delta }
  match delta with
  | .textDelta text => .ok { s with toStreamTexts := s.pushText text }
  | .inputJsonDelta partialJson =>
      s.updateToolCall index fun call => { call with arguments := call.arguments ++ partialJson }
  | .thinkingDelta thinking => .ok { s with toStreamTexts := s.pushReasoning thinking }
  | .signatureDelta _ => .ok s

/-- Handle events until the message stops or the stream ends. -/
def run (lib : ValueLib) (s : MessagesStreamState) :
    List MessagesEvent → Except AdapterError MessagesStreamState
  | [] => .ok s
  | .messageStop :: _ => .ok s
  | .contentBlockStart index contentBlock :: rest =>
      (s.onStart lib index contentBlock).bind fun s => s.run lib rest
  | .contentBlockDelta index delta :: rest =>
      (s.onDelta index delta).bind fun s => s.run lib rest
  | .contentBlockStop :: rest =>
      run lib { s with thinkingBlocks := s.thinkingBlocks.onContentBlockStop } rest
  | .messageStart none :: rest => s.run lib rest
  | .messageStart (some usage) :: rest =>
      run lib { s with
        inputTokens := some usage.inputTokens
        cachedTokens := usage.cacheReadInputTokens
        cacheWriteTokens := usage.cacheCreationInputTokens } rest
  | .messageDelta outputTokens :: rest => run lib { s with outputTokens := outputTokens } rest
  | .other :: rest => s.run lib rest

/-- Both counts are needed. -/
def usage (s : MessagesStreamState) : Option TokenUsage :=
  match s.inputTokens, s.outputTokens with
  | some inputTokens, some outputTokens =>
      some (anthropicTokenUsage inputTokens outputTokens s.cachedTokens s.cacheWriteTokens)
  | _, _ => none

def finish (lib : ValueLib) (s : MessagesStreamState) : Except AdapterError ChatTurnResult :=
  s.toTurnResult (s.fullText = "")
    (s.pendingToolCalls.map fun call => ⟨call.id, call.name, call.arguments, none⟩)
    s.usage (anthropicThinkingArtifact lib s.thinkingBlocks.finish)

end MessagesStreamState

/-- The turn result of a streamed message. -/
def messagesRequestStreaming (lib : ValueLib) (events : List MessagesEvent) :
    Except AdapterError ChatTurnResult :=
  (MessagesStreamState.run lib {} events).bind (MessagesStreamState.finish lib)

end Choreographr.Protocols.Anthropic
