import Choreographr.Protocols.ReasoningCapture

/-!
# Chat-completions replies

A chat reply becomes a turn result in two ways. `chatCompletionsResponseToTurn`
reads the whole reply. `chatStream` folds the chunks of an event stream into an
accumulator, which collects the answer, the tool-call fragments by their index,
the usage and the finish reason, and then finishes it. Both fold reasoning
through `ReasoningStreamState`.

The chunks are the values `serde` reads off the event payloads. What the
accumulator hands to the client while it runs is listed beside the new state.
-/

namespace Choreographr.Protocols

open Session Lib

/-! ## Wire types -/

inductive FinishReason where
  | stop
  | toolCalls
  | length
  | sensitive
  | contextWindowExceeded
  | networkError
  | other (raw : String)
deriving DecidableEq

structure AssistantToolCall where
  id : String
  name : String
  arguments : String

/-- The message of a whole reply. -/
structure AssistantMessage where
  content : Option String := none
  toolCalls : List AssistantToolCall := []
  reasoningContent : Option String := none
  reasoning : Option String := none
  reasoningText : Option String := none
  reasoningDetails : Option Json := none

structure Choice where
  message : AssistantMessage
  finishReason : Option FinishReason := none

structure ChatCompletionsResponse where
  choices : List Choice
  usage : Option Usage := none

structure StreamToolCallFunctionDelta where
  name : Option String := none
  arguments : Option String := none

structure StreamToolCallDelta where
  index : Nat
  id : Option String := none
  function : Option StreamToolCallFunctionDelta := none

structure StreamDelta where
  content : Option String := none
  toolCalls : Option (List StreamToolCallDelta) := none
  reasoningContent : Option String := none
  reasoning : Option String := none
  reasoningText : Option String := none
  reasoningDetails : Option Json := none

structure StreamChoice where
  delta : Option StreamDelta := none
  finishReason : Option FinishReason := none

structure ChatCompletionsStreamResponse where
  choices : List StreamChoice
  usage : Option Usage := none

/-- What a subscriber sees while a stream runs. -/
inductive StreamEvent where
  | answer (text : String)
  | reasoning (text : String)
deriving DecidableEq

/-! ## Reasoning -/

/-- The channel that owns the live display of a turn. -/
inductive DisplaySource where
  | unclaimed
  | scalar
  | details
deriving DecidableEq

/-- The first claim wins. -/
def DisplaySource.claim (owner source : DisplaySource) : DisplaySource :=
  if owner = .unclaimed then source else owner

/-- What the reasoning of a turn amounts to. -/
structure TurnReasoning where
  produced : Bool
  display : Option String
  artifact : Option ReasoningArtifact

def chatReasoningArtifact (field : ChatReasoningField) (reasoning : String) :
    Option ReasoningArtifact :=
  if reasoning = "" then none
  else some (.chatReasoning field reasoning.toUTF8.data.toList)

structure ReasoningStreamState where
  details : DetailsStore := {}
  /-- Every displayable structured fragment, in arrival order. -/
  detailsText : String := ""
  produced : Bool := false
  display : DisplaySource := .unclaimed
  /-- The scalar field in use, from the first nonempty delta on. -/
  scalarField : Option ChatReasoningField := none
  scalarText : String := ""

namespace ReasoningStreamState

/-- Fold a structured value. -/
def applyDetails (lib : JsonLib) (s : ReasoningStreamState) (raw : Json) :
    ReasoningStreamState × List StreamEvent :=
  let entries := DetailsStore.valueEntries lib raw
  let fragments := entries.filterMap displayFragment
  let display := if fragments = [] then s.display else s.display.claim .details
  ({ s with
      details := s.details.push lib raw
      detailsText := s.detailsText ++ String.join fragments
      produced := s.produced || entries.any fun entry => entry.typeTag.isSome
      display := display },
    if display = .details then fragments.map .reasoning else [])

/-- Fold one scalar field of a delta. A field other than the one in use is
neither shown nor kept. -/
def applyScalar (s : ReasoningStreamState) (field : ChatReasoningField) (text : Option String) :
    ReasoningStreamState × List StreamEvent :=
  match text.filter (· ≠ "") with
  | none => (s, [])
  | some text =>
      let chosen := s.scalarField.getD field
      if chosen ≠ field then ({ s with produced := true, scalarField := some chosen }, [])
      else
        let display := s.display.claim .scalar
        ({ s with
            produced := true
            scalarField := some chosen
            scalarText := s.scalarText ++ text
            display := display },
          if display = .scalar then [.reasoning text] else [])

/-- Fold the reasoning fields of a delta, structured entries first. -/
def apply (lib : JsonLib) (s : ReasoningStreamState) (delta : StreamDelta) :
    ReasoningStreamState × List StreamEvent :=
  let (s, shown) :=
    match delta.reasoningDetails with
    | some raw => s.applyDetails lib raw
    | none => (s, [])
  let (s, shown₁) := s.applyScalar .reasoningContent delta.reasoningContent
  let (s, shown₂) := s.applyScalar .reasoning delta.reasoning
  let (s, shown₃) := s.applyScalar .reasoningText delta.reasoningText
  (s, shown ++ shown₁ ++ shown₂ ++ shown₃)

/-- The details outrank the scalar text as the artifact, and the scalar text
outranks the details as the display. -/
def finish (lib : JsonLib) (s : ReasoningStreamState) : TurnReasoning :=
  let display := if s.scalarText = "" then s.detailsText else s.scalarText
  { produced := s.produced
    display := if display = "" then none else some display
    artifact := (s.details.finish lib).or
      (s.scalarField.bind fun field => chatReasoningArtifact field s.scalarText) }

end ReasoningStreamState

/-- The reasoning fields of a whole reply, as one delta. -/
def AssistantMessage.reasoningDelta (m : AssistantMessage) : StreamDelta where
  reasoningContent := m.reasoningContent
  reasoning := m.reasoning
  reasoningText := m.reasoningText
  reasoningDetails := m.reasoningDetails

/-- The reasoning of a whole reply. -/
def AssistantMessage.takeReasoning (lib : JsonLib) (m : AssistantMessage) : TurnReasoning :=
  (ReasoningStreamState.apply lib {} m.reasoningDelta).1.finish lib

/-! ## Whole replies -/

/-- The finish reasons that end a turn in an error. -/
def finishReasonTerminalError : Option FinishReason → Option OpenAiError
  | some .sensitive => some (.contentFiltered ("provider content filter refused the response " ++
      "(finish_reason: sensitive/content_filter)"))
  | some .contextWindowExceeded =>
      some (.contextWindowExceeded ("the prompt exceeded the model's context window " ++
        "(finish_reason: model_context_window_exceeded)"))
  | _ => none

def chatCompletionsResponseToTurn (lib : JsonLib) (payload : ChatCompletionsResponse) :
    Except OpenAiError ChatTurnResult :=
  match payload.choices with
  | [] => .error .emptyResponse
  | choice :: _ =>
      match finishReasonTerminalError choice.finishReason with
      | some err => .error err
      | none =>
          let reasoning := choice.message.takeReasoning lib
          assembleTurn lib {
            content := choice.message.content
            toolCalls := choice.message.toolCalls.map fun call =>
              { id := call.id, name := call.name, argumentsJson := call.arguments }
            unnamedCalls := 0
            reasoning := reasoning.display
            reasoningArtifact := reasoning.artifact
            producedReasoning := reasoning.produced
            usage := payload.usage.map Usage.toTokenUsage
            truncated := choice.finishReason = some .length
            responseId := none }

/-! ## Streams -/

/-- A tool call whose fields arrive over several chunks. -/
structure AccumulatingToolCall where
  id : Option String := none
  name : Option String := none
  arguments : String := ""

/-- The last id and the last name win; arguments are appended. -/
def AccumulatingToolCall.absorb (acc : AccumulatingToolCall) (delta : StreamToolCallDelta) :
    AccumulatingToolCall where
  id := delta.id.or acc.id
  name := (delta.function.bind StreamToolCallFunctionDelta.name).or acc.name
  arguments :=
    acc.arguments ++ (delta.function.bind StreamToolCallFunctionDelta.arguments).getD ""

def AccumulatingToolCall.toCall (acc : AccumulatingToolCall) : ChatToolCall where
  id := acc.id.getD ""
  name := acc.name.getD ""
  argumentsJson := acc.arguments

/-- Merge the fragments by index. The calls come out in the order of their
indices. -/
def accumulateToolCallsFromDeltas (deltas : List StreamToolCallDelta) : List ChatToolCall :=
  let calls : OrdMap Nat AccumulatingToolCall :=
    deltas.foldl (fun calls delta =>
      calls.insert delta.index (((calls.get? delta.index).getD {}).absorb delta)) OrdMap.empty
  calls.values.map AccumulatingToolCall.toCall

structure ChatCompletionsStreamAccumulator where
  fullContent : String := ""
  reasoning : ReasoningStreamState := {}
  rawToolCallDeltas : List StreamToolCallDelta := []
  lastUsage : Option TokenUsage := none
  finishReason : Option FinishReason := none

namespace ChatCompletionsStreamAccumulator

/-- The error for a call number past the cap. -/
def indexOutOfBounds (index : Nat) : OpenAiError :=
  .io ("tool call index " ++ toString index ++ " out of bounds (max " ++
    toString (maxToolCalls - 1) ++ ")")

/-- Fold one choice of a chunk. -/
def applyChoice (lib : JsonLib) (acc : ChatCompletionsStreamAccumulator) (choice : StreamChoice) :
    Except OpenAiError (ChatCompletionsStreamAccumulator × List StreamEvent) :=
  let acc := { acc with finishReason := choice.finishReason.or acc.finishReason }
  match choice.delta with
  | none => .ok (acc, [])
  | some delta =>
      let content := delta.content.getD ""
      let answered := if content = "" then [] else [StreamEvent.answer content]
      let (reasoning, shown) := acc.reasoning.apply lib delta
      let calls := delta.toolCalls.getD []
      match calls.find? fun call => maxToolCalls ≤ call.index with
      | some call => .error (indexOutOfBounds call.index)
      | none =>
          .ok ({ acc with
              fullContent := acc.fullContent ++ content
              reasoning := reasoning
              rawToolCallDeltas := acc.rawToolCallDeltas ++ calls },
            answered ++ shown)

/-- Fold the next choice, with the events of those before it. -/
def applyNext (lib : JsonLib) (state : ChatCompletionsStreamAccumulator × List StreamEvent)
    (choice : StreamChoice) :
    Except OpenAiError (ChatCompletionsStreamAccumulator × List StreamEvent) :=
  (state.1.applyChoice lib choice).map fun next => (next.1, state.2 ++ next.2)

/-- Fold one chunk, with the events of its choices in order. -/
def apply (lib : JsonLib) (acc : ChatCompletionsStreamAccumulator)
    (payload : ChatCompletionsStreamResponse) :
    Except OpenAiError (ChatCompletionsStreamAccumulator × List StreamEvent) :=
  let acc := { acc with lastUsage := (payload.usage.map Usage.toTokenUsage).or acc.lastUsage }
  payload.choices.foldlM (applyNext lib) (acc, [])

def intoTurnResult (lib : JsonLib) (acc : ChatCompletionsStreamAccumulator) :
    Except OpenAiError ChatTurnResult :=
  match finishReasonTerminalError acc.finishReason with
  | some err => .error err
  | none =>
      let reasoning := acc.reasoning.finish lib
      assembleTurn lib {
        content := if acc.fullContent = "" then none else some acc.fullContent
        toolCalls := accumulateToolCallsFromDeltas acc.rawToolCallDeltas
        unnamedCalls := 0
        reasoning := reasoning.display
        reasoningArtifact := reasoning.artifact
        producedReasoning := reasoning.produced
        usage := acc.lastUsage
        truncated := acc.finishReason = some .length
        responseId := none }

/-- Fold the chunks of a stream. -/
def applyAll (lib : JsonLib) (acc : ChatCompletionsStreamAccumulator)
    (chunks : List ChatCompletionsStreamResponse) :
    Except OpenAiError ChatCompletionsStreamAccumulator :=
  chunks.foldlM (fun acc payload => (acc.apply lib payload).map Prod.fst) acc

end ChatCompletionsStreamAccumulator

/-- The turn result of a streamed reply. -/
def chatStream (lib : JsonLib) (chunks : List ChatCompletionsStreamResponse) :
    Except OpenAiError ChatTurnResult :=
  (ChatCompletionsStreamAccumulator.applyAll lib {} chunks).bind
    (ChatCompletionsStreamAccumulator.intoTurnResult lib)

end Choreographr.Protocols
