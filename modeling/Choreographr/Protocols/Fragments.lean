import Choreographr.Lib.Assembly
import Choreographr.Protocols.ChatStream
import Choreographr.Protocols.ResponsesStream

/-!
# Well-formed event streams

What it means that an event stream is a fragmentation of a whole reply, for both
OpenAI wire formats. The definitions speak about what the provider sends; nothing
in them is taken from the way the accumulators work.
-/

namespace Choreographr.Protocols

open Session Lib

/-! ## Structured reasoning -/

/-- The entries of a value: what has a type. -/
def typedEntries (lib : JsonLib) (raw : Json) : List Json :=
  (DetailsStore.valueEntries lib raw).filter fun entry => entry.typeTag.isSome

/-- The bytes of streamed entries, counted one by one. -/
def streamedBytes (lib : JsonLib) (entries : List Json) : Nat :=
  (entries.map fun entry => (lib.toVec entry).length).sum

/-- An object, with its keys in order as `serde_json` keeps them. -/
def IsObject (v : Json) : Prop :=
  ∃ fields, v = .obj fields ∧ fields.Pairwise fun x y => x.1 < y.1

/-- A fragment of a textual block has its type and index. Of its other fields it
has what the block has, or does not state them yet. -/
structure FragmentOf (block : Json) (key : String) (fragment : Json) : Prop where
  object : IsObject fragment
  type_eq : fragment.get "type" = block.get "type"
  index_eq : fragment.get "index" = block.get "index"
  field : ∀ name w, name ≠ key → fragment.get name = some w →
    ∃ v, block.get name = some v ∧ (w = v ∨ isUnstated (some w) ∧ ¬isUnstated (some v))

/-- The fragments of one textual block: the payload is cut into theirs, and every
other field is on one of them. -/
structure MakesUp (block : Json) (key : String) (fragments : List Json) : Prop where
  several : 2 ≤ fragments.length
  fragmentOf : ∀ fragment ∈ fragments, FragmentOf block key fragment
  payload : block.get key =
    some (.str (String.join (fragments.map fun fragment => payloadText fragment key)))
  field : ∀ name v, name ≠ key → block.get name = some v →
    ∃ fragment ∈ fragments, fragment.get name = some v

/-- The kind of an entry that may be cut. -/
def textualKind (entry : Json) : Option DetailKind := (classify entry).filter DetailKind.isTextual

/-- How one entry is streamed: whole, or a textual one in fragments. -/
def CutInto (entry : Json) (fragments : List Json) : Prop :=
  fragments = [entry] ∨
    ∃ kind, textualKind entry = some kind ∧ MakesUp entry kind.payloadKey fragments

/-- The slot that names a textual block on the stream. -/
def slotOf (entry : Json) : Option Slot :=
  (textualKind entry).map fun kind => (kind, entryIndex entry)

/-- `deltas` is a fragmentation of `entries`: each delta lists its entries with
the number of the block they belong to. Blocks may be interleaved. -/
structure DetailsFragments (entries : List Json) (deltas : List (List (Nat × Json))) : Prop where
  object : ∀ entry ∈ entries, IsObject entry
  opens : OpensInOrder entries.length 0 deltas.flatten
  cut : ∀ (k : Nat) entry, entries[k]? = some entry → CutInto entry (eventsOf k deltas.flatten)

/-- No two textual blocks share a slot. -/
def OwnSlots (entries : List Json) : Prop :=
  ∀ (i j : Nat) (slot : Slot), (entries[i]?).bind slotOf = some slot →
    (entries[j]?).bind slotOf = some slot → i = j

/-- What tells the blocks of a stream apart: their slots and, for a block without
an index, that a delta has at most one fragment of it. -/
structure ToldApart (entries : List Json) (deltas : List (List (Nat × Json))) : Prop where
  slots : OwnSlots entries
  unindexed : ∀ delta ∈ deltas, ∀ (k : Nat) entry, entries[k]? = some entry →
    entryIndex entry = none → (eventsOf k delta).length ≤ 1

/-! ## Chat-completions streams -/

namespace StreamToolCallDelta

def name (delta : StreamToolCallDelta) : Option String :=
  delta.function.bind StreamToolCallFunctionDelta.name

def arguments (delta : StreamToolCallDelta) : Option String :=
  delta.function.bind StreamToolCallFunctionDelta.arguments

end StreamToolCallDelta

/-- The fragments of one tool call: its id and its name whole, its arguments in
pieces. -/
structure CallFragments (call : AssistantToolCall) (deltas : List StreamToolCallDelta) : Prop where
  nonempty : deltas ≠ []
  id : ∀ delta ∈ deltas, ∀ id, delta.id = some id → id = call.id
  id_sent : call.id = "" ∨ ∃ delta ∈ deltas, delta.id = some call.id
  name : ∀ delta ∈ deltas, ∀ name, delta.name = some name → name = call.name
  name_sent : call.name = "" ∨ ∃ delta ∈ deltas, delta.name = some call.name
  arguments : String.join (deltas.map fun delta => delta.arguments.getD "") = call.arguments

/-- The fragments of the calls of a reply, under increasing indices. -/
def ToolCallFragments (calls : List AssistantToolCall) (deltas : List StreamToolCallDelta) : Prop :=
  ∃ indices : List Nat, indices.Pairwise (· < ·) ∧ indices.length = calls.length ∧
    (∀ delta ∈ deltas, delta.index ∈ indices) ∧
    ∀ (k : Nat) call index, calls[k]? = some call → indices[k]? = some index →
      CallFragments call (deltas.filter fun delta => delta.index = index)

/-- The text of a scalar reasoning field. -/
def StreamDelta.scalar (delta : StreamDelta) : ChatReasoningField → String
  | .reasoningContent => delta.reasoningContent.getD ""
  | .reasoning => delta.reasoning.getD ""
  | .reasoningText => delta.reasoningText.getD ""
  | .reasoningDetails => ""

/-- The scalar field a reader of one delta goes by. -/
def StreamDelta.preferredField (delta : StreamDelta) : Option ChatReasoningField :=
  [.reasoningContent, .reasoning, .reasoningText].find? fun field => delta.scalar field ≠ ""

def streamChoices (chunks : List ChatCompletionsStreamResponse) : List StreamChoice :=
  chunks.flatMap ChatCompletionsStreamResponse.choices

def streamDeltas (chunks : List ChatCompletionsStreamResponse) : List StreamDelta :=
  (streamChoices chunks).filterMap StreamChoice.delta

/-- The structured reasoning values of a stream. -/
def streamDetails (chunks : List ChatCompletionsStreamResponse) : List Json :=
  (streamDeltas chunks).filterMap StreamDelta.reasoningDetails

def streamToolCalls (chunks : List ChatCompletionsStreamResponse) : List StreamToolCallDelta :=
  (streamDeltas chunks).flatMap fun delta => delta.toolCalls.getD []

/-- The structured reasoning entries of a whole reply. -/
def AssistantMessage.blocks (lib : JsonLib) (m : AssistantMessage) : List Json :=
  (m.reasoningDetails.map (typedEntries lib)).getD []

/-- The chunks carry the one choice of a reply in fragments: texts cut anywhere,
tool calls under their indices, structured reasoning as `details` numbers it, and
the finish reason and the usage last. -/
structure ChatFragments (lib : JsonLib) (choice : Choice) (usage : Option Usage)
    (chunks : List ChatCompletionsStreamResponse) (details : List (List (Nat × Json))) :
    Prop where
  content : String.join ((streamDeltas chunks).map fun delta => delta.content.getD "") =
    choice.message.content.getD ""
  toolCalls : ToolCallFragments choice.message.toolCalls (streamToolCalls chunks)
  scalar : ∀ field, String.join ((streamDeltas chunks).map fun delta => delta.scalar field) =
    choice.message.reasoningDelta.scalar field
  details_eq : (streamDetails chunks).map (typedEntries lib) =
    details.map fun delta => delta.map Prod.snd
  details : DetailsFragments (choice.message.blocks lib) details
  finishReason : ((streamChoices chunks).filterMap StreamChoice.finishReason).getLast? =
    choice.finishReason
  usage : (chunks.filterMap ChatCompletionsStreamResponse.usage).getLast? = usage

/-- The display text of structured entries, in their order. -/
def fragmentText (entries : List Json) : String := String.join (entries.filterMap displayFragment)

/-- What the accumulator asks of a stream to read it as the whole reply: call
indices below the cap, the reply's scalar reasoning field first, structured blocks
that can be told apart, and their bytes on the same side of the cap; structured
text that is shown comes in its order. -/
structure ChatStreamReadable (lib : JsonLib) (choice : Choice)
    (chunks : List ChatCompletionsStreamResponse) (details : List (List (Nat × Json))) :
    Prop where
  indices : ∀ call ∈ streamToolCalls chunks, call.index < maxToolCalls
  field : (streamDeltas chunks).findSome? StreamDelta.preferredField =
    choice.message.reasoningDelta.preferredField
  apart : ToldApart (choice.message.blocks lib) details
  cap : maxReasoningBytes < streamedBytes lib ((streamDetails chunks).flatMap (typedEntries lib)) ↔
    maxReasoningBytes < streamedBytes lib (choice.message.blocks lib)
  text : choice.message.reasoningDelta.preferredField = none →
    fragmentText ((streamDetails chunks).flatMap (typedEntries lib)) =
      fragmentText (choice.message.blocks lib)

/-- A tool-call turn in which empty content reads as none. -/
def ChatTurnResult.withoutEmptyContent : ChatTurnResult → ChatTurnResult
  | .finalText result => .finalText result
  | .toolUse result => .toolUse { result with content := result.content.filter (· ≠ "") }

/-! ## Responses streams -/

/-- A function call of a reply, with the id of its item. -/
structure CallItem where
  itemId : Option String
  callId : String
  name : String
  arguments : String
  caller : Option ToolCallCaller

namespace CallItem

/-- The ids that name the call on a stream. -/
def identities (c : CallItem) : List String := c.itemId.toList ++ [c.callId]

/-- An argument event names the call by its item or by its call id. -/
def NamedBy (c : CallItem) : CallRef → Prop
  | .item itemId => c.itemId = some itemId
  | .call callId => c.callId = callId

/-- The output item of the call as it is announced, without arguments. -/
def added (c : CallItem) : ResponsesStreamEvent :=
  .functionCallItem c.itemId (some c.callId) (some c.name) "" c.caller

/-- The output item of the call when it is complete. -/
def done (c : CallItem) : ResponsesStreamEvent :=
  .functionCallItem c.itemId (some c.callId) (some c.name) c.arguments c.caller

def toCall (c : CallItem) : ChatToolCall := ⟨c.callId, c.name, c.arguments, c.caller⟩

end CallItem

/-- The call of a `function_call` item. -/
def callItem (raw : Json) : Option CallItem :=
  match responseOutputItemFromValue raw with
  | some (.functionCall callId name arguments caller) =>
      some ⟨(stringField raw "id").filter (· ≠ ""), callId, name, arguments, caller⟩
  | _ => none

def isReasoningItem (raw : Json) : Bool :=
  match responseOutputItemFromValue raw with
  | some (.reasoning _) => true
  | _ => false

namespace ResponsesResponse

def callItems (r : ResponsesResponse) : List CallItem := r.output.filterMap callItem

def reasoningItems (r : ResponsesResponse) : List Json := r.output.filter isReasoningItem

/-- The answer text of one item. -/
def itemText (raw : Json) : String :=
  match responseOutputItemFromValue raw with
  | some (.message content) => outputText content
  | _ => ""

/-- The summary texts of one item. -/
def itemSummary (raw : Json) : List String :=
  match responseOutputItemFromValue raw with
  | some (.reasoning summary) => summary.filterMap summaryEntryText
  | _ => []

def answerText (r : ResponsesResponse) : String := String.join (r.output.map itemText)

/-- The summary texts of a reply, one after the other. -/
def summaryText (r : ResponsesResponse) : String := String.join (r.output.flatMap itemSummary)

end ResponsesResponse

namespace ResponsesStreamEvent

def text : ResponsesStreamEvent → Option String
  | .textDelta text => some text
  | _ => none

def summary : ResponsesStreamEvent → Option String
  | .reasoningSummaryText text => some text
  | _ => none

def reasoningValue : ResponsesStreamEvent → Option Json
  | .reasoningItem item => some item
  | _ => none

def isCallEvent : ResponsesStreamEvent → Bool
  | .functionCallItem .. | .functionCallArgumentsDelta .. | .functionCallArgumentsDone .. => true
  | _ => false

/-- The event ends the response. -/
def isTerminal : ResponsesStreamEvent → Bool
  | .responseCompleted .. | .responseFailed _ | .responseIncomplete .. => true
  | _ => false

end ResponsesStreamEvent

/-- The events of one call: its item is announced, its arguments come in pieces
or only whole, and then events that repeat the complete arguments. -/
structure CallScript (c : CallItem) (events : List ResponsesStreamEvent)
    (pieces : List (CallRef × String)) (closing : List ResponsesStreamEvent) : Prop where
  events_eq : events = c.added ::
    (pieces.map fun piece => .functionCallArgumentsDelta piece.1 piece.2) ++ closing
  pieces_named : ∀ piece ∈ pieces, c.NamedBy piece.1
  complete : ∀ event ∈ closing, event = c.done ∨
    ∃ ref name, c.NamedBy ref ∧ event = .functionCallArgumentsDone ref c.arguments name
  arguments : String.join (pieces.map Prod.snd) = c.arguments ∨ pieces = [] ∧ closing ≠ []

/-- `events` is a fragmentation of a reply's output: `reasoning` and `calls` are
its reasoning items and its call events, with the number of their item. -/
structure ResponsesFragments (reply : ResponsesResponse) (events : List ResponsesStreamEvent)
    (reasoning : List (Nat × Json)) (calls : List (Nat × ResponsesStreamEvent)) : Prop where
  items : ∀ raw ∈ reply.output, (responseOutputItemFromValue raw).isSome
  body : ∀ event ∈ events, event.isTerminal = false
  text : String.join (events.filterMap ResponsesStreamEvent.text) = reply.answerText
  summary : String.join (events.filterMap ResponsesStreamEvent.summary) = reply.summaryText
  reasoning_eq : events.filterMap ResponsesStreamEvent.reasoningValue = reasoning.map Prod.snd
  reasoning_opens : OpensInOrder reply.reasoningItems.length 0 reasoning
  /-- An item may be announced before it is complete, under its id. -/
  reasoning_item : ∀ (k : Nat) raw, reply.reasoningItems[k]? = some raw →
    (eventsOf k reasoning).getLast? = some raw ∧
      (∀ value ∈ eventsOf k reasoning, stringField value "id" = stringField raw "id") ∧
      (stringField raw "id" = none → (eventsOf k reasoning).length = 1)
  reasoning_ids : ∀ (i j : Nat) raw raw' id, reply.reasoningItems[i]? = some raw →
    reply.reasoningItems[j]? = some raw' → stringField raw "id" = some id →
    stringField raw' "id" = some id → i = j
  calls_eq : events.filter ResponsesStreamEvent.isCallEvent = calls.map Prod.snd
  calls_opens : OpensInOrder reply.callItems.length 0 calls
  call : ∀ (k : Nat) c, reply.callItems[k]? = some c →
    ∃ pieces closing, CallScript c (eventsOf k calls) pieces closing
  call_named : ∀ c ∈ reply.callItems, c.name ≠ "" ∧ c.callId ≠ ""
  call_identities : ∀ (i j : Nat) c c' id, reply.callItems[i]? = some c →
    reply.callItems[j]? = some c' → id ∈ c.identities → id ∈ c'.identities → i = j

/-- The terminal event of a reply that completes, or stops early. -/
def TerminalEvent (reply : ResponsesResponse) (event : ResponsesStreamEvent) : Prop :=
  (reply.status ≠ some "incomplete" ∧ reply.incompleteReason = none ∧
    event = .responseCompleted reply.id reply.usage) ∨
  (reply.status = some "incomplete" ∧
    event = .responseIncomplete reply.id reply.usage reply.incompleteReason)

/-- The payloads bring the events, other payloads that are ignored, and then the
terminal event. -/
def Delivers (lib : JsonLib) (payloads : List String) (events : List ResponsesStreamEvent)
    (terminal : ResponsesStreamEvent) : Prop :=
  ∃ (body rest : List String) (last : String) (parsed : List (Option ResponsesStreamEvent)),
    payloads = body ++ last :: rest ∧
    body.map (parseResponsesStreamEvent lib) = parsed.map .ok ∧ parsed.filterMap id = events ∧
    parseResponsesStreamEvent lib last = .ok (some terminal)

/-- A turn with another display text for its reasoning. -/
def ChatTurnResult.withReasoning (reasoning : Option String) : ChatTurnResult → ChatTurnResult
  | .finalText result => .finalText { result with reasoning := reasoning }
  | .toolUse result => .toolUse { result with reasoning := reasoning }

/-- The wording of a policy block on a stream. -/
def OpenAiError.streamed : OpenAiError → OpenAiError
  | .contentFiltered _ => .contentFiltered ("provider content filter stopped the response " ++
      "(response.incomplete: content_filter)")
  | err => err

end Choreographr.Protocols
