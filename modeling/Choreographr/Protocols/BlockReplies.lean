import Choreographr.Protocols.TurnResult

/-!
# Replies in blocks

Anthropic and Gemini answer with a list of typed blocks. Their adapters read a
whole reply into lists of texts, which are joined at the end, and a streamed one
into texts that grow. This module has the two endings, which both adapters share,
and what it means that two turn results are the same.
-/

namespace Choreographr.Protocols

open Session

/-- The errors a reply can end in. -/
inductive AdapterError where
  | io (message : String)
  | emptyResponse
deriving DecidableEq

/-- `JsonLib` with the text of a value. -/
structure ValueLib extends JsonLib where
  /-- `Value::to_string`. -/
  valueToString : Json → String

/-! ## Whole replies -/

/-- What the blocks of a whole reply have given. -/
structure BlockParts where
  textParts : List String := []
  reasoningParts : List String := []
  toolCalls : List ChatToolCall := []

namespace BlockParts

/-- The display text of the reasoning: a line for each part. -/
def reasoning (parts : BlockParts) : Option String :=
  if parts.reasoningParts = [] then none else some ("\n".intercalate parts.reasoningParts)

/-- The turn of a whole reply. -/
def toTurnResult (parts : BlockParts) (usage : Option TokenUsage)
    (artifact : Option ReasoningArtifact) : Except AdapterError ChatTurnResult :=
  if hCalls : parts.toolCalls ≠ [] then
    .ok (.toolUse {
      content := if parts.textParts = [] then none else some (String.join parts.textParts)
      reasoning := parts.reasoning
      toolCalls := parts.toolCalls
      toolCalls_ne_nil := hCalls
      usage := usage
      reasoningArtifact := artifact })
  else
    let content := String.join parts.textParts
    if content = "" then .error .emptyResponse
    else
      .ok (.finalText {
        content := content
        reasoning := parts.reasoning
        usage := usage
        reasoningArtifact := artifact })

end BlockParts

/-! ## Streams -/

/-- What a stream has given. -/
structure StreamTexts where
  hasAnyOutput : Bool := false
  fullText : String := ""
  fullReasoning : String := ""

namespace StreamTexts

/-- Append answer text. -/
def pushText (s : StreamTexts) (text : String) : StreamTexts :=
  if text = "" then s
  else { s with hasAnyOutput := true, fullText := s.fullText ++ text }

/-- Append reasoning text. -/
def pushReasoning (s : StreamTexts) (text : String) : StreamTexts :=
  if text = "" then s
  else { s with hasAnyOutput := true, fullReasoning := s.fullReasoning ++ text }

def reasoning (s : StreamTexts) : Option String :=
  if s.fullReasoning = "" then none else some s.fullReasoning

/-- The turn of a stream. The adapters differ in when a turn without calls counts
as empty. -/
def toTurnResult (s : StreamTexts) (isEmpty : Bool) (toolCalls : List ChatToolCall)
    (usage : Option TokenUsage) (artifact : Option ReasoningArtifact) :
    Except AdapterError ChatTurnResult :=
  if !s.hasAnyOutput then .error .emptyResponse
  else if hCalls : toolCalls ≠ [] then
    .ok (.toolUse {
      content := if s.fullText = "" then none else some s.fullText
      reasoning := s.reasoning
      toolCalls := toolCalls
      toolCalls_ne_nil := hCalls
      usage := usage
      reasoningArtifact := artifact })
  else if isEmpty then .error .emptyResponse
  else
    .ok (.finalText {
      content := s.fullText
      reasoning := s.reasoning
      usage := usage
      reasoningArtifact := artifact })

end StreamTexts

/-! ## Agreement -/

/-- Two turn results have the same verdict, text, calls (up to `sameCall`), usage
and reasoning artifact. -/
def SameTurn (sameCall : ChatToolCall → ChatToolCall → Prop) :
    Except AdapterError ChatTurnResult → Except AdapterError ChatTurnResult → Prop
  | .error e, .error e' => e = e'
  | .ok (.finalText a), .ok (.finalText b) =>
      a.content = b.content ∧ a.truncated = b.truncated ∧ a.usage = b.usage ∧
        a.responseId = b.responseId ∧ a.reasoningArtifact = b.reasoningArtifact
  | .ok (.toolUse a), .ok (.toolUse b) =>
      a.content = b.content ∧ List.Forall₂ sameCall a.toolCalls b.toolCalls ∧
        a.usage = b.usage ∧ a.responseId = b.responseId ∧
        a.reasoningArtifact = b.reasoningArtifact
  | _, _ => False

/-- Two turn results show the same reasoning. -/
def SameReasoning (a b : Except AdapterError ChatTurnResult) : Prop :=
  a.map ChatTurnResult.reasoning = b.map ChatTurnResult.reasoning

end Choreographr.Protocols
