import Choreographr.Lib.Dialogue
import Choreographr.Protocols.AnthropicRequest
import Choreographr.Protocols.Proofs.BlockReplies
import Choreographr.Session.Proofs.Pairing
import Choreographr.Session.Proofs.Runs

/-!
# What Anthropic asks of a request

Anthropic refuses a request with an empty message, with a tool result whose call is
not right before it, or with an altered thinking block. The messages of a turn lower
to a dialogue: behind the blocks that use tools stand the user messages with their
results, one for each, and nothing else replies.
-/

namespace Choreographr.Protocols.Anthropic

open Session Lib

/-! ## Blocks -/

/-- The id of a tool use. -/
def ContentBlockPayload.useId : ContentBlockPayload → Option String
  | .toolUse id _ _ => some id
  | _ => none

/-- The id that a tool result is for. -/
def ContentBlockPayload.resultId : ContentBlockPayload → Option String
  | .toolResult id _ => some id
  | _ => none

/-- A replayed block. -/
def ContentBlockPayload.isRaw : ContentBlockPayload → Bool
  | .raw _ => true
  | _ => false

namespace MessagePayload

def useIds (p : MessagePayload) : List String := p.content.filterMap ContentBlockPayload.useId

def resultIds (p : MessagePayload) : List String :=
  p.content.filterMap ContentBlockPayload.resultId

end MessagePayload

/-! ## Messages -/

/-- The payloads of a message that lowers. -/
def lowered (lib : RequestLib) (thinkingEnabled : Bool) (msg : ChatRequestMessage) :
    List MessagePayload :=
  (messagePayloads lib thinkingEnabled msg).toOption.getD []

section Messages

variable {lib : RequestLib} {thinkingEnabled : Bool} {msg : ChatRequestMessage}

theorem textBlocks_plain {block : ContentBlockPayload} (h : block ∈ textBlocks msg) :
    block.useId = none ∧ block.resultId = none ∧ block.isRaw = false := by
  obtain ⟨text, -, rfl⟩ := Option.map_eq_some_iff.mp (Option.mem_toList.mp h)
  exact ⟨rfl, rfl, rfl⟩

theorem imageBlock_plain {image : ChatImagePart} {block : ContentBlockPayload}
    (h : anthropicImageBlock lib image = some block) :
    block.useId = none ∧ block.resultId = none ∧ block.isRaw = false := by
  rw [anthropicImageBlock] at h
  split at h
  · cases h
    exact ⟨rfl, rfl, rfl⟩
  · cases h

/-- The payload of a user message has texts and images only. -/
theorem lowered_user (hRole : msg.role = .user) :
    ∃ p, lowered lib thinkingEnabled msg = [p] ∧ p.role = "user" ∧
      (∀ block ∈ p.content, block.useId = none ∧ block.resultId = none ∧ block.isRaw = false) ∧
      (p.content = [] → msg.content.filter (· ≠ "") = none) := by
  refine ⟨⟨"user", textBlocks msg ++ msg.images.filterMap (anthropicImageBlock lib)⟩, ?_, rfl, ?_,
    ?_⟩
  · rw [lowered, messagePayloads, hRole]
    rfl
  · intro block hBlock
    rcases List.mem_append.mp hBlock with hText | hImage
    · exact textBlocks_plain hText
    · obtain ⟨image, -, hImage⟩ := List.mem_filterMap.mp hImage
      exact imageBlock_plain hImage
  · intro hEmpty
    have hTexts := (List.append_eq_nil_iff.mp hEmpty).1
    rw [textBlocks, Option.toList_eq_nil_iff, Option.map_eq_none_iff] at hTexts
    exact hTexts

theorem lowered_tool (hRole : msg.role = .tool) :
    lowered lib thinkingEnabled msg =
      [⟨"user", [.toolResult (msg.toolCallId.getD "") (msg.content.getD "")]⟩] := by
  rw [lowered, messagePayloads, hRole]
  rfl

/-- The values that a message replays. -/
def Replays (lib : RequestLib) (thinkingEnabled : Bool) (msg : ChatRequestMessage)
    (raws : List Json) : Prop :=
  (∀ bytes, thinkingEnabled = true → msg.reasoningArtifact = some (.anthropicThinking bytes) →
    (lib.fromSlice bytes).bind Json.asArray = some raws) ∧
  (raws ≠ [] → thinkingEnabled = true ∧
    ∃ bytes, msg.reasoningArtifact = some (.anthropicThinking bytes))

theorem artifactThinkingBlocks_ok {artifact : Option ReasoningArtifact}
    {blocks : List ContentBlockPayload} (h : artifactThinkingBlocks lib artifact = .ok blocks) :
    ∃ raws : List Json, blocks = raws.map .raw ∧
      (∀ bytes, artifact = some (.anthropicThinking bytes) →
        (lib.fromSlice bytes).bind Json.asArray = some raws) ∧
      (raws ≠ [] → ∃ bytes, artifact = some (.anthropicThinking bytes)) := by
  unfold artifactThinkingBlocks at h
  split at h
  · rename_i bytes
    split at h
    · cases h
    · rename_i raws hRead
      cases h
      refine ⟨raws, rfl, ?_, fun _ => ⟨bytes, rfl⟩⟩
      intro bytes' hBytes
      cases hBytes
      exact hRead
  · rename_i hOther
    cases h
    exact ⟨[], rfl, fun bytes hBytes => absurd hBytes (hOther bytes), fun hNe => absurd rfl hNe⟩

theorem replayedThinking_ok {thinking : List ContentBlockPayload}
    (h : replayedThinking lib thinkingEnabled msg.reasoningArtifact = .ok thinking) :
    ∃ raws : List Json, thinking = raws.map .raw ∧ Replays lib thinkingEnabled msg raws := by
  cases thinkingEnabled with
  | false =>
    cases h
    exact ⟨[], rfl, fun _ hOn => absurd hOn Bool.false_ne_true, fun hNe => absurd rfl hNe⟩
  | true =>
    obtain ⟨raws, hRaws, hRead, hHas⟩ := artifactThinkingBlocks_ok h
    exact ⟨raws, hRaws, fun bytes _ => hRead bytes, fun hNe => ⟨rfl, hHas hNe⟩⟩

/-- The blocks of an assistant message that replays `raws`. -/
def assistantBlocks (lib : RequestLib) (msg : ChatRequestMessage) (raws : List Json) :
    List ContentBlockPayload :=
  raws.map .raw ++ textBlocks msg ++ (msg.toolCalls.getD []).map (toolUseBlock lib)

/-- An assistant message lowers to its thinking blocks, its text and its tool uses, if it
has any of them. -/
theorem lowered_assistant (hRole : msg.role = .assistant)
    (hOk : messagePayloads lib thinkingEnabled msg = .ok (lowered lib thinkingEnabled msg)) :
    ∃ raws : List Json, Replays lib thinkingEnabled msg raws ∧
      lowered lib thinkingEnabled msg =
        if (assistantBlocks lib msg raws).isEmpty then []
        else [⟨"assistant", assistantBlocks lib msg raws⟩] := by
  generalize lowered lib thinkingEnabled msg = payloads at hOk ⊢
  rw [messagePayloads, hRole] at hOk
  cases hThinking : replayedThinking lib thinkingEnabled msg.reasoningArtifact with
  | error e =>
    rw [hThinking] at hOk
    cases hOk
  | ok thinking =>
    obtain ⟨raws, rfl, hReplays⟩ := replayedThinking_ok hThinking
    rw [hThinking] at hOk
    exact ⟨raws, hReplays, (Except.ok.inj hOk).symm⟩

/-- An assistant message uses the tools of its calls and replies to none. -/
theorem assistantBlocks_ids (raws : List Json) :
    (assistantBlocks lib msg raws).filterMap ContentBlockPayload.useId =
        (msg.toolCalls.getD []).map Session.AssistantToolCall.id ∧
      (assistantBlocks lib msg raws).filterMap ContentBlockPayload.resultId = [] := by
  have hRaws : ∀ f : ContentBlockPayload → Option String, (∀ value, f (.raw value) = none) →
      (raws.map ContentBlockPayload.raw).filterMap f = [] := by
    intro f hf
    rw [List.filterMap_map, List.filterMap_eq_nil_iff]
    exact fun value _ => hf value
  have hTexts : (textBlocks msg).filterMap ContentBlockPayload.useId = [] ∧
      (textBlocks msg).filterMap ContentBlockPayload.resultId = [] :=
    ⟨List.filterMap_eq_nil_iff.mpr fun _ h => (textBlocks_plain h).1,
      List.filterMap_eq_nil_iff.mpr fun _ h => (textBlocks_plain h).2.1⟩
  rw [assistantBlocks]
  constructor
  · rw [List.filterMap_append, List.filterMap_append, hRaws _ fun _ => rfl, hTexts.1,
      List.filterMap_map, ← List.filterMap_eq_map]
    rfl
  · rw [List.filterMap_append, List.filterMap_append, hRaws _ fun _ => rfl, hTexts.2,
      List.filterMap_map]
    exact List.filterMap_eq_nil_iff.mpr fun _ _ => rfl

theorem lowered_toolMessages (lib : RequestLib) (thinkingEnabled : Bool) (id : Nat) (t : Turn) :
    (toolMessages id t).flatMap (lowered lib thinkingEnabled) =
      t.toolResults.map fun r => ⟨"user", [.toolResult r.callId r.content]⟩ := by
  rw [toolMessages, List.flatMap_map, ← List.flatMap_singleton' (t.toolResults.map _),
    List.flatMap_map]
  apply List.flatMap_congr
  intro r _
  exact lowered_tool rfl

end Messages

/-! ## Turns -/

section Turns

variable {lib : RequestLib} {thinkingEnabled : Bool} {env : Env} {providerSlug model : String}
  {inFlightFromTurn : Option Nat}

theorem dialogue_userMessages {messages : List ChatRequestMessage}
    (h : ∀ m ∈ messages, m.role = .user) :
    Dialogue MessagePayload.useIds MessagePayload.resultIds
      (messages.flatMap (lowered lib thinkingEnabled)) := by
  apply Dialogue.of_plain
  intro p hp
  obtain ⟨m, hm, hp⟩ := List.mem_flatMap.mp hp
  obtain ⟨p', hLowered, -, hPlain, -⟩ := @lowered_user lib thinkingEnabled m (h m hm)
  rw [hLowered] at hp
  cases List.mem_singleton.mp hp
  exact ⟨List.filterMap_eq_nil_iff.mpr fun block hBlock => (hPlain block hBlock).1,
    List.filterMap_eq_nil_iff.mpr fun block hBlock => (hPlain block hBlock).2.1⟩

/-- The assistant message of a turn and the results behind it. -/
theorem dialogue_round (id : Nat) {t : Turn} (hPaired : t.Paired) (includeArtifact : Bool)
    (hOk : ∀ m ∈ assistantMessage id t includeArtifact,
      messagePayloads lib thinkingEnabled m = .ok (lowered lib thinkingEnabled m)) :
    Dialogue MessagePayload.useIds MessagePayload.resultIds
      ((assistantMessage id t includeArtifact ++ toolMessages id t).flatMap
        (lowered lib thinkingEnabled)) := by
  have hResults : ∀ p ∈ t.toolResults.map
      (fun r => (⟨"user", [.toolResult r.callId r.content]⟩ : MessagePayload)),
      p.resultIds ≠ [] := by
    intro p hp
    obtain ⟨r, -, rfl⟩ := List.mem_map.mp hp
    exact List.cons_ne_nil _ _
  have hReplies : (t.toolResults.map
      fun r => (⟨"user", [.toolResult r.callId r.content]⟩ : MessagePayload)).flatMap
        MessagePayload.resultIds = t.toolCalls.map AssistantToolCallRecord.callId := by
    rw [← hPaired, List.flatMap_map, ← List.flatMap_singleton' (t.toolResults.map _),
      List.flatMap_map]
    rfl
  have hEmpty : t.toolCalls = [] → t.toolResults = [] := by
    intro hCalls
    rw [Turn.Paired, hCalls] at hPaired
    exact List.map_eq_nil_iff.mp hPaired
  rw [List.flatMap_append, lowered_toolMessages]
  rcases assistantMessage_cases id t includeArtifact with
    ⟨hMessage, hCalls⟩ | ⟨m, hMessage, hRole, -, hCalls, -⟩
  · rw [hMessage, hEmpty hCalls]
    exact Dialogue.nil
  · rw [hMessage] at hOk ⊢
    obtain ⟨raws, -, hLowered⟩ := lowered_assistant hRole (hOk m List.mem_cons_self)
    obtain ⟨hUses, hNone⟩ := @assistantBlocks_ids lib m raws
    have hIds : (assistantBlocks lib m raws).filterMap ContentBlockPayload.useId =
        t.toolCalls.map AssistantToolCallRecord.callId := by
      rw [hUses, hCalls, List.map_map]
      rfl
    rw [List.flatMap_singleton, hLowered]
    split
    · rename_i hBlocks
      rw [List.isEmpty_iff] at hBlocks
      rw [hBlocks] at hIds
      rw [hEmpty (List.map_eq_nil_iff.mp hIds.symm)]
      exact Dialogue.nil
    · have hFirst : MessagePayload.resultIds ⟨"assistant", assistantBlocks lib m raws⟩ = [] := hNone
      exact Dialogue.round hFirst hResults (hReplies.trans hIds.symm)

theorem dialogue_turnMessages (id : Nat) {t : Turn} (hPaired : t.Paired)
    (hOk : ∀ m ∈ turnMessages env providerSlug model inFlightFromTurn id t,
      messagePayloads lib thinkingEnabled m = .ok (lowered lib thinkingEnabled m)) :
    Dialogue MessagePayload.useIds MessagePayload.resultIds
      ((turnMessages env providerSlug model inFlightFromTurn id t).flatMap
        (lowered lib thinkingEnabled)) := by
  unfold turnMessages at hOk ⊢
  dsimp only at hOk ⊢
  generalize includeReasoningArtifact t providerSlug model _ _ = includeArtifact at hOk ⊢
  rw [List.append_assoc (userMessage id t), List.flatMap_append, List.flatMap_append]
  have hUser := @dialogue_userMessages lib thinkingEnabled (userMessage id t)
    fun m hm => (userMessage_plain m hm).1
  have hRound := @dialogue_round lib thinkingEnabled id t hPaired includeArtifact
    fun m hm => hOk m (by simp [hm])
  exact (hUser.append hRound).append
    (dialogue_userMessages fun m hm => (toolResultImageMessages_plain m hm).1)

/-- The messages of the live turns lower to a dialogue. -/
theorem dialogue_history {entries : List (Nat × Turn)} (hPaired : ∀ e ∈ entries, e.2.Paired)
    (hOk : ∀ m ∈ historyMessages env providerSlug model inFlightFromTurn entries,
      messagePayloads lib thinkingEnabled m = .ok (lowered lib thinkingEnabled m)) :
    Dialogue MessagePayload.useIds MessagePayload.resultIds
      ((historyMessages env providerSlug model inFlightFromTurn entries).flatMap
        (lowered lib thinkingEnabled)) := by
  rw [historyMessages] at hOk ⊢
  rw [List.flatMap_assoc]
  apply Dialogue.flatMap
  intro e he
  split
  · exact Dialogue.nil
  · rename_i hLive
    apply dialogue_turnMessages e.1 (hPaired e he)
    intro m hm
    apply hOk m
    rw [List.mem_flatMap]
    exact ⟨e, he, by rw [if_neg hLive]; exact hm⟩

end Turns

/-! ## Payloads -/

/-- The tool use of a block, with its input. -/
def ContentBlockPayload.use : ContentBlockPayload → Option (String × String × Json)
  | .toolUse id name input => some (id, name, input)
  | _ => none

/-- A tool use is that of a call; arguments that are an object are its input. -/
def UsesCall (lib : RequestLib) (c : Session.AssistantToolCall) (use : String × String × Json) :
    Prop :=
  use.1 = c.id ∧ use.2.1 = c.name ∧
    ∀ fields, lib.fromStr c.arguments = some (.obj fields) → use.2.2 = .obj fields

/-- What Anthropic asks of the payload of a message. -/
structure PayloadOk (lib : RequestLib) (thinkingEnabled : Bool) (m : ChatRequestMessage)
    (p : MessagePayload) : Prop where
  role : p.role = if m.role = .assistant then "assistant" else "user"
  /-- Only a user's empty text has no content. -/
  nonempty : p.content = [] → m.role = .user ∧ m.content = some ""
  /-- A result is a user message of its own. -/
  result : m.role = .tool → p.content = [.toolResult (m.toolCallId.getD "") (m.content.getD "")]
  noResult : m.role ≠ .tool → p.resultIds = []
  /-- The tool uses are the calls of the message, in their order. -/
  uses : List.Forall₂ (UsesCall lib) (m.toolCalls.getD [])
    (p.content.filterMap ContentBlockPayload.use)
  /-- The blocks of the message's own artifact come first, and no others are replayed. -/
  thinking : ∃ raws rest, p.content = raws.map .raw ++ rest ∧
    (∀ block ∈ rest, block.isRaw = false) ∧ Replays lib thinkingEnabled m raws

/-- A message has its payload, or nothing where it has no text, no call and nothing to replay. -/
inductive SlotOk (lib : RequestLib) (thinkingEnabled : Bool) (m : ChatRequestMessage) :
    Option MessagePayload → Prop
  | payload {p : MessagePayload} (h : PayloadOk lib thinkingEnabled m p) :
      SlotOk lib thinkingEnabled m (some p)
  | nothing (hRole : m.role ≠ .tool)
      (hText : m.role = .system ∨ m.content.filter (· ≠ "") = none)
      (hCalls : m.toolCalls.getD [] = []) (hReplays : Replays lib thinkingEnabled m []) :
      SlotOk lib thinkingEnabled m none

section Payloads

variable {lib : RequestLib} {thinkingEnabled : Bool} {p : MessagePayload}
  {msg : ChatRequestMessage}

theorem use_eq_none {block : ContentBlockPayload} (h : block.useId = none) : block.use = none := by
  cases block <;> first | rfl | cases h

theorem uses_eq_nil {blocks : List ContentBlockPayload} (h : ∀ block ∈ blocks, block.useId = none) :
    blocks.filterMap ContentBlockPayload.use = [] :=
  List.filterMap_eq_nil_iff.mpr fun block hBlock => use_eq_none (h block hBlock)

theorem replays_nil (h : msg.reasoningArtifact = none) : Replays lib thinkingEnabled msg [] :=
  ⟨fun bytes _ hSome => (by rw [h] at hSome; cases hSome), fun hNe => absurd rfl hNe⟩

theorem rest_not_raw (msg : ChatRequestMessage) :
    ∀ block ∈ textBlocks msg ++ (msg.toolCalls.getD []).map (toolUseBlock lib),
      block.isRaw = false := by
  intro block hBlock
  rcases List.mem_append.mp hBlock with hText | hTool
  · exact (textBlocks_plain hText).2.2
  · obtain ⟨c, -, rfl⟩ := List.mem_map.mp hTool
    rfl

theorem payloadOk_user (hRole : msg.role = .user) (hText : msg.content ≠ none)
    (hCalls : msg.toolCalls = none) (hArtifact : msg.reasoningArtifact = none)
    (hLowered : lowered lib thinkingEnabled msg = [p]) : PayloadOk lib thinkingEnabled msg p := by
  obtain ⟨p', hSame, hUser, hPlain, hNone⟩ := @lowered_user lib thinkingEnabled msg hRole
  rw [hLowered] at hSame
  cases hSame
  exact {
    role := by rw [hUser, if_neg (by simp [hRole])]
    nonempty := fun hContent => by
      refine ⟨hRole, ?_⟩
      have hFilter := hNone hContent
      obtain ⟨text, hSome⟩ := Option.ne_none_iff_exists'.mp hText
      rw [hSome, Option.filter_eq_none_iff] at hFilter
      rw [hSome, not_not.mp fun hNe => hFilter text rfl (decide_eq_true hNe)]
    result := fun hTool => by rw [hRole] at hTool; cases hTool
    noResult := fun _ =>
      List.filterMap_eq_nil_iff.mpr fun block hBlock => (hPlain block hBlock).2.1
    uses := by
      rw [hCalls, uses_eq_nil fun block hBlock => (hPlain block hBlock).1]
      exact .nil
    thinking := ⟨[], p.content, rfl, fun block hBlock => (hPlain block hBlock).2.2,
      replays_nil hArtifact⟩ }

theorem payloadOk_tool (hRole : msg.role = .tool) (hCalls : msg.toolCalls = none)
    (hArtifact : msg.reasoningArtifact = none) : PayloadOk lib thinkingEnabled msg
      ⟨"user", [.toolResult (msg.toolCallId.getD "") (msg.content.getD "")]⟩ where
  role := by rw [if_neg (by simp [hRole])]
  nonempty hContent := by cases hContent
  result _ := rfl
  noResult hNe := absurd hRole hNe
  uses := by
    rw [hCalls]
    exact .nil
  thinking := ⟨[], _, rfl, by simp [ContentBlockPayload.isRaw], replays_nil hArtifact⟩

theorem payloadOk_assistant (hRole : msg.role = .assistant) {raws : List Json}
    (hReplays : Replays lib thinkingEnabled msg raws) (hNe : assistantBlocks lib msg raws ≠ []) :
    PayloadOk lib thinkingEnabled msg ⟨"assistant", assistantBlocks lib msg raws⟩ where
  role := by rw [if_pos hRole]
  nonempty hContent := absurd hContent hNe
  result hTool := by rw [hRole] at hTool; cases hTool
  noResult _ := (assistantBlocks_ids raws).2
  uses := by
    have hRaws : (raws.map ContentBlockPayload.raw).filterMap ContentBlockPayload.use = [] :=
      uses_eq_nil fun block hBlock => by
        obtain ⟨value, -, rfl⟩ := List.mem_map.mp hBlock
        rfl
    have hTexts := uses_eq_nil fun block hBlock => (@textBlocks_plain msg block hBlock).1
    have hTools : ((msg.toolCalls.getD []).map (toolUseBlock lib)).filterMap
        ContentBlockPayload.use = (msg.toolCalls.getD []).map fun c =>
          (c.id, c.name, (lib.fromStr c.arguments).getD .null) := by
      rw [List.filterMap_map, ← List.filterMap_eq_map]
      rfl
    change List.Forall₂ _ _ ((assistantBlocks lib msg raws).filterMap _)
    rw [assistantBlocks, List.filterMap_append, List.filterMap_append, hRaws, hTexts, hTools,
      List.append_nil, List.nil_append, List.forall₂_map_right_iff]
    exact List.forall₂_same.mpr fun c _ => ⟨rfl, rfl, fun fields hFields => by rw [hFields]; rfl⟩
  thinking := ⟨raws, _, List.append_assoc .., rest_not_raw msg, hReplays⟩

/-- A message of a turn that is no answer has text and neither calls nor an artifact. -/
theorem turnMessage_plain {env : Env} {providerSlug model : String}
    {inFlightFromTurn : Option Nat} {id : Nat} {t : Turn}
    (hm : msg ∈ turnMessages env providerSlug model inFlightFromTurn id t)
    (hRole : msg.role ≠ .assistant) : msg.content ≠ none ∧ msg.toolCalls = none := by
  unfold turnMessages at hm
  dsimp only at hm
  rw [List.mem_append, List.mem_append, List.mem_append] at hm
  rcases hm with ((hUser | hAssistant) | hTool) | hImage
  · refine ⟨?_, (userMessage_plain msg hUser).2.1⟩
    rw [userMessage] at hUser
    split at hUser
    · cases hUser
    · cases List.mem_singleton.mp hUser
      simp
  · rcases assistantMessage_cases id t _ with ⟨hMessage, -⟩ | ⟨m, hMessage, hAnswer, -⟩
    · rw [hMessage] at hAssistant
      cases hAssistant
    · rw [hMessage, List.mem_singleton] at hAssistant
      exact absurd (hAssistant ▸ hAnswer) hRole
  · obtain ⟨r, -, rfl⟩ := List.mem_map.mp hTool
    exact ⟨by simp, rfl⟩
  · refine ⟨?_, (toolResultImageMessages_plain msg hImage).2⟩
    obtain ⟨r, -, hr⟩ := List.mem_filterMap.mp hImage
    split at hr
    · cases hr
    · cases hr
      simp

theorem slotOk_turnMessages {env : Env} {providerSlug model : String}
    {inFlightFromTurn : Option Nat} {id : Nat} {t : Turn}
    (hm : msg ∈ turnMessages env providerSlug model inFlightFromTurn id t)
    (hOk : messagePayloads lib thinkingEnabled msg = .ok (lowered lib thinkingEnabled msg)) :
    ∃ slot, SlotOk lib thinkingEnabled msg slot ∧
      lowered lib thinkingEnabled msg = slot.toList := by
  rcases turnMessage_cases hm with ⟨hOther, hNoSystem, hArtifact⟩ | ⟨hRole, -⟩
  · obtain ⟨hText, hCalls⟩ := turnMessage_plain hm hOther
    cases hRole : msg.role with
    | system => exact absurd hRole hNoSystem
    | assistant => exact absurd hRole hOther
    | user =>
      obtain ⟨p, hLowered, -⟩ := @lowered_user lib thinkingEnabled msg hRole
      exact ⟨some p, .payload (payloadOk_user hRole hText hCalls hArtifact hLowered), hLowered⟩
    | tool => exact ⟨some _, .payload (payloadOk_tool hRole hCalls hArtifact), lowered_tool hRole⟩
  · obtain ⟨raws, hReplays, hLowered⟩ := lowered_assistant hRole hOk
    rw [hLowered]
    split
    · rename_i hEmpty
      refine ⟨none, ?_, rfl⟩
      rw [List.isEmpty_iff, assistantBlocks, List.append_eq_nil_iff, List.append_eq_nil_iff] at hEmpty
      obtain ⟨⟨hRaws, hText⟩, hCalls⟩ := hEmpty
      rw [List.map_eq_nil_iff] at hRaws hCalls
      rw [textBlocks, Option.toList_eq_nil_iff, Option.map_eq_none_iff] at hText
      exact .nothing (by simp [hRole]) (.inr hText) hCalls (hRaws ▸ hReplays)
    · rename_i hBlocks
      exact ⟨some _, .payload (payloadOk_assistant hRole hReplays fun hNil =>
        hBlocks (List.isEmpty_iff.mpr hNil)), rfl⟩

theorem PayloadOk.dropped (h : PayloadOk lib thinkingEnabled msg p) (hEmpty : p.content = []) :
    SlotOk lib thinkingEnabled msg none := by
  obtain ⟨hRole, hText⟩ := h.nonempty hEmpty
  obtain ⟨raws, rest, hContent, -, hReplays⟩ := h.thinking
  have hUses := h.uses
  rw [hEmpty, List.filterMap_nil, List.forall₂_nil_right_iff] at hUses
  rw [hEmpty, eq_comm, List.append_eq_nil_iff, List.map_eq_nil_iff] at hContent
  exact .nothing (by simp [hRole]) (.inr (by simp [hText])) hUses (hContent.1 ▸ hReplays)

end Payloads

/-! ## Requests -/

/-- A request that is built lowers each of its messages. -/
theorem buildMessagePayloads_ok {lib : RequestLib} {thinkingEnabled : Bool}
    {messages : List ChatRequestMessage} {payloads : List MessagePayload} {system : Option String}
    (h : buildMessagePayloads lib messages thinkingEnabled = .ok (payloads, system)) :
    (∀ m ∈ messages, messagePayloads lib thinkingEnabled m = .ok (lowered lib thinkingEnabled m)) ∧
      payloads = popEmptyLast (messages.flatMap (lowered lib thinkingEnabled)) := by
  rw [buildMessagePayloads] at h
  cases hPayloads : messages.mapM (messagePayloads lib thinkingEnabled) with
  | error e =>
    rw [hPayloads] at h
    cases h
  | ok lists =>
    rw [hPayloads] at h
    obtain ⟨hEach, hFlatten⟩ := flatten_of_mapM_ok hPayloads
    refine ⟨hEach, ?_⟩
    rw [← (Prod.mk.inj (Except.ok.inj h)).1, hFlatten]
    rfl

theorem popEmptyLast_cons (p : MessagePayload) (rest : List MessagePayload) :
    popEmptyLast (p :: rest) =
      if rest.isEmpty then (if p.content.isEmpty then [] else [p]) else p :: popEmptyLast rest := by
  cases rest with
  | nil => rfl
  | cons q rest =>
    simp only [popEmptyLast, List.getLast?_cons_cons, List.isEmpty_cons, Bool.false_eq_true,
      if_false, List.dropLast_cons_cons]
    split
    · split <;> rfl
    · rfl

/-- The last message is left out only if it may be. -/
theorem slots_popEmptyLast {lib : RequestLib} {thinkingEnabled : Bool}
    {messages : List ChatRequestMessage} {slots : List (Option MessagePayload)}
    (h : List.Forall₂ (SlotOk lib thinkingEnabled) messages slots) :
    ∃ kept, List.Forall₂ (SlotOk lib thinkingEnabled) messages kept ∧
      popEmptyLast (slots.flatMap Option.toList) = kept.flatMap Option.toList := by
  induction h with
  | nil => exact ⟨[], .nil, rfl⟩
  | @cons m slot messages slots hSlot hSlots ih =>
    obtain ⟨kept, hKept, hPop⟩ := ih
    cases hSlot with
    | nothing hRole hText hCalls hReplays =>
      exact ⟨none :: kept, .cons (.nothing hRole hText hCalls hReplays) hKept, hPop⟩
    | @payload p hPayload =>
      rw [List.flatMap_cons, Option.toList_some, List.singleton_append, popEmptyLast_cons]
      split
      · rename_i hLast
        rw [List.isEmpty_iff] at hLast
        by_cases hEmpty : p.content = []
        · refine ⟨none :: slots, .cons (hPayload.dropped hEmpty) hSlots, ?_⟩
          rw [if_pos (List.isEmpty_iff.mpr hEmpty), List.flatMap_cons, hLast]
          rfl
        · refine ⟨some p :: slots, .cons (.payload hPayload) hSlots, ?_⟩
          rw [if_neg fun hNil => hEmpty (List.isEmpty_iff.mp hNil), List.flatMap_cons, hLast]
          rfl
      · exact ⟨some p :: kept, .cons (.payload hPayload) hKept, congrArg (p :: ·) hPop⟩

theorem exists_slots {lib : RequestLib} {thinkingEnabled : Bool}
    {messages : List ChatRequestMessage}
    (h : ∀ m ∈ messages, ∃ slot, SlotOk lib thinkingEnabled m slot ∧
      lowered lib thinkingEnabled m = slot.toList) :
    ∃ slots, List.Forall₂ (SlotOk lib thinkingEnabled) messages slots ∧
      messages.flatMap (lowered lib thinkingEnabled) = slots.flatMap Option.toList := by
  induction messages with
  | nil => exact ⟨[], .nil, rfl⟩
  | cons m rest ih =>
    obtain ⟨slot, hSlot, hLowered⟩ := h m List.mem_cons_self
    obtain ⟨slots, hSlots, hRest⟩ := ih fun m hm => h m (List.mem_cons_of_mem _ hm)
    exact ⟨slot :: slots, .cons hSlot hSlots, by
      rw [List.flatMap_cons, List.flatMap_cons, hLowered, hRest]⟩

theorem dialogue_popEmptyLast {payloads : List MessagePayload}
    (h : Dialogue MessagePayload.useIds MessagePayload.resultIds payloads) :
    Dialogue MessagePayload.useIds MessagePayload.resultIds (popEmptyLast payloads) := by
  rw [popEmptyLast]
  split
  · rename_i last hLast
    split
    · rename_i hEmpty
      refine h.dropLast fun x hx => ?_
      rw [hLast] at hx
      cases hx
      rw [MessagePayload.resultIds, List.isEmpty_iff.mp hEmpty]
      rfl
    · exact h
  · exact h

/-- What Anthropic asks of a request. -/
structure RequestOk (lib : RequestLib) (thinkingEnabled : Bool) (turns : Turns)
    (messages : List ChatRequestMessage) (payloads : List MessagePayload) : Prop where
  /-- The payloads are those of the messages, in their order. -/
  slots : ∃ slots, List.Forall₂ (SlotOk lib thinkingEnabled) messages slots ∧
    payloads = slots.flatMap Option.toList
  /-- Directly behind a message that uses tools stand the results, one for each use and in
  the same order, and no result stands elsewhere. -/
  paired : Dialogue MessagePayload.useIds MessagePayload.resultIds payloads
  /-- An assistant message is that of a turn, with the turn's own artifact or none. -/
  own : ∀ m ∈ messages, m.role = .assistant → ∃ id t includeArtifact,
    turns.get? id = some t ∧ t.undone = false ∧ assistantMessage id t includeArtifact = [m]
  /-- An empty user message is the text of a turn. -/
  emptyText : ∀ m ∈ messages, m.role = .user → m.content = some "" →
    ∃ id t, turns.get? id = some t ∧ t.undone = false ∧ t.userText = some "" ∧
      userMessage id t = [m]

theorem imagePayload_text (r : ToolResultRecord) (image : ImageReference)
    (vision attachImages : Bool) : (imagePayload r image vision attachImages).1 ≠ "" := by
  rw [imagePayload]
  split
  · simp
  · split
    · simp
    · split <;> simp

/-- The messages of a turn are its own. -/
theorem turnMessage_own {env : Env} {providerSlug model : String}
    {inFlightFromTurn : Option Nat} {id : Nat} {t : Turn} {m : ChatRequestMessage}
    (hm : m ∈ turnMessages env providerSlug model inFlightFromTurn id t) :
    (m.role = .assistant → ∃ includeArtifact, assistantMessage id t includeArtifact = [m]) ∧
      (m.role = .user → m.content = some "" → t.userText = some "" ∧ userMessage id t = [m]) := by
  unfold turnMessages at hm
  dsimp only at hm
  rw [List.mem_append, List.mem_append, List.mem_append] at hm
  rcases hm with ((hUser | hAssistant) | hTool) | hImage
  · refine ⟨fun hRole => ?_, fun _ hText => ?_⟩
    · rw [(userMessage_plain m hUser).1] at hRole
      cases hRole
    · unfold userMessage at hUser ⊢
      split at hUser
      · cases hUser
      · cases List.mem_singleton.mp hUser
        exact ⟨by rwa [← hText], rfl⟩
  · rcases assistantMessage_cases id t _ with ⟨hMessage, -⟩ | ⟨m', hMessage, hRole, -⟩
    · rw [hMessage] at hAssistant
      cases hAssistant
    · rw [hMessage, List.mem_singleton] at hAssistant
      subst hAssistant
      exact ⟨fun _ => ⟨_, hMessage⟩, fun hUser => by rw [hRole] at hUser; cases hUser⟩
  · obtain ⟨r, -, rfl⟩ := List.mem_map.mp hTool
    exact ⟨fun hRole => (by cases hRole), fun hRole => (by cases hRole)⟩
  · refine ⟨fun hRole => ?_, fun _ hText => ?_⟩
    · rw [(toolResultImageMessages_plain m hImage).1] at hRole
      cases hRole
    · obtain ⟨r, -, hr⟩ := List.mem_filterMap.mp hImage
      split at hr
      · cases hr
      · cases hr
        exact absurd (Option.some.inj hText) (imagePayload_text _ _ _ _)

/-- A request built from the turns that a session holds, stores or works on is as
Anthropic asks, but for a user's empty text and for arguments that are no object. -/
theorem requestOk_of_build {lib : RequestLib} {thinkingEnabled : Bool} {env : Env}
    {config : SessionConfig} {slug : Option String} {actions : List Action} {s : System}
    {os : List Output} {turns : Turns}
    (h : (Session.system env).exec (System.init env config slug) actions = some (s, os))
    (hTurns : Holds env s turns)
    {systemPrompt : Option String} {providerSlug model : String} {inFlightFromTurn : Option Nat}
    {payloads : List MessagePayload} {system : Option String}
    (hBuild : buildMessagePayloads lib (buildChatRequestMessages env turns systemPrompt
      providerSlug model inFlightFromTurn) thinkingEnabled = .ok (payloads, system)) :
    RequestOk lib thinkingEnabled turns
      (buildChatRequestMessages env turns systemPrompt providerSlug model inFlightFromTurn)
      payloads := by
  have hPaired : ∀ e ∈ turns.entries, e.2.Paired :=
    fun e he => (turnsOk_of_holds h hTurns e he).1.paired
  obtain ⟨hOk, rfl⟩ := buildMessagePayloads_ok hBuild
  have hPrompt : ∀ m ∈ promptMessages systemPrompt, m.role = .system ∧
      SlotOk lib thinkingEnabled m none ∧ lowered lib thinkingEnabled m = [] := by
    intro m hm
    cases systemPrompt with
    | none => cases hm
    | some prompt =>
      cases List.mem_singleton.mp hm
      exact ⟨rfl, .nothing (by simp) (.inl rfl) rfl (replays_nil rfl), rfl⟩
  have hNoPrompt : (promptMessages systemPrompt).flatMap (lowered lib thinkingEnabled) = [] :=
    List.flatMap_eq_nil_iff.mpr fun m hm => (hPrompt m hm).2.2
  rw [buildChatRequestMessages] at hOk ⊢
  have hHistory := fun m hm => hOk m (List.mem_append_right _ hm)
  constructor
  · obtain ⟨slots, hSlots, hLowered⟩ := @exists_slots lib thinkingEnabled (promptMessages systemPrompt ++
        historyMessages env providerSlug model inFlightFromTurn turns.entries) fun m hm => by
      rcases List.mem_append.mp hm with hSystem | hm
      · obtain ⟨-, hSlot, hNone⟩ := hPrompt m hSystem
        exact ⟨none, hSlot, hNone⟩
      · obtain ⟨e, -, -, hTurn⟩ := mem_historyMessages hm
        exact slotOk_turnMessages hTurn (hHistory m hm)
    obtain ⟨kept, hKept, hPop⟩ := slots_popEmptyLast hSlots
    exact ⟨kept, hKept, hLowered ▸ hPop⟩
  · rw [List.flatMap_append, hNoPrompt, List.nil_append]
    exact dialogue_popEmptyLast (dialogue_history hPaired hHistory)
  · intro m hm hRole
    rcases List.mem_append.mp hm with hSystem | hm
    · rw [(hPrompt m hSystem).1] at hRole
      cases hRole
    · obtain ⟨e, he, hLive, hTurn⟩ := mem_historyMessages hm
      obtain ⟨includeArtifact, hMessage⟩ := (turnMessage_own hTurn).1 hRole
      exact ⟨e.1, e.2, includeArtifact, OrdMap.get?_eq_some_iff.mpr he, hLive, hMessage⟩
  · intro m hm hRole hText
    rcases List.mem_append.mp hm with hSystem | hm
    · rw [(hPrompt m hSystem).1] at hRole
      cases hRole
    · obtain ⟨e, he, hLive, hTurn⟩ := mem_historyMessages hm
      obtain ⟨hEmpty, hMessage⟩ := (turnMessage_own hTurn).2 hRole hText
      exact ⟨e.1, e.2, OrdMap.get?_eq_some_iff.mpr he, hLive, hEmpty, hMessage⟩

/-! ### Runs -/

/-- `serde_json` on the values of the runs below: `{}`, `[]` and `["a"]`. -/
def sampleRequestLib : RequestLib where
  fromStr text :=
    if text = "\x7b\x7d" then some (.obj []) else if text = "[]" then some (.arr []) else none
  toVec _ := []
  usageFromValue _ := none
  fromSlice bytes := if bytes = [91, 34, 97, 34, 93] then some (.arr [.str "a"]) else none
  base64Encode _ := ""

/-- A child run with two calls and their results. -/
def childRun (text first second : String) (artifact : Option ReasoningArtifact) : List Action :=
  .command 0 (.runChildInput (some text) sampleAccount) ::
    ([.enter [], .iterate 1 "" 0,
      .toolUse {
        toolCalls := [⟨"call_1", "shell", first, none⟩, ⟨"call_2", "shell", second, none⟩]
        reasoningArtifact := artifact },
      .tool .dispatch, .tool (.handle 0 (.finished { content := "one" }) none),
      .tool (.handle 1 (.finished { content := "two" }) none)] : List WorkerEvent).map Action.worker

/-- The input of a tool use is an object. -/
def ContentBlockPayload.inputIsObject : ContentBlockPayload → Bool
  | .toolUse _ _ (.obj _) => true
  | .toolUse _ _ _ => false
  | _ => true

/-- The kind of a block, with its id. -/
def ContentBlockPayload.shape : ContentBlockPayload → String × String
  | .text _ => ("text", "")
  | .image _ _ => ("image", "")
  | .toolUse id _ _ => ("tool_use", id)
  | .toolResult id _ => ("tool_result", id)
  | .raw _ => ("raw", "")

/-- The ids of the blocks of a kind. -/
def idsOfKind (kind : String) (shapes : List (String × String)) : List String :=
  shapes.filterMap fun shape => if shape.1 = kind then some shape.2 else none

theorem ids_of_shapes (p : MessagePayload) :
    p.useIds = idsOfKind "tool_use" (p.content.map ContentBlockPayload.shape) ∧
      p.resultIds = idsOfKind "tool_result" (p.content.map ContentBlockPayload.shape) := by
  rw [idsOfKind, idsOfKind, List.filterMap_map, List.filterMap_map]
  constructor
  · refine List.filterMap_congr fun block _ => ?_
    cases block <;> rfl
  · refine List.filterMap_congr fun block _ => ?_
    cases block <;> rfl

/-- The blocks of the messages, and whether the inputs are objects. -/
def requestShape (payloads : List MessagePayload) :
    List (String × List (String × String)) × Bool :=
  (payloads.map fun p => (p.role, p.content.map ContentBlockPayload.shape),
    payloads.all fun p => p.content.all ContentBlockPayload.inputIsObject)

/-- What the request built from the worker's history looks like after the run. -/
def requestTest (shape : List (String × List (String × String)) × Bool) (s : System) : Bool :=
  s.worker.any fun w => decide ((buildMessagePayloads sampleRequestLib
    (buildChatRequestMessages sampleEnv w.session.turns none "openai" "opus" none)
    true).toOption.map (fun p => requestShape p.1) = some shape)

theorem exists_of_requestTest {actions : List Action}
    {shape : List (String × List (String × String)) × Bool}
    (h : (Session.system sampleEnv).check (System.init sampleEnv (sampleConfig "opus") none)
      actions (fun s _ => requestTest shape s) = true) :
    ∃ s os w payloads system,
      (Session.system sampleEnv).exec (System.init sampleEnv (sampleConfig "opus") none)
          actions = some (s, os) ∧
        s.worker = some w ∧
        buildMessagePayloads sampleRequestLib (buildChatRequestMessages sampleEnv w.session.turns
          none "openai" "opus" none) true = .ok (payloads, system) ∧
        requestShape payloads = shape := by
  obtain ⟨s, os, hExec, hTest⟩ := Machine.exists_of_check h
  obtain ⟨w, hWorker, hTest⟩ := (Option.any_eq_true _ _).mp hTest
  obtain ⟨⟨payloads, system⟩, hBuild, hShape⟩ :=
    Option.map_eq_some_iff.mp (of_decide_eq_true hTest)
  refine ⟨s, os, w, payloads, system, hExec, hWorker, ?_, hShape⟩
  revert hBuild
  cases buildMessagePayloads sampleRequestLib (buildChatRequestMessages sampleEnv
    w.session.turns none "openai" "opus" none) true with
  | error e => exact fun hBuild => by cases hBuild
  | ok result => exact fun hBuild => congrArg Except.ok (Option.some.inj hBuild)

theorem requestOk_of_build_twoCalls :
    ∃ s os w payloads system,
      (Session.system sampleEnv).exec (System.init sampleEnv (sampleConfig "opus") none)
          (childRun "look around" "\x7b\x7d" "\x7b\x7d"
            (some (.anthropicThinking [91, 34, 97, 34, 93]))) = some (s, os) ∧
        s.worker = some w ∧
        buildMessagePayloads sampleRequestLib (buildChatRequestMessages sampleEnv w.session.turns
          none "openai" "opus" none) true = .ok (payloads, system) ∧
        requestShape payloads = ([("user", [("text", "")]),
          ("assistant", [("raw", ""), ("tool_use", "call_1"), ("tool_use", "call_2")]),
          ("user", [("tool_result", "call_1")]), ("user", [("tool_result", "call_2")])], true) ∧
        RequestOk sampleRequestLib true w.session.turns (buildChatRequestMessages sampleEnv
          w.session.turns none "openai" "opus" none) payloads := by
  obtain ⟨s, os, w, payloads, system, hExec, hWorker, hBuild, hShape⟩ :=
    @exists_of_requestTest (childRun "look around" "\x7b\x7d" "\x7b\x7d"
        (some (.anthropicThinking [91, 34, 97, 34, 93])))
      ([("user", [("text", "")]),
        ("assistant", [("raw", ""), ("tool_use", "call_1"), ("tool_use", "call_2")]),
        ("user", [("tool_result", "call_1")]), ("user", [("tool_result", "call_2")])], true)
      (by decide +kernel)
  exact ⟨s, os, w, payloads, system, hExec, hWorker, hBuild, hShape,
    requestOk_of_build hExec (.inr (.inl ⟨w, hWorker, rfl⟩)) hBuild⟩

/-- Each result stands in the message directly behind the one that holds its tool use. -/
def ResultsDirect (payloads : List MessagePayload) : Prop :=
  ∀ (i : Nat) (p : MessagePayload), payloads[i + 1]? = some p → ∀ id ∈ p.resultIds,
    ∃ q, payloads[i]? = some q ∧ id ∈ q.useIds

/-- A child run with an empty text and two calls, without arguments and with a list of
them: the text leaves an empty message, no input is an object and the second result is
behind the first. -/
theorem child_request_refused :
    ∃ s os w payloads system,
      (Session.system sampleEnv).exec (System.init sampleEnv (sampleConfig "opus") none)
          (childRun "" "" "[]" none) = some (s, os) ∧
        s.worker = some w ∧
        buildMessagePayloads sampleRequestLib (buildChatRequestMessages sampleEnv w.session.turns
          none "openai" "opus" none) true = .ok (payloads, system) ∧
        (∃ p ∈ payloads, p.content = []) ∧ ¬ResultsDirect payloads ∧
        ∃ p ∈ payloads, ∃ block ∈ p.content, block.inputIsObject = false := by
  obtain ⟨s, os, w, payloads, system, hExec, hWorker, hBuild, hShape⟩ :=
    @exists_of_requestTest (childRun "" "" "[]" none)
      ([("user", []), ("assistant", [("tool_use", "call_1"), ("tool_use", "call_2")]),
        ("user", [("tool_result", "call_1")]), ("user", [("tool_result", "call_2")])], false)
      (by decide +kernel)
  refine ⟨s, os, w, payloads, system, hExec, hWorker, hBuild, ?_⟩
  obtain ⟨hBlocks, hInputs⟩ := Prod.mk.inj hShape
  obtain ⟨user, rest, rfl, hUser, hRest⟩ := List.map_eq_cons_iff.mp hBlocks
  obtain ⟨assistant, rest, rfl, -, hRest⟩ := List.map_eq_cons_iff.mp hRest
  obtain ⟨first, rest, rfl, hFirst, hRest⟩ := List.map_eq_cons_iff.mp hRest
  obtain ⟨second, rest, rfl, hSecond, hRest⟩ := List.map_eq_cons_iff.mp hRest
  refine ⟨⟨user, List.mem_cons_self, List.map_eq_nil_iff.mp (Prod.mk.inj hUser).2⟩, ?_, ?_⟩
  · intro hDirect
    have hResult : "call_2" ∈ second.resultIds := by
      rw [(ids_of_shapes second).2, (Prod.mk.inj hSecond).2]
      decide
    obtain ⟨q, hq, hUse⟩ := hDirect 2 second rfl "call_2" hResult
    cases hq
    rw [(ids_of_shapes first).1, (Prod.mk.inj hFirst).2] at hUse
    exact absurd hUse (by decide)
  · rw [List.all_eq_false] at hInputs
    obtain ⟨p, hp, hSome⟩ := hInputs
    rw [Bool.not_eq_true, List.all_eq_false] at hSome
    obtain ⟨block, hBlock, hObject⟩ := hSome
    exact ⟨p, hp, block, hBlock, Bool.eq_false_iff.mpr hObject⟩

end Choreographr.Protocols.Anthropic
