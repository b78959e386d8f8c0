import Mathlib.Data.List.Chain
import Mathlib.Data.List.TakeWhile
import Choreographr.Protocols.ResponsesInput
import Choreographr.Session.Proofs.Pairing

/-!
# The Responses input of a session

A Responses server refuses an output whose call it never saw, and a session that
holds one can never be sent again. Every history that a session can reach answers
its calls turn by turn, so each output in the unchained input has its call before
it. With the call ids of the history distinct it has exactly one, and the
attribution that the index finds is the one of that call.

The chained input after a tool round is the outputs of the round. What the user
sends behind them comes along, and then the newest system prompt leads.
-/

namespace Choreographr.Protocols

open Session Lib

variable {lib : WireLib} {system : SystemPrompt} {callers : CallerIndex} {m : ChatRequestMessage}
  {messages : List ChatRequestMessage}

/-! ## Calls before outputs -/

/-- Every output has a call with its id before it. -/
def OutputsIntroduced (items : List ResponsesInputItem) : Prop :=
  ∀ before callId output caller after,
    items = before ++ ResponsesInputItem.functionCallOutput callId output caller :: after →
      ∃ name arguments caller', ResponsesInputItem.functionCall callId name arguments caller' ∈ before

theorem outputsIntroduced_of_none {items : List ResponsesInputItem}
    (h : ∀ callId output caller, .functionCallOutput callId output caller ∉ items) :
    OutputsIntroduced items := by
  intro before callId output caller after hItems
  exact absurd (by simp [hItems]) (h callId output caller)

/-- Items may follow whose outputs answer calls that are already there, or that
introduce their own. -/
theorem OutputsIntroduced.append {xs ys : List ResponsesInputItem} (hx : OutputsIntroduced xs)
    (hy : OutputsIntroduced ys ∨ ∀ callId output caller,
      .functionCallOutput callId output caller ∈ ys →
        ∃ name arguments caller', .functionCall callId name arguments caller' ∈ xs) :
    OutputsIntroduced (xs ++ ys) := by
  intro before callId output caller after hItems
  rcases List.append_eq_append_iff.mp hItems with ⟨more, rfl, hys⟩ | ⟨more, hxs, hRest⟩
  · rcases hy with hy | hy
    · obtain ⟨name, arguments, caller', hCall⟩ := hy more callId output caller after hys
      exact ⟨name, arguments, caller', List.mem_append_right _ hCall⟩
    · obtain ⟨name, arguments, caller', hCall⟩ := hy callId output caller (by simp [hys])
      exact ⟨name, arguments, caller', List.mem_append_left _ hCall⟩
  · cases more with
    | nil =>
      have hSame : before = xs := by simpa using hxs.symm
      subst hSame
      rcases hy with hy | hy
      · have hys : ys = [] ++ .functionCallOutput callId output caller :: after := hRest.symm
        obtain ⟨_, _, _, hCall⟩ := hy [] callId output caller after hys
        cases hCall
      · have hys : ys = .functionCallOutput callId output caller :: after := hRest.symm
        exact hy callId output caller (by rw [hys]; exact List.mem_cons_self)
    | cons item more =>
      obtain ⟨rfl, -⟩ := List.cons.inj hRest
      exact hx before callId output caller more hxs

/-! ## The items of one message -/

theorem mem_replayedItems {item : ResponsesInputItem} (h : item ∈ replayedItems lib m) :
    ∃ value, item = .reasoning value := by
  rw [replayedItems] at h
  split at h
  · obtain ⟨value, -, rfl⟩ := List.mem_map.mp h
    exact ⟨value, rfl⟩
  · cases h

theorem mem_contentItems {item : ResponsesInputItem} (h : item ∈ contentItems lib m) :
    item = .message m.role (responsesContentValue lib m) ∧ hasResponsesContent m = true := by
  rw [contentItems] at h
  split at h
  · rename_i hContent
    exact ⟨List.mem_singleton.mp h, hContent⟩
  · cases h

theorem mem_callItems {item : ResponsesInputItem} (h : item ∈ callItems m) :
    m.role = .assistant ∧ ∃ call ∈ m.toolCalls.getD [],
      item = .functionCall call.id call.name call.arguments call.caller := by
  rw [callItems] at h
  split at h
  · rename_i hRole
    obtain ⟨call, hCall, rfl⟩ := List.mem_map.mp h
    exact ⟨hRole, call, hCall, rfl⟩
  · cases h

/-- What an item of a message can be. -/
inductive ItemOf (lib : WireLib) (callers : CallerIndex) (m : ChatRequestMessage) :
    ResponsesInputItem → Prop
  | prompt {text : String} (hRole : m.role = .system) (hText : m.content = some text) :
      ItemOf lib callers m (.message .system (.str text))
  | reasoning (value : Json) : ItemOf lib callers m (.reasoning value)
  | content (hRole : m.role ≠ .system) (hContent : hasResponsesContent m = true) :
      ItemOf lib callers m (.message m.role (responsesContentValue lib m))
  | call {call : Session.AssistantToolCall} (hCall : call ∈ m.toolCalls.getD []) :
      ItemOf lib callers m (.functionCall call.id call.name call.arguments call.caller)
  | output {callId content : String} (hRole : m.role = .tool) (hId : m.toolCallId = some callId)
      (hContent : m.content = some content) :
      ItemOf lib callers m (.functionCallOutput callId content (callers.get callId))

theorem mem_messageItems {item : ResponsesInputItem}
    (h : item ∈ messageItems lib system callers m) : ItemOf lib callers m item := by
  have hSpoken : m.role ≠ .system →
      item ∈ replayedItems lib m ++ contentItems lib m ++ callItems m →
        ItemOf lib callers m item := by
    intro hRole hIn
    rw [List.mem_append, List.mem_append] at hIn
    rcases hIn with (hIn | hIn) | hIn
    · obtain ⟨value, rfl⟩ := mem_replayedItems hIn
      exact .reasoning value
    · obtain ⟨rfl, hContent⟩ := mem_contentItems hIn
      exact .content hRole hContent
    · obtain ⟨-, call, hCall, rfl⟩ := mem_callItems hIn
      exact .call hCall
  rw [messageItems] at h
  split at h
  · rename_i hRole
    split at h
    · cases h
    · obtain ⟨text, hText, rfl⟩ := List.mem_map.mp h
      exact .prompt hRole (Option.mem_toList.mp hText)
  · rename_i hRole
    exact hSpoken (by simp [hRole]) h
  · rename_i hRole
    exact hSpoken (by simp [hRole]) h
  · rename_i hRole
    split at h
    · rename_i hId hContent
      cases List.mem_singleton.mp h
      exact .output hRole hId hContent
    · cases h

/-- Only a tool message becomes an output, the one of its call. -/
theorem output_mem_messageItems {callId output : String} {caller : Option ToolCallCaller}
    (h : .functionCallOutput callId output caller ∈ messageItems lib system callers m) :
    m.role = .tool ∧ m.toolCallId = some callId ∧ m.content = some output ∧
      caller = callers.get callId := by
  cases mem_messageItems h with
  | output hRole hId hContent => exact ⟨hRole, hId, hContent, rfl⟩

/-- Only an assistant message becomes calls, its own. -/
theorem call_mem_messageItems {callId name arguments : String} {caller : Option ToolCallCaller}
    (h : .functionCall callId name arguments caller ∈ messageItems lib system callers m) :
    ∃ call ∈ m.toolCalls.getD [], call.id = callId ∧ call.caller = caller := by
  cases mem_messageItems h with
  | call hCall => exact ⟨_, hCall, rfl, rfl⟩

theorem mem_messageItems_of_call (hRole : m.role = .assistant) (call : Session.AssistantToolCall)
    (hCall : call ∈ m.toolCalls.getD []) :
    .functionCall call.id call.name call.arguments call.caller ∈
      messageItems lib system callers m := by
  have hItems : messageItems lib system callers m =
      replayedItems lib m ++ contentItems lib m ++ callItems m := by
    rw [messageItems, hRole]
  rw [hItems, callItems, if_pos hRole]
  exact List.mem_append_right _ (List.mem_map.mpr ⟨call, hCall, rfl⟩)

/-! ## One turn -/

/-- A message that a history can hold: tool messages answer a call, and a message
with calls has at least one. -/
structure Projected (m : ChatRequestMessage) : Prop where
  notSystem : m.role ≠ .system
  tool : m.role = .tool → m.content.isSome = true
  calls : m.toolCalls ≠ some []

theorem projected_of_mem_turnMessages {env : Env} {providerSlug model : String}
    {inFlightFromTurn : Option Nat} {id : Nat} {t : Turn}
    (h : m ∈ turnMessages env providerSlug model inFlightFromTurn id t) : Projected m := by
  simp only [turnMessages, List.mem_append] at h
  rcases h with ((h | h) | h) | h
  · obtain ⟨hRole, hCalls, -⟩ := userMessage_plain m h
    exact ⟨by simp [hRole], by simp [hRole], by simp [hCalls]⟩
  · rw [assistantMessage] at h
    split at h
    · rw [List.mem_singleton] at h
      subst h
      refine ⟨by simp, by simp, ?_⟩
      cases t.toolCalls <;> simp
    · cases h
  · obtain ⟨r, -, rfl⟩ := List.mem_map.mp h
    exact ⟨by simp, by simp, by simp⟩
  · obtain ⟨hRole, hCalls⟩ := toolResultImageMessages_plain m h
    exact ⟨by simp [hRole], by simp [hRole], by simp [hCalls]⟩

theorem noOutputs_of_roles (h : ∀ m ∈ messages, m.role ≠ .tool) :
    OutputsIntroduced (messagesToResponsesInput lib system callers messages) := by
  apply outputsIntroduced_of_none
  intro callId output caller hIn
  obtain ⟨m, hm, hItem⟩ := List.mem_flatMap.mp hIn
  exact h m hm (output_mem_messageItems hItem).1

/-- The outputs of a turn answer the calls of its assistant message. -/
theorem outputsIntroduced_turn (env : Env) (providerSlug model : String)
    (inFlightFromTurn : Option Nat) (id : Nat) {t : Turn} (hPaired : t.Paired) :
    OutputsIntroduced (messagesToResponsesInput lib system callers
      (turnMessages env providerSlug model inFlightFromTurn id t)) := by
  simp only [turnMessages, messagesToResponsesInput, List.flatMap_append]
  apply OutputsIntroduced.append
  · apply OutputsIntroduced.append
    · apply OutputsIntroduced.append
      · exact noOutputs_of_roles fun m hm => by simp [(userMessage_plain m hm).1]
      · left
        apply noOutputs_of_roles
        intro m hm
        rw [assistantMessage] at hm
        split at hm
        · rw [List.mem_singleton] at hm
          simp [hm]
        · cases hm
    · right
      intro callId output caller hIn
      obtain ⟨m, hm, hItem⟩ := List.mem_flatMap.mp hIn
      obtain ⟨r, hr, rfl⟩ := List.mem_map.mp hm
      have hId : r.callId = callId := by
        simpa using (output_mem_messageItems hItem).2.1
      have hCallIds : callId ∈ t.toolCalls.map AssistantToolCallRecord.callId := by
        rw [← hPaired, ← hId]
        exact List.mem_map_of_mem hr
      obtain ⟨call, hCall, rfl⟩ := List.mem_map.mp hCallIds
      have hSome : t.toolCalls ≠ [] := List.ne_nil_of_mem hCall
      refine ⟨call.name, call.argumentsJson, call.caller, List.mem_append_right _ ?_⟩
      rw [assistantMessage, if_pos (by simp [hSome]), List.flatMap_singleton]
      exact mem_messageItems_of_call rfl ⟨call.callId, "function", _, _, _⟩
        (by simpa [hSome] using ⟨call, hCall, rfl, rfl, rfl, rfl⟩)
  · left
    exact noOutputs_of_roles fun m hm => by simp [(toolResultImageMessages_plain m hm).1]

theorem outputsIntroduced_history {env : Env} {providerSlug model : String}
    {inFlightFromTurn : Option Nat} {entries : List (Nat × Turn)}
    (h : ∀ e ∈ entries, e.2.Paired) :
    OutputsIntroduced (messagesToResponsesInput lib system callers
      (historyMessages env providerSlug model inFlightFromTurn entries)) := by
  induction entries with
  | nil => exact outputsIntroduced_of_none (by simp [messagesToResponsesInput, historyMessages])
  | cons e rest ih =>
    obtain ⟨hHead, hRest⟩ := List.forall_mem_cons.mp h
    simp only [historyMessages, List.flatMap_cons, messagesToResponsesInput,
      List.flatMap_append] at ih ⊢
    refine OutputsIntroduced.append ?_ (.inl (ih hRest))
    split
    · exact outputsIntroduced_of_none (by simp)
    · exact outputsIntroduced_turn env providerSlug model inFlightFromTurn e.1 hHead

/-! ## Distinct call ids -/

/-- The calls of a message list, in order. -/
def callsOf (messages : List ChatRequestMessage) : List Session.AssistantToolCall :=
  messages.flatMap fun m => m.toolCalls.getD []

def itemCallId : ResponsesInputItem → Option String
  | .functionCall callId _ _ _ => some callId
  | _ => none

/-- The calls an item list introduces are calls of the messages. -/
theorem itemCallIds_sublist (messages : List ChatRequestMessage) :
    ((messagesToResponsesInput lib system callers messages).filterMap itemCallId).Sublist
      ((callsOf messages).map Session.AssistantToolCall.id) := by
  induction messages with
  | nil => exact List.Sublist.refl _
  | cons m rest ih =>
    simp only [messagesToResponsesInput, List.flatMap_cons, List.filterMap_append, callsOf,
      List.map_append] at ih ⊢
    refine List.Sublist.append ?_ ih
    have hReplayed : (replayedItems lib m).filterMap itemCallId = [] := by
      rw [List.filterMap_eq_nil_iff]
      intro item hItem
      obtain ⟨value, rfl⟩ := mem_replayedItems hItem
      rfl
    have hContent : (contentItems lib m).filterMap itemCallId = [] := by
      rw [List.filterMap_eq_nil_iff]
      intro item hItem
      rw [(mem_contentItems hItem).1]
      rfl
    have hSpoken : ((replayedItems lib m ++ contentItems lib m ++ callItems m).filterMap
        itemCallId).Sublist ((m.toolCalls.getD []).map Session.AssistantToolCall.id) := by
      rw [List.filterMap_append, List.filterMap_append, hReplayed, hContent, callItems]
      split
      · simp [List.filterMap_map, Function.comp_def, itemCallId]
      · simp
    rw [messageItems]
    split
    · split
      · simp
      · cases m.content <;> exact List.nil_sublist _
    · exact hSpoken
    · exact hSpoken
    · split <;> exact List.nil_sublist _

/-- A call whose id no other call has is the only one with it. -/
theorem call_eq_of_id {calls : List Session.AssistantToolCall}
    {call other : Session.AssistantToolCall}
    (hOnce : (calls.map Session.AssistantToolCall.id).count call.id ≤ 1) (hCall : call ∈ calls)
    (hOther : other ∈ calls) (hSame : other.id = call.id) : other = call := by
  induction calls with
  | nil => cases hCall
  | cons c rest ih =>
    have hSeen : ∀ x ∈ rest, x.id = call.id →
        (rest.map Session.AssistantToolCall.id).count call.id ≥ 1 :=
      fun x hx hId => List.one_le_count_iff.mpr (List.mem_map.mpr ⟨x, hx, hId⟩)
    rw [List.map_cons, List.count_cons] at hOnce
    rcases List.mem_cons.mp hCall with rfl | hLater
    · rcases List.mem_cons.mp hOther with rfl | hBehind
      · rfl
      · have hMore := hSeen other hBehind hSame
        simp only [BEq.rfl, if_true] at hOnce
        omega
    · rcases List.mem_cons.mp hOther with rfl | hBehind
      · have hMore := hSeen call hLater rfl
        simp only [hSame, BEq.rfl, if_true] at hOnce
        omega
      · exact ih (by omega) hLater hBehind

/-- The index finds the attribution of a call whose id no other call has. -/
theorem callerIndex_get {call : Session.AssistantToolCall}
    (hOnce : ((callsOf messages).map Session.AssistantToolCall.id).count call.id ≤ 1)
    (hCall : call ∈ callsOf messages) : (callerIndex messages).get call.id = call.caller := by
  have hEntry : ∀ caller, (call.id, caller) ∈ (callerIndex messages).reverse ↔
      call.caller = some caller := by
    intro caller
    rw [List.mem_reverse, callerIndex, List.mem_filterMap]
    constructor
    · rintro ⟨other, hOther, hEntry⟩
      obtain ⟨found, hFound, hPair⟩ := Option.map_eq_some_iff.mp hEntry
      obtain ⟨hId, rfl⟩ := Prod.mk.inj hPair
      rw [← call_eq_of_id hOnce hCall hOther hId]
      exact hFound
    · intro hCaller
      exact ⟨call, hCall, by simp [hCaller]⟩
  rw [CallerIndex.get]
  cases hFound : (callerIndex messages).reverse.lookup call.id with
  | some caller =>
    obtain ⟨front, back, hSplit, -⟩ := List.lookup_eq_some_iff.mp hFound
    exact ((hEntry caller).mp (by simp [hSplit])).symm
  | none =>
    cases hCaller : call.caller with
    | none => rfl
    | some caller =>
      have hAbsent := List.lookup_eq_none_iff.mp hFound _ ((hEntry caller).mpr hCaller)
      simp at hAbsent

/-- An output and its one call. -/
theorem one_call_before (hIntroduced : OutputsIntroduced
      (messagesToResponsesInput lib system (callerIndex messages) messages))
    {before after : List ResponsesInputItem} {callId output : String}
    {caller : Option ToolCallCaller}
    (hOnce : ((callsOf messages).map Session.AssistantToolCall.id).count callId ≤ 1)
    (hItems : messagesToResponsesInput lib system (callerIndex messages) messages =
      before ++ .functionCallOutput callId output caller :: after) :
    (before.filterMap itemCallId).count callId = 1 ∧
      ∃ name arguments, .functionCall callId name arguments caller ∈ before := by
  obtain ⟨name, arguments, caller', hCall⟩ := hIntroduced _ _ _ _ _ hItems
  have hAtMost : (before.filterMap itemCallId).count callId ≤ 1 := by
    have hSublist : ((messagesToResponsesInput lib system (callerIndex messages) messages).filterMap
        itemCallId).Sublist _ := itemCallIds_sublist messages
    rw [hItems, List.filterMap_append] at hSublist
    have hCount := ((List.sublist_append_left _ _).trans hSublist).count_le callId
    omega
  have hAtLeast : 1 ≤ (before.filterMap itemCallId).count callId :=
    List.one_le_count_iff.mpr (List.mem_filterMap.mpr ⟨_, hCall, rfl⟩)
  refine ⟨by omega, name, arguments, ?_⟩
  have hOutput : .functionCallOutput callId output caller ∈
      messagesToResponsesInput lib system (callerIndex messages) messages := by simp [hItems]
  obtain ⟨m, -, hItem⟩ := List.mem_flatMap.mp hOutput
  have hCaller := (output_mem_messageItems hItem).2.2.2
  have hSource : .functionCall callId name arguments caller' ∈
      messagesToResponsesInput lib system (callerIndex messages) messages := by
    rw [hItems]
    exact List.mem_append_left _ hCall
  obtain ⟨m', hm', hItem'⟩ := List.mem_flatMap.mp hSource
  obtain ⟨call, hCallIn, rfl, rfl⟩ := call_mem_messageItems hItem'
  have hIndex := callerIndex_get hOnce (List.mem_flatMap.mpr ⟨m', hm', hCallIn⟩)
  rw [hCaller, hIndex]
  exact hCall

/-! ## Content -/

theorem trim_ne_empty {text : String} {c : Char} (hIn : c ∈ text.toList)
    (hSolid : isWhitespace c = false) : trim text ≠ "" := by
  intro h
  have hChars := congrArg String.toList h
  simp only [trim, String.toList_ofList, String.toList_empty, List.reverse_eq_nil_iff,
    List.dropWhile_eq_nil_iff, List.mem_reverse] at hChars
  have hStart : text.toList.dropWhile isWhitespace ≠ [] := by
    rw [Ne, List.dropWhile_eq_nil_iff]
    intro hAll
    rw [hAll c hIn] at hSolid
    cases hSolid
  have hHead := List.head_dropWhile_not isWhitespace hStart
  rw [hChars _ (List.head_mem hStart)] at hHead
  cases hHead

theorem trim_buildSystemContent (p : SystemContentParams) : trim (buildSystemContent p) ≠ "" := by
  have hSection : '#' ∈ "\n\n## Tool groups\n".toList := by decide +kernel
  apply trim_ne_empty (c := '#') _ (by decide)
  simp only [buildSystemContent, buildBasePrompt, String.toList_append, List.mem_append, hSection,
    true_or, or_true]

/-- Content that carries nothing: blank text, or no parts. -/
def contentIsEmpty : Json → Bool
  | .str text => (trim text).isEmpty
  | .arr parts => parts.isEmpty
  | _ => false

theorem contentIsEmpty_responsesContentValue (h : hasResponsesContent m = true) :
    contentIsEmpty (responsesContentValue lib m) = false := by
  rw [hasResponsesContent, Bool.or_eq_true] at h
  rw [responsesContentValue]
  split
  · rename_i hImages
    have hText : m.content.any (fun text => !(trim text).isEmpty) = true := by
      simpa [hImages] using h
    obtain ⟨text, hContent, hSolid⟩ := (Option.any_eq_true _ _).mp hText
    simpa [contentIsEmpty, hContent] using hSolid
  · rename_i hImages
    have hSome : m.images ≠ [] := by simpa using hImages
    simp [contentIsEmpty, hSome]

theorem message_mem_messageItems {role : Role} {content : Json}
    (h : .message role content ∈ messageItems lib system callers m) :
    m.role = role ∧ ((role = .system ∧ ∃ text, m.content = some text ∧ content = .str text) ∨
      (role ≠ .system ∧ contentIsEmpty content = false)) := by
  cases mem_messageItems h with
  | prompt hRole hText => exact ⟨hRole, .inl ⟨rfl, _, hText, rfl⟩⟩
  | content hRole hContent =>
    exact ⟨rfl, .inr ⟨hRole, contentIsEmpty_responsesContentValue hContent⟩⟩

/-! ## What is sent, in order -/

/-- A piece of the conversation as the input sends it. -/
inductive Sent where
  | spoken (role : Role) (content : Json)
  | answer (callId output : String)

/-- The piece an item sends. System prompts, calls and reasoning are apart. -/
def itemSends : ResponsesInputItem → Option Sent
  | .message .system _ => none
  | .message role content => some (.spoken role content)
  | .functionCallOutput callId output _ => some (.answer callId output)
  | _ => none

/-- The piece a message has to send; a message with no content has none. -/
def messageSends (lib : WireLib) (m : ChatRequestMessage) : Option Sent :=
  match m.role with
  | .system => none
  | .user | .assistant =>
      if hasResponsesContent m then some (.spoken m.role (responsesContentValue lib m)) else none
  | .tool =>
      match m.toolCallId, m.content with
      | some callId, some content => some (.answer callId content)
      | _, _ => none

theorem itemSends_messageItems (m : ChatRequestMessage) :
    (messageItems lib system callers m).filterMap itemSends = (messageSends lib m).toList := by
  have hReplayed : (replayedItems lib m).filterMap itemSends = [] := by
    rw [List.filterMap_eq_nil_iff]
    intro item hItem
    obtain ⟨value, rfl⟩ := mem_replayedItems hItem
    rfl
  have hCalls : (callItems m).filterMap itemSends = [] := by
    rw [List.filterMap_eq_nil_iff]
    intro item hItem
    obtain ⟨-, call, -, rfl⟩ := mem_callItems hItem
    rfl
  have hSpoken : m.role = .user ∨ m.role = .assistant →
      (replayedItems lib m ++ contentItems lib m ++ callItems m).filterMap itemSends =
        (if hasResponsesContent m then
          some (Sent.spoken m.role (responsesContentValue lib m)) else none).toList := by
    intro hRole
    rw [List.filterMap_append, List.filterMap_append, hReplayed, hCalls, contentItems,
      List.nil_append, List.append_nil]
    split
    · rcases hRole with hRole | hRole <;> rw [hRole] <;> rfl
    · rfl
  rw [messageItems, messageSends]
  cases hRole : m.role with
  | system =>
    dsimp only
    split
    · rfl
    · cases m.content <;> rfl
  | user => simpa [hRole] using hSpoken (.inl hRole)
  | assistant => simpa [hRole] using hSpoken (.inr hRole)
  | tool =>
    cases m.toolCallId with
    | none => rfl
    | some callId => cases m.content <;> rfl

theorem itemSends_messagesToResponsesInput (messages : List ChatRequestMessage) :
    (messagesToResponsesInput lib system callers messages).filterMap itemSends =
      messages.filterMap (messageSends lib) := by
  induction messages with
  | nil => rfl
  | cons m rest ih =>
    rw [messagesToResponsesInput, List.flatMap_cons, List.filterMap_append, itemSends_messageItems]
    rw [messagesToResponsesInput] at ih
    rw [ih, List.filterMap_cons]
    cases messageSends lib m <;> rfl

/-! ## The tail of a chained request -/

/-- A selection that keeps, behind the head, exactly what stands after `a`. -/
theorem filterMap_zipIdx_head {α : Type} {f : α × Nat → Option α} {head a : α}
    {before after : List α}
    (h : ∀ q ∈ (before ++ a :: after).zipIdx 1,
      f q = if before.length + 1 < q.2 then some q.1 else none) :
    (head :: (before ++ a :: after)).zipIdx.filterMap f = (f (head, 0)).toList ++ after := by
  have hTail := filterMap_zipIdx_after some (head :: before) after a
  rw [List.filterMap_some, List.cons_append, List.zipIdx_cons, List.filterMap_cons] at hTail
  have hBehind : ((before ++ a :: after).zipIdx 1).filterMap f = after := by
    rw [List.filterMap_congr h]
    simpa using hTail
  rw [List.zipIdx_cons, List.filterMap_cons, Nat.zero_add, hBehind]
  cases f (head, 0) <;> rfl

/-- The tail of a request whose only system message leads: what stands behind the
last assistant message, after the prompt unless that is tool results only. -/
theorem chainInputMessages_of_prompt {prompt a : ChatRequestMessage}
    {before after : List ChatRequestMessage} (hPrompt : prompt.role = .system)
    (hRest : ∀ m ∈ before ++ a :: after, m.role ≠ .system) (ha : a.role = .assistant)
    (hAfter : ∀ m ∈ after, m.role ≠ .assistant) :
    chainInputMessages (prompt :: (before ++ a :: after)) =
      (if !after.isEmpty && after.all (fun m => m.role = .tool) then [] else [prompt]) ++ after := by
  have hLast : rposition (fun m : ChatRequestMessage => decide (m.role = .assistant))
      ((prompt :: before) ++ a :: after) = some (before.length + 1) :=
    rposition_append_cons (decide_eq_true ha) fun m hm => decide_eq_false (hAfter m hm)
  have hSystem : rposition (fun m : ChatRequestMessage => decide (m.role = .system))
      ([] ++ prompt :: (before ++ a :: after)) = some 0 :=
    rposition_append_cons (decide_eq_true hPrompt) fun m hm => decide_eq_false (hRest m hm)
  have hDrop : (prompt :: (before ++ a :: after)).drop (before.length + 1 + 1) = after := by
    simp
  rw [List.cons_append] at hLast
  rw [List.nil_append] at hSystem
  simp only [chainInputMessages, hLast, hSystem, hDrop]
  rw [filterMap_zipIdx_head]
  · have hHead : decide (prompt.role ≠ .system) = false := by simp [hPrompt]
    simp only [hHead, Bool.and_false, Bool.false_or, decide_true, Bool.true_and]
    cases !after.isEmpty && after.all fun m => decide (m.role = .tool) <;> rfl
  · rintro ⟨m, i⟩ hm
    have hIn := List.mem_zipIdx hm
    have hRole : m.role ≠ .system := hRest m (by rw [hIn.2.2]; exact List.getElem_mem _)
    have hPos : i ≠ 0 := by omega
    simp [hRole, hPos]

/-- A tool message stands behind another one, or behind an assistant message. -/
def ToolsFollow (messages : List ChatRequestMessage) : Prop :=
  messages.IsChain fun x y => y.role = .tool → x.role = .tool ∨ x.role = .assistant

theorem toolsFollow_of_forall (h : ∀ m ∈ messages, m.role ≠ .tool) : ToolsFollow messages := by
  induction messages with
  | nil => exact List.IsChain.nil
  | cons m rest ih =>
    obtain ⟨-, hRest⟩ := List.forall_mem_cons.mp h
    refine List.isChain_cons.mpr ⟨?_, ih hRest⟩
    intro y hy hTool
    exact absurd hTool (hRest y (List.mem_of_mem_head? hy))

theorem ToolsFollow.append {xs ys : List ChatRequestMessage} (hx : ToolsFollow xs)
    (hy : ToolsFollow ys) (hFirst : NoToolFirst ys) : ToolsFollow (xs ++ ys) := by
  refine List.isChain_append.mpr ⟨hx, hy, ?_⟩
  intro x _ y hy hTool
  exact absurd hTool (hFirst y hy)

theorem toolsFollow_of_tools (h : ∀ m ∈ messages, m.role = .tool) : ToolsFollow messages := by
  induction messages with
  | nil => exact List.IsChain.nil
  | cons m rest ih =>
    obtain ⟨hTool, hRest⟩ := List.forall_mem_cons.mp h
    exact List.isChain_cons.mpr ⟨fun _ _ _ => .inl hTool, ih hRest⟩

theorem toolsFollow_turn (env : Env) (providerSlug model : String)
    (inFlightFromTurn : Option Nat) (id : Nat) {t : Turn} (hPaired : t.Paired) :
    ToolsFollow (turnMessages env providerSlug model inFlightFromTurn id t) := by
  have hTools : ∀ m ∈ toolMessages id t, m.role = .tool := by
    intro m hm
    obtain ⟨r, -, rfl⟩ := List.mem_map.mp hm
    rfl
  have hSpoken : ∀ includeArtifact,
      ToolsFollow (assistantMessage id t includeArtifact ++ toolMessages id t) := by
    intro includeArtifact
    rw [assistantMessage]
    split
    · exact List.isChain_cons.mpr ⟨fun _ _ _ => .inr rfl, toolsFollow_of_tools hTools⟩
    · exact toolsFollow_of_tools hTools
  have hUser : ToolsFollow (userMessage id t) :=
    toolsFollow_of_forall fun m hm => by simp [(userMessage_plain m hm).1]
  have hImages : ∀ vision attachImages, ∀ m ∈ toolResultImageMessages id t vision attachImages,
      m.role ≠ .tool := by
    intro vision attachImages m hm
    simp [(toolResultImageMessages_plain m hm).1]
  unfold turnMessages
  dsimp only
  rw [List.append_assoc (userMessage id t)]
  refine ToolsFollow.append (hUser.append (hSpoken _) ?_) ?_ ?_
  · exact (callsAnswered_assistant id hPaired _).2
  · exact toolsFollow_of_forall (hImages _ _)
  · exact noToolFirst_of_forall (hImages _ _)

theorem toolsFollow_history {env : Env} {providerSlug model : String}
    {inFlightFromTurn : Option Nat} {entries : List (Nat × Turn)}
    (h : ∀ e ∈ entries, e.2.Paired) :
    ToolsFollow (historyMessages env providerSlug model inFlightFromTurn entries) := by
  induction entries with
  | nil => exact List.IsChain.nil
  | cons e rest ih =>
    obtain ⟨hHead, hRest⟩ := List.forall_mem_cons.mp h
    have hTail : ToolsFollow (historyMessages env providerSlug model inFlightFromTurn rest) :=
      ih hRest
    rw [historyMessages, List.flatMap_cons]
    split
    · exact hTail
    · exact (toolsFollow_turn env providerSlug model inFlightFromTurn e.1 hHead).append hTail
        (callsAnswered_history hRest).2

/-- Behind the answers of a round comes user input only. -/
theorem users_of_toolsFollow (h : ToolsFollow messages) (hFirst : NoToolFirst messages)
    (hRoles : ∀ m ∈ messages, m.role ≠ .system ∧ m.role ≠ .assistant) :
    ∀ m ∈ messages, m.role = .user := by
  induction messages with
  | nil => simp
  | cons m rest ih =>
    obtain ⟨hHead, hRest⟩ := List.forall_mem_cons.mp hRoles
    have hUser : m.role = .user := by
      have hNotTool : m.role ≠ .tool := hFirst m rfl
      cases hRole : m.role <;> simp_all
    obtain ⟨hNext, hTail⟩ := List.isChain_cons.mp h
    have hRestFirst : NoToolFirst rest := by
      intro y hy hTool
      rcases hNext y hy hTool with hRole | hRole <;> rw [hUser] at hRole <;> cases hRole
    exact List.forall_mem_cons.mpr ⟨hUser, ih hTail hRestFirst hRest⟩

/-! ## The input of a request -/

def outputCallId : ResponsesInputItem → Option String
  | .functionCallOutput callId _ _ => some callId
  | _ => none

/-- What the API asks of the `input` array of a request with this prompt. -/
structure ResponsesInputContract (lib : WireLib) (prompt : String)
    (messages : List ChatRequestMessage) : Prop where
  introduced : ∀ system, OutputsIntroduced (buildResponsesInput lib messages none system)
  /-- A call whose id no other call of the history has is the only one before its
  output, and the two have the same caller. -/
  paired : ∀ system (before : List ResponsesInputItem) callId output caller after,
    ((callsOf messages).map Session.AssistantToolCall.id).count callId ≤ 1 →
    buildResponsesInput lib messages none system =
      before ++ ResponsesInputItem.functionCallOutput callId output caller :: after →
        (before.filterMap itemCallId).count callId = 1 ∧
          ∃ name arguments, ResponsesInputItem.functionCall callId name arguments caller ∈ before
  nonempty : ∀ system role content,
    ResponsesInputItem.message role content ∈ buildResponsesInput lib messages none system →
      contentIsEmpty content = false
  /-- The prompt leads the input and stands nowhere else. -/
  inline : ∃ rest,
    responsesBodyInput lib false messages none = (.message .system (.str prompt) :: rest, none) ∧
      ∀ content, ResponsesInputItem.message .system content ∉ rest
  /-- A stateless backend has it in `instructions` only. -/
  hoisted : ∀ previousResponseId, ∃ items,
    responsesBodyInput lib true messages previousResponseId = (items, some prompt) ∧
      ∀ content, ResponsesInputItem.message .system content ∉ items
  order : ∀ system, (buildResponsesInput lib messages none system).filterMap itemSends =
    messages.filterMap (messageSends lib)
  /-- After a tool round the chained input is the outputs of the round, in the order
  of its calls, and the user input behind them. With such input the prompt leads. -/
  chained : ∀ before a after calls responseId, messages = before ++ a :: after →
    a.role = .assistant → a.toolCalls = some calls → (∀ m ∈ after, m.role ≠ .assistant) →
      ∃ (outputs : List ResponsesInputItem) (answers : List ChatRequestMessage)
          (later : List ChatRequestMessage),
        after = answers ++ later ∧ (∀ m ∈ answers, m.role = .tool) ∧
          (∀ m ∈ later, m.role = .user) ∧
          outputs.map outputCallId = calls.map (fun c => some c.id) ∧
          outputs.filterMap itemSends = answers.filterMap (messageSends lib) ∧
          responsesBodyInput lib false messages (some responseId) =
            ((if later = [] then [] else [ResponsesInputItem.message .system (.str prompt)]) ++
              outputs ++ later.flatMap (contentItems lib), none)

section Contract

variable {prompt : String} {history : List ChatRequestMessage}

/-- A request: the prompt, then a history. -/
def requestMessages (prompt : String) (history : List ChatRequestMessage) :
    List ChatRequestMessage :=
  { role := .system, content := some prompt } :: history

theorem messagesToResponsesInput_append (xs ys : List ChatRequestMessage) :
    messagesToResponsesInput lib system callers (xs ++ ys) =
      messagesToResponsesInput lib system callers xs ++
        messagesToResponsesInput lib system callers ys :=
  List.flatMap_append

theorem systemItems_history (hHistory : ∀ m ∈ history, Projected m) (content : Json) :
    .message .system content ∉ messagesToResponsesInput lib system callers history := by
  intro hIn
  obtain ⟨m, hm, hItem⟩ := List.mem_flatMap.mp hIn
  exact (hHistory m hm).notSystem (message_mem_messageItems hItem).1

theorem buildResponsesInput_inline :
    buildResponsesInput lib (requestMessages prompt history) none .inline =
      .message .system (.str prompt) :: messagesToResponsesInput lib .inline
        (callerIndex (requestMessages prompt history)) history := rfl

theorem buildResponsesInput_hoisted :
    buildResponsesInput lib (requestMessages prompt history) none .hoisted =
      messagesToResponsesInput lib .hoisted
        (callerIndex (requestMessages prompt history)) history := rfl

theorem outputsIntroduced_request
    (hIntroduced : ∀ system callers,
      OutputsIntroduced (messagesToResponsesInput lib system callers history)) :
    OutputsIntroduced (buildResponsesInput lib (requestMessages prompt history) none system) := by
  cases system with
  | inline =>
    rw [buildResponsesInput_inline, ← List.singleton_append]
    exact OutputsIntroduced.append (outputsIntroduced_of_none (by simp)) (.inl (hIntroduced _ _))
  | hoisted =>
    rw [buildResponsesInput_hoisted]
    exact hIntroduced _ _

theorem splitSystemPrompt_request (hPrompt : trim prompt ≠ "")
    (hHistory : ∀ m ∈ history, Projected m) :
    splitSystemPrompt (requestMessages prompt history) = some prompt := by
  have hNone : history.filter (fun m => decide (m.role = .system)) = [] := by
    rw [List.filter_eq_nil_iff]
    intro m hm
    simpa using (hHistory m hm).notSystem
  have hSome : prompt ≠ "" := by
    rintro rfl
    exact hPrompt (by decide +kernel)
  have hKept : (some prompt).filter (fun text => !(trim text).isEmpty) = some prompt := by
    simp [Option.filter, hPrompt]
  simp only [splitSystemPrompt, requestMessages, List.filter_cons, decide_true, if_true, hNone,
    List.filterMap_cons, hKept, List.filterMap_nil, String.intercalate_singleton, if_neg hSome]

theorem outputs_of_tools {answers : List ChatRequestMessage}
    {calls : List Session.AssistantToolCall}
    (hContent : ∀ m ∈ answers, m.role = .tool → m.content.isSome = true)
    (hAnswers : answers.map (fun m => (m.role, m.toolCallId)) =
      calls.map (fun c => (Role.tool, some c.id))) :
    (messagesToResponsesInput lib .inline callers answers).map outputCallId =
      calls.map (fun c => some c.id) := by
  induction answers generalizing calls with
  | nil =>
    cases calls with
    | nil => rfl
    | cons c rest => cases hAnswers
  | cons m rest ih =>
    cases calls with
    | nil => cases hAnswers
    | cons c more =>
      rw [List.map_cons, List.map_cons, List.cons.injEq] at hAnswers
      obtain ⟨hHead, hTail⟩ := hAnswers
      obtain ⟨hRole, hId⟩ := Prod.mk.inj hHead
      obtain ⟨hSome, hRest⟩ := List.forall_mem_cons.mp hContent
      obtain ⟨content, hContent⟩ := Option.isSome_iff_exists.mp (hSome hRole)
      have hItems : messageItems lib .inline callers m =
          [.functionCallOutput c.id content (callers.get c.id)] := by
        simp [messageItems, hRole, hId, hContent]
      rw [messagesToResponsesInput] at ih ⊢
      rw [List.flatMap_cons, hItems, List.map_append, ih hRest hTail]
      rfl

theorem messageItems_user (h : ∀ m ∈ messages, m.role = .user) :
    messagesToResponsesInput lib system callers messages = messages.flatMap (contentItems lib) := by
  apply List.flatMap_congr
  intro m hm
  simp [messageItems, replayedItems, callItems, h m hm]

/-- The messages a chained request sends after a tool round. -/
theorem chainInputMessages_round {a : ChatRequestMessage}
    {before answers later : List ChatRequestMessage}
    (hHistory : ∀ m ∈ before ++ a :: (answers ++ later), m.role ≠ .system)
    (ha : a.role = .assistant) (hSome : answers ≠ []) (hTools : ∀ m ∈ answers, m.role = .tool)
    (hUsers : ∀ m ∈ later, m.role = .user) :
    chainInputMessages (requestMessages prompt (before ++ a :: (answers ++ later))) =
      (if later = [] then [] else [{ role := .system, content := some prompt }]) ++
        (answers ++ later) := by
  have hAfter : ∀ m ∈ answers ++ later, m.role ≠ .assistant := by
    intro m hm
    rcases List.mem_append.mp hm with hm | hm
    · simp [hTools m hm]
    · simp [hUsers m hm]
  rw [requestMessages, chainInputMessages_of_prompt rfl hHistory ha hAfter]
  congr 1
  cases later with
  | nil =>
    have hAll : answers.all (fun m => decide (m.role = .tool)) = true :=
      List.all_eq_true.mpr fun m hm => decide_eq_true (hTools m hm)
    simp [hSome, hAll]
  | cons m rest =>
    have hUser : m.role = .user := hUsers m List.mem_cons_self
    simp [hUser]

theorem chained_request {before after : List ChatRequestMessage} {a : ChatRequestMessage}
    {calls : List Session.AssistantToolCall} (hHistory : ∀ m ∈ before ++ a :: after, Projected m)
    (hAnswered : CallsAnswered (before ++ a :: after))
    (hFollow : ToolsFollow (before ++ a :: after)) (ha : a.role = .assistant)
    (hCalls : a.toolCalls = some calls) (hAfter : ∀ m ∈ after, m.role ≠ .assistant)
    (responseId : String) :
    ∃ (outputs : List ResponsesInputItem) (answers : List ChatRequestMessage)
        (later : List ChatRequestMessage),
      after = answers ++ later ∧ (∀ m ∈ answers, m.role = .tool) ∧
        (∀ m ∈ later, m.role = .user) ∧
        outputs.map outputCallId = calls.map (fun c => some c.id) ∧
        outputs.filterMap itemSends = answers.filterMap (messageSends lib) ∧
        responsesBodyInput lib false (requestMessages prompt (before ++ a :: after))
            (some responseId) =
          ((if later = [] then [] else [ResponsesInputItem.message .system (.str prompt)]) ++
            outputs ++ later.flatMap (contentItems lib), none) := by
  have hSuffix : (a :: after) <:+ before ++ a :: after := List.suffix_append _ _
  have hRound := hAnswered a after hSuffix (.inl (by simp [ha]))
  rw [hCalls, Option.getD_some] at hRound
  obtain ⟨answers, later, rfl, hAnswers, hLater⟩ := hRound
  have hTail : ∀ m ∈ answers ++ later, Projected m := fun m hm =>
    hHistory m (hSuffix.subset (List.mem_cons_of_mem _ hm))
  have hTools : ∀ m ∈ answers, m.role = .tool := by
    intro m hm
    have hPair : (m.role, m.toolCallId) ∈ calls.map (fun c => (Role.tool, some c.id)) := by
      rw [← hAnswers]
      exact List.mem_map_of_mem hm
    obtain ⟨c, -, hEq⟩ := List.mem_map.mp hPair
    exact (Prod.mk.inj hEq).1.symm
  have hUsers : ∀ m ∈ later, m.role = .user := by
    have hLaterFollow : ToolsFollow later := List.IsChain.suffix hFollow
      ((List.suffix_append answers later).trans ((List.suffix_cons a _).trans hSuffix))
    apply users_of_toolsFollow hLaterFollow hLater
    intro m hm
    exact ⟨(hTail m (List.mem_append_right _ hm)).notSystem, hAfter m (List.mem_append_right _ hm)⟩
  have hSome : answers ≠ [] := by
    rintro rfl
    have hNil : calls = [] := List.map_eq_nil_iff.mp hAnswers.symm
    exact (hHistory a (hSuffix.subset List.mem_cons_self)).calls (hNil ▸ hCalls)
  have hChain : chainInputMessages (requestMessages prompt (before ++ a :: (answers ++ later))) =
      (if later = [] then [] else [{ role := .system, content := some prompt }]) ++
        (answers ++ later) :=
    chainInputMessages_round (fun m hm => (hHistory m hm).notSystem) ha hSome hTools hUsers
  refine ⟨messagesToResponsesInput lib .inline
    (callerIndex (requestMessages prompt (before ++ a :: (answers ++ later)))) answers,
    answers, later, rfl, hTools, hUsers, ?_, itemSends_messagesToResponsesInput _, ?_⟩
  · apply outputs_of_tools _ hAnswers
    exact fun m hm => (hTail m (List.mem_append_left _ hm)).tool
  · rw [responsesBodyInput, if_neg Bool.false_ne_true, buildResponsesInput]
    simp only [Option.isSome_some, if_true, hChain]
    rw [messagesToResponsesInput_append, messagesToResponsesInput_append, messageItems_user hUsers,
      List.append_assoc]
    split <;> rfl

theorem responsesInputContract_of_history (hPrompt : trim prompt ≠ "")
    (hHistory : ∀ m ∈ history, Projected m) (hAnswered : CallsAnswered history)
    (hFollow : ToolsFollow history)
    (hIntroduced : ∀ system callers,
      OutputsIntroduced (messagesToResponsesInput lib system callers history)) :
    ResponsesInputContract lib prompt (requestMessages prompt history) where
  introduced := fun system => outputsIntroduced_request hIntroduced
  paired := fun system before callId output caller after hOnce hItems =>
    one_call_before (outputsIntroduced_request hIntroduced) hOnce hItems
  nonempty := by
    intro system role content hIn
    obtain ⟨m, hm, hItem⟩ := List.mem_flatMap.mp hIn
    obtain ⟨hRole, ⟨hSystem, text, hText, rfl⟩ | ⟨-, hSolid⟩⟩ := message_mem_messageItems hItem
    · rcases List.mem_cons.mp hm with rfl | hm
      · cases hText
        simpa [contentIsEmpty] using hPrompt
      · exact absurd (hRole.trans hSystem) (hHistory m hm).notSystem
    · exact hSolid
  inline := ⟨_, rfl, systemItems_history hHistory⟩
  hoisted := by
    intro previousResponseId
    refine ⟨buildResponsesInput lib (requestMessages prompt history) none .hoisted, ?_, ?_⟩
    · rw [responsesBodyInput, if_pos rfl, splitSystemPrompt_request hPrompt hHistory]
    · rw [buildResponsesInput_hoisted]
      exact systemItems_history hHistory
  order := fun system => itemSends_messagesToResponsesInput _
  chained := by
    intro before a after calls responseId hMessages ha hCalls hAfter
    -- the prompt is not an assistant message, so `a` stands in the history
    cases before with
    | nil =>
      cases (List.cons.inj hMessages).1
      cases ha
    | cons head before =>
      have hSplit : history = before ++ a :: after := (List.cons.inj hMessages).2
      subst hSplit
      exact chained_request hHistory hAnswered hFollow ha hCalls hAfter responseId

end Contract

/-- The input of every Responses request that a session can build. -/
theorem responsesInput_wellFormed {env : Env} {config : SessionConfig} {slug : Option String}
    {actions : List Action} {s : System} {os : List Output} {turns : Turns}
    (h : (Session.system env).exec (System.init env config slug) actions = some (s, os))
    (hTurns : Holds env s turns) (lib : WireLib) (p : SystemContentParams)
    (providerSlug model : String) (inFlightFromTurn : Option Nat) :
    ResponsesInputContract lib (buildSystemContent p)
      (buildChatRequestMessages env turns (some (buildSystemContent p)) providerSlug model
        inFlightFromTurn) := by
  have hOk : TurnsOk turns := turnsOk_of_holds h hTurns
  have hPaired : ∀ e ∈ turns.entries, e.2.Paired := fun e he => (hOk e he).1.paired
  apply responsesInputContract_of_history (trim_buildSystemContent p)
  · intro m hm
    obtain ⟨e, -, hm⟩ := List.mem_flatMap.mp hm
    split at hm
    · cases hm
    · exact projected_of_mem_turnMessages hm
  · exact (callsAnswered_history hPaired).1
  · exact toolsFollow_history hPaired
  · exact fun system callers => outputsIntroduced_history hPaired

/-- Two rounds of one call each, the second under an id that the provider gives. The
second answer has an image. -/
def screenshotRun (second : String) : List Action :=
  sampleRun "look around"
    [.enter [], .iterate 1 "" 0,
      .toolUse { toolCalls := [⟨"call_1", "screenshot", "\x7b\x7d", some ⟨"direct", ""⟩⟩] },
      .tool .dispatch, .tool (.handle 0 (.finished { content := "taken" }) none),
      .toolsDone true, .iterate 2 "" 0,
      .toolUse { toolCalls := [⟨second, "screenshot", "\x7b\x7d", some ⟨"program", "p1"⟩⟩] },
      .tool .dispatch,
      .tool (.handle 0 (.finished
        { content := "again", imageRef := some ⟨"/a.png", "image/png", 1, 1, [1, 2]⟩ }) none)] 0

theorem responsesInput_wellFormed_screenshots :
    ∃ s os w,
      (Session.system sampleEnv).exec (System.init sampleEnv (sampleConfig "chained") none)
          (screenshotRun "call_2") = some (s, os) ∧
        s.worker = some w ∧ w.session.turns.keys = [0, 1] ∧
        ∀ lib p, ResponsesInputContract lib (buildSystemContent p)
          (buildChatRequestMessages sampleEnv w.session.turns (some (buildSystemContent p))
            "openai" "chained" (some 0)) := by
  have hCheck : (Session.system sampleEnv).check
      (System.init sampleEnv (sampleConfig "chained") none) (screenshotRun "call_2")
      (fun s _ => s.worker.any fun w => decide (w.session.turns.keys = [0, 1])) = true := by
    decide +kernel
  obtain ⟨s, os, hExec, hTest⟩ := Machine.exists_of_check hCheck
  obtain ⟨w, hWorker, hTest⟩ := (Option.any_eq_true _ _).mp hTest
  exact ⟨s, os, w, hExec, hWorker, of_decide_eq_true hTest, fun lib p =>
    responsesInput_wellFormed hExec (.inr (.inl ⟨w, hWorker, rfl⟩)) lib p _ _ _⟩

/-- The messages of these rounds when both calls have the same id. -/
def screenshotMessages : List ChatRequestMessage :=
  [{ role := .user, content := some "look around", origin := some ⟨0, .user "look around"⟩ },
    { role := .assistant
      content := none
      toolCalls := some [⟨"call_1", "function", "screenshot", "\x7b\x7d", some ⟨"direct", ""⟩⟩]
      origin := some ⟨0, .assistant none
        [⟨"call_1", "screenshot", "\x7b\x7d", some ⟨"direct", ""⟩⟩]⟩ },
    { role := .tool
      content := some "taken"
      toolCallId := some "call_1"
      origin := some ⟨0, .tool "call_1" "taken"⟩ },
    { role := .assistant
      content := none
      toolCalls := some [⟨"call_1", "function", "screenshot", "\x7b\x7d", some ⟨"program", "p1"⟩⟩]
      origin := some ⟨1, .assistant none
        [⟨"call_1", "screenshot", "\x7b\x7d", some ⟨"program", "p1"⟩⟩]⟩ },
    { role := .tool
      content := some "again"
      toolCallId := some "call_1"
      origin := some ⟨1, .tool "call_1" "again"⟩ },
    { role := .user
      content := some "[image from `screenshot` tool result: /a.png]"
      images := [⟨[1, 2], "image/png"⟩]
      origin := some ⟨1, .image "call_1" "/a.png"⟩ }]

/-- With the id given twice, the first output has the attribution of the second
call and the second output has both calls before it. Behind the image the chained
input starts with the prompt. -/
theorem responsesInput_sharedCallId :
    ∃ s os w,
      (Session.system sampleEnv).exec (System.init sampleEnv (sampleConfig "chained") none)
          (screenshotRun "call_1") = some (s, os) ∧
        s.worker = some w ∧
        ∀ lib p messages,
          messages = buildChatRequestMessages sampleEnv w.session.turns
            (some (buildSystemContent p)) "openai" "chained" (some 0) →
          (∃ prompt user call output call' output' image,
            buildResponsesInput lib messages none .inline =
                [prompt, user, call, output, call', output', image] ∧
              call = .functionCall "call_1" "screenshot" "\x7b\x7d" (some ⟨"direct", ""⟩) ∧
              output = .functionCallOutput "call_1" "taken" (some ⟨"program", "p1"⟩) ∧
              call' = .functionCall "call_1" "screenshot" "\x7b\x7d" (some ⟨"program", "p1"⟩) ∧
              output' = .functionCallOutput "call_1" "again" (some ⟨"program", "p1"⟩)) ∧
            (buildResponsesInput lib messages (some "resp_1") .inline).head? =
              some (.message .system (.str (buildSystemContent p))) := by
  have hCheck : (Session.system sampleEnv).check
      (System.init sampleEnv (sampleConfig "chained") none) (screenshotRun "call_1")
      (fun s _ => s.worker.any fun w => decide (historyMessages sampleEnv "openai" "chained"
        (some 0) w.session.turns.entries = screenshotMessages)) = true := by
    decide +kernel
  obtain ⟨s, os, hExec, hTest⟩ := Machine.exists_of_check hCheck
  obtain ⟨w, hWorker, hTest⟩ := (Option.any_eq_true _ _).mp hTest
  refine ⟨s, os, w, hExec, hWorker, ?_⟩
  rintro lib p messages rfl
  rw [buildChatRequestMessages, of_decide_eq_true hTest]
  generalize buildSystemContent p = prompt
  exact ⟨⟨_, _, _, _, _, _, _, rfl, rfl, rfl, rfl, rfl⟩, rfl⟩

end Choreographr.Protocols
