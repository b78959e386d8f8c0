import Choreographr.Protocols.Proofs.Google
import Choreographr.Session.Proofs.Calls
import Choreographr.Session.Proofs.Pairing

/-!
# Function calls and responses

The id of a Gemini call is `fc_` and the name of its function, and the response to
a call is named by that id. So in a request built from Gemini's replies the
responses after a content stand one for each call, in the order of the calls, under
the names `fc_…`; never under the name of the function. Two calls of one function
have the same id.
-/

namespace Choreographr.Protocols.Google

open Session Lib

/-! ## Contents -/

/-- The function a part calls. -/
def PartPayload.calledName : PartPayload → Option String
  | .functionCall name _ _ => some name
  | _ => none

/-- The name of a response. -/
def PartPayload.responseName : PartPayload → Option String
  | .functionResponse name _ => some name
  | _ => none

namespace ContentPayload

def calledNames (c : ContentPayload) : List String := c.parts.filterMap PartPayload.calledName

def responseNames (c : ContentPayload) : List String :=
  c.parts.filterMap PartPayload.responseName

end ContentPayload

/-- The names of the responses that a list of contents starts with. -/
def leadingResponses (contents : List ContentPayload) : List String :=
  (contents.takeWhile fun c => c.responseNames ≠ []).flatMap ContentPayload.responseNames

/-- Each content that calls functions is followed by one response for each call, in
order, under the name that `answer` gives to the function. -/
def NamedBy (answer : String → String) (contents : List ContentPayload) : Prop :=
  ∀ c after, (c :: after) <:+ contents → c.calledNames ≠ [] →
    leadingResponses after = c.calledNames.map answer

/-- The list does not start with a response. -/
def NoResponseFirst (contents : List ContentPayload) : Prop :=
  ∀ c ∈ contents.head?, c.responseNames = []

section Contents

variable {answer : String → String} {c : ContentPayload} {xs ys : List ContentPayload}

theorem NoResponseFirst.append (hx : NoResponseFirst xs) (hy : NoResponseFirst ys) :
    NoResponseFirst (xs ++ ys) := by
  cases xs with
  | nil => exact hy
  | cons x rest => exact hx

theorem noResponseFirst_of_forall (h : ∀ c ∈ xs, c.responseNames = []) : NoResponseFirst xs :=
  fun c hc => h c (List.mem_of_mem_head? hc)

theorem leadingResponses_append (hx : ∀ c ∈ xs, c.responseNames ≠ []) (hy : NoResponseFirst ys) :
    leadingResponses (xs ++ ys) = xs.flatMap ContentPayload.responseNames := by
  unfold leadingResponses
  rw [List.takeWhile_append_of_pos fun c hc => decide_eq_true (hx c hc)]
  cases ys with
  | nil => simp
  | cons y rest =>
    have hFirst : y.responseNames = [] := hy y rfl
    simp [hFirst]

theorem leadingResponses_append_of_noResponseFirst (hy : NoResponseFirst ys) :
    leadingResponses (xs ++ ys) = leadingResponses xs := by
  unfold leadingResponses
  induction xs with
  | nil =>
    have hNil : ∀ c ∈ ([] : List ContentPayload), c.responseNames ≠ [] := by simp
    simpa [leadingResponses] using leadingResponses_append hNil hy
  | cons x rest ih =>
    rw [List.cons_append, List.takeWhile_cons, List.takeWhile_cons]
    split
    · rw [List.flatMap_cons, List.flatMap_cons, ih]
    · rfl

theorem namedBy_cons : NamedBy answer (c :: xs) ↔
    (c.calledNames ≠ [] → leadingResponses xs = c.calledNames.map answer) ∧
      NamedBy answer xs := by
  constructor
  · intro h
    exact ⟨h c xs (List.suffix_refl _),
      fun c' after hSuffix => h c' after (hSuffix.trans (List.suffix_cons c xs))⟩
  · rintro ⟨hHead, hRest⟩ c' after hSuffix
    rcases List.suffix_cons_iff.mp hSuffix with hEq | hSuffix
    · cases hEq
      exact hHead
    · exact hRest c' after hSuffix

theorem namedBy_of_noCalls (h : ∀ c ∈ xs, c.calledNames = []) : NamedBy answer xs := by
  intro c after hSuffix hCalls
  exact absurd (h c (hSuffix.subset List.mem_cons_self)) hCalls

theorem NamedBy.append (hx : NamedBy answer xs) (hy : NamedBy answer ys)
    (hFirst : NoResponseFirst ys) : NamedBy answer (xs ++ ys) := by
  induction xs with
  | nil => exact hy
  | cons x rest ih =>
    obtain ⟨hHead, hRest⟩ := namedBy_cons.mp hx
    rw [List.cons_append]
    refine namedBy_cons.mpr ⟨fun hCalls => ?_, ih hRest⟩
    rw [leadingResponses_append_of_noResponseFirst hFirst]
    exact hHead hCalls

theorem calledNames_eq_nil {answer' : String → String} (h : NamedBy answer xs)
    (h' : NamedBy answer' xs) (hNe : ∀ name, answer name ≠ answer' name) :
    ∀ c ∈ xs, c.calledNames = [] := by
  intro c hc
  by_contra hCalls
  obtain ⟨before, after, rfl⟩ := List.append_of_mem hc
  have hSuffix : (c :: after) <:+ before ++ c :: after := List.suffix_append _ _
  have hBoth := (h c after hSuffix hCalls).symm.trans (h' c after hSuffix hCalls)
  obtain ⟨name, rest, hNames⟩ := List.exists_cons_of_ne_nil hCalls
  rw [hNames] at hBoth
  exact hNe name (List.cons.inj hBoth).1

end Contents

/-! ## Messages -/

/-- The contents of a message that lowers. -/
def lowered (lib : GoogleLib) (msg : ChatRequestMessage) : List ContentPayload :=
  (messageContents lib msg).toOption.getD []

section Messages

variable {lib : GoogleLib} {msg : ChatRequestMessage}

/-- A request that is built lowers each of its messages. -/
theorem buildMessagePayloads_ok {messages : List ChatRequestMessage}
    {contents : List ContentPayload} {instruction : Option String}
    (h : buildMessagePayloads lib messages = .ok (contents, instruction)) :
    (∀ m ∈ messages, messageContents lib m = .ok (lowered lib m)) ∧
      contents = messages.flatMap (lowered lib) := by
  rw [buildMessagePayloads] at h
  cases hPayloads : messages.mapM (messageContents lib) with
  | error e =>
    rw [hPayloads] at h
    cases h
  | ok payloads =>
    rw [hPayloads] at h
    cases h
    exact flatten_of_mapM_ok hPayloads

theorem lowered_user (hRole : msg.role = .user) :
    ∀ c ∈ lowered lib msg, c.calledNames = [] ∧ c.responseNames = [] := by
  intro c hc
  have hPlain : ∀ part ∈ ((msg.content.filter (· ≠ "")).map fun text =>
        PartPayload.text text none).toList ++ msg.images.filterMap (googleInlineImage lib),
      part.calledName = none ∧ part.responseName = none := by
    intro part hPart
    rcases List.mem_append.mp hPart with hPart | hPart
    · obtain ⟨text, -, rfl⟩ := Option.map_eq_some_iff.mp (Option.mem_toList.mp hPart)
      exact ⟨rfl, rfl⟩
    · obtain ⟨image, -, hImage⟩ := List.mem_filterMap.mp hPart
      rw [googleInlineImage] at hImage
      split at hImage
      · cases hImage
        exact ⟨rfl, rfl⟩
      · cases hImage
  rw [lowered, messageContents, hRole] at hc
  cases List.mem_singleton.mp hc
  exact ⟨List.filterMap_eq_nil_iff.mpr fun part hPart => (hPlain part hPart).1,
    List.filterMap_eq_nil_iff.mpr fun part hPart => (hPlain part hPart).2⟩

theorem lowered_tool (hRole : msg.role = .tool) :
    ∃ c, lowered lib msg = [c] ∧ c.calledNames = [] ∧
      c.responseNames = [msg.toolCallId.getD ""] := by
  refine ⟨⟨"user", [.functionResponse (msg.toolCallId.getD "")
    (.obj [("content", .str (msg.content.getD ""))])]⟩, ?_, rfl, rfl⟩
  rw [lowered, messageContents, hRole]
  rfl

theorem sign_names (signature : String) (part : PartPayload) :
    (part.sign signature).calledName = part.calledName ∧
      (part.sign signature).responseName = part.responseName := by
  cases part <;> exact ⟨rfl, rfl⟩

theorem filterMap_modify_sign {f : PartPayload → Option String} {signature : String}
    (hf : ∀ part : PartPayload, f (part.sign signature) = f part) (parts : List PartPayload)
    (i : Nat) : (parts.modify i (PartPayload.sign signature)).filterMap f = parts.filterMap f := by
  induction parts generalizing i with
  | nil => rw [List.modify_nil]
  | cons part rest ih =>
    cases i with
    | zero => rw [List.modify_zero_cons, List.filterMap_cons, List.filterMap_cons, hf]
    | succ i => rw [List.modify_succ_cons, List.filterMap_cons, List.filterMap_cons, ih]

theorem attachThoughtSignatures_names {parts parts' : List PartPayload}
    {artifact : Option ReasoningArtifact}
    (h : attachThoughtSignatures lib parts artifact = .ok parts') :
    parts'.filterMap PartPayload.calledName = parts.filterMap PartPayload.calledName ∧
      parts'.filterMap PartPayload.responseName = parts.filterMap PartPayload.responseName := by
  unfold attachThoughtSignatures at h
  split at h
  · split at h
    · cases h
    · split at h
      · cases h
        exact ⟨rfl, rfl⟩
      · cases h
        exact ⟨filterMap_modify_sign (fun part => (sign_names _ part).1) _ _,
          filterMap_modify_sign (fun part => (sign_names _ part).2) _ _⟩
  · cases h
    exact ⟨rfl, rfl⟩

theorem messageContents_assistant_ok {contents : List ContentPayload} (hRole : msg.role = .assistant)
    (h : messageContents lib msg = .ok contents) :
    ∃ parts, attachThoughtSignatures lib (assistantParts lib msg) msg.reasoningArtifact = .ok parts ∧
      contents = if parts = [] then [] else [⟨"model", parts⟩] := by
  rw [messageContents, hRole] at h
  cases hParts : attachThoughtSignatures lib (assistantParts lib msg) msg.reasoningArtifact with
  | error e =>
    rw [hParts] at h
    cases h
  | ok parts =>
    rw [hParts] at h
    refine ⟨parts, rfl, ?_⟩
    cases parts <;> exact (Except.ok.inj h).symm

/-- An assistant message lowers to at most one content, which calls the functions of
its tool calls. -/
theorem lowered_assistant (hRole : msg.role = .assistant)
    (hOk : messageContents lib msg = .ok (lowered lib msg)) :
    (lowered lib msg).flatMap ContentPayload.calledNames =
        (msg.toolCalls.getD []).map Session.AssistantToolCall.name ∧
      (∀ c ∈ lowered lib msg, c.responseNames = []) ∧ (lowered lib msg).length ≤ 1 := by
  have hCalled : (assistantParts lib msg).filterMap PartPayload.calledName =
      (msg.toolCalls.getD []).map Session.AssistantToolCall.name := by
    rw [assistantParts, List.filterMap_append, List.filterMap_map]
    cases msg.content.filter (· ≠ "") <;>
      simp [PartPayload.calledName, Function.comp_def, List.filterMap_cons]
  have hResponse : (assistantParts lib msg).filterMap PartPayload.responseName = [] := by
    rw [assistantParts, List.filterMap_append, List.filterMap_map]
    cases msg.content.filter (· ≠ "") <;>
      simp [PartPayload.responseName, Function.comp_def, List.filterMap_cons]
  obtain ⟨parts, hParts, hContents⟩ := messageContents_assistant_ok hRole hOk
  obtain ⟨hNames, hNames'⟩ := attachThoughtSignatures_names hParts
  rw [hCalled] at hNames
  rw [hResponse] at hNames'
  rw [hContents]
  split
  · rename_i hNil
    rw [hNil] at hNames
    exact ⟨hNames, by simp, by simp⟩
  · refine ⟨?_, ?_, le_rfl⟩
    · rw [List.flatMap_singleton]
      exact hNames
    · intro c hc
      cases List.mem_singleton.mp hc
      exact hNames'

/-- The tool messages of a turn lower to one response each. -/
theorem lowered_toolMessages (lib : GoogleLib) (id : Nat) (t : Turn) :
    ((toolMessages id t).flatMap (lowered lib)).flatMap ContentPayload.responseNames =
        t.toolResults.map ToolResultRecord.callId ∧
      ∀ c ∈ (toolMessages id t).flatMap (lowered lib),
        c.calledNames = [] ∧ c.responseNames ≠ [] := by
  have hEach : ∀ r : ToolResultRecord, ∃ c,
      lowered lib
        { role := .tool
          content := some r.content
          toolCallId := some r.callId
          origin := some ⟨id, .tool r.callId r.content⟩ } = [c] ∧
      c.calledNames = [] ∧ c.responseNames = [r.callId] := fun r => lowered_tool rfl
  rw [toolMessages, List.flatMap_map]
  constructor
  · rw [List.flatMap_assoc, ← List.flatMap_singleton' (t.toolResults.map _), List.flatMap_map]
    apply List.flatMap_congr
    intro r _
    obtain ⟨c, hc, -, hName⟩ := hEach r
    rw [hc, List.flatMap_singleton, hName]
  · intro c hc
    obtain ⟨r, -, hc⟩ := List.mem_flatMap.mp hc
    obtain ⟨c', hc', hCalled, hName⟩ := hEach r
    rw [hc'] at hc
    cases List.mem_singleton.mp hc
    exact ⟨hCalled, by simp [hName]⟩

end Messages

/-! ## Turns -/

/-- The id of each call is that of a Gemini call. -/
def GeminiIds (calls : List AssistantToolCallRecord) : Prop :=
  ∀ c ∈ calls, c.callId = "fc_" ++ c.name

/-- What the contents of some turns say: the calls of the turns, each answered under
the name of its id. -/
structure Lowered (calls : List AssistantToolCallRecord) (contents : List ContentPayload) :
    Prop where
  called : contents.flatMap ContentPayload.calledNames = calls.map AssistantToolCallRecord.name
  named : NamedBy ("fc_" ++ ·) contents
  first : NoResponseFirst contents

theorem Lowered.append {calls calls' : List AssistantToolCallRecord}
    {xs ys : List ContentPayload} (hx : Lowered calls xs) (hy : Lowered calls' ys) :
    Lowered (calls ++ calls') (xs ++ ys) where
  called := by rw [List.flatMap_append, List.map_append, hx.called, hy.called]
  named := hx.named.append hy.named hy.first
  first := hx.first.append hy.first

theorem lowered_of_plain {xs : List ContentPayload}
    (h : ∀ c ∈ xs, c.calledNames = [] ∧ c.responseNames = []) : Lowered [] xs where
  called := List.flatMap_eq_nil_iff.mpr fun c hc => (h c hc).1
  named := namedBy_of_noCalls fun c hc => (h c hc).1
  first := noResponseFirst_of_forall fun c hc => (h c hc).2

section Turns

variable {lib : GoogleLib} {env : Env} {providerSlug model : String}
  {inFlightFromTurn : Option Nat}

theorem lowered_userMessages {messages : List ChatRequestMessage}
    (h : ∀ m ∈ messages, m.role = .user) : Lowered [] (messages.flatMap (lowered lib)) := by
  apply lowered_of_plain
  intro c hc
  obtain ⟨m, hm, hc⟩ := List.mem_flatMap.mp hc
  exact lowered_user (h m hm) c hc

/-- The assistant message of a turn and the tool messages after it. -/
theorem lowered_round (id : Nat) {t : Turn} (hPaired : t.Paired) (hIds : GeminiIds t.toolCalls)
    (includeArtifact : Bool)
    (hOk : ∀ m ∈ assistantMessage id t includeArtifact,
      messageContents lib m = .ok (lowered lib m)) :
    Lowered t.toolCalls
      ((assistantMessage id t includeArtifact ++ toolMessages id t).flatMap (lowered lib)) := by
  obtain ⟨hNames, hTools⟩ := lowered_toolMessages lib id t
  have hAnswers : ((toolMessages id t).flatMap (lowered lib)).flatMap
      ContentPayload.responseNames =
        (t.toolCalls.map AssistantToolCallRecord.name).map ("fc_" ++ ·) := by
    rw [hNames, hPaired, List.map_map]
    exact List.map_congr_left hIds
  have hToolsCalled : ((toolMessages id t).flatMap (lowered lib)).flatMap
      ContentPayload.calledNames = [] :=
    List.flatMap_eq_nil_iff.mpr fun c hc => (hTools c hc).1
  by_cases hCalls : t.toolCalls = []
  · -- no calls, hence no results
    have hNil : toolMessages id t = [] := by
      have hResults : t.toolResults = [] := by
        rw [Turn.Paired, hCalls] at hPaired
        exact List.map_eq_nil_iff.mp hPaired
      rw [toolMessages, hResults]
      rfl
    rw [hNil, List.append_nil, hCalls]
    apply lowered_of_plain
    intro c hc
    obtain ⟨m, hm, hc⟩ := List.mem_flatMap.mp hc
    have hCalled := hOk m hm
    rw [assistantMessage] at hm
    split at hm
    · rw [List.mem_singleton] at hm
      obtain ⟨hFunctions, hResponses, -⟩ := lowered_assistant (by rw [hm]) hCalled
      have hNone : (m.toolCalls.getD []).map Session.AssistantToolCall.name = [] := by
        rw [hm, hCalls]
        rfl
      rw [hNone] at hFunctions
      exact ⟨List.flatMap_eq_nil_iff.mp hFunctions c hc, hResponses c hc⟩
    · cases hm
  · obtain ⟨m, hMessage, hRole, hFunctions⟩ : ∃ m,
        assistantMessage id t includeArtifact = [m] ∧ m.role = .assistant ∧
          (m.toolCalls.getD []).map Session.AssistantToolCall.name =
            t.toolCalls.map AssistantToolCallRecord.name := by
      rw [assistantMessage, if_pos (by simp [hCalls])]
      refine ⟨_, rfl, rfl, ?_⟩
      simp [hCalls, Function.comp_def]
    rw [hMessage] at hOk ⊢
    obtain ⟨hCalled, hResponses, hLength⟩ :=
      lowered_assistant hRole (hOk m List.mem_cons_self)
    rw [hFunctions] at hCalled
    obtain ⟨c, hc⟩ : ∃ c, lowered lib m = [c] := by
      cases hContents : lowered lib m with
      | nil =>
        rw [hContents] at hCalled
        exact absurd (List.map_eq_nil_iff.mp hCalled.symm) hCalls
      | cons c rest =>
        rw [hContents, List.length_cons] at hLength
        have hRest : rest = [] := List.eq_nil_of_length_eq_zero (by omega)
        exact ⟨c, by rw [hRest]⟩
    rw [hc, List.flatMap_singleton] at hCalled
    rw [List.cons_append, List.nil_append, List.flatMap_cons, hc, List.cons_append,
      List.nil_append]
    refine ⟨?_, namedBy_cons.mpr ⟨fun _ => ?_, ?_⟩, ?_⟩
    · rw [List.flatMap_cons, hCalled, hToolsCalled, List.append_nil]
    · have hNone : NoResponseFirst [] := by simp [NoResponseFirst]
      have hLeading := leadingResponses_append (fun c hc => (hTools c hc).2) hNone
      rw [List.append_nil] at hLeading
      rw [hLeading, hAnswers, hCalled]
    · exact namedBy_of_noCalls fun c hc => (hTools c hc).1
    · intro c' hc'
      cases hc'
      exact hResponses c (by simp [hc])

theorem lowered_turnMessages (id : Nat) {t : Turn} (hPaired : t.Paired)
    (hIds : GeminiIds t.toolCalls)
    (hOk : ∀ m ∈ turnMessages env providerSlug model inFlightFromTurn id t,
      messageContents lib m = .ok (lowered lib m)) :
    Lowered t.toolCalls
      ((turnMessages env providerSlug model inFlightFromTurn id t).flatMap (lowered lib)) := by
  unfold turnMessages at hOk ⊢
  dsimp only at hOk ⊢
  generalize includeReasoningArtifact t providerSlug model _ _ = includeArtifact at hOk ⊢
  rw [List.append_assoc (userMessage id t), List.append_assoc (userMessage id t),
    List.flatMap_append, List.flatMap_append]
  have hUser : Lowered [] ((userMessage id t).flatMap (lowered lib)) :=
    lowered_userMessages fun m hm => (userMessage_plain m hm).1
  have hRound : Lowered t.toolCalls
      ((assistantMessage id t includeArtifact ++ toolMessages id t).flatMap (lowered lib)) := by
    apply lowered_round id hPaired hIds
    intro m hm
    apply hOk
    simp [hm]
  have hImages : ∀ vision attachImages,
      Lowered [] ((toolResultImageMessages id t vision attachImages).flatMap (lowered lib)) :=
    fun _ _ => lowered_userMessages fun m hm => (toolResultImageMessages_plain m hm).1
  rw [← List.nil_append t.toolCalls, ← List.append_nil t.toolCalls]
  exact hUser.append (hRound.append (hImages _ _))

/-- The calls of the live turns, oldest first. -/
def liveCalls (entries : List (Nat × Turn)) : List AssistantToolCallRecord :=
  entries.flatMap fun e => if e.2.undone then [] else e.2.toolCalls

theorem liveCalls_eq_nil_iff {entries : List (Nat × Turn)} :
    liveCalls entries = [] ↔ ∀ e ∈ entries, e.2.undone = false → e.2.toolCalls = [] := by
  rw [liveCalls, List.flatMap_eq_nil_iff]
  apply forall₂_congr
  intro e _
  cases e.2.undone <;> simp

theorem lowered_history {entries : List (Nat × Turn)}
    (hPaired : ∀ e ∈ entries, e.2.Paired) (hIds : ∀ e ∈ entries, GeminiIds e.2.toolCalls)
    (hOk : ∀ m ∈ historyMessages env providerSlug model inFlightFromTurn entries,
      messageContents lib m = .ok (lowered lib m)) :
    Lowered (liveCalls entries)
      ((historyMessages env providerSlug model inFlightFromTurn entries).flatMap
        (lowered lib)) := by
  induction entries with
  | nil => exact lowered_of_plain (by simp [historyMessages])
  | cons e rest ih =>
    rw [historyMessages, List.flatMap_cons] at hOk
    have hRest := ih (fun e he => hPaired e (List.mem_cons_of_mem _ he))
      (fun e he => hIds e (List.mem_cons_of_mem _ he))
      (fun m hm => hOk m (List.mem_append_right _ hm))
    rw [historyMessages, List.flatMap_cons, liveCalls, List.flatMap_cons, List.flatMap_append]
    refine Lowered.append ?_ hRest
    cases hUndone : e.2.undone with
    | true => exact lowered_of_plain (by simp)
    | false =>
      refine lowered_turnMessages e.1 (hPaired e List.mem_cons_self)
        (hIds e List.mem_cons_self) fun m hm => hOk m (List.mem_append_left _ ?_)
      rw [hUndone]
      exact hm

end Turns

/-! ## Replies -/

section Replies

variable {lib : GoogleLib}

theorem toolCall_id {part : ResponsePart} {c : ChatToolCall} (h : part.toolCall lib = some c) :
    c.id = "fc_" ++ c.name := by
  unfold ResponsePart.toolCall at h
  split at h
  · cases h
    rfl
  · cases h

/-- Every part read from a stream keeps the ids of the calls. -/
theorem handleStreamPart_ids {s s' : StreamParts} {part : ResponsePart}
    (h : handleStreamPart lib s part = .ok s')
    (hIds : ∀ c ∈ s.pendingToolCalls, c.id = "fc_" ++ c.name) :
    ∀ c ∈ s'.pendingToolCalls, c.id = "fc_" ++ c.name := by
  unfold handleStreamPart at h
  split at h
  · cases h
    exact hIds
  · cases h
    exact hIds
  · split at h
    · cases h
    · cases h
      intro c hc
      rcases List.mem_append.mp hc with hc | hc
      · exact hIds c hc
      · cases List.mem_singleton.mp hc
        rfl

theorem foldlM_handleStreamPart_ids {parts : List ResponsePart} {s s' : StreamParts}
    (h : parts.foldlM (handleStreamPart lib) s = .ok s')
    (hIds : ∀ c ∈ s.pendingToolCalls, c.id = "fc_" ++ c.name) :
    ∀ c ∈ s'.pendingToolCalls, c.id = "fc_" ++ c.name := by
  induction parts generalizing s with
  | nil =>
    cases h
    exact hIds
  | cons part rest ih =>
    rw [List.foldlM_cons] at h
    cases hPart : handleStreamPart lib s part with
    | error e =>
      rw [hPart] at h
      cases h
    | ok next =>
      rw [hPart] at h
      exact ih h (handleStreamPart_ids hPart hIds)

/-- The reply is one that the adapter read from Gemini, whole or as a stream. -/
def GeminiReply (lib : GoogleLib) (r : ToolUse) : Prop :=
  (∃ response, responseToTurnResult lib response = .ok (.toolUse r)) ∨
    ∃ chunks, streamGenerateContent lib chunks = .ok (.toolUse r)

theorem GeminiReply.ids {r : ToolUse} (h : GeminiReply lib r) :
    ∀ c ∈ r.toolCalls, c.id = "fc_" ++ c.name := by
  rcases h with ⟨response, h⟩ | ⟨chunks, h⟩
  · rw [responseToTurnResult_eq, BlockParts.toTurnResult] at h
    split at h
    · cases h
      intro c hc
      dsimp only at hc
      rw [(parts_eq lib response.parts).2.2] at hc
      obtain ⟨part, -, hPart⟩ := List.mem_filterMap.mp hc
      exact toolCall_id hPart
    · dsimp only at h
      split at h <;> cases h
  · rw [streamGenerateContent, readChunks_eq] at h
    cases hParts : (chunks.flatMap GenerateContentResponse.parts).foldlM (handleStreamPart lib)
        ({} : StreamParts) with
    | error e =>
      rw [hParts] at h
      cases h
    | ok s =>
      have hIds := foldlM_handleStreamPart_ids hParts (by simp)
      rw [hParts] at h
      simp only [Except.map, Except.bind, StreamTexts.toTurnResult] at h
      split at h
      · cases h
      · split at h
        · cases h
          exact hIds
        · split at h <;> cases h

/-- The replies of an action are Gemini's. -/
def FromGemini (lib : GoogleLib) (a : Action) : Prop :=
  ∀ r, a = .worker (.toolUse r) → GeminiReply lib r

theorem FromGemini.repliesWith {a : Action} (h : FromGemini lib a) : a.RepliesWith GeminiIds := by
  rintro e rfl r rfl c hc
  obtain ⟨call, hCall, rfl⟩ := List.mem_map.mp hc
  exact (h r rfl).ids call hCall

end Replies

/-! ## Requests -/

/-- What Gemini needs of a request to match its responses with the calls: within a
turn the ids tell the calls apart, and each call has one response, in the order of
the calls and under the name of the function. -/
structure FunctionsPaired (turns : Turns) (contents : List ContentPayload) : Prop where
  distinct : ∀ e ∈ turns.entries, e.2.undone = false →
    (e.2.toolCalls.map AssistantToolCallRecord.callId).Nodup
  named : NamedBy id contents

theorem fc_ne (name : String) : name ≠ "fc_" ++ name := by
  intro h
  have hLength := congrArg String.length h
  rw [String.length_append] at hLength
  have hPrefix : "fc_".length = 3 := rfl
  omega

theorem nodup_ids_iff {calls : List AssistantToolCallRecord} (h : GeminiIds calls) :
    (calls.map AssistantToolCallRecord.callId).Nodup ↔
      (calls.map AssistantToolCallRecord.name).Nodup := by
  have hIds : calls.map AssistantToolCallRecord.callId =
      (calls.map AssistantToolCallRecord.name).map ("fc_" ++ ·) := by
    rw [List.map_map]
    exact List.map_congr_left h
  rw [hIds]
  exact List.nodup_map_iff fun a b hab => String.append_right_inj "fc_" |>.mp hab

/-- A request built from Gemini's replies pairs its functions exactly when its
history calls none. In any case there is one response for each call, in the order of
the calls, named `fc_` and the function, and the ids of a turn are distinct exactly
when its functions are. -/
theorem functionsPaired_iff {lib : GoogleLib} {env : Env} {config : SessionConfig}
    {slug : Option String} {actions : List Action} {s : System} {os : List Output} {turns : Turns}
    (h : (Session.system env).exec (System.init env config slug) actions = some (s, os))
    (hReplies : ∀ a ∈ actions, FromGemini lib a) (hTurns : Holds env s turns)
    {systemPrompt : Option String} {providerSlug model : String} {inFlightFromTurn : Option Nat}
    {contents : List ContentPayload} {instruction : Option String}
    (hBuild : buildMessagePayloads lib (buildChatRequestMessages env turns systemPrompt
      providerSlug model inFlightFromTurn) = .ok (contents, instruction)) :
    (FunctionsPaired turns contents ↔
        ∀ e ∈ turns.entries, e.2.undone = false → e.2.toolCalls = []) ∧
      NamedBy ("fc_" ++ ·) contents ∧
      ∀ e ∈ turns.entries, (e.2.toolCalls.map AssistantToolCallRecord.callId).Nodup ↔
        (e.2.toolCalls.map AssistantToolCallRecord.name).Nodup := by
  have hPaired : ∀ e ∈ turns.entries, e.2.Paired :=
    fun e he => (turnsOk_of_holds h hTurns e he).1.paired
  have hSystem := systemCalls_exec (P := GeminiIds) (by simp [GeminiIds]) h
    fun a ha => (hReplies a ha).repliesWith
  have hIds : ∀ e ∈ turns.entries, GeminiIds e.2.toolCalls := by
    have hFrom : CallsFrom GeminiIds turns :=
      hTurns.elim hSystem.main (fun w hWorker => (hSystem.worker w hWorker).1) hSystem.rows.load
    exact fun e he => hFrom e.1 e.2 (OrdMap.get?_eq_some_iff.mpr he)
  obtain ⟨hOk, rfl⟩ := buildMessagePayloads_ok hBuild
  have hPrompt : (promptMessages systemPrompt).flatMap (lowered lib) = [] := by
    cases systemPrompt <;> rfl
  rw [buildChatRequestMessages] at hOk
  have hHistory := lowered_history hPaired hIds fun m hm => hOk m (List.mem_append_right _ hm)
  rw [buildChatRequestMessages, List.flatMap_append, hPrompt, List.nil_append]
  refine ⟨⟨fun hFunctions => ?_, fun hNone => ⟨?_, ?_⟩⟩, hHistory.named,
    fun e he => nodup_ids_iff (hIds e he)⟩
  · have hCalled := calledNames_eq_nil hFunctions.named hHistory.named fc_ne
    rw [← List.flatMap_eq_nil_iff, hHistory.called, List.map_eq_nil_iff] at hCalled
    exact liveCalls_eq_nil_iff.mp hCalled
  · intro e he hLive
    rw [hNone e he hLive]
    exact List.nodup_nil
  · apply namedBy_of_noCalls
    have hCalled := hHistory.called
    rw [liveCalls_eq_nil_iff.mpr hNone] at hCalled
    exact List.flatMap_eq_nil_iff.mp hCalled

/-- Two functions called in one reply, and their results. -/
def twoCallsRun (first second : String) : List Action :=
  sampleRun "look around"
    [.enter [], .iterate 1 "" 0,
      .toolUse { toolCalls := [⟨"fc_" ++ first, first, "\x7b\x7d", none⟩,
        ⟨"fc_" ++ second, second, "\x7b\x7d", none⟩] },
      .tool .dispatch, .tool (.handle 0 (.finished { content := "one" }) none),
      .tool (.handle 1 (.finished { content := "two" }) none)] 0

/-- The names in the contents of a request. -/
def contentNames (contents : List ContentPayload) : List (List String × List String) :=
  contents.map fun c => (c.calledNames, c.responseNames)

theorem twoCallsRun_fromGemini (first second : String) :
    ∀ a ∈ twoCallsRun first second, FromGemini sampleLib a := by
  intro a ha r hr
  subst hr
  simp [twoCallsRun, sampleRun] at ha
  subst ha
  exact .inl ⟨⟨[⟨some [.functionCall first (.obj []) none,
    .functionCall second (.obj []) none], none⟩], none⟩, rfl⟩

theorem ok_of_toOption {ε α : Type} {x : Except ε α} {a : α} (h : x.toOption = some a) :
    x = .ok a := by
  cases x with
  | error e => cases h
  | ok b =>
    cases h
    rfl

/-- What the worker's history and the request built from it hold after the run. -/
def twoCallsTest (first second : String) (results : List String)
    (names : List (List String × List String)) (s : System) : Bool :=
  s.worker.any fun w => decide (w.session.turns.entries.flatMap (fun e =>
      e.2.toolResults.map ToolResultRecord.content) = results ∧
    w.session.turns.entries.map (fun e =>
      (e.1, e.2.toolCalls.map AssistantToolCallRecord.callId)) =
        [(0, ["fc_" ++ first, "fc_" ++ second])] ∧
    (buildMessagePayloads sampleLib (buildChatRequestMessages sampleEnv w.session.turns none
      "google" "chained" none)).toOption.map (fun p => contentNames p.1) = some names)

theorem functionsPaired_iff_twoCalls :
    ∃ s os w contents instruction,
      (Session.system sampleEnv).exec (System.init sampleEnv (sampleConfig "chained") none)
          (twoCallsRun "list_files" "shell") = some (s, os) ∧
        s.worker = some w ∧
        buildMessagePayloads sampleLib (buildChatRequestMessages sampleEnv w.session.turns none
          "google" "chained" none) = .ok (contents, instruction) ∧
        contentNames contents = [([], []), (["list_files", "shell"], []),
          ([], ["fc_list_files"]), ([], ["fc_shell"])] ∧
        NamedBy ("fc_" ++ ·) contents ∧
        (FunctionsPaired w.session.turns contents ↔
          ∀ e ∈ w.session.turns.entries, e.2.undone = false → e.2.toolCalls = []) := by
  have hCheck : (Session.system sampleEnv).check
      (System.init sampleEnv (sampleConfig "chained") none) (twoCallsRun "list_files" "shell")
      (fun s _ => twoCallsTest "list_files" "shell" ["one", "two"]
        [([], []), (["list_files", "shell"], []), ([], ["fc_list_files"]), ([], ["fc_shell"])] s) =
        true := by
    decide +kernel
  obtain ⟨s, os, hExec, hTest⟩ := Machine.exists_of_check hCheck
  obtain ⟨w, hWorker, hTest⟩ := (Option.any_eq_true _ _).mp hTest
  obtain ⟨-, -, hNames⟩ := of_decide_eq_true hTest
  obtain ⟨⟨contents, instruction⟩, hBuild, hNames⟩ := Option.map_eq_some_iff.mp hNames
  have hOk := ok_of_toOption hBuild
  obtain ⟨hIff, hNamed, -⟩ := functionsPaired_iff hExec (twoCallsRun_fromGemini _ _)
    (.inr (.inl ⟨w, hWorker, rfl⟩)) hOk
  exact ⟨s, os, w, contents, instruction, hExec, hWorker, hOk, hNames, hNamed, hIff⟩

/-- Two calls of one function: the ids are the same, no response has the name of the
function, and the result of the first call is lost. -/
theorem functionsPaired_fails :
    ∃ s os w contents instruction,
      (Session.system sampleEnv).exec (System.init sampleEnv (sampleConfig "chained") none)
          (twoCallsRun "shell" "shell") = some (s, os) ∧
        (∀ a ∈ twoCallsRun "shell" "shell", FromGemini sampleLib a) ∧
        s.worker = some w ∧
        w.session.turns.entries.flatMap (fun e =>
          e.2.toolResults.map ToolResultRecord.content) = ["two", ""] ∧
        buildMessagePayloads sampleLib (buildChatRequestMessages sampleEnv w.session.turns none
          "google" "chained" none) = .ok (contents, instruction) ∧
        contentNames contents = [([], []), (["shell", "shell"], []), ([], ["fc_shell"]),
          ([], ["fc_shell"])] ∧
        ¬FunctionsPaired w.session.turns contents := by
  have hCheck : (Session.system sampleEnv).check
      (System.init sampleEnv (sampleConfig "chained") none) (twoCallsRun "shell" "shell")
      (fun s _ => twoCallsTest "shell" "shell" ["two", ""]
        [([], []), (["shell", "shell"], []), ([], ["fc_shell"]), ([], ["fc_shell"])] s &&
          s.worker.any fun w => w.session.turns.entries.all fun e => !e.2.undone) = true := by
    decide +kernel
  obtain ⟨s, os, hExec, hTest⟩ := Machine.exists_of_check hCheck
  obtain ⟨hTest, hLive⟩ := (Bool.and_eq_true _ _).mp hTest
  obtain ⟨w, hWorker, hTest⟩ := (Option.any_eq_true _ _).mp hTest
  rw [hWorker, Option.any_some, List.all_eq_true] at hLive
  obtain ⟨hResults, hCalls, hNames⟩ := of_decide_eq_true hTest
  obtain ⟨⟨contents, instruction⟩, hBuild, hNames⟩ := Option.map_eq_some_iff.mp hNames
  refine ⟨s, os, w, contents, instruction, hExec, twoCallsRun_fromGemini _ _, hWorker, hResults,
    ok_of_toOption hBuild, hNames, ?_⟩
  intro hPaired
  obtain ⟨e, rest, hEntries⟩ : ∃ e rest, w.session.turns.entries = e :: rest := by
    apply List.exists_cons_of_ne_nil
    intro hNil
    rw [hNil] at hCalls
    cases hCalls
  have hMem : e ∈ w.session.turns.entries := by
    rw [hEntries]
    exact List.mem_cons_self
  have hIds : e.2.toolCalls.map AssistantToolCallRecord.callId = ["fc_shell", "fc_shell"] := by
    rw [hEntries, List.map_cons] at hCalls
    exact (Prod.mk.inj (List.cons.inj hCalls).1).2
  have hNodup := hPaired.distinct e hMem (by simpa using hLive e hMem)
  rw [hIds] at hNodup
  exact absurd hNodup (by decide)

end Choreographr.Protocols.Google
