import Choreographr.Protocols.Proofs.GooglePairing
import Choreographr.Session.Proofs.Answers

/-!
# Thought signatures

The signatures of the thoughts and the calls of a reply are captured, in the order of
the parts. A request replays the last of them: the last part of a turn's content has
it, whichever part it came with, and no content has one of another turn.
-/

namespace Choreographr.Protocols.Google

open Session Lib

variable {lib : GoogleLib} {r : ChatTurnResult}

/-! ## Capture -/

namespace ResponsePart

def signature : ResponsePart → Option String
  | .text _ _ signature => signature
  | .functionCall _ _ signature => signature

/-- A text part that is no thought. -/
def isAnswer (part : ResponsePart) : Bool := part.answerText.isSome

end ResponsePart

/-- The signatures are captured from the parts: all those of the thoughts and the calls,
in the order of the parts, and none that the parts do not carry. -/
structure Captured (parts : List ResponsePart) (signatures : List String) : Prop where
  complete :
    ((parts.filter (!·.isAnswer)).filterMap ResponsePart.signature).Sublist signatures
  carried : signatures.Sublist (parts.filterMap ResponsePart.signature)

/-- What a part adds to the captured signatures. -/
def kept (part : ResponsePart) : Option String := if part.isAnswer then none else part.signature

theorem captured_kept (parts : List ResponsePart) : Captured parts (parts.filterMap kept) where
  complete := by
    have hKept : (parts.filter (!·.isAnswer)).filterMap ResponsePart.signature =
        parts.filterMap kept := by
      rw [List.filterMap_filter]
      apply List.filterMap_congr
      intro part _
      cases hAnswer : part.isAnswer <;> simp [kept, hAnswer]
    rw [hKept]
  carried := by
    induction parts with
    | nil => exact List.Sublist.refl _
    | cons part rest ih =>
      rw [List.filterMap_cons, List.filterMap_cons, kept]
      cases part.isAnswer <;> cases part.signature <;> simp [ih]

theorem push_signatures (lib : GoogleLib) (parts : CandidateParts) (part : ResponsePart) :
    (parts.push lib part).signatures = parts.signatures ++ (kept part).toList := by
  cases part with
  | text body thought signature =>
    by_cases hThought : thought = some true <;>
      simp [CandidateParts.push, ResponsePart.classify, captureSignature, kept,
        ResponsePart.isAnswer, ResponsePart.answerText, ResponsePart.signature, hThought]
  | functionCall name args signature =>
    simp [CandidateParts.push, ResponsePart.classify, captureSignature, kept,
      ResponsePart.isAnswer, ResponsePart.answerText, ResponsePart.signature]

theorem after_signatures (lib : GoogleLib) (s : StreamParts) (part : ResponsePart) :
    (s.after lib part).signatures = s.signatures ++ (kept part).toList := by
  unfold StreamParts.after
  cases part with
  | text body thought signature =>
    by_cases hThought : thought = some true <;>
      simp [ResponsePart.classify, captureSignature, kept, ResponsePart.isAnswer,
        ResponsePart.answerText, ResponsePart.signature, hThought]
  | functionCall name args signature =>
    simp [ResponsePart.classify, captureSignature, kept, ResponsePart.isAnswer,
      ResponsePart.answerText, ResponsePart.signature]

theorem foldl_push_signatures (lib : GoogleLib) (content : List ResponsePart)
    (parts : CandidateParts) :
    (content.foldl (CandidateParts.push lib) parts).signatures =
      parts.signatures ++ content.filterMap kept := by
  induction content generalizing parts with
  | nil => simp
  | cons part rest ih =>
    rw [List.foldl_cons, ih, push_signatures, List.filterMap_cons]
    cases kept part <;> simp

theorem after_of_handleStreamPart {s s' : StreamParts} {part : ResponsePart}
    (h : handleStreamPart lib s part = .ok s') : s' = s.after lib part := by
  by_cases hRoom : part.isCall = true → s.pendingToolCalls.length < maxToolCalls
  · rw [StreamParts.handleStreamPart_eq lib part hRoom] at h
    exact (Except.ok.inj h).symm
  · cases part with
    | text body thought signature => exact absurd (fun hCall => by cases hCall) hRoom
    | functionCall name args signature =>
      have hFull : maxToolCalls ≤ s.pendingToolCalls.length := by
        by_contra hNot
        exact hRoom fun _ => Nat.not_le.mp hNot
      rw [handleStreamPart] at h
      simp only [ResponsePart.classify, if_pos hFull] at h
      cases h

theorem foldlM_signatures {content : List ResponsePart} {s s' : StreamParts}
    (h : content.foldlM (handleStreamPart lib) s = .ok s') :
    s'.signatures = s.signatures ++ content.filterMap kept := by
  induction content generalizing s with
  | nil =>
    cases h
    simp
  | cons part rest ih =>
    rw [List.foldlM_cons] at h
    cases hPart : handleStreamPart lib s part with
    | error e =>
      rw [hPart] at h
      cases h
    | ok next =>
      rw [hPart] at h
      rw [ih h, after_of_handleStreamPart hPart, after_signatures, List.filterMap_cons]
      cases kept part <;> simp

/-- The artifact of a turn result. -/
def artifactOf : ChatTurnResult → Option ReasoningArtifact
  | .finalText r => r.reasoningArtifact
  | .toolUse r => r.reasoningArtifact

theorem artifactOf_blocks {parts : BlockParts} {usage : Option TokenUsage}
    {artifact : Option ReasoningArtifact} (h : parts.toTurnResult usage artifact = .ok r) :
    artifactOf r = artifact := by
  unfold BlockParts.toTurnResult at h
  split at h
  · cases h
    rfl
  · dsimp only at h
    split at h
    · cases h
    · cases h
      rfl

theorem artifactOf_texts {s : StreamTexts} {isEmpty : Bool} {toolCalls : List ChatToolCall}
    {usage : Option TokenUsage} {artifact : Option ReasoningArtifact}
    (h : s.toTurnResult isEmpty toolCalls usage artifact = .ok r) : artifactOf r = artifact := by
  unfold StreamTexts.toTurnResult at h
  split at h
  · cases h
  · split at h
    · cases h
      rfl
    · split at h
      · cases h
      · cases h
        rfl

theorem responseToTurnResult_captured {response : GenerateContentResponse}
    (h : responseToTurnResult lib response = .ok r) :
    ∃ signatures, Captured response.parts signatures ∧
      artifactOf r = googleSignaturesArtifact lib signatures := by
  rw [responseToTurnResult_eq] at h
  refine ⟨_, captured_kept response.parts, ?_⟩
  rw [artifactOf_blocks h, foldl_push_signatures]
  rfl

/-- The artifact of a streamed reply is made of its captured signatures. -/
theorem streamGenerateContent_captured {chunks : List GenerateContentResponse}
    (h : streamGenerateContent lib chunks = .ok r) :
    ∃ signatures, Captured (chunks.flatMap GenerateContentResponse.parts) signatures ∧
      artifactOf r = googleSignaturesArtifact lib signatures := by
  rw [streamGenerateContent, readChunks_eq] at h
  refine ⟨_, captured_kept _, ?_⟩
  cases hParts : (chunks.flatMap GenerateContentResponse.parts).foldlM (handleStreamPart lib)
      {} with
  | error e =>
    rw [hParts] at h
    cases h
  | ok s =>
    rw [hParts] at h
    have hSignatures := foldlM_signatures hParts
    rw [artifactOf_texts h, hSignatures]
    rfl

/-! ## Replay -/

def PartPayload.signature : PartPayload → Option String
  | .text _ signature => signature
  | .functionCall _ _ signature => signature
  | _ => none

/-- A part without its signature. -/
def PartPayload.erase : PartPayload → PartPayload
  | .text body _ => .text body none
  | .functionCall name args _ => .functionCall name args none
  | part => part

/-- The last part has the signature, and no other part has one. -/
def EndsSigned (signature : Option String) (parts : List PartPayload) : Prop :=
  ∀ (i : Nat) (part : PartPayload), parts[i]? = some part →
    part.signature = if i + 1 = parts.length then signature else none

/-- A part that can be signed, and is not. -/
def PartPayload.isFresh : PartPayload → Bool
  | .text _ none => true
  | .functionCall _ _ none => true
  | _ => false

section Parts

variable {parts parts' : List PartPayload} {msg : ChatRequestMessage}

theorem endsSigned_of_unsigned (h : ∀ part ∈ parts, part.signature = none) :
    EndsSigned none parts := by
  intro i part hPart
  rw [h part (List.mem_of_getElem? hPart), ite_self]

theorem fresh_cases {part : PartPayload} (h : part.isFresh = true) :
    part.signature = none ∧ part.erase = part ∧
      ∀ signature, (part.sign signature).signature = some signature ∧
        (part.sign signature).erase = part := by
  cases part with
  | text body signature =>
    cases signature with
    | none => exact ⟨rfl, rfl, fun _ => ⟨rfl, rfl⟩⟩
    | some signature => cases h
  | functionCall name args signature =>
    cases signature with
    | none => exact ⟨rfl, rfl, fun _ => ⟨rfl, rfl⟩⟩
    | some signature => cases h
  | functionResponse => cases h
  | inlineData => cases h

theorem map_erase_of_fresh (h : ∀ part ∈ parts, part.isFresh = true) :
    parts.map PartPayload.erase = parts := by
  rw [List.map_congr_left fun part hPart => (fresh_cases (h part hPart)).2.1, List.map_id']

/-- Signing the last part signs no other and changes nothing else. -/
theorem endsSigned_sign (h : ∀ part ∈ parts, part.isFresh = true) (signature : String) :
    EndsSigned (some signature)
        (parts.modify (parts.length - 1) (PartPayload.sign signature)) ∧
      (parts.modify (parts.length - 1) (PartPayload.sign signature)).map PartPayload.erase =
        parts := by
  have hEach : ∀ (i : Nat) (part : PartPayload),
      (parts.modify (parts.length - 1) (PartPayload.sign signature))[i]? = some part →
        ∃ old, parts[i]? = some old ∧
          part = (if parts.length - 1 = i then old.sign signature else old) := by
    intro i part hPart
    rw [List.getElem?_modify, Option.map_eq_map, Option.map_eq_some_iff] at hPart
    obtain ⟨old, hOld, rfl⟩ := hPart
    exact ⟨old, hOld, rfl⟩
  constructor
  · intro i part hPart
    obtain ⟨old, hOld, rfl⟩ := hEach i part hPart
    obtain ⟨hNone, -, hSign⟩ := fresh_cases (h old (List.mem_of_getElem? hOld))
    have hLt : i < parts.length := (List.getElem?_eq_some_iff.mp hOld).1
    rw [List.length_modify]
    by_cases hLast : i + 1 = parts.length
    · rw [if_pos hLast, if_pos (by omega)]
      exact (hSign signature).1
    · rw [if_neg hLast, if_neg (by omega)]
      exact hNone
  · apply List.ext_getElem?
    intro i
    rw [List.getElem?_map, List.getElem?_modify]
    cases hOld : parts[i]? with
    | none => rfl
    | some old =>
      obtain ⟨-, hErase, hSign⟩ := fresh_cases (h old (List.mem_of_getElem? hOld))
      by_cases hLast : parts.length - 1 = i
      · simp [hLast, (hSign signature).2]
      · simp [hLast, hErase]

/-- The signature that an artifact replays. -/
def replayedSignature (lib : GoogleLib) : Option ReasoningArtifact → Option String
  | some (.googleSignatures bytes) => (signaturesFromSlice lib bytes).bind List.getLast?
  | _ => none

theorem attachThoughtSignatures_ok {artifact : Option ReasoningArtifact}
    (hFresh : ∀ part ∈ parts, part.isFresh = true)
    (h : attachThoughtSignatures lib parts artifact = .ok parts') :
    EndsSigned (replayedSignature lib artifact) parts' ∧
      parts'.map PartPayload.erase = parts := by
  have hPlain : EndsSigned none parts :=
    endsSigned_of_unsigned fun part hPart => (fresh_cases (hFresh part hPart)).1
  have hErase := map_erase_of_fresh hFresh
  unfold attachThoughtSignatures at h
  split at h
  · rename_i bytes
    rw [replayedSignature]
    split at h
    · cases h
    · rename_i signatures hRead
      rw [hRead, Option.bind_some]
      split at h
      · rename_i hNone
        cases h
        rw [hNone]
        exact ⟨hPlain, hErase⟩
      · rename_i signature hLast
        cases h
        rw [hLast]
        exact endsSigned_sign hFresh signature
  · rename_i hOther
    cases h
    have hNone : replayedSignature lib artifact = none := by
      unfold replayedSignature
      split
      · rename_i bytes
        exact absurd rfl (hOther bytes)
      · rfl
    rw [hNone]
    exact ⟨hPlain, hErase⟩

theorem assistantParts_fresh : ∀ part ∈ assistantParts lib msg, part.isFresh = true := by
  intro part hPart
  rcases List.mem_append.mp hPart with hText | hCall
  · obtain ⟨text, -, rfl⟩ := Option.map_eq_some_iff.mp (Option.mem_toList.mp hText)
    rfl
  · obtain ⟨call, -, rfl⟩ := List.mem_map.mp hCall
    rfl

/-- The content of a message that is not the model's has no signature. -/
theorem messageContents_unsigned {contents : List ContentPayload} (hRole : msg.role ≠ .assistant)
    (h : messageContents lib msg = .ok contents) :
    ∀ c ∈ contents, ∀ part ∈ c.parts, part.signature = none := by
  intro c hc part hPart
  rw [messageContents] at h
  split at h
  · cases h
    cases hc
  · cases h
    cases List.mem_singleton.mp hc
    cases List.mem_singleton.mp hPart
    rfl
  · rename_i hAssistant
    exact absurd hAssistant hRole
  · cases h
    cases List.mem_singleton.mp hc
    rcases List.mem_append.mp hPart with hText | hImage
    · obtain ⟨text, -, rfl⟩ := Option.map_eq_some_iff.mp (Option.mem_toList.mp hText)
      rfl
    · obtain ⟨image, -, hImage⟩ := List.mem_filterMap.mp hImage
      rw [googleInlineImage] at hImage
      split at hImage
      · cases hImage
        rfl
      · cases hImage

theorem messageContents_assistant {contents : List ContentPayload} (hRole : msg.role = .assistant)
    (h : messageContents lib msg = .ok contents) :
    (assistantParts lib msg = [] → contents = []) ∧
      (assistantParts lib msg ≠ [] → ∃ parts, contents = [⟨"model", parts⟩] ∧
        parts.map PartPayload.erase = assistantParts lib msg ∧
        EndsSigned (replayedSignature lib msg.reasoningArtifact) parts) := by
  obtain ⟨parts, hParts, hContents⟩ := messageContents_assistant_ok hRole h
  obtain ⟨hSigned, hErase⟩ := attachThoughtSignatures_ok assistantParts_fresh hParts
  rw [← hErase, List.map_eq_nil_iff, hContents]
  exact ⟨fun hNil => if_pos hNil, fun hNe =>
    ⟨parts, if_neg fun hNil => hNe (List.map_eq_nil_iff.mpr hNil), rfl, hSigned⟩⟩

end Parts

/-! ## Requests -/

/-- What a turn records of a result. -/
def recordedOf : ChatTurnResult → TurnAnswer
  | .finalText r => r.recorded
  | .toolUse r => r.recorded

/-- The worker of a run was given the result. -/
def Replied (actions : List Action) (r : ChatTurnResult) : Prop :=
  (∃ f, r = .finalText f ∧ .worker (.finalText f) ∈ actions) ∨
    ∃ u, r = .toolUse u ∧ .worker (.toolUse u) ∈ actions

/-- The parts of an answer before they are signed. -/
def answerParts (lib : GoogleLib) (answer : TurnAnswer) : List PartPayload :=
  ((answer.text.filter (· ≠ "")).map fun text => PartPayload.text text none).toList ++
    answer.toolCalls.map fun c =>
      PartPayload.functionCall c.name ((lib.fromStr c.argumentsJson).getD .null) none

/-- The content is the answer of a turn, given by a reply of the run, and the signature is
the last that was captured from this reply. -/
def SignedByReply (lib : GoogleLib) (actions : List Action) (turns : Turns) (c : ContentPayload)
    (signature : String) : Prop :=
  ∃ t r, LiveTurn turns t ∧ Replied actions r ∧ t.recorded = recordedOf r ∧
    c.role = "model" ∧ c.parts.map PartPayload.erase = answerParts lib t.recorded ∧
    ∀ signatures, artifactOf r = googleSignaturesArtifact lib signatures →
      signaturesFromSlice lib (lib.toVec (.arr (signatures.map .str))) = some signatures →
      signatures.getLast? = some signature

/-- The signatures of a request. -/
structure SignaturesReplayed (lib : GoogleLib) (actions : List Action) (turns : Turns)
    (messages : List ChatRequestMessage) (contents : List ContentPayload) : Prop where
  /-- A content has a signature on its last part at most, the one of its own reply. -/
  own : ∀ c ∈ contents, ∃ signature, EndsSigned signature c.parts ∧
    ∀ s, signature = some s → SignedByReply lib actions turns c s
  /-- A message with a part is given the signature that its artifact replays. -/
  attached : ∀ m ∈ messages, ∀ signature, assistantParts lib m ≠ [] →
    replayedSignature lib m.reasoningArtifact = some signature →
      ∃ c ∈ contents, c.role = "model" ∧ c.parts.map PartPayload.erase = assistantParts lib m ∧
        EndsSigned (some signature) c.parts

section Requests

theorem replayedSignature_written {signatures : List String} {signature : String}
    (hReplayed : replayedSignature lib (googleSignaturesArtifact lib signatures) =
      some signature)
    (hRead : signaturesFromSlice lib (lib.toVec (.arr (signatures.map .str))) =
      some signatures) :
    signatures.getLast? = some signature := by
  rw [googleSignaturesArtifact] at hReplayed
  split at hReplayed
  · cases hReplayed
  · rw [replayedSignature, hRead] at hReplayed
    exact hReplayed

theorem answersFrom_replies {env : Env} {config : SessionConfig} {slug : Option String}
    {actions : List Action} {s : System} {os : List Output} {turns : Turns}
    (h : (Session.system env).exec (System.init env config slug) actions = some (s, os))
    (hTurns : Holds env s turns) :
    AnswersFrom (fun answer => answer.artifact = none ∨
      ∃ r, Replied actions r ∧ answer = recordedOf r) turns := by
  have hSystem := systemAnswers_exec (P := fun answer => answer.artifact = none ∨
      ∃ r, Replied actions r ∧ answer = recordedOf r) (fun _ => .inl rfl) h
    fun a ha e he => ⟨fun f hf => .inr ⟨.finalText f, .inl ⟨f, rfl, hf ▸ he ▸ ha⟩, rfl⟩,
      fun u hu => .inr ⟨.toolUse u, .inr ⟨u, rfl, hu ▸ he ▸ ha⟩, rfl⟩⟩
  exact hTurns.elim hSystem.main (fun w hWorker => (hSystem.worker w hWorker).1) hSystem.rows.load

theorem assistantParts_eq {t : Turn} {m : ChatRequestMessage} (hText : m.content = t.assistantText)
    (hCalls : m.toolCalls.getD [] = t.toolCalls.map (fun c =>
      { id := c.callId, name := c.name, arguments := c.argumentsJson, caller := c.caller })) :
    assistantParts lib m = answerParts lib t.recorded := by
  rw [assistantParts, answerParts, hText, hCalls, List.map_map]
  rfl

end Requests

/-- The signatures of the thoughts and the calls of a reply, whole or streamed, are
captured in their order. In every request built from the turns of a session a content has
at most one signature, on its last part: the last that was captured from the reply of its
own turn. -/
theorem signatures_captured_and_replayed {lib : GoogleLib} {env : Env} {config : SessionConfig}
    {slug : Option String} {actions : List Action} {s : System} {os : List Output}
    {turns : Turns}
    (h : (Session.system env).exec (System.init env config slug) actions = some (s, os))
    (hTurns : Holds env s turns)
    {systemPrompt : Option String} {providerSlug model : String} {inFlightFromTurn : Option Nat}
    {contents : List ContentPayload} {instruction : Option String}
    (hBuild : buildMessagePayloads lib (buildChatRequestMessages env turns systemPrompt
      providerSlug model inFlightFromTurn) = .ok (contents, instruction)) :
    (∀ response r, responseToTurnResult lib response = .ok r →
      ∃ signatures, Captured response.parts signatures ∧
        artifactOf r = googleSignaturesArtifact lib signatures) ∧
    (∀ chunks r, streamGenerateContent lib chunks = .ok r →
      ∃ signatures, Captured (chunks.flatMap GenerateContentResponse.parts) signatures ∧
        artifactOf r = googleSignaturesArtifact lib signatures) ∧
    SignaturesReplayed lib actions turns (buildChatRequestMessages env turns systemPrompt
      providerSlug model inFlightFromTurn) contents := by
  refine ⟨fun _ _ => responseToTurnResult_captured, fun _ _ => streamGenerateContent_captured, ?_⟩
  have hAnswers := answersFrom_replies h hTurns
  obtain ⟨hOk, rfl⟩ := buildMessagePayloads_ok hBuild
  have hPrompt : ∀ m ∈ promptMessages systemPrompt,
      lowered lib m = [] ∧ m.reasoningArtifact = none := by
    intro m hm
    cases systemPrompt with
    | none => cases hm
    | some prompt =>
      cases List.mem_singleton.mp hm
      exact ⟨rfl, rfl⟩
  constructor
  · intro c hc
    obtain ⟨m, hm, hc⟩ := List.mem_flatMap.mp hc
    have hContents := hOk m hm
    rcases List.mem_append.mp hm with hSystem | hm
    · rw [(hPrompt m hSystem).1] at hc
      cases hc
    obtain ⟨e, he, hNotUndone, hTurn⟩ := mem_historyMessages hm
    rcases turnMessage_cases hTurn with ⟨hRole, -⟩ | ⟨hRole, hText, hCalls, hArtifact⟩
    · refine ⟨none, endsSigned_of_unsigned (messageContents_unsigned hRole hContents c hc), ?_⟩
      intro signature hNone
      cases hNone
    · obtain ⟨hEmpty, hParts⟩ := messageContents_assistant hRole hContents
      by_cases hNil : assistantParts lib m = []
      · rw [hEmpty hNil] at hc
        cases hc
      obtain ⟨parts, hLowered, hErase, hSigned⟩ := hParts hNil
      rw [hLowered] at hc
      cases List.mem_singleton.mp hc
      refine ⟨_, hSigned, fun signature hSignature => ?_⟩
      have hRecorded := hAnswers e.1 e.2 (OrdMap.get?_eq_some_iff.mpr he)
      rcases hArtifact with hNone | hTurnArtifact
      · rw [hNone] at hSignature
        cases hSignature
      rcases hRecorded with hNone | ⟨r, hReplied, hRecorded⟩
      · change e.2.reasoningArtifact = none at hNone
        rw [hTurnArtifact, hNone] at hSignature
        cases hSignature
      refine ⟨e.2, r, ⟨e, he, rfl, hNotUndone⟩, hReplied, hRecorded, rfl,
        hErase.trans (assistantParts_eq hText hCalls), ?_⟩
      intro signatures hSignatures hRead
      have hOwn : e.2.reasoningArtifact = artifactOf r := by
        have hArtifacts := congrArg TurnAnswer.artifact hRecorded
        cases r <;> exact hArtifacts
      rw [hTurnArtifact, hOwn, hSignatures] at hSignature
      exact replayedSignature_written hSignature hRead
  · intro m hm signature hParts hReplays
    rcases List.mem_append.mp hm with hSystem | hHistory
    · rw [(hPrompt m hSystem).2] at hReplays
      cases hReplays
    obtain ⟨e, -, -, hTurn⟩ := mem_historyMessages hHistory
    rcases turnMessage_cases hTurn with ⟨-, -, hNone⟩ | ⟨hRole, -⟩
    · rw [hNone] at hReplays
      cases hReplays
    obtain ⟨parts, hLowered, hErase, hSigned⟩ :=
      (messageContents_assistant hRole (hOk m hm)).2 hParts
    rw [hReplays] at hSigned
    refine ⟨⟨"model", parts⟩, ?_, rfl, hErase, hSigned⟩
    rw [List.mem_flatMap]
    exact ⟨m, hm, by rw [hLowered]; exact List.mem_singleton_self _⟩

/-! ### A run -/

/-- The bytes of `["sig-call"]`. -/
def signatureBytes : Bytes := [91, 34, 115, 105, 103, 45, 99, 97, 108, 108, 34, 93]

/-- `serde_json` on the values of the run below. -/
def signedLib : GoogleLib where
  fromStr text := if text = "\x7b\x7d" then some (.obj []) else none
  toVec
    | .arr [.str "sig-call"] => signatureBytes
    | _ => []
  usageFromValue _ := none
  valueToString _ := "\x7b\x7d"
  fromSlice bytes := if bytes = signatureBytes then some (.arr [.str "sig-call"]) else none
  base64Encode _ := ""

/-- A signed answer, a signed call and a call. -/
def signedReply : GenerateContentResponse where
  candidates := [{
    content := some [.text "Looking." none (some "sig-text"),
      .functionCall "list_files" (.obj []) (some "sig-call"),
      .functionCall "shell" (.obj []) none] }]

/-- The turn result of the reply. -/
def signedToolUse : ToolUse where
  content := some "Looking."
  toolCalls := [⟨"fc_list_files", "list_files", "\x7b\x7d", none⟩,
    ⟨"fc_shell", "shell", "\x7b\x7d", none⟩]
  reasoningArtifact := some (.googleSignatures signatureBytes)

theorem signedReply_result :
    responseToTurnResult signedLib signedReply = .ok (.toolUse signedToolUse) := rfl

/-- A run whose worker is given the reply, and the results of its calls. -/
def signedRun : List Action :=
  .command 0 (.runInput "look around" (some ⟨"google", .ok ([], none)⟩)) ::
    ([.enter [], .iterate 1 "" 0, .toolUse signedToolUse, .tool .dispatch,
      .tool (.handle 0 (.finished { content := "one" }) none),
      .tool (.handle 1 (.finished { content := "two" }) none)] : List WorkerEvent).map Action.worker

/-- The functions and the signatures of the parts. -/
def signatureShape (contents : List ContentPayload) :
    List (List (Option String × Option String)) :=
  contents.map fun c => c.parts.map fun part => (part.calledName, part.signature)

/-- The contents of the request after the run. -/
def signedShape : List (List (Option String × Option String)) :=
  [[(none, none)], [(none, none), (some "list_files", none), (some "shell", some "sig-call")],
    [(none, none)], [(none, none)]]

/-- The request built from the worker's history after the run. -/
theorem exists_signedRun :
    ∃ s os w contents instruction,
      (Session.system sampleEnv).exec (System.init sampleEnv (sampleConfig "gemini") none)
          signedRun = some (s, os) ∧
        s.worker = some w ∧
        buildMessagePayloads signedLib (buildChatRequestMessages sampleEnv w.session.turns none
          "google" "gemini" none) = .ok (contents, instruction) ∧
        signatureShape contents = signedShape := by
  have hCheck : (Session.system sampleEnv).check
      (System.init sampleEnv (sampleConfig "gemini") none) signedRun
      (fun s _ => s.worker.any fun w => decide ((buildMessagePayloads signedLib
        (buildChatRequestMessages sampleEnv w.session.turns none "google" "gemini"
          none)).toOption.map (fun p => signatureShape p.1) = some signedShape)) = true := by
    decide +kernel
  obtain ⟨s, os, hExec, hTest⟩ := Machine.exists_of_check hCheck
  obtain ⟨w, hWorker, hTest⟩ := (Option.any_eq_true _ _).mp hTest
  obtain ⟨⟨contents, instruction⟩, hBuild, hShape⟩ :=
    Option.map_eq_some_iff.mp (of_decide_eq_true hTest)
  exact ⟨s, os, w, contents, instruction, hExec, hWorker, ok_of_toOption hBuild, hShape⟩

theorem signatures_captured_and_replayed_call :
    ∃ s os w contents instruction,
      (Session.system sampleEnv).exec (System.init sampleEnv (sampleConfig "gemini") none)
          signedRun = some (s, os) ∧
        s.worker = some w ∧
        buildMessagePayloads signedLib (buildChatRequestMessages sampleEnv w.session.turns none
          "google" "gemini" none) = .ok (contents, instruction) ∧
        signatureShape contents = signedShape ∧
        SignaturesReplayed signedLib signedRun w.session.turns (buildChatRequestMessages sampleEnv
          w.session.turns none "google" "gemini" none) contents := by
  obtain ⟨s, os, w, contents, instruction, hExec, hWorker, hBuild, hShape⟩ := exists_signedRun
  exact ⟨s, os, w, contents, instruction, hExec, hWorker, hBuild, hShape,
    (signatures_captured_and_replayed hExec (.inr (.inl ⟨w, hWorker, rfl⟩)) hBuild).2.2⟩

/-- The signature of the answer is not captured, and that of the first call is replayed on
the second, which came without one. -/
theorem signature_on_another_part :
    signedReply.parts.filterMap ResponsePart.signature = ["sig-text", "sig-call"] ∧
      responseToTurnResult signedLib signedReply = .ok (.toolUse signedToolUse) ∧
      signedToolUse.reasoningArtifact = googleSignaturesArtifact signedLib ["sig-call"] ∧
      ∃ s os w contents instruction,
        (Session.system sampleEnv).exec (System.init sampleEnv (sampleConfig "gemini") none)
            signedRun = some (s, os) ∧
          s.worker = some w ∧
          buildMessagePayloads signedLib (buildChatRequestMessages sampleEnv w.session.turns none
            "google" "gemini" none) = .ok (contents, instruction) ∧
          signatureShape contents = signedShape :=
  ⟨rfl, signedReply_result, rfl, exists_signedRun⟩

end Choreographr.Protocols.Google
