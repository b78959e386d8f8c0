import Choreographr.Protocols.Google
import Choreographr.Protocols.Proofs.BlockReplies
import Mathlib.Data.List.Forall2

/-!
# Streamed Gemini replies

A stream brings the texts, the calls and the signatures of the whole candidate,
however its parts are spread over the chunks (`Reads`). The two endings differ on
a candidate that has only thoughts, on more calls than the cap, and on blank text;
`streamGenerateContent_agrees_iff` says when they agree.
-/

namespace Choreographr.Protocols.Google

open Session

/-! ## Well-formed streams -/

namespace ResponsePart

/-- A part may be cut: a text into texts of its kind. A call comes whole. -/
def CutInto : ResponsePart → List ResponsePart → Prop
  | .text body thought signature, pieces =>
      ∃ cuts : List (String × Option String), cuts ≠ [] ∧
        pieces = cuts.map (fun cut => .text cut.1 thought cut.2) ∧
        String.join (cuts.map Prod.fst) = body ∧ cuts.filterMap Prod.snd = signature.toList
  | part, pieces => pieces = [part]

def isCall : ResponsePart → Bool
  | .functionCall .. => true
  | .text .. => false

/-- The answer text of a part. -/
def answerText (part : ResponsePart) : Option String :=
  match part.classify with
  | .answer body => some body
  | _ => none

/-- The thought of a part. -/
def thoughtText (part : ResponsePart) : Option String :=
  match part.classify with
  | .reasoning body _ => some body
  | _ => none

/-- The call of a part. -/
def toolCall (lib : GoogleLib) (part : ResponsePart) : Option ChatToolCall :=
  match part.classify with
  | .toolCall name args _ => some (functionCallToToolCall lib name args)
  | _ => none

end ResponsePart

/-- The parts of the first candidate. -/
def GenerateContentResponse.parts (response : GenerateContentResponse) : List ResponsePart :=
  (response.candidates.head?.bind Candidate.content).getD []

/-- The chunks carry a reply: the parts of its candidate, cut and spread over them,
and its usage last. -/
def Carries (response : GenerateContentResponse) (chunks : List GenerateContentResponse) : Prop :=
  (∃ pieces : List (List ResponsePart),
    List.Forall₂ ResponsePart.CutInto response.parts pieces ∧
      chunks.flatMap GenerateContentResponse.parts = pieces.flatten) ∧
    (chunks.filterMap GenerateContentResponse.usageMetadata).getLast? = response.usageMetadata

/-! ## Reading the parts -/

namespace StreamParts

/-- What a part leaves. -/
def after (lib : GoogleLib) (s : StreamParts) (part : ResponsePart) : StreamParts :=
  match part.classify with
  | .answer body => { s with toStreamTexts := s.pushText body }
  | .reasoning body signature =>
      { s with
        toStreamTexts := s.pushReasoning body
        signatures := captureSignature s.signatures signature }
  | .toolCall name args signature =>
      { s with
        hasAnyOutput := true
        signatures := captureSignature s.signatures signature
        pendingToolCalls := s.pendingToolCalls ++ [functionCallToToolCall lib name args] }

variable (lib : GoogleLib) {s : StreamParts}

theorem handleStreamPart_eq (part : ResponsePart)
    (h : part.isCall = true → s.pendingToolCalls.length < maxToolCalls) :
    handleStreamPart lib s part = .ok (s.after lib part) := by
  unfold handleStreamPart after
  cases part with
  | text body thought signature =>
    by_cases hThought : thought = some true <;> simp [ResponsePart.classify, hThought]
  | functionCall name args signature =>
    have hRoom := h rfl
    simp [ResponsePart.classify, Nat.not_le.mpr hRoom]

theorem length_after (part : ResponsePart) :
    (s.after lib part).pendingToolCalls.length =
      s.pendingToolCalls.length + if part.isCall then 1 else 0 := by
  unfold after
  cases part with
  | text body thought signature =>
    by_cases hThought : thought = some true <;>
      simp [ResponsePart.classify, ResponsePart.isCall, hThought]
  | functionCall => simp [ResponsePart.classify, ResponsePart.isCall]

/-- The parts go through as long as their calls fit. -/
theorem foldlM_handleStreamPart (parts : List ResponsePart)
    (h : s.pendingToolCalls.length + parts.countP ResponsePart.isCall ≤ maxToolCalls) :
    parts.foldlM (handleStreamPart lib) s = .ok (parts.foldl (after lib) s) := by
  induction parts generalizing s with
  | nil => rfl
  | cons part rest ih =>
    rw [List.countP_cons] at h
    have hPart : part.isCall = true → s.pendingToolCalls.length < maxToolCalls := by
      intro hCall
      rw [if_pos hCall] at h
      omega
    have hRest : (s.after lib part).pendingToolCalls.length +
        rest.countP ResponsePart.isCall ≤ maxToolCalls := by
      rw [length_after]
      omega
    rw [List.foldlM_cons, handleStreamPart_eq lib part hPart]
    exact ih hRest

/-- With more calls than the cap the stream ends in an error. -/
theorem foldlM_handleStreamPart_error (parts : List ResponsePart)
    (hLength : s.pendingToolCalls.length ≤ maxToolCalls)
    (h : maxToolCalls < s.pendingToolCalls.length + parts.countP ResponsePart.isCall) :
    ∃ message, parts.foldlM (handleStreamPart lib) s = .error (.io message) := by
  induction parts generalizing s with
  | nil =>
    simp only [List.countP_nil] at h
    omega
  | cons part rest ih =>
    rw [List.countP_cons] at h
    rw [List.foldlM_cons]
    by_cases hPart : part.isCall = true → s.pendingToolCalls.length < maxToolCalls
    · rw [handleStreamPart_eq lib part hPart]
      apply ih
      · rw [length_after]
        split
        · rename_i hCall
          have := hPart hCall
          omega
        · omega
      · rw [length_after]
        omega
    · have hCall : part.isCall = true := by
        by_contra hNot
        exact hPart fun hIs => absurd hIs hNot
      have hFull : maxToolCalls ≤ s.pendingToolCalls.length := by
        by_contra hNot
        exact hPart fun _ => Nat.not_le.mp hNot
      cases part with
      | text => cases hCall
      | functionCall name args signature =>
        refine ⟨"too many tool calls (max " ++ toString maxToolCalls ++ ")", ?_⟩
        rw [handleStreamPart]
        simp only [ResponsePart.classify, if_pos hFull]
        rfl

theorem foldl_answer (s : StreamParts) {thought : Option Bool} (hThought : thought ≠ some true)
    (cuts : List (String × Option String)) :
    (cuts.map fun cut => ResponsePart.text cut.1 thought cut.2).foldl (after lib) s =
      { s with toStreamTexts := s.pushText (String.join (cuts.map Prod.fst)) } := by
  induction cuts generalizing s with
  | nil => simp [StreamTexts.pushText]
  | cons cut rest ih =>
    have hCut : s.after lib (.text cut.1 thought cut.2) =
        { s with toStreamTexts := s.pushText cut.1 } := by
      simp [after, ResponsePart.classify, hThought]
    rw [List.map_cons, List.foldl_cons, hCut, ih]
    simp only [StreamTexts.pushText_pushText, List.map_cons, String.join_cons]

theorem foldl_thought (s : StreamParts) (cuts : List (String × Option String)) :
    (cuts.map fun cut => ResponsePart.text cut.1 (some true) cut.2).foldl (after lib) s =
      { s with
        toStreamTexts := s.pushReasoning (String.join (cuts.map Prod.fst))
        signatures := s.signatures ++ cuts.filterMap Prod.snd } := by
  induction cuts generalizing s with
  | nil => simp [StreamTexts.pushReasoning]
  | cons cut rest ih =>
    have hCut : s.after lib (.text cut.1 (some true) cut.2) =
        { s with
          toStreamTexts := s.pushReasoning cut.1
          signatures := s.signatures ++ cut.2.toList } := rfl
    rw [List.map_cons, List.foldl_cons, hCut, ih]
    cases hSignature : cut.2 <;> simp [StreamTexts.pushReasoning_pushReasoning, hSignature]

/-- The stream has what the parts of the candidate read so far have given. -/
structure Reads (s : StreamParts) (parts : CandidateParts) : Prop where
  text : s.fullText = String.join parts.textParts
  reasoning : s.fullReasoning = String.join parts.reasoningParts
  calls : s.pendingToolCalls = parts.toolCalls
  signatures : s.signatures = parts.signatures
  output : s.toStreamTexts.Tracks (s.pendingToolCalls ≠ [])

theorem Reads.part {parts : CandidateParts} (h : s.Reads parts) {part : ResponsePart}
    {pieces : List ResponsePart} (hPieces : part.CutInto pieces) :
    (pieces.foldl (after lib) s).Reads (parts.push lib part) := by
  cases part with
  | text body thought signature =>
    obtain ⟨cuts, _, rfl, rfl, hSignature⟩ := hPieces
    by_cases hThought : thought = some true
    · subst hThought
      rw [foldl_thought lib]
      have hPush : parts.push lib
          (.text (String.join (cuts.map Prod.fst)) (some true) signature) =
          { parts with
            signatures := parts.signatures ++ signature.toList
            reasoningParts := parts.reasoningParts ++ [String.join (cuts.map Prod.fst)] } := rfl
      rw [hPush, hSignature]
      refine ⟨?_, ?_, h.calls, ?_, h.output.pushReasoning _⟩
      · simp [h.text]
      · simp [h.reasoning]
      · simp [h.signatures]
    · rw [foldl_answer lib s hThought]
      have hPush : parts.push lib
          (.text (String.join (cuts.map Prod.fst)) thought signature) =
          { parts with textParts := parts.textParts ++ [String.join (cuts.map Prod.fst)] } := by
        simp [CandidateParts.push, ResponsePart.classify, hThought]
      rw [hPush]
      refine ⟨?_, ?_, h.calls, h.signatures, h.output.pushText _⟩
      · simp [h.text]
      · simp [h.reasoning]
  | functionCall name args signature =>
    have hOne : pieces = [.functionCall name args signature] := hPieces
    subst hOne
    refine ⟨h.text, h.reasoning, ?_, ?_, ?_⟩
    · simp [after, ResponsePart.classify, CandidateParts.push, h.calls]
    · simp [after, ResponsePart.classify, CandidateParts.push, h.signatures]
    · simp [after, ResponsePart.classify, StreamTexts.Tracks]

theorem Reads.parts {parts : CandidateParts} (h : s.Reads parts) {content : List ResponsePart}
    {pieces : List (List ResponsePart)} (hPieces : List.Forall₂ ResponsePart.CutInto content pieces) :
    (pieces.flatten.foldl (after lib) s).Reads
      (content.foldl (CandidateParts.push lib) parts) := by
  induction hPieces generalizing s parts with
  | nil => exact h
  | cons hPart _ ih =>
    rw [List.flatten_cons, List.foldl_append, List.foldl_cons]
    exact ih (h.part lib hPart)

theorem empty_reads : ({} : StreamParts).Reads {} where
  text := rfl
  reasoning := rfl
  calls := rfl
  signatures := rfl
  output := by simp [StreamTexts.Tracks]

theorem countP_pieces {part : ResponsePart} {pieces : List ResponsePart}
    (h : part.CutInto pieces) :
    pieces.countP ResponsePart.isCall = if part.isCall then 1 else 0 := by
  cases part with
  | text body thought signature =>
    obtain ⟨cuts, _, rfl, _, _⟩ := h
    rw [List.countP_map]
    simp [ResponsePart.isCall, Function.comp_def]
  | functionCall name args signature =>
    have hOne : pieces = [.functionCall name args signature] := h
    subst hOne
    rfl

theorem countP_flatten {content : List ResponsePart} {pieces : List (List ResponsePart)}
    (h : List.Forall₂ ResponsePart.CutInto content pieces) :
    pieces.flatten.countP ResponsePart.isCall = content.countP ResponsePart.isCall := by
  induction h with
  | nil => rfl
  | cons hPart _ ih =>
    rw [List.flatten_cons, List.countP_append, countP_pieces hPart, ih, List.countP_cons]
    omega

end StreamParts

/-! ## The chunks -/

/-- The chunks are read as one list of parts. -/
theorem readChunks_eq (lib : GoogleLib) (chunks : List GenerateContentResponse) (s : StreamParts)
    (usage : Option TokenUsage) :
    readChunks lib s usage chunks =
      ((chunks.flatMap GenerateContentResponse.parts).foldlM (handleStreamPart lib) s).map
        fun s => (s, ((chunks.filterMap GenerateContentResponse.usageMetadata).getLast?.map
          UsageMetadata.toTokenUsage).or usage) := by
  induction chunks generalizing s usage with
  | nil => rfl
  | cons payload rest ih =>
    have hUsage : ∀ usage : Option TokenUsage,
        ((rest.filterMap GenerateContentResponse.usageMetadata).getLast?.map
            UsageMetadata.toTokenUsage).or
          ((payload.usageMetadata.map UsageMetadata.toTokenUsage).or usage) =
        (((payload :: rest).filterMap GenerateContentResponse.usageMetadata).getLast?.map
          UsageMetadata.toTokenUsage).or usage := by
      intro usage
      cases hPayload : payload.usageMetadata with
      | none => simp [hPayload]
      | some u =>
        rw [List.filterMap_cons_some hPayload, List.getLast?_cons]
        cases (rest.filterMap GenerateContentResponse.usageMetadata).getLast? <;> rfl
    rw [readChunks, List.flatMap_cons, List.foldlM_append, GenerateContentResponse.parts]
    cases payload.candidates.head?.bind Candidate.content with
    | none =>
      simp only [Option.getD_none, List.foldlM_nil]
      rw [ih, hUsage]
      rfl
    | some content =>
      simp only [Option.getD_some]
      cases content.foldlM (handleStreamPart lib) s with
      | error err => rfl
      | ok s' =>
        simp only [Except.bind]
        rw [ih, hUsage]
        rfl

/-! ## Agreement -/

/-- The parts of a whole candidate. -/
theorem foldl_push (lib : GoogleLib) (content : List ResponsePart) (parts : CandidateParts) :
    (content.foldl (CandidateParts.push lib) parts).textParts =
        parts.textParts ++ content.filterMap ResponsePart.answerText ∧
      (content.foldl (CandidateParts.push lib) parts).reasoningParts =
        parts.reasoningParts ++ content.filterMap ResponsePart.thoughtText ∧
      (content.foldl (CandidateParts.push lib) parts).toolCalls =
        parts.toolCalls ++ content.filterMap (ResponsePart.toolCall lib) := by
  induction content generalizing parts with
  | nil => simp
  | cons part rest ih =>
    obtain ⟨hText, hReasoning, hCalls⟩ := ih (parts.push lib part)
    rw [List.foldl_cons, hText, hReasoning, hCalls]
    cases part with
    | text body thought signature =>
      by_cases hThought : thought = some true <;>
        simp [CandidateParts.push, ResponsePart.classify, ResponsePart.answerText,
          ResponsePart.thoughtText, ResponsePart.toolCall, hThought]
    | functionCall name args signature =>
      simp [CandidateParts.push, List.filterMap_cons, ResponsePart.classify,
        ResponsePart.answerText, ResponsePart.thoughtText, ResponsePart.toolCall]

theorem parts_eq (lib : GoogleLib) (content : List ResponsePart) :
    (content.foldl (CandidateParts.push lib) {}).textParts =
        content.filterMap ResponsePart.answerText ∧
      (content.foldl (CandidateParts.push lib) {}).reasoningParts =
        content.filterMap ResponsePart.thoughtText ∧
      (content.foldl (CandidateParts.push lib) {}).toolCalls =
        content.filterMap (ResponsePart.toolCall lib) := by
  have h := foldl_push lib content {}
  simpa using h

theorem toolCall_eq_nil_iff (lib : GoogleLib) (content : List ResponsePart) :
    content.filterMap (ResponsePart.toolCall lib) = [] ↔
      content.countP ResponsePart.isCall = 0 := by
  rw [List.filterMap_eq_nil_iff, List.countP_eq_zero]
  apply forall₂_congr
  intro part _
  cases part with
  | text body thought signature =>
    by_cases hThought : thought = some true <;>
      simp [ResponsePart.toolCall, ResponsePart.classify, ResponsePart.isCall, hThought]
  | functionCall => simp [ResponsePart.toolCall, ResponsePart.classify, ResponsePart.isCall]

theorem responseToTurnResult_eq (lib : GoogleLib) (response : GenerateContentResponse) :
    responseToTurnResult lib response =
      (response.parts.foldl (CandidateParts.push lib) {}).toTurnResult
        (response.usageMetadata.map UsageMetadata.toTokenUsage)
        (googleSignaturesArtifact lib
          (response.parts.foldl (CandidateParts.push lib) {}).signatures) := by
  unfold responseToTurnResult GenerateContentResponse.parts
  cases response.candidates.head?.bind Candidate.content <;> rfl

/-- What a reply must be like for its stream to give its turn. -/
structure StreamsWell (response : GenerateContentResponse) : Prop where
  /-- The calls are within the cap. -/
  room : response.parts.countP ResponsePart.isCall ≤ maxToolCalls
  /-- Beside a call there is no answer text, or some that is not blank. -/
  contentKept : response.parts.countP ResponsePart.isCall ≠ 0 →
    response.parts.filterMap ResponsePart.answerText = [] ∨
      String.join (response.parts.filterMap ResponsePart.answerText) ≠ ""
  /-- A reply is not only thoughts. -/
  answered : response.parts.countP ResponsePart.isCall = 0 →
    String.join (response.parts.filterMap ResponsePart.answerText) = "" →
    String.join (response.parts.filterMap ResponsePart.thoughtText) = ""

/-- The reply has neither a call nor text. -/
def NoAnswer (response : GenerateContentResponse) : Prop :=
  response.parts.countP ResponsePart.isCall = 0 ∧
    String.join (response.parts.filterMap ResponsePart.answerText) = ""

/-- The turn of a streamed reply is the turn of the whole reply exactly if its
calls are within the cap, its text beside a call is not blank, and it is not only
thoughts. It shows the same reasoning exactly if that is one line, or there is no
answer. -/
theorem streamGenerateContent_agrees_iff {lib : GoogleLib} {response : GenerateContentResponse}
    {chunks : List GenerateContentResponse} (h : Carries response chunks) :
    (SameTurn Eq (streamGenerateContent lib chunks) (responseToTurnResult lib response) ↔
      StreamsWell response) ∧
    (SameTurn Eq (streamGenerateContent lib chunks) (responseToTurnResult lib response) ∧
      SameReasoning (streamGenerateContent lib chunks) (responseToTurnResult lib response) ↔
      StreamsWell response ∧ (NoAnswer response ∨
        OneLine (response.parts.filterMap ResponsePart.thoughtText))) := by
  obtain ⟨⟨pieces, hPieces, hParts⟩, hUsage⟩ := h
  obtain ⟨hTexts, hReasonings, hCalls⟩ := parts_eq lib response.parts
  have hCount := StreamParts.countP_flatten hPieces
  rw [responseToTurnResult_eq]
  by_cases hRoom : response.parts.countP ResponsePart.isCall ≤ maxToolCalls
  · have hFits : ({} : StreamParts).pendingToolCalls.length +
        pieces.flatten.countP ResponsePart.isCall ≤ maxToolCalls := by simpa [hCount] using hRoom
    obtain ⟨hText, hReasoning, hSame, hSignatures, hOutput⟩ :=
      StreamParts.empty_reads.parts lib hPieces
    have hStream : streamGenerateContent lib chunks =
        (pieces.flatten.foldl (StreamParts.after lib) {}).toTurnResult
          ((pieces.flatten.foldl (StreamParts.after lib) {}).fullText = "" ∧
            (pieces.flatten.foldl (StreamParts.after lib) {}).fullReasoning = "")
          (response.parts.foldl (CandidateParts.push lib) {}).toolCalls
          (response.usageMetadata.map UsageMetadata.toTokenUsage)
          (googleSignaturesArtifact lib
            (response.parts.foldl (CandidateParts.push lib) {}).signatures) := by
      rw [streamGenerateContent, readChunks_eq, hParts,
        StreamParts.foldlM_handleStreamPart lib pieces.flatten hFits, hUsage]
      simp only [Except.map, Except.bind, Option.or_none, ← hSame, ← hSignatures]
    generalize pieces.flatten.foldl (StreamParts.after lib) {} = s at *
    rw [hSame] at hOutput
    rw [hStream]
    have hTurn : SameTurn Eq
        (s.toTurnResult (s.fullText = "" ∧ s.fullReasoning = "")
          (response.parts.foldl (CandidateParts.push lib) {}).toolCalls
          (response.usageMetadata.map UsageMetadata.toTokenUsage)
          (googleSignaturesArtifact lib
            (response.parts.foldl (CandidateParts.push lib) {}).signatures))
        ((response.parts.foldl (CandidateParts.push lib) {}).toTurnResult
          (response.usageMetadata.map UsageMetadata.toTokenUsage)
          (googleSignaturesArtifact lib
            (response.parts.foldl (CandidateParts.push lib) {}).signatures)) ↔
        StreamsWell response := by
      rw [sameTurn_iff hText hOutput Iff.rfl (by simp +contextual), BlockParts.ContentKept,
        hCalls, hTexts, hText, hTexts, Ne, toolCall_eq_nil_iff]
      have hRefl : List.Forall₂ Eq (response.parts.filterMap (ResponsePart.toolCall lib))
          (response.parts.filterMap (ResponsePart.toolCall lib)) := List.forall₂_eq_eq_eq ▸ rfl
      rw [hTexts] at hText
      rw [hReasonings] at hReasoning
      constructor
      · rintro ⟨_, hKept, hEmpty⟩
        refine ⟨hRoom, hKept, ?_⟩
        intro hNone hBlank
        by_contra hThoughts
        have hAny : s.hasAnyOutput = true := by
          apply hOutput.mpr
          rw [hReasoning]
          exact Or.inr (Or.inr hThoughts)
        have hBoth := of_decide_eq_true (hEmpty hNone hAny hBlank)
        exact hThoughts (hReasoning ▸ hBoth.2)
      · rintro ⟨_, hKept, hAnswered⟩
        refine ⟨hRefl, hKept, ?_⟩
        intro hNone _ hBlank
        apply decide_eq_true
        exact ⟨hBlank, hReasoning.trans (hAnswered hNone hBlank)⟩
    refine ⟨hTurn, ?_⟩
    rw [← hTurn]
    apply and_congr_right
    intro hAgree
    rw [sameReasoning_iff hReasoning hAgree, hTexts, hReasonings, hCalls, toolCall_eq_nil_iff]
    rfl
  · have hNotWell : ¬StreamsWell response := fun hWell => hRoom hWell.room
    have hNotSame : ¬SameTurn Eq (streamGenerateContent lib chunks)
        ((response.parts.foldl (CandidateParts.push lib) {}).toTurnResult
          (response.usageMetadata.map UsageMetadata.toTokenUsage)
          (googleSignaturesArtifact lib
            (response.parts.foldl (CandidateParts.push lib) {}).signatures)) := by
      have hOver : maxToolCalls < ({} : StreamParts).pendingToolCalls.length +
          pieces.flatten.countP ResponsePart.isCall := by
        rw [hCount]
        simpa using hRoom
      obtain ⟨message, hError⟩ := StreamParts.foldlM_handleStreamPart_error lib pieces.flatten
        (Nat.zero_le _) hOver
      have hStream : streamGenerateContent lib chunks = .error (.io message) := by
        rw [streamGenerateContent, readChunks_eq, hParts, hError]
        rfl
      rw [hStream]
      intro hSame
      cases hWhole : (response.parts.foldl (CandidateParts.push lib) {}).toTurnResult
          (response.usageMetadata.map UsageMetadata.toTokenUsage)
          (googleSignaturesArtifact lib
            (response.parts.foldl (CandidateParts.push lib) {}).signatures) with
      | ok result =>
        rw [hWhole] at hSame
        exact hSame
      | error err =>
        have hNone := whole_eq_error_iff.mp ⟨err, hWhole⟩
        rw [hCalls, toolCall_eq_nil_iff] at hNone
        apply hRoom
        rw [hNone.1]
        exact Nat.zero_le _
    exact ⟨iff_of_false hNotSame hNotWell, iff_of_false (fun h => hNotSame h.1)
      fun h => hNotWell h.1⟩

/-- `serde_json` on the arguments of the replies below. -/
def sampleLib : GoogleLib where
  fromStr _ := none
  toVec _ := []
  usageFromValue _ := none
  valueToString _ := "\x7b\x7d"
  fromSlice _ := none
  base64Encode _ := ""

/-- A thought, an answer and a call. -/
def callReply : GenerateContentResponse where
  candidates := [{
    content := some [.text "Where am I?" (some true) none, .text "Looking." none none,
      .functionCall "list_files" (.obj []) none]
    finishReason := some "STOP" }]
  usageMetadata := some { promptTokenCount := 3, totalTokenCount := 3 }

def callChunks : List GenerateContentResponse :=
  [⟨[{ content := some [.text "Where am I?" (some true) none, .text "Look" none none] }],
      some { promptTokenCount := 3 }⟩,
    ⟨[{ content := some [.text "ing." none none, .functionCall "list_files" (.obj []) none] }],
      some { promptTokenCount := 3, totalTokenCount := 3 }⟩,
    ⟨[{ content := none, finishReason := some "STOP" }], none⟩]

theorem callChunks_carry : Carries callReply callChunks := by
  refine ⟨⟨[[.text "Where am I?" (some true) none],
    [.text "Look" none none, .text "ing." none none],
    [.functionCall "list_files" (.obj []) none]], ?_, rfl⟩, rfl⟩
  refine .cons ⟨[("Where am I?", none)], by simp, rfl, rfl, rfl⟩ (.cons ?_ (.cons rfl .nil))
  exact ⟨[("Look", none), ("ing.", none)], by simp, rfl, rfl, rfl⟩

/-- A call with text before it is read from the stream as from the reply. -/
theorem streamGenerateContent_agrees_call :
    SameTurn Eq (streamGenerateContent sampleLib callChunks)
        (responseToTurnResult sampleLib callReply) ∧
      SameReasoning (streamGenerateContent sampleLib callChunks)
        (responseToTurnResult sampleLib callReply) := by
  refine (streamGenerateContent_agrees_iff callChunks_carry).2.mpr
    ⟨⟨by decide, fun _ => Or.inr (by decide), fun hNone => ?_⟩, Or.inr (Or.inr ?_)⟩
  · exact absurd hNone (by decide)
  · exact ⟨"Where am I?", by decide, rfl⟩

/-- A reply of thoughts only. -/
def thoughtReply : GenerateContentResponse where
  candidates := [{ content := some [.text "Where am I?" (some true) none] }]

/-- A reply of thoughts only is empty as a whole, and an answer as a stream. -/
theorem streamGenerateContent_differs :
    Carries thoughtReply [thoughtReply] ∧
      responseToTurnResult sampleLib thoughtReply = .error .emptyResponse ∧
      streamGenerateContent sampleLib [thoughtReply] =
        .ok (.finalText { content := "", reasoning := some "Where am I?" }) := by
  refine ⟨⟨⟨[[.text "Where am I?" (some true) none]], ?_, rfl⟩, rfl⟩, by rfl, by rfl⟩
  exact .cons ⟨[("Where am I?", none)], by simp, rfl, rfl, rfl⟩ .nil

end Choreographr.Protocols.Google
