import Choreographr.Protocols.ChatProjection

/-!
# What the chat projection replays and keeps

The replay decision of a message depends on the artifacts behind it alone:
`reasoningReplayBudget_cons` says that it is replayed when these are together
within the budget. From this come the suffix, the newest artifact and the bound,
which is the budget plus the oldest artifact that is replayed: the check is made
before an artifact's bytes are added.
-/

namespace Choreographr.Protocols

open Session

variable {messages : List ChatRequestMessage}

/-! ## The replay decision -/

def carriesArtifact (m : ChatRequestMessage) : Bool := (chatArtifact m).isSome

def artifactBytes (m : ChatRequestMessage) : Nat := ((chatArtifact m).getD []).length

/-- The bytes of all artifacts in a message list. -/
def totalBytes (messages : List ChatRequestMessage) : Nat := (messages.map artifactBytes).sum

/-- The decisions for a newest-first list, when `total` bytes stand before it. -/
def replayDecisions (total : Nat) : List ChatRequestMessage → List Bool
  | [] => []
  | m :: older =>
      (carriesArtifact m && decide (total ≤ maxReasoningBytes)) ::
        replayDecisions (total + artifactBytes m) older

/-- The walk counts accepted bytes only and saturates; past the budget neither
matters, since nothing more is accepted. -/
theorem replayWalk_eq {used total : Nat} {accepted : Bool}
    (hWithin : total ≤ maxReasoningBytes → used = total)
    (hPast : maxReasoningBytes < total → maxReasoningBytes < used ∧ accepted = true)
    (messages : List ChatRequestMessage) :
    replayWalk used accepted messages = replayDecisions total messages := by
  induction messages generalizing used total accepted with
  | nil => rfl
  | cons m older ih =>
    rw [replayWalk, replayDecisions]
    cases hArtifact : chatArtifact m with
    | none =>
      have hNone : artifactBytes m = 0 := by simp [artifactBytes, hArtifact]
      rw [ih hWithin hPast, hNone]
      simp [carriesArtifact, hArtifact]
    | some bytes =>
      have hBytes : artifactBytes m = bytes.length := by simp [artifactBytes, hArtifact]
      have hMax : maxReasoningBytes < usizeMax := by decide
      by_cases hTotal : total ≤ maxReasoningBytes
      · have hUsed := hWithin hTotal
        have hOpen : ¬ (accepted && decide (maxReasoningBytes < used)) = true := by
          simp only [Bool.and_eq_true, decide_eq_true_eq, not_and]
          omega
        have hRest : replayWalk (min (used + bytes.length) usizeMax) true older =
            replayDecisions (total + artifactBytes m) older := by
          apply ih
          · intro h
            omega
          · intro h
            exact ⟨by omega, rfl⟩
        simp [hOpen, hRest, carriesArtifact, hArtifact, hTotal]
      · obtain ⟨hUsed, hAccepted⟩ := hPast (by omega)
        have hClosed : (accepted && decide (maxReasoningBytes < used)) = true := by
          simp [hAccepted, hUsed]
        have hRest : replayWalk used accepted older =
            replayDecisions (total + artifactBytes m) older := by
          apply ih
          · intro h
            omega
          · intro h
            exact ⟨hUsed, hAccepted⟩
        simp [hClosed, hRest, hTotal]

theorem replayDecisions_append (total : Nat) (newer : List ChatRequestMessage)
    (m : ChatRequestMessage) :
    replayDecisions total (newer ++ [m]) =
      replayDecisions total newer ++
        [carriesArtifact m && decide (total + totalBytes newer ≤ maxReasoningBytes)] := by
  induction newer generalizing total with
  | nil => simp [replayDecisions, totalBytes]
  | cons x newer ih =>
    have hSum : total + artifactBytes x + totalBytes newer = total + totalBytes (x :: newer) := by
      simp [totalBytes, Nat.add_assoc]
    rw [List.cons_append, replayDecisions, ih, replayDecisions, hSum]
    rfl

theorem totalBytes_reverse (messages : List ChatRequestMessage) :
    totalBytes messages.reverse = totalBytes messages := by
  simp [totalBytes, List.sum_reverse]

theorem reasoningReplayBudget_cons (m : ChatRequestMessage) (rest : List ChatRequestMessage) :
    reasoningReplayBudget (m :: rest) =
      (carriesArtifact m && decide (totalBytes rest ≤ maxReasoningBytes)) ::
        reasoningReplayBudget rest := by
  have hWalk : ∀ messages, replayWalk 0 false messages = replayDecisions 0 messages :=
    fun messages => replayWalk_eq (fun _ => rfl) (fun h => absurd h (Nat.not_lt_zero _)) messages
  rw [reasoningReplayBudget, hWalk, List.reverse_cons, replayDecisions_append,
    totalBytes_reverse, Nat.zero_add, reasoningReplayBudget, hWalk]
  simp

theorem reasoningReplayBudget_nil : reasoningReplayBudget [] = [] := rfl

theorem length_reasoningReplayBudget (messages : List ChatRequestMessage) :
    (reasoningReplayBudget messages).length = messages.length := by
  induction messages with
  | nil => rfl
  | cons m rest ih => rw [reasoningReplayBudget_cons, List.length_cons, List.length_cons, ih]

/-! ## Positions -/

def carriesAt (messages : List ChatRequestMessage) (i : Nat) : Bool :=
  (messages[i]?.map carriesArtifact).getD false

/-- The artifact at a position is replayed. -/
def replaysAt (messages : List ChatRequestMessage) (i : Nat) : Bool :=
  ((reasoningReplayBudget messages)[i]?).getD false

theorem replaysAt_eq (messages : List ChatRequestMessage) (i : Nat) :
    replaysAt messages i =
      (carriesAt messages i && decide (totalBytes (messages.drop (i + 1)) ≤ maxReasoningBytes)) := by
  induction messages generalizing i with
  | nil => simp [replaysAt, carriesAt, reasoningReplayBudget_nil]
  | cons m rest ih =>
    cases i with
    | zero => simp [replaysAt, carriesAt, reasoningReplayBudget_cons]
    | succ i => simpa [replaysAt, carriesAt, reasoningReplayBudget_cons] using ih i

variable {lib : WireLib} {echo : ChatReasoningEcho}

theorem map_message_zipWith (messages : List ChatRequestMessage) (decisions : List Bool)
    (h : decisions.length = messages.length) :
    (messages.zipWith (lowerMessage lib echo) decisions).map ChatWireMessage.message =
      messages := by
  induction messages generalizing decisions with
  | nil => simp
  | cons m rest ih =>
    cases decisions with
    | nil => simp at h
    | cons d decisions =>
      simp only [List.zipWith_cons_cons, List.map_cons]
      rw [ih decisions (by simpa using h)]
      rfl

/-- The message has no text, no tool calls and no images. -/
def onlyReasoning (m : ChatRequestMessage) : Bool :=
  !(m.content.any fun text => !(trim text).isEmpty) && !hasToolCalls m && m.images.isEmpty

/-- An answer whose reasoning was `n` bytes long. -/
def answerWith (n : Nat) : ChatRequestMessage :=
  { role := .assistant
    content := some "answer"
    reasoningArtifact := some (.chatReasoning .reasoningContent (List.replicate n 120)) }

theorem artifactBytes_answerWith (n : Nat) : artifactBytes (answerWith n) = n := by
  simp [artifactBytes, chatArtifact, answerWith]

/-- The projection omits the message at a position. -/
def omitsAt (lib : WireLib) (messages : List ChatRequestMessage) (echo : ChatReasoningEcho)
    (i : Nat) : Bool :=
  ((messages.zipWith (lowerMessage lib echo) (reasoningReplayBudget messages))[i]?).any
    ChatWireMessage.isEmpty

/-- The drop predicate as a diagnostic asks it about a message. -/
def saysEmpty (lib : WireLib) (echo : ChatReasoningEcho) (m : ChatRequestMessage) : Bool :=
  chatAssistantPayloadIsEmpty lib m.content (hasToolCalls m) (!m.images.isEmpty)
    m.reasoningArtifact echo

/-- The artifacts behind the position are over the budget, and the message there has
nothing but an artifact that would be emitted. -/
def withholdsOnlyPayload (lib : WireLib) (messages : List ChatRequestMessage)
    (echo : ChatReasoningEcho) (i : Nat) (m : ChatRequestMessage) : Prop :=
  carriesArtifact m = true ∧ maxReasoningBytes < totalBytes (messages.drop (i + 1)) ∧
    onlyReasoning m = true ∧
    (lowerReasoning lib .assistant m.reasoningArtifact echo).any WireReasoning.hasPayload = true

theorem hasPayload_lowerReasoning_none :
    (lowerReasoning lib .assistant none echo).any WireReasoning.hasPayload = false := by
  rcases echo with ⟨field, required⟩
  cases field with
  | none => cases required <;> rfl
  | some field => cases field <;> cases required <;> rfl

theorem hasPayload_lowerReasoning {artifact : Option ReasoningArtifact}
    (h : ∀ field bytes, artifact ≠ some (.chatReasoning field bytes)) :
    (lowerReasoning lib .assistant artifact echo).any WireReasoning.hasPayload = false := by
  rw [← @hasPayload_lowerReasoning_none lib echo]
  cases artifact with
  | none => rfl
  | some a =>
    cases a with
    | chatReasoning field bytes => exact absurd rfl (h field bytes)
    | _ => rfl

theorem saysEmpty_eq (m : ChatRequestMessage) :
    saysEmpty lib echo m = (onlyReasoning m &&
      !(lowerReasoning lib .assistant m.reasoningArtifact echo).any WireReasoning.hasPayload) := by
  simp [saysEmpty, chatAssistantPayloadIsEmpty, payloadIsEmpty, onlyReasoning]

theorem omitsAt_eq {i : Nat} {m : ChatRequestMessage} (hMessage : messages[i]? = some m)
    (hRole : m.role = .assistant) :
    omitsAt lib messages echo i = (onlyReasoning m &&
      !(lowerReasoning lib .assistant (if replaysAt messages i then m.reasoningArtifact else none)
        echo).any WireReasoning.hasPayload) := by
  have hLength := length_reasoningReplayBudget messages
  have hLt : i < messages.length := (List.getElem?_eq_some_iff.mp hMessage).1
  obtain ⟨replay, hReplay⟩ : ∃ replay, (reasoningReplayBudget messages)[i]? = some replay :=
    ⟨_, List.getElem?_eq_getElem (hLength ▸ hLt)⟩
  have hReplays : replaysAt messages i = replay := by rw [replaysAt, hReplay, Option.getD_some]
  have hLowered : (messages.zipWith (lowerMessage lib echo) (reasoningReplayBudget messages))[i]? =
      some (lowerMessage lib echo m replay) := by
    rw [List.getElem?_zipWith_eq_some]
    exact ⟨m, replay, hMessage, hReplay, rfl⟩
  rw [omitsAt, hLowered, hReplays, Option.any_some]
  simp [ChatWireMessage.isEmpty, lowerMessage, payloadIsEmpty, onlyReasoning, hRole]

theorem hasPayload_of_not_carries {m : ChatRequestMessage} (hRole : m.role = .assistant)
    (h : carriesArtifact m = false) :
    (lowerReasoning lib .assistant m.reasoningArtifact echo).any WireReasoning.hasPayload =
      false := by
  apply hasPayload_lowerReasoning
  intro field bytes hArtifact
  simp [carriesArtifact, chatArtifact, hArtifact, hRole] at h

/-- The elements of a list that pass a test are those at the positions where it passes. -/
theorem filter_map_eq_zipIdx {α β : Type} (p : α → Bool) (f : α → β) (xs : List α) :
    (xs.filter p).map f =
      ((xs.map f).zipIdx.filter fun e => (xs[e.2]?).any p).map Prod.fst := by
  have hSelf : xs.filter p = (xs.zipIdx.filter fun e => p e.1).map Prod.fst := by
    have hFirst := congrArg (List.filter p) (List.zipIdx_map_fst 0 xs)
    rw [List.filter_map] at hFirst
    exact hFirst.symm
  rw [hSelf, List.zipIdx_map, List.filter_map, List.map_map, List.map_map]
  have hTest : (xs.zipIdx.filter fun e => p e.1) =
      xs.zipIdx.filter ((fun e : β × Nat => (xs[e.2]?).any p) ∘ Prod.map f id) := by
    apply List.filter_congr
    intro e he
    have hGet : xs[e.2]? = some e.1 := List.mem_zipIdx_iff_getElem?.mp he
    simp [hGet]
  rw [hTest]
  rfl

/-- The projection sends the messages at the positions that it does not omit, in order;
and at the position of an assistant message it agrees with the drop predicate exactly
if it does not withhold the message's only payload. -/
theorem omitsAt_iff_saysEmpty_iff (lib : WireLib) (messages : List ChatRequestMessage)
    (echo : ChatReasoningEcho) :
    (chatWireMessages lib messages echo).messages.map ChatWireMessage.message =
        (messages.zipIdx.filter fun e => !omitsAt lib messages echo e.2).map Prod.fst ∧
      ∀ i m, messages[i]? = some m → m.role = .assistant →
        ((omitsAt lib messages echo i = true ↔ saysEmpty lib echo m = true) ↔
          ¬ withholdsOnlyPayload lib messages echo i m) := by
  refine ⟨?_, fun i m hMessage hRole => ?_⟩
  · have hAll := @map_message_zipWith lib echo messages _
      (length_reasoningReplayBudget messages)
    have hPositions := filter_map_eq_zipIdx (fun w => !ChatWireMessage.isEmpty w)
      ChatWireMessage.message
      (messages.zipWith (lowerMessage lib echo) (reasoningReplayBudget messages))
    rw [hAll] at hPositions
    rw [chatWireMessages, hPositions]
    congr 1
    apply List.filter_congr
    intro e he
    have hGet : messages[e.2]? = some e.1 := List.mem_zipIdx_iff_getElem?.mp he
    have hLt : e.2 < messages.length := (List.getElem?_eq_some_iff.mp hGet).1
    rw [omitsAt]
    cases hLowered : (messages.zipWith (lowerMessage lib echo)
        (reasoningReplayBudget messages))[e.2]? with
    | none =>
      rw [List.getElem?_eq_none_iff, List.length_zipWith, length_reasoningReplayBudget] at hLowered
      omega
    | some w => rfl
  · rw [omitsAt_eq hMessage hRole, saysEmpty_eq, withholdsOnlyPayload]
    have hReplays := replaysAt_eq messages i
    have hCarriesAt : carriesAt messages i = carriesArtifact m := by
      rw [carriesAt, hMessage]
      rfl
    rw [hCarriesAt] at hReplays
    cases hCarries : carriesArtifact m with
    | false =>
      have hNone := @hasPayload_of_not_carries lib echo m hRole hCarries
      rw [hCarries, Bool.false_and] at hReplays
      simp [hReplays, hNone, hasPayload_lowerReasoning_none]
    | true =>
      by_cases hBudget : totalBytes (messages.drop (i + 1)) ≤ maxReasoningBytes
      · have hYes : replaysAt messages i = true := by simp [hReplays, hCarries, hBudget]
        have hWithin : ¬ maxReasoningBytes < totalBytes (messages.drop (i + 1)) := by omega
        simp [hYes, hWithin]
      · have hNo : replaysAt messages i = false := by simp [hReplays, hBudget]
        have hPast : maxReasoningBytes < totalBytes (messages.drop (i + 1)) := by omega
        simp [hNo, hPast, hasPayload_lowerReasoning_none]

/-! A newest answer whose reasoning is over the budget withholds the one payload of an
older message. -/

/-- An assistant message with a reasoning artifact and nothing else. -/
def reasoningOnly : ChatRequestMessage :=
  { role := .assistant
    content := none
    reasoningArtifact := some (.chatReasoning .reasoningContent [120]) }

/-- Libraries that read no value; the artifact below is plain text. -/
def plainLib : WireLib := ⟨fun _ => none, fun _ => ""⟩

def withheldOnly : List ChatRequestMessage := [reasoningOnly, answerWith (maxReasoningBytes + 1)]

theorem omitsAt_ne_saysEmpty :
    withheldOnly[0]? = some reasoningOnly ∧ reasoningOnly.role = .assistant ∧
      omitsAt plainLib withheldOnly {} 0 = true ∧ saysEmpty plainLib {} reasoningOnly = false := by
  have hGet : withheldOnly[0]? = some reasoningOnly := rfl
  have hPayload : (lowerReasoning plainLib .assistant reasoningOnly.reasoningArtifact {}).any
      WireReasoning.hasPayload = true := by
    decide +kernel
  have hBehind : totalBytes (withheldOnly.drop 1) = maxReasoningBytes + 1 := by
    simp [withheldOnly, totalBytes, artifactBytes_answerWith]
  have hReplays : replaysAt withheldOnly 0 = false := by
    rw [replaysAt_eq, hBehind]
    simp
  refine ⟨hGet, rfl, ?_, ?_⟩
  · rw [omitsAt_eq hGet rfl, hReplays, if_neg (by simp), hasPayload_lowerReasoning_none]
    rfl
  · rw [saysEmpty_eq, hPayload]
    simp

end Choreographr.Protocols
